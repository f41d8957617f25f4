import PolledConnection.Act
import PolledConnection.Effect

/-! # TLS engines

  What a TLS transport needs of an engine with state `ε`, whose sessions have
  state `σ`. The engine may answer whatever it likes, also counts that exceed
  the buffer; the transport has to cope. Closing a session is not among the
  operations: it takes no time, cannot fail and leaves no session behind.

  A call with what it was given and its answer is part of the history
  (`Engine.request`, `Engine.take`, `Engine.offer`).
-/

namespace PolledConnection.Tls

/-- What a session answers to a read: it puts `data` at the front of a buffer of zeros, as far as
    it fits, and claims to have put `count` bytes there. -/
structure Fill where
  /-- The number of bytes that the session claims. -/
  count : Nat
  /-- The bytes that it puts into the buffer. -/
  data : Bytes
deriving DecidableEq, Repr

namespace Fill

/-- The whole buffer behind a read. -/
def buffer (f : Fill) (size : Nat) : Bytes := (f.data ++ List.replicate size 0).take size

@[simp] theorem length_buffer (f : Fill) (size : Nat) : (f.buffer size).length = size := by
  unfold buffer
  rw [List.length_take, List.length_append, List.length_replicate]
  omega

/-- The front of the buffer that a fill claims, with the range checked. -/
def chunk? (f : Fill) (size : Nat) : Option Bytes := slice? (f.buffer size) 0 (min f.count size)

theorem chunk?_eq_some (f : Fill) (size : Nat) :
    f.chunk? size = some ((f.buffer size).take (min f.count size)) := by
  have within : min f.count size ≤ (f.buffer size).length := by
    rw [length_buffer]
    exact Nat.min_le_right _ _
  rw [chunk?, slice?_of_le (Nat.zero_le _) within, List.drop_zero]

/-- A clamped count is a range of the buffer. -/
theorem isSome_chunk? (f : Fill) (size : Nat) : (f.chunk? size).isSome := by
  rw [chunk?_eq_some]
  rfl

/-- The front of the buffer that a fill claims, at most the whole buffer. -/
def chunk (f : Fill) (size : Nat) : Bytes := (f.chunk? size).get (f.isSome_chunk? size)

theorem chunk?_eq (f : Fill) (size : Nat) : f.chunk? size = some (f.chunk size) :=
  (Option.some_get _).symm

theorem chunk_eq (f : Fill) (size : Nat) :
    f.chunk size = (f.data ++ List.replicate size 0).take (min f.count size) := by
  have front := Option.some.inj ((f.chunk?_eq size).symm.trans (f.chunk?_eq_some size))
  rw [front, buffer, List.take_take, Nat.min_eq_left (Nat.min_le_right _ _)]

end Fill

/-- The operations of an engine and of its sessions. -/
structure Engine (ε σ : Type) where
  /-- The options that the engine can act on. -/
  capabilities : ε → Capabilities
  /-- Creates a session over a carrier, which it keeps; a carrier of a failed attempt is lost. -/
  create : Options → (hostname : String) → (port : UInt16) → Carrier → ε → Except Fault σ × ε
  /-- Advances the handshake. -/
  handshake : σ → Progress × σ
  /-- Decrypts into a buffer of that size. A count of zero means that nothing is there yet. -/
  read : (size : Nat) → σ → Except Fault Fill × σ
  /-- Encrypts bytes; answers how many were taken. -/
  write : Bytes → σ → Count × σ
  /-- A bound on how many reads in a row can have a positive count. -/
  backlog : σ → Nat

namespace Engine

variable {ε σ : Type}

/-- Asks for a session over a carrier, and records that with the answer. -/
def request (eng : Engine ε σ) (options : Options) (hostname : String) (port : UInt16)
    (carrier : Carrier) : Act Effect ε (Except Fault σ) := do
  let (answer, e) := eng.create options hostname port carrier (← Act.get)
  Act.put e
  Act.emit (.sessionRequested hostname port carrier options (answer.map fun _ => ()))
  return answer

/-- Reads from a session into a buffer of that size, and records that with the answer. -/
def take (eng : Engine ε σ) (size : Nat) : Act Effect σ (Except Fault Fill) := do
  let (answer, session) := eng.read size (← Act.get)
  Act.put session
  Act.emit (.sessionRead size (answer.map Fill.count))
  return answer

/-- Offers bytes to a session, and records that with the answer. -/
def offer (eng : Engine ε σ) (bytes : Bytes) : Act Effect σ Count := do
  let (answer, session) := eng.write bytes (← Act.get)
  Act.put session
  Act.emit (.sessionWrite bytes answer)
  return answer

@[simp] theorem run_request (eng : Engine ε σ) (options : Options) (hostname : String)
    (port : UInt16) (carrier : Carrier) (e : ε) :
    (eng.request options hostname port carrier).run e =
      let (answer, e) := eng.create options hostname port carrier e
      ⟨answer, e, [.sessionRequested hostname port carrier options (answer.map fun _ => ())]⟩ := rfl

@[simp] theorem run_take (eng : Engine ε σ) (size : Nat) (session : σ) :
    (eng.take size).run session =
      let (answer, session) := eng.read size session
      ⟨answer, session, [.sessionRead size (answer.map Fill.count)]⟩ := rfl

@[simp] theorem run_offer (eng : Engine ε σ) (bytes : Bytes) (session : σ) :
    (eng.offer bytes).run session =
      let (answer, session) := eng.write bytes session
      ⟨answer, session, [.sessionWrite bytes answer]⟩ := rfl

end Engine

end PolledConnection.Tls
