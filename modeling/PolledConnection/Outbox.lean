import PolledConnection.Transport.Basic

/-! # The outbox

  Messages that wait to be written, oldest first. A message keeps its own
  bytes and counts down how many of them are still unsent. Only the head is
  ever offered to the transport, and only its unsent rest; one attempt to
  write it ends as a `Drain`.

  Whatever count a transport answers, no more than the unsent rest is taken
  from the head (`unsent_accept_le`), and the other messages stay as they are.
  The count is clamped before it is subtracted; that is why the subtraction
  passes its check (`isSome_accept?`).
-/

namespace PolledConnection

/-- A message in the outbox. -/
structure Message where
  /-- All its bytes. -/
  bytes : Bytes
  /-- How many of them, counted from the end, are unsent. -/
  unsent : Nat
  /-- Names the callback that learns how the send ended. -/
  tag : Tag
deriving DecidableEq, Repr

namespace Message

/-- A message of which nothing has been sent. -/
def new (bytes : Bytes) (tag : Tag) : Message := ⟨bytes, bytes.length, tag⟩

/-- The bytes that are still unsent, with the subtraction and the range checked. -/
def rest? (m : Message) : Option Bytes := do
  let start ← minus? m.bytes.length m.unsent
  slice? m.bytes start m.bytes.length

/-- The bytes that are still unsent. There are none of a message that claims to have more left than
    it has. -/
def rest (m : Message) : Bytes := m.rest?.getD []

/-- The message after a transport has claimed `n` bytes of its rest, with the subtraction checked. -/
def accept? (m : Message) (n : Nat) : Option Message := do
  let left ← minus? m.unsent (min n m.unsent)
  return { m with unsent := left }

theorem accept?_eq_some (m : Message) (n : Nat) :
    m.accept? n = some { m with unsent := m.unsent - min n m.unsent } := by
  have clamped : min n m.unsent ≤ m.unsent := Nat.min_le_right n m.unsent
  simp [accept?, minus?_of_le clamped]

/-- A clamped count can always be subtracted. -/
theorem isSome_accept? (m : Message) (n : Nat) : (m.accept? n).isSome := by
  rw [accept?_eq_some]
  rfl

/-- The message after a transport has claimed `n` bytes of its rest. -/
def accept (m : Message) (n : Nat) : Message := (m.accept? n).get (m.isSome_accept? n)

theorem accept?_eq (m : Message) (n : Nat) : m.accept? n = some (m.accept n) :=
  (Option.some_get _).symm

theorem accept_eq (m : Message) (n : Nat) :
    m.accept n = { m with unsent := m.unsent - min n m.unsent } :=
  Option.some.inj ((m.accept?_eq n).symm.trans (m.accept?_eq_some n))

theorem rest?_of_le {m : Message} (bounded : m.unsent ≤ m.bytes.length) :
    m.rest? = some (m.bytes.drop (m.bytes.length - m.unsent)) := by
  have range : m.bytes.length - m.unsent ≤ m.bytes.length := Nat.sub_le _ _
  simp [rest?, minus?_of_le bounded, slice?_of_le range]

theorem rest_of_le {m : Message} (bounded : m.unsent ≤ m.bytes.length) :
    m.rest = m.bytes.drop (m.bytes.length - m.unsent) := by
  rw [rest, rest?_of_le bounded, Option.getD_some]

@[simp] theorem rest_new (bytes : Bytes) (tag : Tag) : (new bytes tag).rest = bytes := by
  rw [rest_of_le (Nat.le_refl bytes.length)]
  simp [new]

@[simp] theorem accept_bytes (m : Message) (n : Nat) : (m.accept n).bytes = m.bytes := by
  rw [accept_eq]

@[simp] theorem accept_tag (m : Message) (n : Nat) : (m.accept n).tag = m.tag := by
  rw [accept_eq]

theorem unsent_accept (m : Message) (n : Nat) :
    (m.accept n).unsent = m.unsent - min n m.unsent := by
  rw [accept_eq]

theorem unsent_accept_le (m : Message) (n : Nat) : (m.accept n).unsent ≤ m.unsent := by
  rw [unsent_accept]
  exact Nat.sub_le _ _

end Message

/-- The messages that wait, oldest first. -/
structure Outbox where
  /-- The messages. -/
  messages : List Message
deriving DecidableEq, Repr

/-- How an attempt to write the head ended. -/
inductive Drain where
  /-- There was no message. -/
  | empty
  /-- Nothing was taken; the head stays. -/
  | waiting
  /-- Some bytes were taken; the rest of the head stays. -/
  | partially
  /-- The last byte was taken; the head has left. -/
  | sent (message : Message)
  /-- The transport failed; the head has left unsent. -/
  | failed (message : Message) (fault : Fault)
deriving DecidableEq, Repr

namespace Outbox

/-- No messages. -/
def empty : Outbox := ⟨[]⟩

/-- Number of messages. -/
def length (b : Outbox) : Nat := b.messages.length

/-- Adds a message at the end. -/
def push (b : Outbox) (m : Message) : Outbox := ⟨b.messages ++ [m]⟩

/-- The bytes that are offered next, if there is a message. -/
def offer? (b : Outbox) : Option Bytes := b.messages.head?.map Message.rest

/-- Takes the transport's answer to the offer into account. -/
def settle (b : Outbox) (answer : Count) : Drain × Outbox :=
  match b.messages with
  | [] => (.empty, b)
  | head :: tail =>
    match answer with
    | .error fault => (.failed head fault, ⟨tail⟩)
    | .ok 0 => (.waiting, b)
    | .ok n@(_ + 1) =>
      if (head.accept n).unsent = 0 then (.sent (head.accept n), ⟨tail⟩)
      else (.partially, ⟨head.accept n :: tail⟩)

@[simp] theorem length_empty : empty.length = 0 := rfl

@[simp] theorem length_push (b : Outbox) (m : Message) : (b.push m).length = b.length + 1 := by
  simp [length, push]

@[simp] theorem messages_push (b : Outbox) (m : Message) :
    (b.push m).messages = b.messages ++ [m] := rfl

end Outbox

end PolledConnection
