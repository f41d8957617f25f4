import PolledConnection.Transport.Basic

/-! # Scripted transports

  A transport that does what its script says, call by call. An empty script
  has defaults: an open or a read waits, a close is done, a write takes
  everything.

  Such a transport keeps the receiver of the last open for good and may hand
  it bytes inside any open, close or read.
-/

namespace PolledConnection.Script

/-- What one open, close or read does. -/
structure Entry where
  /-- The chunks handed to the receiver first. -/
  deliver : List Bytes
  /-- The answer. -/
  answer : Progress
deriving DecidableEq, Repr

/-- What one write answers. -/
inductive WriteEntry where
  /-- Takes up to that many bytes. -/
  | upTo (n : Nat)
  /-- Claims that many bytes, however many were offered. -/
  | claiming (n : Nat)
  /-- Fails. -/
  | failing (fault : Fault)
deriving DecidableEq, Repr

/-- The answer of a write to an offer of that size. -/
def WriteEntry.answer (offered : Nat) : WriteEntry → Count
  | .upTo n => .ok (min n offered)
  | .claiming n => .ok n
  | .failing fault => .error fault

/-- The first entry of a script, or the default, and the rest of the script. -/
def next {α : Type} (fallback : α) : List α → α × List α
  | [] => (fallback, [])
  | a :: as => (a, as)

/-- A transport that follows scripts. -/
structure Transport where
  /-- The opens to come. -/
  opens : List Entry
  /-- The closes to come. -/
  closes : List Entry
  /-- The reads to come. -/
  reads : List Entry
  /-- The writes to come. -/
  writes : List WriteEntry
  /-- The writes after those; everything is taken if not given. -/
  writeDefault : Option WriteEntry
  /-- The options that are accepted. -/
  accepted : List String
  /-- The options that are set. -/
  options : Settings
  /-- The receiver of the last open. -/
  receiver : Option Receiver
deriving DecidableEq, Repr

namespace Transport

/-- Hands chunks to the receiver, if there was an open. -/
def deliver (t : Transport) (chunks : List Bytes) : List Effect :=
  match t.receiver with
  | none => []
  | some r => chunks.map fun bytes => .received r.tag bytes

/-- Follows one entry. -/
def follow (entry : Entry) : Act Effect Transport Progress := do
  let t ← Act.get
  Act.emitAll (t.deliver entry.deliver)
  return entry.answer

/-- Opens as scripted. -/
def establish (receiver : Receiver) : Act Effect Transport Progress := do
  let t ← Act.get
  let (entry, rest) := next ⟨[], .waiting⟩ t.opens
  Act.put { t with opens := rest, receiver := some receiver }
  follow entry

/-- Closes as scripted. -/
def close : Act Effect Transport Progress := do
  let t ← Act.get
  let (entry, rest) := next ⟨[], .done⟩ t.closes
  Act.put { t with closes := rest }
  follow entry

/-- Reads as scripted. -/
def read : Act Effect Transport Progress := do
  let t ← Act.get
  let (entry, rest) := next ⟨[], .waiting⟩ t.reads
  Act.put { t with reads := rest }
  follow entry

/-- Writes as scripted. -/
def write (bytes : Bytes) : Act Effect Transport Count := do
  let t ← Act.get
  let (entry, rest) := next (t.writeDefault.getD (.upTo bytes.length)) t.writes
  Act.put { t with writes := rest }
  return entry.answer bytes.length

/-- Takes an option that is on the list of accepted ones. The offer is an effect in any case. -/
def setOption (name : String) (value : Setting) : Act Effect Transport (Except Fault Unit) := do
  let t ← Act.get
  Act.emit (.optionOffered name value)
  if name ∈ t.accepted then
    Act.put { t with options := t.options.push name value }
    return .ok ()
  else return .error (.unsupportedOption name)

/-- The scripted transport. -/
def transport : PolledConnection.Transport Transport where
  establish := establish
  close := close
  read := read
  write := write
  setOption := setOption
  retrieve := Transport.options
  backlog t := t.reads.length

end Transport

end PolledConnection.Script
