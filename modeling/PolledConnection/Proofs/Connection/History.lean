import PolledConnection.Connection.Run

/-! # Views of a history

  A history is a list of events. The statements about a connection look at it
  through a few views: the calls that its transport answered, the sends that
  have ended, and the bytes that went onto the wire. Every view goes along
  with appending.

  The requests of a run have a view too: the messages that were accepted.
-/

namespace PolledConnection

/-! ### Views of one event -/

/-- The call that an event tells of. -/
def Event.call? : Event → Option Transport.Call
  | .transport (.called call) => some call
  | _ => none

/-- The end of a send that an event tells of. -/
def Event.completion? : Event → Option (Tag × Verdict)
  | .sendComplete tag verdict _ => some (tag, verdict)
  | _ => none

/-- The bytes that a transport took in a call: no more than it was offered, whatever it claims. -/
def Transport.Call.taken : Transport.Call → Bytes
  | .write offered (.ok n) => offered.take n
  | _ => []

section
variable (tag : Tag) (verdict : Verdict) (phase : Phase) (event : Transport.Event) (note : Note)

@[simp] theorem Event.call?_called (call : Transport.Call) :
    (Event.transport (.called call)).call? = some call := rfl

@[simp] theorem Event.call?_openComplete :
    (Event.openComplete tag verdict phase).call? = none := rfl

@[simp] theorem Event.call?_ioError : (Event.ioError tag phase).call? = none := rfl

@[simp] theorem Event.call?_sendComplete :
    (Event.sendComplete tag verdict phase).call? = none := rfl

@[simp] theorem Event.call?_closeComplete :
    (Event.closeComplete tag phase).call? = none := rfl

@[simp] theorem Event.call?_note : (Event.note note).call? = none := rfl

@[simp] theorem Event.completion?_sendComplete :
    (Event.sendComplete tag verdict phase).completion? = some (tag, verdict) := rfl

@[simp] theorem Event.completion?_openComplete :
    (Event.openComplete tag verdict phase).completion? = none := rfl

@[simp] theorem Event.completion?_ioError : (Event.ioError tag phase).completion? = none := rfl

@[simp] theorem Event.completion?_closeComplete :
    (Event.closeComplete tag phase).completion? = none := rfl

@[simp] theorem Event.completion?_transport :
    (Event.transport event).completion? = none := rfl

@[simp] theorem Event.completion?_note : (Event.note note).completion? = none := rfl

end

namespace Connection

variable {σ : Type}

/-! ### Views of a history -/

/-- A call of the transport, as an event of the connection. -/
abbrev called (call : Transport.Call) : Event := .transport (.called call)

/-- What happened inside a call, as events of the connection. -/
def inside (effects : List Effect) : List Event := effects.map fun e => .transport (.effect e)

/-- The calls of the transport, with their answers. -/
def calls (es : List Event) : List Transport.Call := es.filterMap Event.call?

/-- The sends that have ended, and how. -/
def completions (es : List Event) : List (Tag × Verdict) := es.filterMap Event.completion?

/-- The bytes that the transport took, over all writes. -/
def wire (es : List Event) : Bytes := (calls es).flatMap Transport.Call.taken

@[simp] theorem calls_nil : calls [] = [] := rfl

@[simp] theorem calls_cons (e : Event) (es : List Event) :
    calls (e :: es) = e.call?.toList ++ calls es := by
  cases h : e.call? <;> simp [calls, h]

@[simp] theorem calls_append (es fs : List Event) : calls (es ++ fs) = calls es ++ calls fs :=
  List.filterMap_append

@[simp] theorem calls_inside (effects : List Effect) : calls (inside effects) = [] := by
  simp [calls, inside, Event.call?]

section
variable (verdict : Verdict) (phase : Phase) (tags : List Tag) (messages : List Message)

@[simp] theorem calls_openComplete :
    calls (tags.map fun tag => .openComplete tag verdict phase) = [] := by
  simp [calls, Event.call?]

@[simp] theorem calls_ioError : calls (tags.map fun tag => .ioError tag phase) = [] := by
  simp [calls, Event.call?]

@[simp] theorem calls_closeComplete :
    calls (tags.map fun tag => .closeComplete tag phase) = [] := by
  simp [calls, Event.call?]

@[simp] theorem calls_sendComplete :
    calls (messages.map fun m => .sendComplete m.tag verdict phase) = [] := by
  simp [calls, Event.call?]

end

@[simp] theorem completions_nil : completions [] = [] := rfl

@[simp] theorem completions_cons (e : Event) (es : List Event) :
    completions (e :: es) = e.completion?.toList ++ completions es := by
  cases h : e.completion? <;> simp [completions, h]

@[simp] theorem completions_append (es fs : List Event) :
    completions (es ++ fs) = completions es ++ completions fs :=
  List.filterMap_append

@[simp] theorem completions_inside (effects : List Effect) :
    completions (inside effects) = [] := by
  simp [completions, inside]

section
variable (verdict : Verdict) (phase : Phase) (tags : List Tag) (messages : List Message)

@[simp] theorem completions_openComplete :
    completions (tags.map fun tag => .openComplete tag verdict phase) = [] := by
  simp [completions, Event.completion?]

@[simp] theorem completions_ioError :
    completions (tags.map fun tag => .ioError tag phase) = [] := by
  simp [completions, Event.completion?]

@[simp] theorem completions_closeComplete :
    completions (tags.map fun tag => .closeComplete tag phase) = [] := by
  simp [completions, Event.completion?]

@[simp] theorem completions_sendComplete :
    completions (messages.map fun m => .sendComplete m.tag verdict phase) =
      messages.map fun m => (m.tag, verdict) := by
  simp [completions, List.filterMap_map, Function.comp_def]

end

theorem wire_append (es fs : List Event) : wire (es ++ fs) = wire es ++ wire fs := by
  simp [wire]

/-! ### What was accepted -/

/-- The message that a request had accepted. -/
def acceptedBy : Request → Answer → List Message
  | .send tag bytes, .accepted (.ok ()) => [.new bytes tag]
  | .sendZeros tag size, .accepted (.ok ()) => [.new (List.replicate size 0) tag]
  | _, _ => []

/-- The messages that were accepted in a run, in the order of the requests. -/
def accepted : List Request → List Answer → List Message
  | r :: rs, a :: as => acceptedBy r a ++ accepted rs as
  | _, _ => []

/-! ### Whole lives -/

/-- Serves requests in order and destroys the connection at the end, if asked to. -/
def live (T : Transport σ) (rs : List Request) (destroyed : Bool) : Step σ (List Answer) := do
  let answers ← serveAll T rs
  if destroyed then destroy T
  return answers

end Connection

end PolledConnection
