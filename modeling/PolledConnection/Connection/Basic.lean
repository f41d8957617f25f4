import PolledConnection.Outbox

/-! # Connections

  A connection owns one transport and an outbox and turns the transport's
  primitives into open, send and close. It never blocks and does nothing on
  its own: all progress is made by `poll`.

  The caller hands over callbacks and learns from them how things end. Here a
  callback is a `Tag`, and its firing is an event of the history. The phase is
  always updated before a callback fires; the event keeps the phase that the
  callback finds.

  The life of a connection, in `poll`, `beginClose` and `destroy`:

    initial → opening → opened → closing → closed
                 │         │        ▲
                 └─────────┴─ failed┘
-/

namespace PolledConnection

/-- What can happen to a connection. A callback finds the connection in a phase, and its event keeps
    that. -/
inductive Event where
  /-- The open ended. -/
  | openComplete (tag : Tag) (verdict : Verdict) (phase : Phase)
  /-- The transport failed while the connection was open. -/
  | ioError (tag : Tag) (phase : Phase)
  /-- A send ended. -/
  | sendComplete (tag : Tag) (verdict : Verdict) (phase : Phase)
  /-- The close ended. -/
  | closeComplete (tag : Tag) (phase : Phase)
  /-- The transport was called, or something happened inside a call. -/
  | transport (event : Transport.Event)
  /-- The connection reported something. -/
  | note (note : Note)
deriving DecidableEq

/-- A connection over a transport with state `σ`. -/
structure Connection (σ : Type) where
  /-- Where the connection stands. -/
  phase : Phase
  /-- The state of its transport. -/
  transport : σ
  /-- The messages that wait to be written. -/
  outbox : Outbox
  /-- The callback that waits for the end of the open. -/
  awaitingOpen : Option Tag
  /-- The callbacks that get received bytes and errors. -/
  client : Option Tag
  /-- The callback that waits for the end of the close. -/
  awaitingClose : Option Tag

namespace Connection

variable {σ α : Type}

/-- An act on a connection. -/
abbrev Step (σ α : Type) : Type := Act Event (Connection σ) α

/-! ### Making a connection -/

/-- A connection over a transport that exists already. -/
def ofTransport (transport : σ) : Connection σ where
  phase := .initial
  transport := transport
  outbox := .empty
  awaitingOpen := none
  client := none
  awaitingClose := none

/-- A connection over a transport that is being made. -/
def create (made : Transport.Creation σ) : Except Fault (Connection σ) × List Event :=
  let inside := made.effects.map fun e => Event.transport (.effect e)
  match made.result with
  | .ok transport => (.ok (ofTransport transport), inside)
  | .error fault => (.error fault, inside ++ [.note (.createFailed fault)])

/-! ### Pieces -/

/-- The number of messages that are not yet fully sent. -/
def pendingCount (c : Connection σ) : Nat := c.outbox.length

/-- Goes to a phase. Staying where one is goes without a note. -/
def setPhase (phase : Phase) : Step σ Unit := do
  let c ← Act.get
  if c.phase = phase then return ()
  else
    Act.emit (.note (.phaseChanged c.phase phase))
    Act.put { c with phase := phase }

/-- Does something with the transport. -/
def withTransport (m : Act Transport.Event σ α) : Step σ α :=
  Act.within Connection.transport (fun t c => { c with transport := t }) Event.transport m

/-- Fires a callback in the present phase. -/
def fire (callback : Phase → Event) : Step σ Unit := do
  let c ← Act.get
  Act.emit (callback c.phase)

/-- Ends the open, if it is still awaited. -/
def finishOpen (verdict : Verdict) : Step σ Unit := do
  let c ← Act.get
  match c.awaitingOpen with
  | none => return ()
  | some tag =>
    Act.put { c with awaitingOpen := none }
    fire (.openComplete tag verdict)

/-- Breaks an open off. -/
def cancelOpen : Step σ Unit := do
  setPhase .closing
  finishOpen .cancelled

/-- Goes to the failed phase and reports that, once. -/
def fail : Step σ Unit := do
  if (← Act.get).phase = .failed then return ()
  else
    setPhase .failed
    match (← Act.get).client with
    | none => return ()
    | some tag => fire (.ioError tag)

/-- Fires the callbacks of messages. -/
def finishSends (verdict : Verdict) (messages : List Message) : Step σ Unit := do
  let c ← Act.get
  Act.emitAll (messages.map fun m => .sendComplete m.tag verdict c.phase)

/-- Cancels everything that waits and ends the close. -/
def finishClose (answer : Progress) : Step σ Unit := do
  setPhase .closed
  if answer = .failed then Act.emit (.note .closeFailed)
  let c ← Act.get
  finishSends .cancelled c.outbox.messages
  Act.put { c with outbox := .empty, client := none, awaitingOpen := none, awaitingClose := none }
  match c.awaitingClose with
  | none => return ()
  | some tag => fire (.closeComplete tag)

/-! ### One poll of each phase -/

/-- Advances the open. -/
def pollOpen (T : Transport σ) : Step σ Unit := do
  match (← Act.get).client with
  | none => return ()
  | some tag =>
    match ← withTransport (Transport.recorded (T.establish ⟨tag⟩) .establish) with
    | .done =>
      setPhase .opened
      finishOpen .ok
    | .failed =>
      Act.emit (.note .openFailed)
      setPhase .failed
      finishOpen .failed
    | .waiting => return ()

/-- Reads until a read does not answer `done`, at most `limit` times more than once. -/
def readAll (T : Transport σ) : (limit : Nat) → Step σ Progress
  | 0 => withTransport (Transport.recorded T.read .read)
  | limit + 1 => do
    match ← withTransport (Transport.recorded T.read .read) with
    | .done => readAll T limit
    | answer => return answer

/-- Takes everything that has arrived. -/
def pollRead (T : Transport σ) : Step σ Unit := do
  let answer ← readAll T (T.backlog (← Act.get).transport)
  if answer = .failed then
    Act.emit (.note .readFailed)
    fail

/-- Offers the head of the outbox once. -/
def pollSend (T : Transport σ) : Step σ Unit := do
  match (← Act.get).outbox.offer? with
  | none => return ()
  | some bytes =>
    let answer ← withTransport (T.offer bytes)
    let c ← Act.get
    let (drain, outbox) := c.outbox.settle answer
    Act.put { c with outbox := outbox }
    match drain with
    | .sent message => fire (.sendComplete message.tag .ok)
    | .failed message fault =>
      Act.emit (.note (.writeFailed fault))
      fail
      fire (.sendComplete message.tag .failed)
    | .empty | .waiting | .partially => return ()

/-- Advances the close. With `force` it ends even though the transport is still waiting. -/
def pollClose (T : Transport σ) (force : Bool) : Step σ Unit := do
  let answer ← withTransport (Transport.recorded T.close .close)
  if answer = .waiting ∧ force = false then return () else finishClose answer

/-! ### Operations -/

/-- Starts to open. Nothing is asked of the transport yet. Refused unless the connection is new. -/
def beginOpen (tag : Tag) : Step σ (Except Fault Unit) := do
  let c ← Act.get
  if c.phase = .initial then
    Act.put { c with awaitingOpen := some tag, client := some tag }
    setPhase .opening
    return .ok ()
  else
    Act.emit (.note (.openRefused c.phase))
    return .error (.notAllowed "open" c.phase)

/-- Starts to close: breaks an unfinished open off and asks the transport once. A connection that
    is closing or closed stays as it is; one that was never opened refuses. -/
def beginClose (T : Transport σ) (tag : Tag) : Step σ (Except Fault Unit) := do
  let c ← Act.get
  match c.phase with
  | .initial =>
    Act.emit (.note .closeRefused)
    return .error (.notAllowed "close" .initial)
  | .closing | .closed => return .ok ()
  | .opening | .opened | .failed =>
    if c.phase = .opening then cancelOpen
    Act.modify fun c => { c with awaitingClose := some tag }
    setPhase .closing
    pollClose T false
    return .ok ()

/-- From this size on a message is refused. -/
def sizeLimit : Nat := 0x7fffffff

/-- Whether a message may have that size. -/
def isSendable (size : Nat) : Bool := 0 < size && size < sizeLimit

/-- Whether a message of a size can be sent now, or why not. The size is looked at first, then
    the phase. -/
def clearance (size : Nat) : Step σ (Except Fault Unit) := do
  let c ← Act.get
  if isSendable size = false then
    Act.emit (.note (.sizeRefused size))
    return .error (.invalidParameter "buffer")
  else if c.phase = .opened then return .ok ()
  else
    Act.emit (.note .sendRefused)
    return .error (.notAllowed "send" c.phase)

/-- Queues a message and offers the head of the outbox at once. -/
def enqueue (T : Transport σ) (message : Message) : Step σ Unit := do
  Act.modify fun c => { c with outbox := c.outbox.push message }
  pollSend T

/-- Sends a message. -/
def send (T : Transport σ) (tag : Tag) (bytes : Bytes) : Step σ (Except Fault Unit) := do
  match ← clearance bytes.length with
  | .error fault => return .error fault
  | .ok () =>
    enqueue T (.new bytes tag)
    return .ok ()

/-- Sends a message of zeros. One that is refused is not built. -/
def sendZeros (T : Transport σ) (tag : Tag) (size : Nat) : Step σ (Except Fault Unit) := do
  match ← clearance size with
  | .error fault => return .error fault
  | .ok () =>
    enqueue T (.new (List.replicate size 0) tag)
    return .ok ()

/-- Advances whatever is in progress. -/
def poll (T : Transport σ) : Step σ Unit := do
  match (← Act.get).phase with
  | .initial | .closed | .failed => return ()
  | .opening => pollOpen T
  | .opened =>
    pollRead T
    if (← Act.get).phase = .opened then pollSend T
  | .closing => pollClose T false

/-- Whether polling does nothing in a phase. -/
def isIdle : Phase → Bool
  | .initial | .closed | .failed => true
  | .opening | .opened | .closing => false

/-- Polls a number of times, or until that does nothing any more. -/
def pollTimes (T : Transport σ) : Nat → Step σ Unit
  | 0 => return ()
  | n + 1 => do
    if isIdle (← Act.get).phase then return ()
    else
      poll T
      pollTimes T n

/-- Sets an option of the transport. -/
def setOption (T : Transport σ) (name : String) (value : Setting) :
    Step σ (Except Fault Unit) := do
  match ← withTransport (Transport.unrecorded (T.setOption name value)) with
  | .ok () => return .ok ()
  | .error fault =>
    Act.emit (.note (.optionRefused name fault))
    return .error fault

/-- The options of the transport. -/
def retrieve (T : Transport σ) (c : Connection σ) : Settings := T.retrieve c.transport

/-- Replays options onto the connection, up to the first that is refused. -/
def replay (T : Transport σ) (options : List (String × Setting)) : Step σ (Except Fault Unit) :=
  Act.upToRefusal (fun option => setOption T option.1 option.2) options

/-- Ends the connection: whatever is not closed yet is closed by force. -/
def destroy (T : Transport σ) : Step σ Unit := do
  match (← Act.get).phase with
  | .initial | .closed => return ()
  | .opening =>
    cancelOpen
    pollClose T true
  | .opened | .closing | .failed => pollClose T true

/-! ### Small laws -/

theorem replay_cons (T : Transport σ) (option : String × Setting) (rest : List (String × Setting)) :
    replay T (option :: rest) = (do
      Act.unlessRefused (← setOption T option.1 option.2) (replay T rest)) := rfl

/-- A callback changes nothing, and its event keeps the phase. -/
@[simp] theorem run_fire (callback : Phase → Event) (c : Connection σ) :
    (fire callback).run c = ⟨(), c, [callback c.phase]⟩ := rfl

@[simp] theorem pendingCount_ofTransport (transport : σ) :
    (ofTransport transport).pendingCount = 0 := rfl

/-- Zeros are sent like any other bytes. -/
theorem sendZeros_eq (T : Transport σ) (tag : Tag) (size : Nat) :
    sendZeros T tag size = send T tag (List.replicate size 0) := by
  simp [sendZeros, send]

/-- Polling leaves an idle connection as it is. -/
theorem run_poll_of_isIdle (T : Transport σ) (c : Connection σ) (h : isIdle c.phase = true) :
    (poll T).run c = ⟨(), c, []⟩ := by
  cases hp : c.phase <;> simp_all [isIdle, poll]

/-- Polling a number of times is nothing but polling again and again. -/
theorem pollTimes_succ (T : Transport σ) (n : Nat) :
    pollTimes T (n + 1) = poll T >>= fun _ => pollTimes T n := by
  funext c
  change (pollTimes T (n + 1)).run c = (poll T >>= fun _ => pollTimes T n).run c
  by_cases h : isIdle c.phase = true
  · cases n <;> simp [pollTimes, run_poll_of_isIdle T c h, h]
  · simp [pollTimes, h]

end Connection

end PolledConnection
