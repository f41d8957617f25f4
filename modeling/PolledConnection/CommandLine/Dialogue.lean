import PolledConnection.CommandLine.Arguments
import PolledConnection.CommandLine.Failure
import PolledConnection.Connection.Basic
import PolledConnection.Endpoint.Text
import PolledConnection.Tcp.Transport

/-! # The program's dialogue

  What the program does with its connection: open it, send the message if
  there is one, keep reading for a while, close. Opening and sending share one
  deadline, closing has one of its own. Whatever arrives is output.

  Time is counted in milliseconds; every poll takes one. Each round of a stage
  first looks whether the stage has reached its aim, then whether it is late,
  and only then polls, so a stage without time is late at once.

  `Dialogue.tick` is one round. Between rounds the surroundings may act on the
  transport; `Dialogue.run` lets them.
-/

namespace PolledConnection.CommandLine

/-! ### Before the dialogue -/

/-- The endpoint that a command asks for, given how files are read. -/
def Command.endpoint (c : Command) (content : String → Except IoFault Bytes) :
    Except Failure Endpoint :=
  let base : Except Failure Endpoint :=
    match c.source with
    | .file path =>
      (Endpoint.ofFile (content path)).mapError fun fault =>
        ⟨s!"Failed to load endpoint from '{path}'", some fault⟩
    | .host hostname port => .ok (.of hostname port)
  base.map fun e => if c.keepAlive then e.withOption optionNames.keepAlive (.truth true) else e

/-- The plain TCP transport with the resolver that every machine has. -/
abbrev Plain (ω : Type) : Type := Tcp Unit ω

/-- The operations of that transport on a network. -/
def plain {ω : Type} (net : Network ω) : Transport (Plain ω) :=
  Tcp.transport net (.ofHosts Resolver.localNames)

/-! ### Stages -/

/-- What the program is about. -/
inductive Stage where
  /-- To open. -/
  | opening
  /-- To send. -/
  | sending
  /-- To read a while longer. -/
  | lingering
  /-- To close. -/
  | closing
  /-- To exit. -/
  | ended (result : Except Failure Unit)

/-- A dialogue over a transport with state `σ`. -/
structure Dialogue (σ : Type) where
  /-- The connection. -/
  connection : Connection σ
  /-- What the program is about. -/
  stage : Stage
  /-- The time. -/
  clock : Nat
  /-- When the stage is late. -/
  deadline : Nat
  /-- The endpoint's name in messages. -/
  target : String
  /-- What to do. -/
  command : Command
  /-- How the open ended. -/
  opened : Option Verdict
  /-- How the send ended. -/
  sent : Option Verdict
  /-- What has arrived. -/
  output : Bytes
  /-- What was reported, newest first. -/
  notes : List Note

namespace Dialogue

variable {σ ω : Type}

/-- The tag of every callback of the program. -/
def tag : Tag := "program"

/-- Takes one event of the connection into account. -/
def notice (d : Dialogue σ) : Event → Dialogue σ
  | .openComplete _ verdict _ => { d with opened := some verdict }
  | .sendComplete _ verdict _ => { d with sent := some verdict }
  | .transport (.effect (.received _ bytes)) => { d with output := d.output ++ bytes }
  | .transport (.effect (.note n)) => { d with notes := n :: d.notes }
  | .note n => { d with notes := n :: d.notes }
  | _ => d

/-- Does something with the connection. -/
def perform {α : Type} (d : Dialogue σ) (m : Connection.Step σ α) : α × Dialogue σ :=
  let o := m.run d.connection
  (o.answer, o.events.foldl notice { d with connection := o.state })

/-- Exits. -/
def finish (d : Dialogue σ) (result : Except Failure Unit) : Dialogue σ :=
  { d with stage := .ended result }

/-- Gives up. -/
def giveUp (d : Dialogue σ) (text : String) (fault : Option Fault) : Dialogue σ :=
  d.finish (.error ⟨text, fault⟩)

/-- A verdict in messages, if there is one. -/
def verdictText : Option Verdict → String
  | none => "None"
  | some v => s!"Some({v.label})"

/-- The dialogue of a connection that was made just now. -/
def start (connection : Connection σ) (target : String) (command : Command) : Dialogue σ :=
  let d : Dialogue σ :=
    ⟨connection, .opening, 0, command.timeout, target, command, none, none, [], []⟩
  (d.perform (Connection.beginOpen tag)).2

/-- Makes the connection for a command and starts the dialogue. -/
def forCommand (net : Network ω) (network : ω) (command : Command)
    (content : String → Except IoFault Bytes) : Except Failure (Dialogue (Plain ω)) := do
  let endpoint ← command.endpoint content
  let made := Tcp.create net (.ofHosts Resolver.localNames) () network endpoint
  match (Connection.create made).1 with
  | .ok connection => return start connection endpoint.target command
  | .error fault =>
    throw ⟨s!"Failed to create socket adapter for {endpoint.target}", some fault⟩

/-! ### One round -/

/-- Starts to linger. -/
def linger (d : Dialogue σ) : Dialogue σ :=
  { d with stage := .lingering, deadline := d.clock + d.command.linger }

/-- Starts to close. -/
def beginClose (T : Transport σ) (d : Dialogue σ) : Dialogue σ :=
  let d := (d.perform (Connection.beginClose T tag)).2
  { d with stage := .closing, deadline := d.clock + d.command.timeout }

/-- Sends the message, if there is one. -/
def beginSend (T : Transport σ) (d : Dialogue σ) : Dialogue σ :=
  match d.command.message with
  | none => d.linger
  | some message =>
    match d.perform (Connection.send T tag (Bytes.ofText message)) with
    | (.ok (), d) => { d with stage := .sending }
    | (.error fault, d) => d.giveUp "Failed to queue message" (some fault)

/-- Whether the stage has reached its aim. -/
def isReached (d : Dialogue σ) : Bool :=
  match d.stage with
  | .opening => d.connection.phase != .opening
  | .sending => d.sent.isSome || d.connection.phase != .opened
  | .lingering => d.connection.phase != .opened
  | .closing => d.connection.phase == .closed
  | .ended _ => false

/-- Goes on to the next stage. -/
def proceed (T : Transport σ) (d : Dialogue σ) : Dialogue σ :=
  match d.stage with
  | .opening =>
    if d.opened = some .ok then d.beginSend T
    else d.giveUp s!"Failed to open {d.target}: {verdictText d.opened}" none
  | .sending =>
    if d.sent = some .ok then d.linger
    else d.giveUp s!"Failed to send to {d.target}: {verdictText d.sent}" none
  | .lingering => d.beginClose T
  | .closing => d.finish (.ok ())
  | .ended _ => d

/-- Ends a stage that is late. Only lingering may be. -/
def expire (T : Transport σ) (d : Dialogue σ) : Dialogue σ :=
  match d.stage with
  | .opening => d.giveUp s!"Timed out connecting to {d.target}" none
  | .sending => d.giveUp s!"Timed out sending to {d.target}" none
  | .lingering => d.beginClose T
  | .closing => d.giveUp s!"Timed out closing {d.target}" none
  | .ended _ => d

/-- One round. -/
def tick (T : Transport σ) (d : Dialogue σ) : Dialogue σ :=
  if d.isReached then d.proceed T
  else if d.deadline ≤ d.clock then d.expire T
  else
    let d := (d.perform (Connection.poll T)).2
    { d with clock := d.clock + 1 }

/-! ### The whole dialogue -/

/-- How the dialogue ended, if it has. -/
def result? (d : Dialogue σ) : Option (Except Failure Unit) :=
  match d.stage with
  | .ended result => some result
  | _ => none

/-- What the program gives up of its connection when it exits. -/
def abandon (T : Transport σ) (d : Dialogue σ) : Dialogue σ :=
  (d.perform (Connection.destroy T)).2

/-- Does something with the transport from outside. -/
def mapTransport (f : σ → σ) (d : Dialogue σ) : Dialogue σ :=
  { d with connection := { d.connection with transport := f d.connection.transport } }

/-- The dialogue with the time set. -/
def atTime (d : Dialogue σ) (clock : Nat) : Dialogue σ := { d with clock := clock }

/-- More rounds than a command can take. -/
def rounds (command : Command) : Nat := 2 * command.timeout + command.linger + 8

/-- Goes on to the end, round by round. Before every round the surroundings, in state `π`, act
    on the transport. -/
def run {π : Type} (T : Transport σ) (surroundings : π → σ → π × σ) :
    (limit : Nat) → π → Dialogue σ → π × Dialogue σ
  | 0, p, d => (p, d)
  | limit + 1, p, d =>
    match d.result? with
    | some _ => (p, d)
    | none =>
      let (p, t) := surroundings p d.connection.transport
      run T surroundings limit p (tick T (d.mapTransport fun _ => t))

end Dialogue

/-! ### The outcome -/

/-- What the program leaves behind. -/
structure Report where
  /-- The exit status. -/
  status : Nat
  /-- What it wrote to the standard output. -/
  output : Bytes
  /-- The lines that it wrote to the standard error. -/
  errors : List String
deriving DecidableEq, Repr

/-- The report of a program that gave up. -/
def Report.ofFailure (f : Failure) (output : Bytes) : Report := ⟨Failure.status, output, f.lines⟩

/-- The report of a dialogue. One that has not ended has done what it could. -/
def Dialogue.report {σ : Type} (d : Dialogue σ) : Report :=
  match d.result? with
  | some (.error f) => .ofFailure f d.output
  | _ => ⟨0, d.output, []⟩

/-- The report of arguments that start no dialogue. -/
def Report.ofInvocation : Invocation → Report
  | .misuse => ⟨misuseStatus, [], []⟩
  | _ => ⟨0, [], []⟩

end PolledConnection.CommandLine
