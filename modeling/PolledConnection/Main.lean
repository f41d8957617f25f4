import PolledConnection.CommandLine.Dialogue
import PolledConnection.Network.Mailbox
import Std.Internal.UV.TCP

/-! # The program

  The outer layer of the command line program. It reads the arguments and the
  configuration file, carries bytes between the connection's mailbox and a
  real socket, keeps the time, and writes what the dialogue says. All that is
  decided is decided by the library.
-/

namespace PolledConnection.CommandLine

/-! ### A socket behind a mailbox -/

/-- A socket of the system. -/
abbrev SystemSocket : Type := Std.Internal.UV.TCP.Socket

/-- An operation of the system that is under way. -/
abbrev Pending (α : Type) : Type := IO.Promise (Except IO.Error α)

/-- A socket with what is under way on it. -/
structure Courier where
  /-- The socket. -/
  socket : SystemSocket
  /-- The connect, until it is settled. -/
  connecting : Option (Pending Unit)
  /-- The receive that waits for bytes. -/
  receiving : Option (Pending (Option ByteArray))
  /-- The sends that are not known to have ended. -/
  sending : List (Pending Unit)

/-- The system's form of an address. It has no place for a zone. -/
def systemAddress (a : Address) : Std.Net.SocketAddress :=
  match a.host with
  | .v4 b c d e => .v4 ⟨.ofParts b c d e, a.port⟩
  | .v6 groups _ => .v6 ⟨⟨groups⟩, a.port⟩

/-- The number that the system gave a failure, if it is one that is known here. -/
def systemCode? : IO.Error → Option UInt32
  | .noFileOrDirectory _ code _ | .invalidArgument _ code _ | .inappropriateType _ code _
  | .noSuchThing _ code _ | .resourceVanished code _ => some code
  | _ => none

/-- A failure of the system as a fault. Sockets give the negated number. -/
def systemFault (e : IO.Error) : IoFault :=
  let known := (systemCode? e).bind fun code =>
    SystemError.ofCode? (min code.toNat (0 - code).toNat)
  match known with
  | some error => .system error
  | none => .worded .other e.toString

/-- The answer of an operation, if it has come. -/
def answer? {α : Type} (p : Pending α) : IO (Option (Except IO.Error α)) := do
  if ← p.isResolved then return p.result?.get else return none

/-- Starts the connect that the mailbox asks for. -/
def Courier.start (peer : Address) (keepAlive : Bool) : IO Courier := do
  let socket : SystemSocket ← Std.Internal.UV.TCP.Socket.new
  if keepAlive then socket.keepAlive 1 60
  return ⟨socket, some (← socket.connect (systemAddress peer)), none, []⟩

/-- Settles the connect in the mailbox once the system has. -/
def Courier.carryConnect (c : Courier) (m : Mailbox) : IO (Courier × Mailbox) := do
  match c.connecting with
  | none => return (c, m)
  | some p =>
    match ← answer? p with
    | none => return (c, m)
    | some result => return ({ c with connecting := none }, m.settle (result.mapError systemFault))

/-- Puts received bytes into the mailbox and keeps a receive under way. -/
def Courier.carryInbound (c : Courier) (m : Mailbox) : IO (Courier × Mailbox) := do
  match c.receiving with
  | none =>
    if c.connecting.isNone ∧ m.inflow = .flowing then
      return ({ c with receiving := some (← c.socket.recv? 4096) }, m)
    else return (c, m)
  | some p =>
    let c := { c with receiving := none }
    match ← answer? p with
    | none => return ({ c with receiving := some p }, m)
    | some (.ok (some bytes)) => return (c, m.arrive bytes.toList)
    | some (.ok none) => return (c, m.finish .ended)
    | some (.error e) => return (c, m.finish (.broken (systemFault e)))

/-- Sends what lies in the mailbox. -/
def Courier.carryOutbound (c : Courier) (m : Mailbox) : IO (Courier × Mailbox) := do
  let (bytes, m) := m.fetch
  if bytes.isEmpty then return (c, m)
  else
    let p ← c.socket.send #[⟨bytes.toArray⟩]
    return ({ c with sending := c.sending ++ [p] }, m)

/-- Carries what there is to carry. -/
def carry (courier : Option Courier) (m : Mailbox) : IO (Option Courier × Mailbox) := do
  match courier, m.connect with
  | none, .pending peer =>
    try return (some (← Courier.start peer m.keepAlive), m)
    catch e => return (none, m.settle (.error (systemFault e)))
  | none, _ => return (none, m)
  | some c, _ =>
    let (c, m) ← c.carryConnect m
    let (c, m) ← c.carryInbound m
    let (c, m) ← c.carryOutbound m
    return (some c, m)

/-- Waits until everything is sent and ends the connection. -/
def Courier.release (c : Courier) : IO Unit := do
  for p in c.sending do
    let _ ← IO.wait p.result?
  if c.connecting.isNone then
    let p ← c.socket.shutdown
    let _ ← IO.wait p.result?

/-! ### The dialogue in real time -/

/-- Whether a note is shown. -/
def isShown (command : Command) (n : Note) : Bool :=
  command.verbose || n.level == .warn || n.level == .error

/-- Writes what is new in a dialogue. -/
def display (before after : Dialogue (Plain Mailbox)) : IO Unit := do
  let out ← IO.getStdout
  out.write ⟨(after.output.drop before.output.length).toArray⟩
  out.flush
  for n in (after.notes.take (after.notes.length - before.notes.length)).reverse do
    if isShown after.command n then IO.eprintln s!"{n.level.label} {n.message}"

/-- Goes on to the end, a millisecond at a time. -/
partial def converse (start : Nat) (courier : Option Courier) (d : Dialogue (Plain Mailbox)) :
    IO (Option Courier × Dialogue (Plain Mailbox)) := do
  if d.result?.isSome then return (courier, d)
  else
    let (courier, m) ← carry courier d.connection.transport.network
    let now ← IO.monoMsNow
    let next := ((d.mapTransport fun t => { t with network := m }).atTime (now - start)).tick
      (plain Mailbox.network)
    display d next
    IO.sleep 1
    converse start courier next

/-- Reads the file that a command names, if it names one. -/
def readFile (command : Command) : IO (Except IoFault Bytes) := do
  match command.source with
  | .host .. => return .ok []
  | .file path =>
    try return .ok (← IO.FS.readBinFile path).toList
    catch e => return .error (systemFault e)

/-- Writes the lines of a report and answers its exit status. -/
def Report.leave (r : Report) : IO UInt32 := do
  for line in r.errors do IO.eprintln line
  return UInt32.ofNat r.status

/-- Does what a command asks for. -/
def Command.run (command : Command) : IO UInt32 := do
  let content ← readFile command
  match Dialogue.forCommand Mailbox.network .empty command fun _ => content with
  | .error f => (Report.ofFailure f []).leave
  | .ok d =>
    let (courier, d) ← converse (← IO.monoMsNow) none d
    let last := d.abandon (plain Mailbox.network)
    let (courier, _) ← carry courier last.connection.transport.network
    match courier with
    | some c => c.release
    | none => pure ()
    d.report.leave

end PolledConnection.CommandLine

/-- The program. -/
def main (args : List String) : IO UInt32 := do
  match PolledConnection.CommandLine.Invocation.ofArguments args with
  | .run command => command.run
  | invocation =>
    let usage := "usage: [HOST PORT | --config PATH] [--message TEXT] [--keepalive] " ++
      "[--timeout-ms N] [--linger-ms N] [--verbose]"
    let report := PolledConnection.CommandLine.Report.ofInvocation invocation
    if report.status = 0 then IO.println usage else IO.eprintln usage
    report.leave
