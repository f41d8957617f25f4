import PolledConnection.CommandLine.Dialogue
import PolledConnection.Script.Files
import PolledConnection.Script.Peer

/-! # Rehearsals

  The program from its arguments to its exit, on a network in memory and
  against a scripted peer, if there is one. Before every round of the dialogue,
  and once more after its end, the peer does what it can.
-/

namespace PolledConnection.Script

open CommandLine

/-- What the program finds when it starts. -/
structure Scene where
  /-- The network. -/
  network : Loopback
  /-- The files. -/
  files : Files
  /-- The peer, if there is one. -/
  peer : Option Peer

/-- Lets a peer act on the network beneath a transport. -/
def attend (peer : Option Peer) (t : Plain Loopback) : Option Peer × Plain Loopback :=
  match peer with
  | none => (none, t)
  | some p =>
    let (p, w) := p.act t.network
    (some p, { t with network := w })

/-- Runs a command to its end. -/
def Scene.perform (s : Scene) (command : Command) : Report × Option Peer :=
  match Dialogue.forCommand Loopback.network s.network command s.files.read with
  | .error failure => (.ofFailure failure [], s.peer)
  | .ok d =>
    let T := plain Loopback.network
    let (peer, d) := d.run T attend (Dialogue.rounds command) s.peer
    (d.report, (attend peer (d.abandon T).connection.transport).1)

/-- Runs the program. Arguments that start no dialogue leave the peer alone. -/
def Scene.rehearse (s : Scene) (args : List String) : Report × Option Peer :=
  match Invocation.ofArguments args with
  | .run command => s.perform command
  | invocation => (.ofInvocation invocation, s.peer)

end PolledConnection.Script
