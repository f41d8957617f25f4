import PolledConnection.Act
import PolledConnection.Effect

/-! # Dialling

  One poll of a connect that goes on in the background. The first poll creates
  the socket and starts the connect; every poll asks whether it has finished.
  A socket whose connect could not start is gone, one whose connect failed
  later is still there for its owner to give back.
-/

namespace PolledConnection.Network

variable {ω : Type}

/-- A socket that has started to connect, and the network afterwards. The keepalive switch is
    only touched to turn it on. -/
def dial (net : Network ω) (peer : Address) (keepAlive : Bool) (w : ω) :
    Except IoFault Socket × Option Note × ω :=
  match net.create w with
  | (.error cause, w) => (.error cause, none, w)
  | (.ok (), w) =>
    let (switched, w) := if keepAlive then net.setKeepAlive true w else (.ok (), w)
    match switched with
    | .error cause => (.error cause, none, net.discard w)
    | .ok () =>
      match net.connect peer w with
      | (.error cause, w) => (.error cause, some (.connectRefused peer cause), net.discard w)
      | (.ok (), w) => (.ok ⟨peer, keepAlive⟩, none, w)

/-- One poll of a connect; `slot` is the socket of earlier polls. -/
def pollConnect (net : Network ω) (slot : Option Socket) (peer : Address) (keepAlive : Bool) :
    Act Effect ω (Except Fault Bool × Option Socket) := do
  let socket ←
    match slot with
    | some socket => pure (.ok socket)
    | none =>
      Act.emit (.note (.connecting peer))
      let (dialled, note, w) := net.dial peer keepAlive (← Act.get)
      Act.put w
      Act.emitAll (note.toList.map .note)
      pure dialled
  match socket with
  | .error cause =>
    Act.emit (.connectPolled peer (.error (.io cause)))
    return (.error (.io cause), none)
  | .ok socket =>
    let (connected, w) := net.isConnected (← Act.get)
    Act.put w
    let answer := connected.mapError Fault.io
    Act.emit (.connectPolled peer answer)
    return (answer, some socket)

/-- Switches keepalive probes on a socket that exists. -/
def switchKeepAlive (net : Network ω) (socket : Socket) (keepAlive : Bool) (w : ω) :
    Except IoFault Socket × ω :=
  match net.setKeepAlive keepAlive w with
  | (.ok (), w) => (.ok { socket with keepAlive := keepAlive }, w)
  | (.error cause, w) => (.error cause, w)

end PolledConnection.Network
