import PolledConnection.Endpoint.Basic
import PolledConnection.Network.Dial
import PolledConnection.Network.Resolver
import PolledConnection.Transport.Basic

/-! # The TCP transport

  Opening first looks the host name up, then connects; each takes one or more
  polls. A lookup that fails is tried again. A connect that fails ends the
  open for good (`Step.failed`), and whatever was held is given back.

  The keepalive option is kept until a socket is created. On an open stream
  it is switched at once.
-/

namespace PolledConnection

/-- A TCP transport with a resolver in state `ρ` on a network in state `ω`. -/
structure Tcp (ρ ω : Type) where
  /-- The host to connect to. -/
  hostname : String
  /-- The port to connect to. -/
  port : UInt16
  /-- The keepalive option, if it was set. -/
  keepAlive : Option Bool
  /-- The resolver's state. -/
  resolver : ρ
  /-- The network's state. -/
  network : ω
  /-- What the next poll of the open does. -/
  step : Tcp.Step
  /-- The address of the host, once known. -/
  address : Option Address
  /-- The socket that is connecting. -/
  dialling : Option Socket
  /-- The connected socket. -/
  stream : Option Socket
  /-- Who gets received bytes. -/
  receiver : Option Receiver

namespace Tcp

variable {ρ ω : Type}

/-- A transport that was never opened and has no options. -/
def fresh (resolver : ρ) (network : ω) (endpoint : Endpoint) : Tcp ρ ω where
  hostname := endpoint.hostname
  port := endpoint.port
  keepAlive := none
  resolver := resolver
  network := network
  step := .resolve
  address := none
  dialling := none
  stream := none
  receiver := none

/-- The socket that is held, connecting or connected. -/
def socket? (t : Tcp ρ ω) : Option Socket := t.stream <|> t.dialling

/-! ### Pieces -/

/-- Reports and takes an opening step. -/
def setStep (step : Step) : Act Effect (Tcp ρ ω) Unit := do
  let t ← Act.get
  Act.emit (.note (.tcpStep t.step step))
  Act.put { t with step := step }

/-- Gives the socket back, if one is held. -/
def release (net : Network ω) (t : Tcp ρ ω) : Tcp ρ ω :=
  { t with
    network := if t.socket?.isSome then net.discard t.network else t.network
    dialling := none
    stream := none
    receiver := none }

/-- Looks the host name up once. -/
def pollResolve (res : Resolver ρ) : Act Effect (Tcp ρ ω) Progress := do
  let t ← Act.get
  let answer ← Act.within Tcp.resolver (fun r t => { t with resolver := r }) id
    (res.ask t.hostname t.port)
  match answer with
  | .ok (some address) =>
    Act.modify fun t => { t with address := some address }
    setStep .connect
  | .ok none => pure ()
  | .error fault => Act.emit (.note (.stillResolving t.hostname fault))
  return .waiting

/-- Polls the connect once. -/
def pollConnect (net : Network ω) (receiver : Receiver) : Act Effect (Tcp ρ ω) Progress := do
  let t ← Act.get
  match t.address with
  | none => return .failed
  | some address =>
    let (answer, slot) ← Act.within Tcp.network (fun w t => { t with network := w }) id
      (net.pollConnect t.dialling address (t.keepAlive.getD false))
    Act.modify fun t => { t with dialling := slot }
    match answer with
    | .ok true =>
      Act.modify fun t =>
        { t with dialling := none, stream := t.dialling, receiver := some receiver }
      setStep .opened
      return .done
    | .ok false => return .waiting
    | .error fault =>
      Act.emit (.note (.connectFailed address fault))
      return .failed

/-! ### Operations -/

/-- Advances the open by the present step. -/
def establish (net : Network ω) (res : Resolver ρ) (receiver : Receiver) :
    Act Effect (Tcp ρ ω) Progress := do
  let t ← Act.get
  let answer ←
    match t.step with
    | .resolve => pollResolve res
    | .connect => pollConnect net receiver
    | .opened => pure .done
    | .failed =>
      Act.emit (.note .alreadyFailed)
      pure .failed
  if answer = .failed then
    Act.modify (release net)
    setStep .failed
  return answer

/-- Gives everything back at once. The opening step stays. -/
def close (net : Network ω) : Act Effect (Tcp ρ ω) Progress := do
  Act.modify (release net)
  return .done

/-- Hands bytes to the receiver, if there is one. -/
def deliver (receiver : Option Receiver) (bytes : Bytes) : Act Effect (Tcp ρ ω) Unit :=
  match receiver with
  | some r => Act.emit (.received r.tag bytes)
  | none => return ()

/-- Reads one chunk. The end of the stream is a failure. -/
def read (net : Network ω) : Act Effect (Tcp ρ ω) Progress := do
  let t ← Act.get
  match t.stream with
  | none => return .failed
  | some _ =>
    let (answer, w) := net.receive receiveBufferSize t.network
    Act.put { t with network := w }
    match answer with
    | .ok none => return .waiting
    | .ok (some []) =>
      Act.emit (.note .peerClosed)
      return .failed
    | .ok (some bytes) =>
      deliver t.receiver bytes
      return .done
    | .error cause =>
      Act.emit (.note (.receiveFailed cause))
      return .failed

/-- Offers bytes to the stream. -/
def write (net : Network ω) (bytes : Bytes) : Act Effect (Tcp ρ ω) Count := do
  let t ← Act.get
  match t.stream with
  | none => return .error (.io (.bare .notConnected))
  | some _ =>
    let (answer, w) := net.send bytes t.network
    Act.put { t with network := w }
    return answer.mapError .io

/-- Sets the keepalive option; there is no other. An open stream is switched first, and if that
    fails the option stays as it was. -/
def setOption (net : Network ω) (name : String) (value : Setting) :
    Act Effect (Tcp ρ ω) (Except Fault Unit) := do
  if name = optionNames.keepAlive then
    match value.truth? with
    | none => return .error (.invalidParameter s!"{name} expects a boolean value")
    | some keepAlive =>
      let t ← Act.get
      match t.stream with
      | none =>
        Act.put { t with keepAlive := some keepAlive }
        return .ok ()
      | some socket =>
        match net.switchKeepAlive socket keepAlive t.network with
        | (.ok socket, w) =>
          Act.put { t with network := w, stream := some socket, keepAlive := some keepAlive }
          return .ok ()
        | (.error cause, w) =>
          Act.put { t with network := w }
          return .error (.io cause)
  else return .error (.unsupportedOption name)

/-- The keepalive option, if it was set. -/
def retrieve (t : Tcp ρ ω) : Settings :=
  ⟨t.keepAlive.toList.map fun k => (optionNames.keepAlive, .truth k)⟩

/-- The TCP transport on a network, with a resolver. -/
def transport (net : Network ω) (res : Resolver ρ) : Transport (Tcp ρ ω) where
  establish := establish net res
  close := close net
  read := read net
  write := write net
  setOption := setOption net
  retrieve := retrieve
  backlog t := net.backlog t.network

/-- Makes a transport for an endpoint. -/
def create (net : Network ω) (res : Resolver ρ) (resolver : ρ) (network : ω)
    (endpoint : Endpoint) : Transport.Creation (Tcp ρ ω) :=
  match endpoint.validate with
  | .error fault => ⟨.error fault, []⟩
  | .ok () => (transport net res).configured (fresh resolver network endpoint) endpoint.options

end Tcp

end PolledConnection
