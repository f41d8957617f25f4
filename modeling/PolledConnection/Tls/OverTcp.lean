import PolledConnection.Network.Dial
import PolledConnection.Network.Resolver
import PolledConnection.Tls.Layer

/-! # TLS over TCP

  Opening checks the options, looks the host name up, connects a socket,
  creates a session over it and advances the handshake. Each of these but the
  first ends its poll. A step that fails gives everything back and ends the
  open for good.

  The keepalive option belongs to the socket, not to the session: it is
  switched at once on a socket that no session has yet, and otherwise waits
  for the next socket.
-/

namespace PolledConnection.Tls

/-- A TLS transport over a socket of its own. -/
structure OverTcp (ε σ ρ ω : Type) where
  /-- The part that deals with the session. -/
  layer : Layer σ
  /-- The engine's state. -/
  engine : ε
  /-- The resolver's state. -/
  resolver : ρ
  /-- The network's state. -/
  network : ω
  /-- What the next poll of the open does. -/
  step : Step
  /-- The keepalive option, if it was set. -/
  keepAlive : Option Bool
  /-- The address of the host, once known. -/
  address : Option Address
  /-- The socket, until a session gets it. -/
  socket : Option Socket

namespace OverTcp

variable {ε σ ρ ω α : Type}

/-- A transport that was never opened and has no options. -/
def fresh (eng : Engine ε σ) (engine : ε) (resolver : ρ) (network : ω) (endpoint : Endpoint) :
    OverTcp ε σ ρ ω where
  layer := .fresh endpoint ((eng.capabilities engine).union .keepAliveOnly)
  engine := engine
  resolver := resolver
  network := network
  step := .validate
  keepAlive := none
  address := none
  socket := none

/-- The socket that is held, by the session or for it. -/
def socket? (t : OverTcp ε σ ρ ω) : Option Socket :=
  match t.layer.held with
  | some ⟨_, .stream s⟩ => some s
  | _ => t.socket

/-! ### Pieces -/

/-- Does something with the session. -/
def onLayer (m : Act Effect (Layer σ) α) : Act Effect (OverTcp ε σ ρ ω) α :=
  Act.within OverTcp.layer (fun l t => { t with layer := l }) id m

/-- Reports and takes an opening step. -/
def setStep (step : Step) : Act Effect (OverTcp ε σ ρ ω) Unit := do
  let t ← Act.get
  Act.emit (.note (.tlsStep t.step step))
  Act.put { t with step := step }

/-- Checks the options and takes the next step. -/
def validate : Act Effect (OverTcp ε σ ρ ω) Unit := do
  if ← onLayer Layer.checkConsistency then setStep .resolve else setStep .validationFailed

/-- Looks the host name up once. A lookup that fails is tried again. -/
def pollResolve (res : Resolver ρ) : Act Effect (OverTcp ε σ ρ ω) Progress := do
  let t ← Act.get
  let answer ← Act.within OverTcp.resolver (fun r t => { t with resolver := r }) id
    (res.ask t.layer.hostname t.layer.port)
  match answer with
  | .ok (some address) =>
    Act.modify fun t => { t with address := some address }
    setStep .connect
  | _ => pure ()
  return .waiting

/-- Polls the connect once. -/
def pollConnect (net : Network ω) : Act Effect (OverTcp ε σ ρ ω) Progress := do
  let t ← Act.get
  match t.address with
  | none => return .failed
  | some address =>
    let (answer, slot) ← Act.within OverTcp.network (fun w t => { t with network := w }) id
      (net.pollConnect t.socket address (t.keepAlive.getD false))
    Act.modify fun t => { t with socket := slot }
    match answer with
    | .ok true =>
      setStep .initSession
      return .waiting
    | .ok false => return .waiting
    | .error fault =>
      Act.emit (.note (.carrierFailed fault))
      return .failed

/-- Creates the session over the socket. The socket of a failed attempt is given back. -/
def initSession (eng : Engine ε σ) (net : Network ω) (receiver : Receiver) :
    Act Effect (OverTcp ε σ ρ ω) Progress := do
  let t ← Act.get
  match t.socket with
  | none => return .failed
  | some socket =>
    Act.put { t with socket := none }
    let (created, engine) ← onLayer (Layer.requestSession eng (.stream socket) receiver t.engine)
    Act.modify fun t => { t with engine := engine }
    if created then
      setStep .handshake
      return .waiting
    else
      Act.modify fun t => { t with network := net.discard t.network }
      return .failed

/-! ### Operations -/

/-- Closes the session at once and gives the socket back. The opening step stays. -/
def close (net : Network ω) : Act Effect (OverTcp ε σ ρ ω) Progress := do
  Act.modify fun t =>
    if t.socket?.isSome then { t with network := net.discard t.network } else t
  onLayer Layer.close
  Act.modify fun t => { t with socket := none }
  return .done

/-- Advances the open by the present step. -/
def establish (eng : Engine ε σ) (net : Network ω) (res : Resolver ρ) (receiver : Receiver) :
    Act Effect (OverTcp ε σ ρ ω) Progress := do
  if (← Act.get).step = .validate then validate
  let answer ←
    match (← Act.get).step with
    | .resolve => pollResolve res
    | .connect => pollConnect net
    | .initSession => initSession eng net receiver
    | .handshake => onLayer (Layer.handshake eng)
    | .failed =>
      Act.emit (.note .alreadyFailed)
      pure .failed
    | .validate | .validationFailed => pure .failed
  if answer = .failed then
    let _ ← close net
    if (← Act.get).step ≠ .validationFailed then setStep .failed
  return answer

/-- Sets the keepalive option, or an option of the session. -/
def setOption (net : Network ω) (name : String) (value : Setting) :
    Act Effect (OverTcp ε σ ρ ω) (Except Fault Unit) := do
  if name = optionNames.keepAlive then
    match value.truth? with
    | none => return .error (.invalidParameter s!"{name} expects a boolean value")
    | some keepAlive =>
      let t ← Act.get
      match t.socket with
      | some socket =>
        match net.switchKeepAlive socket keepAlive t.network with
        | (.ok socket, w) =>
          Act.put { t with network := w, socket := some socket, keepAlive := some keepAlive }
          return .ok ()
        | (.error cause, w) =>
          Act.put { t with network := w }
          return .error (.io cause)
      | none =>
        if t.layer.held.isSome then Act.emit (.note .keepAliveDeferred)
        Act.put { t with keepAlive := some keepAlive }
        return .ok ()
  else onLayer (Layer.setOption name value)

/-- The options of the session, then the keepalive option, as far as they were set. -/
def retrieve (t : OverTcp ε σ ρ ω) : Settings :=
  ⟨t.layer.options.retrieve.entries ++
    t.keepAlive.toList.map fun k => (optionNames.keepAlive, .truth k)⟩

/-- The TLS transport over TCP, on a network, with a resolver. -/
def transport (eng : Engine ε σ) (net : Network ω) (res : Resolver ρ) :
    Transport (OverTcp ε σ ρ ω) where
  establish := establish eng net res
  close := close net
  read := onLayer (Layer.read eng)
  write bytes := onLayer (Layer.write eng bytes)
  setOption := setOption net
  retrieve := retrieve
  backlog t := t.layer.backlog eng

/-- Makes a transport for an endpoint. -/
def create (eng : Engine ε σ) (net : Network ω) (res : Resolver ρ) (engine : ε) (resolver : ρ)
    (network : ω) (endpoint : Endpoint) : Transport.Creation (OverTcp ε σ ρ ω) :=
  match Layer.validate endpoint with
  | (.error fault, effects) => ⟨.error fault, effects⟩
  | (.ok (), _) =>
    (transport eng net res).configured (fresh eng engine resolver network endpoint)
      endpoint.options

end OverTcp

end PolledConnection.Tls
