import PolledConnection.Tls.Layer

/-! # TLS over a given carrier

  The carrier is connected already, so opening is: check the options, create
  the session, advance the handshake. The first two of these share no poll:
  checking goes on into creating, creating ends its poll.

  Closing gives the session back but not a carrier that was never used. After
  a failed open the carrier is gone too.
-/

namespace PolledConnection.Tls

/-- A TLS transport over a carrier from its caller. -/
structure OverGiven (ε σ : Type) where
  /-- The part that deals with the session. -/
  layer : Layer σ
  /-- The engine's state. -/
  engine : ε
  /-- The carrier, until a session gets it. -/
  carrier : Option Carrier
  /-- What the next poll of the open does. -/
  step : Step

namespace OverGiven

variable {ε σ α : Type}

/-- A transport that was never opened and has no options. -/
def fresh (eng : Engine ε σ) (engine : ε) (carrier : Carrier) (endpoint : Endpoint) :
    OverGiven ε σ where
  layer := .fresh endpoint (eng.capabilities engine)
  engine := engine
  carrier := some carrier
  step := .validate

/-! ### Pieces -/

/-- Does something with the session. -/
def onLayer (m : Act Effect (Layer σ) α) : Act Effect (OverGiven ε σ) α :=
  Act.within OverGiven.layer (fun l t => { t with layer := l }) id m

/-- Reports and takes an opening step. -/
def setStep (step : Step) : Act Effect (OverGiven ε σ) Unit := do
  let t ← Act.get
  Act.emit (.note (.tlsStep t.step step))
  Act.put { t with step := step }

/-- Checks the options and takes the next step. -/
def validate : Act Effect (OverGiven ε σ) Unit := do
  if ← onLayer Layer.checkConsistency then setStep .initSession else setStep .validationFailed

/-- Creates the session over the carrier. -/
def initSession (eng : Engine ε σ) (receiver : Receiver) :
    Act Effect (OverGiven ε σ) Progress := do
  let t ← Act.get
  match t.carrier with
  | none => return .failed
  | some carrier =>
    Act.put { t with carrier := none }
    let (created, engine) ← onLayer (Layer.requestSession eng carrier receiver t.engine)
    Act.modify fun t => { t with engine := engine }
    if created then
      setStep .handshake
      return .waiting
    else return .failed

/-! ### Operations -/

/-- Advances the open by the present step. -/
def establish (eng : Engine ε σ) (receiver : Receiver) : Act Effect (OverGiven ε σ) Progress := do
  if (← Act.get).step = .validate then validate
  let answer ←
    match (← Act.get).step with
    | .initSession => initSession eng receiver
    | .handshake => onLayer (Layer.handshake eng)
    | .failed =>
      Act.emit (.note .alreadyFailed)
      pure .failed
    | .validate | .validationFailed | .resolve | .connect => pure .failed
  if answer = .failed then
    onLayer Layer.close
    Act.modify fun t => { t with carrier := none }
    if (← Act.get).step ≠ .validationFailed then setStep .failed
  return answer

/-- Closes the session at once. The opening step stays. -/
def close : Act Effect (OverGiven ε σ) Progress := do
  onLayer Layer.close
  return .done

/-- The TLS transport over a given carrier. -/
def transport (eng : Engine ε σ) : Transport (OverGiven ε σ) where
  establish := establish eng
  close := close
  read := onLayer (Layer.read eng)
  write bytes := onLayer (Layer.write eng bytes)
  setOption name value := onLayer (Layer.setOption name value)
  retrieve t := t.layer.options.retrieve
  backlog t := t.layer.backlog eng

/-- Makes a transport for an endpoint. -/
def create (eng : Engine ε σ) (engine : ε) (carrier : Carrier) (endpoint : Endpoint) :
    Transport.Creation (OverGiven ε σ) :=
  match Layer.validate endpoint with
  | (.error fault, effects) => ⟨.error fault, effects⟩
  | (.ok (), _) => (transport eng).configured (fresh eng engine carrier endpoint) endpoint.options

end OverGiven

end PolledConnection.Tls
