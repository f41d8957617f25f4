import PolledConnection.Endpoint.Basic
import PolledConnection.Tls.Engine
import PolledConnection.Transport.Basic

/-! # The TLS layer

  What the TLS transports share: the options, and the session once there is
  one. A session is created at most once, closed at most once, and never used
  after that, since closing forgets it.
-/

namespace PolledConnection.Tls

/-- A session together with what it is layered over. -/
structure Held (σ : Type) where
  /-- The session. -/
  session : σ
  /-- Its carrier. -/
  carrier : Carrier

/-- The part of a TLS transport that deals with the session. -/
structure Layer (σ : Type) where
  /-- The name that the peer has to prove. -/
  hostname : String
  /-- The port. -/
  port : UInt16
  /-- The options of the session. -/
  options : Options
  /-- Who gets received bytes. -/
  receiver : Option Receiver
  /-- The session. -/
  held : Option (Held σ)

namespace Layer

variable {ε σ α : Type}

/-- A layer without a session and without options. -/
def fresh (endpoint : Endpoint) (supported : Capabilities) : Layer σ where
  hostname := endpoint.hostname
  port := endpoint.port
  options := .new supported
  receiver := none
  held := none

/-- Refuses the endpoint of a TLS transport. -/
def validate (endpoint : Endpoint) : Except Fault Unit × List Effect :=
  match endpoint.validate with
  | .ok () => (.ok (), [])
  | .error fault => (.error fault, [.note .endpointRefused])

/-- Whether certificate and key are both set or both unset; reports if not. -/
def checkConsistency : Act Effect (Layer σ) Bool := do
  let l ← Act.get
  match l.options.checkConsistency with
  | .ok () => return true
  | .error _ =>
    Act.emit (.note .mismatchedCredentials)
    return false

/-- Does something with the session that is held. -/
def onSession (h : Held σ) (m : Act Effect σ α) : Act Effect (Layer σ) α :=
  Act.within (fun _ => h.session)
    (fun session l => { l with held := some { h with session := session } }) id m

@[simp] theorem run_onSession (h : Held σ) (m : Act Effect σ α) (l : Layer σ) :
    (onSession h m).run l =
      let o := m.run h.session
      ⟨o.answer, { l with held := some { h with session := o.state } }, o.events⟩ := by
  simp [onSession]

/-- Asks the engine for a session over a carrier. Answers whether there is one now. -/
def requestSession (eng : Engine ε σ) (carrier : Carrier) (receiver : Receiver) (e : ε) :
    Act Effect (Layer σ) (Bool × ε) := do
  let l ← Act.get
  let asked := (eng.request l.options l.hostname l.port carrier).run e
  Act.emitAll asked.events
  match asked.answer with
  | .ok session =>
    Act.put { l with held := some ⟨session, carrier⟩, receiver := some receiver }
    return (true, asked.state)
  | .error fault =>
    Act.emit (.note (.sessionRefused fault))
    return (false, asked.state)

/-- Advances the handshake. -/
def handshake (eng : Engine ε σ) : Act Effect (Layer σ) Progress := do
  let l ← Act.get
  match l.held with
  | none => return .failed
  | some h =>
    let (answer, session) := eng.handshake h.session
    Act.put { l with held := some { h with session := session } }
    Act.emit (.handshake answer)
    return answer

/-- Closes the session, if there is one. -/
def close : Act Effect (Layer σ) Unit := do
  let l ← Act.get
  match l.held with
  | none => Act.put { l with receiver := none }
  | some _ =>
    Act.put { l with held := none, receiver := none }
    Act.emit .sessionClosed

/-- Reads one chunk from the session. -/
def read (eng : Engine ε σ) : Act Effect (Layer σ) Progress := do
  let l ← Act.get
  match l.held with
  | none => return .failed
  | some h =>
    match ← onSession h (eng.take receiveBufferSize) with
    | .error fault =>
      Act.emit (.note (.sessionReadFailed fault))
      return .failed
    | .ok fill =>
      if fill.count = 0 then return .waiting
      else
        match l.receiver with
        | none => return .done
        | some receiver =>
          Act.emit (.received receiver.tag (fill.chunk receiveBufferSize))
          return .done

/-- Offers bytes to the session. -/
def write (eng : Engine ε σ) (bytes : Bytes) : Act Effect (Layer σ) Count := do
  let l ← Act.get
  match l.held with
  | none => return .error (.tls "no open session")
  | some h => onSession h (eng.offer bytes)

/-- What is reported when an option is refused. -/
def complaint (name : String) : Fault → Option Note
  | .unsupportedOption _ =>
    if name = optionNames.trustedCerts then some .trustUnsupported
    else some (.credentialUnsupported name)
  | .optionConflict _ => some .familyConflict
  | _ => none

/-- Sets a TLS option. -/
def setOption (name : String) (value : Setting) : Act Effect (Layer σ) (Except Fault Unit) := do
  let l ← Act.get
  let (answer, options) := l.options.set name value
  Act.put { l with options := options }
  match answer with
  | .ok .accepted => return .ok ()
  | .ok .notHandled => return .error (.unsupportedOption name)
  | .error fault =>
    Act.emitAll ((complaint name fault).toList.map .note)
    return .error fault

/-- A bound on the chunks that the session has ready. -/
def backlog (eng : Engine ε σ) (l : Layer σ) : Nat :=
  (l.held.map fun h => eng.backlog h.session).getD 0

end Layer

end PolledConnection.Tls
