import PolledConnection.Proofs.Tls.Course
import PolledConnection.Proofs.Tls.KeepAlive

/-! # The two TLS transports side by side

  The open of TLS over TCP and that of TLS over a given carrier are written
  apart, and only the first has a socket to look after. From the creation of
  the session on they do the same: one that holds a connected socket, and a new
  one over the same stream, answer alike, make the same calls of engine and
  session, and hand out the same bytes (`twins_agree`).

  Both are run on engines that need not be the same but behave alike (`Match`).
  The proof is a simulation: `Twin` relates the two transports from the first
  poll on, and every request keeps it.
-/

namespace PolledConnection

namespace Tls

variable {ε ε' σ σ' ρ ω α β τ τ' : Type}

/-! ### What is compared -/

/-- Options without regard to whether keepalive probes can be switched. -/
def Options.unswitched (o : Options) : Options :=
  { o with supported := { o.supported with tcpKeepAlive := false } }

end Tls

/-- Settings without the keepalive option. -/
def Settings.unswitched (s : Settings) : Settings :=
  ⟨s.entries.filter fun entry => entry.1 ≠ optionNames.keepAlive⟩

/-- An answer without the keepalive option. -/
def Transport.Answer.unswitched : Transport.Answer → Transport.Answer
  | .settings s => .settings s.unswitched
  | answer => answer

/-- What an effect shows: everything but notes, and but the keepalive capability. -/
def Effect.shown? : Effect → Option Effect
  | .note _ => none
  | .sessionRequested hostname port carrier options answer =>
    some (.sessionRequested hostname port carrier options.unswitched answer)
  | other => some other

/-- What an event of a transport shows. -/
def Transport.Event.shown? : Transport.Event → Option Transport.Event
  | .effect e => e.shown?.map .effect
  | .called call => some (.called call)

namespace Tls

variable {ε ε' σ σ' ρ ω α β τ τ' : Type}

/-- What a list of effects shows. -/
def shown (es : List Effect) : List Effect := es.filterMap Effect.shown?

@[simp] theorem shown_nil : shown [] = [] := rfl

@[simp] theorem shown_append (es fs : List Effect) : shown (es ++ fs) = shown es ++ shown fs :=
  List.filterMap_append

@[simp] theorem shown_note (note : Note) (es : List Effect) :
    shown (.note note :: es) = shown es := rfl

@[simp] theorem shown_notes (notes : List Note) : shown (notes.map .note) = [] := by
  simp [shown, List.filterMap_map, Function.comp_def, Effect.shown?]

/-- What the history of a transport shows. -/
def shownOf (es : List Transport.Event) : List Transport.Event := es.filterMap Transport.Event.shown?

@[simp] theorem shownOf_append (es fs : List Transport.Event) :
    shownOf (es ++ fs) = shownOf es ++ shownOf fs :=
  List.filterMap_append

@[simp] theorem shownOf_effects (es : List Effect) :
    shownOf (es.map .effect) = (shown es).map .effect := by
  simp [shownOf, shown, List.filterMap_map, List.map_filterMap, Function.comp_def,
    Transport.Event.shown?]

/-! ### Engines that behave alike -/

/-- Two engines behave alike: from related states they answer alike, and go on to related states. The
    keepalive capability makes no difference to them. -/
structure Match (eng : Engine ε σ) (eng' : Engine ε' σ') where
  /-- The engines' states that are related. -/
  engines : ε → ε' → Prop
  /-- The sessions' states that are related. -/
  sessions : σ → σ' → Prop
  create : ∀ {o o' : Options} hostname port carrier {e e'}, o.unswitched = o'.unswitched →
    engines e e' →
    let made := eng.create o hostname port carrier e
    let made' := eng'.create o' hostname port carrier e'
    engines made.2 made'.2 ∧
      ((∃ s s', made.1 = .ok s ∧ made'.1 = .ok s' ∧ sessions s s') ∨
        ∃ fault, made.1 = .error fault ∧ made'.1 = .error fault)
  handshake : ∀ {s s'}, sessions s s' →
    (eng.handshake s).1 = (eng'.handshake s').1 ∧ sessions (eng.handshake s).2 (eng'.handshake s').2
  read : ∀ size {s s'}, sessions s s' →
    (eng.read size s).1 = (eng'.read size s').1 ∧ sessions (eng.read size s).2 (eng'.read size s').2
  write : ∀ bytes {s s'}, sessions s s' →
    (eng.write bytes s).1 = (eng'.write bytes s').1 ∧
      sessions (eng.write bytes s).2 (eng'.write bytes s').2

/-! ### Outcomes that look alike -/

/-- Two outcomes have the same answer, show the same, and leave related states behind. -/
structure Alike (R : τ → τ' → Prop) (o : Outcome Effect τ α) (p : Outcome Effect τ' α) : Prop where
  answer : o.answer = p.answer
  shown : shown o.events = shown p.events
  state : R o.state p.state

/-- What looks alike goes on alike. -/
theorem Alike.bind {R S : τ → τ' → Prop} {m : Act Effect τ α} {n : Act Effect τ' α}
    {f : α → Act Effect τ β} {g : α → Act Effect τ' β} {s : τ} {t : τ'}
    (first : Alike R (m.run s) (n.run t))
    (next : ∀ {s' t'}, R s' t' →
      Alike S ((f (m.run s).answer).run s') ((g (m.run s).answer).run t')) :
    Alike S ((m >>= f).run s) ((n >>= g).run t) := by
  obtain ⟨answer, shown, state⟩ := first
  have later := next state
  rw [Act.run_bind, Act.run_bind, ← answer]
  constructor
  · exact later.answer
  · rw [shown_append, shown_append, shown, later.shown]
  · exact later.state

/-! ### Layers -/

section
variable {o o' : Options}

/-- The keepalive capability makes no difference to what is set. -/
theorem Options.set_unswitched (o : Options) (name : String) (value : Setting) :
    (o.set name value).map id unswitched = o.unswitched.set name value := by
  unfold set
  cases Slot.ofName? name with
  | none => rfl
  | some slot =>
    -- No slot of a session asks for the keepalive capability.
    have able : slot.isIn o.unswitched.supported = slot.isIn o.supported := by
      cases slot with
      | trustedCerts => rfl
      | certificate f | key f => cases f <;> rfl
    have free : o.unswitched.conflict? slot = o.conflict? slot := rfl
    simp only [able, free]
    split
    · cases o.conflict? slot with
      | some current => rfl
      | none =>
        cases value.text? with
        | none => rfl
        | some text => cases slot <;> rfl
    · rfl

/-- So it makes none to what is set in two stores that differ in it alone. -/
theorem Options.set_alike (same : o.unswitched = o'.unswitched) (name : String) (value : Setting) :
    ∃ answer p p', o.set name value = (answer, p) ∧ o'.set name value = (answer, p') ∧
      p.unswitched = p'.unswitched := by
  have both : (o.set name value).map id unswitched = (o'.set name value).map id unswitched := by
    rw [set_unswitched, set_unswitched, same]
  rcases set : o.set name value with ⟨answer, p⟩
  rcases set' : o'.set name value with ⟨answer', p'⟩
  obtain ⟨rfl, stores⟩ : answer = answer' ∧ p.unswitched = p'.unswitched := by
    simpa [set, set'] using both
  exact ⟨answer, p, p', rfl, rfl, stores⟩

end

namespace Layer

variable {eng : Engine ε σ} {eng' : Engine ε' σ'} {m : Match eng eng'} {l : Layer σ} {l' : Layer σ'}

/-- Two layers with sessions that behave alike. -/
structure Like (m : Match eng eng') (l : Layer σ) (l' : Layer σ') : Prop where
  hostname : l.hostname = l'.hostname
  port : l.port = l'.port
  options : l.options.unswitched = l'.options.unswitched
  receiver : l.receiver = l'.receiver
  held : (l.held = none ∧ l'.held = none) ∨
    ∃ h h', l.held = some h ∧ l'.held = some h' ∧ m.sessions h.session h'.session

/-- Closing leaves layers that are alike whoever got the bytes before. -/
theorem close_alike (hostname : l.hostname = l'.hostname) (port : l.port = l'.port)
    (options : l.options.unswitched = l'.options.unswitched)
    (held : l.held.isSome = l'.held.isSome) :
    Alike (Like m) (Layer.close.run l) (Layer.close.run l') := by
  cases hl : l.held with
  | none =>
    have bare' : l'.held = none := by simpa [hl] using held.symm
    rw [close_bare hl, close_bare bare']
    exact ⟨rfl, rfl, hostname, port, options, rfl, .inl ⟨hl, bare'⟩⟩
  | some h =>
    obtain ⟨h', hl'⟩ := Option.isSome_iff_exists.mp (by rw [← held, hl]; rfl)
    rw [close_held hl, close_held hl']
    exact ⟨rfl, rfl, hostname, port, options, rfl, .inl ⟨rfl, rfl⟩⟩

/-- The sessions go on alike. -/
theorem Like.goOn (like : Like m l l') {h : Held σ} {h' : Held σ'} {s : σ} {s' : σ'}
    (sessions : m.sessions s s') :
    Like m { l with held := some { h with session := s } }
      { l' with held := some { h' with session := s' } } where
  hostname := like.hostname
  port := like.port
  options := like.options
  receiver := like.receiver
  held := .inr ⟨_, _, rfl, rfl, sessions⟩

theorem Like.handshake (like : Like m l l') :
    Alike (Like m) ((Layer.handshake eng).run l) ((Layer.handshake eng').run l') := by
  rcases like.held with ⟨bare, bare'⟩ | ⟨h, h', held, held', sessions⟩
  · rw [handshake_bare eng bare, handshake_bare eng' bare']
    exact ⟨rfl, rfl, like⟩
  · obtain ⟨answer, later⟩ := m.handshake sessions
    rw [handshake_held eng held, handshake_held eng' held', answer]
    exact ⟨rfl, rfl, like.goOn later⟩

theorem Like.read (like : Like m l l') :
    Alike (Like m) ((Layer.read eng).run l) ((Layer.read eng').run l') := by
  rcases like.held with ⟨bare, bare'⟩ | ⟨h, h', held, held', sessions⟩
  · rw [read_bare eng bare, read_bare eng' bare']
    exact ⟨rfl, rfl, like⟩
  · obtain ⟨answer, later⟩ := m.read receiveBufferSize sessions
    rw [run_read_held eng held, run_read_held eng' held']
    constructor
    · simp only [answer, like.receiver]
    · simp only [answer, like.receiver]
    · exact like.goOn later

theorem Like.write (like : Like m l l') (bytes : Bytes) :
    Alike (Like m) ((Layer.write eng bytes).run l) ((Layer.write eng' bytes).run l') := by
  rcases like.held with ⟨bare, bare'⟩ | ⟨h, h', held, held', sessions⟩
  · rw [write_bare eng bare, write_bare eng' bare']
    exact ⟨rfl, rfl, like⟩
  · obtain ⟨answer, later⟩ := m.write bytes sessions
    rw [run_write_held eng held, run_write_held eng' held', answer]
    exact ⟨rfl, rfl, like.goOn later⟩

theorem Like.setOption (like : Like m l l') (name : String) (value : Setting) :
    Alike (Like m) ((Layer.setOption name value).run l) ((Layer.setOption name value).run l') := by
  obtain ⟨answer, p, p', set, set', stores⟩ := Options.set_alike like.options name value
  have after : Like m { l with options := p } { l' with options := p' } :=
    ⟨like.hostname, like.port, stores, like.receiver, like.held⟩
  rcases answer with fault | (_ | _) <;>
    exact ⟨by simp [Layer.setOption, set, set'], by simp [Layer.setOption, set, set'],
      by simpa [Layer.setOption, set, set'] using after⟩

end Layer

/-! ### The transports -/

section
variable {eng : Engine ε σ} {eng' : Engine ε' σ'} {m : Match eng eng'} {net : Network ω}
  {res : Resolver ρ} {t : OverTcp ε σ ρ ω} {u : OverGiven ε' σ'}

/-- The two transports from the creation of the session on. Neither holds a socket or a carrier beside
    that of the session. -/
structure Twin (m : Match eng eng') (t : OverTcp ε σ ρ ω) (u : OverGiven ε' σ') : Prop where
  layer : Layer.Like m t.layer u.layer
  engines : m.engines t.engine u.engine
  step : t.step = u.step
  begun : t.step = .handshake ∨ t.step = .failed
  socket : t.socket = none
  carrier : u.carrier = none

/-- What is done to both layers alike is done to both transports alike. -/
theorem Twin.onLayer (twin : Twin m t u) {n : Act Effect (Layer σ) α} {n' : Act Effect (Layer σ') α}
    (both : Alike (Layer.Like m) (n.run t.layer) (n'.run u.layer)) :
    Alike (Twin m) ((OverTcp.onLayer n).run t) ((OverGiven.onLayer n').run u) := by
  constructor
  · exact both.answer
  · simpa [OverTcp.onLayer, OverGiven.onLayer] using both.shown
  · exact ⟨both.state, twin.engines, twin.step, twin.begun, twin.socket, twin.carrier⟩

end

namespace OverTcp

variable (net : Network ω) (t : OverTcp ε σ ρ ω)

/-- Closing gives the socket back, and does what closing the layer does. -/
theorem run_close_layer : ∃ w, (close net).run t =
    ⟨.done, { t with layer := (Layer.close.run t.layer).state, network := w, socket := none },
      (Layer.close.run t.layer).events⟩ := by
  by_cases held : t.socket?.isSome = true
  · exact ⟨net.discard t.network, by simp [close, onLayer, held]⟩
  · exact ⟨t.network, by simp [close, onLayer, held]⟩

/-- So does the end of a poll that has failed. -/
theorem run_conclude_failed (hs : t.step ≠ .validationFailed) : ∃ w, (conclude net .failed).run t =
    ⟨.failed, { t with layer := (Layer.close.run t.layer).state, network := w, socket := none,
                       step := .failed },
      (Layer.close.run t.layer).events ++ [.note (.tlsStep t.step .failed)]⟩ := by
  obtain ⟨w, closed⟩ := run_close_layer net t
  exact ⟨w, by simp [conclude, closed, hs, setStep]⟩

end OverTcp

/-- The end of a poll that has failed, over a given carrier. -/
theorem OverGiven.run_conclude_failed (u : OverGiven ε σ) (hs : u.step ≠ .validationFailed) :
    (conclude .failed).run u =
      ⟨.failed, { u with layer := (Layer.close.run u.layer).state, carrier := none, step := .failed },
        (Layer.close.run u.layer).events ++ [.note (.tlsStep u.step .failed)]⟩ := by
  simp [conclude, onLayer, hs, setStep]

section
variable {eng : Engine ε σ} {eng' : Engine ε' σ'} {m : Match eng eng'} {net : Network ω}
  {res : Resolver ρ} {t : OverTcp ε σ ρ ω} {u : OverGiven ε' σ'}

theorem Twin.held (twin : Twin m t u) : t.layer.held.isSome = u.layer.held.isSome := by
  rcases twin.layer.held with ⟨bare, bare'⟩ | ⟨h, h', held, held', -⟩
  · rw [bare, bare']
    rfl
  · rw [held, held']
    rfl

/-- Closing gives a socket back only over TCP, and nobody sees it. -/
theorem Twin.close (twin : Twin m t u) :
    Alike (Twin m) ((OverTcp.close net).run t) (OverGiven.close.run u) := by
  have both : Alike (Layer.Like m) (Layer.close.run t.layer) (Layer.close.run u.layer) :=
    Layer.close_alike twin.layer.hostname twin.layer.port twin.layer.options twin.held
  obtain ⟨w, run⟩ := OverTcp.run_close_layer net t
  rw [run]
  constructor
  · rfl
  · simpa [OverGiven.close, OverGiven.onLayer] using both.shown
  · exact ⟨both.state, twin.engines, twin.step, twin.begun, rfl, twin.carrier⟩

/-- What has to agree at the end of a poll that has failed. -/
structure Doomed (m : Match eng eng') (t : OverTcp ε σ ρ ω) (u : OverGiven ε' σ') : Prop where
  hostname : t.layer.hostname = u.layer.hostname
  port : t.layer.port = u.layer.port
  options : t.layer.options.unswitched = u.layer.options.unswitched
  held : t.layer.held.isSome = u.layer.held.isSome
  engines : m.engines t.engine u.engine
  step : t.step = u.step
  checked : t.step ≠ .validationFailed

/-- A poll that has failed ends alike in both, whatever was held. -/
theorem Doomed.conclude (doomed : Doomed m t u) :
    Alike (Twin m) ((OverTcp.conclude net .failed).run t) ((OverGiven.conclude .failed).run u) := by
  have both : Alike (Layer.Like m) (Layer.close.run t.layer) (Layer.close.run u.layer) :=
    Layer.close_alike doomed.hostname doomed.port doomed.options doomed.held
  obtain ⟨w, run⟩ := OverTcp.run_conclude_failed net t doomed.checked
  have checked : u.step ≠ .validationFailed := by
    rw [← doomed.step]
    exact doomed.checked
  rw [run, OverGiven.run_conclude_failed u checked]
  constructor
  · rfl
  · simpa using both.shown
  · exact ⟨both.state, doomed.engines, rfl, .inr rfl, rfl, rfl⟩

/-- **The end of a poll.** -/
theorem Twin.conclude (twin : Twin m t u) (answer : Progress) :
    Alike (Twin m) ((OverTcp.conclude net answer).run t) ((OverGiven.conclude answer).run u) := by
  by_cases failed : answer = .failed
  · subst failed
    have checked : t.step ≠ .validationFailed := by
      rcases twin.begun with hs | hs <;> simp [hs]
    exact Doomed.conclude ⟨twin.layer.hostname, twin.layer.port, twin.layer.options, twin.held,
      twin.engines, twin.step, checked⟩
  · have run : (OverTcp.conclude net answer).run t = ⟨answer, t, []⟩ := by
      simp [OverTcp.conclude, failed]
    have run' : (OverGiven.conclude answer).run u = ⟨answer, u, []⟩ := by
      simp [OverGiven.conclude, failed]
    rw [run, run']
    exact ⟨rfl, rfl, twin⟩

/-- **The step of a poll.** -/
theorem Twin.advance (twin : Twin m t u) (receiver : Receiver) :
    Alike (Twin m) ((OverTcp.advance eng net res receiver).run t)
      ((OverGiven.advance eng' receiver).run u) := by
  have step := twin.step
  rcases twin.begun with hs | hs
  -- An open that had succeeded asks for the handshake again.
  · rw [hs] at step
    have run : (OverTcp.advance eng net res receiver).run t =
        (OverTcp.onLayer (Layer.handshake eng)).run t := by
      simp [OverTcp.advance, hs]
    have run' : (OverGiven.advance eng' receiver).run u =
        (OverGiven.onLayer (Layer.handshake eng')).run u := by
      simp [OverGiven.advance, ← step]
    rw [run, run']
    exact twin.onLayer twin.layer.handshake
  · rw [hs] at step
    have run : (OverTcp.advance eng net res receiver).run t =
        ⟨.failed, t, [.note .alreadyFailed]⟩ := by
      simp [OverTcp.advance, hs]
    have run' : (OverGiven.advance eng' receiver).run u = ⟨.failed, u, [.note .alreadyFailed]⟩ := by
      simp [OverGiven.advance, ← step]
    rw [run, run']
    exact ⟨rfl, rfl, twin⟩

/-- Behind the check a poll is its step and its end. -/
theorem OverTcp.run_establish_past (receiver : Receiver) (hs : t.step ≠ .validate) :
    (OverTcp.establish eng net res receiver).run t =
      (OverTcp.advance eng net res receiver >>= OverTcp.conclude net).run t := by
  rw [OverTcp.run_establish]
  simp [hs]

theorem OverGiven.run_establish_past (receiver : Receiver) (hs : u.step ≠ .validate) :
    (OverGiven.establish eng' receiver).run u =
      (OverGiven.advance eng' receiver >>= OverGiven.conclude).run u := by
  rw [OverGiven.run_establish]
  simp [hs]

/-- **Polls** behind the first. -/
theorem Twin.establish (twin : Twin m t u) (receiver : Receiver) :
    Alike (Twin m) ((OverTcp.establish eng net res receiver).run t)
      ((OverGiven.establish eng' receiver).run u) := by
  have past : t.step ≠ .validate := by
    rcases twin.begun with hs | hs <;> simp [hs]
  rw [OverTcp.run_establish_past receiver past,
    OverGiven.run_establish_past receiver (by rw [← twin.step]; exact past)]
  apply (twin.advance receiver).bind
  intro t u twin
  exact twin.conclude _

/-! ### The first poll -/

theorem OverTcp.advance_created (net : Network ω) (res : Resolver ρ) {s : Socket} {session : σ}
    (receiver : Receiver) (hs : t.step = .initSession) (held : t.socket = some s)
    (made : (eng.create t.layer.options t.layer.hostname t.layer.port (.stream s) t.engine).1 =
      .ok session) :
    (OverTcp.advance eng net res receiver).run t =
      ⟨.waiting,
        { t with
          layer := { t.layer with held := some ⟨session, .stream s⟩, receiver := some receiver }
          engine := (eng.create t.layer.options t.layer.hostname t.layer.port (.stream s) t.engine).2
          socket := none, step := .handshake },
        [.sessionRequested t.layer.hostname t.layer.port (.stream s) t.layer.options (.ok ()),
          .note (.tlsStep .initSession .handshake)]⟩ := by
  simp [OverTcp.advance, hs, OverTcp.initSession, held, OverTcp.onLayer, Layer.requestSession, made,
    OverTcp.setStep, Except.map]

theorem OverTcp.advance_refused (net : Network ω) (res : Resolver ρ) {s : Socket} {fault : Fault}
    (receiver : Receiver) (hs : t.step = .initSession) (held : t.socket = some s)
    (made : (eng.create t.layer.options t.layer.hostname t.layer.port (.stream s) t.engine).1 =
      .error fault) :
    (OverTcp.advance eng net res receiver).run t =
      ⟨.failed,
        { t with
          engine := (eng.create t.layer.options t.layer.hostname t.layer.port (.stream s) t.engine).2
          network := net.discard t.network, socket := none },
        [.sessionRequested t.layer.hostname t.layer.port (.stream s) t.layer.options (.error fault),
          .note (.sessionRefused fault)]⟩ := by
  simp [OverTcp.advance, hs, OverTcp.initSession, held, OverTcp.onLayer, Layer.requestSession, made,
    Except.map]

theorem OverGiven.advance_created {carrier : Carrier} {session : σ'} (receiver : Receiver)
    (hs : u.step = .initSession) (held : u.carrier = some carrier)
    (made : (eng'.create u.layer.options u.layer.hostname u.layer.port carrier u.engine).1 =
      .ok session) :
    (OverGiven.advance eng' receiver).run u =
      ⟨.waiting,
        { layer := { u.layer with held := some ⟨session, carrier⟩, receiver := some receiver }
          engine := (eng'.create u.layer.options u.layer.hostname u.layer.port carrier u.engine).2
          carrier := none, step := .handshake },
        [.sessionRequested u.layer.hostname u.layer.port carrier u.layer.options (.ok ()),
          .note (.tlsStep .initSession .handshake)]⟩ := by
  simp [OverGiven.advance, hs, OverGiven.initSession, held, OverGiven.onLayer, Layer.requestSession,
    made, OverGiven.setStep, Except.map]

theorem OverGiven.advance_refused {carrier : Carrier} {fault : Fault} (receiver : Receiver)
    (hs : u.step = .initSession) (held : u.carrier = some carrier)
    (made : (eng'.create u.layer.options u.layer.hostname u.layer.port carrier u.engine).1 =
      .error fault) :
    (OverGiven.advance eng' receiver).run u =
      ⟨.failed,
        { u with
          engine := (eng'.create u.layer.options u.layer.hostname u.layer.port carrier u.engine).2
          carrier := none },
        [.sessionRequested u.layer.hostname u.layer.port carrier u.layer.options (.error fault),
          .note (.sessionRefused fault)]⟩ := by
  simp [OverGiven.advance, hs, OverGiven.initSession, held, OverGiven.onLayer, Layer.requestSession,
    made, Except.map]

/-- The two transports when the check of the options is over in both. -/
structure Checked (m : Match eng eng') (s : Socket) (t : OverTcp ε σ ρ ω) (u : OverGiven ε' σ') :
    Prop where
  hostname : t.layer.hostname = u.layer.hostname
  port : t.layer.port = u.layer.port
  options : t.layer.options.unswitched = u.layer.options.unswitched
  engines : m.engines t.engine u.engine
  step : t.step = .initSession
  step' : u.step = .initSession
  socket : t.socket = some s
  carrier : u.carrier = some (.stream s)
  bare : t.layer.held = none
  bare' : u.layer.held = none

/-- Both ask their engine for the session. If it is refused both polls have failed. -/
theorem Checked.open {s : Socket} (checked : Checked m s t u) (receiver : Receiver) :
    Alike (Twin m) ((OverTcp.advance eng net res receiver >>= OverTcp.conclude net).run t)
      ((OverGiven.advance eng' receiver >>= OverGiven.conclude).run u) := by
  obtain ⟨engines, made⟩ :=
    m.create t.layer.hostname t.layer.port (.stream s) checked.options checked.engines
  rcases made with ⟨session, session', made, made', sessions⟩ | ⟨fault, made, made'⟩
  · have run := OverTcp.advance_created net res receiver checked.step checked.socket made
    have run' := OverGiven.advance_created receiver checked.step' checked.carrier
      (by rw [← checked.hostname, ← checked.port]; exact made')
    rw [← checked.hostname, ← checked.port] at run'
    have asked : Alike (Twin m) ((OverTcp.advance eng net res receiver).run t)
        ((OverGiven.advance eng' receiver).run u) := by
      rw [run, run']
      have layer : Layer.Like m
          { t.layer with held := some ⟨session, .stream s⟩, receiver := some receiver }
          { u.layer with held := some ⟨session', .stream s⟩, receiver := some receiver } :=
        ⟨checked.hostname, checked.port, checked.options, rfl, .inr ⟨_, _, rfl, rfl, sessions⟩⟩
      constructor
      · rfl
      · simp [shown, Effect.shown?, checked.options]
      · exact ⟨layer, engines, rfl, .inl rfl, rfl, rfl⟩
    exact asked.bind fun twin => twin.conclude _
  · have run := OverTcp.advance_refused net res receiver checked.step checked.socket made
    have run' := OverGiven.advance_refused receiver checked.step' checked.carrier
      (by rw [← checked.hostname, ← checked.port]; exact made')
    rw [← checked.hostname, ← checked.port] at run'
    -- The receivers may differ until the close at the end of the poll forgets them.
    have asked : Alike (Doomed m) ((OverTcp.advance eng net res receiver).run t)
        ((OverGiven.advance eng' receiver).run u) := by
      rw [run, run']
      constructor
      · rfl
      · simp [shown, Effect.shown?, checked.options]
      · have held : t.layer.held.isSome = u.layer.held.isSome := by
          rw [checked.bare, checked.bare']
          rfl
        exact ⟨checked.hostname, checked.port, checked.options, held, engines,
          checked.step.trans checked.step'.symm, by simp [checked.step]⟩
    apply asked.bind
    intro t u doomed
    rw [show ((OverTcp.advance eng net res receiver).run _).answer = .failed from
      congrArg Outcome.answer run]
    exact doomed.conclude

/-- A new transport checks its options, and asks for the session in the same poll. -/
theorem OverGiven.run_establish_new (eng' : Engine ε' σ') (receiver : Receiver)
    (new : u.step = .validate) (consistent : u.layer.options.isConsistent = true) :
    let rest := (OverGiven.advance eng' receiver >>= OverGiven.conclude).run
      { u with step := .initSession }
    ∃ notes : List Note, (OverGiven.establish eng' receiver).run u =
      ⟨rest.answer, rest.state, notes.map .note ++ rest.events⟩ := by
  obtain ⟨notes, checked⟩ := OverGiven.run_validate u
  rw [consistent, if_pos rfl] at checked
  refine ⟨notes, ?_⟩
  rw [OverGiven.run_establish]
  simp [new, checked]

/-- **The first poll.** -/
theorem Checked.establish {s : Socket} (checked : Checked m s t { u with step := .initSession })
    (receiver : Receiver) (new : u.step = .validate)
    (consistent : u.layer.options.isConsistent = true) :
    Alike (Twin m) ((OverTcp.establish eng net res receiver).run t)
      ((OverGiven.establish eng' receiver).run u) := by
  obtain ⟨notes, run'⟩ := OverGiven.run_establish_new eng' receiver new consistent
  obtain ⟨answer, shown, state⟩ := checked.open receiver
  rw [OverTcp.run_establish_past receiver (by simp [checked.step]), run']
  constructor
  · exact answer
  · simpa using shown
  · exact state

/-! ### Requests -/

open Transport (Request Answer)

/-- One request to both: the answers agree, but for the keepalive option, and so does what is shown. -/
structure Agreed (R : τ → τ' → Prop) (o : Outcome Transport.Event τ Answer)
    (p : Outcome Transport.Event τ' Answer) : Prop where
  answer : o.answer.unswitched = p.answer.unswitched
  shown : shownOf o.events = shownOf p.events
  state : R o.state p.state

/-- Calls that look alike are answered and recorded alike. -/
theorem Alike.recorded {R : τ → τ' → Prop} {n : Act Effect τ α} {n' : Act Effect τ' α} {s : τ}
    {s' : τ'} (both : Alike R (n.run s) (n'.run s')) (call : α → Transport.Call) (wrap : α → Answer) :
    Agreed R ((wrap <$> Transport.recorded n call).run s)
      ((wrap <$> Transport.recorded n' call).run s') := by
  obtain ⟨answer, shown, state⟩ := both
  constructor
  · simp [Transport.recorded, answer]
  · simp [Transport.recorded, shown, answer]
  · simpa [Transport.recorded] using state

theorem Alike.unrecorded {R : τ → τ' → Prop} {n : Act Effect τ α} {n' : Act Effect τ' α} {s : τ}
    {s' : τ'} (both : Alike R (n.run s) (n'.run s')) (wrap : α → Answer) :
    Agreed R ((wrap <$> Transport.unrecorded n).run s)
      ((wrap <$> Transport.unrecorded n').run s') := by
  obtain ⟨answer, shown, state⟩ := both
  constructor
  · simp [Transport.unrecorded, answer]
  · simp [Transport.unrecorded, shown]
  · simpa [Transport.unrecorded] using state

/-- The options of a session do not contain the keepalive option. -/
theorem Options.unswitched_retrieve (o : Options) : o.retrieve.unswitched = o.retrieve := by
  have others : ∀ entry ∈ o.retrieve.entries, entry.1 ≠ optionNames.keepAlive := by
    rw [retrieve_entries]
    intro entry listed
    obtain ⟨⟨slot, text⟩, -, rfl⟩ := List.mem_map.mp listed
    exact Stock.name_ne_keepAlive slot
  unfold Settings.unswitched
  rw [List.filter_eq_self.mpr fun entry listed => by simpa using others entry listed]

/-- The keepalive option is all that the transport over TCP lists in addition. -/
theorem OverTcp.unswitched_retrieve (t : OverTcp ε σ ρ ω) :
    t.retrieve.unswitched = t.layer.options.retrieve := by
  have session :
      t.layer.options.retrieve.entries.filter (fun entry => entry.1 ≠ optionNames.keepAlive) =
        t.layer.options.retrieve.entries :=
    congrArg Settings.entries (Options.unswitched_retrieve t.layer.options)
  unfold Settings.unswitched OverTcp.retrieve
  rw [List.filter_append, session]
  cases t.keepAlive with
  | none => simp
  | some on => simp

/-- **Step**: a request that does not set the keepalive option. -/
theorem Twin.serve (net : Network ω) (res : Resolver ρ) (twin : Twin m t u) (q : Request)
    (other : ∀ value, q ≠ .setOption optionNames.keepAlive value) :
    Agreed (Twin m) (((OverTcp.transport eng net res).serve q).run t)
      (((OverGiven.transport eng').serve q).run u) := by
  cases q with
  | establish receiver => exact (twin.establish receiver).recorded .establish .progress
  | close => exact twin.close.recorded .close .progress
  | read => exact (twin.onLayer twin.layer.read).recorded .read .progress
  | write bytes => exact (twin.onLayer (twin.layer.write bytes)).recorded (.write bytes) .count
  | setOption name value =>
    have different : name ≠ optionNames.keepAlive := by
      intro same
      exact other value (by rw [same])
    have set : Alike (Twin m) ((OverTcp.setOption net name value).run t)
        ((OverGiven.onLayer (Layer.setOption name value)).run u) := by
      unfold OverTcp.setOption
      rw [if_neg different]
      exact twin.onLayer (twin.layer.setOption name value)
    exact set.unrecorded .accepted
  | retrieve =>
    constructor
    · show Answer.settings t.retrieve.unswitched =
        Answer.settings u.layer.options.retrieve.unswitched
      have same : t.layer.options.retrieve = u.layer.options.retrieve := by
        show t.layer.options.unswitched.retrieve = u.layer.options.unswitched.retrieve
        rw [twin.layer.options]
      rw [OverTcp.unswitched_retrieve, Options.unswitched_retrieve, same]
    · rfl
    · exact twin

/-- **Run**: any requests that do not set the keepalive option. -/
theorem Twin.serveAll (net : Network ω) (res : Resolver ρ) (twin : Twin m t u) (qs : List Request)
    (others : ∀ q ∈ qs, ∀ value, q ≠ .setOption optionNames.keepAlive value) :
    let o := ((OverTcp.transport eng net res).serveAll qs).run t
    let p := ((OverGiven.transport eng').serveAll qs).run u
    o.answer.map Answer.unswitched = p.answer.map Answer.unswitched ∧
      shownOf o.events = shownOf p.events := by
  induction qs generalizing t u with
  | nil => exact ⟨rfl, rfl⟩
  | cons q qs ih =>
    obtain ⟨answer, shown, state⟩ :=
      twin.serve net res q (others q List.mem_cons_self)
    obtain ⟨answers, later⟩ := ih state fun r hr => others r (List.mem_cons_of_mem q hr)
    constructor
    · simp [Transport.serveAll_cons, answer, answers]
    · simp [Transport.serveAll_cons, shown, later]

end

/-! ### The theorem -/

/-- **The two TLS transports agree.** Take a transport over TCP, whatever was asked of it before, that
    is about to create its session over a connected socket; and a new transport over that same stream,
    with the same host name, port and options, which are consistent. Let their engines behave alike.
    Then both give the same answers from the next open on, and their histories show the same calls of
    engine and session and the same bytes handed out, as long as nobody sets the keepalive option.
    Only in what they list does the one over TCP have that option in addition. -/
theorem twins_agree {eng : Engine ε σ} {eng' : Engine ε' σ'} (m : Match eng eng') (net : Network ω)
    (res : Resolver ρ) {engine : ε} {resolver : ρ} {network : ω} {endpoint : Endpoint}
    {first : OverTcp ε σ ρ ω}
    (made : (OverTcp.create eng net res engine resolver network endpoint).result = .ok first)
    (before : List Transport.Request) {engine' : ε'} {s : Socket} {endpoint' : Endpoint}
    {u : OverGiven ε' σ'}
    (made' : (OverGiven.create eng' engine' (.stream s) endpoint').result = .ok u) :
    let T := OverTcp.transport eng net res
    let t := T.stateFrom first before
    t.step = .initSession → t.socket = some s →
    t.layer.hostname = u.layer.hostname → t.layer.port = u.layer.port →
    t.layer.options.unswitched = u.layer.options.unswitched → u.layer.options.isConsistent = true →
    m.engines t.engine u.engine →
    ∀ receiver qs, (∀ q ∈ qs, ∀ value, q ≠ .setOption optionNames.keepAlive value) →
      let o := (T.serveAll (.establish receiver :: qs)).run t
      let p := ((OverGiven.transport eng').serveAll (.establish receiver :: qs)).run u
      o.answer.map Transport.Answer.unswitched = p.answer.map Transport.Answer.unswitched ∧
        shownOf o.events = shownOf p.events := by
  intro T t step socket hostname port options consistent engines receiver qs others
  obtain ⟨new, carrier⟩ := OverGiven.create_ready made'
  -- A layer holds a session from the handshake on, and neither transport has got there.
  have bare : t.layer.held = none := by
    apply ((OverTcp.conduct eng net res).sound (OverTcp.create_begins ..) made before).bare
    show t.step ≠ .handshake
    simp [step]
  have bare' : u.layer.held = none := by
    apply ((OverGiven.conduct eng' (.stream s)).sound (OverGiven.create_begins ..) made' []).bare
    show u.step ≠ .handshake
    simp [new]
  have checked : Checked m s t { u with step := .initSession } :=
    ⟨hostname, port, options, engines, step, rfl, socket, carrier, bare, bare'⟩
  have opened : Agreed (Twin m) ((T.serve (.establish receiver)).run t)
      (((OverGiven.transport eng').serve (.establish receiver)).run u) :=
    (checked.establish receiver new consistent).recorded .establish .progress
  obtain ⟨answers, later⟩ := opened.state.serveAll net res qs others
  constructor
  · simpa [Transport.serveAll_cons, Transport.serveAll_nil] using ⟨opened.answer, answers⟩
  · simpa [Transport.serveAll_cons, Transport.serveAll_nil, opened.shown] using later

/-- The scripted engine behaves like itself: it makes nothing of its options. -/
def scripted : Match Script.Engine.engine Script.Engine.engine where
  engines := (· = ·)
  sessions := (· = ·)
  create hostname port carrier e e' _ same := by
    subst same
    cases made : e.create.1 with
    | ok session => exact ⟨rfl, .inl ⟨session, session, made, made, rfl⟩⟩
    | error fault => exact ⟨rfl, .inr ⟨fault, made, made⟩⟩
  handshake same := same ▸ ⟨rfl, rfl⟩
  read size s s' same := same ▸ ⟨rfl, rfl⟩
  write bytes s s' same := same ▸ ⟨rfl, rfl⟩

/-- An engine whose session has to wait for its handshake and then has something to read. -/
def talkative : Script.Engine := ⟨.none, [], ⟨[.waiting], [.data [104, 105]], []⟩⟩

/-- The requests that lead to the creation of a session over a socket with probes. -/
def probing : List Transport.Request :=
  [.establish ⟨"rx"⟩, .setOption "tcp_keepalive" (.truth true), .establish ⟨"rx"⟩, .establish ⟨"rx"⟩]

/-- That the probes of the socket are on makes no difference to what is read, listed but for them, and
    opened again behind a close. -/
theorem twins_agree_talkative :
    ∃ first u,
      (OverTcp.create Script.Engine.engine Mailbox.prompt Script.resolver talkative
        [.ok (some OverTcp.listener)] .empty (.of "h" 443)).result = .ok first ∧
      (OverGiven.create Script.Engine.engine talkative (.stream ⟨OverTcp.listener, true⟩)
        (.of "h" 443)).result = .ok u ∧
      let T := OverTcp.transport Script.Engine.engine Mailbox.prompt Script.resolver
      let qs : List Transport.Request := [.establish ⟨"rx"⟩, .establish ⟨"rx"⟩, .read, .retrieve,
        .close, .establish ⟨"rx"⟩]
      let o := (T.serveAll qs).run (T.stateFrom first probing)
      let p := ((OverGiven.transport Script.Engine.engine).serveAll qs).run u
      o.answer.map Transport.Answer.unswitched = p.answer.map Transport.Answer.unswitched ∧
        shownOf o.events = shownOf p.events := by
  obtain ⟨first, u, made, made', ready⟩ : ∃ first u,
      (OverTcp.create Script.Engine.engine Mailbox.prompt Script.resolver talkative
        [.ok (some OverTcp.listener)] .empty (.of "h" 443)).result = .ok first ∧
      (OverGiven.create Script.Engine.engine talkative (.stream ⟨OverTcp.listener, true⟩)
        (.of "h" 443)).result = .ok u ∧
      let t := (OverTcp.transport Script.Engine.engine Mailbox.prompt Script.resolver).stateFrom first
        probing
      t.step = .initSession ∧ t.socket = some ⟨OverTcp.listener, true⟩ ∧
        t.layer.hostname = u.layer.hostname ∧ t.layer.port = u.layer.port ∧
        t.layer.options.unswitched = u.layer.options.unswitched ∧
        u.layer.options.isConsistent = true ∧ t.engine = u.engine :=
    ⟨_, _, rfl, rfl, rfl, rfl, rfl, rfl, rfl, rfl, rfl⟩
  obtain ⟨step, socket, hostname, port, options, consistent, engines⟩ := ready
  exact ⟨first, u, made, made', twins_agree scripted Mailbox.prompt Script.resolver made probing made'
    step socket hostname port options consistent engines _ _ (by simp)⟩

end Tls

end PolledConnection
