import PolledConnection.Proofs.Patience
import PolledConnection.Tcp.Transport
import PolledConnection.Tls.OverGiven
import PolledConnection.Tls.OverTcp

/-! # What the next polls of an open will do

  Every poll of an open asks one thing of one party: the resolver, the socket
  that is connecting, the engine, or the session. The open goes on to the next
  party once the present one has answered in earnest. So it is known beforehand
  what the polls will do if it is known how long each party takes.

  A `Forecast` says of a state what the next polls of the open answer, and what
  each of them asks. A stage of the open is a number of polls that ask the same
  party. All stages of all transports are one lemma (`Forecast.stage`), and a
  lemma about one poll each.
-/

namespace PolledConnection

variable {ε σ ρ ω κ α τ : Type}

/-! ### Errands -/

/-- What a transport asks of its surroundings. -/
inductive Errand where
  /-- An address, of the resolver. -/
  | lookup
  /-- A connected socket, of the network. -/
  | connect
  /-- A session, of the engine. -/
  | session
  /-- To go on with the handshake, of the session. -/
  | handshake
  /-- Anything else. -/
  | other
deriving DecidableEq, Repr

/-- The errand that an effect tells of. Notes and received bytes stay inside. -/
def Effect.errand? : Effect → Option Errand
  | .lookedUp .. => some .lookup
  | .connectPolled .. => some .connect
  | .sessionRequested .. => some .session
  | .handshake _ => some .handshake
  | .sessionRead .. | .sessionWrite .. | .sessionClosed | .optionOffered .. => some .other
  | .received .. | .note _ => none

/-- The errands in a list of effects. -/
def errands (es : List Effect) : List Errand := es.filterMap Effect.errand?

@[simp] theorem errands_nil : errands [] = [] := rfl

@[simp] theorem errands_cons (e : Effect) (es : List Effect) :
    errands (e :: es) = e.errand?.toList ++ errands es := by
  cases h : e.errand? <;> simp [errands, h]

@[simp] theorem Effect.errand?_note (note : Note) : (Effect.note note).errand? = none := rfl

@[simp] theorem errands_append (es fs : List Effect) : errands (es ++ fs) = errands es ++ errands fs :=
  List.filterMap_append

@[simp] theorem errands_notes (notes : List Note) : errands (notes.map .note) = [] := by
  simp [errands, List.filterMap_map, Function.comp_def]

/-! ### Forecasts -/

namespace Transport

/-- One poll of the open: what it answers, the one errand that it runs, and what it leaves behind. -/
structure Poll (T : Transport σ) (receiver : Receiver) (s : σ) (answer : Progress) (errand : Errand)
    (u : σ) : Prop where
  answer : ((T.establish receiver).run s).answer = answer
  errands : errands ((T.establish receiver).run s).events = [errand]
  state : ((T.establish receiver).run s).state = u

/-- The next polls of the open answer as listed, and run the errands listed, whoever is to get the
    bytes. -/
def Forecast (T : Transport σ) : List (Progress × List Errand) → σ → Prop
  | [], _ => True
  | x :: xs, s => ∀ receiver,
    (((T.establish receiver).run s).answer,
        PolledConnection.errands ((T.establish receiver).run s).events) = x ∧
      T.Forecast xs ((T.establish receiver).run s).state

variable {T : Transport σ} {ask : κ → α × κ} {waits ends : α → Prop} {answer : Progress}
  {errand : Errand} {rest : List (Progress × List Errand)} {s : σ}

/-- What one poll does, and what the others do then. -/
theorem Forecast.cons
    (poll : ∀ receiver, ∃ u, T.Poll receiver s answer errand u ∧ T.Forecast rest u) :
    T.Forecast ((answer, [errand]) :: rest) s := by
  intro receiver
  obtain ⟨u, now, later⟩ := poll receiver
  rw [now.answer, now.errands, now.state]
  exact ⟨rfl, later⟩

/-- A stage of an open. As long as the party makes it wait, each poll runs the errand to that party and
    stays in the stage; the poll that gets an answer in earnest ends it. -/
theorem Forecast.stage (Inv : κ → σ → Prop)
    (more : ∀ x s receiver, Inv x s → waits (ask x).1 →
      ∃ u, T.Poll receiver s .waiting errand u ∧ Inv (ask x).2 u)
    (done : ∀ x s receiver, Inv x s → ends (ask x).1 →
      ∃ u, T.Poll receiver s answer errand u ∧ T.Forecast rest u)
    {n : Nat} {x : κ} (inv : Inv x s) (h : EndsAfter ask waits ends n x) :
    T.Forecast (List.replicate n (.waiting, [errand]) ++ (answer, [errand]) :: rest) s := by
  induction n generalizing x s with
  | zero =>
    apply Forecast.cons
    intro receiver
    exact done x s receiver inv h
  | succ n ih =>
    obtain ⟨waiting, later⟩ := h
    apply Forecast.cons
    intro receiver
    obtain ⟨u, now, still⟩ := more x s receiver inv waiting
    exact ⟨u, now, ih still later⟩

end Transport

/-- Polls that wait, with an errand each, and a last one that is done. -/
def timetable (waiting : List Errand) (last : Errand) : List (Progress × List Errand) :=
  waiting.map (fun errand => (.waiting, [errand])) ++ [(.done, [last])]

/-! ### The parties -/

/-- The address in the answer of a resolver. There is none in a fault. -/
def addressIn : Except Fault (Option Address) → Option Address
  | .ok found => found
  | .error _ => none

/-- The resolver gives `n` answers without an address and then the address of a host. -/
def Resolver.FindsAfter (res : Resolver ρ) (hostname : String) (port : UInt16) (peer : Address) :
    Nat → ρ → Prop :=
  EndsAfter (res.lookup hostname port) (addressIn · = none) (addressIn · = some peer)

/-- The connect is pending for `n` polls and succeeds then. -/
def Network.ConnectsAfter (net : Network ω) : Nat → ω → Prop :=
  EndsAfter net.isConnected (· = .ok false) (· = .ok true)

/-- The handshake answers `n` times that it waits and succeeds then. -/
def Tls.Engine.ShakesAfter (eng : Tls.Engine ε σ) : Nat → σ → Prop :=
  EndsAfter eng.handshake (· = .waiting) (· = .done)

/-- A socket for a poll of a connect, and the network that is asked then whether it has connected:
    the socket of earlier polls, or a new one. -/
inductive Network.Supplies (net : Network ω) (peer : Address) (keepAlive : Bool) (socket : Socket) :
    Option Socket → ω → ω → Prop where
  | held {w} : Supplies net peer keepAlive socket (some socket) w w
  | dialled {w note v} (h : net.dial peer keepAlive w = (.ok socket, note, v)) :
      Supplies net peer keepAlive socket none w v

/-- One poll of a connect asks about the socket once. -/
theorem Network.Supplies.run_pollConnect {net : Network ω} {peer : Address} {keepAlive : Bool}
    {socket : Socket} {slot : Option Socket} {w v : ω} {connected : Bool}
    (h : net.Supplies peer keepAlive socket slot w v)
    (answer : (net.isConnected v).1 = .ok connected) :
    ∃ notes : List Note, (net.pollConnect slot peer keepAlive).run w =
      ⟨(.ok connected, some socket), (net.isConnected v).2,
        notes.map .note ++ [.connectPolled peer (.ok connected)]⟩ := by
  have told : (net.isConnected v).1.mapError Fault.io = .ok connected := by
    rw [answer]
    rfl
  cases h with
  | held => exact ⟨[], by simp [Network.pollConnect, told]⟩
  | @dialled _ note _ h =>
    exact ⟨.connecting peer :: note.toList, by simp [Network.pollConnect, h, told]⟩

/-! ### TCP -/

namespace Tcp

variable (net : Network ω) (res : Resolver ρ) {t : Tcp ρ ω} {peer : Address} {socket : Socket}
  {v : ω} {k m : Nat} (receiver : Receiver)

/-- A lookup that finds no address. -/
theorem poll_unresolved (hs : t.step = .resolve)
    (none : addressIn (res.lookup t.hostname t.port t.resolver).1 = none) :
    (transport net res).Poll receiver t .waiting .lookup
      { t with resolver := (res.lookup t.hostname t.port t.resolver).2 } := by
  rcases ha : res.lookup t.hostname t.port t.resolver with ⟨fault | _ | address, resolver⟩
  · constructor <;> simp [transport, establish, hs, pollResolve, ha, Effect.errand?]
  · constructor <;> simp [transport, establish, hs, pollResolve, ha, Effect.errand?]
  · simp [ha, addressIn] at none

/-- A lookup that finds the address. -/
theorem poll_resolved (hs : t.step = .resolve)
    (found : addressIn (res.lookup t.hostname t.port t.resolver).1 = some peer) :
    (transport net res).Poll receiver t .waiting .lookup
      { t with resolver := (res.lookup t.hostname t.port t.resolver).2,
               address := some peer, step := .connect } := by
  rcases ha : res.lookup t.hostname t.port t.resolver with ⟨fault | _ | address, resolver⟩
  · simp [ha, addressIn] at found
  · simp [ha, addressIn] at found
  · obtain rfl : address = peer := by simpa [ha, addressIn] using found
    constructor <;> simp [transport, establish, hs, pollResolve, ha, setStep, Effect.errand?]

/-- A connect that is pending. -/
theorem poll_pending (hs : t.step = .connect) (ha : t.address = some peer)
    (supplies : net.Supplies peer (t.keepAlive.getD false) socket t.dialling t.network v)
    (pending : (net.isConnected v).1 = .ok false) :
    (transport net res).Poll receiver t .waiting .connect
      { t with network := (net.isConnected v).2, dialling := some socket } := by
  obtain ⟨notes, run⟩ := supplies.run_pollConnect pending
  constructor <;>
    simp [transport, establish, hs, pollConnect, ha, run, Effect.errand?]

/-- A connect that has succeeded. -/
theorem poll_connected (hs : t.step = .connect) (ha : t.address = some peer)
    (supplies : net.Supplies peer (t.keepAlive.getD false) socket t.dialling t.network v)
    (connected : (net.isConnected v).1 = .ok true) :
    (transport net res).Poll receiver t .done .connect
      { t with network := (net.isConnected v).2, dialling := none, stream := some socket,
               receiver := some receiver, step := .opened } := by
  obtain ⟨notes, run⟩ := supplies.run_pollConnect connected
  constructor <;>
    simp [transport, establish, hs, pollConnect, ha, run, setStep, Effect.errand?]

/-- The polls of a lookup. -/
theorem forecast_resolve {rest : List (Progress × List Errand)} (hs : t.step = .resolve)
    (finds : res.FindsAfter t.hostname t.port peer k t.resolver)
    (next : ∀ resolver, (transport net res).Forecast rest
      { t with resolver := resolver, address := some peer, step := .connect }) :
    (transport net res).Forecast
      (List.replicate k (.waiting, [.lookup]) ++ (.waiting, [.lookup]) :: rest) t := by
  refine Transport.Forecast.stage (fun r u => u = { t with resolver := r }) ?_ ?_ rfl finds
  · rintro r u receiver rfl none
    exact ⟨_, poll_unresolved net res receiver hs none, rfl⟩
  · rintro r u receiver rfl found
    exact ⟨_, poll_resolved net res receiver hs found, next _⟩

/-- The polls of a connect. -/
theorem forecast_connect (hs : t.step = .connect) (ha : t.address = some peer)
    (supplies : net.Supplies peer (t.keepAlive.getD false) socket t.dialling t.network v)
    (connects : net.ConnectsAfter m v) :
    (transport net res).Forecast
      (List.replicate m (.waiting, [.connect]) ++ [(.done, [.connect])]) t := by
  -- The first poll dials the socket, and the others find it held.
  refine Transport.Forecast.stage
    (fun v u => u.step = .connect ∧ u.address = some peer ∧
      net.Supplies peer (u.keepAlive.getD false) socket u.dialling u.network v)
    ?_ ?_ ⟨hs, ha, supplies⟩ connects
  · rintro v u receiver ⟨hs, ha, supplies⟩ pending
    exact ⟨_, poll_pending net res receiver hs ha supplies pending, hs, ha, .held⟩
  · rintro v u receiver ⟨hs, ha, supplies⟩ connected
    exact ⟨_, poll_connected net res receiver hs ha supplies connected, trivial⟩

/-- All polls of an open: `k` lookups in vain and one that finds the address, then `m` polls of a
    connect that is pending and one that finds it finished. -/
theorem forecast_open (hs : t.step = .resolve) (bare : t.dialling = none)
    (finds : res.FindsAfter t.hostname t.port peer k t.resolver)
    (dialled : net.Supplies peer (t.keepAlive.getD false) socket none t.network v)
    (connects : net.ConnectsAfter m v) :
    (transport net res).Forecast
      (timetable (List.replicate (k + 1) .lookup ++ List.replicate m .connect) .connect) t := by
  have connect (resolver : ρ) := forecast_connect net res
    (t := { t with resolver := resolver, address := some peer, step := .connect })
    rfl rfl (by rw [← bare] at dialled; exact dialled) connects
  have all := forecast_resolve net res hs finds connect
  simpa [timetable, List.replicate_succ'] using all

end Tcp

/-! ### TLS over TCP -/

namespace Tls.OverTcp

variable (eng : Engine ε σ) (net : Network ω) (res : Resolver ρ) {t u : OverTcp ε σ ρ ω}
  {peer : Address} {socket : Socket} {session : σ} {v : ω} {e : ε} {k m h : Nat} (receiver : Receiver)

/-- The check of the options goes on into the next step. -/
theorem run_establish_validate (hs : t.step = .validate) :
    ∃ notes : List Note, (establish eng net res receiver).run t =
      let checked : OverTcp ε σ ρ ω :=
        { t with step := if t.layer.options.isConsistent then .resolve else .validationFailed }
      let o := (establish eng net res receiver).run checked
      ⟨o.answer, o.state, notes.map .note ++ o.events⟩ := by
  cases hc : t.layer.options.isConsistent with
  | true =>
    refine ⟨[.tlsStep .validate .resolve], ?_⟩
    simp [establish, hs, validate, onLayer, Layer.checkConsistency, Options.checkConsistency, hc,
      setStep]
  | false =>
    refine ⟨[.mismatchedCredentials, .tlsStep .validate .validationFailed], ?_⟩
    simp [establish, hs, validate, onLayer, Layer.checkConsistency, Options.checkConsistency, hc,
      setStep]

/-- A poll that finds the options consistent goes on with the lookup at once. -/
theorem poll_checked {answer : Progress} {errand : Errand} (hs : t.step = .validate)
    (consistent : t.layer.options.isConsistent = true)
    (poll : (transport eng net res).Poll receiver { t with step := .resolve } answer errand u) :
    (transport eng net res).Poll receiver t answer errand u := by
  obtain ⟨notes, run⟩ := run_establish_validate eng net res receiver hs
  rw [consistent, if_pos rfl] at run
  constructor
  · show ((establish eng net res receiver).run t).answer = _
    rw [run]
    exact poll.answer
  · show errands ((establish eng net res receiver).run t).events = _
    rw [run, errands_append, errands_notes]
    exact poll.errands
  · show ((establish eng net res receiver).run t).state = _
    rw [run]
    exact poll.state

/-- A lookup that finds no address. -/
theorem poll_unresolved (hs : t.step = .resolve)
    (none : addressIn (res.lookup t.layer.hostname t.layer.port t.resolver).1 = none) :
    (transport eng net res).Poll receiver t .waiting .lookup
      { t with resolver := (res.lookup t.layer.hostname t.layer.port t.resolver).2 } := by
  rcases ha : res.lookup t.layer.hostname t.layer.port t.resolver with ⟨fault | _ | address, resolver⟩
  · constructor <;> simp [transport, establish, hs, pollResolve, ha, Effect.errand?]
  · constructor <;> simp [transport, establish, hs, pollResolve, ha, Effect.errand?]
  · simp [ha, addressIn] at none

/-- A lookup that finds the address. -/
theorem poll_resolved (hs : t.step = .resolve)
    (found : addressIn (res.lookup t.layer.hostname t.layer.port t.resolver).1 = some peer) :
    (transport eng net res).Poll receiver t .waiting .lookup
      { t with resolver := (res.lookup t.layer.hostname t.layer.port t.resolver).2,
               address := some peer, step := .connect } := by
  rcases ha : res.lookup t.layer.hostname t.layer.port t.resolver with ⟨fault | _ | address, resolver⟩
  · simp [ha, addressIn] at found
  · simp [ha, addressIn] at found
  · obtain rfl : address = peer := by simpa [ha, addressIn] using found
    constructor <;> simp [transport, establish, hs, pollResolve, ha, setStep, Effect.errand?]

/-- A connect that is pending. -/
theorem poll_pending (hs : t.step = .connect) (ha : t.address = some peer)
    (supplies : net.Supplies peer (t.keepAlive.getD false) socket t.socket t.network v)
    (pending : (net.isConnected v).1 = .ok false) :
    (transport eng net res).Poll receiver t .waiting .connect
      { t with network := (net.isConnected v).2, socket := some socket } := by
  obtain ⟨notes, run⟩ := supplies.run_pollConnect pending
  constructor <;>
    simp [transport, establish, hs, pollConnect, ha, run, Effect.errand?]

/-- A connect that has succeeded. -/
theorem poll_connected (hs : t.step = .connect) (ha : t.address = some peer)
    (supplies : net.Supplies peer (t.keepAlive.getD false) socket t.socket t.network v)
    (connected : (net.isConnected v).1 = .ok true) :
    (transport eng net res).Poll receiver t .waiting .connect
      { t with network := (net.isConnected v).2, socket := some socket, step := .initSession } := by
  obtain ⟨notes, run⟩ := supplies.run_pollConnect connected
  constructor <;>
    simp [transport, establish, hs, pollConnect, ha, run, setStep, Effect.errand?]

/-- A session that is created. -/
theorem poll_created (hs : t.step = .initSession) (held : t.socket = some socket)
    (created : eng.create t.layer.options t.layer.hostname t.layer.port (.stream socket) t.engine =
      (.ok session, e)) :
    (transport eng net res).Poll receiver t .waiting .session
      { t with layer := { t.layer with held := some ⟨session, .stream socket⟩
                                       receiver := some receiver }
               engine := e, socket := none, step := .handshake } := by
  constructor <;>
    simp [transport, establish, hs, initSession, held, onLayer, Layer.requestSession, created,
      setStep, Effect.errand?]

/-- A handshake that does not fail. -/
theorem poll_shaken {l : Held σ} {answer : Progress} (hs : t.step = .handshake)
    (held : t.layer.held = some l) (ha : (eng.handshake l.session).1 = answer)
    (goesOn : answer ≠ .failed) :
    (transport eng net res).Poll receiver t answer .handshake
      { t with layer :=
          { t.layer with held := some { l with session := (eng.handshake l.session).2 } } } := by
  constructor <;>
    simp [transport, establish, hs, onLayer, Layer.handshake, held, ha, goesOn, Effect.errand?]

/-- The polls of a lookup, the check of the options included. -/
theorem forecast_resolve {rest : List (Progress × List Errand)} (hs : t.step = .validate)
    (consistent : t.layer.options.isConsistent = true)
    (finds : res.FindsAfter t.layer.hostname t.layer.port peer k t.resolver)
    (next : ∀ resolver, (transport eng net res).Forecast rest
      { t with resolver := resolver, address := some peer, step := .connect }) :
    (transport eng net res).Forecast
      (List.replicate k (.waiting, [.lookup]) ++ (.waiting, [.lookup]) :: rest) t := by
  -- The first poll begins with the check, and all others find it done.
  refine Transport.Forecast.stage
    (fun r u => u = { t with resolver := r } ∨ u = { t with resolver := r, step := .resolve })
    ?_ ?_ (.inl rfl) finds
  · rintro r u receiver ahead none
    have poll := poll_unresolved eng net res receiver (t := { t with resolver := r, step := .resolve })
      rfl none
    refine ⟨_, ?_, .inr rfl⟩
    rcases ahead with rfl | rfl
    · exact poll_checked eng net res receiver hs consistent poll
    · exact poll
  · rintro r u receiver ahead found
    have poll := poll_resolved eng net res receiver (t := { t with resolver := r, step := .resolve })
      rfl found
    refine ⟨_, ?_, next (res.lookup t.layer.hostname t.layer.port r).2⟩
    rcases ahead with rfl | rfl
    · exact poll_checked eng net res receiver hs consistent poll
    · exact poll

/-- The polls of a connect. -/
theorem forecast_connect {rest : List (Progress × List Errand)} (hs : t.step = .connect)
    (ha : t.address = some peer)
    (supplies : net.Supplies peer (t.keepAlive.getD false) socket t.socket t.network v)
    (connects : net.ConnectsAfter m v)
    (next : ∀ network, (transport eng net res).Forecast rest
      { t with network := network, socket := some socket, step := .initSession }) :
    (transport eng net res).Forecast
      (List.replicate m (.waiting, [.connect]) ++ (.waiting, [.connect]) :: rest) t := by
  refine Transport.Forecast.stage
    (fun v u => u = { t with network := u.network, socket := u.socket } ∧
      net.Supplies peer (t.keepAlive.getD false) socket u.socket u.network v)
    ?_ ?_ ⟨rfl, supplies⟩ connects
  · rintro v u receiver ⟨same, supplies⟩ pending
    generalize u.network = w, u.socket = slot at same supplies
    subst same
    exact ⟨_, poll_pending eng net res receiver hs ha supplies pending, rfl, .held⟩
  · rintro v u receiver ⟨same, supplies⟩ connected
    generalize u.network = w, u.socket = slot at same supplies
    subst same
    exact ⟨_, poll_connected eng net res receiver hs ha supplies connected, next _⟩

/-- The polls of a handshake. -/
theorem forecast_handshake {l : Held σ} (hs : t.step = .handshake) (held : t.layer.held = some l)
    (shakes : eng.ShakesAfter h l.session) :
    (transport eng net res).Forecast
      (List.replicate h (.waiting, [.handshake]) ++ [(.done, [.handshake])]) t := by
  refine Transport.Forecast.stage
    (fun session u => u.step = .handshake ∧ u.layer.held = some { l with session := session })
    ?_ ?_ ⟨hs, held⟩ shakes
  · rintro session u receiver ⟨hs, held⟩ waiting
    exact ⟨_, poll_shaken eng net res receiver hs held waiting (by simp), hs, rfl⟩
  · rintro session u receiver ⟨hs, held⟩ done
    exact ⟨_, poll_shaken eng net res receiver hs held done (by simp), trivial⟩

/-- All polls of an open. -/
theorem forecast_open (hs : t.step = .validate) (bare : t.socket = none)
    (consistent : t.layer.options.isConsistent = true)
    (finds : res.FindsAfter t.layer.hostname t.layer.port peer k t.resolver)
    (dialled : net.Supplies peer (t.keepAlive.getD false) socket none t.network v)
    (connects : net.ConnectsAfter m v)
    (created : eng.create t.layer.options t.layer.hostname t.layer.port (.stream socket) t.engine =
      (.ok session, e))
    (shakes : eng.ShakesAfter h session) :
    (transport eng net res).Forecast
      (timetable (List.replicate (k + 1) .lookup ++ List.replicate (m + 1) .connect ++
        .session :: List.replicate h .handshake) .handshake) t := by
  have all := forecast_resolve eng net res hs consistent finds fun resolver =>
    forecast_connect eng net res
      (t := { t with resolver := resolver, address := some peer, step := .connect })
      rfl rfl (by rw [← bare] at dialled; exact dialled) connects fun network =>
        Transport.Forecast.cons fun receiver =>
          ⟨_, poll_created eng net res receiver rfl rfl created,
            forecast_handshake eng net res rfl rfl shakes⟩
  simpa [timetable, List.replicate_succ'] using all

end Tls.OverTcp

/-! ### TLS over a given carrier -/

namespace Tls.OverGiven

variable (eng : Engine ε σ) {t u : OverGiven ε σ} {carrier : Carrier} {session : σ} {e : ε} {h : Nat}
  (receiver : Receiver)

/-- The first poll finds the options consistent and creates the session. -/
theorem poll_created (hs : t.step = .validate) (consistent : t.layer.options.isConsistent = true)
    (held : t.carrier = some carrier)
    (created : eng.create t.layer.options t.layer.hostname t.layer.port carrier t.engine =
      (.ok session, e)) :
    (transport eng).Poll receiver t .waiting .session
      { layer := { t.layer with held := some ⟨session, carrier⟩, receiver := some receiver }
        engine := e, carrier := none, step := .handshake } := by
  constructor <;>
    simp [transport, establish, hs, validate, onLayer, Layer.checkConsistency,
      Options.checkConsistency, consistent, initSession, held, Layer.requestSession, created, setStep,
      Effect.errand?]

/-- A handshake that does not fail. -/
theorem poll_shaken {l : Held σ} {answer : Progress} (hs : t.step = .handshake)
    (held : t.layer.held = some l) (ha : (eng.handshake l.session).1 = answer)
    (goesOn : answer ≠ .failed) :
    (transport eng).Poll receiver t answer .handshake
      { t with layer :=
          { t.layer with held := some { l with session := (eng.handshake l.session).2 } } } := by
  constructor <;>
    simp [transport, establish, hs, onLayer, Layer.handshake, held, ha, goesOn, Effect.errand?]

/-- All polls of an open. -/
theorem forecast_open (hs : t.step = .validate) (consistent : t.layer.options.isConsistent = true)
    (held : t.carrier = some carrier)
    (created : eng.create t.layer.options t.layer.hostname t.layer.port carrier t.engine =
      (.ok session, e))
    (shakes : eng.ShakesAfter h session) :
    (transport eng).Forecast
      (timetable (.session :: List.replicate h .handshake) .handshake) t := by
  have handshake : (transport eng).Forecast
      ((.waiting, [.session]) ::
        (List.replicate h (.waiting, [.handshake]) ++ [(.done, [.handshake])])) t := by
    apply Transport.Forecast.cons
    intro receiver
    refine ⟨_, poll_created eng receiver hs consistent held created, ?_⟩
    refine Transport.Forecast.stage
      (fun session u => u.step = .handshake ∧ u.layer.held = some ⟨session, carrier⟩)
      ?_ ?_ ⟨rfl, rfl⟩ shakes
    · rintro session u receiver ⟨hs, held⟩ waiting
      exact ⟨_, poll_shaken eng receiver hs held waiting (by simp), hs, rfl⟩
    · rintro session u receiver ⟨hs, held⟩ done
      exact ⟨_, poll_shaken eng receiver hs held done (by simp), trivial⟩
  simpa [timetable] using handshake

end Tls.OverGiven

end PolledConnection
