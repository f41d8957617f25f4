import PolledConnection.Proofs.Finality
import PolledConnection.Proofs.Network.KeepAlive
import PolledConnection.Proofs.Options.Keeping

/-! # The options of the TLS transports

  Both TLS transports treat their options as a stock is treated: those of the
  session are in their layer, and the one over TCP has the keepalive option
  besides (`OverGiven.keeps`, `OverTcp.keeps`).

  The socket of a transport over TCP is polled, given away or left alone by
  whatever is no option (`Moved`); what setting the keepalive option does to it
  is told by `Adjusted`.
-/

namespace PolledConnection.Tls

open Transport (Request Answer)

variable {ε σ ρ ω : Type}

/-! ### The layer -/

section
variable {o : Options} {name : String} {value : Setting}

theorem Options.set_of_accepted (h : o.answer name value = .ok .accepted) :
    o.set name value = (.ok .accepted, o.after (name, value)) :=
  Prod.ext h rfl

theorem Options.after_of_refused (h : o.answer name value ≠ .ok .accepted) :
    o.after (name, value) = o :=
  set_of_refused rfl h

/-- The keepalive option apart, a stock takes what its store accepts. -/
theorem put_tls {hasSwitch : Bool} {keepAlive : Option Bool}
    (hn : hasSwitch = true → name ≠ optionNames.keepAlive) :
    (Stock.mk o hasSwitch keepAlive).put name value =
      match o.set name value with
      | (.ok .accepted, p) => some ⟨p, hasSwitch, keepAlive⟩
      | _ => none := by
  by_cases h : name = optionNames.keepAlive
  · -- Neither the stock nor the store knows the name.
    have noSwitch : hasSwitch = false := by
      cases hasSwitch with
      | false => rfl
      | true => exact absurd h (hn rfl)
    have unknown : Slot.ofName? optionNames.keepAlive = none := by decide
    subst h noSwitch
    simp [Stock.put, Options.set, unknown]
  · exact if_neg h

/-- The layer treats its options as the texts of a stock are treated. -/
theorem Layer.setOption_stock {l m : Layer σ} {answer : Except Fault Unit} {effects : List Effect}
    (run : (Layer.setOption name value).run l = ⟨answer, m, effects⟩) (hasSwitch : Bool)
    (keepAlive : Option Bool) (hn : hasSwitch = true → name ≠ optionNames.keepAlive) :
    let before : Stock := ⟨l.options, hasSwitch, keepAlive⟩
    (answer = .ok () → before.put name value = some ⟨m.options, hasSwitch, keepAlive⟩) ∧
      (answer ≠ .ok () → m = l) ∧ (before.put name value ≠ none → answer = .ok ()) := by
  intro before
  obtain ⟨state, accepted, -⟩ := Options.run_setOption l name value
  rw [run] at state accepted
  have state : m = { l with options := l.options.after (name, value) } := state
  have accepted : answer = .ok () ↔ l.options.answer name value = .ok .accepted := accepted
  have put : before.put name value = match l.options.set name value with
      | (.ok .accepted, p) => some ⟨p, hasSwitch, keepAlive⟩
      | _ => none := put_tls hn
  refine ⟨?_, ?_, ?_⟩
  · intro ok
    rw [put, Options.set_of_accepted (accepted.mp ok), state]
  · intro error
    rw [state, Options.after_of_refused fun h => error (accepted.mpr h)]
  · intro taken
    refine accepted.mpr ?_
    unfold Options.answer
    rcases hs : l.options.set name value with ⟨fault | status, p⟩
    · simp [put, hs] at taken
    · cases status with
      | notHandled => simp [put, hs] at taken
      | accepted => rfl

end

/-! ### Over a given carrier -/

namespace OverGiven

variable (eng : Engine ε σ)

/-- The options for the session; there is no keepalive option. -/
def stock (t : OverGiven ε σ) : Stock := ⟨t.layer.options, false, none⟩

theorem options_conclude (answer : Progress) (t : OverGiven ε σ) :
    ((conclude answer).run t).state.layer.options = t.layer.options := by
  by_cases ha : answer = .failed
  · have options := (Layer.run_close t.layer).1
    by_cases hv : t.step = .validationFailed
    · simpa [conclude, ha, onLayer, hv] using options
    · simpa [conclude, ha, onLayer, hv, setStep] using options
  · simp [conclude, ha]

theorem options_advance (receiver : Receiver) (t : OverGiven ε σ) :
    ((advance eng receiver).run t).state.layer.options = t.layer.options := by
  cases hs : t.step with
  | initSession =>
    cases hc : t.carrier with
    | none => simp [advance, hs, initSession, hc]
    | some c =>
      have options := (Layer.run_requestSession eng t.layer c receiver t.engine).1
      rcases hr : (Layer.requestSession eng c receiver t.engine).run t.layer with
        ⟨⟨_ | _, engine⟩, l, es⟩
      · rw [hr] at options
        simpa [advance, hs, initSession, hc, onLayer, hr] using options
      · rw [hr] at options
        simpa [advance, hs, initSession, hc, onLayer, hr, setStep] using options
  | handshake => simpa [advance, hs, onLayer] using (Layer.run_handshake eng t.layer).1
  | validate | resolve | connect | validationFailed | failed => simp [advance, hs]

theorem options_establish (receiver : Receiver) (t : OverGiven ε σ) :
    ((establish eng receiver).run t).state.layer.options = t.layer.options := by
  have rest (t : OverGiven ε σ) :
      ((advance eng receiver >>= conclude).run t).state.layer.options = t.layer.options := by
    rw [Act.run_bind]
    exact (options_conclude _ _).trans (options_advance eng receiver t)
  rw [run_establish]
  by_cases hv : t.step = .validate
  · obtain ⟨notes, checked⟩ := run_validate t
    have behind := rest (validate.run t).state
    rw [checked] at behind
    simpa [hv, checked] using behind
  · simpa [hv] using rest t

/-- The options of a TLS transport over a given carrier are treated as a stock is. It never refuses
    what its stock would take. -/
theorem keeps : (transport eng).Keeps stock fun _ => True where
  retrieve t := by simp [transport, stock, Stock.entries]
  accepts name value t := (Layer.setOption_stock rfl false none (by simp)).1
  refuses name value t fault error := by
    rcases run : (Layer.setOption name value).run t.layer with ⟨answer, l, effects⟩
    obtain rfl : answer = .error fault := by simpa [transport, onLayer, run] using error
    have same := (Layer.setOption_stock run false none (by simp)).2.1 (by simp)
    simp [transport, onLayer, stock, run, same]
  obliges name value t _ := ⟨trivial, (Layer.setOption_stock rfl false none (by simp)).2.2⟩
  others q t none := by
    cases q with
    | establish receiver =>
      have options := options_establish eng receiver t
      simp [stock, Transport.serve, Transport.recorded, transport, options]
    | close =>
      have options := (Layer.run_close t.layer).1
      simp [stock, Transport.serve, Transport.recorded, transport, close, onLayer, options]
    | read =>
      have options := (Layer.run_read eng t.layer).1
      simp [stock, Transport.serve, Transport.recorded, transport, onLayer, options]
    | write bytes =>
      have options := (Layer.run_write eng t.layer bytes).1
      simp [stock, Transport.serve, Transport.offer, Transport.recorded, transport, onLayer, options]
    | setOption name value => simp [Request.option?] at none
    | retrieve => rfl

/-- A transport that was made has just the options it was made with. -/
theorem puts_create {engine : ε} {carrier : Carrier} {endpoint : Endpoint} {t : OverGiven ε σ}
    (made : (create eng engine carrier endpoint).result = .ok t) :
    (Stock.new (eng.capabilities engine) false).puts endpoint.options.entries = some (stock t) := by
  unfold create at made
  split at made
  · simp at made
  · exact (keeps eng).configured made

end OverGiven

/-! ### Over TCP -/

namespace OverTcp

variable (eng : Engine ε σ) (net : Network ω) (res : Resolver ρ) {t u : OverTcp ε σ ρ ω}

/-- What happens to the socket of a transport when no option is set. -/
inductive Moved (net : Network ω) (t u : OverTcp ε σ ρ ω) : Prop where
  /-- Nothing. -/
  | rests (keepAlive : u.keepAlive = t.keepAlive) (socket : u.socket = t.socket)
      (network : u.network = t.network)
  /-- Its connect is polled, and it stays. -/
  | polled {peer connected effects} (keepAlive : u.keepAlive = t.keepAlive)
      (h : (net.pollConnect t.socket peer (t.keepAlive.getD false)).run t.network =
        ⟨(.ok connected, u.socket), u.network, effects⟩)
  /-- It is given back, or given to a session. -/
  | leaves (keepAlive : u.keepAlive = t.keepAlive) (socket : u.socket = none)

theorem Moved.keepAlive (moved : Moved net t u) : u.keepAlive = t.keepAlive := by
  cases moved with
  | rests keepAlive => exact keepAlive
  | polled keepAlive => exact keepAlive
  | leaves keepAlive => exact keepAlive

theorem close_leaves (t : OverTcp ε σ ρ ω) : Moved net t ((close net).run t).state := by
  refine .leaves ?_ ?_
  · by_cases held : t.socket?.isSome = true
    · simp [close, onLayer, held]
    · simp [close, onLayer, held]
  · simp [close]

theorem conclude_leaves (t : OverTcp ε σ ρ ω) :
    ((conclude net .failed).run t).state.keepAlive = t.keepAlive ∧
      ((conclude net .failed).run t).state.socket = none := by
  have closed := close_leaves net t
  have keepAlive := closed.keepAlive
  refine ⟨?_, socket_conclude net t⟩
  obtain ⟨-, -, -, step⟩ := close_view net t
  by_cases hv : t.step = .validationFailed
  · simp [conclude, step, hv, keepAlive]
  · simp [conclude, step, hv, setStep, keepAlive]

theorem pollResolve_state (t : OverTcp ε σ ρ ω) :
    ∃ resolver address step, ((pollResolve res).run t).state =
      { t with resolver := resolver, address := address, step := step } := by
  rcases ha : res.lookup t.layer.hostname t.layer.port t.resolver with
    ⟨fault | _ | address, resolver⟩
  · exact ⟨resolver, t.address, t.step, by simp [pollResolve, ha]⟩
  · exact ⟨resolver, t.address, t.step, by simp [pollResolve, ha]⟩
  · exact ⟨resolver, some address, .connect, by simp [pollResolve, ha, setStep]⟩

/-- A step of the open leaves the option alone, and moves the socket if it does not fail. -/
def Shifts (net : Network ω) (t : OverTcp ε σ ρ ω)
    (o : Outcome Effect (OverTcp ε σ ρ ω) Progress) : Prop :=
  o.state.keepAlive = t.keepAlive ∧ (o.answer ≠ .failed → Moved net t o.state)

theorem pollConnect_shifts (t : OverTcp ε σ ρ ω) : Shifts net t ((pollConnect net).run t) := by
  generalize ho : (pollConnect net).run t = o
  cases ha : t.address with
  | none =>
    obtain rfl : ⟨.failed, t, []⟩ = o := by simpa [pollConnect, ha] using ho
    exact ⟨rfl, fun going => absurd rfl going⟩
  | some peer =>
    rcases hc : (net.pollConnect t.socket peer (t.keepAlive.getD false)).run t.network with
      ⟨⟨fault | connected, slot⟩, w, effects⟩
    · have failed : o.answer = .failed ∧ o.state.keepAlive = t.keepAlive := by
        simp [← ho, pollConnect, ha, hc]
      exact ⟨failed.2, fun going => absurd failed.1 going⟩
    · have state : ∃ step, o.state = { t with network := w, socket := slot, step := step } := by
        cases connected with
        | false => exact ⟨t.step, by simp [← ho, pollConnect, ha, hc]⟩
        | true => exact ⟨.initSession, by simp [← ho, pollConnect, ha, hc, setStep]⟩
      obtain ⟨step, state⟩ := state
      rw [Shifts, state]
      exact ⟨rfl, fun _ => .polled rfl hc⟩

theorem initSession_shifts (receiver : Receiver) (t : OverTcp ε σ ρ ω) :
    Shifts net t ((initSession eng net receiver).run t) := by
  generalize ho : (initSession eng net receiver).run t = o
  cases hc : t.socket with
  | none =>
    obtain rfl : ⟨.failed, t, []⟩ = o := by simpa [initSession, hc] using ho
    exact ⟨rfl, fun going => absurd rfl going⟩
  | some socket =>
    -- The session gets the socket, whether or not it comes about.
    have given : o.state.keepAlive = t.keepAlive ∧ o.state.socket = none := by
      rcases hr : (Layer.requestSession eng (.stream socket) receiver t.engine).run t.layer with
        ⟨⟨_ | _, engine⟩, l, es⟩
      · simp [← ho, initSession, hc, onLayer, hr]
      · simp [← ho, initSession, hc, onLayer, hr, setStep]
    exact ⟨given.1, fun _ => .leaves given.1 given.2⟩

theorem advance_shifts (receiver : Receiver) (t : OverTcp ε σ ρ ω) :
    Shifts net t ((advance eng net res receiver).run t) := by
  cases hs : t.step with
  | validate | validationFailed | failed =>
    have state : ((advance eng net res receiver).run t).state = t := by simp [advance, hs]
    rw [Shifts, state]
    exact ⟨rfl, fun _ => .rests rfl rfl rfl⟩
  | resolve =>
    obtain ⟨resolver, address, step, looked⟩ := pollResolve_state res t
    have state : ((advance eng net res receiver).run t).state =
        { t with resolver := resolver, address := address, step := step } := by
      simp [advance, hs, looked]
    rw [Shifts, state]
    exact ⟨rfl, fun _ => .rests rfl rfl rfl⟩
  | connect =>
    have step : (advance eng net res receiver).run t = (pollConnect net).run t := by
      simp [advance, hs]
    rw [step]
    exact pollConnect_shifts net t
  | initSession =>
    have step : (advance eng net res receiver).run t = (initSession eng net receiver).run t := by
      simp [advance, hs]
    rw [step]
    exact initSession_shifts eng net receiver t
  | handshake =>
    have state : ∃ l, ((advance eng net res receiver).run t).state = { t with layer := l } := by
      simp [advance, hs, onLayer]
    obtain ⟨l, state⟩ := state
    rw [Shifts, state]
    exact ⟨rfl, fun _ => .rests rfl rfl rfl⟩

/-- **Step**: a poll of the open moves the socket in one of these ways. -/
theorem establish_moved (receiver : Receiver) (t : OverTcp ε σ ρ ω) :
    Moved net t ((establish eng net res receiver).run t).state := by
  have behind (t : OverTcp ε σ ρ ω) :
      Moved net t ((advance eng net res receiver >>= conclude net).run t).state := by
    obtain ⟨keepAlive, moved⟩ := advance_shifts eng net res receiver t
    rw [Act.run_bind]
    generalize (advance eng net res receiver).run t = o at keepAlive moved ⊢
    by_cases ha : o.answer = .failed
    · obtain ⟨same, bare⟩ := conclude_leaves net o.state
      rw [ha]
      exact .leaves (same.trans keepAlive) bare
    · simpa [conclude, ha] using moved ha
  by_cases hv : t.step = .validate
  · -- The check does nothing but take a step.
    obtain ⟨checked, after, -⟩ := run_establish_first eng net res receiver t hv
    have moved := behind (validate.run t).state
    rw [after, run_establish]
    simp only [Act.run_bind, Act.run_get, checked, if_false] at moved ⊢
    rw [(run_validate t).1] at moved ⊢
    cases moved with
    | rests keepAlive socket network => exact .rests keepAlive socket network
    | polled keepAlive h => exact .polled keepAlive h
    | leaves keepAlive socket => exact .leaves keepAlive socket
  · rw [run_establish]
    simpa [hv] using behind t

/-- **Step**: so does every request that sets no option. -/
theorem serve_moved {q : Request} (none : q.option? = none) (t : OverTcp ε σ ρ ω) :
    Moved net t (((transport eng net res).serve q).run t).state := by
  cases q with
  | establish receiver =>
    have moved := establish_moved eng net res receiver t
    simpa [Transport.serve, Transport.recorded, transport] using moved
  | close =>
    have moved := close_leaves net t
    simpa [Transport.serve, Transport.recorded, transport] using moved
  | read | write | retrieve => exact .rests rfl rfl rfl
  | setOption => simp [Request.option?] at none

/-! ### Setting options -/

/-- How setting an option turns out. -/
inductive Adjusted (net : Network ω) (t : OverTcp ε σ ρ ω) :
    String → Setting → Except Fault Unit → OverTcp ε σ ρ ω → Prop where
  /-- The keepalive option is kept for the next socket. -/
  | keep {on} (hs : t.socket = none) :
      Adjusted net t optionNames.keepAlive (.truth on) (.ok ()) { t with keepAlive := some on }
  /-- The switch of the socket is set. -/
  | switch {on socket w} (hs : t.socket = some socket)
      (h : net.setKeepAlive on t.network = (.ok (), w)) :
      Adjusted net t optionNames.keepAlive (.truth on) (.ok ())
        { t with network := w, socket := some { socket with keepAlive := on }, keepAlive := some on }
  /-- The network refuses to set it. -/
  | switchFails {on w cause} (hs : t.socket.isSome = true)
      (h : net.setKeepAlive on t.network = (.error cause, w)) :
      Adjusted net t optionNames.keepAlive (.truth on) (.error (.io cause)) { t with network := w }
  /-- The keepalive option has no such value. -/
  | mistyped {value fault} (h : value.truth? = none) :
      Adjusted net t optionNames.keepAlive value (.error fault) t
  /-- Another option is left to the layer. -/
  | layer {name value answer l effects} (hn : name ≠ optionNames.keepAlive)
      (run : (Layer.setOption name value).run t.layer = ⟨answer, l, effects⟩) :
      Adjusted net t name value answer { t with layer := l }

theorem setOption_adjusted {name : String} {value : Setting} {answer : Except Fault Unit}
    {effects : List Effect}
    (run : ((transport eng net res).setOption name value).run t = ⟨answer, u, effects⟩) :
    Adjusted net t name value answer u := by
  suffices adjusted : let o := (setOption net name value).run t
      Adjusted net t name value o.answer o.state by
    have run : (setOption net name value).run t = ⟨answer, u, effects⟩ := run
    simpa [run] using adjusted
  by_cases hn : name = optionNames.keepAlive
  · subst hn
    cases value with
    | whole | text =>
      simpa [setOption, Setting.truth?] using Adjusted.mistyped rfl
    | truth on =>
      cases hs : t.socket with
      | none =>
        by_cases held : t.layer.held.isSome = true
        · simpa [setOption, Setting.truth?, hs, held] using Adjusted.keep hs
        · simpa [setOption, Setting.truth?, hs, held] using Adjusted.keep hs
      | some socket =>
        have held : t.socket.isSome = true := by simp [hs]
        rcases hk : net.setKeepAlive on t.network with ⟨cause | _, w⟩
        · simpa [setOption, Setting.truth?, hs, Network.switchKeepAlive, hk] using
            Adjusted.switchFails held hk
        · simpa [setOption, Setting.truth?, hs, Network.switchKeepAlive, hk] using
            Adjusted.switch hs hk
  · rcases inner : (Layer.setOption name value).run t.layer with ⟨answer, l, effects⟩
    simpa [setOption, hn, onLayer, inner] using Adjusted.layer hn inner

/-- The options for the session, and the keepalive option. -/
def stock (t : OverTcp ε σ ρ ω) : Stock := ⟨t.layer.options, true, t.keepAlive⟩

/-- A transport without a socket of its own does not have to ask the network. -/
def Willing (net : Network ω) (t : OverTcp ε σ ρ ω) : Prop := net.Obliging ∨ t.socket = none

theorem options_serve {q : Request} (none : q.option? = none) (t : OverTcp ε σ ρ ω) :
    (((transport eng net res).serve q).run t).state.layer.options = t.layer.options := by
  cases q with
  | establish receiver =>
    have options := establish_options eng net res receiver t
    simpa [Transport.serve, Transport.recorded, transport] using options
  | close =>
    have options := (run_close net t).1
    simpa [Transport.serve, Transport.recorded, transport] using options
  | read =>
    have options := (Layer.run_read eng t.layer).1
    simpa [Transport.serve, Transport.recorded, transport, onLayer] using options
  | write bytes =>
    have options := (Layer.run_write eng t.layer bytes).1
    simpa [Transport.serve, Transport.offer, Transport.recorded, transport, onLayer] using options
  | setOption => simp [Request.option?] at none
  | retrieve => rfl

/-- The options of a TLS transport over TCP are treated as a stock is. -/
theorem keeps : (transport eng net res).Keeps stock (Willing net) where
  retrieve t := rfl
  accepts name value t ok := by
    rcases run : ((transport eng net res).setOption name value).run t with ⟨answer, u, effects⟩
    obtain rfl : answer = .ok () := by simpa [run] using ok
    cases setOption_adjusted eng net res run with
    | keep hs => exact Stock.put_eq_some.mpr (.inl ⟨_, rfl, rfl, rfl, rfl⟩)
    | switch hs h => exact Stock.put_eq_some.mpr (.inl ⟨_, rfl, rfl, rfl, rfl⟩)
    | layer hn inner =>
      exact (Layer.setOption_stock inner true t.keepAlive fun _ => hn).1 rfl
  refuses name value t fault error := by
    rcases run : ((transport eng net res).setOption name value).run t with ⟨answer, u, effects⟩
    obtain rfl : answer = .error fault := by simpa [run] using error
    cases setOption_adjusted eng net res run with
    | switchFails | mistyped => rfl
    | layer hn inner =>
      have same := (Layer.setOption_stock inner true t.keepAlive fun _ => hn).2.1 (by simp)
      simp [stock, same]
  obliges name value t willing := by
    rcases run : ((transport eng net res).setOption name value).run t with ⟨answer, u, effects⟩
    show Willing net u ∧ ((stock t).put name value ≠ none → answer = .ok ())
    cases setOption_adjusted eng net res run with
    | keep hs => exact ⟨.inr hs, fun _ => rfl⟩
    | @switch on socket w hs h =>
      -- There is a socket, so the network is asked; it does not refuse.
      exact ⟨.inl (willing.resolve_right (by simp [hs])), fun _ => rfl⟩
    | @switchFails on w cause hs h =>
      have held : t.socket ≠ none := Option.isSome_iff_ne_none.mp hs
      have granted := willing.resolve_right held on t.network
      simp [h] at granted
    | mistyped h =>
      refine ⟨willing, fun taken => absurd ?_ taken⟩
      simp [Stock.put, stock, h]
    | layer hn inner =>
      exact ⟨willing, (Layer.setOption_stock inner true t.keepAlive fun _ => hn).2.2⟩
  others q t none := by
    have keepAlive := (serve_moved eng net res none t).keepAlive
    have options := options_serve eng net res none t
    simp [stock, keepAlive, options]

section
variable {engine : ε} {resolver : ρ} {network : ω} {endpoint : Endpoint}

/-- A transport that was made had its first options set. -/
theorem create_configured
    (made : (create eng net res engine resolver network endpoint).result = .ok t) :
    ((transport eng net res).configured (fresh eng engine resolver network endpoint)
      endpoint.options).result = .ok t := by
  unfold create at made
  split at made
  · simp at made
  · exact made

/-- A transport that was made has just the options it was made with. -/
theorem puts_create (made : (create eng net res engine resolver network endpoint).result = .ok t) :
    (Stock.new ((eng.capabilities engine).union .keepAliveOnly) true).puts
      endpoint.options.entries = some (stock t) :=
  (keeps eng net res).configured (create_configured eng net res made)

end

end OverTcp

end PolledConnection.Tls
