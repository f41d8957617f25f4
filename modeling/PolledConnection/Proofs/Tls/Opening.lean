import PolledConnection.Proofs.Tls.Layer
import PolledConnection.Tls.OverTcp

/-! # The polls of the open of TLS over TCP

  A poll is the check of the options, if it comes first, then the present step
  of the open, then the end, if that step failed (`run_establish`). The first
  poll decides whether the open goes on at all (`establish_first`). Behind it,
  every poll leaves the options alone and keeps the outcome of the check
  (`Steady`), and requests a session at most with the options that are set
  (`establish_steady`).
-/

namespace PolledConnection.Tls

/-- Whether the check of the options is over and was passed. -/
def Step.isPast : Step → Bool
  | .validate | .validationFailed => false
  | .resolve | .connect | .initSession | .handshake | .failed => true

namespace OverTcp

variable {ε σ ρ ω : Type}
variable (eng : Engine ε σ) (net : Network ω) (res : Resolver ρ) (receiver : Receiver)

/-! ### The parts of a poll -/

/-- What follows the check of the options: the present step of the open. -/
def advance (eng : Engine ε σ) (net : Network ω) (res : Resolver ρ) (receiver : Receiver) :
    Act Effect (OverTcp ε σ ρ ω) Progress := do
  match (← Act.get).step with
  | .resolve => pollResolve res
  | .connect => pollConnect net
  | .initSession => initSession eng net receiver
  | .handshake => onLayer (Layer.handshake eng)
  | .failed =>
    Act.emit (.note .alreadyFailed)
    pure .failed
  | .validate | .validationFailed => pure .failed

/-- The end of a poll: a step that failed ends the open. -/
def conclude (net : Network ω) (answer : Progress) : Act Effect (OverTcp ε σ ρ ω) Progress := do
  if answer = .failed then
    let _ ← close net
    if (← Act.get).step ≠ .validationFailed then setStep .failed
  return answer

/-- A poll of the open is the check, if it comes first, then the present step, then the end. -/
theorem run_establish (t : OverTcp ε σ ρ ω) :
    (establish eng net res receiver).run t =
      (do
        if (← Act.get).step = .validate then validate
        let answer ← advance eng net res receiver
        conclude net answer : Act Effect (OverTcp ε σ ρ ω) Progress).run t := by
  by_cases hv : t.step = .validate
  · simp only [establish, Act.run_bind, Act.run_get, hv, if_true]
    generalize (validate.run t).state = u
    cases hu : u.step with
    | resolve | connect | initSession | handshake | failed | validate | validationFailed =>
      simp [advance, conclude, hu]
  · simp only [establish, Act.run_bind, Act.run_get, hv, if_false]
    cases hu : t.step with
    | resolve | connect | initSession | handshake | failed | validate | validationFailed =>
      simp [advance, conclude, hu]

/-! ### Steady acts -/

/-- The options are left alone, and so is the outcome of the check. -/
structure Steady (t u : OverTcp ε σ ρ ω) : Prop where
  options : u.layer.options = t.layer.options
  step : u.step = t.step ∨ (t.step.isPast = true ∧ u.step.isPast = true)

section
variable {t u v : OverTcp ε σ ρ ω}

theorem Steady.refl : Steady t t := ⟨rfl, .inl rfl⟩

theorem Steady.trans (h₁ : Steady t u) (h₂ : Steady u v) : Steady t v where
  options := h₂.options.trans h₁.options
  step := by
    rcases h₂.step with same | ⟨before, after⟩
    · rw [same]
      exact h₁.step
    · rcases h₁.step with same | ⟨first, -⟩
      · exact .inr ⟨same ▸ before, after⟩
      · exact .inr ⟨first, after⟩

/-- Once the check is over, it stays so. -/
theorem Steady.notAhead (h : Steady t u) (hs : t.step ≠ .validate) : u.step ≠ .validate := by
  rcases h.step with same | ⟨-, past⟩
  · rw [same]
    exact hs
  · intro ahead
    simp [ahead, Step.isPast] at past

/-- A check that has failed stays so. -/
theorem Steady.refused (h : Steady t u) (hs : t.step = .validationFailed) :
    u.step = .validationFailed := by
  rcases h.step with same | ⟨past, -⟩
  · exact same.trans hs
  · simp [hs, Step.isPast] at past

/-- A check that was passed stays so. -/
theorem Steady.passed (h : Steady t u) (hs : t.step.isPast = true) : u.step.isPast = true := by
  rcases h.step with same | ⟨-, past⟩
  · rw [same]
    exact hs
  · exact past

end

/-! ### The steps -/

theorem pollResolve_steady (t : OverTcp ε σ ρ ω) (hs : t.step = .resolve) :
    Steady t ((pollResolve res).run t).state ∧ requested ((pollResolve res).run t).events = [] := by
  rcases ha : res.lookup t.layer.hostname t.layer.port t.resolver with ⟨answer, resolver⟩
  by_cases found : ∃ address, answer = .ok (some address)
  · obtain ⟨address, rfl⟩ := found
    have state : ((pollResolve res).run t).state =
        { t with resolver := resolver, address := some address, step := .connect } := by
      simp [pollResolve, ha, setStep]
    rw [state]
    refine ⟨⟨rfl, .inr ⟨?_, rfl⟩⟩, ?_⟩
    · simp [hs, Step.isPast]
    · simp [pollResolve, ha, setStep, Effect.sessionOptions?]
  · have again : (pollResolve res).run t = ⟨.waiting, { t with resolver := resolver },
        [.lookedUp t.layer.hostname t.layer.port answer]⟩ := by
      cases answer with
      | error fault => simp [pollResolve, ha]
      | ok address =>
        cases address with
        | none => simp [pollResolve, ha]
        | some address => exact absurd ⟨address, rfl⟩ found
    rw [again]
    exact ⟨⟨rfl, .inl rfl⟩, rfl⟩

theorem requested_pollConnect (slot : Option Socket) (peer : Address) (keepAlive : Bool) (w : ω) :
    requested ((net.pollConnect slot peer keepAlive).run w).events = [] := by
  cases slot with
  | some socket => simp [Network.pollConnect, Effect.sessionOptions?]
  | none =>
    rcases hd : net.dial peer keepAlive w with ⟨dialled, note, w'⟩
    cases note with
    | none =>
      cases dialled with
      | error cause => simp [Network.pollConnect, hd, Effect.sessionOptions?]
      | ok socket => simp [Network.pollConnect, hd, Effect.sessionOptions?]
    | some note =>
      cases dialled with
      | error cause => simp [Network.pollConnect, hd, Effect.sessionOptions?]
      | ok socket => simp [Network.pollConnect, hd, Effect.sessionOptions?]

theorem pollConnect_steady (t : OverTcp ε σ ρ ω) (hs : t.step = .connect) :
    Steady t ((pollConnect net).run t).state ∧ requested ((pollConnect net).run t).events = [] := by
  cases ha : t.address with
  | none =>
    have nowhere : (pollConnect net).run t = ⟨.failed, t, []⟩ := by simp [pollConnect, ha]
    rw [nowhere]
    exact ⟨.refl, rfl⟩
  | some address =>
    have quiet := requested_pollConnect net t.socket address (t.keepAlive.getD false) t.network
    rcases hc : (net.pollConnect t.socket address (t.keepAlive.getD false)).run t.network with
      ⟨⟨answer, slot⟩, w, es⟩
    rw [hc] at quiet
    -- In every case the poll leaves the layer alone and at most goes on to the next step.
    have polled (step : Step) (hstep : step = t.step ∨ step.isPast = true) :
        Steady t { t with network := w, socket := slot, step := step } := by
      refine ⟨rfl, hstep.imp_right ?_⟩
      intro past
      exact ⟨by simp [hs, Step.isPast], past⟩
    cases answer with
    | error fault =>
      have state : ((pollConnect net).run t).state =
          { t with network := w, socket := slot, step := t.step } := by
        simp [pollConnect, ha, hc]
      rw [state]
      exact ⟨polled _ (.inl rfl), by simp [pollConnect, ha, hc, quiet]⟩
    | ok connected =>
      cases connected with
      | false =>
        have state : ((pollConnect net).run t).state =
            { t with network := w, socket := slot, step := t.step } := by
          simp [pollConnect, ha, hc]
        rw [state]
        exact ⟨polled _ (.inl rfl), by simp [pollConnect, ha, hc, quiet]⟩
      | true =>
        have state : ((pollConnect net).run t).state =
            { t with network := w, socket := slot, step := .initSession } := by
          simp [pollConnect, ha, hc, setStep]
        rw [state]
        exact ⟨polled _ (.inr rfl), by simp [pollConnect, ha, hc, setStep, quiet]⟩

/-- A session is requested with the options that are set by then. -/
theorem initSession_steady (t : OverTcp ε σ ρ ω) (hs : t.step = .initSession) :
    Steady t ((initSession eng net receiver).run t).state ∧
      (requested ((initSession eng net receiver).run t).events = [] ∨
        requested ((initSession eng net receiver).run t).events = [t.layer.options]) := by
  cases ha : t.socket with
  | none =>
    have nothing : (initSession eng net receiver).run t = ⟨.failed, t, []⟩ := by
      simp [initSession, ha]
    rw [nothing]
    exact ⟨.refl, .inl rfl⟩
  | some socket =>
    obtain ⟨options, one⟩ := Layer.run_requestSession eng t.layer (.stream socket) receiver t.engine
    rcases hr : (Layer.requestSession eng (.stream socket) receiver t.engine).run t.layer with
      ⟨⟨created, engine⟩, l, es⟩
    rw [hr] at options one
    cases created with
    | true =>
      have state : ((initSession eng net receiver).run t).state =
          { t with layer := l, engine := engine, socket := none, step := .handshake } := by
        simp [initSession, ha, onLayer, hr, setStep]
      rw [state]
      refine ⟨⟨options, .inr ⟨?_, rfl⟩⟩, .inr ?_⟩
      · simp [hs, Step.isPast]
      · simpa [initSession, ha, onLayer, hr, setStep] using one
    | false =>
      have state : ((initSession eng net receiver).run t).state =
          { t with layer := l, engine := engine, socket := none,
                   network := net.discard t.network } := by
        simp [initSession, ha, onLayer, hr]
      rw [state]
      refine ⟨⟨options, .inl rfl⟩, .inr ?_⟩
      simpa [initSession, ha, onLayer, hr] using one

/-- The present step leaves the options alone; only that which creates the session requests one. -/
theorem advance_steady (t : OverTcp ε σ ρ ω) :
    Steady t ((advance eng net res receiver).run t).state ∧
      (requested ((advance eng net res receiver).run t).events = [] ∨
        (t.step = .initSession ∧
          requested ((advance eng net res receiver).run t).events = [t.layer.options])) := by
  cases hs : t.step with
  | validate | validationFailed | failed => simp [advance, hs, Steady.refl]
  | resolve =>
    obtain ⟨steady, quiet⟩ := pollResolve_steady res t hs
    simp [advance, hs, steady, quiet]
  | connect =>
    obtain ⟨steady, quiet⟩ := pollConnect_steady net t hs
    simp [advance, hs, steady, quiet]
  | initSession =>
    obtain ⟨steady, one⟩ := initSession_steady eng net receiver t hs
    simpa [advance, hs] using ⟨steady, one⟩
  | handshake =>
    obtain ⟨options, quiet⟩ := Layer.run_handshake eng t.layer
    refine ⟨⟨?_, ?_⟩, .inl ?_⟩
    · simp [advance, hs, onLayer, options]
    · simp [advance, hs, onLayer]
    · simp [advance, hs, onLayer, quiet]

/-! ### The end of a poll -/

theorem run_close (t : OverTcp ε σ ρ ω) :
    ((close net).run t).state.layer.options = t.layer.options ∧
      ((close net).run t).state.step = t.step ∧ requested ((close net).run t).events = [] := by
  obtain ⟨options, quiet⟩ := Layer.run_close t.layer
  by_cases held : t.socket?.isSome = true
  · simp [close, onLayer, held, options, quiet]
  · simp [close, onLayer, held, options, quiet]

theorem conclude_steady (t : OverTcp ε σ ρ ω) (hs : t.step ≠ .validate) (answer : Progress) :
    Steady t ((conclude net answer).run t).state ∧
      requested ((conclude net answer).run t).events = [] := by
  obtain ⟨options, step, quiet⟩ := run_close net t
  by_cases ha : answer = .failed
  · by_cases hv : t.step = .validationFailed
    · refine ⟨⟨?_, ?_⟩, ?_⟩
      · simpa [conclude, ha, step, hv] using options
      · simp [conclude, ha, step, hv]
      · simpa [conclude, ha, step, hv] using quiet
    · -- A step that failed behind the check ends as failed, which is behind the check too.
      have past : t.step.isPast = true := by
        cases ht : t.step with
        | validate => exact absurd ht hs
        | validationFailed => exact absurd ht hv
        | resolve | connect | initSession | handshake | failed => rfl
      refine ⟨⟨?_, ?_⟩, ?_⟩
      · simpa [conclude, ha, step, hv, setStep] using options
      · right
        exact ⟨past, by simp [conclude, ha, step, hv, setStep, Step.isPast]⟩
      · simpa [conclude, ha, step, hv, setStep] using quiet
  · simp [conclude, ha, Steady.refl]

/-! ### Polls -/

/-- After the check, a poll of the open requests a session at most with the options that are set. -/
theorem establish_steady (t : OverTcp ε σ ρ ω) (hs : t.step ≠ .validate) :
    Steady t ((establish eng net res receiver).run t).state ∧
      (requested ((establish eng net res receiver).run t).events = [] ∨
        (t.step = .initSession ∧
          requested ((establish eng net res receiver).run t).events = [t.layer.options])) := by
  obtain ⟨steady, asked⟩ := advance_steady eng net res receiver t
  rcases ha : (advance eng net res receiver).run t with ⟨answer, u, es⟩
  rw [ha] at steady asked
  obtain ⟨ending, quiet⟩ := conclude_steady net u (steady.notAhead hs) answer
  rw [run_establish]
  simp only [Act.run_bind, Act.run_get, hs, if_false, ha, List.nil_append, requested_append, quiet,
    List.append_nil]
  exact ⟨steady.trans ending, asked⟩

/-- The check decides which step comes next, and nothing else. -/
theorem run_validate (t : OverTcp ε σ ρ ω) :
    (validate.run t).state =
        { t with step := if t.layer.options.isConsistent then .resolve else .validationFailed } ∧
      requested (validate.run t).events = [] := by
  obtain ⟨answer, state, quiet⟩ := Layer.run_checkConsistency t.layer
  cases hc : t.layer.options.isConsistent with
  | true =>
    rw [hc] at answer
    simp [validate, onLayer, answer, state, quiet, setStep]
  | false =>
    rw [hc] at answer
    simp [validate, onLayer, answer, state, quiet, setStep]

/-- Behind the check, the first poll goes on as one that finds it done. -/
theorem run_establish_first (t : OverTcp ε σ ρ ω) (hs : t.step = .validate) :
    let u := (validate.run t).state
    u.step ≠ .validate ∧
      ((establish eng net res receiver).run t).state =
        ((establish eng net res receiver).run u).state ∧
      requested ((establish eng net res receiver).run t).events =
        requested ((establish eng net res receiver).run u).events := by
  obtain ⟨state, quiet⟩ := run_validate t
  have checked : (validate.run t).state.step ≠ .validate := by
    rw [state]
    cases t.layer.options.isConsistent with
    | true => simp
    | false => simp
  refine ⟨checked, ?_, ?_⟩
  · rw [run_establish, run_establish]
    simp [hs, checked]
  · rw [run_establish, run_establish]
    simp [hs, checked, quiet]

/-- The first poll of the open checks the options. They have to be consistent to go on. -/
theorem establish_first (t : OverTcp ε σ ρ ω) (hs : t.step = .validate) :
    ((establish eng net res receiver).run t).state.layer.options = t.layer.options ∧
      requested ((establish eng net res receiver).run t).events = [] ∧
      (((establish eng net res receiver).run t).state.step = .validationFailed ∨
        (t.layer.options.isConsistent = true ∧
          ((establish eng net res receiver).run t).state.step.isPast = true)) := by
  obtain ⟨checked, after, events⟩ := run_establish_first eng net res receiver t hs
  obtain ⟨steady, asked⟩ := establish_steady eng net res receiver _ checked
  rw [after, events]
  obtain ⟨state, -⟩ := run_validate t
  generalize (validate.run t).state = u at *
  cases hc : t.layer.options.isConsistent with
  -- The step behind the check is never the one that creates the session.
  | true =>
    have resolving : u.step = .resolve := by simp [state, hc]
    refine ⟨steady.options.trans (by rw [state]), ?_, .inr ⟨rfl, ?_⟩⟩
    · simpa [resolving] using asked
    · exact steady.passed (by simp [resolving, Step.isPast])
  | false =>
    have refused : u.step = .validationFailed := by simp [state, hc]
    refine ⟨steady.options.trans (by rw [state]), ?_, .inl (steady.refused refused)⟩
    simpa [refused] using asked

end OverTcp

end PolledConnection.Tls
