import PolledConnection.Proofs.Tls.Custody
import PolledConnection.Proofs.Tls.Opening
import PolledConnection.Script.Engine
import PolledConnection.Tls.OverGiven

/-! # The life of a TLS session

  Both TLS transports keep the laws of custody: they have a session only in
  the step of the handshake, and every way out of that step and every close
  gives it back. So a connection over one of them asks the engine for one
  session at most, moves bytes only while its handshake has succeeded and it
  is not closed, and never leaves it behind (`session_lifecycle`).
-/

namespace PolledConnection.Tls

variable {ε σ ρ ω : Type}

/-! ### Polls of an open -/

section
variable {τ : Type} {bare holds : τ → Prop} {t : τ}

/-- How a poll of the open ends: one that has failed closes the session, if there is one. -/
structure Concludes (bare holds : τ → Prop) (conclude : Progress → Act Effect τ Progress) : Prop where
  other : ∀ a u, a ≠ .failed → (conclude a).run u = ⟨a, u, []⟩
  answer : ∀ u, ((conclude .failed).run u).answer = .failed
  of_bare : ∀ u, bare u →
    used ((conclude .failed).run u).events = [] ∧ bare ((conclude .failed).run u).state
  of_holds : ∀ u, holds u →
    used ((conclude .failed).run u).events = [.close] ∧ bare ((conclude .failed).run u).state

variable {conclude : Progress → Act Effect τ Progress} {m : Act Effect τ Progress}

/-- A step that has found no session leaves none to close. -/
theorem Concludes.attempt (ends : Concludes bare holds conclude)
    (h : Attempt bare holds (m.run t)) : Attempt bare holds ((m >>= conclude).run t) := by
  rw [Act.run_bind]
  generalize m.run t = o at h ⊢
  obtain ⟨a, u, effects⟩ := o
  by_cases ha : a = .failed
  · subst ha
    have answer := ends.answer u
    cases h with
    | nothing uses _ state =>
      obtain ⟨silent, still⟩ := ends.of_bare u state
      exact .nothing (by simpa [silent] using uses) (by simp [answer]) still
    | created _ waiting _ => contradiction
    | refused uses _ state =>
      obtain ⟨silent, still⟩ := ends.of_bare u state
      exact .refused (by simpa [silent] using uses) answer still
  · simpa [ends.other a u ha] using h

/-- A handshake closes its session if it has failed. -/
theorem Concludes.advance (ends : Concludes bare holds conclude) (kept : holds (m.run t).state)
    (uses : used (m.run t).events = [.handshake (m.run t).answer]) :
    Advance bare holds ((m >>= conclude).run t) := by
  rw [Act.run_bind]
  generalize m.run t = o at kept uses ⊢
  obtain ⟨a, u, effects⟩ := o
  have uses : used effects = [.handshake a] := uses
  by_cases ha : a = .failed
  · subst ha
    obtain ⟨closed, gone⟩ := ends.of_holds u kept
    exact .givesUp (by simp [uses, closed]) (ends.answer u) gone
  · have same := ends.other a u ha
    exact .goesOn (by simp [same, uses]) (by simpa [same] using ha) (by simpa [same] using kept)

/-- What comes before an attempt without a session does not count. -/
theorem Attempt.behind {first : Act Effect τ Unit} (silent : used (first.run t).events = [])
    (h : Attempt bare holds (m.run (first.run t).state)) :
    Attempt bare holds ((first >>= fun _ => m).run t) := by
  rw [Act.run_bind]
  cases h with
  | nothing uses answer state => exact .nothing (by simp [silent, uses]) answer state
  | created uses answer state => exact .created (by simp [silent, uses]) answer state
  | refused uses answer state => exact .refused (by simp [silent, uses]) answer state

end

/-! ### The layer -/

namespace Layer

variable (eng : Engine ε σ) {l : Layer σ} {h : Held σ}

theorem close_bare (hl : l.held = none) :
    close.run l = ⟨(), { l with receiver := none }, []⟩ := by
  simp [close, hl]

theorem close_held (hl : l.held = some h) :
    close.run l = ⟨(), { l with held := none, receiver := none }, [.sessionClosed]⟩ := by
  simp [close, hl]

theorem handshake_bare (hl : l.held = none) : (handshake eng).run l = ⟨.failed, l, []⟩ := by
  simp [handshake, hl]

theorem handshake_held (hl : l.held = some h) :
    (handshake eng).run l = ⟨(eng.handshake h.session).1,
      { l with held := some { h with session := (eng.handshake h.session).2 } },
      [.handshake (eng.handshake h.session).1]⟩ := by
  simp [handshake, hl]

/-- A read keeps the session, whatever it answers. -/
theorem read_held (hl : l.held = some h) :
    used ((read eng).run l).events = [.read] ∧ ((read eng).run l).state.held.isSome = true := by
  cases ha : (eng.read receiveBufferSize h.session).1 with
  | error fault => simp [read, hl, ha, Effect.use?]
  | ok fill =>
    by_cases hf : fill.count = 0
    · simp [read, hl, ha, hf, Effect.use?]
    · cases hr : l.receiver with
      | none => simp [read, hl, ha, hf, hr, Effect.use?]
      | some receiver => simp [read, hl, ha, hf, hr, Effect.use?]

theorem write_held (hl : l.held = some h) (bytes : Bytes) :
    used ((write eng bytes).run l).events = [.write] ∧
      ((write eng bytes).run l).state.held.isSome = true := by
  simp [write, hl, Effect.use?]

/-- The engine is asked once, and there is a session exactly if it has created one. -/
theorem used_requestSession (hl : l.held = none) (carrier : Carrier) (receiver : Receiver) (e : ε) :
    let o := (requestSession eng carrier receiver e).run l
    used o.events = [.request o.answer.1] ∧ o.state.held.isSome = o.answer.1 := by
  cases ha : (eng.create l.options l.hostname l.port carrier e).1 with
  | ok session => simp [requestSession, ha, Effect.use?, Except.map]
  | error fault => simp [requestSession, ha, hl, Effect.use?, Except.map]

theorem used_checkConsistency (l : Layer σ) : used (checkConsistency.run l).events = [] := by
  cases hc : l.options.isConsistent with
  | true => simp [checkConsistency, Options.checkConsistency, hc]
  | false => simp [checkConsistency, Options.checkConsistency, hc]

/-- A refused endpoint does nothing with a session. -/
theorem used_validate {endpoint : Endpoint} {r : Except Fault Unit} {es : List Effect}
    (h : validate endpoint = (r, es)) : used es = [] := by
  unfold validate at h
  split at h
  · rw [← (Prod.mk.inj h).2]
    rfl
  · rw [← (Prod.mk.inj h).2]
    rfl

theorem used_setOption (l : Layer σ) (name : String) (value : Setting) :
    used ((setOption name value).run l).events = [] ∧
      ((setOption name value).run l).state.held = l.held := by
  rcases h : l.options.set name value with ⟨fault | status, options⟩
  · cases hn : complaint name fault with
    | none => simp [setOption, h, hn]
    | some note => simp [setOption, h, hn]
  · cases status with
    | notHandled | accepted => simp [setOption, h]

end Layer

/-! ### Over a given carrier -/

namespace OverGiven

variable (eng : Engine ε σ) (receiver : Receiver) {t : OverGiven ε σ}

/-- There is no session. -/
def Bare (t : OverGiven ε σ) : Prop := t.layer.held = none

/-- There is a session, and its handshake is what opening goes on with. -/
def Holds (t : OverGiven ε σ) : Prop := t.layer.held.isSome = true ∧ t.step = .handshake

/-- What follows the check of the options: the present step of the open. -/
def advance : Act Effect (OverGiven ε σ) Progress := do
  match (← Act.get).step with
  | .initSession => initSession eng receiver
  | .handshake => onLayer (Layer.handshake eng)
  | .failed =>
    Act.emit (.note .alreadyFailed)
    pure .failed
  | .validate | .validationFailed | .resolve | .connect => pure .failed

/-- The end of a poll: a step that failed ends the open. -/
def conclude (answer : Progress) : Act Effect (OverGiven ε σ) Progress := do
  if answer = .failed then
    onLayer Layer.close
    Act.modify fun t => { t with carrier := none }
    if (← Act.get).step ≠ .validationFailed then setStep .failed
  return answer

/-- A poll of the open is the check, if it comes first, then the present step, then the end. -/
theorem run_establish (t : OverGiven ε σ) :
    (establish eng receiver).run t =
      (do
        if (← Act.get).step = .validate then validate
        let answer ← advance eng receiver
        conclude answer : Act Effect (OverGiven ε σ) Progress).run t := by
  by_cases hv : t.step = .validate
  · simp only [establish, Act.run_bind, Act.run_get, hv, if_true]
    generalize (validate.run t).state = u
    cases hu : u.step with
    | resolve | connect | initSession | handshake | failed | validate | validationFailed =>
      simp [advance, conclude, hu]
  · simp only [establish, Act.run_bind, Act.run_get, hv, if_false]
    cases hu : t.step with
    | resolve | connect | initSession | handshake | failed | validate | validationFailed =>
      simp [advance, conclude, hu]

/-- The end of a poll that has failed does to the layer what closing it does. -/
theorem conclude_failed {u : OverGiven ε σ} {l : Layer σ} {es : List Effect}
    (closed : Layer.close.run u.layer = ⟨(), l, es⟩) :
    let o := (conclude .failed).run u
    o.answer = .failed ∧ used o.events = used es ∧ o.state.layer = l := by
  by_cases hv : u.step = .validationFailed
  · simp [conclude, onLayer, closed, hv]
  · simp [conclude, onLayer, closed, hv, setStep]

theorem concludes : Concludes Bare Holds (conclude (ε := ε) (σ := σ)) where
  other a u ha := by simp [conclude, ha]
  answer u := (conclude_failed rfl).1
  of_bare u hu := by
    obtain ⟨-, uses, layer⟩ := conclude_failed (Layer.close_bare hu)
    exact ⟨uses, by rw [Bare, layer]; exact hu⟩
  of_holds u hu := by
    obtain ⟨h, hl⟩ := Option.isSome_iff_exists.mp hu.1
    obtain ⟨-, uses, layer⟩ := conclude_failed (Layer.close_held hl)
    exact ⟨uses, by rw [Bare, layer]⟩

/-- The check does nothing with a session. -/
theorem validate_bare (ht : Bare t) :
    used (validate.run t).events = [] ∧ Bare (validate.run t).state := by
  obtain ⟨-, state, -⟩ := Layer.run_checkConsistency t.layer
  have silent := Layer.used_checkConsistency t.layer
  unfold Bare at ht ⊢
  cases hc : (Layer.checkConsistency.run t.layer).answer with
  | true => simpa [validate, onLayer, hc, setStep, silent, state] using ht
  | false => simpa [validate, onLayer, hc, setStep, silent, state] using ht

theorem initSession_attempt (ht : Bare t) : Attempt Bare Holds ((initSession eng receiver).run t) := by
  cases hc : t.carrier with
  | none =>
    have nothing : (initSession eng receiver).run t = ⟨.failed, t, []⟩ := by simp [initSession, hc]
    rw [nothing]
    exact .nothing rfl (by simp) ht
  | some carrier =>
    have asked := Layer.used_requestSession eng ht carrier receiver t.engine
    rcases hr : (Layer.requestSession eng carrier receiver t.engine).run t.layer with
      ⟨⟨created, engine⟩, l, es⟩
    rw [hr] at asked
    obtain ⟨uses, held⟩ := asked
    cases created with
    | true =>
      apply Attempt.created
      · simpa [initSession, hc, onLayer, hr, setStep] using uses
      · simp [initSession, hc, onLayer, hr]
      · exact ⟨by simpa [initSession, hc, onLayer, hr, setStep] using held,
          by simp [initSession, hc, onLayer, hr, setStep]⟩
    | false =>
      apply Attempt.refused
      · simpa [initSession, hc, onLayer, hr] using uses
      · simp [initSession, hc, onLayer, hr]
      · simpa [initSession, hc, onLayer, hr, Bare] using held

theorem advance_attempt (ht : Bare t) : Attempt Bare Holds ((advance eng receiver).run t) := by
  cases hs : t.step with
  | initSession => simpa [advance, hs] using initSession_attempt eng receiver ht
  | handshake =>
    have nobody : (onLayer (Layer.handshake eng)).run t = ⟨.failed, t, []⟩ := by
      simp [onLayer, Layer.handshake_bare eng ht]
    have run : (advance eng receiver).run t = ⟨.failed, t, []⟩ := by simp [advance, hs, nobody]
    rw [run]
    exact .nothing rfl (by simp) ht
  | validate | validationFailed | resolve | connect | failed =>
    exact .nothing (by simp [advance, hs]) (by simp [advance, hs]) (by simpa [advance, hs] using ht)

theorem establish_attempt (ht : Bare t) : Attempt Bare Holds ((establish eng receiver).run t) := by
  rw [run_establish]
  by_cases hv : t.step = .validate
  · obtain ⟨silent, checked⟩ := validate_bare ht
    have all := (concludes.attempt (advance_attempt eng receiver checked)).behind silent
    simpa only [Act.run_bind, Act.run_get, hv, if_true, List.nil_append] using all
  · have all := concludes.attempt (advance_attempt eng receiver ht)
    simpa only [Act.run_bind, Act.run_get, Act.run_pure, hv, if_false, List.nil_append] using all

theorem establish_advance (ht : Holds t) : Advance Bare Holds ((establish eng receiver).run t) := by
  obtain ⟨held, hs⟩ := ht
  obtain ⟨h, hl⟩ := Option.isSome_iff_exists.mp held
  have shaken := Layer.handshake_held eng hl
  have run : (advance eng receiver).run t = (onLayer (Layer.handshake eng)).run t := by
    simp [advance, hs]
  have all := concludes.advance (m := advance eng receiver) (t := t)
    (by simp [run, onLayer, shaken, Holds, hs]) (by simp [run, onLayer, shaken, Effect.use?])
  rw [run_establish]
  simpa only [Act.run_bind, Act.run_get, Act.run_pure, hs, reduceCtorEq, if_false, List.nil_append]
    using all

/-- The transport keeps the laws. -/
theorem custody : Custody (transport eng) Bare Holds where
  attempt receiver _ ht := establish_attempt eng receiver ht
  advance receiver _ ht := establish_advance eng receiver ht
  read t ht := by
    obtain ⟨h, hl⟩ := Option.isSome_iff_exists.mp ht.1
    obtain ⟨uses, kept⟩ := Layer.read_held eng hl
    exact ⟨by simpa [transport, onLayer] using uses, by simpa [transport, onLayer] using kept, ht.2⟩
  write bytes t ht := by
    obtain ⟨h, hl⟩ := Option.isSome_iff_exists.mp ht.1
    obtain ⟨uses, kept⟩ := Layer.write_held eng hl bytes
    exact ⟨by simpa [transport, onLayer] using uses, by simpa [transport, onLayer] using kept, ht.2⟩
  close_bare t ht := by
    have closed := Layer.close_bare ht
    exact ⟨by simp [transport, close, onLayer, closed],
      by simpa [transport, close, onLayer, closed, Bare] using ht⟩
  close_holds t ht := by
    obtain ⟨h, hl⟩ := Option.isSome_iff_exists.mp ht.1
    have closed := Layer.close_held hl
    exact ⟨by simp [transport, close, onLayer, closed, Effect.use?],
      by simp [transport, close, onLayer, closed, Bare]⟩
  setOption name value t := by
    obtain ⟨silent, held⟩ := Layer.used_setOption t.layer name value
    refine ⟨by simpa [transport, onLayer] using silent, fun ht => ?_, fun ht => ⟨?_, ht.2⟩⟩
    · exact held.trans ht
    · simpa [transport, onLayer, held] using ht.1

theorem create_bare (engine : ε) (carrier : Carrier) (endpoint : Endpoint) :
    MadeBare Bare (create eng engine carrier endpoint) := by
  unfold create
  split
  · exact ⟨Layer.used_validate ‹_›, by simp⟩
  · exact (custody eng).configured _ rfl

end OverGiven

/-! ### Over TCP -/

namespace OverTcp

variable (eng : Engine ε σ) (net : Network ω) (res : Resolver ρ) (receiver : Receiver)
variable {t : OverTcp ε σ ρ ω}

/-- There is no session. -/
def Bare (t : OverTcp ε σ ρ ω) : Prop := t.layer.held = none

/-- There is a session, and its handshake is what opening goes on with. -/
def Holds (t : OverTcp ε σ ρ ω) : Prop := t.layer.held.isSome = true ∧ t.step = .handshake

/-- Closing does to the layer what closing it does, and leaves the step of the open alone. -/
theorem close_layer {u : OverTcp ε σ ρ ω} {l : Layer σ} {es : List Effect}
    (closed : Layer.close.run u.layer = ⟨(), l, es⟩) :
    let o := (close net).run u
    used o.events = used es ∧ o.state.layer = l ∧ o.state.step = u.step := by
  by_cases held : u.socket?.isSome = true
  · simp [close, onLayer, held, closed]
  · simp [close, onLayer, held, closed]

theorem conclude_failed {u : OverTcp ε σ ρ ω} {l : Layer σ} {es : List Effect}
    (closed : Layer.close.run u.layer = ⟨(), l, es⟩) :
    let o := (conclude net .failed).run u
    o.answer = .failed ∧ used o.events = used es ∧ o.state.layer = l := by
  obtain ⟨uses, layer, step⟩ := close_layer net closed
  by_cases hv : u.step = .validationFailed
  · simp [conclude, uses, layer, step, hv]
  · simp [conclude, uses, layer, step, hv, setStep]

theorem concludes : Concludes Bare Holds (conclude (ε := ε) (σ := σ) (ρ := ρ) net) where
  other a u ha := by simp [conclude, ha]
  answer u := (conclude_failed net rfl).1
  of_bare u hu := by
    obtain ⟨-, uses, layer⟩ := conclude_failed net (Layer.close_bare hu)
    exact ⟨uses, by rw [Bare, layer]; exact hu⟩
  of_holds u hu := by
    obtain ⟨h, hl⟩ := Option.isSome_iff_exists.mp hu.1
    obtain ⟨-, uses, layer⟩ := conclude_failed net (Layer.close_held hl)
    exact ⟨uses, by rw [Bare, layer]⟩

/-- The check does nothing with a session. -/
theorem validate_bare (ht : Bare t) :
    used (validate.run t).events = [] ∧ Bare (validate.run t).state := by
  obtain ⟨-, state, -⟩ := Layer.run_checkConsistency t.layer
  have silent := Layer.used_checkConsistency t.layer
  unfold Bare at ht ⊢
  cases hc : (Layer.checkConsistency.run t.layer).answer with
  | true => simpa [validate, onLayer, hc, setStep, silent, state] using ht
  | false => simpa [validate, onLayer, hc, setStep, silent, state] using ht

/-- Looking the host name up does nothing with a session. -/
theorem pollResolve_layer (t : OverTcp ε σ ρ ω) :
    let o := (pollResolve res).run t
    o.answer = .waiting ∧ used o.events = [] ∧ o.state.layer = t.layer := by
  rcases ha : res.lookup t.layer.hostname t.layer.port t.resolver with ⟨answer, resolver⟩
  cases answer with
  | error fault => simp [pollResolve, ha, Effect.use?]
  | ok address =>
    cases address with
    | none => simp [pollResolve, ha, Effect.use?]
    | some address => simp [pollResolve, ha, setStep, Effect.use?]

theorem used_pollConnect (slot : Option Socket) (peer : Address) (keepAlive : Bool) (w : ω) :
    used ((net.pollConnect slot peer keepAlive).run w).events = [] := by
  cases slot with
  | some socket => simp [Network.pollConnect, Effect.use?]
  | none =>
    rcases hd : net.dial peer keepAlive w with ⟨dialled, note, w'⟩
    cases note with
    | none => cases dialled <;> simp [Network.pollConnect, hd, Effect.use?]
    | some note => cases dialled <;> simp [Network.pollConnect, hd, Effect.use?]

/-- Neither does connecting the socket. -/
theorem pollConnect_layer (t : OverTcp ε σ ρ ω) :
    let o := (pollConnect net).run t
    o.answer ≠ .done ∧ used o.events = [] ∧ o.state.layer = t.layer := by
  cases ha : t.address with
  | none => simp [pollConnect, ha]
  | some address =>
    have quiet := used_pollConnect net t.socket address (t.keepAlive.getD false) t.network
    rcases hc : (net.pollConnect t.socket address (t.keepAlive.getD false)).run t.network with
      ⟨⟨answer, slot⟩, w, es⟩
    rw [hc] at quiet
    cases answer with
    | error fault => simp [pollConnect, ha, hc, quiet]
    | ok connected =>
      cases connected with
      | false => simp [pollConnect, ha, hc, quiet]
      | true => simp [pollConnect, ha, hc, setStep, quiet]

theorem initSession_attempt (ht : Bare t) :
    Attempt Bare Holds ((initSession eng net receiver).run t) := by
  cases hc : t.socket with
  | none =>
    have nothing : (initSession eng net receiver).run t = ⟨.failed, t, []⟩ := by
      simp [initSession, hc]
    rw [nothing]
    exact .nothing rfl (by simp) ht
  | some socket =>
    have asked := Layer.used_requestSession eng ht (.stream socket) receiver t.engine
    rcases hr : (Layer.requestSession eng (.stream socket) receiver t.engine).run t.layer with
      ⟨⟨created, engine⟩, l, es⟩
    rw [hr] at asked
    obtain ⟨uses, held⟩ := asked
    cases created with
    | true =>
      apply Attempt.created
      · simpa [initSession, hc, onLayer, hr, setStep] using uses
      · simp [initSession, hc, onLayer, hr]
      · exact ⟨by simpa [initSession, hc, onLayer, hr, setStep] using held,
          by simp [initSession, hc, onLayer, hr, setStep]⟩
    | false =>
      apply Attempt.refused
      · simpa [initSession, hc, onLayer, hr] using uses
      · simp [initSession, hc, onLayer, hr]
      · simpa [initSession, hc, onLayer, hr, Bare] using held

theorem advance_attempt (ht : Bare t) :
    Attempt Bare Holds ((advance eng net res receiver).run t) := by
  cases hs : t.step with
  | resolve =>
    obtain ⟨answer, silent, layer⟩ := pollResolve_layer res t
    have run : (advance eng net res receiver).run t = (pollResolve res).run t := by
      simp [advance, hs]
    rw [run]
    exact .nothing silent (by simp [answer]) (by rw [Bare, layer]; exact ht)
  | connect =>
    obtain ⟨answer, silent, layer⟩ := pollConnect_layer net t
    have run : (advance eng net res receiver).run t = (pollConnect net).run t := by
      simp [advance, hs]
    rw [run]
    exact .nothing silent answer (by rw [Bare, layer]; exact ht)
  | initSession => simpa [advance, hs] using initSession_attempt eng net receiver ht
  | handshake =>
    have nobody : (onLayer (Layer.handshake eng)).run t = ⟨.failed, t, []⟩ := by
      simp [onLayer, Layer.handshake_bare eng ht]
    have run : (advance eng net res receiver).run t = ⟨.failed, t, []⟩ := by
      simp [advance, hs, nobody]
    rw [run]
    exact .nothing rfl (by simp) ht
  | validate | validationFailed | failed =>
    exact .nothing (by simp [advance, hs]) (by simp [advance, hs]) (by simpa [advance, hs] using ht)

theorem establish_attempt (ht : Bare t) :
    Attempt Bare Holds ((establish eng net res receiver).run t) := by
  rw [run_establish]
  by_cases hv : t.step = .validate
  · obtain ⟨silent, checked⟩ := validate_bare ht
    have all := ((concludes net).attempt (advance_attempt eng net res receiver checked)).behind silent
    simpa only [Act.run_bind, Act.run_get, hv, if_true, List.nil_append] using all
  · have all := (concludes net).attempt (advance_attempt eng net res receiver ht)
    simpa only [Act.run_bind, Act.run_get, Act.run_pure, hv, if_false, List.nil_append] using all

theorem establish_advance (ht : Holds t) :
    Advance Bare Holds ((establish eng net res receiver).run t) := by
  obtain ⟨held, hs⟩ := ht
  obtain ⟨h, hl⟩ := Option.isSome_iff_exists.mp held
  have shaken := Layer.handshake_held eng hl
  have run : (advance eng net res receiver).run t = (onLayer (Layer.handshake eng)).run t := by
    simp [advance, hs]
  have all := (concludes net).advance (m := advance eng net res receiver) (t := t)
    (by simp [run, onLayer, shaken, Holds, hs]) (by simp [run, onLayer, shaken, Effect.use?])
  rw [run_establish]
  simpa only [Act.run_bind, Act.run_get, Act.run_pure, hs, reduceCtorEq, if_false, List.nil_append]
    using all

/-- The keepalive option has nothing to do with the session. -/
theorem used_keepAlive (t : OverTcp ε σ ρ ω) (value : Setting) :
    let o := (setOption net optionNames.keepAlive value).run t
    used o.events = [] ∧ o.state.layer = t.layer ∧ o.state.step = t.step := by
  cases hv : value.truth? with
  | none => simp [setOption, hv]
  | some keepAlive =>
    cases hs : t.socket with
    | none => by_cases held : t.layer.held.isSome = true <;> simp [setOption, hv, hs, held]
    | some socket =>
      rcases hk : net.switchKeepAlive socket keepAlive t.network with ⟨switched, w⟩
      cases switched <;> simp [setOption, hv, hs, hk]

theorem used_setOption (t : OverTcp ε σ ρ ω) (name : String) (value : Setting) :
    let o := (setOption net name value).run t
    used o.events = [] ∧ o.state.layer.held = t.layer.held ∧ o.state.step = t.step := by
  by_cases hn : name = optionNames.keepAlive
  · subst hn
    obtain ⟨silent, layer, step⟩ := used_keepAlive net t value
    exact ⟨silent, congrArg Layer.held layer, step⟩
  · obtain ⟨silent, held⟩ := Layer.used_setOption t.layer name value
    simp [setOption, hn, onLayer, silent, held]

/-- The transport keeps the laws. -/
theorem custody : Custody (transport eng net res) Bare Holds where
  attempt receiver _ ht := establish_attempt eng net res receiver ht
  advance receiver _ ht := establish_advance eng net res receiver ht
  read t ht := by
    obtain ⟨h, hl⟩ := Option.isSome_iff_exists.mp ht.1
    obtain ⟨uses, kept⟩ := Layer.read_held eng hl
    exact ⟨by simpa [transport, onLayer] using uses, by simpa [transport, onLayer] using kept, ht.2⟩
  write bytes t ht := by
    obtain ⟨h, hl⟩ := Option.isSome_iff_exists.mp ht.1
    obtain ⟨uses, kept⟩ := Layer.write_held eng hl bytes
    exact ⟨by simpa [transport, onLayer] using uses, by simpa [transport, onLayer] using kept, ht.2⟩
  close_bare t ht := by
    obtain ⟨uses, layer, -⟩ := close_layer net (Layer.close_bare ht)
    exact ⟨uses, (congrArg Layer.held layer).trans ht⟩
  close_holds t ht := by
    obtain ⟨h, hl⟩ := Option.isSome_iff_exists.mp ht.1
    obtain ⟨uses, layer, -⟩ := close_layer net (Layer.close_held hl)
    exact ⟨uses, congrArg Layer.held layer⟩
  setOption name value t := by
    obtain ⟨silent, held, step⟩ := used_setOption net t name value
    refine ⟨silent, fun ht => held.trans ht, fun ht => ⟨?_, step.trans ht.2⟩⟩
    rw [show ((transport eng net res).setOption name value).run t = (setOption net name value).run t
      from rfl, held]
    exact ht.1

theorem create_bare (engine : ε) (resolver : ρ) (network : ω) (endpoint : Endpoint) :
    MadeBare Bare (create eng net res engine resolver network endpoint) := by
  unfold create
  split
  · exact ⟨Layer.used_validate ‹_›, by simp⟩
  · exact (custody eng net res).configured _ rfl

end OverTcp

/-! ### The theorem -/

/-- **The life of a TLS session.** Take a connection over either TLS transport, with any engine,
    network and resolver, from the making of the transport on. What it does with a session is a word
    of a stage: the engine is asked once at most, a session that it has created shakes hands until that
    ends, then its bytes flow, and it is closed where any of this is broken off or a handshake fails.
    So bytes are only moved behind a handshake that has succeeded and before the close, and whatever
    was created before a destruction is closed behind it, once. -/
theorem session_lifecycle (eng : Engine ε σ) (net : Network ω) (res : Resolver ρ) (engine : ε)
    (resolver : ρ) (network : ω) (carrier : Carrier) (endpoint : Endpoint)
    (rs : List Connection.Request) (destroyed : Bool) :
    Lifecycle destroyed (uses (history (OverGiven.transport eng)
      (OverGiven.create eng engine carrier endpoint) rs destroyed)) ∧
    Lifecycle destroyed (uses (history (OverTcp.transport eng net res)
      (OverTcp.create eng net res engine resolver network endpoint) rs destroyed)) := by
  constructor
  · exact (OverGiven.custody eng).history_lifecycle
      (OverGiven.create_bare eng engine carrier endpoint) rs destroyed
  · exact (OverTcp.custody eng net res).history_lifecycle
      (OverTcp.create_bare eng net res engine resolver network endpoint) rs destroyed

/-- A handshake that has to wait once, then a read that finds nothing, a message, and the end. -/
example :
    let made := OverGiven.create Script.Engine.engine
      ⟨⟨true, true, true, false⟩, [], ⟨[.waiting], [], []⟩⟩ (.given "carrier") (.of "host" 443)
    uses (history (OverGiven.transport Script.Engine.engine) made
        [.beginOpen "open", .poll 4, .send "send" [1, 2]] true) =
      [.request true, .handshake .waiting, .handshake .done, .read, .write, .close] := by
  decide

end PolledConnection.Tls
