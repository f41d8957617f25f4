import PolledConnection.Proofs.Tls.Lifecycle

/-! # What a TLS transport does

  Seen from its session, a TLS transport does only few things: it asks the
  engine for a session, uses the session that it has, closes it, or does
  something that has nothing to do with it (`Deed`). A call that has come back
  tells something about the session behind it (`Fits`).

  Both transports do nothing but such deeds, in whatever order they are asked
  (`Conduct`). So the history of a transport that is used directly is a course of
  deeds and calls (`Course`), and a statement about all uses is an invariant of
  single deeds.
-/

namespace PolledConnection

/-- Whether an effect neither touches a session nor hands bytes out. -/
def Effect.isSilent : Effect → Bool
  | .lookedUp .. | .connectPolled .. | .optionOffered .. | .note _ => true
  | .received .. | .sessionRequested .. | .handshake _ | .sessionRead .. | .sessionWrite ..
  | .sessionClosed => false

namespace Tls

variable {ε σ τ α β ρ ω : Type}

/-- No effect touches a session or hands bytes out. -/
def Silent (effects : List Effect) : Prop := ∀ e ∈ effects, e.isSilent = true

theorem Silent.nil : Silent [] := by simp [Silent]

theorem Silent.notes (notes : List Note) : Silent (notes.map .note) := by
  simp [Silent, Effect.isSilent]

/-! ### Views -/

/-- What a TLS transport shows of itself. -/
structure View (ε σ : Type) where
  /-- The part that deals with the session. -/
  layer : Layer σ
  /-- The engine's state. -/
  engine : ε
  /-- What the next poll of the open does. -/
  step : Step

/-- The session goes on. -/
def View.withSession (v : View ε σ) (h : Held σ) (session : σ) : View ε σ :=
  { v with layer := { v.layer with held := some { h with session := session } } }

/-- A session is there only behind its creation, and with someone to get its bytes. -/
structure View.Sound (v : View ε σ) : Prop where
  receiver : v.layer.held.isSome = true → v.layer.receiver.isSome = true
  step : v.layer.held.isSome = true → v.step = .handshake

/-- There is no session before its creation. -/
theorem View.Sound.bare {v : View ε σ} (sound : v.Sound) (hs : v.step ≠ .handshake) :
    v.layer.held = none := by
  cases hl : v.layer.held with
  | none => rfl
  | some h => exact absurd (sound.step (by simp [hl])) hs

/-! ### Deeds -/

/-- What the layer makes of a session's answer to a read. -/
def Layer.digest (receiver : Option Receiver) : Except Fault Fill → Progress × List Effect
  | .error fault => (.failed, [.note (.sessionReadFailed fault)])
  | .ok fill =>
    if fill.count = 0 then (.waiting, [])
    else (.done, receiver.toList.map fun r => .received r.tag (fill.chunk receiveBufferSize))

theorem Layer.run_read_held (eng : Engine ε σ) {l : Layer σ} {h : Held σ} (hl : l.held = some h) :
    (read eng).run l =
      let r := eng.read receiveBufferSize h.session
      ⟨(digest l.receiver r.1).1, { l with held := some { h with session := r.2 } },
        .sessionRead receiveBufferSize (r.1.map Fill.count) :: (digest l.receiver r.1).2⟩ := by
  cases ha : (eng.read receiveBufferSize h.session).1 with
  | error fault => simp [read, hl, ha, digest]
  | ok fill =>
    by_cases hf : fill.count = 0
    · simp [read, hl, ha, hf, digest]
    · cases hr : l.receiver <;> simp [read, hl, ha, hf, hr, digest]

theorem Layer.run_write_held (eng : Engine ε σ) {l : Layer σ} {h : Held σ} (hl : l.held = some h)
    (bytes : Bytes) :
    (write eng bytes).run l =
      ⟨(eng.write bytes h.session).1,
        { l with held := some { h with session := (eng.write bytes h.session).2 } },
        [.sessionWrite bytes (eng.write bytes h.session).1]⟩ := by
  simp [write, hl]

/-- Behind the read itself, the layer does nothing with the session. -/
theorem Layer.used_digest (receiver : Option Receiver) (answer : Except Fault Fill) :
    used (digest receiver answer).2 = [] := by
  cases answer with
  | error fault => simp [digest]
  | ok fill =>
    by_cases hf : fill.count = 0
    · simp [digest, hf]
    · cases receiver <;> simp [digest, hf]

section
variable (eng : Engine ε σ) (licence : Options → Carrier → Receiver → Prop)

/-- One thing that a TLS transport does. A session is requested only with a licence: with some options,
    over some carriers, for some receivers. -/
inductive Deed : View ε σ → List Effect → View ε σ → Prop where
  /-- Something is done that leaves the session alone. The open can go on meanwhile. -/
  | aside {v effects} (options : Options) (step : Step) (silent : Silent effects)
      (on : step = v.step ∨ v.layer.held = none ∧ v.step.rank ≤ step.rank) :
      Deed v effects { v with layer := { v.layer with options := options }, step := step }
  /-- The engine creates a session. -/
  | created {v carrier receiver session e} (bare : v.layer.held = none)
      (ahead : v.step.rank < Step.rank .handshake)
      (licensed : licence v.layer.options carrier receiver)
      (h : eng.create v.layer.options v.layer.hostname v.layer.port carrier v.engine =
        (.ok session, e)) :
      Deed v
        [.sessionRequested v.layer.hostname v.layer.port carrier v.layer.options (.ok ())]
        { layer := { v.layer with held := some ⟨session, carrier⟩, receiver := some receiver }
          engine := e, step := .handshake }
  /-- The engine refuses to create one. -/
  | refused {v carrier receiver fault e} (bare : v.layer.held = none)
      (ahead : v.step.rank < Step.rank .handshake)
      (licensed : licence v.layer.options carrier receiver)
      (h : eng.create v.layer.options v.layer.hostname v.layer.port carrier v.engine =
        (.error fault, e)) :
      Deed v
        [.sessionRequested v.layer.hostname v.layer.port carrier v.layer.options (.error fault)]
        { v with engine := e, step := .failed }
  /-- The handshake is advanced. -/
  | handshake {v h} (held : v.layer.held = some h) :
      Deed v [.handshake (eng.handshake h.session).1]
        (v.withSession h (eng.handshake h.session).2)
  /-- The session is read. -/
  | read {v h} (held : v.layer.held = some h) :
      Deed v
        (.sessionRead receiveBufferSize ((eng.read receiveBufferSize h.session).1.map Fill.count) ::
          (Layer.digest v.layer.receiver (eng.read receiveBufferSize h.session).1).2)
        (v.withSession h (eng.read receiveBufferSize h.session).2)
  /-- The session is written. -/
  | write {v h} (bytes : Bytes) (held : v.layer.held = some h) :
      Deed v [.sessionWrite bytes (eng.write bytes h.session).1]
        (v.withSession h (eng.write bytes h.session).2)
  /-- The session is closed, if there is one. -/
  | close {v} :
      Deed v (v.layer.held.toList.map fun _ => .sessionClosed)
        { v with layer := { v.layer with held := none, receiver := none } }

/-- What the answer of a call tells about the session behind it. -/
def Fits (v : View ε σ) : Transport.Call → Prop
  | .establish .failed | .close _ => v.layer.held = none
  | .establish .waiting | .establish .done => True
  | .read answer => v.layer.held = none → answer = .failed
  | .write _ answer => v.layer.held = none → answer = .error (.tls "no open session")

/-- A course of deeds, with the calls that come back behind them. -/
inductive Course : View ε σ → List Transport.Event → View ε σ → Prop where
  | refl {v} : Course v [] v
  | deed {v w x es effects} (before : Course v es w) (last : Deed eng licence w effects x) :
      Course v (es ++ effects.map .effect) x
  | call {v w es call} (before : Course v es w) (fits : Fits w call) :
      Course v (es ++ [.called call]) w

end

namespace Course

variable {eng : Engine ε σ} {licence : Options → Carrier → Receiver → Prop}
variable {v w x : View ε σ} {es fs : List Transport.Event} {effects : List Effect}

theorem single (h : Deed eng licence v effects w) : Course eng licence v (effects.map .effect) w := by
  simpa using Course.refl.deed h

theorem trans (h₁ : Course eng licence v es w) (h₂ : Course eng licence w fs x) :
    Course eng licence v (es ++ fs) x := by
  induction h₂ with
  | refl => simpa using h₁
  | deed _ last ih =>
    rw [← List.append_assoc]
    exact ih.deed last
  | call _ fits ih =>
    rw [← List.append_assoc]
    exact ih.call fits

/-- What holds at first and is kept by every deed and every call holds in the end. -/
theorem invariant {Inv : List Transport.Event → View ε σ → Prop}
    (deed : ∀ {es v effects w}, Inv es v → Deed eng licence v effects w →
      Inv (es ++ effects.map .effect) w)
    (call : ∀ {es v call}, Inv es v → Fits v call → Inv (es ++ [.called call]) v)
    (first : Inv [] v) (h : Course eng licence v es w) : Inv es w := by
  induction h with
  | refl => exact first
  | deed _ last ih => exact deed ih last
  | call _ fits ih => exact call ih fits

/-- A licence can be widened. -/
theorem mono (h : Course eng licence v es w) (other : Options → Carrier → Receiver → Prop)
    (wider : ∀ options carrier receiver, licence options carrier receiver →
      other options carrier receiver) : Course eng other v es w := by
  induction h with
  | refl => exact .refl
  | call _ fits ih => exact ih.call fits
  | deed _ last ih =>
    refine ih.deed ?_
    cases last with
    | aside options step silent on => exact .aside options step silent on
    | created bare ahead licensed h => exact .created bare ahead (wider _ _ _ licensed) h
    | refused bare ahead licensed h => exact .refused bare ahead (wider _ _ _ licensed) h
    | handshake held => exact .handshake held
    | read held => exact .read held
    | write bytes held => exact .write bytes held
    | close => exact .close

theorem sound (h : Course eng licence v es w) (sound : v.Sound) : w.Sound := by
  have kept : ∀ {v w : View ε σ} {effects}, v.Sound → Deed eng licence v effects w → w.Sound := by
    intro v w effects sound deed
    cases deed with
    | aside options step _ on =>
      refine ⟨sound.receiver, fun held => ?_⟩
      rcases on with same | ⟨bare, -⟩
      · exact same.trans (sound.step held)
      · simp [bare] at held
    | created => exact ⟨fun _ => rfl, fun _ => rfl⟩
    | refused bare => exact ⟨sound.receiver, fun held => by simp [bare] at held⟩
    | handshake held | read held | write _ held =>
      exact ⟨fun _ => sound.receiver (by simp [held]), fun _ => sound.step (by simp [held])⟩
    | close => exact ⟨by simp, by simp⟩
  induction h with
  | refl => exact sound
  | deed _ last ih => exact kept ih last
  | call _ _ ih => exact ih

variable (eng licence)

/-- Something that leaves everything but the step of the open alone. -/
theorem aside (step : Step) (silent : Silent effects)
    (on : step = v.step ∨ v.layer.held = none ∧ v.step.rank ≤ step.rank) :
    Course eng licence v (effects.map .effect) { v with step := step } :=
  .single (.aside v.layer.options step silent on)

/-! ### The operations of the layer -/

theorem handshake (v : View ε σ) :
    let o := (Layer.handshake eng).run v.layer
    Course eng licence v (o.events.map .effect) { v with layer := o.state } := by
  cases hl : v.layer.held with
  | none => simpa [Layer.handshake_bare eng hl] using Course.refl
  | some h =>
    rw [Layer.handshake_held eng hl]
    exact .single (.handshake hl)

theorem close (v : View ε σ) :
    let o := Layer.close.run v.layer
    Course eng licence v (o.events.map .effect) { v with layer := o.state } := by
  have closed : Course eng licence v _ _ := .single .close
  cases hl : v.layer.held with
  | none => simpa [Layer.close_bare hl, hl] using closed
  | some h => simpa [Layer.close_held hl, hl] using closed

/-- A request for a session ends the open if it is refused. -/
theorem requestSession {v : View ε σ} {carrier : Carrier} {receiver : Receiver}
    (bare : v.layer.held = none) (ahead : v.step.rank < Step.rank .handshake)
    (licensed : licence v.layer.options carrier receiver) :
    let o := (Layer.requestSession eng carrier receiver v.engine).run v.layer
    Course eng licence v (o.events.map .effect)
      ⟨o.state, o.answer.2, if o.answer.1 then .handshake else .failed⟩ := by
  rcases h : eng.create v.layer.options v.layer.hostname v.layer.port carrier v.engine with
    ⟨fault | session, e⟩
  · have refused := Course.single (Deed.refused bare ahead licensed h)
    have noted := refused.trans (aside eng licence .failed (.notes [.sessionRefused fault]) (.inl rfl))
    simpa [Layer.requestSession, h, Except.map] using noted
  · have created := Course.single (Deed.created bare ahead licensed h)
    simpa [Layer.requestSession, h, Except.map] using created

/-- A call that closes the session. -/
theorem closeCall (v : View ε σ) (answer : Progress) :
    let o := Layer.close.run v.layer
    Course eng licence v (o.events.map .effect ++ [.called (.close answer)])
      { v with layer := o.state } := by
  refine (Course.close eng licence v).call ?_
  cases hl : v.layer.held with
  | none => simp [Fits, Layer.close_bare hl, hl]
  | some h => simp [Fits, Layer.close_held hl]

theorem read (v : View ε σ) :
    let o := (Layer.read eng).run v.layer
    Course eng licence v (o.events.map .effect ++ [.called (.read o.answer)])
      { v with layer := o.state } := by
  cases hl : v.layer.held with
  | none =>
    have run : (Layer.read eng).run v.layer = ⟨.failed, v.layer, []⟩ := by simp [Layer.read, hl]
    rw [run]
    exact Course.refl.call fun _ => rfl
  | some h =>
    rw [Layer.run_read_held eng hl]
    exact (Course.single (.read hl)).call (fun bare => by simp [View.withSession] at bare)

theorem write (v : View ε σ) (bytes : Bytes) :
    let o := (Layer.write eng bytes).run v.layer
    Course eng licence v (o.events.map .effect ++ [.called (.write bytes o.answer)])
      { v with layer := o.state } := by
  cases hl : v.layer.held with
  | none =>
    have run : (Layer.write eng bytes).run v.layer = ⟨.error (.tls "no open session"), v.layer, []⟩ := by
      simp [Layer.write, hl]
    rw [run]
    exact Course.refl.call fun _ => rfl
  | some h =>
    rw [Layer.run_write_held eng hl]
    exact (Course.single (.write bytes hl)).call (fun bare => by simp [View.withSession] at bare)

theorem setOption (v : View ε σ) (name : String) (value : Setting) :
    let o := (Layer.setOption name value).run v.layer
    Course eng licence v (o.events.map .effect) { v with layer := o.state } := by
  have done (options : Options) (notes : List Note) : Course eng licence v
      ((notes.map Effect.note).map .effect) { v with layer := { v.layer with options := options } } :=
    .single (.aside options v.step (.notes notes) (.inl rfl))
  rcases h : v.layer.options.set name value with ⟨fault | status, options⟩
  · simpa [Layer.setOption, h] using done options (Layer.complaint name fault).toList
  · cases status with
    | notHandled | accepted => simpa [Layer.setOption, h] using done options []

end Course

/-! ### Polls of an open -/

section
variable (eng : Engine ε σ) (licence : Options → Carrier → Receiver → Prop) (view : τ → View ε σ)

/-- What an act does to the session is a course of deeds. -/
def Follows (t : τ) (m : Act Effect τ α) : Prop :=
  Course eng licence (view t) ((m.run t).events.map .effect) (view (m.run t).state)

/-- So is what a step of the open does. If it has failed, the open may have failed with it. -/
def Advances (t : τ) (m : Act Effect τ Progress) : Prop :=
  ∃ step, Course eng licence (view t) ((m.run t).events.map .effect)
      { view (m.run t).state with step := step } ∧
    (step = (view (m.run t).state).step ∨ (m.run t).answer = .failed ∧ step = .failed ∧
      (view (m.run t).state).step ≠ .validationFailed)

/-- How a poll of the open ends: one that has failed closes the session and ends the open. -/
structure Ends (conclude : Progress → Act Effect τ Progress) : Prop where
  other : ∀ answer t, answer ≠ .failed → (conclude answer).run t = ⟨answer, t, []⟩
  failed : ∀ t, ∃ notes : List Note,
    let closed := Layer.close.run (view t).layer
    let o := (conclude .failed).run t
    o.answer = .failed ∧ o.events = closed.events ++ notes.map .note ∧
      view o.state = { view t with
        layer := closed.state
        step := if (view t).step = .validationFailed then .validationFailed else .failed }

end

section
variable {eng : Engine ε σ} {licence : Options → Carrier → Receiver → Prop} {view : τ → View ε σ}
variable {t : τ}

/-- A step that has not failed. -/
theorem Follows.advances {m : Act Effect τ Progress} (h : Follows eng licence view t m) :
    Advances eng licence view t m :=
  ⟨_, h, .inl rfl⟩

/-- No step comes behind a failed open. -/
theorem Step.rank_le_failed (step : Step) : step.rank ≤ Step.rank .failed := by
  cases step <;> decide

/-- A step of the open and its end make a poll of the open. -/
theorem Advances.conclude {conclude : Progress → Act Effect τ Progress} (ends : Ends view conclude)
    {m : Act Effect τ Progress} (h : Advances eng licence view t m) :
    let o := (m >>= conclude).run t
    Course eng licence (view t) (o.events.map .effect ++ [.called (.establish o.answer)])
      (view o.state) := by
  obtain ⟨step, course, steps⟩ := h
  rw [Act.run_bind]
  generalize m.run t = o at course steps ⊢
  obtain ⟨answer, u, effects⟩ := o
  by_cases ha : answer = .failed
  · subst ha
    obtain ⟨notes, failed, events, after⟩ := ends.failed u
    -- The session is closed, and then the open has failed, if the check had been passed.
    have closed := Course.close eng licence { view u with step := step }
    let final := if (view u).step = .validationFailed then Step.validationFailed else .failed
    have bare : (Layer.close.run (view u).layer).state.held = none := by
      cases hl : (view u).layer.held with
      | none => simp [Layer.close_bare hl, hl]
      | some held => simp [Layer.close_held hl]
    have on : step.rank ≤ final.rank := by
      by_cases hv : (view u).step = .validationFailed
      · rcases steps with rfl | ⟨-, -, other⟩
        · simp [final, hv]
        · exact absurd hv other
      · simp only [final, hv, if_false]
        exact step.rank_le_failed
    have noted := Course.aside eng licence
      (v := { view u with layer := (Layer.close.run (view u).layer).state, step := step })
      final (Silent.notes notes) (.inr ⟨bare, on⟩)
    have all := (course.trans closed).trans noted
    simp only [failed, events, after, List.map_append, List.append_assoc]
    have fits : Fits { view u with layer := (Layer.close.run (view u).layer).state, step := final }
        (.establish .failed) := bare
    simpa only [List.append_assoc] using all.call fits
  · have same := ends.other answer u ha
    rcases steps with rfl | ⟨failed, -⟩
    · simp only [same, List.append_nil]
      refine course.call ?_
      cases answer with
      | waiting | done => trivial
      | failed => contradiction
    · contradiction

/-- What comes before a step of the open belongs to it. -/
theorem Advances.behind {first : Act Effect τ α} {m : Act Effect τ Progress}
    (before : Follows eng licence view t first)
    (h : Advances eng licence view (first.run t).state m) :
    Advances eng licence view t (first >>= fun _ => m) := by
  obtain ⟨step, course, steps⟩ := h
  refine ⟨step, ?_, steps⟩
  rw [Act.run_bind, List.map_append]
  exact before.trans course

end

/-! ### Conduct -/

/-- The licence that requests give: only an open can request a session, and only for its receiver. -/
def Upon (licence : Options → Carrier → Prop) (qs : List Transport.Request) (options : Options)
    (carrier : Carrier) (receiver : Receiver) : Prop :=
  licence options carrier ∧ .establish receiver ∈ qs

/-- How a TLS transport conducts itself, whatever it is asked for. It is in the states `fit`. -/
structure Conduct (eng : Engine ε σ) (T : Transport τ) (view : τ → View ε σ) (fit : τ → Prop)
    (licence : Options → Carrier → Prop) : Prop where
  serve : ∀ q t, fit t → (view t).Sound →
    let o := (T.serve q).run t
    fit o.state ∧ Course eng (Upon licence [q]) (view t) o.events (view o.state)
  /-- It reads and writes what its session reads and writes. -/
  read : ∀ t,
    let o := T.read.run t
    let inner := (Layer.read eng).run (view t).layer
    o.answer = inner.answer ∧ o.events = inner.events ∧
      view o.state = { view t with layer := inner.state }
  write : ∀ bytes t,
    let o := (T.write bytes).run t
    let inner := (Layer.write eng bytes).run (view t).layer
    o.answer = inner.answer ∧ o.events = inner.events ∧
      view o.state = { view t with layer := inner.state }
  backlog : ∀ t, T.backlog t = (view t).layer.backlog eng

/-! ### Over a given carrier -/

namespace OverGiven

variable (eng : Engine ε σ) (receiver : Receiver) {carrier : Carrier} {t : OverGiven ε σ}

/-- What a course looks at: everything but the carrier. -/
def view (t : OverGiven ε σ) : View ε σ := ⟨t.layer, t.engine, t.step⟩

/-- It has its own carrier or none, and never stops between the check and the request. -/
structure Fit (carrier : Carrier) (t : OverGiven ε σ) : Prop where
  carrier : ∀ c, t.carrier = some c → c = carrier
  step : t.step ≠ .initSession

/-- A session is only requested over the carrier, and with options that pass the check. -/
def Licence (carrier : Carrier) (options : Options) (c : Carrier) : Prop :=
  options.checkConsistency = .ok () ∧ c = carrier

theorem ends : Ends view (conclude (ε := ε) (σ := σ)) where
  other answer t ha := by simp [conclude, ha]
  failed t := by
    by_cases hv : t.step = .validationFailed
    · exact ⟨[], by simp [conclude, onLayer, view, hv]⟩
    · exact ⟨[.tlsStep t.step .failed], by simp [conclude, onLayer, setStep, view, hv]⟩

variable {licence : Options → Carrier → Receiver → Prop}

theorem initSession_advances (bare : t.layer.held = none) (hs : t.step = .initSession)
    (licensed : ∀ c, t.carrier = some c → licence t.layer.options c receiver) :
    Advances eng licence view t (initSession eng receiver) := by
  cases hc : t.carrier with
  | none =>
    have nothing : (initSession eng receiver).run t = ⟨.failed, t, []⟩ := by simp [initSession, hc]
    exact ⟨t.step, by rw [nothing]; exact .refl, .inl (by rw [nothing]; rfl)⟩
  | some c =>
    have asked := Course.requestSession eng licence (v := view t) bare (by simp [view, hs, Step.rank])
      (licensed c hc)
    simp only [view] at asked
    rcases hr : (Layer.requestSession eng c receiver t.engine).run t.layer with
      ⟨⟨_ | _, e⟩, l, es⟩
    · refine ⟨.failed, ?_, .inr ?_⟩
      · simpa [initSession, hc, onLayer, hr, view] using asked
      · simp [initSession, hc, onLayer, hr, view, hs]
    · have noted := asked.trans
        (Course.aside eng licence .handshake (.notes [.tlsStep t.step .handshake]) (.inl (by simp [hr])))
      refine ⟨.handshake, ?_, .inl ?_⟩
      · simpa [initSession, hc, onLayer, hr, setStep, view] using noted
      · simp [initSession, hc, onLayer, hr, setStep, view]

theorem advance_advances (sound : (view t).Sound)
    (licensed : t.step = .initSession → ∀ c, t.carrier = some c → licence t.layer.options c receiver) :
    Advances eng licence view t (advance eng receiver) := by
  cases hs : t.step with
  | initSession =>
    have bare : t.layer.held = none := sound.bare (by simp [view, hs])
    simpa [Advances, advance, hs] using initSession_advances eng receiver bare hs (licensed hs)
  | handshake =>
    have shaken := Course.handshake eng licence (view t)
    exact Follows.advances (by simpa [Follows, advance, hs, onLayer, view] using shaken)
  | failed =>
    have noted := Course.aside eng licence (v := view t) t.step
      (.notes [.alreadyFailed]) (.inl rfl)
    exact Follows.advances (by simpa [Follows, advance, hs, view] using noted)
  | validate | validationFailed | resolve | connect =>
    exact Follows.advances (by simpa [Follows, advance, hs, view] using Course.refl)

/-- The check decides which step comes next, and nothing else. -/
theorem run_validate (t : OverGiven ε σ) :
    ∃ notes : List Note, validate.run t =
      ⟨(), { t with step := if t.layer.options.isConsistent then .initSession else .validationFailed },
        notes.map .note⟩ := by
  cases hc : t.layer.options.isConsistent with
  | true =>
    exact ⟨[.tlsStep t.step .initSession], by
      simp [validate, onLayer, Layer.checkConsistency, Options.checkConsistency, hc, setStep]⟩
  | false =>
    exact ⟨[.mismatchedCredentials, .tlsStep t.step .validationFailed], by
      simp [validate, onLayer, Layer.checkConsistency, Options.checkConsistency, hc, setStep]⟩

/-- The present step gets no carrier, and stops at the request only if it has failed. -/
theorem advance_fit (t : OverGiven ε σ) :
    let o := (advance eng receiver).run t
    (o.state.carrier = none ∨ o.state.carrier = t.carrier) ∧
      (o.state.step = .initSession → o.answer = .failed) := by
  cases hs : t.step with
  | validate | resolve | connect | handshake | validationFailed | failed =>
    simp [advance, hs, onLayer]
  | initSession =>
    cases hc : t.carrier with
    | none => simp [advance, hs, initSession, hc]
    | some c =>
      rcases hr : (Layer.requestSession eng c receiver t.engine).run t.layer with
        ⟨⟨created, engine⟩, l, es⟩
      cases created with
      | true => simp [advance, hs, initSession, hc, onLayer, hr, setStep]
      | false => simp [advance, hs, initSession, hc, onLayer, hr]

/-- Behind a step of the open and its end, the transport is fit if it was so but for its step. -/
theorem conclude_fit (carriers : ∀ c, t.carrier = some c → c = carrier) :
    Fit carrier ((advance eng receiver >>= conclude).run t).state := by
  obtain ⟨kept, stops⟩ := advance_fit eng receiver t
  rw [Act.run_bind]
  generalize (advance eng receiver).run t = o at kept stops ⊢
  obtain ⟨answer, u, effects⟩ := o
  by_cases ha : answer = .failed
  · subst ha
    by_cases hv : u.step = .validationFailed
    · exact ⟨by simp [conclude, onLayer, hv], by simp [conclude, onLayer, hv]⟩
    · exact ⟨by simp [conclude, onLayer, setStep, hv], by simp [conclude, onLayer, setStep, hv]⟩
  · have same : (conclude answer).run u = ⟨answer, u, []⟩ := by simp [conclude, ha]
    rw [same]
    refine ⟨fun c (hc : u.carrier = some c) => ?_, fun hs => ha (stops hs)⟩
    rcases kept with (gone : u.carrier = none) | (kept : u.carrier = t.carrier)
    · simp [gone] at hc
    · exact carriers c (kept.symm.trans hc)

/-- A poll of the open keeps the transport fit, and is a course of deeds. -/
theorem establish_course (fit : Fit carrier t) (sound : (view t).Sound) :
    let o := (establish eng receiver).run t
    Fit carrier o.state ∧
      Course eng (Upon (Licence carrier) [.establish receiver]) (view t)
        (o.events.map .effect ++ [.called (.establish o.answer)]) (view o.state) := by
  by_cases hv : t.step = .validate
  · -- Behind the check the request is next, if the options have passed it.
    have run : (establish eng receiver).run t =
        ((validate >>= fun _ => advance eng receiver) >>= conclude).run t := by
      simp [run_establish, hv]
    obtain ⟨notes, checked⟩ := run_validate t
    have before : Follows eng (Upon (Licence carrier) [.establish receiver]) view t validate := by
      have bare : t.layer.held = none := sound.bare (by simp [view, hv])
      rw [Follows, checked]
      exact Course.aside eng _ _ (.notes notes) (.inr ⟨bare, by simp [view, hv, Step.rank]⟩)
    have carriers : ∀ c, (validate.run t).state.carrier = some c → c = carrier := by
      simpa [checked] using fit.carrier
    have consistent : (validate.run t).state.step = .initSession →
        (validate.run t).state.layer.options.checkConsistency = .ok () := by
      cases hc : t.layer.options.isConsistent with
      | true => simp [checked, Options.checkConsistency, hc]
      | false => simp [checked, hc]
    have steps := Advances.behind before
      (advance_advances eng receiver (before.sound sound)
        fun hs c hc => ⟨⟨consistent hs, carriers c hc⟩, List.mem_singleton.mpr rfl⟩)
    rw [run]
    refine ⟨?_, steps.conclude ends⟩
    simpa using conclude_fit eng receiver carriers
  · have run : (establish eng receiver).run t = (advance eng receiver >>= conclude).run t := by
      simp [run_establish, hv]
    have steps : Advances eng (Upon (Licence carrier) [.establish receiver]) view t
        (advance eng receiver) :=
      advance_advances eng receiver sound fun hs => absurd hs fit.step
    rw [run]
    exact ⟨conclude_fit eng receiver fit.carrier, steps.conclude ends⟩

/-- The transport does nothing else, whatever it is asked for. -/
theorem conduct (eng : Engine ε σ) (carrier : Carrier) :
    Conduct eng (transport eng) view (Fit carrier) (Licence carrier) where
  serve q t fit sound := by
    cases q with
    | establish receiver =>
      obtain ⟨kept, course⟩ := establish_course eng receiver fit sound
      exact ⟨kept, by simpa [Transport.serve, Transport.recorded, transport] using course⟩
    | close =>
      have course := Course.closeCall eng (Upon (Licence carrier) [.close]) (view t) .done
      exact ⟨⟨fit.carrier, fit.step⟩, by
        simpa [Transport.serve, Transport.recorded, transport, close, onLayer, view] using course⟩
    | read =>
      have course := Course.read eng (Upon (Licence carrier) [.read]) (view t)
      exact ⟨⟨fit.carrier, fit.step⟩, by
        simpa [Transport.serve, Transport.recorded, transport, onLayer, view] using course⟩
    | write bytes =>
      have course := Course.write eng (Upon (Licence carrier) [.write bytes]) (view t) bytes
      exact ⟨⟨fit.carrier, fit.step⟩, by
        simpa [Transport.serve, Transport.offer, Transport.recorded, transport, onLayer, view] using
          course⟩
    | setOption name value =>
      have course := Course.setOption eng (Upon (Licence carrier) [.setOption name value]) (view t) name
        value
      exact ⟨⟨fit.carrier, fit.step⟩, by
        simpa [Transport.serve, Transport.unrecorded, transport, onLayer, view] using course⟩
    | retrieve => exact ⟨fit, .refl⟩
  read t := ⟨rfl, by simp [transport, onLayer, view], rfl⟩
  write bytes t := ⟨rfl, by simp [transport, onLayer, view], rfl⟩
  backlog t := rfl

end OverGiven

/-! ### Over TCP -/

namespace OverTcp

variable (eng : Engine ε σ) (net : Network ω) (res : Resolver ρ) (receiver : Receiver)
variable {t : OverTcp ε σ ρ ω} {licence : Options → Carrier → Receiver → Prop}

/-- What a course looks at: nothing that has to do with the socket. -/
def view (t : OverTcp ε σ ρ ω) : View ε σ := ⟨t.layer, t.engine, t.step⟩

/-- Closing does what closing the layer does, and leaves engine and step alone. -/
theorem close_view (t : OverTcp ε σ ρ ω) :
    let o := (close net).run t
    o.events = (Layer.close.run t.layer).events ∧ o.state.layer = (Layer.close.run t.layer).state ∧
      o.state.engine = t.engine ∧ o.state.step = t.step := by
  by_cases held : t.socket?.isSome = true
  · simp [close, onLayer, held]
  · simp [close, onLayer, held]

theorem ends : Ends view (conclude (ε := ε) (σ := σ) (ρ := ρ) net) where
  other answer t ha := by simp [conclude, ha]
  failed t := by
    obtain ⟨events, layer, engine, step⟩ := close_view net t
    by_cases hv : t.step = .validationFailed
    · exact ⟨[], by simp [conclude, view, events, layer, engine, step, hv]⟩
    · exact ⟨[.tlsStep t.step .failed], by
        simp [conclude, view, setStep, events, layer, engine, step, hv]⟩

/-- Looking the host name up has nothing to do with the session. -/
theorem pollResolve_follows (bare : t.layer.held = none) (hs : t.step = .resolve) :
    Follows eng licence view t (pollResolve res) := by
  rcases ha : res.lookup t.layer.hostname t.layer.port t.resolver with ⟨answer, resolver⟩
  have silent (notes : List Note) : Silent
      (.lookedUp t.layer.hostname t.layer.port answer :: notes.map Effect.note) := by
    simp [Silent, Effect.isSilent]
  by_cases found : ∃ address, answer = .ok (some address)
  · obtain ⟨address, rfl⟩ := found
    have course := Course.aside eng licence (v := view t) .connect
      (silent [.tlsStep t.step .connect]) (.inr ⟨bare, by simp [view, hs, Step.rank]⟩)
    simpa [Follows, pollResolve, ha, setStep, view] using course
  · have run : (pollResolve res).run t = ⟨.waiting, { t with resolver := resolver },
        [.lookedUp t.layer.hostname t.layer.port answer]⟩ := by
      cases answer with
      | error fault => simp [pollResolve, ha]
      | ok address =>
        cases address with
        | none => simp [pollResolve, ha]
        | some address => exact absurd ⟨address, rfl⟩ found
    rw [Follows, run]
    exact Course.aside eng licence t.step (silent []) (.inl rfl)

theorem silent_pollConnect (slot : Option Socket) (peer : Address) (keepAlive : Bool) (w : ω) :
    Silent ((net.pollConnect slot peer keepAlive).run w).events := by
  cases slot with
  | some socket => simp [Network.pollConnect, Silent, Effect.isSilent]
  | none =>
    rcases hd : net.dial peer keepAlive w with ⟨dialled, note, w'⟩
    cases note <;> cases dialled <;> simp [Network.pollConnect, hd, Silent, Effect.isSilent]

/-- Neither has connecting the socket. -/
theorem pollConnect_follows (bare : t.layer.held = none) (hs : t.step = .connect) :
    Follows eng licence view t (pollConnect net) := by
  cases ha : t.address with
  | none => simpa [Follows, pollConnect, ha] using Course.refl
  | some address =>
    have quiet := silent_pollConnect net t.socket address (t.keepAlive.getD false) t.network
    rcases hc : (net.pollConnect t.socket address (t.keepAlive.getD false)).run t.network with
      ⟨⟨answer, slot⟩, w, es⟩
    rw [hc] at quiet
    have polled (notes : List Note) (step : Step) (on : t.step.rank ≤ step.rank) :
        Course eng licence (view t) ((es ++ notes.map Effect.note).map .effect)
          { view t with step := step } := by
      refine Course.aside eng licence step ?_ (.inr ⟨bare, on⟩)
      intro e he
      exact (List.mem_append.mp he).elim (quiet e) (Silent.notes notes e)
    rcases answer with fault | _ | _
    · simpa [Follows, pollConnect, ha, hc, view] using
        polled [.carrierFailed fault] t.step (Nat.le_refl _)
    · simpa [Follows, pollConnect, ha, hc, view] using polled [] t.step (Nat.le_refl _)
    · simpa [Follows, pollConnect, ha, hc, setStep, view] using
        polled [.tlsStep t.step .initSession] .initSession (by simp [hs, Step.rank])

theorem initSession_advances (bare : t.layer.held = none) (hs : t.step = .initSession)
    (licensed : ∀ c, licence t.layer.options c receiver) :
    Advances eng licence view t (initSession eng net receiver) := by
  cases hc : t.socket with
  | none =>
    have nothing : (initSession eng net receiver).run t = ⟨.failed, t, []⟩ := by
      simp [initSession, hc]
    exact ⟨t.step, by rw [nothing]; exact .refl, .inl (by rw [nothing]; rfl)⟩
  | some socket =>
    have asked := Course.requestSession eng licence (v := view t) bare (by simp [view, hs, Step.rank])
      (licensed (.stream socket))
    simp only [view] at asked
    rcases hr : (Layer.requestSession eng (.stream socket) receiver t.engine).run t.layer with
      ⟨⟨_ | _, e⟩, l, es⟩
    · refine ⟨.failed, ?_, .inr ?_⟩
      · simpa [initSession, hc, onLayer, hr, view] using asked
      · simp [initSession, hc, onLayer, hr, view, hs]
    · have noted := asked.trans
        (Course.aside eng licence .handshake (.notes [.tlsStep t.step .handshake]) (.inl (by simp [hr])))
      refine ⟨.handshake, ?_, .inl ?_⟩
      · simpa [initSession, hc, onLayer, hr, setStep, view] using noted
      · simp [initSession, hc, onLayer, hr, setStep, view]

theorem advance_advances (sound : (view t).Sound) (licensed : ∀ o c, licence o c receiver) :
    Advances eng licence view t (advance eng net res receiver) := by
  have bare (hs : t.step ≠ .handshake) : t.layer.held = none := sound.bare hs
  cases hs : t.step with
  | resolve =>
    have polled : Follows eng licence view t (pollResolve res) :=
      pollResolve_follows eng res (bare (by simp [hs])) hs
    exact Follows.advances (by simpa [Follows, advance, hs] using polled)
  | connect =>
    have polled : Follows eng licence view t (pollConnect net) :=
      pollConnect_follows eng net (bare (by simp [hs])) hs
    exact Follows.advances (by simpa [Follows, advance, hs] using polled)
  | initSession =>
    simpa [Advances, advance, hs] using
      initSession_advances eng net receiver (bare (by simp [hs])) hs (licensed _)
  | handshake =>
    have shaken := Course.handshake eng licence (view t)
    exact Follows.advances (by simpa [Follows, advance, hs, onLayer, view] using shaken)
  | failed =>
    have noted := Course.aside eng licence (v := view t) t.step
      (.notes [.alreadyFailed]) (.inl rfl)
    exact Follows.advances (by simpa [Follows, advance, hs, view] using noted)
  | validate | validationFailed =>
    exact Follows.advances (by simpa [Follows, advance, hs, view] using Course.refl)

/-- The check decides which step comes next, and nothing else. -/
theorem validate_follows (bare : t.layer.held = none) (hs : t.step = .validate) :
    Follows eng licence view t validate := by
  have checked (notes : List Note) (step : Step) :
      Course eng licence (view t) ((notes.map Effect.note).map .effect) { view t with step := step } :=
    Course.aside eng licence step (.notes notes) (.inr ⟨bare, by simp [view, hs, Step.rank]⟩)
  cases hc : t.layer.options.isConsistent with
  | true =>
    simpa [Follows, validate, onLayer, Layer.checkConsistency, Options.checkConsistency, hc, setStep,
      view] using checked [.tlsStep t.step .resolve] .resolve
  | false =>
    simpa [Follows, validate, onLayer, Layer.checkConsistency, Options.checkConsistency, hc, setStep,
      view] using checked [.mismatchedCredentials, .tlsStep t.step .validationFailed] .validationFailed

/-- A poll of the open is a course of deeds. -/
theorem establish_course (sound : (view t).Sound) :
    let o := (establish eng net res receiver).run t
    Course eng (Upon (fun _ _ => True) [.establish receiver]) (view t)
      (o.events.map .effect ++ [.called (.establish o.answer)]) (view o.state) := by
  have licensed : ∀ o c, Upon (fun _ _ => True) [.establish receiver] o c receiver :=
    fun _ _ => ⟨trivial, List.mem_singleton.mpr rfl⟩
  by_cases hv : t.step = .validate
  · have run : (establish eng net res receiver).run t =
        ((validate >>= fun _ => advance eng net res receiver) >>= conclude net).run t := by
      simp [run_establish, hv]
    have before : Follows eng (Upon (fun _ _ => True) [.establish receiver]) view t validate :=
      validate_follows eng (sound.bare (by simp [view, hv])) hv
    have steps := Advances.behind before
      (advance_advances eng net res receiver (before.sound sound) licensed)
    rw [run]
    exact steps.conclude (ends net)
  · have run : (establish eng net res receiver).run t =
        (advance eng net res receiver >>= conclude net).run t := by
      simp [run_establish, hv]
    rw [run]
    exact (advance_advances eng net res receiver sound licensed).conclude (ends net)

/-- The keepalive option has nothing to do with the session. -/
theorem keepAlive_course (t : OverTcp ε σ ρ ω) (value : Setting) :
    let o := (setOption net optionNames.keepAlive value).run t
    Course eng licence (view t) (o.events.map .effect) (view o.state) := by
  have noted (notes : List Note) :
      Course eng licence (view t) ((notes.map Effect.note).map .effect) (view t) :=
    Course.aside eng licence t.step (.notes notes) (.inl rfl)
  cases hv : value.truth? with
  | none => simpa [setOption, hv] using noted []
  | some keepAlive =>
    cases hs : t.socket with
    | none =>
      by_cases held : t.layer.held.isSome = true
      · simpa [setOption, hv, hs, held, view] using noted [.keepAliveDeferred]
      · simpa [setOption, hv, hs, held, view] using noted []
    | some socket =>
      rcases hk : net.switchKeepAlive socket keepAlive t.network with ⟨switched, w⟩
      cases switched <;> simpa [setOption, hv, hs, hk, view] using noted []

/-- The transport does nothing else, whatever it is asked for. -/
theorem conduct (eng : Engine ε σ) (net : Network ω) (res : Resolver ρ) :
    Conduct eng (transport eng net res) view (fun _ => True) (fun _ _ => True) where
  serve q t _ sound := by
    refine ⟨trivial, ?_⟩
    cases q with
    | establish receiver =>
      have course := establish_course eng net res receiver sound
      simpa [Transport.serve, Transport.recorded, transport] using course
    | close =>
      obtain ⟨events, layer, engine, step⟩ := close_view net t
      have answer : ((close net).run t).answer = .done := by simp [close]
      have course := Course.closeCall eng (Upon (fun _ _ => True) [.close]) (view t) .done
      simpa [Transport.serve, Transport.recorded, transport, view, answer, events, layer, engine, step]
        using course
    | read =>
      have course := Course.read eng (Upon (fun _ _ => True) [.read]) (view t)
      simpa [Transport.serve, Transport.recorded, transport, onLayer, view] using course
    | write bytes =>
      have course := Course.write eng (Upon (fun _ _ => True) [.write bytes]) (view t) bytes
      simpa [Transport.serve, Transport.offer, Transport.recorded, transport, onLayer, view] using course
    | setOption name value =>
      by_cases hn : name = optionNames.keepAlive
      · subst hn
        have course :
            Course eng (Upon (fun _ _ => True) [.setOption optionNames.keepAlive value]) _ _ _ :=
          keepAlive_course eng net t value
        simpa [Transport.serve, Transport.unrecorded, transport] using course
      · have course :=
          Course.setOption eng (Upon (fun _ _ => True) [.setOption name value]) (view t) name value
        simpa [Transport.serve, Transport.unrecorded, transport, setOption, hn, onLayer, view]
          using course
    | retrieve => exact .refl
  read t := ⟨rfl, by simp [transport, onLayer, view], rfl⟩
  write bytes t := ⟨rfl, by simp [transport, onLayer, view], rfl⟩
  backlog t := rfl

end OverTcp

/-! ### Whole uses -/

section
variable {eng : Engine ε σ} {T : Transport τ} {view : τ → View ε σ} {fit : τ → Prop}
variable {licence : Options → Carrier → Prop} {t u : τ}

/-- **Direct use**: whatever a transport is asked for, its history is a course of deeds and calls. -/
theorem Conduct.run (conduct : Conduct eng T view fit licence) {qs : List Transport.Request}
    {es : List Transport.Event} (ht : fit t) (sound : (view t).Sound) (leads : T.Leads t qs es u) :
    fit u ∧ Course eng (Upon licence qs) (view t) es (view u) := by
  induction qs generalizing t es with
  | nil =>
    obtain ⟨rfl, rfl⟩ := leads
    exact ⟨ht, .refl⟩
  | cons q qs ih =>
    obtain ⟨rfl, rfl⟩ := leads
    obtain ⟨kept, first⟩ := conduct.serve q t ht sound
    obtain ⟨last, rest⟩ := ih kept (first.sound sound) ⟨rfl, rfl⟩
    refine ⟨by simpa [Transport.serveAll_cons, Transport.serveAll_nil] using last, ?_⟩
    -- Each request licenses its own session only, so all of them license all.
    have head := first.mono (Upon licence (q :: qs)) fun _ _ _ upon =>
      ⟨upon.1, by simp [List.mem_singleton.mp upon.2]⟩
    have tail := rest.mono (Upon licence (q :: qs)) fun _ _ _ upon =>
      ⟨upon.1, List.mem_cons_of_mem _ upon.2⟩
    simpa [Transport.serveAll_cons, Transport.serveAll_nil] using head.trans tail

/-- First options request no session. -/
theorem Conduct.applyAll (conduct : Conduct eng T view fit licence)
    (options : List (String × Setting)) (ht : fit t) (sound : (view t).Sound) :
    let o := (T.applyAll options).run t
    fit o.state ∧ Course eng (fun _ _ _ => False) (view t) (o.events.map .effect) (view o.state) := by
  induction options generalizing t with
  | nil => exact ⟨ht, .refl⟩
  | cons option rest ih =>
    obtain ⟨name, value⟩ := option
    obtain ⟨kept, course⟩ := conduct.serve (.setOption name value) t ht sound
    have first : Course eng (fun _ _ _ => False) (view t)
        (((T.setOption name value).run t).events.map .effect)
        (view ((T.setOption name value).run t).state) := by
      have bare := course.mono (fun _ _ _ => False) fun _ _ _ upon => by simp [Upon] at upon
      simpa [Transport.serve, Transport.unrecorded] using bare
    have kept : fit ((T.setOption name value).run t).state := by
      simpa [Transport.serve, Transport.unrecorded] using kept
    cases answer : ((T.setOption name value).run t).answer with
    | error fault => simpa [Transport.applyAll_cons, answer] using ⟨kept, first⟩
    | ok =>
      obtain ⟨last, others⟩ := ih kept (first.sound sound)
      simpa [Transport.applyAll_cons, answer] using ⟨last, first.trans others⟩

/-- A view of a transport that was never opened. -/
structure View.Fresh (engine : ε) (v : View ε σ) : Prop where
  held : v.layer.held = none
  receiver : v.layer.receiver = none
  engine : v.engine = engine
  step : v.step = .validate

theorem View.Fresh.sound {engine : ε} {v : View ε σ} (fresh : v.Fresh engine) : v.Sound where
  receiver held := by simp [fresh.held] at held
  step held := by simp [fresh.held] at held

/-- The making of a transport is the beginning of a course, and requests no session. -/
def Begins (eng : Engine ε σ) (view : τ → View ε σ) (fit : τ → Prop) (engine : ε)
    (made : Transport.Creation τ) : Prop :=
  ∃ v w, View.Fresh engine v ∧
    Course eng (fun _ _ _ => False) v (made.effects.map .effect) w ∧
      ∀ t, made.result = .ok t → fit t ∧ view t = w

theorem Conduct.configured (conduct : Conduct eng T view fit licence) {engine : ε}
    (options : Settings) (ht : fit t) (fresh : (view t).Fresh engine) :
    Begins eng view fit engine (T.configured t options) := by
  obtain ⟨kept, course⟩ := conduct.applyAll options.entries ht fresh.sound
  refine ⟨view t, _, fresh, course, fun s made => ?_⟩
  obtain ⟨-, rfl⟩ := Transport.of_configured made
  exact ⟨kept, rfl⟩

/-- Where the endpoint is refused, nothing begins. -/
theorem begins_refused {made : Transport.Creation τ} {engine : ε} {endpoint : Endpoint}
    {fault : Fault} {effects : List Effect} (h : Layer.validate endpoint = (.error fault, effects))
    (result : made = ⟨.error fault, effects⟩) : Begins eng view fit engine made := by
  subst result
  let v : View ε σ := ⟨.fresh endpoint (eng.capabilities engine), engine, .validate⟩
  have silent : Silent effects := by
    unfold Layer.validate at h
    split at h
    · simp at h
    · rw [← (Prod.mk.inj h).2]
      exact Silent.notes [.endpointRefused]
  exact ⟨v, v, ⟨rfl, rfl, rfl, rfl⟩, Course.aside eng _ .validate silent (.inl rfl), by simp⟩

theorem OverGiven.create_begins (eng : Engine ε σ) (engine : ε) (carrier : Carrier)
    (endpoint : Endpoint) :
    Begins eng OverGiven.view (OverGiven.Fit carrier) engine
      (OverGiven.create eng engine carrier endpoint) := by
  unfold OverGiven.create
  split
  · exact begins_refused ‹_› rfl
  · exact (OverGiven.conduct eng carrier).configured _ ⟨fun c h => (Option.some.inj h).symm, by
      simp [OverGiven.fresh]⟩ ⟨rfl, rfl, rfl, rfl⟩

theorem OverTcp.create_begins (eng : Engine ε σ) (net : Network ω) (res : Resolver ρ) (engine : ε)
    (resolver : ρ) (network : ω) (endpoint : Endpoint) :
    Begins eng OverTcp.view (fun _ => True) engine
      (OverTcp.create eng net res engine resolver network endpoint) := by
  unfold OverTcp.create
  split
  · exact begins_refused ‹_› rfl
  · exact (OverTcp.conduct eng net res).configured _ trivial ⟨rfl, rfl, rfl, rfl⟩

/-- A transport that was made over a carrier has it, and the check of its options is ahead. -/
theorem OverGiven.create_ready {eng : Engine ε σ} {engine : ε} {carrier : Carrier}
    {endpoint : Endpoint} {t : OverGiven ε σ}
    (made : (OverGiven.create eng engine carrier endpoint).result = .ok t) :
    t.step = .validate ∧ t.carrier = some carrier := by
  unfold OverGiven.create at made
  split at made
  · simp at made
  · refine Transport.configured_invariant (fun t => t.step = .validate ∧ t.carrier = some carrier)
      made (fun name value s ready => ?_) ⟨rfl, rfl⟩
    exact ready

/-- Whatever a transport that was made is asked for, its session is accounted for. -/
theorem Conduct.sound (conduct : Conduct eng T view fit licence) {engine : ε}
    {made : Transport.Creation τ} (begins : Begins eng view fit engine made)
    (result : made.result = .ok t) (qs : List Transport.Request) :
    (view ((T.serveAll qs).run t).state).Sound := by
  obtain ⟨v, w, fresh, course, ends⟩ := begins
  obtain ⟨kept, rfl⟩ := ends t result
  have sound : (view t).Sound := course.sound fresh.sound
  have leads : T.Leads t qs ((T.serveAll qs).run t).events ((T.serveAll qs).run t).state := ⟨rfl, rfl⟩
  obtain ⟨-, later⟩ := conduct.run kept sound leads
  exact later.sound sound

/-- The history of a transport that is used directly, from its making on. -/
def directly (T : Transport τ) (made : Transport.Creation τ) (qs : List Transport.Request) :
    List Transport.Event :=
  made.effects.map .effect ++
    match made.result with
    | .ok t => ((T.serveAll qs).run t).events
    | .error _ => []

/-- From the making on, all that a transport does is one course from a fresh view. -/
theorem Conduct.directly (conduct : Conduct eng T view fit licence) {engine : ε}
    {made : Transport.Creation τ} (begins : Begins eng view fit engine made)
    (qs : List Transport.Request) :
    ∃ v w, View.Fresh engine v ∧ Course eng (Upon licence qs) v (directly T made qs) w ∧
      ∀ t, made.result = .ok t → view ((T.serveAll qs).run t).state = w := by
  obtain ⟨v, w, fresh, course, result⟩ := begins
  have begun := course.mono (Upon licence qs) fun _ _ _ never => never.elim
  unfold Tls.directly
  cases made' : made.result with
  | error fault => exact ⟨v, w, fresh, by simpa using begun, by simp⟩
  | ok t =>
    obtain ⟨ht, rfl⟩ := result t made'
    obtain ⟨-, used⟩ := conduct.run ht (begun.sound fresh.sound) ⟨rfl, rfl⟩
    exact ⟨v, _, fresh, begun.trans used, by simp⟩

/-- So is all that the transport of a connection does, from its making on. -/
theorem Conduct.history (conduct : Conduct eng T view fit licence) {engine : ε}
    {made : Transport.Creation τ} (begins : Begins eng view fit engine made)
    (rs : List Connection.Request) (destroyed : Bool) :
    ∃ v w, View.Fresh engine v ∧
      Course eng (fun _ _ _ => True) v (Connection.transported (history T made rs destroyed)) w ∧
      ∀ t, made.result = .ok t →
        view ((Connection.live T rs destroyed).run (Connection.ofTransport t)).state.transport = w := by
  obtain ⟨v, w, fresh, course, result⟩ := begins
  have begun := course.mono (fun _ _ _ => True) fun _ _ _ never => never.elim
  unfold Tls.history Connection.create
  cases made' : made.result with
  | error fault =>
    have events : Connection.transported
        (Connection.inside made.effects ++ [.note (.createFailed fault)]) =
          made.effects.map .effect := by
      simp [Event.transport?]
    refine ⟨v, w, fresh, ?_, by simp⟩
    rw [← events] at begun
    exact begun
  | ok t =>
    obtain ⟨ht, rfl⟩ := result t made'
    obtain ⟨qs, leads, -⟩ := Connection.live_driven T t rs destroyed
    obtain ⟨-, used⟩ := conduct.run ht (begun.sound fresh.sound) leads
    have all := begun.trans (used.mono (fun _ _ _ => True) fun _ _ _ _ => trivial)
    rw [← Connection.transported_inside, ← Connection.transported_append] at all
    refine ⟨v, _, fresh, all, fun s same => ?_⟩
    rw [← Except.ok.inj same]

end

end Tls

end PolledConnection
