import PolledConnection.Proofs.Connection.Driven

/-! # The life of a session

  A transport may have one session in its custody. What its operations do with
  it is a short list of laws (`Custody`): an open gets the session and then
  advances its handshake, a handshake that fails gives it back at once, and a
  close gives it back in any case.

  The laws say nothing about the order of operations. That comes from the
  connection on top: in each of its phases the session can only be in some
  stages (`stages`), and every move keeps it there (`Kept.step`). What was done
  with the session up to a stage is a word (`Stage.Word`), so all that was
  ever done with it is one.
-/

namespace PolledConnection

namespace Tls

/-! ### Uses of a session -/

/-- What is done with a session. -/
inductive Use where
  /-- The engine is asked for one, and creates it or does not. -/
  | request (created : Bool)
  /-- Its handshake is advanced. -/
  | handshake (answer : Progress)
  /-- Application bytes are read from it. -/
  | read
  /-- Application bytes are written to it. -/
  | write
  /-- It is closed. -/
  | close
deriving DecidableEq

/-- Whether a use moves application bytes. -/
def Use.flows : Use → Bool
  | .read | .write => true
  | .request _ | .handshake _ | .close => false

end Tls

/-- What an effect does with a session. -/
def Effect.use? : Effect → Option Tls.Use
  | .sessionRequested _ _ _ _ (.ok ()) => some (.request true)
  | .sessionRequested _ _ _ _ (.error _) => some (.request false)
  | .handshake answer => some (.handshake answer)
  | .sessionRead .. => some .read
  | .sessionWrite .. => some .write
  | .sessionClosed => some .close
  | _ => none

@[simp] theorem Effect.use?_note (note : Note) : (Effect.note note).use? = none := rfl

@[simp] theorem Effect.use?_received (tag : Tag) (bytes : Bytes) :
    (Effect.received tag bytes).use? = none := rfl

/-- What an event of a transport does with a session. -/
def Transport.Event.use? : Transport.Event → Option Tls.Use
  | .effect e => e.use?
  | .called _ => none

namespace Tls

open Connection (Moves Move called inside transported)

variable {τ : Type} {T : Transport τ} {us : List Use} {es fs : List Event} {effects : List Effect}

/-- What effects do with a session. -/
def used (effects : List Effect) : List Use := effects.filterMap Effect.use?

@[simp] theorem used_nil : used [] = [] := rfl

@[simp] theorem used_append (first second : List Effect) :
    used (first ++ second) = used first ++ used second :=
  List.filterMap_append

@[simp] theorem used_cons (e : Effect) (effects : List Effect) :
    used (e :: effects) = e.use?.toList ++ used effects := by
  cases h : e.use? with
  | none => exact List.filterMap_cons_none h
  | some use => exact List.filterMap_cons_some h

/-- What a history does with a session. -/
def uses (es : List Event) : List Use := (transported es).filterMap Transport.Event.use?

@[simp] theorem uses_append (es fs : List Event) : uses (es ++ fs) = uses es ++ uses fs := by
  simp [uses]

/-- What does not reach the transport does nothing with the session. -/
theorem uses_append_silent (h : transported fs = []) : uses (es ++ fs) = uses es := by
  have nothing : uses fs = [] := by simp [uses, h]
  rw [uses_append, nothing, List.append_nil]

@[simp] theorem uses_inside (effects : List Effect) : uses (inside effects) = used effects := by
  simp [uses, used, List.filterMap_map, Function.comp_def, Transport.Event.use?]

/-- What a call does with the session happens inside. -/
theorem uses_append_call (call : Transport.Call) (h : transported fs = []) :
    uses (es ++ (inside effects ++ called call :: fs)) = uses es ++ used effects := by
  have rest : uses (called call :: fs) = [] := by
    simp [uses, h, Event.transport?, Transport.Event.use?]
  rw [uses_append, uses_append, uses_inside, rest, List.append_nil]

/-! ### Stages -/

/-- How far a session has come. -/
inductive Stage where
  /-- The engine was not asked for it. -/
  | unasked
  /-- The engine has not created it. -/
  | refused
  /-- Its handshake goes on. -/
  | shaking
  /-- It can be read and written. -/
  | flowing
  /-- It is closed. -/
  | finished
deriving DecidableEq

/-- Whether there is a session. -/
def Stage.isHeld : Stage → Bool
  | .shaking | .flowing => true
  | .unasked | .refused | .finished => false

/-- What can happen between the handshakes that wait and the close. -/
inductive Core : List Use → Prop where
  /-- The handshake has not ended. -/
  | unfinished : Core []
  /-- The handshake has failed. -/
  | failed : Core [.handshake .failed]
  /-- The handshake has succeeded, and bytes were read and written. -/
  | flowed {ios : List Use} (h : ∀ u ∈ ios, u.flows = true) : Core (.handshake .done :: ios)

/-- What was done with the session up to a stage. -/
def Stage.Word : Stage → List Use → Prop
  | .unasked, us => us = []
  | .refused, us => us = [.request false]
  | .shaking, us => ∃ w, us = .request true :: List.replicate w (.handshake .waiting)
  | .flowing, us => ∃ w ios, (∀ u ∈ ios, u.flows = true) ∧
      us = .request true :: (List.replicate w (.handshake .waiting) ++ .handshake .done :: ios)
  | .finished, us => ∃ w core, Core core ∧
      us = .request true :: (List.replicate w (.handshake .waiting) ++ core ++ [.close])

namespace Stage.Word

theorem asks (h : Stage.Word .unasked us) : Stage.Word .shaking (us ++ [.request true]) := by
  have nothing : us = [] := h
  exact ⟨0, by simp [nothing]⟩

theorem isRefused (h : Stage.Word .unasked us) : Stage.Word .refused (us ++ [.request false]) := by
  have nothing : us = [] := h
  show us ++ [.request false] = [.request false]
  rw [nothing, List.nil_append]

theorem waits (h : Stage.Word .shaking us) : Stage.Word .shaking (us ++ [.handshake .waiting]) := by
  obtain ⟨w, rfl⟩ := h
  exact ⟨w + 1, by rw [List.replicate_succ', List.cons_append]⟩

theorem succeeds (h : Stage.Word .shaking us) : Stage.Word .flowing (us ++ [.handshake .done]) := by
  obtain ⟨w, rfl⟩ := h
  exact ⟨w, [], by simp, rfl⟩

theorem fails (h : Stage.Word .shaking us) :
    Stage.Word .finished (us ++ [.handshake .failed, .close]) := by
  obtain ⟨w, rfl⟩ := h
  exact ⟨w, _, .failed, by simp⟩

theorem flows (h : Stage.Word .flowing us) {u : Use} (hu : u.flows = true) :
    Stage.Word .flowing (us ++ [u]) := by
  obtain ⟨w, ios, flow, rfl⟩ := h
  refine ⟨w, ios ++ [u], ?_, by simp⟩
  intro v hv
  rcases List.mem_append.mp hv with before | last
  · exact flow v before
  · rw [List.mem_singleton.mp last]
    exact hu

/-- A session can be closed at any time. -/
theorem closes {stage : Stage} (h : stage.Word us) (held : stage.isHeld = true) :
    Stage.Word .finished (us ++ [.close]) := by
  cases stage with
  | unasked | refused | finished => simp [Stage.isHeld] at held
  | shaking =>
    obtain ⟨w, rfl⟩ := h
    exact ⟨w, [], .unfinished, by simp⟩
  | flowing =>
    obtain ⟨w, ios, flow, rfl⟩ := h
    exact ⟨w, _, .flowed flow, by simp⟩

end Stage.Word

/-! ### Custody -/

/-- What an open comes to that finds no session. -/
inductive Attempt (bare holds : τ → Prop) (o : Outcome Effect τ Progress) : Prop where
  /-- It does not ask for one. -/
  | nothing (uses : used o.events = []) (answer : o.answer ≠ .done) (state : bare o.state)
  /-- It gets one. -/
  | created (uses : used o.events = [.request true]) (answer : o.answer = .waiting)
      (state : holds o.state)
  /-- It is refused one. -/
  | refused (uses : used o.events = [.request false]) (answer : o.answer = .failed)
      (state : bare o.state)

/-- What an open comes to that finds a session. -/
inductive Advance (bare holds : τ → Prop) (o : Outcome Effect τ Progress) : Prop where
  /-- The handshake goes on, or succeeds. -/
  | goesOn (uses : used o.events = [.handshake o.answer]) (answer : o.answer ≠ .failed)
      (state : holds o.state)
  /-- The handshake fails, and the session is closed. -/
  | givesUp (uses : used o.events = [.handshake .failed, .close]) (answer : o.answer = .failed)
      (state : bare o.state)

/-- What the operations of a transport do with its session. In its states `bare` it has none, in its
    states `holds` it has one to go on with. -/
structure Custody (T : Transport τ) (bare holds : τ → Prop) : Prop where
  attempt : ∀ receiver t, bare t → Attempt bare holds ((T.establish receiver).run t)
  advance : ∀ receiver t, holds t → Advance bare holds ((T.establish receiver).run t)
  read : ∀ t, holds t → used (T.read.run t).events = [.read] ∧ holds (T.read.run t).state
  write : ∀ bytes t, holds t →
    used ((T.write bytes).run t).events = [.write] ∧ holds ((T.write bytes).run t).state
  /-- A close closes the session, if there is one. -/
  close_bare : ∀ t, bare t → used (T.close.run t).events = [] ∧ bare (T.close.run t).state
  close_holds : ∀ t, holds t → used (T.close.run t).events = [.close] ∧ bare (T.close.run t).state
  setOption : ∀ name value t,
    used ((T.setOption name value).run t).events = [] ∧
      (bare t → bare ((T.setOption name value).run t).state) ∧
      (holds t → holds ((T.setOption name value).run t).state)

/-- The stages that a session can be in while the connection is in a phase. -/
def stages : Phase → List Stage
  | .initial => [.unasked]
  | .opening => [.unasked, .shaking]
  | .opened => [.flowing]
  | .failed => [.unasked, .refused, .flowing, .finished]
  | .closing => [.unasked, .refused, .shaking, .flowing, .finished]
  | .closed => [.unasked, .refused, .finished]

/-- The session is in a stage that the phase allows, and the transport has it as long as there is
    one. -/
def Kept (bare holds : τ → Prop) (phase : Phase) (us : List Use) (t : τ) : Prop :=
  ∃ stage ∈ stages phase, stage.Word us ∧ if stage.isHeld then holds t else bare t

namespace Kept

variable {bare holds : τ → Prop} {phase : Phase} {t s : τ}

/-- The phase goes on, and nothing is done with the session. -/
theorem advance (h : Kept bare holds phase us t) (later : Phase)
    (fits : ∀ stage ∈ stages phase, stage ∈ stages later) : Kept bare holds later us t := by
  obtain ⟨stage, member, word, has⟩ := h
  exact ⟨stage, fits stage member, word, has⟩

theorem setOption (custody : Custody T bare holds) (h : Kept bare holds phase us t)
    {name : String} {value : Setting} {r : Except Fault Unit}
    (run : (T.setOption name value).run t = ⟨r, s, effects⟩) :
    Kept bare holds phase (us ++ used effects) s := by
  obtain ⟨stage, member, word, has⟩ := h
  have law := custody.setOption name value t
  rw [run] at law
  obtain ⟨nothing, bares, held⟩ := law
  rw [nothing, List.append_nil]
  refine ⟨stage, member, word, ?_⟩
  split
  · exact held (by simpa [*] using has)
  · exact bares (by simpa [*] using has)

/-- The phase in which a poll of the open leaves a connection. -/
def behindOpen : Progress → Phase
  | .waiting => .opening
  | .done => .opened
  | .failed => .failed

theorem establish (custody : Custody T bare holds) (h : Kept bare holds .opening us t)
    {receiver : Receiver} {a : Progress} (run : (T.establish receiver).run t = ⟨a, s, effects⟩) :
    Kept bare holds (behindOpen a) (us ++ used effects) s := by
  obtain ⟨stage, member, word, has⟩ := h
  have stage : stage = .unasked ∨ stage = .shaking := by simpa [stages] using member
  rcases stage with rfl | rfl
  · have law := custody.attempt receiver t has
    rw [run] at law
    cases law with
    | nothing uses answer state =>
      rw [show used effects = [] from uses, List.append_nil]
      refine ⟨.unasked, ?_, word, state⟩
      cases a with
      | waiting | failed => decide
      | done => contradiction
    | created uses answer state =>
      obtain rfl : a = .waiting := answer
      rw [show used effects = [.request true] from uses]
      exact ⟨.shaking, by decide, word.asks, state⟩
    | refused uses answer state =>
      obtain rfl : a = .failed := answer
      rw [show used effects = [.request false] from uses]
      exact ⟨.refused, by decide, word.isRefused, state⟩
  · have law := custody.advance receiver t has
    rw [run] at law
    cases law with
    | goesOn uses answer state =>
      rw [show used effects = [.handshake a] from uses]
      cases a with
      | waiting => exact ⟨.shaking, by decide, word.waits, state⟩
      | done => exact ⟨.flowing, by decide, word.succeeds, state⟩
      | failed => contradiction
    | givesUp uses answer state =>
      obtain rfl : a = .failed := answer
      rw [show used effects = [.handshake .failed, .close] from uses]
      exact ⟨.finished, by decide, word.fails, state⟩

theorem flows (h : Kept bare holds .opened us t) {u : Use} (hu : u.flows = true)
    (law : holds t → used effects = [u] ∧ holds s) :
    Kept bare holds .opened (us ++ used effects) s := by
  obtain ⟨stage, member, word, has⟩ := h
  obtain rfl : stage = .flowing := by simpa [stages] using member
  obtain ⟨one, holds⟩ := law has
  rw [one]
  exact ⟨.flowing, member, word.flows hu, holds⟩

theorem read (custody : Custody T bare holds) (h : Kept bare holds .opened us t) {a : Progress}
    (run : T.read.run t = ⟨a, s, effects⟩) : Kept bare holds .opened (us ++ used effects) s := by
  have law := custody.read t
  rw [run] at law
  exact h.flows (u := .read) rfl law

theorem write (custody : Custody T bare holds) (h : Kept bare holds .opened us t) {bytes : Bytes}
    {a : Count} (run : (T.write bytes).run t = ⟨a, s, effects⟩) :
    Kept bare holds .opened (us ++ used effects) s := by
  have law := custody.write bytes t
  rw [run] at law
  exact h.flows (u := .write) rfl law

/-- Closing gives the session back, if there is one. -/
theorem close (custody : Custody T bare holds) (h : Kept bare holds phase us t) {a : Progress}
    (run : T.close.run t = ⟨a, s, effects⟩) : Kept bare holds .closed (us ++ used effects) s := by
  obtain ⟨stage, -, word, has⟩ := h
  cases hs : stage.isHeld with
  | true =>
    have law := custody.close_holds t (by simpa [hs] using has)
    rw [run] at law
    obtain ⟨one, bare⟩ := law
    rw [one]
    exact ⟨.finished, by decide, word.closes hs, bare⟩
  | false =>
    have law := custody.close_bare t (by simpa [hs] using has)
    rw [run] at law
    obtain ⟨nothing, bare⟩ := law
    rw [nothing, List.append_nil]
    refine ⟨stage, ?_, word, by simpa [hs] using bare⟩
    cases stage with
    | unasked | refused | finished => decide
    | shaking | flowing => simp [Stage.isHeld] at hs

/-- **Step**: every move keeps the session in a stage of its phase. -/
theorem step (custody : Custody T bare holds) {hs : List Connection.Grant} {c d : Connection τ}
    (h : Kept bare holds c.phase (uses es) c.transport) (move : Move T c hs fs d) :
    Kept bare holds d.phase (uses (es ++ fs)) d.transport := by
  cases move with
  -- Moves without a call.
  | refuse | queue =>
    rw [uses_append_silent (by simp [Event.transport?])]
    exact h
  | beginOpen tag hp =>
    rw [hp] at h
    rw [uses_append_silent (by simp [Event.transport?])]
    exact h.advance .opening (by decide)
  | beginClose tag hp =>
    rw [uses_append_silent (by simp [Event.transport?])]
    rcases hp with hp | hp
    · rw [hp] at h
      exact h.advance .closing (by decide)
    · rw [hp] at h
      exact h.advance .closing (by decide)
  | breakOpen _ hp | dropOpen hp =>
    rw [hp] at h
    rw [uses_append_silent (by simp [Event.transport?])]
    exact h.advance .closing (by decide)
  -- Moves with a call, whose effects tell what it did with the session.
  | offer run =>
    rw [uses_append, uses_inside]
    exact h.setOption custody run
  | openWaits hp _ run | openDone hp _ run | openFails hp _ run =>
    rw [hp] at h
    rw [uses_append_call _ (by simp [Event.transport?])]
    simpa [hp, behindOpen] using h.establish custody run
  | read hp _ run =>
    rw [hp] at h
    rw [uses_append_call _ rfl]
    simpa [hp] using h.read custody run
  | readFails hp run =>
    rw [hp] at h
    rw [uses_append_call _ (by simp [Event.transport?])]
    exact (h.read custody run).advance .failed (by decide)
  | writeStays hp _ run _ | writeEnds hp _ run _ _ =>
    rw [hp] at h
    rw [uses_append_call _ (by simp [Event.transport?])]
    simpa [hp] using h.write custody run
  | writeFails hp _ run =>
    rw [hp] at h
    rw [uses_append_call _ (by simp [Event.transport?])]
    exact (h.write custody run).advance .failed (by decide)
  | closeWaits hp run =>
    rw [uses_append_call _ rfl]
    simpa [hp] using (h.close custody run).advance .closing (by decide)
  | closeEnds _ _ run | destroy _ run =>
    rw [uses_append_call _ (by simp)]
    exact h.close custody run

/-- **Run**: so does every sequence of moves. -/
theorem run (custody : Custody T bare holds) {gs : List Connection.Grant} {c d : Connection τ}
    (es : List Event) (h : Kept bare holds c.phase (uses es) c.transport) (moves : Moves T c gs fs d) :
    Kept bare holds d.phase (uses (es ++ fs)) d.transport := by
  induction moves with
  | refl => simpa using h
  | snoc _ last ih =>
    rw [← List.append_assoc]
    exact ih.step custody last

end Kept

/-! ### Lifecycles -/

/-- All that was ever done with the session of a connection. -/
structure Lifecycle (destroyed : Bool) (us : List Use) : Prop where
  /-- It is the word of a stage, and a destruction leaves no session behind. -/
  word : ∃ stage : Stage, stage.Word us ∧ (destroyed = true → stage.isHeld = false)
  /-- The engine is asked at most once. -/
  once : us.count (.request true) + us.count (.request false) ≤ 1
  /-- Bytes move only behind a handshake that has succeeded, and not behind one that has failed or
      behind the close. -/
  traffic : ∀ pre u post, us = pre ++ u :: post → u.flows = true →
    .handshake .done ∈ pre ∧ .handshake .failed ∉ pre ∧ .close ∉ pre
  /-- A destruction leaves a session that was created closed, once. -/
  closed : destroyed = true → us.count .close = us.count (.request true)

/-- What lies neither before a stretch of a list nor behind it lies in it. -/
theorem split_between {α : Type} {front mid tail pre post : List α} {u : α}
    (h : front ++ (mid ++ tail) = pre ++ u :: post) (early : u ∉ front) (late : u ∉ tail) :
    ∃ as bs, pre = front ++ as ∧ mid = as ++ u :: bs := by
  rcases List.append_eq_append_iff.mp h with ⟨as, rfl, behind⟩ | ⟨as, rfl, behind⟩
  · -- The stretch before `u` ends behind `front`.
    rcases List.append_eq_append_iff.mp behind with ⟨bs, rfl, rest⟩ | ⟨bs, rfl, rest⟩
    · simp [rest] at late
    · cases bs with
      | nil =>
        rw [List.nil_append] at rest
        simp [← rest] at late
      | cons b bs =>
        obtain ⟨rfl, -⟩ := List.cons.inj rest
        exact ⟨as, bs, rfl, rfl⟩
  · cases as with
    | nil =>
      cases mid with
      | nil =>
        simp only [List.nil_append] at behind
        simp [← behind] at late
      | cons m mid =>
        obtain ⟨rfl, -⟩ := List.cons.inj behind
        exact ⟨[], mid, by simp, rfl⟩
    | cons a as =>
      obtain ⟨rfl, -⟩ := List.cons.inj behind
      simp at early

/-- Among reads and writes there is no other use. -/
theorem not_mem_of_flows {ios : List Use} {u : Use} (flow : ∀ v ∈ ios, v.flows = true)
    (hu : u.flows = false) : u ∉ ios := by
  intro member
  simp [flow u member] at hu

/-- Between handshakes and close, no session is asked for or closed. -/
theorem Core.not_mem {core : List Use} (h : Core core) : .close ∉ core ∧ ∀ b, .request b ∉ core := by
  cases h with
  | unfinished | failed => simp
  | flowed flow =>
    have close := not_mem_of_flows flow (u := .close) rfl
    have request (b : Bool) := not_mem_of_flows flow (u := .request b) rfl
    simp [close, request]

namespace Stage.Word

variable {stage : Stage}

/-- How often the session was asked for and closed. -/
theorem counts (h : stage.Word us) :
    us.count (.request true) + us.count (.request false) ≤ 1 ∧
      (stage.isHeld = false → us.count .close = us.count (.request true)) := by
  cases stage with
  | unasked =>
    obtain rfl : us = [] := h
    decide
  | refused =>
    obtain rfl : us = [.request false] := h
    decide
  | shaking =>
    obtain ⟨w, rfl⟩ := h
    simp [List.count_replicate, Stage.isHeld]
  | flowing =>
    obtain ⟨w, ios, flow, rfl⟩ := h
    have request (b : Bool) : ios.count (.request b) = 0 :=
      List.count_eq_zero.mpr (not_mem_of_flows flow rfl)
    simp [List.count_append, List.count_replicate, request, Stage.isHeld]
  | finished =>
    obtain ⟨w, core, life, rfl⟩ := h
    obtain ⟨close, request⟩ := life.not_mem
    simp [List.count_append, List.count_replicate, List.count_eq_zero.mpr close,
      fun b => List.count_eq_zero.mpr (request b)]

/-- Where bytes move, the handshake has succeeded, and the session is not closed. -/
theorem traffic (h : stage.Word us) {pre post : List Use} {u : Use} (split : us = pre ++ u :: post)
    (flow : u.flows = true) :
    .handshake .done ∈ pre ∧ .handshake .failed ∉ pre ∧ .close ∉ pre := by
  -- They move between the handshake and the close only.
  have between (w : Nat) (ios tail : List Use) (flows : ∀ u ∈ ios, u.flows = true)
      (ends : tail = [] ∨ tail = [.close])
      (all : us = (.request true :: (List.replicate w (.handshake .waiting) ++ [.handshake .done])) ++
        (ios ++ tail)) :
      .handshake .done ∈ pre ∧ .handshake .failed ∉ pre ∧ .close ∉ pre := by
    have early : u ∉ .request true ::
        (List.replicate w (.handshake .waiting) ++ [.handshake .done]) := by
      intro member
      simp only [List.mem_cons, List.mem_append, List.mem_replicate, List.not_mem_nil,
        or_false] at member
      rcases member with rfl | ⟨-, rfl⟩ | rfl <;> simp [Use.flows] at flow
    have late : u ∉ tail := by
      rcases ends with rfl | rfl
      · simp
      · intro member
        rw [List.mem_singleton.mp member] at flow
        simp [Use.flows] at flow
    obtain ⟨as, bs, rfl, rfl⟩ := split_between (all.symm.trans split) early late
    have some : ∀ v ∈ as, v.flows = true := fun v hv => flows v (List.mem_append_left _ hv)
    have failed := not_mem_of_flows some (u := .handshake .failed) rfl
    have close := not_mem_of_flows some (u := .close) rfl
    simp [failed, close]
  have never (none : ∀ v ∈ us, v.flows = false) : False := by
    have moved := none u (by simp [split])
    simp [flow] at moved
  cases stage with
  | unasked =>
    obtain rfl : us = [] := h
    exact (never (by simp)).elim
  | refused =>
    obtain rfl : us = [.request false] := h
    exact (never (by simp [Use.flows])).elim
  | shaking =>
    obtain ⟨w, rfl⟩ := h
    exact (never (by simp [Use.flows])).elim
  | flowing =>
    obtain ⟨w, ios, flows, rfl⟩ := h
    exact between w ios [] flows (.inl rfl) (by simp)
  | finished =>
    obtain ⟨w, core, life, rfl⟩ := h
    cases life with
    | unfinished => exact (never (by simp [Use.flows, or_imp, forall_and])).elim
    | failed => exact (never (by simp [Use.flows, or_imp, forall_and])).elim
    | @flowed ios flows => exact between w ios [.close] flows (.inr rfl) (by simp)

end Stage.Word

/-- **The life of a session.** In every life of a connection over a transport that keeps the laws,
    from a state without a session. -/
theorem Custody.lifecycle {bare holds : τ → Prop} (custody : Custody T bare holds) {t : τ}
    (ht : bare t) (rs : List Connection.Request) (destroyed : Bool) :
    Lifecycle destroyed
      (uses ((Connection.live T rs destroyed).run (Connection.ofTransport t)).events) := by
  have first : Kept bare holds .initial [] t := ⟨.unasked, by decide, rfl, ht⟩
  obtain ⟨stage, member, word, -⟩ :=
    Kept.run custody [] first (Connection.live_moves T t rs destroyed)
  -- A connection that was destroyed is as new or closed, and there is no session in these phases.
  have gone (dead : destroyed = true) : stage.isHeld = false := by
    subst dead
    have phase : ((Connection.live T rs true).run (Connection.ofTransport t)).state.phase = .initial ∨
        ((Connection.live T rs true).run (Connection.ofTransport t)).state.phase = .closed := by
      simpa [Connection.live] using
        Connection.destroy_phase T ((Connection.serveAll T rs).run (Connection.ofTransport t)).state
    rcases phase with initial | closed
    · rw [initial] at member
      have none : ∀ stage ∈ stages .initial, stage.isHeld = false := by decide
      exact none stage member
    · rw [closed] at member
      have none : ∀ stage ∈ stages .closed, stage.isHeld = false := by decide
      exact none stage member
  exact {
    word := ⟨stage, word, gone⟩
    once := word.counts.1
    traffic := fun _ _ _ split flow => word.traffic split flow
    closed := fun dead => word.counts.2 (gone dead) }

/-- While a connection is open, its transport has a session. -/
theorem Custody.holds_opened {bare holds : τ → Prop} (custody : Custody T bare holds) {t : τ}
    (ht : bare t) (rs : List Connection.Request)
    (hp : ((Connection.serveAll T rs).run (Connection.ofTransport t)).state.phase = .opened) :
    holds ((Connection.serveAll T rs).run (Connection.ofTransport t)).state.transport := by
  have first : Kept bare holds .initial [] t := ⟨.unasked, by decide, rfl, ht⟩
  obtain ⟨stage, member, -, has⟩ :=
    Kept.run custody [] first (Connection.serveAll_moves T rs (Connection.ofTransport t))
  rw [hp] at member
  obtain rfl : stage = .flowing := by simpa [stages] using member
  exact has

/-! ### From the making on -/

/-- First options do nothing with a session. -/
theorem Custody.applyAll {bare holds : τ → Prop} (custody : Custody T bare holds)
    (options : List (String × Setting)) {t : τ} (ht : bare t) :
    used ((T.applyAll options).run t).events = [] ∧ bare ((T.applyAll options).run t).state := by
  induction options generalizing t with
  | nil => exact ⟨rfl, ht⟩
  | cons option rest ih =>
    obtain ⟨name, value⟩ := option
    obtain ⟨nothing, bares, -⟩ := custody.setOption name value t
    cases answer : ((T.setOption name value).run t).answer with
    | error fault => simp [Transport.applyAll_cons, answer, nothing, bares ht]
    | ok => simpa [Transport.applyAll_cons, answer, nothing] using ih (bares ht)

/-- A transport that is made has no session, and its making does nothing with one. -/
def MadeBare (bare : τ → Prop) (made : Transport.Creation τ) : Prop :=
  used made.effects = [] ∧ ∀ t, made.result = .ok t → bare t

theorem Custody.configured {bare holds : τ → Prop} (custody : Custody T bare holds)
    (options : Settings) {t : τ} (ht : bare t) : MadeBare bare (T.configured t options) := by
  obtain ⟨nothing, still⟩ := custody.applyAll options.entries ht
  refine ⟨nothing, fun s made => ?_⟩
  obtain ⟨-, rfl⟩ := Transport.of_configured made
  exact still

/-- The history of a connection from the making of its transport on. -/
def history (T : Transport τ) (made : Transport.Creation τ) (rs : List Connection.Request)
    (destroyed : Bool) : List Event :=
  match Connection.create made with
  | (.ok c, begun) => begun ++ ((Connection.live T rs destroyed).run c).events
  | (.error _, begun) => begun

/-- Where there never was a session, nothing was done with one. -/
theorem Lifecycle.none (destroyed : Bool) : Lifecycle destroyed [] where
  word := ⟨.unasked, rfl, fun _ => rfl⟩
  once := by decide
  traffic := by simp
  closed _ := rfl

theorem Custody.history_lifecycle {bare holds : τ → Prop} (custody : Custody T bare holds)
    {made : Transport.Creation τ} (new : MadeBare bare made) (rs : List Connection.Request)
    (destroyed : Bool) : Lifecycle destroyed (uses (history T made rs destroyed)) := by
  obtain ⟨nothing, fresh⟩ := new
  have begun : uses (inside made.effects) = [] := by rw [uses_inside, nothing]
  unfold history Connection.create
  cases result : made.result with
  | error fault =>
    have silent : uses (inside made.effects ++ [.note (.createFailed fault)]) = [] := by
      rw [uses_append_silent rfl, begun]
    show Lifecycle destroyed (uses (inside made.effects ++ [.note (.createFailed fault)]))
    rw [silent]
    exact .none destroyed
  | ok t =>
    show Lifecycle destroyed (uses (inside made.effects ++
      ((Connection.live T rs destroyed).run (Connection.ofTransport t)).events))
    rw [uses_append, begun, List.nil_append]
    exact custody.lifecycle (fresh t result) rs destroyed

end Tls

end PolledConnection
