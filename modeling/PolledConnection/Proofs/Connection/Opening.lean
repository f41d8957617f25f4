import PolledConnection.Proofs.Connection.Callbacks
import PolledConnection.Proofs.Connection.Contract

/-! # How an open is reported

  Of all requests to open only the first is accepted. Its callback is the first
  of all callbacks. It fires once, directly behind the change that leads out of
  the opening phase, and its verdict is the one that the transport has given:
  what an open that was still waiting gets, because of a close or of the
  destruction, is that it was cancelled (`open_reported`).

  The invariant tells phase by phase how far that has come (`Overture`). Who
  cancels is a matter of whole requests: from the opening phase nothing but a
  close leads out without an answer of the transport (`serve_unopened`).
-/

namespace PolledConnection

open Transport (Call)

/-- The callback of an open that an event tells of. -/
def Event.opener? : Event → Option Tag
  | .openComplete tag .. | .ioError tag _ => some tag
  | _ => none

/-- Whether an event is the end of an open. -/
def Event.isOpenEnd : Event → Bool
  | .openComplete .. => true
  | _ => false

section
variable (tag : Tag) (verdict : Verdict) (phase : Phase)

@[simp] theorem Event.isOpenEnd_ioError : (Event.ioError tag phase).isOpenEnd = false := rfl

@[simp] theorem Event.isOpenEnd_sendComplete :
    (Event.sendComplete tag verdict phase).isOpenEnd = false := rfl

@[simp] theorem Event.isOpenEnd_closeComplete :
    (Event.closeComplete tag phase).isOpenEnd = false := rfl

end

namespace Connection

variable {σ : Type} {T : Transport σ} {c d : Connection σ} {gs hs : List Grant}
variable {es fs : List Event} {cs : List Call}

/-! ### Opens that were accepted -/

/-- The callback that a request to open brings along. -/
def Request.opener? : Request → Option Tag
  | .beginOpen tag => some tag
  | _ => none

/-- The callback of a request to open that was accepted. -/
def openedBy : Request → Answer → List Tag
  | .beginOpen tag, .accepted (.ok ()) => [tag]
  | _, _ => []

/-- The callbacks of the opens that were accepted, in the order of the requests. -/
def openers : List Request → List Answer → List Tag
  | r :: rs, a :: as => openedBy r a ++ openers rs as
  | _, _ => []

/-- The callback of a grant to open. -/
def Grant.opener? : Grant → Option Tag
  | .opening tag => some tag
  | _ => none

/-- The callbacks of the opens that were granted. -/
def opened (gs : List Grant) : List Tag := gs.filterMap Grant.opener?

@[simp] theorem opened_nil : opened [] = [] := rfl

@[simp] theorem opened_append (gs hs : List Grant) : opened (gs ++ hs) = opened gs ++ opened hs :=
  List.filterMap_append

@[simp] theorem opened_opening (tag : Tag) : opened [.opening tag] = [tag] := rfl

theorem opened_offered (T : Transport σ) (c : Connection σ) (options : List (String × Setting)) :
    opened (offered T c options) = [] := by
  refine List.filterMap_eq_nil_iff.mpr fun g hg => ?_
  obtain ⟨name, value, rfl⟩ := mem_offered hg
  rfl

theorem opened_granted (T : Transport σ) (c : Connection σ) (r : Request) (a : Answer) :
    opened (granted T c r a) = openedBy r a := by
  have sends (messages : List Message) : opened (messages.map .sending) = [] := by
    simp [opened, Grant.opener?]
  cases r with
  | beginOpen tag =>
    cases a with
    | nothing | settings => rfl
    | accepted answer => cases answer <;> rfl
  | beginClose tag =>
    cases a with
    | nothing | settings => rfl
    | accepted answer =>
      cases answer with
      | error => rfl
      | ok =>
        simp only [granted, openedBy]
        split <;> rfl
  | send | sendZeros => simp [granted, openedBy, sends]
  | poll | retrieve | setOption => rfl
  | replay options => exact opened_offered T c _

theorem opened_grants (T : Transport σ) (c : Connection σ) (rs : List Request) :
    opened (grants T c rs) = openers rs ((serveAll T rs).run c).answer := by
  induction rs generalizing c with
  | nil => rfl
  | cons r rs ih => simp [grants, serveAll_cons, openers, opened_granted, ih]

/-- The opens that a life grants are those that were accepted. -/
theorem opened_lifeGrants (T : Transport σ) (t : σ) (rs : List Request) (destroyed : Bool) :
    opened (lifeGrants T t rs destroyed) =
      openers rs ((live T rs destroyed).run (ofTransport t)).answer := by
  have nothing (c : Connection σ) : opened (dropped c) = [] := by
    unfold dropped
    split <;> rfl
  rw [lifeGrants, opened_append, opened_grants, run_live]
  cases destroyed <;> simp [nothing]

/-- The callbacks that an open brings along: what a move fires of them, or leaves to be fired, was held
    before it, or the open begins with it. -/
theorem Move.opener {tag : Tag} (move : Move T c gs es d)
    (h : tag ∈ d.awaitingOpen.toList ++ d.client.toList ∨ tag ∈ es.filterMap Event.opener?) :
    tag ∈ c.awaitingOpen.toList ++ c.client.toList ∨ tag ∈ opened gs := by
  cases move with
  | refuse | offer | openWaits | read | queue | writeStays | writeEnds | beginClose | closeWaits =>
    left
    simpa [inside, List.filterMap_map, Function.comp_def, Event.opener?] using h
  | beginOpen =>
    right
    simpa [Event.opener?, eq_comm] using h
  | openDone | openFails | readFails | writeFails | breakOpen | dropOpen =>
    simp [inside, List.filterMap_map, Function.comp_def, Event.opener?] at h ⊢
    grind
  | closeEnds | destroy =>
    -- The end of a close ends sends and the close, and no open.
    simp [inside, farewell, ended, List.filterMap_map, Function.comp_def, Event.opener?] at h
    obtain ⟨e, ⟨-, rfl⟩ | ⟨m, -, rfl⟩ | ⟨tag, -, rfl⟩, tells⟩ := h
    · contradiction
    · contradiction
    · contradiction

/-- The callbacks of opens. -/
def openCallbacks : Lineage σ where
  brought := Grant.opener?
  held c := c.awaitingOpen.toList ++ c.client.toList
  shown := Event.opener?
  client h := by simp [h]
  new _ := rfl
  kept := Move.opener

/-! ### Verdicts -/

/-- Only opens that wait are among the calls. -/
def OnlyWaits (cs : List Call) : Prop := ∀ a, .establish a ∈ cs → a = .waiting

theorem OnlyWaits.of_append {others : List Call} (h : OnlyWaits (cs ++ others)) :
    OnlyWaits cs ∧ OnlyWaits others :=
  ⟨fun a member => h a (List.mem_append_left _ member),
    fun a member => h a (List.mem_append_right _ member)⟩

theorem OnlyWaits.append {others : List Call} (h₁ : OnlyWaits cs) (h₂ : OnlyWaits others) :
    OnlyWaits (cs ++ others) := by
  intro a member
  rcases List.mem_append.mp member with early | late
  · exact h₁ a early
  · exact h₂ a late

theorem onlyWaits_of_closes (h : ∀ call ∈ cs, ∃ a, call = .close a) : OnlyWaits cs := by
  intro a member
  obtain ⟨b, other⟩ := h _ member
  contradiction

/-- The verdict is the one that the transport has given in its calls, if it has given one. -/
structure Answered (cs : List Call) (verdict : Verdict) : Prop where
  ok : verdict = .ok ↔ .establish .done ∈ cs
  failed : verdict = .failed ↔ .establish .failed ∈ cs

namespace Answered

variable {verdict : Verdict}

/-- Only opens that have ended matter. -/
theorem congr {others : List Call} (h : Answered cs verdict)
    (same : ∀ a, a ≠ .waiting → (.establish a ∈ others ↔ .establish a ∈ cs)) :
    Answered others verdict where
  ok := h.ok.trans (same .done (by simp)).symm
  failed := h.failed.trans (same .failed (by simp)).symm

/-- Opens that were waiting decide nothing. -/
theorem behind_waits {waits : List Call} (h : Answered cs verdict)
    (hw : ∀ call ∈ waits, call = .establish .waiting) : Answered (waits ++ cs) verdict := by
  refine h.congr fun a ha => ?_
  have absent : .establish a ∉ waits := by
    intro member
    exact ha (Call.establish.inj (hw _ member))
  simp [absent]

/-- Calls behind the end of the open decide nothing any more. -/
theorem before_others {others : List Call} (h : Answered cs verdict)
    (ho : ∀ call ∈ others, ∀ a, call ≠ .establish a) : Answered (cs ++ others) verdict := by
  refine h.congr fun a _ => ?_
  have absent : .establish a ∉ others := fun member => ho _ member a rfl
  simp [absent]

/-- Without an answer the open can only have been cancelled. -/
theorem cancelled_iff (h : Answered cs verdict) :
    verdict = .cancelled ↔ OnlyWaits cs := by
  constructor
  · rintro rfl a member
    cases a with
    | waiting => rfl
    | done => simpa using h.ok.mpr member
    | failed => simpa using h.failed.mpr member
  · intro waits
    cases verdict with
    | cancelled => rfl
    | ok => simpa using waits .done (h.ok.mp rfl)
    | failed => simpa using waits .failed (h.failed.mp rfl)

end Answered

/-! ### The end of an open -/

/-- The history of an open that has ended: no callback before the phase was left, then at once its
    own, and never again. -/
def Ended (tag : Tag) (verdict : Verdict) (es : List Event) : Prop :=
  ∃ pre post, es = pre ++ .note (.phaseChanged .opening verdict.openPhase) ::
      .openComplete tag verdict verdict.openPhase :: post ∧
    callbacks pre = [] ∧ ∀ e ∈ post, e.isOpenEnd = false

theorem Ended.append {tag : Tag} {verdict : Verdict} (h : Ended tag verdict es)
    (others : ∀ e ∈ fs, e.isOpenEnd = false) : Ended tag verdict (es ++ fs) := by
  obtain ⟨pre, post, rfl, silent, once⟩ := h
  refine ⟨pre, post ++ fs, by simp, silent, ?_⟩
  intro e he
  rcases List.mem_append.mp he with early | late
  · exact once e early
  · exact others e late

/-- The end of the open is the first callback and the only one of its kind. -/
theorem Ended.callbacks {tag : Tag} {verdict : Verdict} (h : Ended tag verdict es) :
    ∃ rest, callbacks es = .openComplete tag verdict verdict.openPhase :: rest ∧
      ∀ e ∈ rest, e.isOpenEnd = false := by
  obtain ⟨pre, post, rfl, silent, once⟩ := h
  refine ⟨Connection.callbacks post, by simp [silent], ?_⟩
  intro e he
  exact once e (List.mem_filter.mp he).1

/-- There is only one end. -/
theorem Ended.unique {tag later : Tag} {verdict other : Verdict} (h : Ended tag verdict es)
    (longer : Ended later other (es ++ fs)) : later = tag ∧ other = verdict := by
  obtain ⟨rest, first, -⟩ := h.callbacks
  obtain ⟨rest', again, -⟩ := longer.callbacks
  rw [callbacks_append, first] at again
  simp only [List.cons_append, List.cons.injEq, Event.openComplete.injEq] at again
  exact ⟨again.1.1.symm, again.1.2.1.symm⟩

/-- Only the callbacks of a history can be ends of an open. -/
theorem no_openEnd (others : ∀ e ∈ callbacks fs, e.isOpenEnd = false) :
    ∀ e ∈ fs, e.isOpenEnd = false := by
  intro e he
  cases e with
  | openComplete tag verdict phase => exact others _ (List.mem_filter.mpr ⟨he, rfl⟩)
  | ioError | sendComplete | closeComplete | transport | note => rfl

/-! ### The invariant -/

/-- How far the open has come. -/
structure Overture (gs : List Grant) (es : List Event) (c : Connection σ) : Prop where
  /-- Nothing has happened yet. -/
  initial : c.phase = .initial → opened gs = [] ∧ callbacks es = [] ∧ calls es = []
  /-- One open was accepted, and the transport has made it wait. -/
  opening : c.phase = .opening → ∃ tag, opened gs = [tag] ∧ c.awaitingOpen = some tag ∧
    callbacks es = [] ∧ ∀ call ∈ calls es, call = .establish .waiting
  /-- It has ended, as the transport has answered. -/
  later : c.phase ≠ .initial → c.phase ≠ .opening → ∃ tag verdict, opened gs = [tag] ∧
    Ended tag verdict es ∧ Answered (calls es) verdict

namespace Overture

theorem first (t : σ) : Overture [] [] (ofTransport t) where
  initial _ := ⟨rfl, rfl, rfl⟩
  opening hp := by simp [ofTransport] at hp
  later hp := by simp [ofTransport] at hp

/-- A move without a call or a callback, in the same phase. -/
theorem frame (h : Overture gs es c) (asked : opened hs = []) (silent : callbacks fs = [])
    (uncalled : calls fs = []) (phase : d.phase = c.phase)
    (awaiting : d.awaitingOpen = c.awaitingOpen) : Overture (gs ++ hs) (es ++ fs) d where
  initial hp := by simpa [asked, silent, uncalled] using h.initial (phase.symm.trans hp)
  opening hp := by simpa [asked, silent, uncalled, awaiting] using h.opening (phase.symm.trans hp)
  later new old := by
    rw [phase] at new old
    obtain ⟨tag, verdict, one, ended, answered⟩ := h.later new old
    refine ⟨tag, verdict, by simpa [asked] using one, ?_, by simpa [uncalled] using answered⟩
    exact ended.append (no_openEnd (by simp [silent]))

/-- A move behind the end of the open. -/
theorem goesOn (h : Overture gs es c) (was : c.phase ≠ .initial ∧ c.phase ≠ .opening)
    (is : d.phase ≠ .initial ∧ d.phase ≠ .opening) (asked : opened hs = [])
    (others : ∀ e ∈ callbacks fs, e.isOpenEnd = false)
    (uncalled : ∀ call ∈ calls fs, ∀ a, call ≠ .establish a) :
    Overture (gs ++ hs) (es ++ fs) d where
  initial hp := absurd hp is.1
  opening hp := absurd hp is.2
  later _ _ := by
    obtain ⟨tag, verdict, one, ended, answered⟩ := h.later was.1 was.2
    refine ⟨tag, verdict, by simpa [asked] using one, ended.append (no_openEnd others), ?_⟩
    rw [calls_append]
    exact answered.before_others uncalled

/-- The move that ends the open, with the verdict that its call gives. -/
theorem ends (h : Overture gs es c) (hp : c.phase = .opening) (verdict : Verdict)
    (front : List Event) (phase : d.phase = verdict.openPhase) (asked : opened hs = [])
    (silent : callbacks front = []) (answered : Answered (calls front) verdict)
    (events : fs = front ++ .note (.phaseChanged .opening verdict.openPhase) ::
      c.awaitingOpen.toList.map fun tag => .openComplete tag verdict verdict.openPhase) :
    Overture (gs ++ hs) (es ++ fs) d where
  initial initial := by cases verdict <;> simp [phase, Verdict.openPhase] at initial
  opening opening := by cases verdict <;> simp [phase, Verdict.openPhase] at opening
  later _ _ := by
    obtain ⟨tag, one, awaiting, nothing, waits⟩ := h.opening hp
    refine ⟨tag, verdict, by simpa [asked] using one, ?_, ?_⟩
    · exact ⟨es ++ front, [], by simp [events, awaiting], by simp [nothing, silent], by simp⟩
    · have all := answered.behind_waits waits
      simpa [events, awaiting] using all

/-- **Step**: every move brings the open on as its phase allows. -/
theorem step (h : Overture gs es c) (move : Move T c hs fs d) :
    Overture (gs ++ hs) (es ++ fs) d := by
  cases move with
  -- Moves without a call and a callback, in the same phase.
  | refuse note _ => exact h.frame rfl (by simp) (by simp) rfl rfl
  | offer _ => exact h.frame rfl (by simp) (by simp) rfl rfl
  | queue tag bytes _ _ => exact h.frame rfl (by simp) (by simp) rfl rfl
  -- The open begins and waits.
  | beginOpen tag hp =>
    obtain ⟨none, silent, uncalled⟩ := h.initial hp
    exact {
      initial := by simp
      opening := fun _ => ⟨tag, by simp [none], rfl, by simp [silent], by simp [uncalled]⟩
      later := by simp }
  | openWaits hp _ _ =>
    obtain ⟨tag, one, awaiting, silent, waits⟩ := h.opening hp
    exact {
      initial := by simp [hp]
      opening := fun _ => ⟨tag, by simpa using one, awaiting, by simp [silent],
        by simpa [or_imp, forall_and] using waits⟩
      later := by simp [hp] }
  -- It ends: the transport has answered, or did not come to that.
  | @openDone _ _ effects hp _ _ =>
    have answered : Answered [.establish .done] .ok := ⟨by simp, by simp⟩
    exact h.ends hp .ok (inside effects ++ [called (.establish .done)]) rfl rfl (by simp)
      (by simpa using answered) (by simp [Verdict.openPhase])
  | @openFails _ _ effects hp _ _ =>
    have answered : Answered [.establish .failed] .failed := ⟨by simp, by simp⟩
    exact h.ends hp .failed
      (inside effects ++ [called (.establish .failed), .note .openFailed]) rfl rfl (by simp)
      (by simpa using answered) (by simp [Verdict.openPhase])
  | breakOpen tag hp =>
    have unanswered : Answered [] .cancelled := ⟨by simp, by simp⟩
    exact h.ends hp .cancelled [] rfl rfl rfl unanswered rfl
  | dropOpen hp =>
    have unanswered : Answered [] .cancelled := ⟨by simp, by simp⟩
    exact h.ends hp .cancelled [] rfl rfl rfl unanswered rfl
  -- Moves behind the end of the open.
  | read hp _ _ => exact h.goesOn (by simp [hp]) (by simp [hp]) rfl (by simp) (by simp)
  | readFails hp _ => exact h.goesOn (by simp [hp]) (by simp) rfl (by simp) (by simp)
  | writeStays hp _ _ _ => exact h.goesOn (by simp [hp]) (by simp [hp]) rfl (by simp) (by simp)
  | writeEnds hp _ _ _ _ => exact h.goesOn (by simp [hp]) (by simp [hp]) rfl (by simp) (by simp)
  | writeFails hp _ _ =>
    exact h.goesOn (by simp [hp]) (by simp) rfl (by simp [or_imp, forall_and]) (by simp)
  | beginClose tag hp =>
    exact h.goesOn (by rcases hp with hp | hp <;> simp [hp]) (by simp) rfl (by simp) (by simp)
  | closeWaits hp _ => exact h.goesOn (by simp [hp]) (by simp [hp]) rfl (by simp) (by simp)
  | closeEnds hp _ _ =>
    exact h.goesOn (by simp [hp]) (by simp [ended]) rfl (by simp [or_imp, forall_and]) (by simp)
  | destroy hp _ =>
    exact h.goesOn (by rcases hp with hp | hp | hp <;> simp [hp]) (by simp [ended]) rfl
      (by simp [or_imp, forall_and]) (by simp)

end Overture

/-- How far the open has come behind a run of requests. -/
theorem serveAll_overture (T : Transport σ) (t : σ) (rs : List Request) :
    Overture (grants T (ofTransport t) rs) ((serveAll T rs).run (ofTransport t)).events
      ((serveAll T rs).run (ofTransport t)).state :=
  (serveAll_moves T rs (ofTransport t)).invariant Overture.step (Overture.first t)

/-! ### Only the first open is accepted -/

theorem serve_not_initial (hp : c.phase ≠ .initial) (r : Request) :
    ((serve T r).run c).state.phase ≠ .initial := by
  intro back
  have up := (serve_moves T c r).rank_le
  rw [back] at up
  -- No other phase is as low as the first one.
  cases was : c.phase <;> simp_all [Phase.rank]

theorem openers_not_initial (hp : c.phase ≠ .initial) (rs : List Request) :
    openers rs ((serveAll T rs).run c).answer = [] := by
  induction rs generalizing c with
  | nil => rfl
  | cons r rs ih =>
    have rest := ih (serve_not_initial (T := T) hp r)
    have refused : openedBy r ((serve T r).run c).answer = [] := by
      cases r with
      | beginOpen tag => simp [serve, beginOpen, hp, openedBy]
      | beginClose | send | sendZeros | poll | setOption | retrieve | replay => rfl
    simp [serveAll_cons, openers, refused, rest]

/-- Whatever else is asked of a new connection, it stays new. -/
theorem serve_initial (hp : c.phase = .initial) (r : Request) (other : r.opener? = none) :
    ((serve T r).run c).state.phase = .initial := by
  have aside (poll : ∀ times, r ≠ .poll times) (close : ∀ tag, r ≠ .beginClose tag) :
      ((serve T r).run c).state.phase = .initial := by
    have opens (tag : Tag) : r ≠ .beginOpen tag := by
      rintro rfl
      simp [Request.opener?] at other
    obtain ⟨⟨s, state⟩, -⟩ := serve_aside (T := T) (c := c) r (by simp [hp]) poll close fun _ => opens
    rw [state]
    exact hp
  cases r with
  | beginOpen tag => simp [Request.opener?] at other
  | beginClose tag => simp [serve, beginClose, hp]
  | poll times => cases times <;> simp [serve, pollTimes, isIdle, hp]
  | send | sendZeros | setOption | retrieve | replay => exact aside (by simp) (by simp)

/-- The first open that a new connection is asked for is accepted, and no other. -/
theorem openers_initial (hp : c.phase = .initial) (rs : List Request) :
    openers rs ((serveAll T rs).run c).answer = (rs.filterMap Request.opener?).take 1 := by
  induction rs generalizing c with
  | nil => rfl
  | cons r rs ih =>
    cases asked : r.opener? with
    | some tag =>
      obtain rfl : r = .beginOpen tag := by cases r <;> simp_all [Request.opener?]
      have accepted : ((serve T (.beginOpen tag)).run c).answer = .accepted (.ok ()) := by
        simp [serve, beginOpen, hp]
      have left : ((serve T (.beginOpen tag)).run c).state.phase ≠ .initial := by
        simp [serve, beginOpen, hp, run_setPhase]
      have rest := openers_not_initial (T := T) left rs
      simp [serveAll_cons, openers, accepted, openedBy, rest, Request.opener?]
    | none =>
      have rest := ih (serve_initial (T := T) hp r asked)
      have nothing : openedBy r ((serve T r).run c).answer = [] := by
        cases r <;> simp_all [Request.opener?, openedBy]
      simp [serveAll_cons, openers, nothing, rest, asked]

/-! ### Who cancels an open -/

/-- The open has not begun, or it waits. -/
def Unopened (c : Connection σ) : Prop :=
  c.phase = .initial ∨ c.phase = .opening ∧ c.client ≠ none

/-- A poll of an open that waits changes the transport only. -/
theorem poll_waits (hp : c.phase = .opening) (client : c.client ≠ none)
    (waits : OnlyWaits (calls ((poll T).run c).events)) :
    ∃ s, ((poll T).run c).state = { c with transport := s } := by
  obtain ⟨tag, hc⟩ := Option.ne_none_iff_exists'.mp client
  rcases h : (T.establish ⟨tag⟩).run c.transport with ⟨a, s, effects⟩
  have call := run_call (c := c) .establish h
  have only : a = .waiting := by
    apply waits
    cases a <;> simp [poll, hp, pollOpen, hc, call, run_setPhase, run_finishOpen]
  subst only
  exact ⟨s, by simp [poll, hp, pollOpen, hc, call]⟩

theorem pollTimes_waits {n : Nat} (hp : c.phase = .opening) (client : c.client ≠ none)
    (waits : OnlyWaits (calls ((pollTimes T n).run c).events)) :
    ∃ s, ((pollTimes T n).run c).state = { c with transport := s } := by
  induction n generalizing c with
  | zero => exact ⟨c.transport, rfl⟩
  | succ n ih =>
    rw [pollTimes_succ, Act.run_bind] at waits
    simp only [calls_append] at waits
    obtain ⟨early, late⟩ := waits.of_append
    obtain ⟨s, first⟩ := poll_waits hp client early
    rw [first] at late
    obtain ⟨u, others⟩ := ih (c := { c with transport := s }) hp client late
    refine ⟨u, ?_⟩
    rw [pollTimes_succ, Act.run_bind]
    simp only [first, others]

/-- While the transport makes the open wait, only a close leads on. -/
theorem serve_unopened (h : Unopened c) (r : Request)
    (waits : OnlyWaits (calls ((serve T r).run c).events)) :
    Unopened ((serve T r).run c).state ∨ c.phase = .opening ∧ ∃ tag, r = .beginClose tag := by
  have stays {s : σ} (state : ((serve T r).run c).state = { c with transport := s }) :
      Unopened ((serve T r).run c).state := by
    rw [state]
    exact h
  rcases h with hp | ⟨hp, client⟩
  · cases asked : r.opener? with
    | none => exact .inl (.inl (serve_initial hp r asked))
    | some tag =>
      obtain rfl : r = .beginOpen tag := by cases r <;> simp_all [Request.opener?]
      exact .inl (.inr (by simp [serve, beginOpen, hp, run_setPhase]))
  · have aside (poll : ∀ times, r ≠ .poll times) (close : ∀ tag, r ≠ .beginClose tag) :
        Unopened ((serve T r).run c).state := by
      obtain ⟨⟨s, state⟩, -⟩ := serve_aside (T := T) (c := c) r (by simp [hp]) poll close (by simp [hp])
      exact stays state
    cases r with
    | beginClose tag => exact .inr ⟨hp, tag, rfl⟩
    | poll times =>
      have run : ((serve T (.poll times)).run c).events = ((pollTimes T times).run c).events := by
        simp [serve]
      rw [run] at waits
      obtain ⟨s, state⟩ := pollTimes_waits hp client waits
      exact .inl (stays (s := s) (by simp [serve, state]))
    | beginOpen | send | sendZeros | setOption | retrieve | replay =>
      exact .inl (aside (by simp) (by simp))

/-- A run in which the transport only made the open wait: nothing has led out of the opening phase,
    or a close did. -/
theorem serveAll_unopened (h : Unopened c) (rs : List Request)
    (waits : OnlyWaits (calls ((serveAll T rs).run c).events)) :
    Unopened ((serveAll T rs).run c).state ∨
      ∃ before tag after, rs = before ++ .beginClose tag :: after ∧
        ((serveAll T before).run c).state.phase = .opening := by
  induction rs generalizing c with
  | nil => exact .inl h
  | cons r rs ih =>
    simp only [serveAll_cons, Act.run_bind, Act.run_pure, List.append_nil, calls_append] at waits
    obtain ⟨early, late⟩ := waits.of_append
    rcases serve_unopened h r early with still | ⟨hp, tag, rfl⟩
    · rcases ih still late with stays | ⟨before, tag, after, rfl, opening⟩
      · exact .inl (by simpa [serveAll_cons, serveAll_nil] using stays)
      · exact .inr ⟨r :: before, tag, after, rfl, by simpa [serveAll_cons, serveAll_nil] using opening⟩
    · exact .inr ⟨[], tag, rs, rfl, hp⟩

/-- A close or the destruction came when an open was accepted and the transport had done nothing but
    make it wait. -/
def BrokenOff (T : Transport σ) (t : σ) (rs : List Request) (destroyed : Bool) : Prop :=
  ∃ before, ((∃ tag after, rs = before ++ .beginClose tag :: after) ∨
      destroyed = true ∧ rs = before) ∧
    openers before ((serveAll T before).run (ofTransport t)).answer ≠ [] ∧
    OnlyWaits (calls ((serveAll T before).run (ofTransport t)).events)

section
variable (T : Transport σ) (t : σ) (rs : List Request) (destroyed : Bool)

/-- An open that has ended unanswered was broken off. -/
theorem brokenOff_of_onlyWaits
    (asked : openers rs ((live T rs destroyed).run (ofTransport t)).answer ≠ [])
    (left : ((live T rs destroyed).run (ofTransport t)).state.phase ≠ .opening)
    (waits : OnlyWaits (calls ((live T rs destroyed).run (ofTransport t)).events)) :
    BrokenOff T t rs destroyed := by
  rw [run_live] at asked left waits
  simp only [calls_append] at waits
  have early := waits.of_append.1
  rcases serveAll_unopened (.inl rfl) rs early with still | ⟨before, tag, after, rfl, opening⟩
  · rcases still with initial | ⟨opening, -⟩
    · have nothing := ((serveAll_overture T t rs).initial initial).1
      rw [opened_grants] at nothing
      exact absurd nothing asked
    · -- The requests have left the open waiting, so it was the destruction that ended it.
      cases destroyed with
      | true => exact ⟨rs, .inr ⟨rfl, rfl⟩, asked, early⟩
      | false => exact absurd opening (by simpa using left)
  · refine ⟨before, .inl ⟨tag, after, rfl⟩, ?_, ?_⟩
    · obtain ⟨asked, one, -⟩ := (serveAll_overture T t before).opening opening
      rw [opened_grants] at one
      simp [one]
    · rw [run_serveAll_append] at early
      simp only [calls_append] at early
      exact early.of_append.1

/-- What breaks an open off ends it unanswered. -/
theorem ended_of_brokenOff (h : BrokenOff T t rs destroyed) :
    ∃ tag pre post, ((live T rs destroyed).run (ofTransport t)).events = pre ++ post ∧
      Ended tag .cancelled pre := by
  obtain ⟨before, comes, asked, waits⟩ := h
  have left : ((serveAll T before).run (ofTransport t)).state.phase ≠ .initial := by
    intro initial
    have nothing := ((serveAll_overture T t before).initial initial).1
    rw [opened_grants] at nothing
    exact asked nothing
  -- In both cases only closes are called behind `before`, and they lead out of the opening phase.
  have cancelled {gs : List Grant} {d : Connection σ} {fs : List Event}
      (overture : Overture gs (((serveAll T before).run (ofTransport t)).events ++ fs) d)
      (further : Phase.rank .opening < d.phase.rank)
      (closes : ∀ call ∈ calls fs, ∃ a, call = .close a) :
      ∃ tag, Ended tag .cancelled (((serveAll T before).run (ofTransport t)).events ++ fs) := by
    have new : d.phase ≠ .initial := by
      intro initial
      simp [initial, Phase.rank] at further
    have waiting : d.phase ≠ .opening := by
      intro opening
      simp [opening] at further
    obtain ⟨tag, verdict, -, ended, answered⟩ := overture.later new waiting
    have only : verdict = .cancelled := by
      rw [answered.cancelled_iff, calls_append]
      exact waits.append (onlyWaits_of_closes closes)
    subst only
    exact ⟨tag, ended⟩
  rcases comes with ⟨tag, after, rfl⟩ | ⟨rfl, rfl⟩
  · have overture := serveAll_overture T t (before ++ [.beginClose tag])
    obtain ⟨post, split⟩ := live_extends T (before ++ [.beginClose tag]) after destroyed (ofTransport t)
    rw [run_serveAll_append] at overture split
    have closing := rank_beginClose (T := T) left tag
    have further : Phase.rank .opening <
        ((serveAll T [.beginClose tag]).run
          ((serveAll T before).run (ofTransport t)).state).state.phase.rank :=
      Nat.lt_of_lt_of_le (by decide) closing
    have closes : ∀ call ∈ calls ((serveAll T [.beginClose tag]).run
        ((serveAll T before).run (ofTransport t)).state).events, ∃ a, call = .close a := by
      simpa [serveAll_cons, serveAll_nil, serve] using calls_beginClose tag
    obtain ⟨opener, ended⟩ := cancelled overture further closes
    exact ⟨opener, _, post, by simpa using split, ended⟩
  · have overture : Overture _ _ _ :=
      (live_moves T t rs true).invariant Overture.step (Overture.first t)
    rw [run_live] at overture ⊢
    have further : Phase.rank .opening <
        ((destroy T).run ((serveAll T rs).run (ofTransport t)).state).state.phase.rank := by
      rw [destroy_closes left]
      decide
    obtain ⟨opener, ended⟩ := cancelled overture further calls_destroy
    exact ⟨opener, _, [], by simp, ended⟩

end

/-! ### The theorem -/

/-- **How an open is reported.** In every life over every transport only the first open is accepted,
    and only its callbacks can fire: the end of the open and the error are told to nobody else, and a
    transport that hands bytes to its own receivers only hands them to nobody else. While the open
    waits no callback has fired at all. It stops waiting in every life that ends in a destruction. Once
    it has, its callback has fired once, as the first of all callbacks and directly behind the change of
    phase: well or badly if the transport has answered so, and cancelled exactly if it was broken off
    before that. -/
theorem open_reported (T : Transport σ) (t : σ) (rs : List Request) (destroyed : Bool) :
    let o := (live T rs destroyed).run (ofTransport t)
    openers rs o.answer = (rs.filterMap Request.opener?).take 1 ∧
    (∀ tag verdict phase, .openComplete tag verdict phase ∈ o.events →
      openers rs o.answer = [tag]) ∧
    (∀ tag phase, .ioError tag phase ∈ o.events → openers rs o.answer = [tag]) ∧
    (T.Loyal t → ∀ tag bytes, .transport (.effect (.received tag bytes)) ∈ o.events →
      openers rs o.answer = [tag]) ∧
    ∀ tag, openers rs o.answer = [tag] →
      (o.state.phase = .opening → callbacks o.events = []) ∧
      (destroyed = true → o.state.phase ≠ .opening) ∧
      (o.state.phase ≠ .opening → ∃ verdict, Ended tag verdict o.events ∧
        (verdict = .ok ↔ .establish .done ∈ calls o.events) ∧
        (verdict = .failed ↔ .establish .failed ∈ calls o.events) ∧
        (verdict = .cancelled ↔ BrokenOff T t rs destroyed)) := by
  intro o
  have overture : Overture (lifeGrants T t rs destroyed) o.events o.state :=
    (live_moves T t rs destroyed).invariant Overture.step (Overture.first t)
  have traced := live_traced openCallbacks T t rs destroyed
  have asked := opened_lifeGrants T t rs destroyed
  have first : openers rs o.answer = (rs.filterMap Request.opener?).take 1 := by
    show openers rs ((live T rs destroyed).run (ofTransport t)).answer = _
    rw [run_live]
    exact openers_initial rfl rs
  -- Only one open was accepted, so a callback of an accepted open is that of this one.
  have only {tag : Tag} (known : tag ∈ opened (lifeGrants T t rs destroyed)) :
      openers rs o.answer = [tag] := by
    rw [asked] at known
    rw [first] at known ⊢
    cases callbacks : rs.filterMap Request.opener? with
    | nil => simp [callbacks] at known
    | cons one others => simpa [callbacks, eq_comm] using known
  refine ⟨first, ?_, ?_, ?_, ?_⟩
  · intro tag verdict phase fired
    exact only (traced.of_shown fired rfl)
  · intro tag phase fired
    exact only (traced.of_shown fired rfl)
  · intro loyal tag bytes handed
    exact only (traced.of_received loyal handed)
  · intro tag opener
    have begun : o.state.phase ≠ .initial := by
      intro initial
      have nothing := (overture.initial initial).1
      rw [asked, opener] at nothing
      contradiction
    refine ⟨?_, ?_, ?_⟩
    · intro opening
      obtain ⟨_, -, -, silent, -⟩ := overture.opening opening
      exact silent
    · rintro rfl opening
      have phase : o.state.phase = .initial ∨ o.state.phase = .closed := by
        simpa [o, run_live] using destroy_phase T ((serveAll T rs).run (ofTransport t)).state
      simp [opening] at phase
    · intro left
      obtain ⟨again, verdict, same, ended, answered⟩ := overture.later begun left
      obtain rfl : again = tag := by
        rw [asked, opener] at same
        exact (List.singleton_inj.mp same).symm
      refine ⟨verdict, ended, answered.ok, answered.failed, ?_, ?_⟩
      · intro cancelled
        have waits := answered.cancelled_iff.mp cancelled
        have accepted : openers rs o.answer ≠ [] := by simp [opener]
        exact brokenOff_of_onlyWaits T t rs destroyed accepted left waits
      · intro broken
        -- The history up to what broke it off has an end already, and there is only one.
        obtain ⟨_, pre, post, split, early⟩ := ended_of_brokenOff T t rs destroyed broken
        rw [show o.events = pre ++ post from split] at ended
        exact (early.unique ended).2

end Connection

end PolledConnection
