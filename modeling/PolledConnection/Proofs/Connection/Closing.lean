import PolledConnection.Proofs.Connection.Callbacks
import PolledConnection.Proofs.Connection.Ledger

/-! # How a close goes

  Only the first close of a connection that has begun to open counts. From
  then on every poll asks the transport to close, and nothing else happens
  until it answers something else than that it waits (`CloseCourse`). At that
  moment the connection is closed: what was queued is cancelled, then the
  close is reported, and it falls silent (`Silenced`).

  The course is about the requests behind the close. The end is an invariant
  of moves (`Closure`), so it covers a destruction that forces it as well.
-/

namespace PolledConnection

open Transport (Call)

/-- The end of a close that an event tells of. -/
def Event.closeEnd? : Event → Option Tag
  | .closeComplete tag _ => some tag
  | _ => none

namespace Connection

variable {σ : Type} {T : Transport σ} {c d e : Connection σ} {gs hs : List Grant}
variable {es fs : List Event} {n m : Nat}

/-! ### The closes that count -/

/-- The callback of a request to close that finds the connection between its first open and its
    close. -/
def closedBy (c : Connection σ) : Request → List Tag
  | .beginClose tag => if c.phase = .opening ∨ c.phase = .opened ∨ c.phase = .failed then [tag] else []
  | _ => []

/-- The callbacks of all such requests in a run. -/
def closers (T : Transport σ) (c : Connection σ) : List Request → List Tag
  | [] => []
  | r :: rs => closedBy c r ++ closers T ((serve T r).run c).state rs

/-- The callback of a grant to close. -/
def Grant.closer? : Grant → Option Tag
  | .closing tag => some tag
  | _ => none

/-- The callbacks of the closes that were granted. -/
def closings (gs : List Grant) : List Tag := gs.filterMap Grant.closer?

@[simp] theorem closings_nil : closings [] = [] := rfl

@[simp] theorem closings_append (gs hs : List Grant) :
    closings (gs ++ hs) = closings gs ++ closings hs :=
  List.filterMap_append

@[simp] theorem closings_closing (tag : Tag) : closings [.closing tag] = [tag] := rfl

@[simp] theorem closings_opening (tag : Tag) : closings [.opening tag] = [] := rfl

theorem closers_append (T : Transport σ) (c : Connection σ) (before after : List Request) :
    closers T c (before ++ after) =
      closers T c before ++ closers T ((serveAll T before).run c).state after := by
  induction before generalizing c with
  | nil => rfl
  | cons r before ih => simp [closers, serveAll_cons, ih]

theorem closings_granted (c : Connection σ) (r : Request) :
    closings (granted T c r ((serve T r).run c).answer) = closedBy c r := by
  have sends (messages : List Message) : closings (messages.map .sending) = [] := by
    simp [closings, Grant.closer?]
  cases r with
  | beginOpen tag =>
    by_cases hp : c.phase = .initial
    · simp [serve, beginOpen, hp, granted, closedBy]
    · simp [serve, beginOpen, hp, granted, acceptedBy, closedBy]
  | beginClose tag =>
    cases hp : c.phase with
    | initial => simp [serve, beginClose, hp, granted, acceptedBy, closedBy]
    | closing | closed => simp [serve, beginClose, hp, granted, closedBy]
    | opening | opened | failed =>
      obtain ⟨_, _, -, -, run⟩ := run_beginClose (T := T) (c := c) (by simp [hp]) tag
      simp [run, granted, closedBy, hp]
  | send | sendZeros => exact sends _
  | poll | retrieve | setOption => rfl
  | replay options =>
    refine List.filterMap_eq_nil_iff.mpr fun g hg => ?_
    obtain ⟨name, value, rfl⟩ := mem_offered hg
    rfl

theorem closings_grants (T : Transport σ) (c : Connection σ) (rs : List Request) :
    closings (grants T c rs) = closers T c rs := by
  induction rs generalizing c with
  | nil => rfl
  | cons r rs ih => rw [grants, closings_append, closings_granted, ih, closers]

/-- The closes that a life grants are those that count. -/
theorem closings_lifeGrants (T : Transport σ) (t : σ) (rs : List Request) (destroyed : Bool) :
    closings (lifeGrants T t rs destroyed) = closers T (ofTransport t) rs := by
  have nothing (c : Connection σ) : closings (dropped c) = [] := by
    unfold dropped
    split <;> rfl
  rw [lifeGrants, closings_append, closings_grants]
  cases destroyed <;> simp [nothing]

/-! ### The ends of closes -/

/-- The closes whose end a history reports. -/
def closeEnds (es : List Event) : List Tag := (callbacks es).filterMap Event.closeEnd?

@[simp] theorem closeEnds_append (es fs : List Event) :
    closeEnds (es ++ fs) = closeEnds es ++ closeEnds fs := by
  simp [closeEnds]

/-- A history reports no end of a close if none of its callbacks does. -/
theorem closeEnds_eq_nil (h : ∀ e ∈ callbacks es, e.closeEnd? = none) : closeEnds es = [] :=
  List.filterMap_eq_nil_iff.mpr h

/-- What is cancelled, then the end of the close. -/
theorem closeEnds_of_callbacks {messages : List Message} {tags : List Tag}
    (h : callbacks es =
      messages.map (fun m => .sendComplete m.tag .cancelled .closed) ++
        tags.map fun tag => .closeComplete tag .closed) :
    closeEnds es = tags := by
  rw [closeEnds, h, List.filterMap_append, List.filterMap_map, List.filterMap_map]
  simp [Function.comp_def, Event.closeEnd?]

/-! ### The course of a close -/

/-- How far a close has come that the transport was asked for up to `n` times. -/
inductive CloseCourse (c d : Connection σ) (n : Nat) (es : List Event) : Prop where
  /-- The transport has made it wait each time, and nothing was sent or cancelled. -/
  | waits (phase : d.phase = .closing) (asked : calls es = List.replicate n (.close .waiting))
      (unsent : completions es = []) (kept : d.outbox = c.outbox)
  /-- The transport has answered otherwise and was not called again. -/
  | ends (pre post : List Event) (w : Nat) (a : Progress) (phase : d.phase = .closed)
      (split : es = pre ++ called (.close a) :: post) (answer : a ≠ .waiting) (within : w < n)
      (asked : calls pre = List.replicate w (.close .waiting)) (unsent : completions pre = [])
      (silent : calls post = [])

namespace CloseCourse

/-- One course goes on where another one has left it waiting. -/
theorem trans (h : CloseCourse c d n es) (goesOn : d.phase = .closing → CloseCourse d e m fs)
    (rests : d.phase = .closed → e.phase = .closed ∧ calls fs = []) :
    CloseCourse c e (n + m) (es ++ fs) := by
  cases h with
  | ends pre post w a closed split answer within asked unsent silent =>
    obtain ⟨still, quiet⟩ := rests closed
    exact .ends pre (post ++ fs) w a still (by rw [split]; simp) answer (by omega) asked unsent
      (by simp [silent, quiet])
  | waits closing asked unsent kept =>
    cases goesOn closing with
    | waits closing' asked' unsent' kept' =>
      refine .waits closing' ?_ (by simp [unsent, unsent']) (kept'.trans kept)
      rw [calls_append, asked, asked', List.replicate_append_replicate]
    | ends pre post w a closed split answer within asked' unsent' silent =>
      refine .ends (es ++ pre) post (n + w) a closed (by rw [split]; simp) answer (by omega) ?_
        (by simp [unsent, unsent']) silent
      rw [calls_append, asked, asked', List.replicate_append_replicate]

/-- What goes before without a call does not count. -/
theorem behind {front : List Event} (h : CloseCourse d e n es) (uncalled : calls front = [])
    (unsent : completions front = []) (kept : d.outbox = c.outbox) :
    CloseCourse c e n (front ++ es) := by
  cases h with
  | waits closing asked unsent' kept' =>
    exact .waits closing (by simp [uncalled, asked]) (by simp [unsent, unsent']) (kept'.trans kept)
  | ends pre post w a closed split answer within asked unsent' silent =>
    exact .ends (front ++ pre) post w a closed (by rw [split]; simp) answer within
      (by simp [uncalled, asked]) (by simp [unsent, unsent']) silent

/-- If the transport answers its first other answer behind `w` that wait, the course has ended
    exactly if it was asked more often than that. -/
theorem closed_iff (h : CloseCourse c d n es) (rests : d.phase = .closed → calls fs = []) {w : Nat}
    {a : Progress} (ha : a ≠ .waiting)
    (all : calls (es ++ fs) = List.replicate w (.close .waiting) ++ [.close a]) :
    d.phase = .closed ↔ w < n := by
  rw [calls_append] at all
  cases h with
  | waits closing asked _ _ =>
    rw [asked] at all
    refine ⟨by simp [closing], fun less => ?_⟩
    -- The call behind `w` others is one that waits, but was answered by `a`.
    have here := congrArg (fun cs : List Call => cs[w]?) all
    simp [List.getElem?_append, less] at here
    exact absurd here.symm ha
  | ends pre post v b closed split _ within asked _ silent =>
    rw [split, calls_append, rests closed] at all
    have lengths := congrArg List.length all
    simp [asked, silent] at lengths
    simp [closed]
    omega

end CloseCourse

/-- Asking for the close once. -/
theorem pollClose_course (hp : c.phase = .closing) :
    CloseCourse c ((pollClose T false).run c).state 1 ((pollClose T false).run c).events := by
  rcases h : T.close.run c.transport with ⟨a, s, effects⟩
  have call := run_call (c := c) .close h
  by_cases ha : a = .waiting
  · subst ha
    apply CloseCourse.waits
    · simp [pollClose, call, hp]
    · simp [pollClose, call]
    · simp [pollClose, call]
    · simp [pollClose, call]
  · have notClosed : c.phase ≠ .closed := by simp [hp]
    apply CloseCourse.ends (inside effects) (farewell { c with transport := s } a) 0 a
    · simp [pollClose, call, ha, run_finishClose, notClosed, ended]
    · simp [pollClose, call, ha, run_finishClose, notClosed]
    · exact ha
    · omega
    · simp
    · simp
    · simp

/-- A connection that is closed stays closed, and does not call its transport. -/
theorem moves_closed (hp : c.phase = .closed) (moves : Moves T c gs es d) :
    d.phase = .closed ∧ calls es = [] := by
  induction moves with
  | refl => exact ⟨hp, rfl⟩
  | snoc _ last ih =>
    obtain ⟨closed, silent⟩ := ih
    cases last with
    | refuse | offer => exact ⟨closed, by simp [silent]⟩
    | beginOpen | openWaits | openDone | openFails | read | readFails | queue | writeStays | writeEnds
    | writeFails | beginClose | breakOpen | dropOpen | closeWaits | closeEnds | destroy => simp_all

/-! ### Requests behind a close -/

/-- How many polls a request asks for. -/
def pollsOf : Request → Nat
  | .poll times => times
  | _ => 0

/-- How many polls a run of requests asks for. -/
def polls : List Request → Nat
  | [] => 0
  | r :: rs => pollsOf r + polls rs

theorem pollTimes_course (hp : c.phase = .closing) :
    CloseCourse c ((pollTimes T n).run c).state n ((pollTimes T n).run c).events := by
  induction n generalizing c with
  | zero => exact .waits hp rfl rfl rfl
  | succ n ih =>
    have first : CloseCourse c ((poll T).run c).state 1 ((poll T).run c).events := by
      simpa [poll, hp] using pollClose_course hp
    rw [pollTimes_succ, Nat.add_comm]
    exact first.trans ih fun closed => moves_closed closed (pollTimes_moves T n _)

/-- Behind a close only polls matter. -/
theorem serve_course (hp : c.phase = .closing) (r : Request) :
    CloseCourse c ((serve T r).run c).state (pollsOf r) ((serve T r).run c).events := by
  have aside (poll : ∀ times, r ≠ .poll times) (close : ∀ tag, r ≠ .beginClose tag) :
      CloseCourse c ((serve T r).run c).state 0 ((serve T r).run c).events := by
    obtain ⟨⟨s, state⟩, asides⟩ :=
      serve_aside (T := T) (c := c) r (by simp [hp]) poll close (by simp [hp])
    rw [state]
    exact .waits hp asides.calls asides.completions rfl
  cases r with
  | poll times => simpa [serve, pollsOf] using pollTimes_course hp
  | beginClose tag =>
    rw [run_beginClose_again (.inl hp)]
    exact .waits hp rfl rfl rfl
  | beginOpen | send | sendZeros | setOption | retrieve | replay => exact aside (by simp) (by simp)

theorem serveAll_course (hp : c.phase = .closing) (rs : List Request) :
    CloseCourse c ((serveAll T rs).run c).state (polls rs) ((serveAll T rs).run c).events := by
  induction rs generalizing c with
  | nil => exact .waits hp rfl rfl rfl
  | cons r rs ih =>
    have all := (serve_course (T := T) hp r).trans ih fun closed =>
      moves_closed closed (serveAll_moves T rs _)
    simpa [serveAll_cons, serveAll_nil, polls] using all

/-- **The course.** From the close that counts on, the transport is asked once, and then once a
    poll. -/
theorem beginClose_course (hp : c.phase = .opening ∨ c.phase = .opened ∨ c.phase = .failed)
    (tag : Tag) (rs : List Request) :
    CloseCourse c ((serveAll T (.beginClose tag :: rs)).run c).state (1 + polls rs)
      ((serveAll T (.beginClose tag :: rs)).run c).events := by
  obtain ⟨front, awaiting, uncalled, unsent, run⟩ := run_beginClose (T := T) hp tag
  have asked := pollClose_course (T := T)
    (c := { c with phase := .closing, awaitingOpen := awaiting, awaitingClose := some tag }) rfl
  have first : CloseCourse c ((serve T (.beginClose tag)).run c).state 1
      ((serve T (.beginClose tag)).run c).events := by
    rw [run]
    exact asked.behind uncalled unsent rfl
  have all := first.trans (fun closing => serveAll_course closing rs) fun closed =>
    moves_closed closed (serveAll_moves T rs _)
  simpa [serveAll_cons, serveAll_nil] using all

/-! ### The end of a close -/

/-- The history of a connection that has closed. Behind the transport's last answer all that was
    queued and has not ended yet is cancelled, in order, then the close is reported, and nothing
    else fires or is called. Nor are bytes received, if the transport sets its options quietly. -/
def Silenced (T : Transport σ) (gs : List Grant) (es : List Event) : Prop :=
  ∃ pre a was post, es = pre ++ called (.close a) :: .note (.phaseChanged was .closed) :: post ∧
    (a = .waiting → .ending ∈ gs) ∧ closeEnds pre = [] ∧ calls post = [] ∧
    callbacks post =
      ((queued gs).drop (completions pre).length).map
          (fun m => .sendComplete m.tag .cancelled .closed) ++
        (closings gs).map (fun tag => .closeComplete tag .closed) ∧
    (T.SetsQuietly → ∀ e ∈ post, e.isReceipt = false)

namespace Silenced

/-- The closes whose end is reported are those that were granted. -/
theorem closeEnds_eq (h : Silenced T gs es) : closeEnds es = closings gs := by
  obtain ⟨pre, a, was, post, rfl, -, unended, -, fired, -⟩ := h
  have late := closeEnds_of_callbacks fired
  have between : closeEnds [called (.close a), .note (.phaseChanged was .closed)] = [] := by
    simp [closeEnds]
  rw [closeEnds_append, unended, List.nil_append,
    show ∀ a b, (a :: b :: post : List Event) = [a, b] ++ post from fun _ _ => rfl,
    closeEnds_append, between, late, List.nil_append]

/-- Refusals and offers add nothing. -/
theorem append (h : Silenced T gs es) (uncalled : calls fs = []) (silent : callbacks fs = [])
    (asked : queued hs = [] ∧ closings hs = [])
    (hushed : T.SetsQuietly → ∀ e ∈ fs, e.isReceipt = false) :
    Silenced T (gs ++ hs) (es ++ fs) := by
  obtain ⟨pre, a, was, post, rfl, forced, unended, uncalled', fired, hushed'⟩ := h
  refine ⟨pre, a, was, post ++ fs, by simp, ?_, unended, by simp [uncalled, uncalled'], ?_, ?_⟩
  · intro waits
    exact List.mem_append_left _ (forced waits)
  · simpa [asked, silent] using fired
  · intro quiet e he
    rcases List.mem_append.mp he with early | late
    · exact hushed' quiet e early
    · exact hushed quiet e late

end Silenced

/-- Where the close stands. -/
structure Closure (T : Transport σ) (gs : List Grant) (es : List Event) (c : Connection σ) : Prop where
  /-- What is queued, for the end of the close. -/
  ledger : Ledger gs es c
  /-- While the close is not over its callback waits. -/
  awaited : c.phase ≠ .closed → c.awaitingClose.toList = closings gs ∧ closeEnds es = []
  /-- There is none before the connection is closing. -/
  none : c.phase ≠ .closing → c.phase ≠ .closed → closings gs = []
  single : (closings gs).length ≤ 1
  closed : c.phase = .closed → Silenced T gs es

namespace Closure

theorem first (t : σ) : Closure T [] [] (ofTransport t) where
  ledger := Ledger.first t
  awaited _ := ⟨rfl, rfl⟩
  none _ _ := rfl
  single := by simp
  closed hp := by simp [ofTransport] at hp

/-- A move that neither asks for a close nor ends one. -/
theorem frame (h : Closure T gs es c) (ledger : Ledger (gs ++ hs) (es ++ fs) d)
    (asked : closings hs = []) (others : ∀ e ∈ callbacks fs, e.closeEnd? = Option.none)
    (awaiting : d.awaitingClose = c.awaitingClose) (before : c.phase ≠ .closed)
    (behind : d.phase ≠ .closed) (closing : d.phase ≠ .closing → c.phase ≠ .closing) :
    Closure T (gs ++ hs) (es ++ fs) d where
  ledger := ledger
  awaited _ := by simpa [asked, awaiting, closeEnds_eq_nil others] using h.awaited before
  none hc _ := by simpa [asked] using h.none (closing hc) before
  single := by simpa [asked] using h.single
  closed hp := absurd hp behind

/-- A move that is no more than an aside. -/
theorem aside (h : Closure T gs es c) (ledger : Ledger (gs ++ hs) (es ++ fs) d)
    (asked : queued hs = [] ∧ closings hs = []) (uncalled : calls fs = [])
    (silent : callbacks fs = []) (phase : d.phase = c.phase)
    (awaiting : d.awaitingClose = c.awaitingClose)
    (hushed : T.SetsQuietly → ∀ e ∈ fs, e.isReceipt = false) :
    Closure T (gs ++ hs) (es ++ fs) d where
  ledger := ledger
  awaited hp := by
    rw [phase] at hp
    simpa [asked, awaiting, closeEnds, silent] using h.awaited hp
  none hc hp := by
    rw [phase] at hc hp
    simpa [asked] using h.none hc hp
  single := by simpa [asked] using h.single
  closed hp := by
    rw [phase] at hp
    exact (h.closed hp).append uncalled silent asked hushed

/-- The move that begins a close. -/
theorem begins (h : Closure T gs es c) (ledger : Ledger (gs ++ hs) (es ++ fs) d) {tag : Tag}
    (was : c.phase ≠ .closing ∧ c.phase ≠ .closed) (asked : closings hs = [tag])
    (others : ∀ e ∈ callbacks fs, e.closeEnd? = Option.none)
    (awaiting : d.awaitingClose = some tag) (phase : d.phase = .closing) :
    Closure T (gs ++ hs) (es ++ fs) d := by
  have nothing := h.none was.1 was.2
  have unended := (h.awaited was.2).2
  exact {
    ledger := ledger
    awaited := fun _ => by simp [awaiting, nothing, asked, unended, closeEnds_eq_nil others]
    none := fun hc _ => absurd phase hc
    single := by simp [nothing, asked]
    closed := by simp [phase] }

/-- The move that ends a close. -/
theorem ends (h : Closure T gs es c) {a : Progress} {s : σ} {effects : List Effect}
    (ledger : Ledger (gs ++ hs) (es ++ (inside effects ++ called (.close a) :: farewell c a)) (ended s))
    (asked : queued hs = [] ∧ closings hs = []) (before : c.phase ≠ .closed)
    (forced : a = .waiting → .ending ∈ hs) :
    Closure T (gs ++ hs) (es ++ (inside effects ++ called (.close a) :: farewell c a)) (ended s) where
  ledger := ledger
  awaited hp := absurd rfl hp
  none _ hp := absurd rfl hp
  single := by simpa [asked] using h.single
  closed _ := by
    obtain ⟨awaiting, unended⟩ := h.awaited before
    refine ⟨es ++ inside effects, a, c.phase, (farewell c a).tail, by simp [farewell], ?_, ?_, ?_, ?_,
      ?_⟩
    · intro waits
      exact List.mem_append_right _ (forced waits)
    · rw [closeEnds_append, unended, closeEnds_eq_nil (by simp)]
      rfl
    · cases a <;> simp [farewell]
    · -- The outbox holds what was queued and has not ended.
      have waiting := congrArg
        (List.map fun entry : Tag × Bytes => Event.sendComplete entry.1 .cancelled .closed)
        h.ledger.balance.entries
      simp only [List.map_map] at waiting
      have fired : callbacks (farewell c a).tail = callbacks (farewell c a) := rfl
      rw [fired, callbacks_farewell, awaiting]
      simpa [asked, Function.comp_def, Message.entry] using waiting
    · intro _ e he
      exact no_receipt_farewell c a e (List.mem_of_mem_tail he)

/-- **Step**: every move brings the close on as its phase allows. -/
theorem step (h : Closure T gs es c) (move : Move T c hs fs d) :
    Closure T (gs ++ hs) (es ++ fs) d := by
  have ledger := h.ledger.step move
  cases move with
  | refuse note _ =>
    exact h.aside ledger ⟨rfl, rfl⟩ (by simp) (by simp) rfl rfl (by simp [Event.isReceipt])
  | @offer name value _ _ effects run =>
    refine h.aside ledger ⟨rfl, rfl⟩ (by simp) (by simp) rfl rfl fun hushed => ?_
    have silent := hushed name value c.transport
    rw [run] at silent
    simpa [inside, Event.isReceipt] using silent
  -- Moves that leave the close alone.
  | beginOpen tag hp | openWaits hp | openDone hp | openFails hp | dropOpen hp =>
    exact h.frame ledger rfl (by simp [Event.closeEnd?]) rfl (by simp [hp]) (by simp [hp]) (by simp [hp])
  | read hp | readFails hp | queue _ _ hp | writeStays hp | writeEnds hp =>
    exact h.frame ledger rfl (by simp [Event.closeEnd?]) rfl (by simp [hp]) (by simp [hp]) (by simp [hp])
  | writeFails hp =>
    exact h.frame ledger rfl (by simp [Event.closeEnd?, or_imp, forall_and]) rfl (by simp [hp]) (by simp)
      (by simp [hp])
  | closeWaits hp _ =>
    exact h.frame ledger rfl (by simp) rfl (by simp [hp]) (by simp [hp]) (by simp [hp])
  -- The close begins, and it ends.
  | beginClose tag hp =>
    exact h.begins ledger (by rcases hp with hp | hp <;> simp [hp]) rfl (by simp) rfl rfl
  | breakOpen tag hp =>
    exact h.begins ledger (by simp [hp]) rfl (by simp [Event.closeEnd?]) rfl rfl
  | closeEnds hp ha _ =>
    exact h.ends ledger ⟨rfl, rfl⟩ (by simp [hp]) fun waits => absurd waits ha
  | destroy hp _ =>
    exact h.ends ledger ⟨rfl, rfl⟩ (by rcases hp with hp | hp | hp <;> simp [hp]) (by simp)

end Closure

/-! ### The theorem -/

/-- **How a close goes.** In every life over every transport at most one close counts, the one that
    finds the connection between its first open and its close. Its callback fires once, when the
    connection is closed, and no other close is ever reported. A close that comes later is accepted
    and does nothing.

    From the close that counts on, the transport is asked to close at once and then once a poll, and
    nothing else, until it answers something else than that it waits. As long as it waits no send
    ends and the outbox stays as it is. If it answers that `w` times, the connection is closed behind
    the `w`th poll, not earlier and not later; only a destruction can force it.

    Once closed, all that was queued has been cancelled, in order, then the close was reported, and no
    further callback fires and no further call is made. Nor are bytes received, if the transport sets
    its options quietly; the transports of this library do, since they deliver in reads only
    (`Tcp.deliversInReads` and the like). -/
theorem close_course (T : Transport σ) (t : σ) (rs : List Request) (destroyed : Bool) :
    let o := (live T rs destroyed).run (ofTransport t)
    let counting := closers T (ofTransport t) rs
    counting.length ≤ 1 ∧
    closeEnds o.events = (if o.state.phase = .closed then counting else []) ∧
    (∀ before tag after, rs = before ++ .beginClose tag :: after →
      let c := ((serveAll T before).run (ofTransport t)).state
      (c.phase = .closing ∨ c.phase = .closed →
        (serve T (.beginClose tag)).run c = ⟨.accepted (.ok ()), c, []⟩) ∧
      (c.phase = .opening ∨ c.phase = .opened ∨ c.phase = .failed →
        counting = [tag] ∧
        ∀ first second, after = first ++ second →
          let p := (serveAll T (.beginClose tag :: first)).run c
          CloseCourse c p.state (1 + polls first) p.events ∧
          ∀ w a, a ≠ .waiting →
            calls ((serveAll T (.beginClose tag :: after)).run c).events =
              List.replicate w (.close .waiting) ++ [.close a] →
            (p.state.phase = .closed ↔ w ≤ polls first))) ∧
    (o.state.phase = .closed → ∃ pre a was post,
      o.events = pre ++ called (.close a) :: .note (.phaseChanged was .closed) :: post ∧
      (a = .waiting → destroyed = true) ∧ closeEnds pre = [] ∧ calls post = [] ∧
      callbacks post =
        ((accepted rs o.answer).drop (completions pre).length).map
            (fun m => .sendComplete m.tag .cancelled .closed) ++
          counting.map (fun tag => .closeComplete tag .closed) ∧
      (T.SetsQuietly → ∀ e ∈ post, e.isReceipt = false)) := by
  intro o counting
  have closure : Closure T (lifeGrants T t rs destroyed) o.events o.state :=
    (live_moves T t rs destroyed).invariant Closure.step (Closure.first t)
  have granted : closings (lifeGrants T t rs destroyed) = counting :=
    closings_lifeGrants T t rs destroyed
  have single := closure.single
  rw [granted] at single
  refine ⟨single, ?_, ?_, ?_⟩
  · split
    · rw [(closure.closed ‹_›).closeEnds_eq, granted]
    · exact (closure.awaited ‹_›).2
  · intro before tag after split c
    refine ⟨fun hp => run_beginClose_again hp tag, fun hp => ⟨?_, ?_⟩⟩
    · -- It counts, and there is no other.
      have counts : tag ∈ counting := by
        show tag ∈ closers T (ofTransport t) rs
        rw [split, closers_append]
        refine List.mem_append_right _ (List.mem_append_left _ ?_)
        show tag ∈ (if c.phase = .opening ∨ c.phase = .opened ∨ c.phase = .failed then [tag] else [])
        rw [if_pos hp]
        exact List.mem_singleton_self tag
      obtain ⟨only, same⟩ := List.length_eq_one_iff.mp
        (Nat.le_antisymm single (List.length_pos_of_mem counts))
      rw [same] at counts ⊢
      rw [List.mem_singleton.mp counts]
    · rintro first second rfl p
      have course := beginClose_course (T := T) hp tag first
      refine ⟨course, fun w a ha all => ?_⟩
      rw [← List.cons_append, run_serveAll_append] at all
      have rests (closed : p.state.phase = .closed) :
          calls ((serveAll T second).run p.state).events = [] :=
        (moves_closed closed (serveAll_moves T second p.state)).2
      rw [course.closed_iff rests ha all]
      omega
  · intro closed
    obtain ⟨pre, a, was, post, split, forced, unended, uncalled, fired, hushed⟩ :=
      closure.closed closed
    rw [queued_lifeGrants, granted] at fired
    refine ⟨pre, a, was, post, split, ?_, unended, uncalled, fired, hushed⟩
    intro waits
    have ending := forced waits
    cases destroyed with
    | true => rfl
    | false =>
      have requested : Grant.ending ∈ grants T (ofTransport t) rs := by simpa [lifeGrants] using ending
      exact absurd requested (ending_not_mem_grants T _ rs)

end Connection

end PolledConnection
