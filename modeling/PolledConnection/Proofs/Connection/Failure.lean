import PolledConnection.Proofs.Connection.Ledger
import PolledConnection.Proofs.Connection.Opening
import PolledConnection.Script.Transport

/-! # How a failure is reported

  While bytes flow the transport can fail once: a read fails, or a write does.
  The client is told at once and only then, and if it was a write, the message
  at the head of the outbox ends badly directly behind that (`Breakdown`). An
  open that fails is reported as the end of the open, and not as a failure.

  A connection that has failed is at rest. Whatever it is asked for, if not to
  close, changes nothing in it but the options of its transport, makes no call
  and fires nothing (`Moves.rests`).
-/

namespace PolledConnection

open Transport (Call)

/-- The callback that an event tells of a failure. -/
def Event.alarm? : Event → Option Tag
  | .ioError tag _ => some tag
  | _ => none

section
variable (tag : Tag) (verdict : Verdict) (phase : Phase)

@[simp] theorem Event.alarm?_ioError : (Event.ioError tag phase).alarm? = some tag := rfl

@[simp] theorem Event.alarm?_openComplete :
    (Event.openComplete tag verdict phase).alarm? = none := rfl

@[simp] theorem Event.alarm?_sendComplete :
    (Event.sendComplete tag verdict phase).alarm? = none := rfl

@[simp] theorem Event.alarm?_closeComplete : (Event.closeComplete tag phase).alarm? = none := rfl

end

namespace Connection

variable {σ : Type} {T : Transport σ} {c d : Connection σ} {gs hs : List Grant}
variable {es fs : List Event} {sent : List Message} {tag : Tag} {call : Call} {k : Nat}

/-! ### Alarms -/

/-- The callbacks that were told of a failure. -/
def alarms (es : List Event) : List Tag := (callbacks es).filterMap Event.alarm?

@[simp] theorem alarms_append (es fs : List Event) : alarms (es ++ fs) = alarms es ++ alarms fs := by
  simp [alarms]

theorem mem_alarms : tag ∈ alarms es ↔ ∃ phase, .ioError tag phase ∈ es := by
  simp only [alarms, callbacks, List.mem_filterMap, List.mem_filter]
  constructor
  · rintro ⟨e, ⟨member, -⟩, told⟩
    cases e with
    | ioError other phase =>
      obtain rfl : other = tag := Option.some.inj told
      exact ⟨phase, member⟩
    | openComplete | sendComplete | closeComplete | transport | note => contradiction
  · rintro ⟨phase, member⟩
    exact ⟨_, ⟨member, rfl⟩, rfl⟩

/-- No read or write has failed, and no failure was reported. -/
structure Calm (es : List Event) : Prop where
  flow : ∀ call ∈ calls es, call.breaks = false
  silent : alarms es = []

theorem Calm.nil : Calm [] := ⟨by simp, rfl⟩

theorem Calm.append (h₁ : Calm es) (h₂ : Calm fs) : Calm (es ++ fs) where
  flow := by
    intro call member
    rw [calls_append, List.mem_append] at member
    exact member.elim (h₁.flow call) (h₂.flow call)
  silent := by rw [alarms_append, h₁.silent, h₂.silent, List.append_nil]

/-- Where all is calm, no event tells of a call that breaks the flow. -/
theorem Calm.not_breaks (h : Calm es) {e : Event} (he : e ∈ es) :
    ¬ ∃ call, e.call? = some call ∧ call.breaks = true := by
  rintro ⟨call, tells, breaks⟩
  have member : call ∈ calls es := List.mem_filterMap.mpr ⟨e, he, tells⟩
  simp [h.flow call member] at breaks

/-! ### Reports -/

/-- What follows a call that has failed: `tag` is told. If it was a write, the next message, behind
    the first `k`, ends badly directly behind that. -/
inductive Report (sent : List Message) (k : Nat) (tag : Tag) : Call → List Event → Prop where
  | read : Report sent k tag (.read .failed)
      [.note .readFailed, .note (.phaseChanged .opened .failed), .ioError tag .failed]
  | write {head : Message} {offered : Bytes} {fault : Fault} (next : sent[k]? = some head)
      (rest : offered <:+ head.bytes) : Report sent k tag (.write offered (.error fault))
      [.note (.writeFailed fault), .note (.phaseChanged .opened .failed), .ioError tag .failed,
        .sendComplete head.tag .failed .failed]

namespace Report

variable {report : List Event}

/-- Messages that are accepted later do not matter. -/
theorem more (h : Report sent k tag call report) (later : List Message) :
    Report (sent ++ later) k tag call report := by
  cases h with
  | read => exact .read
  | write next rest =>
    have inside : k < sent.length := (List.getElem?_eq_some_iff.mp next).1
    exact .write (by rw [List.getElem?_append_left inside, next]) rest

theorem breaks (h : Report sent k tag call report) : call.breaks = true := by
  cases h with
  | read | write => rfl

theorem alarms_eq (h : Report sent k tag call report) : alarms report = [tag] := by
  cases h with
  | read | write => simp [alarms]

theorem calls_eq (h : Report sent k tag call report) : calls report = [] := by
  cases h with
  | read | write => simp

end Report

/-- The history of a connection whose transport has failed: all was calm before the call that failed,
    and is behind its report. -/
def Breakdown (sent : List Message) (tag : Tag) (es : List Event) : Prop :=
  ∃ pre call report post, es = pre ++ called call :: (report ++ post) ∧
    Report sent (completions pre).length tag call report ∧ Calm pre ∧ Calm post

namespace Breakdown

theorem more (h : Breakdown sent tag es) (later : List Message) (calm : Calm fs) :
    Breakdown (sent ++ later) tag (es ++ fs) := by
  obtain ⟨pre, call, report, post, rfl, told, before, behind⟩ := h
  exact ⟨pre, call, report, post ++ fs, by simp, told.more later, before, behind.append calm⟩

theorem alarms_eq (h : Breakdown sent tag es) : alarms es = [tag] := by
  obtain ⟨pre, call, report, post, rfl, told, before, behind⟩ := h
  have between : alarms [called call] = [] := by simp [alarms]
  rw [alarms_append, before.silent, ← List.singleton_append, alarms_append, between, alarms_append,
    told.alarms_eq, behind.silent]
  rfl

theorem breaks (h : Breakdown sent tag es) : ∃ call ∈ calls es, call.breaks = true := by
  obtain ⟨pre, call, report, post, rfl, told, -, -⟩ := h
  exact ⟨call, by simp, told.breaks⟩

/-- An element that is the only one of its kind splits a list in one way. -/
theorem split_unique {α : Type} {kind : α → Prop} {pre post pre' post' : List α} {a b : α}
    (h : pre ++ a :: post = pre' ++ b :: post') (hb : kind b) (early : ∀ x ∈ pre, ¬ kind x)
    (late : ∀ x ∈ post, ¬ kind x) : pre' = pre ∧ b = a ∧ post' = post := by
  rcases List.append_eq_append_iff.mp h with ⟨as, rfl, behind⟩ | ⟨as, rfl, behind⟩
  · cases as with
    | nil =>
      obtain ⟨rfl, rfl⟩ := List.cons.inj behind
      exact ⟨by simp, rfl, rfl⟩
    | cons x as =>
      obtain ⟨rfl, rfl⟩ := List.cons.inj behind
      exact absurd hb (late b (by simp))
  · cases as with
    | nil =>
      obtain ⟨rfl, rfl⟩ := List.cons.inj behind
      exact ⟨by simp, rfl, rfl⟩
    | cons x as =>
      obtain ⟨rfl, rfl⟩ := List.cons.inj behind
      exact absurd hb (early b (by simp))

/-- Every call that has failed is the one that was reported. -/
theorem report_of_breaks (h : Breakdown sent tag es) {pre post : List Event}
    (split : es = pre ++ called call :: post) (hc : call.breaks = true) :
    ∃ report rest, post = report ++ rest ∧ Report sent (completions pre).length tag call report := by
  obtain ⟨front, first, report, rest, rfl, told, before, behind⟩ := h
  have late : ∀ e ∈ report ++ rest, ¬ ∃ call, e.call? = some call ∧ call.breaks = true := by
    intro e he
    rcases List.mem_append.mp he with early | later
    · rintro ⟨other, tells, -⟩
      have member : other ∈ calls report := List.mem_filterMap.mpr ⟨e, early, tells⟩
      simp [told.calls_eq] at member
    · exact behind.not_breaks later
  obtain ⟨rfl, same, rfl⟩ := split_unique split ⟨call, rfl, hc⟩ (fun e he => before.not_breaks he) late
  obtain rfl : call = first := by simpa using same
  exact ⟨report, rest, rfl, told⟩

end Breakdown

/-! ### Opens that fail -/

/-- Behind an open that has failed nothing is read or written. -/
theorem InContract.of_refused {cs : List Call} (h : InContract cs) (failed : .establish .failed ∈ cs) :
    ∀ call ∈ cs, call.breaks = false := by
  obtain ⟨w, body, v, last, traffic, closes, rfl⟩ := h
  have flowing {ios : List Call} (flow : ∀ c ∈ ios, c.flows = true) : .establish .failed ∉ ios := by
    intro member
    simpa [Call.flows] using flow _ member
  have calm : ∀ call ∈ body, call.breaks = false := by
    have inBody : .establish .failed ∈ body := by
      rcases closes with rfl | rfl | rfl <;> simpa using failed
    cases traffic with
    | unopened => simp
    | refused => simp [Call.breaks]
    | flowing flow => simp [flowing flow] at inBody
    | @broken ios last flow hl =>
      have other : .establish .failed ≠ last := by
        rintro rfl
        simp [Call.breaks] at hl
      simp [flowing flow, other] at inBody
  intro call member
  simp only [List.mem_append, List.mem_replicate] at member
  rcases member with ((⟨-, rfl⟩ | inBody) | ⟨-, rfl⟩) | inLast
  · rfl
  · exact calm call inBody
  · rfl
  · rcases closes with rfl | rfl | rfl
    · simp at inLast
    · rw [List.mem_singleton.mp inLast]
      rfl
    · rw [List.mem_singleton.mp inLast]
      rfl

/-! ### The invariant -/

/-- Who would be told of a failure, and whether there was one. -/
structure Watch (gs : List Grant) (es : List Event) (c : Connection σ) : Prop where
  /-- What is queued, for the end of a send. -/
  ledger : Ledger gs es c
  new : c.phase = .initial → opened gs = []
  /-- Up to the end of the flow, the one who has opened is there to be told. -/
  client : c.phase = .opening ∨ c.phase = .opened → ∃ tag, opened gs = [tag] ∧ c.client = some tag
  calm : c.phase.rank ≤ Phase.rank .opened → Calm es
  outcome : Calm es ∨ ∃ tag, opened gs = [tag] ∧ Breakdown (queued gs) tag es

namespace Watch

theorem first (t : σ) : Watch [] [] (ofTransport t) where
  ledger := Ledger.first t
  new _ := rfl
  client hp := by simp [ofTransport] at hp
  calm _ := .nil
  outcome := .inl .nil

/-- A move in which nothing fails. -/
theorem goesOn (h : Watch gs es c) (ledger : Ledger (gs ++ hs) (es ++ fs) d) (calm : Calm fs)
    (asked : opened hs = []) (up : c.phase.rank ≤ d.phase.rank)
    (client : d.phase = .opening ∨ d.phase = .opened →
      (c.phase = .opening ∨ c.phase = .opened) ∧ d.client = c.client) :
    Watch (gs ++ hs) (es ++ fs) d where
  ledger := ledger
  new hp := by
    have initial : c.phase = .initial := by
      rw [hp] at up
      cases was : c.phase <;> simp_all [Phase.rank]
    simp [asked, h.new initial]
  client hp := by
    obtain ⟨was, same⟩ := client hp
    obtain ⟨tag, one, told⟩ := h.client was
    exact ⟨tag, by simp [asked, one], same.trans told⟩
  calm hp := (h.calm (Nat.le_trans up hp)).append calm
  outcome := by
    rcases h.outcome with before | ⟨tag, one, broken⟩
    · exact .inl (before.append calm)
    · refine .inr ⟨tag, by simp [asked, one], ?_⟩
      rw [queued_append]
      exact broken.more _ calm

/-- The move in which the transport fails. -/
theorem fails (h : Watch gs es c) (ledger : Ledger (gs ++ hs) (es ++ fs) d) (hp : c.phase = .opened)
    (asked : opened hs = [] ∧ queued hs = []) (phase : d.phase = .failed) {effects : List Effect}
    {report : List Event} (events : fs = inside effects ++ called call :: report)
    (told : ∀ tag, c.client = some tag →
      Report (queued gs) (completions es).length tag call report) :
    Watch (gs ++ hs) (es ++ fs) d where
  ledger := ledger
  new hp := by simp [phase] at hp
  client hp := by simp [phase] at hp
  calm hp := by simp [phase, Phase.rank] at hp
  outcome := by
    obtain ⟨tag, one, client⟩ := h.client (.inr hp)
    have calm : Calm es := h.calm (Nat.le_of_eq (congrArg Phase.rank hp))
    have quiet : Calm (inside effects) := ⟨by simp, by simp [alarms]⟩
    refine .inr ⟨tag, by simp [asked, one], es ++ inside effects, call, report, [], ?_, ?_, ?_, .nil⟩
    · simp [events]
    · simpa [asked] using told tag client
    · exact calm.append quiet

/-- **Step**: in every move nothing fails, or a failure is reported. -/
theorem step (h : Watch gs es c) (move : Move T c hs fs d) : Watch (gs ++ hs) (es ++ fs) d := by
  have ledger := h.ledger.step move
  have up := (Moves.single move).rank_le
  -- What a move shows of itself if nothing fails in it.
  have calm (flow : ∀ call ∈ calls fs, call.breaks = false)
      (silent : ∀ e ∈ callbacks fs, e.alarm? = none) : Calm fs :=
    ⟨flow, List.filterMap_eq_nil_iff.mpr silent⟩
  cases move with
  | refuse | offer | queue => exact h.goesOn ledger (calm (by simp) (by simp)) rfl up (by simp)
  | beginOpen tag hp =>
    have nothing := h.new hp
    exact {
      ledger := ledger
      new := by simp
      client := fun _ => ⟨tag, by simp [nothing], rfl⟩
      calm := fun _ => (h.calm (by simp [hp, Phase.rank])).append (calm (by simp) (by simp))
      outcome := .inl ((h.calm (by simp [hp, Phase.rank])).append (calm (by simp) (by simp))) }
  | openWaits hp | closeWaits hp =>
    exact h.goesOn ledger (calm (by simp [Call.breaks]) (by simp)) rfl up (by simp [hp])
  | openDone hp | openFails hp =>
    exact h.goesOn ledger (calm (by simp [Call.breaks]) (by simp)) rfl up (by simp [hp])
  | @read a s effects hp ha _ =>
    have flows : (Call.read a).breaks = false := by
      cases a with
      | waiting | done => rfl
      | failed => contradiction
    exact h.goesOn ledger (calm (by simp [flows]) (by simp)) rfl up (by simp [hp])
  | writeStays hp | writeEnds hp =>
    exact h.goesOn ledger (calm (by simp [Call.breaks]) (by simp)) rfl up (by simp [hp])
  | beginClose | breakOpen | dropOpen =>
    exact h.goesOn ledger (calm (by simp) (by simp)) rfl up (by simp)
  | closeEnds | destroy =>
    refine h.goesOn ledger (calm (by simp [Call.breaks]) ?_) rfl up (by simp [ended])
    simp [or_imp, forall_and]
  | readFails hp _ =>
    refine h.fails ledger hp ⟨rfl, rfl⟩ rfl rfl fun tag client => ?_
    simpa [client] using Report.read
  | @writeFails head tail fault s effects hp hm _ =>
    -- The head of the outbox is the first message that was accepted and has not ended.
    have waiting := h.ledger.balance.entries
    obtain ⟨m, ms, rest, same⟩ : ∃ m ms, (queued gs).drop (completions es).length = m :: ms ∧
        head.entry = m.entry := by
      rw [hm] at waiting
      cases hd : (queued gs).drop (completions es).length with
      | nil => simp [hd] at waiting
      | cons m ms => exact ⟨m, ms, rfl, by simpa using (List.cons.inj (by simpa [hd] using waiting)).1⟩
    obtain ⟨tags, bytes⟩ := Prod.mk.inj same
    have next : (queued gs)[(completions es).length]? = some m := by
      rw [← List.head?_drop, rest]
      rfl
    have suffix : head.rest <:+ m.bytes := by
      rw [← bytes]
      exact head.rest_suffix
    refine h.fails ledger hp ⟨rfl, rfl⟩ rfl rfl fun tag client => ?_
    have told : Report (queued gs) (completions es).length tag (.write head.rest (.error fault)) _ :=
      .write next suffix
    simpa [client, tags] using told

end Watch

/-! ### At rest -/

/-- From the failed phase back to it, moves change the transport only, and tell nothing but asides. -/
theorem Moves.rests (moves : Moves T c gs es d) (before : c.phase = .failed)
    (behind : d.phase = .failed) :
    (∃ s, d = { c with transport := s }) ∧ calls es = [] ∧ callbacks es = [] ∧
      (T.SetsQuietly → ∀ e ∈ es, e.isReceipt = false) := by
  induction moves with
  | refl => exact ⟨⟨c.transport, rfl⟩, rfl, rfl, by simp⟩
  | @snoc mid _ _ _ _ _ first last ih =>
    -- No move leads back, so the connection is in the failed phase all the time.
    have up := first.rank_le
    have on := (Moves.single last).rank_le
    have between : mid.phase = .failed := by
      rw [before] at up
      rw [behind] at on
      cases was : mid.phase <;> simp_all [Phase.rank]
    obtain ⟨⟨s, rfl⟩, uncalled, silent, hushed⟩ := ih between
    cases last with
    | refuse =>
      refine ⟨⟨s, rfl⟩, by simp [uncalled], by simp [silent], fun quiet e he => ?_⟩
      rcases List.mem_append.mp he with early | late
      · exact hushed quiet e early
      · rw [List.mem_singleton.mp late]
        rfl
    | @offer name value r u effects run =>
      refine ⟨⟨u, rfl⟩, by simp [uncalled], by simp [silent], fun quiet e he => ?_⟩
      rcases List.mem_append.mp he with early | late
      · exact hushed quiet e early
      · have quietly := quiet name value s
        rw [show (T.setOption name value).run s = ⟨r, u, effects⟩ from run] at quietly
        obtain ⟨effect, member, rfl⟩ := List.mem_map.mp late
        exact quietly effect member
    | beginOpen | openWaits | openDone | openFails | read | readFails | queue | writeStays | writeEnds
    | writeFails | beginClose | breakOpen | dropOpen | closeWaits | closeEnds | destroy =>
      simp_all [ended]

/-- Nothing but a close leads out of the failed phase. -/
theorem serveAll_failed (rs : List Request) (others : ∀ r ∈ rs, ∀ tag, r ≠ .beginClose tag)
    (hp : c.phase = .failed) : ((serveAll T rs).run c).state.phase = .failed := by
  induction rs generalizing c with
  | nil => exact hp
  | cons r rs ih =>
    have stays : ((serve T r).run c).state.phase = .failed := by
      have close := others r List.mem_cons_self
      by_cases polls : ∃ times, r = .poll times
      · obtain ⟨times, rfl⟩ := polls
        cases times <;> simp [serve, pollTimes, isIdle, hp]
      · obtain ⟨⟨s, state⟩, -⟩ := serve_aside (T := T) (c := c) r (by simp [hp])
          (by simpa using polls) close (by simp [hp])
        rw [state]
        exact hp
    exact ih (fun q hq => others q (List.mem_cons_of_mem _ hq)) stays

/-! ### The theorem -/

/-- **How a failure is reported.** In every life over every transport the error callback fires once at
    most. It fires exactly if a read or a write has failed, directly behind that call, and tells the
    one who has opened. If it was a write, the message at the head of the outbox ends badly directly
    behind that; this is the first that was accepted and had not ended by then. An open that fails
    never fires it.

    From a point on at which the connection has failed, and as long as it is not asked to close, it
    stays as it is but for its transport. No call is made and no callback fires; nor are bytes received,
    if the transport sets its options quietly. The transports of this library do, since they deliver
    in reads only (`Tcp.deliversInReads` and the like). -/
theorem failure_reported (T : Transport σ) (t : σ) (rs : List Request) (destroyed : Bool) :
    let o := (live T rs destroyed).run (ofTransport t)
    let sent := accepted rs o.answer
    (alarms o.events).length ≤ 1 ∧
    ((∃ tag phase, .ioError tag phase ∈ o.events) ↔ ∃ call ∈ calls o.events, call.breaks = true) ∧
    (.establish .failed ∈ calls o.events → ∀ tag phase, .ioError tag phase ∉ o.events) ∧
    (∀ pre call post, o.events = pre ++ called call :: post → call.breaks = true →
      ∃ tag report rest, openers rs o.answer = [tag] ∧ post = report ++ rest ∧
        Report sent (completions pre).length tag call report) ∧
    (∀ before quiet after, rs = before ++ (quiet ++ after) →
      (∀ r ∈ quiet, ∀ tag, r ≠ .beginClose tag) →
      let c := ((serveAll T before).run (ofTransport t)).state
      let p := (serveAll T quiet).run c
      c.phase = .failed →
        (∃ s, p.state = { c with transport := s }) ∧ calls p.events = [] ∧ callbacks p.events = [] ∧
        (T.SetsQuietly → ∀ e ∈ p.events, e.isReceipt = false)) := by
  intro o sent
  have moves := live_moves T t rs destroyed
  have watch : Watch (lifeGrants T t rs destroyed) o.events o.state :=
    moves.invariant Watch.step (Watch.first t)
  have mandate : Mandate (lifeGrants T t rs destroyed) o.events o.state :=
    moves.invariant Mandate.step (Mandate.first t)
  have outcome := watch.outcome
  rw [queued_lifeGrants, opened_lifeGrants] at outcome
  have fires : (∃ tag phase, .ioError tag phase ∈ o.events) ↔
      ∃ call ∈ calls o.events, call.breaks = true := by
    rcases outcome with calm | ⟨tag, -, broken⟩
    · constructor
      · rintro ⟨tag, phase, told⟩
        have alarm : tag ∈ alarms o.events := mem_alarms.mpr ⟨phase, told⟩
        simp [calm.silent] at alarm
      · rintro ⟨call, member, breaks⟩
        simp [calm.flow call member] at breaks
    · have alarm : tag ∈ alarms o.events := by simp [broken.alarms_eq]
      exact iff_of_true ⟨tag, mem_alarms.mp alarm⟩ broken.breaks
  refine ⟨?_, fires, ?_, ?_, ?_⟩
  · rcases outcome with calm | ⟨tag, -, broken⟩
    · simp [calm.silent]
    · simp [broken.alarms_eq]
  · intro refused tag phase told
    obtain ⟨call, member, breaks⟩ := fires.mp ⟨tag, phase, told⟩
    simp [mandate.word.inContract.of_refused refused call member] at breaks
  · intro pre call post split breaks
    rcases outcome with calm | ⟨tag, one, broken⟩
    · have member : called call ∈ o.events := by simp [split]
      exact absurd ⟨call, rfl, breaks⟩ (calm.not_breaks member)
    · obtain ⟨report, rest, rfl, told⟩ := broken.report_of_breaks split breaks
      exact ⟨tag, report, rest, one, rfl, told⟩
  · intro before quiet after _ others c p failed
    exact (serveAll_moves T quiet c).rests failed (serveAll_failed quiet others failed)

/-- A write that fails inside a send ends the message at the head, here an older one than that which
    is being sent. -/
example :
    let script : Script.Transport := {
      opens := [⟨[], .done⟩]
      closes := []
      reads := []
      writes := [.upTo 0, .failing (.io (.bare .connectionReset))]
      writeDefault := none
      accepted := []
      options := .empty
      receiver := none }
    let o := (live Script.Transport.transport
      [.beginOpen "open", .poll 1, .send "older" [1], .send "younger" [2]] true).run
        (ofTransport script)
    callbacks o.events = [.openComplete "open" .ok .opened, .ioError "open" .failed,
      .sendComplete "older" .failed .failed, .sendComplete "younger" .cancelled .closed] := by
  decide

end Connection

end PolledConnection
