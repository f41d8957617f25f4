import PolledConnection.Proofs.Connection.Callbacks
import PolledConnection.Proofs.Connection.Driven

/-! # Requests without a trace

  Some requests come to nothing: an open of a connection that is not new, a
  close of one that is new or closes already, a message of an unusable size or
  at the wrong time (`dismissal?`). Such a request is answered, and that is all:
  without it the run would have been the same, from its first event to its last
  but for a note (`dismissed_without_trace`).

  Its callback is forgotten: all callbacks of a life are those of requests that
  were accepted (`everyCallback`).
-/

namespace PolledConnection

/-- The callback that an event tells of. -/
def Event.tag? : Event → Option Tag
  | .openComplete tag .. | .ioError tag _ | .sendComplete tag .. | .closeComplete tag _ => some tag
  | .transport _ | .note _ => none

namespace Connection

variable {σ : Type} {T : Transport σ} {c d : Connection σ} {gs hs : List Grant}
variable {es fs : List Event} {tag : Tag}

/-! ### Requests that come to nothing -/

/-- How a message of a size is refused in a phase. Its size comes first, then the phase. -/
def sendDismissal? (phase : Phase) (size : Nat) : Option (Except Fault Unit) :=
  if size = 0 ∨ 0x7fffffff ≤ size then some (.error (.invalidParameter "buffer"))
  else if phase = .opened then none
  else some (.error (.notAllowed "send" phase))

/-- How a request is answered that comes to nothing in a phase. -/
def dismissal? (phase : Phase) : Request → Option (Except Fault Unit)
  | .beginOpen _ => if phase = .initial then none else some (.error (.notAllowed "open" phase))
  | .beginClose _ =>
    if phase = .initial then some (.error (.notAllowed "close" phase))
    else if phase = .closing ∨ phase = .closed then some (.ok ())
    else none
  | .send _ bytes => sendDismissal? phase bytes.length
  | .sendZeros _ size => sendDismissal? phase size
  | .poll _ | .setOption .. | .retrieve | .replay _ => none

/-- The callback that a request brings along. -/
def Request.tag? : Request → Option Tag
  | .beginOpen tag | .beginClose tag | .send tag _ | .sendZeros tag _ => some tag
  | .poll _ | .setOption .. | .retrieve | .replay _ => none

/-- The act answers, changes nothing, and tells at most of a refusal. -/
def Idle {α : Type} (c : Connection σ) (m : Step σ α) (answer : α) : Prop :=
  ∃ note : Option Note, (∀ n ∈ note, isRefusal n = true) ∧
    m.run c = ⟨answer, c, note.toList.map .note⟩

theorem isSendable_eq_false_iff (size : Nat) :
    isSendable size = false ↔ size = 0 ∨ 0x7fffffff ≤ size := by
  rw [isSendable, ← Bool.not_eq_true, Bool.and_eq_true, decide_eq_true_eq, decide_eq_true_eq, sizeLimit]
  omega

/-- A message is refused as its dismissal says, or accepted if there is none. -/
theorem run_clearance (size : Nat) :
    match sendDismissal? c.phase size with
    | some answer => Idle c (clearance size) answer ∧ ∃ fault, answer = .error fault
    | none => (clearance size).run c = ⟨.ok (), c, []⟩ := by
  by_cases hs : isSendable size = false
  · have bad := (isSendable_eq_false_iff size).mp hs
    simp only [sendDismissal?, bad, if_true]
    exact ⟨⟨some (.sizeRefused size), by simp [isRefusal], by simp [clearance, hs]⟩, _, rfl⟩
  · have good := mt (isSendable_eq_false_iff size).mpr hs
    by_cases hp : c.phase = .opened
    · simp [sendDismissal?, good, hp, clearance, hs]
    · simp only [sendDismissal?, good, hp, if_false]
      exact ⟨⟨some .sendRefused, by simp [isRefusal], by simp [clearance, hs, hp]⟩, _, rfl⟩

theorem send_dismissed {bytes : Bytes} {answer : Except Fault Unit}
    (h : sendDismissal? c.phase bytes.length = some answer) : Idle c (send T tag bytes) answer := by
  have run := run_clearance (c := c) bytes.length
  rw [h] at run
  obtain ⟨⟨note, refusal, run⟩, fault, rfl⟩ := run
  exact ⟨note, refusal, by simp [send, run]⟩

/-- What comes to nothing is answered, and that is all. -/
theorem serve_dismissed {r : Request} {answer : Except Fault Unit}
    (h : dismissal? c.phase r = some answer) : Idle c (serve T r) (.accepted answer) := by
  have map {m : Step σ (Except Fault Unit)} (idle : Idle c m answer) :
      Idle c (Answer.accepted <$> m) (.accepted answer) := by
    obtain ⟨note, refusal, run⟩ := idle
    exact ⟨note, refusal, by simp [run]⟩
  cases r with
  | beginOpen tag =>
    simp only [dismissal?] at h
    split at h
    · contradiction
    · obtain rfl := Option.some.inj h
      exact map ⟨some (.openRefused c.phase), by simp [isRefusal], by simp [beginOpen, *]⟩
  | beginClose tag =>
    simp only [dismissal?] at h
    split at h
    · obtain rfl := Option.some.inj h
      exact map ⟨some .closeRefused, by simp [isRefusal], by simp [beginClose, *]⟩
    · split at h
      · obtain rfl := Option.some.inj h
        exact ⟨none, by simp, run_beginClose_again ‹_› tag⟩
      · contradiction
  | send tag bytes => exact map (send_dismissed h)
  | sendZeros tag size =>
    simp only [serve, sendZeros_eq]
    exact map (send_dismissed (by simpa [dismissal?] using h))
  | poll | setOption | retrieve | replay => contradiction

/-- What does not come to nothing is accepted. -/
theorem serve_accepted {r : Request} (brings : r.tag?.isSome = true)
    (h : dismissal? c.phase r = none) : ((serve T r).run c).answer = .accepted (.ok ()) := by
  have sends (tag : Tag) (bytes : Bytes) (h : sendDismissal? c.phase bytes.length = none) :
      ((send T tag bytes).run c).answer = .ok () := by
    have run := run_clearance (c := c) bytes.length
    rw [h] at run
    simp [send, run]
  cases r with
  | beginOpen tag =>
    have hp : c.phase = .initial := by simpa [dismissal?] using h
    simp [serve, beginOpen, hp]
  | beginClose tag =>
    cases hp : c.phase with
    | initial | closing | closed => simp [dismissal?, hp] at h
    | opening | opened | failed => simp [serve, beginClose, hp]
  | send tag bytes => simp [serve, sends tag bytes h]
  | sendZeros tag size =>
    have zeros := sends tag (List.replicate size 0) (by simpa [dismissal?] using h)
    simp [serve, sendZeros_eq, zeros]
  | poll | setOption | retrieve | replay => simp [Request.tag?] at brings

/-! ### Known tags -/

/-- The callbacks that a history tells of. -/
def named (es : List Event) : List Tag := es.filterMap Event.tag?

@[simp] theorem named_nil : named [] = [] := rfl

@[simp] theorem named_cons (e : Event) (es : List Event) :
    named (e :: es) = e.tag?.toList ++ named es := by
  cases h : e.tag? <;> simp [named, h]

@[simp] theorem named_append (es fs : List Event) : named (es ++ fs) = named es ++ named fs :=
  List.filterMap_append

@[simp] theorem named_inside (effects : List Effect) : named (inside effects) = [] := by
  simp [named, inside, Event.tag?]

section
variable (verdict : Verdict) (phase : Phase) (tags : List Tag) (messages : List Message)

@[simp] theorem named_openComplete :
    named (tags.map fun tag => .openComplete tag verdict phase) = tags := by
  simp [named, List.filterMap_map, Function.comp_def, Event.tag?]

@[simp] theorem named_ioError : named (tags.map fun tag => .ioError tag phase) = tags := by
  simp [named, List.filterMap_map, Function.comp_def, Event.tag?]

@[simp] theorem named_closeComplete :
    named (tags.map fun tag => .closeComplete tag phase) = tags := by
  simp [named, List.filterMap_map, Function.comp_def, Event.tag?]

@[simp] theorem named_sendComplete :
    named (messages.map fun m => .sendComplete m.tag verdict phase) = messages.map Message.tag := by
  simp [named, List.filterMap_map, Function.comp_def, Event.tag?]

end

@[simp] theorem named_farewell (c : Connection σ) (answer : Progress) :
    named (farewell c answer) = c.outbox.messages.map Message.tag ++ c.awaitingClose.toList := by
  cases answer <;> simp [farewell, Event.tag?]

/-- The callbacks that a connection holds. -/
def tags (c : Connection σ) : List Tag :=
  c.awaitingOpen.toList ++ c.client.toList ++ c.awaitingClose.toList ++
    c.outbox.messages.map Message.tag

/-- The callback that a grant brings along. -/
def Grant.tag? : Grant → Option Tag
  | .opening tag | .closing tag => some tag
  | .sending m => some m.tag
  | .offering .. | .ending => none

/-- The callbacks that were granted. -/
def introduced (gs : List Grant) : List Tag := gs.filterMap Grant.tag?

@[simp] theorem introduced_append (gs hs : List Grant) :
    introduced (gs ++ hs) = introduced gs ++ introduced hs :=
  List.filterMap_append

/-- Whatever a move fires or leaves to be fired was held before it, or comes with it. -/
theorem Move.named (move : Move T c gs es d) (h : tag ∈ tags d ∨ tag ∈ Connection.named es) :
    tag ∈ tags c ∨ tag ∈ introduced gs := by
  cases move with
  | refuse | offer | openWaits | read | closeWaits =>
    left
    simpa [tags, Event.tag?] using h
  | beginOpen | queue | beginClose =>
    simp [tags, introduced, Grant.tag?, Event.tag?, Message.new] at h ⊢
    grind
  | openDone | openFails | breakOpen | dropOpen | readFails =>
    simp [tags, introduced, Grant.tag?, Event.tag?] at h ⊢
    grind
  | writeStays hp hm | writeEnds hp hm | writeFails hp hm =>
    left
    simp [tags, hm, Event.tag?, Message.accept_eq] at h ⊢
    grind
  | closeEnds | destroy =>
    left
    simp [tags, ended, Outbox.empty, Event.tag?] at h ⊢
    grind

/-- All callbacks, whatever they are for. -/
def everyCallback : Lineage σ where
  brought := Grant.tag?
  held := tags
  shown := Event.tag?
  client h := by simp [tags, h]
  new _ := rfl
  kept := Move.named

/-- What is granted to a request has the tag of the request. -/
theorem introduced_granted {r : Request} {a : Answer} (h : tag ∈ introduced (granted T c r a)) :
    r.tag? = some tag := by
  have nothing (options : List (String × Setting)) (c : Connection σ) :
      introduced (offered T c options) = [] := by
    induction options generalizing c with
    | nil => rfl
    | cons option rest ih =>
      rw [offered, ← List.singleton_append, introduced_append]
      split
      · rfl
      · exact ih _
  unfold granted at h
  split at h
  · simpa [introduced, Grant.tag?, Request.tag?, eq_comm] using h
  · split at h
    · simp [introduced] at h
    · simpa [introduced, Grant.tag?, Request.tag?, eq_comm] using h
  · simp [introduced, Grant.tag?] at h
  · simp [nothing] at h
  · unfold acceptedBy at h
    split at h <;> simp_all [introduced, Grant.tag?, Request.tag?, Message.new]

theorem introduced_grants {rs : List Request} (h : tag ∈ introduced (grants T c rs)) :
    ∃ r ∈ rs, r.tag? = some tag := by
  induction rs generalizing c with
  | nil => simp [grants, introduced] at h
  | cons r rs ih =>
    rw [grants, introduced_append, List.mem_append] at h
    rcases h with here | later
    · exact ⟨r, List.mem_cons_self, introduced_granted here⟩
    · obtain ⟨q, member, tells⟩ := ih later
      exact ⟨q, List.mem_cons_of_mem _ member, tells⟩

theorem introduced_lifeGrants {t : σ} {rs : List Request} {destroyed : Bool}
    (h : tag ∈ introduced (lifeGrants T t rs destroyed)) : ∃ r ∈ rs, r.tag? = some tag := by
  have nothing : introduced (if destroyed then dropped ((serveAll T rs).run (ofTransport t)).state
      else []) = [] := by
    unfold dropped
    split
    · split <;> rfl
    · rfl
  rw [lifeGrants, introduced_append, nothing, List.append_nil] at h
  exact introduced_grants h

/-- **Whole lives**: nothing bears a tag that no request has brought. -/
theorem live_untagged (T : Transport σ) (t : σ) (rs : List Request) (destroyed : Bool) (tag : Tag)
    (stranger : ∀ r ∈ rs, r.tag? ≠ some tag) :
    let o := (live T rs destroyed).run (ofTransport t)
    (∀ e ∈ o.events, e.tag? ≠ some tag) ∧
      (T.Loyal t → ∀ bytes, .transport (.effect (.received tag bytes)) ∉ o.events) := by
  intro o
  have traced := live_traced everyCallback T t rs destroyed
  have unknown : tag ∉ introduced (lifeGrants T t rs destroyed) := by
    intro known
    obtain ⟨r, member, tells⟩ := introduced_lifeGrants known
    exact stranger r member tells
  exact ⟨fun e he tells => unknown (traced.of_shown he tells),
    fun loyal bytes he => unknown (traced.of_received loyal he)⟩

/-! ### The theorem -/

/-- A run with an idle request is the run without it, with one more answer and at most one note. -/
theorem live_idle {t : σ} {before : List Request} {r : Request} {answer : Answer}
    (after : List Request) (destroyed : Bool)
    (idle : Idle ((serveAll T before).run (ofTransport t)).state (serve T r) answer) :
    let first := (serveAll T before).run (ofTransport t)
    let o := (live T (before ++ r :: after) destroyed).run (ofTransport t)
    let p := (live T (before ++ after) destroyed).run (ofTransport t)
    ∃ (note : Option Note) (answers : List Answer) (events : List Event),
      (∀ n ∈ note, isRefusal n = true) ∧
      o = ⟨first.answer ++ answer :: answers, p.state,
        first.events ++ note.toList.map .note ++ events⟩ ∧
      p = ⟨first.answer ++ answers, p.state, first.events ++ events⟩ := by
  intro first o p
  obtain ⟨note, refusal, run⟩ := idle
  -- Both runs go on from the same connection.
  let second := (live T after destroyed).run first.state
  have behind : (serveAll T (r :: after)).run first.state =
      let served := (serveAll T after).run first.state
      ⟨answer :: served.answer, served.state, note.toList.map .note ++ served.events⟩ := by
    simp [serveAll_cons, run, first]
  have without : p = ⟨first.answer ++ second.answer, second.state, first.events ++ second.events⟩ := by
    simp only [p, second, run_live, run_serveAll_append, List.append_assoc, first]
  have full : o = ⟨first.answer ++ answer :: second.answer, second.state,
      first.events ++ note.toList.map .note ++ second.events⟩ := by
    simp only [o, second, run_live, run_serveAll_append, List.append_assoc, first] at behind ⊢
    simp only [behind, List.append_assoc]
  exact ⟨note, second.answer, second.events, refusal, by rw [full, without], by rw [without]⟩

/-- **Requests that come to nothing.** In every run over every transport, an open, a send or a close
    is refused exactly with the fault that its dismissal says: a message of an unusable size in every
    phase, and what comes at the wrong time with the name of the request and the phase.

    A request that is refused or ignored can be left out of the run. All other answers, the state
    in the end and the history are the same but for the note of the refusal. As this holds whatever
    follows, the states on the way are the same too.

    Nor is a callback of such a request ever used: if no other request brings the same one, no
    callback fires with its tag, and a transport that hands bytes to its own receivers only hands
    none to this one. -/
theorem dismissed_without_trace (T : Transport σ) (t : σ) (before after : List Request) (r : Request)
    (destroyed : Bool) :
    let first := (serveAll T before).run (ofTransport t)
    let o := (live T (before ++ r :: after) destroyed).run (ofTransport t)
    let p := (live T (before ++ after) destroyed).run (ofTransport t)
    (r.tag?.isSome = true → ∀ fault,
      ((serve T r).run first.state).answer = .accepted (.error fault) ↔
        dismissal? first.state.phase r = some (.error fault)) ∧
    ∀ answer, dismissal? first.state.phase r = some answer →
      (∃ (note : Option Note) (answers : List Answer) (events : List Event),
        (∀ n ∈ note, isRefusal n = true) ∧
        o = ⟨first.answer ++ .accepted answer :: answers, p.state,
          first.events ++ note.toList.map .note ++ events⟩ ∧
        p = ⟨first.answer ++ answers, p.state, first.events ++ events⟩) ∧
      ∀ tag, r.tag? = some tag → (∀ q ∈ before ++ after, q.tag? ≠ some tag) →
        (∀ e ∈ o.events, e.tag? ≠ some tag) ∧
        (T.Loyal t → ∀ bytes, .transport (.effect (.received tag bytes)) ∉ o.events) := by
  intro first o p
  refine ⟨fun brings fault => ?_, fun answer dismissed =>
    ⟨live_idle after destroyed (serve_dismissed dismissed), ?_⟩⟩
  · cases dismissed : dismissal? first.state.phase r with
    | none => simp [serve_accepted (T := T) brings dismissed]
    | some answer =>
      obtain ⟨note, -, run⟩ := serve_dismissed (T := T) dismissed
      simp [run]
  · intro tag _ stranger
    obtain ⟨note, answers, events, -, full, without⟩ :=
      live_idle after destroyed (serve_dismissed (T := T) dismissed)
    obtain ⟨silent, unreceived⟩ := live_untagged T t (before ++ after) destroyed tag stranger
    -- The history with the request has the same events, but for a note.
    have same {e : Event} (he : e ∈ o.events) (other : ∀ note, e ≠ .note note) : e ∈ p.events := by
      rw [show o = _ from full] at he
      rw [show p = _ from without]
      simp only [List.mem_append, List.mem_map] at he ⊢
      rcases he with (early | ⟨n, -, rfl⟩) | late
      · exact .inl early
      · exact absurd rfl (other n)
      · exact .inr late
    constructor
    · intro e he tells
      refine silent e (same he ?_) tells
      rintro note rfl
      contradiction
    · exact fun loyal bytes he => unreceived loyal bytes (same he (by simp))

end Connection

end PolledConnection
