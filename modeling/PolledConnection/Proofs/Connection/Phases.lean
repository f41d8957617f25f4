import PolledConnection.Proofs.Connection.Operations

/-! # The way through the phases

  A connection reports every change of its phase, so a history tells in which
  phase each of its events happened (`phaseBehind`), and a callback keeps the
  phase in which it has found the connection. What may happen in which phase is
  one table (`Fits`): the changes of phase that there are, the phase in which
  each callback fires, and the phase in which each call of the transport is
  made. Every single move keeps to the table, from the phase that it finds
  to the phase that it leaves (`Move.along`), hence every history does
  (`Moves.along`).

  The changes lead upwards in one order of the phases, so none is entered twice
  (`phase_path`). Received bytes are not the connection's own callback: they
  come when the transport hands them out.
-/

namespace PolledConnection

/-! ### Changes of phase -/

/-- The order in which phases can follow each other. -/
def Phase.rank : Phase → Nat
  | .initial => 0
  | .opening => 1
  | .opened => 2
  | .failed => 3
  | .closing => 4
  | .closed => 5

/-- The changes of phase that requests can make. -/
def Phase.edges : List (Phase × Phase) :=
  [(.initial, .opening), (.opening, .opened), (.opening, .failed), (.opening, .closing),
    (.opened, .failed), (.opened, .closing), (.failed, .closing), (.closing, .closed)]

/-- The changes of phase that only a destruction can make. -/
def Phase.forcedEdges : List (Phase × Phase) := [(.opened, .closed), (.failed, .closed)]

/-- Every change leads upwards. -/
theorem Phase.rank_lt {edge : Phase × Phase} (h : edge ∈ edges ∨ edge ∈ forcedEdges) :
    edge.1.rank < edge.2.rank := by
  have all : ∀ edge ∈ edges ++ forcedEdges, edge.1.rank < edge.2.rank := by decide
  exact all edge (List.mem_append.mpr h)

/-- The change of phase that an event tells of. -/
def Event.change? : Event → Option (Phase × Phase)
  | .note (.phaseChanged was becomes) => some (was, becomes)
  | _ => none

/-- The phase behind an event, given the phase before it. -/
def Event.phaseAfter (e : Event) (p : Phase) : Phase := (e.change?.map Prod.snd).getD p

theorem Event.phaseAfter_of_change?_none {e : Event} (h : e.change? = none) (p : Phase) :
    e.phaseAfter p = p := by
  simp [phaseAfter, h]

section
variable (tag : Tag) (verdict : Verdict) (phase : Phase) (event : Transport.Event) (p : Phase)

@[simp] theorem Event.phaseAfter_phaseChanged (was becomes : Phase) :
    (Event.note (.phaseChanged was becomes)).phaseAfter p = becomes := rfl

@[simp] theorem Event.phaseAfter_transport : (Event.transport event).phaseAfter p = p := rfl

@[simp] theorem Event.phaseAfter_openComplete :
    (Event.openComplete tag verdict phase).phaseAfter p = p := rfl

@[simp] theorem Event.phaseAfter_ioError : (Event.ioError tag phase).phaseAfter p = p := rfl

@[simp] theorem Event.phaseAfter_sendComplete :
    (Event.sendComplete tag verdict phase).phaseAfter p = p := rfl

@[simp] theorem Event.phaseAfter_openFailed : (Event.note .openFailed).phaseAfter p = p := rfl

@[simp] theorem Event.phaseAfter_readFailed : (Event.note .readFailed).phaseAfter p = p := rfl

@[simp] theorem Event.phaseAfter_writeFailed (fault : Fault) :
    (Event.note (.writeFailed fault)).phaseAfter p = p := rfl

end

/-! ### Callbacks -/

/-- The phase in which an open ends. -/
def Verdict.openPhase : Verdict → Phase
  | .ok => .opened
  | .failed => .failed
  | .cancelled => .closing

/-- The phase in which a send ends. -/
def Verdict.sendPhase : Verdict → Phase
  | .ok => .opened
  | .failed => .failed
  | .cancelled => .closed

/-- The phase in which a callback fires. -/
def Event.callbackPhase? : Event → Option Phase
  | .openComplete _ verdict _ => some verdict.openPhase
  | .ioError .. => some .failed
  | .sendComplete _ verdict _ => some verdict.sendPhase
  | .closeComplete .. => some .closed
  | _ => none

/-- The phase in which a callback has found the connection. -/
def Event.foundPhase? : Event → Option Phase
  | .openComplete _ _ phase | .ioError _ phase | .sendComplete _ _ phase
  | .closeComplete _ phase => some phase
  | _ => none

/-! ### Received bytes -/

/-- Whether an effect hands bytes to the receiver. -/
def Effect.isReceipt : Effect → Bool
  | .received .. => true
  | _ => false

/-- Whether an event is that of received bytes. -/
def Event.isReceipt : Event → Bool
  | .transport (.effect effect) => effect.isReceipt
  | _ => false

/-- The act never hands out bytes. -/
def Act.Hushed {σ α : Type} (m : Act Effect σ α) : Prop :=
  ∀ s, ∀ e ∈ (m.run s).events, e.isReceipt = false

/-- The transport hands out no bytes when it is offered an option. -/
def Transport.SetsQuietly {σ : Type} (T : Transport σ) : Prop :=
  ∀ name value, (T.setOption name value).Hushed

/-- The transport hands out bytes only while it is being read. -/
structure Transport.DeliversInReads {σ : Type} (T : Transport σ) : Prop where
  establish : ∀ receiver, (T.establish receiver).Hushed
  close : T.close.Hushed
  write : ∀ bytes, (T.write bytes).Hushed
  setOption : T.SetsQuietly

namespace Connection

variable {σ : Type} {T : Transport σ} {c d : Connection σ} {gs : List Grant}
variable {P Q : Phase → Event → Prop} {p q : Phase} {es fs pre post : List Event} {e : Event}

/-! ### Histories by phase -/

/-- The changes of phase in a history. -/
def changes (es : List Event) : List (Phase × Phase) := es.filterMap Event.change?

/-- The phase behind a history that begins in phase `p`. -/
def phaseBehind (p : Phase) (es : List Event) : Phase := es.foldl (fun p e => e.phaseAfter p) p

/-- Every event of a history suits the phase in which it happens. -/
def Along (P : Phase → Event → Prop) : Phase → List Event → Prop
  | _, [] => True
  | p, e :: es => P p e ∧ Along P (e.phaseAfter p) es

/-- The changes lead from `p` to `q`, each from where the one before it ended. -/
def Path : Phase → List (Phase × Phase) → Phase → Prop
  | p, [], q => p = q
  | p, (was, becomes) :: rest, q => was = p ∧ Path becomes rest q

@[simp] theorem phaseBehind_nil (p : Phase) : phaseBehind p [] = p := rfl

@[simp] theorem phaseBehind_cons (p : Phase) (e : Event) (es : List Event) :
    phaseBehind p (e :: es) = phaseBehind (e.phaseAfter p) es := rfl

@[simp] theorem phaseBehind_append (p : Phase) (es fs : List Event) :
    phaseBehind p (es ++ fs) = phaseBehind (phaseBehind p es) fs :=
  List.foldl_append

@[simp] theorem along_nil : Along P p [] := trivial

@[simp] theorem along_cons :
    Along P p (e :: es) ↔ P p e ∧ Along P (e.phaseAfter p) es := Iff.rfl

@[simp] theorem along_append :
    Along P p (es ++ fs) ↔ Along P p es ∧ Along P (phaseBehind p es) fs := by
  induction es generalizing p with
  | nil => simp
  | cons e es ih => simp [ih, and_assoc]

theorem Along.mono (h : Along P p es) (imp : ∀ p e, P p e → Q p e) : Along Q p es := by
  induction es generalizing p with
  | nil => exact along_nil
  | cons e es ih => exact ⟨imp p e h.1, ih h.2⟩

/-- What holds along a history holds of each of its events. -/
theorem Along.at (h : Along P p es) (he : es = pre ++ e :: post) : P (phaseBehind p pre) e := by
  rw [he, along_append] at h
  exact h.2.1

/-- Events that change no phase all happen in the same. -/
theorem along_still (still : ∀ e ∈ es, e.change? = none) :
    (Along P p es ↔ ∀ e ∈ es, P p e) ∧ phaseBehind p es = p := by
  induction es with
  | nil => simp
  | cons e es ih =>
    obtain ⟨along, behind⟩ := ih fun f hf => still f (List.mem_cons_of_mem _ hf)
    have same := Event.phaseAfter_of_change?_none (still e List.mem_cons_self) p
    simp [same, along, behind]

@[simp] theorem along_inside (effects : List Effect) :
    Along P p (inside effects) ↔ ∀ e ∈ effects, P p (.transport (.effect e)) := by
  have still : ∀ e ∈ inside effects, e.change? = none := by simp [inside, Event.change?]
  rw [(along_still still).1]
  simp [inside]

@[simp] theorem phaseBehind_inside (effects : List Effect) : phaseBehind p (inside effects) = p :=
  (along_still (P := fun _ _ => True) (by simp [inside, Event.change?])).2

/-! ### The table -/

/-- The phases in which a call is made; of a close, some only where a destruction forces it. -/
def callPhase (forced : Prop) (p : Phase) : Transport.Call → Prop
  | .establish _ => p = .opening
  | .read _ | .write .. => p = .opened
  | .close _ => p = .closing ∨ forced ∧ (p = .opened ∨ p = .failed)

/-- What may happen in a phase; some of it only where a destruction forces the close. -/
structure Fits (forced : Prop) (p : Phase) (e : Event) : Prop where
  /-- A change begins in the present phase and is one of those that there are. -/
  change : ∀ edge, e.change? = some edge →
    edge.1 = p ∧ (edge ∈ Phase.edges ∨ forced ∧ edge ∈ Phase.forcedEdges)
  /-- A callback fires in its phase, and finds the connection in it. -/
  callback : ∀ q, e.callbackPhase? = some q → q = p ∧ e.foundPhase? = some q
  call : ∀ call, e.call? = some call → callPhase forced p call

theorem fits_iff {forced : Prop} : Fits forced p e ↔
    (∀ edge, e.change? = some edge →
      edge.1 = p ∧ (edge ∈ Phase.edges ∨ forced ∧ edge ∈ Phase.forcedEdges)) ∧
    (∀ q, e.callbackPhase? = some q → q = p ∧ e.foundPhase? = some q) ∧
    ∀ call, e.call? = some call → callPhase forced p call :=
  ⟨fun h => ⟨h.change, h.callback, h.call⟩, fun h => ⟨h.1, h.2.1, h.2.2⟩⟩

theorem Fits.weaken {forced later : Prop} (h : Fits forced p e) (imp : forced → later) :
    Fits later p e where
  change edge he := by
    obtain ⟨was, ordinary | ⟨force, edge⟩⟩ := h.change edge he
    · exact ⟨was, .inl ordinary⟩
    · exact ⟨was, .inr ⟨imp force, edge⟩⟩
  callback := h.callback
  call call hc := by
    have suits := h.call call hc
    cases call with
    | establish | read | write => exact suits
    | close => exact suits.imp_right fun force => ⟨imp force.1, force.2⟩

section
variable {forced : Prop}

@[simp] theorem fits_effect (effect : Effect) : Fits forced p (.transport (.effect effect)) := by
  simp [fits_iff, Event.change?, Event.callbackPhase?, Event.call?]

@[simp] theorem fits_called (call : Transport.Call) :
    Fits forced p (called call) ↔ callPhase forced p call := by
  simp [fits_iff, Event.change?, Event.callbackPhase?]

@[simp] theorem fits_phaseChanged (was becomes : Phase) :
    Fits forced p (.note (.phaseChanged was becomes)) ↔
      was = p ∧ ((was, becomes) ∈ Phase.edges ∨ forced ∧ (was, becomes) ∈ Phase.forcedEdges) := by
  simp [fits_iff, Event.change?, Event.callbackPhase?]

@[simp] theorem fits_openComplete (tag : Tag) (verdict : Verdict) (phase : Phase) :
    Fits forced p (.openComplete tag verdict phase) ↔
      verdict.openPhase = p ∧ phase = verdict.openPhase := by
  simp [fits_iff, Event.change?, Event.callbackPhase?, Event.foundPhase?]

@[simp] theorem fits_ioError (tag : Tag) (phase : Phase) :
    Fits forced p (.ioError tag phase) ↔ .failed = p ∧ phase = .failed := by
  simp [fits_iff, Event.change?, Event.callbackPhase?, Event.foundPhase?]

@[simp] theorem fits_sendComplete (tag : Tag) (verdict : Verdict) (phase : Phase) :
    Fits forced p (.sendComplete tag verdict phase) ↔
      verdict.sendPhase = p ∧ phase = verdict.sendPhase := by
  simp [fits_iff, Event.change?, Event.callbackPhase?, Event.foundPhase?]

@[simp] theorem fits_closeComplete (tag : Tag) (phase : Phase) :
    Fits forced p (.closeComplete tag phase) ↔ .closed = p ∧ phase = .closed := by
  simp [fits_iff, Event.change?, Event.callbackPhase?, Event.foundPhase?]

/-- Other notes may be made in every phase. -/
theorem fits_note {note : Note} (still : (Event.note note).change? = none) :
    Fits forced p (.note note) := by
  simp [fits_iff, still, Event.callbackPhase?]

end

theorem change?_refusal {note : Note} (hn : isRefusal note = true) :
    (Event.note note).change? = none := by
  cases note <;> simp_all [isRefusal, Event.change?]

/-! ### Moves -/

/-- The end of a close happens when the connection is closed. -/
theorem along_farewell {forced : Prop} (c : Connection σ) (answer : Progress)
    (edge : (c.phase, .closed) ∈ Phase.edges ∨ forced ∧ (c.phase, .closed) ∈ Phase.forcedEdges) :
    Along (Fits forced) c.phase (farewell c answer) ∧
      phaseBehind c.phase (farewell c answer) = .closed := by
  -- Behind the change itself there is no other, so all the rest happens in the closed phase.
  have rest : ∀ e ∈ (if answer = .failed then [Event.note .closeFailed] else []) ++
      (c.outbox.messages.map (fun m => .sendComplete m.tag .cancelled .closed) ++
        c.awaitingClose.toList.map fun tag => .closeComplete tag .closed),
      e.change? = none ∧ Fits forced .closed e := by
    intro e he
    simp only [List.mem_append, List.mem_map] at he
    rcases he with note | ⟨m, -, rfl⟩ | ⟨tag, -, rfl⟩
    · split at note
      · rw [List.mem_singleton.mp note]
        exact ⟨rfl, fits_note rfl⟩
      · simp at note
    · exact ⟨rfl, by simp [Verdict.sendPhase]⟩
    · exact ⟨rfl, by simp⟩
  obtain ⟨along, behind⟩ := along_still (P := Fits forced) (p := .closed) fun e he => (rest e he).1
  refine ⟨?_, ?_⟩
  · rw [farewell, along_cons, Event.phaseAfter_phaseChanged, along]
    exact ⟨by simpa using edge, fun e he => (rest e he).2⟩
  · rw [farewell, phaseBehind_cons, Event.phaseAfter_phaseChanged, behind]

/-- A move keeps to the table, and goes from the phase that it finds to the one that it leaves. -/
theorem Move.along (move : Move T c gs es d) :
    Along (Fits (.ending ∈ gs)) c.phase es ∧ phaseBehind c.phase es = d.phase := by
  cases move with
  | refuse note hn =>
    have still := change?_refusal hn
    simp [fits_note still, Event.phaseAfter_of_change?_none still]
  | offer _ | queue => simp
  | beginOpen tag hp => simp [hp, Phase.edges]
  | openWaits hp _ _ => simp [hp, callPhase]
  | openDone hp _ _ =>
    cases c.awaitingOpen with
    | none => simp [hp, callPhase, Phase.edges]
    | some tag => simp [hp, callPhase, Phase.edges, Verdict.openPhase]
  | openFails hp _ _ =>
    have note : Fits False .opening (.note .openFailed) := fits_note rfl
    cases c.awaitingOpen with
    | none => simp [hp, callPhase, Phase.edges, note]
    | some tag => simp [hp, callPhase, Phase.edges, note, Verdict.openPhase]
  | read hp _ _ | writeStays hp _ _ _ => simp [hp, callPhase]
  | writeEnds hp _ _ _ _ => simp [hp, callPhase, Verdict.sendPhase]
  | readFails hp _ =>
    have note : Fits False .opened (.note .readFailed) := fits_note rfl
    cases c.client with
    | none => simp [hp, callPhase, Phase.edges, note]
    | some tag => simp [hp, callPhase, Phase.edges, note]
  | @writeFails _ _ fault _ _ hp _ _ =>
    have note : Fits False .opened (.note (.writeFailed fault)) := fits_note rfl
    cases c.client with
    | none => simp [hp, callPhase, Phase.edges, note, Verdict.sendPhase]
    | some tag => simp [hp, callPhase, Phase.edges, note, Verdict.sendPhase]
  | beginClose tag hp => rcases hp with hp | hp <;> simp [hp, Phase.edges]
  | breakOpen _ hp | dropOpen hp =>
    cases c.awaitingOpen with
    | none => simp [hp, Phase.edges]
    | some tag => simp [hp, Phase.edges, Verdict.openPhase]
  | closeWaits hp _ => simp [hp, callPhase]
  | @closeEnds a s effects hp _ _ =>
    have edge : (c.phase, .closed) ∈ Phase.edges ∨ False ∧ (c.phase, .closed) ∈ Phase.forcedEdges :=
      .inl (by simp [hp, Phase.edges])
    obtain ⟨along, behind⟩ := along_farewell c a edge
    rw [hp] at along behind
    simp [hp, callPhase, ended, along, behind]
  | @destroy a s effects hp _ =>
    have edge : (c.phase, .closed) ∈ Phase.edges ∨ True ∧ (c.phase, .closed) ∈ Phase.forcedEdges := by
      rcases hp with hp | hp | hp <;> simp [hp, Phase.edges, Phase.forcedEdges]
    obtain ⟨along, behind⟩ := along_farewell c a edge
    have called : callPhase True c.phase (.close a) := by
      rcases hp with hp | hp | hp <;> simp [hp, callPhase]
    simp [called, ended, along, behind]

/-! ### Moves in sequence -/

theorem Moves.along (moves : Moves T c gs es d) :
    Along (Fits (.ending ∈ gs)) c.phase es ∧ phaseBehind c.phase es = d.phase := by
  induction moves with
  | refl => simp
  | snoc _ last ih =>
    obtain ⟨early, reached⟩ := ih
    obtain ⟨late, behind⟩ := last.along
    rw [along_append, phaseBehind_append, reached]
    refine ⟨⟨early.mono fun p e fits => ?_, late.mono fun p e fits => ?_⟩, behind⟩
    · exact fits.weaken (List.mem_append_left _)
    · exact fits.weaken (List.mem_append_right _)

/-- A replay grants nothing but offers. -/
theorem mem_offered {options : List (String × Setting)} {g : Grant}
    (h : g ∈ offered T c options) : ∃ name value, g = .offering name value := by
  induction options generalizing c with
  | nil => simp [offered] at h
  | cons option rest ih =>
    obtain ⟨name, value⟩ := option
    rw [offered, List.mem_cons] at h
    rcases h with rfl | further
    · exact ⟨name, value, rfl⟩
    · split at further
      · simp at further
      · exact ih further

/-- No request ends a connection by force. -/
theorem ending_not_mem_grants (T : Transport σ) (c : Connection σ) (rs : List Request) :
    .ending ∉ grants T c rs := by
  induction rs generalizing c with
  | nil => simp [grants]
  | cons r rs ih =>
    rw [grants, List.mem_append, not_or]
    refine ⟨?_, ih _⟩
    unfold granted
    split
    · simp
    · split <;> simp
    · simp
    · intro forced
      obtain ⟨_, _, offer⟩ := mem_offered forced
      contradiction
    · simp

/-! ### Receipts -/

/-- Received bytes come while the connection is open. -/
def ReceivedOpen (p : Phase) (e : Event) : Prop := e.isReceipt = true → p = .opened

theorem along_of_no_receipt (none : ∀ e ∈ es, e.isReceipt = false) : Along ReceivedOpen p es := by
  induction es generalizing p with
  | nil => exact along_nil
  | cons e es ih =>
    refine ⟨?_, ih fun f hf => none f (List.mem_cons_of_mem _ hf)⟩
    intro receipt
    simp [none e List.mem_cons_self] at receipt

/-- A call with what follows it, if the connection is open or the call hands out nothing. -/
theorem along_call {effects : List Effect}
    (suits : p = .opened ∨ ∀ e ∈ effects, e.isReceipt = false)
    (rest : ∀ e ∈ fs, e.isReceipt = false) : Along ReceivedOpen p (inside effects ++ fs) := by
  rw [along_append, along_inside]
  refine ⟨?_, along_of_no_receipt rest⟩
  intro e he receipt
  rcases suits with opened | hushed
  · exact opened
  · have silent := hushed e he
    rw [show (Event.transport (.effect e)).isReceipt = e.isReceipt from rfl, silent] at receipt
    simp at receipt

theorem no_receipt_farewell (c : Connection σ) (answer : Progress) :
    ∀ e ∈ farewell c answer, e.isReceipt = false := by
  cases answer <;> simp [farewell, Event.isReceipt, or_imp, forall_and]

theorem Move.receipts (reads : T.DeliversInReads) (move : Move T c gs es d) :
    Along ReceivedOpen c.phase es := by
  have hushed {α : Type} {m : Act Effect σ α} {a : α} {s : σ} {effects : List Effect}
      (quiet : m.Hushed) (h : m.run c.transport = ⟨a, s, effects⟩) :
      c.phase = .opened ∨ ∀ e ∈ effects, e.isReceipt = false := by
    right
    have silent := quiet c.transport
    rw [h] at silent
    exact silent
  cases move with
  | refuse | beginOpen | queue | beginClose | breakOpen | dropOpen =>
    exact along_of_no_receipt (by simp [Event.isReceipt])
  | offer h =>
    rw [← List.append_nil (inside _)]
    exact along_call (hushed (reads.setOption _ _) h) (by simp)
  | openWaits _ _ h | openDone _ _ h | openFails _ _ h =>
    exact along_call (hushed (reads.establish _) h) (by simp [Event.isReceipt])
  | read hp _ _ | readFails hp _ => exact along_call (.inl hp) (by simp [Event.isReceipt])
  | writeStays _ _ h _ | writeEnds _ _ h _ _ | writeFails _ _ h =>
    exact along_call (hushed (reads.write _) h)
      (by simp [Event.isReceipt, or_imp, forall_and])
  | closeWaits _ h => exact along_call (hushed reads.close h) (by simp [Event.isReceipt])
  | closeEnds _ _ h | destroy _ h =>
    refine along_call (hushed reads.close h) ?_
    intro e he
    rcases List.mem_cons.mp he with rfl | late
    · rfl
    · exact no_receipt_farewell c _ e late

theorem Moves.receipts (reads : T.DeliversInReads) (moves : Moves T c gs es d) :
    Along ReceivedOpen c.phase es := by
  induction moves with
  | refl => simp
  | snoc before last ih =>
    rw [along_append, before.along.2]
    exact ⟨ih, last.receipts reads⟩

/-! ### The way -/

theorem path_changes {forced : Prop} (h : Along (Fits forced) p es) :
    Path p (changes es) (phaseBehind p es) := by
  induction es generalizing p with
  | nil => rfl
  | cons e es ih =>
    obtain ⟨fits, rest⟩ := h
    cases hc : e.change? with
    | none =>
      rw [Event.phaseAfter_of_change?_none hc] at rest
      simpa [changes, hc, Event.phaseAfter_of_change?_none hc] using ih rest
    | some edge =>
      have after : e.phaseAfter p = edge.2 := by simp [Event.phaseAfter, hc]
      rw [after] at rest
      simpa [changes, hc, after, Path] using ⟨(fits.change edge hc).1, ih rest⟩

/-- Every change in a history begins in the phase that was reached, and is one of those that there
    are. -/
theorem mem_changes {forced : Prop} (h : Along (Fits forced) p es) {edge : Phase × Phase}
    (he : edge ∈ changes es) : edge ∈ Phase.edges ∨ forced ∧ edge ∈ Phase.forcedEdges := by
  obtain ⟨e, member, change⟩ := List.mem_filterMap.mp he
  obtain ⟨pre, post, split⟩ := List.append_of_mem member
  exact ((h.at split).change edge change).2

/-- The phases on a path that leads upwards lie one above the other. -/
theorem Path.increasing {steps : List (Phase × Phase)} (h : Path p steps q)
    (up : ∀ edge ∈ steps, edge.1.rank < edge.2.rank) :
    (p :: steps.map Prod.snd).Pairwise fun a b => a.rank < b.rank := by
  induction steps generalizing p with
  | nil => simp
  | cons edge steps ih =>
    obtain ⟨was, becomes⟩ := edge
    obtain ⟨rfl, rest⟩ := h
    have above := ih rest fun edge he => up edge (List.mem_cons_of_mem _ he)
    have first : was.rank < becomes.rank := up (was, becomes) List.mem_cons_self
    rw [List.map_cons, List.pairwise_cons]
    refine ⟨?_, above⟩
    -- The next phase lies above this one, and all others above the next.
    intro later member
    rcases List.mem_cons.mp member with rfl | further
    · exact first
    · exact Nat.lt_trans first ((List.pairwise_cons.mp above).1 later further)

theorem Path.rank_le {steps : List (Phase × Phase)} (h : Path p steps q)
    (up : ∀ edge ∈ steps, edge.1.rank < edge.2.rank) : p.rank ≤ q.rank := by
  induction steps generalizing p with
  | nil => exact Nat.le_of_eq (congrArg Phase.rank h)
  | cons edge steps ih =>
    obtain ⟨was, becomes⟩ := edge
    obtain ⟨rfl, rest⟩ := h
    have first : was.rank < becomes.rank := up (was, becomes) List.mem_cons_self
    have others : becomes.rank ≤ q.rank := ih rest fun edge he => up edge (List.mem_cons_of_mem _ he)
    omega

/-- No move leads back. -/
theorem Moves.rank_le (moves : Moves T c gs es d) : c.phase.rank ≤ d.phase.rank := by
  obtain ⟨along, behind⟩ := moves.along
  rw [← behind]
  refine (path_changes along).rank_le fun edge he => ?_
  exact Phase.rank_lt ((mem_changes along he).imp_right fun force => force.2)

theorem Path.nodup {steps : List (Phase × Phase)} (h : Path p steps q)
    (up : ∀ edge ∈ steps, edge.1.rank < edge.2.rank) : (p :: steps.map Prod.snd).Nodup :=
  (h.increasing up).imp fun less same => by simp [same] at less

/-- **The way through the phases.** In every life over every transport the changes of phase lead
    from the first phase to the present one, each from where the one before it ended. Requests only
    make the ordinary changes, a destruction can force two more, and no phase is entered twice.
    Every callback fires when the connection is in the phase of that callback, which is the phase that
    the changes before it have led to and the one that the callback finds. If the transport hands out
    bytes only while it is read, they come while the connection is open. -/
theorem phase_path (T : Transport σ) (t : σ) (rs : List Request) (destroyed : Bool) :
    let served := (serveAll T rs).run (ofTransport t)
    let o := (live T rs destroyed).run (ofTransport t)
    Path .initial (changes o.events) o.state.phase ∧
    (∀ edge ∈ changes served.events, edge ∈ Phase.edges) ∧
    (∀ edge ∈ changes o.events, edge ∈ Phase.edges ∨
      destroyed = true ∧ edge ∈ Phase.forcedEdges) ∧
    (.initial :: (changes o.events).map Prod.snd).Nodup ∧
    (∀ pre e post, o.events = pre ++ e :: post → ∀ phase, e.callbackPhase? = some phase →
      phaseBehind .initial pre = phase ∧ e.foundPhase? = some phase) ∧
    (T.DeliversInReads → ∀ pre e post, o.events = pre ++ e :: post → e.isReceipt = true →
      phaseBehind .initial pre = .opened) := by
  intro served o
  have moves := live_moves T t rs destroyed
  obtain ⟨along, behind⟩ := moves.along
  obtain ⟨early, -⟩ := (serveAll_moves T rs (ofTransport t)).along
  have path : Path .initial (changes o.events) o.state.phase := by
    have leads := path_changes along
    rw [behind] at leads
    exact leads
  have ordinary : ∀ edge ∈ changes served.events, edge ∈ Phase.edges := by
    intro edge he
    rcases mem_changes early he with ordinary | ⟨forced, -⟩
    · exact ordinary
    · exact absurd forced (ending_not_mem_grants T _ rs)
  refine ⟨path, ordinary, ?_, ?_, ?_, ?_⟩
  · intro edge he
    cases destroyed with
    | true => exact (mem_changes along he).imp_right fun force => ⟨rfl, force.2⟩
    | false => exact .inl (ordinary edge (by simpa [o, live] using he))
  · exact path.nodup fun edge he =>
      Phase.rank_lt ((mem_changes along he).imp_right fun force => force.2)
  · intro pre e post split phase due
    exact ((along.at split).callback phase due).imp_left Eq.symm
  · intro reads pre e post split receipt
    exact (moves.receipts reads).at split receipt

end Connection

end PolledConnection
