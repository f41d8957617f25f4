import PolledConnection.Proofs.Connection.Operations

/-! # The ledger of sends

  Every message that was accepted is either still in the outbox or its send
  has ended, and both happen in the order of acceptance: the list of accepted
  messages is the list of ended sends followed by the outbox (`Balanced`). How
  sends end depends on the phase (`Standing`): well while bytes flow, at most
  one badly, and what is left when the close ends is cancelled.

  Both are kept by every move (`Ledger.step`), hence hold in every life.
-/

namespace PolledConnection

/-- What stays of a message while it is being sent. -/
def Message.entry (m : Message) : Tag × Bytes := (m.tag, m.bytes)

@[simp] theorem Message.entry_accept (m : Message) (n : Nat) : (m.accept n).entry = m.entry := by
  simp [entry]

namespace Connection

variable {σ : Type}

/-! ### Balance -/

/-- The accepted messages are those whose sends have ended, then those in the outbox. -/
def Balanced (sent : List Message) (ends : List (Tag × Verdict)) (box : List Message) : Prop :=
  ∃ gone kept, sent = gone ++ kept ∧ ends.map Prod.fst = gone.map Message.tag ∧
    box.map Message.entry = kept.map Message.entry

namespace Balanced

variable {sent box tail : List Message} {ends : List (Tag × Verdict)} {head m : Message}

theorem push (h : Balanced sent ends box) (m : Message) :
    Balanced (sent ++ [m]) ends (box ++ [m]) := by
  obtain ⟨gone, kept, rfl, ended, waiting⟩ := h
  exact ⟨gone, kept ++ [m], by simp, ended, by simp [waiting]⟩

/-- The entries of the outbox are all that matters. -/
theorem congr {box' : List Message} (h : Balanced sent ends box)
    (same : box'.map Message.entry = box.map Message.entry) : Balanced sent ends box' := by
  obtain ⟨gone, kept, rfl, ended, waiting⟩ := h
  exact ⟨gone, kept, rfl, ended, same.trans waiting⟩

theorem pop (h : Balanced sent ends (head :: tail)) (verdict : Verdict) :
    Balanced sent (ends ++ [(head.tag, verdict)]) tail := by
  obtain ⟨gone, kept, rfl, ended, waiting⟩ := h
  cases kept with
  | nil => simp at waiting
  | cons first kept =>
    -- The head of the outbox is the first accepted message that has not ended.
    simp only [List.map_cons, List.cons.injEq] at waiting
    have tag : head.tag = first.tag := congrArg Prod.fst waiting.1
    exact ⟨gone ++ [first], kept, by simp, by simp [ended, tag], waiting.2⟩

theorem clear (h : Balanced sent ends box) (verdict : Verdict) :
    Balanced sent (ends ++ box.map fun m => (m.tag, verdict)) [] := by
  induction box generalizing ends with
  | nil => simpa using h
  | cons head tail ih => simpa using ih (h.pop verdict)

theorem tags (h : Balanced sent ends box) :
    sent.map Message.tag = ends.map Prod.fst ++ box.map Message.tag := by
  obtain ⟨gone, kept, rfl, ended, waiting⟩ := h
  have tags : box.map Message.tag = kept.map Message.tag := by
    have firsts := congrArg (List.map Prod.fst) waiting
    simpa [Function.comp_def, Message.entry] using firsts
  rw [List.map_append, ended, tags]

theorem entries (h : Balanced sent ends box) :
    box.map Message.entry = (sent.drop ends.length).map Message.entry := by
  obtain ⟨gone, kept, rfl, ended, waiting⟩ := h
  have length : ends.length = gone.length := by simpa using congrArg List.length ended
  rw [waiting, length, List.drop_left]

theorem count (h : Balanced sent ends box) : box.length + ends.length = sent.length := by
  have lengths := congrArg List.length h.tags
  simp only [List.length_map, List.length_append] at lengths
  omega

end Balanced

/-! ### Verdicts -/

/-- Sends end well, then at most one fails, then the others are cancelled. -/
def InOrder (verdicts : List Verdict) : Prop :=
  ∃ k failures j, verdicts = List.replicate k .ok ++ failures ++ List.replicate j .cancelled ∧
    (failures = [] ∨ failures = [.failed])

/-- How the sends so far have ended, in each phase. -/
def Standing : Phase → List Verdict → Prop
  | .initial, vs | .opening, vs | .opened, vs => ∃ k, vs = List.replicate k .ok
  | .failed, vs | .closing, vs =>
    ∃ k failures, vs = List.replicate k .ok ++ failures ∧ (failures = [] ∨ failures = [.failed])
  | .closed, vs => InOrder vs

namespace Standing

variable {vs : List Verdict}

theorem deliver (h : Standing .opened vs) : Standing .opened (vs ++ [.ok]) := by
  obtain ⟨k, rfl⟩ := h
  exact ⟨k + 1, List.replicate_succ'.symm⟩

theorem stop (h : Standing .opened vs) : Standing .failed vs := by
  obtain ⟨k, rfl⟩ := h
  exact ⟨k, [], by simp⟩

theorem fail (h : Standing .opened vs) : Standing .failed (vs ++ [.failed]) := by
  obtain ⟨k, rfl⟩ := h
  exact ⟨k, [.failed], by simp⟩

theorem cancel (h : Standing .failed vs) (j : Nat) :
    Standing .closed (vs ++ List.replicate j .cancelled) := by
  obtain ⟨k, failures, rfl, atMostOne⟩ := h
  exact ⟨k, failures, j, rfl, atMostOne⟩

theorem inOrder {phase : Phase} (h : Standing phase vs) : InOrder vs := by
  cases phase with
  | initial | opening | opened =>
    obtain ⟨k, rfl⟩ := h
    exact ⟨k, [], 0, by simp⟩
  | failed | closing =>
    obtain ⟨k, failures, rfl, atMostOne⟩ := h
    exact ⟨k, failures, 0, by simp, atMostOne⟩
  | closed => exact h

end Standing

/-! ### The invariant -/

/-- The state of the books. -/
structure Ledger (gs : List Grant) (es : List Event) (c : Connection σ) : Prop where
  /-- Nothing is lost, doubled or reordered. -/
  balance : Balanced (queued gs) (completions es) c.outbox.messages
  /-- The sends have ended as the phase allows. -/
  standing : Standing c.phase ((completions es).map Prod.snd)
  /-- Before the open and after the close nothing waits. -/
  clear : c.phase = .initial ∨ c.phase = .closed → c.outbox.messages = []

theorem Ledger.first (t : σ) : Ledger [] [] (ofTransport t) where
  balance := ⟨[], [], by simp [ofTransport, Outbox.empty]⟩
  standing := ⟨0, rfl⟩
  clear _ := rfl

/-- A move that ends no send and leaves phase and outbox alone changes nothing in the books. -/
theorem Ledger.frame {gs hs : List Grant} {es fs : List Event} {c d : Connection σ}
    (h : Ledger gs es c) (quiet : completions fs = []) (grant : queued hs = [])
    (phase : d.phase = c.phase) (outbox : d.outbox = c.outbox) :
    Ledger (gs ++ hs) (es ++ fs) d where
  balance := by simpa [quiet, grant, outbox] using h.balance
  standing := by simpa [quiet, phase] using h.standing
  clear := by simpa [phase, outbox] using h.clear

/-- A move that ends no send and goes to a phase in which as much can have happened. -/
theorem Ledger.advance {gs hs : List Grant} {es fs : List Event} {c d : Connection σ}
    (h : Ledger gs es c) (quiet : completions fs = []) (grant : queued hs = [])
    (outbox : d.outbox = c.outbox) (standing : ∀ {vs}, Standing c.phase vs → Standing d.phase vs)
    (busy : d.phase ≠ .initial ∧ d.phase ≠ .closed) : Ledger (gs ++ hs) (es ++ fs) d where
  balance := by simpa [quiet, grant, outbox] using h.balance
  standing := by simpa [quiet] using standing h.standing
  clear idle := by rcases idle with idle | idle <;> simp [idle] at busy

/-- The end of a close: what waits is cancelled. -/
theorem Ledger.finish {gs hs : List Grant} {es : List Event} {effects : List Effect}
    {c : Connection σ} (h : Ledger gs es c) {a : Progress} {s : σ}
    (standing : Standing .failed ((completions es).map Prod.snd)) (grant : queued hs = []) :
    Ledger (gs ++ hs) (es ++ (inside effects ++ called (.close a) :: farewell c a)) (ended s) where
  balance := by
    have cleared := h.balance.clear .cancelled
    simpa [grant, ended, Outbox.empty] using cleared
  standing := by
    have cancelled := standing.cancel c.outbox.messages.length
    simpa [ended, Function.comp_def, List.map_const'] using cancelled
  clear _ := rfl

/-- **Step**: every move keeps the books. -/
theorem Ledger.step {T : Transport σ} {gs hs : List Grant} {es fs : List Event}
    {c d : Connection σ} (h : Ledger gs es c) (move : Move T c hs fs d) :
    Ledger (gs ++ hs) (es ++ fs) d := by
  cases move with
  -- Moves that end no send and stay in their phase.
  | refuse note hn => exact h.frame (by simp) rfl rfl rfl
  | offer _ => exact h.frame (by simp) rfl rfl rfl
  | openWaits => exact h.frame (by simp) rfl rfl rfl
  | read => exact h.frame (by simp) rfl rfl rfl
  | closeWaits => exact h.frame (by simp) rfl rfl rfl
  -- Moves that end no send, into a phase that allows as much.
  | beginOpen tag hp => exact h.advance (by simp) rfl rfl (by simp [Standing, hp]) (by simp)
  | openDone hp hc _ => exact h.advance (by simp) rfl rfl (by simp [Standing, hp]) (by simp)
  | openFails hp hc _ =>
    exact h.advance (by simp) rfl rfl (by rw [hp]; exact Standing.stop) (by simp)
  | readFails hp _ =>
    exact h.advance (by simp) rfl rfl (by rw [hp]; exact Standing.stop) (by simp)
  | beginClose tag hp =>
    rcases hp with hp | hp
    · exact h.advance (by simp) rfl rfl (by rw [hp]; exact Standing.stop) (by simp)
    · exact h.advance (by simp) rfl rfl (by simp [Standing, hp]) (by simp)
  | breakOpen tag hp => exact h.advance (by simp) rfl rfl (by rw [hp]; exact Standing.stop) (by simp)
  | dropOpen hp => exact h.advance (by simp) rfl rfl (by rw [hp]; exact Standing.stop) (by simp)
  -- Moves that change the outbox.
  | queue tag bytes hp hs =>
    exact {
      balance := by simpa using h.balance.push (.new bytes tag)
      standing := by simpa using h.standing
      clear := by simp [hp] }
  | writeStays hp hm _ hn =>
    exact {
      balance := by simpa using h.balance.congr (by simp [hm])
      standing := by simpa using h.standing
      clear := by simp [hp] }
  | writeEnds hp hm _ hn hu =>
    have standing := h.standing
    have balance := h.balance
    rw [hp] at standing
    rw [hm] at balance
    exact {
      balance := by simpa using balance.pop .ok
      standing := by simpa [hp] using standing.deliver
      clear := by simp [hp] }
  | writeFails hp hm _ =>
    have standing := h.standing
    have balance := h.balance
    rw [hp] at standing
    rw [hm] at balance
    exact {
      balance := by simpa using balance.pop .failed
      standing := by simpa using standing.fail
      clear := by simp }
  -- The ends of a close: the outbox is cancelled.
  | closeEnds hp ha _ =>
    have standing := h.standing
    rw [hp] at standing
    exact h.finish standing rfl
  | destroy hp _ =>
    have standing := h.standing
    rcases hp with hp | hp | hp
    · rw [hp] at standing
      exact h.finish standing.stop rfl
    · rw [hp] at standing
      exact h.finish standing rfl
    · rw [hp] at standing
      exact h.finish standing rfl

/-! ### The theorem -/

/-- **The ledger of sends.** In every life over every transport the accepted messages are those
    whose sends have ended, in that order, followed by the outbox. So the outbox counts what is
    not ended yet, no send ends twice, and one that was refused does not end at all. Once the
    connection is closed or destroyed nothing waits and every accepted send has ended. Sends end
    well, then at most one fails, then the others are cancelled. -/
theorem send_ledger (T : Transport σ) (t : σ) (rs : List Request) (destroyed : Bool) :
    let o := (live T rs destroyed).run (ofTransport t)
    let sent := accepted rs o.answer
    let ends := completions o.events
    sent.map Message.tag = ends.map Prod.fst ++ o.state.outbox.messages.map Message.tag ∧
    o.state.outbox.messages.map Message.entry = (sent.drop ends.length).map Message.entry ∧
    o.state.pendingCount + ends.length = sent.length ∧
    (o.state.phase = .closed ∨ destroyed = true →
      o.state.outbox.messages = [] ∧ ends.map Prod.fst = sent.map Message.tag) ∧
    InOrder (ends.map Prod.snd) ∧
    ((sent.map Message.tag).Nodup → (ends.map Prod.fst).Nodup) ∧
    ∀ tag, tag ∉ sent.map Message.tag → ∀ verdict, (tag, verdict) ∉ ends := by
  intro o sent ends
  have ledger : Ledger (lifeGrants T t rs destroyed) o.events o.state :=
    (live_moves T t rs destroyed).invariant Ledger.step (Ledger.first t)
  have balance : Balanced sent ends o.state.outbox.messages := by
    have books := ledger.balance
    rw [queued_lifeGrants] at books
    exact books
  have tags := balance.tags
  refine ⟨tags, balance.entries, balance.count, ?_, ledger.standing.inOrder, ?_, ?_⟩
  · intro finished
    have phase : o.state.phase = .initial ∨ o.state.phase = .closed := by
      rcases finished with closed | rfl
      · exact .inr closed
      · simpa [o, live] using destroy_phase T ((serveAll T rs).run (ofTransport t)).state
    have nothing := ledger.clear phase
    rw [nothing] at tags
    exact ⟨nothing, by simpa using tags.symm⟩
  · -- The ended sends are a part of the accepted ones, so they repeat no more than those.
    intro distinct
    rw [tags] at distinct
    exact (List.nodup_append.mp distinct).1
  · intro tag refused verdict fired
    rw [tags] at refused
    exact refused (List.mem_append_left _ (List.mem_map_of_mem fired))

end Connection

end PolledConnection
