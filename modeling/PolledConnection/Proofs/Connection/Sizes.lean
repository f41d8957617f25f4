import PolledConnection.Proofs.Connection.Contract

/-! # Sizes in the outbox

  A transport may claim any count. What keeps the arithmetic of the outbox
  within its bounds is an invariant of the queue (`Sized`): no message in it is
  finished, none has more left than it has bytes, and only the head has been
  begun. It holds because empty messages are refused, a count is clamped
  before it is subtracted, and a finished head leaves at once.

  So the range that a message offers never fails its check (`Sized.rest?`);
  that the subtraction does not is part of `Message.accept` itself.
-/

namespace PolledConnection

namespace Message

/-- What is left of a sized message can be computed with every check made. -/
theorem rest?_eq {m : Message} (bounded : m.unsent ≤ m.bytes.length) : m.rest? = some m.rest := by
  rw [rest?_of_le bounded, rest_of_le bounded]

theorem length_rest {m : Message} (bounded : m.unsent ≤ m.bytes.length) :
    m.rest.length = m.unsent := by
  rw [rest_of_le bounded, List.length_drop]
  omega

/-- A count that reaches the unsent size finishes the message. -/
theorem unsent_accept_of_le {m : Message} {n : Nat} (enough : m.unsent ≤ n) :
    (m.accept n).unsent = 0 := by
  rw [unsent_accept]
  omega

/-- A smaller one does not. -/
theorem unsent_accept_of_lt {m : Message} {n : Nat} (less : n < m.unsent) :
    (m.accept n).unsent = m.unsent - n := by
  rw [unsent_accept]
  omega

end Message

namespace Connection

variable {σ α : Type}

/-! ### The invariant -/

/-- A queue whose sizes fit: nothing in it is finished, and only the head has been begun. -/
structure Sized (queue : List Message) : Prop where
  /-- Something of each message is unsent. -/
  unfinished : ∀ m ∈ queue, 0 < m.unsent
  /-- No more is unsent than there is. -/
  bounded : ∀ m ∈ queue, m.unsent ≤ m.bytes.length
  /-- Nothing of a message behind the head has been sent. -/
  unbegun : ∀ m ∈ queue.tail, m.unsent = m.bytes.length

namespace Sized

variable {queue later : List Message} {head : Message}

theorem nil : Sized [] := ⟨by simp, by simp, by simp⟩

theorem tail (h : Sized (head :: later)) : Sized later where
  unfinished m hm := h.unfinished m (List.mem_cons_of_mem _ hm)
  bounded m hm := h.bounded m (List.mem_cons_of_mem _ hm)
  unbegun m hm := h.unbegun m (List.mem_of_mem_tail hm)

/-- A new message is added at the end, so it is the head or has not been begun. -/
theorem push (h : Sized queue) {bytes : Bytes} (tag : Tag) (some : 0 < bytes.length) :
    Sized (queue ++ [.new bytes tag]) := by
  have fresh (m : Message) (hm : m ∈ [Message.new bytes tag]) :
      m.unsent = m.bytes.length ∧ 0 < m.unsent := by
    rw [List.mem_singleton.mp hm]
    exact ⟨rfl, some⟩
  refine ⟨?_, ?_, ?_⟩
  · intro m hm
    rcases List.mem_append.mp hm with old | new
    · exact h.unfinished m old
    · exact (fresh m new).2
  · intro m hm
    rcases List.mem_append.mp hm with old | new
    · exact h.bounded m old
    · exact Nat.le_of_eq (fresh m new).1
  · intro m hm
    cases queue with
    | nil => simp at hm
    | cons head tail =>
      rcases List.mem_append.mp hm with old | new
      · exact h.unbegun m old
      · exact (fresh m new).1

/-- A head that a count does not finish stays. -/
theorem accept (h : Sized (head :: later)) {n : Nat} (left : 0 < (head.accept n).unsent) :
    Sized (head.accept n :: later) := by
  refine ⟨?_, ?_, ?_⟩
  · intro m hm
    rcases List.mem_cons.mp hm with rfl | behind
    · exact left
    · exact h.tail.unfinished m behind
  · intro m hm
    rcases List.mem_cons.mp hm with rfl | behind
    · have less := head.unsent_accept_le n
      have most := h.bounded head List.mem_cons_self
      rw [Message.accept_bytes]
      omega
    · exact h.tail.bounded m behind
  · intro m hm
    exact h.unbegun m hm

/-- **Ranges**: what a message offers can be computed with every check made. -/
theorem rest? (h : Sized queue) {m : Message} (hm : m ∈ queue) : m.rest? = some m.rest :=
  Message.rest?_eq (h.bounded m hm)

end Sized

/-! ### Every move keeps it -/

variable {T : Transport σ} {c d : Connection σ} {gs : List Grant} {es : List Event}

/-- Empty messages are refused. -/
theorem pos_of_isSendable {size : Nat} (h : isSendable size = true) : 0 < size := by
  unfold isSendable at h
  simp only [Bool.and_eq_true, decide_eq_true_eq] at h
  exact h.1

theorem Move.sized (move : Move T c gs es d) (h : Sized c.outbox.messages) :
    Sized d.outbox.messages := by
  cases move with
  | queue tag bytes hp hs => exact h.push tag (pos_of_isSendable hs)
  | @writeStays head tail n s effects hp hm call hn =>
    rw [hm] at h
    have left : 0 < (head.accept n).unsent := by
      rcases hn with rfl | left
      · rw [Message.accept_zero]
        exact h.unfinished head List.mem_cons_self
      · omega
    exact h.accept left
  | @writeEnds head tail n s effects hp hm call hn hu =>
    rw [hm] at h
    exact h.tail
  | @writeFails head tail fault s effects hp hm call =>
    rw [hm] at h
    exact h.tail
  | closeEnds | destroy => exact .nil
  | refuse | offer | beginOpen | openWaits | openDone | openFails | read | readFails | beginClose
  | breakOpen | dropOpen | closeWaits => exact h

theorem Moves.sized (moves : Moves T c gs es d) (h : Sized c.outbox.messages) :
    Sized d.outbox.messages := by
  induction moves with
  | refl => exact h
  | snoc _ last ih => exact last.sized ih

/-- Every connection that a run leads to has a sized queue. -/
theorem serveAll_sized (T : Transport σ) (t : σ) (rs : List Request) :
    Sized ((serveAll T rs).run (ofTransport t)).state.outbox.messages :=
  (serveAll_moves T rs (ofTransport t)).sized .nil

/-! ### One attempt to send -/

section
variable {head : Message} {tail : List Message} {n : Nat} {s : σ} {effects : List Effect}

/-- Less was taken than is unsent: the head stays with what is left of it. -/
theorem run_pollSend_less (hm : c.outbox.messages = head :: tail)
    (h : (T.write head.rest).run c.transport = ⟨.ok n, s, effects⟩) (less : n < head.unsent) :
    (pollSend T).run c =
      ⟨(), { c with transport := s, outbox := ⟨head.accept n :: tail⟩ },
        inside effects ++ [called (.write head.rest (.ok n))]⟩ := by
  have left : (head.accept n).unsent ≠ 0 := by
    rw [Message.unsent_accept_of_lt less]
    omega
  exact run_pollSend_stays hm h (.inr left)

/-- All that is unsent was taken, or more than that is claimed: the head has been sent. -/
theorem run_pollSend_enough (hp : c.phase = .opened) (hm : c.outbox.messages = head :: tail)
    (some : 0 < head.unsent) (h : (T.write head.rest).run c.transport = ⟨.ok n, s, effects⟩)
    (enough : head.unsent ≤ n) :
    (pollSend T).run c =
      ⟨(), { c with transport := s, outbox := ⟨tail⟩ },
        inside effects ++
          [called (.write head.rest (.ok n)), .sendComplete head.tag .ok .opened]⟩ := by
  have counted : n ≠ 0 := by omega
  exact run_pollSend_ends hp hm h counted (Message.unsent_accept_of_le enough)

end

/-! ### Reading -/

/-- Reading makes reads only, and leaves everything but the transport alone. -/
theorem readAll_reads (limit : Nat) (c : Connection σ) :
    ∃ a u es, (readAll T limit).run c = ⟨a, { c with transport := u }, es⟩ ∧ completions es = [] ∧
      ∀ call ∈ calls es, ∃ b, call = .read b := by
  induction limit generalizing c with
  | zero =>
    rcases h : T.read.run c.transport with ⟨a, s, effects⟩
    exact ⟨a, s, _, run_readAll_last h (.inr rfl), by simp, by simp⟩
  | succ limit ih =>
    rcases h : T.read.run c.transport with ⟨a, s, effects⟩
    by_cases done : a = .done
    · subst done
      obtain ⟨b, u, es, run, ends, reads⟩ := ih { c with transport := s }
      refine ⟨b, u, _, by rw [run_readAll_more h, run], by simp [ends], ?_⟩
      intro made member
      simp only [calls_append, calls_inside, calls_cons, calls_nil, Event.call?_called,
        Option.toList_some, List.append_nil, List.nil_append, List.mem_append,
        List.mem_singleton] at member
      rcases member with first | later
      · exact ⟨.done, first⟩
      · exact reads made later
    · exact ⟨a, s, _, run_readAll_last h (.inl done), by simp, by simp⟩

end Connection

end PolledConnection
