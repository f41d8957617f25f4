import PolledConnection.Outbox

/-! # Laws of the outbox

  How often a transport takes part of a message does not matter, only how much
  it takes altogether (`accept_accept`). An attempt to write the head ends in
  one of three ways, which `settle` tells apart by two conditions.
-/

namespace PolledConnection

namespace Message

@[simp] theorem accept_zero (m : Message) : m.accept 0 = m := by
  simp [accept_eq]

theorem accept_accept (m : Message) (a b : Nat) : (m.accept a).accept b = m.accept (a + b) := by
  simp only [accept_eq, mk.injEq, true_and, and_true]
  omega

/-- What a new message offers after `n` of its bytes were taken. -/
theorem rest_accept_new (bytes : Bytes) (tag : Tag) (n : Nat) :
    ((new bytes tag).accept n).rest = bytes.drop n := by
  have bounded : ((new bytes tag).accept n).unsent ≤ ((new bytes tag).accept n).bytes.length := by
    rw [accept_bytes]
    exact unsent_accept_le _ _
  rw [rest_of_le bounded]
  simp only [accept_eq, new]
  rcases Nat.le_total n bytes.length with le | ge
  · congr 1
    omega
  · rw [List.drop_of_length_le ge, List.drop_of_length_le (by omega)]

/-- A message offers no other bytes than its own. -/
theorem rest_suffix (m : Message) : m.rest <:+ m.bytes := by
  by_cases bounded : m.unsent ≤ m.bytes.length
  · rw [rest_of_le bounded]
    exact List.drop_suffix _ _
  · simp [rest, rest?, minus?, bounded]

theorem unsent_accept_new (bytes : Bytes) (tag : Tag) (n : Nat) :
    ((new bytes tag).accept n).unsent = bytes.length - n := by
  simp only [accept_eq, new]
  omega

end Message

namespace Outbox

variable {b : Outbox} {head : Message} {tail : List Message}

/-- Too little was taken to finish the head, or nothing at all. -/
theorem settle_stays (hm : b.messages = head :: tail) {n : Nat}
    (hn : n = 0 ∨ (head.accept n).unsent ≠ 0) :
    ∃ drain, (drain = .waiting ∨ drain = .partially) ∧
      b.settle (.ok n) = (drain, ⟨head.accept n :: tail⟩) := by
  obtain ⟨messages⟩ := b
  cases n with
  | zero => exact ⟨.waiting, by simp_all [settle]⟩
  | succ n => exact ⟨.partially, by simp_all [settle]⟩

/-- The rest of the head was taken. -/
theorem settle_ends (hm : b.messages = head :: tail) {n : Nat} (hn : n ≠ 0)
    (hu : (head.accept n).unsent = 0) : b.settle (.ok n) = (.sent (head.accept n), ⟨tail⟩) := by
  cases n with
  | zero => contradiction
  | succ n => simp [settle, hm, hu]

theorem settle_error (hm : b.messages = head :: tail) (fault : Fault) :
    b.settle (.error fault) = (.failed head fault, ⟨tail⟩) := by
  simp [settle, hm]

end Outbox

end PolledConnection
