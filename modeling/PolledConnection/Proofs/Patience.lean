import PolledConnection.Act

/-! # Asking until the answer comes

  Much of this library is asked the same thing again and again until it
  answers in earnest: a resolver, a socket that is connecting, a handshake, a
  close. How long that takes is not known beforehand. `EndsAfter` says of one
  state how long it takes from there.
-/

namespace PolledConnection

variable {σ α : Type}

/-- Asked again and again from a state, something gives `n` answers as `waits` has it, and then one as
    `ends` has it. -/
def EndsAfter (ask : σ → α × σ) (waits ends : α → Prop) : Nat → σ → Prop
  | 0, s => ends (ask s).1
  | n + 1, s => waits (ask s).1 ∧ EndsAfter ask waits ends n (ask s).2

instance EndsAfter.decidable (ask : σ → α × σ) (waits ends : α → Prop) [DecidablePred waits]
    [DecidablePred ends] : (n : Nat) → (s : σ) → Decidable (EndsAfter ask waits ends n s)
  | 0, _ => inferInstanceAs (Decidable (ends _))
  | n + 1, s =>
    have := decidable ask waits ends n (ask s).2
    inferInstanceAs (Decidable (_ ∧ _))

end PolledConnection
