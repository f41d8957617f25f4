import PolledConnection.Proofs.Connection.Sizes
import PolledConnection.Script.Transport

/-! # How many polls empty the outbox

  Take an open connection that is only polled, over a transport whose reads
  find nothing. If every write takes `k` bytes, or what is left of the message
  if that is less, then a message of which `u` bytes are unsent needs `u / k`
  polls, rounded up, and no poll is wasted between two messages
  (`pollsFor`). If a write takes what it likes, but something, there are at
  most as many polls as there are unsent bytes.

  One poll pulls once at the queue (`Pull`, `poll_pulls`). The two results are
  inductions on the number of polls, from the first one on.
-/

namespace PolledConnection

/-- A read finds nothing, and a write takes as many of the offered bytes as is allowed. -/
def Transport.Call.Yields (allowed : Nat → Nat → Prop) : Transport.Call → Prop
  | .read answer => answer = .waiting
  | .write offered (.ok taken) => allowed offered.length taken
  | .write _ (.error _) => False
  | .establish _ | .close _ => True

namespace Connection

variable {σ : Type} {T : Transport σ} {c : Connection σ} {allowed : Nat → Nat → Prop}
variable {head : Message} {tail queue after : List Message} {ends : List (Tag × Verdict)}
variable {k m n u : Nat}

/-- So does every call in a history. -/
def Steady (allowed : Nat → Nat → Prop) (es : List Event) : Prop :=
  ∀ call ∈ calls es, call.Yields allowed

/-- A write takes `k` bytes, or all that are offered if there are fewer. -/
def evenly (k : Nat) (offered taken : Nat) : Prop := taken = min k offered

/-- A write takes something. -/
def somehow (offered taken : Nat) : Prop := 1 ≤ taken ∧ taken ≤ offered

instance (k offered taken : Nat) : Decidable (evenly k offered taken) :=
  inferInstanceAs (Decidable (taken = min k offered))

instance (offered taken : Nat) : Decidable (somehow offered taken) :=
  inferInstanceAs (Decidable (1 ≤ taken ∧ taken ≤ offered))

instance [∀ offered taken, Decidable (allowed offered taken)] (call : Transport.Call) :
    Decidable (call.Yields allowed) :=
  match call with
  | .read answer => inferInstanceAs (Decidable (answer = .waiting))
  | .write offered (.ok taken) => inferInstanceAs (Decidable (allowed offered.length taken))
  | .write _ (.error _) => isFalse id
  | .establish _ | .close _ => isTrue trivial

instance [∀ offered taken, Decidable (allowed offered taken)] (es : List Event) :
    Decidable (Steady allowed es) :=
  inferInstanceAs (Decidable (∀ call ∈ calls es, call.Yields allowed))

theorem Steady.left {es fs : List Event} (h : Steady allowed (es ++ fs)) : Steady allowed es := by
  intro call member
  apply h call
  rw [calls_append]
  exact List.mem_append_left _ member

theorem Steady.right {es fs : List Event} (h : Steady allowed (es ++ fs)) : Steady allowed fs := by
  intro call member
  apply h call
  rw [calls_append]
  exact List.mem_append_right _ member

/-! ### Numbers of polls -/

/-- The number of polls for a message of which that many bytes are unsent. -/
def shots (k unsent : Nat) : Nat := (unsent + (k - 1)) / k

/-- The number of polls for all messages of a queue. -/
def pollsFor (k : Nat) : List Message → Nat
  | [] => 0
  | m :: ms => shots k m.unsent + pollsFor k ms

/-- The number of unsent bytes in a queue. -/
def unsentIn : List Message → Nat
  | [] => 0
  | m :: ms => m.unsent + unsentIn ms

theorem shots_short (some : 0 < u) (fits : u ≤ k) : shots k u = 1 := by
  unfold shots
  apply Nat.div_eq_of_lt_le
  · omega
  · omega

theorem shots_long (hk : 0 < k) (long : k < u) : shots k u = shots k (u - k) + 1 := by
  have split : u + (k - 1) = (u - k + (k - 1)) + k := by omega
  unfold shots
  rw [split, Nat.add_div_right _ hk]

theorem shots_pos (hk : 0 < k) (some : 0 < u) : 0 < shots k u := by
  by_cases fits : u ≤ k
  · rw [shots_short some fits]
    omega
  · rw [shots_long hk (by omega)]
    omega

/-- The poll in which a message of a queue is sent, by its place. -/
def due (k : Nat) (queue : List Message) (i : Nat) : Nat := pollsFor k (queue.take (i + 1))

/-- A queue with messages in it takes at least one poll. -/
theorem pollsFor_pos (hk : 0 < k) (sized : Sized (head :: tail)) : 0 < pollsFor k (head :: tail) := by
  have first := shots_pos hk (sized.unfinished head List.mem_cons_self)
  unfold pollsFor
  omega

/-! ### One poll -/

/-- One poll pulls at the queue: what it takes of the head is allowed. -/
inductive Pull (allowed : Nat → Nat → Prop) :
    List Message → List (Tag × Verdict) → List Message → Prop where
  /-- Nothing waits. -/
  | idle : Pull allowed [] [] []
  /-- Some of the head is left. -/
  | part {head : Message} {tail : List Message} {n : Nat} (ok : allowed head.unsent n)
      (less : n < head.unsent) :
      Pull allowed (head :: tail) [] (head.accept n :: tail)
  /-- The head has been sent. -/
  | whole {head : Message} {tail : List Message} {n : Nat} (ok : allowed head.unsent n)
      (enough : head.unsent ≤ n) :
      Pull allowed (head :: tail) [(head.tag, .ok)] tail

theorem Pull.sized (pull : Pull allowed queue ends after) (sized : Sized queue) : Sized after := by
  cases pull with
  | idle => exact sized
  | whole => exact sized.tail
  | part ok less =>
    apply sized.accept
    rw [Message.unsent_accept_of_lt less]
    omega

theorem Pull.single (pull : Pull allowed queue ends after) : ends.length ≤ 1 := by
  cases pull <;> simp

/-- Reading begins with a read. -/
theorem read_mem_readAll {a : Progress} {s : σ} {effects : List Effect}
    (h : T.read.run c.transport = ⟨a, s, effects⟩) (limit : Nat) :
    .read a ∈ calls ((readAll T limit).run c).events := by
  by_cases last : a ≠ .done ∨ limit = 0
  · simp [run_readAll_last h last]
  · obtain ⟨done, more⟩ := not_or.mp last
    obtain rfl : a = .done := Decidable.not_not.mp done
    obtain ⟨limit, rfl⟩ := Nat.exists_eq_succ_of_ne_zero more
    simp [run_readAll_more h]

/-- **One poll**: if the reads find nothing, a poll pulls at the queue once. -/
theorem poll_pulls (hp : c.phase = .opened) (sized : Sized c.outbox.messages)
    (steady : Steady allowed ((poll T).run c).events) :
    ((poll T).run c).state.phase = .opened ∧
      Pull allowed c.outbox.messages (completions ((poll T).run c).events)
        ((poll T).run c).state.outbox.messages := by
  rcases h : T.read.run c.transport with ⟨a, s, effects⟩
  -- The first read is among the calls, so it finds nothing, and there is no other.
  have waits : a = .waiting := by
    have first := read_mem_readAll h (T.backlog c.transport)
    refine steady (.read a) ?_
    simp [poll, hp, pollRead, first]
  subst waits
  have reads : (readAll T (T.backlog c.transport)).run c =
      ⟨.waiting, { c with transport := s }, inside effects ++ [called (.read .waiting)]⟩ :=
    run_readAll_last h (.inl (by simp))
  let d : Connection σ := { c with transport := s }
  have run : (poll T).run c =
      ⟨(), ((pollSend T).run d).state,
        inside effects ++ [called (.read .waiting)] ++ ((pollSend T).run d).events⟩ :=
    run_poll_reads hp reads (by simp)
  rw [run] at steady ⊢
  have writes : Steady allowed ((pollSend T).run d).events := steady.right
  cases hm : c.outbox.messages with
  | nil =>
    have nothing := run_pollSend_empty (T := T) (c := d) hm
    rw [nothing]
    refine ⟨hp, ?_⟩
    simpa [d, hm] using Pull.idle
  | cons head tail =>
    rw [hm] at sized
    have bounded := sized.bounded head List.mem_cons_self
    have some := sized.unfinished head List.mem_cons_self
    rcases write : (T.write head.rest).run s with ⟨answer, r, deeds⟩
    -- The write is among the calls too, so it does not fail and takes what is allowed.
    cases answer with
    | error fault =>
      rw [run_pollSend_fails (c := d) hp hm write] at writes
      have failed := writes (.write head.rest (.error fault)) (by simp)
      exact failed.elim
    | ok n =>
      by_cases less : n < head.unsent
      · rw [run_pollSend_less (c := d) hm write less] at writes ⊢
        have ok := writes (.write head.rest (.ok n)) (by simp)
        rw [Transport.Call.Yields, Message.length_rest bounded] at ok
        refine ⟨hp, ?_⟩
        simpa using Pull.part ok less
      · have enough : head.unsent ≤ n := Nat.le_of_not_lt less
        rw [run_pollSend_enough (c := d) hp hm some write enough] at writes ⊢
        have ok := writes (.write head.rest (.ok n)) (by simp)
        rw [Transport.Call.Yields, Message.length_rest bounded] at ok
        refine ⟨hp, ?_⟩
        simpa using Pull.whole ok enough

/-! ### Even polls -/

/-- A message that is not finished by a pull is due one poll later than what is left of it. -/
theorem due_part (hk : 0 < k) (long : k < head.unsent) (tail : List Message) (i : Nat) :
    due k (head :: tail) i = due k (head.accept k :: tail) i + 1 := by
  have less : (head.accept k).unsent = head.unsent - k := Message.unsent_accept_of_lt long
  simp only [due, List.take_succ_cons, pollsFor, less, shots_long hk long]
  omega

/-- One that is finished lets the next one come one poll later. -/
theorem due_whole (one : shots k head.unsent = 1) (tail : List Message) (i : Nat) :
    due k (head :: tail) (i + 1) = due k tail i + 1 := by
  simp only [due, List.take_succ_cons, pollsFor, one]
  omega

theorem due_head (one : shots k head.unsent = 1) (tail : List Message) :
    due k (head :: tail) 0 = 1 := by
  simp [due, pollsFor, one]

theorem due_pos (hk : 0 < k) (sized : Sized queue) {i : Nat} (hi : i < queue.length) :
    0 < due k queue i := by
  cases queue with
  | nil => simp at hi
  | cons head tail =>
    have first := shots_pos hk (sized.unfinished head List.mem_cons_self)
    simp only [due, List.take_succ_cons, pollsFor]
    omega

/-- What the poll behind `m` others tells: the end of the send that is due, or nothing. -/
structure Prompt (k : Nat) (queue : List Message) (m : Nat) (ends : List (Tag × Verdict)) : Prop where
  sent : ∀ i (hi : i < queue.length), due k queue i = m + 1 → ends = [(queue[i].tag, .ok)]
  silent : (∀ i < queue.length, due k queue i ≠ m + 1) → ends = []

/-- A pull that leaves some of the head took `k` bytes, and there were more. -/
theorem evenly_part (ok : evenly k u n) (less : n < u) : n = k ∧ k < u := by
  unfold evenly at ok
  omega

theorem evenly_whole (ok : evenly k u n) (enough : u ≤ n) : u ≤ k := by
  unfold evenly at ok
  omega

namespace Pull

/-- Every pull is one of the polls that a queue takes. -/
theorem pollsFor_le (pull : Pull (evenly k) queue ends after) (hk : 0 < k) (sized : Sized queue)
    (n : Nat) : pollsFor k queue ≤ n + 1 ↔ pollsFor k after ≤ n := by
  cases pull with
  | idle => simp [pollsFor]
  | @part head tail taken ok less =>
    obtain ⟨rfl, long⟩ := evenly_part ok less
    have rest : (head.accept taken).unsent = head.unsent - taken := Message.unsent_accept_of_lt long
    simp only [pollsFor, rest, shots_long hk long]
    omega
  | @whole head tail taken ok enough =>
    have some := sized.unfinished head List.mem_cons_self
    simp only [pollsFor, shots_short some (evenly_whole ok enough)]
    omega

/-- The first poll tells what it should. -/
theorem prompt_first (pull : Pull (evenly k) queue ends after) (hk : 0 < k) (sized : Sized queue) :
    Prompt k queue 0 ends := by
  have kept := pull.sized sized
  cases pull with
  | idle => exact ⟨fun i hi => absurd hi (Nat.not_lt_zero i), fun _ => rfl⟩
  | @part head tail taken ok less =>
    obtain ⟨rfl, long⟩ := evenly_part ok less
    -- What is left of the head takes another poll, and so do the messages behind it.
    refine ⟨fun i hi now => ?_, fun _ => rfl⟩
    have later := due_pos hk kept (show i < (head.accept taken :: tail).length from hi)
    rw [due_part hk long] at now
    omega
  | @whole head tail taken ok enough =>
    have some := sized.unfinished head List.mem_cons_self
    have one := shots_short some (evenly_whole ok enough)
    refine ⟨fun i hi now => ?_, fun none => ?_⟩
    · cases i with
      | zero => rfl
      | succ i =>
        have later := due_pos hk kept (Nat.lt_of_succ_lt_succ hi)
        rw [due_whole one] at now
        omega
    · exact absurd (due_head one _) (none 0 (Nat.zero_lt_succ _))

/-- A later poll tells what it should, seen from the queue behind the first one. -/
theorem prompt_later (pull : Pull (evenly k) queue ends after) (hk : 0 < k) (sized : Sized queue)
    {told : List (Tag × Verdict)} (prompt : Prompt k after m told) : Prompt k queue (m + 1) told := by
  cases pull with
  | idle => exact ⟨fun i hi => absurd hi (Nat.not_lt_zero i), fun _ => prompt.silent (by simp)⟩
  | @part head tail taken ok less =>
    obtain ⟨rfl, long⟩ := evenly_part ok less
    refine ⟨fun i hi now => ?_, fun none => ?_⟩
    · rw [due_part hk long] at now
      have sent := prompt.sent i hi (Nat.succ.inj now)
      cases i with
      | zero => simpa using sent
      | succ i => exact sent
    · apply prompt.silent
      intro i hi now
      apply none i hi
      rw [due_part hk long, now]
  | @whole head tail taken ok enough =>
    have some := sized.unfinished head List.mem_cons_self
    have one := shots_short some (evenly_whole ok enough)
    refine ⟨fun i hi now => ?_, fun none => ?_⟩
    · cases i with
      | zero =>
        rw [due_head one] at now
        omega
      | succ i =>
        rw [due_whole one] at now
        exact prompt.sent i (Nat.lt_of_succ_lt_succ hi) (Nat.succ.inj now)
    · apply prompt.silent
      intro i hi now
      apply none (i + 1) (Nat.succ_lt_succ hi)
      rw [due_whole one, now]

end Pull

/-! ### Polls one after the other -/

theorem run_pollTimes_succ (T : Transport σ) (n : Nat) (c : Connection σ) :
    (pollTimes T (n + 1)).run c =
      ⟨(), ((pollTimes T n).run ((poll T).run c).state).state,
        ((poll T).run c).events ++ ((pollTimes T n).run ((poll T).run c).state).events⟩ := by
  rw [pollTimes_succ, Act.run_bind]

/-- The sends that end in the poll behind `m` others. -/
def endsIn (T : Transport σ) (c : Connection σ) (m : Nat) : List (Tag × Verdict) :=
  completions ((poll T).run ((pollTimes T m).run c).state).events

theorem endsIn_zero (T : Transport σ) (c : Connection σ) :
    endsIn T c 0 = completions ((poll T).run c).events := rfl

theorem endsIn_succ (T : Transport σ) (c : Connection σ) (m : Nat) :
    endsIn T c (m + 1) = endsIn T ((poll T).run c).state m := by
  unfold endsIn
  rw [run_pollTimes_succ]

/-- `n` polls of `k` bytes each. -/
structure Timely (T : Transport σ) (k n : Nat) (c : Connection σ) : Prop where
  opened : ((pollTimes T n).run c).state.phase = .opened
  /-- Nothing waits any more if they are enough, and otherwise something does. -/
  empty : ((pollTimes T n).run c).state.outbox.messages = [] ↔ pollsFor k c.outbox.messages ≤ n
  /-- Each of them ends the send that is due, if there is one, and no other. -/
  prompt : ∀ m < n, Prompt k c.outbox.messages m (endsIn T c m)

theorem timely (hk : 0 < k) (hp : c.phase = .opened) (sized : Sized c.outbox.messages)
    (steady : Steady (evenly k) ((pollTimes T n).run c).events) : Timely T k n c := by
  induction n generalizing c with
  | zero =>
    refine ⟨hp, ?_, fun m hm => absurd hm (Nat.not_lt_zero m)⟩
    show c.outbox.messages = [] ↔ pollsFor k c.outbox.messages ≤ 0
    cases hm : c.outbox.messages with
    | nil => simp [pollsFor]
    | cons head tail =>
      rw [hm] at sized
      have some := pollsFor_pos hk sized
      simp only [List.cons_ne_nil, false_iff]
      omega
  | succ n ih =>
    rw [run_pollTimes_succ] at steady
    obtain ⟨open', pull⟩ := poll_pulls hp sized steady.left
    have later := ih open' (pull.sized sized) steady.right
    refine ⟨?_, ?_, ?_⟩
    · rw [run_pollTimes_succ]
      exact later.opened
    · rw [run_pollTimes_succ, pull.pollsFor_le hk sized]
      exact later.empty
    · intro m hm
      cases m with
      | zero =>
        rw [endsIn_zero]
        exact pull.prompt_first hk sized
      | succ m =>
        rw [endsIn_succ]
        exact pull.prompt_later hk sized (later.prompt m (Nat.lt_of_succ_lt_succ hm))

/-! ### Polls that take something -/

/-- The messages have been sent. -/
def allSent (messages : List Message) : List (Tag × Verdict) := messages.map fun m => (m.tag, .ok)

/-- `n` polls that each take something. -/
structure Thorough (T : Transport σ) (n : Nat) (c : Connection σ) : Prop where
  opened : ((pollTimes T n).run c).state.phase = .opened
  /-- One poll for each unsent byte is enough, and then all sends have ended, in order. -/
  whole : unsentIn c.outbox.messages ≤ n →
    ((pollTimes T n).run c).state.outbox.messages = [] ∧
      completions ((pollTimes T n).run c).events = allSent c.outbox.messages
  /-- With fewer polls, the first of them have ended, in order. -/
  order : ∃ j, completions ((pollTimes T n).run c).events = allSent (c.outbox.messages.take j)
  /-- No poll ends more than one send. -/
  single : ∀ m < n, (endsIn T c m).length ≤ 1

/-- A pull that takes something uses up unsent bytes, if there are any. -/
theorem Pull.unsentIn_le (pull : Pull somehow queue ends after) (sized : Sized queue)
    (enough : unsentIn queue ≤ n + 1) : unsentIn after ≤ n := by
  cases pull with
  | idle => exact Nat.zero_le n
  | @part head tail taken ok less =>
    have some : 1 ≤ taken := ok.1
    simp only [unsentIn, Message.unsent_accept_of_lt less] at enough ⊢
    omega
  | @whole head tail taken ok all =>
    have some := sized.unfinished head List.mem_cons_self
    simp only [unsentIn] at enough
    omega

/-- The sends that end in a pull, and those of a part of the queue behind it, are those of a part of
    the queue. -/
theorem Pull.sends_take (pull : Pull allowed queue ends after) (j : Nat) :
    ∃ i, ends ++ allSent (after.take j) = allSent (queue.take i) := by
  cases pull with
  | idle => exact ⟨0, by simp [allSent]⟩
  | part =>
    refine ⟨j, ?_⟩
    cases j with
    | zero => rfl
    | succ j => simp [allSent]
  | whole => exact ⟨j + 1, by simp [allSent]⟩

theorem Pull.sends (pull : Pull allowed queue ends after) : ends ++ allSent after = allSent queue := by
  cases pull <;> simp [allSent]

theorem thorough (hp : c.phase = .opened) (sized : Sized c.outbox.messages)
    (steady : Steady somehow ((pollTimes T n).run c).events) : Thorough T n c := by
  induction n generalizing c with
  | zero =>
    refine ⟨hp, ?_, ⟨0, rfl⟩, fun m hm => absurd hm (Nat.not_lt_zero m)⟩
    intro enough
    show c.outbox.messages = [] ∧ [] = allSent c.outbox.messages
    cases hm : c.outbox.messages with
    | nil => exact ⟨rfl, rfl⟩
    | cons head tail =>
      -- A message that waits is not finished.
      rw [hm] at sized enough
      have some := sized.unfinished head List.mem_cons_self
      simp only [unsentIn] at enough
      omega
  | succ n ih =>
    rw [run_pollTimes_succ] at steady
    obtain ⟨open', pull⟩ := poll_pulls hp sized steady.left
    have later := ih open' (pull.sized sized) steady.right
    refine ⟨?_, ?_, ?_, ?_⟩
    · rw [run_pollTimes_succ]
      exact later.opened
    · intro enough
      obtain ⟨empty, all⟩ := later.whole (pull.unsentIn_le sized enough)
      rw [run_pollTimes_succ, completions_append, all]
      exact ⟨empty, pull.sends⟩
    · obtain ⟨j, ended⟩ := later.order
      rw [run_pollTimes_succ, completions_append, ended]
      exact pull.sends_take j
    · intro m hm
      cases m with
      | zero =>
        rw [endsIn_zero]
        exact pull.single
      | succ m =>
        rw [endsIn_succ]
        exact later.single m (Nat.lt_of_succ_lt_succ hm)

/-! ### The theorem -/

/-- **Draining.** Take any open connection that a run leads to, and poll it `n` times. If in these polls
    the reads find nothing and every write takes `k` bytes, or all that it is offered if that is less,
    then the outbox is empty if and only if `n` is at least the sum of the unsent sizes of its
    messages, each divided by `k` and rounded up; and the send of every message ends well in just the
    poll whose number is that sum up to the message itself. If every write takes something, as many
    polls as there are unsent bytes are enough; sends end well and in order, and no two in one poll. -/
theorem outbox_drains (T : Transport σ) (t : σ) (rs : List Request)
    (opened : ((serveAll T rs).run (ofTransport t)).state.phase = .opened) (n : Nat) :
    let c := ((serveAll T rs).run (ofTransport t)).state
    (∀ k, 0 < k → Steady (evenly k) ((pollTimes T n).run c).events → Timely T k n c) ∧
      (Steady somehow ((pollTimes T n).run c).events → Thorough T n c) := by
  have sized := serveAll_sized T t rs
  exact ⟨fun k hk steady => timely hk opened sized steady, fun steady => thorough opened sized steady⟩

/-- A transport that opens at once, takes nothing in the first two writes, and then two bytes in each. -/
def byPairs : Script.Transport where
  opens := [⟨[], .done⟩]
  closes := []
  reads := []
  writes := [.upTo 0, .upTo 0]
  writeDefault := some (.upTo 2)
  accepted := []
  options := .empty
  receiver := none

/-- Over such a transport, messages of three and of five bytes take two polls and then three. -/
theorem outbox_drains_byPairs :
    let T := Script.Transport.transport
    let c := ((serveAll T [.beginOpen "open", .poll 1, .send "older" [1, 2, 3],
      .send "younger" [1, 2, 3, 4, 5]]).run (ofTransport byPairs)).state
    c.phase = .opened ∧ c.outbox.messages.map Message.unsent = [3, 5] ∧
      (∀ n, n = 4 ∨ n = 5 → Timely T 2 n c) ∧
      ((pollTimes T 4).run c).state.outbox.messages ≠ [] ∧
      ((pollTimes T 5).run c).state.outbox.messages = [] ∧
      endsIn T c 1 = [("older", .ok)] ∧ endsIn T c 4 = [("younger", .ok)] ∧ Thorough T 8 c := by
  intro T c
  have opened : c.phase = .opened := by decide
  have drains := outbox_drains T byPairs [.beginOpen "open", .poll 1, .send "older" [1, 2, 3],
    .send "younger" [1, 2, 3, 4, 5]] opened
  have four : Timely T 2 4 c := (drains 4).1 2 (by decide) (by decide)
  have five : Timely T 2 5 c := (drains 5).1 2 (by decide) (by decide)
  have queue : c.outbox.messages =
      [⟨[1, 2, 3], 3, "older"⟩, ⟨[1, 2, 3, 4, 5], 5, "younger"⟩] := by decide
  have second := five.prompt 1 (by decide)
  have fifth := five.prompt 4 (by decide)
  rw [queue] at second fifth
  refine ⟨opened, by rw [queue]; rfl, ?_, ?_, ?_, ?_, ?_, ?_⟩
  · rintro n (rfl | rfl)
    · exact four
    · exact five
  · intro empty
    have enough := four.empty.mp empty
    exact absurd enough (by decide)
  · exact five.empty.mpr (by decide)
  · exact second.sent 0 (by decide) (by decide)
  · exact fifth.sent 1 (by decide) (by decide)
  · exact (drains 8).2 (by decide)

end Connection

end PolledConnection
