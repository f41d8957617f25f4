import PolledConnection.Proofs.Connection.Sizes
import PolledConnection.Proofs.Tls.Reception

/-! # Counts from outside

  Two counts come from code that this library does not know: how many bytes a
  transport took in a write, and how many a session put into the buffer of a
  read. Both can be any number. A count of a write is clamped to the rest that
  was offered (`Counted`), one of a read to the size of the buffer (`Dealt`),
  so neither leads outside of the bytes that it is about.

  What the counts lead to is what the checked arithmetic of the program answers:
  `Message.rest?` and `Message.accept?` for the outbox, `slice?` for the buffer.
-/

namespace PolledConnection

namespace Connection

variable {σ α : Type} {T : Transport σ} {c : Connection σ} {queue : List Message}

/-! ### Writes -/

/-- What an operation makes of its write. It offers the rest of the head. A count of all that is offered
    or more ends the send, and the other messages stay as they are; with less, the rest of the head
    stays. -/
def Counted (queue : List Message) (o : Outcome Event (Connection σ) α) : Prop :=
  ∀ offered answer, .write offered answer ∈ calls o.events →
    ∃ head tail, queue = head :: tail ∧ head.rest? = some offered ∧
      ∀ n, answer = .ok n → ∃ left, head.accept? n = some left ∧
        if offered.length ≤ n then
          left.unsent = 0 ∧ completions o.events = [(head.tag, .ok)] ∧
            o.state.outbox.messages = tail
        else
          0 < left.unsent ∧ completions o.events = [] ∧ o.state.outbox.messages = left :: tail

/-- Without a write there is nothing to count. -/
theorem Counted.unwritten {o : Outcome Event (Connection σ) α}
    (none : ∀ offered answer, .write offered answer ∉ calls o.events) : Counted queue o := by
  intro offered answer member
  exact absurd member (none offered answer)

/-- Closing does not write. -/
theorem Counted.closes {o : Outcome Event (Connection σ) α}
    (closes : ∀ call ∈ calls o.events, ∃ a, call = .close a) : Counted queue o := by
  apply unwritten
  intro offered answer member
  obtain ⟨a, same⟩ := closes _ member
  simp at same

/-- What comes before the write makes no difference, if it does not write and ends no send. -/
theorem Counted.behind {β : Type} {o : Outcome Event (Connection σ) α}
    {p : Outcome Event (Connection σ) β} (h : Counted queue o) (es : List Event)
    (events : p.events = es ++ o.events) (state : p.state = o.state)
    (unended : completions es = []) (unwritten : ∀ offered answer, .write offered answer ∉ calls es) :
    Counted queue p := by
  intro offered answer member
  rw [events, calls_append] at member
  rw [events, state, completions_append, unended, List.nil_append]
  rcases List.mem_append.mp member with early | late
  · exact absurd early (unwritten offered answer)
  · exact h offered answer late

theorem pollSend_counted (hp : c.phase = .opened) (sized : Sized c.outbox.messages) :
    Counted c.outbox.messages ((pollSend T).run c) := by
  cases hm : c.outbox.messages with
  | nil =>
    apply Counted.unwritten
    simp [run_pollSend_empty hm]
  | cons head tail =>
    rw [hm] at sized
    have some := sized.unfinished head List.mem_cons_self
    have bounded := sized.bounded head List.mem_cons_self
    have length := Message.length_rest bounded
    rcases h : (T.write head.rest).run c.transport with ⟨answer, s, effects⟩
    intro offered answer' member
    cases answer with
    | error fault =>
      rw [run_pollSend_fails hp hm h] at member
      obtain ⟨rfl, rfl⟩ : offered = head.rest ∧ answer' = .error fault := by simpa using member
      refine ⟨head, tail, rfl, Message.rest?_eq bounded, ?_⟩
      simp
    | ok n =>
      by_cases less : n < head.unsent
      · rw [run_pollSend_less hm h less] at member ⊢
        obtain ⟨rfl, rfl⟩ : offered = head.rest ∧ answer' = .ok n := by simpa using member
        refine ⟨head, tail, rfl, Message.rest?_eq bounded, ?_⟩
        intro n' same
        obtain rfl := Except.ok.inj same
        refine ⟨head.accept n, head.accept?_eq n, ?_⟩
        rw [if_neg (by omega), Message.unsent_accept_of_lt less]
        exact ⟨by omega, by simp, rfl⟩
      · have enough : head.unsent ≤ n := Nat.le_of_not_lt less
        rw [run_pollSend_enough hp hm some h enough] at member ⊢
        obtain ⟨rfl, rfl⟩ : offered = head.rest ∧ answer' = .ok n := by simpa using member
        refine ⟨head, tail, rfl, Message.rest?_eq bounded, ?_⟩
        intro n' same
        obtain rfl := Except.ok.inj same
        refine ⟨head.accept n, head.accept?_eq n, ?_⟩
        rw [if_pos (by omega)]
        exact ⟨Message.unsent_accept_of_le enough, by simp, rfl⟩

/-- Only an open connection writes when it is polled. -/
theorem write_mem_poll {offered : Bytes} {answer : Count}
    (member : .write offered answer ∈ calls ((poll T).run c).events) : c.phase = .opened := by
  cases hp : c.phase with
  | opened => rfl
  | initial | closed | failed =>
    rw [run_poll_of_isIdle T c (by simp [isIdle, hp])] at member
    simp at member
  | opening =>
    cases client : c.client with
    | none => simp [poll, pollOpen, hp, client] at member
    | some tag =>
      obtain ⟨a, one⟩ := calls_poll_opening (T := T) hp (by simp [client])
      simp [one] at member
  | closing =>
    obtain ⟨a, one⟩ := calls_pollClose (T := T) (c := c) (by simp [hp]) false
    simp [poll, hp, one] at member

theorem poll_counted (sized : Sized c.outbox.messages) :
    Counted c.outbox.messages ((poll T).run c) := by
  intro offered answer member
  have hp := write_mem_poll member
  obtain ⟨a, u, es, run, unended, reads⟩ := readAll_reads (T := T) (T.backlog c.transport) c
  have unwritten : ∀ offered answer, .write offered answer ∉ calls es := by
    intro offered answer read
    obtain ⟨b, same⟩ := reads _ read
    simp at same
  by_cases failed : a = .failed
  · -- A connection that fails while it reads does not write.
    subst failed
    have events : calls ((poll T).run c).events = calls es := by simp [run_poll_fails hp run]
    rw [events] at member
    exact absurd member (unwritten offered answer)
  · have writes : Counted c.outbox.messages ((pollSend T).run { c with transport := u }) :=
      pollSend_counted hp sized
    have polled := run_poll_reads hp run failed
    have both : Counted c.outbox.messages ((poll T).run c) := by
      apply writes.behind es
      · rw [polled]
      · rw [polled]
      · exact unended
      · exact unwritten
    exact both offered answer member

/-- A send that is accepted queues its message and offers the head. -/
theorem send_counted (sized : Sized c.outbox.messages) {tag : Tag} {bytes : Bytes}
    (accepted : ((send T tag bytes).run c).answer = .ok ()) :
    Sized (c.outbox.messages ++ [.new bytes tag]) ∧
      Counted (c.outbox.messages ++ [.new bytes tag]) ((send T tag bytes).run c) := by
  by_cases hs : isSendable bytes.length = true
  · by_cases hp : c.phase = .opened
    · have pushed := sized.push tag (pos_of_isSendable hs)
      let full : Connection σ := { c with outbox := c.outbox.push (.new bytes tag) }
      have writes : Counted _ ((pollSend T).run full) := pollSend_counted hp pushed
      refine ⟨pushed, ?_⟩
      apply writes.behind []
      · simp [send, clearance, enqueue, hs, hp, full]
      · simp [send, clearance, enqueue, hs, hp, full]
      · rfl
      · simp
    · simp [send, clearance, hs, hp] at accepted
  · simp [send, clearance, hs] at accepted

/-- What is counted does not depend on how the answer is wrapped. -/
theorem Counted.map {β : Type} {m : Step σ α} (f : α → β) (h : Counted queue (m.run c)) :
    Counted queue ((f <$> m).run c) := by
  apply h.behind []
  · simp
  · simp
  · rfl
  · simp

/-- Every request other than several polls at once deals with its write like that. -/
theorem serve_counted (sized : Sized c.outbox.messages) (r : Request)
    (once : ∀ times, r = .poll times → times ≤ 1) :
    let o := (serve T r).run c
    Sized (c.outbox.messages ++ acceptedBy r o.answer) ∧
      Counted (c.outbox.messages ++ acceptedBy r o.answer) o := by
  intro o
  by_cases silent : acceptedBy r o.answer = []
  · rw [silent, List.append_nil]
    refine ⟨sized, ?_⟩
    by_cases polls : ∃ times, r = .poll times
    · obtain ⟨times, rfl⟩ := polls
      have few := once times rfl
      have poll_or_not : times = 0 ∨ times = 1 := by omega
      rcases poll_or_not with rfl | rfl
      · apply Counted.unwritten
        simp [o, serve, pollTimes]
      · have single : (pollTimes T 1).run c = (poll T).run c := by
          rw [pollTimes_succ]
          simp [pollTimes]
        apply Counted.map
        rw [single]
        exact poll_counted sized
    · have other : ∀ times, r ≠ .poll times := fun times same => polls ⟨times, same⟩
      exact .closes (calls_serve r other silent)
  · -- What accepts a message is a send, and zeros are sent like any other bytes.
    cases r with
    | send tag bytes =>
      cases accepted : ((send T tag bytes).run c).answer with
      | error fault => simp [o, serve, accepted, acceptedBy] at silent
      | ok =>
        obtain ⟨pushed, counted⟩ := send_counted sized accepted
        have queued : acceptedBy (.send tag bytes) o.answer = [.new bytes tag] := by
          simp [o, serve, accepted, acceptedBy]
        rw [queued]
        exact ⟨pushed, counted.map _⟩
    | sendZeros tag size =>
      cases accepted : ((send T tag (List.replicate size 0)).run c).answer with
      | error fault => simp [o, serve, sendZeros_eq, accepted, acceptedBy] at silent
      | ok =>
        obtain ⟨pushed, counted⟩ := send_counted sized accepted
        have queued : acceptedBy (.sendZeros tag size) o.answer =
            [.new (List.replicate size 0) tag] := by
          simp [o, serve, sendZeros_eq, accepted, acceptedBy]
        rw [queued]
        refine ⟨pushed, ?_⟩
        simp only [o, serve, sendZeros_eq]
        exact counted.map _
    | beginOpen | beginClose | poll | setOption | retrieve | replay =>
      simp [acceptedBy] at silent

/-- What holds of the outbox, whatever counts a transport answers. -/
structure Contained (T : Transport σ) (t : σ) : Prop where
  /-- In every life, the sizes of the queue fit, and the arithmetic with them stays within its checks. -/
  sized : ∀ rs destroyed,
    let queue := ((live T rs destroyed).run (ofTransport t)).state.outbox.messages
    Sized queue ∧ ∀ m ∈ queue, m.rest? = some m.rest ∧ ∀ n, m.accept? n = some (m.accept n)
  /-- From wherever a run leads to, every request deals with its write like that. -/
  request : ∀ rs r, (∀ times, r = .poll times → times ≤ 1) →
    let c := ((serveAll T rs).run (ofTransport t)).state
    let o := (serve T r).run c
    Sized (c.outbox.messages ++ acceptedBy r o.answer) ∧
      Counted (c.outbox.messages ++ acceptedBy r o.answer) o
  /-- The destruction does not write at all. -/
  destroy : ∀ rs offered answer, .write offered answer ∉
    calls ((destroy T).run ((serveAll T rs).run (ofTransport t)).state).events

theorem contained (T : Transport σ) (t : σ) : Contained T t where
  sized rs destroyed := by
    intro queue
    have sized : Sized queue := (live_moves T t rs destroyed).sized .nil
    exact ⟨sized, fun m hm => ⟨sized.rest? hm, m.accept?_eq⟩⟩
  request rs r once := serve_counted (serveAll_sized T t rs) r once
  destroy rs offered answer := by
    intro member
    obtain ⟨a, same⟩ := calls_destroy _ member
    simp at same

end Connection

namespace Tls

open Connection (transported)

variable {ε σ τ ρ ω : Type} {eng : Engine ε σ} {p : ε × Option σ} {es fs post : List Effect}

/-! ### Reads -/

/-- Of a fill that claims the buffer or more, all of it. -/
theorem Fill.chunk_eq_buffer (f : Fill) {size : Nat} (most : size ≤ f.count) :
    f.chunk size = f.buffer size := by
  rw [chunk_eq, Nat.min_eq_right most, buffer]

/-- What comes of a read of a session that claims `n` bytes, with the effects behind it. Some bytes are
    received at once: the front of the buffer up to the claim, and all of it if the claim goes beyond. -/
def Dealt (eng : Engine ε σ) (session : Option σ) (size n : Nat) (post : List Effect) : Prop :=
  size = receiveBufferSize ∧
    ∃ s fill, session = some s ∧ (eng.read size s).1 = .ok fill ∧ fill.count = n ∧
      (fill.buffer size).length = size ∧
      (n ≠ 0 → ∃ tag bytes more, post = .received tag bytes :: more ∧
        slice? (fill.buffer size) 0 (min n size) = some bytes ∧
        (size ≤ n → bytes = fill.buffer size))

/-- What comes later makes no difference. -/
theorem Dealt.append {session : Option σ} {size n : Nat} (h : Dealt eng session size n post)
    (fs : List Effect) : Dealt eng session size n (post ++ fs) := by
  obtain ⟨whole, s, fill, held, answer, count, length, received⟩ := h
  refine ⟨whole, s, fill, held, answer, count, length, ?_⟩
  intro some
  obtain ⟨tag, bytes, more, rfl, range, all⟩ := received some
  exact ⟨tag, bytes, more ++ fs, rfl, range, all⟩

/-- Every read in a list of effects is dealt with, from an engine and a session on. -/
def AllDealt (eng : Engine ε σ) : ε × Option σ → List Effect → Prop
  | _, [] => True
  | p, e :: es =>
    (∀ size n, e = .sessionRead size (.ok n) → Dealt eng p.2 size n es) ∧
      AllDealt eng (follow eng p e) es

theorem AllDealt.append (h₁ : AllDealt eng p es) (h₂ : AllDealt eng (es.foldl (follow eng) p) fs) :
    AllDealt eng p (es ++ fs) := by
  induction es generalizing p with
  | nil => exact h₂
  | cons e es ih =>
    obtain ⟨first, rest⟩ := h₁
    exact ⟨fun size n here => (first size n here).append fs, ih rest h₂⟩

/-- Without a read there is nothing to deal with. -/
theorem AllDealt.of_unread (none : ∀ size n, .sessionRead size (.ok n) ∉ es) : AllDealt eng p es := by
  induction es generalizing p with
  | nil => trivial
  | cons e es ih =>
    refine ⟨?_, ih fun size n later => none size n (List.mem_cons_of_mem _ later)⟩
    rintro size n rfl
    exact absurd List.mem_cons_self (none size n)

/-- **At any place**: a read is dealt with as the session there answers. -/
theorem AllDealt.at (h : AllDealt eng p es) {pre : List Effect} {size n : Nat}
    (split : es = pre ++ .sessionRead size (.ok n) :: post) :
    Dealt eng (pre.foldl (follow eng) p).2 size n post := by
  subst split
  induction pre generalizing p with
  | nil => exact h.1 size n rfl
  | cons e pre ih => exact ih h.2

section
variable {v w : View ε σ} {licence : Options → Carrier → Receiver → Prop} {deeds : List Effect}
variable {engine : ε}

/-- What a layer hands on is no read. -/
theorem unread_digest (receiver : Option Receiver) (answer : Except Fault Fill) (size n : Nat) :
    .sessionRead size (.ok n) ∉ (Layer.digest receiver answer).2 := by
  cases answer with
  | error fault => simp [Layer.digest]
  | ok fill =>
    by_cases hf : fill.count = 0
    · simp [Layer.digest, hf]
    · cases receiver <;> simp [Layer.digest, hf]

/-- The layer hands on what a read claims, clamped to its buffer. -/
theorem dealt_digest {s : σ} {receiver : Receiver} {n : Nat}
    (claim : (eng.read receiveBufferSize s).1.map Fill.count = .ok n) :
    Dealt eng (some s) receiveBufferSize n
      (Layer.digest (some receiver) (eng.read receiveBufferSize s).1).2 := by
  cases answer : (eng.read receiveBufferSize s).1 with
  | error fault => simp [answer, Except.map] at claim
  | ok fill =>
    have count : fill.count = n := by simpa [answer, Except.map] using claim
    subst count
    refine ⟨rfl, s, fill, rfl, answer, rfl, fill.length_buffer _, ?_⟩
    intro some
    refine ⟨receiver.tag, fill.chunk receiveBufferSize, [], ?_, fill.chunk?_eq _, ?_⟩
    · simp [Layer.digest, some]
    · exact fill.chunk_eq_buffer

/-- **Step**: in every deed, a read is dealt with. -/
theorem Deed.dealt (deed : Deed eng licence v deeds w) (sound : v.Sound) :
    AllDealt eng (v.engine, v.layer.held.map Held.session) deeds := by
  cases deed with
  | aside options step silent on =>
    apply AllDealt.of_unread
    intro size n member
    have silent := silent _ member
    simp [Effect.isSilent] at silent
  | @read h held =>
    obtain ⟨receiver, hr⟩ : ∃ receiver, v.layer.receiver = some receiver :=
      Option.isSome_iff_exists.mp (sound.receiver (by simp [held]))
    rw [hr, held]
    refine ⟨?_, AllDealt.of_unread (unread_digest _ _)⟩
    intro size n here
    obtain ⟨rfl, claim⟩ := Effect.sessionRead.inj here
    exact dealt_digest claim
  | created | refused | handshake | write =>
    apply AllDealt.of_unread
    simp
  | close =>
    apply AllDealt.of_unread
    cases v.layer.held <;> simp

/-- All reads so far have been dealt with, and the replay comes to the session that is there. -/
structure Heeded (eng : Engine ε σ) (engine : ε) (es : List Transport.Event) (v : View ε σ) : Prop where
  view : v.Sound
  replay : (effects es).foldl (follow eng) (engine, none) = (v.engine, v.layer.held.map Held.session)
  dealt : AllDealt eng (engine, none) (effects es)

namespace Heeded

variable {es : List Transport.Event}

theorem first (fresh : View.Fresh engine v) : Heeded eng engine [] v where
  view := fresh.sound
  replay := by simp [fresh.held, fresh.engine]
  dealt := trivial

theorem deed (heeded : Heeded eng engine es v) (deed : Deed eng licence v deeds w) :
    Heeded eng engine (es ++ deeds.map .effect) w where
  view := (Course.single deed).sound heeded.view
  replay := by rw [effects_append, effects_effects, List.foldl_append, heeded.replay, deed.replay]
  dealt := by
    rw [effects_append, effects_effects]
    apply heeded.dealt.append
    rw [heeded.replay]
    exact deed.dealt heeded.view

theorem call {call : Transport.Call} (heeded : Heeded eng engine es v) (_ : Fits v call) :
    Heeded eng engine (es ++ [.called call]) v where
  view := heeded.view
  replay := by simpa using heeded.replay
  dealt := by simpa using heeded.dealt

end Heeded

end

/-- In every life of a connection over a transport, from its making on, every read that claims a count
    is one of the session at that place, and is dealt with. -/
def Clamped (eng : Engine ε σ) (engine : ε) (T : Transport τ) (made : Transport.Creation τ) : Prop :=
  ∀ rs destroyed pre size n post,
    effects (transported (history T made rs destroyed)) = pre ++ .sessionRead size (.ok n) :: post →
      Dealt eng (pre.foldl (follow eng) (engine, none)).2 size n post

theorem Conduct.clamped {T : Transport τ} {look : τ → View ε σ} {fit : τ → Prop}
    {permit : Options → Carrier → Prop} {engine : ε} {made : Transport.Creation τ}
    (conduct : Conduct eng T look fit permit) (begins : Begins eng look fit engine made) :
    Clamped eng engine T made := by
  intro rs destroyed pre size n post split
  obtain ⟨v, w, fresh, course, -⟩ := conduct.history begins rs destroyed
  have heeded : Heeded eng engine _ w := course.invariant Heeded.deed Heeded.call (.first fresh)
  exact heeded.dealt.at split

end Tls

/-! ### The theorem -/

/-- **Counts.** Whatever counts a transport answers to writes, in every life the sizes of the outbox
    fit: every message has something unsent, at most all of it, and all of it behind the head. So its
    subtractions do not underflow and its ranges are within the bytes. A count beyond the offered rest
    ends the send of the head and leaves the next message as it is. And whatever counts the sessions of
    an engine answer to reads, in every life over a TLS transport what is received is a range of the
    buffer, all of it if the count is beyond. -/
theorem counts_contained {ε σ τ ρ ω : Type} (T : Transport τ) (t : τ) (eng : Tls.Engine ε σ)
    (net : Network ω) (res : Resolver ρ) (engine : ε) (resolver : ρ) (network : ω) (carrier : Carrier)
    (endpoint : Endpoint) :
    Connection.Contained T t ∧
      Tls.Clamped eng engine (Tls.OverGiven.transport eng)
        (Tls.OverGiven.create eng engine carrier endpoint) ∧
      Tls.Clamped eng engine (Tls.OverTcp.transport eng net res)
        (Tls.OverTcp.create eng net res engine resolver network endpoint) := by
  have given := Tls.OverGiven.create_begins eng engine carrier endpoint
  have tcp := Tls.OverTcp.create_begins eng net res engine resolver network endpoint
  refine ⟨Connection.contained T t, ?_, ?_⟩
  · exact (Tls.OverGiven.conduct eng carrier).clamped given
  · exact (Tls.OverTcp.conduct eng net res).clamped tcp

end PolledConnection
