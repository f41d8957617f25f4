import PolledConnection.Proofs.Connection.Ledger

/-! # What goes onto the wire

  A message may be split over any number of writes. Whatever the transport
  answers, the bytes that it took are the messages that ended well, one behind
  the other, then a strict prefix of the next one.

  The grammar of such histories is the relation `Wire`: every write offers
  exactly the rest of the next message, and the write that takes its last byte
  is directly followed by the end of the send. Every life keeps to it
  (`Course.step`), and what it says of each point and of each write is read off
  by cutting a history in two (`Wire.cut`).
-/

namespace PolledConnection

/-- Whether an event puts nothing onto the wire and lets no send end well. -/
def Event.isSilent : Event → Bool
  | .transport (.called (.write ..)) | .sendComplete _ .ok _ => false
  | _ => true

theorem Event.call?_of_isSilent {e : Event} (h : e.isSilent = true) :
    e.call?.toList.flatMap Transport.Call.taken = [] := by
  cases e with
  | transport event =>
    cases event with
    | effect => rfl
    | called call =>
      cases call with
      | write offered answer => simp [Event.isSilent] at h
      | establish | close | read => rfl
  | openComplete | ioError | sendComplete | closeComplete | note => rfl

theorem Event.completion?_of_isSilent {e : Event} (h : e.isSilent = true) :
    ∀ c ∈ e.completion?.toList, c.2 ≠ .ok := by
  cases e with
  | sendComplete tag verdict phase =>
    intro c hc
    simp only [Event.completion?_sendComplete, Option.toList_some, List.mem_singleton] at hc
    subst hc
    cases verdict with
    | ok => simp [Event.isSilent] at h
    | failed | cancelled => simp
  | openComplete | ioError | closeComplete | transport | note => simp

namespace Connection

variable {σ : Type} {sent : List Message} {es fs pre post : List Event} {k : Nat} {p : Bytes}

/-! ### The grammar -/

/-- The message behind the first `k` is `m`; of its bytes, `p` has been taken, and `b` is left. -/
structure Offer (sent : List Message) (k : Nat) (p b : Bytes) (m : Message) : Prop where
  next : sent[k]? = some m
  bytes : p ++ b = m.bytes
  nonempty : b ≠ []

theorem Offer.take_succ {b : Bytes} {m : Message} (h : Offer sent k p b m) :
    sent.take (k + 1) = sent.take k ++ [m] := by
  rw [List.take_add_one, h.next]
  rfl

theorem Offer.lt_length {b : Bytes} {m : Message} (h : Offer sent k p b m) : k < sent.length :=
  (List.getElem?_eq_some_iff.mp h.next).1

/-- The events put the first `k` messages onto the wire, and the bytes `p` of the next one. -/
inductive Wire (sent : List Message) : List Event → Nat → Bytes → Prop where
  | start : Wire sent [] 0 []
  /-- Something else happens. -/
  | quiet {es k p e} (before : Wire sent es k p) (hs : Event.isSilent e = true) :
      Wire sent (es ++ [e]) k p
  /-- A write fails. -/
  | refused {es k p b m} (fault : Fault) (before : Wire sent es k p) (offer : Offer sent k p b m) :
      Wire sent (es ++ [called (.write b (.error fault))]) k p
  /-- A write takes less than what is left. -/
  | part {es k p b m n} (before : Wire sent es k p) (offer : Offer sent k p b m)
      (hn : n < b.length) :
      Wire sent (es ++ [called (.write b (.ok n))]) k (p ++ b.take n)
  /-- A write takes all that is left. No send has ended badly before. -/
  | whole {es k p b m n} (before : Wire sent es k p) (offer : Offer sent k p b m)
      (hn : b.length ≤ n) (ends : (completions es).length = k) :
      Wire sent (es ++ [called (.write b (.ok n)), .sendComplete m.tag .ok .opened]) (k + 1) []

/-! ### Silence -/

theorem isSilent_inside (effects : List Effect) : ∀ e ∈ inside effects, e.isSilent = true := by
  simp [inside, Event.isSilent]

/-- A call that is not a write, with what follows it. -/
theorem isSilent_call (effects : List Effect) {call : Transport.Call}
    (hc : (called call).isSilent = true) (rest : ∀ e ∈ fs, e.isSilent = true) :
    ∀ e ∈ inside effects ++ called call :: fs, e.isSilent = true := by
  intro e he
  rcases List.mem_append.mp he with early | late
  · exact isSilent_inside effects e early
  · rcases List.mem_cons.mp late with rfl | late
    · exact hc
    · exact rest e late

theorem isSilent_farewell (c : Connection σ) (answer : Progress) :
    ∀ e ∈ farewell c answer, e.isSilent = true := by
  cases answer <;> simp [farewell, Event.isSilent, or_imp, forall_and]

/-! ### What the grammar says -/

namespace Wire

theorem quiets (h : Wire sent es k p) (hs : ∀ e ∈ fs, e.isSilent = true) :
    Wire sent (es ++ fs) k p := by
  induction fs generalizing es with
  | nil => simpa using h
  | cons e fs ih =>
    have first := h.quiet (hs e List.mem_cons_self)
    have rest := ih first fun f hf => hs f (List.mem_cons_of_mem _ hf)
    rw [List.append_assoc] at rest
    exact rest

/-- A message that is queued later changes nothing. -/
theorem more (h : Wire sent es k p) (m : Message) : Wire (sent ++ [m]) es k p := by
  have later {k p b m'} (o : Offer sent k p b m') : Offer (sent ++ [m]) k p b m' := by
    refine ⟨?_, o.bytes, o.nonempty⟩
    rw [List.getElem?_append_left o.lt_length]
    exact o.next
  induction h with
  | start => exact start
  | quiet _ hs ih => exact ih.quiet hs
  | refused fault _ offer ih => exact ih.refused fault (later offer)
  | part _ offer hn ih => exact ih.part (later offer) hn
  | whole _ offer hn ends ih => exact ih.whole (later offer) hn ends

/-- The wire carries the first `k` messages, then `p`. -/
theorem wire_eq (h : Wire sent es k p) : wire es = (sent.take k).flatMap Message.bytes ++ p := by
  induction h with
  | start => rfl
  | quiet _ hs ih =>
    simp only [wire, calls_append, calls_cons, calls_nil, List.append_nil, List.flatMap_append,
      Event.call?_of_isSilent hs]
    exact ih
  | refused fault _ offer ih => simpa [wire, Transport.Call.taken] using ih
  | part _ offer hn ih =>
    rw [wire_append, ih]
    simp [wire, Transport.Call.taken]
  | @whole es k p b m n _ offer hn ends ih =>
    rw [wire_append, ih, offer.take_succ]
    simp [wire, Transport.Call.taken, List.take_of_length_le hn, ← offer.bytes]

/-- The sends of the first `k` messages have ended well, then others have ended badly. -/
theorem ends_eq (h : Wire sent es k p) :
    ∃ others, completions es = (sent.take k).map (fun m => (m.tag, .ok)) ++ others ∧
      ∀ e ∈ others, e.2 ≠ .ok := by
  induction h with
  | start => exact ⟨[], by simp⟩
  | @quiet es k p e _ hs ih =>
    obtain ⟨others, ends, bad⟩ := ih
    refine ⟨others ++ e.completion?.toList, by simp [ends], ?_⟩
    intro c hc
    rcases List.mem_append.mp hc with before | last
    · exact bad c before
    · exact Event.completion?_of_isSilent hs c last
  | refused fault _ offer ih =>
    obtain ⟨others, ends, bad⟩ := ih
    exact ⟨others, by simp [ends], bad⟩
  | part _ offer hn ih =>
    obtain ⟨others, ends, bad⟩ := ih
    exact ⟨others, by simp [ends], bad⟩
  | @whole es k p b m n _ offer hn count ih =>
    obtain ⟨others, ends, bad⟩ := ih
    have hk := offer.lt_length
    -- Nothing has ended badly so far: the good ends make up the count.
    have allGood : others = [] := by
      rw [ends] at count
      simp only [List.length_append, List.length_map, List.length_take] at count
      exact List.eq_nil_of_length_eq_zero (by omega)
    exact ⟨[], by simp [ends, allGood, offer.take_succ], by simp⟩

theorem le_length (h : Wire sent es k p) : k ≤ sent.length := by
  induction h with
  | start => exact Nat.zero_le _
  | quiet _ _ ih => exact ih
  | refused _ _ _ ih => exact ih
  | part _ _ _ ih => exact ih
  | whole _ offer _ _ _ =>
    have hk := offer.lt_length
    omega

/-- What is taken of the next message is never all of it. -/
theorem strict (h : Wire sent es k p) (filled : ∀ m ∈ sent, m.bytes ≠ []) :
    (sent[k]? = none → p = []) ∧ ∀ m, sent[k]? = some m → ∃ b, Offer sent k p b m := by
  have fresh (k) : ∀ m, sent[k]? = some m → ∃ b, Offer sent k [] b m := by
    intro m hm
    exact ⟨m.bytes, hm, rfl, filled m (List.mem_of_getElem? hm)⟩
  induction h with
  | start => exact ⟨fun _ => rfl, fresh 0⟩
  | quiet _ _ ih => exact ih
  | refused _ _ _ ih => exact ih
  | @part es k p b m n _ offer hn _ =>
    refine ⟨fun beyond => by simp [offer.next] at beyond, ?_⟩
    intro m' hm
    have same : m = m' := Option.some.inj (offer.next.symm.trans hm)
    subst same
    -- What the write leaves is not empty, since it took less than was offered.
    refine ⟨b.drop n, hm, ?_, ?_⟩
    · rw [List.append_assoc, List.take_append_drop]
      exact offer.bytes
    · intro empty
      have := List.drop_eq_nil_iff.mp empty
      omega
  | whole _ _ _ _ _ => exact ⟨fun _ => rfl, fresh _⟩

end Wire

/-! ### Cutting a history -/

/-- Between the write that took the last byte of a message and the end of its send. -/
inductive Midway (sent : List Message) : List Event → List Event → Prop where
  | between {es k p b m n} (post : List Event) (before : Wire sent es k p)
      (offer : Offer sent k p b m) (hn : b.length ≤ n) :
      Midway sent (es ++ [called (.write b (.ok n))]) (.sendComplete m.tag .ok .opened :: post)

theorem Midway.append (h : Midway sent pre post) (fs : List Event) :
    Midway sent pre (post ++ fs) := by
  cases h with
  | between post before offer hn => exact .between (post ++ fs) before offer hn

/-- A cut of a history is a cut at its end or one before its last event. -/
theorem cut_snoc {e : Event} (h : es ++ [e] = pre ++ post) :
    (pre = es ++ [e] ∧ post = []) ∨ ∃ post', post = post' ++ [e] ∧ es = pre ++ post' := by
  rcases List.eq_nil_or_concat post with rfl | ⟨post', f, rfl⟩
  · left
    exact ⟨by simpa using h.symm, rfl⟩
  · right
    rw [List.concat_eq_append, ← List.append_assoc] at h
    obtain ⟨before, last⟩ := List.append_inj' h rfl
    rw [List.singleton_inj.mp last, List.concat_eq_append]
    exact ⟨post', rfl, before⟩

/-- Every point of a history of the grammar is one of the grammar, or the point between the last
    byte of a message and the end of its send. -/
theorem Wire.cut (h : Wire sent es k p) (he : es = pre ++ post) :
    (∃ k p, Wire sent pre k p) ∨ Midway sent pre post := by
  -- One event behind a history that can be cut.
  have snoc {es : List Event} {e : Event} {post : List Event} {k : Nat} {p : Bytes}
      (all : Wire sent (es ++ [e]) k p) (he : es ++ [e] = pre ++ post)
      (ih : ∀ {post}, es = pre ++ post → (∃ k p, Wire sent pre k p) ∨ Midway sent pre post) :
      (∃ k p, Wire sent pre k p) ∨ Midway sent pre post := by
    rcases cut_snoc he with ⟨rfl, -⟩ | ⟨post', rfl, before⟩
    · exact .inl ⟨k, p, all⟩
    · exact (ih before).imp_right fun midway => midway.append [e]
  induction h generalizing post with
  | start =>
    obtain ⟨rfl, -⟩ := List.append_eq_nil_iff.mp he.symm
    exact .inl ⟨0, [], .start⟩
  | quiet before hs ih => exact snoc (before.quiet hs) he ih
  | refused fault before offer ih => exact snoc (before.refused fault offer) he ih
  | part before offer hn ih => exact snoc (before.part offer hn) he ih
  | @whole es k p b m n before offer hn ends ih =>
    have all := before.whole offer hn ends
    rw [List.append_cons] at all he
    rcases cut_snoc he with ⟨rfl, -⟩ | ⟨post', rfl, inner⟩
    · exact .inl ⟨_, _, all⟩
    · -- The one point inside is that between the write and the end of the send.
      rcases cut_snoc inner with ⟨rfl, rfl⟩ | ⟨post'', rfl, early⟩
      · exact .inr (.between [] before offer hn)
      · have midway := (ih early).imp_right fun midway => midway.append
          [called (.write b (.ok n)), .sendComplete m.tag .ok .opened]
        simpa using midway

theorem append_write_inj {b b' : Bytes} {a a' : Count}
    (h : es ++ [called (.write b a)] = fs ++ [called (.write b' a')]) :
    es = fs ∧ b = b' ∧ a = a' := by
  obtain ⟨before, last⟩ := List.append_inj' h rfl
  simp only [List.cons.injEq, Event.transport.injEq, Transport.Event.called.injEq,
    Transport.Call.write.injEq, and_true] at last
  exact ⟨before, last⟩

/-- What stands before a write at the end, if it did not take the last byte. -/
theorem Wire.of_write {b : Bytes} {a : Count}
    (h : Wire sent (es ++ [called (.write b a)]) k p) :
    ∃ k p m, Wire sent es k p ∧ Offer sent k p b m ∧ ∀ n, a = .ok n → n < b.length := by
  generalize he : es ++ [called (.write b a)] = fs at h
  cases h with
  | start => simp at he
  | quiet before hs =>
    obtain ⟨-, last⟩ := List.append_inj' he rfl
    rw [← List.singleton_inj.mp last] at hs
    simp [Event.isSilent] at hs
  | refused fault before offer =>
    obtain ⟨rfl, rfl, rfl⟩ := append_write_inj he
    exact ⟨_, _, _, before, offer, by simp⟩
  | part before offer hn =>
    obtain ⟨rfl, rfl, rfl⟩ := append_write_inj he
    refine ⟨_, _, _, before, offer, ?_⟩
    intro n same
    rwa [← Except.ok.inj same]
  | @whole es' k p b' m n before offer hn ends =>
    rw [List.append_cons es' (called _)] at he
    obtain ⟨-, last⟩ := List.append_inj' he rfl
    simp at last

/-- What stands before the good end of a send. -/
theorem Wire.of_sendComplete {tag : Tag} {phase : Phase}
    (h : Wire sent (es ++ [.sendComplete tag .ok phase]) k p) :
    ∃ es' k p b m n, es = es' ++ [called (.write b (.ok n))] ∧ Wire sent es' k p ∧
      Offer sent k p b m ∧ b.length ≤ n ∧ m.tag = tag := by
  generalize he : es ++ [Event.sendComplete tag .ok phase] = fs at h
  cases h with
  | start => simp at he
  | quiet before hs =>
    obtain ⟨-, last⟩ := List.append_inj' he rfl
    rw [← List.singleton_inj.mp last] at hs
    simp [Event.isSilent] at hs
  | refused fault before offer =>
    obtain ⟨-, last⟩ := List.append_inj' he rfl
    simp at last
  | part before offer hn =>
    obtain ⟨-, last⟩ := List.append_inj' he rfl
    simp at last
  | @whole es' k p b m n before offer hn ends =>
    rw [List.append_cons es' (called _)] at he
    obtain ⟨rfl, last⟩ := List.append_inj' he rfl
    obtain ⟨tag, -⟩ : tag = m.tag ∧ phase = .opened := by simpa using last
    exact ⟨es', k, p, b, m, n, rfl, before, offer, hn, tag.symm⟩

/-- **Writes**: each offers the rest of the next message, and the end of the send follows the one
    that takes all of it. -/
theorem Wire.at_write {b : Bytes} {a : Count} (h : Wire sent es k p)
    (he : es = pre ++ called (.write b a) :: post) :
    ∃ k p m, Wire sent pre k p ∧ Offer sent k p b m ∧
      ∀ n, a = .ok n → b.length ≤ n → ∃ more, post = .sendComplete m.tag .ok .opened :: more := by
  have split : es = (pre ++ [called (.write b a)]) ++ post := by simp [he]
  rcases h.cut split with ⟨k, p, upTo⟩ | midway
  · obtain ⟨k, p, m, before, offer, less⟩ := upTo.of_write
    refine ⟨k, p, m, before, offer, ?_⟩
    intro n same enough
    have := less n same
    omega
  · generalize hw : pre ++ [called (.write b a)] = upTo at midway
    cases midway with
    | between more before offer hn =>
      obtain ⟨rfl, rfl, rfl⟩ := append_write_inj hw
      exact ⟨_, _, _, before, offer, fun _ _ _ => ⟨more, rfl⟩⟩

/-- **Good ends**: each directly follows the write that took the last byte. -/
theorem Wire.at_end {tag : Tag} {phase : Phase} (h : Wire sent es k p)
    (he : es = pre ++ .sendComplete tag .ok phase :: post) :
    ∃ before k p b m n, pre = before ++ [called (.write b (.ok n))] ∧ Wire sent before k p ∧
      Offer sent k p b m ∧ b.length ≤ n ∧ m.tag = tag := by
  have split : es = (pre ++ [.sendComplete tag .ok phase]) ++ post := by simp [he]
  rcases h.cut split with ⟨k, p, upTo⟩ | midway
  · obtain ⟨before, k, p, b, m, n, rfl, wire, offer, enough, same⟩ := upTo.of_sendComplete
    exact ⟨before, k, p, b, m, n, rfl, wire, offer, enough, same⟩
  · generalize hw : pre ++ [Event.sendComplete tag .ok phase] = upTo at midway
    cases midway with
    | between _ _ _ _ =>
      obtain ⟨-, last⟩ := List.append_inj' hw rfl
      simp at last

/-! ### The invariant -/

/-- Whether a connection can still come to send, or already does. -/
def isRising : Phase → Bool
  | .initial | .opening | .opened => true
  | .failed | .closing | .closed => false

/-- Messages of which the first one has lost `n` bytes. -/
def begun (n : Nat) : List Message → List Message
  | [] => []
  | m :: ms => m.accept n :: ms

theorem begun_zero (ms : List Message) : begun 0 ms = ms := by
  cases ms <;> simp [begun]

/-- What waits is what the wire does not carry yet. -/
structure Course (gs : List Grant) (es : List Event) (c : Connection σ) : Prop where
  /-- Messages are queued whole, and none is empty. -/
  fresh : ∀ m ∈ queued gs, m = .new m.bytes m.tag ∧ m.bytes ≠ []
  /-- The history keeps to the grammar; while nothing has failed, the outbox is the rest. -/
  wire : ∃ k p, Wire (queued gs) es k p ∧ (isRising c.phase = true →
    (completions es).length = k ∧ c.outbox.messages = begun p.length ((queued gs).drop k))

namespace Course

variable {gs hs : List Grant} {c d : Connection σ}

theorem first (t : σ) : Course [] [] (ofTransport t) where
  fresh := by simp
  wire := ⟨0, [], .start, fun _ => ⟨rfl, rfl⟩⟩

/-- A move that is silent, and either leaves the outbox alone or is the last that matters. -/
theorem frame (h : Course gs es c) (grant : queued hs = []) (silent : ∀ e ∈ fs, e.isSilent = true)
    (rest : isRising d.phase = true →
      isRising c.phase = true ∧ d.outbox = c.outbox ∧ completions fs = []) :
    Course (gs ++ hs) (es ++ fs) d where
  fresh := by simpa [grant] using h.fresh
  wire := by
    obtain ⟨k, p, wire, early⟩ := h.wire
    refine ⟨k, p, by simpa [grant] using wire.quiets silent, ?_⟩
    intro rising
    obtain ⟨was, outbox, noEnd⟩ := rest rising
    simpa [grant, outbox, noEnd] using early was

/-- The head of the outbox is the next message, and its rest is what the wire does not carry. -/
theorem head (h : Course gs es c) (hp : c.phase = .opened) {head : Message}
    {tail : List Message} (hm : c.outbox.messages = head :: tail) :
    ∃ k p m, Wire (queued gs) es k p ∧ (completions es).length = k ∧
      (queued gs).drop k = m :: tail ∧ head = m.accept p.length ∧
      Offer (queued gs) k p head.rest m ∧ head.unsent = head.rest.length := by
  obtain ⟨k, p, wire, early⟩ := h.wire
  obtain ⟨count, outbox⟩ := early (by rw [hp]; rfl)
  rw [hm] at outbox
  cases drop : (queued gs).drop k with
  | nil => simp [drop, begun] at outbox
  | cons m rest =>
    simp only [drop, begun, List.cons.injEq] at outbox
    obtain ⟨rfl, rfl⟩ := outbox
    have next : (queued gs)[k]? = some m := by
      rw [← List.head?_drop, drop]
      rfl
    obtain ⟨b, offer⟩ := (wire.strict fun m hm => (h.fresh m hm).2).2 m next
    have fresh := (h.fresh m (List.mem_of_getElem? next)).1
    -- What the message offers is what `p` leaves of it.
    have left : (m.accept p.length).rest = b := by
      rw [fresh, Message.rest_accept_new, ← offer.bytes]
      exact List.drop_left
    have unsent : (m.accept p.length).unsent = b.length := by
      rw [fresh, Message.unsent_accept_new, ← offer.bytes, List.length_append]
      omega
    rw [left, unsent]
    exact ⟨k, p, m, wire, count, drop, rfl, offer, rfl⟩

/-- A message is queued. -/
theorem queue (h : Course gs es c) (hp : c.phase = .opened) (tag : Tag) {bytes : Bytes}
    (nonempty : bytes ≠ []) :
    Course (gs ++ [.sending (.new bytes tag)]) (es ++ [])
      { c with outbox := c.outbox.push (.new bytes tag) } where
  fresh := by
    intro m hm
    simp only [queued_append, queued_sending, List.mem_append, List.mem_singleton] at hm
    rcases hm with old | rfl
    · exact h.fresh m old
    · exact ⟨rfl, nonempty⟩
  wire := by
    obtain ⟨k, p, wire, early⟩ := h.wire
    obtain ⟨count, outbox⟩ := early (by rw [hp]; rfl)
    refine ⟨k, p, by simpa using wire.more (.new bytes tag), ?_⟩
    intro _
    refine ⟨by simpa using count, ?_⟩
    have le := wire.le_length
    have beyond := (wire.strict fun m hm => (h.fresh m hm).2).1
    simp only [queued_append, queued_sending, Outbox.messages_push, outbox,
      List.drop_append_of_le_length le]
    cases drop : (queued gs).drop k with
    | nil =>
      -- Nothing waits, so nothing of the new message can have been taken.
      have untouched : p = [] := beyond (by rw [← List.head?_drop, drop]; rfl)
      simp [begun, untouched]
    | cons m ms => simp [begun]

/-- **Step**: every move keeps to the grammar. -/
theorem step {T : Transport σ} (h : Course gs es c) (move : Move T c hs fs d) :
    Course (gs ++ hs) (es ++ fs) d := by
  cases move with
  -- Moves without a write either leave the outbox alone or come too late to matter.
  | refuse note _ => exact h.frame rfl (by simp [Event.isSilent]) (by simp)
  | offer _ => exact h.frame rfl (isSilent_inside _) (by simp)
  | beginOpen tag hp =>
    exact h.frame rfl (by simp [Event.isSilent]) (by simp [isRising, hp])
  | openWaits hp _ _ => exact h.frame rfl (isSilent_call _ rfl (by simp)) (by simp)
  | openDone hp _ _ =>
    exact h.frame rfl (isSilent_call _ rfl (by simp [Event.isSilent])) (by simp [isRising, hp])
  | openFails hp _ _ =>
    exact h.frame rfl (isSilent_call _ rfl (by simp [Event.isSilent])) (by simp [isRising])
  | read hp _ _ => exact h.frame rfl (isSilent_call _ rfl (by simp)) (by simp)
  | readFails hp _ =>
    exact h.frame rfl (isSilent_call _ rfl (by simp [Event.isSilent])) (by simp [isRising])
  -- Moves that change the outbox.
  | queue tag bytes hp hs =>
    refine h.queue hp tag ?_
    rintro rfl
    simp [isSendable] at hs
  | @writeStays head tail n s effects hp hm _ hn =>
    -- The write takes less than what is left: the prefix on the wire grows by that.
    obtain ⟨k, p, m, wire, count, drop, rfl, offer, unsent⟩ := h.head hp hm
    have less : n < (m.accept p.length).rest.length := by
      have positive := List.length_pos_iff.mpr offer.nonempty
      rw [Message.unsent_accept] at hn
      omega
    have taken : (p ++ (m.accept p.length).rest.take n).length = p.length + n := by
      rw [List.length_append, List.length_take]
      omega
    have all := (wire.quiets (isSilent_inside effects)).part offer less
    refine ⟨by simpa using h.fresh, k, _, by simpa using all, ?_⟩
    intro _
    refine ⟨by simpa using count, ?_⟩
    rw [List.append_nil, drop]
    simp only [begun, taken, Message.accept_accept]
  | @writeEnds head tail n s effects hp hm _ hn hu =>
    -- The write takes all that is left: one more message is on the wire, and nothing of the next.
    obtain ⟨k, p, m, wire, count, drop, rfl, offer, unsent⟩ := h.head hp hm
    have enough : (m.accept p.length).rest.length ≤ n := by
      rw [Message.unsent_accept] at hu
      omega
    have all := (wire.quiets (isSilent_inside effects)).whole offer enough (by simpa using count)
    refine ⟨by simpa using h.fresh, k + 1, [], by simpa using all, ?_⟩
    intro _
    refine ⟨by simpa using count, ?_⟩
    have rest : (queued gs).drop (k + 1) = tail := by
      rw [← List.tail_drop, drop]
      rfl
    rw [List.append_nil, rest, List.length_nil, begun_zero]
  | @writeFails head tail fault s effects hp hm _ =>
    obtain ⟨k, p, m, wire, count, drop, rfl, offer, unsent⟩ := h.head hp hm
    have all := (wire.quiets (isSilent_inside effects)).refused fault offer
    have reports : ∀ e ∈ Event.note (.writeFailed fault) :: .note (.phaseChanged .opened .failed) ::
        (c.client.toList.map (fun tag => .ioError tag .failed) ++
          [.sendComplete (m.accept p.length).tag .failed .failed]), e.isSilent = true := by
      simp [Event.isSilent, or_imp, forall_and]
    refine ⟨by simpa using h.fresh, k, p, by simpa using all.quiets reports, ?_⟩
    intro rising
    simp [isRising] at rising
  -- From here on nothing is written any more.
  | beginClose tag _ =>
    exact h.frame rfl (by simp [Event.isSilent]) (by simp [isRising])
  | breakOpen tag _ =>
    exact h.frame rfl (by simp [Event.isSilent]) (by simp [isRising])
  | dropOpen _ =>
    exact h.frame rfl (by simp [Event.isSilent]) (by simp [isRising])
  | closeWaits _ _ => exact h.frame rfl (isSilent_call _ rfl (by simp)) (by simp)
  | closeEnds _ _ _ =>
    exact h.frame rfl (isSilent_call _ rfl (isSilent_farewell _ _)) (by simp [isRising, ended])
  | destroy _ _ =>
    exact h.frame rfl (isSilent_call _ rfl (isSilent_farewell _ _)) (by simp [isRising, ended])

end Course

/-! ### The theorem -/

/-- A point of a history at which the first `k` messages have ended well: `pre` has happened,
    `post` is to come. -/
structure Carried (sent : List Message) (k : Nat) (pre post : List Event) : Prop where
  enough : k ≤ sent.length
  /-- The first `k` messages have ended well, and then others badly. -/
  ends : ∃ others, completions pre = (sent.take k).map (fun m => (m.tag, .ok)) ++ others ∧
    ∀ e ∈ others, e.2 ≠ .ok
  /-- All of them have ended in the order of acceptance. -/
  inOrder : (completions pre).map Prod.fst <+: sent.map Message.tag
  /-- The wire carries the first `k` messages, then a prefix of the next one. It is a strict one
      unless the next event is the end of that send. -/
  wire : ∃ p, wire pre = (sent.take k).flatMap Message.bytes ++ p ∧ (sent[k]? = none → p = []) ∧
    ∀ m, sent[k]? = some m →
      p <+: m.bytes ∧ (p = m.bytes → ∃ more, post = .sendComplete m.tag .ok .opened :: more)

theorem Wire.carried (h : Wire sent pre k p) (filled : ∀ m ∈ sent, m.bytes ≠ [])
    (inOrder : (completions pre).map Prod.fst <+: sent.map Message.tag) (post : List Event) :
    Carried sent k pre post where
  enough := h.le_length
  ends := h.ends_eq
  inOrder := inOrder
  wire := by
    obtain ⟨beyond, next⟩ := h.strict filled
    refine ⟨p, h.wire_eq, beyond, ?_⟩
    intro m hm
    obtain ⟨b, offer⟩ := next m hm
    refine ⟨⟨b, offer.bytes⟩, ?_⟩
    intro all
    have bytes := offer.bytes
    rw [all] at bytes
    exact absurd (List.append_right_eq_self.mp bytes) offer.nonempty

theorem Midway.carried (h : Midway sent pre post)
    (inOrder : (completions pre).map Prod.fst <+: sent.map Message.tag) :
    ∃ k, Carried sent k pre post := by
  cases h with
  | @between es k p b m n post before offer hn =>
    refine ⟨k, before.le_length, by simpa using before.ends_eq, inOrder, m.bytes, ?_, ?_, ?_⟩
    · rw [wire_append, before.wire_eq, ← offer.bytes]
      simp [wire, Transport.Call.taken, List.take_of_length_le hn]
    · intro beyond
      simp [offer.next] at beyond
    · intro m' hm
      have same : m = m' := Option.some.inj (offer.next.symm.trans hm)
      subst same
      exact ⟨List.prefix_rfl, fun _ => ⟨post, rfl⟩⟩

/-- **Integrity of the stream.** In every life over every transport, at every point of its history,
    the wire carries the messages that have ended well, one behind the other, and a strict prefix
    of the next one that was accepted. Every write offers exactly the rest of that one, which is
    never empty. A send ends well directly behind the write that took the last byte, and every such
    write is directly followed by it. What waits in the end are the messages that have not ended. -/
theorem stream_integrity (T : Transport σ) (t : σ) (rs : List Request) (destroyed : Bool) :
    let o := (live T rs destroyed).run (ofTransport t)
    let sent := accepted rs o.answer
    (∀ pre post, o.events = pre ++ post → ∃ k, Carried sent k pre post) ∧
    (∀ pre b a post, o.events = pre ++ called (.write b a) :: post →
      ∃ k m, Carried sent k pre (called (.write b a) :: post) ∧ sent[k]? = some m ∧ b ≠ [] ∧
        wire pre ++ b = (sent.take (k + 1)).flatMap Message.bytes ∧
        ∀ n, a = .ok n → b.length ≤ n → ∃ more, post = .sendComplete m.tag .ok .opened :: more) ∧
    (∀ pre tag phase post, o.events = pre ++ .sendComplete tag .ok phase :: post →
      ∃ before b n, pre = before ++ [called (.write b (.ok n))] ∧ b.length ≤ n) ∧
    o.state.outbox.messages.map Message.entry =
      (sent.drop (completions o.events).length).map Message.entry := by
  intro o sent
  have moves := live_moves T t rs destroyed
  have ledger : Ledger (lifeGrants T t rs destroyed) o.events o.state :=
    moves.invariant Ledger.step (Ledger.first t)
  have course : Course (lifeGrants T t rs destroyed) o.events o.state :=
    moves.invariant Course.step (Course.first t)
  obtain ⟨k, p, wire, -⟩ := course.wire
  have balance := ledger.balance
  have filled := fun m hm => (course.fresh m hm).2
  rw [queued_lifeGrants] at wire balance filled
  -- What has ended at a point has ended at the end of the history too.
  have inOrder {pre post : List Event} (he : o.events = pre ++ post) :
      (completions pre).map Prod.fst <+: sent.map Message.tag := by
    have tags := balance.tags
    rw [show completions o.events = completions pre ++ completions post by
      rw [he, completions_append], List.map_append, List.append_assoc] at tags
    exact ⟨_, tags.symm⟩
  refine ⟨?_, ?_, ?_, balance.entries⟩
  · intro pre post he
    rcases wire.cut he with ⟨k, p, upTo⟩ | midway
    · exact ⟨k, upTo.carried filled (inOrder he) post⟩
    · exact midway.carried (inOrder he)
  · intro pre b a post he
    obtain ⟨k, p, m, before, offer, last⟩ := wire.at_write he
    refine ⟨k, m, before.carried filled (inOrder he) _, offer.next, offer.nonempty, ?_, last⟩
    rw [before.wire_eq, offer.take_succ, List.append_assoc, offer.bytes]
    simp
  · intro pre tag phase post he
    obtain ⟨before, k, p, b, m, n, rfl, -, -, enough, -⟩ := wire.at_end he
    exact ⟨before, b, n, rfl, enough⟩

end Connection

end PolledConnection
