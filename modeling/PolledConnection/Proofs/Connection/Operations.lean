import PolledConnection.Proofs.Connection.Move
import PolledConnection.Proofs.Outbox

/-! # Operations as moves

  Every operation of a connection is a sequence of moves, from any connection
  whatever: a request grants what its answer says (`serve_moves`), and a whole
  life grants the messages that were accepted in it (`live_moves`). No proof
  behind this module looks into an operation again.
-/

namespace PolledConnection.Connection

variable {σ α β : Type} {T : Transport σ} {c : Connection σ} {gs hs : List Grant}

/-- An act is a sequence of moves that grants `gs`. -/
def MovesOf (T : Transport σ) (c : Connection σ) (gs : List Grant) (m : Step σ α) : Prop :=
  Moves T c gs (m.run c).events (m.run c).state

/-! ### Sequencing -/

theorem MovesOf.pure (a : α) : MovesOf T c [] (Pure.pure a : Step σ α) := Moves.refl

theorem MovesOf.bind {m : Step σ α} {f : α → Step σ β} (hm : MovesOf T c gs m)
    (hf : MovesOf T (m.run c).state hs (f (m.run c).answer)) :
    MovesOf T c (gs ++ hs) (m >>= f) :=
  Moves.trans hm hf

theorem MovesOf.map {m : Step σ α} (f : α → β) (hm : MovesOf T c gs m) :
    MovesOf T c gs (f <$> m) := by
  simpa [MovesOf] using hm

/-- An act that turns out to be one move. -/
theorem MovesOf.move {m : Step σ α} {es : List Event} {d : Connection σ} (h : Move T c gs es d)
    (events : (m.run c).events = es) (state : (m.run c).state = d) : MovesOf T c gs m := by
  subst events state
  exact .single h

/-! ### Pieces -/

theorem run_setPhase {phase : Phase} (h : c.phase ≠ phase) :
    (setPhase phase).run c =
      ⟨(), { c with phase := phase }, [.note (.phaseChanged c.phase phase)]⟩ := by
  simp [setPhase, h]

theorem run_setPhase_self {phase : Phase} (h : c.phase = phase) :
    (setPhase phase).run c = ⟨(), c, []⟩ := by
  simp [setPhase, h]

theorem run_finishOpen (verdict : Verdict) :
    (finishOpen verdict).run c =
      ⟨(), { c with awaitingOpen := none },
        c.awaitingOpen.toList.map fun tag => .openComplete tag verdict c.phase⟩ := by
  cases h : c.awaitingOpen with
  | none => cases c; simp_all [finishOpen]
  | some tag => simp [finishOpen, h]

theorem run_fail (h : c.phase ≠ .failed) :
    (fail : Step σ Unit).run c =
      ⟨(), { c with phase := .failed },
        .note (.phaseChanged c.phase .failed) ::
          c.client.toList.map fun tag => .ioError tag .failed⟩ := by
  cases hc : c.client <;> simp [fail, h, run_setPhase h, hc]

theorem run_finishClose (h : c.phase ≠ .closed) (a : Progress) :
    (finishClose a : Step σ Unit).run c = ⟨(), ended c.transport, farewell c a⟩ := by
  have run := run_setPhase h
  cases hc : c.awaitingClose <;> by_cases ha : a = .failed <;>
    simp [finishClose, finishSends, run, ha, hc, farewell, ended]

/-- A call of the transport, from what the transport does. -/
theorem run_call {m : Act Effect σ α} {a : α} {s : σ} {effects : List Effect}
    (call : α → Transport.Call) (h : m.run c.transport = ⟨a, s, effects⟩) :
    (withTransport (Transport.recorded m call)).run c =
      ⟨a, { c with transport := s }, inside effects ++ [called (call a)]⟩ := by
  simp [withTransport, Transport.recorded, inside, h]

/-- An offer of bytes, from what the transport does. -/
theorem run_offer {bytes : Bytes} {a : Count} {s : σ} {effects : List Effect}
    (h : (T.write bytes).run c.transport = ⟨a, s, effects⟩) :
    (withTransport (T.offer bytes)).run c =
      ⟨a, { c with transport := s }, inside effects ++ [called (.write bytes a)]⟩ :=
  run_call (.write bytes) h

/-- A call that is not recorded, from what the transport does. -/
theorem run_unrecorded {m : Act Effect σ α} {a : α} {s : σ} {effects : List Effect}
    (h : m.run c.transport = ⟨a, s, effects⟩) :
    (withTransport (Transport.unrecorded m)).run c =
      ⟨a, { c with transport := s }, inside effects⟩ := by
  simp [withTransport, Transport.unrecorded, inside, h]

/-! ### One poll of each phase -/

theorem pollOpen_moves (hp : c.phase = .opening) : MovesOf T c [] (pollOpen T) := by
  cases hc : c.client with
  | none =>
    have run : (pollOpen T).run c = ⟨(), c, []⟩ := by simp [pollOpen, hc]
    rw [MovesOf, run]
    exact .refl
  | some tag =>
    rcases h : (T.establish ⟨tag⟩).run c.transport with ⟨a, s, effects⟩
    have call := run_call .establish h
    cases a with
    | waiting =>
      apply MovesOf.move (.openWaits hp hc h)
      · simp [pollOpen, hc, call]
      · simp [pollOpen, hc, call]
    | done =>
      apply MovesOf.move (.openDone hp hc h)
      · simp [pollOpen, hc, call, run_setPhase, run_finishOpen, hp]
      · simp [pollOpen, hc, call, run_setPhase, run_finishOpen, hp]
    | failed =>
      apply MovesOf.move (.openFails hp hc h)
      · simp [pollOpen, hc, call, run_setPhase, run_finishOpen, hp]
      · simp [pollOpen, hc, call, run_setPhase, run_finishOpen, hp]

/-- A read is the last one if it does not answer `done`, or the limit is reached. -/
theorem run_readAll_last {limit : Nat} {a : Progress} {s : σ} {effects : List Effect}
    (h : T.read.run c.transport = ⟨a, s, effects⟩) (last : a ≠ .done ∨ limit = 0) :
    (readAll T limit).run c =
      ⟨a, { c with transport := s }, inside effects ++ [called (.read a)]⟩ := by
  have call := run_call (c := c) .read h
  cases limit with
  | zero => exact call
  | succ limit =>
    cases a with
    | done => simp at last
    | waiting | failed => simp [readAll, call]

/-- Otherwise the others follow, from the connection behind it. -/
theorem run_readAll_more {s : σ} {effects : List Effect}
    (h : T.read.run c.transport = ⟨.done, s, effects⟩) (limit : Nat) :
    (readAll T (limit + 1)).run c =
      let rest := (readAll T limit).run { c with transport := s }
      ⟨rest.answer, rest.state, inside effects ++ [called (.read .done)] ++ rest.events⟩ := by
  have call := run_call (c := c) .read h
  simp [readAll, call]

/-- Reading goes on without a failure, or up to a read that fails. -/
theorem readAll_cases (hp : c.phase = .opened) (limit : Nat) :
    ∃ u es, Moves T c [] es { c with transport := u } ∧
      ((∃ a, a ≠ .failed ∧ (readAll T limit).run c = ⟨a, { c with transport := u }, es⟩) ∨
        ∃ s effects, T.read.run u = ⟨.failed, s, effects⟩ ∧
          (readAll T limit).run c =
            ⟨.failed, { c with transport := s },
              es ++ (inside effects ++ [called (.read .failed)])⟩) := by
  induction limit generalizing c with
  | zero =>
    rcases h : T.read.run c.transport with ⟨a, s, effects⟩
    have run := run_readAll_last h (.inr rfl)
    by_cases ha : a = .failed
    · subst ha
      exact ⟨c.transport, [], .refl, .inr ⟨s, effects, h, run⟩⟩
    · exact ⟨s, _, .single (.read hp ha h), .inl ⟨a, ha, run⟩⟩
  | succ limit ih =>
    rcases h : T.read.run c.transport with ⟨a, s, effects⟩
    cases a with
    | done =>
      have first := Moves.single (Move.read (T := T) hp (by simp) h)
      obtain ⟨u, es, rest, out⟩ := ih (c := { c with transport := s }) hp
      refine ⟨u, _, first.trans rest, ?_⟩
      rw [run_readAll_more h]
      rcases out with ⟨a, ha, run⟩ | ⟨s', effects', fails, run⟩
      · exact .inl ⟨a, ha, by simp [run]⟩
      · exact .inr ⟨s', effects', fails, by simp [run]⟩
    | waiting =>
      exact ⟨s, _, .single (.read hp (by simp) h),
        .inl ⟨.waiting, by simp, run_readAll_last h (.inl (by simp))⟩⟩
    | failed =>
      exact ⟨c.transport, [], .refl,
        .inr ⟨s, effects, h, run_readAll_last h (.inl (by simp))⟩⟩

theorem pollRead_moves (hp : c.phase = .opened) : MovesOf T c [] (pollRead T) := by
  obtain ⟨u, es, reads, ⟨a, ha, run⟩ | ⟨s, effects, fails, run⟩⟩ :=
    readAll_cases (T := T) hp (T.backlog c.transport)
  · simpa [MovesOf, pollRead, run, ha] using reads
  · have last := Move.readFails (T := T) (c := { c with transport := u }) hp fails
    have all := reads.snoc last
    simpa [MovesOf, pollRead, run, run_fail, hp] using all

section
variable {head : Message} {tail : List Message} {n : Nat} {s : σ} {effects : List Effect}

/-- Nothing is offered when nothing waits. -/
theorem run_pollSend_empty (hm : c.outbox.messages = []) : (pollSend T).run c = ⟨(), c, []⟩ := by
  simp [pollSend, Outbox.offer?, hm]

/-- Less than the rest was taken, or nothing. -/
theorem run_pollSend_stays (hm : c.outbox.messages = head :: tail)
    (h : (T.write head.rest).run c.transport = ⟨.ok n, s, effects⟩)
    (hn : n = 0 ∨ (head.accept n).unsent ≠ 0) :
    (pollSend T).run c =
      ⟨(), { c with transport := s, outbox := ⟨head.accept n :: tail⟩ },
        inside effects ++ [called (.write head.rest (.ok n))]⟩ := by
  have offer : c.outbox.offer? = some head.rest := by simp [Outbox.offer?, hm]
  have call := run_offer (c := c) h
  obtain ⟨drain, unended, settled⟩ := c.outbox.settle_stays hm hn
  rcases unended with rfl | rfl <;> simp [pollSend, offer, call, settled]

/-- The rest was taken. -/
theorem run_pollSend_ends (hp : c.phase = .opened) (hm : c.outbox.messages = head :: tail)
    (h : (T.write head.rest).run c.transport = ⟨.ok n, s, effects⟩) (hn : n ≠ 0)
    (hu : (head.accept n).unsent = 0) :
    (pollSend T).run c =
      ⟨(), { c with transport := s, outbox := ⟨tail⟩ },
        inside effects ++ [called (.write head.rest (.ok n)), .sendComplete head.tag .ok .opened]⟩ := by
  have offer : c.outbox.offer? = some head.rest := by simp [Outbox.offer?, hm]
  have call := run_offer (c := c) h
  have settled := c.outbox.settle_ends hm hn hu
  simp [pollSend, offer, call, settled, hp]

/-- The write failed. -/
theorem run_pollSend_fails (hp : c.phase = .opened) (hm : c.outbox.messages = head :: tail)
    {fault : Fault} (h : (T.write head.rest).run c.transport = ⟨.error fault, s, effects⟩) :
    (pollSend T).run c =
      ⟨(), { c with transport := s, outbox := ⟨tail⟩, phase := .failed },
        inside effects ++ called (.write head.rest (.error fault)) :: .note (.writeFailed fault) ::
          .note (.phaseChanged .opened .failed) ::
          (c.client.toList.map (fun tag => .ioError tag .failed) ++
            [.sendComplete head.tag .failed .failed])⟩ := by
  have offer : c.outbox.offer? = some head.rest := by simp [Outbox.offer?, hm]
  have call := run_offer (c := c) h
  have settled := c.outbox.settle_error hm fault
  simp [pollSend, offer, call, settled, run_fail, hp]

end

theorem pollSend_moves (hp : c.phase = .opened) : MovesOf T c [] (pollSend T) := by
  cases hm : c.outbox.messages with
  | nil =>
    rw [MovesOf, run_pollSend_empty hm]
    exact .refl
  | cons head tail =>
    rcases h : (T.write head.rest).run c.transport with ⟨a, s, effects⟩
    cases a with
    | error fault =>
      rw [MovesOf, run_pollSend_fails hp hm h]
      exact .single (.writeFails hp hm h)
    | ok n =>
      by_cases hn : n = 0 ∨ (head.accept n).unsent ≠ 0
      · rw [MovesOf, run_pollSend_stays hm h hn]
        exact .single (.writeStays hp hm h hn)
      · obtain ⟨hn, hu⟩ := not_or.mp hn
        have hu : (head.accept n).unsent = 0 := Decidable.not_not.mp hu
        rw [MovesOf, run_pollSend_ends hp hm h hn hu]
        exact .single (.writeEnds hp hm h hn hu)

theorem pollClose_moves (hp : c.phase = .closing) : MovesOf T c [] (pollClose T false) := by
  rcases h : T.close.run c.transport with ⟨a, s, effects⟩
  have call := run_call (c := c) .close h
  by_cases ha : a = .waiting
  · subst ha
    apply MovesOf.move (.closeWaits hp h)
    · simp [pollClose, call]
    · simp [pollClose, call]
  · apply MovesOf.move (.closeEnds hp ha h)
    · simp [pollClose, call, ha, run_finishClose, hp, farewell]
    · simp [pollClose, call, ha, run_finishClose, hp]

/-- A close by force ends at once. -/
theorem pollClose_force_moves
    (hp : c.phase = .opened ∨ c.phase = .failed ∨ c.phase = .closing) :
    MovesOf T c [.ending] (pollClose T true) := by
  rcases h : T.close.run c.transport with ⟨a, s, effects⟩
  have call := run_call (c := c) .close h
  have notClosed : c.phase ≠ .closed := by rcases hp with hp | hp | hp <;> simp [hp]
  apply MovesOf.move (.destroy hp h)
  · simp [pollClose, call, run_finishClose, notClosed, farewell]
  · simp [pollClose, call, run_finishClose, notClosed]

/-! ### Polls of an open connection -/

section
variable {a : Progress} {u : σ} {es : List Event}

/-- A poll whose reads come to an end goes on with an attempt to send. -/
theorem run_poll_reads (hp : c.phase = .opened)
    (reads : (readAll T (T.backlog c.transport)).run c = ⟨a, { c with transport := u }, es⟩)
    (ha : a ≠ .failed) :
    (poll T).run c =
      let sent := (pollSend T).run { c with transport := u }
      ⟨(), sent.state, es ++ sent.events⟩ := by
  simp [poll, hp, pollRead, reads, ha]

/-- A poll whose last read fails does nothing more. -/
theorem run_poll_fails (hp : c.phase = .opened)
    (reads : (readAll T (T.backlog c.transport)).run c =
      ⟨.failed, { c with transport := u }, es⟩) :
    (poll T).run c =
      ⟨(), { c with transport := u, phase := .failed },
        es ++ .note .readFailed :: .note (.phaseChanged .opened .failed) ::
          c.client.toList.map fun tag => .ioError tag .failed⟩ := by
  simp [poll, hp, pollRead, reads, run_fail]

end

/-! ### Operations -/

theorem poll_moves (T : Transport σ) (c : Connection σ) : MovesOf T c [] (poll T) := by
  cases hp : c.phase with
  | initial | closed | failed =>
    rw [MovesOf, run_poll_of_isIdle T c (by simp [isIdle, hp])]
    exact .refl
  | opening => simpa [MovesOf, poll, hp] using pollOpen_moves hp
  | closing => simpa [MovesOf, poll, hp] using pollClose_moves hp
  | opened =>
    have reads := pollRead_moves (T := T) hp
    by_cases after : ((pollRead T).run c).state.phase = .opened
    · simpa [MovesOf, poll, hp, after] using reads.bind (f := fun _ => pollSend T) (pollSend_moves after)
    · simpa [MovesOf, poll, hp, after] using reads

theorem pollTimes_moves (T : Transport σ) (n : Nat) (c : Connection σ) :
    MovesOf T c [] (pollTimes T n) := by
  induction n generalizing c with
  | zero => exact .pure ()
  | succ n ih =>
    rw [pollTimes_succ]
    exact (poll_moves T c).bind (ih _)

theorem beginOpen_moves (T : Transport σ) (c : Connection σ) (tag : Tag) :
    MovesOf T c (granted T c (.beginOpen tag) (.accepted ((beginOpen tag).run c).answer))
      (beginOpen tag) := by
  by_cases hp : c.phase = .initial
  · have run : ((beginOpen tag).run c).answer = .ok () := by simp [beginOpen, hp]
    rw [run]
    apply MovesOf.move (.beginOpen tag hp)
    · simp [beginOpen, hp, run_setPhase]
    · simp [beginOpen, hp, run_setPhase]
  · have run : ((beginOpen tag).run c).answer = .error (.notAllowed "open" c.phase) := by
      simp [beginOpen, hp]
    rw [run]
    apply MovesOf.move (.refuse (.openRefused c.phase) rfl)
    · simp [beginOpen, hp]
    · simp [beginOpen, hp]

theorem beginClose_moves (T : Transport σ) (c : Connection σ) (tag : Tag) :
    MovesOf T c (granted T c (.beginClose tag) (.accepted ((beginClose T tag).run c).answer))
      (beginClose T tag) := by
  cases hp : c.phase with
  | initial =>
    have run : ((beginClose T tag).run c).answer = .error (.notAllowed "close" .initial) := by
      simp [beginClose, hp]
    rw [run]
    apply MovesOf.move (.refuse .closeRefused rfl)
    · simp [beginClose, hp]
    · simp [beginClose, hp]
  | closing | closed =>
    have run : (beginClose T tag).run c = ⟨.ok (), c, []⟩ := by simp [beginClose, hp]
    rw [MovesOf, run]
    simpa [granted, hp] using Moves.refl
  | opening =>
    let begun : Connection σ :=
      { c with phase := .closing, awaitingOpen := none, awaitingClose := some tag }
    have close := pollClose_moves (T := T) (c := begun) rfl
    have all := (Moves.single (Move.breakOpen (T := T) tag hp)).trans close
    simpa [MovesOf, beginClose, granted, hp, cancelOpen, run_setPhase, run_setPhase_self, run_finishOpen]
      using all
  | opened | failed =>
    let begun : Connection σ := { c with phase := .closing, awaitingClose := some tag }
    have close := pollClose_moves (T := T) (c := begun) rfl
    have all := (Moves.single (Move.beginClose (T := T) tag (by simp [hp]))).trans close
    simpa [MovesOf, beginClose, granted, hp, run_setPhase] using all

theorem send_moves (T : Transport σ) (c : Connection σ) (tag : Tag) (bytes : Bytes) :
    MovesOf T c (granted T c (.send tag bytes) (.accepted ((send T tag bytes).run c).answer))
      (send T tag bytes) := by
  by_cases hs : isSendable bytes.length = true
  · by_cases hp : c.phase = .opened
    · let full : Connection σ := { c with outbox := c.outbox.push (.new bytes tag) }
      have sent := pollSend_moves (T := T) (c := full) hp
      have all := (Moves.single (Move.queue (T := T) tag bytes hp hs)).trans sent
      simpa [MovesOf, send, clearance, enqueue, granted, acceptedBy, hs, hp, full] using all
    · have run : ((send T tag bytes).run c).answer = .error (.notAllowed "send" c.phase) := by
        simp [send, clearance, hs, hp]
      rw [run]
      apply MovesOf.move (.refuse .sendRefused rfl)
      · simp [send, clearance, hs, hp]
      · simp [send, clearance, hs, hp]
  · have run : ((send T tag bytes).run c).answer = .error (.invalidParameter "buffer") := by
      simp [send, clearance, hs]
    rw [run]
    apply MovesOf.move (.refuse (.sizeRefused bytes.length) rfl)
    · simp [send, clearance, hs]
    · simp [send, clearance, hs]

theorem setOption_moves (T : Transport σ) (c : Connection σ) (name : String) (value : Setting) :
    MovesOf T c [.offering name value] (setOption T name value) := by
  rcases h : (T.setOption name value).run c.transport with ⟨r, s, effects⟩
  have run := run_unrecorded (c := c) h
  have offer := Moves.single (Move.offer (T := T) (c := c) h)
  cases r with
  | ok => simpa [MovesOf, setOption, run] using offer
  | error fault =>
    have all := offer.snoc (.refuse (.optionRefused name fault) rfl)
    simpa [MovesOf, setOption, run] using all

theorem replay_moves (T : Transport σ) (options : List (String × Setting)) (c : Connection σ) :
    MovesOf T c (offered T c options) (replay T options) := by
  induction options generalizing c with
  | nil => exact .pure _
  | cons option rest ih =>
    obtain ⟨name, value⟩ := option
    refine MovesOf.bind (setOption_moves T c name value) ?_
    cases ((setOption T name value).run c).answer with
    | error fault => exact .pure _
    | ok => exact ih _

/-- Every request is a sequence of moves that grants what the answer says. -/
theorem serve_moves (T : Transport σ) (c : Connection σ) (r : Request) :
    MovesOf T c (granted T c r ((serve T r).run c).answer) (serve T r) := by
  cases r with
  | beginOpen tag => simpa [serve] using (beginOpen_moves T c tag).map Answer.accepted
  | beginClose tag => simpa [serve] using (beginClose_moves T c tag).map Answer.accepted
  | send tag bytes => simpa [serve] using (send_moves T c tag bytes).map Answer.accepted
  | sendZeros tag size =>
    have zeros := (send_moves T c tag (List.replicate size 0)).map Answer.accepted
    rw [← sendZeros_eq] at zeros
    have same (a : Except Fault Unit) : granted T c (.send tag (List.replicate size 0)) (.accepted a) =
        granted T c (.sendZeros tag size) (.accepted a) := by
      cases a <;> rfl
    simpa [serve, same] using zeros
  | poll times =>
    simpa [serve, granted, acceptedBy] using
      (pollTimes_moves T times c).map fun _ => Answer.nothing
  | setOption name value =>
    simpa [serve, granted] using (setOption_moves T c name value).map Answer.accepted
  | retrieve => simpa [serve, MovesOf, granted, acceptedBy] using Moves.refl
  | replay options =>
    simpa [serve, granted] using
      (replay_moves T options.entries c).map Answer.accepted

theorem serveAll_moves (T : Transport σ) (rs : List Request) (c : Connection σ) :
    MovesOf T c (grants T c rs) (serveAll T rs) := by
  induction rs generalizing c with
  | nil => exact .pure []
  | cons r rs ih =>
    have all := (serve_moves T c r).trans (ih ((serve T r).run c).state)
    simpa [MovesOf, serveAll_cons, serveAll_nil, grants] using all

theorem destroy_moves (T : Transport σ) (c : Connection σ) :
    MovesOf T c (dropped c) (destroy T) := by
  cases hp : c.phase with
  | initial | closed => simpa [MovesOf, destroy, dropped, hp] using Moves.refl
  | opening =>
    let broken : Connection σ := { c with phase := .closing, awaitingOpen := none }
    have close := pollClose_force_moves (T := T) (c := broken) (.inr (.inr rfl))
    have all := (Moves.single (Move.dropOpen (T := T) hp)).trans close
    simpa [MovesOf, destroy, dropped, hp, cancelOpen, run_setPhase, run_finishOpen] using all
  | opened | failed | closing =>
    simpa [MovesOf, destroy, dropped, hp] using pollClose_force_moves (T := T) (c := c) (by simp [hp])

/-- A connection that was destroyed was either never opened or is closed. -/
theorem destroy_phase (T : Transport σ) (c : Connection σ) :
    ((destroy T).run c).state.phase = .initial ∨ ((destroy T).run c).state.phase = .closed := by
  cases hp : c.phase with
  | initial => left; simp [destroy, hp]
  | closed => right; simp [destroy, hp]
  | opening | opened | failed | closing =>
    right
    simp [destroy, hp, pollClose, cancelOpen, run_setPhase, run_finishOpen, run_finishClose,
      withTransport, ended]

/-- What a whole life sets going. -/
def lifeGrants (T : Transport σ) (t : σ) (rs : List Request) (destroyed : Bool) : List Grant :=
  grants T (ofTransport t) rs ++
    if destroyed then dropped ((serveAll T rs).run (ofTransport t)).state else []

/-- **Whole lives**: from a new connection, every life is a sequence of moves. -/
theorem live_moves (T : Transport σ) (t : σ) (rs : List Request) (destroyed : Bool) :
    MovesOf T (ofTransport t) (lifeGrants T t rs destroyed) (live T rs destroyed) := by
  have served := serveAll_moves T rs (ofTransport t)
  cases destroyed with
  | false => simpa [MovesOf, live, lifeGrants] using served
  | true =>
    have all := Moves.trans served (destroy_moves T ((serveAll T rs).run (ofTransport t)).state)
    simpa [MovesOf, live, lifeGrants] using all

/-- The messages that a life queues are those that were accepted. -/
theorem queued_lifeGrants (T : Transport σ) (t : σ) (rs : List Request) (destroyed : Bool) :
    queued (lifeGrants T t rs destroyed) =
      accepted rs ((live T rs destroyed).run (ofTransport t)).answer := by
  cases destroyed with
  | false => simp [lifeGrants, live, queued_grants]
  | true => simp [lifeGrants, live, queued_grants, queued_dropped]

end PolledConnection.Connection
