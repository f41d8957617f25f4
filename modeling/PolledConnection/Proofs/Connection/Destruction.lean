import PolledConnection.Proofs.Connection.Closing
import PolledConnection.Proofs.Patience
import PolledConnection.Script.Transport

/-! # Destruction and closing

  A connection ends in one of two ways: it is closed and then polled until its
  transport has closed, or it is destroyed and does not wait. The two are
  written apart. They tell the user the same (`destroy_like_close`): an open
  that is under way is cancelled, then all that is queued, in order, then the
  close is reported that was asked for before. A close that is asked for only
  now is reported in addition, behind all that.
-/

namespace PolledConnection

/-! ### Closes that take their time -/

/-- What the transport answers when it is asked to close, with what happens meanwhile. -/
def Transport.askToClose {σ : Type} (T : Transport σ) (s : σ) : (Progress × List Effect) × σ :=
  (((T.close.run s).answer, (T.close.run s).events), (T.close.run s).state)

/-- Asked to close again and again from a state, the transport waits `n` times and ends then. It
    hands out no bytes meanwhile. -/
def Transport.ClosesAfter {σ : Type} (T : Transport σ) : Nat → σ → Prop :=
  EndsAfter T.askToClose
    (fun told => told.1 = .waiting ∧ ∀ e ∈ told.2, e.isReceipt = false)
    (fun told => told.1 ≠ .waiting ∧ ∀ e ∈ told.2, e.isReceipt = false)

theorem Transport.ClosesAfter.silent {σ : Type} {T : Transport σ} {n : Nat} {s : σ}
    (h : T.ClosesAfter n s) : ∀ e ∈ (T.close.run s).events, e.isReceipt = false := by
  cases n with
  | zero => exact h.2
  | succ n => exact h.1.2

/-- Whether the user takes note of an event: a callback, or received bytes. -/
def Event.isHeard (e : Event) : Bool := e.isCallback || e.isReceipt

namespace Connection

variable {σ : Type} {T : Transport σ} {c : Connection σ} {es : List Event} {n w : Nat}

/-! ### What the user hears -/

/-- All callbacks that fire, those for received bytes included. -/
def heard (es : List Event) : List Event := es.filter Event.isHeard

@[simp] theorem heard_nil : heard [] = [] := rfl

@[simp] theorem heard_append (es fs : List Event) : heard (es ++ fs) = heard es ++ heard fs :=
  List.filter_append ..

@[simp] theorem heard_note (note : Note) (es : List Event) : heard (.note note :: es) = heard es := rfl

@[simp] theorem heard_called (call : Transport.Call) (es : List Event) :
    heard (called call :: es) = heard es := rfl

/-- Where no bytes are received only the connection's own callbacks are heard. -/
theorem heard_of_no_receipt (silent : ∀ e ∈ es, e.isReceipt = false) : heard es = callbacks es := by
  apply List.filter_congr
  intro e he
  simp [Event.isHeard, silent e he]

/-- Of a call that hands out no bytes nothing is heard. -/
theorem heard_inside {effects : List Effect} (silent : ∀ e ∈ effects, e.isReceipt = false) :
    heard (inside effects) = [] := by
  rw [heard_of_no_receipt, callbacks_inside]
  intro e he
  obtain ⟨effect, member, rfl⟩ := List.mem_map.mp he
  exact silent effect member

@[simp] theorem heard_brokenOff (c : Connection σ) : heard (brokenOff c) = brokenOff c := by
  unfold brokenOff
  split
  · simp [heard, Event.isHeard]
  · rfl

/-- What the end of a close tells to those who wait: the sends are cancelled, then the close is
    reported. -/
def lastWords (c : Connection σ) : List Event :=
  c.outbox.messages.map (fun m => .sendComplete m.tag .cancelled .closed) ++
    c.awaitingClose.toList.map fun tag => .closeComplete tag .closed

@[simp] theorem heard_farewell (c : Connection σ) (answer : Progress) :
    heard (farewell c answer) = lastWords c := by
  rw [heard_of_no_receipt (no_receipt_farewell c answer), callbacks_farewell]
  rfl

/-! ### One question to the transport -/

/-- The transport ends the close, or is not allowed to wait: the close is over. -/
theorem pollClose_ends (force : Bool) (hp : c.phase ≠ .closed)
    (silent : ∀ e ∈ (T.close.run c.transport).events, e.isReceipt = false)
    (ends : (T.close.run c.transport).answer ≠ .waiting ∨ force = true) :
    (∃ s, ((pollClose T force).run c).state = ended s) ∧
      heard ((pollClose T force).run c).events = lastWords c := by
  rcases h : T.close.run c.transport with ⟨a, s, effects⟩
  have call := run_call (c := c) .close h
  have finished : ¬ (a = .waiting ∧ force = false) := by
    rintro ⟨waits, free⟩
    rcases ends with ends | forced
    · exact ends (by rw [h, waits])
    · simp [free] at forced
  have finish := run_finishClose (c := { c with transport := s }) hp a
  have same : lastWords { c with transport := s } = lastWords c := rfl
  rw [h] at silent
  refine ⟨⟨s, ?_⟩, ?_⟩
  · simp [pollClose, call, finished, finish]
  · simp [pollClose, call, finished, finish, heard_inside silent, same]

/-- The transport makes the close wait: nothing is heard, and everything goes on waiting. -/
theorem pollClose_waits (silent : ∀ e ∈ (T.close.run c.transport).events, e.isReceipt = false)
    (waits : (T.close.run c.transport).answer = .waiting) :
    ((pollClose T false).run c).state = { c with transport := (T.close.run c.transport).state } ∧
      heard ((pollClose T false).run c).events = [] := by
  rcases h : T.close.run c.transport with ⟨a, s, effects⟩
  have call := run_call (c := c) .close h
  rw [h] at silent waits
  obtain rfl : a = .waiting := waits
  refine ⟨?_, ?_⟩
  · simp [pollClose, call]
  · simp [pollClose, call, heard_inside silent]

/-! ### Polls until the close ends -/

theorem run_poll_closing (hp : c.phase = .closing) : (poll T).run c = (pollClose T false).run c := by
  simp [poll, hp]

/-- With fewer polls than the transport wants the close is not over. -/
theorem pollTimes_short (hp : c.phase = .closing) (closes : T.ClosesAfter w c.transport)
    (early : n ≤ w) : ((pollTimes T n).run c).state.phase = .closing := by
  induction n generalizing c w with
  | zero => exact hp
  | succ n ih =>
    cases w with
    | zero => omega
    | succ w =>
      obtain ⟨⟨waits, silent⟩, later⟩ := closes
      have first := (pollClose_waits silent waits).1
      rw [pollTimes_succ, Act.run_bind, run_poll_closing hp, first]
      apply ih (c := { c with transport := (T.close.run c.transport).state }) hp later
      omega

/-- With more polls it is over, and each of those who waited has been told once. -/
theorem pollTimes_enough (hp : c.phase = .closing) (closes : T.ClosesAfter w c.transport)
    (enough : w < n) :
    (∃ s, ((pollTimes T n).run c).state = ended s) ∧
      heard ((pollTimes T n).run c).events = lastWords c := by
  induction n generalizing c w with
  | zero => omega
  | succ n ih =>
    rw [pollTimes_succ, Act.run_bind, run_poll_closing hp, heard_append]
    cases w with
    | zero =>
      -- This poll ends the close; the others find nothing to do.
      obtain ⟨⟨s, finished⟩, told⟩ := pollClose_ends (T := T) false (by simp [hp])
        closes.silent (.inl closes.1)
      have rest : (pollTimes T n).run (ended s) = ⟨(), ended s, []⟩ := by
        cases n <;> simp [pollTimes, ended, isIdle]
      rw [finished, rest, told]
      exact ⟨⟨s, rfl⟩, List.append_nil _⟩
    | succ w =>
      obtain ⟨⟨waits, silent⟩, later⟩ := closes
      obtain ⟨state, nothing⟩ := pollClose_waits silent waits
      have rest := ih (c := { c with transport := (T.close.run c.transport).state }) hp later
        (by omega)
      rw [state, nothing, List.nil_append]
      exact rest

/-! ### The two ways to end -/

/-- What is heard when a connection ends, whichever way it goes. -/
def parting (c : Connection σ) : List Event := brokenOff c ++ lastWords c

/-- Whether there is something to end. -/
def isUnderWay (p : Phase) : Bool :=
  match p with
  | .opening | .opened | .failed | .closing => true
  | .initial | .closed => false

/-- **Destruction**: the close is not waited for. -/
theorem destroy_parts (hp : isUnderWay c.phase = true)
    (silent : ∀ e ∈ (T.close.run c.transport).events, e.isReceipt = false) :
    (∃ s, ((destroy T).run c).state = ended s) ∧ heard ((destroy T).run c).events = parting c := by
  have unclosed : c.phase ≠ .closed := by
    intro closed
    simp [closed, isUnderWay] at hp
  by_cases opening : c.phase = .opening
  · -- The open is broken off first, so it is the close of the connection behind that.
    obtain ⟨finished, told⟩ := pollClose_ends (T := T)
      (c := { c with phase := .closing, awaitingOpen := none }) true (by simp) silent (.inr rfl)
    have run : (destroy T).run c =
        ⟨(), ((pollClose T true).run { c with phase := .closing, awaitingOpen := none }).state,
          .note (.phaseChanged .opening .closing) :: (brokenOff c ++
            ((pollClose T true).run { c with phase := .closing, awaitingOpen := none }).events)⟩ := by
      simp [destroy, opening, cancelOpen, run_setPhase, run_finishOpen, brokenOff]
    rw [run]
    refine ⟨finished, ?_⟩
    rw [heard_note, heard_append, heard_brokenOff, told]
    rfl
  · have run : (destroy T).run c = (pollClose T true).run c := by
      cases phase : c.phase <;> simp_all [destroy, isUnderWay]
    have nothing : brokenOff c = [] := if_neg opening
    obtain ⟨finished, told⟩ := pollClose_ends (T := T) true unclosed silent (.inr rfl)
    rw [run, parting, nothing, List.nil_append]
    exact ⟨finished, told⟩

/-- How often the connection has to be polled behind a request to close: the request itself asks
    once, unless the connection is closing already. -/
def pollsNeeded (c : Connection σ) (w : Nat) : Nat := if c.phase = .closing then w + 1 else w

/-- A request and `n` polls behind it. -/
theorem run_then_polls (r : Request) (n : Nat) :
    (serveAll T [r, .poll n]).run c =
      let first := (serve T r).run c
      let polled := (pollTimes T n).run first.state
      ⟨[first.answer, .nothing], polled.state, first.events ++ polled.events⟩ := by
  simp [serveAll_cons, serveAll_nil, serve]

/-- A close and `n` polls behind it, from the poll that the request itself makes. -/
theorem close_then_polls (hp : c.phase = .opening ∨ c.phase = .opened ∨ c.phase = .failed)
    (tag : Tag) (n : Nat) :
    let o := (serveAll T [.beginClose tag, .poll n]).run c
    let polled := (pollTimes T (n + 1)).run (closingWith c tag)
    o.state = polled.state ∧ heard o.events = brokenOff c ++ heard polled.events := by
  have first := run_beginClose_polls (T := T) hp tag
  have begun : (poll T).run (closingWith c tag) = (pollClose T false).run (closingWith c tag) :=
    run_poll_closing rfl
  rw [pollTimes_succ, run_then_polls, first, Act.run_bind, begun]
  refine ⟨rfl, ?_⟩
  simp

/-- **Closing**: the close is over behind exactly as many polls as it needs, and what is heard is
    what a destruction would have told, with the close that was asked for. -/
theorem close_parts (hp : isUnderWay c.phase = true) (closes : T.ClosesAfter w c.transport)
    (unasked : c.phase ≠ .closing → c.awaitingClose = none) (tag : Tag) :
    let o := (serveAll T [.beginClose tag, .poll n]).run c
    (n < pollsNeeded c w → o.state.phase = .closing) ∧
      (pollsNeeded c w ≤ n → (∃ s, o.state = ended s) ∧
        heard o.events =
          parting c ++ if c.phase = .closing then [] else [.closeComplete tag .closed]) := by
  intro o
  by_cases closing : c.phase = .closing
  · -- The request changes nothing; the polls go on with the close.
    have again := run_beginClose_again (T := T) (.inl closing) tag
    have run : o = ⟨[.accepted (.ok ()), .nothing], ((pollTimes T n).run c).state,
        ((pollTimes T n).run c).events⟩ := by
      show (serveAll T [.beginClose tag, .poll n]).run c = _
      rw [run_then_polls, again]
      rfl
    have nothing : brokenOff c = [] := if_neg (by simp [closing])
    rw [run, pollsNeeded, if_pos closing, if_pos closing, parting, nothing, List.append_nil,
      List.nil_append]
    refine ⟨fun early => ?_, fun enough => ?_⟩
    · exact pollTimes_short closing closes (by omega)
    · exact pollTimes_enough closing closes (by omega)
  · have counts : c.phase = .opening ∨ c.phase = .opened ∨ c.phase = .failed := by
      cases phase : c.phase <;> simp_all [isUnderWay]
    obtain ⟨state, told⟩ := close_then_polls (T := T) counts tag n
    -- Nobody waited for a close before, so the one that is reported is this one.
    have words : lastWords (closingWith c tag) =
        lastWords c ++ [.closeComplete tag .closed] := by
      simp [lastWords, closingWith, unasked closing]
    rw [state, told, pollsNeeded, if_neg closing, if_neg closing, parting, List.append_assoc]
    refine ⟨fun early => ?_, fun enough => ?_⟩
    · exact pollTimes_short (c := closingWith c tag) rfl closes (by omega)
    · rw [← words]
      obtain ⟨finished, told⟩ := pollTimes_enough (c := closingWith c tag) rfl closes
        (n := n + 1) (by omega)
      exact ⟨finished, by rw [told]⟩

/-- A connection that has closed is destroyed without a word. -/
theorem live_ended {rs : List Request} {s : σ} (finished : ((serveAll T rs).run c).state = ended s) :
    ((live T rs true).run c).events = ((serveAll T rs).run c).events ∧
      ((live T rs true).run c).state = ended s := by
  have rest : (destroy T).run (ended s) = ⟨(), ended s, []⟩ := by simp [destroy, ended]
  rw [run_live]
  simp [finished, rest]

/-- Before a connection closes nobody waits for the end of its close. -/
theorem awaitingClose_none (T : Transport σ) (t : σ) (rs : List Request)
    (underWay : isUnderWay ((serveAll T rs).run (ofTransport t)).state.phase = true)
    (before : ((serveAll T rs).run (ofTransport t)).state.phase ≠ .closing) :
    ((serveAll T rs).run (ofTransport t)).state.awaitingClose = none := by
  have unclosed : ((serveAll T rs).run (ofTransport t)).state.phase ≠ .closed := by
    intro closed
    simp [closed, isUnderWay] at underWay
  have closure : Closure T _ _ ((serveAll T rs).run (ofTransport t)).state :=
    (serveAll_moves T rs (ofTransport t)).invariant Closure.step (Closure.first t)
  have awaited := (closure.awaited unclosed).1
  rw [closure.none before unclosed] at awaited
  simpa using awaited

/-! ### The theorem -/

/-- **Destruction like closing.** Let a run of requests lead to a connection that is opening, open,
    failed or closing, and let its transport, if asked to close, wait `w` times and end then, and
    hand out no bytes meanwhile. A close and polls behind it reach the end behind exactly as many
    polls as they need. However many more are made, what is heard of the close, the polls and the
    destruction behind them is what is heard of a destruction at once, and behind it the end of that
    close, unless another was under way. Either way no message is left. -/
theorem destroy_like_close (T : Transport σ) (t : σ) (rs : List Request) (tag : Tag) (w : Nat)
    (underWay : isUnderWay ((serveAll T rs).run (ofTransport t)).state.phase = true)
    (closes : T.ClosesAfter w ((serveAll T rs).run (ofTransport t)).state.transport) :
    let c := ((serveAll T rs).run (ofTransport t)).state
    let destroyed := (destroy T).run c
    destroyed.state.phase = .closed ∧ destroyed.state.pendingCount = 0 ∧
    ∀ n,
      let closed := (serveAll T [.beginClose tag, .poll n]).run c
      let finished := (live T [.beginClose tag, .poll n] true).run c
      (closed.state.phase = .closed ↔ pollsNeeded c w ≤ n) ∧
      (pollsNeeded c w ≤ n →
        heard finished.events =
          heard destroyed.events ++ (if c.phase = .closing then [] else [.closeComplete tag .closed]) ∧
        closed.state.pendingCount = 0 ∧ finished.state.pendingCount = 0) := by
  have unasked := awaitingClose_none T t rs underWay
  generalize ((serveAll T rs).run (ofTransport t)).state = c at underWay closes unasked
  obtain ⟨⟨s, finished⟩, told⟩ := destroy_parts (T := T) underWay closes.silent
  refine ⟨by rw [finished]; rfl, by rw [finished]; rfl, fun n => ?_⟩
  obtain ⟨early, enough⟩ := close_parts (n := n) underWay closes unasked tag
  refine ⟨⟨fun ended => ?_, fun reached => ?_⟩, fun reached => ?_⟩
  · rcases Nat.lt_or_ge n (pollsNeeded c w) with short | reached
    · rw [early short] at ended
      contradiction
    · exact reached
  · obtain ⟨⟨u, state⟩, -⟩ := enough reached
    rw [state]
    rfl
  · obtain ⟨⟨u, state⟩, words⟩ := enough reached
    obtain ⟨events, last⟩ := live_ended state
    refine ⟨?_, by rw [state]; rfl, by rw [last]; rfl⟩
    rw [events, told]
    exact words

/-- A transport that takes no byte, and makes a close wait twice before it fails. -/
def reluctant : Script.Transport where
  opens := [⟨[], .done⟩]
  closes := [⟨[], .waiting⟩, ⟨[], .waiting⟩, ⟨[], .failed⟩]
  reads := []
  writes := []
  writeDefault := some (.upTo 0)
  accepted := []
  options := .empty
  receiver := none

/-- Two messages lie in the queue of such a connection. Both ways cancel them, in order. -/
theorem destroy_like_close_reluctant :
    let T := Script.Transport.transport
    let c := ((serveAll T [.beginOpen "open", .poll 1, .send "older" [1], .send "younger" [2]]).run
      (ofTransport reluctant)).state
    let cancelled : List Event :=
      [.sendComplete "older" .cancelled .closed, .sendComplete "younger" .cancelled .closed]
    isUnderWay c.phase = true ∧ T.ClosesAfter 2 c.transport ∧
      heard ((destroy T).run c).events = cancelled ∧
      heard ((live T [.beginClose "close", .poll 2] true).run c).events =
        cancelled ++ [.closeComplete "close" .closed] := by
  intro T c cancelled
  have underWay : isUnderWay c.phase = true := by decide
  have closes : T.ClosesAfter 2 c.transport := by
    unfold Transport.ClosesAfter
    decide
  have told : heard ((destroy T).run c).events = cancelled := by decide
  obtain ⟨-, -, ways⟩ := destroy_like_close T reluctant
    [.beginOpen "open", .poll 1, .send "older" [1], .send "younger" [2]] "close" 2 underWay closes
  refine ⟨underWay, closes, told, ?_⟩
  rw [((ways 2).2 (by decide)).1]
  rw [show heard ((destroy T).run _).events = cancelled from told]
  decide

end Connection

end PolledConnection
