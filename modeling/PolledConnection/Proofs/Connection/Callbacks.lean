import PolledConnection.Proofs.Connection.Phases

/-! # Callbacks in a history

  The callbacks of a connection, as one more view of its history. A request
  that comes at the wrong time, or is about options only, fires none of them,
  makes no call and changes nothing but the transport that got the option
  (`serve_aside`); what is left to look at in a phase are its polls.
-/

namespace PolledConnection

/-- Whether an event is a callback of the connection. -/
def Event.isCallback (e : Event) : Bool := e.callbackPhase?.isSome

section
variable (tag : Tag) (verdict : Verdict) (phase : Phase) (event : Transport.Event) (note : Note)

@[simp] theorem Event.isCallback_openComplete :
    (Event.openComplete tag verdict phase).isCallback = true := rfl

@[simp] theorem Event.isCallback_ioError : (Event.ioError tag phase).isCallback = true := rfl

@[simp] theorem Event.isCallback_sendComplete :
    (Event.sendComplete tag verdict phase).isCallback = true := rfl

@[simp] theorem Event.isCallback_closeComplete :
    (Event.closeComplete tag phase).isCallback = true := rfl

@[simp] theorem Event.isCallback_transport : (Event.transport event).isCallback = false := rfl

@[simp] theorem Event.isCallback_note : (Event.note note).isCallback = false := rfl

end

/-- Whether an event is a refusal, or something that happened inside a call of the transport. -/
def Event.isAside : Event → Bool
  | .transport (.effect _) => true
  | .note n => Connection.isRefusal n
  | _ => false

namespace Connection

variable {σ : Type} {T : Transport σ} {c : Connection σ} {es : List Event}

/-! ### The view -/

/-- The callbacks of the connection. -/
def callbacks (es : List Event) : List Event := es.filter Event.isCallback

@[simp] theorem callbacks_nil : callbacks [] = [] := rfl

@[simp] theorem callbacks_cons (e : Event) (es : List Event) :
    callbacks (e :: es) = (if e.isCallback then e :: callbacks es else callbacks es) :=
  List.filter_cons

@[simp] theorem callbacks_append (es fs : List Event) :
    callbacks (es ++ fs) = callbacks es ++ callbacks fs :=
  List.filter_append ..

@[simp] theorem callbacks_inside (effects : List Effect) : callbacks (inside effects) = [] := by
  simp [callbacks, inside]

section
variable (verdict : Verdict) (phase : Phase) (tags : List Tag) (messages : List Message)

@[simp] theorem callbacks_openComplete :
    callbacks (tags.map fun tag => .openComplete tag verdict phase) =
      tags.map fun tag => .openComplete tag verdict phase := by
  simp [callbacks]

@[simp] theorem callbacks_ioError :
    callbacks (tags.map fun tag => .ioError tag phase) = tags.map fun tag => .ioError tag phase := by
  simp [callbacks]

@[simp] theorem callbacks_closeComplete :
    callbacks (tags.map fun tag => .closeComplete tag phase) =
      tags.map fun tag => .closeComplete tag phase := by
  simp [callbacks]

@[simp] theorem callbacks_sendComplete :
    callbacks (messages.map fun m => .sendComplete m.tag verdict phase) =
      messages.map fun m => .sendComplete m.tag verdict phase := by
  simp [callbacks]

end

@[simp] theorem callbacks_farewell (c : Connection σ) (answer : Progress) :
    callbacks (farewell c answer) =
      c.outbox.messages.map (fun m => .sendComplete m.tag .cancelled .closed) ++
        c.awaitingClose.toList.map fun tag => .closeComplete tag .closed := by
  cases answer <;> simp [farewell]

/-! ### Runs in parts -/

/-- A run of requests is a run of the first of them, then one of the others. -/
theorem run_serveAll_append (T : Transport σ) (before after : List Request) (c : Connection σ) :
    (serveAll T (before ++ after)).run c =
      let first := (serveAll T before).run c
      let second := (serveAll T after).run first.state
      ⟨first.answer ++ second.answer, second.state, first.events ++ second.events⟩ :=
  Act.run_oneByOne_append (serve T) before after c

/-- A life is a run of requests, and what a destruction adds to it. -/
theorem run_live (T : Transport σ) (rs : List Request) (destroyed : Bool) (c : Connection σ) :
    (live T rs destroyed).run c =
      let served := (serveAll T rs).run c
      let last := (destroy T).run served.state
      ⟨served.answer, if destroyed then last.state else served.state,
        served.events ++ if destroyed then last.events else []⟩ := by
  cases destroyed <;> simp [live]

/-- The history of a life begins with that of its first requests. -/
theorem live_extends (T : Transport σ) (before after : List Request) (destroyed : Bool)
    (c : Connection σ) : ∃ post, ((live T (before ++ after) destroyed).run c).events =
      ((serveAll T before).run c).events ++ post := by
  rw [run_live, run_serveAll_append]
  simp only [List.append_assoc]
  exact ⟨_, rfl⟩

/-! ### Requests without effect -/

/-- Nothing but refusals, and what happened inside the transport. -/
def Asides (es : List Event) : Prop := ∀ e ∈ es, e.isAside = true

theorem Asides.nil : Asides [] := fun _ h => absurd h List.not_mem_nil

theorem Asides.note {note : Note} (h : isRefusal note = true) : Asides [.note note] := by
  simp [Asides, Event.isAside, h]

theorem Asides.inside (effects : List Effect) : Asides (inside effects) := by
  simp [Asides, Connection.inside, Event.isAside]

theorem Asides.append {fs : List Event} (h₁ : Asides es) (h₂ : Asides fs) : Asides (es ++ fs) := by
  intro e he
  rcases List.mem_append.mp he with early | late
  · exact h₁ e early
  · exact h₂ e late

theorem Asides.calls (h : Asides es) : calls es = [] := by
  refine List.filterMap_eq_nil_iff.mpr ?_
  intro e he
  have aside := h e he
  cases e with
  | transport event =>
    cases event with
    | effect => rfl
    | called => simp [Event.isAside] at aside
  | openComplete | ioError | sendComplete | closeComplete | note => rfl

theorem Asides.callbacks (h : Asides es) : callbacks es = [] := by
  refine List.filter_eq_nil_iff.mpr ?_
  intro e he
  have aside := h e he
  cases e with
  | transport | note => simp
  | openComplete | ioError | sendComplete | closeComplete => simp [Event.isAside] at aside

theorem Asides.completions (h : Asides es) : completions es = [] := by
  refine List.filterMap_eq_nil_iff.mpr ?_
  intro e he
  have aside := h e he
  cases e with
  | sendComplete => simp [Event.isAside] at aside
  | transport | note | openComplete | ioError | closeComplete => rfl

/-- An act only touches the transport, and tells nothing but asides. -/
def Bystander {α : Type} (c : Connection σ) (m : Step σ α) : Prop :=
  (∃ s, (m.run c).state = { c with transport := s }) ∧ Asides (m.run c).events

theorem bystander_setOption (c : Connection σ) (name : String) (value : Setting) :
    Bystander c (setOption T name value) := by
  rcases h : (T.setOption name value).run c.transport with ⟨r, s, effects⟩
  have run := run_unrecorded (c := c) h
  cases r with
  | ok => exact ⟨⟨s, by simp [setOption, run]⟩, by simpa [setOption, run] using .inside effects⟩
  | error fault =>
    refine ⟨⟨s, by simp [setOption, run]⟩, ?_⟩
    simpa [setOption, run] using (Asides.inside effects).append (.note rfl)

theorem bystander_replay (options : List (String × Setting)) (c : Connection σ) :
    Bystander c (replay T options) := by
  induction options generalizing c with
  | nil => exact ⟨⟨c.transport, rfl⟩, .nil⟩
  | cons option rest ih =>
    obtain ⟨name, value⟩ := option
    obtain ⟨⟨s, state⟩, aside⟩ := bystander_setOption (T := T) c name value
    cases answer : ((setOption T name value).run c).answer with
    | error fault =>
      refine ⟨⟨s, ?_⟩, ?_⟩
      · simp [replay_cons, answer, state]
      · simpa [replay_cons, answer] using aside
    | ok =>
      -- The rest is replayed on the connection behind the first option.
      obtain ⟨⟨u, last⟩, asides⟩ := ih ((setOption T name value).run c).state
      refine ⟨⟨u, ?_⟩, ?_⟩
      · rw [state] at last
        simp [replay_cons, answer, state, last]
      · simpa [replay_cons, answer] using aside.append asides

theorem bystander_send (hp : c.phase ≠ .opened) (tag : Tag) (bytes : Bytes) :
    Bystander c (send T tag bytes) := by
  by_cases hs : isSendable bytes.length = true
  · refine ⟨⟨c.transport, by simp [send, clearance, hs, hp]⟩, ?_⟩
    simpa [send, clearance, hs, hp] using Asides.note rfl
  · refine ⟨⟨c.transport, by simp [send, clearance, hs]⟩, ?_⟩
    simpa [send, clearance, hs] using Asides.note rfl

theorem bystander_beginOpen (hp : c.phase ≠ .initial) (tag : Tag) :
    Bystander c (beginOpen tag) := by
  refine ⟨⟨c.transport, by simp [beginOpen, hp]⟩, ?_⟩
  simpa [beginOpen, hp] using Asides.note rfl

/-- A request that is refused in the present phase, or is about options. -/
theorem serve_aside (r : Request) (sends : c.phase ≠ .opened) (poll : ∀ times, r ≠ .poll times)
    (close : ∀ tag, r ≠ .beginClose tag) (opens : c.phase = .initial → ∀ tag, r ≠ .beginOpen tag) :
    Bystander c (serve T r) := by
  have map {α β : Type} {m : Step σ α} (f : α → β) (h : Bystander c m) : Bystander c (f <$> m) := by
    simpa [Bystander] using h
  cases r with
  | poll times => exact absurd rfl (poll times)
  | beginClose tag => exact absurd rfl (close tag)
  | beginOpen tag =>
    exact map _ (bystander_beginOpen (fun initial => opens initial tag rfl) tag)
  | send tag bytes => exact map _ (bystander_send sends tag bytes)
  | sendZeros tag size =>
    simp only [serve, sendZeros_eq]
    exact map _ (bystander_send sends tag _)
  | setOption name value => exact map _ (bystander_setOption c name value)
  | retrieve => exact ⟨⟨c.transport, rfl⟩, by simpa [serve] using Asides.nil⟩
  | replay options => exact map _ (bystander_replay options.entries c)

/-- A connection that is closing or closed stays as it is when it is asked to close. -/
theorem run_beginClose_again (hp : c.phase = .closing ∨ c.phase = .closed) (tag : Tag) :
    (serve T (.beginClose tag)).run c = ⟨.accepted (.ok ()), c, []⟩ := by
  rcases hp with hp | hp <;> simp [serve, beginClose, hp]

/-- The end of an open that is broken off. -/
def brokenOff (c : Connection σ) : List Event :=
  if c.phase = .opening then
    c.awaitingOpen.toList.map fun tag => .openComplete tag .cancelled .closing
  else []

/-- The connection when it has begun to close and the transport has not been asked yet. -/
def closingWith (c : Connection σ) (tag : Tag) : Connection σ where
  phase := .closing
  transport := c.transport
  outbox := c.outbox
  awaitingOpen := if c.phase = .opening then none else c.awaitingOpen
  client := c.client
  awaitingClose := some tag

/-- In the other phases behind the first, a close breaks off what is going on and then polls once. -/
theorem run_beginClose_polls (hp : c.phase = .opening ∨ c.phase = .opened ∨ c.phase = .failed)
    (tag : Tag) :
    (serve T (.beginClose tag)).run c =
      ⟨.accepted (.ok ()), ((pollClose T false).run (closingWith c tag)).state,
        .note (.phaseChanged c.phase .closing) ::
          (brokenOff c ++ ((pollClose T false).run (closingWith c tag)).events)⟩ := by
  rcases hp with hp | hp | hp
  · simp [serve, beginClose, hp, cancelOpen, run_setPhase, run_setPhase_self, run_finishOpen,
      brokenOff, closingWith]
  · simp [serve, beginClose, hp, run_setPhase, brokenOff, closingWith]
  · simp [serve, beginClose, hp, run_setPhase, brokenOff, closingWith]

/-- Up to that poll no call is made, and no send ends. -/
theorem run_beginClose (hp : c.phase = .opening ∨ c.phase = .opened ∨ c.phase = .failed)
    (tag : Tag) :
    ∃ front awaiting, calls front = [] ∧ completions front = [] ∧
      let begun :=
        { c with phase := .closing, awaitingOpen := awaiting, awaitingClose := some tag }
      (serve T (.beginClose tag)).run c =
        ⟨.accepted (.ok ()), ((pollClose T false).run begun).state,
          front ++ ((pollClose T false).run begun).events⟩ := by
  have quiet : calls (brokenOff c) = [] ∧ completions (brokenOff c) = [] := by
    unfold brokenOff
    split <;> simp
  refine ⟨.note (.phaseChanged c.phase .closing) :: brokenOff c, (closingWith c tag).awaitingOpen,
    ?_, ?_, ?_⟩
  · simp [quiet.1]
  · simp [quiet.2]
  · exact run_beginClose_polls hp tag

/-- A close leads on from every phase but the first. -/
theorem rank_beginClose (hp : c.phase ≠ .initial) (tag : Tag) :
    Phase.rank .closing ≤ ((serve T (.beginClose tag)).run c).state.phase.rank := by
  have begins (hp : c.phase = .opening ∨ c.phase = .opened ∨ c.phase = .failed) :
      Phase.rank .closing ≤ ((serve T (.beginClose tag)).run c).state.phase.rank := by
    obtain ⟨front, awaiting, -, -, run⟩ := run_beginClose (T := T) hp tag
    let begun : Connection σ :=
      { c with phase := .closing, awaitingOpen := awaiting, awaitingClose := some tag }
    have polled : Moves T begun [] _ _ := pollClose_moves (T := T) (c := begun) rfl
    rw [run]
    exact polled.rank_le
  cases was : c.phase with
  | initial => contradiction
  | opening | opened | failed => exact begins (by simp [was])
  | closing | closed =>
    rw [run_beginClose_again (by simp [was])]
    simp [was, Phase.rank]

/-- A connection that has begun to open is closed when it is destroyed. -/
theorem destroy_closes (hp : c.phase ≠ .initial) : ((destroy T).run c).state.phase = .closed := by
  rcases destroy_phase T c with initial | closed
  · -- The way does not lead back.
    have up := Moves.rank_le (destroy_moves T c)
    rw [initial] at up
    cases was : c.phase <;> simp_all [Phase.rank]
  · exact closed

end Connection

end PolledConnection
