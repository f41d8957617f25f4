import PolledConnection.Proofs.Tls.Consistency
import PolledConnection.Proofs.Tls.Store
import PolledConnection.Proofs.Tls.Tenure
import PolledConnection.Tcp.Transport

/-! # A failed open is final

  Each transport opens in steps of its own, but they all fail alike: what was
  held is given back, the step of the open is one that is never left, and from
  then on nothing outside is asked for anything, whatever the transport itself
  is asked for (`Final`).

  A transport is final if three laws hold of single requests (`Settles`): the
  step only goes onward, an open that fails leaves the transport spent, and a
  spent transport dismisses every request.
-/

namespace PolledConnection

variable {ε σ τ ρ ω S : Type}

namespace Transport

/-! ### Laws -/

/-- Whether an event concerns the transport alone: it is a report, or a call that came back. -/
def Event.isInward : Event → Bool
  | .effect (.note _) | .called _ => true
  | .effect _ => false

/-- What a transport whose open has failed answers to a request. -/
def Dismissed : Request → Answer → Prop
  | .establish _, a | .read, a => a = .progress .failed
  | .write _, a => ∃ fault, a = .count (.error fault)
  | .close, _ | .setOption .., _ | .retrieve, _ => True

/-- All requests are dismissed. -/
def AllDismissed : List Request → List Answer → Prop
  | [], [] => True
  | q :: qs, a :: as => Dismissed q a ∧ AllDismissed qs as
  | _, _ => False

/-- The order of the steps of an open. -/
structure Ladder (S : Type) where
  /-- Later steps have a greater rank. -/
  rank : S → Nat
  /-- Whether a step is never left. -/
  isFinal : S → Bool

/-- A step goes onward: it stays, or a later one is taken, but never behind a final one. -/
def Ladder.Onward (l : Ladder S) (a b : S) : Prop :=
  b = a ∨ l.isFinal a = false ∧ l.rank a < l.rank b

/-- How the open of a transport looks. -/
structure Outlook (τ S : Type) where
  /-- The order of its steps. -/
  ladder : Ladder S
  /-- What the next poll of the open does. -/
  step : τ → S
  /-- Nothing is held: no socket, no carrier, no session. -/
  Empty : τ → Prop
  /-- Resolver, network and engine are the same in two states. -/
  Untouched : τ → τ → Prop

/-- The open has failed, and nothing is held any more. -/
def Outlook.Spent (v : Outlook τ S) (t : τ) : Prop := v.ladder.isFinal (v.step t) = true ∧ v.Empty t

/-- An act does nothing but report: nothing is held behind it, and nothing outside was touched. -/
structure Outlook.Idle (v : Outlook τ S) {α : Type} (t : τ) (o : Outcome Effect τ α) : Prop where
  notes : ∃ notes : List Note, o.events = notes.map .note
  empty : v.Empty o.state
  untouched : v.Untouched t o.state

/-- What the operations do to the open: only a poll of it takes steps, and a spent transport has
    nothing to do. -/
structure Settles (T : Transport τ) (v : Outlook τ S) : Prop where
  establish : ∀ receiver t, let o := (T.establish receiver).run t
    v.ladder.Onward (v.step t) (v.step o.state) ∧ (o.answer = .failed → v.Spent o.state) ∧
      (v.Spent t → o.answer = .failed ∧ v.Idle t o)
  close : ∀ t, let o := T.close.run t
    v.step o.state = v.step t ∧ (v.Spent t → v.Idle t o)
  read : ∀ t, let o := T.read.run t
    v.step o.state = v.step t ∧ (v.Spent t → o.answer = .failed ∧ v.Idle t o)
  write : ∀ bytes t, let o := (T.write bytes).run t
    v.step o.state = v.step t ∧ (v.Spent t → (∃ fault, o.answer = .error fault) ∧ v.Idle t o)
  setOption : ∀ name value t, let o := (T.setOption name value).run t
    v.step o.state = v.step t ∧ (v.Spent t → v.Idle t o)
  refl : ∀ t, v.Untouched t t
  trans : ∀ t u w, v.Untouched t u → v.Untouched u w → v.Untouched t w

/-- The open goes onward, and is final if it fails: whatever is asked for behind that, nothing is held,
    nothing outside is touched, and every request is dismissed. -/
structure Final (T : Transport τ) (v : Outlook τ S) : Prop where
  onward : ∀ qs t, v.ladder.Onward (v.step t) (v.step ((T.serveAll qs).run t).state)
  lasts : ∀ receiver t qs, ((T.establish receiver).run t).answer = .failed →
    let failed := ((T.establish receiver).run t).state
    let o := (T.serveAll qs).run failed
    v.Spent failed ∧ v.step o.state = v.step failed ∧ v.Empty o.state ∧ v.Untouched failed o.state ∧
      AllDismissed qs o.answer ∧ ∀ e ∈ o.events, e.isInward = true

/-! ### From requests to runs -/

section
variable {T : Transport τ} {v : Outlook τ S} {l : Ladder S} {a b c : S} {t : τ}

theorem Ladder.Onward.trans (h₁ : l.Onward a b) (h₂ : l.Onward b c) : l.Onward a c := by
  rcases h₁ with rfl | ⟨open₁, rank₁⟩
  · exact h₂
  · rcases h₂ with rfl | ⟨-, rank₂⟩
    · exact .inr ⟨open₁, rank₁⟩
    · exact .inr ⟨open₁, by omega⟩

/-- A final step is never left. -/
theorem Ladder.Onward.eq_of_isFinal (h : l.Onward a b) (final : l.isFinal a = true) : b = a := by
  rcases h with same | ⟨open₁, -⟩
  · exact same
  · simp [final] at open₁

/-- What a request records is what its operation does, with the call itself if it is one. -/
theorem mem_events_recorded {α : Type} {m : Act Effect τ α} {call : α → Call} {e : Event} :
    e ∈ ((recorded m call).run t).events ↔
      (∃ x ∈ (m.run t).events, e = .effect x) ∨ e = .called (call (m.run t).answer) := by
  simp [recorded, eq_comm]

/-- **Step**: a request goes onward. -/
theorem Settles.onward_serve (settles : T.Settles v) (q : Request) (t : τ) :
    v.ladder.Onward (v.step t) (v.step ((T.serve q).run t).state) := by
  cases q with
  | establish receiver => simpa [serve, recorded] using (settles.establish receiver t).1
  | close => exact .inl (by simpa [serve, recorded] using (settles.close t).1)
  | read => exact .inl (by simpa [serve, recorded] using (settles.read t).1)
  | write bytes => exact .inl (by simpa [serve, offer, recorded] using (settles.write bytes t).1)
  | setOption name value =>
    exact .inl (by simpa [serve, unrecorded] using (settles.setOption name value t).1)
  | retrieve => exact .inl rfl

theorem Outlook.Idle.inward {α : Type} {o : Outcome Effect τ α} (idle : v.Idle t o) :
    ∀ x ∈ o.events, (Event.effect x).isInward = true := by
  obtain ⟨notes, events⟩ := idle.notes
  intro x hx
  rw [events, List.mem_map] at hx
  obtain ⟨note, -, rfl⟩ := hx
  rfl

theorem Outlook.idle_of_run (v : Outlook τ S) {α : Type} {m : Act Effect τ α} {answer : α} {u : τ}
    (notes : List Note) (run : m.run t = ⟨answer, u, notes.map .note⟩) (empty : v.Empty u)
    (untouched : v.Untouched t u) :
    (m.run t).answer = answer ∧ v.Idle t (m.run t) := by
  rw [run]
  exact ⟨rfl, ⟨notes, rfl⟩, empty, untouched⟩

/-- **Step**: a spent transport dismisses every request, and has nothing to do for it. -/
theorem Settles.rests_serve (settles : T.Settles v) (q : Request) (ht : v.Spent t) :
    let o := (T.serve q).run t
    Dismissed q o.answer ∧ (∀ e ∈ o.events, e.isInward = true) ∧ v.Empty o.state ∧
      v.Untouched t o.state := by
  have inward {α : Type} {m : Act Effect τ α} {call : α → Call} (idle : v.Idle t (m.run t)) :
      ∀ e ∈ ((recorded m call).run t).events, e.isInward = true := by
    intro e he
    rcases mem_events_recorded.mp he with ⟨x, hx, rfl⟩ | rfl
    · exact idle.inward x hx
    · rfl
  cases q with
  | establish receiver =>
    obtain ⟨answer, idle⟩ := (settles.establish receiver t).2.2 ht
    exact ⟨by simp [serve, recorded, Dismissed, answer], by simpa [serve] using inward idle,
      by simpa [serve, recorded] using idle.empty, by simpa [serve, recorded] using idle.untouched⟩
  | close =>
    have idle := (settles.close t).2 ht
    exact ⟨trivial, by simpa [serve] using inward idle,
      by simpa [serve, recorded] using idle.empty, by simpa [serve, recorded] using idle.untouched⟩
  | read =>
    obtain ⟨answer, idle⟩ := (settles.read t).2 ht
    exact ⟨by simp [serve, recorded, Dismissed, answer], by simpa [serve] using inward idle,
      by simpa [serve, recorded] using idle.empty, by simpa [serve, recorded] using idle.untouched⟩
  | write bytes =>
    obtain ⟨⟨fault, answer⟩, idle⟩ := (settles.write bytes t).2 ht
    refine ⟨?_, ?_, ?_, ?_⟩
    · simp [serve, offer, recorded, Dismissed, answer]
    · simpa [serve, offer] using inward idle
    · simpa [serve, offer, recorded] using idle.empty
    · simpa [serve, offer, recorded] using idle.untouched
  | setOption name value =>
    have idle := (settles.setOption name value t).2 ht
    exact ⟨trivial, by simpa [serve, unrecorded] using idle.inward,
      by simpa [serve, unrecorded] using idle.empty, by simpa [serve, unrecorded] using idle.untouched⟩
  | retrieve => exact ⟨trivial, by simp [serve], by simpa [serve] using ht.2, settles.refl t⟩

/-- **Run**: so does every sequence of requests. -/
theorem Settles.onward_run (settles : T.Settles v) (qs : List Request) (t : τ) :
    v.ladder.Onward (v.step t) (v.step ((T.serveAll qs).run t).state) := by
  induction qs generalizing t with
  | nil => exact .inl rfl
  | cons q qs ih => exact (settles.onward_serve q t).trans (ih _)

/-- A spent transport dismisses whatever it is asked for, and stays spent. -/
theorem Settles.rests_run (settles : T.Settles v) (qs : List Request) (ht : v.Spent t) :
    let o := (T.serveAll qs).run t
    v.Empty o.state ∧ v.Untouched t o.state ∧ AllDismissed qs o.answer ∧
      ∀ e ∈ o.events, e.isInward = true := by
  induction qs generalizing t with
  | nil => exact ⟨ht.2, settles.refl t, trivial, by simp [serveAll_nil]⟩
  | cons q qs ih =>
    obtain ⟨dismissed, inward, empty, untouched⟩ := settles.rests_serve q ht
    have stays := (settles.onward_serve q t).eq_of_isFinal ht.1
    have spent : v.Spent ((T.serve q).run t).state := ⟨by rw [stays]; exact ht.1, empty⟩
    obtain ⟨empties, same, all, quiet⟩ := ih spent
    refine ⟨empties, settles.trans _ _ _ untouched same, ⟨dismissed, all⟩, ?_⟩
    intro e he
    have parts : e ∈ ((T.serve q).run t).events ∨
        e ∈ ((T.serveAll qs).run ((T.serve q).run t).state).events := by
      simpa [serveAll_cons, serveAll_nil] using he
    exact parts.elim (inward e) (quiet e)

theorem Settles.final (settles : T.Settles v) : T.Final v where
  onward := settles.onward_run
  lasts receiver t qs failed := by
    have spent := (settles.establish receiver t).2.1 failed
    obtain ⟨empty, untouched, dismissed, inward⟩ := settles.rests_run qs spent
    exact ⟨spent, (settles.onward_run qs _).eq_of_isFinal spent.1, empty, untouched, dismissed, inward⟩

end

end Transport

open Transport (Ladder Outlook Settles Dismissed Event)

/-! ### TCP -/

namespace Tcp

variable (net : Network ω) (res : Resolver ρ) {t : Tcp ρ ω}

/-- Only the last step is final. -/
def Step.ladder : Ladder Step := ⟨Step.rank, fun s => s = .failed⟩

/-- What is held is a socket, connecting or connected. -/
def outlook : Outlook (Tcp ρ ω) Step where
  ladder := Step.ladder
  step t := t.step
  Empty t := t.dialling = none ∧ t.stream = none
  Untouched t u := u.resolver = t.resolver ∧ u.network = t.network

/-- The present step of the open. -/
def advance (net : Network ω) (res : Resolver ρ) (receiver : Receiver) :
    Act Effect (Tcp ρ ω) Progress := do
  match (← Act.get).step with
  | .resolve => pollResolve res
  | .connect => pollConnect net receiver
  | .opened => pure .done
  | .failed =>
    Act.emit (.note .alreadyFailed)
    pure .failed

/-- The end of a poll: a step that failed ends the open. -/
def conclude (net : Network ω) (answer : Progress) : Act Effect (Tcp ρ ω) Progress := do
  if answer = .failed then
    Act.modify (release net)
    setStep .failed
  return answer

/-- A poll of the open is the present step, then the end. -/
theorem run_establish (receiver : Receiver) (t : Tcp ρ ω) :
    (establish net res receiver).run t = (advance net res receiver >>= conclude net).run t := by
  cases hs : t.step with
  | resolve | connect | opened | failed => simp [establish, advance, conclude, hs]

/-- The present step takes the next one at most. -/
theorem advance_onward (receiver : Receiver) (t : Tcp ρ ω) :
    Step.ladder.Onward t.step ((advance net res receiver).run t).state.step := by
  cases hs : t.step with
  | resolve =>
    rcases ha : res.lookup t.hostname t.port t.resolver with ⟨answer, resolver⟩
    rcases answer with fault | _ | address
    · simp [advance, pollResolve, ha, hs, Ladder.Onward]
    · simp [advance, pollResolve, ha, hs, Ladder.Onward]
    · simp [advance, pollResolve, ha, hs, setStep, Ladder.Onward, Step.ladder, Step.rank]
  | connect =>
    cases ha : t.address with
    | none => simp [advance, pollConnect, ha, hs, Ladder.Onward]
    | some address =>
      rcases hc : (net.pollConnect t.dialling address (t.keepAlive.getD false)).run t.network with
        ⟨⟨answer, slot⟩, w, es⟩
      rcases answer with fault | _ | _
      · simp [advance, pollConnect, ha, hc, hs, Ladder.Onward]
      · simp [advance, pollConnect, ha, hc, hs, Ladder.Onward]
      · simp [advance, pollConnect, ha, hc, hs, setStep, Ladder.Onward, Step.ladder, Step.rank]
  | opened | failed => simp [advance, hs, Ladder.Onward]

/-- A poll that has failed ends the open, and gives everything back. -/
theorem conclude_failed (t : Tcp ρ ω) :
    ((conclude net .failed).run t).state = { release net t with step := .failed } := by
  simp [conclude, setStep]

theorem establish_onward (receiver : Receiver) (t : Tcp ρ ω) :
    Step.ladder.Onward t.step ((establish net res receiver).run t).state.step := by
  have first := advance_onward net res receiver t
  rw [run_establish, Act.run_bind]
  generalize (advance net res receiver).run t = o at first ⊢
  obtain ⟨answer, u, effects⟩ := o
  refine first.trans ?_
  by_cases ha : answer = .failed
  · subst ha
    show Step.ladder.Onward u.step ((conclude net .failed).run u).state.step
    rw [conclude_failed]
    cases hu : u.step with
    | resolve | connect | opened | failed => simp [Ladder.Onward, Step.ladder, Step.rank]
  · exact .inl (by simp [conclude, ha])

theorem step_read (t : Tcp ρ ω) : ((read net).run t).state.step = t.step := by
  cases hs : t.stream with
  | none => simp [read, hs]
  | some socket =>
    rcases ha : net.receive receiveBufferSize t.network with ⟨answer, w⟩
    rcases answer with cause | _ | _ | ⟨b, bytes⟩
    · simp [read, hs, ha]
    · simp [read, hs, ha]
    · simp [read, hs, ha]
    · cases hr : t.receiver with
      | none | some => simp [read, hs, ha, deliver, hr]

theorem step_setOption (name : String) (value : Setting) (t : Tcp ρ ω) :
    ((setOption net name value).run t).state.step = t.step := by
  by_cases hn : name = optionNames.keepAlive
  · cases hv : value.truth? with
    | none => simp [setOption, hn, hv]
    | some keepAlive =>
      cases hs : t.stream with
      | none => simp [setOption, hn, hv, hs]
      | some socket =>
        rcases hk : net.switchKeepAlive socket keepAlive t.network with ⟨_ | _, w⟩
        · simp [setOption, hn, hv, hs, hk]
        · simp [setOption, hn, hv, hs, hk]
  · simp [setOption, hn]

/-- The open of a TCP transport settles. -/
theorem settles : (transport net res).Settles outlook where
  establish receiver t := by
    refine ⟨establish_onward net res receiver t, ?_, ?_⟩
    · intro failed
      rw [transport, run_establish, Act.run_bind] at failed ⊢
      generalize (advance net res receiver).run t = o at failed ⊢
      obtain ⟨answer, u, effects⟩ := o
      by_cases ha : answer = .failed
      · subst ha
        show outlook.Spent ((conclude net .failed).run u).state
        rw [conclude_failed]
        exact ⟨rfl, rfl, rfl⟩
      · simp [conclude, ha] at failed
    · rintro ⟨final, dialling, stream⟩
      have failed : t.step = .failed := by simpa [outlook, Step.ladder] using final
      have run : (establish net res receiver).run t =
          ⟨.failed, { t with dialling := none, stream := none, receiver := none, step := .failed },
            [.note .alreadyFailed, .note (.tcpStep .failed .failed)]⟩ := by
        simp [establish, failed, release, socket?, dialling, stream, setStep]
      exact outlook.idle_of_run [.alreadyFailed, .tcpStep .failed .failed] run ⟨rfl, rfl⟩ ⟨rfl, rfl⟩
  close t := by
    refine ⟨rfl, ?_⟩
    rintro ⟨-, dialling, stream⟩
    have run : (close net).run t =
        ⟨.done, { t with dialling := none, stream := none, receiver := none }, []⟩ := by
      simp [close, release, socket?, dialling, stream]
    exact (outlook.idle_of_run [] run ⟨rfl, rfl⟩ ⟨rfl, rfl⟩).2
  read t := by
    refine ⟨step_read net t, ?_⟩
    rintro ⟨-, dialling, stream⟩
    have run : (read net).run t = ⟨.failed, t, []⟩ := by simp [read, stream]
    exact outlook.idle_of_run [] run ⟨dialling, stream⟩ ⟨rfl, rfl⟩
  write bytes t := by
    refine ⟨?_, ?_⟩
    · cases hs : t.stream with
      | none | some => simp [transport, outlook, write, hs]
    · rintro ⟨-, dialling, stream⟩
      have run : (write net bytes).run t = ⟨.error (.io (.bare .notConnected)), t, []⟩ := by
        simp [write, stream]
      obtain ⟨answer, idle⟩ := outlook.idle_of_run [] run ⟨dialling, stream⟩ ⟨rfl, rfl⟩
      exact ⟨⟨_, answer⟩, idle⟩
  setOption name value t := by
    refine ⟨step_setOption net name value t, ?_⟩
    rintro ⟨-, dialling, stream⟩
    -- Without a stream the option is kept or refused, and the network is not asked.
    have run : ∃ answer keepAlive, (setOption net name value).run t =
        ⟨answer, { t with keepAlive := keepAlive }, []⟩ := by
      by_cases hn : name = optionNames.keepAlive
      · cases hv : value.truth? with
        | none => exact ⟨_, t.keepAlive, by simp [setOption, hn, hv]; rfl⟩
        | some keepAlive => exact ⟨_, some keepAlive, by simp [setOption, hn, hv, stream]; rfl⟩
      · exact ⟨_, t.keepAlive, by simp [setOption, hn]; rfl⟩
    obtain ⟨answer, keepAlive, run⟩ := run
    exact (outlook.idle_of_run [] run ⟨dialling, stream⟩ ⟨rfl, rfl⟩).2
  refl t := ⟨rfl, rfl⟩
  trans t u w h₁ h₂ := ⟨h₂.1.trans h₁.1, h₂.2.trans h₁.2⟩

end Tcp

/-! ### TLS -/

namespace Tls

/-- An open ends in one of two steps: the check has failed, or something behind it. -/
def Step.ladder : Ladder Step := ⟨Step.rank, fun s => s = .validationFailed ∨ s = .failed⟩

section
variable {view : τ → View ε σ} {conclude : Progress → Act Effect τ Progress}

/-- A poll that has failed ends the open, and leaves no session behind. -/
theorem Ends.spent (ends : Ends view conclude) (t : τ) :
    let u := ((conclude .failed).run t).state
    Step.ladder.isFinal (view u).step = true ∧ (view u).layer.held = none ∧
      Step.ladder.Onward (view t).step (view u).step := by
  intro u
  obtain ⟨notes, -, -, state⟩ := ends.failed t
  have bare : (Layer.close.run (view t).layer).state.held = none := by
    cases hl : (view t).layer.held with
    | none => simp [Layer.close_bare hl, hl]
    | some h => simp [Layer.close_held hl]
  rw [show view u = _ from state]
  refine ⟨?_, bare, ?_⟩
  · by_cases hv : (view t).step = .validationFailed
    · simp [hv, Step.ladder]
    · simp [hv, Step.ladder]
  · cases hs : (view t).step with
    | validate | resolve | connect | initSession | handshake | validationFailed | failed =>
      simp [Ladder.Onward, Step.ladder, Step.rank]

/-- The end of a poll goes onward. -/
theorem Ends.onward (ends : Ends view conclude) (answer : Progress) (t : τ) :
    Step.ladder.Onward (view t).step (view ((conclude answer).run t).state).step := by
  by_cases ha : answer = .failed
  · rw [ha]
    exact (ends.spent t).2.2
  · exact .inl (by rw [ends.other answer t ha])

/-- A poll of the open: the check while it has not been made, the present step, and the end. -/
def polling (view : τ → View ε σ) (validate : Act Effect τ Unit) (advance : Act Effect τ Progress)
    (conclude : Progress → Act Effect τ Progress) : Act Effect τ Progress := do
  if (view (← Act.get)).step = .validate then validate
  conclude (← advance)

variable {validate : Act Effect τ Unit} {advance : Act Effect τ Progress} {t : τ}

/-- A poll is its present step and the end, from where the check has led. -/
theorem run_polling (view : τ → View ε σ) (validate : Act Effect τ Unit)
    (advance : Act Effect τ Progress) (conclude : Progress → Act Effect τ Progress) (t : τ) :
    let o := (polling view validate advance conclude).run t
    ∃ u, (u = t ∨ (view t).step = .validate ∧ u = (validate.run t).state) ∧
      o.answer = ((advance >>= conclude).run u).answer ∧
      o.state = ((advance >>= conclude).run u).state := by
  by_cases hv : (view t).step = .validate
  · exact ⟨_, .inr ⟨hv, rfl⟩, by simp [polling, hv], by simp [polling, hv]⟩
  · exact ⟨t, .inl rfl, by simp [polling, hv], by simp [polling, hv]⟩

/-- A poll goes onward if the check and the present step do. -/
theorem Ends.polling_onward (ends : Ends view conclude)
    (checks : ∀ t, (view t).step = .validate →
      Step.ladder.Onward (view t).step (view (validate.run t).state).step)
    (steps : ∀ t, Step.ladder.Onward (view t).step (view (advance.run t).state).step) (t : τ) :
    Step.ladder.Onward (view t).step
      (view ((polling view validate advance conclude).run t).state).step := by
  obtain ⟨u, start, -, state⟩ := run_polling view validate advance conclude t
  have behind : Step.ladder.Onward (view u).step (view ((advance >>= conclude).run u).state).step := by
    rw [Act.run_bind]
    exact (steps u).trans (ends.onward _ _)
  rw [state]
  rcases start with rfl | ⟨hv, rfl⟩
  · exact behind
  · exact (checks t hv).trans behind

/-- A poll that answers that it has failed has ended the open. -/
theorem Ends.polling_failed (ends : Ends view conclude)
    (failed : ((polling view validate advance conclude).run t).answer = .failed) :
    ∃ w, ((polling view validate advance conclude).run t).state =
      ((conclude .failed).run w).state := by
  obtain ⟨u, -, answer, state⟩ := run_polling view validate advance conclude t
  rw [answer, Act.run_bind] at failed
  rw [state, Act.run_bind]
  generalize advance.run u = o at failed ⊢
  obtain ⟨reply, w, effects⟩ := o
  by_cases ha : reply = .failed
  · exact ⟨w, by rw [ha]⟩
  · rw [ends.other reply w ha] at failed
    exact absurd failed ha

end

namespace Layer

variable (eng : Engine ε σ) {l : Layer σ}

theorem read_bare (hl : l.held = none) : (read eng).run l = ⟨.failed, l, []⟩ := by
  simp [read, hl]

theorem write_bare (hl : l.held = none) (bytes : Bytes) :
    (write eng bytes).run l = ⟨.error (.tls "no open session"), l, []⟩ := by
  simp [write, hl]

/-- Setting an option changes the options alone, and at most reports. -/
theorem setOption_notes (l : Layer σ) (name : String) (value : Setting) :
    ∃ answer, ∃ notes : List Note, (setOption name value).run l =
      ⟨answer, { l with options := l.options.after (name, value) }, notes.map .note⟩ := by
  obtain ⟨state, -, notes, events⟩ := Options.run_setOption l name value
  exact ⟨_, notes, by rw [← state, ← events]⟩

end Layer

/-! ### Over a given carrier -/

namespace OverGiven

variable (eng : Engine ε σ)

/-- What is held is the carrier, or the session over it. -/
def outlook : Outlook (OverGiven ε σ) Step where
  ladder := Step.ladder
  step t := t.step
  Empty t := t.layer.held = none ∧ t.carrier = none
  Untouched t u := u.engine = t.engine

/-- The present step takes the next one at most. -/
theorem advance_onward (receiver : Receiver) (t : OverGiven ε σ) :
    Step.ladder.Onward t.step ((advance eng receiver).run t).state.step := by
  cases hs : t.step with
  | initSession =>
    cases hc : t.carrier with
    | none => simp [advance, hs, initSession, hc, Ladder.Onward]
    | some c =>
      rcases hr : (Layer.requestSession eng c receiver t.engine).run t.layer with
        ⟨⟨_ | _, engine⟩, l, es⟩
      · simp [advance, hs, initSession, hc, onLayer, hr, Ladder.Onward]
      · simp [advance, hs, initSession, hc, onLayer, hr, setStep, Ladder.Onward, Step.ladder, Step.rank]
  | validate | resolve | connect | handshake | validationFailed | failed =>
    simp [advance, hs, onLayer, Ladder.Onward]

theorem establish_eq (receiver : Receiver) (t : OverGiven ε σ) : (establish eng receiver).run t =
    (polling view validate (advance eng receiver) conclude).run t :=
  run_establish eng receiver t

theorem establish_onward (receiver : Receiver) (t : OverGiven ε σ) :
    Step.ladder.Onward t.step ((establish eng receiver).run t).state.step := by
  have checks (t : OverGiven ε σ) (hv : t.step = .validate) :
      Step.ladder.Onward t.step (validate.run t).state.step := by
    obtain ⟨notes, checked⟩ := run_validate t
    rw [checked, hv]
    cases t.layer.options.isConsistent with
    | true | false => simp [Ladder.Onward, Step.ladder, Step.rank]
  rw [establish_eq]
  exact ends.polling_onward checks (advance_onward eng receiver) t

theorem carrier_conclude (t : OverGiven ε σ) :
    ((conclude .failed).run t).state.carrier = none := by
  by_cases hv : t.step = .validationFailed
  · simp [conclude, onLayer, hv]
  · simp [conclude, onLayer, hv, setStep]

/-- A poll that answers that it has failed leaves the transport spent. -/
theorem establish_spent (receiver : Receiver) (t : OverGiven ε σ)
    (failed : ((establish eng receiver).run t).answer = .failed) :
    outlook.Spent ((establish eng receiver).run t).state := by
  rw [establish_eq] at failed ⊢
  obtain ⟨w, ended⟩ := ends.polling_failed failed
  obtain ⟨final, bare, -⟩ := ends.spent w
  rw [ended]
  exact ⟨final, bare, carrier_conclude w⟩

/-- A spent transport only reports that its open is over. -/
theorem establish_idle (receiver : Receiver) {t : OverGiven ε σ} (ht : outlook.Spent t) :
    ((establish eng receiver).run t).answer = .failed ∧
      outlook.Idle t ((establish eng receiver).run t) := by
  obtain ⟨final, bare, carrier⟩ := ht
  have closed := Layer.close_bare bare
  have final : t.step = .validationFailed ∨ t.step = .failed := by
    simpa [outlook, Step.ladder] using final
  rcases final with hs | hs
  · have run : (establish eng receiver).run t =
        ⟨.failed, { t with layer := { t.layer with receiver := none }, carrier := none }, []⟩ := by
      simp [establish, hs, onLayer, closed]
    exact outlook.idle_of_run [] run ⟨bare, rfl⟩ rfl
  · have run : (establish eng receiver).run t =
        ⟨.failed,
          { t with layer := { t.layer with receiver := none }, carrier := none, step := .failed },
          [.note .alreadyFailed, .note (.tlsStep .failed .failed)]⟩ := by
      simp [establish, hs, onLayer, closed, setStep]
    exact outlook.idle_of_run [.alreadyFailed, .tlsStep .failed .failed] run ⟨bare, rfl⟩ rfl

/-- What is done to the layer alone, and leaves it without a session. -/
theorem idle_onLayer {α : Type} {m : Act Effect (Layer σ) α} {t : OverGiven ε σ} {answer : α}
    {l : Layer σ} (ht : outlook.Spent t) (notes : List Note)
    (run : m.run t.layer = ⟨answer, l, notes.map .note⟩) (bare : l.held = none) :
    ((onLayer m).run t).answer = answer ∧ outlook.Idle t ((onLayer m).run t) := by
  have outer : (onLayer m).run t = ⟨answer, { t with layer := l }, notes.map .note⟩ := by
    simp [onLayer, run]
  exact outlook.idle_of_run notes outer ⟨bare, ht.2.2⟩ rfl

/-- The open of a TLS transport over a given carrier settles. -/
theorem settles : (transport eng).Settles outlook where
  establish receiver t :=
    ⟨establish_onward eng receiver t, establish_spent eng receiver t, establish_idle eng receiver⟩
  close t := by
    refine ⟨rfl, fun ht => ?_⟩
    have run : (close (ε := ε)).run t =
        ⟨.done, { t with layer := { t.layer with receiver := none } }, []⟩ := by
      simp [close, onLayer, Layer.close_bare ht.2.1]
    exact (outlook.idle_of_run [] run ht.2 rfl).2
  read t := ⟨rfl, fun ht => idle_onLayer ht [] (Layer.read_bare eng ht.2.1) ht.2.1⟩
  write bytes t := by
    refine ⟨rfl, fun ht => ?_⟩
    obtain ⟨answer, idle⟩ := idle_onLayer ht [] (Layer.write_bare eng ht.2.1 bytes) ht.2.1
    exact ⟨⟨_, answer⟩, idle⟩
  setOption name value t := by
    refine ⟨rfl, fun ht => ?_⟩
    obtain ⟨answer, notes, run⟩ := Layer.setOption_notes t.layer name value
    exact (idle_onLayer ht notes run ht.2.1).2
  refl t := rfl
  trans t u w h₁ h₂ := h₂.trans h₁

end OverGiven

/-! ### TLS over TCP -/

namespace OverTcp

variable (eng : Engine ε σ) (net : Network ω) (res : Resolver ρ)

/-- What is held is the socket, or the session over it. -/
def outlook : Outlook (OverTcp ε σ ρ ω) Step where
  ladder := Step.ladder
  step t := t.step
  Empty t := t.layer.held = none ∧ t.socket = none
  Untouched t u := u.engine = t.engine ∧ u.resolver = t.resolver ∧ u.network = t.network

theorem pollResolve_onward {t : OverTcp ε σ ρ ω} (hs : t.step = .resolve) :
    Step.ladder.Onward t.step ((pollResolve res).run t).state.step := by
  rcases ha : res.lookup t.layer.hostname t.layer.port t.resolver with ⟨answer, resolver⟩
  rcases answer with fault | _ | address
  · simp [pollResolve, ha, Ladder.Onward]
  · simp [pollResolve, ha, Ladder.Onward]
  · simp [pollResolve, ha, hs, setStep, Ladder.Onward, Step.ladder, Step.rank]

theorem pollConnect_onward {t : OverTcp ε σ ρ ω} (hs : t.step = .connect) :
    Step.ladder.Onward t.step ((pollConnect net).run t).state.step := by
  cases ha : t.address with
  | none => simp [pollConnect, ha, Ladder.Onward]
  | some address =>
    rcases hc : (net.pollConnect t.socket address (t.keepAlive.getD false)).run t.network with
      ⟨⟨answer, slot⟩, w, es⟩
    rcases answer with fault | _ | _
    · simp [pollConnect, ha, hc, Ladder.Onward]
    · simp [pollConnect, ha, hc, Ladder.Onward]
    · simp [pollConnect, ha, hc, hs, setStep, Ladder.Onward, Step.ladder, Step.rank]

theorem initSession_onward (receiver : Receiver) {t : OverTcp ε σ ρ ω} (hs : t.step = .initSession) :
    Step.ladder.Onward t.step ((initSession eng net receiver).run t).state.step := by
  cases hc : t.socket with
  | none => simp [initSession, hc, Ladder.Onward]
  | some socket =>
    rcases hr : (Layer.requestSession eng (.stream socket) receiver t.engine).run t.layer with
      ⟨⟨_ | _, engine⟩, l, es⟩
    · simp [initSession, hc, onLayer, hr, Ladder.Onward]
    · simp [initSession, hc, hs, onLayer, hr, setStep, Ladder.Onward, Step.ladder, Step.rank]

/-- The present step takes the next one at most. -/
theorem advance_onward (receiver : Receiver) (t : OverTcp ε σ ρ ω) :
    Step.ladder.Onward t.step ((advance eng net res receiver).run t).state.step := by
  cases hs : t.step with
  | resolve => simpa [advance, hs] using pollResolve_onward res hs
  | connect => simpa [advance, hs] using pollConnect_onward net hs
  | initSession => simpa [advance, hs] using initSession_onward eng net receiver hs
  | validate | handshake | validationFailed | failed => simp [advance, hs, onLayer, Ladder.Onward]

theorem establish_eq (receiver : Receiver) (t : OverTcp ε σ ρ ω) :
    (establish eng net res receiver).run t =
      (polling view validate (advance eng net res receiver) (conclude net)).run t :=
  run_establish eng net res receiver t

theorem establish_onward (receiver : Receiver) (t : OverTcp ε σ ρ ω) :
    Step.ladder.Onward t.step ((establish eng net res receiver).run t).state.step := by
  have checks (t : OverTcp ε σ ρ ω) (hv : t.step = .validate) :
      Step.ladder.Onward t.step (validate.run t).state.step := by
    rw [(run_validate t).1, hv]
    cases t.layer.options.isConsistent with
    | true | false => simp [Ladder.Onward, Step.ladder, Step.rank]
  rw [establish_eq]
  exact (ends net).polling_onward checks (advance_onward eng net res receiver) t

theorem socket_conclude (t : OverTcp ε σ ρ ω) :
    ((conclude net .failed).run t).state.socket = none := by
  obtain ⟨-, -, -, step⟩ := close_view net t
  have socket : ((close net).run t).state.socket = none := by simp [close]
  by_cases hv : t.step = .validationFailed
  · simp [conclude, step, hv, socket]
  · simp [conclude, step, hv, setStep, socket]

/-- A poll that answers that it has failed leaves the transport spent. -/
theorem establish_spent (receiver : Receiver) (t : OverTcp ε σ ρ ω)
    (failed : ((establish eng net res receiver).run t).answer = .failed) :
    outlook.Spent ((establish eng net res receiver).run t).state := by
  rw [establish_eq] at failed ⊢
  obtain ⟨w, ended⟩ := (ends net).polling_failed failed
  obtain ⟨final, bare, -⟩ := (ends net).spent w
  rw [ended]
  exact ⟨final, bare, socket_conclude net w⟩

/-- Closing a spent transport forgets the receiver, and no more. -/
theorem close_idle {t : OverTcp ε σ ρ ω} (bare : t.layer.held = none) (socket : t.socket = none) :
    (close net).run t = ⟨.done, { t with layer := { t.layer with receiver := none } }, []⟩ := by
  have nothing : t.socket? = none := by simp [socket?, bare, socket]
  simp [close, nothing, onLayer, Layer.close_bare bare, socket]

/-- A spent transport only reports that its open is over. -/
theorem establish_idle (receiver : Receiver) {t : OverTcp ε σ ρ ω} (ht : outlook.Spent t) :
    ((establish eng net res receiver).run t).answer = .failed ∧
      outlook.Idle t ((establish eng net res receiver).run t) := by
  obtain ⟨final, bare, socket⟩ := ht
  have closed := close_idle net bare socket
  have final : t.step = .validationFailed ∨ t.step = .failed := by
    simpa [outlook, Step.ladder] using final
  rcases final with hs | hs
  · have run : (establish eng net res receiver).run t =
        ⟨.failed, { t with layer := { t.layer with receiver := none } }, []⟩ := by
      simp [establish, hs, closed]
    exact outlook.idle_of_run [] run ⟨bare, socket⟩ ⟨rfl, rfl, rfl⟩
  · have run : (establish eng net res receiver).run t =
        ⟨.failed, { t with layer := { t.layer with receiver := none }, step := .failed },
          [.note .alreadyFailed, .note (.tlsStep .failed .failed)]⟩ := by
      simp [establish, hs, closed, setStep]
    exact outlook.idle_of_run [.alreadyFailed, .tlsStep .failed .failed] run ⟨bare, socket⟩
      ⟨rfl, rfl, rfl⟩

/-- What is done to the layer alone, and leaves it without a session. -/
theorem idle_onLayer {α : Type} {m : Act Effect (Layer σ) α} {t : OverTcp ε σ ρ ω} {answer : α}
    {l : Layer σ} (ht : outlook.Spent t) (notes : List Note)
    (run : m.run t.layer = ⟨answer, l, notes.map .note⟩) (bare : l.held = none) :
    ((onLayer m).run t).answer = answer ∧ outlook.Idle t ((onLayer m).run t) := by
  have outer : (onLayer m).run t = ⟨answer, { t with layer := l }, notes.map .note⟩ := by
    simp [onLayer, run]
  exact outlook.idle_of_run notes outer ⟨bare, ht.2.2⟩ ⟨rfl, rfl, rfl⟩

/-- Without a socket, the keepalive option is kept for the next one, and the network is not asked. -/
theorem setOption_idle (name : String) (value : Setting) {t : OverTcp ε σ ρ ω} (ht : outlook.Spent t) :
    outlook.Idle t ((setOption net name value).run t) := by
  by_cases hn : name = optionNames.keepAlive
  · obtain ⟨-, bare, socket⟩ := ht
    have run : ∃ answer keepAlive, (setOption net name value).run t =
        ⟨answer, { t with keepAlive := keepAlive }, []⟩ := by
      cases hv : value.truth? with
      | none => exact ⟨_, t.keepAlive, by simp [setOption, hn, hv]; rfl⟩
      | some keepAlive =>
        exact ⟨_, some keepAlive, by simp [setOption, hn, hv, socket, bare]; rfl⟩
    obtain ⟨answer, keepAlive, run⟩ := run
    exact (outlook.idle_of_run [] run ⟨bare, socket⟩ ⟨rfl, rfl, rfl⟩).2
  · obtain ⟨answer, notes, run⟩ := Layer.setOption_notes t.layer name value
    simpa [setOption, hn] using (idle_onLayer ht notes run ht.2.1).2

/-- The open of a TLS transport over TCP settles. -/
theorem settles : (transport eng net res).Settles outlook where
  establish receiver t :=
    ⟨establish_onward eng net res receiver t, establish_spent eng net res receiver t,
      establish_idle eng net res receiver⟩
  close t := by
    refine ⟨(close_view net t).2.2.2, fun ht => ?_⟩
    exact (outlook.idle_of_run [] (close_idle net ht.2.1 ht.2.2) ht.2 ⟨rfl, rfl, rfl⟩).2
  read t := ⟨rfl, fun ht => idle_onLayer ht [] (Layer.read_bare eng ht.2.1) ht.2.1⟩
  write bytes t := by
    refine ⟨rfl, fun ht => ?_⟩
    obtain ⟨answer, idle⟩ := idle_onLayer ht [] (Layer.write_bare eng ht.2.1 bytes) ht.2.1
    exact ⟨⟨_, answer⟩, idle⟩
  setOption name value t := ⟨(run_setOption net t name value).1, setOption_idle net name value⟩
  refl t := ⟨rfl, rfl, rfl⟩
  trans t u w h₁ h₂ := ⟨h₂.1.trans h₁.1, h₂.2.1.trans h₁.2.1, h₂.2.2.trans h₁.2.2⟩

end OverTcp

end Tls

/-! ### The theorem -/

open Tls (directly dealings Holding)

/-- **A failed open is final.** Take any of the three transports, with any network, resolver and
    engine, in any state, and ask it for anything in any order. Then the step of its open only goes
    onward, and stays at a failed one. Once an open has failed, nothing is held any more: no socket, no
    carrier, no session. Every later open and read fails and every write is an error, and neither
    resolver nor network nor engine are asked for anything, whatever comes in between.

    A session that was created is closed by the time an open comes back as failed. -/
theorem failed_open_final (eng : Tls.Engine ε σ) (net : Network ω) (res : Resolver ρ) (engine : ε)
    (resolver : ρ) (network : ω) (carrier : Carrier) (endpoint : Endpoint)
    (qs : List Transport.Request) :
    let given := directly (Tls.OverGiven.transport eng)
      (Tls.OverGiven.create eng engine carrier endpoint) qs
    let overTcp := directly (Tls.OverTcp.transport eng net res)
      (Tls.OverTcp.create eng net res engine resolver network endpoint) qs
    (Tcp.transport net res).Final Tcp.outlook ∧
    (Tls.OverTcp.transport eng net res).Final Tls.OverTcp.outlook ∧
    (Tls.OverGiven.transport eng).Final Tls.OverGiven.outlook ∧
    (∀ pre post, given = pre ++ .called (.establish .failed) :: post → ¬ Holding (dealings pre)) ∧
    (∀ pre post, overTcp = pre ++ .called (.establish .failed) :: post → ¬ Holding (dealings pre)) := by
  intro given overTcp
  obtain ⟨tenure, -⟩ := (Tls.OverGiven.conduct eng carrier).tenure
    (Tls.OverGiven.create_begins eng engine carrier endpoint) qs
  obtain ⟨tenureTcp, -⟩ := (Tls.OverTcp.conduct eng net res).tenure
    (Tls.OverTcp.create_begins eng net res engine resolver network endpoint) qs
  exact ⟨(Tcp.settles net res).final, (Tls.OverTcp.settles eng net res).final,
    (Tls.OverGiven.settles eng).final, fun pre post split => tenure.order pre _ post split,
    fun pre post split => tenureTcp.order pre _ post split⟩

/-- A handshake that fails: the session is closed, and no read or write reaches it afterwards. -/
example :
    let made := Tls.OverGiven.create Script.Engine.engine
      ⟨⟨true, true, true, false⟩, [], ⟨[.failed], [], []⟩⟩ (.given "carrier") (.of "host" 443)
    (directly (Tls.OverGiven.transport Script.Engine.engine) made
        [.establish ⟨"first"⟩, .establish ⟨"first"⟩, .close, .read, .write [1], .establish ⟨"second"⟩]
      ).filterMap (fun e => match e with | .called call => some call | .effect _ => none) =
      [.establish .waiting, .establish .failed, .close .done, .read .failed,
        .write [1] (.error (.tls "no open session")), .establish .failed] := by
  decide

end PolledConnection
