import PolledConnection.Proofs.Finality
import PolledConnection.Proofs.Polls.Forecast
import PolledConnection.Proofs.Tls.Reception

/-! # Looking the host name up

  A transport of its own socket searches the address of its host until the
  resolver gives it. From then on it never asks again, whatever is requested of
  it (`lookups_end`). A lookup that fails, or finds nothing yet, leaves the
  transport as it was, so the next poll just looks again.
-/

namespace PolledConnection

variable {ε σ ρ ω α τ : Type}

/-! ### Searches -/

/-- The answer of the resolver that an effect tells of. -/
def Effect.lookup? : Effect → Option (Except Fault (Option Address))
  | .lookedUp _ _ answer => some answer
  | _ => none

/-- The answers of the resolver. -/
def lookups (es : List Effect) : List (Except Fault (Option Address)) := es.filterMap Effect.lookup?

@[simp] theorem lookups_nil : lookups [] = [] := rfl

@[simp] theorem lookups_cons (e : Effect) (es : List Effect) :
    lookups (e :: es) = e.lookup?.toList ++ lookups es := by
  cases h : e.lookup? <;> simp [lookups, h]

@[simp] theorem lookups_append (es fs : List Effect) : lookups (es ++ fs) = lookups es ++ lookups fs :=
  List.filterMap_append

@[simp] theorem lookups_notes (notes : List Note) : lookups (notes.map .note) = [] := by
  simp [lookups, List.filterMap_map, Function.comp_def, Effect.lookup?]

/-- A stretch of a run, in which the address may be searched at first. It is looked up at most once, or
    not at all, and not any more once it is known. -/
def Searches (Searching : τ → Prop) (s : τ) (es : List Effect) (u : τ) : Prop :=
  lookups es = [] ∧ (Searching u → Searching s) ∨
    Searching s ∧ ∃ answer, lookups es = [answer] ∧ (addressIn answer ≠ none → ¬ Searching u)

@[simp] theorem effects_recorded {m : Act Effect τ α} {call : α → Transport.Call} (s : τ) :
    Tls.effects ((Transport.recorded m call).run s).events = (m.run s).events := by
  simp [Transport.recorded]

@[simp] theorem effects_unrecorded {m : Act Effect τ α} (s : τ) :
    Tls.effects ((Transport.unrecorded m).run s).events = (m.run s).events := by
  simp [Transport.unrecorded]

/-- The transport looks nothing up but in a poll of the open. -/
structure Transport.LooksUpInPolls (T : Transport τ) : Prop where
  close : ∀ s, lookups (T.close.run s).events = []
  read : ∀ s, lookups (T.read.run s).events = []
  write : ∀ bytes s, lookups ((T.write bytes).run s).events = []
  setOption : ∀ name value s, lookups ((T.setOption name value).run s).events = []

section
variable {T : Transport τ} {Searching : τ → Prop}

/-- **Step**: a request searches as the polls do, if none goes back to the search. -/
theorem Transport.LooksUpInPolls.serve (others : T.LooksUpInPolls)
    (polls : ∀ receiver s, Searches Searching s ((T.establish receiver).run s).events
      ((T.establish receiver).run s).state)
    (back : ∀ q s, Searching ((T.serve q).run s).state → Searching s) (q : Transport.Request) (s : τ) :
    Searches Searching s (Tls.effects ((T.serve q).run s).events) ((T.serve q).run s).state := by
  cases q with
  | establish receiver =>
    have poll := polls receiver s
    simpa [Transport.serve, Transport.recorded] using poll
  | close =>
    have nothing := others.close s
    exact .inl ⟨by simpa [Transport.serve] using nothing, back _ s⟩
  | read =>
    have nothing := others.read s
    exact .inl ⟨by simpa [Transport.serve] using nothing, back _ s⟩
  | write bytes =>
    have nothing := others.write bytes s
    exact .inl ⟨by simpa [Transport.serve, Transport.offer] using nothing, back _ s⟩
  | setOption name value =>
    have nothing := others.setOption name value s
    exact .inl ⟨by simpa [Transport.serve] using nothing, back _ s⟩
  | retrieve => exact .inl ⟨rfl, id⟩

/-- Once the address is not searched any more it is never looked up. -/
theorem lookups_settled
    (step : ∀ q s,
      Searches Searching s (Tls.effects ((T.serve q).run s).events) ((T.serve q).run s).state)
    {s : τ} (settled : ¬ Searching s) (qs : List Transport.Request) :
    lookups (Tls.effects ((T.serveAll qs).run s).events) = [] := by
  induction qs generalizing s with
  | nil => rfl
  | cons q qs ih =>
    rcases step q s with ⟨none, back⟩ | ⟨searching, -⟩
    · have later := ih (s := ((T.serve q).run s).state) fun searching => settled (back searching)
      simp [Transport.serveAll_cons, none, later]
    · exact absurd searching settled

/-- **Run**: an address is the last thing that the resolver is asked for. -/
theorem lookups_end
    (step : ∀ q s,
      Searches Searching s (Tls.effects ((T.serve q).run s).events) ((T.serve q).run s).state)
    (qs : List Transport.Request) (s : τ) {early late : List (Except Fault (Option Address))}
    {answer : Except Fault (Option Address)}
    (split : lookups (Tls.effects ((T.serveAll qs).run s).events) = early ++ answer :: late)
    (found : addressIn answer ≠ none) : late = [] := by
  induction qs generalizing s early with
  | nil => simp [Transport.serveAll_nil] at split
  | cons q qs ih =>
    simp only [Transport.serveAll_cons, Act.run_bind, Act.run_pure, List.append_nil, Tls.effects_append,
      lookups_append] at split
    rcases step q s with ⟨none, -⟩ | ⟨-, first, one, known⟩
    · rw [none, List.nil_append] at split
      exact ih _ split
    · rw [one, List.singleton_append] at split
      cases early with
      | nil =>
        -- The address came now, so it is not searched from here on.
        obtain ⟨rfl, rest⟩ := List.cons.inj split
        rw [← rest]
        exact lookups_settled step (known found) qs
      | cons other early => exact ih _ (List.cons.inj split).2

end

theorem lookups_pollConnect (net : Network ω) (slot : Option Socket) (peer : Address)
    (keepAlive : Bool) (w : ω) :
    lookups ((net.pollConnect slot peer keepAlive).run w).events = [] := by
  cases slot with
  | some socket => simp [Network.pollConnect, Effect.lookup?]
  | none =>
    rcases hd : net.dial peer keepAlive w with ⟨dialled, note, w'⟩
    cases dialled with
    | error cause => simp [Network.pollConnect, hd, Effect.lookup?]
    | ok socket => simp [Network.pollConnect, hd, Effect.lookup?]

namespace Tcp

variable (net : Network ω) (res : Resolver ρ) (t : Tcp ρ ω)

/-- A poll of a lookup only waits. It changes nothing but the resolver if it finds no address. -/
theorem run_lookup (receiver : Receiver) (hs : t.step = .resolve) :
    let o := (establish net res receiver).run t
    let asked := res.lookup t.hostname t.port t.resolver
    o.answer = .waiting ∧ lookups o.events = [asked.1] ∧
      (addressIn asked.1 = none → o.state = { t with resolver := asked.2 }) ∧
      (addressIn asked.1 ≠ none → o.state.step = .connect) := by
  rcases ha : res.lookup t.hostname t.port t.resolver with ⟨fault | _ | address, resolver⟩
  · simp [establish, hs, pollResolve, ha, addressIn, Effect.lookup?]
  · simp [establish, hs, pollResolve, ha, addressIn, Effect.lookup?]
  · simp [establish, hs, pollResolve, ha, addressIn, setStep, Effect.lookup?]

/-- The other polls look nothing up. -/
theorem lookups_establish (receiver : Receiver) (hs : t.step ≠ .resolve) :
    lookups ((establish net res receiver).run t).events = [] := by
  have advances : lookups ((advance net res receiver).run t).events = [] := by
    cases step : t.step with
    | resolve => contradiction
    | connect =>
      cases ha : t.address with
      | none => simp [advance, step, pollConnect, ha]
      | some peer =>
        have silent := lookups_pollConnect net t.dialling peer (t.keepAlive.getD false) t.network
        rcases hc : (net.pollConnect t.dialling peer (t.keepAlive.getD false)).run t.network with
          ⟨⟨fault | _ | _, slot⟩, w, es⟩
        · simpa [advance, step, pollConnect, ha, hc, Effect.lookup?] using silent
        · simpa [advance, step, pollConnect, ha, hc, Effect.lookup?] using silent
        · simpa [advance, step, pollConnect, ha, hc, setStep, Effect.lookup?] using silent
    | opened | failed => simp [advance, step, Effect.lookup?]
  rw [run_establish, Act.run_bind, lookups_append, advances]
  by_cases ha : ((advance net res receiver).run t).answer = .failed
  · simp [conclude, ha, setStep, Effect.lookup?]
  · simp [conclude, ha]

theorem looksUpInPolls : (transport (ρ := ρ) net res).LooksUpInPolls where
  close t := rfl
  read t := by
    show lookups ((Tcp.read net).run t).events = []
    cases hs : t.stream with
    | none => simp [Tcp.read, hs]
    | some socket =>
      rcases ha : net.receive receiveBufferSize t.network with ⟨cause | _ | _ | ⟨b, bytes⟩, w⟩
      · simp [Tcp.read, hs, ha, Effect.lookup?]
      · simp [Tcp.read, hs, ha]
      · simp [Tcp.read, hs, ha, Effect.lookup?]
      · cases hr : t.receiver with
        | none | some => simp [Tcp.read, hs, ha, deliver, hr, Effect.lookup?]
  write bytes t := by
    show lookups ((Tcp.write net bytes).run t).events = []
    cases hs : t.stream with
    | none | some => simp [Tcp.write, hs]
  setOption name value t := by
    show lookups ((setOption net name value).run t).events = []
    by_cases hn : name = optionNames.keepAlive
    · cases hv : value.truth? with
      | none => simp [setOption, hn, hv]
      | some on =>
        cases hs : t.stream with
        | none => simp [setOption, hn, hv, hs]
        | some socket =>
          rcases hk : net.switchKeepAlive socket on t.network with ⟨_ | _, w⟩
          · simp [setOption, hn, hv, hs, hk]
          · simp [setOption, hn, hv, hs, hk]
    · simp [setOption, hn]

/-- Whether the address is still searched. -/
def Searching (t : Tcp ρ ω) : Prop := t.step = .resolve

/-- No step goes back to the search. -/
theorem searching_of_onward {t u : Tcp ρ ω} (onward : Step.ladder.Onward t.step u.step)
    (searching : Searching u) : Searching t := by
  unfold Searching at searching ⊢
  rcases onward with same | ⟨-, later⟩
  · exact same.symm.trans searching
  · simp [searching, Step.ladder, Step.rank] at later

/-- **Step**: a request looks the address up at most once, while it is searched. -/
theorem serve_searches (q : Transport.Request) :
    Searches Searching t (Tls.effects (((transport net res).serve q).run t).events)
      (((transport net res).serve q).run t).state := by
  apply (looksUpInPolls net res).serve
  · intro receiver t
    by_cases searching : t.step = .resolve
    · obtain ⟨-, asked, -, known⟩ := run_lookup net res t receiver searching
      refine .inr ⟨searching, _, asked, fun found again => ?_⟩
      have connects := known found
      rw [show ((establish net res receiver).run t).state.step = .resolve from again] at connects
      contradiction
    · exact .inl ⟨lookups_establish net res t receiver searching,
        searching_of_onward (establish_onward net res receiver t)⟩
  · intro q t
    exact searching_of_onward ((settles net res).onward_serve q t)

/-- A poll that looks up only waits, and one that finds no address leaves all but the resolver as it
    was. -/
theorem lookup_waits (receiver : Receiver) {answer : Except Fault (Option Address)}
    (asked : answer ∈ lookups ((establish net res receiver).run t).events) :
    let o := (establish net res receiver).run t
    o.answer = .waiting ∧
      (addressIn answer = none → o.state = { t with resolver := o.state.resolver }) := by
  by_cases searching : t.step = .resolve
  · obtain ⟨waiting, one, unknown, -⟩ := run_lookup net res t receiver searching
    rw [one, List.mem_singleton] at asked
    subst asked
    refine ⟨waiting, fun none => ?_⟩
    rw [unknown none]
  · rw [lookups_establish net res t receiver searching] at asked
    simp at asked

end Tcp

namespace Tls.OverTcp

variable (eng : Engine ε σ) (net : Network ω) (res : Resolver ρ) (t : OverTcp ε σ ρ ω)

/-- Whether the address is still searched. -/
def Searching (t : OverTcp ε σ ρ ω) : Prop := t.step = .validate ∨ t.step = .resolve

/-- A poll of a lookup only waits. It changes nothing but the resolver if it finds no address. -/
theorem run_lookup (receiver : Receiver) (hs : t.step = .resolve) :
    let o := (establish eng net res receiver).run t
    let asked := res.lookup t.layer.hostname t.layer.port t.resolver
    o.answer = .waiting ∧ lookups o.events = [asked.1] ∧
      (addressIn asked.1 = none → o.state = { t with resolver := asked.2 }) ∧
      (addressIn asked.1 ≠ none → o.state.step = .connect) := by
  rcases ha : res.lookup t.layer.hostname t.layer.port t.resolver with ⟨fault | _ | address, resolver⟩
  · simp [establish, hs, pollResolve, ha, addressIn, Effect.lookup?]
  · simp [establish, hs, pollResolve, ha, addressIn, Effect.lookup?]
  · simp [establish, hs, pollResolve, ha, addressIn, setStep, Effect.lookup?]

theorem lookups_close : lookups ((close net).run t).events = [] := by
  have silent : lookups (Layer.close.run t.layer).events = [] := by
    cases hl : t.layer.held with
    | none => simp [Layer.close_bare hl]
    | some h => simp [Layer.close_held hl, Effect.lookup?]
  by_cases held : t.socket?.isSome = true
  · simpa [close, onLayer, held] using silent
  · simpa [close, onLayer, held] using silent

/-- The end of a poll looks nothing up. -/
theorem lookups_conclude (answer : Progress) : lookups ((conclude net answer).run t).events = [] := by
  have silent := lookups_close net t
  by_cases ha : answer = .failed
  · by_cases hv : ((close net).run t).state.step = .validationFailed
    · simpa [conclude, ha, hv] using silent
    · simpa [conclude, ha, hv, setStep, Effect.lookup?] using silent
  · simp [conclude, ha]

/-- The steps behind the search look nothing up. -/
theorem lookups_advance (receiver : Receiver) (hs : t.step ≠ .resolve) :
    lookups ((advance eng net res receiver).run t).events = [] := by
  cases step : t.step with
  | resolve => contradiction
  | connect =>
    cases ha : t.address with
    | none => simp [advance, step, pollConnect, ha]
    | some peer =>
      have silent := lookups_pollConnect net t.socket peer (t.keepAlive.getD false) t.network
      rcases hc : (net.pollConnect t.socket peer (t.keepAlive.getD false)).run t.network with
        ⟨⟨fault | _ | _, slot⟩, w, es⟩
      · simpa [advance, step, pollConnect, ha, hc, Effect.lookup?] using silent
      · simpa [advance, step, pollConnect, ha, hc, Effect.lookup?] using silent
      · simpa [advance, step, pollConnect, ha, hc, setStep, Effect.lookup?] using silent
  | initSession =>
    cases hc : t.socket with
    | none => simp [advance, step, initSession, hc]
    | some socket =>
      rcases ha : eng.create t.layer.options t.layer.hostname t.layer.port (.stream socket) t.engine
        with ⟨_ | _, e⟩
      · simp [advance, step, initSession, hc, onLayer, Layer.requestSession, ha, Effect.lookup?]
      · simp [advance, step, initSession, hc, onLayer, Layer.requestSession, ha, setStep,
          Effect.lookup?]
  | handshake =>
    cases hl : t.layer.held with
    | none => simp [advance, step, onLayer, Layer.handshake_bare eng hl]
    | some h => simp [advance, step, onLayer, Layer.handshake_held eng hl, Effect.lookup?]
  | validate | validationFailed | failed => simp [advance, step, Effect.lookup?]

/-- A poll that finds the search over looks nothing up. -/
theorem lookups_establish (receiver : Receiver) (hs : ¬ Searching t) :
    lookups ((establish eng net res receiver).run t).events = [] := by
  obtain ⟨checked, resolved⟩ := not_or.mp hs
  have steps := lookups_advance eng net res t receiver resolved
  have ends := lookups_conclude net ((advance eng net res receiver).run t).state
    ((advance eng net res receiver).run t).answer
  rw [run_establish]
  simp [checked, steps, ends]

/-- A poll that looks up finds the options checked, or checks them first. -/
theorem lookup_step (receiver : Receiver)
    (asks : lookups ((establish eng net res receiver).run t).events ≠ []) :
    let ready : OverTcp ε σ ρ ω := { t with step := .resolve }
    ∃ notes : List Note, (establish eng net res receiver).run t =
      ⟨((establish eng net res receiver).run ready).answer,
        ((establish eng net res receiver).run ready).state,
        notes.map .note ++ ((establish eng net res receiver).run ready).events⟩ := by
  intro ready
  by_cases hs : t.step = .validate
  -- The check and the first lookup are one poll, if the options pass.
  · obtain ⟨notes, run⟩ := run_establish_validate eng net res receiver hs
    cases hc : t.layer.options.isConsistent with
    | true =>
      rw [hc, if_pos rfl] at run
      exact ⟨notes, run⟩
    | false =>
      rw [hc, if_neg (by simp)] at run
      have nothing := lookups_establish eng net res { t with step := .validationFailed } receiver
        (by simp [Searching])
      rw [run, lookups_append, lookups_notes, nothing] at asks
      contradiction
  · by_cases resolving : t.step = .resolve
    · have same : t = ready := by
        show t = { t with step := .resolve }
        rw [← resolving]
      rw [← same]
      exact ⟨[], rfl⟩
    · exact absurd (lookups_establish eng net res t receiver (by simp [Searching, hs, resolving])) asks

/-- A poll that looks up only waits, and one that finds no address leaves all but the resolver as it
    was, once the options are checked. -/
theorem lookup_waits (receiver : Receiver) {answer : Except Fault (Option Address)}
    (asked : answer ∈ lookups ((establish eng net res receiver).run t).events) :
    let o := (establish eng net res receiver).run t
    o.answer = .waiting ∧
      (addressIn answer = none →
        o.state = { t with resolver := o.state.resolver, step := .resolve }) := by
  obtain ⟨notes, run⟩ := lookup_step eng net res t receiver (List.ne_nil_of_mem asked)
  obtain ⟨waiting, one, unknown, -⟩ :=
    run_lookup eng net res { t with step := .resolve } receiver rfl
  rw [run, lookups_append, lookups_notes, one] at asked
  obtain rfl := List.mem_singleton.mp asked
  rw [run]
  refine ⟨waiting, fun none => ?_⟩
  rw [unknown none]

/-- No step goes back to the search. -/
theorem searching_of_onward {t u : OverTcp ε σ ρ ω} (onward : Step.ladder.Onward t.step u.step)
    (searching : Searching u) : Searching t := by
  unfold Searching at searching ⊢
  rcases onward with same | ⟨-, later⟩
  · rw [← same]
    exact searching
  · have before : Step.rank t.step < Step.rank u.step := later
    rcases searching with checks | looks
    · simp [checks, Step.rank] at before
    · cases hs : t.step with
      | validate | resolve => simp
      | connect | initSession | handshake | validationFailed | failed =>
        simp [hs, looks, Step.rank] at before

/-- **Step**: a poll looks the address up at most once, while it is searched. -/
theorem establish_searches (receiver : Receiver) :
    Searches Searching t ((establish eng net res receiver).run t).events
      ((establish eng net res receiver).run t).state := by
  by_cases asks : lookups ((establish eng net res receiver).run t).events = []
  · exact .inl ⟨asks, searching_of_onward (establish_onward eng net res receiver t)⟩
  · obtain ⟨notes, run⟩ := lookup_step eng net res t receiver asks
    obtain ⟨-, one, -, known⟩ := run_lookup eng net res { t with step := .resolve } receiver rfl
    have searching : Searching t := by
      by_cases searching : Searching t
      · exact searching
      · exact absurd (lookups_establish eng net res t receiver searching) asks
    refine .inr ⟨searching, _, by rw [run, lookups_append, lookups_notes, one]; rfl, fun found => ?_⟩
    rw [run, Searching, known found]
    simp

theorem looksUpInPolls : (transport (ρ := ρ) eng net res).LooksUpInPolls where
  close t := lookups_close net t
  read t := by
    show lookups ((onLayer (Layer.read eng)).run t).events = []
    cases hl : t.layer.held with
    | none => simp [onLayer, Layer.read_bare eng hl]
    | some h =>
      have digest :
          lookups (Layer.digest t.layer.receiver (eng.read receiveBufferSize h.session).1).2 = [] := by
        cases (eng.read receiveBufferSize h.session).1 with
        | error fault => simp [Layer.digest, Effect.lookup?]
        | ok fill =>
          by_cases hf : fill.count = 0
          · simp [Layer.digest, hf]
          · cases t.layer.receiver <;> simp [Layer.digest, hf, Effect.lookup?]
      simp [onLayer, Layer.run_read_held eng hl, Effect.lookup?, digest]
  write bytes t := by
    show lookups ((onLayer (Layer.write eng bytes)).run t).events = []
    cases hl : t.layer.held with
    | none => simp [onLayer, Layer.write_bare eng hl]
    | some h => simp [onLayer, Layer.write, hl, Effect.lookup?]
  setOption name value t := by
    show lookups ((setOption net name value).run t).events = []
    by_cases hn : name = optionNames.keepAlive
    · cases hv : value.truth? with
      | none => simp [setOption, hn, hv]
      | some on =>
        cases hs : t.socket with
        | none =>
          by_cases held : t.layer.held.isSome = true
          · simp [setOption, hn, hv, hs, held, Effect.lookup?]
          · simp [setOption, hn, hv, hs, held]
        | some socket =>
          rcases hk : net.switchKeepAlive socket on t.network with ⟨_ | _, w⟩
          · simp [setOption, hn, hv, hs, hk]
          · simp [setOption, hn, hv, hs, hk]
    · obtain ⟨answer, notes, run⟩ := Layer.setOption_notes t.layer name value
      simp [setOption, hn, onLayer, run]

/-- **Step**: a request looks the address up at most once, while it is searched. -/
theorem serve_searches (q : Transport.Request) :
    Searches Searching t (Tls.effects (((transport eng net res).serve q).run t).events)
      (((transport eng net res).serve q).run t).state := by
  apply (looksUpInPolls eng net res).serve
  · intro receiver t
    exact establish_searches eng net res t receiver
  · intro q t
    exact searching_of_onward ((settles eng net res).onward_serve q t)

end Tls.OverTcp

end PolledConnection
