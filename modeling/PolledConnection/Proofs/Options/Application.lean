import PolledConnection.Proofs.Connection.Driven
import PolledConnection.Tcp.Transport
import PolledConnection.Tls.OverGiven
import PolledConnection.Tls.OverTcp

/-! # Applying lists of options

  A list of options is applied when a transport is made with it, and when it
  is replayed onto a connection. Both come to the same as setting the options
  one by one, up to the first that is refused: the options behind that one are
  never offered (`Transport.MadeAs`, `Connection.Replayed`).

  Both loops are one (`Act.upToRefusal`). It is compared once with the list of
  all answers (`Act.oneByOne`), by induction on the list; so it does not matter
  that an option may be accepted or refused because of those before it.
-/

namespace PolledConnection

/-! ### One loop -/

namespace Act

variable {ε σ ι φ : Type}
variable {act : ι → Act ε σ (Except φ Unit)} {s : σ} {fault : φ} {xs front : List ι} {x : ι}

/-- The answers when all items are accepted. -/
def allAccepted (xs : List ι) : List (Except φ Unit) := xs.map fun _ => .ok ()

/-- Where all items are accepted, the loop acts on all of them. -/
theorem upToRefusal_of_accepted (accepted : (run (oneByOne act xs) s).answer = allAccepted xs) :
    run (upToRefusal act xs) s =
      ⟨.ok (), (run (oneByOne act xs) s).state, (run (oneByOne act xs) s).events⟩ := by
  induction xs generalizing s with
  | nil => rfl
  | cons x xs ih =>
    simp only [oneByOne, allAccepted, run_bind, run_pure, List.map_cons, List.cons.injEq] at accepted
    obtain ⟨first, later⟩ := accepted
    simp [upToRefusal, oneByOne, first, ih later]

/-- Where one is refused and those before it are not, the loop ends with it. -/
theorem upToRefusal_of_refused (rest : List ι)
    (refused : (run (oneByOne act (front ++ [x])) s).answer = allAccepted front ++ [.error fault]) :
    run (upToRefusal act (front ++ x :: rest)) s =
      ⟨.error fault, (run (oneByOne act (front ++ [x])) s).state,
        (run (oneByOne act (front ++ [x])) s).events⟩ := by
  induction front generalizing s with
  | nil =>
    simp only [oneByOne, allAccepted, List.nil_append, run_bind, run_pure, List.map_nil,
      List.cons.injEq, and_true] at refused
    simp [upToRefusal, oneByOne, refused]
  | cons one front ih =>
    simp only [oneByOne, allAccepted, List.cons_append, run_bind, run_pure, List.map_cons,
      List.cons.injEq] at refused
    obtain ⟨first, later⟩ := refused
    simp [upToRefusal, oneByOne, first, ih later]

/-- All items of a list are accepted, or there is a first one that is refused. -/
theorem accepted_or_refused (act : ι → Act ε σ (Except φ Unit)) (xs : List ι) (s : σ) :
    (run (oneByOne act xs) s).answer = allAccepted xs ∨
      ∃ front x rest fault, xs = front ++ x :: rest ∧
        (run (oneByOne act (front ++ [x])) s).answer = allAccepted front ++ [.error fault] := by
  induction xs generalizing s with
  | nil => exact .inl rfl
  | cons x xs ih =>
    cases first : (run (act x) s).answer with
    | error fault => exact .inr ⟨[], x, xs, fault, rfl, by simp [oneByOne, first, allAccepted]⟩
    | ok =>
      rcases ih (run (act x) s).state with accepted | refused
      · left
        simp [oneByOne, first, accepted, allAccepted]
      · obtain ⟨front, other, rest, fault, rfl, answers⟩ := refused
        exact .inr ⟨x :: front, other, rest, fault, rfl,
          by simp [oneByOne, first, answers, allAccepted]⟩

/-- What an act comes to if it acts on items one by one, up to the first that is refused. -/
inductive UpTo (act : ι → Act ε σ (Except φ Unit)) (s : σ) (xs : List ι) :
    Outcome ε σ (Except φ Unit) → Prop where
  /-- All items are accepted. -/
  | all (accepted : (run (oneByOne act xs) s).answer = allAccepted xs) :
      UpTo act s xs ⟨.ok (), (run (oneByOne act xs) s).state, (run (oneByOne act xs) s).events⟩
  /-- One is refused and those before it are not: it is the last that is offered. -/
  | refusal {front : List ι} {x : ι} {rest : List ι} {fault : φ} (split : xs = front ++ x :: rest)
      (refused : (run (oneByOne act (front ++ [x])) s).answer =
        allAccepted front ++ [.error fault]) :
      UpTo act s xs ⟨.error fault, (run (oneByOne act (front ++ [x])) s).state,
        (run (oneByOne act (front ++ [x])) s).events⟩

/-- The loop comes to that. -/
theorem upToRefusal_upTo (act : ι → Act ε σ (Except φ Unit)) (xs : List ι) (s : σ) :
    UpTo act s xs (run (upToRefusal act xs) s) := by
  rcases accepted_or_refused act xs s with accepted | refused
  · rw [upToRefusal_of_accepted accepted]
    exact .all accepted
  · obtain ⟨front, x, rest, fault, split, answers⟩ := refused
    rw [split, upToRefusal_of_refused rest answers, ← split]
    exact .refusal split answers

end Act

/-! ### Making a transport -/

namespace Transport

variable {σ : Type} {T : Transport σ} {t : σ}

/-- Options as requests. -/
def setting (options : List (String × Setting)) : List Request :=
  options.map fun option => .setOption option.1 option.2

/-- Options one by one. -/
def setEach (T : Transport σ) (options : List (String × Setting)) :
    Act Effect σ (List (Except Fault Unit)) :=
  Act.oneByOne (fun option => T.setOption option.1 option.2) options

theorem run_setting (T : Transport σ) (options : List (String × Setting)) (t : σ) :
    (T.serveAll (setting options)).run t =
      let o := (T.setEach options).run t
      ⟨o.answer.map .accepted, o.state, o.events.map .effect⟩ := by
  induction options generalizing t with
  | nil => rfl
  | cons option rest ih =>
    have behind := ih ((T.setOption option.1 option.2).run t).state
    simp only [setting, setEach] at behind
    simp [setting, setEach, serveAll_cons, serve, unrecorded, Act.oneByOne, behind]

/-- What making a transport with options comes to, compared with `t`, which was made without any. -/
structure MadeAs (T : Transport σ) (t : σ) (options : List (String × Setting))
    (made : Creation σ) : Prop where
  /-- It is made if and only if all options are accepted when they are set one by one. -/
  succeeds : (∃ u, made.result = .ok u) ↔
    ((T.serveAll (setting options)).run t).answer = (Act.allAccepted options).map .accepted
  /-- Then it serves all later requests as `t` does behind its options. -/
  alike : ∀ u, made.result = .ok u → ∀ later,
    (T.serveAll (setting options ++ later)).run t =
      let o := (T.serveAll later).run u
      ⟨(Act.allAccepted options).map .accepted ++ o.answer, o.state,
        made.effects.map .effect ++ o.events⟩
  /-- Otherwise its error is that of the first option that is refused, and it does no more than to
      set the options up to that one. -/
  fails : ∀ fault, made.result = .error fault →
    ∃ front option rest, options = front ++ option :: rest ∧
      let o := (T.serveAll (setting (front ++ [option]))).run t
      o.answer = (Act.allAccepted front ++ [Except.error fault]).map .accepted ∧
        made.effects.map .effect = o.events

theorem configured_madeAs (T : Transport σ) (t : σ) (options : Settings) :
    MadeAs T t options.entries (T.configured t options) := by
  rcases Act.accepted_or_refused (fun option => T.setOption option.1 option.2) options.entries t with
    accepted | refused
  · have run := Act.upToRefusal_of_accepted accepted
    have made : T.configured t options = ⟨.ok ((T.setEach options.entries).run t).state,
        ((T.setEach options.entries).run t).events⟩ := by
      simp [configured, applyAll, setEach, run, Except.map]
    rw [made]
    refine ⟨?_, ?_, ?_⟩
    · simp [run_setting, setEach, accepted]
    · intro u same later
      obtain rfl := Except.ok.inj same
      simp [run_serveAll_append, run_setting, setEach, accepted]
    · simp
  · obtain ⟨front, option, rest, fault, split, answers⟩ := refused
    have run := Act.upToRefusal_of_refused rest answers
    rw [← split] at run
    have made : T.configured t options = ⟨.error fault,
        ((T.setEach (front ++ [option])).run t).events⟩ := by
      simp [configured, applyAll, setEach, run, Except.map]
    rw [made]
    refine ⟨?_, by simp, ?_⟩
    · -- If all options were accepted, the loop would not have ended with an error.
      have never : ((T.serveAll (setting options.entries)).run t).answer ≠
          (Act.allAccepted options.entries).map .accepted := by
        intro all
        rw [run_setting] at all
        have accepted := (List.map_inj_right fun _ _ => Answer.accepted.inj).mp all
        have other := Act.upToRefusal_of_accepted accepted
        rw [run] at other
        simp at other
      simp [never]
    · intro other same
      obtain rfl := Except.error.inj same
      refine ⟨front, option, rest, split, ?_⟩
      simp [run_setting, setEach, answers]

/-- How a kind of transport is made for an endpoint: an empty host name is refused, and otherwise the
    options of the endpoint are applied to what is made for the same endpoint without options. -/
def Creates (T : Transport σ) (create : Endpoint → Creation σ) : Prop :=
  ∀ endpoint,
    (endpoint.hostname = "" → (create endpoint).result = .error (.invalidParameter "hostname")) ∧
      (endpoint.hostname ≠ "" → ∃ t, (create endpoint.bare).result = .ok t ∧
        MadeAs T t endpoint.options.entries (create endpoint))

/-- So it is if the options are all that is set behind the check, from a state that they do not
    matter for. -/
theorem creates_of_configured {create : Endpoint → Creation σ} (fresh : Endpoint → σ)
    (refuses : ∀ endpoint, endpoint.hostname = "" →
      (create endpoint).result = .error (.invalidParameter "hostname"))
    (configures : ∀ endpoint, endpoint.hostname ≠ "" →
      create endpoint = T.configured (fresh endpoint) endpoint.options)
    (same : ∀ endpoint, fresh endpoint.bare = fresh endpoint) : Creates T create := by
  intro endpoint
  refine ⟨refuses endpoint, ?_⟩
  intro named
  refine ⟨fresh endpoint, ?_, ?_⟩
  · have bare := configures endpoint.bare named
    rw [bare, same]
    rfl
  · rw [configures endpoint named]
    exact configured_madeAs T (fresh endpoint) endpoint.options

end Transport

/-! ### Replaying onto a connection -/

namespace Connection

variable {σ : Type}

/-- What a replay comes to: the options are set one by one, up to the first that is refused, on the
    connection and so on its transport. Nothing else of the connection changes, and of the transport
    it shows what happened while they were set. -/
structure Replayed (T : Transport σ) (c : Connection σ) (options : List (String × Setting))
    (o : Outcome Event (Connection σ) (Except Fault Unit)) : Prop where
  /-- The connection sets them. -/
  outside : Act.UpTo (fun option => setOption T option.1 option.2) c options o
  /-- The transport does. -/
  inside : ∃ p, Act.UpTo (fun option => T.setOption option.1 option.2) c.transport options p ∧
    o.answer = p.answer ∧ o.state = { c with transport := p.state } ∧
    transported o.events = p.events.map .effect

theorem replay_replayed (T : Transport σ) (c : Connection σ) (options : List (String × Setting)) :
    Replayed T c options ((replay T options).run c) where
  outside := Act.upToRefusal_upTo _ options c
  inside := ⟨(T.applyAll options).run c.transport, Act.upToRefusal_upTo _ options c.transport,
    run_replay T options c⟩

end Connection

/-! ### The theorem -/

/-- **Options.** Whichever of the transports is made, and for whatever endpoint: without a host name it
    is refused. Otherwise it is made with a list of options if and only if the one that is made without
    options accepts them one after the other, it goes on as that one does behind them, and its error is
    that of the first option that is refused. And a replay of a list onto any connection, in any state,
    comes to setting the options one by one up to the first that is refused, for the transport as for
    the connection. -/
theorem options_up_to_refusal {ε σ τ ρ ω : Type} (eng : Tls.Engine ε σ) (net : Network ω)
    (res : Resolver ρ) (engine : ε) (resolver : ρ) (network : ω) (carrier : Carrier)
    (T : Transport τ) (c : Connection τ) (options : Settings) :
    (Tcp.transport net res).Creates (Tcp.create net res resolver network) ∧
      (Tls.OverGiven.transport eng).Creates (Tls.OverGiven.create eng engine carrier) ∧
      (Tls.OverTcp.transport eng net res).Creates
        (Tls.OverTcp.create eng net res engine resolver network) ∧
      Connection.Replayed T c options.entries ((Connection.replay T options.entries).run c) := by
  refine ⟨?_, ?_, ?_, Connection.replay_replayed T c options.entries⟩
  · apply Transport.creates_of_configured (Tcp.fresh resolver network)
    · intro endpoint empty
      simp [Tcp.create, Endpoint.validate, empty]
    · intro endpoint named
      simp [Tcp.create, Endpoint.validate, named]
    · intro endpoint
      rfl
  · apply Transport.creates_of_configured (Tls.OverGiven.fresh eng engine carrier)
    · intro endpoint empty
      simp [Tls.OverGiven.create, Tls.Layer.validate, Endpoint.validate, empty]
    · intro endpoint named
      simp [Tls.OverGiven.create, Tls.Layer.validate, Endpoint.validate, named]
    · intro endpoint
      rfl
  · apply Transport.creates_of_configured (Tls.OverTcp.fresh eng engine resolver network)
    · intro endpoint empty
      simp [Tls.OverTcp.create, Tls.Layer.validate, Endpoint.validate, empty]
    · intro endpoint named
      simp [Tls.OverTcp.create, Tls.Layer.validate, Endpoint.validate, named]
    · intro endpoint
      rfl

end PolledConnection
