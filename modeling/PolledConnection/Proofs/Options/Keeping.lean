import PolledConnection.Proofs.Connection.Driven
import PolledConnection.Proofs.Options.Stock

/-! # Options along a run

  Which options a run of requests has set is told by its answers (`accepted`).
  Where a transport treats its options like a stock (`Keeps`), what it has in
  the end is what it had before with the accepted options put into it, one
  after the other; so all that is known of stocks is known of transports, and
  of the connections over them.

  A transport that is *willing* refuses no option that its stock would take.
-/

namespace PolledConnection

variable {σ : Type}

namespace Transport

/-! ### Accepted options -/

/-- The option that a request has set. -/
def accepts : Request → Answer → List (String × Setting)
  | .setOption name value, .accepted (.ok ()) => [(name, value)]
  | _, _ => []

/-- The options that a run of requests has set. -/
def accepted : List Request → List Answer → List (String × Setting)
  | q :: qs, a :: as => accepts q a ++ accepted qs as
  | _, _ => []

/-- The options that a run of requests from a state has set. -/
def acceptedFrom (T : Transport σ) (s : σ) (qs : List Request) : List (String × Setting) :=
  accepted qs ((T.serveAll qs).run s).answer

/-- The state behind a run of requests from a state. -/
def stateFrom (T : Transport σ) (s : σ) (qs : List Request) : σ := ((T.serveAll qs).run s).state

/-- The options that are set of a list that is applied: all up to the first that is refused. -/
def applied (T : Transport σ) (s : σ) : List (String × Setting) → List (String × Setting)
  | [] => []
  | option :: rest =>
    match ((T.setOption option.1 option.2).run s).answer with
    | .ok () => option :: T.applied ((T.setOption option.1 option.2).run s).state rest
    | .error _ => []

section
variable {T : Transport σ} {s t : σ} {q : Request} {ps qs : List Request}
  {options : List (String × Setting)}

@[simp] theorem stateFrom_nil : T.stateFrom s [] = s := rfl

theorem stateFrom_append (ps qs : List Request) :
    T.stateFrom s (ps ++ qs) = T.stateFrom (T.stateFrom s ps) qs :=
  (Leads.trans ⟨rfl, rfl⟩ ⟨rfl, rfl⟩).2

theorem stateFrom_singleton : T.stateFrom s [q] = ((T.serve q).run s).state := by
  simp [stateFrom, serveAll_cons, serveAll_nil]

theorem stateFrom_cons : T.stateFrom s (q :: qs) = T.stateFrom ((T.serve q).run s).state qs := by
  simp [stateFrom, serveAll_cons]

/-- What no request breaks is kept along a run. -/
theorem stateFrom_invariant (Inv : σ → Prop)
    (step : ∀ q s, Inv s → Inv ((T.serve q).run s).state) (qs : List Request) (start : Inv s) :
    Inv (T.stateFrom s qs) := by
  induction qs generalizing s with
  | nil => exact start
  | cons q qs ih =>
    rw [stateFrom_cons]
    exact ih (step q s start)

@[simp] theorem acceptedFrom_nil : T.acceptedFrom s [] = [] := rfl

theorem acceptedFrom_cons : T.acceptedFrom s (q :: qs) =
    accepts q ((T.serve q).run s).answer ++ T.acceptedFrom ((T.serve q).run s).state qs := by
  simp [acceptedFrom, serveAll_cons, accepted]

theorem acceptedFrom_append (ps qs : List Request) :
    T.acceptedFrom s (ps ++ qs) = T.acceptedFrom s ps ++ T.acceptedFrom (T.stateFrom s ps) qs := by
  induction ps generalizing s with
  | nil => rfl
  | cons p ps ih =>
    rw [List.cons_append, acceptedFrom_cons, acceptedFrom_cons, ih, List.append_assoc,
      stateFrom_cons]

theorem acceptedFrom_singleton :
    T.acceptedFrom s [q] = accepts q ((T.serve q).run s).answer := by
  simp [acceptedFrom, serveAll_cons, serveAll_nil, accepted]

theorem accepts_of_option? (h : q.option? = none) (a : Answer) : accepts q a = [] := by
  cases q with
  | setOption name value => simp [Request.option?] at h
  | establish | close | read | write | retrieve => rfl

/-- A list that was applied as a whole was set as a whole. -/
theorem applied_of_ok (h : ((T.applyAll options).run s).answer = .ok ()) :
    T.applied s options = options := by
  induction options generalizing s with
  | nil => rfl
  | cons option rest ih =>
    rw [applied]
    simp only [applyAll_cons, Act.run_bind] at h
    cases ha : ((T.setOption option.1 option.2).run s).answer with
    | error fault => simp [ha] at h
    | ok =>
      rw [ha] at h
      show option :: _ = _
      rw [ih h]

end

/-! ### Transports that keep a stock -/

/-- The options of a transport are treated as a stock is. -/
structure Keeps (T : Transport σ) (stock : σ → Stock) (Willing : σ → Prop) : Prop where
  /-- What is retrieved is the list of the stock. -/
  retrieve : ∀ s, (T.retrieve s).entries = (stock s).entries
  /-- An option that is accepted is put into the stock. -/
  accepts : ∀ name value s, ((T.setOption name value).run s).answer = .ok () →
    (stock s).put name value = some (stock ((T.setOption name value).run s).state)
  /-- An option that is refused leaves the stock alone. -/
  refuses : ∀ name value s fault, ((T.setOption name value).run s).answer = .error fault →
    stock ((T.setOption name value).run s).state = stock s
  /-- A willing transport accepts what the stock takes, and stays willing. -/
  obliges : ∀ name value s, Willing s → Willing ((T.setOption name value).run s).state ∧
    ((stock s).put name value ≠ none → ((T.setOption name value).run s).answer = .ok ())
  /-- Nothing else touches the stock. -/
  others : ∀ q s, q.option? = none → stock ((T.serve q).run s).state = stock s

namespace Keeps

variable {T : Transport σ} {stock : σ → Stock} {Willing : σ → Prop} {s t : σ}
  {options : List (String × Setting)}

/-- **Step**: a request puts the option that it sets. -/
theorem serve (keeps : T.Keeps stock Willing) (q : Request) (s : σ) :
    (stock s).puts (Transport.accepts q ((T.serve q).run s).answer) =
      some (stock ((T.serve q).run s).state) := by
  cases ho : q.option? with
  | none =>
    rw [accepts_of_option? ho, keeps.others q s ho]
    rfl
  | some option =>
    cases q with
    | setOption name value =>
      cases ha : ((T.setOption name value).run s).answer with
      | ok =>
        have taken := keeps.accepts name value s ha
        simp [Transport.serve, unrecorded, Transport.accepts, ha, Stock.puts, taken]
      | error fault =>
        have same := keeps.refuses name value s fault ha
        simp [Transport.serve, unrecorded, Transport.accepts, ha, Stock.puts, same]
    | establish | close | read | write | retrieve => simp [Request.option?] at ho

/-- **Run**: a run of requests puts what it sets. -/
theorem serveAll (keeps : T.Keeps stock Willing) (qs : List Request) (s : σ) :
    (stock s).puts (T.acceptedFrom s qs) = some (stock (T.stateFrom s qs)) := by
  induction qs generalizing s with
  | nil => rfl
  | cons q qs ih =>
    rw [acceptedFrom_cons, Stock.puts_append, keeps.serve, Option.bind_some, ih, stateFrom_cons]

/-- Requests that offer no option leave the stock alone. -/
theorem serveAll_others (keeps : T.Keeps stock Willing) {qs : List Request}
    (h : qs.filterMap Request.option? = []) (s : σ) : stock (T.stateFrom s qs) = stock s := by
  have none (q : Request) (hq : q ∈ qs) : q.option? = none :=
    List.forall_none_of_filterMap_eq_nil h q hq
  have nothing : T.acceptedFrom s qs = [] := by
    clear h
    induction qs generalizing s with
    | nil => rfl
    | cons q qs ih =>
      rw [acceptedFrom_cons, accepts_of_option? (none q List.mem_cons_self), List.nil_append]
      exact ih _ fun p hp => none p (List.mem_cons_of_mem _ hp)
  have run := keeps.serveAll qs s
  rw [nothing] at run
  exact (Option.some.inj run).symm

/-- Applying a list puts what it sets. -/
theorem applyAll (keeps : T.Keeps stock Willing) (options : List (String × Setting)) (s : σ) :
    (stock s).puts (T.applied s options) = some (stock ((T.applyAll options).run s).state) := by
  induction options generalizing s with
  | nil => rfl
  | cons option rest ih =>
    rw [applied]
    simp only [Transport.applyAll_cons, Act.run_bind]
    cases ha : ((T.setOption option.1 option.2).run s).answer with
    | error fault =>
      simp [Stock.puts, keeps.refuses _ _ s fault ha]
    | ok =>
      show ((stock s).put option.1 option.2).bind _ = _
      rw [keeps.accepts _ _ s ha, Option.bind_some, ih, Act.unlessRefused_ok]

/-- A willing transport accepts every list that its stock takes. -/
theorem applyAll_willing (keeps : T.Keeps stock Willing) (willing : Willing s) {taken : Stock}
    (h : (stock s).puts options = some taken) :
    ((T.applyAll options).run s).answer = .ok () ∧
      stock ((T.applyAll options).run s).state = taken := by
  induction options generalizing s with
  | nil => exact ⟨rfl, Option.some.inj h⟩
  | cons option rest ih =>
    obtain ⟨next, first, later⟩ := Option.bind_eq_some_iff.mp h
    obtain ⟨still, obliged⟩ := keeps.obliges option.1 option.2 s willing
    have ha := obliged (by simp [first])
    have put := keeps.accepts _ _ s ha
    rw [first] at put
    rw [Option.some.inj put] at later
    simpa [Transport.applyAll_cons, ha] using ih still later

/-- A transport that was made with options has just these. -/
theorem configured (keeps : T.Keeps stock Willing) {endowment : Settings}
    (made : (T.configured s endowment).result = .ok t) :
    (stock s).puts endowment.entries = some (stock t) := by
  obtain ⟨accepted, rfl⟩ := of_configured made
  have run := keeps.applyAll endowment.entries s
  rw [applied_of_ok accepted] at run
  exact run

end Keeps

end Transport

/-! ### Connections -/

namespace Connection

variable {T : Transport σ} {stock : σ → Stock} {Willing : σ → Prop}

/-- The options that a request has set. -/
def admits (T : Transport σ) (c : Connection σ) : Request → List (String × Setting)
  | .setOption name value => T.applied c.transport [(name, value)]
  | .replay options => T.applied c.transport options.entries
  | _ => []

/-- The options that requests have set, one after the other. -/
def admitted (T : Transport σ) (c : Connection σ) : List Request → List (String × Setting)
  | [] => []
  | r :: rs => admits T c r ++ admitted T ((serve T r).run c).state rs

/-- An option is set exactly if the connection says so. -/
theorem admits_setOption (T : Transport σ) (c : Connection σ) (name : String) (value : Setting) :
    admits T c (.setOption name value) =
      Transport.accepts (.setOption name value) (.accepted ((setOption T name value).run c).answer) := by
  obtain ⟨answer, -⟩ := run_setOption T name value c
  rw [answer, admits, Transport.applied]
  cases ((T.setOption name value).run c.transport).answer with
  | error fault => rfl
  | ok => rfl

/-- A request about other things offers no option. -/
theorem granted_others (T : Transport σ) (c : Connection σ) {r : Request} (a : Answer)
    (hs : ∀ name value, r ≠ .setOption name value) (hr : ∀ options, r ≠ .replay options) :
    (granted T c r a).filterMap Grant.option? = [] := by
  unfold granted
  split
  · rfl
  · split <;> rfl
  · exact absurd rfl (hs _ _)
  · exact absurd rfl (hr _)
  · simp [List.filterMap_map, Function.comp_def, Grant.option?]

/-- **Step**: a request to a connection puts what it sets. -/
theorem puts_admits (keeps : T.Keeps stock Willing) (c : Connection σ) (r : Request) :
    (stock c.transport).puts (admits T c r) = some (stock ((serve T r).run c).state.transport) := by
  -- A request about something else asks things of the transport, but offers no option.
  have other (hs : ∀ name value, r ≠ .setOption name value) (hr : ∀ options, r ≠ .replay options)
      (nothing : admits T c r = []) :
      (stock c.transport).puts (admits T c r) =
        some (stock ((serve T r).run c).state.transport) := by
    obtain ⟨qs, ⟨-, state⟩, offers⟩ := (serve_moves T c r).driven
    rw [granted_others T c _ hs hr] at offers
    have same := keeps.serveAll_others offers c.transport
    rw [Transport.stateFrom, state] at same
    rw [nothing, same]
    rfl
  cases r with
  | setOption name value =>
    obtain ⟨answer, state, -⟩ := run_setOption T name value c
    have put := keeps.serve (.setOption name value) c.transport
    rw [admits_setOption, answer]
    simpa [serve, state, Transport.serve, Transport.unrecorded] using put
  | replay options =>
    obtain ⟨-, state, -⟩ := run_replay T options.entries c
    rw [admits, keeps.applyAll]
    simp [serve, state]
  | beginOpen | beginClose | send | sendZeros | poll | retrieve =>
    exact other (by simp) (by simp) rfl

/-- **Run**: requests to a connection put what they set. -/
theorem puts_admitted (keeps : T.Keeps stock Willing) (c : Connection σ) (rs : List Request) :
    (stock c.transport).puts (admitted T c rs) =
      some (stock ((serveAll T rs).run c).state.transport) := by
  induction rs generalizing c with
  | nil => rfl
  | cons r rs ih =>
    rw [admitted, Stock.puts_append, puts_admits keeps, Option.bind_some, ih]
    simp [serveAll_cons]

end Connection

end PolledConnection
