import PolledConnection.Network.Loopback
import PolledConnection.Proofs.Connection.Driven
import PolledConnection.Proofs.Tls.Opening
import PolledConnection.Script.Engine
import PolledConnection.Script.Resolver

/-! # The options that a session is created from

  A TLS transport over TCP checks its options in the first poll of the open,
  and creates the session some polls later, behind a lookup and a connect. In
  between options can still be set. So what the check promises does not always
  hold when the session is created: it holds exactly if the certificate was
  there at the check, or neither or both of certificate and key came later
  (`session_consistency`).
-/

namespace PolledConnection

/-- The options that a session was requested with, in the history of a transport. -/
def Transport.Event.sessionOptions? : Transport.Event → Option Tls.Options
  | .effect e => e.sessionOptions?
  | .called _ => none

namespace Tls.OverTcp

variable {ε σ ρ ω α : Type}
variable (eng : Engine ε σ) (net : Network ω) (res : Resolver ρ) (receiver : Receiver)

/-! ### Sessions in a history -/

/-- The options of all sessions that were requested in a history of the transport. -/
def sessions (es : List Transport.Event) : List Options :=
  es.filterMap Transport.Event.sessionOptions?

@[simp] theorem sessions_nil : sessions [] = [] := rfl

@[simp] theorem sessions_append (es fs : List Transport.Event) :
    sessions (es ++ fs) = sessions es ++ sessions fs :=
  List.filterMap_append

/-- The sessions of a call are those that were requested inside. -/
@[simp] theorem sessions_recorded (m : Act Effect (OverTcp ε σ ρ ω) α) (call : α → Transport.Call)
    (t : OverTcp ε σ ρ ω) :
    sessions ((Transport.recorded m call).run t).events = requested (m.run t).events := by
  simp [Transport.recorded, sessions, requested, Transport.Event.sessionOptions?,
    List.filterMap_map, Function.comp_def]

@[simp] theorem sessions_unrecorded (m : Act Effect (OverTcp ε σ ρ ω) α) (t : OverTcp ε σ ρ ω) :
    sessions ((Transport.unrecorded m).run t).events = requested (m.run t).events := by
  simp [Transport.unrecorded, sessions, requested, Transport.Event.sessionOptions?,
    List.filterMap_map, Function.comp_def]

/-! ### Requests -/

/-- Whether a request is one to open. -/
def isOpen : Transport.Request → Bool
  | .establish _ => true
  | _ => false

theorem eq_establish_of_isOpen {r : Transport.Request} (h : isOpen r = true) :
    ∃ receiver, r = .establish receiver := by
  cases r with
  | establish receiver => exact ⟨receiver, rfl⟩
  | close | read | write | setOption | retrieve => simp [isOpen] at h

/-- The keepalive option is none of the layer's. -/
theorem run_setOption_keepAlive (t : OverTcp ε σ ρ ω) (value : Setting) :
    let o := (setOption net optionNames.keepAlive value).run t
    o.state.layer = t.layer ∧ o.state.step = t.step ∧ requested o.events = [] := by
  cases hv : value.truth? with
  | none => simp [setOption, hv]
  | some keepAlive =>
    cases hs : t.socket with
    | none =>
      by_cases held : t.layer.held.isSome = true
      · simp [setOption, hv, hs, held]
      · simp [setOption, hv, hs, held]
    | some socket =>
      rcases hk : net.switchKeepAlive socket keepAlive t.network with ⟨switched, w⟩
      cases switched with
      | ok socket => simp [setOption, hv, hs, hk]
      | error cause => simp [setOption, hv, hs, hk]

theorem fills_keepAlive (value : Setting) (r : Except Fault Unit) :
    fills (.setOption optionNames.keepAlive value) (.accepted r) = [] := by
  have unknown : Slot.ofName? optionNames.keepAlive = none := by decide
  cases r with
  | ok => simp [fills, unknown]
  | error => simp [fills]

/-- Setting an option adds the credential that it fills, and leaves the step of the open alone. -/
theorem run_setOption (t : OverTcp ε σ ρ ω) (name : String) (value : Setting) :
    let o := (setOption net name value).run t
    o.state.step = t.step ∧ requested o.events = [] ∧
      Options.Gains (fills (.setOption name value) (.accepted o.answer)) t.layer.options
        o.state.layer.options := by
  by_cases hn : name = optionNames.keepAlive
  · subst hn
    obtain ⟨layer, step, quiet⟩ := run_setOption_keepAlive net t value
    refine ⟨step, quiet, ?_⟩
    rw [fills_keepAlive, layer]
    exact .refl
  · obtain ⟨quiet, gains⟩ := Layer.run_setOption t.layer name value
    refine ⟨?_, ?_, ?_⟩
    · simp [setOption, hn, onLayer]
    · simp [setOption, hn, onLayer, quiet]
    · simpa [setOption, hn, onLayer] using gains

/-- A request other than to open adds the credential that it fills, requests no session, and leaves
    the step of the open alone. -/
theorem serve_other (t : OverTcp ε σ ρ ω) (r : Transport.Request) (hr : isOpen r = false) :
    let o := ((transport eng net res).serve r).run t
    o.state.step = t.step ∧ sessions o.events = [] ∧
      Options.Gains (fills r o.answer) t.layer.options o.state.layer.options := by
  cases r with
  | establish receiver => simp [isOpen] at hr
  | retrieve => exact ⟨rfl, rfl, .refl⟩
  | close =>
    obtain ⟨options, step, quiet⟩ := run_close net t
    refine ⟨?_, ?_, ?_⟩
    · simp [Transport.serve, Transport.recorded, transport, step]
    · simp [Transport.serve, transport, quiet]
    · simp [Transport.serve, Transport.recorded, transport, fills, options, Options.Gains.refl]
  | read =>
    obtain ⟨options, quiet⟩ := Layer.run_read eng t.layer
    refine ⟨?_, ?_, ?_⟩
    · simp [Transport.serve, Transport.recorded, transport, onLayer]
    · simp [Transport.serve, transport, onLayer, quiet]
    · simp [Transport.serve, Transport.recorded, transport, onLayer, fills, options,
        Options.Gains.refl]
  | write bytes =>
    obtain ⟨options, quiet⟩ := Layer.run_write eng t.layer bytes
    refine ⟨?_, ?_, ?_⟩
    · simp [Transport.serve, Transport.offer, Transport.recorded, transport, onLayer]
    · simp [Transport.serve, Transport.offer, transport, onLayer, quiet]
    · simp [Transport.serve, Transport.offer, Transport.recorded, transport, onLayer, fills, options,
        Options.Gains.refl]
  | setOption name value =>
    obtain ⟨step, quiet, gains⟩ := run_setOption net t name value
    refine ⟨?_, ?_, ?_⟩
    · simp [Transport.serve, Transport.unrecorded, transport, step]
    · simp [Transport.serve, transport, quiet]
    · simpa [Transport.serve, Transport.unrecorded, transport] using gains

/-- A request to open is a poll of the open, and fills no slot. -/
theorem serve_establish (t : OverTcp ε σ ρ ω) :
    let o := ((transport eng net res).serve (.establish receiver)).run t
    o.state = ((establish eng net res receiver).run t).state ∧
      sessions o.events = requested ((establish eng net res receiver).run t).events ∧
      fills (.establish receiver) o.answer = [] := by
  refine ⟨?_, ?_, ?_⟩
  · simp [Transport.serve, Transport.recorded, transport]
  · simp [Transport.serve, transport]
  · simp [fills]

theorem establish_options (t : OverTcp ε σ ρ ω) :
    ((establish eng net res receiver).run t).state.layer.options = t.layer.options := by
  by_cases hs : t.step = .validate
  · exact (establish_first eng net res receiver t hs).1
  · exact (establish_steady eng net res receiver t hs).1.options

/-- Every request adds the credential that it fills. -/
theorem serve_gains (t : OverTcp ε σ ρ ω) (r : Transport.Request) :
    let o := ((transport eng net res).serve r).run t
    Options.Gains (fills r o.answer) t.layer.options o.state.layer.options := by
  cases hr : isOpen r with
  | true =>
    obtain ⟨receiver, rfl⟩ := eq_establish_of_isOpen hr
    obtain ⟨state, -, nothing⟩ := serve_establish eng net res receiver t
    simp only [state, nothing, establish_options]
    exact .refl
  | false => exact (serve_other eng net res t r hr).2.2

/-- Once the check is over, a request keeps its outcome, and requests a session at most with the
    options that are set. -/
theorem serve_checked (t : OverTcp ε σ ρ ω) (r : Transport.Request) (hs : t.step ≠ .validate) :
    let o := ((transport eng net res).serve r).run t
    o.state.step ≠ .validate ∧
      (t.step = .validationFailed → o.state.step = .validationFailed) ∧
      (sessions o.events = [] ∨
        (t.step = .initSession ∧ isOpen r = true ∧ sessions o.events = [t.layer.options])) := by
  cases hr : isOpen r with
  | true =>
    obtain ⟨receiver, rfl⟩ := eq_establish_of_isOpen hr
    obtain ⟨state, asked, -⟩ := serve_establish eng net res receiver t
    obtain ⟨steady, one⟩ := establish_steady eng net res receiver t hs
    simp only [state, asked]
    refine ⟨steady.notAhead hs, steady.refused, ?_⟩
    rcases one with nothing | ⟨creating, one⟩
    · exact .inl nothing
    · exact .inr ⟨creating, trivial, one⟩
  | false =>
    obtain ⟨step, silent, -⟩ := serve_other eng net res t r hr
    refine ⟨?_, ?_, .inl silent⟩
    · rw [step]
      exact hs
    · intro refused
      exact step.trans refused

/-! ### Runs -/

/-- A run adds the credentials that it fills. -/
theorem serveAll_gains (qs : List Transport.Request) (t : OverTcp ε σ ρ ω) :
    let o := ((transport eng net res).serveAll qs).run t
    Options.Gains (filled qs o.answer) t.layer.options o.state.layer.options := by
  induction qs generalizing t with
  | nil => exact .refl
  | cons r qs ih =>
    have first := serve_gains eng net res t r
    have rest := ih (((transport eng net res).serve r).run t).state
    simpa [Transport.serveAll_cons, Transport.serveAll_nil, filled] using first.trans rest

/-- Until the first poll of the open, no session is requested, and the check is ahead. -/
theorem serveAll_before (qs : List Transport.Request) (t : OverTcp ε σ ρ ω)
    (hq : ∀ r ∈ qs, isOpen r = false) :
    let o := ((transport eng net res).serveAll qs).run t
    o.state.step = t.step ∧ sessions o.events = [] := by
  induction qs generalizing t with
  | nil => exact ⟨rfl, rfl⟩
  | cons r qs ih =>
    obtain ⟨step, silent, -⟩ := serve_other eng net res t r (hq r List.mem_cons_self)
    obtain ⟨steps, rest⟩ := ih (((transport eng net res).serve r).run t).state
      fun q h => hq q (List.mem_cons_of_mem _ h)
    simp only [Transport.serveAll_cons, Act.run_bind, Act.run_pure, sessions_append, silent]
    refine ⟨steps.trans step, ?_⟩
    simpa using rest

/-- Where the check has failed, no session is ever requested. -/
theorem sessions_refused (qs : List Transport.Request) (t : OverTcp ε σ ρ ω)
    (hs : t.step = .validationFailed) :
    sessions (((transport eng net res).serveAll qs).run t).events = [] := by
  induction qs generalizing t with
  | nil => rfl
  | cons r qs ih =>
    obtain ⟨-, stays, asked⟩ := serve_checked eng net res t r (by simp [hs])
    have silent : sessions (((transport eng net res).serve r).run t).events = [] := by
      rcases asked with nothing | ⟨creating, -, -⟩
      · exact nothing
      · simp [hs] at creating
    simp [Transport.serveAll_cons, silent, ih _ (stays hs)]

/-- Every session that is requested after the check is requested in a poll of the open, with the
    options that are set by then, and no other session in that poll. -/
theorem sessions_split (qs : List Transport.Request) (t : OverTcp ε σ ρ ω)
    (hs : t.step ≠ .validate) {options : Options}
    (h : options ∈ sessions (((transport eng net res).serveAll qs).run t).events) :
    ∃ between again rest, qs = between ++ .establish again :: rest ∧
      let u := (((transport eng net res).serveAll between).run t).state
      options = u.layer.options ∧
        sessions (((transport eng net res).serve (.establish again)).run u).events = [options] := by
  induction qs generalizing t with
  | nil => simp [Transport.serveAll_nil] at h
  | cons r qs ih =>
    obtain ⟨checked, -, asked⟩ := serve_checked eng net res t r hs
    simp only [Transport.serveAll_cons, Act.run_bind, Act.run_pure, List.append_nil, sessions_append,
      List.mem_append] at h
    rcases h with now | later
    · rcases asked with nothing | ⟨-, opening, one⟩
      · simp [nothing] at now
      · have set := now
        rw [one, List.mem_singleton] at set
        obtain ⟨receiver, rfl⟩ := eq_establish_of_isOpen opening
        exact ⟨[], receiver, qs, rfl, set, by rw [set]; exact one⟩
    · obtain ⟨between, again, rest, rfl, set, one⟩ := ih _ checked later
      refine ⟨r :: between, again, rest, rfl, ?_, ?_⟩
      · simpa [Transport.serveAll_cons, Transport.serveAll_nil] using set
      · simpa [Transport.serveAll_cons, Transport.serveAll_nil] using one

/-- Behind the first poll of the open, a session is requested only if that poll found the options
    consistent, and not in that poll. -/
theorem sessions_opened (first : Receiver) (after : List Transport.Request) (t : OverTcp ε σ ρ ω)
    (hs : t.step = .validate) {options : Options}
    (h : options ∈
      sessions (((transport eng net res).serveAll (.establish first :: after)).run t).events) :
    t.layer.options.checkConsistency = .ok () ∧
      ∃ between again rest, after = between ++ .establish again :: rest ∧
        let u := (((transport eng net res).serveAll (.establish first :: between)).run t).state
        options = u.layer.options ∧
          sessions (((transport eng net res).serve (.establish again)).run u).events =
            [options] := by
  obtain ⟨-, nothing, outcome⟩ := establish_first eng net res first t hs
  obtain ⟨state, inside, -⟩ := serve_establish eng net res first t
  simp only [Transport.serveAll_cons, Act.run_bind, Act.run_pure, List.append_nil, sessions_append,
    inside, nothing, List.nil_append] at h
  rw [← state] at outcome
  -- A check that failed leaves no session behind, so it was passed.
  rcases outcome with failed | ⟨consistent, past⟩
  · have never := sessions_refused eng net res after _ failed
    simp [never] at h
  · have checked : (((transport eng net res).serve (.establish first)).run t).state.step ≠
        .validate := by
      intro ahead
      simp [ahead, Step.isPast] at past
    obtain ⟨between, again, rest, rfl, set, one⟩ := sessions_split eng net res after _ checked h
    refine ⟨?_, between, again, rest, rfl, ?_, ?_⟩
    · rw [Options.checkConsistency_iff]
      simpa [Options.isConsistent] using consistent
    · simpa [Transport.serveAll_cons, Transport.serveAll_nil] using set
    · simpa [Transport.serveAll_cons, Transport.serveAll_nil] using one

/-! ### Made transports -/

/-- Initial options leave the check ahead. -/
theorem create_step {engine : ε} {resolver : ρ} {network : ω} {endpoint : Endpoint}
    {t : OverTcp ε σ ρ ω}
    (made : (create eng net res engine resolver network endpoint).result = .ok t) :
    t.step = .validate := by
  unfold create at made
  split at made
  · simp at made
  · refine Transport.configured_invariant (·.step = .validate) made (fun name value s ahead => ?_) rfl
    exact (run_setOption net s name value).1.trans ahead

/-! ### The theorem -/

/-- **Consistency of sessions.** Take any transport over TCP that was made, and any run of requests
    to it. A session is requested in a poll of the open behind the first one, with the options that
    are set by then, and certificate and key were consistent at the first one. The options of the
    session are consistent exactly if the certificate was set by then, or what was accepted in
    between has both certificate and key or neither. A connection over the transport makes such a
    run, with the options that its caller offers. -/
theorem session_consistency {engine : ε} {resolver : ρ} {network : ω} {endpoint : Endpoint}
    {t : OverTcp ε σ ρ ω}
    (made : (create eng net res engine resolver network endpoint).result = .ok t) :
    (∀ qs es u, (transport eng net res).Leads t qs es u → ∀ options ∈ sessions es,
      ∃ before first between again rest,
        qs = before ++ .establish first :: (between ++ .establish again :: rest) ∧
        (∀ r ∈ before, isOpen r = false) ∧
        let opened := (((transport eng net res).serveAll before).run t).state
        let later := ((transport eng net res).serveAll (.establish first :: between)).run opened
        let new := filled (.establish first :: between) later.answer
        sessions (((transport eng net res).serve (.establish again)).run later.state).events =
          [options] ∧
        options = later.state.layer.options ∧
        opened.layer.options.checkConsistency = .ok () ∧
        (options.checkConsistency = .ok () ↔ opened.layer.options.certificate.isSome = true ∨
          new.any Slot.isCertificate = new.any Slot.isKey)) ∧
    ∀ rs destroyed,
      let o := (Connection.live (transport eng net res) rs destroyed).run (.ofTransport t)
      ∃ qs, (transport eng net res).Leads t qs (Connection.transported o.events)
          o.state.transport ∧
        qs.filterMap Transport.Request.option? =
          (Connection.grants (transport eng net res) (.ofTransport t) rs).filterMap
            Connection.Grant.option? := by
  refine ⟨?_, fun rs destroyed => Connection.live_driven (transport eng net res) t rs destroyed⟩
  rintro qs es u ⟨rfl, rfl⟩ options asked
  cases hf : qs.find? isOpen with
  | none =>
    -- Nobody ever opens, so nobody asks for a session.
    have never : ∀ r ∈ qs, isOpen r = false := by simpa using List.find?_eq_none.mp hf
    have silent := (serveAll_before eng net res qs t never).2
    simp [silent] at asked
  | some r =>
    obtain ⟨hr, before, after, rfl, early⟩ := List.find?_eq_some_iff_append.mp hf
    obtain ⟨first, rfl⟩ := eq_establish_of_isOpen hr
    have early : ∀ r ∈ before, isOpen r = false := by simpa using early
    obtain ⟨ahead, silent⟩ := serveAll_before eng net res before t early
    rw [Transport.run_serveAll_append] at asked
    simp only [sessions_append, silent, List.nil_append] at asked
    have checking := ahead.trans (create_step eng net res made)
    obtain ⟨consistent, between, again, rest, rfl, set, one⟩ :=
      sessions_opened eng net res first after _ checking asked
    refine ⟨before, first, between, again, rest, rfl, early, one, set, consistent, ?_⟩
    -- At the check certificate and key were there both or neither; the run in between adds its own.
    have gains := serveAll_gains eng net res (.establish first :: between)
      (((transport eng net res).serveAll before).run t).state
    rw [Options.checkConsistency_iff] at consistent
    rw [Options.checkConsistency_iff, set, gains.certificate, gains.key, consistent]
    cases (((transport eng net res).serveAll before).run t).state.layer.options.key.isSome with
    | true => simp
    | false => simp

/-- The address of a host that listens. -/
def listener : Address := ⟨.v4 127 0 0 1, 443⟩

/-- A transport to that host, with an engine that takes all options. -/
def reachable : Transport.Creation (OverTcp Script.Engine Script.Session Script.Lookups Loopback) :=
  create Script.Engine.engine Loopback.network Script.resolver
    ⟨⟨true, true, true, false⟩, [], ⟨[], [], []⟩⟩ [.ok (some listener)]
    (.new true [(listener, .listening)]) (.of "h" 443)

/-- Requests in which a certificate is set between the lookup and the connect. -/
def lateCertificate : List Transport.Request :=
  [.establish ⟨"rx"⟩, .setOption "x509certificate" (.text "c"), .establish ⟨"rx"⟩,
    .establish ⟨"rx"⟩]

/-- Such a run gets a session, in a poll of the open behind the first. -/
theorem lateCertificate_split :
    ∃ t, reachable.result = .ok t ∧
      ∃ options ∈ sessions (((transport Script.Engine.engine Loopback.network
          Script.resolver).serveAll lateCertificate).run t).events,
        ∃ before first between again rest,
          lateCertificate = before ++ .establish first :: (between ++ .establish again :: rest) ∧
            ∀ r ∈ before, isOpen r = false := by
  obtain ⟨t, made, options, asked⟩ : ∃ t, reachable.result = .ok t ∧
      ∃ options, options ∈ sessions (((transport Script.Engine.engine Loopback.network
        Script.resolver).serveAll lateCertificate).run t).events := by
    refine ⟨_, rfl, ?_⟩
    exact List.exists_mem_of_ne_nil _ (by decide)
  obtain ⟨before, first, between, again, rest, split, early, -⟩ :=
    (session_consistency Script.Engine.engine Loopback.network Script.resolver made).1
      lateCertificate _ _ ⟨rfl, rfl⟩ options asked
  exact ⟨t, made, options, asked, before, first, between, again, rest, split, early⟩

/-- A certificate that is set behind the check goes into the session without a key. -/
theorem lone_certificate :
    ∃ t, reachable.result = .ok t ∧
      ∃ options ∈ sessions (((transport Script.Engine.engine Loopback.network
          Script.resolver).serveAll lateCertificate).run t).events,
        options.checkConsistency ≠ .ok () := by
  refine ⟨_, rfl, ?_⟩
  decide

end Tls.OverTcp

end PolledConnection
