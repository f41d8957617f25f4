import PolledConnection.Proofs.Tls.Keeping

/-! # The keepalive switch under a TLS session

  A TLS transport over TCP has a socket of its own from the dial until a session
  gets it, and in all that time the switch of the socket is what the keepalive
  option says (`Tuned`). So the stream that a session is layered over has its
  switch as it was set last (`session_switch`). Behind that the option is for
  the next socket.
-/

namespace PolledConnection

/-- The carrier that a session was requested over. -/
def Effect.carrier? : Effect → Option Carrier
  | .sessionRequested _ _ carrier _ _ => some carrier
  | _ => none

namespace Tls

open Transport (Request Answer)

variable {ε σ ρ ω : Type}

/-- The carriers of all sessions that were requested. -/
def carriers (es : List Effect) : List Carrier := es.filterMap Effect.carrier?

/-- Where no session was requested, there is no carrier. -/
theorem carriers_eq_nil {es : List Effect} (h : requested es = []) : carriers es = [] := by
  refine List.filterMap_eq_nil_iff.mpr fun e he => ?_
  have none := List.forall_none_of_filterMap_eq_nil h e he
  cases e with
  | sessionRequested => simp [Effect.sessionOptions?] at none
  | received | lookedUp | connectPolled | handshake | sessionRead | sessionWrite | sessionClosed
  | optionOffered | note => rfl

@[simp] theorem carriers_nil : carriers [] = [] := rfl

@[simp] theorem carriers_append (es fs : List Effect) :
    carriers (es ++ fs) = carriers es ++ carriers fs :=
  List.filterMap_append

@[simp] theorem carriers_note (note : Note) : carriers [.note note] = [] := rfl

/-- A request for a session names its carrier, whatever the engine answers. -/
theorem carriers_requestSession (eng : Engine ε σ) (l : Layer σ) (carrier : Carrier)
    (receiver : Receiver) (e : ε) :
    carriers ((Layer.requestSession eng carrier receiver e).run l).events = [carrier] := by
  cases ha : (eng.create l.options l.hostname l.port carrier e).1 with
  | ok session => simp [Layer.requestSession, ha, carriers, Effect.carrier?]
  | error fault => simp [Layer.requestSession, ha, carriers, Effect.carrier?]

namespace OverTcp

variable (eng : Engine ε σ) (net : Network ω) (res : Resolver ρ) {t u : OverTcp ε σ ρ ω}

/-! ### Carriers -/

theorem carriers_initSession (receiver : Receiver) {socket : Socket} (hk : t.socket = some socket) :
    carriers ((initSession eng net receiver).run t).events = [.stream socket] := by
  have one := carriers_requestSession eng t.layer (.stream socket) receiver t.engine
  rcases hr : (Layer.requestSession eng (.stream socket) receiver t.engine).run t.layer with
    ⟨⟨_ | _, engine⟩, l, es⟩
  · simpa [initSession, hk, onLayer, hr] using one
  · simpa [initSession, hk, onLayer, hr, setStep] using one

/-- A session is requested over the socket that is held, and only in the step that creates it. -/
theorem carriers_establish (receiver : Receiver) (t : OverTcp ε σ ρ ω) :
    ∀ c ∈ carriers ((establish eng net res receiver).run t).events,
      ∃ s, t.socket = some s ∧ c = .stream s := by
  intro c hc
  by_cases hs : t.step = .initSession
  · have hv : t.step ≠ .validate := by simp [hs]
    have step : (advance eng net res receiver).run t = (initSession eng net receiver).run t := by
      simp [advance, hs]
    obtain ⟨steady, -⟩ := advance_steady eng net res receiver t
    rw [step] at steady
    -- What ends the poll asks for nothing.
    have ends := carriers_eq_nil (conclude_steady net _ (steady.notAhead hv)
      ((initSession eng net receiver).run t).answer).2
    have events : carriers ((establish eng net res receiver).run t).events =
        carriers ((initSession eng net receiver).run t).events := by
      rw [run_establish]
      simp only [Act.run_bind, Act.run_get, hv, if_false, step, carriers_append, ends]
      simp
    rw [events] at hc
    cases hk : t.socket with
    | none => simp [initSession, hk, carriers] at hc
    | some socket =>
      rw [carriers_initSession eng net receiver hk, List.mem_singleton] at hc
      exact ⟨socket, rfl, hc⟩
  · have nothing : requested ((establish eng net res receiver).run t).events = [] := by
      by_cases hv : t.step = .validate
      · exact (establish_first eng net res receiver t hv).2.1
      · exact (establish_steady eng net res receiver t hv).2.resolve_right fun h => hs h.1
    rw [carriers_eq_nil nothing] at hc
    simp at hc

/-- **Step**: so it is with every request. -/
theorem carrier_serve (q : Request) (t : OverTcp ε σ ρ ω) {hostname port carrier options answer}
    (asked : .effect (.sessionRequested hostname port carrier options answer) ∈
      (((transport eng net res).serve q).run t).events) :
    ∃ s, t.socket = some s ∧ carrier = .stream s := by
  cases hq : isOpen q with
  | true =>
    obtain ⟨receiver, rfl⟩ := eq_establish_of_isOpen hq
    have recorded : .effect (.sessionRequested hostname port carrier options answer) ∈
        ((Transport.recorded (establish eng net res receiver) .establish).run t).events := by
      simpa [Transport.serve, transport] using asked
    rcases Transport.mem_events_recorded.mp recorded with ⟨x, happened, same⟩ | called
    · obtain rfl := Transport.Event.effect.inj same
      refine carriers_establish eng net res receiver t carrier ?_
      exact List.mem_filterMap.mpr ⟨_, happened, rfl⟩
    · simp at called
  | false =>
    -- No other request asks for a session.
    obtain ⟨-, nothing, -⟩ := serve_other eng net res t q hq
    have quiet := List.forall_none_of_filterMap_eq_nil nothing _ asked
    simp [Transport.Event.sessionOptions?, Effect.sessionOptions?] at quiet

/-! ### The socket -/

/-- The socket has its switch as the option says. -/
def Tuned (t : OverTcp ε σ ρ ω) : Prop := ∀ s, t.socket = some s → s.keepAlive = t.keepAlive.getD false

/-- The network agrees about the switch of the socket. -/
def Agreed (isOn : ω → Bool) (t : OverTcp ε σ ρ ω) : Prop :=
  ∀ s, t.socket = some s → isOn t.network = s.keepAlive

/-- **Step**: whatever is no option keeps the socket tuned, and the network agreed. -/
theorem Moved.tuned (moved : Moved net t u) (tuned : Tuned t) : Tuned u := by
  intro s held
  cases moved with
  | rests keepAlive socket network =>
    rw [keepAlive]
    exact tuned s (socket ▸ held)
  | polled keepAlive h =>
    obtain ⟨s', same, old | ⟨-, rfl⟩⟩ := Network.pollConnect_slot h
    · obtain rfl : s' = s := Option.some.inj (same.symm.trans held)
      rw [keepAlive]
      exact tuned s' old
    · -- A new socket was dialled with the option.
      obtain rfl := Option.some.inj (same.symm.trans held)
      rw [keepAlive]
  | leaves keepAlive socket => simp [socket] at held

theorem Moved.agreed {isOn : ω → Bool} (law : net.Keeps isOn) (moved : Moved net t u)
    (agreed : Agreed isOn t) : Agreed isOn u := by
  intro s held
  cases moved with
  | rests keepAlive socket network =>
    rw [network]
    exact agreed s (socket ▸ held)
  | polled keepAlive h => exact law.pollConnect agreed h s held
  | leaves keepAlive socket => simp [socket] at held

/-- **Step**: so does setting an option. -/
theorem Adjusted.tuned {name : String} {value : Setting} {answer : Except Fault Unit}
    (adjusted : Adjusted net t name value answer u) (tuned : Tuned t) : Tuned u := by
  cases adjusted with
  | keep hs =>
    intro s held
    have held : t.socket = some s := held
    simp [hs] at held
  | @switch on socket w hs h =>
    intro s held
    obtain rfl : { socket with keepAlive := on } = s := Option.some.inj held
    rfl
  | switchFails | mistyped | layer => exact tuned

theorem Adjusted.agreed {isOn : ω → Bool} (law : net.Keeps isOn) {name : String} {value : Setting}
    {answer : Except Fault Unit} (adjusted : Adjusted net t name value answer u)
    (agreed : Agreed isOn t) : Agreed isOn u := by
  cases adjusted with
  | keep | mistyped | layer => exact agreed
  | @switch on socket w hs h =>
    intro s held
    obtain rfl : { socket with keepAlive := on } = s := Option.some.inj held
    have set := law.sets on t.network (by simp [h])
    simpa [h] using set
  | @switchFails on w cause hs h =>
    intro s held
    have same := law.refuses on t.network cause (by simp [h])
    rw [h] at same
    exact same.trans (agreed s held)

/-- A request to set an option adjusts the transport. -/
theorem serve_setOption_adjusted (name : String) (value : Setting) (t : OverTcp ε σ ρ ω) :
    ∃ answer, (((transport eng net res).serve (.setOption name value)).run t).answer =
        .accepted answer ∧
      Adjusted net t name value answer
        (((transport eng net res).serve (.setOption name value)).run t).state := by
  rcases run : ((transport eng net res).setOption name value).run t with ⟨answer, v, effects⟩
  have adjusted := setOption_adjusted eng net res run
  exact ⟨answer, by simp [Transport.serve, Transport.unrecorded, run],
    by simpa [Transport.serve, Transport.unrecorded, run] using adjusted⟩

/-- What is kept whenever the socket is moved and an option is set is kept by every request. -/
theorem invariant_serve {Inv : OverTcp ε σ ρ ω → Prop}
    (moves : ∀ t u, Moved net t u → Inv t → Inv u)
    (adjusts : ∀ t u name value answer, Adjusted net t name value answer u → Inv t → Inv u)
    (q : Request) (t : OverTcp ε σ ρ ω) (start : Inv t) :
    Inv (((transport eng net res).serve q).run t).state := by
  cases ho : q.option? with
  | none => exact moves _ _ (serve_moved eng net res ho t) start
  | some option =>
    cases q with
    | setOption name value =>
      obtain ⟨answer, -, adjusted⟩ := serve_setOption_adjusted eng net res name value t
      exact adjusts _ _ _ _ _ adjusted start
    | establish | close | read | write | retrieve => simp [Request.option?] at ho

/-- **Run**: the socket stays tuned, and the network agreed. -/
theorem tuned_stateFrom (qs : List Request) (tuned : Tuned t) :
    Tuned ((transport eng net res).stateFrom t qs) :=
  Transport.stateFrom_invariant Tuned (invariant_serve eng net res
    (fun _ _ moved => moved.tuned net) fun _ _ _ _ _ adjusted => adjusted.tuned net) qs tuned

theorem agreed_stateFrom {isOn : ω → Bool} (law : net.Keeps isOn) (qs : List Request)
    (agreed : Agreed isOn t) : Agreed isOn ((transport eng net res).stateFrom t qs) :=
  Transport.stateFrom_invariant (Agreed isOn) (invariant_serve eng net res
    (fun _ _ moved => moved.agreed net law) fun _ _ _ _ _ adjusted => adjusted.agreed net law)
    qs agreed

/-- An option that is refused leaves everything alone but the network, and that keeps the switch. -/
theorem Adjusted.refused {name : String} {value : Setting} {fault : Fault}
    (adjusted : Adjusted net t name value (.error fault) u) :
    u = { t with network := u.network } ∧ ∀ isOn, net.Keeps isOn → isOn u.network = isOn t.network := by
  cases adjusted with
  | mistyped => exact ⟨rfl, fun _ _ => rfl⟩
  | @switchFails on w cause hs h =>
    refine ⟨rfl, fun isOn law => ?_⟩
    have same := law.refuses on t.network cause (by simp [h])
    rw [h] at same
    exact same
  | layer hn inner =>
    have same := (Layer.setOption_stock inner true t.keepAlive fun _ => hn).2.1 (by simp)
    rw [same]
    exact ⟨rfl, fun _ _ => rfl⟩

/-! ### Made transports -/

section
variable {engine : ε} {resolver : ρ} {network : ω} {endpoint : Endpoint}

/-- A transport that was made has no socket. -/
theorem create_socketless (made : (create eng net res engine resolver network endpoint).result = .ok t) :
    t.socket = none := by
  refine Transport.configured_invariant (·.socket = none) (create_configured eng net res made)
    (fun name value s bare => ?_) rfl
  rcases run : ((transport eng net res).setOption name value).run s with ⟨answer, v, effects⟩
  cases setOption_adjusted eng net res run with
  | keep | switchFails | mistyped | layer => exact bare
  | switch hs h => simp [bare] at hs

/-- What a transport that was made with options has behind a run of requests: what it was made with,
    with what was accepted put behind it. -/
theorem puts_stateFrom (made : (create eng net res engine resolver network endpoint).result = .ok t)
    (qs : List Request) :
    (Stock.new ((eng.capabilities engine).union .keepAliveOnly) true).puts
        (endpoint.options.entries ++ (transport eng net res).acceptedFrom t qs) =
      some (stock ((transport eng net res).stateFrom t qs)) := by
  rw [Stock.puts_append, puts_create eng net res made, Option.bind_some,
    (keeps eng net res).serveAll]

/-! ### The theorem -/

/-- **The switch under a session.** Take any TLS transport over TCP that was made, any run of requests
    to it, and one more request. If a session is requested in it, then over the socket that is held,
    whose switch is the keepalive option that was accepted last before, or off without any; and the
    network agrees, if it keeps the switch. If it is an option that is refused, then nothing is changed
    by it but the network, and not what the network knows of the switch. -/
theorem session_switch
    (made : (create eng net res engine resolver network endpoint).result = .ok t)
    (qs : List Request) (q : Request) :
    let T := transport eng net res
    let given := endpoint.options.entries
    let u := T.stateFrom t qs
    let o := (T.serve q).run u
    (∀ hostname port carrier options answer,
      .effect (.sessionRequested hostname port carrier options answer) ∈ o.events →
        ∃ s, u.socket = some s ∧ carrier = .stream s ∧
          keepAliveIn (given ++ T.acceptedFrom t qs) false = .truth s.keepAlive ∧
          ∀ isOn, net.Keeps isOn → isOn u.network = s.keepAlive) ∧
    ∀ name value fault, q = .setOption name value → o.answer = .accepted (.error fault) →
      o.state = { u with network := o.state.network } ∧ o.state.socket? = u.socket? ∧
        retrieve o.state = retrieve u ∧
        ∀ isOn, net.Keeps isOn → isOn o.state.network = isOn u.network := by
  intro T given u o
  refine ⟨?_, ?_⟩
  · intro hostname port carrier options answer asked
    have bare := create_socketless eng net res made
    have none : ∀ s, t.socket ≠ some s := by simp [bare]
    have tuned : Tuned u := tuned_stateFrom eng net res qs fun s held => absurd held (none s)
    obtain ⟨s, held, same⟩ := carrier_serve eng net res q u asked
    refine ⟨s, held, same, ?_, fun isOn law => ?_⟩
    · have option := Stock.keepAliveIn_of_puts (Stock.fit_new _ true)
        (puts_stateFrom eng net res made qs)
      rw [tuned s held]
      exact option
    · exact agreed_stateFrom eng net res law qs (fun s held => absurd held (none s)) s held
  · rintro name value fault rfl refused
    obtain ⟨answer, accepted, adjusted⟩ := serve_setOption_adjusted eng net res name value u
    obtain rfl : answer = .error fault := Answer.accepted.inj (accepted.symm.trans refused)
    obtain ⟨state, switch⟩ := adjusted.refused net
    refine ⟨state, ?_, ?_, switch⟩
    · rw [state]
      rfl
    · rw [state]
      rfl

end

/-- A transport on a network that takes its time to connect. -/
def slow : Transport.Creation (OverTcp Script.Engine Script.Session Script.Lookups Mailbox) :=
  create Script.Engine.engine Mailbox.prompt Script.resolver ⟨.none, [], ⟨[], [], []⟩⟩
    [.ok (some listener)] .empty (.of "h" 443)

/-- An option that is set while the socket is connecting is in force when a session gets it. -/
theorem session_switch_slow :
    ∃ t s options, slow.result = .ok t ∧
      let T := transport Script.Engine.engine Mailbox.prompt Script.resolver
      let u := T.stateFrom t [.establish ⟨"rx"⟩, .establish ⟨"rx"⟩,
        .setOption "tcp_keepalive" (.truth true), .establish ⟨"rx"⟩]
      .effect (.sessionRequested "h" 443 (.stream s) options (.ok ())) ∈
          ((T.serve (.establish ⟨"rx"⟩)).run u).events ∧
        u.network.keepAlive = s.keepAlive ∧ s.keepAlive = true := by
  let qs : List Request := [.establish ⟨"rx"⟩, .establish ⟨"rx"⟩,
    .setOption "tcp_keepalive" (.truth true), .establish ⟨"rx"⟩]
  obtain ⟨t, s, options, made, asked, on⟩ : ∃ t s options, slow.result = .ok t ∧
      let T := transport Script.Engine.engine Mailbox.prompt Script.resolver
      .effect (.sessionRequested "h" 443 (.stream s) options (.ok ())) ∈
        ((T.serve (.establish ⟨"rx"⟩)).run (T.stateFrom t qs)).events ∧ s.keepAlive = true :=
    ⟨_, ⟨listener, true⟩, .new ⟨false, false, false, true⟩, rfl, by decide, rfl⟩
  obtain ⟨switched, -⟩ := session_switch Script.Engine.engine Mailbox.prompt Script.resolver made qs
    (.establish ⟨"rx"⟩)
  obtain ⟨s', -, same, -, agreed⟩ := switched _ _ _ _ _ asked
  obtain rfl : s = s' := Carrier.stream.inj same
  exact ⟨t, s, options, made, asked, agreed _ Mailbox.prompt_keeps, on⟩

end OverTcp

end Tls

end PolledConnection
