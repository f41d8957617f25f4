import PolledConnection.Network.Mailbox
import PolledConnection.Proofs.Polls.Lookups
import PolledConnection.Proofs.Tcp.KeepAlive
import PolledConnection.Proofs.Tls.KeepAlive
import PolledConnection.Script.Engine
import PolledConnection.Script.Resolver

/-! # How many polls an open takes

  One party is asked in each poll, so the number of polls is what the parties
  take together.
-/

namespace PolledConnection

variable {ε σ ρ ω : Type}

@[simp] theorem length_timetable (waiting : List Errand) (last : Errand) :
    (timetable waiting last).length = waiting.length + 1 := by
  simp [timetable]

/-! ### The theorem -/

/-- **How many polls an open takes.** Take a resolver that gives `k` answers without an address, be it
    that it does not know yet or that it fails, and then the address; a socket that can be dialled and
    is pending for `m` polls until it has connected; an engine that creates the session; and a
    handshake that waits `h` times and succeeds then. Of any transport that was made with these, and
    whose options are consistent, the open waits in every poll but the last, and that one is done. Over
    TCP it is the `k + m + 2`nd, for TLS over TCP the `k + m + h + 4`th, and for TLS over a given
    carrier the `h + 2`nd. Each poll asks one party once: first the resolver, then the socket, the
    engine, the session.

    In every run of requests to a transport of its own socket, whatever the parties do, an address is
    the last thing that the resolver is asked for. A poll that asks the resolver waits, whatever the
    answer; if there is no address in it, the transport stays as it was, but for its resolver. -/
theorem open_paced (eng : Tls.Engine ε σ) (net : Network ω) (res : Resolver ρ) :
    (∀ resolver network endpoint t, (Tcp.create net res resolver network endpoint).result = .ok t →
      let T := Tcp.transport net res
      (∀ k m peer socket note v, res.FindsAfter t.hostname t.port peer k t.resolver →
        net.dial peer (t.keepAlive.getD false) t.network = (.ok socket, note, v) →
        net.ConnectsAfter m v →
        let polls := timetable (List.replicate (k + 1) .lookup ++ List.replicate m .connect) .connect
        polls.length = k + m + 2 ∧ T.Forecast polls t) ∧
      (∀ qs early answer late, lookups (Tls.effects ((T.serveAll qs).run t).events) =
        early ++ answer :: late → addressIn answer ≠ none → late = [])) ∧
    (∀ engine resolver network endpoint t,
      (Tls.OverTcp.create eng net res engine resolver network endpoint).result = .ok t →
      let T := Tls.OverTcp.transport eng net res
      (∀ k m h peer socket note v session e, t.layer.options.isConsistent = true →
        res.FindsAfter t.layer.hostname t.layer.port peer k t.resolver →
        net.dial peer (t.keepAlive.getD false) t.network = (.ok socket, note, v) →
        net.ConnectsAfter m v →
        eng.create t.layer.options t.layer.hostname t.layer.port (.stream socket) t.engine =
          (.ok session, e) →
        eng.ShakesAfter h session →
        let polls := timetable (List.replicate (k + 1) .lookup ++ List.replicate (m + 1) .connect ++
          .session :: List.replicate h .handshake) .handshake
        polls.length = k + m + h + 4 ∧ T.Forecast polls t) ∧
      (∀ qs early answer late, lookups (Tls.effects ((T.serveAll qs).run t).events) =
        early ++ answer :: late → addressIn answer ≠ none → late = [])) ∧
    (∀ engine carrier endpoint t, (Tls.OverGiven.create eng engine carrier endpoint).result = .ok t →
      ∀ h session e, t.layer.options.isConsistent = true →
        eng.create t.layer.options t.layer.hostname t.layer.port carrier t.engine = (.ok session, e) →
        eng.ShakesAfter h session →
        let polls := timetable (.session :: List.replicate h .handshake) .handshake
        polls.length = h + 2 ∧ (Tls.OverGiven.transport eng).Forecast polls t) ∧
    (∀ (t : Tcp ρ ω) receiver answer,
      let o := ((Tcp.transport net res).establish receiver).run t
      answer ∈ lookups o.events → o.answer = .waiting ∧
        (addressIn answer = none → o.state = { t with resolver := o.state.resolver })) ∧
    (∀ (t : Tls.OverTcp ε σ ρ ω) receiver answer,
      let o := ((Tls.OverTcp.transport eng net res).establish receiver).run t
      answer ∈ lookups o.events → o.answer = .waiting ∧
        (addressIn answer = none →
          o.state = { t with resolver := o.state.resolver, step := .resolve })) := by
  refine ⟨?_, ?_, ?_, ?_, ?_⟩
  · intro resolver network endpoint t made T
    have fresh := Tcp.create_fresh net res made
    refine ⟨?_, fun qs early answer late => lookups_end (fun q s => Tcp.serve_searches net res s q) qs t⟩
    intro k m peer socket note v finds dialled connects polls
    refine ⟨by simp [polls]; omega, ?_⟩
    exact Tcp.forecast_open net res (by rw [fresh]; rfl) (by rw [fresh]; rfl) finds
      (.dialled dialled) connects
  · intro engine resolver network endpoint t made T
    have ahead := Tls.OverTcp.create_step eng net res made
    have bare := Tls.OverTcp.create_socketless eng net res made
    refine ⟨?_, fun qs early answer late =>
      lookups_end (fun q s => Tls.OverTcp.serve_searches eng net res s q) qs t⟩
    intro k m h peer socket note v session e consistent finds dialled connects created shakes polls
    refine ⟨by simp [polls]; omega, ?_⟩
    exact Tls.OverTcp.forecast_open eng net res ahead bare consistent finds (.dialled dialled) connects
      created shakes
  · intro engine carrier endpoint t made h session e consistent created shakes polls
    obtain ⟨ahead, held⟩ := Tls.OverGiven.create_ready made
    refine ⟨by simp [polls], ?_⟩
    exact Tls.OverGiven.forecast_open eng ahead consistent held created shakes
  · intro t receiver answer o asked
    exact Tcp.lookup_waits net res t receiver asked
  · intro t receiver answer o asked
    exact Tls.OverTcp.lookup_waits eng net res t receiver asked

/-- A resolver that fails, then does not know, then knows. -/
def hesitant : Script.Lookups :=
  [.error (.unresolved "h"), .ok none, .ok (some Tls.OverTcp.listener)]

/-- An engine whose sessions shake hands for three polls. -/
def ponderous : Script.Engine := ⟨.none, [], ⟨[.waiting, .waiting], [], []⟩⟩

/-- With two lookups in vain, a connect that is pending once, and two handshakes that wait, the opens
    take five, nine and four polls. -/
theorem open_paced_hesitant :
    (∃ t, (Tcp.create Mailbox.prompt Script.resolver hesitant .empty (.of "h" 443)).result = .ok t ∧
      (Tcp.transport Mailbox.prompt Script.resolver).Forecast
        (timetable [.lookup, .lookup, .lookup, .connect] .connect) t) ∧
    (∃ t, (Tls.OverTcp.create Script.Engine.engine Mailbox.prompt Script.resolver ponderous hesitant
        .empty (.of "h" 443)).result = .ok t ∧
      (Tls.OverTcp.transport Script.Engine.engine Mailbox.prompt Script.resolver).Forecast
        (timetable [.lookup, .lookup, .lookup, .connect, .connect, .session, .handshake, .handshake]
          .handshake) t) ∧
    (∃ t, (Tls.OverGiven.create Script.Engine.engine ponderous (.given "io") (.of "h" 443)).result =
        .ok t ∧
      (Tls.OverGiven.transport Script.Engine.engine).Forecast
        (timetable [.session, .handshake, .handshake] .handshake) t) := by
  obtain ⟨tcp, overTcp, overGiven, -, -⟩ :=
    open_paced Script.Engine.engine Mailbox.prompt Script.resolver
  let dialled : Mailbox := ⟨.pending Tls.OverTcp.listener, false, [], .flowing, []⟩
  have pending : Mailbox.prompt.ConnectsAfter 1 dialled := by
    unfold Network.ConnectsAfter
    decide
  have finds : Script.resolver.FindsAfter "h" 443 Tls.OverTcp.listener 2 hesitant := by
    unfold Resolver.FindsAfter
    decide
  have shakes : Script.Engine.engine.ShakesAfter 2 ponderous.session := by
    unfold Tls.Engine.ShakesAfter
    decide
  refine ⟨⟨_, rfl, ?_⟩, ⟨_, rfl, ?_⟩, ⟨_, rfl, ?_⟩⟩
  · exact ((tcp hesitant .empty (.of "h" 443) _ rfl).1 2 1 Tls.OverTcp.listener
      ⟨Tls.OverTcp.listener, false⟩ none dialled finds rfl pending).2
  · exact ((overTcp ponderous hesitant .empty (.of "h" 443) _ rfl).1 2 1 2 Tls.OverTcp.listener
      ⟨Tls.OverTcp.listener, false⟩ none dialled ponderous.session ponderous rfl finds rfl pending rfl
      shakes).2
  · exact (overGiven ponderous (.given "io") (.of "h" 443) _ rfl 2 ponderous.session ponderous rfl rfl
      shakes).2

end PolledConnection
