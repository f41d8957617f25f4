import PolledConnection.Proofs.Finality
import PolledConnection.Proofs.Network.KeepAlive

/-! # What requests do to a TCP transport

  A poll of the open turns out in one of five ways (`Polled`), and every other
  request in one of a few (`Served`). Each way says everything that it does to
  the transport, and what the network was asked. Whoever wants to know what is
  true of a TCP transport along a run goes through these, and never through the
  operations themselves.
-/

namespace PolledConnection

variable {ρ ω : Type}

namespace Tcp

variable (net : Network ω) (res : Resolver ρ)

/-! ### Polls -/

/-- How a poll of the open turns out: what it answers, and what it leaves behind. -/
inductive Polled (net : Network ω) (receiver : Receiver) (t : Tcp ρ ω) :
    Progress → Tcp ρ ω → Prop where
  /-- The host name was looked up, and maybe found. -/
  | looked {resolver address step} (hs : t.step = .resolve)
      (next : step = .resolve ∨ step = .connect) :
      Polled net receiver t .waiting
        { t with resolver := resolver, address := address, step := step }
  /-- The socket is still connecting. -/
  | pending {peer socket w effects} (hs : t.step = .connect)
      (h : (net.pollConnect t.dialling peer (t.keepAlive.getD false)).run t.network =
        ⟨(.ok false, socket), w, effects⟩) :
      Polled net receiver t .waiting { t with network := w, dialling := socket }
  /-- The socket has connected. -/
  | connected {peer socket w effects} (hs : t.step = .connect)
      (h : (net.pollConnect t.dialling peer (t.keepAlive.getD false)).run t.network =
        ⟨(.ok true, socket), w, effects⟩) :
      Polled net receiver t .done
        { t with network := w, dialling := none, stream := socket, receiver := some receiver,
                 step := .opened }
  /-- The open was over already. -/
  | already (hs : t.step = .opened) : Polled net receiver t .done t
  /-- The open has failed, now or before. -/
  | failed {w} (hs : t.step ≠ .opened) :
      Polled net receiver t .failed
        { t with network := w, dialling := none, stream := none, receiver := none, step := .failed }

/-- Whatever the present step has done to network and socket before it failed, the end of the poll
    gives the socket back and ends the open. -/
theorem polled_failed {receiver : Receiver} {t u : Tcp ρ ω} {effects : List Effect}
    (hs : t.step ≠ .opened) (run : (advance net res receiver).run t = ⟨.failed, u, effects⟩)
    (same : u = { t with network := u.network, dialling := u.dialling }) :
    let o := (establish net res receiver).run t
    Polled net receiver t o.answer o.state := by
  intro o
  have answer : o.answer = .failed := by simp [o, run_establish, run, conclude]
  have state : o.state = { release net u with step := .failed } := by
    show ((establish net res receiver).run t).state = _
    rw [run_establish, Act.run_bind, run]
    exact conclude_failed net u
  rw [answer, state, same]
  exact .failed hs

/-- Every poll turns out so. -/
theorem establish_polled (receiver : Receiver) (t : Tcp ρ ω) :
    let o := (establish net res receiver).run t
    Polled net receiver t o.answer o.state := by
  intro o
  cases hs : t.step with
  | resolve =>
    rcases ha : res.lookup t.hostname t.port t.resolver with ⟨answer, resolver⟩
    have looked {address : Option Address} {step : Step} (next : step = .resolve ∨ step = .connect) :
        Polled net receiver t .waiting
          { t with resolver := resolver, address := address, step := step } := .looked hs next
    rcases answer with fault | _ | address
    · simpa [o, establish, hs, pollResolve, ha] using looked (.inl rfl)
    · simpa [o, establish, hs, pollResolve, ha] using looked (.inl rfl)
    · simpa [o, establish, hs, pollResolve, ha, setStep] using looked (.inr rfl)
  | connect =>
    have unopened : t.step ≠ .opened := by simp [hs]
    cases ha : t.address with
    | none =>
      have run : (advance net res receiver).run t = ⟨.failed, t, []⟩ := by
        simp [advance, hs, pollConnect, ha]
      exact polled_failed net res unopened run rfl
    | some peer =>
      rcases hc : (net.pollConnect t.dialling peer (t.keepAlive.getD false)).run t.network with
        ⟨⟨fault | _ | _, socket⟩, w, effects⟩
      · have run : (advance net res receiver).run t =
            ⟨.failed, { t with network := w, dialling := socket },
              effects ++ [.note (.connectFailed peer fault)]⟩ := by
          simp [advance, hs, pollConnect, ha, hc]
        exact polled_failed net res unopened run rfl
      · simpa [o, establish, hs, pollConnect, ha, hc] using Polled.pending hs hc
      · simpa [o, establish, hs, pollConnect, ha, hc, setStep] using Polled.connected hs hc
  | opened => simpa [o, establish, hs] using Polled.already hs
  | failed =>
    have run : (advance net res receiver).run t = ⟨.failed, t, [.note .alreadyFailed]⟩ := by
      simp [advance, hs]
    exact polled_failed net res (by simp [hs]) run rfl

/-! ### Requests -/

open Transport (Request Answer)

/-- How a request turns out: what it answers, and what it leaves behind. -/
inductive Served (net : Network ω) (t : Tcp ρ ω) : Request → Answer → Tcp ρ ω → Prop where
  | establish {receiver answer u} (polled : Polled net receiver t answer u) :
      Served net t (.establish receiver) (.progress answer) u
  | close : Served net t .close (.progress .done) (release net t)
  /-- Without a stream nothing is read. -/
  | readNothing (hs : t.stream = none) : Served net t .read (.progress .failed) t
  | read {answer} (hs : t.stream.isSome = true) :
      Served net t .read (.progress answer)
        { t with network := (net.receive receiveBufferSize t.network).2 }
  /-- Without a stream nothing is written. -/
  | writeNothing {bytes} (hs : t.stream = none) :
      Served net t (.write bytes) (.count (.error (.io (.bare .notConnected)))) t
  | write {bytes} (hs : t.stream.isSome = true) :
      Served net t (.write bytes) (.count ((net.send bytes t.network).1.mapError .io))
        { t with network := (net.send bytes t.network).2 }
  /-- The keepalive option is kept for the next socket. -/
  | keep {on} (hs : t.stream = none) :
      Served net t (.setOption optionNames.keepAlive (.truth on)) (.accepted (.ok ()))
        { t with keepAlive := some on }
  /-- The switch of the stream is set. -/
  | switch {on socket w} (hs : t.stream = some socket)
      (h : net.setKeepAlive on t.network = (.ok (), w)) :
      Served net t (.setOption optionNames.keepAlive (.truth on)) (.accepted (.ok ()))
        { t with network := w, stream := some { socket with keepAlive := on }, keepAlive := some on }
  /-- The network refuses to set it. -/
  | switchFails {on w cause} (hs : t.stream.isSome = true)
      (h : net.setKeepAlive on t.network = (.error cause, w)) :
      Served net t (.setOption optionNames.keepAlive (.truth on)) (.accepted (.error (.io cause)))
        { t with network := w }
  /-- There is no such option, or it has no such value. -/
  | refuse {name value fault} (h : name ≠ optionNames.keepAlive ∨ value.truth? = none) :
      Served net t (.setOption name value) (.accepted (.error fault)) t
  | retrieve : Served net t .retrieve (.settings (retrieve t)) t

/-- A read from a stream asks the network, and changes nothing else. -/
theorem read_stream {t : Tcp ρ ω} (hs : t.stream.isSome = true) :
    ((Tcp.read net).run t).state =
      { t with network := (net.receive receiveBufferSize t.network).2 } := by
  obtain ⟨socket, hs⟩ := Option.isSome_iff_exists.mp hs
  rcases ha : net.receive receiveBufferSize t.network with ⟨cause | _ | _ | ⟨b, bytes⟩, w⟩
  · simp [Tcp.read, hs, ha]
  · simp [Tcp.read, hs, ha]
  · simp [Tcp.read, hs, ha]
  · cases hr : t.receiver with
    | none | some => simp [Tcp.read, hs, ha, deliver, hr]

/-- Every request turns out so. -/
theorem serve_served (t : Tcp ρ ω) (q : Request) :
    let o := ((transport net res).serve q).run t
    Served net t q o.answer o.state := by
  cases q with
  | establish receiver =>
    have polled := establish_polled net res receiver t
    simpa [Transport.serve, Transport.recorded, transport] using Served.establish polled
  | close =>
    simpa [Transport.serve, Transport.recorded, transport, Tcp.close] using Served.close
  | read =>
    cases hs : t.stream with
    | none =>
      simpa [Transport.serve, Transport.recorded, transport, Tcp.read, hs] using Served.readNothing hs
    | some socket =>
      have held : t.stream.isSome = true := by simp [hs]
      have served : Served net t .read (.progress ((Tcp.read net).run t).answer)
          { t with network := (net.receive receiveBufferSize t.network).2 } := .read held
      rw [← read_stream net held] at served
      simpa [Transport.serve, Transport.recorded, transport] using served
  | write bytes =>
    cases hs : t.stream with
    | none =>
      simpa [Transport.serve, Transport.offer, Transport.recorded, transport, Tcp.write, hs] using
        Served.writeNothing hs
    | some socket =>
      have held : t.stream.isSome = true := by simp [hs]
      simpa [Transport.serve, Transport.offer, Transport.recorded, transport, Tcp.write, hs] using
        Served.write held
  | setOption name value =>
    by_cases hn : name = optionNames.keepAlive
    · subst hn
      cases value with
      | whole | text =>
        simpa [Transport.serve, Transport.unrecorded, transport, setOption, Setting.truth?] using
          Served.refuse (.inr rfl)
      | truth on =>
        cases hs : t.stream with
        | none =>
          simpa [Transport.serve, Transport.unrecorded, transport, setOption, Setting.truth?, hs]
            using Served.keep hs
        | some socket =>
          have held : t.stream.isSome = true := by simp [hs]
          rcases hk : net.setKeepAlive on t.network with ⟨cause | _, w⟩
          · simpa [Transport.serve, Transport.unrecorded, transport, setOption, Setting.truth?, hs,
              Network.switchKeepAlive, hk] using Served.switchFails held hk
          · simpa [Transport.serve, Transport.unrecorded, transport, setOption, Setting.truth?, hs,
              Network.switchKeepAlive, hk] using Served.switch hs hk
    · simpa [Transport.serve, Transport.unrecorded, transport, setOption, hn] using
        Served.refuse (.inl hn)
  | retrieve => exact .retrieve

/-- Setting an option is the request to do so. -/
theorem setOption_served {name : String} {value : Setting} {t u : Tcp ρ ω}
    {answer : Except Fault Unit} {effects : List Effect}
    (run : ((transport net res).setOption name value).run t = ⟨answer, u, effects⟩) :
    Served net t (.setOption name value) (.accepted answer) u := by
  have served := serve_served net res t (.setOption name value)
  simpa [Transport.serve, Transport.unrecorded, run] using served

end Tcp

end PolledConnection
