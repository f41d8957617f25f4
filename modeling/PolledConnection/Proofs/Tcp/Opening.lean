import PolledConnection.Network.Loopback
import PolledConnection.Proofs.Options.Keeping
import PolledConnection.Proofs.Tcp.Requests
import PolledConnection.Script.Resolver

/-! # The stream behind an open

  A TCP transport remembers that its open is over in its step, and the stream
  in a field of its own. A poll that finds the socket connected sets both; a
  close gives the stream back and leaves the step alone. So an open that
  answers `done` has connected, in this poll or in an earlier one, but whether
  there is still a stream depends on the closes in between
  (`done_until_closed`): behind one, an open answers `done` and every read and
  write fails for want of a stream (`done_without_stream`).
-/

namespace PolledConnection.Tcp

open Transport (Request Answer)

variable {ρ ω : Type} (net : Network ω) (res : Resolver ρ) {t u : Tcp ρ ω}

/-! ### With a stream and without -/

/-- Reads and writes reach the network, and fail only if it says so. -/
structure Usable (net : Network ω) (t : Tcp ρ ω) : Prop where
  reads : ((read net).run t).state.network = (net.receive receiveBufferSize t.network).2
  readFails : ((read net).run t).answer = .failed ↔
    (∃ cause, (net.receive receiveBufferSize t.network).1 = .error cause) ∨
      (net.receive receiveBufferSize t.network).1 = .ok (some [])
  writes : ∀ bytes, ((write net bytes).run t).answer = (net.send bytes t.network).1.mapError .io ∧
    ((write net bytes).run t).state.network = (net.send bytes t.network).2

/-- Reads and writes fail, and the network is not asked. -/
structure Severed (net : Network ω) (t : Tcp ρ ω) : Prop where
  reads : (read net).run t = ⟨.failed, t, []⟩
  writes : ∀ bytes, (write net bytes).run t = ⟨.error (.io (.bare .notConnected)), t, []⟩

theorem usable_of_stream (hs : t.stream.isSome = true) : Usable net t := by
  refine ⟨by rw [read_stream net hs], ?_, ?_⟩
  · obtain ⟨socket, hs⟩ := Option.isSome_iff_exists.mp hs
    rcases ha : net.receive receiveBufferSize t.network with ⟨cause | _ | _ | ⟨b, bytes⟩, w⟩
    · simp [read, hs, ha]
    · simp [read, hs, ha]
    · simp [read, hs, ha]
    · simp [read, hs, ha]
  · intro bytes
    obtain ⟨socket, hs⟩ := Option.isSome_iff_exists.mp hs
    simp [write, hs]

theorem severed_of_bare (hs : t.stream = none) : Severed net t where
  reads := by simp [read, hs]
  writes bytes := by simp [write, hs]

/-! ### Requests -/

/-- A poll that is done leaves the open over. -/
theorem Polled.opened {receiver : Receiver} (polled : Polled net receiver t .done u) :
    u.step = .opened := by
  cases polled with
  | connected => rfl
  | already hs => exact hs

/-- Only a poll that connects opens. -/
theorem Served.opens {q : Request} {a : Answer} (served : Served net t q a u)
    (before : t.step ≠ .opened) (after : u.step = .opened) :
    ∃ receiver, q = .establish receiver ∧ a = .progress .done ∧ t.step = .connect ∧
      u.stream.isSome = true := by
  cases served with
  | @establish receiver _ _ polled =>
    cases polled with
    | connected hs h =>
      obtain ⟨socket, rfl, -⟩ := Network.pollConnect_slot h
      exact ⟨receiver, rfl, rfl, hs, rfl⟩
    | looked hs next =>
      rcases next with rfl | rfl
      · simp at after
      · simp at after
    | pending => exact absurd after before
    | already hs => exact absurd hs before
    | failed => simp at after
  | close => exact absurd after before
  | readNothing | read | writeNothing | write | keep | switch | switchFails | refuse | retrieve =>
    exact absurd after before

/-- An open that is over stays so, and the stream stays until a close. -/
theorem Served.opened {q : Request} {a : Answer} (served : Served net t q a u)
    (opened : t.step = .opened) :
    u.step = .opened ∧ (u.stream.isSome = true ↔ t.stream.isSome = true ∧ q ≠ .close) := by
  cases served with
  | establish polled =>
    cases polled with
    | already hs => simp [opened]
    | looked hs | pending hs | connected hs => simp [opened] at hs
    | failed hs => exact absurd opened hs
  | close => simp [release, opened]
  | switch hs => simp [opened, hs]
  | readNothing | read | writeNothing | write | keep | switchFails | refuse | retrieve => simp [opened]

/-- **Run**: behind an open that is over, the stream is there until a close. -/
theorem stream_of_opened (qs : List Request) (opened : t.step = .opened) :
    let u := (transport net res).stateFrom t qs
    u.step = .opened ∧ (u.stream.isSome = true ↔ t.stream.isSome = true ∧ .close ∉ qs) := by
  induction qs generalizing t with
  | nil => simpa using opened
  | cons q qs ih =>
    obtain ⟨still, stream⟩ := (serve_served net res t q).opened net opened
    obtain ⟨stays, streams⟩ := ih still
    rw [Transport.stateFrom_cons]
    refine ⟨stays, ?_⟩
    rw [streams, stream, List.mem_cons, not_or, and_assoc, ne_comm]

/-- **Run**: an open that got over did so in a poll that connected. -/
theorem opened_split (qs : List Request) (before : t.step ≠ .opened)
    (opened : ((transport net res).stateFrom t qs).step = .opened) :
    ∃ early first later, qs = early ++ .establish first :: later ∧
      let v := (transport net res).stateFrom t early
      v.step = .connect ∧ ((establish net res first).run v).answer = .done ∧
        ((establish net res first).run v).state.stream.isSome = true ∧
        (((transport net res).stateFrom t qs).stream.isSome = true ↔ .close ∉ later) := by
  induction qs generalizing t with
  | nil => exact absurd opened before
  | cons q qs ih =>
    have served := serve_served net res t q
    rw [Transport.stateFrom_cons] at opened ⊢
    by_cases now : (((transport net res).serve q).run t).state.step = .opened
    · obtain ⟨first, rfl, answer, connecting, connected⟩ := served.opens net before now
      obtain ⟨-, stream⟩ := stream_of_opened net res qs now
      refine ⟨[], first, qs, rfl, connecting, ?_, ?_, ?_⟩
      · exact Answer.progress.inj answer
      · exact connected
      · simpa [connected] using stream
    · obtain ⟨early, first, later, rfl, split⟩ := ih now opened
      refine ⟨q :: early, first, later, rfl, ?_⟩
      rw [Transport.stateFrom_cons]
      exact split

/-! ### Made transports -/

/-- Without a stream, setting an option asks nothing of the network. -/
theorem setOption_bare (name : String) (value : Setting) (hs : t.stream = none) :
    ∃ answer keepAlive, (setOption net name value).run t =
      ⟨answer, { t with keepAlive := keepAlive }, []⟩ := by
  by_cases hn : name = optionNames.keepAlive
  · cases hv : value.truth? with
    | none => exact ⟨_, t.keepAlive, by simp [setOption, hn, hv]; rfl⟩
    | some keepAlive => exact ⟨_, some keepAlive, by simp [setOption, hn, hv, hs]; rfl⟩
  · exact ⟨_, t.keepAlive, by simp [setOption, hn]; rfl⟩

/-- A transport that was made has its options, and is new otherwise. -/
theorem create_fresh {resolver : ρ} {network : ω} {endpoint : Endpoint}
    (made : (create net res resolver network endpoint).result = .ok t) :
    t = { fresh resolver network endpoint with keepAlive := t.keepAlive } := by
  unfold create at made
  split at made
  · simp at made
  · let New (u : Tcp ρ ω) : Prop :=
      ∃ k, u = { fresh resolver network endpoint with keepAlive := k }
    have new : New t := by
      refine Transport.configured_invariant New made (fun name value s new => ?_) ⟨none, rfl⟩
      obtain ⟨k, rfl⟩ := new
      have bare : { fresh resolver network endpoint with keepAlive := k }.stream = none := rfl
      obtain ⟨answer, keepAlive, run⟩ := setOption_bare net name value bare
      exact ⟨keepAlive, congrArg Outcome.state run⟩
    obtain ⟨k, rfl⟩ := new
    rfl

/-! ### The theorem -/

/-- **What an open that is done is worth.** Take any TCP transport that was made, and any run of
    requests to it after which an open answers `done`. One of the polls up to this one has connected:
    it went on from the connect, answered `done`, and the stream was there. It is still there exactly
    if the transport was not closed since; then reads and writes reach the network, and otherwise
    they all fail. -/
theorem done_until_closed {resolver : ρ} {network : ω} {endpoint : Endpoint}
    (made : (create net res resolver network endpoint).result = .ok t) (qs : List Request)
    (receiver : Receiver)
    (ready : ((establish net res receiver).run
      ((transport net res).stateFrom t qs)).answer = .done) :
    let u := (transport net res).stateFrom t (qs ++ [.establish receiver])
    ∃ early first later, qs ++ [.establish receiver] = early ++ .establish first :: later ∧
      let v := (transport net res).stateFrom t early
      v.step = .connect ∧ ((establish net res first).run v).answer = .done ∧
        ((establish net res first).run v).state.stream.isSome = true ∧
        (u.stream.isSome = true ↔ .close ∉ later) ∧
        (.close ∉ later → Usable net u) ∧ (.close ∈ later → Severed net u) := by
  intro u
  have new : t.step ≠ .opened := by
    rw [create_fresh net res made]
    simp [fresh]
  have opened : u.step = .opened := by
    have polled := establish_polled net res receiver ((transport net res).stateFrom t qs)
    simp only [ready] at polled
    have state : u =
        ((establish net res receiver).run ((transport net res).stateFrom t qs)).state := by
      show (transport net res).stateFrom t (qs ++ [.establish receiver]) = _
      rw [Transport.stateFrom_append, Transport.stateFrom_singleton]
      rfl
    rw [state]
    exact polled.opened net
  obtain ⟨early, first, later, split, connecting, answer, connected, stream⟩ :=
    opened_split net res _ new opened
  refine ⟨early, first, later, split, connecting, answer, connected, stream, ?_, ?_⟩
  · intro unclosed
    exact usable_of_stream net (stream.mpr unclosed)
  · intro closed
    refine severed_of_bare net ?_
    cases hs : u.stream with
    | none => rfl
    | some socket =>
      have held : u.stream.isSome = true := by rw [hs]; rfl
      exact absurd closed (stream.mp held)

/-- A transport to a host that listens. -/
def reachable : Transport.Creation (Tcp Script.Lookups Loopback) :=
  create Loopback.network Script.resolver [.ok (some Tls.OverTcp.listener)]
    (.new true [(Tls.OverTcp.listener, .listening)]) (.of "h" 443)

/-- An open of it is done in the second poll, which has connected. -/
theorem done_until_closed_reachable :
    ∃ t, reachable.result = .ok t ∧
      let T := transport (ρ := Script.Lookups) Loopback.network Script.resolver
      ((establish Loopback.network Script.resolver ⟨"rx"⟩).run
          (T.stateFrom t [.establish ⟨"rx"⟩])).answer = .done ∧
        ∃ early first later,
          [Request.establish ⟨"rx"⟩, .establish ⟨"rx"⟩] = early ++ .establish first :: later ∧
            ((T.stateFrom t [.establish ⟨"rx"⟩, .establish ⟨"rx"⟩]).stream.isSome = true ↔
              .close ∉ later) := by
  obtain ⟨t, made, ready⟩ : ∃ t, reachable.result = .ok t ∧
      ((establish Loopback.network Script.resolver ⟨"rx"⟩).run
        ((transport Loopback.network Script.resolver).stateFrom t
          [.establish ⟨"rx"⟩])).answer = .done := ⟨_, rfl, by decide⟩
  obtain ⟨early, first, later, split, -, -, -, stream, -⟩ :=
    done_until_closed Loopback.network Script.resolver made [.establish ⟨"rx"⟩] ⟨"rx"⟩ ready
  exact ⟨t, made, ready, early, first, later, split, stream⟩

/-- Behind a close, an open is done without a stream. -/
theorem done_without_stream :
    ∃ t, reachable.result = .ok t ∧
      let T := transport (ρ := Script.Lookups) Loopback.network Script.resolver
      let closed := T.stateFrom t [.establish ⟨"rx"⟩, .establish ⟨"rx"⟩, .close]
      let opened := (establish Loopback.network Script.resolver ⟨"rx"⟩).run closed
      opened.answer = .done ∧ opened.state.stream = none ∧
        ((read Loopback.network).run opened.state).answer = .failed ∧
        ((write Loopback.network [1]).run opened.state).answer =
          .error (.io (.bare .notConnected)) := by
  refine ⟨_, rfl, ?_⟩
  decide

end PolledConnection.Tcp
