import PolledConnection.Proofs.Connection.Failure
import PolledConnection.Proofs.Tcp.Incoming

/-! # The last bytes of a peer

  What a connection over TCP hands out is what was read from its stream, and
  nothing else is: at every moment it is what the peer has written so far, up
  to some byte. Where a read sees the end of the stream, all of it was handed
  out before, and the error is told behind that (`last_bytes_first`).

  A poll that finds the connection open and leaves it open reads until nothing
  more has arrived, and then writes. The poll in which the open ends reads
  nothing yet (`poll_leaves_bytes`).

  The network carries the bytes of the peer (`Network.Carries`). The peer acts
  during the calls of the network and between them, so a run consists of what
  the caller asks for and of stretches in which time passes (`Turn`).
-/

namespace PolledConnection

open Connection (Move Moves called inside transported)
open Tls (effects receipts)

variable {ρ ω : Type}

namespace Tcp

variable (net : Network ω) {t u : Tcp ρ ω} {view : ω → Inbound}

/-! ### Connections -/

/-- A read has seen the end of the stream. -/
def closedByPeer : Event := .transport (.effect (.note .peerClosed))

/-- What follows in a connection: the error is told. -/
def closedReport (tag : Tag) (rest : List Event) : List Event :=
  called (.read .failed) :: .note .readFailed :: .note (.phaseChanged .opened .failed) ::
    .ioError tag .failed :: rest

/-- A read that sees the end of the stream fails, and tells nothing else. -/
theorem read_closed {a : Progress} {effects : List Effect} (run : (read net).run t = ⟨a, u, effects⟩)
    (member : .note .peerClosed ∈ effects) : a = .failed ∧ effects = [.note .peerClosed] := by
  cases hs : t.stream with
  | none =>
    obtain ⟨-, -, rfl⟩ : .failed = a ∧ t = u ∧ [] = effects := by simpa [read, hs] using run
    simp at member
  | some socket =>
    rcases ha : net.receive receiveBufferSize t.network with ⟨cause | _ | _ | ⟨b, bytes⟩, w⟩
    · obtain ⟨-, -, rfl⟩ : .failed = a ∧ _ = u ∧ [.note (.receiveFailed cause)] = effects := by
        simpa [read, hs, ha] using run
      simp at member
    · obtain ⟨-, -, rfl⟩ : .waiting = a ∧ _ = u ∧ [] = effects := by simpa [read, hs, ha] using run
      simp at member
    · obtain ⟨rfl, -, rfl⟩ : .failed = a ∧ _ = u ∧ [.note .peerClosed] = effects := by
        simpa [read, hs, ha] using run
      exact ⟨rfl, rfl⟩
    · cases hr : t.receiver with
      | none =>
        obtain ⟨-, -, rfl⟩ : .done = a ∧ _ = u ∧ [] = effects := by
          simpa [read, hs, ha, deliver, hr] using run
        simp at member
      | some r =>
        obtain ⟨-, -, rfl⟩ : .done = a ∧ _ = u ∧ [.received r.tag (b :: bytes)] = effects := by
          simpa [read, hs, ha, deliver, hr] using run
        simp at member

section
variable {net : Network ω} {res : Resolver ρ} {c d : Connection (Tcp ρ ω)}
variable {gs : List Connection.Grant} {es fs : List Event}

theorem closedByPeer_inside {effects : List Effect} :
    closedByPeer ∈ inside effects ↔ .note .peerClosed ∈ effects := by
  simp [closedByPeer, inside]

/-- The end of the stream is seen in a read that fails, and then the connection fails. -/
theorem move_closedByPeer (move : Move (transport net res) c gs fs d)
    (client : c.phase = .opened → c.client.isSome = true) (member : closedByPeer ∈ fs) :
    c.phase = .opened ∧ d.phase = .failed ∧
      ∃ tag, fs = closedByPeer :: closedReport tag [] ∧ closedByPeer ∉ closedReport tag [] := by
  -- What is told in a call that is not a read, and what the connection adds to it.
  have elsewhere {effects : List Effect} {rest : List Event} (unread : Unread effects)
      (others : closedByPeer ∉ rest) : closedByPeer ∉ inside effects ++ rest := by
    intro member
    rcases List.mem_append.mp member with within | behind
    · exact unread.closed (closedByPeer_inside.mp within)
    · exact others behind
  cases move with
  | refuse | beginOpen | queue | beginClose | breakOpen | dropOpen => simp [closedByPeer] at member
  | @offer name value r s effects h =>
    have unread := unread_setOption net name value c.transport
    rw [show (setOption net name value).run c.transport = _ from h] at unread
    exact absurd (closedByPeer_inside.mp member) unread.closed
  | @openWaits tag s effects hp hc h | @openDone tag s effects hp hc h
  | @openFails tag s effects hp hc h =>
    have unread := unread_establish net res ⟨tag⟩ c.transport
    rw [show (establish net res ⟨tag⟩).run c.transport = _ from h] at unread
    exact absurd member (elsewhere unread (by simp [closedByPeer, called]))
  | @writeStays head tail n s effects hp hm h | @writeEnds head tail n s effects hp hm h
  | @writeFails head tail fault s effects hp hm h =>
    have unread := unread_write net head.rest c.transport
    rw [show (write net head.rest).run c.transport = _ from h] at unread
    exact absurd member (elsewhere unread (by simp [closedByPeer, called]))
  | @closeWaits s effects hp h | @closeEnds a s effects hp ha h | @destroy a s effects hp h =>
    have unread := unread_close net c.transport
    rw [show (close net).run c.transport = _ from h] at unread
    exact absurd member (elsewhere unread (by simp [closedByPeer, called, Connection.farewell]))
  | @read a s effects hp ha h =>
    have seen : .note .peerClosed ∈ effects := by
      simpa [closedByPeer, inside, called] using member
    exact absurd (read_closed net h seen).1 ha
  | @readFails s effects hp h =>
    have seen : .note .peerClosed ∈ effects := by
      simpa [closedByPeer, inside, called] using member
    obtain ⟨-, rfl⟩ := read_closed net h seen
    obtain ⟨tag, hc⟩ := Option.isSome_iff_exists.mp (client hp)
    refine ⟨hp, rfl, tag, ?_, ?_⟩
    · simp [closedByPeer, closedReport, inside, hc]
    · simp [closedByPeer, closedReport, called]

/-- While the connection may still be open it has not failed, and no error was told. -/
theorem move_quiet {σ : Type} {T : Transport σ} {c d : Connection σ} {gs : List Connection.Grant}
    {fs : List Event} (move : Move T c gs fs d) (early : d.phase.rank ≤ Phase.rank .opened)
    (tag : Tag) (phase : Phase) : .ioError tag phase ∉ fs := by
  cases move with
  | readFails | writeFails => simp [Phase.rank] at early
  | refuse | offer | beginOpen | openWaits | openDone | openFails | read | queue | writeStays
  | writeEnds | beginClose | breakOpen | dropOpen | closeWaits =>
    simp [inside, called]
  | closeEnds | destroy => simp [Connection.ended, Phase.rank] at early

/-- Whoever has opened is there as long as the connection opens or is open. -/
theorem move_client {σ : Type} {T : Transport σ} {c d : Connection σ} {gs : List Connection.Grant}
    {fs : List Event} (move : Move T c gs fs d)
    (client : c.phase = .opening ∨ c.phase = .opened → c.client.isSome = true)
    (early : d.phase = .opening ∨ d.phase = .opened) : d.client.isSome = true := by
  cases move with
  | refuse | offer => exact client early
  | beginOpen => rfl
  | openWaits hp | openDone hp => exact client (.inl hp)
  | read hp | queue _ _ hp | writeStays hp | writeEnds hp => exact client (.inr hp)
  | closeWaits hp => simp [hp] at early
  | openFails | readFails | writeFails | beginClose | breakOpen | dropOpen => simp at early
  | closeEnds | destroy => simp [Connection.ended] at early

/-- A connection and its history: what was handed out, and how the end of the stream is told. -/
structure Account (view : ω → Inbound) (es : List Event) (c : Connection (Tcp ρ ω)) : Prop where
  fed : Fed view (effects (transported es)) c.transport
  /-- The open of the transport is over when that of the connection is. -/
  unopened : c.phase.rank ≤ Phase.rank .opening → c.transport.step ≠ .opened
  stream : c.phase = .opened → c.transport.stream.isSome = true
  client : c.phase = .opening ∨ c.phase = .opened → c.client.isSome = true
  quiet : c.phase.rank ≤ Phase.rank .opened → closedByPeer ∉ es ∧ ∀ tag phase, .ioError tag phase ∉ es
  /-- Where the end of the stream was seen, no error was told before, and it is told directly then. -/
  ended : ∀ pre post, es = pre ++ closedByPeer :: post →
    (∀ tag phase, .ioError tag phase ∉ pre) ∧ ∃ tag rest, post = closedReport tag rest

namespace Account

/-- The reads of a move hand out what comes next. -/
theorem fed_move (carries : net.Carries view) (account : Account view es c)
    (move : Move (transport net res) c gs fs d) :
    Fed view (effects (transported (es ++ fs))) d.transport := by
  rcases move.request with ⟨events, same, -⟩ | ⟨q, events, state, -, -⟩
  · rw [Connection.transported_append, events, same, List.append_nil]
    exact account.fed
  · have step := account.fed.request carries res q
    rw [Connection.transported_append, Tls.effects_append, ← events, ← state]
    exact step

/-- Only a poll that is done opens the transport, and that poll opens the connection too. -/
theorem unopened_move (account : Account view es c) (move : Move (transport net res) c gs fs d)
    (early : d.phase.rank ≤ Phase.rank .opening) : d.transport.step ≠ .opened := by
  have waits {q : Transport.Request} {answer : Transport.Answer} {u : Tcp ρ ω}
      (served : Served net c.transport q answer u) (before : c.transport.step ≠ .opened)
      (notDone : answer ≠ .progress .done) : u.step ≠ .opened := by
    intro opened
    obtain ⟨-, -, done, -⟩ := served.opens net before opened
    exact notDone done
  cases move with
  | refuse => exact account.unopened early
  | offer h => exact waits (setOption_served net res h) (account.unopened early) (by simp)
  | beginOpen tag hp => exact account.unopened (by simp [hp, Phase.rank])
  | @openWaits tag s effects hp hc h =>
    have polled := establish_polled net res ⟨tag⟩ c.transport
    rw [show (establish net res ⟨tag⟩).run c.transport = _ from h] at polled
    exact waits (.establish polled) (account.unopened early) (by simp)
  | queue tag bytes hp | writeStays hp | writeEnds hp | closeWaits hp =>
    simp [hp, Phase.rank] at early
  | read hp =>
    simp [hp, Phase.rank] at early
  | openDone | openFails | readFails | writeFails | beginClose | breakOpen | dropOpen =>
    simp [Phase.rank] at early
  | closeEnds | destroy => simp [Connection.ended, Phase.rank] at early

/-- An open connection has a stream: the poll that opens it connects one, and nothing but a close
    gives it back. -/
theorem stream_move (account : Account view es c) (move : Move (transport net res) c gs fs d)
    (opened : d.phase = .opened) : d.transport.stream.isSome = true := by
  have kept {q : Transport.Request} (hq : q ≠ .close) (hp : c.phase = .opened) :
      (((transport net res).serve q).run c.transport).state.stream.isSome = true := by
    have held := account.stream hp
    have served := serve_served net res c.transport q
    exact (served.opened net (account.fed.tally.opened_of_stream held)).2.mpr ⟨held, hq⟩
  cases move with
  | refuse => exact account.stream opened
  | queue tag bytes hp => exact account.stream hp
  | @offer name value r s effects h =>
    have held := kept (q := .setOption name value) (by simp) opened
    simpa [Transport.serve, Transport.unrecorded, h] using held
  | @openDone tag s effects hp hc h =>
    have polled := establish_polled net res ⟨tag⟩ c.transport
    rw [show (establish net res ⟨tag⟩).run c.transport = _ from h] at polled
    have before := account.unopened (by simp [hp])
    obtain ⟨-, -, -, -, held⟩ := (Served.establish polled).opens net before (polled.opened net)
    exact held
  | read hp ha h =>
    have held := kept (q := .read) (by simp) hp
    simpa [Transport.serve, Transport.recorded, h] using held
  | @writeStays head tail n s effects hp hm h | @writeEnds head tail n s effects hp hm h =>
    have held := kept (q := .write head.rest) (by simp) hp
    simpa [Transport.serve, Transport.offer, Transport.recorded, h] using held
  | openWaits hp | closeWaits hp => simp [hp] at opened
  | beginOpen | openFails | readFails | writeFails | beginClose | breakOpen | dropOpen =>
    simp at opened
  | closeEnds | destroy => simp [Connection.ended] at opened

/-- Up to the end of the stream no error is told. -/
theorem quiet_move (account : Account view es c) (move : Move (transport net res) c gs fs d)
    (early : d.phase.rank ≤ Phase.rank .opened) :
    closedByPeer ∉ es ++ fs ∧ ∀ tag phase, .ioError tag phase ∉ es ++ fs := by
  have before : c.phase.rank ≤ Phase.rank .opened :=
    Nat.le_trans (Moves.single move).rank_le early
  obtain ⟨unseen, silent⟩ := account.quiet before
  constructor
  · intro member
    rcases List.mem_append.mp member with old | new
    · exact unseen old
    · obtain ⟨-, failed, -⟩ :=
        move_closedByPeer move (fun opened => account.client (.inr opened)) new
      simp [failed, Phase.rank] at early
  · intro tag phase member
    rcases List.mem_append.mp member with old | new
    · exact silent tag phase old
    · exact move_quiet move early tag phase new

/-- The end of the stream is told directly when it is seen. -/
theorem ended_move (account : Account view es c) (move : Move (transport net res) c gs fs d)
    {pre post : List Event} (split : es ++ fs = pre ++ closedByPeer :: post) :
    (∀ tag phase, .ioError tag phase ∉ pre) ∧ ∃ tag rest, post = closedReport tag rest := by
  by_cases seen : closedByPeer ∈ fs
  -- The connection was open, so the end is seen for the first time here.
  · obtain ⟨opened, -, tag, rfl, once⟩ :=
      move_closedByPeer move (fun opened => account.client (.inr opened)) seen
    obtain ⟨unseen, silent⟩ := account.quiet (by simp [opened])
    have early : ∀ e ∈ es, ¬ closedByPeer = e := by
      rintro _ old rfl
      exact unseen old
    have late : ∀ e ∈ closedReport tag [], ¬ closedByPeer = e := by
      rintro _ new rfl
      exact once new
    obtain ⟨rfl, -, rfl⟩ := Connection.Breakdown.split_unique split rfl early late
    exact ⟨silent, tag, [], rfl⟩
  · obtain ⟨rest, before, rfl⟩ := split_of_notMem seen split
    obtain ⟨silent, tag, report, rfl⟩ := account.ended pre rest before
    exact ⟨silent, tag, report ++ fs, rfl⟩

/-- **Step**: a move keeps the account. -/
theorem move (carries : net.Carries view) (account : Account view es c)
    (move : Move (transport net res) c gs fs d) : Account view (es ++ fs) d where
  fed := account.fed_move carries move
  unopened := account.unopened_move move
  stream := account.stream_move move
  client := move_client move account.client
  quiet := account.quiet_move move
  ended _ _ := account.ended_move move

end Account

/-- **Step**: time passes between the moves of a connection. -/
theorem Account.elapse (account : Account view es c) {w : ω}
    (idles : (view c.transport.network).Idles (view w)) :
    Account view es { c with transport := { c.transport with network := w } } :=
  ⟨account.fed.elapse idles, account.unopened, account.stream, account.client, account.quiet,
    account.ended⟩

/-- **Run**: many moves keep the account. -/
theorem Account.moves (carries : net.Carries view) (account : Account view es c)
    (moves : Moves (transport net res) c gs fs d) : Account view (es ++ fs) d := by
  induction moves with
  | refl => simpa using account
  | snoc _ last ih =>
    rw [← List.append_assoc]
    exact ih.move carries last

end

/-! ### Polls -/

section
variable {net : Network ω} {res : Resolver ρ} {c : Connection (Tcp ρ ω)}

/-- Reads use up what the network can give. -/
theorem drainsBacklog (carries : net.Carries view) : (transport net res).DrainsBacklog := by
  intro t done
  show net.backlog ((read net).run t).state.network < net.backlog t.network
  replace done : ((read net).run t).answer = .done := done
  cases hs : t.stream with
  | none => simp [read, hs] at done
  | some socket =>
    rw [read_stream net (by simp [hs])]
    rcases ha : net.receive receiveBufferSize t.network with ⟨cause | _ | _ | ⟨b, bytes⟩, w⟩
    · simp [read, hs, ha] at done
    · simp [read, hs, ha] at done
    · simp [read, hs, ha] at done
    · have less := carries.drains receiveBufferSize t.network (b :: bytes) (by decide) (by rw [ha])
        (by simp)
      simpa [ha] using less

/-- One read over an open stream. -/
theorem run_read (res : Resolver ρ) (carries : net.Carries view) {t : Tcp ρ ω} {r : Receiver}
    (hs : t.stream.isSome = true) (hr : t.receiver = some r) :
    ∃ a w effects, Fetched r (view t.network) a effects (view w) ∧
      (transport net res).read.run t = ⟨a, { t with network := w }, effects⟩ := by
  have fetched := read_fetched carries hs hr
  have same := read_stream net hs
  rcases h : (read net).run t with ⟨a, u, effects⟩
  rw [h] at fetched same
  obtain rfl : u = { t with network := (net.receive receiveBufferSize t.network).2 } := same
  exact ⟨a, _, effects, fetched, h⟩

/-- Reading until nothing is left ends at a moment when all that had arrived was read. -/
theorem readAll_drains (carries : net.Carries view) {limit : Nat}
    (ends : (transport net res).EndsWithin limit c.transport) {r : Receiver}
    (hs : c.transport.stream.isSome = true) (hr : c.transport.receiver = some r)
    (waits : ((Connection.readAll (transport net res) limit).run c).answer = .waiting) :
    ∃ s, (view c.transport.network).Grows s ∧ s.taken = s.arrived ∧
      s.Idles (view ((Connection.readAll (transport net res) limit).run c).state.transport.network) := by
  induction limit generalizing c with
  | zero =>
    obtain ⟨a, w, effects, fetched, run⟩ := run_read res carries hs hr
    rw [Connection.run_readAll_last run (.inr rfl)] at waits ⊢
    obtain rfl : a = .waiting := waits
    cases fetched with
    | nothing before all behind => exact ⟨_, before.grows, all, behind⟩
  | succ limit ih =>
    obtain ⟨a, w, effects, fetched, run⟩ := run_read res carries hs hr
    cases fetched with
    | nothing before all behind =>
      rw [Connection.run_readAll_last run (.inl (by simp))]
      exact ⟨_, before.grows, all, behind⟩
    | ended | broken =>
      rw [Connection.run_readAll_last run (.inl (by simp))] at waits
      contradiction
    | bytes some fits grows taken =>
      -- The other reads go on from the network behind this one.
      have rest : (transport net res).EndsWithin limit { c.transport with network := w } := by
        simpa [Transport.EndsWithin, run] using ends
      rw [Connection.run_readAll_more run] at waits ⊢
      obtain ⟨s, later, all, behind⟩ := ih
        (c := { c with transport := { c.transport with network := w } }) rest hs hr waits
      exact ⟨s, grows.trans later, all, behind⟩

/-- Offering bytes reads nothing. -/
theorem pollSend_idles (res : Resolver ρ) (carries : net.Carries view) {c : Connection (Tcp ρ ω)}
    (hp : c.phase = .opened) :
    (view c.transport.network).Idles
      (view ((Connection.pollSend (transport net res)).run c).state.transport.network) := by
  cases hm : c.outbox.messages with
  | nil =>
    rw [Connection.run_pollSend_empty hm]
    exact .refl
  | cons head tail =>
    have written : (view c.transport.network).Idles
        (view ((write net head.rest).run c.transport).state.network) := by
      cases hs : c.transport.stream with
      | none => simpa [write, hs] using Inbound.Idles.refl
      | some socket => simpa [write, hs] using carries.send head.rest c.transport.network
    rcases h : ((transport net res).write head.rest).run c.transport with ⟨a, u, effects⟩
    obtain ⟨d, rest, run, rfl, -⟩ := Connection.run_pollSend_offers hp hm h
    have same : ((write net head.rest).run c.transport).state = d.transport := congrArg Outcome.state h
    rw [same] at written
    rw [run]
    exact written

/-- **Polls**: a poll that finds the connection open and leaves it open has handed out, at the moment of
    its last read, all that had arrived. -/
theorem Account.poll (carries : net.Carries view) {es : List Event} (account : Account view es c)
    (before : c.phase = .opened) :
    let o := (Connection.poll (transport net res)).run c
    o.state.phase = .opened → ∃ s, (view c.transport.network).Grows s ∧ s.taken = s.arrived ∧
      s.Idles (view o.state.transport.network) ∧ (receipts (es ++ o.events)).flatten = s.taken := by
  intro o after
  have held := account.stream before
  obtain ⟨r, hr⟩ := Option.isSome_iff_exists.mp (account.fed.tally.receiver held)
  have ends : (transport net res).EndsWithin ((transport net res).backlog c.transport) c.transport :=
    (drainsBacklog carries).endsWithin (Nat.le_refl _)
  obtain ⟨s, grows, all, idles⟩ : ∃ s, (view c.transport.network).Grows s ∧ s.taken = s.arrived ∧
      s.Idles (view o.state.transport.network) := by
    have drained := readAll_drains carries ends held hr
    obtain ⟨-, a, u, read, notDone, run, -⟩ := Connection.run_readAll ends
    rw [run] at drained
    cases a with
    | done => contradiction
    | failed =>
      have broken : o.state.phase = .failed := by simp [o, Connection.run_poll_fails before run]
      simp [broken] at after
    | waiting =>
      obtain ⟨s, grows, all, idles⟩ := drained rfl
      -- What arrives while the poll writes is behind the moment that counts.
      have sent := pollSend_idles res carries (c := { c with transport := u }) before
      have same : o.state =
          ((Connection.pollSend (transport net res)).run { c with transport := u }).state := by
        simp [o, Connection.run_poll_reads before run]
      rw [same]
      exact ⟨s, grows, all, idles.trans sent⟩
  have told : Account view (es ++ o.events) o.state :=
    account.moves carries (Connection.poll_moves (transport net res) c)
  have opened := told.fed.tally.opened_of_stream (told.stream after)
  refine ⟨s, grows, all, idles, ?_⟩
  rw [← idles.taken]
  exact told.fed.tally.opened opened

end

/-! ### Runs with a peer -/

/-- What can happen to a connection and its network. -/
inductive Turn (ω : Type) where
  /-- The caller asks for something. -/
  | ask (r : Connection.Request)
  /-- The connection is destroyed. -/
  | destroy
  /-- The peer acts, or bytes arrive. -/
  | elapse (f : ω → ω)

/-- Takes one turn. -/
def takeTurn (net : Network ω) (res : Resolver ρ) : Turn ω → Connection.Step (Tcp ρ ω) Unit
  | .ask r => (fun _ => ()) <$> Connection.serve (transport net res) r
  | .destroy => Connection.destroy (transport net res)
  | .elapse f => Act.modify fun c =>
    { c with transport := { c.transport with network := f c.transport.network } }

/-- Takes turns in order. -/
def takeTurns (net : Network ω) (res : Resolver ρ) : List (Turn ω) → Connection.Step (Tcp ρ ω) Unit
  | [] => return ()
  | turn :: rest => do
    takeTurn net res turn
    takeTurns net res rest

/-- Time passes for the network in the turns that are not the caller's. -/
def Lawful (view : ω → Inbound) (turns : List (Turn ω)) : Prop :=
  ∀ f, .elapse f ∈ turns → ∀ w, (view w).Idles (view (f w))

section
variable {net : Network ω} {c : Connection (Tcp ρ ω)} {es : List Event}

/-- **Step**: a turn keeps the account. -/
theorem Account.turn (carries : net.Carries view) (res : Resolver ρ) (account : Account view es c)
    (turn : Turn ω) (lawful : Lawful view [turn]) :
    let o := (takeTurn net res turn).run c
    Account view (es ++ o.events) o.state := by
  cases turn with
  | ask r =>
    simpa [takeTurn] using account.moves carries (Connection.serve_moves (transport net res) c r)
  | destroy => exact account.moves carries (Connection.destroy_moves (transport net res) c)
  | elapse f => simpa [takeTurn] using account.elapse (lawful f (by simp) c.transport.network)

/-- **Run**: so do turns in any order. -/
theorem Account.turns (carries : net.Carries view) (res : Resolver ρ) (account : Account view es c)
    (turns : List (Turn ω)) (lawful : Lawful view turns) :
    let o := (takeTurns net res turns).run c
    Account view (es ++ o.events) o.state := by
  induction turns generalizing c es with
  | nil => simpa [takeTurns] using account
  | cons turn rest ih =>
    have first := account.turn carries res turn fun f member =>
      lawful f (List.mem_cons.mpr (.inl (List.mem_singleton.mp member)))
    have all := ih first fun f member => lawful f (List.mem_cons_of_mem turn member)
    simpa [takeTurns] using all

/-- At first nothing was handed out. -/
theorem Account.new {res : Resolver ρ} {resolver : ρ} {network : ω} {endpoint : Endpoint}
    (made : (create net res resolver network endpoint).result = .ok t) :
    Account view [] (Connection.ofTransport t) := by
  have new := create_fresh net res made
  have step : t.step ≠ .opened := by
    rw [new]
    simp [fresh]
  have bare : t.stream = none ∧ t.dialling = none := by
    rw [new]
    exact ⟨rfl, rfl⟩
  have tally : Tally view [] t := by
    refine ⟨fun opened => absurd opened step, fun _ => ⟨rfl, bare.1⟩, ?_, ?_⟩
    · simp [bare.2]
    · simp [bare.1]
  refine ⟨⟨tally, by simp, by simp, by simp⟩, fun _ => step, ?_, ?_, by simp, by simp⟩
  · simp [Connection.ofTransport]
  · simp [Connection.ofTransport]

end

/-- **A peer's last bytes come before the error.** Take a network that carries the bytes of the peer, any
    connection over a TCP transport that was made on it, and any run, in which requests alternate with
    acts of the peer as they may. What was handed out up to any point of the run is a prefix of what the
    peer has written, in chunks of 1 to 64 bytes. Where a read has seen the end of the stream, all that
    the peer ever wrote had been handed out, and no error had been told; it is told then. A
    poll that finds the connection open and leaves it open has handed out all that had arrived at the
    moment of its last read, and so all that had arrived before the poll. -/
theorem last_bytes_first {net : Network ω} (carries : net.Carries view) (res : Resolver ρ)
    {resolver : ρ} {network : ω} {endpoint : Endpoint}
    (made : (create net res resolver network endpoint).result = .ok t) (turns : List (Turn ω))
    (lawful : Lawful view turns) :
    let o := (takeTurns net res turns).run (Connection.ofTransport t)
    let v := view o.state.transport.network
    (∀ es, es <+: o.events → (receipts es).flatten <+: v.written) ∧
    (∀ bytes ∈ receipts o.events, 1 ≤ bytes.length ∧ bytes.length ≤ 64) ∧
    (∀ pre post, o.events = pre ++ closedByPeer :: post →
      v.isOver = true ∧ (receipts pre).flatten = v.written ∧ (∀ tag phase, .ioError tag phase ∉ pre) ∧
        ∃ tag rest, post = closedReport tag rest) ∧
    (o.state.phase = .opened →
      let p := (Connection.poll (transport net res)).run o.state
      p.state.phase = .opened → ∃ s, v.Grows s ∧ s.taken = s.arrived ∧
        s.Idles (view p.state.transport.network) ∧
        (receipts (o.events ++ p.events)).flatten = s.taken ∧
        v.arrived <+: (receipts (o.events ++ p.events)).flatten) := by
  intro o v
  have account : Account view o.events o.state := by
    simpa using (Account.new made).turns carries res turns lawful
  have all : (receipts o.events).flatten <+: v.written := by
    by_cases opened : o.state.transport.step = .opened
    · have taken : (receipts o.events).flatten = v.taken := account.fed.tally.opened opened
      rw [taken]
      exact v.taken_prefix.trans v.arrived_prefix
    · have nothing : (receipts o.events).flatten = [] := (account.fed.tally.early opened).1
      rw [nothing]
      exact List.nil_prefix
  refine ⟨?_, account.fed.sizes, ?_, ?_⟩
  · rintro es ⟨rest, split⟩
    rw [← split, Tls.receipts_append, List.flatten_append] at all
    exact (List.prefix_append ..).trans all
  · intro pre post split
    have seen : effects (transported o.events) =
        effects (transported pre) ++ .note .peerClosed :: effects (transported post) := by
      rw [split]
      simp [closedByPeer, Event.transport?, effects, Transport.Event.effect?]
    obtain ⟨isOver, handed⟩ := account.fed.ended _ _ seen
    obtain ⟨silent, report⟩ := account.ended pre post split
    exact ⟨isOver, handed, silent, report⟩
  · intro before p after
    obtain ⟨s, grows, drained, idles, handed⟩ := account.poll carries before after
    refine ⟨s, grows, drained, idles, handed, ?_⟩
    rw [handed, drained]
    exact grows.arrived

/-- A transport to a host that listens, on a network of mailboxes. -/
def talking (net : Network Observed) : Transport.Creation (Tcp Script.Lookups Observed) :=
  create net Script.resolver [.ok (some Tls.OverTcp.listener)] .empty (.of "h" 443)

/-- A connect that succeeds. -/
def reached : List (Turn Observed) :=
  [.ask (.beginOpen "io"), .ask (.poll 2), .elapse (Observed.carrier (Mailbox.settle (.ok ())))]

/-- Two bytes arrive before the connection knows that it is open. -/
def greeted : List (Turn Observed) :=
  reached ++ [.elapse (Observed.carrier (Mailbox.arrive [104, 105]))]

/-- The open ends, the bytes are read, and the peer says one byte more before it ends the stream. -/
def lastWords : List (Turn Observed) :=
  greeted ++ [.ask (.poll 2), .elapse (Observed.carrier (Mailbox.arrive [33])),
    .elapse (Observed.carrier (Mailbox.finish .ended)), .ask (.poll 1)]

theorem lastWords_lawful : Lawful Observed.view lastWords := by
  intro f member w
  simp only [lastWords, greeted, reached, List.cons_append, List.nil_append, List.mem_cons,
    Turn.elapse.injEq, List.not_mem_nil, or_false, reduceCtorEq, false_or] at member
  rcases member with rfl | rfl | rfl | rfl
  · exact Observed.carrier_settle _ w
  · exact Observed.carrier_arrive _ w
  · exact Observed.carrier_arrive _ w
  · exact Observed.carrier_finish w

/-- All three bytes come before the error. -/
theorem last_bytes_first_talking :
    ∃ t, (talking Observed.network).result = .ok t ∧
      let o := (takeTurns Observed.network Script.resolver lastWords).run (Connection.ofTransport t)
      ∃ pre post, o.events = pre ++ closedByPeer :: post ∧ (receipts pre).flatten = [104, 105, 33] ∧
        ∀ tag phase, .ioError tag phase ∉ pre := by
  obtain ⟨t, made, seen, written⟩ : ∃ t, (talking Observed.network).result = .ok t ∧
      let o := (takeTurns Observed.network Script.resolver lastWords).run (Connection.ofTransport t)
      closedByPeer ∈ o.events ∧
        (Observed.view o.state.transport.network).written = [104, 105, 33] :=
    ⟨_, rfl, by decide, by decide⟩
  obtain ⟨pre, post, split⟩ := List.append_of_mem seen
  obtain ⟨-, -, ended, -⟩ :=
    last_bytes_first Observed.network_carries Script.resolver made lastWords lastWords_lawful
  obtain ⟨-, handed, silent, -⟩ := ended pre post split
  exact ⟨t, made, pre, post, split, handed.trans written, silent⟩

/-- A peer that sends back what it gets, on a line that takes one byte at a time. -/
def echoing : Network Observed :=
  { Observed.network with
    write := fun bytes o =>
      (.ok (bytes.take 1).length, Observed.carrier (Mailbox.arrive (bytes.take 1)) o) }

theorem echoing_carries : echoing.Carries Observed.view :=
  { Observed.network_carries with
    send := fun bytes o => by
      rw [Network.send_after]
      exact Observed.carrier_arrive _ o }

/-- The open ends, and a message of two bytes is half written. -/
def halfSent : List (Turn Observed) := reached ++ [.ask (.poll 1), .ask (.send "m" [1, 2])]

/-- A poll may leave the connection open with bytes that have arrived and were not read. The poll in
    which the open ends reads nothing, not even what had arrived before it; and what arrives in answer
    to the bytes that a poll writes, behind its last read, waits for the next poll. -/
theorem poll_leaves_bytes :
    (Observed.network.Carries Observed.view ∧ Lawful Observed.view greeted ∧
      ∃ t, (talking Observed.network).result = .ok t ∧
        let o := (takeTurns Observed.network Script.resolver greeted).run (Connection.ofTransport t)
        let p := (Connection.poll (transport Observed.network Script.resolver)).run o.state
        (Observed.view o.state.transport.network).arrived = [104, 105] ∧ p.state.phase = .opened ∧
          (receipts (o.events ++ p.events)).flatten = []) ∧
    (echoing.Carries Observed.view ∧ Lawful Observed.view halfSent ∧
      ∃ t, (talking echoing).result = .ok t ∧
        let o := (takeTurns echoing Script.resolver halfSent).run (Connection.ofTransport t)
        let p := (Connection.poll (transport echoing Script.resolver)).run o.state
        o.state.phase = .opened ∧ p.state.phase = .opened ∧
          (Observed.view p.state.transport.network).arrived = [1, 2] ∧
          (receipts (o.events ++ p.events)).flatten = [1]) := by
  have lawful (f : Observed → Observed) (member : .elapse f ∈ greeted) (w : Observed) :
      w.view.Idles (f w).view :=
    lastWords_lawful f (List.mem_append_left _ member) w
  refine ⟨⟨Observed.network_carries, lawful, _, rfl, by decide⟩, echoing_carries, ?_, _, rfl,
    by decide⟩
  intro f member
  refine lawful f (List.mem_append_left _ ?_)
  simpa [halfSent] using member

end Tcp

end PolledConnection
