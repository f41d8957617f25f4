import PolledConnection.Proofs.Connection.Driven

/-! # The contract with the transport

  A transport may rely on the order in which it is called: an open is tried
  until it ends, bytes flow only behind an open that succeeded, nothing flows
  behind the first failure, and a close is tried until it ends and is the last
  call of all. `InContract` is that language. What has been called so far is
  described phase by phase (`Word`), which every move keeps (`Mandate.step`).

  The second half is about single operations: which calls each of them makes
  (`Footprint`).
-/

namespace PolledConnection

open Transport (Call)

/-! ### The end of reading -/

section
variable {σ : Type} {T : Transport σ}

/-- From a state, reads answer `done` at most `n` times in a row. -/
def Transport.EndsWithin (T : Transport σ) : Nat → σ → Prop
  | 0, s => (T.read.run s).answer ≠ .done
  | n + 1, s => (T.read.run s).answer = .done → T.EndsWithin n (T.read.run s).state

/-- A transport that drains its backlog stops answering `done` within it. -/
theorem Transport.DrainsBacklog.endsWithin (h : T.DrainsBacklog) {n : Nat} {s : σ}
    (hn : T.backlog s ≤ n) : T.EndsWithin n s := by
  induction n generalizing s with
  | zero =>
    intro done
    have less := h s done
    omega
  | succ n ih =>
    intro done
    have less := h s done
    exact ih (by omega)

end

/-! ### The language -/

/-- Whether bytes can go on flowing behind a call. -/
def Transport.Call.flows : Call → Bool
  | .read .done | .read .waiting | .write _ (.ok _) => true
  | _ => false

/-- Whether a call ends the flow of bytes. -/
def Transport.Call.breaks : Call → Bool
  | .read .failed | .write _ (.error _) => true
  | _ => false

namespace Connection

variable {σ : Type} {T : Transport σ} {cs : List Call}

/-- From the end of an open to the last read or write. -/
inductive Traffic : List Call → Prop where
  /-- The open has not ended. -/
  | unopened : Traffic []
  /-- The open has failed. -/
  | refused : Traffic [.establish .failed]
  /-- Bytes flow. -/
  | flowing {ios : List Call} (h : ∀ c ∈ ios, c.flows = true) : Traffic (.establish .done :: ios)
  /-- Bytes have flowed until a call failed. -/
  | broken {ios : List Call} {last : Call} (h : ∀ c ∈ ios, c.flows = true)
      (hl : last.breaks = true) : Traffic (.establish .done :: (ios ++ [last]))

/-- The language of a transport's calls: opens that wait, traffic, closes that wait, and at most one
    close that does not wait, with nothing behind it. -/
def InContract (cs : List Call) : Prop :=
  ∃ w body v last, Traffic body ∧ (last = [] ∨ last = [.close .done] ∨ last = [.close .failed]) ∧
    cs = List.replicate w (.establish .waiting) ++ body ++ List.replicate v (.close .waiting) ++ last

/-- What has been called so far, in each phase. -/
def Word : Phase → List Call → Prop
  | .initial, cs => cs = []
  | .opening, cs => ∃ w, cs = List.replicate w (.establish .waiting)
  | .opened, cs => ∃ w ios, (∀ c ∈ ios, c.flows = true) ∧
      cs = List.replicate w (.establish .waiting) ++ .establish .done :: ios
  | .failed, cs => ∃ w body, Traffic body ∧ cs = List.replicate w (.establish .waiting) ++ body
  | .closing, cs => ∃ w body v, Traffic body ∧
      cs = List.replicate w (.establish .waiting) ++ body ++ List.replicate v (.close .waiting)
  | .closed, cs => ∃ w body v a, Traffic body ∧
      cs = List.replicate w (.establish .waiting) ++ body ++
        List.replicate v (.close .waiting) ++ [.close a]

namespace Word

theorem waits (h : Word .opening cs) : Word .opening (cs ++ [.establish .waiting]) := by
  obtain ⟨w, rfl⟩ := h
  exact ⟨w + 1, List.replicate_succ'.symm⟩

theorem opens (h : Word .opening cs) : Word .opened (cs ++ [.establish .done]) := by
  obtain ⟨w, rfl⟩ := h
  exact ⟨w, [], by simp, rfl⟩

theorem refuses (h : Word .opening cs) : Word .failed (cs ++ [.establish .failed]) := by
  obtain ⟨w, rfl⟩ := h
  exact ⟨w, _, .refused, rfl⟩

theorem flows (h : Word .opened cs) (call : Call) (hc : call.flows = true) :
    Word .opened (cs ++ [call]) := by
  obtain ⟨w, ios, flow, rfl⟩ := h
  refine ⟨w, ios ++ [call], ?_, by simp⟩
  intro c hc'
  rcases List.mem_append.mp hc' with before | last
  · exact flow c before
  · rw [List.mem_singleton.mp last]
    exact hc

theorem breaks (h : Word .opened cs) (call : Call) (hc : call.breaks = true) :
    Word .failed (cs ++ [call]) := by
  obtain ⟨w, ios, flow, rfl⟩ := h
  exact ⟨w, _, .broken flow hc, by simp⟩

/-- A close can begin in every phase between the first open and the last close. -/
theorem stops {phase : Phase} (h : Word phase cs)
    (hp : phase = .opening ∨ phase = .opened ∨ phase = .failed ∨ phase = .closing) :
    Word .closing cs := by
  rcases hp with rfl | rfl | rfl | rfl
  · obtain ⟨w, rfl⟩ := h
    exact ⟨w, [], 0, .unopened, by simp⟩
  · obtain ⟨w, ios, flow, rfl⟩ := h
    exact ⟨w, _, 0, .flowing flow, by simp⟩
  · obtain ⟨w, body, traffic, rfl⟩ := h
    exact ⟨w, body, 0, traffic, by simp⟩
  · exact h

theorem lingers (h : Word .closing cs) : Word .closing (cs ++ [.close .waiting]) := by
  obtain ⟨w, body, v, traffic, rfl⟩ := h
  exact ⟨w, body, v + 1, traffic, by rw [List.replicate_succ', ← List.append_assoc]⟩

theorem ends (h : Word .closing cs) (a : Progress) : Word .closed (cs ++ [.close a]) := by
  obtain ⟨w, body, v, traffic, rfl⟩ := h
  exact ⟨w, body, v, a, traffic, rfl⟩

/-- A close that was enforced while the transport was waiting is one more close that waits. -/
theorem inContract_of_closed (h : Word .closed cs) : InContract cs := by
  obtain ⟨w, body, v, a, traffic, rfl⟩ := h
  cases a with
  | waiting => exact ⟨w, body, v + 1, [], traffic, by simp, by simp [List.replicate_succ']⟩
  | done => exact ⟨w, body, v, _, traffic, by simp, rfl⟩
  | failed => exact ⟨w, body, v, _, traffic, by simp, rfl⟩

theorem inContract {phase : Phase} (h : Word phase cs) : InContract cs := by
  by_cases closed : phase = .closed
  · subst closed
    exact h.inContract_of_closed
  by_cases initial : phase = .initial
  · subst initial
    have nothing : cs = [] := h
    exact ⟨0, [], 0, [], .unopened, by simp, by simp [nothing]⟩
  -- All other words are those of a close that has not ended.
  have hp : phase = .opening ∨ phase = .opened ∨ phase = .failed ∨ phase = .closing := by
    cases phase <;> simp_all
  obtain ⟨w, body, v, traffic, rfl⟩ := h.stops hp
  exact ⟨w, body, v, [], traffic, by simp, by simp⟩

theorem getLast_of_closed (h : Word .closed cs) : ∃ a, cs.getLast? = some (.close a) := by
  obtain ⟨w, body, v, a, traffic, rfl⟩ := h
  exact ⟨a, List.getLast?_concat⟩

end Word

/-! ### The invariant -/

/-- The transport was called as the phase allows. -/
structure Mandate (gs : List Grant) (es : List Event) (c : Connection σ) : Prop where
  word : Word c.phase (calls es)
  /-- A connection that was asked to open is not new any more. -/
  asked : c.phase = .initial → ∀ tag, .opening tag ∉ gs
  /-- There is somebody to receive what will arrive. -/
  client : c.phase = .opening → c.client ≠ none

namespace Mandate

variable {gs hs : List Grant} {es fs : List Event} {c d : Connection σ}

theorem first (t : σ) : Mandate [] [] (ofTransport t) where
  word := rfl
  asked _ tag := by simp
  client := by simp [ofTransport]

/-- A move without a call, in which the caller asks for nothing that has to do with opening. -/
theorem frame (h : Mandate gs es c) (silent : calls fs = []) (grant : ∀ tag, .opening tag ∉ hs)
    (phase : d.phase = c.phase) (client : d.client = c.client) :
    Mandate (gs ++ hs) (es ++ fs) d where
  word := by
    rw [calls_append, silent, List.append_nil, phase]
    exact h.word
  asked initial tag asked := by
    rw [phase] at initial
    rcases List.mem_append.mp asked with before | now
    · exact h.asked initial tag before
    · exact grant tag now
  client := by
    rw [phase, client]
    exact h.client

/-- A move to or within a phase in which the connection is not new. -/
theorem next (word : Word d.phase (calls (es ++ fs))) (asked : d.phase ≠ .initial)
    (client : d.phase = .opening → d.client ≠ none) : Mandate (gs ++ hs) (es ++ fs) d where
  word := word
  asked initial := absurd initial asked
  client := client

/-- **Step**: every move keeps to the contract. -/
theorem step (h : Mandate gs es c) (move : Move T c hs fs d) :
    Mandate (gs ++ hs) (es ++ fs) d := by
  have word := h.word
  cases move with
  -- Moves that do not call the transport.
  | refuse note _ => exact h.frame (by simp) (by simp) rfl rfl
  | offer _ => exact h.frame (by simp) (by simp) rfl rfl
  | queue tag bytes hp hs => exact h.frame (by simp) (by simp) rfl rfl
  | beginOpen tag hp =>
    rw [hp] at word
    have nothing : calls es = [] := word
    exact next (by simpa [nothing] using ⟨0, rfl⟩) (by simp) (by simp)
  -- Calls while opening, then while open.
  | openWaits hp hc _ =>
    rw [hp] at word
    exact next (by simpa [hp] using word.waits) (by simp [hp]) (by simp [hc])
  | openDone hp _ _ =>
    rw [hp] at word
    exact next (by simpa using word.opens) (by simp) (by simp)
  | openFails hp _ _ =>
    rw [hp] at word
    exact next (by simpa using word.refuses) (by simp) (by simp)
  | @read a s effects hp ha _ =>
    rw [hp] at word
    have flows : (Call.read a).flows = true := by
      cases a with
      | waiting | done => rfl
      | failed => contradiction
    exact next (by simpa [hp] using word.flows _ flows) (by simp [hp]) (by simp [hp])
  | readFails hp _ =>
    rw [hp] at word
    exact next (by simpa using word.breaks (.read .failed) rfl) (by simp) (by simp)
  | @writeStays head tail n s effects hp _ _ _ =>
    rw [hp] at word
    have flown := word.flows (.write head.rest (.ok n)) rfl
    exact next (by simpa [hp] using flown) (by simp [hp]) (by simp [hp])
  | @writeEnds head tail n s effects hp _ _ _ _ =>
    rw [hp] at word
    have flown := word.flows (.write head.rest (.ok n)) rfl
    exact next (by simpa [hp] using flown) (by simp [hp]) (by simp [hp])
  | @writeFails head tail fault s effects hp _ _ =>
    rw [hp] at word
    have broken := word.breaks (.write head.rest (.error fault)) rfl
    exact next (by simpa using broken) (by simp) (by simp)
  -- The word of every phase behind the first open is one of closing, before a close is called.
  | beginClose tag hp =>
    have stopped := word.stops (by rcases hp with hp | hp <;> simp [hp])
    exact next (by simpa using stopped) (by simp) (by simp)
  | breakOpen tag hp => exact next (by simpa using word.stops (.inl hp)) (by simp) (by simp)
  | dropOpen hp => exact next (by simpa using word.stops (.inl hp)) (by simp) (by simp)
  | closeWaits hp _ =>
    rw [hp] at word
    exact next (by simpa [hp] using word.lingers) (by simp [hp]) (by simp [hp])
  | closeEnds hp _ _ =>
    rw [hp] at word
    exact next (by simpa [ended] using word.ends _) (by simp [ended]) (by simp [ended])
  | destroy hp _ =>
    have stopped := word.stops (.inr hp)
    exact next (by simpa [ended] using stopped.ends _) (by simp [ended]) (by simp [ended])

end Mandate

/-! ### Single operations -/

section
variable {c : Connection σ}

/-- Reading makes reads only, of which all but the last answer `done`. -/
theorem run_readAll {limit : Nat} (h : T.EndsWithin limit c.transport) :
    ∃ n a u es, a ≠ .done ∧ (readAll T limit).run c = ⟨a, { c with transport := u }, es⟩ ∧
      calls es = List.replicate n (.read .done) ++ [.read a] := by
  induction limit generalizing c with
  | zero =>
    rcases hr : T.read.run c.transport with ⟨a, s, effects⟩
    have last : a ≠ .done := by simpa [Transport.EndsWithin, hr] using h
    exact ⟨0, a, s, _, last, run_readAll_last hr (.inr rfl), by simp⟩
  | succ limit ih =>
    rcases hr : T.read.run c.transport with ⟨a, s, effects⟩
    by_cases done : a = .done
    · -- One more read; the others follow from the transport behind it.
      subst done
      have rest : T.EndsWithin limit s := by simpa [Transport.EndsWithin, hr] using h
      obtain ⟨n, a, u, es, last, run, made⟩ := ih (c := { c with transport := s }) rest
      refine ⟨n + 1, a, u, _, last, by rw [run_readAll_more hr, run], ?_⟩
      simp [made, List.replicate_succ]
    · exact ⟨0, a, s, _, done, run_readAll_last hr (.inl done), by simp⟩

/-- What waits is offered once. -/
theorem calls_pollSend (hp : c.phase = .opened) {head : Message} {tail : List Message}
    (hm : c.outbox.messages = head :: tail) :
    ∃ a, calls ((pollSend T).run c).events = [.write head.rest a] := by
  rcases h : (T.write head.rest).run c.transport with ⟨a, s, effects⟩
  obtain ⟨d, rest, run, -, silent, -⟩ := run_pollSend_offers hp hm h
  exact ⟨a, by simp [run, silent]⟩

/-- A poll of an open connection reads to the end and then offers what waits, unless it failed. -/
theorem calls_poll_opened (hp : c.phase = .opened)
    (ends : T.EndsWithin (T.backlog c.transport) c.transport) :
    ∃ n a writes, a ≠ .done ∧
      calls ((poll T).run c).events = List.replicate n (.read .done) ++ .read a :: writes ∧
      (if a = .waiting ∧ c.outbox.messages ≠ [] then ∃ offered x, writes = [.write offered x]
        else writes = []) := by
  obtain ⟨n, a, u, es, last, reads, made⟩ := run_readAll ends
  cases a with
  | done => contradiction
  | failed =>
    refine ⟨n, .failed, [], last, ?_, by simp⟩
    simp [run_poll_fails hp reads, made]
  | waiting =>
    rw [run_poll_reads hp reads (by simp)]
    cases hm : c.outbox.messages with
    | nil =>
      refine ⟨n, .waiting, [], last, ?_, by simp⟩
      have nothing := run_pollSend_empty (T := T) (c := { c with transport := u }) hm
      simp [nothing, made]
    | cons head tail =>
      obtain ⟨x, one⟩ := calls_pollSend (T := T) (c := { c with transport := u }) hp hm
      refine ⟨n, .waiting, [.write head.rest x], last, ?_, by simp⟩
      simp [one, made]

theorem calls_poll_opening (hp : c.phase = .opening) (client : c.client ≠ none) :
    ∃ a, calls ((poll T).run c).events = [.establish a] := by
  obtain ⟨tag, hc⟩ := Option.ne_none_iff_exists'.mp client
  rcases h : (T.establish ⟨tag⟩).run c.transport with ⟨a, s, effects⟩
  have call := run_call .establish h
  refine ⟨a, ?_⟩
  cases a with
  | waiting => simp [poll, hp, pollOpen, hc, call]
  | done | failed => simp [poll, hp, pollOpen, hc, call, run_setPhase, run_finishOpen]

/-- Every poll of a close asks the transport once. -/
theorem calls_pollClose (hp : c.phase ≠ .closed) (force : Bool) :
    ∃ a, calls ((pollClose T force).run c).events = [.close a] := by
  rcases h : T.close.run c.transport with ⟨a, s, effects⟩
  have call := run_call (c := c) .close h
  refine ⟨a, ?_⟩
  by_cases waits : a = .waiting ∧ force = false
  · simp [pollClose, call, waits]
  · simp [pollClose, call, waits, run_finishClose, hp]

theorem calls_setOption (name : String) (value : Setting) :
    calls ((setOption T name value).run c).events = [] := by
  rcases h : (T.setOption name value).run c.transport with ⟨r, s, effects⟩
  have run := run_unrecorded (c := c) h
  cases r with
  | ok | error => simp [setOption, run]

theorem calls_replay (options : List (String × Setting)) :
    calls ((replay T options).run c).events = [] := by
  induction options generalizing c with
  | nil => rfl
  | cons option rest ih =>
    obtain ⟨name, value⟩ := option
    have first := calls_setOption (T := T) (c := c) name value
    cases answer : ((setOption T name value).run c).answer with
    | ok => simp [replay_cons, answer, first, ih]
    | error => simp [replay_cons, answer, first]

/-- A send makes one write if it is accepted, and no call otherwise. -/
theorem calls_send (tag : Tag) (bytes : Bytes) :
    (∃ offered a, ((send T tag bytes).run c).answer = .ok () ∧
        calls ((send T tag bytes).run c).events = [.write offered a]) ∨
      (∃ fault, ((send T tag bytes).run c).answer = .error fault ∧
        calls ((send T tag bytes).run c).events = []) := by
  by_cases hs : isSendable bytes.length = true
  · by_cases hp : c.phase = .opened
    · left
      -- The outbox is not empty any more, so its head is offered.
      obtain ⟨head, tail, hm⟩ : ∃ head tail,
          (c.outbox.push (.new bytes tag)).messages = head :: tail :=
        List.exists_cons_of_ne_nil (by simp)
      obtain ⟨a, one⟩ := calls_pollSend (T := T)
        (c := { c with outbox := c.outbox.push (.new bytes tag) }) hp hm
      rw [hp] at one
      exact ⟨head.rest, a, by simp [send, clearance, hs, hp],
        by simp [send, clearance, enqueue, hs, hp, one]⟩
    · right
      exact ⟨_, by simp [send, clearance, hs, hp]; rfl, by simp [send, clearance, hs, hp]⟩
  · right
    exact ⟨_, by simp [send, clearance, hs]; rfl, by simp [send, clearance, hs]⟩

theorem calls_beginOpen (tag : Tag) : calls ((beginOpen (σ := σ) tag).run c).events = [] := by
  by_cases hp : c.phase = .initial
  · simp [beginOpen, hp, run_setPhase]
  · simp [beginOpen, hp]

theorem calls_beginClose (tag : Tag) :
    ∀ call ∈ calls ((beginClose T tag).run c).events, ∃ a, call = .close a := by
  cases hp : c.phase with
  | initial | closing | closed => simp [beginClose, hp]
  | opening =>
    obtain ⟨a, one⟩ := calls_pollClose (T := T)
      (c := { c with phase := .closing, awaitingOpen := none, awaitingClose := some tag })
      (by simp) false
    simp [beginClose, hp, cancelOpen, run_setPhase, run_setPhase_self, run_finishOpen, one]
  | opened | failed =>
    obtain ⟨a, one⟩ := calls_pollClose (T := T)
      (c := { c with phase := .closing, awaitingClose := some tag }) (by simp) false
    simp [beginClose, hp, run_setPhase, one]

theorem calls_destroy : ∀ call ∈ calls ((destroy T).run c).events, ∃ a, call = .close a := by
  cases hp : c.phase with
  | initial | closed => simp [destroy, hp]
  | opening =>
    obtain ⟨a, one⟩ := calls_pollClose (T := T)
      (c := { c with phase := .closing, awaitingOpen := none }) (by simp) true
    simp [destroy, hp, cancelOpen, run_setPhase, run_finishOpen, one]
  | opened | failed | closing =>
    obtain ⟨a, one⟩ := calls_pollClose (T := T) (c := c) (by simp [hp]) true
    simp [destroy, hp, one]

/-- A request that is neither a poll nor a send that was accepted makes no call but closes. -/
theorem calls_serve (r : Request) (poll : ∀ times, r ≠ .poll times)
    (send : acceptedBy r ((serve T r).run c).answer = []) :
    ∀ call ∈ calls ((serve T r).run c).events, ∃ a, call = .close a := by
  cases r with
  | poll times => exact absurd rfl (poll times)
  | beginOpen tag => simp [serve, calls_beginOpen]
  | beginClose tag => simpa [serve] using calls_beginClose tag
  | send tag bytes =>
    rcases calls_send (T := T) (c := c) tag bytes with ⟨_, _, answer, -⟩ | ⟨_, -, silent⟩
    · simp [serve, answer, acceptedBy] at send
    · simp [serve, silent]
  | sendZeros tag size =>
    rcases calls_send (T := T) (c := c) tag (List.replicate size 0) with
      ⟨_, _, answer, -⟩ | ⟨_, -, silent⟩
    · simp [serve, sendZeros_eq, answer, acceptedBy] at send
    · simp [serve, sendZeros_eq, silent]
  | setOption name value => simp [serve, calls_setOption]
  | retrieve => simp [serve]
  | replay options => simp [serve, calls_replay]

theorem calls_serve_send (r : Request) (send : acceptedBy r ((serve T r).run c).answer ≠ []) :
    ∃ offered a, calls ((serve T r).run c).events = [.write offered a] := by
  cases r with
  | send tag bytes =>
    rcases calls_send (T := T) (c := c) tag bytes with ⟨offered, a, -, one⟩ | ⟨_, answer, -⟩
    · exact ⟨offered, a, by simpa [serve] using one⟩
    · simp [serve, answer, acceptedBy] at send
  | sendZeros tag size =>
    rcases calls_send (T := T) (c := c) tag (List.replicate size 0) with
      ⟨offered, a, -, one⟩ | ⟨_, answer, -⟩
    · exact ⟨offered, a, by simpa [serve, sendZeros_eq] using one⟩
    · simp [serve, sendZeros_eq, answer, acceptedBy] at send
  | beginOpen | beginClose | poll | setOption | retrieve | replay => simp [acceptedBy] at send

end

/-- What single operations ask of the transport of a connection. -/
structure Footprint (T : Transport σ) (c : Connection σ) : Prop where
  /-- A poll of an open connection reads until a read does not answer `done`. If that one found
      nothing more, the head of the outbox is offered once. -/
  opened : c.phase = .opened → T.EndsWithin (T.backlog c.transport) c.transport →
    ∃ n a writes, a ≠ .done ∧
      calls ((poll T).run c).events = List.replicate n (.read .done) ++ .read a :: writes ∧
      (if a = .waiting ∧ c.outbox.messages ≠ [] then ∃ offered x, writes = [.write offered x]
        else writes = [])
  opening : c.phase = .opening → ∃ a, calls ((poll T).run c).events = [.establish a]
  closing : c.phase = .closing → ∃ a, calls ((poll T).run c).events = [.close a]
  /-- Any other poll asks nothing. -/
  idle : isIdle c.phase = true → calls ((poll T).run c).events = []
  /-- A send that is accepted makes one write. -/
  send : ∀ r, acceptedBy r ((serve T r).run c).answer ≠ [] →
    ∃ offered a, calls ((serve T r).run c).events = [.write offered a]
  /-- Any other request asks nothing but to close, and so does the destruction. -/
  others : ∀ r, (∀ times, r ≠ .poll times) → acceptedBy r ((serve T r).run c).answer = [] →
    ∀ call ∈ calls ((serve T r).run c).events, ∃ a, call = .close a
  destroy : ∀ call ∈ calls ((destroy T).run c).events, ∃ a, call = .close a

/-- **The contract.** In every life over every transport, the calls of the transport are a word of
    the contract. If an open was accepted and the connection destroyed, the last of them is a
    close. From whatever connection a run leads to, single operations make only the calls of their
    footprint. -/
theorem contract_kept (T : Transport σ) (t : σ) (rs : List Request) (destroyed : Bool) :
    let o := (live T rs destroyed).run (ofTransport t)
    InContract (calls o.events) ∧
    (destroyed = true → (∃ tag, (Request.beginOpen tag, Answer.accepted (.ok ())) ∈ rs.zip o.answer) →
      ∃ a, (calls o.events).getLast? = some (.close a)) ∧
    Footprint T ((serveAll T rs).run (ofTransport t)).state := by
  intro o
  have mandate : Mandate (lifeGrants T t rs destroyed) o.events o.state :=
    (live_moves T t rs destroyed).invariant Mandate.step (Mandate.first t)
  refine ⟨mandate.word.inContract, ?_, ?_⟩
  · rintro rfl ⟨tag, opened⟩
    have phase : o.state.phase = .initial ∨ o.state.phase = .closed := by
      simpa [o, live] using destroy_phase T ((serveAll T rs).run (ofTransport t)).state
    have grant : .opening tag ∈ lifeGrants T t rs true := by
      apply List.mem_append_left
      apply opening_mem_grants
      simpa [o, live] using opened
    -- What was asked to open is not new any more, so it has closed.
    rcases phase with initial | closed
    · exact absurd grant (mandate.asked initial tag)
    · have word := mandate.word
      rw [closed] at word
      exact word.getLast_of_closed
  · have reached : Mandate _ _ ((serveAll T rs).run (ofTransport t)).state :=
      (serveAll_moves T rs (ofTransport t)).invariant Mandate.step (Mandate.first t)
    exact {
      opened := calls_poll_opened
      opening := fun hp => calls_poll_opening hp (reached.client hp)
      closing := by
        intro hp
        obtain ⟨a, one⟩ := calls_pollClose (T := T)
          (c := ((serveAll T rs).run (ofTransport t)).state) (by simp [hp]) false
        exact ⟨a, by simpa [poll, hp] using one⟩
      idle := by
        intro hi
        rw [run_poll_of_isIdle T _ hi]
        rfl
      send := calls_serve_send
      others := calls_serve
      destroy := calls_destroy }

end Connection

end PolledConnection
