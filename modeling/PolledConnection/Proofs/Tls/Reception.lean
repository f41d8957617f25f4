import PolledConnection.Network.Loopback
import PolledConnection.Proofs.Connection.Callbacks
import PolledConnection.Proofs.Tls.Course
import PolledConnection.Proofs.Tls.Honest
import PolledConnection.Script.Resolver

/-! # Receiving through TLS

  Nothing that an honest session hands out is lost: it is received in order
  and once. And a poll of an open connection takes all items up to the next
  read that finds nothing or fails, each in its pieces, before it does
  anything else (`reception_complete`).

  What a session hands out is found by replaying the calls that its history
  tells of on the engine and the session themselves (`handouts`); what is
  received is read off the history (`receipts`).
-/

namespace PolledConnection

/-- The bytes that an effect tells to be received. -/
def Effect.chunk? : Effect → Option Bytes
  | .received _ bytes => some bytes
  | _ => none

/-- The effect that an event of a transport tells of. -/
def Transport.Event.effect? : Transport.Event → Option Effect
  | .effect e => some e
  | .called _ => none

namespace Tls

open Connection (transported inside called)

variable {ε σ τ ρ ω : Type}

/-- A fill that claims what it has put into the buffer. -/
theorem Fill.chunk_take (bytes : Bytes) (size : Nat) :
    (Fill.mk (min bytes.length size) (bytes.take size)).chunk size = bytes.take size := by
  have length : (bytes.take size).length = min bytes.length size := by
    rw [List.length_take, Nat.min_comm]
  rw [chunk_eq, Nat.min_eq_left (Nat.min_le_right _ _), ← length, List.take_left]

/-! ### What is handed out -/

/-- The effects in a history of a transport. -/
def effects (es : List Transport.Event) : List Effect := es.filterMap Transport.Event.effect?

@[simp] theorem effects_nil : effects [] = [] := rfl

@[simp] theorem effects_append (es fs : List Transport.Event) :
    effects (es ++ fs) = effects es ++ effects fs :=
  List.filterMap_append

@[simp] theorem effects_effects (es : List Effect) : effects (es.map .effect) = es := by
  simp [effects, List.filterMap_map, Function.comp_def, Transport.Event.effect?]

@[simp] theorem effects_called (call : Transport.Call) : effects [.called call] = [] := rfl

/-- The engine and the session behind an effect. -/
def follow (eng : Engine ε σ) (p : ε × Option σ) : Effect → ε × Option σ
  | .sessionRequested hostname port carrier options _ =>
    match eng.create options hostname port carrier p.1 with
    | (.ok session, e) => (e, some session)
    | (.error _, e) => (e, p.2)
  | .handshake _ => (p.1, p.2.map fun s => (eng.handshake s).2)
  | .sessionRead size _ => (p.1, p.2.map fun s => (eng.read size s).2)
  | .sessionWrite bytes _ => (p.1, p.2.map fun s => (eng.write bytes s).2)
  | .sessionClosed => (p.1, none)
  | .received .. | .lookedUp .. | .connectPolled .. | .optionOffered .. | .note _ => p

/-- What a session hands out in a read: as much of what it has put into the buffer as it claims. -/
def handed : Except Fault Fill → Bytes
  | .ok fill => fill.data.take fill.count
  | .error _ => []

/-- What a session hands out in an effect. -/
def handout (eng : Engine ε σ) (session : Option σ) : Effect → Bytes
  | .sessionRead size _ => (session.map fun s => handed (eng.read size s).1).getD []
  | _ => []

/-- All that sessions hand out in a history, from an engine and a session on. -/
def handouts (eng : Engine ε σ) : ε × Option σ → List Effect → Bytes
  | _, [] => []
  | p, e :: es => handout eng p.2 e ++ handouts eng (follow eng p e) es

theorem handouts_append (eng : Engine ε σ) (p : ε × Option σ) (es fs : List Effect) :
    handouts eng p (es ++ fs) =
      handouts eng p es ++ handouts eng (es.foldl (follow eng) p) fs := by
  induction es generalizing p with
  | nil => rfl
  | cons e es ih => simp [handouts, ih]

/-- The chunks that effects tell to be received. -/
def chunks (es : List Effect) : List Bytes := es.filterMap Effect.chunk?

@[simp] theorem chunks_nil : chunks [] = [] := rfl

@[simp] theorem chunks_cons (e : Effect) (es : List Effect) :
    chunks (e :: es) = e.chunk?.toList ++ chunks es := by
  cases h : e.chunk? <;> simp [chunks, h]

@[simp] theorem chunks_append (es fs : List Effect) : chunks (es ++ fs) = chunks es ++ chunks fs :=
  List.filterMap_append

/-- An honest session hands out what fits of its item. -/
theorem Honest.handed_read {eng : Engine ε σ} (honest : Honest eng) (size : Nat) {s : σ}
    (sound : honest.sound s) : handed (eng.read size s).1 = (honest.item s).take size := by
  by_cases empty : honest.item s = []
  · rw [empty, List.take_nil]
    cases answer : (eng.read size s).1 with
    | error fault => rfl
    | ok fill => rw [handed, honest.nothing size s fill sound empty answer, List.take_zero]
  · rw [honest.copies size s sound empty, handed, List.take_take, Nat.min_assoc, Nat.min_self,
      Nat.min_comm, ← List.take_eq_take_min]

/-- The layer hands on what fits of the item. -/
theorem Honest.digest_item {eng : Engine ε σ} (honest : Honest eng) {s : σ} {receiver : Receiver}
    {held : Option Receiver} (hr : held = some receiver) (sound : honest.sound s)
    (some : honest.item s ≠ []) :
    Layer.digest held (eng.read receiveBufferSize s).1 =
      (.done, [.received receiver.tag ((honest.item s).take receiveBufferSize)]) := by
  have count : min (honest.item s).length receiveBufferSize ≠ 0 := by
    have length := List.length_pos_iff.mpr some
    simp only [receiveBufferSize]
    omega
  rw [honest.copies receiveBufferSize s sound some, hr]
  simp only [Layer.digest, count, if_false, Fill.chunk_take]
  rfl

/-- Without an item, it hands nothing on. -/
theorem Honest.digest_empty {eng : Engine ε σ} (honest : Honest eng) {s : σ}
    (receiver : Option Receiver) (sound : honest.sound s) (empty : honest.item s = []) :
    (Layer.digest receiver (eng.read receiveBufferSize s).1).1 ≠ .done ∧
      chunks (Layer.digest receiver (eng.read receiveBufferSize s).1).2 = [] := by
  cases ha : (eng.read receiveBufferSize s).1 with
  | error fault => simp [Layer.digest, Effect.chunk?]
  | ok fill =>
    have none := honest.nothing receiveBufferSize s fill sound empty ha
    simp [Layer.digest, none]

/-- What is silent leaves engine and session alone, hands nothing out and is not received. -/
theorem Silent.follow {es : List Effect} (silent : Silent es) (eng : Engine ε σ) (p : ε × Option σ) :
    es.foldl (Tls.follow eng) p = p ∧ handouts eng p es = [] ∧ chunks es = [] := by
  induction es with
  | nil => exact ⟨rfl, rfl, rfl⟩
  | cons e es ih =>
    obtain ⟨same, none, unread⟩ := ih fun x hx => silent x (List.mem_cons_of_mem _ hx)
    have he := silent e List.mem_cons_self
    cases e with
    | lookedUp | connectPolled | optionOffered | note =>
      exact ⟨same, by simpa [handouts, handout, Tls.follow] using none,
        by simpa [Effect.chunk?] using unread⟩
    | received | sessionRequested | handshake | sessionRead | sessionWrite | sessionClosed =>
      simp [Effect.isSilent] at he

/-! ### Nothing is lost -/

variable {eng : Engine ε σ} {honest : Honest eng} {engine : ε} {es : List Transport.Event}
variable {v w : View ε σ} {licence : Options → Carrier → Receiver → Prop}

/-- Behind a read itself nothing more is done with the session. -/
theorem digest_idle (eng : Engine ε σ) (p : ε × Option σ) (receiver : Option Receiver)
    (answer : Except Fault Fill) :
    (Layer.digest receiver answer).2.foldl (follow eng) p = p ∧
      handouts eng p (Layer.digest receiver answer).2 = [] := by
  cases answer with
  | error fault => simp [Layer.digest, follow, handouts, handout]
  | ok fill =>
    by_cases hf : fill.count = 0
    · simp [Layer.digest, hf, handouts]
    · cases receiver <;> simp [Layer.digest, hf, follow, handouts, handout]

/-- The replay of a deed comes to the engine and the session that are there behind it. -/
theorem Deed.replay {deeds : List Effect} (deed : Deed eng licence v deeds w) :
    deeds.foldl (follow eng) (v.engine, v.layer.held.map Held.session) =
      (w.engine, w.layer.held.map Held.session) := by
  cases deed with
  | aside options step silent on => exact (silent.follow eng _).1
  | created bare _ _ h => simp [follow, h]
  | refused bare _ _ h => simp [follow, h, bare]
  | handshake held | write _ held => simp [follow, held, View.withSession]
  | read held => simp [follow, held, View.withSession, (digest_idle eng _ _ _).1]
  | close => cases v.layer.held <;> simp [follow]

/-- What was received is what was handed out, from an engine without a session on. -/
structure Received (honest : Honest eng) (engine : ε) (es : List Transport.Event) (v : View ε σ) :
    Prop where
  view : v.Sound
  able : honest.able v.engine
  sound : ∀ h, v.layer.held = some h → honest.sound h.session
  /-- The replay of the history comes to the engine and the session that are there. -/
  replay : (effects es).foldl (follow eng) (engine, none) = (v.engine, v.layer.held.map Held.session)
  bytes : (chunks (effects es)).flatten = handouts eng (engine, none) (effects es)

namespace Received

variable {h : Held σ} {deeds : List Effect}

theorem first (fresh : View.Fresh engine v) (able : honest.able engine) :
    Received honest engine [] v where
  view := fresh.sound
  able := by rw [fresh.engine]; exact able
  sound h held := by simp [fresh.held] at held
  replay := by simp [fresh.held, fresh.engine]
  bytes := rfl

/-- What a deed adds, from what is there before it. -/
theorem next (received : Received honest engine es v) (deed : Deed eng licence v deeds w)
    (able : honest.able w.engine) (sound : ∀ h, w.layer.held = some h → honest.sound h.session)
    (bytes : (chunks deeds).flatten =
      handouts eng (v.engine, v.layer.held.map Held.session) deeds) :
    Received honest engine (es ++ deeds.map .effect) w where
  view := (Course.single deed).sound received.view
  able := able
  sound := sound
  replay := by
    rw [effects_append, effects_effects, List.foldl_append, received.replay, deed.replay]
  bytes := by
    rw [effects_append, effects_effects, chunks_append, List.flatten_append, received.bytes,
      handouts_append, received.replay, bytes]

/-- A read gives the receiver what the session hands out. -/
theorem digest (received : Received honest engine es v) (held : v.layer.held = some h) :
    (chunks (Layer.digest v.layer.receiver (eng.read receiveBufferSize h.session).1).2).flatten =
      handed (eng.read receiveBufferSize h.session).1 := by
  have sound := received.sound h held
  rw [honest.handed_read receiveBufferSize sound]
  by_cases empty : honest.item h.session = []
  · simp [honest.digest_empty _ sound empty, empty]
  · obtain ⟨receiver, hr⟩ : ∃ receiver, v.layer.receiver = some receiver :=
      Option.isSome_iff_exists.mp (received.view.receiver (by simp [held]))
    rw [honest.digest_item hr sound empty]
    simp [Effect.chunk?]

/-- A session that is sound stays so when it goes on. -/
theorem sound_withSession {session : σ} (sound : honest.sound session) :
    ∀ g, (v.withSession h session).layer.held = some g → honest.sound g.session := by
  intro g hg
  obtain rfl : _ = g := Option.some.inj hg
  exact sound

/-- **Step**: every deed keeps the two equal. -/
theorem deed (received : Received honest engine es v) (deed : Deed eng licence v deeds w) :
    Received honest engine (es ++ deeds.map .effect) w := by
  have able := received.able
  have goesOn := received.next deed
  cases deed with
  | aside options step silent on =>
    obtain ⟨-, none, unread⟩ := silent.follow eng (v.engine, v.layer.held.map Held.session)
    exact goesOn able received.sound (by simp [none, unread])
  | @created carrier receiver session e bare _ _ h =>
    have sound := honest.create_sound v.layer.options v.layer.hostname v.layer.port carrier _ session
      able (by rw [h])
    have able := honest.create_able v.layer.options v.layer.hostname v.layer.port carrier _ able
    rw [h] at able
    refine goesOn able (fun g hg => ?_) (by simp [Effect.chunk?, handouts, handout])
    obtain rfl : _ = g := Option.some.inj hg
    exact sound
  | @refused carrier receiver fault e bare _ _ h =>
    have able := honest.create_able v.layer.options v.layer.hostname v.layer.port carrier _ able
    rw [h] at able
    exact goesOn able (by simp [bare]) (by simp [Effect.chunk?, handouts, handout])
  | handshake held =>
    have sound := honest.handshake _ (received.sound _ held)
    exact goesOn able (sound_withSession sound) (by simp [Effect.chunk?, handouts, handout])
  | @read h held =>
    have sound := honest.read receiveBufferSize _ (received.sound _ held)
    have given := received.digest held
    refine goesOn able (sound_withSession sound) ?_
    simpa [handouts, handout, held, (digest_idle eng _ _ _).2, Effect.chunk?] using given
  | write bytes held =>
    have sound := honest.write bytes _ (received.sound _ held)
    exact goesOn able (sound_withSession sound) (by simp [Effect.chunk?, handouts, handout])
  | close =>
    refine goesOn able (by simp) ?_
    cases v.layer.held <;> simp [Effect.chunk?, handouts, handout]

theorem call {call : Transport.Call} (received : Received honest engine es v) (_ : Fits v call) :
    Received honest engine (es ++ [.called call]) v where
  view := received.view
  able := received.able
  sound := received.sound
  replay := by simpa using received.replay
  bytes := by simpa using received.bytes

end Received

/-! ### Polls -/

/-- The chunks that a history of a connection tells to be received. -/
def receipts (es : List Event) : List Bytes := chunks (effects (transported es))

@[simp] theorem receipts_append (es fs : List Event) :
    receipts (es ++ fs) = receipts es ++ receipts fs := by
  simp [receipts]

@[simp] theorem receipts_inside (deeds : List Effect) : receipts (inside deeds) = chunks deeds := by
  simp [receipts]

/-- A history that takes pieces in a number of reads, and in which nothing else is done with the
    session and no callback of the connection fires. -/
structure Intake (n : Nat) (ps : List Bytes) (es : List Event) : Prop where
  reads : uses es = List.replicate n .read
  receipts : receipts es = ps
  silent : Connection.callbacks es = []

theorem Intake.append {m n : Nat} {ps qs : List Bytes} {es fs : List Event} (h₁ : Intake m ps es)
    (h₂ : Intake n qs fs) : Intake (m + n) (ps ++ qs) (es ++ fs) where
  reads := by rw [uses_append, h₁.reads, h₂.reads, List.replicate_append_replicate]
  receipts := by rw [receipts_append, h₁.receipts, h₂.receipts]
  silent := by rw [Connection.callbacks_append, h₁.silent, h₂.silent, List.append_nil]

/-- A call that reads the session once. -/
theorem Intake.call {deeds : List Effect} (reads : used deeds = [.read]) (call : Transport.Call) :
    Intake 1 (chunks deeds) (inside deeds ++ [called call]) where
  reads := by
    have nothing : uses [called call] = [] := rfl
    rw [uses_append, uses_inside, reads, nothing, List.append_nil, List.replicate_one]
  receipts := by simp [Tls.receipts, Event.transport?]
  silent := by simp

section
variable {T : Transport τ} {look : τ → View ε σ} {fit : τ → Prop} {permit : Options → Carrier → Prop}
variable {c : Connection τ} {h : Held σ} {receiver : Receiver} {ps : List Bytes}

/-- One read of an honest session hands on a piece of the item, or does not answer `done`. -/
theorem Conduct.read_item (conduct : Conduct eng T look fit permit) {t : τ}
    (held : (look t).layer.held = some h) (hr : (look t).layer.receiver = some receiver)
    (sound : honest.sound h.session) :
    ∃ a u deeds, T.read.run t = ⟨a, u, deeds⟩ ∧ used deeds = [.read] ∧
      look u = (look t).withSession h (eng.read receiveBufferSize h.session).2 ∧
      if honest.item h.session = [] then a ≠ .done ∧ chunks deeds = []
      else a = .done ∧ chunks deeds = [(honest.item h.session).take receiveBufferSize] := by
  obtain ⟨answer, events, after⟩ := conduct.read t
  rw [Layer.run_read_held eng held] at answer events after
  generalize T.read.run t = o at answer events after ⊢
  obtain ⟨a, u, deeds⟩ := o
  obtain rfl : a = _ := answer
  obtain rfl : deeds = _ := events
  refine ⟨_, u, _, rfl, by simp [Effect.use?, Layer.used_digest], after, ?_⟩
  by_cases empty : honest.item h.session = []
  · simpa [empty, Effect.chunk?] using honest.digest_empty (look t).layer.receiver sound empty
  · simp [empty, honest.digest_item hr sound empty, Effect.chunk?]

/-- Reading takes all pieces, one after the other, and one read more. -/
theorem Conduct.run_readAll (conduct : Conduct eng T look fit permit) {s : σ}
    (hands : honest.Hands s ps) {limit : Nat} (enough : ps.length ≤ limit) (same : h.session = s)
    (held : (look c.transport).layer.held = some h)
    (hr : (look c.transport).layer.receiver = some receiver) (sound : honest.sound s) :
    ∃ a u es, a ≠ .done ∧
      (Connection.readAll T limit).run c = ⟨a, { c with transport := u }, es⟩ ∧
      Intake (ps.length + 1) ps es := by
  induction hands generalizing c h limit with
  | @nothing s none =>
    subst same
    obtain ⟨a, u, deeds, run, uses, -, last⟩ := conduct.read_item held hr sound
    simp only [none, if_true] at last
    obtain ⟨notDone, silent⟩ := last
    refine ⟨a, u, _, notDone, Connection.run_readAll_last run (.inl notDone), ?_⟩
    simpa [silent] using Intake.call uses (.read a)
  | @piece s ps some rest ih =>
    subst same
    obtain ⟨a, u, deeds, run, uses, after, last⟩ := conduct.read_item held hr sound
    simp only [some, if_false] at last
    obtain ⟨rfl, piece⟩ := last
    cases limit with
    | zero => simp at enough
    | succ limit =>
      -- The other pieces are read from the connection behind the first read.
      obtain ⟨b, w, es, notDone, others, intake⟩ :=
        ih (c := { c with transport := u }) (h := ⟨_, h.carrier⟩) (Nat.le_of_succ_le_succ enough) rfl
          (by simp [after, View.withSession]) (by simpa [after, View.withSession] using hr)
          (honest.read receiveBufferSize _ sound)
      refine ⟨b, w, _, notDone, by rw [Connection.run_readAll_more run, others], ?_⟩
      have all := (Intake.call uses (.read .done)).append intake
      rw [piece] at all
      simpa [Nat.add_comm] using all

/-- What comes behind the reads: the session is not read any more, and nothing is received. -/
structure Quiet (es : List Event) : Prop where
  reads : .read ∉ uses es
  receipts : receipts es = []

theorem Quiet.append {es fs : List Event} (h₁ : Quiet es) (h₂ : Quiet fs) : Quiet (es ++ fs) where
  reads := by simp [h₁.reads, h₂.reads]
  receipts := by rw [receipts_append, h₁.receipts, h₂.receipts, List.append_nil]

/-- What does not reach the transport is quiet. -/
theorem Quiet.of_transported {es : List Event} (h : transported es = []) : Quiet es where
  reads := by simp [uses, h]
  receipts := by simp [Tls.receipts, h]

theorem Quiet.called {es : List Event} (h : transported es = []) (call : Transport.Call) :
    Quiet (called call :: es) where
  reads := by simp [uses, h, Event.transport?, Transport.Event.use?]
  receipts := by simp [Tls.receipts, h, Event.transport?]

/-- A write does not read, and nothing is received in it. -/
theorem Conduct.write_quiet (conduct : Conduct eng T look fit permit) (bytes : Bytes) (t : τ) :
    Quiet (inside ((T.write bytes).run t).events) := by
  rw [(conduct.write bytes t).2.1]
  cases held : (look t).layer.held with
  | none => exact .of_transported (by simp [Layer.write, held])
  | some h =>
    exact ⟨by simp [Layer.write, held, Effect.use?], by simp [Layer.write, held, Effect.chunk?]⟩

/-- Nor is anything received in an attempt to send. -/
theorem Conduct.pollSend_quiet (conduct : Conduct eng T look fit permit) (hp : c.phase = .opened) :
    Quiet ((Connection.pollSend T).run c).events := by
  cases hm : c.outbox.messages with
  | nil =>
    rw [Connection.run_pollSend_empty hm]
    exact .of_transported rfl
  | cons head tail =>
    have inner := conduct.write_quiet head.rest c.transport
    rcases write : (T.write head.rest).run c.transport with ⟨a, u, deeds⟩
    rw [write] at inner
    obtain ⟨d, rest, run, -, -, silent⟩ := Connection.run_pollSend_offers hp hm write
    rw [run]
    exact inner.append (.called silent _)

/-- **Polls**: a poll of an open connection takes all items that its session supplies, and then does not
    read any more. -/
theorem Conduct.poll_takes (conduct : Conduct eng T look fit permit) (hp : c.phase = .opened)
    (held : (look c.transport).layer.held = some h)
    (hr : (look c.transport).layer.receiver = some receiver) (sound : honest.sound h.session)
    {ds : List Bytes} (supplies : honest.Supplies ds h.session) :
    ∃ front rest, ((Connection.poll T).run c).events = front ++ rest ∧
      Intake (readsFor ds) (ds.flatMap cut) front ∧ Quiet rest := by
  -- The backlog limits the reads of a poll, so it has to cover all pieces.
  have hands := honest.hands_of_supplies sound supplies
  have enough : (ds.flatMap cut).length ≤ T.backlog c.transport := by
    have covered := hands.length_le sound
    rw [conduct.backlog]
    simpa [Layer.backlog, held] using covered
  obtain ⟨a, u, front, notDone, run, intake⟩ := conduct.run_readAll hands enough rfl held hr sound
  rw [length_pieces supplies.some] at intake
  cases a with
  | done => contradiction
  | waiting =>
    have sends := conduct.pollSend_quiet (c := { c with transport := u }) hp
    exact ⟨front, _, by rw [Connection.run_poll_reads hp run (by simp)], intake, sends⟩
  | failed =>
    refine ⟨front, _, by rw [Connection.run_poll_fails hp run], intake, ?_⟩
    exact .of_transported (by simp [Event.transport?])

end

/-! ### Whole lives -/

/-- How the bytes of a TLS transport reach its connection, in every life from its making on. -/
structure Reception (honest : Honest eng) (T : Transport τ) (look : τ → View ε σ) (engine : ε)
    (made : Transport.Creation τ) : Prop where
  /-- All bytes that the session hands out are received, in order and once. -/
  whole : ∀ rs destroyed, let es := history T made rs destroyed
    (receipts es).flatten = handouts eng (engine, none) (effects (transported es))
  /-- An open connection has a session. A poll takes all items that it supplies, in their pieces, with
      one read for each piece and one more. It does so before anything else. -/
  poll : ∀ t, made.result = .ok t → ∀ rs,
    let c := ((Connection.serveAll T rs).run (Connection.ofTransport t)).state
    c.phase = .opened → ∃ h, (look c.transport).layer.held = some h ∧
      ∀ ds, honest.Supplies ds h.session → (∀ d ∈ ds, Pieced d (cut d)) ∧
        ∃ front rest, ((Connection.poll T).run c).events = front ++ rest ∧
          Intake (readsFor ds) (ds.flatMap cut) front ∧ Quiet rest

section
variable {T : Transport τ} {look : τ → View ε σ} {fit bare holds : τ → Prop}
variable {permit : Options → Carrier → Prop} {made : Transport.Creation τ}

/-- In every history, what was received is what was handed out. -/
theorem Conduct.received (conduct : Conduct eng T look fit permit)
    (begins : Begins eng look fit engine made) (able : honest.able engine)
    (rs : List Connection.Request) (destroyed : Bool) :
    ∃ w, Received honest engine (transported (Tls.history T made rs destroyed)) w ∧
      ∀ t, made.result = .ok t →
        look ((Connection.live T rs destroyed).run (Connection.ofTransport t)).state.transport = w := by
  obtain ⟨v, w, fresh, course, last⟩ := conduct.history begins rs destroyed
  exact ⟨w, course.invariant Received.deed Received.call (.first fresh able), last⟩

theorem Conduct.reception (conduct : Conduct eng T look fit permit) (custody : Custody T bare holds)
    (held : ∀ t, holds t → (look t).layer.held.isSome = true) (begins : Begins eng look fit engine made)
    (new : MadeBare bare made) (able : honest.able engine) :
    Reception honest T look engine made where
  whole rs destroyed := by
    obtain ⟨w, received, -⟩ := conduct.received begins able rs destroyed
    exact received.bytes
  poll t result rs := by
    intro c hp
    obtain ⟨w, received, last⟩ := conduct.received begins able rs false
    obtain rfl : look c.transport = w := by simpa [Connection.live] using last t result
    -- The phase tells that there is a session, and the history that it is honest.
    have holding : holds c.transport := custody.holds_opened (new.2 t result) rs hp
    obtain ⟨h, hl⟩ := Option.isSome_iff_exists.mp (held _ holding)
    obtain ⟨receiver, hr⟩ := Option.isSome_iff_exists.mp (received.view.receiver (by simp [hl]))
    refine ⟨h, hl, fun ds supplies => ⟨fun d member => pieced_cut d (supplies.some d member), ?_⟩⟩
    exact conduct.poll_takes hp hl hr (received.sound h hl) supplies

end

/-- **Receiving.** Take a connection over either TLS transport, with an engine whose sessions read
    honestly, and with any network and resolver. In every life, all bytes that its session hands out are
    received, in order and once; and a poll of an open connection takes all items that there are before
    a read that finds nothing or fails, each in whole chunks but for its last one, and only then writes
    or reports that it failed. -/
theorem reception_complete (eng : Engine ε σ) (honest : Honest eng) (net : Network ω) (res : Resolver ρ)
    (engine : ε) (able : honest.able engine) (resolver : ρ) (network : ω) (carrier : Carrier)
    (endpoint : Endpoint) :
    Reception honest (OverGiven.transport eng) OverGiven.view engine
      (OverGiven.create eng engine carrier endpoint) ∧
    Reception honest (OverTcp.transport eng net res) OverTcp.view engine
      (OverTcp.create eng net res engine resolver network endpoint) := by
  constructor
  · exact (OverGiven.conduct eng carrier).reception (OverGiven.custody eng) (fun _ holds => holds.1)
      (OverGiven.create_begins eng engine carrier endpoint)
      (OverGiven.create_bare eng engine carrier endpoint) able
  · exact (OverTcp.conduct eng net res).reception (OverTcp.custody eng net res) (fun _ holds => holds.1)
      (OverTcp.create_begins eng net res engine resolver network endpoint)
      (OverTcp.create_bare eng net res engine resolver network endpoint) able

/-- An engine whose sessions have an item of seventy bytes and one of two. -/
def twoItems : Script.Engine :=
  ⟨⟨true, true, true, false⟩, [], ⟨[], [.data (List.replicate 70 7), .data [1, 2]], []⟩⟩

/-- With such an engine, the first poll of an open connection reads four times and receives three
    pieces. -/
theorem reception_complete_twoItems :
    Script.Engine.honest.able twoItems ∧
    ∃ t, (OverGiven.create Script.Engine.engine twoItems (.given "carrier") (.of "host" 443)).result =
        .ok t ∧
      ∃ front rest, ((Connection.poll (OverGiven.transport Script.Engine.engine)).run
          ((Connection.serveAll (OverGiven.transport Script.Engine.engine)
            [.beginOpen "open", .poll 2]).run (Connection.ofTransport t)).state).events = front ++ rest ∧
        Intake 4 [List.replicate 64 7, List.replicate 6 7, [1, 2]] front ∧ Quiet rest := by
  have able : Script.Engine.honest.able twoItems := by
    simp [Script.Engine.honest, Script.Session.Honest, twoItems, Script.ReadEntry.isHonest]
  have supplies : Script.Engine.honest.Supplies [List.replicate 70 7, [1, 2]] twoItems.session :=
    ⟨by decide, rfl, by decide, rfl, rfl⟩
  obtain ⟨t, made, opened, held⟩ : ∃ t,
      (OverGiven.create Script.Engine.engine twoItems (.given "carrier") (.of "host" 443)).result =
        .ok t ∧
      let c := ((Connection.serveAll (OverGiven.transport Script.Engine.engine)
        [.beginOpen "open", .poll 2]).run (Connection.ofTransport t)).state
      c.phase = .opened ∧ c.transport.layer.held = some ⟨twoItems.session, .given "carrier"⟩ :=
    ⟨_, rfl, by decide, by rfl⟩
  have given := (reception_complete Script.Engine.engine Script.Engine.honest Loopback.network
    Script.resolver twoItems able [] (.new true []) (.given "carrier") (.of "host" 443)).1
  obtain ⟨h, same, takes⟩ := given.poll t made [.beginOpen "open", .poll 2] opened
  obtain rfl := Option.some.inj (held.symm.trans same)
  obtain ⟨-, front, rest, events, intake, quiet⟩ := takes _ supplies
  exact ⟨able, t, made, front, rest, events, intake, quiet⟩

end Tls

end PolledConnection
