import PolledConnection.Proofs.Connection.Operations

/-! # What a connection asks of its transport

  A connection does nothing to its transport but make requests of it, one
  after the other. So whatever holds of every sequence of requests to a
  transport holds of the transport of every connection: its history is the
  history of such a sequence, and its state is what the sequence leads to
  (`live_driven`). The options in it are those that the caller has offered.

  Nor does it make up callbacks. Those that it fires, those that it holds, and
  those that its transport gets with an open are all of a line that begins with
  a request that was accepted (`Lineage`, `live_traced`).
-/

namespace PolledConnection

namespace Transport

variable {σ : Type} {T : Transport σ} {s u v : σ} {ps qs : List Request} {es fs : List Event}

/-- The requests `qs` take the transport from `s` to `u`, with the history `es`. -/
def Leads (T : Transport σ) (s : σ) (qs : List Request) (es : List Event) (u : σ) : Prop :=
  ((T.serveAll qs).run s).events = es ∧ ((T.serveAll qs).run s).state = u

/-- The option that a request offers. -/
def Request.option? : Request → Option (String × Setting)
  | .setOption name value => some (name, value)
  | _ => none

theorem Leads.refl : T.Leads s [] [] s := ⟨rfl, rfl⟩

/-- The history of a request goes before those of the requests behind it. -/
theorem Leads.cons {q : Request} (h : T.Leads ((T.serve q).run s).state qs es u) :
    T.Leads s (q :: qs) (((T.serve q).run s).events ++ es) u := by
  obtain ⟨events, state⟩ := h
  exact ⟨by simp [serveAll_cons, events], by simp [serveAll_cons, state]⟩

theorem Leads.single {q : Request} (events : ((T.serve q).run s).events = es)
    (state : ((T.serve q).run s).state = u) : T.Leads s [q] es u := by
  have one : T.Leads s [q] (((T.serve q).run s).events ++ []) ((T.serve q).run s).state :=
    Leads.cons .refl
  rw [events, state, List.append_nil] at one
  exact one

theorem Leads.trans (h₁ : T.Leads s ps es u) (h₂ : T.Leads u qs fs v) :
    T.Leads s (ps ++ qs) (es ++ fs) v := by
  induction ps generalizing s es with
  | nil =>
    obtain ⟨rfl, rfl⟩ := h₁
    exact h₂
  | cons p ps ih =>
    obtain ⟨rfl, rfl⟩ := h₁
    have rest : T.Leads ((T.serve p).run s).state (ps ++ qs)
        (((T.serveAll ps).run ((T.serve p).run s).state).events ++ fs) v := ih ⟨rfl, rfl⟩
    simpa [serveAll_cons, serveAll_nil] using rest.cons

/-- The transport hands bytes only to receivers that it was given in an open. All three do
    (`Tcp.loyal`, `Tls.OverGiven.loyal`, `Tls.OverTcp.loyal`). -/
def Loyal (T : Transport σ) (t : σ) : Prop :=
  ∀ qs es u, T.Leads t qs es u → ∀ tag bytes, .effect (.received tag bytes) ∈ es →
    .establish ⟨tag⟩ ∈ qs

/-- A run of requests is a run of the first of them, then one of the others. -/
theorem run_serveAll_append (T : Transport σ) (ps qs : List Request) (s : σ) :
    (T.serveAll (ps ++ qs)).run s =
      let first := (T.serveAll ps).run s
      let second := (T.serveAll qs).run first.state
      ⟨first.answer ++ second.answer, second.state, first.events ++ second.events⟩ :=
  Act.run_oneByOne_append T.serve ps qs s

end Transport

/-- What an event tells of the transport. -/
def Event.transport? : Event → Option Transport.Event
  | .transport event => some event
  | _ => none

namespace Connection

variable {σ : Type} {T : Transport σ} {c d : Connection σ} {gs hs : List Grant}
variable {es fs : List Event}

/-! ### The transport's part of a history -/

/-- The history of the transport. -/
def transported (es : List Event) : List Transport.Event := es.filterMap Event.transport?

@[simp] theorem transported_nil : transported [] = [] := rfl

@[simp] theorem transported_cons (e : Event) (es : List Event) :
    transported (e :: es) = e.transport?.toList ++ transported es := by
  cases h : e.transport? <;> simp [transported, h]

@[simp] theorem transported_append (es fs : List Event) :
    transported (es ++ fs) = transported es ++ transported fs :=
  List.filterMap_append

@[simp] theorem transported_inside (effects : List Effect) :
    transported (inside effects) = effects.map .effect := by
  simp [transported, inside, Event.transport?, List.filterMap_map, Function.comp_def]

section
variable (verdict : Verdict) (phase : Phase) (tags : List Tag) (messages : List Message)

@[simp] theorem transported_openComplete :
    transported (tags.map fun tag => .openComplete tag verdict phase) = [] := by
  simp [transported, Event.transport?]

@[simp] theorem transported_ioError :
    transported (tags.map fun tag => .ioError tag phase) = [] := by
  simp [transported, Event.transport?]

@[simp] theorem transported_closeComplete :
    transported (tags.map fun tag => .closeComplete tag phase) = [] := by
  simp [transported, Event.transport?]

@[simp] theorem transported_sendComplete :
    transported (messages.map fun m => .sendComplete m.tag verdict phase) = [] := by
  simp [transported, Event.transport?]

end

@[simp] theorem transported_farewell (c : Connection σ) (answer : Progress) :
    transported (farewell c answer) = [] := by
  cases answer <;> simp [farewell, Event.transport?]

/-! ### Setting options -/

/-- An option that is set on a connection is set on its transport, and nothing else happens there. -/
theorem run_setOption (T : Transport σ) (name : String) (value : Setting) (c : Connection σ) :
    let o := (setOption T name value).run c
    let p := (T.setOption name value).run c.transport
    o.answer = p.answer ∧ o.state = { c with transport := p.state } ∧
      transported o.events = p.events.map .effect := by
  rcases h : (T.setOption name value).run c.transport with ⟨_ | _, s, effects⟩
  · simp [setOption, run_unrecorded h, Event.transport?]
  · simp [setOption, run_unrecorded h]

/-- A replay onto a connection applies the list to its transport, and does nothing else there. -/
theorem run_replay (T : Transport σ) (options : List (String × Setting)) (c : Connection σ) :
    let o := (replay T options).run c
    let p := (T.applyAll options).run c.transport
    o.answer = p.answer ∧ o.state = { c with transport := p.state } ∧
      transported o.events = p.events.map .effect := by
  induction options generalizing c with
  | nil => exact ⟨rfl, rfl, rfl⟩
  | cons option rest ih =>
    obtain ⟨answer, state, shown⟩ := run_setOption T option.1 option.2 c
    simp only [replay_cons, Transport.applyAll_cons, Act.run_bind, answer, state]
    cases ((T.setOption option.1 option.2).run c.transport).answer with
    | error fault => simpa using shown
    | ok =>
      have behind := ih { c with transport := ((T.setOption option.1 option.2).run c.transport).state }
      simpa [shown] using behind

/-! ### Attempts to send -/

/-- An attempt to send is one write, and nothing behind that reaches the transport. -/
theorem run_pollSend_offers (hp : c.phase = .opened) {head : Message} {tail : List Message}
    (hm : c.outbox.messages = head :: tail) {a : Count} {s : σ} {effects : List Effect}
    (h : (T.write head.rest).run c.transport = ⟨a, s, effects⟩) :
    ∃ d rest, (pollSend T).run c =
        ⟨(), d, inside effects ++ called (.write head.rest a) :: rest⟩ ∧
      d.transport = s ∧ calls rest = [] ∧ transported rest = [] := by
  cases a with
  | error fault =>
    refine ⟨_, _, run_pollSend_fails hp hm h, rfl, ?_, ?_⟩
    · simp
    · simp [Event.transport?]
  | ok n =>
    by_cases hn : n = 0 ∨ (head.accept n).unsent ≠ 0
    · exact ⟨_, _, run_pollSend_stays hm h hn, rfl, rfl, rfl⟩
    · obtain ⟨hn, hu⟩ := not_or.mp hn
      have hu : (head.accept n).unsent = 0 := Decidable.not_not.mp hu
      exact ⟨_, _, run_pollSend_ends hp hm h hn hu, rfl, rfl, rfl⟩

/-- The option that a grant offers. -/
def Grant.option? : Grant → Option (String × Setting)
  | .offering name value => some (name, value)
  | _ => none

/-! ### Moves as requests -/

/-- What happened to a connection are requests to its transport, with the options of `gs`. -/
def Driven (T : Transport σ) (c : Connection σ) (gs : List Grant) (es : List Event)
    (d : Connection σ) : Prop :=
  ∃ qs, T.Leads c.transport qs (transported es) d.transport ∧
    qs.filterMap Transport.Request.option? = gs.filterMap Grant.option?

/-- Nothing is asked, and nothing changes for the transport. -/
theorem Driven.still (events : transported es = []) (transport : d.transport = c.transport)
    (grant : gs.filterMap Grant.option? = []) : Driven T c gs es d := by
  refine ⟨[], ?_, grant.symm⟩
  rw [events, transport]
  exact .refl

/-- One request is made. -/
theorem Driven.once {q : Transport.Request}
    (events : ((T.serve q).run c.transport).events = transported es)
    (state : ((T.serve q).run c.transport).state = d.transport)
    (offer : [q].filterMap Transport.Request.option? = gs.filterMap Grant.option?) :
    Driven T c gs es d :=
  ⟨[q], .single events state, offer⟩

/-- What a move asks of the transport: nothing, or one thing. The receiver of an open is the client. -/
theorem Move.request (h : Move T c gs es d) :
    (transported es = [] ∧ d.transport = c.transport ∧ gs.filterMap Grant.option? = []) ∨
      ∃ q, ((T.serve q).run c.transport).events = transported es ∧
        ((T.serve q).run c.transport).state = d.transport ∧
        [q].filterMap Transport.Request.option? = gs.filterMap Grant.option? ∧
        ∀ receiver, q = .establish receiver → c.client = some receiver.tag := by
  cases h with
  -- Moves that do not touch the transport.
  | refuse | beginOpen | queue | beginClose | breakOpen | dropOpen =>
    exact .inl ⟨by simp [Event.transport?], rfl, rfl⟩
  -- Every other move is one request, with the move's own answer.
  | @offer name value r s effects h =>
    refine .inr ⟨.setOption name value, ?_, ?_, rfl, by simp⟩
    · simp [Transport.serve, Transport.unrecorded, h]
    · simp [Transport.serve, Transport.unrecorded, h]
  | @openWaits tag s effects _ hc h | @openDone tag s effects _ hc h
  | @openFails tag s effects _ hc h =>
    refine .inr ⟨.establish ⟨tag⟩, ?_, ?_, rfl, by simp [hc]⟩
    · simp [Transport.serve, Transport.recorded, Event.transport?, h]
    · simp [Transport.serve, Transport.recorded, h]
  | @read a s effects _ _ h | @readFails s effects _ h =>
    refine .inr ⟨.read, ?_, ?_, rfl, by simp⟩
    · simp [Transport.serve, Transport.recorded, Event.transport?, h]
    · simp [Transport.serve, Transport.recorded, h]
  | @writeStays head tail n s effects _ _ h _ | @writeEnds head tail n s effects _ _ h _ _
  | @writeFails head tail fault s effects _ _ h =>
    refine .inr ⟨.write head.rest, ?_, ?_, rfl, by simp⟩
    · simp [Transport.serve, Transport.offer, Transport.recorded, Event.transport?, h]
    · simp [Transport.serve, Transport.offer, Transport.recorded, h]
  | @closeWaits s effects _ h | @closeEnds a s effects _ _ h | @destroy a s effects _ h =>
    refine .inr ⟨.close, ?_, ?_, rfl, by simp⟩
    · simp [Transport.serve, Transport.recorded, Event.transport?, h]
    · simp [Transport.serve, Transport.recorded, ended, h]

/-- A move makes at most one request. -/
theorem Move.driven (h : Move T c gs es d) : Driven T c gs es d := by
  rcases h.request with ⟨events, transport, grant⟩ | ⟨q, events, state, offer, -⟩
  · exact .still events transport grant
  · exact .once events state offer

theorem Moves.driven (h : Moves T c gs es d) : Driven T c gs es d := by
  induction h with
  | refl => exact .still rfl rfl rfl
  | snoc _ last ih =>
    obtain ⟨ps, first, before⟩ := ih
    obtain ⟨qs, second, behind⟩ := last.driven
    refine ⟨ps ++ qs, ?_, ?_⟩
    · rw [transported_append]
      exact first.trans second
    · rw [List.filterMap_append, List.filterMap_append, before, behind]

/-- **Whole lives**: what a connection does to its transport is a sequence of requests to it, and
    the options in it are those that the caller offered. -/
theorem live_driven (T : Transport σ) (t : σ) (rs : List Request) (destroyed : Bool) :
    ∃ qs, T.Leads t qs (transported ((live T rs destroyed).run (ofTransport t)).events)
        ((live T rs destroyed).run (ofTransport t)).state.transport ∧
      qs.filterMap Transport.Request.option? =
        (grants T (ofTransport t) rs).filterMap Grant.option? := by
  obtain ⟨qs, leads, options⟩ := (live_moves T t rs destroyed).driven
  refine ⟨qs, leads, ?_⟩
  rw [options, lifeGrants, List.filterMap_append]
  -- A destruction offers nothing.
  have nothing : (if destroyed then dropped ((serveAll T rs).run (ofTransport t)).state
      else []).filterMap Grant.option? = [] := by
    unfold dropped
    split
    · split <;> rfl
    · rfl
  rw [nothing, List.append_nil]

/-! ### Where callbacks come from -/

/-- A kind of callback: the grants that bring one, those that a connection holds, and the events that
    show one. A move shows and leaves only what was held before it or comes with it. -/
structure Lineage (σ : Type) where
  brought : Grant → Option Tag
  held : Connection σ → List Tag
  shown : Event → Option Tag
  /-- Receivers are of this kind. -/
  client : ∀ {c : Connection σ} {tag : Tag}, c.client = some tag → tag ∈ held c
  new : ∀ t : σ, held (ofTransport t) = []
  kept : ∀ {T : Transport σ} {c d : Connection σ} {gs : List Grant} {es : List Event} {tag : Tag},
    Move T c gs es d → tag ∈ held d ∨ tag ∈ es.filterMap shown →
      tag ∈ held c ∨ tag ∈ gs.filterMap brought

/-- The callbacks of a history were all granted: those that the connection still holds, those that it
    has fired, and those of the receivers that its transport was given. -/
structure Traced (line : Lineage σ) (T : Transport σ) (t : σ) (gs : List Grant) (es : List Event)
    (c : Connection σ) : Prop where
  known : ∀ tag, tag ∈ line.held c ∨ tag ∈ es.filterMap line.shown → tag ∈ gs.filterMap line.brought
  asked : ∃ qs, T.Leads t qs (transported es) c.transport ∧
    ∀ receiver, .establish receiver ∈ qs → receiver.tag ∈ gs.filterMap line.brought

namespace Traced

variable {line : Lineage σ} {t : σ} {tag : Tag}

theorem first (line : Lineage σ) (T : Transport σ) (t : σ) : Traced line T t [] [] (ofTransport t) where
  known _ h := by simp [line.new] at h
  asked := ⟨[], .refl, by simp⟩

/-- **Step**: no move brings a callback along that was not granted. -/
theorem step (h : Traced line T t gs es c) (move : Move T c hs fs d) :
    Traced line T t (gs ++ hs) (es ++ fs) d where
  known tag shows := by
    have before := h.known tag
    have moved : tag ∈ line.held d ∨ tag ∈ fs.filterMap line.shown → _ := line.kept move
    rw [List.filterMap_append, List.mem_append] at shows ⊢
    grind
  asked := by
    obtain ⟨qs, leads, receivers⟩ := h.asked
    rw [transported_append, List.filterMap_append]
    rcases move.request with ⟨events, transport, -⟩ | ⟨q, events, state, -, client⟩
    · rw [events, List.append_nil, transport]
      exact ⟨qs, leads, fun receiver member => List.mem_append_left _ (receivers receiver member)⟩
    · refine ⟨qs ++ [q], leads.trans (.single events state), fun receiver member => ?_⟩
      rcases List.mem_append.mp member with early | last
      · exact List.mem_append_left _ (receivers receiver early)
      · -- The receiver of this open is the client, which the connection holds.
        have held := line.client (client receiver (List.mem_singleton.mp last).symm)
        exact List.mem_append_left _ (h.known _ (.inl held))

theorem of_shown (h : Traced line T t gs es c) {e : Event} (he : e ∈ es)
    (tells : line.shown e = some tag) : tag ∈ gs.filterMap line.brought :=
  h.known tag (.inr (List.mem_filterMap.mpr ⟨e, he, tells⟩))

/-- A loyal transport hands bytes only to callbacks that were granted. -/
theorem of_received (h : Traced line T t gs es c) (loyal : T.Loyal t) {bytes : Bytes}
    (he : .transport (.effect (.received tag bytes)) ∈ es) : tag ∈ gs.filterMap line.brought := by
  obtain ⟨qs, leads, receivers⟩ := h.asked
  have handed : .effect (.received tag bytes) ∈ transported es :=
    List.mem_filterMap.mpr ⟨_, he, rfl⟩
  exact receivers ⟨tag⟩ (loyal qs _ _ leads tag bytes handed)

end Traced

/-- **Whole lives**: every callback in a life was granted in it. -/
theorem live_traced (line : Lineage σ) (T : Transport σ) (t : σ) (rs : List Request)
    (destroyed : Bool) :
    let o := (live T rs destroyed).run (ofTransport t)
    Traced line T t (lifeGrants T t rs destroyed) o.events o.state :=
  (live_moves T t rs destroyed).invariant Traced.step (Traced.first line T t)

end Connection

end PolledConnection
