import PolledConnection.Proofs.Connection.Refusal
import PolledConnection.Proofs.Tls.Course

/-! # The tenure of a session

  A transport that is used directly may be asked for anything at any time: it
  may be closed before it is opened, opened again behind a close, read while
  its handshake goes on. Still it has one session at most, uses it only while
  it has it, and has closed it when a close comes back or an open has failed
  (`session_tenure`).

  What may happen depends only on what was done with the session before
  (`Allowed`), and that is one of four records (`Record`).
-/

namespace PolledConnection.Tls

variable {ε σ ρ ω : Type} {us : List Use} {es fs : List Transport.Event} {effects : List Effect}

/-- What a history of a transport does with a session. -/
def dealings (es : List Transport.Event) : List Use := es.filterMap Transport.Event.use?

@[simp] theorem dealings_nil : dealings [] = [] := rfl

@[simp] theorem dealings_cons (e : Transport.Event) (es : List Transport.Event) :
    dealings (e :: es) = e.use?.toList ++ dealings es := by
  cases h : e.use? <;> simp [dealings, h]

@[simp] theorem dealings_append (es fs : List Transport.Event) :
    dealings (es ++ fs) = dealings es ++ dealings fs :=
  List.filterMap_append

@[simp] theorem dealings_effects (effects : List Effect) :
    dealings (effects.map .effect) = used effects := by
  simp [dealings, used, List.filterMap_map, Function.comp_def, Transport.Event.use?]

@[simp] theorem use?_effect (e : Effect) : (Transport.Event.effect e).use? = e.use? := rfl

@[simp] theorem use?_called (call : Transport.Call) : (Transport.Event.called call).use? = none := rfl

/-! ### What may happen -/

/-- A session was created and is not closed. -/
def Holding (us : List Use) : Prop := .request true ∈ us ∧ .close ∉ us

/-- Whether a use is a request for a session. -/
def Use.isRequest : Use → Bool
  | .request _ => true
  | .handshake _ | .read | .write | .close => false

/-- What may happen behind what was done with the session. -/
def Allowed (us : List Use) : Transport.Event → Prop
  /- Bytes are received from a session. -/
  | .effect (.received ..) => Holding us
  /- The engine is asked first of all, and everything else is done with a session that is there. -/
  | .effect e => ∀ u, e.use? = some u → if u.isRequest then us = [] else Holding us
  /- No close and no failed open leaves a session behind. -/
  | .called (.establish .failed) | .called (.close _) => ¬ Holding us
  | .called (.establish _) => True
  /- Without a session, reads and writes fail. -/
  | .called (.read answer) => Holding us ∨ answer = .failed
  | .called (.write _ answer) => Holding us ∨ answer = .error (.tls "no open session")

/-- From what was done before, everything that happens is allowed. -/
def Obeys : List Use → List Transport.Event → Prop
  | _, [] => True
  | us, e :: es => Allowed us e ∧ Obeys (us ++ e.use?.toList) es

theorem Obeys.append (h₁ : Obeys us es) (h₂ : Obeys (us ++ dealings es) fs) :
    Obeys us (es ++ fs) := by
  induction es generalizing us with
  | nil => simpa using h₂
  | cons e es ih =>
    obtain ⟨allowed, rest⟩ := h₁
    exact ⟨allowed, ih rest (by simpa using h₂)⟩

/-- Everything in the history is allowed behind what comes before it. -/
theorem Obeys.allowed {pre post : List Transport.Event} {e : Transport.Event}
    (h : Obeys us (pre ++ e :: post)) : Allowed (us ++ dealings pre) e := by
  induction pre generalizing us with
  | nil => simpa using h.1
  | cons p pre ih =>
    simpa using ih h.2

/-- What is silent is always allowed, and does nothing with a session. -/
theorem Silent.obeys (silent : Silent effects) (us : List Use) :
    Obeys us (effects.map .effect) ∧ used effects = [] := by
  induction effects with
  | nil => exact ⟨trivial, rfl⟩
  | cons e effects ih =>
    obtain ⟨rest, nothing⟩ := ih fun x hx => silent x (List.mem_cons_of_mem _ hx)
    have he := silent e List.mem_cons_self
    cases e with
    | lookedUp | connectPolled | optionOffered | note =>
      refine ⟨⟨by simp [Allowed, Effect.use?], ?_⟩, by simpa [Effect.use?] using nothing⟩
      simpa [Effect.use?] using rest
    | received | sessionRequested | handshake | sessionRead | sessionWrite | sessionClosed =>
      simp [Effect.isSilent] at he

/-! ### Records -/

/-- Whether a use is of a session that is there, and leaves it there. -/
def Use.isInner : Use → Bool
  | .handshake _ | .read | .write => true
  | .request _ | .close => false

/-- All that was done with the session of a transport, and whether it is there. -/
inductive Record : Bool → List Use → Prop where
  | unasked : Record false []
  | refused : Record false [.request false]
  | holds {body : List Use} (inner : ∀ u ∈ body, u.isInner = true) : Record true (.request true :: body)
  | closed {body : List Use} (inner : ∀ u ∈ body, u.isInner = true) :
      Record false (.request true :: (body ++ [.close]))

namespace Record

variable {held : Bool}

/-- Among inner uses there is no other. -/
theorem not_mem_of_inner {body : List Use} (inner : ∀ u ∈ body, u.isInner = true) {u : Use}
    (hu : u.isInner = false) : u ∉ body := by
  intro member
  simp [inner u member] at hu

theorem holding_iff (h : Record held us) : Holding us ↔ held = true := by
  cases h with
  | unasked | refused => simp [Holding]
  | holds inner => simp [Holding, not_mem_of_inner inner (u := .close) rfl]
  | closed inner => simp [Holding]

/-- The session that is there is used. -/
theorem uses (h : Record true us) {u : Use} (hu : u.isInner = true) : Record true (us ++ [u]) := by
  cases h with
  | @holds body inner =>
    have all : ∀ v ∈ body ++ [u], v.isInner = true := by
      intro v hv
      rcases List.mem_append.mp hv with before | last
      · exact inner v before
      · rw [List.mem_singleton.mp last]
        exact hu
    exact .holds all

/-- The session that is there is closed. -/
theorem closes (h : Record true us) : Record false (us ++ [.close]) := by
  cases h with
  | holds inner => exact .closed inner

/-- The engine was asked once at most, and a session was closed once at most, if there was one. -/
theorem counts (h : Record held us) :
    us.countP Use.isRequest ≤ 1 ∧ us.count .close ≤ us.count (.request true) := by
  have none {body : List Use} (inner : ∀ u ∈ body, u.isInner = true) :
      body.countP Use.isRequest = 0 ∧ body.count .close = 0 := by
    refine ⟨List.countP_eq_zero.mpr fun u hu => ?_, List.count_eq_zero.mpr (not_mem_of_inner inner rfl)⟩
    have inside := inner u hu
    cases u <;> simp_all [Use.isInner, Use.isRequest]
  cases h with
  | unasked | refused => decide
  | holds inner =>
    obtain ⟨asked, closed⟩ := none inner
    simp [List.countP_cons, Use.isRequest, asked, closed]
  | closed inner =>
    obtain ⟨asked, closed⟩ := none inner
    simp [List.countP_cons, List.countP_append, Use.isRequest, asked, closed]

end Record

/-! ### The invariant -/

/-- The history so far was allowed, and the record of the session fits what the transport shows. -/
structure Tenured (es : List Transport.Event) (v : View ε σ) : Prop where
  sound : v.Sound
  /-- Before the handshake, the engine was not asked. -/
  new : v.step.rank < Step.rank .handshake → dealings es = []
  record : Record v.layer.held.isSome (dealings es)
  obeys : Obeys [] es

namespace Tenured

variable {eng : Engine ε σ} {licence : Options → Carrier → Receiver → Prop} {v w : View ε σ}
variable {h : Held σ}

/-- The session is there and is used. -/
theorem uses (tenured : Tenured es v) (held : v.layer.held = some h) {u : Use} (hu : u.isInner = true)
    {session : σ} (one : used effects = [u])
    (obeys : Obeys (dealings es) (effects.map .effect)) :
    Tenured (es ++ effects.map .effect) (v.withSession h session) where
  sound := ⟨fun _ => tenured.sound.receiver (by simp [held]),
    fun _ => tenured.sound.step (by simp [held])⟩
  new ahead := by
    have shaking : v.step = .handshake := tenured.sound.step (by simp [held])
    simp [View.withSession, shaking] at ahead
  record := by
    have record := tenured.record
    rw [held] at record
    rw [dealings_append, dealings_effects, one]
    exact record.uses hu
  obeys := tenured.obeys.append (by simpa using obeys)

/-- **Step**: every deed is allowed. -/
theorem deed (tenured : Tenured es v) (deed : Deed eng licence v effects w) :
    Tenured (es ++ effects.map .effect) w := by
  have sound : w.Sound := (Course.single deed).sound tenured.sound
  have holding {h : Held σ} (held : v.layer.held = some h) : Holding (dealings es) :=
    tenured.record.holding_iff.mpr (by simp [held])
  cases deed with
  | aside options step silent on =>
    obtain ⟨obeys, nothing⟩ := silent.obeys (dealings es)
    have same : dealings (es ++ effects.map .effect) = dealings es := by simp [nothing]
    refine ⟨sound, fun ahead => ?_, ?_, tenured.obeys.append (by simpa using obeys)⟩
    · rw [same]
      refine tenured.new ?_
      rcases on with rfl | ⟨-, on⟩
      · exact ahead
      · exact Nat.lt_of_le_of_lt on ahead
    · rw [same]
      exact tenured.record
  | created bare ahead =>
    have unasked := tenured.new ahead
    refine ⟨sound, by simp, ?_, tenured.obeys.append ⟨?_, trivial⟩⟩
    · simpa [unasked, Effect.use?] using (Record.holds (by simp) : Record true [.request true])
    · simp [Allowed, Effect.use?, Use.isRequest, unasked]
  | refused bare ahead =>
    have unasked := tenured.new ahead
    refine ⟨sound, by simp [Step.rank], ?_, tenured.obeys.append ⟨?_, trivial⟩⟩
    · simpa [unasked, Effect.use?, bare] using Record.refused
    · simp [Allowed, Effect.use?, Use.isRequest, unasked]
  | @handshake h held =>
    refine tenured.uses held (u := .handshake (eng.handshake h.session).1) rfl (by simp [Effect.use?]) ?_
    simpa [Obeys, Allowed, Effect.use?, Use.isRequest] using holding held
  | @read h held =>
    -- Bytes come from the session that was just read.
    have behind : Holding (dealings es ++ [.read]) := by simpa [Holding] using holding held
    have digested (answer : Except Fault Fill) :
        Obeys (dealings es ++ [.read]) ((Layer.digest v.layer.receiver answer).2.map .effect) := by
      cases answer with
      | error fault => simp [Layer.digest, Obeys, Allowed, Effect.use?]
      | ok fill =>
        by_cases hf : fill.count = 0
        · simp [Layer.digest, hf, Obeys]
        · cases hr : v.layer.receiver with
          | none => simp [Layer.digest, hf, Obeys]
          | some receiver => simp [Layer.digest, hf, Obeys, Allowed, behind]
    refine tenured.uses held (u := .read) rfl (by simp [Effect.use?, Layer.used_digest])
      ⟨?_, digested _⟩
    simpa [Allowed, Effect.use?, Use.isRequest] using holding held
  | @write h bytes held =>
    refine tenured.uses held (u := .write) rfl (by simp [Effect.use?]) ?_
    simpa [Obeys, Allowed, Effect.use?, Use.isRequest] using holding held
  | close =>
    cases hl : v.layer.held with
    | none => exact ⟨sound, by simpa [hl] using tenured.new, by simpa [hl] using tenured.record, by
        simpa [hl] using tenured.obeys⟩
    | some h =>
      have shaking : v.step = .handshake := tenured.sound.step (by simp [hl])
      have record := tenured.record
      rw [hl] at record
      refine ⟨sound, by simp [shaking], ?_, tenured.obeys.append ⟨?_, trivial⟩⟩
      · simpa [Effect.use?] using record.closes
      · simpa [Allowed, Effect.use?, Use.isRequest] using holding hl

/-- Every answer of a call is allowed. -/
theorem call {call : Transport.Call} (tenured : Tenured es v) (fits : Fits v call) :
    Tenured (es ++ [.called call]) v where
  sound := tenured.sound
  new := by simpa using tenured.new
  record := by simpa using tenured.record
  obeys := by
    have holding := tenured.record.holding_iff
    refine tenured.obeys.append ⟨?_, trivial⟩
    cases hl : v.layer.held with
    | none =>
      cases call with
      | establish answer => cases answer <;> simp [Allowed, holding, hl]
      | close answer => simp [Allowed, holding, hl]
      | read answer => exact .inr (fits hl)
      | write offered answer => exact .inr (fits hl)
    | some h =>
      cases call with
      | establish answer =>
        cases answer with
        | failed => simp [Fits, hl] at fits
        | waiting | done => trivial
      | close answer => simp [Fits, hl] at fits
      | read answer | write offered answer => exact .inl (by simp [holding, hl])

end Tenured

/-! ### Licences and receivers -/

/-- Sessions were requested only with a licence, and bytes were handed only to receivers that have
    one. -/
structure Licensed (licence : Options → Carrier → Receiver → Prop) (es : List Transport.Event)
    (v : View ε σ) : Prop where
  requests : ∀ hostname port carrier options answer,
    .effect (.sessionRequested hostname port carrier options answer) ∈ es →
      ∃ receiver, licence options carrier receiver
  receiver : ∀ receiver, v.layer.receiver = some receiver →
    ∃ options carrier, licence options carrier receiver
  received : ∀ tag bytes, .effect (.received tag bytes) ∈ es →
    ∃ options carrier, licence options carrier ⟨tag⟩

namespace Licensed

variable {eng : Engine ε σ} {licence : Options → Carrier → Receiver → Prop} {v w : View ε σ}

/-- The receiver stays, and the session is not requested. -/
theorem frame (h : Licensed licence es v) (same : w.layer.receiver = v.layer.receiver)
    (requests : ∀ hostname port carrier options answer,
      .sessionRequested hostname port carrier options answer ∉ effects)
    (received : ∀ tag bytes, .received tag bytes ∈ effects → v.layer.receiver = some ⟨tag⟩) :
    Licensed licence (es ++ effects.map .effect) w where
  requests hostname port carrier options answer member := by
    have early : .effect (.sessionRequested hostname port carrier options answer) ∈ es := by
      simpa [requests] using member
    exact h.requests _ _ _ _ _ early
  receiver receiver held := h.receiver receiver (same.symm.trans held)
  received tag bytes member := by
    rcases List.mem_append.mp member with early | late
    · exact h.received tag bytes early
    · exact h.receiver ⟨tag⟩ (received tag bytes (by simpa using late))

/-- **Step**: every deed has its licence. -/
theorem deed (h : Licensed licence es v) (deed : Deed eng licence v effects w) :
    Licensed licence (es ++ effects.map .effect) w := by
  cases deed with
  | aside _ _ silent =>
    refine h.frame rfl (fun _ _ _ _ _ member => ?_) fun _ _ member => ?_
    · simpa [Effect.isSilent] using silent _ member
    · simpa [Effect.isSilent] using silent _ member
  | handshake | write => exact h.frame rfl (by simp) (by simp)
  | @read held _ =>
    cases ha : (eng.read receiveBufferSize held.session).1 with
    | error fault => exact h.frame rfl (by simp [Layer.digest]) (by simp [Layer.digest])
    | ok fill =>
      by_cases hf : fill.count = 0
      · exact h.frame rfl (by simp [Layer.digest, hf]) (by simp [Layer.digest, hf])
      · refine h.frame rfl (by simp [Layer.digest, hf]) ?_
        cases hr : v.layer.receiver <;> simp [Layer.digest, hf]
  | created _ _ licensed =>
    refine ⟨fun _ _ _ _ _ member => ?_, fun receiver held => ?_, fun tag bytes member => ?_⟩
    · rcases List.mem_append.mp member with early | late
      · exact h.requests _ _ _ _ _ early
      · obtain ⟨-, -, rfl, rfl, -⟩ := by simpa using late
        exact ⟨_, licensed⟩
    · obtain rfl := Option.some.inj held
      exact ⟨_, _, licensed⟩
    · exact h.received tag bytes (by simpa using member)
  | refused _ _ licensed =>
    refine ⟨fun _ _ _ _ _ member => ?_, h.receiver, fun tag bytes member => ?_⟩
    · rcases List.mem_append.mp member with early | late
      · exact h.requests _ _ _ _ _ early
      · obtain ⟨-, -, rfl, rfl, -⟩ := by simpa using late
        exact ⟨_, licensed⟩
    · exact h.received tag bytes (by simpa using member)
  | close =>
    exact ⟨fun _ _ _ _ _ member => h.requests _ _ _ _ _ (by simpa using member), by simp,
      fun tag bytes member => h.received tag bytes (by simpa using member)⟩

theorem call {call : Transport.Call} (h : Licensed licence es v) (_ : Fits v call) :
    Licensed licence (es ++ [.called call]) v where
  requests _ _ _ _ _ member := h.requests _ _ _ _ _ (by simpa using member)
  receiver := h.receiver
  received tag bytes member := h.received tag bytes (by simpa using member)

end Licensed

/-! ### The theorem -/

/-- What a transport does with its session in its whole life. -/
structure Tenure (es : List Transport.Event) : Prop where
  /-- The engine is asked for a session at most once, whatever it answers. -/
  once : (dealings es).countP Use.isRequest ≤ 1
  /-- A session that it has created is closed at most once. -/
  closes : (dealings es).count .close ≤ (dealings es).count (.request true)
  /-- Whatever happens is allowed behind what was done with the session before. -/
  order : ∀ pre e post, es = pre ++ e :: post → Allowed (dealings pre) e

/-- A transport that conducts itself as a TLS transport keeps to the tenure of its session. -/
theorem Conduct.tenure {τ : Type} {eng : Engine ε σ} {T : Transport τ} {view : τ → View ε σ}
    {fit : τ → Prop} {licence : Options → Carrier → Prop} {engine : ε} {made : Transport.Creation τ}
    (conduct : Conduct eng T view fit licence) (begins : Begins eng view fit engine made)
    (qs : List Transport.Request) :
    let es := Tls.directly T made qs
    Tenure es ∧
      (∀ hostname port carrier options answer,
        .effect (.sessionRequested hostname port carrier options answer) ∈ es →
          licence options carrier) ∧
      ∀ t, made.result = .ok t →
        ((view ((T.serveAll qs).run t).state).layer.held.isSome = true ↔ Holding (dealings es)) := by
  intro es
  obtain ⟨v, w, fresh, course, last⟩ := conduct.directly begins qs
  have first : Tenured [] v :=
    ⟨fresh.sound, fun _ => rfl, by simpa [fresh.held] using Record.unasked, trivial⟩
  have tenured : Tenured es w := course.invariant Tenured.deed Tenured.call first
  have licensed : Licensed (Upon licence qs) es w :=
    course.invariant Licensed.deed Licensed.call ⟨by simp, by simp [fresh.receiver], by simp⟩
  refine ⟨?_, fun _ _ carrier options _ member => ?_, fun t ht => ?_⟩
  · obtain ⟨once, closes⟩ := tenured.record.counts
    refine ⟨once, closes, fun pre e post split => ?_⟩
    have obeys := tenured.obeys
    rw [split] at obeys
    simpa using obeys.allowed
  · obtain ⟨receiver, permitted, -⟩ := licensed.requests _ _ _ _ _ member
    exact permitted
  · rw [last t ht]
    exact tenured.record.holding_iff.symm

/-- A transport that conducts itself as a TLS transport hands bytes only to receivers that it was given
    in an open. -/
theorem Conduct.loyal {τ : Type} {eng : Engine ε σ} {T : Transport τ} {view : τ → View ε σ}
    {fit : τ → Prop} {licence : Options → Carrier → Prop} {engine : ε} {made : Transport.Creation τ}
    (conduct : Conduct eng T view fit licence) (begins : Begins eng view fit engine made) {t : τ}
    (result : made.result = .ok t) : T.Loyal t := by
  intro qs es u leads tag bytes member
  obtain ⟨v, w, fresh, course, -⟩ := conduct.directly begins qs
  have licensed : Licensed (Upon licence qs) (Tls.directly T made qs) w :=
    course.invariant Licensed.deed Licensed.call ⟨by simp, by simp [fresh.receiver], by simp⟩
  have all : .effect (.received tag bytes) ∈ Tls.directly T made qs := by
    simp only [Tls.directly, result, leads.1]
    exact List.mem_append_right _ member
  obtain ⟨options, carrier, -, asked⟩ := licensed.received tag bytes all
  exact asked

theorem OverGiven.loyal (eng : Engine ε σ) (engine : ε) (carrier : Carrier) (endpoint : Endpoint)
    {t : OverGiven ε σ} (made : (create eng engine carrier endpoint).result = .ok t) :
    (transport eng).Loyal t :=
  (conduct eng carrier).loyal (create_begins eng engine carrier endpoint) made

theorem OverTcp.loyal (eng : Engine ε σ) (net : Network ω) (res : Resolver ρ) (engine : ε)
    (resolver : ρ) (network : ω) (endpoint : Endpoint) {t : OverTcp ε σ ρ ω}
    (made : (create eng net res engine resolver network endpoint).result = .ok t) :
    (transport eng net res).Loyal t :=
  (conduct eng net res).loyal (create_begins eng net res engine resolver network endpoint) made

/-- **The tenure of a session.** Take either TLS transport by itself, with any engine, network and
    resolver, from its making on, and ask it for anything in any order. The engine is asked for one
    session at most. A session that it creates is closed at most once, and is closed when a close comes
    back or an open has failed. It is used only between its creation and its close; without it every
    read and every write fails, and no bytes are received.

    Over a given carrier, the options of the request pass the check, and the carrier is the given one. -/
theorem session_tenure (eng : Engine ε σ) (net : Network ω) (res : Resolver ρ) (engine : ε)
    (resolver : ρ) (network : ω) (carrier : Carrier) (endpoint : Endpoint)
    (qs : List Transport.Request) :
    let given := OverGiven.create eng engine carrier endpoint
    let overTcp := OverTcp.create eng net res engine resolver network endpoint
    let es := directly (OverGiven.transport eng) given qs
    let fs := directly (OverTcp.transport eng net res) overTcp qs
    Tenure es ∧ Tenure fs ∧
    (∀ hostname port c options answer,
      .effect (.sessionRequested hostname port c options answer) ∈ es →
        options.checkConsistency = .ok () ∧ c = carrier) ∧
    (∀ t, given.result = .ok t →
      ((((OverGiven.transport eng).serveAll qs).run t).state.layer.held.isSome = true ↔
        Holding (dealings es))) ∧
    (∀ t, overTcp.result = .ok t →
      ((((OverTcp.transport eng net res).serveAll qs).run t).state.layer.held.isSome = true ↔
        Holding (dealings fs))) := by
  intro given overTcp es fs
  obtain ⟨tenure, licensed, held⟩ := (OverGiven.conduct eng carrier).tenure
    (OverGiven.create_begins eng engine carrier endpoint) qs
  obtain ⟨tenureTcp, -, heldTcp⟩ := (OverTcp.conduct eng net res).tenure
    (OverTcp.create_begins eng net res engine resolver network endpoint) qs
  exact ⟨tenure, tenureTcp, licensed, held, heldTcp⟩

/-- A transport that is closed before it is opened, closed twice during its handshake, and opened
    again. -/
example :
    let made := OverGiven.create Script.Engine.engine
      ⟨⟨true, true, true, false⟩, [], ⟨[.waiting], [], []⟩⟩ (.given "carrier") (.of "host" 443)
    dealings (directly (OverGiven.transport Script.Engine.engine) made
        [.close, .establish ⟨"first"⟩, .close, .close, .establish ⟨"second"⟩, .read]) =
      [.request true, .close] := by
  decide

end PolledConnection.Tls
