import PolledConnection.Tls.Layer

/-! # The TLS layer: options and requests

  What the operations of the layer do to its options, and which sessions they
  request. Only setting an option changes the options, and only creating a
  session requests one.

  Of the options, it matters here which credentials are set: a run of accepted
  options leaves those that were set, and adds those that it sets (`Gains`).
-/

namespace PolledConnection

/-- The options that a session was requested with. -/
def Effect.sessionOptions? : Effect → Option Tls.Options
  | .sessionRequested _ _ _ options _ => some options
  | _ => none

@[simp] theorem Effect.sessionOptions?_note (note : Note) :
    (Effect.note note).sessionOptions? = none := rfl

namespace Tls

variable {ε σ : Type}

/-- The options of all sessions that were requested. -/
def requested (es : List Effect) : List Options := es.filterMap Effect.sessionOptions?

@[simp] theorem requested_nil : requested [] = [] := rfl

@[simp] theorem requested_append (es fs : List Effect) :
    requested (es ++ fs) = requested es ++ requested fs :=
  List.filterMap_append

@[simp] theorem requested_cons (e : Effect) (es : List Effect) :
    requested (e :: es) = e.sessionOptions?.toList ++ requested es := by
  cases h : e.sessionOptions? with
  | none => exact List.filterMap_cons_none h
  | some options => exact List.filterMap_cons_some h

/-! ### Slots that were filled -/

/-- Whether a slot is that of a certificate. -/
def Slot.isCertificate : Slot → Bool
  | .certificate _ => true
  | _ => false

/-- Whether a slot is that of a key. -/
def Slot.isKey : Slot → Bool
  | .key _ => true
  | _ => false

/-- The slot that a request has filled. -/
def fills : Transport.Request → Transport.Answer → List Slot
  | .setOption name _, .accepted (.ok ()) => (Slot.ofName? name).toList
  | _, _ => []

/-- The slots that a run of requests has filled. -/
def filled : List Transport.Request → List Transport.Answer → List Slot
  | q :: qs, a :: as => fills q a ++ filled qs as
  | _, _ => []

namespace Options

variable {o p q : Options} {slots later : List Slot} {name : String} {value : Setting}

/-- From `o` to `p`, the credentials among the slots were added, and none was lost. -/
structure Gains (slots : List Slot) (o p : Options) : Prop where
  certificate : p.certificate.isSome = (o.certificate.isSome || slots.any Slot.isCertificate)
  key : p.key.isSome = (o.key.isSome || slots.any Slot.isKey)

theorem Gains.refl : Gains [] o o where
  certificate := by simp
  key := by simp

theorem Gains.trans (h₁ : Gains slots o p) (h₂ : Gains later p q) :
    Gains (slots ++ later) o q where
  certificate := by rw [h₂.certificate, h₁.certificate, List.any_append, Bool.or_assoc]
  key := by rw [h₂.key, h₁.key, List.any_append, Bool.or_assoc]

theorem gains_store (o : Options) (slot : Slot) (text : String) :
    Gains [slot] o (o.store slot text) := by
  cases slot with
  | trustedCerts | certificate | key =>
    constructor
    · simp [store, Slot.isCertificate]
    · simp [store, Slot.isKey]

theorem checkConsistency_iff (o : Options) :
    o.checkConsistency = .ok () ↔ o.certificate.isSome = o.key.isSome := by
  unfold checkConsistency isConsistent
  by_cases h : o.certificate.isSome = o.key.isSome
  · simp [h]
  · simp [h]

/-- An option that is accepted is stored in its slot. -/
theorem set_accepted (h : o.set name value = (.ok .accepted, p)) :
    ∃ slot text, Slot.ofName? name = some slot ∧ p = o.store slot text := by
  unfold set at h
  cases hs : Slot.ofName? name with
  | none => simp [hs] at h
  | some slot =>
    simp only [hs] at h
    split at h
    · cases hc : o.conflict? slot with
      | some current => simp [hc] at h
      | none =>
        cases ht : value.text? with
        | none => simp [hc, ht] at h
        | some text =>
          simp only [hc, ht, Prod.mk.injEq, true_and] at h
          exact ⟨slot, text, rfl, h.symm⟩
    · simp at h

end Options

/-! ### Operations -/

namespace Layer

variable (eng : Engine ε σ) (l : Layer σ)

theorem run_close :
    (close.run l).state.options = l.options ∧ requested (close.run l).events = [] := by
  cases hl : l.held with
  | none => simp [close, hl]
  | some h => simp [close, hl, Effect.sessionOptions?]

theorem run_handshake :
    ((handshake eng).run l).state.options = l.options ∧
      requested ((handshake eng).run l).events = [] := by
  cases hl : l.held with
  | none => simp [handshake, hl]
  | some h => simp [handshake, hl, Effect.sessionOptions?]

theorem run_read :
    ((read eng).run l).state.options = l.options ∧
      requested ((read eng).run l).events = [] := by
  cases hl : l.held with
  | none => simp [read, hl]
  | some h =>
    cases ha : (eng.read receiveBufferSize h.session).1 with
    | error fault => simp [read, hl, ha, Effect.sessionOptions?]
    | ok fill =>
      by_cases hf : fill.count = 0
      · simp [read, hl, ha, hf, Effect.sessionOptions?]
      · cases hr : l.receiver with
        | none => simp [read, hl, ha, hf, hr, Effect.sessionOptions?]
        | some receiver => simp [read, hl, ha, hf, hr, Effect.sessionOptions?]

theorem run_write (bytes : Bytes) :
    ((write eng bytes).run l).state.options = l.options ∧
      requested ((write eng bytes).run l).events = [] := by
  cases hl : l.held with
  | none => simp [write, hl]
  | some h => simp [write, hl, Effect.sessionOptions?]

theorem run_checkConsistency :
    (checkConsistency.run l).answer = l.options.isConsistent ∧ (checkConsistency.run l).state = l ∧
      requested (checkConsistency.run l).events = [] := by
  cases hc : l.options.isConsistent with
  | true => simp [checkConsistency, Options.checkConsistency, hc]
  | false => simp [checkConsistency, Options.checkConsistency, hc]

/-- A session is requested with the options that are set. -/
theorem run_requestSession (carrier : Carrier) (receiver : Receiver) (e : ε) :
    ((requestSession eng carrier receiver e).run l).state.options = l.options ∧
      requested ((requestSession eng carrier receiver e).run l).events = [l.options] := by
  cases ha : (eng.create l.options l.hostname l.port carrier e).1 with
  | ok session => simp [requestSession, ha, Effect.sessionOptions?]
  | error fault => simp [requestSession, ha, Effect.sessionOptions?]

/-- An option that is accepted fills its slot, and one that is refused fills none. -/
theorem run_setOption (name : String) (value : Setting) :
    let o := (setOption name value).run l
    requested o.events = [] ∧
      Options.Gains (fills (.setOption name value) (.accepted o.answer)) l.options
        o.state.options := by
  rcases h : l.options.set name value with ⟨answer, options⟩
  by_cases accepted : answer = .ok .accepted
  · subst accepted
    obtain ⟨slot, text, hs, rfl⟩ := Options.set_accepted h
    simpa [setOption, h, fills, hs] using Options.gains_store l.options slot text
  · obtain rfl := Options.set_of_refused h accepted
    cases answer with
    | error fault =>
      cases hn : complaint name fault with
      | none => simp [setOption, h, hn, fills, Options.Gains.refl]
      | some note => simp [setOption, h, hn, fills, Options.Gains.refl]
    | ok status =>
      cases status with
      | notHandled => simp [setOption, h, fills, Options.Gains.refl]
      | accepted => exact absurd rfl accepted

end Layer

end Tls

end PolledConnection
