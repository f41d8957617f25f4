import PolledConnection.Proofs.Connection.History

/-! # Moves of a connection

  What a connection can do, one call of its transport at a time: a labelled
  transition relation `Move`, with one constructor for every way a call can
  turn out. Each constructor says everything about its move: when it is
  possible, what it tells, and what becomes of the connection. The operations
  of a connection are sequences of moves (`serve_moves`, `destroy_moves`), so a
  statement about all runs is an invariant of single moves (`Moves.invariant`).

  A label has two parts: what the move grants to the caller, and the events.
-/

namespace PolledConnection.Connection

variable {σ : Type}

/-! ### Labels -/

/-- What a caller has set going. -/
inductive Grant where
  /-- The connection has begun to open. -/
  | opening (tag : Tag)
  /-- A message was queued. -/
  | sending (message : Message)
  /-- The transport was offered an option. -/
  | offering (name : String) (value : Setting)
  /-- The connection has begun to close. -/
  | closing (tag : Tag)
  /-- The connection was destroyed before it had closed. -/
  | ending
deriving DecidableEq

/-- The message of a grant. -/
def Grant.message? : Grant → Option Message
  | .sending m => some m
  | _ => none

/-- The messages that were queued. -/
def queued (gs : List Grant) : List Message := gs.filterMap Grant.message?

@[simp] theorem queued_nil : queued [] = [] := rfl

@[simp] theorem queued_append (gs hs : List Grant) : queued (gs ++ hs) = queued gs ++ queued hs :=
  List.filterMap_append

@[simp] theorem queued_sending (m : Message) : queued [.sending m] = [m] := rfl

@[simp] theorem queued_opening (tag : Tag) : queued [.opening tag] = [] := rfl

@[simp] theorem queued_closing (tag : Tag) : queued [.closing tag] = [] := rfl

@[simp] theorem queued_ending : queued [.ending] = [] := rfl

@[simp] theorem queued_offering (name : String) (value : Setting) :
    queued [.offering name value] = [] := rfl

/-- The options that a replay offers: up to the first that is refused. -/
def offered (T : Transport σ) (c : Connection σ) : List (String × Setting) → List Grant
  | [] => []
  | (name, value) :: rest =>
    .offering name value ::
      match ((setOption T name value).run c).answer with
      | .error _ => []
      | .ok () => offered T ((setOption T name value).run c).state rest

/-- What a request sets going, given its answer. -/
def granted (T : Transport σ) (c : Connection σ) : Request → Answer → List Grant
  | .beginOpen tag, .accepted (.ok ()) => [.opening tag]
  | .beginClose tag, .accepted (.ok ()) =>
    if c.phase = .closing ∨ c.phase = .closed then [] else [.closing tag]
  | .setOption name value, _ => [.offering name value]
  | .replay options, _ => offered T c options.entries
  | r, a => (acceptedBy r a).map .sending

/-- What a destruction sets going. -/
def dropped (c : Connection σ) : List Grant :=
  if c.phase = .initial ∨ c.phase = .closed then [] else [.ending]

/-- What requests set going, one after the other. -/
def grants (T : Transport σ) (c : Connection σ) : List Request → List Grant
  | [] => []
  | r :: rs =>
    granted T c r ((serve T r).run c).answer ++ grants T ((serve T r).run c).state rs

theorem queued_offered (T : Transport σ) (c : Connection σ) (options : List (String × Setting)) :
    queued (offered T c options) = [] := by
  induction options generalizing c with
  | nil => rfl
  | cons option rest ih =>
    obtain ⟨name, value⟩ := option
    -- An option queues nothing, whether or not the replay goes on behind it.
    rw [offered, ← List.singleton_append, queued_append, queued_offering, List.nil_append]
    split
    · rfl
    · exact ih _

theorem queued_granted (T : Transport σ) (c : Connection σ) (r : Request) (a : Answer) :
    queued (granted T c r a) = acceptedBy r a := by
  unfold granted
  split
  · rfl
  · split <;> rfl
  · rfl
  · exact queued_offered T c _
  · simp [queued, Grant.message?, List.filterMap_map, Function.comp_def]

theorem queued_dropped (c : Connection σ) : queued (dropped c) = [] := by
  unfold dropped
  split <;> rfl

/-- The messages that requests queue are those whose acceptance was answered. -/
theorem queued_grants (T : Transport σ) (c : Connection σ) (rs : List Request) :
    queued (grants T c rs) = accepted rs ((serveAll T rs).run c).answer := by
  induction rs generalizing c with
  | nil => rfl
  | cons r rs ih => simp [grants, serveAll_cons, accepted, queued_granted, ih]

/-- An open that was accepted is among what was granted. -/
theorem opening_mem_grants (T : Transport σ) (c : Connection σ) {rs : List Request} {tag : Tag}
    (h : (Request.beginOpen tag, Answer.accepted (.ok ())) ∈
      rs.zip ((serveAll T rs).run c).answer) :
    .opening tag ∈ grants T c rs := by
  induction rs generalizing c with
  | nil => simp at h
  | cons r rs ih =>
    simp only [serveAll_cons, Act.run_bind, Act.run_pure, List.zip_cons_cons, List.mem_cons] at h
    rcases h with here | later
    · obtain ⟨rfl, answer⟩ := Prod.mk.inj here
      simp [grants, granted, ← answer]
    · exact List.mem_append_right _ (ih _ later)

/-- Whether a note is about a request that was refused. -/
def isRefusal : Note → Bool
  | .openRefused _ | .closeRefused | .sizeRefused _ | .sendRefused | .optionRefused .. => true
  | _ => false

/-! ### The end of a close -/

/-- The events at the end of a close: what waits is cancelled, then the close is reported. -/
def farewell (c : Connection σ) (answer : Progress) : List Event :=
  .note (.phaseChanged c.phase .closed) ::
    ((if answer = .failed then [.note .closeFailed] else []) ++
      (c.outbox.messages.map (fun m => .sendComplete m.tag .cancelled .closed) ++
        c.awaitingClose.toList.map fun tag => .closeComplete tag .closed))

@[simp] theorem calls_farewell (c : Connection σ) (answer : Progress) :
    calls (farewell c answer) = [] := by
  cases answer <;> simp [farewell]

@[simp] theorem completions_farewell (c : Connection σ) (answer : Progress) :
    completions (farewell c answer) = c.outbox.messages.map fun m => (m.tag, .cancelled) := by
  cases answer <;> simp [farewell]

/-- A connection whose close has ended, with nothing left but its transport. -/
def ended (s : σ) : Connection σ where
  phase := .closed
  transport := s
  outbox := .empty
  awaitingOpen := none
  client := none
  awaitingClose := none

/-! ### The relation -/

section
variable (T : Transport σ)

/-- A move, with what it grants and what it tells. -/
inductive Move : Connection σ → List Grant → List Event → Connection σ → Prop where
  /-- A request is refused. -/
  | refuse {c} (note : Note) (hn : isRefusal note = true) : Move c [] [.note note] c
  /-- The transport is offered an option. -/
  | offer {c name value r s effects}
      (h : (T.setOption name value).run c.transport = ⟨r, s, effects⟩) :
      Move c [.offering name value] (inside effects) { c with transport := s }
  /-- The caller wants to open. -/
  | beginOpen {c} (tag : Tag) (hp : c.phase = .initial) :
      Move c [.opening tag] [.note (.phaseChanged .initial .opening)]
        { c with phase := .opening, awaitingOpen := some tag, client := some tag }
  /-- The transport's open goes on. -/
  | openWaits {c tag s effects} (hp : c.phase = .opening) (hc : c.client = some tag)
      (h : (T.establish ⟨tag⟩).run c.transport = ⟨.waiting, s, effects⟩) :
      Move c [] (inside effects ++ [called (.establish .waiting)]) { c with transport := s }
  /-- The transport is open. -/
  | openDone {c tag s effects} (hp : c.phase = .opening) (hc : c.client = some tag)
      (h : (T.establish ⟨tag⟩).run c.transport = ⟨.done, s, effects⟩) :
      Move c []
        (inside effects ++ called (.establish .done) :: .note (.phaseChanged .opening .opened) ::
          c.awaitingOpen.toList.map fun tag => .openComplete tag .ok .opened)
        { c with transport := s, phase := .opened, awaitingOpen := none }
  /-- The transport could not open. -/
  | openFails {c tag s effects} (hp : c.phase = .opening) (hc : c.client = some tag)
      (h : (T.establish ⟨tag⟩).run c.transport = ⟨.failed, s, effects⟩) :
      Move c []
        (inside effects ++ called (.establish .failed) :: .note .openFailed ::
          .note (.phaseChanged .opening .failed) ::
          c.awaitingOpen.toList.map fun tag => .openComplete tag .failed .failed)
        { c with transport := s, phase := .failed, awaitingOpen := none }
  /-- The transport reads something, or finds nothing. -/
  | read {c a s effects} (hp : c.phase = .opened) (ha : a ≠ .failed)
      (h : T.read.run c.transport = ⟨a, s, effects⟩) :
      Move c [] (inside effects ++ [called (.read a)]) { c with transport := s }
  /-- The transport fails while reading. -/
  | readFails {c s effects} (hp : c.phase = .opened)
      (h : T.read.run c.transport = ⟨.failed, s, effects⟩) :
      Move c []
        (inside effects ++ called (.read .failed) :: .note .readFailed ::
          .note (.phaseChanged .opened .failed) :: c.client.toList.map fun tag => .ioError tag .failed)
        { c with transport := s, phase := .failed }
  /-- A message is queued. -/
  | queue {c} (tag : Tag) (bytes : Bytes) (hp : c.phase = .opened)
      (hs : isSendable bytes.length = true) :
      Move c [.sending (.new bytes tag)] [] { c with outbox := c.outbox.push (.new bytes tag) }
  /-- The head of the outbox is offered and stays, with what is left of it. -/
  | writeStays {c head tail n s effects} (hp : c.phase = .opened)
      (hm : c.outbox.messages = head :: tail)
      (h : (T.write head.rest).run c.transport = ⟨.ok n, s, effects⟩)
      (hn : n = 0 ∨ (head.accept n).unsent ≠ 0) :
      Move c [] (inside effects ++ [called (.write head.rest (.ok n))])
        { c with transport := s, outbox := ⟨head.accept n :: tail⟩ }
  /-- The last byte of the head is taken. -/
  | writeEnds {c head tail n s effects} (hp : c.phase = .opened)
      (hm : c.outbox.messages = head :: tail)
      (h : (T.write head.rest).run c.transport = ⟨.ok n, s, effects⟩)
      (hn : n ≠ 0) (hu : (head.accept n).unsent = 0) :
      Move c []
        (inside effects ++ [called (.write head.rest (.ok n)), .sendComplete head.tag .ok .opened])
        { c with transport := s, outbox := ⟨tail⟩ }
  /-- The transport fails while writing. -/
  | writeFails {c head tail fault s effects} (hp : c.phase = .opened)
      (hm : c.outbox.messages = head :: tail)
      (h : (T.write head.rest).run c.transport = ⟨.error fault, s, effects⟩) :
      Move c []
        (inside effects ++ called (.write head.rest (.error fault)) ::
          .note (.writeFailed fault) :: .note (.phaseChanged .opened .failed) ::
          (c.client.toList.map (fun tag => .ioError tag .failed) ++
            [.sendComplete head.tag .failed .failed]))
        { c with transport := s, outbox := ⟨tail⟩, phase := .failed }
  /-- The caller wants to close. -/
  | beginClose {c} (tag : Tag) (hp : c.phase = .opened ∨ c.phase = .failed) :
      Move c [.closing tag] [.note (.phaseChanged c.phase .closing)]
        { c with phase := .closing, awaitingClose := some tag }
  /-- The caller wants to close while the connection opens. -/
  | breakOpen {c} (tag : Tag) (hp : c.phase = .opening) :
      Move c [.closing tag]
        (.note (.phaseChanged .opening .closing) ::
          c.awaitingOpen.toList.map fun tag => .openComplete tag .cancelled .closing)
        { c with phase := .closing, awaitingOpen := none, awaitingClose := some tag }
  /-- The connection is destroyed while it opens; the close follows. -/
  | dropOpen {c} (hp : c.phase = .opening) :
      Move c []
        (.note (.phaseChanged .opening .closing) ::
          c.awaitingOpen.toList.map fun tag => .openComplete tag .cancelled .closing)
        { c with phase := .closing, awaitingOpen := none }
  /-- The transport's close goes on. -/
  | closeWaits {c s effects} (hp : c.phase = .closing)
      (h : T.close.run c.transport = ⟨.waiting, s, effects⟩) :
      Move c [] (inside effects ++ [called (.close .waiting)]) { c with transport := s }
  /-- The transport's close ends. -/
  | closeEnds {c a s effects} (hp : c.phase = .closing) (ha : a ≠ .waiting)
      (h : T.close.run c.transport = ⟨a, s, effects⟩) :
      Move c [] (inside effects ++ called (.close a) :: farewell c a) (ended s)
  /-- The connection is destroyed: the close ends, whatever the transport answers. -/
  | destroy {c a s effects} (hp : c.phase = .opened ∨ c.phase = .failed ∨ c.phase = .closing)
      (h : T.close.run c.transport = ⟨a, s, effects⟩) :
      Move c [.ending] (inside effects ++ called (.close a) :: farewell c a) (ended s)

/-- A sequence of moves, with all that it grants and tells. -/
inductive Moves : Connection σ → List Grant → List Event → Connection σ → Prop where
  | refl {c} : Moves c [] [] c
  | snoc {c d e gs hs es fs} (before : Moves c gs es d) (last : Move T d hs fs e) :
      Moves c (gs ++ hs) (es ++ fs) e

end

namespace Moves

variable {T : Transport σ} {c d e : Connection σ} {gs hs : List Grant} {es fs : List Event}

theorem single (h : Move T c gs es d) : Moves T c gs es d := by
  simpa using snoc refl h

theorem trans (h₁ : Moves T c gs es d) (h₂ : Moves T d hs fs e) :
    Moves T c (gs ++ hs) (es ++ fs) e := by
  induction h₂ with
  | refl => simpa using h₁
  | snoc _ last ih => simpa using snoc ih last

/-- What holds at first and is kept by every move holds in the end. -/
theorem invariant {Inv : List Grant → List Event → Connection σ → Prop}
    (step : ∀ {gs es c hs fs d}, Inv gs es c → Move T c hs fs d → Inv (gs ++ hs) (es ++ fs) d)
    (first : Inv [] [] c) (h : Moves T c gs es d) : Inv gs es d := by
  induction h with
  | refl => exact first
  | snoc _ last ih => exact step ih last

end Moves

end PolledConnection.Connection
