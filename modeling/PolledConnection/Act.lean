/-! # Acts: state, answer and history

  Everything in this library that changes something is an *act*: it takes the
  present state to an answer, the next state, and the list of what happened
  on the way, in order. Nothing is hidden: two runs with equal states, answers
  and histories are the same run, so a statement about a history is a
  statement about a list.

  Sequencing appends histories (`run_bind`), and an act on a part of a state
  is an act on the whole (`within`).
-/

namespace PolledConnection

/-- What an act leaves behind. -/
structure Outcome (ε σ α : Type) where
  /-- The answer to the caller. -/
  answer : α
  /-- The state from now on. -/
  state : σ
  /-- What happened, oldest first. -/
  events : List ε
deriving Repr, DecidableEq

/-- A total step on states `σ` that answers an `α` and may record events `ε`. -/
def Act (ε σ α : Type) : Type := σ → Outcome ε σ α

namespace Act

variable {ε η σ τ α β γ ι φ : Type}

/-! ### Running and sequencing -/

/-- The outcome of an act from a given state. -/
def run (m : Act ε σ α) (s : σ) : Outcome ε σ α := m s

/-- Answers `a`, changes nothing and records nothing. -/
protected def pure (a : α) : Act ε σ α := fun s => ⟨a, s, []⟩

/-- Runs `m`, then what `f` makes of its answer; the histories follow each other. -/
protected def bind (m : Act ε σ α) (f : α → Act ε σ β) : Act ε σ β := fun s =>
  let first := m s
  let second := f first.answer first.state
  ⟨second.answer, second.state, first.events ++ second.events⟩

instance : Monad (Act ε σ) where
  pure := Act.pure
  bind := Act.bind

/-! ### Primitive acts -/

/-- Records one event. -/
def emit (e : ε) : Act ε σ Unit := fun s => ⟨(), s, [e]⟩

/-- Records a list of events. -/
def emitAll (es : List ε) : Act ε σ Unit := fun s => ⟨(), s, es⟩

/-- Answers the present state. -/
def get : Act ε σ σ := fun s => ⟨s, s, []⟩

/-- Replaces the state. -/
def put (s : σ) : Act ε σ Unit := fun _ => ⟨(), s, []⟩

/-- Changes the state by a function. -/
def modify (f : σ → σ) : Act ε σ Unit := fun s => ⟨(), f s, []⟩

/-- An act on a part `σ` of a larger state `τ`; its events are wrapped by `wrap`. -/
def within (part : τ → σ) (replace : σ → τ → τ) (wrap : ε → η) (m : Act ε σ α) : Act η τ α :=
  fun s =>
    let o := m (part s)
    ⟨o.answer, replace o.state s, o.events.map wrap⟩

/-! ### Acts on lists -/

/-- Acts on every item of a list, whatever the answers are. -/
def oneByOne (act : ι → Act ε σ α) : List ι → Act ε σ (List α)
  | [] => pure []
  | x :: xs => do
    let answer ← act x
    let answers ← oneByOne act xs
    return answer :: answers

/-- Goes on, unless the answer so far is a refusal. -/
def unlessRefused (answer : Except φ Unit) (next : Act ε σ (Except φ Unit)) :
    Act ε σ (Except φ Unit) :=
  match answer with
  | .error fault => pure (.error fault)
  | .ok () => next

/-- Acts on the items of a list in order, up to the first that is refused. -/
def upToRefusal (act : ι → Act ε σ (Except φ Unit)) : List ι → Act ε σ (Except φ Unit)
  | [] => pure (.ok ())
  | x :: xs => do unlessRefused (← act x) (upToRefusal act xs)

/-! ### What each of them does -/

@[simp] theorem run_pure (a : α) (s : σ) : run (pure a : Act ε σ α) s = ⟨a, s, []⟩ := rfl

@[simp] theorem run_bind (m : Act ε σ α) (f : α → Act ε σ β) (s : σ) :
    run (m >>= f) s =
      ⟨(run (f (run m s).answer) (run m s).state).answer,
       (run (f (run m s).answer) (run m s).state).state,
       (run m s).events ++ (run (f (run m s).answer) (run m s).state).events⟩ := rfl

@[simp] theorem run_map (f : α → β) (m : Act ε σ α) (s : σ) :
    run (f <$> m) s = ⟨f (run m s).answer, (run m s).state, (run m s).events⟩ := by
  simp [run, Functor.map, Act.bind, Act.pure]

/-- A choice between acts is a choice between outcomes. -/
@[simp] theorem run_ite (c : Prop) [Decidable c] (m n : Act ε σ α) (s : σ) :
    run (if c then m else n) s = if c then run m s else run n s := by
  split <;> rfl

@[simp] theorem run_emit (e : ε) (s : σ) : run (emit e) s = ⟨(), s, [e]⟩ := rfl

@[simp] theorem run_emitAll (es : List ε) (s : σ) : run (emitAll es) s = ⟨(), s, es⟩ := rfl

@[simp] theorem run_get (s : σ) : run (get : Act ε σ σ) s = ⟨s, s, []⟩ := rfl

@[simp] theorem run_put (t s : σ) : run (put t : Act ε σ Unit) s = ⟨(), t, []⟩ := rfl

@[simp] theorem run_modify (f : σ → σ) (s : σ) :
    run (modify f : Act ε σ Unit) s = ⟨(), f s, []⟩ := rfl

@[simp] theorem run_within (part : τ → σ) (replace : σ → τ → τ) (wrap : ε → η)
    (m : Act ε σ α) (s : τ) :
    run (within part replace wrap m) s =
      ⟨(run m (part s)).answer, replace (run m (part s)).state s,
       (run m (part s)).events.map wrap⟩ := rfl

@[simp] theorem unlessRefused_error (fault : φ) (next : Act ε σ (Except φ Unit)) :
    unlessRefused (.error fault) next = pure (.error fault) := rfl

@[simp] theorem unlessRefused_ok (done : Unit) (next : Act ε σ (Except φ Unit)) :
    unlessRefused (.ok done) next = next := rfl

/-- Acting on two lists is acting on the first, then on the second. -/
theorem run_oneByOne_append (act : ι → Act ε σ α) (xs ys : List ι) (s : σ) :
    run (oneByOne act (xs ++ ys)) s =
      let first := run (oneByOne act xs) s
      let second := run (oneByOne act ys) first.state
      ⟨first.answer ++ second.answer, second.state, first.events ++ second.events⟩ := by
  induction xs generalizing s with
  | nil => simp [oneByOne]
  | cons x xs ih => simp [oneByOne, ih]

/-- Grouping of a sequence does not matter. -/
theorem bind_assoc (m : Act ε σ α) (f : α → Act ε σ β) (g : β → Act ε σ γ) :
    (m >>= f) >>= g = m >>= fun a => f a >>= g := by
  funext s
  simp [Bind.bind, Act.bind, List.append_assoc]

instance : LawfulMonad (Act ε σ) :=
  LawfulMonad.mk' (Act ε σ)
    (fun m => by
      funext s
      simp [Functor.map, Act.bind, Act.pure])
    (fun a f => by
      funext s
      simp [Bind.bind, Pure.pure, Act.bind, Act.pure])
    bind_assoc

end Act

end PolledConnection
