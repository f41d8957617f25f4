import PolledConnection.Act
import PolledConnection.Effect

/-! # Transports

  What a connection runs over, as a record of operations on a state `σ`. No
  operation blocks: opening, closing and reading answer `Progress`, writing
  answers how many bytes were taken.

  The contract of reading: every read that answers `done` uses something up,
  so that only finitely many follow each other. `backlog` bounds them, and
  `DrainsBacklog` says so.

  A call with its answer is part of the history (`recorded`), behind the
  effects from inside the call. A transport cannot record a call itself.
-/

namespace PolledConnection

/-- The operations of a transport with state `σ`. -/
structure Transport (σ : Type) where
  /-- Advances the open; received bytes go to the receiver from then on. -/
  establish : Receiver → Act Effect σ Progress
  /-- Advances the close. -/
  close : Act Effect σ Progress
  /-- Takes at most one chunk and hands it to the receiver. `done` means that there may be more. -/
  read : Act Effect σ Progress
  /-- Offers bytes; answers how many were taken. -/
  write : Bytes → Act Effect σ Count
  /-- Sets an option. -/
  setOption : String → Setting → Act Effect σ (Except Fault Unit)
  /-- The options that are set. -/
  retrieve : σ → Settings
  /-- A bound on how many reads can answer `done` from here on. -/
  backlog : σ → Nat

namespace Transport

variable {σ α : Type}

/-! ### Calls -/

/-- A call of a transport with its answer. -/
inductive Call where
  | establish (answer : Progress)
  | close (answer : Progress)
  | read (answer : Progress)
  | write (offered : Bytes) (answer : Count)
deriving DecidableEq

/-- The history of a transport in use. -/
inductive Event where
  /-- Something happened inside a call. -/
  | effect (e : Effect)
  /-- A call came back. -/
  | called (call : Call)
deriving DecidableEq

/-- Makes a call and records its answer. -/
def recorded (m : Act Effect σ α) (call : α → Call) : Act Event σ α := do
  let a ← Act.within id (fun s _ => s) Event.effect m
  Act.emit (.called (call a))
  return a

/-- Offers bytes to the transport, and records the offer with its answer. -/
def offer (T : Transport σ) (bytes : Bytes) : Act Event σ Count :=
  recorded (T.write bytes) (.write bytes)

/-- Makes a call that is not recorded itself. -/
def unrecorded (m : Act Effect σ α) : Act Event σ α :=
  Act.within id (fun s _ => s) Event.effect m

/-! ### Laws -/

/-- A read that answers `done` uses up some of the backlog. -/
def DrainsBacklog (T : Transport σ) : Prop :=
  ∀ s, ((T.read).run s).answer = .done → T.backlog ((T.read).run s).state < T.backlog s

/-! ### Requests -/

/-- A request to a transport that is used directly. -/
inductive Request where
  | establish (receiver : Receiver)
  | close
  | read
  | write (bytes : Bytes)
  | setOption (name : String) (value : Setting)
  | retrieve
deriving DecidableEq

/-- The answer to a request. -/
inductive Answer where
  | progress (p : Progress)
  | count (n : Count)
  | accepted (r : Except Fault Unit)
  | settings (s : Settings)
deriving DecidableEq

/-- Serves one request. -/
def serve (T : Transport σ) : Request → Act Event σ Answer
  | .establish receiver => .progress <$> recorded (T.establish receiver) .establish
  | .close => .progress <$> recorded T.close .close
  | .read => .progress <$> recorded T.read .read
  | .write bytes => .count <$> T.offer bytes
  | .setOption name value => .accepted <$> unrecorded (T.setOption name value)
  | .retrieve => (fun s => .settings (T.retrieve s)) <$> Act.get

/-- Serves requests in order. -/
def serveAll (T : Transport σ) (rs : List Request) : Act Event σ (List Answer) :=
  Act.oneByOne T.serve rs

theorem serveAll_nil (T : Transport σ) : T.serveAll [] = pure [] := rfl

theorem serveAll_cons (T : Transport σ) (r : Request) (rs : List Request) :
    T.serveAll (r :: rs) = (do
      let answer ← T.serve r
      let answers ← T.serveAll rs
      return answer :: answers) := rfl

/-! ### Options in bulk -/

/-- Sets options in order, up to the first that is refused. -/
def applyAll (T : Transport σ) (options : List (String × Setting)) :
    Act Effect σ (Except Fault Unit) :=
  Act.upToRefusal (fun option => T.setOption option.1 option.2) options

theorem applyAll_cons (T : Transport σ) (option : String × Setting)
    (rest : List (String × Setting)) :
    T.applyAll (option :: rest) = (do
      Act.unlessRefused (← T.setOption option.1 option.2) (T.applyAll rest)) := rfl

/-- What came of making a transport: the transport, or why there is none. -/
structure Creation (σ : Type) where
  /-- The transport's first state. -/
  result : Except Fault σ
  /-- What happened meanwhile. -/
  effects : List Effect

/-- Makes a transport from a state without options by setting its first options. -/
def configured (T : Transport σ) (s : σ) (options : Settings) : Creation σ :=
  let o := (T.applyAll options.entries).run s
  ⟨o.answer.map fun _ => o.state, o.events⟩

/-- A transport that was made has accepted its first options. -/
theorem of_configured {T : Transport σ} {s t : σ} {options : Settings}
    (made : (T.configured s options).result = .ok t) :
    ((T.applyAll options.entries).run s).answer = .ok () ∧
      ((T.applyAll options.entries).run s).state = t := by
  unfold configured at made
  cases answer : ((T.applyAll options.entries).run s).answer with
  | error fault => simp [answer, Except.map] at made
  | ok => exact ⟨rfl, by simpa [answer, Except.map] using made⟩

/-- What no option breaks is kept when options are set in bulk. -/
theorem applyAll_invariant {T : Transport σ} {Inv : σ → Prop}
    (step : ∀ name value s, Inv s → Inv ((T.setOption name value).run s).state)
    (options : List (String × Setting)) {s : σ} (start : Inv s) :
    Inv ((T.applyAll options).run s).state := by
  induction options generalizing s with
  | nil => exact start
  | cons option rest ih =>
    have next := step option.1 option.2 s start
    simp only [applyAll_cons, Act.run_bind]
    cases ((T.setOption option.1 option.2).run s).answer with
    | error fault => exact next
    | ok => exact ih next

/-- So it holds of a transport that was made. -/
theorem configured_invariant {T : Transport σ} {s t : σ} {options : Settings} (Inv : σ → Prop)
    (made : (T.configured s options).result = .ok t)
    (step : ∀ name value s, Inv s → Inv ((T.setOption name value).run s).state) (start : Inv s) :
    Inv t := by
  obtain ⟨-, rfl⟩ := of_configured made
  exact applyAll_invariant step options.entries start

/-! ### Filling a transport -/

/-- Writes the same bytes again and again, until no more are taken (`ok`) or a write fails.
    At most `limit` writes are made. -/
def flood (T : Transport σ) (bytes : Bytes) : (limit : Nat) → Act Effect σ (Except Fault Unit)
  | 0 => pure (.ok ())
  | limit + 1 => do
    match ← T.write bytes with
    | .error fault => return .error fault
    | .ok 0 => return .ok ()
    | .ok (_ + 1) => T.flood bytes limit

end Transport

end PolledConnection
