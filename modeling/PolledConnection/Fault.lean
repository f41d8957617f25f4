import PolledConnection.Json.Flaw
import PolledConnection.Progress

/-! # Faults

  What can go wrong, as causes. Each cause has one wording, in `message`; the
  wording is made from the cause and never taken apart again.
-/

namespace PolledConnection

/-- Results are compared by what they hold. -/
instance decidableEqResult {ε α : Type} [DecidableEq ε] [DecidableEq α] :
    DecidableEq (Except ε α)
  | .ok a, .ok b => decidable_of_iff (a = b) ⟨congrArg Except.ok, Except.ok.inj⟩
  | .error a, .error b => decidable_of_iff (a = b) ⟨congrArg Except.error, Except.error.inj⟩
  | .ok _, .error _ | .error _, .ok _ => .isFalse nofun

/-! ### Input and output -/

/-- The kinds of input and output failure that are told apart. -/
inductive IoKind where
  | notFound
  | permissionDenied
  | connectionRefused
  | connectionReset
  | connectionAborted
  | networkUnreachable
  | notConnected
  | brokenPipe
  | wouldBlock
  | invalidInput
  | invalidData
  | timedOut
  | interrupted
  | inProgress
  | unexpectedEnd
  | notADirectory
  | isADirectory
  | invalidFilename
  | other
deriving DecidableEq, Repr

/-- The wording of a failure of which only the kind is known. -/
def IoKind.text : IoKind → String
  | .notFound => "entity not found"
  | .permissionDenied => "permission denied"
  | .connectionRefused => "connection refused"
  | .connectionReset => "connection reset"
  | .connectionAborted => "connection aborted"
  | .networkUnreachable => "network unreachable"
  | .notConnected => "not connected"
  | .brokenPipe => "broken pipe"
  | .wouldBlock => "operation would block"
  | .invalidInput => "invalid input parameter"
  | .invalidData => "invalid data"
  | .timedOut => "timed out"
  | .interrupted => "operation interrupted"
  | .inProgress => "in progress"
  | .unexpectedEnd => "unexpected end of file"
  | .notADirectory => "not a directory"
  | .isADirectory => "is a directory"
  | .invalidFilename => "invalid filename"
  | .other => "other error"

/-- The failures that the operating system itself reports and words. -/
inductive SystemError where
  | noSuchFile
  | interrupted
  | wouldBlock
  | notADirectory
  | isADirectory
  | brokenPipe
  | nameTooLong
  | networkUnreachable
  | connectionReset
  | notConnected
  | connectionRefused
  | inProgress
deriving DecidableEq, Repr

/-- The number of a system error. -/
def SystemError.code : SystemError → Nat
  | .noSuchFile => 2
  | .interrupted => 4
  | .wouldBlock => 11
  | .notADirectory => 20
  | .isADirectory => 21
  | .brokenPipe => 32
  | .nameTooLong => 36
  | .networkUnreachable => 101
  | .connectionReset => 104
  | .notConnected => 107
  | .connectionRefused => 111
  | .inProgress => 115

/-- All system errors. -/
def SystemError.all : List SystemError :=
  [.noSuchFile, .interrupted, .wouldBlock, .notADirectory, .isADirectory, .brokenPipe, .nameTooLong,
    .networkUnreachable, .connectionReset, .notConnected, .connectionRefused, .inProgress]

/-- The system error with a number. -/
def SystemError.ofCode? (code : Nat) : Option SystemError := all.find? (·.code == code)

theorem SystemError.ofCode?_code (e : SystemError) : ofCode? e.code = some e := by
  cases e <;> rfl

/-- The kind that a system error belongs to. -/
def SystemError.kind : SystemError → IoKind
  | .noSuchFile => .notFound
  | .interrupted => .interrupted
  | .wouldBlock => .wouldBlock
  | .notADirectory => .notADirectory
  | .isADirectory => .isADirectory
  | .brokenPipe => .brokenPipe
  | .nameTooLong => .invalidFilename
  | .networkUnreachable => .networkUnreachable
  | .connectionReset => .connectionReset
  | .notConnected => .notConnected
  | .connectionRefused => .connectionRefused
  | .inProgress => .inProgress

/-- The system's wording, followed by the number. -/
def SystemError.text (e : SystemError) : String :=
  let wording :=
    match e with
    | .noSuchFile => "No such file or directory"
    | .interrupted => "Interrupted system call"
    | .wouldBlock => "Resource temporarily unavailable"
    | .notADirectory => "Not a directory"
    | .isADirectory => "Is a directory"
    | .brokenPipe => "Broken pipe"
    | .nameTooLong => "File name too long"
    | .networkUnreachable => "Network is unreachable"
    | .connectionReset => "Connection reset by peer"
    | .notConnected => "Transport endpoint is not connected"
    | .connectionRefused => "Connection refused"
    | .inProgress => "Operation now in progress"
  s!"{wording} (os error {e.code})"

/-- A failure of input or output. -/
inductive IoFault where
  /-- Only the kind is known. -/
  | bare (kind : IoKind)
  /-- The kind, with a wording of its own. -/
  | worded (kind : IoKind) (text : String)
  /-- Reported by the operating system. -/
  | system (error : SystemError)
deriving DecidableEq, Repr

/-- The kind of a failure. -/
def IoFault.kind : IoFault → IoKind
  | .bare k => k
  | .worded k _ => k
  | .system e => e.kind

/-- The wording of a failure. -/
def IoFault.text : IoFault → String
  | .bare k => k.text
  | .worded _ t => t
  | .system e => e.text

/-! ### All faults -/

/-- Why an operation was refused or failed. -/
inductive Fault where
  /-- Input or output failed. -/
  | io (cause : IoFault)
  /-- An argument is unusable; `what` names it. -/
  | invalidParameter (what : String)
  /-- The operation is not possible in the present phase. -/
  | notAllowed (operation : String) (phase : Phase)
  /-- No such option, or one that this transport does not support. -/
  | unsupportedOption (name : String)
  /-- Two options exclude each other. -/
  | optionConflict (detail : String)
  /-- The host name could not be resolved. -/
  | unresolved (hostname : String)
  /-- A configuration text could not be read. -/
  | configuration (flaw : Json.Flaw)
  /-- The TLS engine failed. -/
  | tls (detail : String)
deriving DecidableEq, Repr

/-- The wording of a fault. Of a configuration fault only the category is kept, not its place. -/
def Fault.message : Fault → String
  | .io cause => s!"IO error: {cause.text}"
  | .invalidParameter what => s!"Invalid parameter: '{what}'"
  | .notAllowed operation phase => s!"{operation} is not allowed in state {phase.label}"
  | .unsupportedOption name => s!"Option not supported: '{name}'"
  | .optionConflict detail => s!"Option conflict: {detail}"
  | .unresolved hostname => s!"Could not resolve '{hostname}'"
  | .configuration _ => "Configuration error"
  | .tls detail => s!"TLS engine error: {detail}"

end PolledConnection
