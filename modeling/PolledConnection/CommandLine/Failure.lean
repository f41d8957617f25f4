import PolledConnection.CommandLine.Lines
import PolledConnection.Fault

/-! # Failures of the program

  Why the program gives up: what it was doing, and the faults behind that. The
  report names the innermost cause last; several causes are numbered.
-/

namespace PolledConnection.CommandLine

/-- Why the program gives up. -/
structure Failure where
  /-- What it was doing. -/
  text : String
  /-- The fault behind it, if any. -/
  fault : Option Fault
deriving DecidableEq, Repr

/-- The exit status of a program that gave up. -/
def Failure.status : Nat := 1

/-- The exit status of a program whose arguments made no sense. -/
def misuseStatus : Nat := 2

/-- The texts of a fault and of what is behind it. The wording behind a configuration fault
    is not kept, which leaves an empty text. -/
def causes : Fault → List String
  | .io cause => [(Fault.io cause).message, cause.text]
  | .configuration flaw => [(Fault.configuration flaw).message, ""]
  | fault => [fault.message]

/-- Causes with their numbers; a single cause has none. -/
def numbered : List String → List String
  | [only] => [only]
  | several => several.zipIdx.map fun (text, i) => s!"{i}: {text}"

/-- The paragraphs that report a failure. A cause without a text is left out. -/
def Failure.paragraphs (f : Failure) : List String :=
  s!"Error: {f.text}" ::
    match f.fault with
    | none => []
    | some fault =>
      let texts := causes fault
      "Caused by:" :: ((numbered texts).zip texts).filterMap fun (paragraph, text) =>
        if text = "" then none else some paragraph

/-- The lines that report a failure. -/
def Failure.lines (f : Failure) : List String := f.paragraphs.flatMap shownLines

end PolledConnection.CommandLine
