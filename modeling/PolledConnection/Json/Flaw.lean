/-! # Faults of a JSON text

  A text is read from left to right and the first fault found decides. What
  matters to a caller is only its category.
-/

namespace PolledConnection.Json

/-- Why a text could not be read. -/
inductive Flaw where
  /-- The text ended too early. -/
  | ended
  /-- The text is not JSON at this point. -/
  | malformed
  /-- The text is JSON so far, but of another type or range than wanted. -/
  | mistyped
deriving DecidableEq, Repr

end PolledConnection.Json
