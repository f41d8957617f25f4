/-! # Progress, phases and verdicts

  Three small vocabularies. A non-blocking primitive answers a `Progress`.
  A connection is in a `Phase`. A request that ends later, an open or a send,
  ends with a `Verdict`.
-/

namespace PolledConnection

/-- The answer of a primitive that never blocks. -/
inductive Progress where
  /-- Finished. -/
  | done
  /-- Not finished; ask again later. -/
  | waiting
  /-- Failed for good. -/
  | failed
deriving DecidableEq, Repr

/-- Where a connection stands between its creation and its end. -/
inductive Phase where
  /-- Never opened. -/
  | initial
  /-- An open is in progress. -/
  | opening
  /-- Bytes flow. -/
  | opened
  /-- A close is in progress. -/
  | closing
  /-- Closed, for good. -/
  | closed
  /-- The open or the transport failed; only closing is left. -/
  | failed
deriving DecidableEq, Repr

/-- The name of a phase in messages. -/
def Phase.label : Phase → String
  | .initial => "Initial"
  | .opening => "Opening"
  | .opened => "Open"
  | .closing => "Closing"
  | .closed => "Closed"
  | .failed => "Error"

/-- How an open or a send ended. -/
inductive Verdict where
  /-- As asked. -/
  | ok
  /-- The transport failed first. -/
  | failed
  /-- The connection was closed or destroyed first. -/
  | cancelled
deriving DecidableEq, Repr

/-- The name of a verdict in messages. -/
def Verdict.label : Verdict → String
  | .ok => "Ok"
  | .failed => "Error"
  | .cancelled => "Cancelled"

/-- The name under which the caller recognises its own callbacks. -/
abbrev Tag := String

end PolledConnection
