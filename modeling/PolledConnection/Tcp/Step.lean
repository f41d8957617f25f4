/-! # Opening steps of a TCP transport -/

namespace PolledConnection.Tcp

/-- What the next poll of the open does. -/
inductive Step where
  /-- Look the host name up. -/
  | resolve
  /-- Connect the socket. -/
  | connect
  /-- Nothing: the stream is open. -/
  | opened
  /-- Nothing: the open has failed. -/
  | failed
deriving DecidableEq, Repr

/-- The name of a step in messages. -/
def Step.label : Step → String
  | .resolve => "Resolve"
  | .connect => "Connect"
  | .opened => "Open"
  | .failed => "Failed"

/-- The order in which steps are taken. -/
def Step.rank : Step → Nat
  | .resolve => 0
  | .connect => 1
  | .opened => 2
  | .failed => 3

end PolledConnection.Tcp
