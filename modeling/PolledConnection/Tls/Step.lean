/-! # Opening steps of a TLS transport

  A transport over a carrier that it was given leaves `resolve` and `connect`
  out.
-/

namespace PolledConnection.Tls

/-- What the next poll of the open does. -/
inductive Step where
  /-- Check the options, and go on to the next step in the same poll. -/
  | validate
  /-- Look the host name up. -/
  | resolve
  /-- Connect the socket. -/
  | connect
  /-- Create the session. -/
  | initSession
  /-- Advance the handshake. -/
  | handshake
  /-- Nothing: the options were refused. -/
  | validationFailed
  /-- Nothing: the open has failed. -/
  | failed
deriving DecidableEq, Repr

/-- The name of a step in messages. -/
def Step.label : Step → String
  | .validate => "Validate"
  | .resolve => "Resolve"
  | .connect => "Connect"
  | .initSession => "InitSession"
  | .handshake => "Handshake"
  | .validationFailed => "ValidationFailed"
  | .failed => "Failed"

/-- The order in which steps are taken. -/
def Step.rank : Step → Nat
  | .validate => 0
  | .resolve => 1
  | .connect => 2
  | .initSession => 3
  | .handshake => 4
  | .validationFailed => 5
  | .failed => 6

end PolledConnection.Tls
