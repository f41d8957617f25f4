import PolledConnection.Network.Loopback

/-! # Scripted peers

  A peer that takes one connection, reads a number of bytes, sends a reply,
  and then either closes or reads on until the connection ends.
-/

namespace PolledConnection.Script

/-- A peer. -/
structure Peer where
  /-- How many bytes it reads before it replies. -/
  expect : Nat
  /-- Its reply. -/
  reply : Bytes
  /-- Whether it closes after that. -/
  closes : Bool
  /-- Whether it has replied. -/
  replied : Bool
  /-- Whether anybody ever connected. -/
  met : Bool
  /-- What it has read. -/
  taken : Bytes
deriving DecidableEq, Repr

namespace Peer

/-- Replies, and closes if it is to. -/
def answer (p : Peer) (w : Loopback) : Loopback :=
  match w.peerSend p.reply with
  | .error _ => w
  | .ok w =>
    if p.closes then
      match w.peerClose with
      | .ok w => w
      | .error _ => w
    else w

/-- Does what it can do now. -/
def act (p : Peer) (w : Loopback) : Peer × Loopback :=
  match w.peerRead (if p.replied then w.outboundLength else p.expect - p.taken.length) with
  | .error _ => (p, w)
  | .ok (bytes, w) =>
    let p := { p with met := true, taken := p.taken ++ bytes }
    if p.replied ∨ p.taken.length < p.expect then (p, w)
    else ({ p with replied := true }, p.answer w)

end Peer

end PolledConnection.Script
