import PolledConnection.Network.Socket

/-! # A network in memory

  A network that consists of one machine. Its table of routes says what is to
  be found at an address: somebody who listens, nobody, or no way to get
  there. A link that is down leads nowhere at all.

  A connect to a listener succeeds at once, one to nobody fails when it is
  asked about, one without a way fails when it starts. On an established line
  the bytes of each side arrive at once and in order. The second half of this
  module is the other end of the line: what the peer can do.
-/

namespace PolledConnection

/-- What is to be found at an address. -/
inductive Route where
  /-- Somebody listens. -/
  | listening
  /-- The machine is there, but nobody listens. -/
  | refusing
  /-- There is no way. -/
  | unreachable
deriving DecidableEq, Repr

/-- What the peer has done with its end of a line. -/
inductive PeerEnd where
  /-- It is in use. -/
  | alive
  /-- It was closed in an orderly way. -/
  | closed
  /-- It was reset; the next read or write fails. -/
  | resetting
  /-- It was reset, and a read or write has failed. -/
  | reset
deriving DecidableEq, Repr

/-- An established line. -/
structure Line where
  /-- Bytes sent by the peer and not read yet. -/
  inbound : Bytes
  /-- Bytes written and not taken by the peer yet. -/
  outbound : Bytes
  /-- The peer's end. -/
  peer : PeerEnd
  /-- Whether this end has been given back. -/
  ended : Bool
deriving DecidableEq, Repr

/-- The line of a connect that has just succeeded. -/
def Line.new : Line := ⟨[], [], .alive, false⟩

/-- What has become of the socket created last. -/
inductive Dialling where
  /-- Nothing was dialled. -/
  | idle
  /-- A connect that will turn out to be refused. -/
  | refused
  /-- A line. -/
  | line (line : Line)
deriving DecidableEq, Repr

/-- A network in memory. -/
structure Loopback where
  /-- Whether the link is up. -/
  up : Bool
  /-- What is to be found where; no way to all other addresses. -/
  routes : List (Address × Route)
  /-- How many bytes a line holds before it is full. -/
  capacity : Nat
  /-- The socket created last. -/
  dialling : Dialling
deriving DecidableEq, Repr

namespace Loopback

/-- A network on which nothing was dialled. -/
def new (up : Bool) (routes : List (Address × Route)) : Loopback :=
  ⟨up, routes, 0x100000, .idle⟩

/-- What is to be found at an address. -/
def routeTo (w : Loopback) (peer : Address) : Route :=
  if w.up then (w.routes.lookup peer).getD .unreachable else .unreachable

/-- The line, if there is one. -/
def line? (w : Loopback) : Option Line :=
  match w.dialling with
  | .line l => some l
  | _ => none

/-- Replaces the line. -/
def withLine (w : Loopback) (l : Line) : Loopback := { w with dialling := .line l }

/-! ### This end -/

/-- Starts to connect. -/
def startConnect (peer : Address) (w : Loopback) : Except IoFault Unit × Loopback :=
  match w.routeTo peer with
  | .listening => (.ok (), w.withLine .new)
  | .refusing => (.error (.system .inProgress), { w with dialling := .refused })
  | .unreachable => (.error (.system .networkUnreachable), w)

/-- The error of a connect that was refused. -/
def takeError (w : Loopback) : Except IoFault (Option IoFault) × Loopback :=
  match w.dialling with
  | .refused => (.ok (some (.system .connectionRefused)), w)
  | .idle | .line _ => (.ok none, w)

/-- Whether there is a peer. -/
def peer (w : Loopback) : Except IoFault Unit × Loopback :=
  match w.dialling with
  | .line _ => (.ok (), w)
  | .idle | .refused => (.error (.system .notConnected), w)

/-- Takes up to a number of bytes. -/
def read (limit : Nat) (w : Loopback) : Except IoFault Bytes × Loopback :=
  match w.line? with
  | none => (.error (.bare .notConnected), w)
  | some l =>
    match l.peer with
    | .resetting =>
      (.error (.system .connectionReset), w.withLine { l with inbound := [], peer := .reset })
    | .reset => (.ok [], w)
    | .alive | .closed =>
      if l.inbound = [] then (if l.peer = .closed then .ok [] else .error (.system .wouldBlock), w)
      else (.ok (l.inbound.take limit), w.withLine { l with inbound := l.inbound.drop limit })

/-- Offers bytes. As many are taken as the line still holds. -/
def write (bytes : Bytes) (w : Loopback) : Except IoFault Nat × Loopback :=
  match w.line? with
  | none => (.error (.bare .notConnected), w)
  | some l =>
    match l.peer with
    | .resetting =>
      (.error (.system .connectionReset), w.withLine { l with inbound := [], peer := .reset })
    | .reset => (.error (.system .brokenPipe), w)
    | .alive | .closed =>
      if l.outbound.length < w.capacity then
        let taken := bytes.take (w.capacity - l.outbound.length)
        (.ok taken.length, w.withLine { l with outbound := l.outbound ++ taken })
      else (.error (.system .wouldBlock), w)

/-- Gives the socket back, which ends the line. -/
def discard (w : Loopback) : Loopback :=
  match w.line? with
  | some l => w.withLine { l with ended := true }
  | none => { w with dialling := .idle }

/-- The operations of the network. Keepalive probes can always be switched. -/
def network : Network Loopback where
  create w := (.ok (), { w with dialling := .idle })
  setKeepAlive _ w := (.ok (), w)
  startConnect := startConnect
  takeError w := w.takeError
  peer w := w.peer
  read := read
  write := write
  discard := discard
  backlog w := (w.line?.map fun l => l.inbound.length).getD 0

/-! ### The peer's end -/

/-- Why the peer can do nothing. -/
inductive Absence where
  /-- Nobody ever connected, or the peer has given its end up. -/
  | noPeer
  /-- This end was given back. -/
  | gone
deriving DecidableEq, Repr

/-- The line, as far as the peer still has its end. -/
def peerLine (w : Loopback) : Except Absence Line :=
  match w.line? with
  | some l => if l.peer = .alive then .ok l else .error .noPeer
  | none => .error .noPeer

/-- The line, as far as both ends are there. -/
def sharedLine (w : Loopback) : Except Absence Line := do
  let l ← w.peerLine
  if l.ended then throw .gone else return l

/-- The peer sends bytes. -/
def peerSend (bytes : Bytes) (w : Loopback) : Except Absence Loopback := do
  let l ← w.sharedLine
  return w.withLine { l with inbound := l.inbound ++ bytes }

/-- How many bytes were written and not taken by the peer yet. -/
def outboundLength (w : Loopback) : Nat := (w.line?.map fun l => l.outbound.length).getD 0

/-- The peer takes up to a number of the bytes that were written and not taken before. -/
def peerRead (limit : Nat) (w : Loopback) : Except Absence (Bytes × Loopback) := do
  let l ← w.peerLine
  return (l.outbound.take limit, w.withLine { l with outbound := l.outbound.drop limit })

/-- The peer takes all of them. -/
def peerTake (w : Loopback) : Except Absence (Bytes × Loopback) := w.peerRead w.outboundLength

/-- The peer takes the bytes like `peerTake`, while both ends are there. -/
def peerDrain (w : Loopback) : Except Absence (Bytes × Loopback) := do
  let _ ← w.sharedLine
  w.peerTake

/-- Whether the peer sees the end of the stream. -/
def peerSeesEnd (w : Loopback) : Except Absence Bool := do
  let l ← w.peerLine
  return l.ended

/-- The peer closes its end. -/
def peerClose (w : Loopback) : Except Absence Loopback := do
  let l ← w.sharedLine
  return w.withLine { l with peer := .closed }

/-- The peer resets the line. -/
def peerReset (w : Loopback) : Except Absence Loopback := do
  let l ← w.sharedLine
  return w.withLine { l with peer := .resetting }

end Loopback

end PolledConnection
