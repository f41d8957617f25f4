import PolledConnection.Network.Socket

/-! # A network that takes its time

  The connection's side of a network whose other side works on its own: the
  connection leaves wishes and finds results. A connect stays pending until
  somebody settles it, bytes arrive when somebody puts them in, and written
  bytes lie there until somebody fetches them.

  Whoever carries things between such a mailbox and a real socket makes a real
  network of it. The second half of this module is that carrier's side.
-/

namespace PolledConnection

/-- What has become of a connect. -/
inductive ConnectState where
  /-- None was asked for. -/
  | idle
  /-- It is asked for and not settled. -/
  | pending (peer : Address)
  /-- It has succeeded. -/
  | established (peer : Address)
  /-- It has failed. -/
  | failed (cause : IoFault)
deriving DecidableEq, Repr

/-- Whether more bytes can arrive. -/
inductive Inflow where
  /-- They can. -/
  | flowing
  /-- The peer has ended the stream in an orderly way. -/
  | ended
  /-- The stream is broken. -/
  | broken (cause : IoFault)
deriving DecidableEq, Repr

/-- The connection's side of a network. -/
structure Mailbox where
  /-- What has become of the connect. -/
  connect : ConnectState
  /-- Whether keepalive probes are wanted. -/
  keepAlive : Bool
  /-- Bytes that have arrived and not been read. -/
  inbound : Bytes
  /-- Whether more can arrive. -/
  inflow : Inflow
  /-- Bytes that were written and not fetched. -/
  outbound : Bytes
deriving DecidableEq, Repr

namespace Mailbox

/-- Nothing is wanted and nothing has arrived. -/
def empty : Mailbox := ⟨.idle, false, [], .flowing, []⟩

/-! ### The connection's side -/

/-- The error of a connect that has failed. -/
def error? (m : Mailbox) : Option IoFault :=
  match m.connect with
  | .failed cause => some cause
  | .idle | .pending _ | .established _ => none

/-- Whether there is a peer. -/
def peer (m : Mailbox) : Except IoFault Unit :=
  match m.connect with
  | .established _ => .ok ()
  | .idle | .pending _ | .failed _ => .error (.system .notConnected)

/-- Takes up to a number of bytes; the end of the stream shows behind the last of them. -/
def read (limit : Nat) (m : Mailbox) : Except IoFault Bytes × Mailbox :=
  if m.inbound = [] then
    match m.inflow with
    | .flowing => (.error (.system .wouldBlock), m)
    | .ended => (.ok [], m)
    | .broken cause => (.error cause, m)
  else (.ok (m.inbound.take limit), { m with inbound := m.inbound.drop limit })

/-- Leaves bytes to be fetched. -/
def write (bytes : Bytes) (m : Mailbox) : Except IoFault Nat × Mailbox :=
  match m.inflow with
  | .broken cause => (.error cause, m)
  | .flowing | .ended => (.ok bytes.length, { m with outbound := m.outbound ++ bytes })

/-- The operations of the network. Written bytes outlive the socket. -/
def network : Network Mailbox where
  create m := (.ok (), { empty with outbound := m.outbound })
  setKeepAlive on m := (.ok (), { m with keepAlive := on })
  startConnect peer m := (.error (.system .inProgress), { m with connect := .pending peer })
  takeError m := (.ok m.error?, m)
  peer m := (m.peer, m)
  read := read
  write := write
  discard m := { empty with outbound := m.outbound }
  backlog m := m.inbound.length

/-! ### The carrier's side -/

/-- The connect has succeeded or failed. One that is not pending stays as it is. -/
def settle (result : Except IoFault Unit) (m : Mailbox) : Mailbox :=
  match m.connect with
  | .pending peer =>
    { m with connect := match result with
      | .ok () => .established peer
      | .error cause => .failed cause }
  | _ => m

/-- Bytes have arrived, unless the stream was over already. -/
def arrive (bytes : Bytes) (m : Mailbox) : Mailbox :=
  match m.inflow with
  | .flowing => { m with inbound := m.inbound ++ bytes }
  | _ => m

/-- The stream is over. -/
def finish (inflow : Inflow) (m : Mailbox) : Mailbox := { m with inflow := inflow }

/-- The written bytes, which are there no more. -/
def fetch (m : Mailbox) : Bytes × Mailbox := (m.outbound, { m with outbound := [] })

end Mailbox

end PolledConnection
