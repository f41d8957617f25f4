import PolledConnection.Fault
import PolledConnection.Network.Address

/-! # Sockets and networks

  What a transport needs of a network, as a record of operations on a network
  state `ω`. None of them blocks. A transport drives at most one socket at a
  time, so the operations take no handle: they act on the socket created
  last, until it is discarded.

  The operations answer what the system does, so not every error is a failure:
  there are those of a connect that goes on in the background, of a socket that
  is not connected yet, and of a read or write that has to be tried again.
  `connect`, `isConnected`, `receive` and `send` tell them apart.

  The keepalive switch of a socket is part of the `Socket` itself. A new
  socket has it off, and setting it either takes effect or fails without
  effect; the network only tells which.
-/

namespace PolledConnection

/-- A socket that is connecting or connected. -/
structure Socket where
  /-- The address it was asked to connect to. -/
  peer : Address
  /-- Whether keepalive probes are on. -/
  keepAlive : Bool
deriving DecidableEq, Repr

/-- The answer of a network and the network afterwards. -/
abbrev NetworkStep (ω α : Type) : Type := ω → Except IoFault α × ω

/-- The operations of a network with state `ω`. -/
structure Network (ω : Type) where
  /-- Creates a socket that does not block. -/
  create : NetworkStep ω Unit
  /-- Switches keepalive probes on or off. -/
  setKeepAlive : Bool → NetworkStep ω Unit
  /-- Starts to connect to an address. -/
  startConnect : Address → NetworkStep ω Unit
  /-- Takes the error that the socket has met with in the background, if there is one. -/
  takeError : NetworkStep ω (Option IoFault)
  /-- Asks for the peer. Who it is does not matter, only whether there is one. -/
  peer : NetworkStep ω Unit
  /-- Takes up to a number of received bytes: no byte at the end of the stream. -/
  read : Nat → NetworkStep ω Bytes
  /-- Offers bytes; answers how many were taken. -/
  write : Bytes → NetworkStep ω Nat
  /-- Ends the connection and gives the socket back. -/
  discard : ω → ω
  /-- A bound on how often `read` can give bytes before something new arrives. -/
  backlog : ω → Nat

/-! ### Errors that are no failures -/

namespace IoFault

/-- The connect goes on in the background. -/
def isUnderWay (e : IoFault) : Bool := e == .system .inProgress || e.kind == .wouldBlock

/-- The socket is not connected yet. -/
def isUnconnected (e : IoFault) : Bool := e.kind == .notConnected || e.kind == .wouldBlock

/-- The read or write has to be tried again. -/
def isTransient (e : IoFault) : Bool := e.kind == .wouldBlock || e.kind == .interrupted

end IoFault

namespace Network

variable {ω : Type}

/-- Starts to connect to an address. A connect that goes on in the background is a success. -/
def connect (net : Network ω) (peer : Address) : NetworkStep ω Unit := fun w =>
  match net.startConnect peer w with
  | (.ok (), w) => (.ok (), w)
  | (.error cause, w) => if cause.isUnderWay then (.ok (), w) else (.error cause, w)

/-- Whether the connect has finished; a connect that failed is a fault. -/
def isConnected (net : Network ω) : NetworkStep ω Bool := fun w =>
  match net.takeError w with
  | (.error cause, w) | (.ok (some cause), w) => (.error cause, w)
  | (.ok none, w) =>
    match net.peer w with
    | (.ok (), w) => (.ok true, w)
    | (.error cause, w) => if cause.isUnconnected then (.ok false, w) else (.error cause, w)

/-- Takes up to a number of received bytes: none while nothing has arrived, no byte at the end of the
    stream. -/
def receive (net : Network ω) (limit : Nat) : NetworkStep ω (Option Bytes) := fun w =>
  match net.read limit w with
  | (.ok bytes, w) => (.ok (some bytes), w)
  | (.error cause, w) => if cause.isTransient then (.ok none, w) else (.error cause, w)

/-- Offers bytes; answers how many were taken, none where it has to be tried again. -/
def send (net : Network ω) (bytes : Bytes) : NetworkStep ω Nat := fun w =>
  match net.write bytes w with
  | (.ok taken, w) => (.ok taken, w)
  | (.error cause, w) => if cause.isTransient then (.ok 0, w) else (.error cause, w)

/-! ### The network behind them -/

theorem connect_after (net : Network ω) (peer : Address) (w : ω) :
    (net.connect peer w).2 = (net.startConnect peer w).2 := by
  rcases h : net.startConnect peer w with ⟨cause | _, v⟩
  · cases background : cause.isUnderWay <;> simp [connect, h, background]
  · simp [connect, h]

theorem isConnected_after (net : Network ω) (w : ω) :
    (net.isConnected w).2 = (net.takeError w).2 ∨
      (net.isConnected w).2 = (net.peer (net.takeError w).2).2 := by
  rcases h : net.takeError w with ⟨cause | _ | cause, v⟩
  · simp [isConnected, h]
  · right
    rcases h' : net.peer v with ⟨cause | _, u⟩
    · cases early : cause.isUnconnected <;> simp [isConnected, h, h', early]
    · simp [isConnected, h, h']
  · simp [isConnected, h]

theorem receive_after (net : Network ω) (limit : Nat) (w : ω) :
    (net.receive limit w).2 = (net.read limit w).2 := by
  rcases h : net.read limit w with ⟨cause | bytes, v⟩
  · cases again : cause.isTransient <;> simp [receive, h, again]
  · simp [receive, h]

theorem send_after (net : Network ω) (bytes : Bytes) (w : ω) :
    (net.send bytes w).2 = (net.write bytes w).2 := by
  rcases h : net.write bytes w with ⟨cause | taken, v⟩
  · cases again : cause.isTransient <;> simp [send, h, again]
  · simp [send, h]

end Network

end PolledConnection
