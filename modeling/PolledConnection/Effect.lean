import PolledConnection.Note
import PolledConnection.Network.Socket
import PolledConnection.Tls.Options

/-! # Effects of a transport

  What happens inside a transport while it is called: bytes that it hands to
  the receiver, and the calls that it makes of its own surroundings, each with
  its answer. The order of a history is the order of the calls' ends.
-/

namespace PolledConnection

/-- The largest number of bytes that are read at a time. -/
def receiveBufferSize : Nat := 64

/-- The callback that takes received bytes. It can be kept and used again. -/
structure Receiver where
  /-- The caller's name for it. -/
  tag : Tag
deriving DecidableEq, Repr

/-- What a receiver looks like in messages. -/
def Receiver.label (_ : Receiver) : String := "OnBytesReceived"

/-- What a TLS session is layered over. -/
inductive Carrier where
  /-- A transport supplied by the caller, known by a name. -/
  | given (name : String)
  /-- A connected socket. -/
  | stream (socket : Socket)
deriving DecidableEq, Repr

/-- The answer of a primitive that moves bytes, or why it failed. -/
abbrev Count := Except Fault Nat

/-- What can happen inside a transport. -/
inductive Effect where
  /-- The receiver got bytes. -/
  | received (tag : Tag) (bytes : Bytes)
  /-- The resolver was asked. -/
  | lookedUp (hostname : String) (port : UInt16) (answer : Except Fault (Option Address))
  /-- A connect was started or asked about. -/
  | connectPolled (peer : Address) (answer : Except Fault Bool)
  /-- The engine was asked for a session. -/
  | sessionRequested (hostname : String) (port : UInt16) (carrier : Carrier)
      (options : Tls.Options) (answer : Except Fault Unit)
  /-- The handshake of a session was advanced. -/
  | handshake (answer : Progress)
  /-- A session was read into a buffer of that size. -/
  | sessionRead (size : Nat) (answer : Count)
  /-- Bytes were offered to a session. -/
  | sessionWrite (bytes : Bytes) (answer : Count)
  /-- A session was closed. -/
  | sessionClosed
  /-- A transport was offered an option. Only scripted transports tell. -/
  | optionOffered (name : String) (value : Setting)
  /-- Something was reported. -/
  | note (note : Note)
deriving DecidableEq

end PolledConnection
