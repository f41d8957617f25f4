import PolledConnection.Script.Transport
import PolledConnection.Tls.Engine

/-! # Scripted TLS engines

  An engine that does what its script says, with sessions that do the same.
  An empty script has defaults: a session is created, a handshake succeeds, a
  read finds nothing, a write takes everything.
-/

namespace PolledConnection.Script

/-- What one read of a session does. -/
inductive ReadEntry where
  /-- Finds nothing. -/
  | nothing
  /-- Fails. -/
  | failing (fault : Fault)
  /-- Hands out bytes. What does not fit is the next entry. -/
  | data (bytes : Bytes)
  /-- Puts what fits into the buffer and claims a count of its own. -/
  | claiming (bytes : Bytes) (count : Nat)
deriving DecidableEq, Repr

/-- A session that follows scripts. -/
structure Session where
  /-- The handshakes to come. -/
  handshakes : List Progress
  /-- The reads to come. -/
  reads : List ReadEntry
  /-- The writes to come. -/
  writes : List WriteEntry
deriving DecidableEq, Repr

/-- An engine that follows scripts. -/
structure Engine where
  /-- The options that it can act on. -/
  capabilities : Capabilities
  /-- The attempts to create a session to come, each with the fault it ends in, if any. -/
  creations : List (Option Fault)
  /-- The session that it creates. -/
  session : Session
deriving DecidableEq, Repr

namespace Session

/-- Advances the handshake as scripted. -/
def handshake (s : Session) : Progress × Session :=
  let (answer, rest) := next .done s.handshakes
  (answer, { s with handshakes := rest })

/-- Reads as scripted. -/
def read (size : Nat) (s : Session) : Except Fault Tls.Fill × Session :=
  match s.reads with
  | [] => (.ok ⟨0, []⟩, s)
  | .nothing :: rest => (.ok ⟨0, []⟩, { s with reads := rest })
  | .failing fault :: rest => (.error fault, { s with reads := rest })
  | .data bytes :: rest =>
    let left := bytes.drop size
    (.ok ⟨(bytes.take size).length, bytes.take size⟩,
      { s with reads := if left = [] then rest else .data left :: rest })
  | .claiming bytes count :: rest => (.ok ⟨count, bytes.take size⟩, { s with reads := rest })

/-- Writes as scripted. -/
def write (bytes : Bytes) (s : Session) : Count × Session :=
  let (entry, rest) := next (.upTo bytes.length) s.writes
  (entry.answer bytes.length, { s with writes := rest })

/-- A bound on the reads that one entry is good for. -/
def weight : ReadEntry → Nat
  | .data bytes => bytes.length + 1
  | _ => 1

/-- A bound on the reads that the script is good for. -/
def backlog (s : Session) : Nat := s.reads.foldr (fun r n => weight r + n) 0

end Session

namespace Engine

/-- Creates the session as scripted. -/
def create (e : Engine) : Except Fault Session × Engine :=
  let (outcome, rest) := next none e.creations
  let e := { e with creations := rest }
  match outcome with
  | none => (.ok e.session, e)
  | some fault => (.error fault, e)

/-- The scripted engine. -/
def engine : Tls.Engine Engine Session where
  capabilities := Engine.capabilities
  create _ _ _ _ := create
  handshake := Session.handshake
  read := Session.read
  write := Session.write
  backlog := Session.backlog

end Engine

end PolledConnection.Script
