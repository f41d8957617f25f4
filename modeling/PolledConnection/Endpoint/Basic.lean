import PolledConnection.Fault
import PolledConnection.Setting

/-! # Endpoints

  Where a connection leads and with which options it starts. The host name
  must not be empty; this is checked where an endpoint is put to use, so an
  endpoint that fails the check can still be built and written.
-/

namespace PolledConnection

/-- A host, a port and initial options. -/
structure Endpoint where
  /-- The name or the literal address of the host. -/
  hostname : String
  /-- The port. -/
  port : UInt16
  /-- The options to start with. -/
  options : Settings
deriving DecidableEq, Repr

namespace Endpoint

/-- An endpoint without options. -/
def of (hostname : String) (port : UInt16) : Endpoint := ⟨hostname, port, .empty⟩

/-- The endpoint with one more option. -/
def withOption (e : Endpoint) (name : String) (value : Setting) : Endpoint :=
  { e with options := e.options.push name value }

/-- The endpoint without its options. -/
def bare (e : Endpoint) : Endpoint := { e with options := .empty }

/-- Refuses an empty host name. -/
def validate (e : Endpoint) : Except Fault Unit :=
  if e.hostname = "" then .error (.invalidParameter "hostname") else .ok ()

/-- Host and port as they are named in messages. -/
def target (e : Endpoint) : String := s!"{e.hostname}:{e.port.toNat}"

@[simp] theorem bare_hostname (e : Endpoint) : e.bare.hostname = e.hostname := rfl

@[simp] theorem bare_port (e : Endpoint) : e.bare.port = e.port := rfl

end Endpoint

end PolledConnection
