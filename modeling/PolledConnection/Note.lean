import PolledConnection.Fault
import PolledConnection.Network.Address
import PolledConnection.Tcp.Step
import PolledConnection.Tls.Step

/-! # Notes

  What the library reports about itself while it works. A note is data; its
  level and its wording follow from it. Notes have no effect on anything.
-/

namespace PolledConnection

/-- How much a note matters. -/
inductive Level where
  | debug
  | info
  | warn
  | error
deriving DecidableEq, Repr

/-- The name of a level. -/
def Level.label : Level → String
  | .debug => "DEBUG"
  | .info => "INFO"
  | .warn => "WARN"
  | .error => "ERROR"

/-- What can be reported. -/
inductive Note where
  /-- A connection went from one phase to another. -/
  | phaseChanged (was becomes : Phase)
  /-- The transport could not be made. -/
  | createFailed (fault : Fault)
  /-- An open was refused. -/
  | openRefused (phase : Phase)
  /-- A close was refused. -/
  | closeRefused
  /-- A message has an unusable size. -/
  | sizeRefused (size : Nat)
  /-- A message came while the connection was not open. -/
  | sendRefused
  /-- An option was refused. -/
  | optionRefused (name : String) (fault : Fault)
  /-- The transport's open failed. -/
  | openFailed
  /-- The transport's read failed. -/
  | readFailed
  /-- The transport's write failed. -/
  | writeFailed (fault : Fault)
  /-- The transport's close failed. -/
  | closeFailed
  /-- A TCP transport went to an opening step. -/
  | tcpStep (was becomes : Tcp.Step)
  /-- A TLS transport went to an opening step. -/
  | tlsStep (was becomes : Tls.Step)
  /-- An open was polled again after it had failed. -/
  | alreadyFailed
  /-- A lookup failed; it will be tried again. -/
  | stillResolving (hostname : String) (fault : Fault)
  /-- A connect starts. -/
  | connecting (peer : Address)
  /-- A connect could not start. -/
  | connectRefused (peer : Address) (cause : IoFault)
  /-- A TCP transport could not connect. -/
  | connectFailed (peer : Address) (fault : Fault)
  /-- A TLS transport could not connect. -/
  | carrierFailed (fault : Fault)
  /-- The peer ended the stream. -/
  | peerClosed
  /-- A stream could not be read. -/
  | receiveFailed (cause : IoFault)
  /-- The endpoint of a TLS transport was refused. -/
  | endpointRefused
  /-- The engine could not create a session. -/
  | sessionRefused (fault : Fault)
  /-- A session could not be read. -/
  | sessionReadFailed (fault : Fault)
  /-- Trusted certificates are not among the capabilities. -/
  | trustUnsupported
  /-- A credential is not among the capabilities. -/
  | credentialUnsupported (name : String)
  /-- Credentials of both families were given. -/
  | familyConflict
  /-- A certificate without its key, or a key without its certificate. -/
  | mismatchedCredentials
  /-- The keepalive switch came too late for the present stream. -/
  | keepAliveDeferred
deriving DecidableEq, Repr

namespace Note

/-- The level of a note. -/
def level : Note → Level
  | .phaseChanged .. | .tcpStep .. | .tlsStep .. | .stillResolving .. | .connecting _ => .debug
  | .readFailed | .writeFailed _ | .peerClosed | .receiveFailed _ => .info
  | .mismatchedCredentials | .keepAliveDeferred => .warn
  | _ => .error

/-- The wording of a note. -/
def message : Note → String
  | .phaseChanged was becomes => s!"xio state {was.label} -> {becomes.label}"
  | .createFailed fault => s!"Failed adapter create: {fault.message}"
  | .openRefused phase => s!"Invalid state {phase.label}. Expected state is Initial."
  | .closeRefused => "close called before open"
  | .sizeRefused size => s!"Invalid buffer size {size}"
  | .sendRefused => "send without a prior successful open"
  | .optionRefused name fault => s!"Failed set_option '{name}': {fault.message}"
  | .openFailed => "Adapter open failed"
  | .readFailed => "Communications error while reading"
  | .writeFailed fault => s!"Unrecoverable error from adapter write: {fault.message}"
  | .closeFailed => "Adapter close failed"
  | .tcpStep was becomes => s!"socket opening step {was.label} -> {becomes.label}"
  | .tlsStep was becomes => s!"tls opening step {was.label} -> {becomes.label}"
  | .alreadyFailed => "Calling open after open failure"
  | .stillResolving hostname fault => s!"Still resolving '{hostname}': {fault.message}"
  | .connecting peer => s!"Connecting to {peer.text}"
  | .connectRefused peer cause => s!"Socket connect to {peer.text} failed: {cause.text}"
  | .connectFailed peer fault => s!"Could not connect socket to {peer.text}: {fault.message}"
  | .carrierFailed fault => s!"Could not create socket_async: {fault.message}"
  | .peerClosed => "Socket closed by peer"
  | .receiveFailed cause => s!"Socket read failed: {cause.text}"
  | .endpointRefused => "bad parameter"
  | .sessionRefused fault => s!"Failed to create TLS session: {fault.message}"
  | .sessionReadFailed fault => s!"TLS read failure: {fault.message}"
  | .trustUnsupported => "Trusted certificates are not supported by this adapter"
  | .credentialUnsupported name => s!"x509 option '{name}' is not supported by this adapter"
  | .familyConflict => "Supplied x509 type conflicts with previously set x509"
  | .mismatchedCredentials => "Mismatched x509 certificate and private key"
  | .keepAliveDeferred => "tcp_keepalive change takes effect on the next connect"

end Note

end PolledConnection
