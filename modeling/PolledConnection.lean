import PolledConnection.CommandLine.Dialogue
import PolledConnection.Connection.Run
import PolledConnection.Main
import PolledConnection.Network.Loopback
import PolledConnection.Network.Mailbox
import PolledConnection.Proofs.Connection.Callbacks
import PolledConnection.Proofs.Connection.Closing
import PolledConnection.Proofs.Connection.Contract
import PolledConnection.Proofs.Connection.Failure
import PolledConnection.Proofs.Connection.Opening
import PolledConnection.Proofs.Connection.Refusal
import PolledConnection.Proofs.Connection.Wire
import PolledConnection.Proofs.Tls.Consistency
import PolledConnection.Proofs.Tls.Custody
import PolledConnection.Proofs.Tls.Lifecycle
import PolledConnection.Script.Engine
import PolledConnection.Script.Peer
import PolledConnection.Script.Rehearsal
import PolledConnection.Script.Resolver
import PolledConnection.Tls.OverGiven
import PolledConnection.Tls.OverTcp
import PolledConnection.Proofs.Tls.Course
import PolledConnection.Proofs.Tls.Tenure
import PolledConnection.Proofs.Tls.Reception
import PolledConnection.Proofs.Delivery
import PolledConnection.Proofs.Finality
import PolledConnection.Proofs.Endpoint.Acceptance
import PolledConnection.Proofs.Options.Replay
import PolledConnection.Proofs.Connection.Destruction
import PolledConnection.Proofs.Polls.Pace
import PolledConnection.Proofs.Tls.Twins
import PolledConnection.Proofs.Network.Inbound
import PolledConnection.Proofs.Tcp.Incoming
import PolledConnection.Proofs.Tcp.LastBytes
import PolledConnection.Proofs.Connection.Draining
import PolledConnection.Proofs.Counts
import PolledConnection.Proofs.Options.Application
