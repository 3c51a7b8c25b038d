import Nebula.Rust.Exec
import Nebula.Rust.HashMap
import Nebula.Rust.Loop
import Nebula.Rust.Net
import Nebula.Rust.BitWords
import Nebula.Machine.Run
import Nebula.Protocol.Error
import Nebula.Protocol.Transport
import Nebula.Protocol.ReplayHistory
import Nebula.Protocol.ForgedPackets
import Nebula.Firewall.Packet
import Nebula.Firewall.Rule.Tree
import Nebula.Firewall.Rule.Builder
import Nebula.Firewall.Rule.Meaning
import Nebula.Listener.Packet
import Nebula.Listener.HeaderChain
import Nebula.Listener.ForeignHeaders
import Nebula.Listener.IcmpIdentifier
import Nebula.Rust.MinHeap
import Nebula.Rust.Mutex
import Nebula.Firewall.Conntrack
import Nebula.Firewall.Firewall
import Nebula.Firewall.Ownership
import Nebula.Protocol.Cert.Der
import Nebula.Protocol.Header
import Nebula.Protocol.Cert.Verify
import Nebula.Protocol.Handshake
import Nebula.Protocol.Lighthouse
import Nebula.Protocol.Session
import Nebula.Protocol.SessionSteps
import Nebula.Protocol.SessionInvariant
import Nebula.Protocol.RejectedReply
import Nebula.Protocol.CopiedHandshake
import Nebula.Firewall.TimedFlows
import Nebula.Firewall.Admission
import Nebula.Firewall.Revalidation
import Nebula.Firewall.Concurrent
import Nebula.Protocol.Cert.Tlv
import Nebula.Protocol.Cert.RoundTrip
import Nebula.Protocol.LighthouseSender
import Nebula.Listener.MeshToTun
import Nebula.Listener.SenderIdentity
import Nebula.Protocol.DataChannel
import Nebula.Protocol.HandshakeAgreement
import Nebula.Listener.ParseSafety
import Nebula.Protocol.Cert.DetailsRoundTrip
import Nebula.Listener.Reply
import Nebula.Firewall.Rule.PortRestriction
import Nebula.Protocol.Cert.Constraints
import Nebula.Protocol.FirstNetwork
import Nebula.Listener.PeerPrefix
import Nebula.Firewall.ExpirySlots
import Nebula.Protocol.Callers
import Nebula.Protocol.Waiters
import Nebula.Protocol.FailedConnect
import Nebula.Firewall.Purge
import Nebula.Firewall.Unwinding
import Nebula.Firewall.StaleSnapshot
import Nebula.Protocol.LighthouseWire
import Nebula.Protocol.Cert.DecodeSafety
import Nebula.Protocol.Cert.Fields
import Nebula.Protocol.Cert.Canonical
import Nebula.Machine.Part
import Nebula.Machine.Turns
import Nebula.Firewall.PerFlow
import Nebula.Protocol.Tunnels
import Nebula.Protocol.Nonces
import Nebula.Protocol.ReceivedOnce
import Nebula.Protocol.Mesh
import Nebula.Protocol.MeshDelivery
import Nebula.Protocol.Connected
import Nebula.Listener.Gateway
import Nebula.Listener.Forwarding
import Nebula.Listener.Arrivals
import Nebula.Listener.Overlay
import Nebula.Listener.ReturnTraffic
import Nebula.Firewall.Rule.Warnings
import Nebula.Protocol.Returning
import Nebula.Protocol.Registration
import Nebula.Protocol.Completion
