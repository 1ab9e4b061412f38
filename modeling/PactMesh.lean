import PactMesh.Session.Nonce
import PactMesh.Peers.AclExplain
import PactMesh.Peers.RootKey
import PactMesh.Peers.Possession
import PactMesh.Control.Revocation
import PactMesh.Control.Addresses
import PactMesh.Control.Hostnames
import PactMesh.Control.AclConsistency
import PactMesh.Control.Sessions
import PactMesh.Common.RelayServing
import PactMesh.Trust.JoinForward
import PactMesh.Gateway.NoOpenProxy
import PactMesh.Rpc.Totality
import PactMesh.Peers.AclEnforcement
import PactMesh.Peers.HandshakeReplay
import PactMesh.Peers.ConcurrentAdd
import PactMesh.Peers.ForeignTables
import PactMesh.Session.Delivery
import PactMesh.Peers.Destination
import PactMesh.Peers.ForeignAnnounce
import PactMesh.Peers.GroupRequests
import PactMesh.Peers.SessionRestart
import PactMesh.Peers.LoopFree
import PactMesh.Peers.ForwardingBound
import PactMesh.Gateway.Reassembly
import PactMesh.Rpc.CompressionRoundTrip
import PactMesh.Peers.RecvLimit
import PactMesh.Common.AclRules
import PactMesh.Peers.AclFilter
import PactMesh.Trust.WireRoundTrip
import PactMesh.Tunnel.Wrapping
import PactMesh.Gateway.UdpReplies
import PactMesh.Peers.GrantedSubnets
import PactMesh.Rpc.SplitMerge
