import PactMesh.Peers.ForeignNetworkManager
import PactMesh.Peers.Recv
import PactMesh.Peers.RelayGrants

/-!
# How packets are handed on

A packet travels between the receive loops of nodes, which count how often it has been forwarded, and
of their entries for foreign networks.  An entry hands it on to a peer of its own or wraps it into a
packet whose counter begins anew; the node at the other end takes the inner packet out.
-/

namespace PactMesh

inductive MeshPacket
  | plain (pkt : Packet)
  | foreign (hdr : PeerManagerHeader) (networkName : String) (dstPeerId : PeerId)
      (inner : MeshPacket)
deriving DecidableEq

structure Rework where
  apply : Packet → Packet
  keeps : ∀ pkt, ∃ flags len, (apply pkt).hdr = { pkt.hdr with flags := flags, len := len }

namespace MeshPacket

def hdr : MeshPacket → PeerManagerHeader
  | plain pkt => pkt.hdr
  | foreign hdr _ _ _ => hdr

def withHdr (hdr : PeerManagerHeader) : MeshPacket → MeshPacket
  | plain pkt => plain { pkt with hdr := hdr }
  | foreign _ networkName dstPeerId inner => foreign hdr networkName dstPeerId inner

def depth : MeshPacket → ℕ
  | plain _ => 0
  | foreign _ _ _ inner => inner.depth + 1

def payloadLen : MeshPacket → ℕ
  | plain pkt => pkt.payload.length
  | foreign _ networkName _ inner =>
    10 + networkName.utf8ByteSize + (peerManagerHeaderSize + inner.payloadLen)

/-- `new_for_foreign_network` and `fill_peer_manager_hdr` -/
def wrap (networkName : String) (dstPeerId fromPeerId toPeerId : PeerId) (p : MeshPacket) :
    MeshPacket :=
  foreign
    { fromPeerId := fromPeerId
      toPeerId := toPeerId
      packetType := PacketType.foreignNetworkPacket.toByte
      flags := 0
      forwardCounter := 1
      reserved := 0
      len := UInt32.ofNat (foreign default networkName dstPeerId p).payloadLen }
    networkName dstPeerId p

/-- `try_compress_and_encrypt`, which foreign-network packets are not given to -/
def rework (f : Rework) : MeshPacket → MeshPacket
  | plain pkt => plain (f.apply pkt)
  | p => p

def encrypted (f : Rework) : MeshPacket → MeshPacket
  | plain pkt => plain (f.apply pkt)
  | foreign hdr networkName dstPeerId inner =>
    foreign (hdr.setEncrypted true) networkName dstPeerId inner

end MeshPacket

inductive Place (ν : Type)
  | main (node : ν)
  | entry (node : ν) (networkName : String) (myPeerId : PeerId)
deriving DecidableEq

/-- `PeerMap`: the nodes at the other end of its connections, and the next hops of its routes. -/
structure MeshPeerMap (ν : Type) where
  myPeerId : PeerId
  conns : PeerId → Option ν
  getNextHopWithPolicy : PeerId → NextHopPolicy → Option PeerId

namespace MeshPeerMap

variable {ν : Type} (m : MeshPeerMap ν)

def hasPeer (peerId : PeerId) : Bool := peerId = m.myPeerId || (m.conns peerId).isSome

def getGatewayPeerId (dstPeerId : PeerId) (policy : NextHopPolicy) : Option PeerId :=
  if dstPeerId = m.myPeerId then some dstPeerId
  -- with the least cost, the way to a connected peer may lead over another one
  else if m.hasPeer dstPeerId && policy = .leastHop then some dstPeerId
  else m.getNextHopWithPolicy dstPeerId policy

/-- `send_msg_directly`: a packet for the map's own id goes to the loop of the map. -/
def sendMsgDirectly (self : Place ν) (dstPeerId : PeerId) : Option (Place ν) :=
  if dstPeerId = m.myPeerId then some self else (m.conns dstPeerId).map .main

def sendMsg (self : Place ν) (dstPeerId : PeerId) (policy : NextHopPolicy) : Option (Place ν) :=
  (m.getGatewayPeerId dstPeerId policy).bind (m.sendMsgDirectly self)

end MeshPeerMap

structure MeshEntry (ν : Type) where
  peers : MeshPeerMap ν
  relayData : Bool
  /-- `bps_limiter.try_consume` -/
  withinLimit : UInt32 → Bool
  /-- the encryption of the relay sessions in secure mode -/
  relayEncrypt : Option Rework

structure MeshNode (ν : Type) where
  peers : MeshPeerMap ν
  /-- the connections of the foreign network client, which lead to entries -/
  client : PeerId → Option (ν × String)
  entries : String → Option (MeshEntry ν)
  getOriginMyPeerId : String → PeerId → Option PeerId
  /-- the node leaves out its own entries when it fills the map -/
  origin_ne : ∀ networkName peerId, getOriginMyPeerId networkName peerId ≠ some peers.myPeerId
  identities : IdentityTable
  isCredentialNode : Bool
  compressAndEncrypt : Rework
  /-- the encryption of the relay sessions in secure mode -/
  relayEncrypt : Option Rework

/-! ### The loop of a node -/

def forwardHdr (isCredentialNode : Bool) (hdr : PeerManagerHeader) : Option PeerManagerHeader :=
  if 7 < hdr.forwardCounter then none
  -- `Step 10b` of the source: no handshakes on behalf of others
  else if isCredentialNode && hdr.hasType [.handShake, .noiseHandshakeMsg1, .noiseHandshakeMsg2,
      .noiseHandshakeMsg3] then none
  else
    let hdr := if 2 < hdr.forwardCounter && hdr.hasFlag PeerManagerHeader.flagLatencyFirst
      then hdr.setLatencyFirst false else hdr
    some { hdr with forwardCounter := hdr.forwardCounter + 1 }

namespace MeshNode

variable {ν : Type} (n : MeshNode ν) (self : ν)

def myPeerId : PeerId := n.peers.myPeerId

/-- `foreign_network_client.has_next_hop` -/
def clientHasNextHop (peerId : PeerId) : Bool := peerId = n.myPeerId || (n.client peerId).isSome

/-- `foreign_network_client.send_msg` -/
def clientSendMsg (peerId : PeerId) : Option (Place ν) :=
  if peerId = n.myPeerId then some (.main self)
  else (n.client peerId).map fun (node, networkName) => .entry node networkName peerId

/-- What `send_msg_internal` looks up. -/
def sendRoutes : SendRoutes where
  hasPeer := n.peers.hasPeer
  hasNextHop := n.clientHasNextHop
  getGatewayPeerId := n.peers.getGatewayPeerId
  hasNextHopLater := n.clientHasNextHop

/-- `send_via_next_hop` of the relay peer map, once the gateway has been looked up -/
def sendViaNextHop (gateway : PeerId) : Option (Place ν) :=
  if n.peers.hasPeer gateway then n.peers.sendMsgDirectly (.main self) gateway
  else n.clientSendMsg self gateway

/-- `send_msg_internal` with the call that sends the packet -/
def sendMsg (p : MeshPacket) (dstPeerId : PeerId) : Option (Place ν × MeshPacket) :=
  match sendMsgInternal n.sendRoutes n.identities p.hdr dstPeerId with
  | .ok .directly => (n.peers.sendMsgDirectly (.main self) dstPeerId).map (·, p)
  | .ok .foreignNetwork => (n.clientSendMsg self dstPeerId).map (·, p)
  | .ok (.relay gateway) =>
    (n.sendViaNextHop self gateway).map (·, (n.relayEncrypt.map p.encrypted).getD p)
  | .error _ => none

def forwardForeignNetworkPacket (networkName : String) (dstPeerId : PeerId) (inner : MeshPacket) :
    Option (Place ν × MeshPacket) :=
  (n.entries networkName).bind fun e =>
    (e.peers.sendMsg (.entry self networkName e.peers.myPeerId) dstPeerId .leastHop).map (·, inner)

def getNetworkPeerId (networkName : String) : Option PeerId :=
  (n.entries networkName).map (·.peers.myPeerId)

def forward (p : MeshPacket) : Option (Place ν × MeshPacket) :=
  (forwardHdr n.isCredentialNode p.hdr).bind fun hdr =>
    let p := p.withHdr hdr
    n.sendMsg self
      (if hdr.fromPeerId = n.myPeerId ∧ hdr.hasType [.data, .kcpSrc, .kcpDst]
        then p.rework n.compressAndEncrypt else p)
      hdr.toPeerId

/-- What is done with a packet that `try_handle_foreign_network_packet` does not handle. -/
def recvUnhandled (p : MeshPacket) : Option (Place ν × MeshPacket) :=
  if p.hdr.toPeerId = n.myPeerId then none else n.forward self p

/-- `start_peer_recv`: where the packet goes on to, none if it has arrived or is dropped.  What is
encrypted has no foreign header that could be read. -/
def recvMain : MeshPacket → Option (Place ν × MeshPacket)
  | .plain pkt => n.recvUnhandled self (.plain pkt)
  | .foreign hdr networkName dstPeerId inner =>
    let p := MeshPacket.foreign hdr networkName dstPeerId inner
    if hdr.isEncrypted then n.recvUnhandled self p
    else if hdr.toPeerId = n.myPeerId then
      n.forwardForeignNetworkPacket self networkName dstPeerId inner
    -- an entry of this node has wrapped the packet, for an id of the other network
    else if n.getNetworkPeerId networkName = some hdr.fromPeerId then
      match n.getOriginMyPeerId networkName hdr.toPeerId with
      | none => n.recvUnhandled self p
      -- sent without a look at the counter
      | some toPeerId =>
        (n.peers.sendMsg (.main self) toPeerId .leastHop).map
          (·, p.withHdr { hdr with toPeerId := toPeerId })
    else n.recvUnhandled self p

end MeshNode

/-! ### The loop of an entry -/

namespace MeshEntry

variable {ν : Type} (e : MeshEntry ν) (self : ν) (networkName : String)

def connectedGateway (toPeerId : PeerId) : Option PeerId :=
  (e.peers.getGatewayPeerId toPeerId .leastHop).filter e.peers.hasPeer

/-- `start_packet_recv`: where the packet goes on to, none if it has arrived or is dropped. -/
def recvEntry (p : MeshPacket) : Option (Place ν × MeshPacket) :=
  let place := Place.entry self networkName e.peers.myPeerId
  let toPeerId := p.hdr.toPeerId
  if !ForeignNetworkEntry.forwards ⟨networkName, e.peers.myPeerId, e.relayData, []⟩ p.hdr.packetType
      toPeerId (e.withinLimit p.hdr.len) then none
  else
    match e.connectedGateway toPeerId with
    | some gateway =>
      (e.peers.sendMsgDirectly place gateway).map (·,
        if gateway ≠ toPeerId ∧ p.hdr.fromPeerId = e.peers.myPeerId
          then (e.relayEncrypt.map p.encrypted).getD p else p)
    -- into the queue of the node, whatever the type of the packet is
    | none =>
      some (.main self, p.wrap networkName toPeerId e.peers.myPeerId
        ((e.peers.getGatewayPeerId toPeerId .leastHop).getD toPeerId))

end MeshEntry

abbrev Mesh (ν : Type) := ν → MeshNode ν

variable {ν : Type}

def Mesh.recv (m : Mesh ν) : Place ν → MeshPacket → Option (Place ν × MeshPacket)
  | .main x, p => (m x).recvMain x p
  | .entry x networkName myPeerId, p =>
    ((m x).entries networkName).bind fun e =>
      if e.peers.myPeerId = myPeerId then e.recvEntry x networkName p else none

def forwarding : Trans (Place ν × MeshPacket) (Mesh ν) where
  step s m s' := m.recv s.1 s.2 = some s'

end PactMesh
