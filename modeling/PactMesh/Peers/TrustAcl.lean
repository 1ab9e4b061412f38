import PactMesh.Session.PeerSession
import PactMesh.Trust.Pool

/-!
# The trust ACL of a node

Every data packet that a node delivers locally or sends on behalf of its network card passes
`processPacketWithTrustAcl`, which looks up the identity of the other peer, asks the network state
whether it is revoked or disabled, and lets the state's policy decide.

`Admissible` says what a packet needs to be let through by a gate that fails closed.  The gate is
closed by a policy that is missing or does not decode, and by revocation, but stands open for every
packet type other than `Data`, for a payload that is no IP packet, for a peer without an identity and
for a network without a state.

Main result: `trustAcl_failClosed_iff`.
-/

namespace PactMesh

open Option

inductive TrafficKind
  | data
  | control
deriving DecidableEq

def trafficKind (packetType : UInt8) : TrafficKind :=
  if packetType = PacketType.data.toByte ∨ packetType = PacketType.kcpSrc.toByte ∨
      packetType = PacketType.kcpDst.toByte ∨ packetType = PacketType.quicSrc.toByte ∨
      packetType = PacketType.quicDst.toByte ∨
      packetType = PacketType.dataWithKcpSrcModified.toByte ∨
      packetType = PacketType.dataWithQuicSrcModified.toByte then .data
  else .control

structure Ipv4Packet where
  version : UInt8
  nextLevelProtocol : UInt8
  source : BitVec 32
  destination : BitVec 32
  payload : List UInt8

structure Ipv6Packet where
  nextHeader : UInt8
  source : BitVec 128
  destination : BitVec 128
  payload : List UInt8

structure PacketParsers where
  ipv4 : List UInt8 → Option Ipv4Packet
  ipv6 : List UInt8 → Option Ipv6Packet
  /-- source and destination port -/
  tcp : List UInt8 → Option (UInt16 × UInt16)
  /-- source and destination port -/
  udp : List UInt8 → Option (UInt16 × UInt16)

variable (N : PacketParsers)

def transportPorts (protocol : UInt8) (payload : List UInt8) : Option (UInt16 × UInt16) :=
  if protocol = 6 then N.tcp payload else if protocol = 17 then N.udp payload else some (0, 0)

def trustAclPacketTuple (packet : Packet) : Option PacketTuple :=
  -- the version is read from the IPv4 view, also for IPv6
  match N.ipv4 packet.payload with
  | none => none
  | some ipv4 =>
    if ipv4.version = 4 then
      (transportPorts N ipv4.nextLevelProtocol ipv4.payload).map fun ports =>
        ⟨.v4 ipv4.source, .v4 ipv4.destination, ipv4.nextLevelProtocol, ports.1, ports.2⟩
    else if ipv4.version = 6 then
      match N.ipv6 packet.payload with
      | none => none
      | some ipv6 =>
        (transportPorts N ipv6.nextHeader ipv6.payload).map fun ports =>
          ⟨.v6 ipv6.source, .v6 ipv6.destination, ipv6.nextHeader, ports.1, ports.2⟩
    else none

structure TrustAclPeerIdentity where
  deviceFingerprint : DeviceFingerprint
  memberCertFingerprint : MemberCertFingerprint
  canRelayData : Bool
  canRelayControl : Bool
  proxyCidrs : List Cidr
  certCapabilities : Capabilities
deriving DecidableEq

abbrev IdentityTable := AList fun _ : PeerId => TrustAclPeerIdentity

structure TrustAclNode where
  trustContext : Option TrustDomainContext
  trustPool : Option TrustDomainPool
  identities : IdentityTable
  /-- seconds since the epoch -/
  now : UInt64

variable (T : TrustSuite)

def deviceFingerprintFromMemberCert (cert : MemberCert) : DeviceFingerprint :=
  ⟨T.sha256 cert.details.devicePk.toList⟩

def proxyCidrsFromCaps (capabilities : Capabilities) : List Cidr :=
  capabilities.canProxySubnet.map fun cidr => ⟨cidr.network, cidr.prefixLen⟩

def identityOf (cert : MemberCert) (effective : Capabilities) : TrustAclPeerIdentity where
  deviceFingerprint := deviceFingerprintFromMemberCert T cert
  memberCertFingerprint := cert.fingerprint T
  canRelayData := effective.canRelayData
  canRelayControl := effective.canRelayControl
  proxyCidrs := proxyCidrsFromCaps effective
  certCapabilities := cert.details.capabilities

def proxyCidrsForTrustAcl (identities : IdentityTable) (own : TrustAclPeerIdentity) :
    List (DeviceFingerprint × Cidr) :=
  own.proxyCidrs.map (fun cidr => (own.deviceFingerprint, cidr)) ++
    identities.entries.flatMap fun entry =>
      entry.2.proxyCidrs.map fun cidr => (entry.2.deviceFingerprint, cidr)

def trustAclPolicyOrFailClosed (aclBytes : List UInt8) : Option AclPolicy :=
  if aclBytes.isEmpty then none else T.policyFromCbor aclBytes

def trustAclDecision (policy : AclPolicy) (packet : PacketTuple) (src dst : TrustAclPeerIdentity)
    (proxyCidrs : List (DeviceFingerprint × Cidr)) : Bool :=
  policy.decide packet ⟨src.deviceFingerprint, policy.tags, proxyCidrs⟩
    ⟨dst.deviceFingerprint, policy.tags, proxyCidrs⟩ == .accept

def peerIdentityAllowedByCurrentTrustState (node : TrustAclNode) (identity : TrustAclPeerIdentity) :
    Bool :=
  match node.trustPool, node.trustContext with
  | some pool, some ctx =>
    match pool.networkState ctx.trustDomainId ctx.networkLocalId with
    | some state =>
      !state.isRevoked identity.memberCertFingerprint node.now &&
        !state.isDisabled identity.memberCertFingerprint node.now
    | none => true
  | _, _ => true

def ownIdentity (ctx : TrustDomainContext) (state : SignedNetworkState) : TrustAclPeerIdentity :=
  identityOf T ctx.memberCert (effectiveCapabilities T ctx.memberCert state)

/-- What a policy says on a packet from (`isIn`) or to a known peer. -/
def trustAclRuntimeDecision (node : TrustAclNode) (ctx : TrustDomainContext)
    (state : SignedNetworkState) (policy : AclPolicy) (tuple : PacketTuple) (isIn : Bool)
    (remote : TrustAclPeerIdentity) : Bool :=
  let own := ownIdentity T ctx state
  let proxyCidrs := proxyCidrsForTrustAcl node.identities own
  if isIn then trustAclDecision policy tuple remote own proxyCidrs
  else trustAclDecision policy tuple own remote proxyCidrs

def trustAclVerdict (node : TrustAclNode) (ctx : TrustDomainContext) (state : SignedNetworkState)
    (tuple : PacketTuple) (isIn : Bool) (remote : TrustAclPeerIdentity) : Bool :=
  match trustAclPolicyOrFailClosed T state.details.payload.acl with
  | none => false
  | some policy => trustAclRuntimeDecision T node ctx state policy tuple isIn remote

/-- Whether a packet from (`isIn`) or to a peer passes. -/
def processPacketWithTrustAclForPeer (node : TrustAclNode) (packet : Packet) (isIn : Bool)
    (peerId : Option PeerId) : Bool :=
  -- `trafficKind` counts more types as user data than this one
  if packet.hdr.packetType ≠ PacketType.data.toByte then true
  else
    match node.trustPool, node.trustContext with
    | some pool, some ctx =>
      match trustAclPacketTuple N packet, peerId.bind node.identities.lookup with
      | some tuple, some remote =>
        if !peerIdentityAllowedByCurrentTrustState node remote then false
        else
          match pool.networkState ctx.trustDomainId ctx.networkLocalId with
          | none => true
          | some state => trustAclVerdict T node ctx state tuple isIn remote
      -- an unreadable packet and a peer without an identity pass
      | _, _ => true
    | _, _ => true

def processPacketWithTrustAcl (node : TrustAclNode) (packet : Packet) (isIn : Bool) : Bool :=
  processPacketWithTrustAclForPeer N T node packet isIn
    (some (if isIn then packet.hdr.fromPeerId else packet.hdr.toPeerId))

def deliversLocally (node : TrustAclNode) (aclFilter : Packet → Bool) (packet : Packet) : Bool :=
  processPacketWithTrustAcl N T node packet true && aclFilter packet

/-! ### Sending by address -/

/-- What `send_msg_by_ip` uses of the node besides the gate. -/
structure SendEnv where
  myPeerId : PeerId
  /-- the packet filter and the pipeline of the network card; `none` when the packet is dropped -/
  nicPipeline : Packet → Option Packet
  /-- the candidate peers for an address, and whether they are exit nodes -/
  dstPeers : IpAddr → List PeerId × Bool
  /-- `try_compress_and_encrypt`; `none` on an error -/
  compressAndEncrypt : Packet → Option Packet
  checkP2pOnlyBeforeSend : PeerId → Bool
  latencyFirst : Bool

def fillPeerManagerHdr (packet : Packet) (fromPeerId toPeerId : PeerId) (packetType : UInt8) :
    Packet :=
  { packet with
    hdr := { packet.hdr with
      fromPeerId := fromPeerId
      toPeerId := toPeerId
      packetType := packetType
      flags := 0
      forwardCounter := 1
      len := UInt32.ofNat packet.payload.length } }

def sendMsgByIp (node : TrustAclNode) (env : SendEnv) (msg : Packet) (ip : IpAddr)
    (notSendToSelf : Bool) : List (PeerId × Packet) :=
  match env.nicPipeline (fillPeerManagerHdr msg env.myPeerId 0 PacketType.data.toByte) with
  | none => []
  | some msg =>
    -- the pipeline has chosen the receiver: the gate is not asked
    if msg.hdr.toPeerId ≠ 0 then [(msg.hdr.toPeerId, msg)]
    else
      let allowed := (env.dstPeers ip).1.filter fun peerId =>
        processPacketWithTrustAclForPeer N T node msg false (some peerId)
      if allowed.isEmpty then []
      else
        match env.compressAndEncrypt msg with
        | none => []
        | some msg =>
          let hdr := (msg.hdr.setLatencyFirst env.latencyFirst).setExitNode (env.dstPeers ip).2
          (allowed.filter env.checkP2pOnlyBeforeSend).map fun peerId =>
            let hdr := { hdr with toPeerId := peerId }
            let hdr := if notSendToSelf && peerId == env.myPeerId then
                (hdr.setNotSendToTun true).setNoProxy true
              else hdr
            (peerId, { msg with hdr := hdr })

/-! ### What a gate that fails closed lets through -/

/-- The packet may pass: its addresses are readable, the peer has an identity that the network's
state neither revokes nor disables, and the policy accepts the packet. -/
def Admissible (node : TrustAclNode) (packet : Packet) (isIn : Bool) (peerId : PeerId) : Prop :=
  ∃ pool ctx tuple remote state policy, node.trustPool = some pool ∧
    node.trustContext = some ctx ∧ trustAclPacketTuple N packet = some tuple ∧
    node.identities.lookup peerId = some remote ∧
    pool.networkState ctx.trustDomainId ctx.networkLocalId = some state ∧
    state.isRevoked remote.memberCertFingerprint node.now = false ∧
    state.isDisabled remote.memberCertFingerprint node.now = false ∧
    trustAclPolicyOrFailClosed T state.details.payload.acl = some policy ∧
    trustAclRuntimeDecision T node ctx state policy tuple isIn remote = true

def Judgeable (node : TrustAclNode) (pool : TrustDomainPool) (ctx : TrustDomainContext)
    (packet : Packet) (peerId : PeerId) : Prop :=
  (trustAclPacketTuple N packet).isSome = true ∧ (node.identities.lookup peerId).isSome = true ∧
    (pool.networkState ctx.trustDomainId ctx.networkLocalId).isSome = true

section Gate

variable {N T} {node : TrustAclNode} {pool : TrustDomainPool} {ctx : TrustDomainContext}
  {packet : Packet} {isIn : Bool} {peerId : PeerId}

section Pool

variable (hpool : node.trustPool = some pool) (hctx : node.trustContext = some ctx)
include hpool hctx

theorem Admissible.judgeable (h : Admissible N T node packet isIn peerId) :
    Judgeable N node pool ctx packet peerId := by
  obtain ⟨pool', ctx', tuple, remote, state, policy, hp, hc, ht, hr, hs, -⟩ := h
  obtain rfl : pool' = pool := Option.some.inj (hp.symm.trans hpool)
  obtain rfl : ctx' = ctx := Option.some.inj (hc.symm.trans hctx)
  exact ⟨by rw [ht]; rfl, by rw [hr]; rfl, by rw [hs]; rfl⟩

theorem process_iff_admissible (hdata : packet.hdr.packetType = PacketType.data.toByte)
    (h : Judgeable N node pool ctx packet peerId) :
    processPacketWithTrustAclForPeer N T node packet isIn (some peerId) = true ↔
      Admissible N T node packet isIn peerId := by
  obtain ⟨⟨tuple, ht⟩, ⟨remote, hr⟩, ⟨state, hs⟩⟩ :=
    And.imp isSome_iff_exists.1
      (And.imp isSome_iff_exists.1 isSome_iff_exists.1) h
  constructor
  · intro hpass
    simp only [processPacketWithTrustAclForPeer, hdata, ne_eq, not_true_eq_false, if_false, hpool,
      hctx, ht, bind_some, hr, peerIdentityAllowedByCurrentTrustState, hs] at hpass
    split_ifs at hpass with hallowed
    unfold trustAclVerdict at hpass
    cases hpol : trustAclPolicyOrFailClosed T state.details.payload.acl with
    | none => simp [hpol] at hpass
    | some policy =>
      simp only [hpol] at hpass
      obtain ⟨hrev, hdis⟩ : state.isRevoked remote.memberCertFingerprint node.now = false ∧
          state.isDisabled remote.memberCertFingerprint node.now = false := by simpa using hallowed
      exact ⟨pool, ctx, tuple, remote, state, policy, hpool, hctx, ht, hr, hs, hrev, hdis, hpol,
        hpass⟩
  · rintro ⟨pool, ctx, tuple, remote, state, policy, hpool, hctx, ht, hr, hs, hrev, hdis, hpol, hdec⟩
    simp [processPacketWithTrustAclForPeer, hdata, hpool, hctx, ht, hr, hs, hrev, hdis,
      peerIdentityAllowedByCurrentTrustState, trustAclVerdict, hpol, hdec]

theorem process_of_not_judgeable (h : ¬ Judgeable N node pool ctx packet peerId) :
    processPacketWithTrustAclForPeer N T node packet isIn (some peerId) = true := by
  unfold processPacketWithTrustAclForPeer
  split_ifs with htype
  · rfl
  · simp only [hpool, hctx, bind_some]
    cases ht : trustAclPacketTuple N packet with
    | none => rfl
    | some tuple =>
      cases hr : node.identities.lookup peerId with
      | none => rfl
      | some remote =>
        have hs : pool.networkState ctx.trustDomainId ctx.networkLocalId = none := by
          rw [← not_isSome_iff_eq_none]
          exact fun hs => h ⟨by rw [ht]; rfl, by rw [hr]; rfl, hs⟩
        simp [peerIdentityAllowedByCurrentTrustState, hpool, hctx, hs]

/-- **When the gate lets only admissible packets through.** -/
theorem process_sound_iff :
    (processPacketWithTrustAclForPeer N T node packet isIn (some peerId) = true →
        Admissible N T node packet isIn peerId) ↔ Judgeable N node pool ctx packet peerId ∧
        (packet.hdr.packetType = PacketType.data.toByte ∨ Admissible N T node packet isIn peerId) := by
  by_cases hj : Judgeable N node pool ctx packet peerId
  · by_cases hdata : packet.hdr.packetType = PacketType.data.toByte
    · simp [hj, hdata, process_iff_admissible hpool hctx hdata hj]
    · have hopen : processPacketWithTrustAclForPeer N T node packet isIn (some peerId) = true := by
        simp [processPacketWithTrustAclForPeer, hdata]
      simp [hj, hdata, hopen]
  · have hopen : processPacketWithTrustAclForPeer N T node packet isIn (some peerId) = true :=
      process_of_not_judgeable hpool hctx hj
    simp only [hopen, forall_const, hj, false_and, iff_false]
    exact fun hadm => hj (hadm.judgeable hpool hctx)

end Pool

/-- The peers that `sendMsgByIp` hands a packet to when the pipeline leaves the destination open:
the candidates that pass the gate and the check for direct connections. -/
theorem mem_sendMsgByIp {env : SendEnv} {msg sent : Packet} {ip : IpAddr} {notSendToSelf : Bool}
    (hnic : env.nicPipeline (fillPeerManagerHdr msg env.myPeerId 0 PacketType.data.toByte) =
      some sent) (hto : sent.hdr.toPeerId = 0) :
    (∃ q ∈ sendMsgByIp N T node env msg ip notSendToSelf, q.1 = peerId) ↔
      (env.compressAndEncrypt sent).isSome = true ∧ peerId ∈ (env.dstPeers ip).1 ∧
        processPacketWithTrustAclForPeer N T node sent false (some peerId) = true ∧
        env.checkP2pOnlyBeforeSend peerId = true := by
  simp only [sendMsgByIp, hnic, hto, ne_eq, not_true_eq_false, if_false]
  split_ifs with hempty
  · rw [List.isEmpty_iff, List.filter_eq_nil_iff] at hempty
    simp only [List.not_mem_nil, false_and, exists_false, false_iff]
    rintro ⟨-, hmem, hpass, -⟩
    exact hempty peerId hmem hpass
  · cases env.compressAndEncrypt sent with
    | none => simp
    | some out =>
      simp only [List.mem_map, List.mem_filter, isSome_some, true_and]
      constructor
      · rintro ⟨-, ⟨p, ⟨⟨hmem, hpass⟩, hp2p⟩, rfl⟩, rfl⟩
        exact ⟨hmem, hpass, hp2p⟩
      · rintro ⟨hmem, hpass, hp2p⟩
        exact ⟨_, ⟨peerId, ⟨⟨hmem, hpass⟩, hp2p⟩, rfl⟩, rfl⟩

end Gate

/-- **When the trust ACL fails closed**: the exact conditions under which only admissible user data
is delivered locally, and is handed to peers by address. -/
theorem trustAcl_failClosed_iff (N : PacketParsers) (T : TrustSuite) (node : TrustAclNode)
    (pool : TrustDomainPool) (ctx : TrustDomainContext) (hpool : node.trustPool = some pool)
    (hctx : node.trustContext = some ctx) :
    (∀ (aclFilter : Packet → Bool) (packet : Packet), trafficKind packet.hdr.packetType = .data →
      ((deliversLocally N T node aclFilter packet = true →
          Admissible N T node packet true packet.hdr.fromPeerId) ↔
        (aclFilter packet = false ∨ Judgeable N node pool ctx packet packet.hdr.fromPeerId ∧
          (packet.hdr.packetType = PacketType.data.toByte ∨
            Admissible N T node packet true packet.hdr.fromPeerId)))) ∧
    ∀ (env : SendEnv) (msg sent : Packet) (ip : IpAddr) (notSendToSelf : Bool),
      env.nicPipeline (fillPeerManagerHdr msg env.myPeerId 0 PacketType.data.toByte) = some sent →
      trafficKind sent.hdr.packetType = .data →
      ((∀ q ∈ sendMsgByIp N T node env msg ip notSendToSelf, Admissible N T node sent false q.1) ↔
        (if sent.hdr.toPeerId ≠ 0 then Admissible N T node sent false sent.hdr.toPeerId
        else env.compressAndEncrypt sent = none ∨
          ∀ peerId ∈ (env.dstPeers ip).1, env.checkP2pOnlyBeforeSend peerId = true →
            Judgeable N node pool ctx sent peerId ∧ (sent.hdr.packetType = PacketType.data.toByte ∨
                Admissible N T node sent false peerId))) := by
  refine ⟨?_, ?_⟩
  · intro aclFilter packet _
    rw [← process_sound_iff hpool hctx]
    simp only [deliversLocally, processPacketWithTrustAcl, if_true]
    cases aclFilter packet <;> simp
  · intro env msg sent ip notSendToSelf hnic _
    by_cases hto : sent.hdr.toPeerId = 0
    · simp only [hto, ne_eq, not_true_eq_false, if_false]
      have hmem : ∀ peerId, (∃ q ∈ sendMsgByIp N T node env msg ip notSendToSelf, q.1 = peerId) ↔ _ :=
        fun peerId => mem_sendMsgByIp hnic hto
      constructor
      · intro hall
        rw [or_iff_not_imp_left]
        intro henc peerId hdst hp2p
        rw [← process_sound_iff hpool hctx]
        intro hpass
        obtain ⟨q, hq, rfl⟩ := (hmem peerId).2 ⟨isSome_iff_ne_none.2 henc, hdst, hpass, hp2p⟩
        exact hall q hq
      · intro hcond q hq
        obtain ⟨henc, hdst, hpass, hp2p⟩ := (hmem q.1).1 ⟨q, hq, rfl⟩
        obtain hnone | hcond := hcond
        · rw [hnone] at henc
          cases henc
        · exact (process_sound_iff hpool hctx).2 (hcond q.1 hdst hp2p) hpass
    · simp only [ne_eq, hto, not_false_eq_true, if_true]
      simp [sendMsgByIp, hnic, hto]

def sampleParsers : PacketParsers where
  ipv4 bytes := if bytes.length < 20 then none
    else some ⟨bytes.getD 0 0 >>> 4, bytes.getD 9 0, 0, 0, bytes.drop 20⟩
  ipv6 _ := none
  tcp _ := none
  udp _ := none

def sampleAclNode (acl : List UInt8) : TrustAclNode where
  trustContext := some sampleContext
  trustPool := some (samplePool acl)
  identities := AList.insert 7 (identityOf sampleSuite (sampleCert (all32 4))
    ⟨true, true, [], false⟩) ∅
  now := 5

def icmpPacket (packetType : PacketType) (fromPeerId : PeerId) : Packet where
  hdr := { (default : PeerManagerHeader) with
    fromPeerId := fromPeerId
    packetType := packetType.toByte }
  payload := [0x45, 0, 0, 0, 0, 0, 0, 0, 0, 1, 0, 0, 0, 0, 0, 0, 0, 0, 0, 0]

/-- Under a policy that accepts everything, a data packet of a known peer is delivered, and it is
admissible. -/
theorem data_from_known_peer_admissible :
    deliversLocally sampleParsers sampleSuite (sampleAclNode [1]) (fun _ => true)
        (icmpPacket .data 7) = true ∧
      Admissible sampleParsers sampleSuite (sampleAclNode [1]) (icmpPacket .data 7) true 7 := by
  have hpass : deliversLocally sampleParsers sampleSuite (sampleAclNode [1]) (fun _ => true)
      (icmpPacket .data 7) = true := by decide +kernel
  have hjudge : Judgeable sampleParsers (sampleAclNode [1]) (samplePool [1]) sampleContext
      (icmpPacket .data 7) 7 := ⟨by decide +kernel, by decide +kernel, by decide +kernel⟩
  exact ⟨hpass, ((trustAcl_failClosed_iff sampleParsers sampleSuite (sampleAclNode [1])
    (samplePool [1]) sampleContext rfl rfl).1 (fun _ => true) (icmpPacket .data 7)
    (by decide)).2 (.inr ⟨hjudge, .inl rfl⟩) hpass⟩

/-- **The gate stands open under a policy that drops everything**, for KCP data and for a peer
without an identity. -/
theorem kcp_and_stranger_delivered :
    trafficKind PacketType.kcpSrc.toByte = .data ∧
      deliversLocally sampleParsers sampleSuite (sampleAclNode [2]) (fun _ => true)
        (icmpPacket .kcpSrc 7) = true ∧
      deliversLocally sampleParsers sampleSuite (sampleAclNode [2]) (fun _ => true)
        (icmpPacket .data 8) = true ∧
      ¬ Admissible sampleParsers sampleSuite (sampleAclNode [2]) (icmpPacket .kcpSrc 7) true 7 ∧
      ¬ Admissible sampleParsers sampleSuite (sampleAclNode [2]) (icmpPacket .data 8) true 8 := by
  refine ⟨by decide, by decide +kernel, by decide +kernel, ?_, ?_⟩
  · intro hadm
    -- admissibility does not look at the packet type, and as plain data the packet is dropped
    have hdata : Admissible sampleParsers sampleSuite (sampleAclNode [2]) (icmpPacket .data 7) true
        7 := hadm
    have hjudge : Judgeable sampleParsers (sampleAclNode [2]) (samplePool [2]) sampleContext
        (icmpPacket .data 7) 7 := hdata.judgeable rfl rfl
    have hpass := (process_iff_admissible rfl rfl rfl hjudge).2 hdata
    revert hpass
    decide +kernel
  · intro hadm
    obtain ⟨-, hknown, -⟩ : Judgeable sampleParsers (sampleAclNode [2]) (samplePool [2])
        sampleContext (icmpPacket .data 8) 8 := hadm.judgeable rfl rfl
    revert hknown
    decide +kernel

end PactMesh
