import PactMesh.Peers.TrustAcl
import PactMesh.Trust.PoolApply
import PactMesh.Trust.Validate

/-!
# What the trust ACL enforces

A subnet selector looks at the source address, which the sender writes, and at the subnets that anyone
advertises.  The pool takes any signed state, and the gate any policy that decodes;
`validateForReceiving` is not called on the way.

Main results: `spoofing_gains_nothing_iff`, `enforced_policy_valid_iff`.
-/

namespace PactMesh

open List

def inboundSrc (identities : IdentityTable) (own remote : TrustAclPeerIdentity) (tags : TagsMap) :
    PeerMatchContext := ⟨remote.deviceFingerprint, tags, proxyCidrsForTrustAcl identities own⟩

def ForeignSubnets (rule : AclRule) (remote : TrustAclPeerIdentity) : Prop :=
  ∀ sel ∈ rule.src, ∃ cidr, sel = .subnet cidr ∧ cidr ∉ remote.proxyCidrs

theorem advertised_proxyCidrsForTrustAcl_iff {identities : IdentityTable}
    {own : TrustAclPeerIdentity} {cidr : Cidr} :
    Advertised (proxyCidrsForTrustAcl identities own) cidr ↔ cidr ∈ own.proxyCidrs ∨
        ∃ peerId identity, identities.lookup peerId = some identity ∧ cidr ∈ identity.proxyCidrs := by
  unfold Advertised proxyCidrsForTrustAcl
  constructor
  · rintro ⟨p, hp, rfl⟩
    rcases mem_append.1 hp with hp | hp
    · obtain ⟨c, hc, rfl⟩ := mem_map.1 hp
      exact .inl hc
    · obtain ⟨⟨peerId, identity⟩, hentry, hp⟩ := mem_flatMap.1 hp
      obtain ⟨c, hc, rfl⟩ := mem_map.1 hp
      exact .inr ⟨peerId, identity, AList.mem_lookup_iff.2 hentry, hc⟩
  · rintro (hown | ⟨peerId, identity, hlookup, hc⟩)
    · exact ⟨_, mem_append_left _ (mem_map_of_mem hown), rfl⟩
    · refine ⟨(identity.deviceFingerprint, cidr), mem_append_right _ ?_, rfl⟩
      exact mem_flatMap.2 ⟨⟨peerId, identity⟩, AList.mem_lookup_iff.1 hlookup, mem_map_of_mem hc⟩

theorem srcMatch_iff {rule : AclRule} {identities : IdentityTable} {own remote : TrustAclPeerIdentity}
    (hforeign : ForeignSubnets rule remote) (tags : TagsMap) (packet : PacketTuple) :
    rule.matchSrc packet (inboundSrc identities own remote tags) = true ↔
      ∃ cidr, .subnet cidr ∈ rule.src ∧ cidrContains cidr packet.srcIp = true ∧
        Advertised (proxyCidrsForTrustAcl identities own) cidr := by
  rw [AclRule.matchSrc, any_eq_true]
  unfold PeerMatchContext.meets
  constructor
  · rintro ⟨sel, hsel, hmatch⟩
    obtain ⟨cidr, rfl, -⟩ := hforeign sel hsel
    simp only [selectorMatch, Bool.and_eq_true] at hmatch
    exact ⟨cidr, hsel, hmatch.1, (any_eq_advertised _ _).1 hmatch.2⟩
  · rintro ⟨cidr, hsel, hcontains, hadv⟩
    refine ⟨_, hsel, ?_⟩
    simp only [selectorMatch, Bool.and_eq_true]
    exact ⟨hcontains, (any_eq_advertised _ _).2 hadv⟩

/-- **When a member gains nothing by writing another source address**: a rule for subnets that it
does not advertise never matches its packets just if nobody else advertises a subnet of the rule. -/
theorem spoofing_gains_nothing_iff (identities : IdentityTable) (own remote : TrustAclPeerIdentity)
    (peerId : PeerId) (policy : AclPolicy) (rule : AclRule) (packet : PacketTuple)
    (hremote : identities.lookup peerId = some remote) (hforeign : ForeignSubnets rule remote) :
    (∀ srcIp, rule.matchSrc { packet with srcIp := srcIp }
        (inboundSrc identities own remote policy.tags) = false) ↔
      ∀ cidr, .subnet cidr ∈ rule.src → cidr.Valid → cidr ∉ own.proxyCidrs ∧
        ∀ other identity, other ≠ peerId → identities.lookup other = some identity →
          cidr ∉ identity.proxyCidrs := by
  constructor
  · intro hnever cidr hsel hvalid
    -- the address the subnet is written with lies in it
    have hmatch : ¬ Advertised (proxyCidrsForTrustAcl identities own) cidr := by
      intro hadv
      have hm := (srcMatch_iff hforeign policy.tags { packet with srcIp := cidr.addr }).2
        ⟨cidr, hsel, cidrContains_addr hvalid, hadv⟩
      rw [hnever] at hm
      cases hm
    rw [advertised_proxyCidrsForTrustAcl_iff, not_or] at hmatch
    refine ⟨hmatch.1, fun other identity _ hother hmem => ?_⟩
    exact hmatch.2 ⟨other, identity, hother, hmem⟩
  · intro hnone srcIp
    rw [Bool.eq_false_iff]
    intro hm
    obtain ⟨cidr, hsel, hcontains, hadv⟩ := (srcMatch_iff hforeign policy.tags _).1 hm
    have hvalid : cidr.Valid := by
      by_contra hbad
      rw [cidrContains_of_not_valid hbad] at hcontains
      cases hcontains
    obtain ⟨hown, hothers⟩ := hnone cidr hsel hvalid
    rcases advertised_proxyCidrsForTrustAcl_iff.1 hadv with hmem | ⟨other, identity, hlookup, hmem⟩
    · exact hown hmem
    · by_cases hne : other = peerId
      · subst hne
        obtain rfl : identity = remote := Option.some.inj (hlookup.symm.trans hremote)
        obtain ⟨cidr', hcidr, hnot⟩ := hforeign _ hsel
        cases hcidr
        exact hnot hmem
      · exact hothers other identity hne hlookup hmem

def tenNet : Cidr := ⟨.v4 0x0a000000, 8⟩

def tenNetRule : AclRule := ⟨.accept, [.subnet tenNet], [.wildcard], .wildcard, none⟩

def tenNetPolicy : AclPolicy where
  tags := ∅
  rules := [tenNetRule]
  defaultAction := .drop
  schemaVersion := 1

def sourceParsers : PacketParsers where
  ipv4 bytes := if bytes.length < 20 then none
    else some ⟨bytes.getD 0 0 >>> 4, bytes.getD 9 0,
      .ofNat 32 (Endian.beNat ((bytes.drop 12).take 4)), 0, bytes.drop 20⟩
  ipv6 _ := none
  tcp _ := none
  udp _ := none

/-- The suite in which every policy is `tenNetPolicy`. -/
def tenNetSuite : TrustSuite := { sampleSuite with policyFromCbor := fun _ => some tenNetPolicy }

def memberIdentity (key : UInt8) (subnets : List IpNet) : TrustAclPeerIdentity :=
  identityOf tenNetSuite (sampleCert (all32 key)) ⟨true, true, subnets, false⟩

def twoMemberNode (subnets : List IpNet) : TrustAclNode where
  trustContext := some sampleContext
  trustPool := some (samplePool [1])
  identities := AList.insert 7 (memberIdentity 4 []) (AList.insert 8 (memberIdentity 5 subnets) ∅)
  now := 5

def packetFrom (source : List UInt8) : Packet :=
  { icmpPacket .data 7 with payload := [0x45, 0, 0, 0, 0, 0, 0, 0, 0, 1, 0, 0] ++ source ++ [0, 0, 0, 0] }

theorem foreignSubnets_tenNetRule : ForeignSubnets tenNetRule (memberIdentity 4 []) := by
  intro sel hsel
  obtain rfl := mem_singleton.1 hsel
  exact ⟨tenNet, rfl, not_mem_nil⟩

/-- **A member passes with the address of another member's subnet**, and not with another one. -/
theorem spoofed_source_accepted :
    (twoMemberNode [⟨.v4 0x0a000000, 8, by decide⟩]).identities.lookup 7 =
        some (memberIdentity 4 []) ∧ ForeignSubnets tenNetRule (memberIdentity 4 []) ∧
      deliversLocally sourceParsers tenNetSuite (twoMemberNode [⟨.v4 0x0a000000, 8, by decide⟩])
        (fun _ => true) (packetFrom [10, 0, 0, 1]) = true ∧
      deliversLocally sourceParsers tenNetSuite (twoMemberNode [⟨.v4 0x0a000000, 8, by decide⟩])
        (fun _ => true) (packetFrom [192, 168, 0, 7]) = false :=
  ⟨rfl, foreignSubnets_tenNetRule, by decide +kernel, by decide +kernel⟩

/-- Where nobody advertises the subnet, no source address helps. -/
theorem unadvertised_subnet_not_matched :
    (twoMemberNode []).identities.lookup 7 = some (memberIdentity 4 []) ∧
      ∀ srcIp, tenNetRule.matchSrc ⟨srcIp, .v4 0, 1, 0, 0⟩ (inboundSrc
        (twoMemberNode []).identities (memberIdentity 3 []) (memberIdentity 4 [])
        tenNetPolicy.tags) = false := by
  refine ⟨rfl, (spoofing_gains_nothing_iff _ _ _ 7 tenNetPolicy tenNetRule ⟨.v4 0, .v4 0, 1, 0, 0⟩
    rfl foreignSubnets_tenNetRule).2 ?_⟩
  intro cidr _ _
  refine ⟨not_mem_nil, fun other identity hne hlookup => ?_⟩
  have hother : (AList.insert 8 (memberIdentity 5 []) ∅ : IdentityTable).lookup other =
      some identity := (AList.lookup_insert_ne hne).symm.trans hlookup
  obtain rfl : other = 8 := by
    by_contra h8
    rw [AList.lookup_insert_ne h8] at hother
    cases hother
  cases hlookup
  exact not_mem_nil

section Policies

variable (N : PacketParsers) (T : TrustSuite)

/-- The packet carries data and can be read, and the peer has an identity that the state neither
revokes nor disables. -/
structure Judged (node : TrustAclNode) (ctx : TrustDomainContext) (packet : Packet)
    (peerId : PeerId) (state : SignedNetworkState) (tuple : PacketTuple)
    (remote : TrustAclPeerIdentity) : Prop where
  isData : packet.hdr.packetType = PacketType.data.toByte
  context : node.trustContext = some ctx
  readable : trustAclPacketTuple N packet = some tuple
  known : node.identities.lookup peerId = some remote
  allowed : peerIdentityAllowedByCurrentTrustState node remote = true
  held : ∃ pool, node.trustPool = some pool ∧
    pool.networkState ctx.trustDomainId ctx.networkLocalId = some state

/-- The gate evaluates `decide` on the policy. -/
def Evaluates (node : TrustAclNode) (packet : Packet) (peerId : PeerId) (policy : AclPolicy) : Prop :=
  ∃ ctx state tuple remote, Judged N node ctx packet peerId state tuple remote ∧
    trustAclPolicyOrFailClosed T state.details.payload.acl = some policy

def ValidForReceiving (policy : AclPolicy) : Prop :=
  validateForReceiving policy aclSchemaVersion = .ok ()

def NoOtherPolicy (acl : List UInt8) : Prop :=
  ∀ policy, acl ≠ [] → T.policyFromCbor acl = some policy → ValidForReceiving policy

variable {N T} {node : TrustAclNode} {ctx : TrustDomainContext} {packet : Packet} {peerId : PeerId}
  {state : SignedNetworkState} {tuple : PacketTuple} {remote : TrustAclPeerIdentity}

theorem trustAclPolicyOrFailClosed_eq_some_iff {acl : List UInt8} {policy : AclPolicy} :
    trustAclPolicyOrFailClosed T acl = some policy ↔
      acl ≠ [] ∧ T.policyFromCbor acl = some policy := by
  cases acl with
  | nil => simp [trustAclPolicyOrFailClosed]
  | cons b bs => simp [trustAclPolicyOrFailClosed]

theorem Judged.process (h : Judged N node ctx packet peerId state tuple remote) (isIn : Bool) :
    processPacketWithTrustAclForPeer N T node packet isIn (some peerId) =
      trustAclVerdict T node ctx state tuple isIn remote := by
  obtain ⟨pool, hpool, hstate⟩ := h.held
  simp only [processPacketWithTrustAclForPeer, h.isData, ne_eq, not_true_eq_false, if_false, hpool,
    h.context, h.readable, Option.bind_some, h.known, h.allowed, Bool.not_true,
    Bool.false_eq_true, hstate]

theorem Judged.state_eq {ctx' : TrustDomainContext} {state' : SignedNetworkState}
    {tuple' : PacketTuple} {remote' : TrustAclPeerIdentity}
    (h : Judged N node ctx packet peerId state tuple remote)
    (h' : Judged N node ctx' packet peerId state' tuple' remote') : state' = state := by
  obtain ⟨pool, hpool, hstate⟩ := h.held
  obtain ⟨pool', hpool', hstate'⟩ := h'.held
  obtain rfl : ctx' = ctx := Option.some.inj (h'.context.symm.trans h.context)
  obtain rfl : pool' = pool := Option.some.inj (hpool'.symm.trans hpool)
  exact Option.some.inj (hstate'.symm.trans hstate)

theorem networkState_of_accepted {T : StateSuite} {pool : TrustDomainPool}
    (h : (pool.applyNetworkState T state).1 = .ok ()) :
    (pool.applyNetworkState T state).2.networkState state.details.trustDomainId
      state.details.networkLocalId = some state := by
  obtain ⟨e, he, -⟩ | ⟨entry, -, -, -, hok⟩ := pool.applyNetworkState_cases T state
  · rw [he] at h
    cases h
  · rw [hok]
    simp [TrustDomainPool.networkState, TrustDomainEntry.insertNetwork]

end Policies

/-- **When only valid policies are enforced**: for a state that the pool has taken and a packet
judged by it, `decide` sees only valid policies and every other policy drops the packet, just if the
state carries no other policy that decodes. -/
theorem enforced_policy_valid_iff (N : PacketParsers) (T : StateSuite) (pool : TrustDomainPool)
    (state : SignedNetworkState) (haccepted : (pool.applyNetworkState T state).1 = .ok ())
    (node : TrustAclNode) (ctx : TrustDomainContext)
    (hpool : node.trustPool = some (pool.applyNetworkState T state).2)
    (hctx : node.trustContext = some ctx) (htd : ctx.trustDomainId = state.details.trustDomainId)
    (hnlid : ctx.networkLocalId = state.details.networkLocalId) (packet : Packet) (isIn : Bool)
    (peerId : PeerId) (tuple : PacketTuple) (remote : TrustAclPeerIdentity)
    (hdata : packet.hdr.packetType = PacketType.data.toByte)
    (htuple : trustAclPacketTuple N packet = some tuple)
    (hremote : node.identities.lookup peerId = some remote)
    (hallowed : peerIdentityAllowedByCurrentTrustState node remote = true) :
    ((∀ policy, Evaluates N T node packet peerId policy → ValidForReceiving policy) ∧
      ((¬ ∃ policy, trustAclPolicyOrFailClosed T state.details.payload.acl =
          some policy ∧ ValidForReceiving policy) →
        processPacketWithTrustAclForPeer N T node packet isIn (some peerId) = false)) ↔
      NoOtherPolicy T state.details.payload.acl := by
  have hstate : (pool.applyNetworkState T state).2.networkState ctx.trustDomainId
      ctx.networkLocalId = some state := by
    rw [htd, hnlid]
    exact networkState_of_accepted haccepted
  have hjudged : Judged N node ctx packet peerId state tuple remote :=
    ⟨hdata, hctx, htuple, hremote, hallowed, _, hpool, hstate⟩
  constructor
  · rintro ⟨hvalid, -⟩ policy hne hdecode
    exact hvalid policy ⟨ctx, state, tuple, remote, hjudged,
      trustAclPolicyOrFailClosed_eq_some_iff.2 ⟨hne, hdecode⟩⟩
  · intro hother
    refine ⟨?_, fun hnone => ?_⟩
    · rintro policy ⟨ctx', state', tuple', remote', hjudged', hpolicy⟩
      rw [hjudged.state_eq hjudged'] at hpolicy
      obtain ⟨hne, hdecode⟩ := trustAclPolicyOrFailClosed_eq_some_iff.1 hpolicy
      exact hother policy hne hdecode
    · rw [hjudged.process, trustAclVerdict]
      cases hpolicy : trustAclPolicyOrFailClosed T state.details.payload.acl with
      | none => rfl
      | some policy =>
        obtain ⟨hne, hdecode⟩ := trustAclPolicyOrFailClosed_eq_some_iff.1 hpolicy
        exact absurd ⟨policy, hpolicy, hother policy hne hdecode⟩ hnone

def twoSchemaSuite : StateSuite where
  toTrustSuite :=
    { sampleSuite with
      policyFromCbor
        | [1] => some ⟨∅, [], .accept, 1⟩
        | [2] => some ⟨∅, [], .accept, 2⟩
        | _ => none }
  marshalStateForSigning _ := []
  marshalMetaForSigning _ := []
  policyToCbor _ := []
  encodeDeviceId _ := ""
  netToString _ := ""

def rootOnlyPool : TrustDomainPool :=
  TrustDomainPool.addRoot twoSchemaSuite ⟨fun _ => none⟩ (all32 9)

def updatedNode (acl : List UInt8) : TrustAclNode :=
  { sampleAclNode [] with
    trustPool := some (rootOnlyPool.applyNetworkState twoSchemaSuite (sampleState acl)).2 }

/-- **A policy of a schema that the node does not know is enforced**: it does not pass
`validateForReceiving`, and the packet is let through by it. -/
theorem newer_schema_enforced :
    (rootOnlyPool.applyNetworkState twoSchemaSuite (sampleState [2])).1 = .ok () ∧
      twoSchemaSuite.policyFromCbor [2] = some ⟨∅, [], .accept, 2⟩ ∧
      ¬ ValidForReceiving ⟨∅, [], .accept, 2⟩ ∧
      processPacketWithTrustAcl sampleParsers twoSchemaSuite (updatedNode [2])
        (icmpPacket .data 7) true = true := by
  have hbad : validateForReceiving ⟨∅, [], .accept, 2⟩ aclSchemaVersion ≠ .ok () := by decide +kernel
  exact ⟨by decide +kernel, rfl, hbad, by decide +kernel⟩

/-- A valid policy is the only one that is evaluated. -/
theorem valid_policy_enforced :
    (rootOnlyPool.applyNetworkState twoSchemaSuite (sampleState [1])).1 = .ok () ∧
      ∀ policy, Evaluates sampleParsers twoSchemaSuite (updatedNode [1])
        (icmpPacket .data 7) 7 policy → ValidForReceiving policy := by
  have haccepted : (rootOnlyPool.applyNetworkState twoSchemaSuite (sampleState [1])).1 = .ok () := by
    decide +kernel
  refine ⟨haccepted, ((enforced_policy_valid_iff sampleParsers twoSchemaSuite rootOnlyPool
    (sampleState [1]) haccepted (updatedNode [1]) sampleContext rfl rfl rfl rfl (icmpPacket .data 7)
    true 7 ⟨.v4 0, .v4 0, 1, 0, 0⟩ _ rfl (by decide +kernel) rfl (by decide +kernel)).2 ?_).1⟩
  rintro policy - hpolicy
  obtain rfl : ⟨∅, [], .accept, 1⟩ = policy := Option.some.inj hpolicy
  exact (by decide +kernel : validateForReceiving ⟨∅, [], .accept, 1⟩ aclSchemaVersion = .ok ())

end PactMesh
