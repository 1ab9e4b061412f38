import PactMesh.Peers.Identities

/-!
# Relaying through a gateway

If the identity of a gateway is known, its remembered capabilities decide: one flag for packets of
type `Data`, the other for everything else.  User data however travels in several packet types, and
what is remembered is as old as the last refresh.

Main results: `relay_honours_grants_iff`, `grants_honoured_over_run`.
-/

namespace PactMesh

open IdentityManager

inductive NextHopPolicy
  | leastHop
  | leastCost
deriving DecidableEq

def getNextHopPolicy (isFirstLatency : Bool) : NextHopPolicy :=
  if isFirstLatency then .leastCost else .leastHop

/-- Whether the flag `LATENCY_FIRST` is set. -/
def PeerManagerHeader.isLatencyFirst (h : PeerManagerHeader) : Bool := h.hasFlag flagLatencyFirst

/-- What `send_msg_internal` asks of the peer map, the routes and the foreign network client. -/
structure SendRoutes where
  hasPeer : PeerId → Bool
  /-- `foreign_network_client.has_next_hop` -/
  hasNextHop : PeerId → Bool
  getGatewayPeerId : PeerId → NextHopPolicy → Option PeerId
  /-- `has_next_hop`, asked once more after the gateway has been looked up -/
  hasNextHopLater : PeerId → Bool

inductive SendVia
  | directly
  | foreignNetwork
  | relay (gateway : PeerId)
deriving DecidableEq

/-- `Error::RouteError` with its text -/
inductive RouteError
  | none
  | relayDataDenied
  | relayControlDenied
deriving DecidableEq

def TrustAclPeerIdentity.relayFlag (identity : TrustAclPeerIdentity) (packetType : UInt8) : Bool :=
  if packetType = PacketType.data.toByte then identity.canRelayData else identity.canRelayControl

/-- `relay_allowed`: a gateway without an identity may relay everything. -/
def relayAllowed (identities : IdentityTable) (gateway : PeerId) (packetType : UInt8) : Bool :=
  ((identities.lookup gateway).map (·.relayFlag packetType)).getD true

/-- `send_msg_internal` up to the call that sends the packet. -/
def sendMsgInternal (routes : SendRoutes) (identities : IdentityTable) (hdr : PeerManagerHeader)
    (dstPeerId : PeerId) : Except RouteError SendVia :=
  if routes.hasPeer dstPeerId then .ok .directly
  else if routes.hasNextHop dstPeerId then .ok .foreignNetwork
  else
    match routes.getGatewayPeerId dstPeerId (getNextHopPolicy hdr.isLatencyFirst) with
    | some gateway =>
      if !relayAllowed identities gateway hdr.packetType then
        .error (if hdr.packetType = PacketType.data.toByte then .relayDataDenied
          else .relayControlDenied)
      else if routes.hasPeer gateway || routes.hasNextHopLater gateway then .ok (.relay gateway)
      else .error .none
    | none =>
      if routes.hasNextHopLater dstPeerId then .ok .foreignNetwork else .error .none

def GatewayFor (routes : SendRoutes) (hdr : PeerManagerHeader) (dstPeerId gateway : PeerId) : Prop :=
  routes.hasPeer dstPeerId = false ∧ routes.hasNextHop dstPeerId = false ∧
    routes.getGatewayPeerId dstPeerId (getNextHopPolicy hdr.isLatencyFirst) = some gateway ∧
    (routes.hasPeer gateway || routes.hasNextHopLater gateway) = true

theorem relayAllowed_eq_true_iff {identities : IdentityTable} {gateway : PeerId}
    {packetType : UInt8} : relayAllowed identities gateway packetType = true ↔
      ∀ identity, identities.lookup gateway = some identity →
        identity.relayFlag packetType = true := by
  unfold relayAllowed
  cases identities.lookup gateway <;> simp

/-- **When a packet is relayed**: through the gateway, and with the remembered flag for its type. -/
theorem sendMsgInternal_eq_relay_iff {routes : SendRoutes} {identities : IdentityTable}
    {hdr : PeerManagerHeader} {dstPeerId gateway : PeerId} :
    sendMsgInternal routes identities hdr dstPeerId = .ok (.relay gateway) ↔
      GatewayFor routes hdr dstPeerId gateway ∧
        relayAllowed identities gateway hdr.packetType = true := by
  unfold sendMsgInternal GatewayFor
  cases routes.hasPeer dstPeerId with
  | true => simp
  | false =>
    cases routes.hasNextHop dstPeerId with
    | true => simp
    | false =>
      cases routes.getGatewayPeerId dstPeerId (getNextHopPolicy hdr.isLatencyFirst) with
      | none => cases routes.hasNextHopLater dstPeerId <;> simp
      | some g =>
        dsimp only
        by_cases hg : g = gateway
        · subst hg
          generalize (routes.hasPeer g || routes.hasNextHopLater g) = reachable
          cases relayAllowed identities g hdr.packetType <;> cases reachable <;> simp
        · generalize (routes.hasPeer g || routes.hasNextHopLater g) = reachable
          cases relayAllowed identities g hdr.packetType <;> cases reachable <;> simp [hg]

def Capabilities.permits (capabilities : Capabilities) : TrafficKind → Bool
  | .data => capabilities.canRelayData
  | .control => capabilities.canRelayControl

def IdentityManager.grants (m : IdentityManager) (identity : TrustAclPeerIdentity)
    (kind : TrafficKind) : Bool :=
  (m.effectiveCapsFor identity.memberCertFingerprint identity.certCapabilities).permits kind

def HonoursGrants (m : IdentityManager) (routes : SendRoutes) (hdr : PeerManagerHeader)
    (dstPeerId : PeerId) : Prop :=
  ∀ gateway identity, sendMsgInternal routes m.identities hdr dstPeerId = .ok (.relay gateway) →
    m.identities.lookup gateway = some identity →
      m.grants identity (trafficKind hdr.packetType) = true

/-- **When a packet is relayed only with the grant for its traffic kind**: the flag that is tested
must not be set without the grant. -/
theorem relay_honours_grants_iff (m : IdentityManager) (routes : SendRoutes)
    (hdr : PeerManagerHeader) (dstPeerId : PeerId) :
    HonoursGrants m routes hdr dstPeerId ↔
      ∀ gateway identity, GatewayFor routes hdr dstPeerId gateway →
        m.identities.lookup gateway = some identity →
        (if hdr.packetType = PacketType.data.toByte then identity.canRelayData
          else identity.canRelayControl) = true →
        m.grants identity (trafficKind hdr.packetType) = true := by
  constructor
  · intro h gateway identity hgate hlookup hflag
    refine h gateway identity (sendMsgInternal_eq_relay_iff.2 ⟨hgate, ?_⟩) hlookup
    rw [relayAllowed_eq_true_iff]
    intro identity' hlookup'
    rw [Option.some.inj (hlookup'.symm.trans hlookup)]
    exact hflag
  · intro h gateway identity hsent hlookup
    obtain ⟨hgate, hallowed⟩ := sendMsgInternal_eq_relay_iff.1 hsent
    exact h gateway identity hgate hlookup (relayAllowed_eq_true_iff.1 hallowed identity hlookup)

/-! ### What is remembered and what is granted -/

def Fresh (m : IdentityManager) : Prop :=
  ∀ peerId identity, m.identities.lookup peerId = some identity →
    identity.canRelayData = m.grants identity .data ∧
      identity.canRelayControl = m.grants identity .control

inductive GrantEvent
  | connect (conn : PeerConn)
  /-- a state arrives, or the configuration changes, and the hook runs -/
  | update (node : PeerManagerNode)

def GrantEvent.apply (H : HandshakeSuite) (m : IdentityManager) : GrantEvent → IdentityManager
  | .connect conn => (m.addNewPeerConn H conn).2
  | .update node =>
    { m with node := node }.enforceCurrentTrustState.refreshEffectiveTrustCapabilities

def HoldsState (m : IdentityManager) : GrantEvent → Prop
  | .connect _ => True
  | .update node => ({ m with node := node } : IdentityManager).currentState.isSome = true

section Fresh

variable {H : HandshakeSuite} {m : IdentityManager}

theorem IdentityManager.refresh_node : m.refreshEffectiveTrustCapabilities.node = m.node := by
  unfold refreshEffectiveTrustCapabilities
  split <;> rfl

theorem IdentityManager.enforce_node : m.enforceCurrentTrustState.node = m.node := by
  refine List.foldlRecOn (motive := fun m' : IdentityManager => m'.node = m.node) _ _ rfl ?_
  intro m' hm' entry _
  split_ifs
  · exact hm'
  · exact hm'

theorem IdentityManager.currentState_congr {m' : IdentityManager} (h : m'.node = m.node) :
    m'.currentState = m.currentState := by
  rw [currentState, currentState, h]

theorem IdentityManager.grants_congr {m' : IdentityManager} (h : m'.node = m.node) :
    m'.grants = m.grants := by
  funext identity kind
  rw [grants, grants, effectiveCapsFor, effectiveCapsFor, currentState_congr h]

theorem fresh_refresh {state : SignedNetworkState} (h : m.currentState = some state) :
    Fresh m.refreshEffectiveTrustCapabilities := by
  intro peerId identity hlookup
  rw [lookup_refresh h] at hlookup
  obtain ⟨old, -, rfl⟩ := Option.map_eq_some_iff.1 hlookup
  rw [grants_congr refresh_node]
  simp only [grants, effectiveCapsFor, h]
  exact ⟨rfl, rfl⟩

theorem Fresh.connect (hm : Fresh m) (conn : PeerConn) : Fresh (m.addNewPeerConn H conn).2 := by
  obtain ⟨-, e, hout⟩ | ⟨-, cert, -, hout⟩ := m.addNewPeerConn_cases H conn
  · rw [hout]
    exact hm
  · rw [hout]
    intro peerId identity hlookup
    by_cases hp : peerId = conn.getPeerId
    · subst hp
      rw [AList.lookup_insert] at hlookup
      cases hlookup
      exact ⟨rfl, rfl⟩
    · rw [AList.lookup_insert_ne hp] at hlookup
      exact hm peerId identity hlookup

/-- **What is remembered is what the state grants**, as long as the hook follows every change and
a state is held. -/
theorem Fresh.honoursGrants (hm : Fresh m) (routes : SendRoutes) {hdr : PeerManagerHeader}
    (dstPeerId : PeerId) (htype : hdr.packetType = PacketType.data.toByte ∨
      trafficKind hdr.packetType = .control) : HonoursGrants m routes hdr dstPeerId := by
  intro gateway identity hsent hlookup
  obtain ⟨-, hallowed⟩ := sendMsgInternal_eq_relay_iff.1 hsent
  have hflag := relayAllowed_eq_true_iff.1 hallowed identity hlookup
  obtain ⟨hdata, hcontrol⟩ := hm gateway identity hlookup
  rw [TrustAclPeerIdentity.relayFlag] at hflag
  rcases htype with htype | hkind
  · rw [if_pos htype] at hflag
    have hkind : trafficKind hdr.packetType = .data := if_pos (.inl htype)
    rw [hkind, ← hdata, hflag]
  · have htype : hdr.packetType ≠ PacketType.data.toByte := by
      intro htype
      rw [htype] at hkind
      exact absurd hkind (by decide)
    rw [if_neg htype] at hflag
    rw [hkind, ← hcontrol, hflag]

end Fresh

/-- **Every run in which the hook follows each change honours the grants.**  What is remembered is
what the state grants, and so packets whose type tells their traffic kind are relayed with a grant
only. -/
theorem grants_honoured_over_run (H : HandshakeSuite) {node : PeerManagerNode}
    {events : List GrantEvent} {m : IdentityManager}
    (hrun : ((Trans.ofFun (GrantEvent.apply H)).guard HoldsState).Run ⟨node, fun _ => none, ∅⟩ events
      m) :
    Fresh m ∧ ∀ routes hdr dstPeerId,
      hdr.packetType = PacketType.data.toByte ∨ trafficKind hdr.packetType = .control →
        HonoursGrants m routes hdr dstPeerId := by
  have hfresh : Fresh m := by
    refine hrun.invariant (fun _ _ h => by cases h) ?_
    rintro s ev _ hs ⟨hguard, rfl⟩
    cases ev with
    | connect conn => exact hs.connect conn
    | update node =>
      obtain ⟨state, hstate⟩ := Option.isSome_iff_exists.1 hguard
      exact fresh_refresh ((currentState_congr enforce_node).trans hstate)
  exact ⟨hfresh, fun routes _ dstPeerId => hfresh.honoursGrants routes dstPeerId⟩

/-- The node after a state that lets device 4 relay control packets only. -/
def controlOnlyNode : PeerManagerNode := nodeGranting ⟨false, true, [], false⟩

def staleManager : IdentityManager := { managerWith7 with node := controlOnlyNode }

def routesVia7 : SendRoutes where
  hasPeer p := p == 7
  hasNextHop _ := false
  getGatewayPeerId _ _ := some 7
  hasNextHopLater _ := false

def headerOf (packetType : PacketType) : PeerManagerHeader :=
  { (default : PeerManagerHeader) with packetType := packetType.toByte }

/-- Peer 7 connects and relays data, and then a state takes the grant for data back: from then on
only control packets are relayed. -/
theorem relayed_while_granted :
    let m := GrantEvent.apply sampleHandshakeSuite managerWith7 (.update controlOnlyNode)
    sendMsgInternal routesVia7 managerWith7.identities (headerOf .data) 9 = .ok (.relay 7) ∧
      sendMsgInternal routesVia7 m.identities (headerOf .data) 9 = .error .relayDataDenied ∧
      sendMsgInternal routesVia7 m.identities (headerOf .rpcReq) 9 = .ok (.relay 7) ∧
      Fresh m ∧ HonoursGrants m routesVia7 (headerOf .rpcReq) 9 := by
  intro m
  have hrun : ((Trans.ofFun (GrantEvent.apply sampleHandshakeSuite)).guard HoldsState).Run
      sampleIdentityManager [.connect (connAs7 4 1), .update controlOnlyNode] m :=
    .cons ⟨trivial, rfl⟩ (.cons ⟨rfl, rfl⟩ .nil)
  obtain ⟨hfresh, hhonours⟩ := grants_honoured_over_run sampleHandshakeSuite hrun
  exact ⟨by decide +kernel, by decide +kernel, by decide +kernel, hfresh,
    hhonours _ _ _ (.inr (by decide))⟩

/-- **User data is relayed by a peer that may relay control packets only**: in a KCP packet, and in a
data packet as long as the hook has not run. -/
theorem data_relayed_without_grant :
    (staleManager.identities.lookup 7 = some (deviceIdentity 4) ∧
      staleManager.grants (deviceIdentity 4) .data = false ∧
      sendMsgInternal routesVia7 staleManager.identities (headerOf .data) 9 = .ok (.relay 7)) ∧
    staleManager.refreshEffectiveTrustCapabilities.identities.lookup 7 =
        some { deviceIdentity 4 with canRelayData := false } ∧
      staleManager.refreshEffectiveTrustCapabilities.grants
        { deviceIdentity 4 with canRelayData := false } .data = false ∧
      trafficKind (headerOf .kcpSrc).packetType = .data ∧
      sendMsgInternal routesVia7 staleManager.refreshEffectiveTrustCapabilities.identities
        (headerOf .kcpSrc) 9 = .ok (.relay 7) := by
  decide +kernel

end PactMesh
