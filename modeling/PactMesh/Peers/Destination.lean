import PactMesh.Peers.AddressMap

/-!
# Where a packet for an address goes

A packet goes to the peer that has its destination, to the peer with a network around it, or to an
exit node; a broadcast goes to all peers.  The test for a broadcast asks whether the destination is
the last address of *its* network of the length of the node's own, wherever that network is.

Main result: `unicast_iff`.
-/

namespace PactMesh

def Ipv4.isBroadcast (addr : BitVec 32) : Bool := addr == 0xffffffff#32

/-- `Ipv4Addr::is_multicast` : the addresses from 224.0.0.0 to 239.255.255.255 -/
def Ipv4.isMulticast (addr : BitVec 32) : Bool := addr >>> 28 == 0xe#32

/-- What a route of the peer map offers: its table, and the peers of `list_routes`. -/
structure RouteView where
  table : AddressTable
  listRoutes : List PeerId

structure DestinationManager where
  myPeerId : PeerId
  ctx : GlobalCtx
  routes : List RouteView
  exitNodes : List IpAddr
  /-- in which order the map made by `list_routes` is visited -/
  order : VisitOrder PeerId

namespace DestinationManager

variable (m : DestinationManager)

/-- `PeerMap::list_routes`, the keys of its result -/
def listRoutes : List PeerId := m.order.visit (m.routes.flatMap (·.listRoutes)).dedup

/-- `PeerMap::get_peer_id_by_ipv4` -/
def getPeerIdByIpv4 (addr : BitVec 32) : Option PeerId :=
  m.routes.findSome? fun route => route.table.getPeerIdByIpv4 m.ctx addr

/-- 24 for a node without an address -/
def networkLength : ℕ := (m.ctx.getIpv4.map (·.length)).getD 24

theorem networkLength_le : m.networkLength ≤ 32 := by
  rw [networkLength]
  cases m.ctx.getIpv4 with
  | none => decide
  | some inet => exact inet.length_le

def isAllPeersBroadcastIpv4 (addr : BitVec 32) : Bool :=
  let ipv4Inet : Ipv4Inet := ⟨addr, m.networkLength, m.networkLength_le⟩
  Ipv4.isBroadcast addr || Ipv4.isMulticast addr || addr == ipv4Inet.lastAddress

def exitPeer : Option PeerId :=
  m.exitNodes.findSome? fun
    | .v4 exitNode => m.getPeerIdByIpv4 exitNode
    | .v6 _ => none

/-- `get_msg_dst_peer_ipv4` : the peers, and whether they are used as exit nodes -/
def getMsgDstPeerIpv4 (addr : BitVec 32) : List PeerId × Bool :=
  if m.isAllPeersBroadcastIpv4 addr then (m.listRoutes.filter (· ≠ m.myPeerId), false)
  else
    match m.getPeerIdByIpv4 addr with
    | some peerId => ([peerId], false)
    | none =>
      if m.ctx.isIpInSameNetwork addr then ([], false)
      else
        match m.exitPeer with
        | some peerId => ([peerId], true)
        | none => ([], false)

/-! ### What counts as a broadcast -/

variable {m} {addr : BitVec 32}

theorem isAllPeersBroadcastIpv4_iff : m.isAllPeersBroadcastIpv4 addr = true ↔
    Ipv4.isBroadcast addr = true ∨ Ipv4.isMulticast addr = true ∨
      addr = addr ||| ~~~ networkMask 32 m.networkLength := by
  rw [isAllPeersBroadcastIpv4, Bool.or_eq_true, Bool.or_eq_true, beq_iff_eq, or_assoc]
  rfl

/-! ### Packets for one address -/

def Owns (m : DestinationManager) (peerId : PeerId) (addr : BitVec 32) : Prop :=
  ∃ route ∈ m.routes, (∃ v, route.table.ipv4PeerIdMap.get addr = some v ∧ v.peerId = peerId) ∨
    route.table.getPeerIdForProxy (.v4 addr) = some peerId

def IsExitNode (m : DestinationManager) (peerId : PeerId) : Prop :=
  ∃ exitNode, .v4 exitNode ∈ m.exitNodes ∧ m.Owns peerId exitNode

def Unicast (m : DestinationManager) (addr : BitVec 32) (peers : List PeerId) : Prop :=
  peers.length ≤ 1 ∧ ∀ peerId ∈ peers, m.Owns peerId addr ∨ m.IsExitNode peerId

variable {peerId : PeerId}

theorem owns_of_getPeerIdByIpv4 (h : m.getPeerIdByIpv4 addr = some peerId) :
    m.Owns peerId addr := by
  obtain ⟨route, hroute, hget⟩ := List.exists_of_findSome?_eq_some h
  refine ⟨route, hroute, ?_⟩
  rw [AddressTable.getPeerIdByIpv4] at hget
  split at hget
  · next v hv => exact .inl ⟨v, hv, Option.some.inj hget⟩
  · split_ifs at hget
    exact .inr hget

theorem isExitNode_of_exitPeer (h : m.exitPeer = some peerId) :
    m.IsExitNode peerId := by
  obtain ⟨exitNode, hmem, hget⟩ := List.exists_of_findSome?_eq_some h
  cases exitNode with
  | v4 exitNode => exact ⟨exitNode, hmem, owns_of_getPeerIdByIpv4 hget⟩
  | v6 _ => cases hget

theorem unicast_nil : m.Unicast addr [] := ⟨Nat.zero_le 1, by simp⟩

theorem unicast_singleton (h : m.Owns peerId addr ∨ m.IsExitNode peerId) :
    m.Unicast addr [peerId] := by
  refine ⟨le_rfl, fun p hp => ?_⟩
  rw [List.mem_singleton] at hp
  exact hp ▸ h

theorem unicast_of_not_broadcast (h : m.isAllPeersBroadcastIpv4 addr = false) :
    m.Unicast addr (m.getMsgDstPeerIpv4 addr).1 := by
  rw [getMsgDstPeerIpv4, h, if_neg Bool.false_ne_true]
  cases hget : m.getPeerIdByIpv4 addr with
  | some peerId => exact unicast_singleton (.inl (owns_of_getPeerIdByIpv4 hget))
  | none =>
    dsimp only
    split_ifs
    · exact unicast_nil
    · cases hexit : m.exitPeer with
      | some peerId => exact unicast_singleton (.inr (isExitNode_of_exitPeer hexit))
      | none => exact unicast_nil

/-- The destination is no broadcast: not 255.255.255.255, not multicast, and not the last address of
the node's own network. -/
structure IsUnicastAddress (m : DestinationManager) (addr : BitVec 32) : Prop where
  notBroadcast : Ipv4.isBroadcast addr = false
  notMulticast : Ipv4.isMulticast addr = false
  notDirected : ∀ inet, m.ctx.getIpv4 = some inet → addr ≠ inet.lastAddress

end DestinationManager

open DestinationManager

/-- **When a packet that is no broadcast goes to one peer at most**: its destination has a zero
behind a network part of the node's length, or there is no other peer than one that owns it. -/
theorem unicast_iff (m : DestinationManager) (addr : BitVec 32) (h : m.IsUnicastAddress addr) :
    m.Unicast addr (m.getMsgDstPeerIpv4 addr).1 ↔
      addr ≠ addr ||| ~~~ networkMask 32 m.networkLength ∨
        m.Unicast addr (m.listRoutes.filter (· ≠ m.myPeerId)) := by
  cases hall : m.isAllPeersBroadcastIpv4 addr with
  | false =>
    refine iff_of_true (unicast_of_not_broadcast hall) (.inl fun hlast => ?_)
    rw [isAllPeersBroadcastIpv4_iff.2 (.inr (.inr hlast))] at hall
    cases hall
  | true =>
    have hlast : addr = addr ||| ~~~ networkMask 32 m.networkLength := by
      obtain hbroadcast | hmulticast | hlast := isAllPeersBroadcastIpv4_iff.1 hall
      · rw [h.notBroadcast] at hbroadcast
        cases hbroadcast
      · rw [h.notMulticast] at hmulticast
        cases hmulticast
      · exact hlast
    rw [getMsgDstPeerIpv4, if_pos hall]
    exact ⟨.inr, fun hor => hor.resolve_left (absurd hlast)⟩

def broadcaster : DestinationManager where
  myPeerId := 1
  ctx := { plainCtx with ipv4 := some ⟨0x0a900001#32, 24, Ipv4Inet.slash24_le⟩ }
  routes := [⟨.new, [7, 9]⟩]
  exitNodes := []
  order := .asIs

theorem isUnicastAddress_broadcaster {addr : BitVec 32} (hbroadcast : Ipv4.isBroadcast addr = false)
    (hmulticast : Ipv4.isMulticast addr = false) (hdirected : addr ≠ 0x0a9000ff#32) :
    broadcaster.IsUnicastAddress addr := by
  refine ⟨hbroadcast, hmulticast, ?_⟩
  rintro _ ⟨⟩
  exact hdirected

/-- A packet for 8.8.8.8 goes nowhere, as nobody owns the address. -/
theorem remote_host_unicast : broadcaster.IsUnicastAddress 0x08080808 ∧
    broadcaster.Unicast 0x08080808 (broadcaster.getMsgDstPeerIpv4 0x08080808).1 := by
  have haddr : broadcaster.IsUnicastAddress 0x08080808 :=
    isUnicastAddress_broadcaster rfl rfl (by decide)
  exact ⟨haddr, (unicast_iff _ _ haddr).2 (.inl (by decide +kernel))⟩

/-- **A packet for 8.8.8.255 goes to all peers**: the address is the last one of a network of 24 bits,
like that of the node. -/
theorem remote_address_fanned_out : broadcaster.IsUnicastAddress 0x080808ff ∧
    broadcaster.getMsgDstPeerIpv4 0x080808ff = ([7, 9], false) ∧
    ¬ broadcaster.Unicast 0x080808ff (broadcaster.getMsgDstPeerIpv4 0x080808ff).1 := by
  refine ⟨isUnicastAddress_broadcaster rfl rfl (by decide), by decide +kernel, fun h => ?_⟩
  exact absurd h.1 (by decide +kernel)

end PactMesh
