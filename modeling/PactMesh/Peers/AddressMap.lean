import PactMesh.Common.GlobalCtx
import PactMesh.Peers.RouteTable

/-!
# Looking up the owner of an address

A route table maps single addresses to the peers that announce them.  A rebuild adds the addresses of
the peers in reach, and only the expiry of a peer takes an address out.

Main result: `addresses_current_iff`.
-/

namespace PactMesh

open OrderedMap RebuildInput List

structure AddressTable extends RouteTable where
  ipv4PeerIdMap : OrderedMap (BitVec 32) PeerIdVersion

def RouteTable.peerReachable (t : RouteTable) (peerId : PeerId) : Bool := (t.getNextHop peerId).isSome

/-- The address of one peer that the node can reach: it leads to the peer if nobody else has it or
the peer is better. -/
def RebuildInput.addAddress (r : RebuildInput) (t : RouteTable)
    (addrs : OrderedMap (BitVec 32) PeerIdVersion) (item : NextHop) :
    OrderedMap (BitVec 32) PeerIdVersion :=
  if item.2.version < r.synced.version then addrs
  else
    match (r.synced.peerInfos.get item.1).bind (·.ipv4Addr) with
    | none => addrs
    | some addr =>
      match addrs.get addr with
      | none => addrs.insert addr ⟨item.1, r.synced.version⟩
      | some old =>
        if t.isNewPeerBetter ⟨item.1, r.synced.version⟩ item.2 old then
          addrs.insert addr ⟨item.1, r.synced.version⟩
        else addrs

namespace AddressTable

/-- `RouteTable::new` -/
def new : AddressTable := { RouteTable.new with ipv4PeerIdMap := .empty }

variable (t : AddressTable)

def cleanExpiredRouteInfo : AddressTable :=
  let table := t.toRouteTable.cleanExpiredRouteInfo
  { table with
    ipv4PeerIdMap := t.ipv4PeerIdMap.filter fun v => table.nextHopMap.contains v.peerId }

/-- `build_from_synced_info`, with the paths that have been found -/
def buildFromSyncedInfo (r : RebuildInput) (paths : List FoundPath)
    (order : HopOrder) : AddressTable :=
  if r.synced.inGraph r.myPeerId then
    let table := t.toRouteTable.buildFromSyncedInfo r paths order
    { table with
      ipv4PeerIdMap :=
        (order.visit table.nextHopMap.entries).foldl (r.addAddress table) t.ipv4PeerIdMap }
  else cleanExpiredRouteInfo { t.toRouteTable.setVersionIfLarger r.synced.version with
    ipv4PeerIdMap := t.ipv4PeerIdMap }

def getPeerIdByIpv4 (ctx : GlobalCtx) (addr : BitVec 32) : Option PeerId :=
  match t.ipv4PeerIdMap.get addr with
  | some v => some v.peerId
  | none => if ctx.isIpInSameNetwork addr then none else t.getPeerIdForProxy (.v4 addr)

end AddressTable

namespace RebuildInput

variable (r : RebuildInput)

def HasAddress (peerId : PeerId) (addr : BitVec 32) : Prop :=
  (r.synced.peerInfos.get peerId).bind (·.ipv4Addr) = some addr

instance (peerId : PeerId) (addr : BitVec 32) : Decidable (r.HasAddress peerId addr) :=
  inferInstanceAs (Decidable (_ = _))

def Proxies (peerId : PeerId) (addr : BitVec 32) : Prop :=
  ∃ info, r.synced.peerInfos.get peerId = some info ∧
    ∃ text ∈ info.proxyCidrs, ∃ cidr, r.parse text = some cidr ∧ cidr.contains (.v4 addr) = true

def SoleOwner (reach : PeerId → Prop) (peerId : PeerId) (addr : BitVec 32) : Prop :=
  reach peerId ∧ r.HasAddress peerId addr ∧
    ∀ other, reach other → r.HasAddress other addr → other = peerId

/-- The peer is in reach and announces the address or a network with it, and if one peer alone has
the address it is this one. -/
def Justified (reach : PeerId → Prop) (peerId : PeerId) (addr : BitVec 32) : Prop :=
  reach peerId ∧ (r.HasAddress peerId addr ∨ r.Proxies peerId addr) ∧
    ∀ owner, r.SoleOwner reach owner addr → peerId = owner

end RebuildInput

def AddressTable.Current (t : AddressTable) (ctx : GlobalCtx) (r : RebuildInput) : Prop :=
  ∀ addr peerId, t.getPeerIdByIpv4 ctx addr = some peerId →
    r.Justified (t.peerReachable · = true) peerId addr

section Entries

variable {r : RebuildInput} {t : RouteTable} {addrs : OrderedMap (BitVec 32) PeerIdVersion}
  {addr : BitVec 32} {v : PeerIdVersion} {items : List NextHop}

def RebuildInput.Offers (r : RebuildInput) (addr : BitVec 32) (item : NextHop) : Prop :=
  ¬ item.2.version < r.synced.version ∧ r.HasAddress item.1 addr

/-- The peer of an item takes the address over from `old`. -/
abbrev RebuildInput.Beats (r : RebuildInput) (t : RouteTable) (old : PeerIdVersion)
    (item : NextHop) : Prop :=
  t.isNewPeerBetter ⟨item.1, r.synced.version⟩ item.2 old = true

/-- **One item**: it takes the address if it offers it and beats the entry there is. -/
theorem RebuildInput.get_addAddress (r : RebuildInput) (t : RouteTable)
    (addrs : OrderedMap (BitVec 32) PeerIdVersion) (addr : BitVec 32) (item : NextHop) :
    (r.Offers addr item ∧ (∀ old, addrs.get addr = some old → r.Beats t old item) ∧
      (r.addAddress t addrs item).get addr = some ⟨item.1, r.synced.version⟩) ∨
    (r.Offers addr item → ∃ old, addrs.get addr = some old ∧ ¬ r.Beats t old item) ∧
      (r.addAddress t addrs item).get addr = addrs.get addr := by
  unfold addAddress Offers HasAddress
  split_ifs with hversion
  · exact .inr ⟨fun h => absurd hversion h.1, rfl⟩
  cases (r.synced.peerInfos.get item.1).bind (·.ipv4Addr) with
  | none => exact .inr ⟨nofun, rfl⟩
  | some addr' =>
    dsimp only
    by_cases heq : addr' = addr
    · subst heq
      cases hold : addrs.get addr' with
      | none => exact .inl ⟨⟨hversion, rfl⟩, nofun, get_insert_self⟩
      | some old =>
        dsimp only
        split_ifs with hbeats
        · exact .inl ⟨⟨hversion, rfl⟩, fun _ h => Option.some.inj h ▸ hbeats, get_insert_self⟩
        · exact .inr ⟨fun _ => ⟨old, rfl, hbeats⟩, hold⟩
    · refine .inr ⟨fun h => absurd (Option.some.inj h.2) heq, ?_⟩
      cases addrs.get addr' with
      | none => exact get_insert_of_ne (Ne.symm heq)
      | some old =>
        dsimp only
        split_ifs
        · exact get_insert_of_ne (Ne.symm heq)
        · rfl

theorem RebuildInput.get_foldl_addAddress
    (h : (items.foldl (r.addAddress t) addrs).get addr = some v) :
    addrs.get addr = some v ∨
      ∃ item ∈ items, r.Offers addr item ∧ v = ⟨item.1, r.synced.version⟩ := by
  refine foldl_origin (P := fun addrs : OrderedMap (BitVec 32) PeerIdVersion =>
    addrs.get addr = some v) h fun addrs item hget => ?_
  obtain ⟨hoffers, -, hnew⟩ | ⟨-, hkept⟩ := r.get_addAddress t addrs addr item
  · exact .inr ⟨hoffers, Option.some.inj (hget.symm.trans hnew)⟩
  · exact .inl (hkept.symm.trans hget)

theorem RebuildInput.get_foldl_addAddress_of_not_better (hold : addrs.get addr = some v)
    (h : ∀ item ∈ items, r.Offers addr item → ¬ r.Beats t v item) :
    (items.foldl (r.addAddress t) addrs).get addr = some v := by
  refine foldlRecOn (motive := fun addrs => OrderedMap.get addrs addr = some v) items _ hold
    fun addrs hget item hmem => ?_
  obtain ⟨hoffers, hbeats, -⟩ | ⟨-, hkept⟩ := r.get_addAddress t addrs addr item
  · exact absurd (hbeats v hget) (h item hmem hoffers)
  · exact hkept.trans hget

theorem RebuildInput.exists_get_foldl_addAddress (t : RouteTable)
    (items : List NextHop)
    (h : (∃ v, addrs.get addr = some v) ∨ ∃ item ∈ items, r.Offers addr item) :
    ∃ v, (items.foldl (r.addAddress t) addrs).get addr = some v := by
  refine foldl_reaches (P := fun addrs : OrderedMap (BitVec 32) PeerIdVersion =>
    ∃ v, addrs.get addr = some v) h fun addrs item h => ?_
  obtain ⟨-, -, hnew⟩ | ⟨hheld, hkept⟩ := r.get_addAddress t addrs addr item
  · exact ⟨_, hnew⟩
  · rw [hkept]
    exact h.elim id fun hoffers => (hheld hoffers).imp fun _ => And.left

theorem RebuildInput.get_foldl_addAddress_of_better (hold : addrs.get addr = some v)
    (h : ∃ item ∈ items, r.Offers addr item ∧ r.Beats t v item) :
    ∃ item ∈ items, r.Offers addr item ∧
      (items.foldl (r.addAddress t) addrs).get addr = some ⟨item.1, r.synced.version⟩ := by
  induction items generalizing addrs with
  | nil => exact absurd h nofun
  | cons item items ih =>
    obtain ⟨hoffers, -, hget⟩ | ⟨hheld, hkept⟩ := r.get_addAddress t addrs addr item
    · -- the entry is replaced here, and from now on its peer is one of those in reach
      obtain ⟨w, hw⟩ := exists_get_foldl_addAddress t items (.inl ⟨_, hget⟩)
      obtain hkept | ⟨item', hmem, hoffers', rfl⟩ := get_foldl_addAddress hw
      · rw [hget] at hkept
        exact ⟨item, mem_cons_self, hoffers, hw.trans hkept.symm⟩
      · exact ⟨item', mem_cons_of_mem _ hmem, hoffers', hw⟩
    · have hlater : ∃ item ∈ items, r.Offers addr item ∧ r.Beats t v item := by
        refine ((exists_mem_cons_iff _ _ _).1 h).resolve_left fun hitem => ?_
        obtain ⟨old, hget, hnot⟩ := hheld hitem.1
        exact hnot (Option.some.inj (hold.symm.trans hget) ▸ hitem.2)
      obtain ⟨item', hmem, hrest⟩ := ih (hkept.trans hold) hlater
      exact ⟨item', mem_cons_of_mem _ hmem, hrest⟩

end Entries

namespace AddressTable

variable {t : AddressTable} {ctx : GlobalCtx} {r : RebuildInput} {paths : List FoundPath}
  {order : HopOrder}

def nextHops (t : AddressTable) (r : RebuildInput) (paths : List FoundPath) : RouteTable :=
  t.toRouteTable.genNextHopMap r.synced.version paths

/-- Every address of the map is justified by what is announced now, or a peer in reach that has the
address is better. -/
def KeepsCurrent (t : AddressTable) (r : RebuildInput) (paths : List FoundPath) : Prop :=
  ∀ addr v, t.ipv4PeerIdMap.get addr = some v →
    r.Justified ((t.nextHops r paths).peerReachable · = true) v.peerId addr ∨
      ∃ peerId hop, (t.nextHops r paths).getNextHop peerId = some hop ∧ r.HasAddress peerId addr ∧
        (t.nextHops r paths).isNewPeerBetter ⟨peerId, r.synced.version⟩ hop v = true

def Rebuilds (t : AddressTable) (r : RebuildInput) : Prop :=
  r.synced.inGraph r.myPeerId = true ∧ t.nextHopMapVersion ≤ r.synced.version

theorem getNextHop_eq_some_iff {table : RouteTable} {version : Version} {peerId : PeerId}
    {hop : NextHopInfo} (h : table.nextHopMapVersion = version) :
    table.getNextHop peerId = some hop ↔
      (peerId, hop) ∈ order.visit table.nextHopMap.entries ∧ ¬ hop.version < version := by
  rw [RouteTable.getNextHop, Option.filter_eq_some_iff, (order.perm _).mem_iff, h,
    decide_eq_true_eq, UInt32.not_lt]
  exact and_congr_left fun _ => ⟨mem_of_get, get_of_mem⟩

theorem nextHopMapVersion_nextHops (h : t.Rebuilds r) :
    (t.nextHops r paths).nextHopMapVersion = r.synced.version := if_pos h.2

theorem build_eq (h : t.Rebuilds r) :
    t.buildFromSyncedInfo r paths order =
      let table := t.nextHops r paths
      { nextHopMap := table.nextHopMap
        nextHopMapVersion := table.nextHopMapVersion
        cidrPeerIdMap := (order.visit table.nextHopMap.entries).foldl (r.addPeer table) .empty
        ipv4PeerIdMap :=
          (order.visit table.nextHopMap.entries).foldl (r.addAddress table) t.ipv4PeerIdMap } := by
  rw [buildFromSyncedInfo, if_pos h.1, RouteTable.buildFromSyncedInfo, if_pos h.1]
  rfl

theorem justified_of_hasAddress {reach : PeerId → Prop} {peerId : PeerId} {addr : BitVec 32}
    (hreach : reach peerId) (haddr : r.HasAddress peerId addr) : r.Justified reach peerId addr :=
  ⟨hreach, .inl haddr, fun _ howner => howner.2.2 peerId hreach haddr⟩

section Lookups

variable {table : RouteTable} {addrs : OrderedMap (BitVec 32) PeerIdVersion} {addr : BitVec 32}
  {v : PeerIdVersion}

variable (hversion : table.nextHopMapVersion = r.synced.version)
include hversion

theorem peerReachable_of_mem
    {item : NextHop} (hmem : item ∈ order.visit table.nextHopMap.entries)
    (hfresh : ¬ item.2.version < r.synced.version) : table.peerReachable item.1 = true :=
  Option.isSome_iff_exists.2 ⟨item.2, (getNextHop_eq_some_iff hversion).2 ⟨hmem, hfresh⟩⟩

theorem justified_of_address
    (hkeeps : ∀ old, addrs.get addr = some old →
      r.Justified (table.peerReachable · = true) old.peerId addr ∨
        ∃ peerId hop, table.getNextHop peerId = some hop ∧ r.HasAddress peerId addr ∧
          table.isNewPeerBetter ⟨peerId, r.synced.version⟩ hop old = true)
    (hget : ((order.visit table.nextHopMap.entries).foldl (r.addAddress table) addrs).get addr =
      some v) : r.Justified (table.peerReachable · = true) v.peerId addr := by
  have hoffers : ∀ item ∈ order.visit table.nextHopMap.entries, r.Offers addr item →
      r.Justified (table.peerReachable · = true) item.1 addr :=
    fun item hmem hitem => justified_of_hasAddress (peerReachable_of_mem hversion hmem hitem.1) hitem.2
  obtain hold | ⟨item, hmem, hitem, rfl⟩ := get_foldl_addAddress hget
  · obtain hjustified | ⟨p, hop, hnext, haddr, hbetter⟩ := hkeeps v hold
    · exact hjustified
    · obtain ⟨hvisit, hfresh⟩ : (p, hop) ∈ order.visit table.nextHopMap.entries ∧
          ¬ hop.version < r.synced.version := (getNextHop_eq_some_iff hversion).1 hnext
      obtain ⟨item, hmem, hitem, hnow⟩ := get_foldl_addAddress_of_better hold
        ⟨(p, hop), hvisit, ⟨hfresh, haddr⟩, hbetter⟩
      obtain rfl := Option.some.inj (hget.symm.trans hnow)
      exact hoffers item hmem hitem
  · exact hoffers item hmem hitem

theorem justified_of_network {cidr : IpNet}
    (hget : ((order.visit table.nextHopMap.entries).foldl (r.addAddress table) addrs).get addr = none)
    (hentry : ((order.visit table.nextHopMap.entries).foldl (r.addPeer table) .empty).get cidr = some v)
    (hcontains : cidr.contains (.v4 addr) = true) :
    r.Justified (table.peerReachable · = true) v.peerId addr := by
  obtain hempty | ⟨item, hmem, hfresh, rfl, info, hinfo, text, htext, hparse, -⟩ :=
    get_foldl_addPeer hentry
  · cases hempty
  · refine ⟨peerReachable_of_mem hversion hmem hfresh,
      .inr ⟨info, hinfo, text, htext, cidr, hparse, hcontains⟩, ?_⟩
    -- the map of addresses would have an owner of the address
    rintro owner ⟨hreaches, haddr, -⟩
    obtain ⟨hop, hnext⟩ := Option.isSome_iff_exists.1 hreaches
    obtain ⟨hvisit, hnew⟩ : (owner, hop) ∈ order.visit table.nextHopMap.entries ∧
        ¬ hop.version < r.synced.version := (getNextHop_eq_some_iff hversion).1 hnext
    obtain ⟨v, hv⟩ := exists_get_foldl_addAddress table _
      (.inr ⟨(owner, hop), hvisit, hnew, haddr⟩)
    rw [hget] at hv
    cases hv

end Lookups

/-- **When a rebuild leaves only addresses that are announced now.** -/
theorem current_build_iff (h : t.Rebuilds r) :
    (t.buildFromSyncedInfo r paths order).Current ctx r ↔ t.KeepsCurrent r paths := by
  have hversion : (t.nextHops r paths).nextHopMapVersion = r.synced.version :=
    nextHopMapVersion_nextHops h
  rw [build_eq h]
  unfold KeepsCurrent
  generalize t.nextHops r paths = table at hversion
  constructor
  · intro hcurrent addr v hget
    by_cases hbetter : ∃ peerId hop, table.getNextHop peerId = some hop ∧ r.HasAddress peerId addr ∧
        table.isNewPeerBetter ⟨peerId, r.synced.version⟩ hop v = true
    · exact .inr hbetter
    · -- nobody takes the address over, so that it is looked up as before
      refine .inl (hcurrent addr v.peerId ?_)
      have hkept : ((order.visit table.nextHopMap.entries).foldl (r.addAddress table)
          t.ipv4PeerIdMap).get addr = some v :=
        get_foldl_addAddress_of_not_better hget fun item hmem hoffers hbeats =>
          hbetter ⟨item.1, item.2, (getNextHop_eq_some_iff hversion).2 ⟨hmem, hoffers.1⟩, hoffers.2,
            hbeats⟩
      rw [getPeerIdByIpv4, hkept]
  · intro hkeeps addr peerId hlookup
    rw [getPeerIdByIpv4] at hlookup
    dsimp only at hlookup
    cases hget : ((order.visit table.nextHopMap.entries).foldl (r.addAddress table)
        t.ipv4PeerIdMap).get addr with
    | some v =>
      rw [hget] at hlookup
      obtain rfl := Option.some.inj hlookup
      exact justified_of_address hversion (hkeeps addr) hget
    | none =>
      rw [hget] at hlookup
      dsimp only at hlookup
      split_ifs at hlookup
      obtain ⟨⟨cidr, v⟩, hmax, rfl⟩ := Option.map_eq_some_iff.1 hlookup
      obtain ⟨hentry, hcontains⟩ := mem_filter.1 (argmax_mem hmax)
      exact justified_of_network hversion hget (get_of_mem hentry) hcontains

end AddressTable

structure AddressNode where
  ctx : GlobalCtx
  input : RebuildInput
  table : AddressTable

inductive AddressEvent
  /-- announcements arrive, or run out -/
  | hear (synced : SyncedRouteInfo)
  | rebuild (paths : List FoundPath) (order : HopOrder)
  /-- `clean_expired_route_info`, from time to time -/
  | clean
  | configure (ctx : GlobalCtx)

namespace AddressNode

def apply (n : AddressNode) : AddressEvent → AddressNode
  | .hear synced => { n with input := { n.input with synced := synced } }
  | .rebuild paths order => { n with table := n.table.buildFromSyncedInfo n.input paths order }
  | .clean => { n with table := n.table.cleanExpiredRouteInfo }
  | .configure ctx => { n with ctx := ctx }

def Rebuilds (n : AddressNode) : AddressEvent → Prop
  | .rebuild _ _ => n.table.Rebuilds n.input
  | _ => True

def CurrentAfter (n : AddressNode) : AddressEvent → Prop
  | .rebuild paths order => (n.table.buildFromSyncedInfo n.input paths order).Current n.ctx n.input
  | _ => True

def KeepsCurrent (n : AddressNode) : AddressEvent → Prop
  | .rebuild paths _ => n.table.KeepsCurrent n.input paths
  | _ => True

def system : Trans AddressNode AddressEvent := .ofFun apply

end AddressNode

open AddressNode

/-- **Over every run, the lookup is current after each rebuild** exactly if before each rebuild
every address of the map is justified by what is announced, or a peer in reach that has it is
better. -/
theorem addresses_current_iff (n : AddressNode) (events : List AddressEvent)
    (h : system.Along Rebuilds n events) :
    system.Along CurrentAfter n events ↔ system.Along KeepsCurrent n events := by
  refine Trans.along_congr_of h fun n event hevent => ?_
  cases event with
  | rebuild paths order => exact AddressTable.current_build_iff hevent
  | hear | clean | configure => exact Iff.rfl

def plainCtx : GlobalCtx where
  ipv4 := none
  ipv6 := none
  exitNodeIntent := false
  noTun := false
  cachedCertExitNode := none
  runningListeners := []
  protectedTcpPorts := []
  canBind _ := false

def heardAddress (version : Version) (addr : BitVec 32) : SyncedRouteInfo :=
  { SyncedRouteInfo.empty with
    peerInfos := (OrderedMap.empty.insert 1 (RouteService.describe 1 1 8)).insert 7
      { RouteService.describe 7 version 9 with ipv4Addr := some addr }
    version := version }

def deafNode : AddressNode := ⟨plainCtx, ⟨fun _ => none, 1, .empty⟩, .new⟩

def announceAddress (version : Version) (addr : BitVec 32) : List AddressEvent :=
  [.hear (heardAddress version addr), .rebuild [⟨7, 7, 1, 1⟩] .asIs]

theorem rebuilds_announceAddress {n : AddressNode} {version : Version} (addr : BitVec 32)
    (hmy : n.input.myPeerId = 1) (hversion : n.table.nextHopMapVersion ≤ version) :
    system.Along Rebuilds n (announceAddress version addr) := by
  refine ⟨trivial, ?_⟩
  rintro _ rfl
  refine ⟨⟨?_, hversion⟩, fun _ _ => trivial⟩
  change (heardAddress version addr).inGraph n.input.myPeerId = true
  rw [hmy]
  rfl

/-- A first announcement is looked up as it is. -/
theorem first_address_current :
    system.Along Rebuilds deafNode (announceAddress 1 0x0a000007) ∧
      system.Along CurrentAfter deafNode (announceAddress 1 0x0a000007) := by
  have hrebuilds : system.Along Rebuilds deafNode
      (announceAddress 1 0x0a000007) := rebuilds_announceAddress _ rfl (by decide)
  refine ⟨hrebuilds, (addresses_current_iff _ _ hrebuilds).2 ⟨trivial, ?_⟩⟩
  rintro _ rfl
  refine ⟨?_, fun _ _ => trivial⟩
  intro addr v hget
  cases hget

/-- **An address that a peer has given up still leads to it**: peer 7 announces 10.0.0.8 in place of
10.0.0.7, which is still looked up as peer 7. -/
theorem given_up_address_resolved :
    let events := announceAddress 1 0x0a000007 ++ announceAddress 2 0x0a000008
    let n := events.foldl apply deafNode
    n.table.getPeerIdByIpv4 n.ctx 0x0a000007 = some 7 ∧ n.table.peerReachable 7 = true ∧
      n.input.HasAddress 7 0x0a000008 ∧ ¬ n.table.Current n.ctx n.input := by
  refine ⟨by decide +kernel, by decide +kernel, by decide +kernel, fun hcurrent => ?_⟩
  obtain ⟨-, haddr | ⟨info, hinfo, text, htext, -⟩, -⟩ :=
    hcurrent 0x0a000007 7 (by decide +kernel)
  · exact absurd haddr (by decide +kernel)
  · obtain rfl : { RouteService.describe 7 2 9 with ipv4Addr := some 0x0a000008 } = info :=
      Option.some.inj hinfo
    cases htext

end PactMesh
