import PactMesh.Peers.GraphAlgo
import PactMesh.Peers.RouteTable

/-!
# Routes with the fewest hops

One search over the announced connections finds the fewest hops, and one the least cost among these
routes.  Connections that leave a peer which wants to avoid relaying count as very many hops.

Main result: `least_hop_optimal`.
-/

namespace PactMesh

open OrderedMap ShortestPath
open List hiding get_of_mem

/-- `AVOID_RELAY_COST`, which is `i32::MAX`; sums of costs are `usize`, taken to have 64 bits, which
no path of `u32` peers fills -/
def avoidRelayCost : ℕ := 2147483647

/-- `RouteCostCalculatorInterface`, with costs from zero up to `i32::MAX` exclusively -/
structure LinkCost where
  calculateCost : PeerId → PeerId → ℕ
  lt_max : ∀ src dst, calculateCost src dst < avoidRelayCost

namespace SyncedRouteInfo

variable (s : SyncedRouteInfo) (cost : LinkCost)

/-- `get_connected_peers`, empty by default -/
def getConnectedPeers (peerId : PeerId) : List PeerId :=
  ((s.connMap.get peerId).map (·.connectedPeers)).getD []

def getAvoidRelayData (peerId : PeerId) : Bool :=
  (((s.peerInfos.get peerId).bind (·.featureFlag)).map (·.avoidRelayData)).getD false

def graphNodes : List PeerId := (s.peerInfos.entries.filter fun e => e.2.version ≠ 0).map Prod.fst

def edgeCost (src dst : PeerId) : ℕ :=
  cost.calculateCost src dst + if s.getAvoidRelayData src then avoidRelayCost else 0

/-- The connections of a peer with a version to peers with a version; the graph yields those first that
were added last. -/
def graphEdges (src : PeerId) : List (PeerId × ℕ) :=
  if s.inGraph src then
    ((s.getConnectedPeers src).filter s.inGraph).reverse.map fun dst => (dst, s.edgeCost cost src dst)
  else []

theorem mem_graphNodes {peerId : PeerId} : peerId ∈ s.graphNodes ↔ s.inGraph peerId = true := by
  rw [graphNodes, inGraph, mem_map]
  constructor
  · rintro ⟨⟨_, info⟩, hmem, rfl⟩
    rw [mem_filter] at hmem
    rw [get_of_mem hmem.1]
    exact hmem.2
  · intro h
    cases hget : s.peerInfos.get peerId with
    | none => simp [hget] at h
    | some info =>
      rw [hget] at h
      exact ⟨(peerId, info), mem_filter.2 ⟨mem_of_get hget, h⟩, rfl⟩

theorem mem_graphEdges {src : PeerId} {e : PeerId × ℕ} :
    e ∈ s.graphEdges cost src ↔ s.inGraph src = true ∧ e.1 ∈ s.getConnectedPeers src ∧
      s.inGraph e.1 = true ∧ e.2 = s.edgeCost cost src e.1 := by
  rw [graphEdges]
  split_ifs with hsrc
  · simp only [mem_map, mem_reverse, mem_filter, hsrc, true_and]
    constructor
    · rintro ⟨dst, ⟨hconn, hdst⟩, rfl⟩
      exact ⟨hconn, hdst, rfl⟩
    · rintro ⟨hconn, hdst, hcost⟩
      exact ⟨e.1, ⟨hconn, hdst⟩, by rw [← hcost]⟩
  · simp [hsrc]

/-- `build_peer_graph_from_synced_info` -/
def peerGraph : Graph PeerId ℕ where
  nodes := s.graphNodes
  edges := s.graphEdges cost
  closed _ _ _ he := s.mem_graphNodes.2 ((s.mem_graphEdges cost).1 he).2.2.1

end SyncedRouteInfo

/-- The `dijkstra` of the graph library, which finds the distances. -/
structure PathSearch where
  dijkstra : Graph PeerId ℕ → PeerId → (PeerId → PeerId × ℕ → ℕ) → OrderedMap PeerId ℕ
  correct : ∀ G start f, start ∈ G.nodes → ∀ v d,
    (dijkstra G start f).get v = some d ↔ IsDist f G.edges start v d

def PathSearch.firstHopSearch (heap : BinaryHeap ℕ PeerId) : PathSearch where
  dijkstra G start f :=
    match dijkstraWithFirstHop f start heap G with
    | .returns (scores, _) => scores
    | .panics _ => .empty
  correct G start f hstart v d := by
    obtain ⟨st, hsearch, hinv, hempty⟩ :=
      dijkstraWithFirstHop_eq f heap hstart fun _ _ _ _ => Nat.zero_le _
    rw [hsearch]
    exact hinv.isDist_iff hempty

def normalizeEdgeCost (_ : PeerId) (e : PeerId × ℕ) : ℕ :=
  if avoidRelayCost ≤ e.2 then avoidRelayCost + 1 else 1

def edgeWeight (_ : PeerId) (e : PeerId × ℕ) : ℕ := e.2

def leastHopSubgraph (search : PathSearch) (G : Graph PeerId ℕ) (start : PeerId) :
    Graph PeerId ℕ where
  nodes := G.nodes
  edges := tight normalizeEdgeCost G.edges (search.dijkstra G start normalizeEdgeCost).get
  closed u hu e he := G.closed u hu e (mem_tight.1 he).1

/-- The paths that `gen_next_hop_map_with_least_cost` enters into the table. -/
def leastCostPaths (heap : BinaryHeap ℕ PeerId) (G : Graph PeerId ℕ) (start : PeerId) :
    Outcome (List FoundPath) := do
  let (costs, nextHops) ← dijkstraWithFirstHop edgeWeight start heap G
  nextHops.entries.mapM fun e => do
    let cost ← Outcome.unwrap (costs.get e.1)
    return ⟨e.1, e.2.1, cost % avoidRelayCost, e.2.2⟩

/-- The paths that `gen_next_hop_map_with_least_hop` enters into the table. -/
def leastHopPaths (search : PathSearch) (heap : BinaryHeap ℕ PeerId) (G : Graph PeerId ℕ)
    (start : PeerId) : Outcome (List FoundPath) :=
  leastCostPaths heap (leastHopSubgraph search G start) start

/-- `build_from_synced_info` with the policy `LeastHop` -/
def RouteTable.buildWithLeastHop (t : RouteTable) (search : PathSearch) (heap : BinaryHeap ℕ PeerId)
    (order : HopOrder) (r : RebuildInput) (cost : LinkCost) :
    Outcome RouteTable := do
  let paths ← if r.synced.inGraph r.myPeerId then
      leastHopPaths search heap (r.synced.peerGraph cost) r.myPeerId
    else .returns []
  return t.buildFromSyncedInfo r paths order

structure FindsPaths (f : PeerId → PeerId × ℕ → ℕ) (edges : PeerId → List (PeerId × ℕ))
    (start : PeerId) (paths : List FoundPath) : Prop where
  shortest : ∀ path ∈ paths, ∃ l, Shortest f edges start path.dst l ∧
    path.nextHop = firstHop start l ∧ path.pathLen = l.length
  complete : ∀ dst l, Walk edges start l dst → ∃ path ∈ paths, path.dst = dst

theorem leastCostPaths_spec (heap : BinaryHeap ℕ PeerId) {G : Graph PeerId ℕ} {start : PeerId}
    (hstart : start ∈ G.nodes) :
    ∃ paths, leastCostPaths heap G start = .returns paths ∧
      FindsPaths edgeWeight G.edges start paths := by
  obtain ⟨st, hsearch, hinv, hempty⟩ :=
    dijkstraWithFirstHop_eq edgeWeight heap hstart fun _ _ _ _ => Nat.zero_le _
  have hpaths := Outcome.mapM_eq_returns (l := st.firstHop.entries)
    (f := fun e => do
      let cost ← Outcome.unwrap (st.scores.get e.1)
      return (⟨e.1, e.2.1, cost % avoidRelayCost, e.2.2⟩ : FoundPath))
    (g := fun e => ⟨e.1, e.2.1, (st.scores.get e.1).getD 0 % avoidRelayCost, e.2.2⟩) fun e he => by
      obtain ⟨d, hd⟩ := hinv.hops e.1 e.2 (get_of_mem he)
      rw [hd]
      rfl
  refine ⟨_, by rw [leastCostPaths, hsearch]; exact hpaths, ?_, ?_⟩
  · intro path hpath
    obtain ⟨e, he, rfl⟩ := mem_map.1 hpath
    have hhop := get_of_mem he
    obtain ⟨d, hd⟩ := hinv.hops e.1 e.2 hhop
    obtain ⟨l, hl, -, hfirst⟩ := hinv.exists_shortest hempty hd
    have heq : e.2 = (firstHop start l, l.length) := Option.some.inj (hhop.symm.trans hfirst)
    exact ⟨l, hl, congrArg Prod.fst heq, congrArg Prod.snd heq⟩
  · intro dst l hwalk
    obtain ⟨l', hl'⟩ := hwalk.exists_shortest (f := edgeWeight)
    obtain ⟨l'', -, -, hfirst⟩ :=
      hinv.exists_shortest hempty ((hinv.isDist_iff hempty).2 ⟨l', hl', rfl⟩)
    exact ⟨_, mem_map.2 ⟨_, mem_of_get hfirst, rfl⟩, rfl⟩

def SyncedRouteInfo.hopMeasure (s : SyncedRouteInfo) (src : PeerId) (_ : PeerId × ℕ) : ℕ :=
  1 + if s.getAvoidRelayData src then avoidRelayCost else 0

namespace SyncedRouteInfo

variable {s : SyncedRouteInfo} {cost : LinkCost} {start dst : PeerId} {path : List (PeerId × ℕ)}

theorem normalizeEdgeCost_eq {src : PeerId} {e : PeerId × ℕ} (he : e ∈ s.graphEdges cost src) :
    normalizeEdgeCost src e = s.hopMeasure src e := by
  obtain ⟨-, -, -, hcost⟩ := (s.mem_graphEdges cost).1 he
  have hlt := cost.lt_max src e.1
  rw [normalizeEdgeCost, hopMeasure, hcost, edgeCost]
  split_ifs with hlarge havoid
  · exact Nat.add_comm _ _
  · omega
  · omega
  · rfl

/-- A route over announced connections that has the fewest hops, and among those with as few the least
cost. -/
structure BestRoute (s : SyncedRouteInfo) (cost : LinkCost) (start dst : PeerId)
    (path : List (PeerId × ℕ)) : Prop where
  route : Walk (s.graphEdges cost) start path dst
  best : ∀ other, Walk (s.graphEdges cost) start other dst →
    ShortestPath.cost s.hopMeasure start path < ShortestPath.cost s.hopMeasure start other ∨
      ShortestPath.cost s.hopMeasure start path = ShortestPath.cost s.hopMeasure start other ∧
        ShortestPath.cost edgeWeight start path ≤ ShortestPath.cost edgeWeight start other

def Reachable (s : SyncedRouteInfo) (cost : LinkCost) (start dst : PeerId) : Prop :=
  s.inGraph start = true ∧ ∃ path, Walk (s.graphEdges cost) start path dst

/-- **The two searches together.** -/
theorem leastHopPaths_spec (search : PathSearch) (heap : BinaryHeap ℕ PeerId) (cost : LinkCost)
    (hstart : s.inGraph start = true) :
    ∃ paths, leastHopPaths search heap (s.peerGraph cost) start = .returns paths ∧
      (∀ path ∈ paths, ∃ route, s.BestRoute cost start path.dst route ∧
        path.nextHop = firstHop start route ∧ path.pathLen = route.length) ∧
      ∀ dst route, Walk (s.graphEdges cost) start route dst → ∃ path ∈ paths, path.dst = dst := by
  have hnode : start ∈ (s.peerGraph cost).nodes := s.mem_graphNodes.2 hstart
  have hdist := search.correct (s.peerGraph cost) start normalizeEdgeCost hnode
  have hzero : (search.dijkstra (s.peerGraph cost) start normalizeEdgeCost).get start = some 0 :=
    (hdist start 0).2 ⟨[], ⟨.nil, fun _ _ => Nat.zero_le _⟩, rfl⟩
  obtain ⟨paths, hpaths, hfound⟩ := leastCostPaths_spec heap
    (G := leastHopSubgraph search (s.peerGraph cost) start) hnode
  refine ⟨paths, hpaths, fun path hpath => ?_, fun dst route hroute => ?_⟩
  · obtain ⟨route, hroute, hfirst, hlen⟩ := hfound.shortest path hpath
    -- shortest by weight among the edges that lie on routes with the fewest hops
    have hwalk := hroute.walk.of_tight
    refine ⟨route, ⟨hwalk, fun other hother => ?_⟩, hfirst, hlen⟩
    have hlex := lex_of_shortest_tight hzero hdist hroute hother
    rwa [hwalk.cost_congr fun _ _ => normalizeEdgeCost_eq,
      hother.cost_congr fun _ _ => normalizeEdgeCost_eq] at hlex
  · obtain ⟨route', hroute'⟩ := (exists_walk_tight_iff hdist).2 ⟨route, hroute⟩
    exact hfound.complete dst route' hroute'

end SyncedRouteInfo

def SyncedRouteInfo.IsBestHop (s : SyncedRouteInfo) (cost : LinkCost) (start dst : PeerId)
    (hop : NextHopInfo) : Prop :=
  ∃ route, s.BestRoute cost start dst route ∧ hop.nextHopPeerId = firstHop start route ∧
    hop.pathLen = route.length

namespace RouteTable

variable {t : RouteTable} {version : Version} {hops : OrderedMap PeerId NextHopInfo}
  {path : FoundPath} {paths : List FoundPath} {dst : PeerId} {hop : NextHopInfo}

variable (version hops path) in
theorem addPath_cases :
    addPath version hops path =
        hops.insert path.dst ⟨path.nextHop, path.latency, path.pathLen, version⟩ ∨
      addPath version hops path = hops ∧ ∃ old, hops.get path.dst = some old ∧
        version ≤ old.version := by
  rw [addPath]
  split
  · exact .inl rfl
  · rename_i old hold
    split_ifs with hlt
    · exact .inl rfl
    · exact .inr ⟨rfl, old, hold, UInt32.not_lt.1 hlt⟩

theorem get_addPath_cases (h : (addPath version hops path).get dst = some hop) :
    hops.get dst = some hop ∨
      dst = path.dst ∧ hop = ⟨path.nextHop, path.latency, path.pathLen, version⟩ := by
  obtain heq | ⟨heq, -⟩ := addPath_cases version hops path
  · rw [heq, get_insert] at h
    split_ifs at h with hdst
    · cases h
      exact .inr ⟨hdst, rfl⟩
    · exact .inl h
  · exact .inl (heq ▸ h)

theorem get_foldl_addPath_cases (h : (paths.foldl (addPath version) hops).get dst = some hop) :
    hops.get dst = some hop ∨ ∃ path ∈ paths,
      dst = path.dst ∧ hop = ⟨path.nextHop, path.latency, path.pathLen, version⟩ :=
  foldl_origin (P := fun hops : OrderedMap PeerId NextHopInfo => hops.get dst = some hop)
    h fun _ _ => get_addPath_cases

theorem exists_get_addPath
    (h : (∃ hop, hops.get dst = some hop ∧ version ≤ hop.version) ∨ dst = path.dst) :
    ∃ hop, (addPath version hops path).get dst = some hop ∧ version ≤ hop.version := by
  obtain heq | ⟨heq, hold⟩ := addPath_cases version hops path
  · rw [heq, get_insert]
    split_ifs with hdst
    · exact ⟨_, rfl, UInt32.le_refl _⟩
    · exact h.resolve_right hdst
  · rw [heq]
    rcases h with hkept | rfl
    · exact hkept
    · exact hold

/-- **What a rebuild does**: the entries it adds lie on best routes, and every peer that can be reached
has an entry of the new version. -/
theorem buildWithLeastHop_spec (search : PathSearch) (heap : BinaryHeap ℕ PeerId)
    (order : HopOrder) (r : RebuildInput) (cost : LinkCost)
    (h : t.nextHopMapVersion ≤ r.synced.version) :
    ∃ t', t.buildWithLeastHop search heap order r cost = .returns t' ∧
      t'.nextHopMapVersion = r.synced.version ∧
      (∀ dst hop, t'.nextHopMap.get dst = some hop → t.nextHopMap.get dst = some hop ∨
        hop.version = r.synced.version ∧ r.synced.inGraph r.myPeerId = true ∧
          r.synced.IsBestHop cost r.myPeerId dst hop) ∧
      ∀ dst, r.synced.Reachable cost r.myPeerId dst →
        ∃ hop, t'.nextHopMap.get dst = some hop ∧ r.synced.version ≤ hop.version := by
  have hversion : (t.setVersionIfLarger r.synced.version).nextHopMapVersion = r.synced.version :=
    if_pos h
  by_cases hme : r.synced.inGraph r.myPeerId = true
  · obtain ⟨paths, hpaths, hbest, hcomplete⟩ :=
      SyncedRouteInfo.leastHopPaths_spec search heap cost hme
    have hbuilt : (t.buildFromSyncedInfo r paths order).nextHopMap =
        paths.foldl (addPath r.synced.version) t.nextHopMap := by
      rw [buildFromSyncedInfo, if_pos hme]
      rfl
    refine ⟨t.buildFromSyncedInfo r paths order, ?_, ?_, fun dst hop hhop => ?_, fun dst hreach => ?_⟩
    · rw [buildWithLeastHop, if_pos hme, hpaths]
      rfl
    · rw [buildFromSyncedInfo, if_pos hme]
      exact hversion
    · rw [hbuilt] at hhop
      refine (get_foldl_addPath_cases hhop).imp_right ?_
      rintro ⟨path, hpath, rfl, rfl⟩
      exact ⟨rfl, hme, hbest path hpath⟩
    · obtain ⟨-, route, hroute⟩ := hreach
      obtain ⟨path, hpath, rfl⟩ := hcomplete dst route hroute
      rw [hbuilt]
      exact foldl_reaches (P := fun hops : OrderedMap PeerId NextHopInfo =>
        ∃ hop, hops.get path.dst = some hop ∧ r.synced.version ≤ hop.version)
        (Q := fun first => path.dst = first.dst) (.inr ⟨path, hpath, rfl⟩) fun _ _ => exists_get_addPath
  · refine ⟨t.buildFromSyncedInfo r [] order, ?_, ?_, fun dst hop hhop => .inl ?_, fun dst hreach =>
      absurd hreach.1 hme⟩
    · rw [buildWithLeastHop, if_neg hme]
      rfl
    · rw [buildFromSyncedInfo, if_neg hme]
      exact hversion
    · rw [buildFromSyncedInfo, if_neg hme] at hhop
      have hmem : (dst, hop) ∈ t.nextHopMap.entries :=
        mem_of_mem_filter (mem_of_get hhop)
      exact get_of_mem hmem

theorem getNextHop_eq_some_iff :
    t.getNextHop dst = some hop ↔
      t.nextHopMap.get dst = some hop ∧ t.nextHopMapVersion ≤ hop.version := by
  rw [getNextHop, Option.filter_eq_some_iff, decide_eq_true_iff]

/-- What a rebuild from `r` may find: older entries, and those of a rebuild from the same
information. -/
structure ReadyFor (t : RouteTable) (r : RebuildInput) (cost : LinkCost) : Prop where
  table : t.nextHopMapVersion ≤ r.synced.version
  entries : ∀ dst hop, t.nextHopMap.get dst = some hop → hop.version < r.synced.version ∨
    r.synced.inGraph r.myPeerId = true ∧ r.synced.IsBestHop cost r.myPeerId dst hop

/-- **Least-hop routing is optimal**: there is a next hop exactly to the peers that can be reached, and
it is the first hop of a best route, whose length is the length of the path.  A rebuild from the same
information may follow. -/
theorem least_hop_optimal (search : PathSearch) (heap : BinaryHeap ℕ PeerId)
    (order : HopOrder) (r : RebuildInput) (cost : LinkCost)
    (h : t.ReadyFor r cost) :
    ∃ t', t.buildWithLeastHop search heap order r cost = .returns t' ∧ t'.ReadyFor r cost ∧ ∀ dst,
      ((t'.getNextHop dst).isSome = true ↔ r.synced.Reachable cost r.myPeerId dst) ∧
      ∀ hop, t'.getNextHop dst = some hop → ∃ route, r.synced.BestRoute cost r.myPeerId dst route ∧
          hop.nextHopPeerId = firstHop r.myPeerId route ∧ hop.pathLen = route.length := by
  obtain ⟨t', hbuild, hversion, hadded, hcomplete⟩ :=
    buildWithLeastHop_spec search heap order r cost h.table
  have hready : t'.ReadyFor r cost := by
    refine ⟨UInt32.le_of_eq hversion, fun dst hop hhop => ?_⟩
    rcases hadded dst hop hhop with hold | ⟨-, hnew⟩
    · exact h.entries dst hop hold
    · exact .inr hnew
  -- an entry that counts is not an older one
  have hbest : ∀ dst hop, t'.getNextHop dst = some hop → r.synced.inGraph r.myPeerId = true ∧
      r.synced.IsBestHop cost r.myPeerId dst hop := by
    intro dst hop hhop
    rw [getNextHop_eq_some_iff, hversion] at hhop
    exact (hready.entries dst hop hhop.1).resolve_left (UInt32.not_lt.2 hhop.2)
  refine ⟨t', hbuild, hready, fun dst => ⟨⟨fun hsome => ?_, fun hreach => ?_⟩, fun hop hhop => ?_⟩⟩
  · obtain ⟨hop, hhop⟩ := Option.isSome_iff_exists.1 hsome
    obtain ⟨hme, route, hroute, -⟩ := hbest dst hop hhop
    exact ⟨hme, route, hroute.route⟩
  · obtain ⟨hop, hget, hle⟩ := hcomplete dst hreach
    exact Option.isSome_iff_exists.2 ⟨hop, getNextHop_eq_some_iff.2 ⟨hget, hversion ▸ hle⟩⟩
  · exact (hbest dst hop hhop).2

theorem readyFor_new (r : RebuildInput) (cost : LinkCost) : new.ReadyFor r cost :=
  ⟨UInt32.zero_le, fun _ _ hhop => by simp [new] at hhop⟩

end RouteTable

def lineInfo : SyncedRouteInfo :=
  { SyncedRouteInfo.empty with
    peerInfos := ((OrderedMap.empty.insert 1 { RoutePeerInfo.new with peerId := 1, version := 1 }).insert
      2 { RoutePeerInfo.new with peerId := 2, version := 1 }).insert
      3 { RoutePeerInfo.new with peerId := 3, version := 1 }
    connMap := ((OrderedMap.empty.insert 1 ⟨[2], 1, 0⟩).insert 2 ⟨[1, 3], 1, 0⟩).insert 3 ⟨[2], 1, 0⟩
    version := 4 }

def lineInput : RebuildInput := ⟨fun _ => none, 1, lineInfo⟩

def LinkCost.uniform : LinkCost := ⟨fun _ _ => 1, fun _ _ => by decide⟩

namespace RouteTable

/-- The table that the peer 1 builds first, and again from the same information. -/
theorem least_hop_optimal_line : ∃ t₁ t₂,
    new.buildWithLeastHop (.firstHopSearch .leftmost) .leftmost .asIs lineInput .uniform =
        .returns t₁ ∧
      t₁.buildWithLeastHop (.firstHopSearch .leftmost) .leftmost .asIs lineInput .uniform =
        .returns t₂ ∧ ∀ dst, ((t₂.getNextHop dst).isSome = true ↔
        lineInput.synced.Reachable .uniform lineInput.myPeerId dst) ∧
      ∀ hop, t₂.getNextHop dst = some hop → ∃ route,
        lineInput.synced.BestRoute .uniform lineInput.myPeerId dst route ∧
          hop.nextHopPeerId = firstHop lineInput.myPeerId route ∧ hop.pathLen = route.length := by
  obtain ⟨t₁, hfirst, hready, -⟩ := least_hop_optimal (.firstHopSearch .leftmost) .leftmost .asIs
    lineInput .uniform (readyFor_new lineInput .uniform)
  obtain ⟨t₂, hsecond, -, hoptimal⟩ := least_hop_optimal (.firstHopSearch .leftmost) .leftmost .asIs
    lineInput .uniform hready
  exact ⟨t₁, t₂, hfirst, hsecond, hoptimal⟩

def sameVersionTable : RouteTable :=
  { new with nextHopMap := OrderedMap.empty.insert 3 ⟨5, 1, 7, 4⟩, nextHopMapVersion := 4 }

/-- Entries of the same version are kept, although no route begins with them. -/
theorem same_version_entry_kept :
    sameVersionTable.nextHopMapVersion ≤ lineInput.synced.version ∧
      ∃ t', sameVersionTable.buildWithLeastHop (.firstHopSearch .leftmost) .leftmost .asIs lineInput
          .uniform = .returns t' ∧ t'.getNextHop 3 = some ⟨5, 1, 7, 4⟩ ∧
        ¬∃ route, lineInput.synced.BestRoute .uniform lineInput.myPeerId 3 route ∧
          5 = firstHop lineInput.myPeerId route := by
  refine ⟨by decide, _, rfl, by decide, ?_⟩
  rintro ⟨route, hroute, hfirst⟩
  cases route with
  | nil => exact absurd hfirst (by decide)
  | cons e rest =>
    obtain ⟨he, -⟩ := walk_cons_iff.1 hroute.route
    obtain ⟨-, hconn, -⟩ := (lineInput.synced.mem_graphEdges .uniform).1 he
    rw [firstHop] at hfirst
    rw [← hfirst] at hconn
    exact absurd hconn (by decide)

end RouteTable

end PactMesh
