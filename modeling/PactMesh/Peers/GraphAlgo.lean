import PactMesh.Lib.OrderedMap
import PactMesh.Lib.Outcome
import PactMesh.Lib.ShortestPath
import Mathlib.Algebra.Order.BigOperators.Group.List
import Mathlib.Algebra.Order.Monoid.Canonical.Defs
import Mathlib.Data.List.MinMax

/-!
# Dijkstra's algorithm with first hops

The search notes the cost, the first hop and the length of the best walk found to each vertex.  Which
of several cheapest entries the heap yields first is not specified.

Main result: `first_hops_of_shortest_paths`.
-/

namespace PactMesh

open OrderedMap ShortestPath List

structure Graph (V W : Type) where
  nodes : List V
  /-- the outgoing edges of a node, with their targets and weights -/
  edges : V → List (V × W)
  closed : ∀ u ∈ nodes, ∀ e ∈ edges u, e.1 ∈ nodes

theorem Graph.mem_nodes_of_walk {V W : Type} {G : Graph V W} {s v : V} {l : List (V × W)}
    (hs : s ∈ G.nodes) (h : Walk G.edges s l v) : v ∈ G.nodes := by
  induction h with
  | nil => exact hs
  | snoc _ he ih => exact G.closed _ ih _ he

/-- A `BinaryHeap` of `MinScored` entries: one with the least score comes first. -/
structure BinaryHeap (K V : Type) [LE K] where
  pop : List (K × V) → Option ((K × V) × List (K × V))
  pop_nil : pop [] = none
  pop_cons : ∀ a l, ∃ x rest, pop (a :: l) = some (x, rest) ∧ (a :: l).Perm (x :: rest) ∧
    ∀ y ∈ a :: l, x.1 ≤ y.1

def BinaryHeap.leftmost {K V : Type} [LinearOrder K] [DecidableEq V] : BinaryHeap K V where
  pop l := (l.argmin Prod.fst).map fun x => (x, l.erase x)
  pop_nil := rfl
  pop_cons a l := by
    cases hmin : (a :: l).argmin Prod.fst with
    | none => cases argmin_eq_none.1 hmin
    | some x =>
      exact ⟨x, (a :: l).erase x, rfl, perm_cons_erase (argmin_mem hmin),
        fun y hy => le_of_mem_argmin hy hmin⟩

structure DijkstraState (V K : Type) where
  visited : List V
  scores : OrderedMap V K
  firstHop : OrderedMap V (V × ℕ)
  visitNext : List (K × V)

section Dijkstra

variable {V W K : Type} [DecidableEq V] [AddCommMonoid K] [LinearOrder K]
  (edgeCost : V → V × W → K) (start : V)

namespace DijkstraState

/-- A better way to `next` by the node that is visited. -/
def improve (st : DijkstraState V K) (node next : V) (nextScore : K) :
    Outcome (DijkstraState V K) := do
  let hop ← if node = start then .returns (next, 0) else Outcome.unwrap (st.firstHop.get node)
  return { st with
    scores := st.scores.insert next nextScore
    visitNext := (nextScore, next) :: st.visitNext
    firstHop := st.firstHop.insert next (hop.1, hop.2 + 1) }

def relax (node : V) (nodeScore : K) (st : DijkstraState V K) (edge : V × W) :
    Outcome (DijkstraState V K) :=
  if edge.1 ∈ st.visited then return st
  else
    let nextScore := nodeScore + edgeCost node edge
    match st.scores.get edge.1 with
    | some old => if nextScore < old then st.improve start node edge.1 nextScore else return st
    | none => st.improve start node edge.1 nextScore

def relaxAll (node : V) (nodeScore : K) : List (V × W) → DijkstraState V K →
    Outcome (DijkstraState V K)
  | [], st => return st
  | edge :: edges, st => do relaxAll node nodeScore edges (← st.relax edgeCost start node nodeScore edge)

def loop (heap : BinaryHeap K V) (G : Graph V W) : ℕ → DijkstraState V K →
    Outcome (DijkstraState V K)
  | 0, st => return st
  | fuel + 1, st =>
    match heap.pop st.visitNext with
    | none => return st
    | some ((nodeScore, node), rest) =>
      -- an entry from before the node's score was improved
      if node ∈ st.visited then loop heap G fuel { st with visitNext := rest }
      else do
        let st ← relaxAll edgeCost start node nodeScore (G.edges node) { st with visitNext := rest }
        loop heap G fuel { st with visited := node :: st.visited }

end DijkstraState

def dijkstraStart : DijkstraState V K where
  visited := []
  scores := OrderedMap.empty.insert start 0
  firstHop := OrderedMap.empty.insert start (start, 0)
  visitNext := [(0, start)]

def Graph.edgeCount (G : Graph V W) : ℕ := (G.nodes.map fun v => (G.edges v).length).sum

/-- `dijkstra_with_first_hop`; every entry of the heap but the first comes from an edge. Hops are
counted in `usize`, taken to have 64 bits, which no path of the graph fills. -/
def dijkstraWithFirstHop (heap : BinaryHeap K V) (G : Graph V W) :
    Outcome (OrderedMap V K × OrderedMap V (V × ℕ)) := do
  let st ← DijkstraState.loop edgeCost start heap G (G.edgeCount + 1) (dijkstraStart start)
  return (st.scores, st.firstHop)

/-! ### What the search keeps -/

namespace DijkstraState

variable (G : Graph V W)

/-- The walk `l` to `v` costs `d` and is noted as the best one; it visits nothing twice, and nothing
that is farther than `v`. -/
structure Found (scores : OrderedMap V K) (hops : OrderedMap V (V × ℕ)) (v : V) (d : K)
    (l : List (V × W)) : Prop where
  walk : Walk G.edges start l v
  cost_eq : cost edgeCost start l = d
  hop : hops.get v = some (ShortestPath.firstHop start l, l.length)
  simple : (start :: l.map Prod.fst).Nodup
  near : ∀ u ∈ start :: l.map Prod.fst, ∃ d', scores.get u = some d' ∧ d' ≤ d

/-- The scores and first hops are those of walks, and nothing that is queued is better than what has
been visited. -/
structure Sound (st : DijkstraState V K) : Prop where
  atStart : st.scores.get start = some 0 ∧ st.firstHop.get start = some (start, 0)
  realised : ∀ v d, st.scores.get v = some d → ∃ l, Found edgeCost start G st.scores st.firstHop v d l
  hops : ∀ v hop, st.firstHop.get v = some hop → ∃ d, st.scores.get v = some d
  queued : ∀ e ∈ st.visitNext, ∃ d, st.scores.get e.2 = some d ∧ d ≤ e.1
  done : ∀ v ∈ st.visited, ∃ d, st.scores.get v = some d ∧ ∀ e ∈ st.visitNext, d ≤ e.1
  closed : ∀ u ∈ st.visited, ∀ d, st.scores.get u = some d → ∀ e ∈ G.edges u,
    ∃ d', st.scores.get e.1 = some d' ∧ d' ≤ d + edgeCost u e

structure Inv (st : DijkstraState V K) : Prop extends Sound edgeCost start G st where
  pending : ∀ v d, st.scores.get v = some d → v ∉ st.visited → (d, v) ∈ st.visitNext

/-- While `node` is visited, and the edges `seen` have been looked at. -/
structure Visiting (node : V) (score : K) (seen : List (V × W)) (st : DijkstraState V K) : Prop
    extends Sound edgeCost start G st where
  scored : st.scores.get node = some score
  fresh : node ∉ st.visited
  ahead : ∀ e ∈ st.visitNext, score ≤ e.1
  behind : ∀ v ∈ st.visited, ∃ d, st.scores.get v = some d ∧ d ≤ score
  pending : ∀ v d, st.scores.get v = some d → v ∉ st.visited → v ≠ node → (d, v) ∈ st.visitNext
  relaxed : ∀ e ∈ seen, ∃ d, st.scores.get e.1 = some d ∧ d ≤ score + edgeCost node e

variable {edgeCost start G}
  {st : DijkstraState V K} {node : V} {score : K} {seen : List (V × W)} {edge : V × W}

theorem Visiting.keep (h : Visiting edgeCost start G node score seen st)
    (hgood : ∃ d, st.scores.get edge.1 = some d ∧ d ≤ score + edgeCost node edge) :
    Visiting edgeCost start G node score (edge :: seen) st :=
  { h with relaxed := forall_mem_cons.2 ⟨hgood, h.relaxed⟩ }

section Pop

variable {rest : List (K × V)} (h : Inv edgeCost start G st)
  (hperm : st.visitNext.Perm ((score, node) :: rest))

include h hperm

theorem sound_of_pop : Sound edgeCost start G { st with visitNext := rest } := by
  have hrest : ∀ e ∈ rest, e ∈ st.visitNext := fun e he =>
    hperm.mem_iff.2 (mem_cons_of_mem _ he)
  refine { h with queued := fun e he => h.queued e (hrest e he), done := fun v hv => ?_ }
  obtain ⟨d, hd, hahead⟩ := h.done v hv
  exact ⟨d, hd, fun e he => hahead e (hrest e he)⟩

theorem pending_of_pop {v : V} {d : K} (hv : st.scores.get v = some d) (hnew : v ∉ st.visited)
    (hne : v ≠ node) : (d, v) ∈ rest := by
  rcases mem_cons.1 (hperm.mem_iff.1 (h.pending v d hv hnew)) with heq | hmem
  · cases heq
    exact absurd rfl hne
  · exact hmem

theorem visiting_of_pop (hleast : ∀ e ∈ st.visitNext, score ≤ e.1) (hfresh : node ∉ st.visited) :
    Visiting edgeCost start G node score [] { st with visitNext := rest } := by
  have hfirst : (score, node) ∈ st.visitNext := hperm.mem_iff.2 mem_cons_self
  have hscore : st.scores.get node = some score := by
    obtain ⟨d, hd, hle⟩ := h.queued _ hfirst
    rw [hd, le_antisymm hle (hleast _ (h.pending node d hd hfresh))]
  refine { sound_of_pop h hperm with
           scored := hscore, fresh := hfresh,
           ahead := fun e he => hleast e (hperm.mem_iff.2 (mem_cons_of_mem _ he)),
           behind := fun v hv => ?_, pending := fun _ _ => pending_of_pop h hperm,
           relaxed := by simp }
  obtain ⟨d, hd, hahead⟩ := h.done v hv
  exact ⟨d, hd, hahead _ hfirst⟩

theorem inv_of_pop (hvisited : node ∈ st.visited) :
    Inv edgeCost start G { st with visitNext := rest } :=
  { sound_of_pop h hperm with
    pending := fun _ _ hv hnew => pending_of_pop h hperm hv hnew fun heq => hnew (heq ▸ hvisited) }

end Pop

theorem Visiting.inv (h : Visiting edgeCost start G node score seen st)
    (hseen : ∀ e ∈ G.edges node, e ∈ seen) :
    Inv edgeCost start G { st with visited := node :: st.visited } := by
  refine { h with done := ?_, closed := ?_, pending := ?_ }
  · exact forall_mem_cons.2 ⟨⟨score, h.scored, h.ahead⟩, h.done⟩
  · refine forall_mem_cons.2 ⟨fun d hd e he => ?_, h.closed⟩
    cases h.scored.symm.trans hd
    exact h.relaxed e (hseen e he)
  · intro v d hv hnew
    rw [mem_cons, not_or] at hnew
    exact h.pending v d hv hnew.2 hnew.1

section Improved

variable {l : List (V × W)} {next : K}

/-- The state after a better walk `l` over `edge` has been found. -/
def improved (start : V) (st : DijkstraState V K) (score : K) (l : List (V × W)) (edge : V × W) :
    DijkstraState V K :=
  { st with
    scores := st.scores.insert edge.1 score
    visitNext := (score, edge.1) :: st.visitNext
    firstHop := st.firstHop.insert edge.1
      (ShortestPath.firstHop start (l ++ [edge]), (l ++ [edge]).length) }

omit [AddCommMonoid K] [LinearOrder K]

theorem improve_eq (hstart : st.firstHop.get start = some (start, 0)) (hwalk : Walk G.edges start l node)
    (hhop : st.firstHop.get node = some (ShortestPath.firstHop start l, l.length)) (edge : V × W) :
    st.improve start node edge.1 next = .returns (improved start st next l edge) := by
  rw [improve]
  by_cases hroot : node = start
  · -- the walk to the start is empty
    have hempty := hhop.symm.trans (hroot ▸ hstart)
    obtain rfl : l = [] :=
      eq_nil_of_length_eq_zero (by simpa using congrArg (·.2) (Option.some.inj hempty))
    rw [if_pos hroot]
    rfl
  · have hfirst := firstHop_append_of_ne hroot hwalk edge
    rw [if_neg hroot, hhop]
    simp only [Outcome.unwrap, Outcome.returns_bind, Outcome.pure_eq, improved, hfirst,
      length_append, length_singleton]

theorem get_scores_improved_of_ne {v : V} (hne : v ≠ edge.1) :
    (improved start st next l edge).scores.get v = st.scores.get v := get_insert_of_ne hne

theorem get_firstHop_improved_of_ne {v : V} (hne : v ≠ edge.1) :
    (improved start st next l edge).firstHop.get v = st.firstHop.get v := get_insert_of_ne hne

theorem get_scores_improved_self : (improved start st next l edge).scores.get edge.1 = some next :=
  get_insert_self

end Improved

omit [AddCommMonoid K] in
theorem scores_improved_le {l : List (V × W)} {next : K}
    (hbetter : ∀ old, st.scores.get edge.1 = some old → next < old) {v : V} {bound : K}
    (h : ∃ d, st.scores.get v = some d ∧ d ≤ bound) :
    ∃ d, (improved start st next l edge).scores.get v = some d ∧ d ≤ bound := by
  obtain ⟨d, hd, hle⟩ := h
  by_cases heq : v = edge.1
  · subst heq
    exact ⟨next, get_scores_improved_self, (hbetter d hd).le.trans hle⟩
  · exact ⟨d, (get_scores_improved_of_ne heq).trans hd, hle⟩

section Better

variable (h : Visiting edgeCost start G node score seen st)
    (hle : score ≤ score + edgeCost node edge) (hedge : edge ∈ G.edges node)
    (hfresh : edge.1 ∉ st.visited)
    (hbetter : ∀ old, st.scores.get edge.1 = some old → score + edgeCost node edge < old)
    {l : List (V × W)} (hl : Found edgeCost start G st.scores st.firstHop node score l)

include hle hbetter hl

theorem Found.not_mem : edge.1 ∉ start :: l.map Prod.fst := by
  intro hmem
  obtain ⟨d, hd, hnear⟩ := hl.near _ hmem
  exact absurd (hbetter d hd) (not_lt.2 (hnear.trans hle))

include hedge

theorem Found.snoc : Found edgeCost start G
    (improved start st (score + edgeCost node edge) l edge).scores
    (improved start st (score + edgeCost node edge) l edge).firstHop edge.1
    (score + edgeCost node edge) (l ++ [edge]) := by
  have hvertices : start :: (l ++ [edge]).map Prod.fst = start :: l.map Prod.fst ++ [edge.1] := by
    simp
  refine ⟨hl.walk.snoc hedge, by rw [cost_snoc hl.walk, hl.cost_eq], get_insert_self, ?_, ?_⟩
  · rw [hvertices, ← concat_eq_append, nodup_concat]
    exact ⟨hl.not_mem hle hbetter, hl.simple⟩
  · rw [hvertices, forall_mem_append, forall_mem_singleton]
    refine ⟨fun u hu => ?_, _, get_scores_improved_self, le_rfl⟩
    obtain ⟨d, hd, hnear⟩ := hl.near u hu
    exact scores_improved_le hbetter ⟨d, hd, hnear.trans hle⟩

include h hfresh

theorem Visiting.sound_improved :
    Sound edgeCost start G (improved start st (score + edgeCost node edge) l edge) := by
  have hstart : start ≠ edge.1 := fun heq => hl.not_mem hle hbetter (heq ▸ mem_cons_self)
  -- a visited node keeps its score
  have hvisited : ∀ u ∈ st.visited, u ≠ edge.1 := fun u hu heq => hfresh (heq ▸ hu)
  refine { atStart := ?_, realised := ?_, hops := ?_, queued := ?_, done := ?_, closed := ?_ }
  · exact ⟨(get_scores_improved_of_ne hstart).trans h.atStart.1,
      (get_firstHop_improved_of_ne hstart).trans h.atStart.2⟩
  · intro v d hv
    by_cases heq : v = edge.1
    · subst heq
      cases get_scores_improved_self.symm.trans hv
      exact ⟨l ++ [edge], hl.snoc hle hedge hbetter⟩
    · obtain ⟨l', hl'⟩ := h.realised v d ((get_scores_improved_of_ne heq).symm.trans hv)
      exact ⟨l', { hl' with
        hop := (get_firstHop_improved_of_ne heq).trans hl'.hop
        near := fun u hu => scores_improved_le hbetter (hl'.near u hu) }⟩
  · intro v hop hv
    by_cases heq : v = edge.1
    · subst heq
      exact ⟨_, get_scores_improved_self⟩
    · obtain ⟨d, hd⟩ := h.hops v hop ((get_firstHop_improved_of_ne heq).symm.trans hv)
      exact ⟨d, (get_scores_improved_of_ne heq).trans hd⟩
  · intro e he
    rcases mem_cons.1 he with rfl | he
    · exact ⟨_, get_scores_improved_self, le_rfl⟩
    · exact scores_improved_le hbetter (h.queued e he)
  · intro v hv
    obtain ⟨d, hd, hahead⟩ := h.done v hv
    obtain ⟨d', hd', hbehind⟩ := h.behind v hv
    cases hd.symm.trans hd'
    refine ⟨d, (get_scores_improved_of_ne (hvisited v hv)).trans hd, fun e he => ?_⟩
    rcases mem_cons.1 he with rfl | he
    · exact hbehind.trans hle
    · exact hahead e he
  · intro u hu d hd e he
    have hold := (get_scores_improved_of_ne (hvisited u hu)).symm.trans hd
    exact scores_improved_le hbetter (h.closed u hu d hold e he)

omit hl

theorem improve_spec :
    ∃ st', st.improve start node edge.1 (score + edgeCost node edge) = .returns st' ∧
      Visiting edgeCost start G node score (edge :: seen) st' ∧
      st'.visited = st.visited ∧ st'.visitNext.length ≤ st.visitNext.length + 1 := by
  obtain ⟨l, hl⟩ := h.realised node score h.scored
  -- the node itself cannot be improved
  have hnode : node ≠ edge.1 := fun heq => absurd (hbetter score (heq ▸ h.scored)) (not_lt.2 hle)
  refine ⟨_, improve_eq h.atStart.2 hl.walk hl.hop edge, ?_, rfl, le_rfl⟩
  refine { h.sound_improved hle hedge hfresh hbetter hl with
           scored := (get_scores_improved_of_ne hnode).trans h.scored, fresh := h.fresh,
           ahead := ?_, behind := ?_, pending := ?_, relaxed := ?_ }
  · intro e he
    rcases mem_cons.1 he with rfl | he
    · exact hle
    · exact h.ahead e he
  · intro v hv
    obtain ⟨d, hd, hle⟩ := h.behind v hv
    exact ⟨d, (get_scores_improved_of_ne fun heq => hfresh (heq ▸ hv)).trans hd, hle⟩
  · intro v d hv hnew hne
    by_cases heq : v = edge.1
    · subst heq
      cases get_scores_improved_self.symm.trans hv
      exact mem_cons_self
    · have hold := (get_scores_improved_of_ne heq).symm.trans hv
      exact mem_cons_of_mem _ (h.pending v d hold hnew hne)
  · intro e he
    rcases mem_cons.1 he with rfl | he
    · exact ⟨_, get_scores_improved_self, le_rfl⟩
    · exact scores_improved_le hbetter (h.relaxed e he)

end Better

/-- **One edge.** -/
theorem relax_spec (h : Visiting edgeCost start G node score seen st)
    (hle : score ≤ score + edgeCost node edge) (hedge : edge ∈ G.edges node) :
    ∃ st', st.relax edgeCost start node score edge = .returns st' ∧
      Visiting edgeCost start G node score (edge :: seen) st' ∧
      st'.visited = st.visited ∧ st'.visitNext.length ≤ st.visitNext.length + 1 := by
  by_cases hvisited : edge.1 ∈ st.visited
  · -- what has been visited is at least as near as the node
    obtain ⟨d, hd, hbehind⟩ := h.behind edge.1 hvisited
    exact ⟨st, by rw [relax, if_pos hvisited]; rfl, h.keep ⟨d, hd, hbehind.trans hle⟩, rfl,
      Nat.le_succ _⟩
  · rw [relax, if_neg hvisited]
    cases hscore : st.scores.get edge.1 with
    | none => exact improve_spec h hle hedge hvisited (by simp [hscore])
    | some old =>
      dsimp only
      split_ifs with hlt
      · refine improve_spec h hle hedge hvisited fun old' hold' => ?_
        cases hscore.symm.trans hold'
        exact hlt
      · exact ⟨st, rfl, h.keep ⟨old, hscore, not_lt.1 hlt⟩, rfl, Nat.le_succ _⟩

theorem relaxAll_spec {edges : List (V × W)} (h : Visiting edgeCost start G node score seen st)
    (hle : ∀ e ∈ edges, score ≤ score + edgeCost node e) (hedges : ∀ e ∈ edges, e ∈ G.edges node) :
    ∃ st', relaxAll edgeCost start node score edges st = .returns st' ∧
      Visiting edgeCost start G node score (edges.reverse ++ seen) st' ∧
      st'.visited = st.visited ∧ st'.visitNext.length ≤ st.visitNext.length + edges.length := by
  induction edges generalizing st seen with
  | nil => exact ⟨st, rfl, h, rfl, le_rfl⟩
  | cons edge edges ih =>
    rw [forall_mem_cons] at hle hedges
    obtain ⟨st₁, hrelax, hvisiting₁, hsame₁, hlength₁⟩ := relax_spec h hle.1 hedges.1
    obtain ⟨st₂, hrest, hvisiting₂, hsame₂, hlength₂⟩ := ih hvisiting₁ hle.2 hedges.2
    refine ⟨st₂, ?_, ?_, hsame₂.trans hsame₁, ?_⟩
    · rw [relaxAll, hrelax]
      exact hrest
    · simpa using hvisiting₂
    · rw [length_cons]
      omega

/-! ### The whole search -/

def openEdges (G : Graph V W) (visited : List V) : ℕ :=
  (G.nodes.map fun v => if v ∈ visited then 0 else (G.edges v).length).sum

theorem openEdges_visit (G : Graph V W) {visited : List V} (hnode : node ∈ G.nodes)
    (hfresh : node ∉ visited) :
    openEdges G (node :: visited) + (G.edges node).length ≤ openEdges G visited := by
  have hle : ∀ v, (if v ∈ node :: visited then 0 else (G.edges v).length) ≤
      if v ∈ visited then 0 else (G.edges v).length := by
    intro v
    by_cases hv : v ∈ visited
    · simp [hv]
    · by_cases heq : v = node <;> simp [hv, heq]
  have hrest := sum_le_sum fun v (_ : v ∈ G.nodes.erase node) => hle v
  rw [openEdges, openEdges, ← sum_map_erase _ hnode, ← sum_map_erase _ hnode, if_pos mem_cons_self,
    if_neg hfresh]
  omega

/-- **The loop ends with an empty heap** after as many entries as are queued or can still be. -/
theorem loop_spec [IsOrderedAddMonoid K] (heap : BinaryHeap K V) (hstart : start ∈ G.nodes)
    (hcost : ∀ u ∈ G.nodes, ∀ e ∈ G.edges u, 0 ≤ edgeCost u e) {fuel : ℕ}
    (h : Inv edgeCost start G st)
    (hfuel : st.visitNext.length + openEdges G st.visited ≤ fuel) :
    ∃ st', loop edgeCost start heap G fuel st = .returns st' ∧ Inv edgeCost start G st' ∧
      st'.visitNext = [] := by
  induction fuel generalizing st with
  | zero => exact ⟨st, rfl, h, eq_nil_of_length_eq_zero (by omega)⟩
  | succ fuel ih =>
    rw [loop]
    cases hqueue : st.visitNext with
    | nil =>
      rw [heap.pop_nil]
      exact ⟨st, rfl, h, hqueue⟩
    | cons first rest =>
      obtain ⟨⟨score, node⟩, rest, hpop, hperm, hleast⟩ := heap.pop_cons first rest
      rw [← hqueue] at hpop hperm hleast
      have hlength : st.visitNext.length = rest.length + 1 := hperm.length_eq
      rw [← hqueue, hpop]
      dsimp only
      split_ifs with hvisited
      · exact ih (inv_of_pop h hperm hvisited) (by dsimp only; omega)
      · have hvisiting := visiting_of_pop h hperm hleast hvisited
        obtain ⟨l, hl⟩ := hvisiting.realised node score hvisiting.scored
        have hnode := Graph.mem_nodes_of_walk hstart hl.walk
        have hopen := openEdges_visit G hnode hvisited
        obtain ⟨st₁, hrelax, hvisiting₁, hsame, hlength₁⟩ := relaxAll_spec hvisiting
          (fun e he => le_add_of_nonneg_right (hcost node hnode e he)) fun e he => he
        obtain ⟨st₂, hloop, hinv, hempty⟩ := ih (hvisiting₁.inv fun e he => by simpa using he) (by
          dsimp only at hsame hlength₁ ⊢
          rw [hsame]
          omega)
        refine ⟨st₂, ?_, hinv, hempty⟩
        rw [hrelax]
        exact hloop

variable (edgeCost start G) in
theorem inv_start : Inv edgeCost start G (dijkstraStart start) := by
  have hget : ∀ {v d}, (OrderedMap.empty.insert start (0 : K)).get v = some d → v = start ∧ d = 0 := by
    intro v d hv
    rw [get_insert] at hv
    split_ifs at hv with heq
    · exact ⟨heq, (Option.some.inj hv).symm⟩
    · cases hv
  refine { atStart := ⟨get_insert_self, get_insert_self⟩, realised := ?_,
           hops := ?_, queued := ?_, done := by simp [dijkstraStart],
           closed := by simp [dijkstraStart], pending := ?_ }
  · intro v d hv
    obtain ⟨rfl, rfl⟩ := hget hv
    exact ⟨[], .nil, rfl, get_insert_self, by simp, by simp [dijkstraStart]⟩
  · intro v hop hv
    rw [dijkstraStart, get_insert] at hv
    split_ifs at hv with heq
    · exact ⟨0, heq ▸ get_insert_self⟩
    · cases hv
  · intro e he
    rw [dijkstraStart, mem_singleton] at he
    subst he
    exact ⟨0, get_insert_self, le_rfl⟩
  · intro v d hv _
    obtain ⟨rfl, rfl⟩ := hget hv
    exact mem_singleton_self _

section Ended

variable (h : Inv edgeCost start G st) (hempty : st.visitNext = [])

include h hempty

theorem Inv.closed_scores : Closed edgeCost G.edges st.scores.get := by
  intro u d hu
  refine h.closed u ?_ d hu
  by_contra hnew
  have hqueued := h.pending u d hu hnew
  rw [hempty] at hqueued
  cases hqueued

variable [IsOrderedAddMonoid K] {v : V} {d : K}

theorem Inv.isDist_iff : st.scores.get v = some d ↔ IsDist edgeCost G.edges start v d :=
  isDist_iff_of_closed (h.closed_scores hempty) h.atStart.1 fun v d hv =>
    (h.realised v d hv).imp fun _ hl => ⟨hl.walk, hl.cost_eq⟩

theorem Inv.exists_shortest (hv : st.scores.get v = some d) :
    ∃ l, Shortest edgeCost G.edges start v l ∧ (start :: l.map Prod.fst).Nodup ∧
      st.firstHop.get v = some (ShortestPath.firstHop start l, l.length) := by
  obtain ⟨l, hl⟩ := h.realised v d hv
  obtain ⟨l', hl', hcost⟩ := (h.isDist_iff hempty).1 hv
  refine ⟨l, ⟨hl.walk, fun l'' hl'' => ?_⟩, hl.simple, hl.hop⟩
  rw [hl.cost_eq, ← hcost]
  exact hl'.least l'' hl''

end Ended

end DijkstraState

section Search

variable [IsOrderedAddMonoid K] {start} {G : Graph V W} (heap : BinaryHeap K V)
  (hstart : start ∈ G.nodes) (hcost : ∀ u ∈ G.nodes, ∀ e ∈ G.edges u, 0 ≤ edgeCost u e)

include hstart hcost

open DijkstraState

/-- The search ends with nothing left to visit. -/
theorem dijkstraWithFirstHop_eq : ∃ st : DijkstraState V K,
    dijkstraWithFirstHop edgeCost start heap G = .returns (st.scores, st.firstHop) ∧
      Inv edgeCost start G st ∧ st.visitNext = [] := by
  have hfuel : (dijkstraStart start : DijkstraState V K).visitNext.length +
      openEdges G (dijkstraStart start : DijkstraState V K).visited ≤ G.edgeCount + 1 := by
    simp [dijkstraStart, openEdges, Graph.edgeCount, Nat.add_comm]
  obtain ⟨st, hloop, hinv, hempty⟩ :=
    loop_spec heap hstart hcost (inv_start edgeCost start G) hfuel
  refine ⟨st, ?_, hinv, hempty⟩
  rw [dijkstraWithFirstHop, hloop]
  rfl

/-- **The search finds exactly what can be reached, with the distances**, and the first hop and the
number of hops of one shortest path. -/
theorem first_hops_of_shortest_paths : ∃ scores firstHops,
    dijkstraWithFirstHop edgeCost start heap G = .returns (scores, firstHops) ∧
      (∀ v, (∃ d, scores.get v = some d) ↔ ∃ l, Walk G.edges start l v) ∧
      (∀ v d, scores.get v = some d → IsDist edgeCost G.edges start v d) ∧
      ∀ v, v ≠ start → (∃ l, Walk G.edges start l v) → ∃ l, Shortest edgeCost G.edges start v l ∧
        (start :: l.map Prod.fst).Nodup ∧ firstHops.get v = some (firstHop start l, l.length) := by
  obtain ⟨st, hsearch, hinv, hempty⟩ := dijkstraWithFirstHop_eq edgeCost heap hstart hcost
  have hreached : ∀ v, (∃ d, st.scores.get v = some d) ↔ ∃ l, Walk G.edges start l v := by
    intro v
    constructor
    · rintro ⟨d, hd⟩
      exact (hinv.realised v d hd).imp fun _ hl => hl.walk
    · rintro ⟨l, hl⟩
      exact ((hinv.closed_scores hempty).le_cost hinv.atStart.1 hl).imp fun _ => And.left
  refine ⟨_, _, hsearch, hreached, fun v d hd => (hinv.isDist_iff hempty).1 hd, fun v _ hwalk => ?_⟩
  obtain ⟨d, hd⟩ := (hreached v).2 hwalk
  exact hinv.exists_shortest hempty hd

end Search

end Dijkstra

/-- Two shortest paths lead to 2, one over an edge that costs nothing. -/
def tiedGraph : Graph ℕ ℕ where
  nodes := [0, 1, 2]
  edges u := [[(1, 0), (2, 1)], [(2, 1)]].getD u []
  closed := by decide

theorem tiedGraph_reached : ∃ scores firstHops,
    dijkstraWithFirstHop (fun _ e => e.2) 0 .leftmost tiedGraph = .returns (scores, firstHops) ∧
      ∀ v, (∃ d, scores.get v = some d) ↔ ∃ l, Walk tiedGraph.edges 0 l v := by
  obtain ⟨scores, firstHops, hsearch, hreached, -⟩ :=
    first_hops_of_shortest_paths (fun _ e => e.2) .leftmost (show 0 ∈ tiedGraph.nodes by decide)
      (by decide)
  exact ⟨scores, firstHops, hsearch, hreached⟩

end PactMesh
