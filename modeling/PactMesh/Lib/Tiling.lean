import Mathlib.Algebra.GroupWithZero.Nat
import Mathlib.Order.Interval.Finset.Nat

/-!
# Blocks on a line

Two blocks are apart when neither starts inside the other.  Blocks that are pairwise apart cover as
many places as their sizes add up to; if that is all the room they lie in, they lie end to end.

Main result: `contiguous_of_sum_size_eq`.
-/

namespace PactMesh

open List

namespace Tiling

variable {α : Type*} (start size : α → ℕ)

/-- Neither block starts inside the other. -/
def Apart (a b : α) : Prop :=
  ¬ (start a ≤ start b ∧ start b < start a + size a) ∧
    ¬ (start b ≤ start a ∧ start a < start b + size b)

instance (a b : α) : Decidable (Apart start size a b) := inferInstanceAs (Decidable (_ ∧ _))

/-- The places that the blocks cover. -/
def cover (l : List α) : Finset ℕ :=
  l.foldr (fun a s => Finset.Ico (start a) (start a + size a) ∪ s) ∅

variable {start size} {l : List α} {a : α}

theorem mem_cover {x : ℕ} : x ∈ cover start size l ↔ ∃ a ∈ l, start a ≤ x ∧ x < start a + size a := by
  induction l with
  | nil => simp [cover]
  | cons b l ih =>
    have hcons : cover start size (b :: l) =
        Finset.Ico (start b) (start b + size b) ∪ cover start size l := rfl
    rw [hcons, Finset.mem_union, Finset.mem_Ico, ih, exists_mem_cons_iff]

theorem disjoint_cover (h : ∀ b ∈ l, Apart start size a b) :
    Disjoint (Finset.Ico (start a) (start a + size a)) (cover start size l) := by
  rw [Finset.disjoint_left]
  intro x hx hcover
  obtain ⟨b, hb, hlo, hhi⟩ := mem_cover.1 hcover
  rw [Finset.mem_Ico] at hx
  obtain ⟨hab, hba⟩ := h b hb
  -- the block that starts later starts inside the other one
  rcases Nat.le_total (start a) (start b) with hle | hle
  · exact hab ⟨hle, by omega⟩
  · exact hba ⟨hle, by omega⟩

theorem sum_size_eq_card_cover (h : l.Pairwise (Apart start size)) :
    (l.map size).sum = (cover start size l).card := by
  induction l with
  | nil => rfl
  | cons a l ih =>
    obtain ⟨ha, hl⟩ := pairwise_cons.1 h
    have hcons : cover start size (a :: l) =
        Finset.Ico (start a) (start a + size a) ∪ cover start size l := rfl
    rw [hcons, Finset.card_union_of_disjoint (disjoint_cover ha), Nat.card_Ico, ← ih hl,
      map_cons, sum_cons]
    omega

theorem sum_size_le_sub {k n : ℕ} (h : l.Pairwise (Apart start size)) (hk : ∀ a ∈ l, k ≤ start a)
    (hn : ∀ a ∈ l, start a + size a ≤ n) : (l.map size).sum ≤ n - k := by
  have hsub : cover start size l ⊆ Finset.Ico k n := by
    intro x hx
    obtain ⟨a, ha, hle, hlt⟩ := mem_cover.1 hx
    exact Finset.mem_Ico.2 ⟨(hk a ha).trans hle, lt_of_lt_of_le hlt (hn a ha)⟩
  calc (l.map size).sum = (cover start size l).card := sum_size_eq_card_cover h
    _ ≤ (Finset.Ico k n).card := Finset.card_le_card hsub
    _ = n - k := Nat.card_Ico k n

theorem sum_size_le {n : ℕ} (h : l.Pairwise (Apart start size))
    (hn : ∀ a ∈ l, start a + size a ≤ n) : (l.map size).sum ≤ n :=
  sum_size_le_sub h (fun a _ => Nat.zero_le (start a)) hn

variable (start size) in
/-- The blocks lie end to end, from the first place to the last. -/
def Contiguous : ℕ → List α → ℕ → Prop
  | k, [], n => k = n
  | k, a :: l, n => start a = k ∧ Contiguous (k + size a) l n

theorem le_of_contiguous {k n : ℕ} (h : Contiguous start size k l n) : k ≤ n := by
  induction l generalizing k with
  | nil => exact le_of_eq h
  | cons a l ih => exact (Nat.le_add_right k (size a)).trans (ih h.2)

/-- **Blocks that fill the room they lie in lie end to end.** -/
theorem contiguous_of_sum_size_eq {k n : ℕ} (hsorted : l.Pairwise fun a b => start a ≤ start b)
    (h : l.Pairwise (Apart start size)) (hk : ∀ a ∈ l, k ≤ start a)
    (hn : ∀ a ∈ l, start a + size a ≤ n) (hkn : k ≤ n) (hsum : (l.map size).sum = n - k) :
    Contiguous start size k l n := by
  induction l generalizing k with
  | nil =>
    have hzero : 0 = n - k := hsum
    exact show k = n by omega
  | cons a l ih =>
    obtain ⟨hfirst, hsorted'⟩ := pairwise_cons.1 hsorted
    obtain ⟨happart, h'⟩ := pairwise_cons.1 h
    obtain ⟨hna, hn'⟩ := forall_mem_cons.1 hn
    -- a room that begins later would be too small
    have hroom : ((a :: l).map size).sum ≤ n - start a :=
      sum_size_le_sub h (forall_mem_cons.2 ⟨le_rfl, hfirst⟩) hn
    have hka := hk a mem_cons_self
    have hstart : start a = k := by omega
    have hnext : ∀ b ∈ l, k + size a ≤ start b := by
      intro b hb
      have hnot := (happart b hb).1
      have hle := hfirst b hb
      omega
    rw [map_cons, sum_cons] at hsum
    exact ⟨hstart, ih hsorted' h' hnext hn' (by omega) (by omega)⟩

end Tiling

end PactMesh
