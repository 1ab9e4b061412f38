import Mathlib.Data.List.Nodup

/-!
# Lists with keys

The first entry for a key counts.  `put` drops all entries for a key and appends at most one new
entry; it keeps the keys different, and the values of any function that the new entry shares with no
entry for another key.

* `foldl_origin`, `foldl_reaches` : where what holds after a loop comes from, and what brings it about.
-/

namespace PactMesh

open List

section Loops

variable {σ β : Type*} {f : σ → β → σ} {P : σ → Prop} {Q : β → Prop} {l : List β} {s : σ}

theorem foldl_origin (h : P (l.foldl f s)) (hstep : ∀ s b, P (f s b) → P s ∨ Q b) :
    P s ∨ ∃ b ∈ l, Q b :=
  foldlRecOn (motive := fun s' => P s' → P s ∨ ∃ b ∈ l, Q b) l f .inl
    (fun s' ih b hb h => (hstep s' b h).elim ih fun hq => .inr ⟨b, hb, hq⟩) h

theorem foldl_reaches (h : P s ∨ ∃ b ∈ l, Q b) (hstep : ∀ s b, P s ∨ Q b → P (f s b)) :
    P (l.foldl f s) := by
  induction l generalizing s with
  | nil => exact h.resolve_right nofun
  | cons b l ih =>
    rw [exists_mem_cons_iff, ← or_assoc] at h
    exact ih (h.imp_left (hstep s b))

end Loops

namespace Keyed

variable {α κ : Type*} [DecidableEq κ] (key : α → κ)

/-- Drop the entries for `k` and append `a`, if there is one. -/
def put (k : κ) (a : Option α) (l : List α) : List α := (l.filter fun b => key b ≠ k) ++ a.toList

variable {key} {k : κ} {a : Option α} {l : List α}

theorem mem_put {b : α} : b ∈ put key k a l ↔ b ∈ l ∧ key b ≠ k ∨ a = some b := by
  simp [put, Option.mem_toList]

theorem find?_put_self (ha : ∀ b, a = some b → key b = k) :
    (put key k a l).find? (fun b => key b == k) = a := by
  have hold : (l.filter fun b => key b ≠ k).find? (fun b => key b == k) = none := by
    rw [find?_eq_none]
    intro b hb
    simpa using (mem_filter.1 hb).2
  rw [put, find?_append, hold, Option.none_or]
  cases a with
  | none => rfl
  | some b => simp [ha b rfl]

theorem find?_put_of_ne (ha : ∀ b, a = some b → key b = k) {k' : κ} (hk : k' ≠ k) :
    (put key k a l).find? (fun b => key b == k') = l.find? (fun b => key b == k') := by
  have hold : (l.filter fun b => key b ≠ k).find? (fun b => key b == k') =
      l.find? (fun b => key b == k') := by
    rw [find?_filter]
    congr 1
    funext b
    by_cases hb : key b = k' <;> simp [hb, hk]
  have hnew : a.toList.find? (fun b => key b == k') = none := by
    cases a with
    | none => rfl
    | some b => simp [ha b rfl, hk.symm]
  rw [put, find?_append, hold, hnew, Option.or_none]

/-- An update keeps the values of a function different from each other, if the new entry shares its
value with no entry for another key. -/
theorem nodup_map_put {β : Type*} {f : α → β} (h : (l.map f).Nodup)
    (ha : ∀ b, a = some b → ∀ c ∈ l, key c ≠ k → f c ≠ f b) : ((put key k a l).map f).Nodup := by
  have hold : ((l.filter fun b => key b ≠ k).map f).Nodup :=
    h.sublist (filter_sublist.map f)
  rw [put, map_append, nodup_append']
  refine ⟨hold, ?_, ?_⟩
  · cases a <;> simp
  · intro v hv hnew
    obtain ⟨c, hc, rfl⟩ := mem_map.1 hv
    obtain ⟨b, hb, hf⟩ := mem_map.1 hnew
    obtain ⟨hmem, hne⟩ := mem_filter.1 hc
    exact ha b (Option.mem_toList.1 hb) c hmem (by simpa using hne) hf.symm

theorem nodup_map_key_put (ha : ∀ b, a = some b → key b = k) (h : (l.map key).Nodup) :
    ((put key k a l).map key).Nodup := by
  refine nodup_map_put h fun b hb c _ hc => ?_
  rw [ha b hb]
  exact hc

end Keyed

end PactMesh
