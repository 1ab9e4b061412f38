import PactMesh.Lib.Keyed
import Mathlib.Data.Finset.Preimage
import Mathlib.Data.Fintype.EquivFin

/-!
# Maps in order of insertion

A finite map that remembers the order in which its keys were last inserted: inserting a key again
moves it to the end.

* `exists_get_eq_none` : with infinitely many keys, one of them is free.
-/

namespace PactMesh

open List Keyed

/-- Entries in order of insertion, with one entry for each key. -/
structure OrderedMap (κ α : Type*) where
  entries : List (κ × α)
  nodup : (entries.map Prod.fst).Nodup
deriving DecidableEq

namespace OrderedMap

variable {κ α : Type*}

/-- The map without entries. -/
def empty : OrderedMap κ α := ⟨[], nodup_nil⟩

variable [DecidableEq κ] (m : OrderedMap κ α) (k : κ) (a : α)

/-- The value for a key. -/
def get : Option α := (m.entries.find? fun e => e.1 == k).map Prod.snd

/-- Whether the key has a value. -/
def contains : Bool := (m.get k).isSome

/-- Set the value for a key and move the key to the end. -/
def insert : OrderedMap κ α where
  entries := put Prod.fst k (some (k, a)) m.entries
  nodup := nodup_map_key_put (by rintro _ ⟨⟩; rfl) m.nodup

/-- Set the value for a key that has none. -/
def orInsert : OrderedMap κ α := if m.contains k then m else m.insert k a

def erase : OrderedMap κ α where
  entries := put Prod.fst k none m.entries
  nodup := nodup_map_key_put nofun m.nodup

/-- Replace the value of a key that has one, in its place. -/
def replace : OrderedMap κ α where
  entries := m.entries.map fun e => if e.1 = k then (k, a) else e
  nodup := by
    have hkeys : (m.entries.map fun e => if e.1 = k then (k, a) else e).map Prod.fst =
        m.entries.map Prod.fst := by
      rw [map_map]
      refine map_congr_left fun e _ => ?_
      by_cases he : e.1 = k <;> simp [he]
    rw [hkeys]
    exact m.nodup

/-- Replace every value by one that may depend on the key. -/
def mapValues (f : κ → α → α) : OrderedMap κ α where
  entries := m.entries.map fun e => (e.1, f e.1 e.2)
  nodup := by
    rw [map_map]
    exact m.nodup

/-- Keep the keys that satisfy a predicate. -/
def retain (p : κ → Bool) : OrderedMap κ α where
  entries := m.entries.filter fun e => p e.1
  nodup := m.nodup.sublist (filter_sublist.map Prod.fst)

/-- Keep the entries whose values satisfy a predicate. -/
def filter (p : α → Bool) : OrderedMap κ α where
  entries := m.entries.filter fun e => p e.2
  nodup := m.nodup.sublist (filter_sublist.map Prod.fst)

variable {m k a} {k' : κ} {a' : α}

theorem mem_of_get (h : m.get k = some a) : (k, a) ∈ m.entries := by
  rw [get, Option.map_eq_some_iff] at h
  obtain ⟨⟨k', a'⟩, hfind, rfl⟩ := h
  have hkey := find?_some hfind
  rw [beq_iff_eq] at hkey
  exact hkey ▸ mem_of_find?_eq_some hfind

theorem get_of_mem (h : (k, a) ∈ m.entries) : m.get k = some a := by
  have hsome : (m.entries.find? fun e => e.1 == k).isSome = true :=
    find?_isSome.2 ⟨(k, a), h, beq_self_eq_true k⟩
  obtain ⟨⟨k', a'⟩, hfind⟩ := Option.isSome_iff_exists.1 hsome
  have hkey := find?_some hfind
  rw [beq_iff_eq] at hkey
  have heq := inj_on_of_nodup_map m.nodup (mem_of_find?_eq_some hfind) h hkey
  rw [get, hfind, heq]
  rfl

theorem get_eq_some_iff : m.get k = some a ↔ (k, a) ∈ m.entries := ⟨mem_of_get, get_of_mem⟩

@[simp] theorem get_empty : (empty : OrderedMap κ α).get k = none := rfl

@[simp] theorem get_insert_self : (m.insert k a).get k = some a := by
  rw [get, insert, find?_put_self (by rintro _ ⟨⟩; rfl)]
  rfl

@[simp] theorem get_insert_of_ne (h : k' ≠ k) : (m.insert k a).get k' = m.get k' := by
  rw [get, insert, find?_put_of_ne (by rintro _ ⟨⟩; rfl) h, get]

theorem get_insert : (m.insert k a).get k' = if k' = k then some a else m.get k' := by
  split_ifs with h
  · rw [h, get_insert_self]
  · exact get_insert_of_ne h

theorem get_orInsert : (m.orInsert k a).get k' = (m.get k').or (if k' = k then some a else none) := by
  rw [orInsert]
  by_cases hkey : k' = k
  · subst hkey
    cases h : m.get k' <;> simp [contains, h]
  · by_cases hc : m.contains k = true
    · simp [hc, hkey]
    · simp [hc, hkey, get_insert_of_ne hkey]

theorem get_erase : (m.erase k).get k' = if k' = k then none else m.get k' := by
  split_ifs with h
  · rw [h, get, erase, find?_put_self (by simp)]
    rfl
  · rw [get, erase, find?_put_of_ne (by simp) h, get]

theorem get_eq_none_of_isEmpty (h : m.entries.isEmpty = true) : m.get k = none := by
  rw [get, isEmpty_iff.1 h]
  rfl

/-- A loop over the entries of which only the step for the key matters. -/
theorem foldl_entries {σ γ : Type*} {f : σ → κ × α → σ} {g : σ → γ} {w : α → γ → γ}
    (m : OrderedMap κ α) (s : σ)
    (hf : ∀ e ∈ m.entries, ∀ s, g (f s e) = if e.1 = k then w e.2 (g s) else g s) :
    g (m.entries.foldl f s) = (m.get k).elim (g s) fun a => w a (g s) := by
  obtain ⟨items, hnodup⟩ := m
  induction items generalizing s with
  | nil => rfl
  | cons e items ih =>
    rw [map_cons, nodup_cons] at hnodup
    obtain ⟨he, hrest⟩ := forall_mem_cons.1 hf
    rw [foldl_cons, ih _ hnodup.2 hrest, he]
    by_cases hkey : e.1 = k
    · -- no later step deals with the key
      have hnone : items.find? (fun e => e.1 == k) = none := by
        rw [find?_eq_none]
        intro e' he' heq
        rw [beq_iff_eq] at heq
        exact hnodup.1 (hkey ▸ heq ▸ mem_map_of_mem he')
      simp [get, hkey, hnone]
    · simp [get, hkey]

theorem get_replace : (m.replace k a).get k' = if k' = k then (m.get k).map fun _ => a else m.get k' := by
  ext b
  simp only [get_eq_some_iff, replace, mem_map]
  split_ifs with hk
  · simp only [Option.map_eq_some_iff, get_eq_some_iff]
    grind
  · rw [get_eq_some_iff]
    grind

theorem get_mapValues {f : κ → α → α} : (m.mapValues f).get k = (m.get k).map (f k) := by
  ext b
  simp [get_eq_some_iff, mapValues]

theorem replace_eq_self_iff (h : m.get k = some a') : m.replace k a = m ↔ a = a' := by
  constructor
  · intro heq
    have hget : (m.replace k a).get k = (m.get k).map fun _ => a := get_replace.trans (if_pos rfl)
    rw [heq, h] at hget
    exact (Option.some.inj hget).symm
  · rintro rfl
    have hentries : (m.entries.map fun e => if e.1 = k then (k, a) else e) = m.entries := by
      refine (map_congr_left fun e he => ?_).trans (map_id _)
      split_ifs with hkey
      · have hsame := get_of_mem (m := m) (k := e.1) (a := e.2) he
        rw [hkey, h] at hsame
        exact Prod.ext hkey.symm (Option.some.inj hsame)
      · rfl
    cases m
    simp only [replace, hentries]

theorem get_retain {p : κ → Bool} : (m.retain p).get k = if p k then m.get k else none := by
  ext b
  split_ifs with hp <;> simp [get_eq_some_iff, retain, hp]

theorem contains_eq_true_iff : m.contains k = true ↔ ∃ a, m.get k = some a := Option.isSome_iff_exists

theorem exists_get_eq_none {β : Type*} [Infinite β] (f : β → κ) (hf : f.Injective)
    (m : OrderedMap κ α) : ∃ b, m.get (f b) = none := by
  obtain ⟨b, hfree⟩ := Infinite.exists_notMem_finset
    ((m.entries.map Prod.fst).toFinset.preimage f hf.injOn)
  refine ⟨b, ?_⟩
  rw [get, Option.map_eq_none_iff, find?_eq_none]
  intro e he hb
  rw [beq_iff_eq] at hb
  exact hfree (Finset.mem_preimage.2 (mem_toFinset.2 (hb ▸ mem_map_of_mem he)))

end OrderedMap

end PactMesh
