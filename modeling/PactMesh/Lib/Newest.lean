import Mathlib.Data.List.MinMax

/-!
# Registers that keep the newest entry

A register replaces what it holds only by an entry with a larger key.  It ends up with the first among
the offers of largest key, which is `List.argmax` of the offers.

Main result: `foldl_offer`.
-/

namespace PactMesh

open List

namespace Newest

variable {α κ : Type*} [LinearOrder κ] (key : α → κ)

/-- What the register holds after it is offered `a`. -/
def offer (r : Option α) (a : α) : Option α :=
  match r with
  | none => some a
  | some b => if key b < key a then some a else some b

/-- **A register ends up with the first offer of largest key**, its first content included. -/
theorem foldl_offer (r : Option α) (as : List α) :
    as.foldl (offer key) r = (r.toList ++ as).argmax key := by
  induction as using List.reverseRecOn with
  | nil => cases r <;> rfl
  | append_singleton as a ih =>
    rw [foldl_concat, ih, ← append_assoc, argmax_concat]
    cases (r.toList ++ as).argmax key <;> rfl

theorem exists_offer_eq (b a : α) :
    ∃ c, offer key (some b) a = some c ∧ key a ≤ key c ∧ offer key (some c) a = some c := by
  by_cases h : key b < key a
  · exact ⟨a, if_pos h, le_rfl, if_neg (lt_irrefl _)⟩
  · exact ⟨b, if_neg h, not_lt.1 h, if_neg h⟩

variable {key}

theorem argmax_eq_of_mem_iff {as bs : List α}
    (hkey : ∀ a ∈ as, ∀ b ∈ as, key a = key b → a = b) (hmem : ∀ a, a ∈ as ↔ a ∈ bs) :
    as.argmax key = bs.argmax key := by
  cases ha : as.argmax key with
  | none =>
    have has : as = [] := argmax_eq_none.1 ha
    have hbs : bs = [] := eq_nil_iff_forall_not_mem.2 fun b hb => by
      simpa [has] using (hmem b).2 hb
    rw [hbs]
    rfl
  | some a =>
    have hma : a ∈ as := argmax_mem ha
    cases hb : bs.argmax key with
    | none =>
      have hma' := (hmem a).1 hma
      rw [argmax_eq_none.1 hb] at hma'
      exact absurd hma' not_mem_nil
    | some b =>
      have hmb : b ∈ as := (hmem b).2 (argmax_mem hb)
      have hab : key b ≤ key a := le_of_mem_argmax hmb ha
      have hba : key a ≤ key b := le_of_mem_argmax ((hmem a).1 hma) hb
      rw [hkey a hma b hmb (le_antisymm hba hab)]

theorem argmax_eq_some_of_lt {as : List α} {a : α} (ha : a ∈ as)
    (hlt : ∀ b ∈ as, b ≠ a → key b < key a) : as.argmax key = some a := by
  cases hmax : as.argmax key with
  | none =>
    rw [argmax_eq_none.1 hmax] at ha
    exact absurd ha not_mem_nil
  | some b =>
    by_contra hne
    have hb : b ≠ a := fun h => hne (h ▸ rfl)
    exact absurd (le_of_mem_argmax ha hmax) (not_le.2 (hlt b (argmax_mem hmax) hb))

/-! ### A register for every owner -/

section Owner

variable {ι : Type*} [DecidableEq ι]

/-- What the register of `i` holds after `a` is offered to the register of its owner. -/
def offerAt (key : α → κ) (owner : α → ι) (i : ι) (r : Option α) (a : α) : Option α :=
  if owner a = i then offer key r a else r

variable {owner : α → ι} {i : ι} {r : Option α} {as bs : List α}

/-- **The register of an owner** ends up with the newest entry of the owner. -/
theorem foldl_offerAt : as.foldl (offerAt key owner i) r =
    (r.toList ++ as.filter fun a => owner a = i).argmax key := by
  rw [← foldl_offer]
  induction as generalizing r with
  | nil => rfl
  | cons a as ih =>
    rw [foldl_cons, ih, filter_cons, offerAt]
    by_cases h : owner a = i <;> simp [h]

/-- Registers with the same content that are offered the same entries end up the same, in whatever
order the entries come and how often, if the entries of one owner have different keys. -/
theorem foldl_offerAt_eq_of_mem_iff
    (hkey : ∀ a ∈ as, ∀ b ∈ as, owner a = owner b → key a = key b → a = b)
    (hmem : ∀ a, a ∈ as ↔ a ∈ bs) :
    as.foldl (offerAt key owner i) r = bs.foldl (offerAt key owner i) r := by
  have hmax : (as.filter fun a => owner a = i).argmax key =
      (bs.filter fun a => owner a = i).argmax key := by
    apply argmax_eq_of_mem_iff
    · intro a ha b hb hab
      rw [mem_filter, decide_eq_true_eq] at ha hb
      exact hkey a ha.1 b hb.1 (ha.2.trans hb.2.symm) hab
    · intro a
      simp only [mem_filter, hmem a]
  rw [foldl_offerAt, foldl_offerAt]
  cases r with
  | none => exact hmax
  | some b =>
    rw [Option.toList_some, singleton_append, singleton_append, argmax_cons, argmax_cons, hmax]

end Owner

end Newest

end PactMesh
