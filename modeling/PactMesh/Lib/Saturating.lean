import Mathlib.Algebra.Order.Ring.Nat

/-!
# Saturating arithmetic

Addition and subtraction of machine numbers that stop at the ends of the range.
-/

namespace PactMesh

/-- `a.saturating_sub(b)` on 64-bit numbers. -/
def satSub (a b : UInt64) : UInt64 := if b ≤ a then a - b else 0

/-- `a.saturating_add(b)` on 64-bit numbers. -/
def satAdd (a b : UInt64) : UInt64 := if a.toNat + b.toNat < 2 ^ 64 then a + b else 0 - 1

/-- `a.saturating_add(b)` on 32-bit numbers. -/
def satAdd32 (a b : UInt32) : UInt32 := if a.toNat + b.toNat < 2 ^ 32 then a + b else 0 - 1

theorem toNat_satSub (a b : UInt64) : (satSub a b).toNat = a.toNat - b.toNat := by
  unfold satSub
  split_ifs with h
  · exact UInt64.toNat_sub_of_le a b h
  · rw [UInt64.le_iff_toNat_le] at h
    rw [UInt64.toNat_zero]
    omega

theorem toNat_satAdd_one {a : UInt64} (h : a ≠ 0 - 1) : (satAdd a 1).toNat = a.toNat + 1 := by
  have hne : a.toNat ≠ 2 ^ 64 - 1 := fun ha => h (UInt64.toNat_inj.1 (by rw [ha]; rfl))
  have hlt := a.toNat_lt
  have hsum : a.toNat + (1 : UInt64).toNat < 2 ^ 64 := by
    rw [UInt64.toNat_one]
    omega
  rw [satAdd, if_pos hsum, UInt64.toNat_add, UInt64.toNat_one]
  omega

theorem toNat_satAdd32 (a b : UInt32) :
    (satAdd32 a b).toNat = min (a.toNat + b.toNat) (2 ^ 32 - 1) := by
  unfold satAdd32
  split_ifs with h
  · rw [UInt32.toNat_add, Nat.mod_eq_of_lt h]
    omega
  · rw [show (0 - 1 : UInt32).toNat = 2 ^ 32 - 1 from rfl]
    omega

end PactMesh
