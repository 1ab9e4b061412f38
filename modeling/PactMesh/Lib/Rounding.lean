import Mathlib.Data.Int.Log
import Mathlib.Data.Rat.Floor
import Mathlib.Tactic.Linarith

/-!
# Rounding to binary digits

Non-negative rational numbers rounded to a number of binary digits, ties to even, as the results of
floating-point operations are within the range of the format.
-/

namespace PactMesh

namespace Rounding

/-- The nearest natural number; of two equally near ones, the even one. -/
def halfEven (q : ℚ) : ℕ :=
  let n := ⌊q⌋₊
  if q - n < 1 / 2 ∨ q - n = 1 / 2 ∧ n % 2 = 0 then n else n + 1

/-- The value of the last of `p` binary digits. -/
def lastPlace (p : ℕ) (q : ℚ) : ℚ := 2 ^ (Int.log 2 q + 1 - p)

/-- The nearest number with `p` binary digits. -/
def toDigits (p : ℕ) (q : ℚ) : ℚ := halfEven (q / lastPlace p q) * lastPlace p q

theorem sub_half_le_halfEven (q : ℚ) : q - 1 / 2 ≤ halfEven q := by
  have hlt : q < ⌊q⌋₊ + 1 := Nat.lt_floor_add_one q
  unfold halfEven
  dsimp only
  split_ifs with h
  · rcases h with h | h
    · linarith
    · linarith [h.1]
  · push_cast
    linarith

theorem lastPlace_pos (p : ℕ) (q : ℚ) : 0 < lastPlace p q := zpow_pos two_pos _

theorem lastPlace_le {q : ℚ} (p : ℕ) (hq : 0 < q) : lastPlace p q / 2 ≤ q / 2 ^ p := by
  have hlog : (2 : ℚ) ^ Int.log 2 q ≤ q := by
    exact_mod_cast Int.zpow_log_le_self (b := 2) one_lt_two hq
  have hplace : lastPlace p q / 2 = 2 ^ Int.log 2 q / 2 ^ p := by
    rw [lastPlace, zpow_sub₀ two_ne_zero, zpow_add₀ two_ne_zero, zpow_one, zpow_natCast]
    ring
  rw [hplace]
  gcongr

theorem le_toDigits {q : ℚ} (p : ℕ) (hq : 0 ≤ q) : q - q / 2 ^ p ≤ toDigits p q := by
  rcases hq.eq_or_lt with rfl | hq
  · rw [zero_div, sub_zero]
    exact mul_nonneg (Nat.cast_nonneg _) (lastPlace_pos p 0).le
  · have hpos := lastPlace_pos p q
    calc q - q / 2 ^ p ≤ q - lastPlace p q / 2 := by linarith [lastPlace_le p hq]
      _ = (q / lastPlace p q - 1 / 2) * lastPlace p q := by
        rw [sub_mul, div_mul_cancel₀ q hpos.ne']
        ring
      _ ≤ toDigits p q := mul_le_mul_of_nonneg_right (sub_half_le_halfEven _) hpos.le

end Rounding

end PactMesh
