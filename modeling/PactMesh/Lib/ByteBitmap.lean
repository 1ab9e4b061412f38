import Mathlib.Data.List.Basic
import Mathlib.Data.Nat.Bitwise

/-!
# Bitmaps stored as byte strings

Bit `i` of a bitmap is bit `i % 8` of byte `i / 8`.  `byteShift` moves whole bytes up by a descending
loop, `carryShift` moves bits up by less than one byte, handing a carry to the next byte, and
`shiftUp` composes the two.  The results say what each loop does bit by bit.
-/

namespace PactMesh

open List

namespace ByteBitmap

/-- Bit `i` of the bitmap; bits past the end are clear. -/
def testBit (bs : List UInt8) (i : ℕ) : Bool :=
  (bs.getD (i / 8) 0 >>> UInt8.ofNat (i % 8)) &&& 1 == 1

def setBit (bs : List UInt8) (i : ℕ) : List UInt8 :=
  bs.set (i / 8) (bs.getD (i / 8) 0 ||| (1 <<< UInt8.ofNat (i % 8)))

/-- The loop `for i in (0..k).rev() { b[i] = if i >= n { b[i - n] } else { 0 } }`. -/
def byteShiftFrom (n : ℕ) : ℕ → List UInt8 → List UInt8
  | 0, bs => bs
  | k + 1, bs => byteShiftFrom n k (bs.set k (if n ≤ k then bs.getD (k - n) 0 else 0))

/-- Move every byte up by `n` places. -/
def byteShift (n : ℕ) (bs : List UInt8) : List UInt8 := byteShiftFrom n bs.length bs

/-- Move every bit up by `s` places (`0 < s < 8`), handing the bits that leave a byte to the next
one as `carry`. -/
def carryShift (s : ℕ) : UInt8 → List UInt8 → List UInt8
  | _, [] => []
  | carry, b :: bs =>
    ((b <<< UInt8.ofNat s) ||| carry) :: carryShift s (b >>> UInt8.ofNat (8 - s)) bs

/-- Move every bit up by `k` places; bits that leave the bitmap are lost. -/
def shiftUp (k : ℕ) (bs : List UInt8) : List UInt8 :=
  let moved := if 0 < k / 8 then byteShift (k / 8) bs else bs
  if 0 < k % 8 then carryShift (k % 8) 0 moved else moved

/-! ### Bits of one byte -/

variable {j s i : ℕ} {bs : List UInt8}

theorem shiftRight_and_one (b : UInt8) (hj : j < 8) :
    ((b >>> UInt8.ofNat j) &&& 1 == 1) = b.toNat.testBit j := by
  rw [Bool.eq_iff_iff, beq_iff_eq, ← UInt8.toNat_inj, Nat.testBit_eq_decide_div_mod_eq]
  simp [UInt8.toNat_and, UInt8.toNat_shiftRight, Nat.mod_eq_of_lt hj,
    Nat.shiftRight_eq_div_pow, Nat.and_one_is_mod]

theorem testBit_eq (bs : List UInt8) (i : ℕ) :
    testBit bs i = (bs.getD (i / 8) 0).toNat.testBit (i % 8) :=
  shiftRight_and_one _ (Nat.mod_lt _ (by decide))

theorem toNat_testBit_of_ge (b : UInt8) (hj : 8 ≤ j) : b.toNat.testBit j = false :=
  Nat.testBit_lt_two_pow (lt_of_lt_of_le b.toNat_lt (Nat.pow_le_pow_right (by decide) hj))

theorem toNat_testBit_shiftLeft (b : UInt8) (hs : s < 8) (hj : j < 8) :
    (b <<< UInt8.ofNat s).toNat.testBit j = (decide (s ≤ j) && b.toNat.testBit (j - s)) := by
  rw [UInt8.toNat_shiftLeft, Nat.testBit_mod_two_pow]
  simp [Nat.mod_eq_of_lt hs, hj, Nat.testBit_shiftLeft]

theorem toNat_testBit_shiftRight (b : UInt8) (hs : s < 8) :
    (b >>> UInt8.ofNat s).toNat.testBit j = b.toNat.testBit (s + j) := by
  simp [UInt8.toNat_shiftRight, Nat.mod_eq_of_lt hs, Nat.testBit_shiftRight]

theorem testBit_replicate_zero (n i : ℕ) : testBit (List.replicate n 0) i = false := by
  rw [testBit_eq]
  by_cases hi : i / 8 < n
  · rw [getD_replicate _ hi, UInt8.toNat_zero, Nat.zero_testBit]
  · rw [getD_eq_default _ _ (by rw [length_replicate]; omega), UInt8.toNat_zero, Nat.zero_testBit]

/-! ### Setting a bit -/

@[simp] theorem length_setBit (bs : List UInt8) (i : ℕ) : (setBit bs i).length = bs.length := by
  simp [setBit]

theorem testBit_setBit (hi : i < 8 * bs.length) (j : ℕ) :
    testBit (setBit bs i) j = (decide (i = j) || testBit bs j) := by
  have hlen : i / 8 < bs.length := by omega
  rw [testBit_eq, testBit_eq, setBit]
  by_cases hb : i / 8 = j / 8
  · have hbit := toNat_testBit_shiftLeft 1 (Nat.mod_lt i (by decide : 0 < 8))
      (Nat.mod_lt j (by decide : 0 < 8))
    have hone : ∀ m, (1 : UInt8).toNat.testBit m = decide (m = 0) := by
      intro m
      cases m <;> simp [Nat.testBit_succ]
    have hij : i = j ↔ i % 8 = j % 8 := by omega
    rw [hb] at hlen
    rw [hb, getD_eq_getElem?_getD, getElem?_set_self hlen, Option.getD_some,
      UInt8.toNat_or, Nat.testBit_or, hbit, hone, Bool.or_comm]
    congr 1
    rw [Bool.eq_iff_iff]
    simp only [Bool.and_eq_true, decide_eq_true_eq, hij]
    omega
  · have hij : i ≠ j := by rintro rfl; exact hb rfl
    simp [getD_eq_getElem?_getD, getElem?_set_ne hb, hij]

@[simp] theorem length_foldl_setBit (is : List ℕ) (bs : List UInt8) :
    (is.foldl setBit bs).length = bs.length := by
  induction is generalizing bs with
  | nil => rfl
  | cons i is ih => rw [foldl_cons, ih, length_setBit]

theorem testBit_foldl_setBit {is : List ℕ} (his : ∀ i ∈ is, i < 8 * bs.length) (j : ℕ) :
    testBit (is.foldl setBit bs) j = (decide (j ∈ is) || testBit bs j) := by
  induction is generalizing bs with
  | nil => simp
  | cons i is ih =>
    obtain ⟨hi, his⟩ := forall_mem_cons.1 his
    rw [foldl_cons, ih (by simpa using his), testBit_setBit hi, ← Bool.or_assoc]
    congr 1
    rw [Bool.eq_iff_iff]
    simp only [Bool.or_eq_true, decide_eq_true_eq, mem_cons]
    exact or_comm.trans (or_congr_left eq_comm)

/-! ### Moving whole bytes -/

@[simp] theorem length_byteShiftFrom (n k : ℕ) (bs : List UInt8) :
    (byteShiftFrom n k bs).length = bs.length := by
  induction k generalizing bs with
  | zero => rfl
  | succ k ih => rw [byteShiftFrom, ih, length_set]

/-- The descending loop only reads bytes it has not overwritten yet, so below `k` it writes the
moved bytes and from `k` on it changes nothing. -/
theorem getD_byteShiftFrom (n : ℕ) {k : ℕ} (hk : k ≤ bs.length) (i : ℕ) :
    (byteShiftFrom n k bs).getD i 0 =
      if i < k then (if n ≤ i then bs.getD (i - n) 0 else 0) else bs.getD i 0 := by
  induction k generalizing bs with
  | zero => simp [byteShiftFrom]
  | succ k ih =>
    rw [byteShiftFrom, ih (by rw [length_set]; omega)]
    have hset : ∀ m, (bs.set k (if n ≤ k then bs.getD (k - n) 0 else 0)).getD m 0 =
        if m = k then (if n ≤ k then bs.getD (k - n) 0 else 0) else bs.getD m 0 := by
      intro m
      by_cases hm : m = k
      · subst hm
        simp [getD_eq_getElem?_getD, getElem?_set_self (show m < bs.length by omega)]
      · simp [getD_eq_getElem?_getD, getElem?_set_ne (Ne.symm hm), hm]
    rw [hset, hset]
    by_cases hi : i < k
    · have h1 : i - n ≠ k := by omega
      simp [hi, h1, show i < k + 1 by omega]
    · by_cases hik : i = k
      · simp [hik]
      · simp [hi, hik, show ¬ i < k + 1 by omega]

@[simp] theorem length_byteShift (n : ℕ) (bs : List UInt8) : (byteShift n bs).length = bs.length :=
  length_byteShiftFrom n _ bs

theorem testBit_byteShift (n : ℕ) (hi : i < 8 * bs.length) :
    testBit (byteShift n bs) i = (decide (8 * n ≤ i) && testBit bs (i - 8 * n)) := by
  rw [testBit_eq, testBit_eq, byteShift, getD_byteShiftFrom n le_rfl,
    if_pos (show i / 8 < bs.length by omega)]
  by_cases hn : n ≤ i / 8
  · have h1 : (i - 8 * n) / 8 = i / 8 - n := by omega
    have h2 : (i - 8 * n) % 8 = i % 8 := by omega
    simp [hn, h1, h2, show 8 * n ≤ i by omega]
  · simp [hn, show ¬ 8 * n ≤ i by omega]

/-! ### Moving bits by less than a byte -/

@[simp] theorem length_carryShift (s : ℕ) (carry : UInt8) (bs : List UInt8) :
    (carryShift s carry bs).length = bs.length := by
  induction bs generalizing carry with
  | nil => rfl
  | cons b bs ih => rw [carryShift, length_cons, length_cons, ih]

theorem testBit_cons_of_lt (b : UInt8) (bs : List UInt8) (hi : i < 8) :
    testBit (b :: bs) i = b.toNat.testBit i := by
  rw [testBit_eq, Nat.div_eq_of_lt hi, Nat.mod_eq_of_lt hi, getD_cons_zero]

theorem testBit_cons_add (b : UInt8) (bs : List UInt8) (i : ℕ) :
    testBit (b :: bs) (i + 8) = testBit bs i := by
  rw [testBit_eq, testBit_eq, Nat.add_div_right i (by decide), Nat.add_mod_right, getD_cons_succ]

theorem testBit_carryShift (hs0 : 0 < s) (hs : s < 8) {carry : UInt8}
    (hc : ∀ j, s ≤ j → carry.toNat.testBit j = false) (hi : i < 8 * bs.length) :
    testBit (carryShift s carry bs) i =
      if s ≤ i then testBit bs (i - s) else carry.toNat.testBit i := by
  induction bs generalizing carry i with
  | nil => simp at hi
  | cons b bs ih =>
    rw [carryShift]
    by_cases h8 : i < 8
    · rw [testBit_cons_of_lt _ _ h8, UInt8.toNat_or, Nat.testBit_or,
        toNat_testBit_shiftLeft b hs h8]
      by_cases hsi : s ≤ i
      · rw [testBit_cons_of_lt _ _ (show i - s < 8 by omega), hc i hsi]
        simp [hsi]
      · simp [hsi]
    · obtain ⟨j, rfl⟩ : ∃ j, i = j + 8 := ⟨i - 8, by omega⟩
      have hj : j < 8 * bs.length := by rw [length_cons] at hi; omega
      have hc' : ∀ m, s ≤ m → (b >>> UInt8.ofNat (8 - s)).toNat.testBit m = false := by
        intro m hm
        rw [toNat_testBit_shiftRight b (show 8 - s < 8 by omega)]
        exact toNat_testBit_of_ge b (by omega)
      rw [testBit_cons_add, ih hc' hj, if_pos (show s ≤ j + 8 by omega)]
      by_cases hsj : s ≤ j
      · rw [if_pos hsj, show j + 8 - s = (j - s) + 8 by omega, testBit_cons_add]
      · rw [if_neg hsj, toNat_testBit_shiftRight b (show 8 - s < 8 by omega),
          testBit_cons_of_lt _ _ (show j + 8 - s < 8 by omega)]
        congr 1
        omega

/-! ### The whole shift -/

@[simp] theorem length_shiftUp (k : ℕ) (bs : List UInt8) : (shiftUp k bs).length = bs.length := by
  unfold shiftUp
  split_ifs <;> simp

/-- **The shift moves every bit up by `k`** and clears the first `k` bits. -/
theorem testBit_shiftUp (k : ℕ) (hi : i < 8 * bs.length) :
    testBit (shiftUp k bs) i = (decide (k ≤ i) && testBit bs (i - k)) := by
  unfold shiftUp
  generalize hmoved : (if 0 < k / 8 then byteShift (k / 8) bs else bs) = moved
  have hlen : moved.length = bs.length := by
    rw [← hmoved]
    split_ifs <;> simp
  have hbyte : ∀ {m}, m < 8 * bs.length →
      testBit moved m = (decide (8 * (k / 8) ≤ m) && testBit bs (m - 8 * (k / 8))) := by
    intro m hm
    rw [← hmoved]
    split_ifs with h0
    · exact testBit_byteShift _ hm
    · simp [show k / 8 = 0 by omega]
  split_ifs with hbit
  · rw [testBit_carryShift hbit (Nat.mod_lt _ (by decide)) (by simp) (by rw [hlen]; exact hi)]
    by_cases hle : k % 8 ≤ i
    · rw [if_pos hle, hbyte (show i - k % 8 < 8 * bs.length by omega),
        show i - k % 8 - 8 * (k / 8) = i - k by omega]
      congr 1
      rw [decide_eq_decide]
      omega
    · rw [if_neg hle]
      simp [show ¬ k ≤ i by omega]
  · rw [hbyte hi, show 8 * (k / 8) = k by omega]

end ByteBitmap

end PactMesh
