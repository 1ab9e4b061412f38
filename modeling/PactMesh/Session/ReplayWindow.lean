import PactMesh.Lib.ByteBitmap
import Mathlib.Tactic.ByContra

/-!
# The anti-replay window

`ReplayWindow256` is the sliding window of one epoch and direction: the largest sequence number
accepted so far and a bitmap whose bit `d` records the number `maxSeq - d`.  The bitmap is the
32-byte array of the source and is moved by the byte loops of `ByteBitmap`.

* `replay_window_refines_set` : the window is the set of the accepted numbers.
-/

namespace PactMesh

open ByteBitmap

structure ReplayWindow256 where
  /-- the largest sequence number accepted so far -/
  maxSeq : UInt64
  /-- bit `d` is set when `maxSeq - d` has been accepted -/
  bitmap : List UInt8
  /-- whether a sequence number has been accepted at all -/
  valid : Bool
  /-- the bitmap is the array `[u8; 32]` -/
  length_bitmap : bitmap.length = 32
deriving DecidableEq

namespace ReplayWindow256

/-- `ReplayWindow256::default()`, also what `clear` leaves. -/
def empty : ReplayWindow256 where
  maxSeq := 0
  bitmap := List.replicate 32 0
  valid := false
  length_bitmap := List.length_replicate

variable (w : ReplayWindow256)

/-- Whether the number `idx` below `maxSeq` has been accepted. -/
def testBit (idx : ℕ) : Bool := ByteBitmap.testBit w.bitmap idx

/-- Record the number `idx` below `maxSeq`. -/
def setBit (idx : ℕ) : ReplayWindow256 :=
  { w with
    bitmap := ByteBitmap.setBit w.bitmap idx
    length_bitmap := by rw [length_setBit, w.length_bitmap] }

/-- Make room for `shift` larger sequence numbers. -/
def shiftRight (shift : ℕ) : ReplayWindow256 :=
  if shift = 0 then w
  else if 256 ≤ shift then
    { w with
      bitmap := List.replicate 32 0
      length_bitmap := List.length_replicate }
  else
    { w with
      bitmap := shiftUp shift w.bitmap
      length_bitmap := by rw [length_shiftUp, w.length_bitmap] }

/-- Accept `seq`, or reject it and change nothing. Differences are cast to `usize`, which is taken to
have 64 bits, so that the cast loses nothing. -/
def accept (seq : UInt64) : Bool × ReplayWindow256 :=
  if !w.valid then
    (true, { w with valid := true, maxSeq := seq }.setBit 0)
  else if w.maxSeq < seq then
    (true, { w.shiftRight (seq - w.maxSeq).toNat with maxSeq := seq }.setBit 0)
  else
    let delta := (w.maxSeq - seq).toNat
    if 256 ≤ delta then (false, w)
    else if w.testBit delta then (false, w)
    else (true, w.setBit delta)

/-- What `accept` would answer. -/
def canAccept (seq : UInt64) : Bool :=
  if !w.valid || decide (w.maxSeq < seq) then true
  else
    let delta := (w.maxSeq - seq).toNat
    decide (delta < 256) && !w.testBit delta

variable {w}

@[simp] theorem setBit_maxSeq (idx : ℕ) : (w.setBit idx).maxSeq = w.maxSeq := rfl

@[simp] theorem setBit_valid (idx : ℕ) : (w.setBit idx).valid = w.valid := rfl

@[simp] theorem shiftRight_valid (shift : ℕ) : (w.shiftRight shift).valid = w.valid := by
  unfold shiftRight
  split_ifs <;> rfl

@[simp] theorem testBit_setBit {i : ℕ} (hi : i < 256) (j : ℕ) :
    (w.setBit i).testBit j = (decide (i = j) || w.testBit j) :=
  ByteBitmap.testBit_setBit (by rw [w.length_bitmap]; exact hi) j

theorem testBit_shiftRight (shift : ℕ) {i : ℕ} (hi : i < 256) :
    (w.shiftRight shift).testBit i = (decide (shift ≤ i) && w.testBit (i - shift)) := by
  unfold shiftRight
  split_ifs with h0 h256
  · simp [h0]
  · rw [decide_eq_false (show ¬ shift ≤ i by omega), Bool.false_and]
    exact testBit_replicate_zero 32 i
  · exact testBit_shiftUp shift (by rw [w.length_bitmap]; exact hi)

def Rejects (w : ReplayWindow256) (seq : UInt64) : Prop := w.canAccept seq = false

/-- The window rejects a number when it is valid, the number is not above `maxSeq`, and it either
fell out of the window or has its bit set. -/
theorem rejects_iff {seq : UInt64} :
    w.Rejects seq ↔ w.valid = true ∧ seq.toNat ≤ w.maxSeq.toNat ∧
      (256 ≤ w.maxSeq.toNat - seq.toNat ∨ w.testBit (w.maxSeq.toNat - seq.toNat) = true) := by
  unfold Rejects canAccept
  cases w.valid
  · simp
  · by_cases hlt : w.maxSeq < seq
    · simp [hlt, UInt64.lt_iff_toNat_lt.1 hlt]
    · have hle : seq ≤ w.maxSeq := UInt64.not_lt.1 hlt
      simp [hlt, UInt64.le_iff_toNat_le.1 hle, UInt64.toNat_sub_of_le _ _ hle, imp_iff_not_or]

theorem accept_fst (seq : UInt64) : (w.accept seq).1 = w.canAccept seq := by
  unfold accept canAccept
  cases w.valid
  · rfl
  · by_cases hlt : w.maxSeq < seq
    · simp [hlt]
    · by_cases hd : 256 ≤ (w.maxSeq - seq).toNat
      · simp [hlt, hd]
      · cases hb : w.testBit (w.maxSeq - seq).toNat <;>
          simp [hlt, hd, hb, show (w.maxSeq - seq).toNat < 256 by omega]

theorem accept_cases (w : ReplayWindow256) (seq : UInt64) :
    (w.valid = false ∧ w.accept seq = (true, { w with valid := true, maxSeq := seq }.setBit 0)) ∨
    (w.valid = true ∧ w.maxSeq.toNat < seq.toNat ∧ w.accept seq =
      (true, { w.shiftRight (seq.toNat - w.maxSeq.toNat) with maxSeq := seq }.setBit 0)) ∨
    (w.Rejects seq ∧ w.accept seq = (false, w)) ∨
    (w.valid = true ∧ seq.toNat ≤ w.maxSeq.toNat ∧ w.maxSeq.toNat - seq.toNat < 256 ∧
      w.accept seq = (true, w.setBit (w.maxSeq.toNat - seq.toNat))) := by
  rw [rejects_iff]
  cases hv : w.valid
  · exact .inl ⟨rfl, by simp [accept, hv]⟩
  by_cases hlt : w.maxSeq < seq
  · have hsub := UInt64.toNat_sub_of_le _ _ (UInt64.le_of_lt hlt)
    exact .inr (.inl ⟨rfl, UInt64.lt_iff_toNat_lt.1 hlt, by simp [accept, hv, hlt, hsub]⟩)
  have hle : seq ≤ w.maxSeq := UInt64.not_lt.1 hlt
  have hsub := UInt64.toNat_sub_of_le _ _ hle
  rw [UInt64.le_iff_toNat_le] at hle
  by_cases hd : 256 ≤ w.maxSeq.toNat - seq.toNat
  · exact .inr (.inr (.inl ⟨⟨rfl, hle, .inl hd⟩, by simp [accept, hv, hlt, hsub, hd]⟩))
  cases hb : w.testBit (w.maxSeq.toNat - seq.toNat)
  · exact .inr (.inr (.inr ⟨rfl, hle, by omega, by simp [accept, hv, hlt, hsub, hd, hb]⟩))
  · exact .inr (.inr (.inl ⟨⟨rfl, hle, .inr rfl⟩, by simp [accept, hv, hlt, hsub, hd, hb]⟩))

theorem accept_of_rejects {q : UInt64} (hq : w.Rejects q) : w.accept q = (false, w) := by
  have hfst : (w.accept q).1 = false := (accept_fst q).trans hq
  obtain ⟨-, h⟩ | ⟨-, -, h⟩ | ⟨-, h⟩ | ⟨-, -, -, h⟩ := w.accept_cases q <;> simp_all

/-- **What an accepted number adds to the rejected ones**: itself, and those that leave the window. -/
theorem rejects_accept_iff {q seq : UInt64} (hw : w.valid = true ∨ w = empty) (hq : ¬ w.Rejects q) :
    (w.accept q).2.Rejects seq ↔ w.Rejects seq ∨ seq = q ∨ seq.toNat + 256 ≤ q.toNat := by
  rw [← UInt64.toNat_inj, rejects_iff, rejects_iff]
  obtain ⟨hv, h⟩ | ⟨hv, hlt, h⟩ | ⟨hr, -⟩ | ⟨hv, hle, hd, h⟩ := w.accept_cases q
  · obtain rfl : w = empty := hw.resolve_left (by simp [hv])
    have hbit : ∀ d, (empty.accept q).2.testBit d = decide (0 = d) := by
      intro d
      rw [h, testBit_setBit (by decide)]
      exact (congrArg _ (testBit_replicate_zero 32 d)).trans (Bool.or_false _)
    simp only [hbit]
    simp only [h, setBit_maxSeq, setBit_valid, hv]
    grind
  · -- the maximum moves up to `q`, and the bits with it
    have hbit : ∀ d < 256, (w.accept q).2.testBit d = (decide (0 = d) ||
        (decide (q.toNat - w.maxSeq.toNat ≤ d) && w.testBit (d - (q.toNat - w.maxSeq.toNat)))) := by
      intro d hd
      rw [h, testBit_setBit (by decide)]
      exact congrArg _ (testBit_shiftRight _ hd)
    have hmax : (w.accept q).2.maxSeq = q := by rw [h]; rfl
    have hvalid : (w.accept q).2.valid = true := by rw [h]; simp [hv]
    rw [hmax, hvalid, hv]
    grind
  · exact absurd hr hq
  · simp only [h, setBit_maxSeq, setBit_valid, testBit_setBit hd]
    grind

theorem rejects_accept_self (w : ReplayWindow256) (seq : UInt64) :
    (w.accept seq).2.Rejects seq := by
  by_cases hq : w.Rejects seq
  · rw [accept_of_rejects hq]
    exact hq
  obtain ⟨_, h⟩ | ⟨hv, -⟩ | ⟨hr, -⟩ | ⟨hv, -⟩ := w.accept_cases seq
  · rw [h, rejects_iff]
    simp
  · exact (rejects_accept_iff (.inl hv) hq).2 (.inr (.inl rfl))
  · exact absurd hr hq
  · exact (rejects_accept_iff (.inl hv) hq).2 (.inr (.inl rfl))

/-- **What the window rejects it goes on rejecting.** -/
theorem rejects_accept {seq : UInt64} (hr : w.Rejects seq) (q : UInt64) :
    (w.accept q).2.Rejects seq := by
  by_cases hq : w.Rejects q
  · rw [accept_of_rejects hq]
    exact hr
  · exact (rejects_accept_iff (.inl (rejects_iff.1 hr).1) hq).2 (.inl hr)

/-! ### The set of accepted numbers -/

/-- The numbers accepted so far and the window, after one more number. -/
def acceptNext (st : List UInt64 × ReplayWindow256) (seq : UInt64) : List UInt64 × ReplayWindow256 :=
  (if (st.2.accept seq).1 then seq :: st.1 else st.1, (st.2.accept seq).2)

/-- The window rejects the accepted numbers and those too far below one of them. -/
def Refines (st : List UInt64 × ReplayWindow256) : Prop :=
  (st.2.valid = true ∨ st.2 = empty) ∧
    ∀ seq, st.2.Rejects seq ↔ seq ∈ st.1 ∨ ∃ q ∈ st.1, seq.toNat + 256 ≤ q.toNat

theorem refines_acceptNext {st : List UInt64 × ReplayWindow256} (h : Refines st) (q : UInt64) :
    Refines (acceptNext st q) := by
  unfold acceptNext
  by_cases hq : st.2.Rejects q
  · rw [accept_of_rejects hq]
    exact h
  have htrue : (st.2.accept q).1 = true := by
    rw [accept_fst]
    simpa [Rejects] using hq
  rw [htrue]
  refine ⟨.inl (rejects_iff.1 (rejects_accept_self st.2 q)).1, fun seq => ?_⟩
  dsimp only
  rw [rejects_accept_iff h.1 hq, h.2 seq, if_pos rfl, List.mem_cons, List.exists_mem_cons_iff]
  exact or_or_or_comm.trans (or_congr or_comm or_comm)

/-- **The window refines the set of accepted numbers**: it accepts a number that it has not accepted
and that is above the largest accepted one less 256, and `can_accept` says so beforehand. -/
theorem replay_window_refines_set (seqs : List UInt64) (seq : UInt64) :
    match seqs.foldl acceptNext ([], empty) with
    | (accepted, w) => ((w.accept seq).1 = true ↔
        seq ∉ accepted ∧ ∀ q ∈ accepted, (q.toNat : ℤ) - 256 < seq.toNat) ∧
      w.canAccept seq = (w.accept seq).1 := by
  have hrefines : Refines (seqs.foldl acceptNext ([], empty)) := List.foldlRecOn seqs acceptNext
    ⟨.inr rfl, fun _ => by simp [rejects_iff, empty]⟩ fun _ h q _ => refines_acceptNext h q
  generalize seqs.foldl acceptNext ([], empty) = st at hrefines ⊢
  have hrejects := not_congr (hrefines.2 seq)
  dsimp only
  rw [accept_fst]
  refine ⟨?_, rfl⟩
  rw [Rejects, Bool.not_eq_false] at hrejects
  rw [hrejects, not_or]
  refine and_congr_right fun _ => ?_
  simp only [not_exists, not_and]
  exact forall₂_congr fun q _ => by omega

end ReplayWindow256

end PactMesh
