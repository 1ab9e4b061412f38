import PactMesh.Rpc.Packet

/-!
# Compressing a content and unpacking it again

The decompressor does not know how long the content was.  It tries output buffers of twice to 32 times
the compressed length, the last one of 64 KiB at least, while a compression ratio has no bound.

Main result: `compression_round_trip_iff`.
-/

namespace PactMesh

open List Endian

/-- zstd compresses everything, and it gives back what was compressed, unless the output buffer is
too small for it. -/
structure ZstdCorrect (C : ZstdCompress) (Z : Zstd) : Prop where
  compress : ∀ data, ∃ out, C data = .ok out
  decompress : ∀ data out capacity, C data = .ok out →
    Z out capacity = if data.length ≤ capacity then .ok data else .error .bufferTooSmall

def largestAttempt (compressedLen : ℕ) : ℕ := max (32 * compressedLen) (64 * 1024)

section Attempts

variable {C : ZstdCompress} {Z : Zstd} {content out : List UInt8}

theorem decompressAttempts_eq (hZ : ZstdCorrect C Z) (hC : C content = .ok out)
    (attempts : List ℕ) : decompressAttempts Z out attempts =
      if ∃ i ∈ attempts, content.length ≤ attemptLen out.length i then .ok content
      else .error .multipleAttempts := by
  induction attempts with
  | nil => simp [decompressAttempts]
  | cons i attempts ih =>
    rw [decompressAttempts, hZ.decompress content out _ hC]
    by_cases hfits : content.length ≤ attemptLen out.length i
    · simp [hfits]
    · simp [hfits, ih]

theorem attemptLen_le_largest {i n : ℕ} (hi : i ≤ 5) : attemptLen n i ≤ largestAttempt n := by
  have hpow : n * 2 ^ i ≤ n * 2 ^ 5 := Nat.mul_le_mul_left n (Nat.pow_le_pow_right (by decide) hi)
  unfold attemptLen largestAttempt
  dsimp only
  split_ifs <;> omega

theorem attemptLen_five (n : ℕ) : attemptLen n 5 = largestAttempt n := by
  unfold attemptLen largestAttempt
  dsimp only
  split_ifs <;> omega

theorem decompressRaw_eq (hZ : ZstdCorrect C Z) (hC : C content = .ok out) :
    decompressRaw Z out = if content.length ≤ largestAttempt out.length then .ok content
      else .error .multipleAttempts := by
  have hfits : (∃ i ∈ [1, 2, 3, 4, 5], content.length ≤ attemptLen out.length i) ↔
      content.length ≤ largestAttempt out.length := by
    constructor
    · rintro ⟨i, hi, hle⟩
      have hi5 : i ≤ 5 := by
        simp only [mem_cons, not_mem_nil, or_false] at hi
        omega
      exact hle.trans (attemptLen_le_largest hi5)
    · intro hle
      exact ⟨5, by simp, hle.trans_eq (attemptLen_five _).symm⟩
  rw [decompressRaw, decompressAttempts_eq hZ hC]
  simp only [hfits]

end Attempts

section RoundTrip

variable {C : ZstdCompress} {Z : Zstd}

theorem compressPacket_cases (hZ : ZstdCorrect C Z) (accepted : CompressionAlgoPb)
    (content : List UInt8) :
    compressPacket C accepted content = .ok (content, .none) ∨
      ∃ out, compressPacket C accepted content = .ok (out, .zstd) ∧ C content = .ok out ∧
        out.length < content.length := by
  cases halgo : accepted.toCompressorAlgo.getD .none with
  | none => simp [compressPacket, halgo, compressRaw]
  | zstdDefault =>
    obtain ⟨out, hout⟩ := hZ.compress content
    have hraw : compressRaw C content .zstdDefault = .ok out := by
      rw [compressRaw, hout]
      rfl
    simp only [compressPacket, halgo, hraw]
    by_cases hle : content.length ≤ out.length
    · simp [hle]
    · exact .inr ⟨out, by rw [if_neg hle]; rfl, hout, Nat.lt_of_not_le hle⟩

theorem decompressPacket_zstd (hZ : ZstdCorrect C Z) {content out : List UInt8}
    (hC : C content = .ok out) : decompressPacket Z .zstd out =
      if content.length ≤ largestAttempt out.length then .ok content
      else .error (.executionError (.decompress .multipleAttempts)) := by
  simp only [decompressPacket, CompressionAlgoPb.toCompressorAlgo, decompressRaw_eq hZ hC]
  split_ifs <;> rfl

end RoundTrip

/-- **When a content comes back**: just if it was not compressed, or is no longer than the largest
buffer that is tried for its compressed form. -/
theorem compression_round_trip_iff (C : ZstdCompress) (Z : Zstd) (hZ : ZstdCorrect C Z)
    (accepted : CompressionAlgoPb) (content : List UInt8) :
    ∃ out algo, compressPacket C accepted content = .ok (out, algo) ∧
      (decompressPacket Z algo out = .ok content ↔
        (algo = .zstd → content.length ≤ max (32 * out.length) (64 * 1024))) := by
  obtain hplain | ⟨out, hzstd, hC, -⟩ := compressPacket_cases hZ accepted content
  · exact ⟨content, .none, hplain, iff_of_true rfl nofun⟩
  · refine ⟨out, .zstd, hzstd, ?_⟩
    rw [decompressPacket_zstd hZ hC, forall_prop_of_true rfl]
    change _ ↔ content.length ≤ largestAttempt out.length
    split_ifs with hle
    · exact iff_of_true rfl hle
    · exact iff_of_false nofun hle

def zeroRunCompress : ZstdCompress := fun data =>
  .ok (if data = List.replicate data.length 0 ∧ data.length < 256 ^ 8
    then 1 :: beBytes 8 data.length else 0 :: data)

def intoBuffer (data : List UInt8) (capacity : ℕ) : Except ZstdError (List UInt8) :=
  if data.length ≤ capacity then .ok data else .error .bufferTooSmall

def zeroRunDecompress : Zstd := fun data capacity =>
  if data.head? = some 1 then intoBuffer (List.replicate (beNat data.tail) 0) capacity
  else intoBuffer data.tail capacity

theorem zstdCorrect_zeroRun : ZstdCorrect zeroRunCompress zeroRunDecompress where
  compress data := ⟨_, rfl⟩
  decompress data out capacity hout := by
    cases hout
    split_ifs with hzeros hfits hfits
    · simp [zeroRunDecompress, intoBuffer, beNat_beBytes hzeros.2, hfits, ← hzeros.1]
    · simp [zeroRunDecompress, intoBuffer, beNat_beBytes hzeros.2, hfits]
    · simp [zeroRunDecompress, intoBuffer, hfits]
    · simp [zeroRunDecompress, intoBuffer, hfits]

theorem zeroRunCompress_replicate {n : ℕ} (h : n < 256 ^ 8) :
    zeroRunCompress (List.replicate n 0) = .ok (1 :: beBytes 8 n) := by
  rw [zeroRunCompress, length_replicate, if_pos ⟨rfl, h⟩]

theorem length_zeroRun (n : ℕ) : (1 :: beBytes 8 n).length = 9 := by
  rw [length_cons, length_beBytes]

/-- **70000 zeros are compressed and cannot be unpacked**: nine bytes announce at most 64 KiB. -/
theorem long_run_lost :
    ZstdCorrect zeroRunCompress zeroRunDecompress ∧
      ∃ out, compressPacket zeroRunCompress .zstd (List.replicate 70000 0) = .ok (out, .zstd) ∧
        decompressPacket zeroRunDecompress .zstd out =
          .error (.executionError (.decompress .multipleAttempts)) := by
  have hC := zeroRunCompress_replicate (n := 70000) (by decide)
  refine ⟨zstdCorrect_zeroRun, 1 :: beBytes 8 70000, ?_, ?_⟩
  · have hraw : compressRaw zeroRunCompress (List.replicate 70000 0) .zstdDefault =
        .ok (1 :: beBytes 8 70000) := by
      rw [compressRaw, hC]
      rfl
    have hshort : ¬ (List.replicate 70000 (0 : UInt8)).length ≤
        (1 :: beBytes 8 70000).length := by
      rw [length_replicate, length_zeroRun]
      decide
    simp only [compressPacket, CompressionAlgoPb.toCompressorAlgo, Option.getD_some, hraw,
      if_neg hshort]
    rfl
  · have hlong : ¬ (List.replicate 70000 (0 : UInt8)).length ≤
        largestAttempt (1 :: beBytes 8 70000).length := by
      rw [length_replicate, length_zeroRun]
      decide
    rw [decompressPacket_zstd zstdCorrect_zeroRun hC, if_neg hlong]

/-- A hundred zeros come back. -/
theorem short_run_comes_back :
    ∃ out algo, compressPacket zeroRunCompress .zstd (List.replicate 100 0) = .ok (out, algo) ∧
      decompressPacket zeroRunDecompress algo out = .ok (List.replicate 100 0) := by
  obtain ⟨out, algo, hcompress, hiff⟩ := compression_round_trip_iff zeroRunCompress
    zeroRunDecompress zstdCorrect_zeroRun .zstd (List.replicate 100 0)
  exact ⟨out, algo, hcompress, hiff.2 fun _ => by simp⟩

end PactMesh
