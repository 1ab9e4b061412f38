import PactMesh.Tunnel.PacketDef

/-!
# Decompression

A compressed packet ends in one byte that names the algorithm, which is zstd, a library; its output
buffer is sized from the input and enlarged a few times.
-/

namespace PactMesh

inductive ZstdError
  /-- "buffer is too small" -/
  | bufferTooSmall
  | other
deriving DecidableEq

/-- `zstd::bulk::Decompressor::decompress`: the input and the size of the output buffer. -/
abbrev Zstd := List UInt8 → Nat → Except ZstdError (List UInt8)

inductive DecompressError
  /-- "Packet too short" -/
  | packetTooShort (len : Nat)
  /-- "Unknown algo" -/
  | unknownAlgo (algo : UInt8)
  | zstd (e : ZstdError)
  /-- "Failed to decompress data after multiple attempts with algorithm" -/
  | multipleAttempts
  /-- "Decompressed length mismatch" -/
  | lengthMismatch (len hdrLen : Nat)
deriving DecidableEq

def compressorTailSize : Nat := 1

variable (Z : Zstd)

def attemptLen (dataLen i : Nat) : Nat :=
  let len := dataLen * 2 ^ i
  if i = 5 ∧ len < 64 * 1024 then 64 * 1024 else len

def decompressAttempts (data : List UInt8) : List Nat → Except DecompressError (List UInt8)
  | [] => .error .multipleAttempts
  | i :: attempts =>
    match Z data (attemptLen data.length i) with
    | .ok buf => .ok buf
    | .error .bufferTooSmall => decompressAttempts data attempts
    | .error e => .error (.zstd e)

/-- `decompress_raw` for `ZstdDefault`. -/
def decompressRaw (data : List UInt8) : Except DecompressError (List UInt8) :=
  decompressAttempts Z data [1, 2, 3, 4, 5]

def decompress (pkt : Packet) : Except DecompressError Packet :=
  if !pkt.hdr.isCompressed then .ok pkt
  else if pkt.payload.length < compressorTailSize then
    .error (.packetTooShort pkt.payload.length)
  else
    let textLen := pkt.payload.length - compressorTailSize
    let algo := pkt.payload.getD textLen 0
    if algo ≠ 1 then .error (.unknownAlgo algo)
    else
      match decompressRaw Z (pkt.payload.take textLen) with
      | .error e => .error e
      | .ok buf =>
        if buf.length ≠ pkt.hdr.len.toNat then .error (.lengthMismatch buf.length pkt.hdr.len.toNat)
        else .ok ⟨pkt.hdr.setCompressed false, buf⟩

variable {Z}

theorem decompress_hdr {p q : Packet} (h : decompress Z p = .ok q) :
    q.hdr = p.hdr ∨ q.hdr = p.hdr.setCompressed false := by
  simp only [decompress] at h
  split_ifs at h
  · cases h
    exact .inl rfl
  · split at h
    · cases h
    · split_ifs at h
      cases h
      exact .inr rfl

end PactMesh
