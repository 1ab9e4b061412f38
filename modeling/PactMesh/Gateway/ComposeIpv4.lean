import PactMesh.Lib.Inet
import PactMesh.Lib.Outcome

/-!
# Composing IPv4 packets

`compose_ipv4_packet` cuts a payload into IPv4 packets.  The payload stands in the buffer behind
room for one header, and each packet's header is written over the end of the packet before it.
-/

namespace PactMesh

open Inet Outcome

/-- The arguments of `compose_ipv4_packet`; the payload is in `buf[20..]`. -/
structure ComposeIpv4PacketArgs where
  buf : List UInt8
  srcV4 : BitVec 32
  dstV4 : BitVec 32
  nextProtocol : ℕ
  payloadLen : ℕ
  payloadMtu : ℕ
  ipId : ℕ

def ComposeIpv4PacketArgs.header (a : ComposeIpv4PacketArgs)
    (totalLength flags fragmentOffset : ℕ) : List UInt8 :=
  updateIpChecksum
    ([0x45, 0] ++ bytes16 totalLength ++ bytes16 a.ipId ++
      bytes16 (8192 * flags + fragmentOffset) ++ [32, UInt8.ofNat a.nextProtocol, 0, 0] ++
      bytes32 a.srcV4 ++ bytes32 a.dstV4)

def ComposeIpv4PacketArgs.fragmentFields (totalPieces curPiece fragmentOffset : ℕ) :
    Outcome (ℕ × ℕ) :=
  if 1 < totalPieces then do
    ensure (fragmentOffset % 8 == 0) .assertionFailed
    let flags := if curPiece ≠ totalPieces - 1 then moreFragments else 0
    return (flags, fragmentOffset % 65536 / 8)
  else return (2, 0)

def ComposeIpv4PacketArgs.piece (a : ComposeIpv4PacketArgs) (buf : List UInt8)
    (totalPieces curPiece fragmentOffset fragmentLen : ℕ) : Outcome (List UInt8 × List UInt8) := do
  let stop := fragmentOffset + fragmentLen + 20
  let _ ← slice buf fragmentOffset stop
  let (flags, offset) ← fragmentFields totalPieces curPiece fragmentOffset
  let buf := overwrite buf fragmentOffset (a.header ((fragmentLen + 20) % 65536) flags offset)
  let packet ← slice buf fragmentOffset stop
  return (buf, packet)

def ComposeIpv4PacketArgs.loop (a : ComposeIpv4PacketArgs) (totalPieces : ℕ) :
    (fuel : ℕ) → (buf : List UInt8) → (fragmentOffset curPiece : ℕ) → Outcome (List (List UInt8))
  | 0, _, _, _ => return []
  | fuel + 1, buf, fragmentOffset, curPiece =>
    if fragmentOffset < a.payloadLen then do
      let next := min (fragmentOffset + a.payloadMtu) a.payloadLen
      let (buf, packet) ← a.piece buf totalPieces curPiece fragmentOffset (next - fragmentOffset)
      let rest ← loop a totalPieces fuel buf next (curPiece + 1)
      return packet :: rest
    else return []

def composeIpv4Packet (a : ComposeIpv4PacketArgs) : Outcome (List (List UInt8)) := do
  ensure (0 < a.payloadMtu) .divisionByZero
  let totalPieces := (a.payloadLen + a.payloadMtu - 1) / a.payloadMtu
  -- every round takes at least one byte of the payload
  a.loop totalPieces a.payloadLen a.buf 0 0

namespace ComposeIpv4PacketArgs

variable {a : ComposeIpv4PacketArgs} {buf : List UInt8}

theorem length_header (totalLength flags fragmentOffset : ℕ) :
    (a.header totalLength flags fragmentOffset).length = 20 := by
  rw [header, updateIpChecksum, length_overwrite]
  · rfl
  · exact (by decide : 12 ≤ 20)

theorem returns_fragmentFields (totalPieces curPiece : ℕ) {fragmentOffset : ℕ}
    (h : fragmentOffset % 8 = 0) :
    (fragmentFields totalPieces curPiece fragmentOffset).Returns := by
  unfold fragmentFields
  split
  · exact ⟨_, by simp only [h]; rfl⟩
  · exact ⟨_, rfl⟩

theorem piece_eq (a : ComposeIpv4PacketArgs) (totalPieces curPiece : ℕ)
    {fragmentOffset fragmentLen : ℕ} (h8 : fragmentOffset % 8 = 0)
    (hlen : fragmentOffset + fragmentLen + 20 ≤ buf.length) :
    ∃ buf' packet, a.piece buf totalPieces curPiece fragmentOffset fragmentLen =
      .returns (buf', packet) ∧ buf'.length = buf.length := by
  obtain ⟨⟨flags, offset⟩, hfields⟩ :=
    returns_fragmentFields totalPieces curPiece h8
  set hdr := a.header ((fragmentLen + 20) % 65536) flags offset with hhdr
  set stop := fragmentOffset + fragmentLen + 20 with hstop
  have hbuf : (overwrite buf fragmentOffset hdr).length = buf.length :=
    length_overwrite (by rw [hhdr, length_header]; omega)
  have hfree := slice_eq (show fragmentOffset ≤ stop by omega) hlen
  have hcut := slice_eq (show fragmentOffset ≤ stop by omega) (le_of_le_of_eq hlen hbuf.symm)
  refine ⟨overwrite buf fragmentOffset hdr,
    ((overwrite buf fragmentOffset hdr).drop fragmentOffset).take (stop - fragmentOffset), ?_, hbuf⟩
  simp only [piece, ← hstop, hfree, returns_bind, hfields, ← hhdr, hcut, pure_eq]

theorem returns_loop {totalPieces : ℕ} (h8 : a.payloadMtu % 8 = 0) (fuel : ℕ) :
    ∀ (buf : List UInt8) (fragmentOffset curPiece : ℕ), a.payloadLen + 20 ≤ buf.length →
      (fragmentOffset < a.payloadLen → fragmentOffset % 8 = 0) →
      (a.loop totalPieces fuel buf fragmentOffset curPiece).Returns := by
  induction fuel with
  | zero => exact fun _ _ _ _ _ => ⟨[], rfl⟩
  | succ fuel ih =>
    intro buf fragmentOffset curPiece hbuf hoff
    unfold loop
    split
    · next hlt =>
      set next := min (fragmentOffset + a.payloadMtu) a.payloadLen
      have hstop : fragmentOffset + (next - fragmentOffset) + 20 ≤ buf.length := by omega
      obtain ⟨buf', packet, hpiece, hlen⟩ := a.piece_eq totalPieces curPiece (hoff hlt) hstop
      have hrest := ih buf' next (curPiece + 1) (by omega) (by have := hoff hlt; omega)
      obtain ⟨rest, hrest⟩ := hrest
      exact ⟨packet :: rest, by simp [hpiece, hrest]⟩
    · exact ⟨[], rfl⟩

/-- **Packets are composed without a panic**, if the packet size is a positive multiple of eight and
the buffer holds a header and the payload. -/
theorem returns_composeIpv4Packet (hmtu : 0 < a.payloadMtu) (h8 : a.payloadMtu % 8 = 0)
    (hbuf : a.payloadLen + 20 ≤ a.buf.length) : (composeIpv4Packet a).Returns := by
  simp only [composeIpv4Packet, hmtu, decide_true, ensure, if_true, returns_bind]
  exact returns_loop h8 _ _ _ _ hbuf fun _ => rfl

end ComposeIpv4PacketArgs

end PactMesh
