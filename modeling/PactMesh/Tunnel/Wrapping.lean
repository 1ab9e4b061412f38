import PactMesh.Lib.Outcome
import PactMesh.Lib.Text
import PactMesh.Tunnel.ForeignNetwork

/-!
# Packets in other buffers

A packet goes from one kind of tunnel to another by `convert_type`, which cuts the old tunnel header
off or, where that leaves too little room, copies the packet; and it goes into another network inside
a `ForeignNetworkPacket`.  The bytes that neither of the two writes are what the new memory held.

Main result: `wrapping_lossless`.
-/

namespace PactMesh

open Endian Outcome List ZCPacket ForeignNetworkPacketHeader

/-- What a new buffer holds before it is written. -/
structure FreshMemory where
  bytes : ℕ → List UInt8
  length_bytes (n : ℕ) : (bytes n).length = n
  /-- the bytes in the place of the peer-manager header -/
  hdr : PeerManagerHeader

namespace ZCPacketType

/-- `get_converted_offset`; `none` is `INVALID_OFFSET`. -/
def getConvertedOffset (oldHdrSize newHdrSize : ℕ) : Option ℕ :=
  if oldHdrSize < newHdrSize then none else some (oldHdrSize - newHdrSize)

/-- `tcp_tunnel_header_offset` and its like in `get_packet_offsets`: where the header of another
tunnel starts in a packet. -/
def tunnelHeaderOffset (t target : ZCPacketType) : Option ℕ :=
  getConvertedOffset t.peerManagerHeaderOffset target.peerManagerHeaderOffset

/-- Packets from the local device are not on a tunnel. -/
def isTunnel (t : ZCPacketType) : Bool := t != .nic

end ZCPacketType

def ForeignNetworkPacketHeader.new (checks : Bool) (dstPeerId : UInt32) (networkName : String) :
    Outcome ForeignNetworkPacketHeader := do
  let networkNameOffset : UInt16 := 10
  let networkNameLen := UInt16.ofNat networkName.utf8ByteSize
  let headerLen ← arith checks 16 (networkNameOffset.toNat + networkNameLen.toNat : ℕ)
  return ⟨.ofNat headerLen, dstPeerId, networkNameOffset, networkNameLen⟩

def ForeignNetworkPacketHeader.asBytes (h : ForeignNetworkPacketHeader) : List UInt8 :=
  leBytes 2 h.headerLen.toNat ++ leBytes 4 h.dstPeerId.toNat ++
    leBytes 2 h.networkNameOffset.toNat ++ leBytes 2 h.networkNameLen.toNat

namespace ZCPacket

def tunnelPayload (p : ZCPacket) : Outcome (List UInt8) :=
  slice p.inner p.packetType.peerManagerHeaderOffset p.inner.length

def newFromBuf (buf : List UInt8) (t : ZCPacketType) : ZCPacket := ⟨buf, buf.length, t, le_rfl⟩

def convertType (mem : FreshMemory) (p : ZCPacket) (target : ZCPacketType) : Outcome ZCPacket :=
  if target = p.packetType then .returns p
  else if target = .nic then .panics .explicitPanic
  else
    match p.packetType.tunnelHeaderOffset target with
    | none => do
      let tunnelPayload ← p.tunnelPayload
      return newFromBuf (mem.bytes target.peerManagerHeaderOffset ++ tunnelPayload) target
    | some newOffset =>
      match p.splitOff newOffset target with
      | .ok q => .returns q
      | .error _ => .panics .indexOutOfRange

def newForForeignNetwork (checks : Bool) (mem : FreshMemory) (networkName : String)
    (dstPeerId : UInt32) (foreign : ZCPacket) : Outcome ZCPacket := do
  let foreignHdr ← new checks dstPeerId networkName
  let tunnelPayload ← foreign.tunnelPayload
  let totalPayloadLen := foreignHdr.headerLen.toNat + tunnelPayload.length
  let payload ← copyFromSlice (mem.bytes totalPayloadLen) 0 foreignHdr.asBytes
  let name := networkName.toUTF8.data.toList
  ensure (foreignHdr.networkNameLen.toNat == name.length) .assertionFailed
  let payload ← copyFromSlice payload foreignHdr.networkNameOffset.toNat name
  let payload ← copyFromSlice payload foreignHdr.headerLen.toNat tunnelPayload
  let hdr := { mem.hdr with
    fromPeerId := 0
    toPeerId := 0
    packetType := PacketType.foreignNetworkPacket.toByte
    len := .ofNat totalPayloadLen }
  return newFromBuf (mem.bytes ZCPacketType.nic.peerManagerHeaderOffset ++ (hdr.asBytes ++ payload))
    .nic

end ZCPacket

/-! ### What stays the same -/

namespace ForeignNetworkPacketHeader

theorem length_asBytes (h : ForeignNetworkPacketHeader) : h.asBytes.length = 10 := by
  simp [asBytes]

theorem ofNat_leNat_leBytes (x : UInt16) : UInt16.ofNat (leNat (leBytes 2 x.toNat)) = x := by
  rw [leNat_leBytes x.toNat_lt, UInt16.ofNat_toNat]

theorem refFromPrefix_asBytes (h : ForeignNetworkPacketHeader) (rest : List UInt8) :
    refFromPrefix (h.asBytes ++ rest) = some h := by
  have hlen := ofNat_leNat_leBytes h.headerLen
  have hdst := PeerManagerHeader.ofNat_leNat_leBytes h.dstPeerId
  have hoffset := ofNat_leNat_leBytes h.networkNameOffset
  have hname := ofNat_leNat_leBytes h.networkNameLen
  simp only [leBytes] at hlen hdst hoffset hname
  simp only [asBytes, leBytes, cons_append, nil_append, refFromPrefix, hlen, hdst, hoffset, hname]

theorem new_eq (checks : Bool) (dstPeerId : UInt32) {networkName : String}
    (h : networkName.utf8ByteSize < 65526) :
    ∃ hdr, new checks dstPeerId networkName = .returns hdr ∧ hdr.dstPeerId = dstPeerId ∧
      hdr.networkNameOffset.toNat = 10 ∧ hdr.networkNameLen.toNat = networkName.utf8ByteSize ∧
      hdr.headerLen.toNat = 10 + networkName.utf8ByteSize := by
  have hlen : (UInt16.ofNat networkName.utf8ByteSize).toNat = networkName.utf8ByteSize :=
    UInt16.toNat_ofNat_of_lt' (h.trans (by decide))
  have harith : arith checks 16 ((10 : UInt16).toNat +
      (UInt16.ofNat networkName.utf8ByteSize).toNat : ℕ) =
        .returns (10 + networkName.utf8ByteSize) := by
    rw [hlen]
    exact arith_natCast (show 10 + networkName.utf8ByteSize < 65536 by omega)
  refine ⟨_, by rw [new, harith]; rfl, rfl, rfl, hlen, ?_⟩
  exact UInt16.toNat_ofNat_of_lt' (show 10 + networkName.utf8ByteSize < 65536 by omega)

end ForeignNetworkPacketHeader

theorem Panic.fromUtf8_toUTF8 (s : String) : Panic.fromUtf8 s.toUTF8.data.toList = .ok s := by
  rw [fromUtf8, fromUTF8?_toUTF8]

namespace ZCPacket

variable {p p' : ZCPacket} {q : Packet}

theorem length_of_packet (h : p.packet = some q) :
    p.payloadOffset ≤ p.inner.length := by
  obtain ⟨hdr, hhdr, -⟩ := Option.map_eq_some_iff.1 h
  unfold peerManagerHeader PeerManagerHeader.refFromPrefix at hhdr
  split at hhdr
  · next heq =>
    have hlen := congrArg List.length heq
    simp only [length_drop, length_cons] at hlen
    rw [payloadOffset, ZCPacketType.payloadOffset, peerManagerHeaderSize]
    omega
  · cases hhdr

theorem packet_eq_of_drop (h : p'.inner.drop p'.packetType.peerManagerHeaderOffset =
    p.inner.drop p.packetType.peerManagerHeaderOffset) : p'.packet = p.packet := by
  have hpayload : ∀ q : ZCPacket, q.payload =
      (q.inner.drop q.packetType.peerManagerHeaderOffset).drop peerManagerHeaderSize := by
    intro q
    rw [drop_drop]
    rfl
  rw [packet, packet, peerManagerHeader, peerManagerHeader, hpayload, hpayload, h]

theorem tunnelPayload_eq (h : p.packet = some q) :
    p.tunnelPayload = .returns (p.inner.drop p.packetType.peerManagerHeaderOffset) := by
  have hlen := length_of_packet h
  have hle : p.packetType.peerManagerHeaderOffset ≤ p.inner.length := (Nat.le_add_right _ _).trans hlen
  rw [tunnelPayload, slice_eq hle le_rfl, take_of_length_le (by rw [length_drop])]

theorem convertType_eq (mem : FreshMemory) (h : p.packet = some q)
    {target : ZCPacketType} (ht : target.isTunnel = true) :
    ∃ p', p.convertType mem target = .returns p' ∧ p'.packetType = target ∧
      p'.inner.drop p'.packetType.peerManagerHeaderOffset =
        p.inner.drop p.packetType.peerManagerHeaderOffset := by
  unfold convertType
  split_ifs with hsame hnic
  · exact ⟨p, rfl, hsame.symm, rfl⟩
  · rw [hnic] at ht
    cases ht
  · unfold ZCPacketType.tunnelHeaderOffset ZCPacketType.getConvertedOffset
    split_ifs with hroom
    · -- the packet is copied behind the new header
      rw [tunnelPayload_eq h]
      exact ⟨_, rfl, rfl, drop_left' (mem.length_bytes _)⟩
    · -- the new header lies inside the old one
      have hle := (Nat.le_add_right _ _).trans ((length_of_packet h).trans p.length_le)
      have hcut : p.packetType.peerManagerHeaderOffset - target.peerManagerHeaderOffset ≤ p.capacity :=
        (Nat.sub_le _ _).trans hle
      dsimp only
      rw [splitOff, if_pos hcut]
      refine ⟨_, rfl, rfl, ?_⟩
      rw [drop_drop]
      exact congrArg p.inner.drop (Nat.sub_add_cancel (Nat.le_of_not_lt hroom))

theorem foreignNetworkPacket_of_append {fh : ForeignNetworkPacketHeader} {head rest : List UInt8}
    (hroom : p.payloadOffset ≤ p.inner.length) (h : p.foreignNetworkHdr = .ok (some fh))
    (hlen : head.length = fh.headerLen.toNat) (hpay : p.payload = head ++ rest) :
    ∃ inner, p.foreignNetworkPacket = .ok inner ∧ inner.packetType = .dummyTunnel ∧
      inner.inner = rest := by
  have hfits : fh.headerLen.toNat + p.payloadOffset ≤ p.capacity := by
    have hle := congrArg List.length hpay
    rw [payload, length_drop, length_append] at hle
    have hcap := p.length_le
    omega
  have hrest : p.inner.drop (fh.headerLen.toNat + p.payloadOffset) = rest := by
    rw [Nat.add_comm, ← drop_drop]
    exact (congrArg _ hpay).trans (drop_left' hlen)
  rw [foreignNetworkPacket, h]
  exact ⟨_, if_pos hfits, rfl, hrest⟩

theorem newForForeignNetwork_eq (checks : Bool) (mem : FreshMemory) {networkName : String}
    (hname : networkName.utf8ByteSize < 65526) (dstPeerId : UInt32)
    (h : p.packet = some q) :
    ∃ (hdr : ForeignNetworkPacketHeader) (pm : PeerManagerHeader),
      newForForeignNetwork checks mem networkName dstPeerId p =
        .returns (newFromBuf (mem.bytes 20 ++ (pm.asBytes ++ (hdr.asBytes ++
          (networkName.toUTF8.data.toList ++
            p.inner.drop p.packetType.peerManagerHeaderOffset)))) .nic) ∧
      pm.packetType = PacketType.foreignNetworkPacket.toByte ∧ hdr.dstPeerId = dstPeerId ∧
      hdr.networkNameOffset.toNat = 10 ∧
      hdr.networkNameLen.toNat = networkName.toUTF8.data.toList.length ∧
      hdr.headerLen.toNat = 10 + networkName.toUTF8.data.toList.length := by
  obtain ⟨hdr, hnew, hdst, hoffset, hnameLen, hheaderLen⟩ :=
    new_eq checks dstPeerId hname
  rw [show networkName.utf8ByteSize = networkName.toUTF8.data.toList.length from rfl] at *
  refine ⟨hdr, { mem.hdr with
    fromPeerId := 0
    toPeerId := 0
    packetType := PacketType.foreignNetworkPacket.toByte
    len := .ofNat (hdr.headerLen.toNat +
      (p.inner.drop p.packetType.peerManagerHeaderOffset).length) }, ?_, rfl, hdst, hoffset, hnameLen,
    hheaderLen⟩
  rw [newForForeignNetwork, hnew, returns_bind, tunnelPayload_eq h, returns_bind]
  generalize p.inner.drop p.packetType.peerManagerHeaderOffset = tunnelPayload
  generalize networkName.toUTF8.data.toList = name at *
  have hhdr := hdr.length_asBytes
  have hmem := mem.length_bytes (hdr.headerLen.toNat + tunnelPayload.length)
  dsimp only
  generalize mem.bytes (hdr.headerLen.toNat + tunnelPayload.length) = fresh at *
  -- the payload fills up from the front
  have hcopy₁ : copyFromSlice fresh 0 hdr.asBytes = _ :=
    copyFromSlice_append [] fresh hdr.asBytes rfl (by omega)
  rw [hcopy₁, returns_bind, nil_append, hnameLen, beq_self_eq_true]
  change (copyFromSlice _ _ _ >>= _) = _
  rw [copyFromSlice_append _ _ name (hhdr.trans hoffset.symm) (by rw [length_drop]; omega),
    returns_bind, copyFromSlice_append _ _ tunnelPayload (by rw [length_append]; omega)
      (by simp only [length_drop]; omega),
    drop_eq_nil_of_le (by simp only [length_drop]; omega), append_nil, append_assoc]
  rfl

end ZCPacket

/-- **Wrapping is lossless**: a packet put into another network comes out as it went in, with the
name of the network and the destination, and a packet moved to another tunnel keeps header and
payload. -/
theorem wrapping_lossless (checks : Bool) (mem : FreshMemory) (p : ZCPacket) (q : Packet)
    (hq : p.packet = some q) :
    (∀ (networkName : String) (dstPeerId : UInt32), networkName.utf8ByteSize < 65526 →
      ∃ wrapped hdr inner,
        newForForeignNetwork checks mem networkName dstPeerId p = .returns wrapped ∧
        wrapped.foreignNetworkHdr = .ok (some hdr) ∧
        hdr.getNetworkName wrapped.payload = .ok networkName ∧ hdr.dstPeerId = dstPeerId ∧
        wrapped.foreignNetworkPacket = .ok inner ∧ inner.packet = some q) ∧
    ∀ target : ZCPacketType, target.isTunnel = true →
      ∃ p', p.convertType mem target = .returns p' ∧ p'.packetType = target ∧
        p'.packet = some q := by
  refine ⟨fun networkName dstPeerId hname => ?_, fun target ht => ?_⟩
  swap
  · obtain ⟨p', hp', htype, hdrop⟩ := p.convertType_eq mem hq ht
    exact ⟨p', hp', htype, (packet_eq_of_drop hdrop).trans hq⟩
  obtain ⟨hdr, pm, hwrapped, htype, hdst, hoffset, hnameLen, hheaderLen⟩ :=
    newForForeignNetwork_eq checks mem hname dstPeerId hq
  generalize hname' : networkName.toUTF8.data.toList = name at *
  generalize htunnel : p.inner.drop p.packetType.peerManagerHeaderOffset = tunnelPayload at *
  obtain ⟨hpm, hpayload, hroom⟩ :=
    read_of_append (p := .newFromBuf _ .nic) (mem.length_bytes 20) rfl
  have hforeign := foreignNetworkHdr_of_foreign hpm htype
  rw [hpayload, refFromPrefix_asBytes] at hforeign
  have hlen : (hdr.asBytes ++ name).length = hdr.headerLen.toNat := by
    rw [length_append, hdr.length_asBytes, hheaderLen]
  obtain ⟨inner, hinner, htype', hrest⟩ := foreignNetworkPacket_of_append hroom hforeign hlen
    (hpayload.trans (append_assoc ..).symm)
  refine ⟨_, hdr, inner, hwrapped, hforeign, ?_, hdst, hinner, ?_⟩
  · -- the name stands behind the fixed part
    have hskip : (hdr.asBytes ++ (name ++ tunnelPayload)).drop 10 = name ++ tunnelPayload :=
      drop_left' hdr.length_asBytes
    have hfits : 10 + name.length ≤ (hdr.asBytes ++ (name ++ tunnelPayload)).length := by
      rw [← append_assoc, length_append, hlen, hheaderLen]
      exact Nat.le_add_right _ _
    rw [hpayload, getNetworkName, hoffset, hnameLen, Panic.slice,
      if_pos hfits, hskip, take_left, ← hname']
    exact Panic.fromUtf8_toUTF8 networkName
  · refine (packet_eq_of_drop ?_).trans hq
    rw [htype', hrest, htunnel]
    rfl

def zeroMemory : FreshMemory := ⟨fun n => List.replicate n 0, fun _ => length_replicate, default⟩

/-- A data packet from peer 1 to peer 2 with five bytes of payload. -/
def helloPacket : Packet := ⟨⟨1, 2, PacketType.data.toByte, 0, 1, 0, 5⟩, "hello".toUTF8.data.toList⟩

/-- The packet comes in over UDP, goes to peer 9 of another network, and on from there over TCP. -/
theorem hello_wrapped_then_over_tcp :
    ∃ wrapped hdr inner p',
      newForForeignNetwork true zeroMemory "office" 9 (ofPacket .udp helloPacket) =
        .returns wrapped ∧ wrapped.foreignNetworkHdr = .ok (some hdr) ∧
      hdr.getNetworkName wrapped.payload = .ok "office" ∧ hdr.dstPeerId = 9 ∧
      wrapped.foreignNetworkPacket = .ok inner ∧
      inner.convertType zeroMemory .tcp = .returns p' ∧ p'.packetType = .tcp ∧
      p'.packet = some helloPacket := by
  obtain ⟨hwrap, -⟩ := wrapping_lossless true zeroMemory _ _ (packet_ofPacket .udp helloPacket)
  obtain ⟨wrapped, hdr, inner, hnew, hhdr, hname, hdst, hunwrap, hinner⟩ := hwrap "office" 9 (by decide)
  obtain ⟨p', hconvert, htype, hp'⟩ := (wrapping_lossless true zeroMemory inner _ hinner).2 .tcp rfl
  exact ⟨wrapped, hdr, inner, p', hnew, hhdr, hname, hdst, hunwrap, hconvert, htype, hp'⟩

end PactMesh
