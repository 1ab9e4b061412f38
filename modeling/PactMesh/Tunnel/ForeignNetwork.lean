import PactMesh.Tunnel.PacketDef

/-!
# Foreign-network packets on the receive path

A packet that belongs to another network travels inside a packet of type `ForeignNetworkPacket`:
its payload starts with a `ForeignNetworkPacketHeader`, whose fields say where the network name and
the inner packet lie.  Operations that panic in the source (`unwrap`, slicing, `split_off`,
`from_utf8`) return a `Panic`.

Main result: `tryHandleForeignNetworkPacket_returns_iff`.
-/

namespace PactMesh

open Endian

inductive Panic
  | unwrapNone
  | sliceOutOfRange
  | invalidUtf8
  | splitOffOutOfBounds
deriving DecidableEq

namespace Panic

def unwrap {α : Type*} : Option α → Except Panic α
  | some a => .ok a
  | none => .error unwrapNone

/-- `&bytes[start..start + len]`. -/
def slice (bytes : List UInt8) (start len : ℕ) : Except Panic (List UInt8) :=
  if start + len ≤ bytes.length then .ok ((bytes.drop start).take len) else .error sliceOutOfRange

/-- `std::str::from_utf8(bytes).unwrap()`. -/
def fromUtf8 (bytes : List UInt8) : Except Panic String :=
  match String.fromUTF8? ⟨bytes.toArray⟩ with
  | some s => .ok s
  | none => .error invalidUtf8

theorem bind_returns_iff {α β : Type} {x : Except Panic α} {f : α → Except Panic β} :
    (∃ b, x >>= f = .ok b) ↔ ∃ a, x = .ok a ∧ ∃ b, f a = .ok b := by
  cases x with
  | error e => simp [bind, Except.bind]
  | ok a => simp [bind, Except.bind]

theorem slice_eq_ok_iff {bytes out : List UInt8} {start len : ℕ} :
    slice bytes start len = .ok out ↔
      start + len ≤ bytes.length ∧ out = (bytes.drop start).take len := by
  unfold slice
  split_ifs with h
  · simp [h, eq_comm]
  · simp [h]

theorem fromUtf8_returns_iff {bytes : List UInt8} :
    (∃ s, fromUtf8 bytes = .ok s) ↔ ByteArray.IsValidUTF8 ⟨bytes.toArray⟩ := by
  unfold fromUtf8 String.fromUTF8?
  split_ifs with h <;> simp [h]

end Panic

open Panic

structure ForeignNetworkPacketHeader where
  headerLen : UInt16
  dstPeerId : UInt32
  networkNameOffset : UInt16
  networkNameLen : UInt16
deriving DecidableEq

namespace ForeignNetworkPacketHeader

def refFromPrefix (bytes : List UInt8) : Option ForeignNetworkPacketHeader :=
  match bytes with
  | h0 :: h1 :: d0 :: d1 :: d2 :: d3 :: o0 :: o1 :: n0 :: n1 :: _ =>
    some {
      headerLen := UInt16.ofNat (leNat [h0, h1])
      dstPeerId := UInt32.ofNat (leNat [d0, d1, d2, d3])
      networkNameOffset := UInt16.ofNat (leNat [o0, o1])
      networkNameLen := UInt16.ofNat (leNat [n0, n1]) }
  | _ => none

def networkNameBytes (h : ForeignNetworkPacketHeader) (payload : List UInt8) : List UInt8 :=
  (payload.drop h.networkNameOffset.toNat).take h.networkNameLen.toNat

def getNetworkName (h : ForeignNetworkPacketHeader) (payload : List UInt8) :
    Except Panic String := do
  let bytes ← slice payload h.networkNameOffset.toNat h.networkNameLen.toNat
  fromUtf8 bytes

theorem getNetworkName_ok_iff {h : ForeignNetworkPacketHeader} {payload : List UInt8} :
    (∃ name, h.getNetworkName payload = .ok name) ↔
      h.networkNameOffset.toNat + h.networkNameLen.toNat ≤ payload.length ∧
        ByteArray.IsValidUTF8 ⟨(h.networkNameBytes payload).toArray⟩ := by
  unfold getNetworkName networkNameBytes
  rw [bind_returns_iff]
  constructor
  · rintro ⟨bytes, hslice, hutf⟩
    obtain ⟨hle, rfl⟩ := slice_eq_ok_iff.1 hslice
    exact ⟨hle, fromUtf8_returns_iff.1 hutf⟩
  · rintro ⟨hle, hutf⟩
    exact ⟨_, slice_eq_ok_iff.2 ⟨hle, rfl⟩, fromUtf8_returns_iff.2 hutf⟩

end ForeignNetworkPacketHeader

open ForeignNetworkPacketHeader

namespace ZCPacket

variable (p : ZCPacket)

/-- The foreign header of the packet; the inner `Option` is what the source returns. -/
def foreignNetworkHdr : Except Panic (Option ForeignNetworkPacketHeader) := do
  let hdr ← unwrap p.peerManagerHeader
  if hdr.packetType == PacketType.foreignNetworkPacket.toByte then
    return refFromPrefix p.payload
  else
    return none

/-- `BytesMut::split_off`: everything from `at` on; `at` may lie beyond the bytes but not beyond
what was allocated. -/
def splitOff (at_ : ℕ) (t : ZCPacketType) : Except Panic ZCPacket :=
  if at_ ≤ p.capacity then
    .ok {
      inner := p.inner.drop at_
      capacity := p.capacity - at_
      packetType := t
      length_le := by
        rw [List.length_drop]
        exact Nat.sub_le_sub_right p.length_le at_ }
  else .error .splitOffOutOfBounds

def foreignNetworkPacket : Except Panic ZCPacket := do
  let hdr ← unwrap (← p.foreignNetworkHdr)
  p.splitOff (hdr.headerLen.toNat + p.payloadOffset) .dummyTunnel

/-- Overwrite the receiver in the peer-manager header `hdr` of the packet, in place: the buffer
keeps its length. -/
def setToPeerId (hdr : PeerManagerHeader) (toPeerId : UInt32) : ZCPacket where
  inner := (p.inner.take p.packetType.peerManagerHeaderOffset ++
    ({ hdr with toPeerId := toPeerId }.asBytes ++ p.payload)).take p.inner.length
  capacity := p.capacity
  packetType := p.packetType
  length_le := (List.length_take_le _ _).trans p.length_le

variable {p}

theorem foreignNetworkHdr_of_foreign {hdr : PeerManagerHeader} (h : p.peerManagerHeader = some hdr)
    (ht : hdr.packetType = PacketType.foreignNetworkPacket.toByte) :
    p.foreignNetworkHdr = .ok (refFromPrefix p.payload) := by
  simp [foreignNetworkHdr, h, unwrap, ht, bind, Except.bind, pure, Except.pure]

theorem splitOff_returns_iff {at_ : ℕ} {t : ZCPacketType} :
    (∃ q, p.splitOff at_ t = .ok q) ↔ at_ ≤ p.capacity := by
  unfold splitOff
  split_ifs with h <;> simp [h]

end ZCPacket

structure ForeignNode where
  myPeerId : UInt32
  /-- `foreign_network_mgr.get_network_peer_id` -/
  getNetworkPeerId : String → Option UInt32
  /-- `peer_map.get_origin_my_peer_id` -/
  getOriginMyPeerId : String → UInt32 → Option UInt32

inductive ForeignOutcome
  /-- `Err(packet)`: not handled here -/
  | unhandled (packet : ZCPacket)
  /-- the inner packet goes to the foreign-network manager -/
  | forwardForeign (networkName : String) (dstPeerId : UInt32) (packet : ZCPacket)
  /-- the packet goes on to another peer -/
  | sendMsg (packet : ZCPacket) (toPeerId : UInt32)

variable (node : ForeignNode)

def tryHandleForeignNetworkPacket (packet : ZCPacket) : Except Panic ForeignOutcome := do
  let pmHeader ← unwrap packet.peerManagerHeader
  if pmHeader.packetType != PacketType.foreignNetworkPacket.toByte then
    return .unhandled packet
  else
    let foreignHdr ← unwrap (← packet.foreignNetworkHdr)
    let foreignNetworkName ← foreignHdr.getNetworkName packet.payload
    if pmHeader.toPeerId == node.myPeerId then
      let inner ← packet.foreignNetworkPacket
      return .forwardForeign foreignNetworkName foreignHdr.dstPeerId inner
    else if some pmHeader.fromPeerId == node.getNetworkPeerId foreignNetworkName then
      match node.getOriginMyPeerId foreignNetworkName pmHeader.toPeerId with
      | none => return .unhandled packet
      | some toPeerId => return .sendMsg (packet.setToPeerId pmHeader toPeerId) toPeerId
    else
      return .unhandled packet

/-- The foreign header is complete, the name it points at lies inside the payload and is UTF-8, and,
when the packet is for this node, the header ends inside the buffer. -/
def ForeignHeaderFits (myPeerId : UInt32) (packet : ZCPacket) (hdr : PeerManagerHeader) : Prop :=
  ∃ fh, refFromPrefix packet.payload = some fh ∧
    fh.networkNameOffset.toNat + fh.networkNameLen.toNat ≤ packet.payload.length ∧
    ByteArray.IsValidUTF8 ⟨(fh.networkNameBytes packet.payload).toArray⟩ ∧
    (hdr.toPeerId = myPeerId → fh.headerLen.toNat + packet.payloadOffset ≤ packet.capacity)

variable {node}

theorem tryHandle_of_foreign {packet : ZCPacket} {hdr : PeerManagerHeader}
    {fh : ForeignNetworkPacketHeader} {name : String} (h : packet.peerManagerHeader = some hdr)
    (ht : hdr.packetType = PacketType.foreignNetworkPacket.toByte)
    (hf : refFromPrefix packet.payload = some fh)
    (hname : fh.getNetworkName packet.payload = .ok name) :
    (∃ o, tryHandleForeignNetworkPacket node packet = .ok o) ↔ (hdr.toPeerId = node.myPeerId →
        fh.headerLen.toNat + packet.payloadOffset ≤ packet.capacity) := by
  have hpacket : fh.headerLen.toNat + packet.payloadOffset ≤ packet.capacity ↔
      ∃ q, packet.foreignNetworkPacket = .ok q := by
    rw [← ZCPacket.splitOff_returns_iff (t := .dummyTunnel), ZCPacket.foreignNetworkPacket,
      ZCPacket.foreignNetworkHdr_of_foreign h ht, hf]
    rfl
  rw [hpacket]
  unfold tryHandleForeignNetworkPacket
  simp only [h, unwrap, ht, bne_self_eq_false, Bool.false_eq_true, if_false,
    ZCPacket.foreignNetworkHdr_of_foreign h ht, hf, hname, bind, Except.bind, beq_iff_eq]
  by_cases hto : hdr.toPeerId = node.myPeerId
  · cases packet.foreignNetworkPacket <;> simp [hto, pure, Except.pure]
  · simp only [hto, if_false, false_imp_iff, iff_true]
    split_ifs
    · cases node.getOriginMyPeerId name hdr.toPeerId <;> exact ⟨_, rfl⟩
    · exact ⟨_, rfl⟩

/-- **The handler returns exactly when the foreign header fits the packet**: it panics on every
other foreign-network packet and on nothing else that carries a peer-manager header. -/
theorem tryHandleForeignNetworkPacket_returns_iff (node : ForeignNode) (packet : ZCPacket) :
    (∃ o, tryHandleForeignNetworkPacket node packet = .ok o) ↔
      ∃ hdr, packet.peerManagerHeader = some hdr ∧
        (hdr.packetType ≠ PacketType.foreignNetworkPacket.toByte ∨
          ForeignHeaderFits node.myPeerId packet hdr) := by
  cases h : packet.peerManagerHeader with
  | none =>
    simp [tryHandleForeignNetworkPacket, h, unwrap, bind, Except.bind]
  | some hdr =>
    simp only [Option.some.injEq, exists_eq_left']
    by_cases ht : hdr.packetType = PacketType.foreignNetworkPacket.toByte
    · simp only [ht, ne_eq, not_true_eq_false, false_or]
      constructor
      · rintro ⟨o, ho⟩
        -- each partial operation in front of the forwarding must have returned
        have hstep := ho
        unfold tryHandleForeignNetworkPacket at hstep
        simp only [h, unwrap, ht, bne_self_eq_false, Bool.false_eq_true, if_false,
          ZCPacket.foreignNetworkHdr_of_foreign h ht, bind, Except.bind] at hstep
        cases hf : refFromPrefix packet.payload with
        | none => simp [hf] at hstep
        | some fh =>
          cases hname : fh.getNetworkName packet.payload with
          | error e => simp [hf, hname] at hstep
          | ok name =>
            obtain ⟨hle, hutf⟩ :=
              getNetworkName_ok_iff.1 ⟨name, hname⟩
            exact ⟨fh, hf, hle, hutf, (tryHandle_of_foreign h ht hf hname).1 ⟨o, ho⟩⟩
      · rintro ⟨fh, hf, hle, hutf, hcap⟩
        obtain ⟨name, hname⟩ := getNetworkName_ok_iff.2 ⟨hle, hutf⟩
        exact (tryHandle_of_foreign h ht hf hname).2 hcap
    · simp [tryHandleForeignNetworkPacket, h, unwrap, bind, Except.bind, ht, pure, Except.pure]

/-- A packet of type `ForeignNetworkPacket` with no payload at all. -/
def emptyForeignPacket : Packet where
  hdr := { (default : PeerManagerHeader) with
    packetType := PacketType.foreignNetworkPacket.toByte }
  payload := []

/-- A foreign-network packet without payload panics the handler on every node. -/
theorem tryHandle_emptyForeignPacket_panics :
    ∃ (node : ForeignNode) (packet : ZCPacket), packet.packet = some emptyForeignPacket ∧
        tryHandleForeignNetworkPacket node packet = .error .unwrapNone :=
  ⟨⟨1, fun _ => none, fun _ _ => none⟩, .ofPacket .udp emptyForeignPacket,
    ZCPacket.packet_ofPacket _ _, rfl⟩

end PactMesh
