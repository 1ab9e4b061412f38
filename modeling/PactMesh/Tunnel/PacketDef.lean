import PactMesh.Lib.Endian

/-!
# Packets

A packet on a connection is a byte buffer (`ZCPacket`) that starts with a tunnel header, whose size
depends on the kind of tunnel, followed by the 16-byte peer-manager header and the payload.  `Packet`
is the header and payload read out of it, which is what the peer layer works on.
-/

namespace PactMesh

open Endian List

inductive PacketType
  | invalid
  | data
  | handShake
  | routePacket
  | ping
  | pong
  | taRpc
  | route
  | rpcReq
  | rpcResp
  | foreignNetworkPacket
  | kcpSrc
  | kcpDst
  | noiseHandshakeMsg1
  | noiseHandshakeMsg2
  | noiseHandshakeMsg3
  | quicSrc
  | quicDst
  | dataWithKcpSrcModified
  | dataWithQuicSrcModified
  | relayHandshake
  | relayHandshakeAck
deriving DecidableEq

/-- The byte that stands for a packet type in the header (`as u8`). -/
def PacketType.toByte : PacketType → UInt8
  | invalid => 0
  | data => 1
  | handShake => 2
  | routePacket => 3
  | ping => 4
  | pong => 5
  | taRpc => 6
  | route => 7
  | rpcReq => 8
  | rpcResp => 9
  | foreignNetworkPacket => 10
  | kcpSrc => 11
  | kcpDst => 12
  | noiseHandshakeMsg1 => 13
  | noiseHandshakeMsg2 => 14
  | noiseHandshakeMsg3 => 15
  | quicSrc => 16
  | quicDst => 17
  | dataWithKcpSrcModified => 18
  | dataWithQuicSrcModified => 19
  | relayHandshake => 20
  | relayHandshakeAck => 21

structure PeerManagerHeader where
  fromPeerId : UInt32
  toPeerId : UInt32
  packetType : UInt8
  flags : UInt8
  forwardCounter : UInt8
  reserved : UInt8
  len : UInt32
deriving DecidableEq, Inhabited

/-- `size_of::<PeerManagerHeader>()`. -/
def peerManagerHeaderSize : ℕ := 16

namespace PeerManagerHeader

def flagEncrypted : UInt8 := 0b0000_0001

def flagLatencyFirst : UInt8 := 0b0000_0010

def flagExitNode : UInt8 := 0b0000_0100

def flagNoProxy : UInt8 := 0b0000_1000

def flagCompressed : UInt8 := 0b0001_0000

def flagNotSendToTun : UInt8 := 0b0100_0000

def hasFlag (h : PeerManagerHeader) (flag : UInt8) : Bool := h.flags &&& flag == flag

def setFlag (h : PeerManagerHeader) (flag : UInt8) (on : Bool) : PeerManagerHeader :=
  { h with flags := if on then h.flags ||| flag else h.flags &&& ~~~flag }

def isEncrypted (h : PeerManagerHeader) : Bool := h.hasFlag flagEncrypted

def isCompressed (h : PeerManagerHeader) : Bool := h.hasFlag flagCompressed

/-- Set or clear the flag `ENCRYPTED`. -/
def setEncrypted (h : PeerManagerHeader) (encrypted : Bool) : PeerManagerHeader :=
  h.setFlag flagEncrypted encrypted

/-- Set or clear the flag `COMPRESSED`. -/
def setCompressed (h : PeerManagerHeader) (compressed : Bool) : PeerManagerHeader :=
  h.setFlag flagCompressed compressed

/-- Set or clear the flag `LATENCY_FIRST`. -/
def setLatencyFirst (h : PeerManagerHeader) (latencyFirst : Bool) : PeerManagerHeader :=
  h.setFlag flagLatencyFirst latencyFirst

/-- Set or clear the flag `EXIT_NODE`. -/
def setExitNode (h : PeerManagerHeader) (exitNode : Bool) : PeerManagerHeader :=
  h.setFlag flagExitNode exitNode

/-- Set or clear the flag `NO_PROXY`. -/
def setNoProxy (h : PeerManagerHeader) (noProxy : Bool) : PeerManagerHeader :=
  h.setFlag flagNoProxy noProxy

/-- Set or clear the flag `NOT_SEND_TO_TUN`. -/
def setNotSendToTun (h : PeerManagerHeader) (notSendToTun : Bool) : PeerManagerHeader :=
  h.setFlag flagNotSendToTun notSendToTun

def refFromPrefix (bytes : List UInt8) : Option PeerManagerHeader :=
  match bytes with
  | f0 :: f1 :: f2 :: f3 :: t0 :: t1 :: t2 :: t3 :: pt :: fl :: fc :: rs ::
      l0 :: l1 :: l2 :: l3 :: _ =>
    some {
      fromPeerId := UInt32.ofNat (leNat [f0, f1, f2, f3])
      toPeerId := UInt32.ofNat (leNat [t0, t1, t2, t3])
      packetType := pt
      flags := fl
      forwardCounter := fc
      reserved := rs
      len := UInt32.ofNat (leNat [l0, l1, l2, l3]) }
  | _ => none

def asBytes (h : PeerManagerHeader) : List UInt8 :=
  leBytes 4 h.fromPeerId.toNat ++ leBytes 4 h.toPeerId.toNat ++
    [h.packetType, h.flags, h.forwardCounter, h.reserved] ++ leBytes 4 h.len.toNat

@[simp] theorem length_asBytes (h : PeerManagerHeader) :
    h.asBytes.length = peerManagerHeaderSize := by
  simp [asBytes, peerManagerHeaderSize]

theorem ofNat_leNat_leBytes (x : UInt32) : UInt32.ofNat (leNat (leBytes 4 x.toNat)) = x := by
  rw [leNat_leBytes x.toNat_lt, UInt32.ofNat_toNat]

theorem refFromPrefix_asBytes (h : PeerManagerHeader) (rest : List UInt8) :
    refFromPrefix (h.asBytes ++ rest) = some h := by
  have hf := ofNat_leNat_leBytes h.fromPeerId
  have ht := ofNat_leNat_leBytes h.toPeerId
  have hl := ofNat_leNat_leBytes h.len
  simp only [leBytes] at hf ht hl
  simp only [asBytes, leBytes, cons_append, nil_append, refFromPrefix, hf, ht, hl]

theorem flagEncrypted_bits (fl : UInt8) :
    (fl ||| flagEncrypted) &&& flagEncrypted = flagEncrypted ∧
      (fl &&& ~~~flagEncrypted) &&& flagEncrypted ≠ flagEncrypted ∧
      (fl &&& flagEncrypted ≠ flagEncrypted → (fl ||| flagEncrypted) &&& ~~~flagEncrypted = fl) := by
  revert fl
  exact Endian.forall_byte (by decide +kernel)

@[simp] theorem isEncrypted_setEncrypted (h : PeerManagerHeader) (b : Bool) :
    (h.setEncrypted b).isEncrypted = b := by
  obtain ⟨hset, hclear, -⟩ := flagEncrypted_bits h.flags
  cases b with
  | true => simp [isEncrypted, setEncrypted, hasFlag, setFlag, hset]
  | false => simpa [isEncrypted, setEncrypted, hasFlag, setFlag] using hclear

theorem setEncrypted_setEncrypted (h : PeerManagerHeader) (hclear : h.isEncrypted = false) :
    (h.setEncrypted true).setEncrypted false = h := by
  obtain ⟨-, -, hback⟩ := flagEncrypted_bits h.flags
  have hflags := hback (beq_eq_false_iff_ne.1 hclear)
  simp only [setEncrypted, setFlag, if_true, Bool.false_eq_true, if_false, hflags]

end PeerManagerHeader

open PeerManagerHeader

inductive ZCPacketType
  | tcp
  | udp
  | wg
  | nic
  | dummyTunnel
deriving DecidableEq

namespace ZCPacketType

/-- `get_packet_offsets().peer_manager_header_offset`: the size of the tunnel header. -/
def peerManagerHeaderOffset : ZCPacketType → ℕ
  | tcp => 4
  | udp => 8
  | wg => 20
  | nic => 20
  | dummyTunnel => 0

/-- `get_packet_offsets().payload_offset`. -/
def payloadOffset (t : ZCPacketType) : ℕ := t.peerManagerHeaderOffset + peerManagerHeaderSize

end ZCPacketType

structure ZCPacket where
  inner : List UInt8
  /-- `inner.capacity()` -/
  capacity : ℕ
  packetType : ZCPacketType
  /-- a buffer never holds more than was allocated for it -/
  length_le : inner.length ≤ capacity

structure Packet where
  hdr : PeerManagerHeader
  payload : List UInt8
deriving DecidableEq, Inhabited

namespace ZCPacket

variable (p : ZCPacket)

def payloadOffset : ℕ := p.packetType.payloadOffset

def peerManagerHeader : Option PeerManagerHeader :=
  refFromPrefix (p.inner.drop p.packetType.peerManagerHeaderOffset)

def payload : List UInt8 := p.inner.drop p.payloadOffset

def packet : Option Packet := p.peerManagerHeader.map fun hdr => ⟨hdr, p.payload⟩

def ofPacket (t : ZCPacketType) (q : Packet) : ZCPacket where
  inner := List.replicate t.peerManagerHeaderOffset 0 ++ (q.hdr.asBytes ++ q.payload)
  capacity := t.payloadOffset + q.payload.length
  packetType := t
  length_le := by
    simp only [length_append, length_replicate, length_asBytes, ZCPacketType.payloadOffset]
    omega

variable {p}

theorem read_of_append {head payload : List UInt8} {hdr : PeerManagerHeader}
    (hlen : head.length = p.packetType.peerManagerHeaderOffset)
    (h : p.inner = head ++ (hdr.asBytes ++ payload)) :
    p.peerManagerHeader = some hdr ∧ p.payload = payload ∧ p.payloadOffset ≤ p.inner.length := by
  rw [← append_assoc] at h
  have hoffset : (head ++ hdr.asBytes).length = p.payloadOffset := by
    rw [length_append, hlen, length_asBytes]
    rfl
  refine ⟨?_, ?_, ?_⟩
  · rw [peerManagerHeader, h, append_assoc, drop_left' hlen, refFromPrefix_asBytes]
  · rw [ZCPacket.payload, h, drop_left' hoffset]
  · rw [h, length_append, hoffset]
    exact Nat.le_add_right _ _

theorem packet_ofPacket (t : ZCPacketType) (q : Packet) : (ofPacket t q).packet = some q := by
  obtain ⟨hhdr, hpay, -⟩ := read_of_append (p := ofPacket t q) length_replicate rfl
  rw [packet, hhdr, hpay]
  rfl

end ZCPacket

end PactMesh
