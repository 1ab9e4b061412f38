import Mathlib.Data.List.Basic
import Mathlib.Data.BitVec

/-!
# Views of internet packets

A view is read when the buffer holds the fixed part of the header; nothing else is checked.  The
lengths of an IPv4 header are what the sender wrote, and the payload is what lies between them and
the end of the buffer.
-/

namespace PactMesh

open List

namespace Inet

/-- The big-endian 16-bit number at a position. -/
def word16 (bs : List UInt8) (i : ℕ) : ℕ := 256 * (bs.getD i 0).toNat + (bs.getD (i + 1) 0).toNat

/-- The big-endian 32-bit number at a position. -/
def word32 (bs : List UInt8) (i : ℕ) : BitVec 32 :=
  BitVec.ofNat 32 (65536 * word16 bs i + word16 bs (i + 2))

theorem word16_lt (bs : List UInt8) (i : ℕ) : word16 bs i < 65536 := by
  have h₁ := (bs.getD i 0).toNat_lt
  have h₂ := (bs.getD (i + 1) 0).toNat_lt
  unfold word16
  omega

/-- Write bytes over those at a position. -/
def overwrite (bs : List UInt8) (i : ℕ) (data : List UInt8) : List UInt8 :=
  bs.take i ++ data ++ bs.drop (i + data.length)

variable {bs data : List UInt8} {i : ℕ}

theorem length_overwrite (h : i + data.length ≤ bs.length) :
    (overwrite bs i data).length = bs.length := by
  simp only [overwrite, length_append, length_take, length_drop]
  omega

theorem getD_overwrite {j : ℕ} (hj : j < i) (hi : i ≤ bs.length) :
    (overwrite bs i data).getD j 0 = bs.getD j 0 := by
  have htake : j < (bs.take i).length := by
    rw [length_take]
    omega
  rw [overwrite, append_assoc, getD_eq_getElem?_getD, getElem?_append_left htake,
    getElem?_take_of_lt hj, ← getD_eq_getElem?_getD]

/-- The two bytes of a 16-bit number, highest first. -/
def bytes16 (n : ℕ) : List UInt8 := [UInt8.ofNat (n / 256), UInt8.ofNat n]

/-- The four bytes of an address, highest first. -/
def bytes32 (a : BitVec 32) : List UInt8 := bytes16 (a.toNat / 65536) ++ bytes16 (a.toNat % 65536)

@[simp] theorem length_bytes32 (a : BitVec 32) : (bytes32 a).length = 4 := rfl

/-- The sum of the 16-bit words of a buffer, the last one filled up with zero. -/
def sumWords (bs : List UInt8) : ℕ :=
  ((List.range ((bs.length + 1) / 2)).map fun i => word16 bs (2 * i)).sum

/-- The complement of a sum with the carries added back. -/
def checksum (sum : ℕ) : ℕ :=
  let once := sum / 65536 + sum % 65536
  65535 - (once / 65536 + once % 65536)

/-- What is read from a buffer taken as an IPv4 packet. -/
structure Ipv4View where
  version : ℕ
  /-- in words of four bytes -/
  headerLength : ℕ
  totalLength : ℕ
  identification : ℕ
  flags : ℕ
  /-- in units of eight bytes -/
  fragmentOffset : ℕ
  nextLevelProtocol : ℕ
  source : BitVec 32
  destination : BitVec 32
  payload : List UInt8
  headerLength_lt : headerLength < 16
  totalLength_lt : totalLength < 65536
  fragmentOffset_lt : fragmentOffset < 8192
  /-- the payload ends where the header says, or before -/
  length_payload_le : payload.length ≤ totalLength - 4 * headerLength

/-- The protocol number of ICMP. -/
def protocolIcmp : ℕ := 1

/-- The protocol number of TCP. -/
def protocolTcp : ℕ := 6

/-- The protocol number of UDP. -/
def protocolUdp : ℕ := 17

/-- The flag for a packet that is not the last fragment. -/
def moreFragments : ℕ := 1

/-- Where the payload starts: after the fixed header and the options. -/
def payloadStart (bs : List UInt8) : ℕ := 20 + 4 * ((bs.getD 0 0).toNat % 16 - 5)

/-- Where the payload ends: where the header says, or at the end of the buffer. -/
def payloadEnd (bs : List UInt8) : ℕ :=
  min (payloadStart bs + (word16 bs 2 - 4 * ((bs.getD 0 0).toNat % 16))) bs.length

/-- The bytes of the payload. -/
def ipv4Payload (bs : List UInt8) : List UInt8 := (bs.take (payloadEnd bs)).drop (payloadStart bs)

theorem length_ipv4Payload_overwrite (hi : 4 ≤ i) (h : i + data.length ≤ bs.length) :
    (ipv4Payload (overwrite bs i data)).length = (ipv4Payload bs).length := by
  have hget : ∀ j < 4, (overwrite bs i data).getD j 0 = bs.getD j 0 :=
    fun j hj => getD_overwrite (by omega) (by omega)
  simp only [ipv4Payload, payloadEnd, payloadStart, word16, hget, Nat.reduceLT, Nat.reduceAdd,
    length_overwrite h, length_drop, length_take]

/-- The view of a buffer that holds at least the fixed header. -/
def Ipv4View.read (bs : List UInt8) : Option Ipv4View :=
  if bs.length < 20 then none
  else
    some
      { version := (bs.getD 0 0).toNat / 16
        headerLength := (bs.getD 0 0).toNat % 16
        totalLength := word16 bs 2
        identification := word16 bs 4
        flags := (bs.getD 6 0).toNat / 32
        fragmentOffset := word16 bs 6 % 8192
        nextLevelProtocol := (bs.getD 9 0).toNat
        source := word32 bs 12
        destination := word32 bs 16
        payload := ipv4Payload bs
        headerLength_lt := Nat.mod_lt _ (by decide)
        totalLength_lt := word16_lt bs 2
        fragmentOffset_lt := Nat.mod_lt _ (by decide)
        length_payload_le := by
          simp only [ipv4Payload, payloadEnd, length_drop, length_take]
          omega }

theorem Ipv4View.read_eq_some {ipv4 : Ipv4View} (h : Ipv4View.read bs = some ipv4) :
    20 ≤ bs.length ∧ ipv4.payload = ipv4Payload bs := by
  unfold Ipv4View.read at h
  split at h
  · cases h
  · next hlen =>
    cases h
    exact ⟨Nat.le_of_not_lt hlen, rfl⟩

def setSource (bs : List UInt8) (a : BitVec 32) : List UInt8 := overwrite bs 12 (bytes32 a)

def setDestination (bs : List UInt8) (a : BitVec 32) : List UInt8 := overwrite bs 16 (bytes32 a)

/-- Compute the header checksum anew, over a header length forced into the buffer. -/
def updateIpChecksum (bs : List UInt8) : List UInt8 :=
  let header := bs.take (max 20 (4 * ((bs.getD 0 0).toNat % 16)))
  overwrite bs 10 (bytes16 (checksum (sumWords header - word16 bs 10)))

/-! ### TCP, UDP and ICMP echo -/

/-- What is read from a buffer taken as a TCP segment. -/
structure TcpView where
  source : UInt16
  destination : UInt16
  flags : ℕ
deriving DecidableEq

/-- The view of a buffer that holds at least the fixed header. -/
def TcpView.read (bs : List UInt8) : Option TcpView :=
  if bs.length < 20 then none
  else some ⟨.ofNat (word16 bs 0), .ofNat (word16 bs 2), (bs.getD 13 0).toNat⟩

/-- The segment opens a connection. -/
def TcpView.isSyn (tcp : TcpView) : Bool := tcp.flags / 2 % 2 == 1

/-- The segment acknowledges. -/
def TcpView.isAck (tcp : TcpView) : Bool := tcp.flags / 16 % 2 == 1

theorem TcpView.read_eq_none_iff : TcpView.read bs = none ↔ bs.length < 20 := by
  simp [TcpView.read]

/-- Compute the checksum of a segment anew, for the addresses of its packet. -/
def updateTcpChecksum (bs : List UInt8) (source destination : BitVec 32) : List UInt8 :=
  let pseudo := sumWords (bytes32 source ++ bytes32 destination) + protocolTcp + bs.length
  overwrite bs 16 (bytes16 (checksum (pseudo + (sumWords bs - word16 bs 16))))

/-- What is read from a buffer taken as a UDP datagram. -/
structure UdpView where
  source : UInt16
  destination : UInt16
  payload : List UInt8
deriving DecidableEq

/-- The view of a buffer that holds at least the header. -/
def UdpView.read (bs : List UInt8) : Option UdpView :=
  if bs.length < 8 then none
  else some ⟨.ofNat (word16 bs 0), .ofNat (word16 bs 2), bs.drop 8⟩

/-- What is read from a buffer taken as an ICMP echo request. -/
structure EchoView where
  icmpType : ℕ
  identifier : UInt16
  sequenceNumber : UInt16
  payload : List UInt8
  /-- all bytes of the message -/
  packet : List UInt8
  packet_length : packet.length = 8 + payload.length

/-- The type of an echo request. -/
def echoRequestType : ℕ := 8

/-- The view of a buffer that holds at least the header. -/
def EchoView.read (bs : List UInt8) : Option EchoView :=
  if h : bs.length < 8 then none
  else
    some
      { icmpType := (bs.getD 0 0).toNat
        identifier := .ofNat (word16 bs 4)
        sequenceNumber := .ofNat (word16 bs 6)
        payload := bs.drop 8
        packet := bs
        packet_length := by rw [length_drop]; omega }

end Inet

end PactMesh
