import Mathlib.Data.BitVec

/-!
# IP addresses and networks

Addresses of both families as bit vectors.  A network keeps the address it was written with;
`network` clears the host part, and `contains` compares network parts within one family.
-/

namespace PactMesh

/-- An IPv4 or IPv6 address. -/
inductive IpAddr
  | v4 (bits : BitVec 32)
  | v6 (bits : BitVec 128)
deriving DecidableEq

/-- The number of bits of an address. -/
def IpAddr.width : IpAddr → ℕ
  | v4 _ => 32
  | v6 _ => 128

/-- The bits of the network part. -/
def networkMask (w prefixLen : ℕ) : BitVec w := BitVec.allOnes w <<< (w - prefixLen)

/-- An address with the length of its network part. -/
structure IpNet where
  ip : IpAddr
  prefixLen : UInt8
  prefixLen_le : prefixLen.toNat ≤ ip.width
deriving DecidableEq

namespace IpNet

/-- The network of an address, unless the length is out of range. -/
def new (ip : IpAddr) (prefixLen : UInt8) : Option IpNet :=
  if h : prefixLen.toNat ≤ ip.width then some ⟨ip, prefixLen, h⟩ else none

/-- The address with the host part cleared. -/
def network (net : IpNet) : IpAddr :=
  match net.ip with
  | .v4 bits => .v4 (bits &&& networkMask 32 net.prefixLen.toNat)
  | .v6 bits => .v6 (bits &&& networkMask 128 net.prefixLen.toNat)

/-- The address has the network part of the network. -/
def contains (net : IpNet) (ip : IpAddr) : Bool :=
  match net.ip, ip with
  | .v4 a, .v4 b =>
    a &&& networkMask 32 net.prefixLen.toNat == b &&& networkMask 32 net.prefixLen.toNat
  | .v6 a, .v6 b =>
    a &&& networkMask 128 net.prefixLen.toNat == b &&& networkMask 128 net.prefixLen.toNat
  | _, _ => false

theorem contains_ip (net : IpNet) : net.contains net.ip = true := by
  obtain ⟨ip, prefixLen, hle⟩ := net
  cases ip <;> simp [contains]

end IpNet

/-- An IPv4 network: the host part of its address is zero. -/
structure Ipv4Cidr where
  address : BitVec 32
  length : ℕ
  length_le : length ≤ 32
  host_eq_zero : address &&& ~~~ networkMask 32 length = 0#32
deriving DecidableEq

namespace Ipv4Cidr

/-- The bits of the network part. -/
def mask (c : Ipv4Cidr) : BitVec 32 := networkMask 32 c.length

/-- The network contains the address. -/
def contains (c : Ipv4Cidr) (ip : BitVec 32) : Bool := ip &&& c.mask == c.address

/-- The address with the host part of `ip` in the network, where the host part is what the mask `m`
leaves. -/
def place (c : Ipv4Cidr) (m ip : BitVec 32) : BitVec 32 := (ip &&& ~~~ m) ||| c.address

theorem address_and_mask (c : Ipv4Cidr) : c.address &&& c.mask = c.address := by
  have hsplit : c.address = (c.address &&& c.mask) ||| (c.address &&& ~~~ c.mask) := by
    rw [← BitVec.and_or_distrib_left, BitVec.or_not_self, BitVec.and_allOnes]
  have hhost : c.address &&& ~~~ c.mask = 0#32 := c.host_eq_zero
  rw [hhost, BitVec.or_zero] at hsplit
  exact hsplit.symm

theorem contains_place (c : Ipv4Cidr) (ip : BitVec 32) : c.contains (c.place c.mask ip) = true := by
  simp [contains, place, BitVec.and_or_distrib_right, BitVec.and_assoc, address_and_mask]

theorem host_place (c : Ipv4Cidr) (ip : BitVec 32) :
    c.place c.mask ip &&& ~~~ c.mask = ip &&& ~~~ c.mask := by
  have hhost : c.address &&& ~~~ c.mask = 0#32 := c.host_eq_zero
  simp only [place, BitVec.and_or_distrib_right, BitVec.and_assoc, BitVec.and_self, hhost,
    BitVec.or_zero]

end Ipv4Cidr

end PactMesh
