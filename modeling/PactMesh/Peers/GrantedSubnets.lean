import PactMesh.Peers.CredentialRoutes
import PactMesh.Peers.RouteTable

/-!
# Announcing the granted subnets

A grant is a network whose address may have host bits.  The node keeps its grants as texts and reads
them again with a parser that takes no host bits, so that such a grant counts for nothing.

Main result: `granted_subnets_announced_iff`.
-/

namespace PactMesh

open List

/-- Networks in writing, and `parse::<IpCidr>`. -/
structure CidrTexts where
  cidrToString : Ipv4Cidr → String
  netToString : IpNet → String
  parse : String → Option IpNet

def Ipv4Cidr.toIpNet (c : Ipv4Cidr) : IpNet where
  ip := .v4 c.address
  prefixLen := .ofNat c.length
  prefixLen_le := by
    have hle := c.length_le
    rw [UInt8.toNat_ofNat_of_lt' (show c.length < 256 by omega)]
    exact hle

/-- `set_effective_local_caps`: the grants as the node keeps them. -/
def setEffectiveLocalCaps (X : CidrTexts) (capabilities : Capabilities) : List String :=
  capabilities.canProxySubnet.map X.netToString

/-- The networks in the description that `new_updated_self` makes.  `configured` are the mapped
networks, or else the real ones, of the configuration and that of the VPN portal. -/
def announcedCidrs (X : CidrTexts) (configured : List Ipv4Cidr)
    (certProxyAllow : Option (List String)) : List String :=
  match certProxyAllow with
  | some allow => retainCertAllowedCidrs X.parse (configured.map X.cidrToString) allow
  | none => configured.map X.cidrToString

namespace IpNet

def Within (child parent : IpNet) : Prop := ∀ w addr, child.InRange w addr → parent.InRange w addr

theorem firstAddress_le_lastAddress (net : IpNet) : net.firstAddress ≤ net.lastAddress := by
  obtain ⟨ip, prefixLen, hle⟩ := net
  cases ip with
  | v4 bits =>
    simp only [firstAddress, lastAddress, BitVec.toNat_and, BitVec.toNat_or]
    exact Nat.and_le_left.trans Nat.left_le_or
  | v6 bits =>
    simp only [firstAddress, lastAddress, BitVec.toNat_and, BitVec.toNat_or]
    exact Nat.and_le_left.trans Nat.left_le_or

theorem within_iff {child parent : IpNet} :
    child.Within parent ↔ cidrIsSubset child parent = true := by
  refine ⟨fun h => ?_, fun h _ _ => inRange_of_cidrIsSubset h⟩
  have hle := child.firstAddress_le_lastAddress
  obtain ⟨hwidth, hfirst, -⟩ := h _ _ ⟨rfl, le_rfl, hle⟩
  obtain ⟨-, -, hlast⟩ := h _ _ ⟨rfl, hle, le_rfl⟩
  simp [cidrIsSubset, hwidth, hfirst, hlast]

end IpNet

/-- The parser reads the texts of networks without host bits, and refuses the others. -/
structure CidrTexts.Reads (X : CidrTexts) (configured : List Ipv4Cidr) (grants : List IpNet) :
    Prop where
  cidr : ∀ c ∈ configured, X.parse (X.cidrToString c) = some c.toIpNet
  net : ∀ net ∈ grants, X.parse (X.netToString net) = if net.network = net.ip then some net else none

theorem mem_announcedCidrs {X : CidrTexts} {configured : List Ipv4Cidr} {capabilities : Capabilities}
    (hX : X.Reads configured capabilities.canProxySubnet) {cidr : Ipv4Cidr} (hc : cidr ∈ configured) :
    X.cidrToString cidr ∈ announcedCidrs X configured (some (setEffectiveLocalCaps X capabilities)) ↔
      ∃ net ∈ capabilities.canProxySubnet, net.network = net.ip ∧ cidr.toIpNet.Within net := by
  rw [announcedCidrs, retainCertAllowedCidrs, mem_filter, setEffectiveLocalCaps, any_map,
    any_eq_true]
  refine (and_iff_right (mem_map_of_mem hc)).trans (exists_congr fun net => ?_)
  refine and_congr_right fun hnet => ?_
  rw [Function.comp_apply, cidrIsSubsetStr, hX.cidr cidr hc, hX.net net hnet]
  split_ifs with hhost
  · simp [hhost, IpNet.within_iff]
  · simp [hhost]

/-- **When the granted subnets are announced**: just if each configured network that a grant covers
is covered by a grant without host bits. -/
theorem granted_subnets_announced_iff (X : CidrTexts) (configured : List Ipv4Cidr)
    (capabilities : Capabilities) (hX : X.Reads configured capabilities.canProxySubnet) :
    (∀ cidr ∈ configured,
      (X.cidrToString cidr ∈ announcedCidrs X configured (some (setEffectiveLocalCaps X capabilities)) ↔
        ∃ net ∈ capabilities.canProxySubnet, cidr.toIpNet.Within net)) ↔
    ∀ cidr ∈ configured, ∀ net ∈ capabilities.canProxySubnet, cidr.toIpNet.Within net →
      ∃ net' ∈ capabilities.canProxySubnet, net'.network = net'.ip ∧ cidr.toIpNet.Within net' := by
  refine forall₂_congr fun cidr hc => ?_
  rw [mem_announcedCidrs hX hc]
  constructor
  · intro h net hnet hwithin
    exact h.2 ⟨net, hnet, hwithin⟩
  · intro h
    exact ⟨fun ⟨net, hnet, _, hwithin⟩ => ⟨net, hnet, hwithin⟩,
      fun ⟨net, hnet, hwithin⟩ => h net hnet hwithin⟩

def office : Ipv4Cidr := ⟨0x0a010000, 16, by decide, by decide⟩

def grantOf (address : BitVec 32) : Capabilities :=
  ⟨false, false, [⟨.v4 address, 8, show 8 ≤ 32 by decide⟩], false⟩

/-- The texts of 10.1.0.0/16 and of networks `10.0.0.x/8`. -/
def officeTexts : CidrTexts where
  cidrToString _ := "10.1.0.0/16"
  netToString net := if net.network = net.ip then "10.0.0.0/8" else "10.0.0.1/8"
  parse text :=
    if text = "10.1.0.0/16" then some office.toIpNet
    else if text = "10.0.0.0/8" then (grantOf 0x0a000000).canProxySubnet.head?
    else none

/-- The grant 10.0.0.0/8 lets the node announce 10.1.0.0/16. -/
theorem office_announced :
    "10.1.0.0/16" ∈ announcedCidrs officeTexts [office]
      (some (setEffectiveLocalCaps officeTexts (grantOf 0x0a000000))) := by
  refine ((granted_subnets_announced_iff officeTexts [office] (grantOf 0x0a000000)
    ⟨by decide, by decide⟩).2 ?_ office mem_cons_self).2
      ⟨_, mem_cons_self, IpNet.within_iff.2 (by decide)⟩
  intro cidr _ net hnet hwithin
  obtain rfl := mem_singleton.1 hnet
  exact ⟨_, hnet, by decide, hwithin⟩

/-- **A grant with host bits counts for nothing**: 10.0.0.1/8 covers 10.1.0.0/16, which is not
announced. -/
theorem grant_with_host_bits_ignored :
    officeTexts.Reads [office] (grantOf 0x0a000001).canProxySubnet ∧
      (∃ net ∈ (grantOf 0x0a000001).canProxySubnet, office.toIpNet.Within net) ∧
      announcedCidrs officeTexts [office]
        (some (setEffectiveLocalCaps officeTexts (grantOf 0x0a000001))) = [] :=
  ⟨⟨by decide, by decide⟩, ⟨_, mem_cons_self, IpNet.within_iff.2 (by decide)⟩, by decide⟩

end PactMesh
