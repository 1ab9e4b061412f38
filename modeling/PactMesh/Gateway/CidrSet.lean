import PactMesh.Common.GlobalCtx
import PactMesh.Lib.Inet
import PactMesh.Tunnel.PacketDef
import Mathlib.Data.List.Induction
import Mathlib.Logic.Function.Basic

/-!
# Where a proxied packet may go

The proxy networks of the configuration with the networks they are mapped to, and the two gates that
the packet proxies share: whether the node proxies at all, and what the real destination is.
-/

namespace PactMesh

open List

structure ProxyNetworkConfig where
  cidr : Ipv4Cidr
  mappedCidr : Option Ipv4Cidr
deriving DecidableEq

namespace ProxyNetworkConfig

def mapped (p : ProxyNetworkConfig) : Ipv4Cidr := p.mappedCidr.getD p.cidr

/-- `add_proxy_cidr` takes a mapped network only with the length of the real one. -/
def SameLength (p : ProxyNetworkConfig) : Prop := p.mapped.length = p.cidr.length

instance (p : ProxyNetworkConfig) : Decidable p.SameLength := inferInstanceAs (Decidable (_ = _))

/-- `ip` is in the mapped network, and `real` has its host part in the real network. -/
def IsImage (p : ProxyNetworkConfig) (ip real : BitVec 32) : Prop :=
  p.mapped.contains ip = true ∧ p.cidr.contains real = true ∧
    real &&& ~~~ p.cidr.mask = ip &&& ~~~ p.mapped.mask

theorem isImage_place {p : ProxyNetworkConfig} (hlen : p.SameLength) {ip : BitVec 32}
    (h : p.mapped.contains ip = true) : p.IsImage ip (p.cidr.place p.mapped.mask ip) := by
  have hmask : p.mapped.mask = p.cidr.mask := by rw [Ipv4Cidr.mask, hlen, Ipv4Cidr.mask]
  rw [hmask]
  refine ⟨h, p.cidr.contains_place ip, ?_⟩
  rw [p.cidr.host_place, hmask]

end ProxyNetworkConfig

structure CidrSet where
  cidrSet : List Ipv4Cidr
  mappedToReal : Ipv4Cidr → Option Ipv4Cidr

namespace CidrSet

def push (s : CidrSet) (p : ProxyNetworkConfig) : CidrSet where
  cidrSet := s.cidrSet ++ [p.mapped]
  mappedToReal :=
    if p.mapped ≠ p.cidr then Function.update s.mappedToReal p.mapped (some p.cidr)
    else s.mappedToReal

/-- What `run_cidr_updater` makes of the configuration. -/
def load (cidrs : List ProxyNetworkConfig) : CidrSet := cidrs.foldl push ⟨[], fun _ => none⟩

def isEmpty (s : CidrSet) : Bool := s.cidrSet.isEmpty

def containsV4 (s : CidrSet) (ip : BitVec 32) : Option (BitVec 32) :=
  match s.cidrSet.find? fun cidr => cidr.contains ip with
  | none => none
  | some cidr =>
    match s.mappedToReal cidr with
    | some realCidr => some (realCidr.place cidr.mask ip)
    | none => some ip

structure Loaded (s : CidrSet) (cidrs : List ProxyNetworkConfig) : Prop where
  mem : ∀ c ∈ s.cidrSet, ∃ p ∈ cidrs, p.mapped = c
  real : ∀ c r, s.mappedToReal c = some r → ∃ p ∈ cidrs, p.mapped = c ∧ p.cidr = r
  same : ∀ c, s.mappedToReal c = none → ∀ p ∈ cidrs, p.mapped = c → p.cidr = c

theorem Loaded.push {s : CidrSet} {cidrs : List ProxyNetworkConfig} (h : s.Loaded cidrs)
    (p : ProxyNetworkConfig) : (s.push p).Loaded (cidrs ++ [p]) where
  mem c hc := by
    rcases mem_append.1 hc with hc | hc
    · obtain ⟨q, hq, hqc⟩ := h.mem c hc
      exact ⟨q, mem_append_left _ hq, hqc⟩
    · exact ⟨p, by simp, (mem_singleton.1 hc).symm⟩
  real c r hr := by
    by_cases hpc : p.mapped ≠ p.cidr ∧ c = p.mapped
    · obtain ⟨hne, rfl⟩ := hpc
      simp only [CidrSet.push, if_pos hne, Function.update_self] at hr
      exact ⟨p, by simp, rfl, Option.some.inj hr⟩
    · have hold : s.mappedToReal c = some r := by
        simp only [CidrSet.push] at hr
        split at hr
        · next hne => rwa [Function.update_of_ne fun hc => hpc ⟨hne, hc⟩] at hr
        · exact hr
      obtain ⟨q, hq, hqc⟩ := h.real c r hold
      exact ⟨q, mem_append_left _ hq, hqc⟩
  same c hnone q hq hqc := by
    have hnot : ¬ (p.mapped ≠ p.cidr ∧ c = p.mapped) := by
      rintro ⟨hne, rfl⟩
      simp [CidrSet.push, hne] at hnone
    have hold : s.mappedToReal c = none := by
      simp only [CidrSet.push] at hnone
      split at hnone
      · next hne => rwa [Function.update_of_ne fun hc => hnot ⟨hne, hc⟩] at hnone
      · exact hnone
    rcases mem_append.1 hq with hq | hq
    · exact h.same c hold q hq hqc
    · obtain rfl := mem_singleton.1 hq
      by_contra hne
      exact hnot ⟨fun heq => hne (heq ▸ hqc), hqc.symm⟩

theorem loaded_load (cidrs : List ProxyNetworkConfig) : (load cidrs).Loaded cidrs := by
  induction cidrs using List.reverseRecOn with
  | nil => exact ⟨nofun, nofun, nofun⟩
  | append_singleton cidrs p ih =>
    rw [load, foldl_append]
    exact ih.push p

/-- **A contained address is the image of a configured network**, if mapped networks have the length
of the real ones. -/
theorem exists_image_of_containsV4 {cidrs : List ProxyNetworkConfig}
    (hlen : ∀ p ∈ cidrs, p.SameLength) {ip real : BitVec 32}
    (h : (load cidrs).containsV4 ip = some real) : ∃ p ∈ cidrs, p.IsImage ip real := by
  have hload := loaded_load cidrs
  unfold containsV4 at h
  split at h
  · cases h
  · next c hfind =>
    have hmem := mem_of_find?_eq_some hfind
    have hcontains : c.contains ip = true := by simpa using find?_some hfind
    split at h
    · next r hreal =>
      obtain ⟨p, hp, rfl, rfl⟩ := hload.real c r hreal
      exact ⟨p, hp, Option.some.inj h ▸ p.isImage_place (hlen p hp) hcontains⟩
    · next hreal =>
      obtain ⟨p, hp, rfl⟩ := hload.mem c hmem
      have hsame : p.cidr = p.mapped := hload.same p.mapped hreal p hp rfl
      refine ⟨p, hp, ?_⟩
      rw [← Option.some.inj h, ProxyNetworkConfig.IsImage, hsame]
      exact ⟨hcontains, hcontains, rfl⟩

end CidrSet

/-! ### The gates of the packet proxies -/

namespace PeerManagerHeader

def isExitNode (h : PeerManagerHeader) : Bool := h.hasFlag flagExitNode

def isNoProxy (h : PeerManagerHeader) : Bool := h.hasFlag flagNoProxy

end PeerManagerHeader

def proxyGate (ctx : GlobalCtx) (cidrs : CidrSet) : Bool :=
  !cidrs.isEmpty || ctx.enableExitNode || ctx.noTun

/-- The real destination of a packet that may be proxied: it is in a proxy network, the sender
asks for an exit node, or it is for the node itself. -/
def proxyDestination (ctx : GlobalCtx) (cidrs : CidrSet) (hdr : PeerManagerHeader)
    (ip : BitVec 32) : Option (BitVec 32) :=
  match cidrs.containsV4 ip with
  | some real => some real
  | none =>
    -- the flag is the sender's: the exit service of the node is not looked at here
    if hdr.isExitNode || (ctx.noTun && some ip == ctx.getIpv4.map Ipv4Inet.address) then some ip
    else none

theorem proxyDestination_cases {ctx : GlobalCtx} {cidrs : CidrSet} {hdr : PeerManagerHeader}
    {ip real : BitVec 32} (h : proxyDestination ctx cidrs hdr ip = some real) :
    cidrs.containsV4 ip = some real ∨ (cidrs.containsV4 ip = none ∧ real = ip ∧
        (hdr.isExitNode = true ∨ ctx.isIpLocalVirtualIp (.v4 ip) = true)) := by
  unfold proxyDestination at h
  split at h
  · next r hr => exact .inl (h ▸ hr)
  · next hnone =>
    split at h
    · next hcond =>
      refine .inr ⟨hnone, (Option.some.inj h).symm, ?_⟩
      rw [Bool.or_eq_true, Bool.and_eq_true, beq_iff_eq] at hcond
      refine hcond.imp_right fun ⟨_, hown⟩ => ?_
      obtain ⟨inet, hinet, haddr⟩ := Option.map_eq_some_iff.1 hown.symm
      simp [GlobalCtx.isIpLocalVirtualIp, hinet, haddr]
    · cases h

open Inet

/-- What the proxies of datagrams check first: the packet is of their protocol, and its destination
is one that may be proxied. -/
def proxiedPacket (protocol : ℕ) (ctx : GlobalCtx) (cidrs : CidrSet) (packet : Packet) :
    Option (Ipv4View × BitVec 32) :=
  if !proxyGate ctx cidrs || ctx.getIpv4.isNone then none
  else if packet.hdr.packetType ≠ PacketType.data.toByte ∨ packet.hdr.isNoProxy then none
  else
    match Ipv4View.read packet.payload with
    | none => none
    | some ipv4 =>
      if ipv4.version ≠ 4 ∨ ipv4.nextLevelProtocol ≠ protocol then none
      else (proxyDestination ctx cidrs packet.hdr ipv4.destination).map fun real => (ipv4, real)

theorem proxiedPacket_cases {protocol : ℕ} {ctx : GlobalCtx} {cidrs : CidrSet} {packet : Packet}
    {ipv4 : Ipv4View} {real : BitVec 32}
    (h : proxiedPacket protocol ctx cidrs packet = some (ipv4, real)) :
    ctx.getIpv4.isSome ∧ Ipv4View.read packet.payload = some ipv4 ∧
      proxyDestination ctx cidrs packet.hdr ipv4.destination = some real := by
  unfold proxiedPacket at h
  obtain ⟨hgate, h⟩ := Option.ite_none_left_eq_some.1 h
  obtain ⟨-, h⟩ := Option.ite_none_left_eq_some.1 h
  cases hview : Ipv4View.read packet.payload with
  | none => simp [hview] at h
  | some view =>
    rw [hview] at h
    obtain ⟨-, h⟩ := Option.ite_none_left_eq_some.1 h
    obtain ⟨r, hr, heq⟩ := Option.map_eq_some_iff.1 h
    cases heq
    refine ⟨?_, rfl, hr⟩
    cases hip : ctx.getIpv4 with
    | none => simp [hip] at hgate
    | some inet => rfl

/-- A node without tunnel device at `10.144.0.1`, with a UDP listener on port 11010; its certificate
does not grant the exit service. -/
def sampleCtx : GlobalCtx where
  ipv4 := some ⟨0x0a900001#32, 24, Ipv4Inet.slash24_le⟩
  ipv6 := none
  exitNodeIntent := false
  noTun := true
  cachedCertExitNode := some false
  runningListeners := [⟨some 11010, true⟩]
  protectedTcpPorts := []
  canBind ip := ip == loopback

/-- The proxy network `192.168.1.0/24`. -/
def sampleProxyNetwork : ProxyNetworkConfig := ⟨⟨0xc0a80100#32, 24, by decide, by decide⟩, none⟩

def sampleData (flags : UInt8) (payload : List UInt8) : Packet :=
  ⟨⟨2, 1, PacketType.data.toByte, flags, 0, 0, 0⟩, payload⟩

def sampleIpv4 (protocol : UInt8) (fragment : ℕ) (source destination : BitVec 32)
    (payload : List UInt8) : List UInt8 :=
  [0x45, 0] ++ Inet.bytes16 (20 + payload.length) ++ [0, 0] ++ Inet.bytes16 fragment ++
    [64, protocol, 0, 0] ++ Inet.bytes32 source ++ Inet.bytes32 destination ++ payload

end PactMesh
