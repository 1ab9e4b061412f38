import PactMesh.Gateway.Totality

/-!
# No open proxy

Traffic of a gateway may go to the image of its destination in a proxy network, to the node itself, or
anywhere if the exit service is wanted and granted.  The packet proxies look at the exit service only
in their first check and then go by the exit flag of the sender; the stream proxies do not look.

Main result: `no_open_proxy`.
-/

namespace PactMesh

open Inet Outcome TcpProxy

namespace Gateway

variable {checks : Bool} {g g' : Gateway} {e : GatewayEvent}

def RealOf (g : Gateway) (dst real : IpAddr) : Prop :=
  g.ctx.enableExitNode = true ∨ (g.ctx.isIpLocalVirtualIp dst = true ∧ real = dst) ∨
    ∃ p ∈ g.proxyCidrs, ∃ a b, dst = .v4 a ∧ real = .v4 b ∧ p.IsImage a b

def Delivers (g : Gateway) (real target : IpAddr) : Prop :=
  target = real ∨ (g.ctx.isIpLocalVirtualIp real = true ∧ target = loopback)

def Permitted (g : Gateway) (f : Forwarded) : Prop :=
  ∃ real, g.RealOf f.destination real ∧ g.Delivers real f.target

def NotOpen (checks : Bool) (g : Gateway) (e : GatewayEvent) : Prop :=
  ∀ g' f, g.step checks e = .returns (g', some f) → g.Permitted f

def inProxyCidr (g : Gateway) : IpAddr → Bool
  | .v4 ip => (g.cidrSet.containsV4 ip).isSome
  | .v6 _ => false

def Covers (g : Gateway) (ip : IpAddr) : Prop :=
  g.ctx.enableExitNode = true ∨ g.ctx.isIpLocalVirtualIp ip = true ∨ g.inProxyCidr ip = true

instance (g : Gateway) (ip : IpAddr) : Decidable (g.Covers ip) :=
  inferInstanceAs (Decidable (_ ∨ _ ∨ _))

def FlagCovered (g : Gateway) (packet : Packet) : Prop :=
  packet.hdr.isExitNode = true →
    ∀ ipv4 ∈ Ipv4View.read packet.payload, g.Covers (.v4 ipv4.destination)

instance (g : Gateway) (packet : Packet) : Decidable (g.FlagCovered packet) :=
  inferInstanceAs (Decidable (_ → ∀ _ ∈ _, _))

/-- Peers use the exit flag and streams only for covered destinations, mapped networks have the
length of the real ones, and settings stay while a connection is being opened. -/
def Guarded (g : Gateway) : GatewayEvent → Prop
  | .configure _ proxyCidrs =>
    (∀ p ∈ proxyCidrs, p.SameLength) ∧ ∀ src, (g.tcp .tcp).synMap src = none
  | .tcpPacket .tcp _ _ packet => g.FlagCovered packet
  | .udpPacket _ _ packet => g.FlagCovered packet
  | .icmpPacket _ _ packet => g.FlagCovered packet
  | .kcpStream _ _ data => ∀ dst ∈ data.dst, g.Covers dst.ip
  | .quicStream _ _ data => ∀ dst ∈ data.dst, g.Covers dst.ip
  | _ => True

/-- What holds along guarded runs: every connection that is being opened has a permitted real
destination. -/
structure Closed (g : Gateway) : Prop where
  sameLength : ∀ p ∈ g.proxyCidrs, p.SameLength
  connector : (g.tcp .tcp).connector = .tcp
  pending : ∀ src entry, (g.tcp .tcp).synMap src = some entry →
    g.RealOf entry.mappedDst.ip entry.realDst.ip

theorem Permitted.of_localized {dst real : IpAddr} (h : g.RealOf dst real) :
    g.Permitted ⟨dst, g.ctx.localized real⟩ := by
  refine ⟨real, h, ?_⟩
  unfold GlobalCtx.localized
  split
  · next hlocal => exact .inr ⟨hlocal, rfl⟩
  · exact .inl rfl

theorem Closed.realOf_of_containsV4 (h : g.Closed) {ip real : BitVec 32}
    (hreal : g.cidrSet.containsV4 ip = some real) : g.RealOf (.v4 ip) (.v4 real) := by
  obtain ⟨p, hp, himage⟩ := CidrSet.exists_image_of_containsV4 h.sameLength hreal
  exact .inr (.inr ⟨p, hp, ip, real, rfl, rfl, himage⟩)

theorem Covers.realOf {ip : IpAddr} (h : g.Covers ip) (hout : g.inProxyCidr ip = false) :
    g.RealOf ip ip := by
  obtain henable | hown | hin := h
  · exact .inl henable
  · exact .inr (.inl ⟨hown, rfl⟩)
  · rw [hout] at hin
    cases hin

variable (h : g.Closed)
include h

theorem Closed.realOf_of_proxyDestination {packet : Packet} {ipv4 : Ipv4View}
    {real : BitVec 32} (hflag : g.FlagCovered packet)
    (hread : Ipv4View.read packet.payload = some ipv4)
    (hreal : proxyDestination g.ctx g.cidrSet packet.hdr ipv4.destination = some real) :
    g.RealOf (.v4 ipv4.destination) (.v4 real) := by
  obtain hcidr | ⟨hnone, rfl, hexit | hown⟩ := proxyDestination_cases hreal
  · exact h.realOf_of_containsV4 hcidr
  · exact (hflag hexit ipv4 hread).realOf (by rw [inProxyCidr, hnone]; rfl)
  · exact .inr (.inl ⟨hown, rfl⟩)

theorem Closed.permitted_of_stream {dst : SocketAddr} (hcover : g.Covers dst.ip) :
    g.Permitted ⟨dst.ip, (streamTarget g.ctx (streamDestination g.cidrSet dst)).ip⟩ := by
  have hreal : g.RealOf dst.ip (streamDestination g.cidrSet dst).ip := by
    obtain ⟨ip, port⟩ := dst
    cases ip with
    | v4 a =>
      cases hcidr : g.cidrSet.containsV4 a with
      | some real =>
        simp only [streamDestination, hcidr]
        exact h.realOf_of_containsV4 hcidr
      | none =>
        simp only [streamDestination, hcidr]
        exact hcover.realOf (by rw [inProxyCidr, hcidr]; rfl)
    | v6 a => exact hcover.realOf rfl
  refine ⟨_, hreal, ?_⟩
  unfold streamTarget
  split
  · next hlocal => exact .inr ⟨(Bool.and_eq_true _ _ ▸ hlocal).1, rfl⟩
  · exact .inl rfl

theorem Closed.setTcp (c : NatDstConnector) {s : TcpProxy}
    (hs : c = .tcp → s.connector = .tcp ∧ ∀ src entry, s.synMap src = some entry →
      g.RealOf entry.mappedDst.ip entry.realDst.ip) : (g.setTcp c s).Closed := by
  by_cases hc : c = .tcp
  · subst hc
    obtain ⟨hconnector, hpending⟩ := hs rfl
    have hself : (g.setTcp .tcp s).tcp .tcp = s := by simp [Gateway.setTcp]
    exact ⟨h.sameLength, hself.symm ▸ hconnector, fun src entry he => hpending src entry (hself ▸ he)⟩
  · have hother : (g.setTcp c s).tcp .tcp = g.tcp .tcp := by
      simp [Gateway.setTcp, Ne.symm hc]
    exact ⟨h.sameLength, hother.symm ▸ h.connector, fun src entry he =>
      h.pending src entry (hother ▸ he)⟩

theorem Closed.tcpPacket {now id : ℕ} {packet : Packet} {s : TcpProxy}
    {out : Option Packet} (hflag : g.FlagCovered packet)
    (hs : tryHandlePeerPacket g.ctx g.cidrSet now id (g.tcp .tcp) packet = .returns (s, out)) :
    s.connector = .tcp ∧ ∀ src entry, s.synMap src = some entry →
      g.RealOf entry.mappedDst.ip entry.realDst.ip := by
  obtain rfl | ⟨inet, ipv4, real, entry, hcheck, hreal, hmapped, rfl⟩ :=
    tryHandlePeerPacket_cases hs
  · exact ⟨h.connector, h.pending⟩
  · refine ⟨h.connector, fun src e he => ?_⟩
    obtain ⟨hread, -, hdest⟩ := checkPacket_cases hcheck
    rw [h.connector] at hdest
    simp only [Function.update_apply] at he
    split at he
    · cases he
      rw [hreal, hmapped]
      exact h.realOf_of_proxyDestination hflag hread hdest
    · exact h.pending src e he

theorem Closed.step (hguard : g.Guarded e)
    (hstep : (gatewaySystem checks).step g e g') : g'.Closed := by
  obtain ⟨out, hstep⟩ := hstep
  cases e with
  | configure ctx proxyCidrs =>
    cases hstep
    obtain ⟨hlen, hnone⟩ := hguard
    exact ⟨hlen, h.connector, fun src entry he => nomatch (hnone src).symm.trans he⟩
  | startListener c smoltcp port =>
    cases hstep
    refine h.setTcp c fun hc => ?_
    subst hc
    unfold startListener
    split <;> exact ⟨h.connector, h.pending⟩
  | tcpPacket c now id packet =>
    obtain ⟨⟨s, out'⟩, hs, hrest⟩ := bind_eq_returns_iff.1 hstep
    cases hrest
    refine h.setTcp c fun hc => ?_
    subst hc
    exact h.tcpPacket hguard hs
  | tcpAccept c addr =>
    rw [← (Prod.mk.inj (returns.inj hstep)).1]
    refine h.setTcp c fun hc => ?_
    subst hc
    obtain haccept | ⟨src, entry, -, haccept⟩ :=
      acceptConnection_cases g.ctx (g.tcp .tcp) addr
    · rw [haccept]
      exact ⟨h.connector, h.pending⟩
    · rw [haccept]
      exact ⟨h.connector, fun src' entry' he =>
        h.pending src' entry' (synMap_accepted he)⟩
  | tcpClosed c entry =>
    cases hstep
    refine h.setTcp c fun hc => ?_
    subst hc
    exact ⟨h.connector, h.pending⟩
  | udpPacket now bindOk packet =>
    obtain ⟨⟨s, v⟩, -, hrest⟩ := bind_eq_returns_iff.1 hstep
    cases hrest
    exact ⟨h.sameLength, h.connector, h.pending⟩
  | icmpPacket now ipId packet =>
    obtain ⟨⟨s, v⟩, -, hrest⟩ := bind_eq_returns_iff.1 hstep
    cases hrest
    exact ⟨h.sameLength, h.connector, h.pending⟩
  | kcpStream env packetSize data => cases hstep; exact h
  | quicStream env packetSize data => cases hstep; exact h
  | clean now =>
    cases hstep
    exact ⟨h.sameLength, h.connector, fun src entry he =>
      h.pending src entry (Option.eq_some_of_filter_eq_some he)⟩

theorem Closed.permitted_of_accept {c : NatDstConnector} {addr : SocketAddr}
    {f : Forwarded}
    (hf : ((g.tcp c).acceptConnection g.ctx addr).2.bind (g.connected c) = some f) :
    g.Permitted f := by
  obtain haccept | ⟨src, entry, hsrc, haccept⟩ :=
    acceptConnection_cases g.ctx (g.tcp c) addr
  · rw [haccept] at hf
    cases hf
  rw [haccept] at hf
  cases c with
  | kcp => cases hf
  | quic => cases hf
  | tcp =>
    obtain ⟨dst, hdst, rfl⟩ := Option.map_eq_some_iff.1 hf
    unfold connectToNatDst at hdst
    split at hdst
    · cases hdst
    · cases hdst
      exact .of_localized (h.pending src entry hsrc)

theorem Closed.notOpen (hguard : g.Guarded e) : g.NotOpen checks e := by
  intro g' f hstep
  cases e with
  | configure ctx proxyCidrs => cases hstep
  | startListener c smoltcp port => cases hstep
  | tcpPacket c now id packet =>
    obtain ⟨⟨s, out'⟩, -, hrest⟩ := bind_eq_returns_iff.1 hstep
    cases hrest
  | tcpAccept c addr =>
    exact h.permitted_of_accept (Prod.mk.inj (returns.inj hstep)).2
  | tcpClosed c entry => cases hstep
  | udpPacket now bindOk packet =>
    obtain ⟨⟨s, v⟩, hs, hrest⟩ := bind_eq_returns_iff.1 hstep
    have hf := (Prod.mk.inj (returns.inj hrest)).2
    cases v with
    | passed => cases hf
    | denied d => cases hf
    | sent d target =>
      cases hf
      obtain ⟨ipv4, hcheck, hdst, rfl⟩ := UdpProxy.tryHandlePacket_sent hs
      obtain ⟨-, hread, hdest⟩ := proxiedPacket_cases hcheck
      rw [hdst]
      exact .of_localized (h.realOf_of_proxyDestination hguard hread hdest)
  | icmpPacket now ipId packet =>
    obtain ⟨⟨s, v⟩, hs, hrest⟩ := bind_eq_returns_iff.1 hstep
    have hf := (Prod.mk.inj (returns.inj hrest)).2
    cases v with
    | passed => cases hf
    | replied packets => cases hf
    | sent dst target =>
      obtain ⟨u, -, rfl⟩ := Option.map_eq_some_iff.1 hf
      obtain ⟨ipv4, hcheck, rfl⟩ := IcmpProxy.tryHandlePeerPacket_sent hs
      obtain ⟨-, hread, hdest⟩ := proxiedPacket_cases hcheck
      exact ⟨_, h.realOf_of_proxyDestination hguard hread hdest, .inl rfl⟩
  | kcpStream env packetSize data =>
    have hf := (Prod.mk.inj (returns.inj hstep)).2
    unfold streamForwarded at hf
    split at hf
    · next target hok =>
      obtain ⟨dst, hdst, rfl⟩ := handleOneInStream_ok hok
      rw [hdst] at hf
      cases hf
      exact h.permitted_of_stream (hguard dst hdst)
    · cases hf
  | quicStream env packetSize data =>
    have hf := (Prod.mk.inj (returns.inj hstep)).2
    unfold streamForwarded at hf
    split at hf
    · next target hok =>
      obtain ⟨dst, hdst, rfl⟩ := establishStream_ok hok
      rw [hdst] at hf
      cases hf
      exact h.permitted_of_stream (hguard dst hdst)
    · cases hf
  | clean now => cases hstep

omit h

end Gateway

/-- **No open proxy.**  In every run in which peers use the exit flag and streams only for covered
destinations and settings stay while a connection is being opened, all traffic goes to the image of
its destination in a proxy network, to the node itself, or the exit service is on. -/
theorem no_open_proxy (checks : Bool) (ctx : GlobalCtx) (proxyCidrs : List ProxyNetworkConfig)
    (icmpSocket : Option Unit) (hlen : ∀ p ∈ proxyCidrs, p.SameLength)
    (events : List GatewayEvent)
    (h : (gatewaySystem checks).Along Gateway.Guarded (.start ctx proxyCidrs icmpSocket) events) :
    (gatewaySystem checks).Along (Gateway.NotOpen checks) (.start ctx proxyCidrs icmpSocket)
      events :=
  h.of_invariant (I := Gateway.Closed) ⟨hlen, rfl, nofun⟩
    (fun _ _ _ hg he hstep => hg.step he hstep) fun _ _ hg he => hg.notOpen he

def Gateway.outputs (checks : Bool) : Gateway → List GatewayEvent → Outcome (List (Option Forwarded))
  | _, [] => return []
  | g, e :: es => do
    let (g, out) ← g.step checks e
    let outs ← g.outputs checks es
    return out :: outs

/-- A packet to `8.8.8.8` with the exit flag. -/
def sampleExit (protocol : UInt8) (payload : List UInt8) : Packet :=
  sampleData PeerManagerHeader.flagExitNode
    (sampleIpv4 protocol 0 0x0a900002#32 0x08080808#32 payload)

def sampleSyn : List UInt8 :=
  Inet.bytes16 5000 ++ Inet.bytes16 443 ++ List.replicate 9 0 ++ [2] ++ List.replicate 6 0

def sampleStreamEnv : StreamEnv := ⟨fun _ _ => true, fun _ => []⟩

/-- The header of a stream from `10.144.0.2:5000`. -/
def sampleStream (destination : BitVec 32) : StreamConnData :=
  ⟨some ⟨.v4 0x0a900002#32, 5000⟩, some ⟨.v4 destination, 443⟩⟩

/-- Traffic to `8.8.8.8`. -/
def toStranger : Forwarded := ⟨.v4 0x08080808#32, .v4 0x08080808#32⟩

/-- On a node without exit service, a packet with the exit flag goes to `8.8.8.8` over UDP and ICMP
and opens a connection over TCP, and so does every KCP and QUIC stream. -/
theorem forwards_for_stranger :
    sampleGateway.outputs true
        [.udpPacket 0 true (sampleExit 17 [0, 53, 0, 53, 0, 8, 0, 0])] =
        .returns [some toStranger] ∧
      sampleGateway.outputs true [.icmpPacket 0 0 (sampleExit 1 [8, 0, 0, 0, 0, 1, 0, 1])] =
        .returns [some toStranger] ∧ sampleGateway.outputs true
        [.tcpPacket .tcp 0 0 (sampleExit 6 sampleSyn), .tcpAccept .tcp ⟨.v4 0x0a900002#32, 5000⟩] =
        .returns [none, some toStranger] ∧ sampleGateway.outputs true
        [.kcpStream sampleStreamEnv 0 (sampleStream 0x08080808#32),
          .quicStream sampleStreamEnv 0 (sampleStream 0x08080808#32)] =
        .returns [some toStranger, some toStranger] ∧ ¬ sampleGateway.Permitted toStranger := by
  refine ⟨by decide +kernel, by decide +kernel, by decide +kernel, by decide +kernel, ?_⟩
  rintro ⟨real, hexit | ⟨hown, -⟩ | ⟨p, hp, a, b, hdst, -, himage, -⟩, -⟩
  · exact absurd hexit (by decide)
  · exact absurd hown (by decide)
  · cases List.mem_singleton.1 hp
    cases hdst
    exact absurd himage (by decide)

/-- Traffic within the settings: a flagged packet to the proxy network, a connection to it, and a
stream to it. -/
def sampleCovered : List GatewayEvent :=
  [.startListener .tcp false 40000, .udpPacket 0 true (sampleData PeerManagerHeader.flagExitNode
      (sampleIpv4 17 0 0x0a900002#32 0xc0a80109#32 [0, 53, 0, 53, 0, 8, 0, 0])),
    .tcpPacket .tcp 0 0 (sampleToHost 6 0 sampleSyn), .tcpAccept .tcp ⟨.v4 0x0a900002#32, 5000⟩,
    .kcpStream sampleStreamEnv 0 (sampleStream 0xc0a80109#32)]

def Gateway.guardedCheck (g : Gateway) : GatewayEvent → Bool
  | .startListener _ _ _ | .tcpAccept _ _ => true
  | .tcpPacket .tcp _ _ packet | .udpPacket _ _ packet => decide (g.FlagCovered packet)
  | .kcpStream _ _ data => decide (∀ dst ∈ data.dst, g.Covers dst.ip)
  | _ => false

theorem Gateway.guarded_of_check (g : Gateway) (e : GatewayEvent) (h : g.guardedCheck e = true) :
    g.Guarded e := by
  cases e with
  | tcpPacket c now id packet =>
    cases c with
    | tcp => exact (decide_eq_true_iff (p := g.FlagCovered packet)).1 h
    | kcp => trivial
    | quic => trivial
  | udpPacket now bindOk packet => exact (decide_eq_true_iff (p := g.FlagCovered packet)).1 h
  | kcpStream env packetSize data =>
    exact (decide_eq_true_iff (p := ∀ dst ∈ data.dst, g.Covers dst.ip)).1 h
  | startListener c smoltcp port => trivial
  | tcpAccept c addr => trivial
  | tcpClosed c entry => trivial
  | clean now => trivial
  | configure ctx proxyCidrs => cases h
  | icmpPacket now ipId packet => cases h
  | quicStream env packetSize data => cases h

/-- Traffic within the settings goes where it may. -/
theorem sample_covered_not_open :
    (gatewaySystem true).Along (Gateway.NotOpen true)
      (.start sampleCtx [sampleProxyNetwork] (some ())) sampleCovered :=
  no_open_proxy true sampleCtx [sampleProxyNetwork] (some ()) (by decide) sampleCovered
    (Trans.along_of_check next_of_step Gateway.guarded_of_check (by decide +kernel))

end PactMesh
