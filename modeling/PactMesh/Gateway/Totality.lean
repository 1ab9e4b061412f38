import PactMesh.Gateway.System

/-!
# Packets of peers and panics

The gateway takes whatever peers send without a panic as long as TCP packets carry a full TCP header,
the listener of the user-space stack has been started, and fragments have consistent lengths.
Nothing checks this, and the node is built to abort on a panic.

Main result: `gateway_total`.
-/

namespace PactMesh

open Inet Outcome

namespace Gateway

variable {checks : Bool} {g g' : Gateway}

def Receivable (g : Gateway) : GatewayEvent → Prop
  | .tcpPacket connector _ _ packet =>
    (g.tcp connector).ListenerReady ∧ ∀ ipv4 ∈ Ipv4View.read packet.payload,
        ipv4.nextLevelProtocol = protocolTcp → 20 ≤ ipv4.payload.length
  | .udpPacket _ _ packet => UdpProxy.FragmentsFit g.udp.ipReassembler packet
  | .icmpPacket _ _ packet => UdpProxy.FragmentsFit g.icmp.ipReassembler packet
  | _ => True

instance (g : Gateway) (e : GatewayEvent) : Decidable (g.Receivable e) :=
  match e with
  | .tcpPacket _ _ _ _ => inferInstanceAs (Decidable (_ ∧ ∀ _ ∈ _, _ → _))
  | .udpPacket _ _ _ => inferInstanceAs (Decidable (UdpProxy.FragmentsFit _ _))
  | .icmpPacket _ _ _ => inferInstanceAs (Decidable (UdpProxy.FragmentsFit _ _))
  | .configure _ _ | .startListener _ _ _ | .tcpAccept _ _ | .tcpClosed _ _
  | .kcpStream _ _ _ | .quicStream _ _ _ | .clean _ => inferInstanceAs (Decidable True)

structure Stored (g : Gateway) : Prop where
  udp : g.udp.ipReassembler.Wf
  icmp : g.icmp.ipReassembler.Wf
  icmpSender : g.icmp.icmpSender = some ()

theorem stored_start (ctx : GlobalCtx) (proxyCidrs : List ProxyNetworkConfig)
    (icmpSocket : Option Unit) : (start ctx proxyCidrs icmpSocket).Stored :=
  ⟨IpReassembler.wf_new 10, IpReassembler.wf_new 10, rfl⟩

theorem Stored.step (checks : Bool) (h : g.Stored) {e : GatewayEvent} (he : g.Receivable e) :
    ∃ g' out, g.step checks e = .returns (g', out) ∧ g'.Stored := by
  cases e with
  | configure ctx proxyCidrs => exact ⟨_, _, rfl, h.udp, h.icmp, h.icmpSender⟩
  | startListener connector smoltcp port => exact ⟨_, _, rfl, h.udp, h.icmp, h.icmpSender⟩
  | tcpAccept connector socketAddr => exact ⟨_, _, rfl, h.udp, h.icmp, h.icmpSender⟩
  | tcpClosed connector entry => exact ⟨_, _, rfl, h.udp, h.icmp, h.icmpSender⟩
  | kcpStream env packetSize data => exact ⟨_, _, rfl, h⟩
  | quicStream env packetSize data => exact ⟨_, _, rfl, h⟩
  | clean now =>
    exact ⟨_, _, rfl, h.udp.removeExpiredPackets now, h.icmp.removeExpiredPackets now, h.icmpSender⟩
  | tcpPacket connector now id packet =>
    obtain ⟨⟨s, out⟩, hs⟩ := TcpProxy.returns_tryHandlePeerPacket g.ctx g.cidrSet now id he.1
      he.2
    exact ⟨g.setTcp connector s, none, by simp [Gateway.step, hs], h.udp, h.icmp, h.icmpSender⟩
  | udpPacket now bindOk packet =>
    obtain ⟨s, v, hs, hwf⟩ := UdpProxy.tryHandlePacket_of_fits checks g.ctx g.cidrSet now bindOk
      h.udp he
    exact ⟨{ g with udp := s }, _, by simp only [Gateway.step, hs, returns_bind]; rfl, hwf,
      h.icmp, h.icmpSender⟩
  | icmpPacket now ipId packet =>
    obtain ⟨s, v, hs, hwf, hsender⟩ := IcmpProxy.tryHandlePeerPacket_of_fits checks g.ctx
      g.cidrSet now ipId h.icmp h.icmpSender he
    exact ⟨{ g with icmp := s }, _, by simp only [Gateway.step, hs, returns_bind]; rfl, h.udp, hwf,
      hsender⟩

end Gateway

/-- **Gateway receive totality.**  In every run whose packets can be taken, every event goes without
a panic, a slice out of range or, with overflow checks, an arithmetic overflow. -/
theorem gateway_total (checks : Bool) (ctx : GlobalCtx) (proxyCidrs : List ProxyNetworkConfig)
    (icmpSocket : Option Unit) (events : List GatewayEvent)
    (h : (gatewaySystem checks).Along Gateway.Receivable (.start ctx proxyCidrs icmpSocket)
      events) :
    (gatewaySystem checks).Along (fun g e => (g.step checks e).Returns)
      (.start ctx proxyCidrs icmpSocket) events := by
  refine h.of_invariant (I := Gateway.Stored) (Gateway.stored_start ctx proxyCidrs icmpSocket) ?_ ?_
  · rintro g e g' hg he ⟨out, hstep⟩
    obtain ⟨g₁, out₁, hstep₁, hg₁⟩ := hg.step checks he
    rw [hstep] at hstep₁
    rw [(Prod.mk.inj (Outcome.returns.inj hstep₁)).1]
    exact hg₁
  · intro g e hg he
    obtain ⟨g', out, hstep, -⟩ := hg.step checks he
    exact ⟨_, hstep⟩

def sampleGateway : Gateway :=
  (Gateway.start sampleCtx [sampleProxyNetwork] (some ())).setTcp .tcp
    ((TcpProxy.new .tcp).startListener false 40000)

/-- A packet to the host `192.168.1.9` of the proxy network, in the name of `10.144.0.2`. -/
def sampleToHost (protocol : UInt8) (fragment : ℕ) (payload : List UInt8) : Packet :=
  sampleData 0 (sampleIpv4 protocol fragment 0x0a900002#32 0xc0a80109#32 payload)

def Gateway.panicOf (checks : Bool) : Gateway → List GatewayEvent → Option PanicKind
  | _, [] => none
  | g, e :: es =>
    match g.step checks e with
    | .returns (g', _) => g'.panicOf checks es
    | .panics why => some why

/-- Packets that stop the node: an IPv4 header without a TCP segment; a last fragment that announces
less than another one needs; and, with overflow checks, a fragment whose total length is less than
its header. -/
theorem packets_that_panic :
    sampleGateway.panicOf false [.tcpPacket .tcp 0 0 (sampleToHost 6 0 [])] = some .unwrapNone ∧
      sampleGateway.panicOf false
        [.udpPacket 0 true (sampleToHost 17 1 (List.replicate 8 0)),
          .udpPacket 0 true (sampleToHost 17 0x2003 (List.replicate 8 0))] = some .indexOutOfRange ∧
      sampleGateway.panicOf true
        [.udpPacket 0 true (sampleData 0 ([0x45, 0, 0, 19] ++
          (sampleToHost 17 0x2000 []).payload.drop 4))] = some .arithmeticOverflow := by
  decide +kernel

def sampleTraffic : List GatewayEvent :=
  [.udpPacket 0 true (sampleToHost 17 1 (List.replicate 8 7)),
    .udpPacket 0 true (sampleToHost 17 0x2000 [0, 53, 0, 53, 0, 16, 0, 0]),
    .tcpPacket .tcp 0 0 (sampleToHost 6 0 (List.replicate 13 0 ++ [2] ++ List.replicate 6 0))]

/-- Traffic that the node takes. -/
theorem sample_traffic_taken :
    (gatewaySystem true).Along (fun g e => (g.step true e).Returns)
      (.start sampleCtx [sampleProxyNetwork] (some ()))
      (.startListener .tcp false 40000 :: sampleTraffic) := by
  refine gateway_total true sampleCtx [sampleProxyNetwork] (some ()) _ ?_
  exact Trans.along_of_check (g := fun g e => decide (g.Receivable e)) next_of_step
    (fun g e h => of_decide_eq_true h) (by decide +kernel)

end PactMesh
