import PactMesh.Gateway.IcmpProxy
import PactMesh.Gateway.StreamProxy
import PactMesh.Gateway.TcpProxy
import PactMesh.Lib.Trans

/-!
# The gateway of a node

All proxies of a node with the settings they share: the settings change, a peer sends a packet or
opens a stream, the local stack accepts a proxied connection, a cleaner runs.
-/

namespace PactMesh

open Outcome

structure Gateway where
  ctx : GlobalCtx
  proxyCidrs : List ProxyNetworkConfig
  tcp : NatDstConnector → TcpProxy
  udp : UdpProxy
  icmp : IcmpProxy

structure Forwarded where
  destination : IpAddr
  target : IpAddr
deriving DecidableEq

inductive GatewayEvent
  | configure (ctx : GlobalCtx) (proxyCidrs : List ProxyNetworkConfig)
  | startListener (connector : NatDstConnector) (smoltcp : Bool) (port : UInt16)
  | tcpPacket (connector : NatDstConnector) (now id : ℕ) (packet : Packet)
  | tcpAccept (connector : NatDstConnector) (socketAddr : SocketAddr)
  | tcpClosed (connector : NatDstConnector) (entry : NatDstEntry)
  | udpPacket (now : ℕ) (bindOk : Bool) (packet : Packet)
  | icmpPacket (now ipId : ℕ) (packet : Packet)
  | kcpStream (env : StreamEnv) (packetSize : ℕ) (data : StreamConnData)
  | quicStream (env : StreamEnv) (packetSize : ℕ) (data : StreamConnData)
  | clean (now : ℕ)

namespace Gateway

variable (checks : Bool) (g : Gateway)

def start (ctx : GlobalCtx) (proxyCidrs : List ProxyNetworkConfig) (icmpSocket : Option Unit) :
    Gateway := ⟨ctx, proxyCidrs, TcpProxy.new, .new, .start icmpSocket⟩

def cidrSet : CidrSet := .load g.proxyCidrs

def setTcp (connector : NatDstConnector) (s : TcpProxy) : Gateway :=
  { g with tcp := Function.update g.tcp connector s }

def connected (connector : NatDstConnector) (entry : NatDstEntry) : Option Forwarded :=
  match connector with
  | .tcp => (TcpProxy.connectToNatDst g.ctx entry).map fun dst => ⟨entry.mappedDst.ip, dst.ip⟩
  | .kcp | .quic => none

def udpForwarded : UdpVerdict → Option Forwarded
  | .sent d target => some ⟨.v4 d.destination, target.ip⟩
  | _ => none

def icmpForwarded (s : IcmpProxy) : IcmpVerdict → Option Forwarded
  | .sent dst target => s.socket.map fun _ => ⟨.v4 dst, .v4 target⟩
  | _ => none

def streamForwarded (data : StreamConnData) : Except StreamError SocketAddr → Option Forwarded
  | .ok target => data.dst.map fun dst => ⟨dst.ip, target.ip⟩
  | .error _ => none

def step : GatewayEvent → Outcome (Gateway × Option Forwarded)
  | .configure ctx proxyCidrs => return ({ g with ctx := ctx, proxyCidrs := proxyCidrs }, none)
  | .startListener connector smoltcp port =>
    return (g.setTcp connector ((g.tcp connector).startListener smoltcp port), none)
  | .tcpPacket connector now id packet => do
    let (s, _) ← TcpProxy.tryHandlePeerPacket g.ctx g.cidrSet now id (g.tcp connector) packet
    return (g.setTcp connector s, none)
  | .tcpAccept connector socketAddr =>
    let accept := (g.tcp connector).acceptConnection g.ctx socketAddr
    return (g.setTcp connector accept.1, accept.2.bind (g.connected connector))
  | .tcpClosed connector entry =>
    return (g.setTcp connector ((g.tcp connector).removeEntryFromAllConnMap entry), none)
  | .udpPacket now bindOk packet => do
    let (s, v) ← UdpProxy.tryHandlePacket checks g.ctx g.cidrSet now bindOk g.udp packet
    return ({ g with udp := s }, udpForwarded v)
  | .icmpPacket now ipId packet => do
    let (s, v) ← IcmpProxy.tryHandlePeerPacket checks g.ctx g.cidrSet now ipId g.icmp packet
    return ({ g with icmp := s }, icmpForwarded s v)
  | .kcpStream env packetSize data =>
    return (g, streamForwarded data (handleOneInStream g.ctx g.cidrSet env packetSize data))
  | .quicStream env packetSize data =>
    return (g, streamForwarded data (establishStream g.ctx g.cidrSet env packetSize data))
  | .clean now =>
    .returns
      ({ g with
          tcp := fun c => (g.tcp c).cleanSynMap now
          udp := (g.udp.cleanNatTable now).removeExpiredPackets now
          icmp := (g.icmp.cleanNatTable now).removeExpiredPackets now }, none)

def next (e : GatewayEvent) : Option Gateway :=
  match g.step checks e with
  | .returns (g', _) => some g'
  | .panics _ => none

end Gateway

def gatewaySystem (checks : Bool) : Trans Gateway GatewayEvent where
  step g e g' := ∃ out, g.step checks e = .returns (g', out)

theorem next_of_step {checks : Bool} (g : Gateway) (e : GatewayEvent) (g' : Gateway)
    (h : (gatewaySystem checks).step g e g') : g.next checks e = some g' := by
  obtain ⟨out, hout⟩ := h
  rw [Gateway.next, hout]

end PactMesh
