import PactMesh.Gateway.ComposeIpv4
import PactMesh.Gateway.UdpProxy

/-!
# The ICMP proxy

`IcmpProxy::try_handle_peer_packet` sends the echo requests of peers to their real destination, and
answers those for the node itself when the node has no tunnel device.
-/

namespace PactMesh

open Inet Outcome

structure IcmpNatKey where
  realDstIp : BitVec 32
  icmpId : UInt16
  icmpSeq : UInt16
deriving DecidableEq

structure IcmpNatEntry where
  srcPeerId : PeerId
  myPeerId : PeerId
  srcIp : BitVec 32
  startTime : ℕ
  mappedDstIp : BitVec 32
deriving DecidableEq

structure IcmpProxy where
  natTable : IcmpNatKey → Option IcmpNatEntry
  ipReassembler : IpReassembler
  /-- the raw socket; a node without tunnel device runs without it -/
  socket : Option Unit
  /-- set before the proxy gets packets -/
  icmpSender : Option Unit

inductive IcmpVerdict
  /-- `None`: it is left to the other filters -/
  | passed
  /-- the node answers with packets to the peer -/
  | replied (packets : List (List UInt8))
  /-- the message is sent to an address, if there is a socket -/
  | sent (destination real : BitVec 32)
deriving DecidableEq

namespace IcmpProxy

variable (checks : Bool) (ctx : GlobalCtx)

def start (socket : Option Unit) : IcmpProxy := ⟨fun _ => none, .new 10, socket, some ()⟩

def checkPacket (cidrs : CidrSet) (packet : Packet) : Option (Ipv4View × BitVec 32) :=
  proxiedPacket protocolIcmp ctx cidrs packet

def replyBuffer (icmp : EchoView) : List UInt8 :=
  let reply := [0, 0, 0, 0] ++ (icmp.packet.drop 4).take 4 ++ icmp.payload
  List.replicate 20 0 ++ overwrite reply 2 (bytes16 (checksum (sumWords reply)))

def sendIcmpReplyToPeer (s : IcmpProxy) (srcIp dstIp : BitVec 32) (ipId : ℕ) (icmp : EchoView) :
    Outcome (List (List UInt8)) := do
  let buf := replyBuffer icmp
  let packets ← composeIpv4Packet
    { buf := buf
      srcV4 := srcIp
      dstV4 := dstIp
      nextProtocol := protocolIcmp
      payloadLen := buf.length - 20
      payloadMtu := 1200
      ipId := ipId }
  let _ ← unwrap s.icmpSender
  return packets

/-- The second half of `try_handle_peer_packet`: an echo request is answered or sent on. -/
def handleEcho (now ipId : ℕ) (s : IcmpProxy) (hdr : PeerManagerHeader) (ipv4 : Ipv4View)
    (real : BitVec 32) (icmp : EchoView) : Outcome (IcmpProxy × IcmpVerdict) :=
  if icmp.icmpType ≠ echoRequestType then return (s, .passed)
  else if ctx.noTun && some ipv4.destination == ctx.getIpv4.map Ipv4Inet.address then do
    let packets ← s.sendIcmpReplyToPeer ipv4.destination ipv4.source ipId icmp
    return (s, .replied packets)
  else
    let entry : IcmpNatEntry := ⟨hdr.fromPeerId, hdr.toPeerId, ipv4.source, now, ipv4.destination⟩
    let key : IcmpNatKey := ⟨real, icmp.identifier, icmp.sequenceNumber⟩
    return ({ s with natTable := Function.update s.natTable key (some entry) },
      .sent ipv4.destination real)

def tryHandlePeerPacket (cidrs : CidrSet) (now ipId : ℕ) (s : IcmpProxy) (packet : Packet) :
    Outcome (IcmpProxy × IcmpVerdict) :=
  match checkPacket ctx cidrs packet with
  | none => return (s, .passed)
  | some (ipv4, real) => do
    let (r, buf) ← UdpProxy.reassemble checks now s.ipReassembler ipv4
    let s := { s with ipReassembler := r }
    match buf.bind EchoView.read with
    | none => return (s, .passed)
    | some icmp => handleEcho ctx now ipId s packet.hdr ipv4 real icmp

def cleanNatTable (now : ℕ) (s : IcmpProxy) : IcmpProxy :=
  { s with natTable := fun key => (s.natTable key).filter fun e => now - e.startTime < 20 }

def removeExpiredPackets (now : ℕ) (s : IcmpProxy) : IcmpProxy :=
  { s with ipReassembler := s.ipReassembler.removeExpiredPackets now }

theorem returns_sendIcmpReplyToPeer {s : IcmpProxy} (hs : s.icmpSender = some ())
    (srcIp dstIp : BitVec 32) (ipId : ℕ) (icmp : EchoView) :
    (s.sendIcmpReplyToPeer srcIp dstIp ipId icmp).Returns := by
  have hbuf : 20 ≤ (replyBuffer icmp).length := by
    rw [replyBuffer, List.length_append, List.length_replicate]
    omega
  unfold sendIcmpReplyToPeer
  refine Returns.bind (ComposeIpv4PacketArgs.returns_composeIpv4Packet (Nat.succ_pos 1199)
    (by decide : 1200 % 8 = 0) ?_)
    fun packets _ => ?_
  · change (replyBuffer icmp).length - 20 + 20 ≤ (replyBuffer icmp).length
    omega
  · exact ⟨packets, by rw [hs]; rfl⟩

variable {ctx} {checks} {cidrs : CidrSet} {packet : Packet} {s s' : IcmpProxy}

theorem returns_handleEcho (ctx : GlobalCtx) (now ipId : ℕ) (hdr : PeerManagerHeader) (ipv4 : Ipv4View)
    (real : BitVec 32) (icmp : EchoView) (hs : s.icmpSender = some ()) :
    ∃ s' v, handleEcho ctx now ipId s hdr ipv4 real icmp = .returns (s', v) ∧
      s'.ipReassembler = s.ipReassembler ∧ s'.icmpSender = s.icmpSender := by
  unfold handleEcho
  split
  · exact ⟨s, .passed, rfl, rfl, rfl⟩
  · split
    · obtain ⟨packets, hpackets⟩ :=
        returns_sendIcmpReplyToPeer hs ipv4.destination ipv4.source ipId icmp
      exact ⟨s, .replied packets, by rw [hpackets]; rfl, rfl, rfl⟩
    · exact ⟨_, _, rfl, rfl, rfl⟩

/-- **An ICMP packet whose fragments fit is handled without a panic.** -/
theorem tryHandlePeerPacket_of_fits (checks : Bool) (ctx : GlobalCtx) (cidrs : CidrSet)
    (now ipId : ℕ) (hr : s.ipReassembler.Wf)
    (hs : s.icmpSender = some ()) (h : UdpProxy.FragmentsFit s.ipReassembler packet) :
    ∃ s' v, tryHandlePeerPacket checks ctx cidrs now ipId s packet = .returns (s', v) ∧
      s'.ipReassembler.Wf ∧ s'.icmpSender = some () := by
  unfold tryHandlePeerPacket
  split
  · exact ⟨s, .passed, rfl, hr, hs⟩
  · next ipv4 real hcheck =>
    obtain ⟨-, hread, -⟩ := proxiedPacket_cases hcheck
    obtain ⟨r', buf, hbuf, hr'⟩ := UdpProxy.reassemble_of_fits checks now hr (h ipv4 hread)
    simp only [hbuf, returns_bind]
    cases buf.bind EchoView.read with
    | none => exact ⟨_, _, rfl, hr', hs⟩
    | some icmp =>
      have hs₁ : ({ s with ipReassembler := r' } : IcmpProxy).icmpSender = some () := hs
      obtain ⟨s', v, hs', hkeep, hsender⟩ :=
        returns_handleEcho ctx now ipId packet.hdr ipv4 real icmp hs₁
      exact ⟨s', v, hs', hkeep ▸ hr', hsender.trans hs⟩

theorem tryHandlePeerPacket_sent {now ipId : ℕ} {dst target : BitVec 32}
    (h : tryHandlePeerPacket checks ctx cidrs now ipId s packet = .returns (s', .sent dst target)) :
    ∃ ipv4, checkPacket ctx cidrs packet = some (ipv4, target) ∧ ipv4.destination = dst := by
  unfold tryHandlePeerPacket at h
  split at h
  · simp at h
  · next ipv4 real hcheck =>
    obtain ⟨⟨r, buf⟩, -, h⟩ := bind_eq_returns_iff.1 h
    simp only at h
    split at h
    · simp at h
    · next icmp hicmp =>
      unfold handleEcho at h
      split at h
      · simp at h
      · split at h
        · obtain ⟨packets, -, h⟩ := bind_eq_returns_iff.1 h
          simp at h
        · simp only [pure_eq, Outcome.returns.injEq, Prod.mk.injEq, IcmpVerdict.sent.injEq] at h
          obtain ⟨-, hdst, hreal⟩ := h
          exact ⟨ipv4, hreal ▸ hcheck, hdst⟩

end IcmpProxy

end PactMesh
