import PactMesh.Gateway.CidrSet
import PactMesh.Lib.Outcome

/-!
# The TCP proxy

`TcpProxy::try_handle_peer_packet` remembers the real destination of a connection that is being opened
and rewrites the segment so that the local stack accepts it; then the proxy connects to the remembered
destination.  The KCP and QUIC sources take only segments that the node has marked itself.
-/

namespace PactMesh

open Inet Outcome Option Function TcpView

/-- How the connections of a proxy come in. -/
inductive NatDstConnector
  | tcp
  | kcp
  | quic
deriving DecidableEq

namespace NatDstConnector

/-- Whether packets are looked at at all. -/
def checkPacketFromPeerFast (ctx : GlobalCtx) (cidrs : CidrSet) : NatDstConnector → Bool
  | tcp => proxyGate ctx cidrs
  | kcp | quic => true

/-- `check_packet_from_peer`, with the real destination as the result. -/
def checkPacketFromPeer (ctx : GlobalCtx) (cidrs : CidrSet) (hdr : PeerManagerHeader)
    (ip : BitVec 32) : NatDstConnector → Option (BitVec 32)
  | tcp => proxyDestination ctx cidrs hdr ip
  | kcp =>
    if hdr.fromPeerId = hdr.toPeerId ∧
        hdr.packetType = PacketType.dataWithKcpSrcModified.toByte then some ip
    else none
  | quic =>
    if hdr.fromPeerId = hdr.toPeerId ∧
        hdr.packetType = PacketType.dataWithQuicSrcModified.toByte then some ip
    else none

end NatDstConnector

/-- A connection through the proxy. -/
structure NatDstEntry where
  id : ℕ
  src : SocketAddr
  /-- where the proxy connects to -/
  realDst : SocketAddr
  /-- what the packet is addressed to -/
  mappedDst : SocketAddr
  startTime : ℕ
deriving DecidableEq

/-- The settings and the connections of a proxy. -/
structure TcpProxy where
  connector : NatDstConnector
  localPort : UInt16
  /-- what is being opened, by source -/
  synMap : SocketAddr → Option NatDstEntry
  /-- what is accepted, by id and by source -/
  connMap : ℕ → Option NatDstEntry
  addrConnMap : SocketAddr → Option NatDstEntry
  enableSmoltcp : Bool
  /-- where the listeners of the user-space stack report; set when that stack is started -/
  smoltcpListenerTx : Option Unit

namespace TcpProxy

variable (ctx : GlobalCtx)

/-- A proxy that has not been started. -/
def new (connector : NatDstConnector) : TcpProxy :=
  ⟨connector, 0, fun _ => none, fun _ => none, fun _ => none, true, none⟩

/-- `get_proxy_listener`: start the user-space stack, or listen on a port of the host. -/
def startListener (s : TcpProxy) (smoltcp : Bool) (port : UInt16) : TcpProxy :=
  if smoltcp then { s with localPort := 8899, smoltcpListenerTx := some (), enableSmoltcp := true }
  else { s with localPort := port, enableSmoltcp := false }

/-- The address of the local stack. -/
def getLocalInet (s : TcpProxy) : Option Ipv4Inet :=
  if s.enableSmoltcp then some ⟨0xc05863fe#32, 24, Ipv4Inet.slash24_le⟩ else ctx.getIpv4

/-- Direct a segment to the listener, with new checksums. -/
def rewriteSegment (s : TcpProxy) (bytes : List UInt8) (source destination : BitVec 32) :
    Outcome (List UInt8) := do
  let segment := ipv4Payload bytes
  let _ ← unwrap (read segment)
  let segment := overwrite segment 2 (bytes16 s.localPort.toNat)
  let segment := updateTcpChecksum segment source destination
  return updateIpChecksum (overwrite bytes (payloadStart bytes) segment)

/-- Direct a packet to the local stack. -/
def rewritePacket (s : TcpProxy) (inet : Ipv4Inet) (source : BitVec 32) (bytes : List UInt8) :
    Outcome (List UInt8) :=
  -- a packet of the node itself gets another source, so that the reply goes through the device
  if !s.enableSmoltcp && source == inet.address then
    s.rewriteSegment (setDestination (setSource bytes inet.firstAddress) inet.address)
      inet.firstAddress inet.address
  else s.rewriteSegment (setDestination bytes inet.address) source inet.address

/-- Remember a connection and have the user-space stack listen for it. -/
def openConnection (s : TcpProxy) (entry : NatDstEntry) : Outcome TcpProxy := do
  let s := { s with synMap := update s.synMap entry.src (some entry) }
  if s.enableSmoltcp then
    let _ ← unwrap s.smoltcpListenerTx
    return s
  else return s

/-- The checks of a packet: the address of the local stack, the view of the packet and its real
destination. -/
def checkPacket (cidrs : CidrSet) (s : TcpProxy) (packet : Packet) :
    Option (Ipv4Inet × Ipv4View × BitVec 32) :=
  if !s.connector.checkPacketFromPeerFast ctx cidrs then none
  else
    match s.getLocalInet ctx with
    | none => none
    | some inet =>
      if (packet.hdr.packetType ≠ PacketType.data.toByte ∧
          packet.hdr.packetType ≠ PacketType.dataWithKcpSrcModified.toByte ∧
          packet.hdr.packetType ≠ PacketType.dataWithQuicSrcModified.toByte) ∨
          packet.hdr.isNoProxy then none
      else
        match Ipv4View.read packet.payload with
        | none => none
        | some ipv4 =>
          if ipv4.version ≠ 4 ∨ ipv4.nextLevelProtocol ≠ protocolTcp then none
          else
            (s.connector.checkPacketFromPeer ctx cidrs packet.hdr ipv4.destination).map
              fun real => (inet, ipv4, real)

/-- Open a connection; any other segment must belong to a known one. -/
def trackSegment (now id : ℕ) (s : TcpProxy) (ipv4 : Ipv4View) (tcp : TcpView)
    (real : BitVec 32) : Outcome (Option TcpProxy) :=
  let src : SocketAddr := ⟨.v4 ipv4.source, tcp.source⟩
  if tcp.isSyn && !tcp.isAck then do
    let s ← s.openConnection
      { id := id
        src := src
        realDst := ⟨.v4 real, tcp.destination⟩
        mappedDst := ⟨.v4 ipv4.destination, tcp.destination⟩
        startTime := now }
    return some s
  else if (s.addrConnMap src).isNone && (s.synMap src).isNone then return none
  else return some s

/-- What becomes of a packet from a peer, if it is one for the proxy. -/
def tryHandlePeerPacket (cidrs : CidrSet) (now id : ℕ) (s : TcpProxy) (packet : Packet) :
    Outcome (TcpProxy × Option Packet) :=
  match checkPacket ctx cidrs s packet with
  | none => return (s, none)
  | some (inet, ipv4, real) => do
    let tcp ← unwrap (read ipv4.payload)
    let tracked ← trackSegment now id s ipv4 tcp real
    match tracked with
    | none => return (s, none)
    | some s =>
      let payload ← s.rewritePacket inet ipv4.source packet.payload
      return (s, some ⟨{ packet.hdr with packetType := PacketType.data.toByte }, payload⟩)

/-- The source that an accepted connection was opened with: the node itself has the first address
of its network. -/
def openedFrom (socketAddr : SocketAddr) : SocketAddr :=
  match ctx.getIpv4 with
  | some inet =>
    if socketAddr.ip = .v4 inet.firstAddress then ⟨.v4 inet.address, socketAddr.port⟩
    else socketAddr
  | none => socketAddr

/-- Move an entry to the accepted connections. -/
def accepted (s : TcpProxy) (src : SocketAddr) (entry : NatDstEntry) : TcpProxy :=
  { s with
    synMap := update s.synMap src none
    addrConnMap := update s.addrConnMap entry.src (some entry)
    connMap := update s.connMap entry.id (some entry) }

/-- The listener accepts a connection from an address. -/
def acceptConnection (s : TcpProxy) (socketAddr : SocketAddr) : TcpProxy × Option NatDstEntry :=
  let src := openedFrom ctx socketAddr
  match s.synMap src with
  | none => (s, none)
  | some entry => (s.accepted src entry, some entry)

/-- Where the proxy connects to, unless it is denied. -/
def connectToNatDst (entry : NatDstEntry) : Option SocketAddr :=
  if ctx.shouldDenyProxy entry.realDst false then none
  else some ⟨ctx.localized entry.realDst.ip, entry.realDst.port⟩

/-- A connection has ended. -/
def removeEntryFromAllConnMap (s : TcpProxy) (entry : NatDstEntry) : TcpProxy :=
  { s with
    connMap := update s.connMap entry.id none
    addrConnMap := update s.addrConnMap entry.src
      ((s.addrConnMap entry.src).filter fun e => e.id ≠ entry.id) }

/-- Forget what was not accepted for 30 seconds. -/
def cleanSynMap (now : ℕ) (s : TcpProxy) : TcpProxy :=
  { s with synMap := fun src => (s.synMap src).filter fun e => now - e.startTime ≤ 30 }

/-! ### What a packet does -/

variable {ctx} {cidrs : CidrSet} {packet : Packet} {s s' : TcpProxy} {now id : ℕ}

theorem checkPacket_cases {inet : Ipv4Inet} {ipv4 : Ipv4View} {real : BitVec 32}
    (h : checkPacket ctx cidrs s packet = some (inet, ipv4, real)) :
    Ipv4View.read packet.payload = some ipv4 ∧ ipv4.nextLevelProtocol = protocolTcp ∧
      s.connector.checkPacketFromPeer ctx cidrs packet.hdr ipv4.destination = some real := by
  unfold checkPacket at h
  obtain ⟨-, h⟩ := ite_none_left_eq_some.1 h
  cases hinet : s.getLocalInet ctx with
  | none => simp [hinet] at h
  | some own =>
    rw [hinet] at h
    obtain ⟨-, h⟩ := ite_none_left_eq_some.1 h
    cases hview : Ipv4View.read packet.payload with
    | none => simp [hview] at h
    | some view =>
      rw [hview] at h
      obtain ⟨hproto, h⟩ := ite_none_left_eq_some.1 h
      obtain ⟨r, hr, heq⟩ := map_eq_some_iff.1 h
      cases heq
      push Not at hproto
      exact ⟨rfl, hproto.2, hr⟩

theorem returns_rewriteSegment {bytes : List UInt8} (source destination : BitVec 32)
    (h : 20 ≤ (ipv4Payload bytes).length) :
    (s.rewriteSegment bytes source destination).Returns := by
  have htcp : read (ipv4Payload bytes) ≠ none := read_eq_none_iff.not.2 (not_lt.2 h)
  exact (returns_unwrap_iff.2 htcp).bind fun _ _ => returns_returns _

theorem returns_rewritePacket (s : TcpProxy) (inet : Ipv4Inet) (source : BitVec 32)
    {bytes : List UInt8} (hlen : 20 ≤ bytes.length) (h : 20 ≤ (ipv4Payload bytes).length) :
    (s.rewritePacket inet source bytes).Returns := by
  have hdst : ∀ bs : List UInt8, 20 ≤ bs.length → 20 ≤ (ipv4Payload bs).length →
      20 ≤ (ipv4Payload (setDestination bs inet.address)).length := by
    intro bs hbs hpayload
    rw [setDestination, length_ipv4Payload_overwrite (by decide)]
    · exact hpayload
    · rwa [length_bytes32]
  unfold rewritePacket
  split
  · have hfits : 12 + (bytes32 inet.firstAddress).length ≤ bytes.length := by
      rw [length_bytes32]
      omega
    refine returns_rewriteSegment _ _ (hdst _ ?_ ?_)
    · rwa [setSource, length_overwrite hfits]
    · rwa [setSource, length_ipv4Payload_overwrite (by decide) hfits]
  · exact returns_rewriteSegment _ _ (hdst bytes hlen h)

/-- The user-space stack has been started if it is used. -/
def ListenerReady (s : TcpProxy) : Prop := s.enableSmoltcp = true → s.smoltcpListenerTx = some ()

instance (s : TcpProxy) : Decidable s.ListenerReady := inferInstanceAs (Decidable (_ → _))

theorem returns_openConnection (hs : s.ListenerReady) (entry : NatDstEntry) :
    (s.openConnection entry).Returns := by
  unfold openConnection
  simp only
  split
  · next hsmol => exact ⟨_, by rw [hs hsmol]; rfl⟩
  · exact ⟨_, rfl⟩

theorem returns_trackSegment (now id : ℕ) (hs : s.ListenerReady) (ipv4 : Ipv4View) (tcp : TcpView)
    (real : BitVec 32) : (trackSegment now id s ipv4 tcp real).Returns := by
  unfold trackSegment
  simp only
  split
  · exact (returns_openConnection hs _).bind fun _ _ => returns_returns _
  · split
    · exact ⟨none, rfl⟩
    · exact ⟨some s, rfl⟩

/-- **A TCP packet with a full header is handled without a panic**, once the listener is there. -/
theorem returns_tryHandlePeerPacket (ctx : GlobalCtx) (cidrs : CidrSet) (now id : ℕ)
    (hs : s.ListenerReady)
    (h : ∀ ipv4 ∈ Ipv4View.read packet.payload,
      ipv4.nextLevelProtocol = protocolTcp → 20 ≤ ipv4.payload.length) :
    (tryHandlePeerPacket ctx cidrs now id s packet).Returns := by
  unfold tryHandlePeerPacket
  split
  · exact ⟨_, rfl⟩
  · next inet ipv4 real hcheck =>
    obtain ⟨hread, hproto, -⟩ := checkPacket_cases hcheck
    have hlen := h ipv4 hread hproto
    obtain ⟨hbytes, hpayload⟩ := Ipv4View.read_eq_some hread
    have htcp : read ipv4.payload ≠ none := read_eq_none_iff.not.2 (not_lt.2 hlen)
    refine (returns_unwrap_iff.2 htcp).bind fun tcp _ => ?_
    refine (returns_trackSegment now id hs ipv4 tcp real).bind fun tracked _ => ?_
    cases tracked with
    | none => exact returns_returns _
    | some s' =>
      have hrewrite := s'.returns_rewritePacket inet ipv4.source hbytes (hpayload ▸ hlen)
      exact hrewrite.bind fun _ _ => returns_returns _

theorem openConnection_cases {entry : NatDstEntry} (h : s.openConnection entry = .returns s') :
    s' = { s with synMap := update s.synMap entry.src (some entry) } := by
  unfold openConnection at h
  simp only at h
  split at h
  · obtain ⟨u, -, hs⟩ := bind_eq_returns_iff.1 h
    exact (returns.inj hs).symm
  · exact (returns.inj h).symm

theorem tryHandlePeerPacket_cases {out : Option Packet}
    (h : tryHandlePeerPacket ctx cidrs now id s packet = .returns (s', out)) :
    s' = s ∨ ∃ inet ipv4 real, ∃ entry : NatDstEntry,
      checkPacket ctx cidrs s packet = some (inet, ipv4, real) ∧ entry.realDst.ip = .v4 real ∧
        entry.mappedDst.ip = .v4 ipv4.destination ∧
        s' = { s with synMap := update s.synMap entry.src (some entry) } := by
  unfold tryHandlePeerPacket at h
  split at h
  · exact .inl (Prod.mk.inj (returns.inj h)).1.symm
  · next inet ipv4 real hcheck =>
    obtain ⟨tcp, -, h⟩ := bind_eq_returns_iff.1 h
    obtain ⟨tracked, htracked, h⟩ := bind_eq_returns_iff.1 h
    have hs' : s' = tracked.getD s := by
      cases tracked with
      | none => exact (Prod.mk.inj (returns.inj h)).1.symm
      | some s₁ =>
        obtain ⟨payload, -, h⟩ := bind_eq_returns_iff.1 h
        exact (Prod.mk.inj (returns.inj h)).1.symm
    unfold trackSegment at htracked
    simp only at htracked
    split at htracked
    · obtain ⟨s₁, hopen, hsome⟩ := bind_eq_returns_iff.1 htracked
      rw [hs', ← returns.inj hsome]
      exact .inr ⟨inet, ipv4, real, _, hcheck, rfl, rfl, openConnection_cases hopen⟩
    · split at htracked
      · exact .inl (by rw [hs', ← returns.inj htracked, getD_none])
      · exact .inl (by rw [hs', ← returns.inj htracked, getD_some])

theorem acceptConnection_cases (ctx : GlobalCtx) (s : TcpProxy) (addr : SocketAddr) :
    s.acceptConnection ctx addr = (s, none) ∨ ∃ src entry, s.synMap src = some entry ∧
        s.acceptConnection ctx addr = (s.accepted src entry, some entry) := by
  unfold acceptConnection
  cases hentry : s.synMap (openedFrom ctx addr) with
  | none => exact .inl (by simp only [hentry])
  | some entry => exact .inr ⟨_, entry, hentry, by simp only [hentry]⟩

theorem synMap_accepted {src src' : SocketAddr} {entry entry' : NatDstEntry}
    (h : (s.accepted src entry).synMap src' = some entry') : s.synMap src' = some entry' := by
  simp only [accepted, update_apply] at h
  split at h
  · cases h
  · exact h

end TcpProxy

end PactMesh
