import PactMesh.Gateway.CidrSet

/-!
# The KCP and QUIC destination proxies

`handle_one_in_stream` and `establish_stream` translate the destination that a stream names, ask the
ACL and connect.  They differ in what a header without a source means.
-/

namespace PactMesh

structure StreamConnData where
  src : Option SocketAddr
  dst : Option SocketAddr
deriving DecidableEq

structure StreamPacketInfo where
  srcIp : IpAddr
  dstIp : IpAddr
  srcPort : UInt16
  dstPort : UInt16
  packetSize : ℕ
  srcGroups : List String
  dstGroups : List String
deriving DecidableEq

inductive StreamChain
  | inbound
  | forward
deriving DecidableEq

structure StreamEnv where
  aclAllows : StreamPacketInfo → StreamChain → Bool
  getPeerGroupsByIp : IpAddr → List String

inductive StreamError
  | missingSrc
  | missingDst
  | inRunningListeners (dst : SocketAddr)
  | aclDenied
  | ipv4SocketOnly
deriving DecidableEq

variable (ctx : GlobalCtx) (cidrs : CidrSet) (env : StreamEnv)

/-- The destination of a stream: in a proxy network it is the real address, any other address stands
for itself. -/
def streamDestination (dst : SocketAddr) : SocketAddr :=
  match dst.ip with
  | .v4 ip =>
    match cidrs.containsV4 ip with
    | some real => ⟨.v4 real, dst.port⟩
    | none => dst
  | .v6 _ => dst

def streamTarget (dst : SocketAddr) : SocketAddr :=
  if ctx.isIpLocalVirtualIp dst.ip && ctx.noTun then ⟨loopback, dst.port⟩ else dst

/-- `NatDstTcpConnector::connect` has an IPv4 socket. -/
def connectV4 (target : SocketAddr) : Except StreamError SocketAddr :=
  match target.ip with
  | .v4 _ => .ok target
  | .v6 _ => .error .ipv4SocketOnly

def connectStream (packetSize : ℕ) (src dst : SocketAddr) : Except StreamError SocketAddr :=
  let real := streamDestination cidrs dst
  if ctx.shouldDenyProxy real false then .error (.inRunningListeners real)
  else
    let target := streamTarget ctx real
    let chain := if ctx.isIpLocalVirtualIp real.ip then StreamChain.inbound else .forward
    let info : StreamPacketInfo :=
      { srcIp := src.ip
        dstIp := real.ip
        srcPort := src.port
        dstPort := target.port
        packetSize := packetSize
        srcGroups := env.getPeerGroupsByIp src.ip
        dstGroups := env.getPeerGroupsByIp real.ip }
    if env.aclAllows info chain then connectV4 target else .error .aclDenied

def handleOneInStream (packetSize : ℕ) (data : StreamConnData) : Except StreamError SocketAddr :=
  match data.dst with
  | none => .error .missingDst
  | some dst => connectStream ctx cidrs env packetSize (data.src.getD ⟨.v4 0, 0⟩) dst

def establishStream (packetSize : ℕ) (data : StreamConnData) : Except StreamError SocketAddr :=
  match data.src, data.dst with
  | none, _ => .error .missingSrc
  | some _, none => .error .missingDst
  | some src, some dst => connectStream ctx cidrs env packetSize src dst

variable {ctx cidrs env}

variable {target : SocketAddr} {packetSize : ℕ}

theorem connectV4_ok {dst : SocketAddr} (h : connectV4 dst = .ok target) : target = dst := by
  unfold connectV4 at h
  split at h
  · exact (Except.ok.inj h).symm
  · cases h

theorem connectStream_ok {src dst : SocketAddr}
    (h : connectStream ctx cidrs env packetSize src dst = .ok target) :
    target = streamTarget ctx (streamDestination cidrs dst) := by
  unfold connectStream at h
  simp only at h
  split_ifs at h with _ _ hacl hacl
  · exact connectV4_ok h
  · exact connectV4_ok h

theorem handleOneInStream_ok {data : StreamConnData}
    (h : handleOneInStream ctx cidrs env packetSize data = .ok target) :
    ∃ dst, data.dst = some dst ∧ target = streamTarget ctx (streamDestination cidrs dst) := by
  unfold handleOneInStream at h
  split at h
  · cases h
  · next dst hdst => exact ⟨dst, hdst, connectStream_ok h⟩

theorem establishStream_ok {data : StreamConnData}
    (h : establishStream ctx cidrs env packetSize data = .ok target) :
    ∃ dst, data.dst = some dst ∧ target = streamTarget ctx (streamDestination cidrs dst) := by
  unfold establishStream at h
  split at h
  · cases h
  · cases h
  · next src dst _ hdst => exact ⟨dst, hdst, connectStream_ok h⟩

end PactMesh
