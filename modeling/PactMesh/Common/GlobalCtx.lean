import PactMesh.Lib.Ip

/-!
# The settings that the proxies consult

The virtual addresses of the node, the exit-node flag with the grant of the member certificate, and
the check that keeps the node's own listeners from being reached through a proxy.
-/

namespace PactMesh

structure SocketAddr where
  ip : IpAddr
  port : UInt16
deriving DecidableEq

/-- `127.0.0.1` -/
def loopback : IpAddr := .v4 0x7f000001#32

@[ext]
structure Ipv4Inet where
  address : BitVec 32
  length : ℕ
  length_le : length ≤ 32

instance : DecidableEq Ipv4Inet := fun _ _ => decidable_of_iff' _ Ipv4Inet.ext_iff

theorem Ipv4Inet.slash24_le : 24 ≤ 32 := by decide

def Ipv4Inet.firstAddress (inet : Ipv4Inet) : BitVec 32 :=
  inet.address &&& networkMask 32 inet.length

def Ipv4Inet.lastAddress (inet : Ipv4Inet) : BitVec 32 :=
  inet.address ||| ~~~ networkMask 32 inet.length

def Ipv4Inet.contains (inet : Ipv4Inet) (ip : BitVec 32) : Bool :=
  inet.address &&& networkMask 32 inet.length == ip &&& networkMask 32 inet.length

/-- `TomlConfigLoader::get_ipv4` : an address without a network is put in one of 24 bits. -/
def Ipv4Inet.withNetwork (inet : Ipv4Inet) : Ipv4Inet :=
  if inet.length = 32 then ⟨inet.address, 24, Ipv4Inet.slash24_le⟩ else inet

structure RunningListener where
  port : Option UInt16
  isUdp : Bool
deriving DecidableEq

structure GlobalCtx where
  /-- the virtual address as it is configured -/
  ipv4 : Option Ipv4Inet
  ipv6 : Option (BitVec 128)
  /-- `flags.enable_exit_node`, or set by the target -/
  exitNodeIntent : Bool
  noTun : Bool
  /-- the grant in the certificate, once there is a trust context -/
  cachedCertExitNode : Option Bool
  runningListeners : List RunningListener
  protectedTcpPorts : List UInt16
  /-- a UDP socket can be bound to the address: it is one of the host's own -/
  canBind : IpAddr → Bool

namespace GlobalCtx

variable (ctx : GlobalCtx)

def getIpv4 : Option Ipv4Inet := ctx.ipv4.map Ipv4Inet.withNetwork

def enableExitNode : Bool :=
  match ctx.cachedCertExitNode with
  | some granted => ctx.exitNodeIntent && granted
  | none => ctx.exitNodeIntent

def isIpLocalVirtualIp : IpAddr → Bool
  | .v4 ip => ctx.getIpv4.any fun inet => inet.address == ip
  | .v6 ip => ctx.ipv6.any fun address => address == ip

/-- `is_ip_in_same_network` for an IPv4 address -/
def isIpInSameNetwork (ip : BitVec 32) : Bool := ctx.getIpv4.any fun inet => inet.contains ip

def isPortInRunningListeners (port : UInt16) (isUdp : Bool) : Bool :=
  ctx.runningListeners.any fun l => l.port == some port && l.isUdp == isUdp

def shouldDenyProxy (dst : SocketAddr) (isUdp : Bool) : Bool :=
  if ctx.isIpLocalVirtualIp dst.ip || ctx.canBind dst.ip then
    ctx.isPortInRunningListeners dst.port isUdp ||
      (!isUdp && ctx.protectedTcpPorts.contains dst.port)
  else false

def localized (ip : IpAddr) : IpAddr := if ctx.isIpLocalVirtualIp ip then loopback else ip

end GlobalCtx

end PactMesh
