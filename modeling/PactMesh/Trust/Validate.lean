import PactMesh.Lib.Checks
import PactMesh.Trust.NetworkState
import Mathlib.Data.List.Sort

/-!
# What the root checks before it signs

Hostnames and policies are checked by the tools that edit a network state, not by the nodes that
receive it.  A hostname must be a DNS label that no other live member has.  A policy must be well
formed, every member of a tag must be in the member list, and every subnet it names must be
advertised by a member.

Main result: `signing_limits_iff`.
-/

namespace PactMesh

open Checks List AList

inductive HostnameError
  | length (len : ℕ)
  | charset (byte : UInt8)
  | edgeHyphen
  | empty
  | conflict (name : String) (takenBy : MemberCertFingerprint)
deriving DecidableEq

def isHostnameByte (b : UInt8) : Bool := (97 ≤ b && b ≤ 122) || (48 ≤ b && b ≤ 57) || b == 45

def HostnameLabel.tryFromStr (s : String) : Except HostnameError HostnameLabel :=
  let normalized := s.toLower
  let len := normalized.utf8ByteSize
  if s = "" then .error .empty
  else if ¬ (1 ≤ len ∧ len ≤ 63) then .error (.length len)
  else if normalized.toList.head? = some '-' ∨ normalized.toList.getLast? = some '-' then
    .error .edgeHyphen
  else
    match normalized.toUTF8.toList.find? fun b => !isHostnameByte b with
    | some b => .error (.charset b)
    | none => .ok ⟨normalized⟩

def checkHostnameUnique (new : HostnameLabel)
    (existingLive : List (MemberCertFingerprint × Option HostnameLabel)) :
    Except HostnameError Unit :=
  match existingLive.find? fun p => p.2 == some new with
  | some p => .error (.conflict new.val p.1)
  | none => .ok ()

theorem checkHostnameUnique_eq_ok_iff {new : HostnameLabel}
    {existingLive : List (MemberCertFingerprint × Option HostnameLabel)} {u : Unit} :
    checkHostnameUnique new existingLive = .ok u ↔ ∀ p ∈ existingLive, p.2 ≠ some new := by
  unfold checkHostnameUnique
  cases h : existingLive.find? fun p => p.2 == some new with
  | none => simpa using h
  | some p =>
    have hp : p.2 = some new := by simpa using find?_some h
    simp only [reduceCtorEq, false_iff, not_forall]
    exact ⟨p, mem_of_find?_eq_some h, not_not_intro hp⟩

def aclSchemaVersion : UInt8 := 1

def maxTags : ℕ := 64

def maxRules : ℕ := 256

def maxTagMembers : ℕ := 1024

def maxSelectorsPerRule : ℕ := 32

inductive AclError
  | tooManyTags (n : ℕ)
  | tooManyRules (n : ℕ)
  | unsupportedSchemaVersion (got maxSupported : UInt8)
  | invalidTagName (tag : String)
  | emptySrcOrDst (idx : ℕ)
  | portsNotApplicable (proto : Proto)
  | invalidPortRange (low high : UInt16)
  | undefinedTag (tag : String)
  | invalidHostname (name : String)
  | invalidPrefixLen (prefixLen : UInt8)
  | tagMemberNotFound (tag : String)
  | subnetOrphan (cidr : Cidr)
deriving DecidableEq

open Checks in
def validateSelector (policy : AclPolicy) : Selector → Except AclError Unit
  | .tag tag => ensure (policy.tags.lookup tag).isSome (.undefinedTag tag.val)
  | .subnet cidr => ensure (cidr.prefixLen.toNat ≤ cidr.addr.width) (.invalidPrefixLen cidr.prefixLen)
  | .hostname name => ensure (name.val ≠ "") (.invalidHostname name.val)
  | .wildcard | .device _ => .ok ()

open Checks in
/-- One rule; `idx` is its position. -/
def validateRule (policy : AclPolicy) (rule : AclRule) (idx : ℕ) : Except AclError Unit := do
  ensure (rule.src ≠ [] && rule.dst ≠ []) (.emptySrcOrDst idx)
  ensure (rule.ports.isNone || rule.proto == .tcp || rule.proto == .udp)
    (.portsNotApplicable rule.proto)
  forM (rule.ports.getD []) fun
    | .range low high => ensure (low ≤ high) (.invalidPortRange low high)
    | .single _ => .ok ()
  forM (rule.src ++ rule.dst) (validateSelector policy)

open Checks in
def validateCommon (policy : AclPolicy) : Except AclError Unit := do
  ensure (policy.tags.entries.length ≤ maxTags) (.tooManyTags policy.tags.entries.length)
  ensure (policy.rules.length ≤ maxRules) (.tooManyRules policy.rules.length)
  ensure (policy.schemaVersion ≠ 0)
    (.unsupportedSchemaVersion policy.schemaVersion aclSchemaVersion)
  forM policy.tags.keys fun tag => ensure (tag.val ≠ "") (.invalidTagName tag.val)
  forM policy.rules.zipIdx fun p => validateRule policy p.1 p.2

open Checks in
/-- What a policy must satisfy before it is signed, given the members and the subnets they
advertise. -/
def validateForSigning (policy : AclPolicy) (memberCertIndex : List DeviceFingerprint)
    (proxyCidrs : List Cidr) : Except AclError Unit := do
  validateCommon policy
  forM policy.tags.entries fun entry =>
    ensure (entry.2.all memberCertIndex.contains) (.tagMemberNotFound entry.1.val)
  forM policy.rules fun rule =>
    forM (rule.src ++ rule.dst) fun
      | .subnet cidr => ensure (proxyCidrs.contains cidr) (.subnetOrphan cidr)
      | _ => .ok ()

open Checks in
def validateForReceiving (policy : AclPolicy) (maxSupportedVersion : UInt8) :
    Except AclError Unit := do
  ensure (policy.schemaVersion ≤ maxSupportedVersion)
    (.unsupportedSchemaVersion policy.schemaVersion maxSupportedVersion)
  validateCommon policy

abbrev CertBodies := MemberCertFingerprint → Option MemberCert

def certFingerprintToDeviceFingerprint (fp : MemberCertFingerprint) : DeviceFingerprint := ⟨fp.bytes⟩

def memberFingerprintsForAcl (state : SignedNetworkState) : List DeviceFingerprint :=
  state.details.payload.memberCertIndex.map fun entry =>
    certFingerprintToDeviceFingerprint entry.fingerprint

def proxyCidrsForAcl (certs : CertBodies) (state : SignedNetworkState) : List Cidr :=
  (state.details.payload.memberCertIndex.filterMap fun entry => certs entry.fingerprint).flatMap
    fun cert => cert.details.capabilities.canProxySubnet.map fun net => ⟨net.ip, net.prefixLen⟩

def validateAclForSigning (policy : AclPolicy) (certs : CertBodies) (state : SignedNetworkState) :
    Except AclError Unit :=
  validateForSigning policy (memberFingerprintsForAcl state) (proxyCidrsForAcl certs state)

/-- `trust tag add`: put a member into a tag and keep the tag sorted. -/
def trustTagAdd (policy : AclPolicy) (tag : TagName) (memberFp : MemberCertFingerprint) : AclPolicy :=
  let member := certFingerprintToDeviceFingerprint memberFp
  let members := (policy.tags.lookup tag).getD []
  if members.contains member then policy
  else
    { policy with
      tags := policy.tags.insert tag ((members ++ [member]).insertionSort fun a b =>
        a.bytes.toList ≤ b.bytes.toList) }

/-- `trust tag remove`: take a member out of a tag; a tag without members is dropped. -/
def trustTagRemove (policy : AclPolicy) (tag : TagName) (memberFp : MemberCertFingerprint) :
    AclPolicy :=
  let member := certFingerprintToDeviceFingerprint memberFp
  match policy.tags.lookup tag with
  | none => policy
  | some members =>
    let kept := members.filter (· ≠ member)
    { policy with
      tags := if kept = [] then policy.tags.erase tag else policy.tags.insert tag kept }

def applyTag (policy : AclPolicy) (tag : TagName) (memberFp : MemberCertFingerprint) (add : Bool) :
    AclPolicy × Bool :=
  let listed := ((policy.tags.lookup tag).getD []).contains
    (certFingerprintToDeviceFingerprint memberFp)
  if add then (trustTagAdd policy tag memberFp, !listed)
  else (trustTagRemove policy tag memberFp, listed)

def AclPolicy.Tagged (policy : AclPolicy) (tag : TagName) (member : DeviceFingerprint) : Prop :=
  ∃ members, policy.tags.lookup tag = some members ∧ member ∈ members

variable {policy : AclPolicy} {tag : TagName} {memberFp : MemberCertFingerprint}

variable {tag' : TagName} {member : DeviceFingerprint}

theorem tagged_trustTagAdd :
    (trustTagAdd policy tag memberFp).Tagged tag' member ↔ policy.Tagged tag' member ∨
        tag' = tag ∧ member = certFingerprintToDeviceFingerprint memberFp := by
  unfold trustTagAdd AclPolicy.Tagged
  by_cases hc : ((policy.tags.lookup tag).getD []).contains
      (certFingerprintToDeviceFingerprint memberFp) = true
  · -- listed before: nothing changes
    simp only [hc, if_true]
    refine ⟨.inl, ?_⟩
    rintro (h | ⟨rfl, rfl⟩)
    · exact h
    · cases hl : policy.tags.lookup tag' with
      | none => simp [hl] at hc
      | some members =>
        rw [hl, Option.getD_some] at hc
        exact ⟨members, rfl, contains_iff_mem.1 hc⟩
  · simp only [hc]
    by_cases htag : tag' = tag
    · subst htag
      cases hl : policy.tags.lookup tag' <;>
        simp [lookup_insert, mem_insertionSort]
    · simp [lookup_insert_ne htag, htag]

theorem tagged_trustTagRemove (h : (trustTagRemove policy tag memberFp).Tagged tag' member) :
    policy.Tagged tag' member := by
  unfold trustTagRemove at h
  cases hl : policy.tags.lookup tag with
  | none => simpa only [hl] using h
  | some members =>
    simp only [hl] at h
    obtain ⟨kept, hkept, hmem⟩ := h
    by_cases htag : tag' = tag
    · subst htag
      split_ifs at hkept with hempty
      · simp [lookup_erase] at hkept
      · rw [lookup_insert, Option.some.injEq] at hkept
        subst hkept
        exact ⟨members, hl, (mem_filter.1 hmem).1⟩
    · refine ⟨kept, ?_, hmem⟩
      split_ifs at hkept with hempty
      · rwa [lookup_erase_ne htag] at hkept
      · rwa [lookup_insert_ne htag] at hkept

theorem tagged_applyTag {add : Bool} (h : (applyTag policy tag memberFp add).1.Tagged tag' member) :
    policy.Tagged tag' member ∨ member = certFingerprintToDeviceFingerprint memberFp := by
  cases add with
  | false => exact .inl (tagged_trustTagRemove h)
  | true => exact (tagged_trustTagAdd.1 h).imp_right And.right

theorem rules_applyTag (add : Bool) :
    (applyTag policy tag memberFp add).1.rules = policy.rules ∧
      (applyTag policy tag memberFp add).1.schemaVersion = policy.schemaVersion := by
  cases add with
  | false =>
    simp only [applyTag, trustTagRemove, Bool.false_eq_true, if_false]
    cases policy.tags.lookup tag <;> exact ⟨rfl, rfl⟩
  | true =>
    simp only [applyTag, trustTagAdd, if_true]
    split_ifs <;> exact ⟨rfl, rfl⟩

theorem TagName.val_ne_empty (tag : TagName) : tag.val ≠ "" := by
  intro h
  have hvalid := tag.valid
  rw [h] at hvalid
  exact absurd hvalid (by decide)

/-- **What a policy without rules must satisfy to be signed**: not too many tags, a schema version,
and members who are in the member list. -/
theorem validateForSigning_eq_ok_iff {index : List DeviceFingerprint} {proxyCidrs : List Cidr}
    (hrules : policy.rules = []) :
    validateForSigning policy index proxyCidrs = .ok () ↔
      policy.tags.entries.length ≤ maxTags ∧ policy.schemaVersion ≠ 0 ∧
        ∀ tag member, policy.Tagged tag member → member ∈ index := by
  have hnames : forM policy.tags.keys (fun tag : TagName =>
      Checks.ensure (tag.val ≠ "") (AclError.invalidTagName tag.val)) = .ok () :=
    forM_eq_ok_iff.2 fun tag _ => ensure_eq_ok_iff.2 (by simp [tag.val_ne_empty])
  have hmembers : forM policy.tags.entries (fun entry =>
        Checks.ensure (entry.2.all index.contains) (AclError.tagMemberNotFound entry.1.val)) =
          .ok () ↔ ∀ tag member, policy.Tagged tag member → member ∈ index := by
    simp only [forM_eq_ok_iff, ensure_eq_ok_iff, all_eq_true, contains_iff_mem]
    constructor
    · rintro h tag member ⟨members, hl, hm⟩
      exact h ⟨tag, members⟩ (mem_lookup_iff.1 hl) member hm
    · rintro h ⟨tag, members⟩ he member hm
      exact h tag member ⟨members, mem_lookup_iff.2 he, hm⟩
  unfold validateForSigning validateCommon
  simp only [bind_eq_ok_iff, ensure_eq_ok_iff, hrules, hnames, hmembers,
    exists_const, decide_eq_true_eq, zipIdx_nil, forM_nil, length_nil]
  simp [pure, Except.pure, and_assoc]

/-- The limits that `acl.rs` declares, and references, ranges and networks that make sense. -/
structure AclPolicy.WithinLimits (policy : AclPolicy) : Prop where
  tags : policy.tags.entries.length ≤ maxTags
  rules : policy.rules.length ≤ maxRules
  members : ∀ entry ∈ policy.tags.entries, entry.2.length ≤ maxTagMembers
  selectors : ∀ rule ∈ policy.rules,
    rule.src.length ≤ maxSelectorsPerRule ∧ rule.dst.length ≤ maxSelectorsPerRule
  defined : ∀ rule ∈ policy.rules, ∀ tag, .tag tag ∈ rule.src ++ rule.dst →
    (policy.tags.lookup tag).isSome
  ranges : ∀ rule ∈ policy.rules, ∀ low high, .range low high ∈ rule.ports.getD [] → low ≤ high
  prefixes : ∀ rule ∈ policy.rules, ∀ cidr, .subnet cidr ∈ rule.src ++ rule.dst → cidr.Valid

theorem validateRule_eq_ok {rule : AclRule} {idx : ℕ} (h : validateRule policy rule idx = .ok ()) :
    (∀ low high, .range low high ∈ rule.ports.getD [] → low ≤ high) ∧
      (∀ tag, .tag tag ∈ rule.src ++ rule.dst → (policy.tags.lookup tag).isSome) ∧
      ∀ cidr, .subnet cidr ∈ rule.src ++ rule.dst → cidr.Valid := by
  simp only [validateRule, bind_eq_ok_iff, forM_eq_ok_iff] at h
  obtain ⟨_, -, _, -, _, hports, hselectors⟩ := h
  refine ⟨fun low high hmem => ?_, fun tag hmem => ?_, fun cidr hmem => ?_⟩
  · exact of_decide_eq_true (ensure_eq_ok_iff.1 (hports _ hmem))
  · exact ensure_eq_ok_iff.1 (hselectors _ hmem)
  · rw [Cidr.Valid]
    exact of_decide_eq_true (ensure_eq_ok_iff.1 (hselectors _ hmem))

/-- **When a policy that may be signed is within all limits**: just if its tags have no more members
and its rules no more selectors than they may have, which nothing checks. -/
theorem signing_limits_iff (policy : AclPolicy) (index : List DeviceFingerprint)
    (proxyCidrs : List Cidr) (h : validateForSigning policy index proxyCidrs = .ok ()) :
    policy.WithinLimits ↔ (∀ entry ∈ policy.tags.entries, entry.2.length ≤ maxTagMembers) ∧
      ∀ rule ∈ policy.rules,
        rule.src.length ≤ maxSelectorsPerRule ∧ rule.dst.length ≤ maxSelectorsPerRule := by
  simp only [validateForSigning, validateCommon, bind_eq_ok_iff, ensure_eq_ok_iff,
    decide_eq_true_eq] at h
  obtain ⟨_, ⟨_, htags, _, hrules, _, -, _, -, hvalid⟩, -⟩ := h
  have hrule : ∀ rule ∈ policy.rules, ∃ idx, validateRule policy rule idx = .ok () := by
    intro rule hmem
    obtain ⟨idx, hidx⟩ := mem_iff_getElem?.1 hmem
    exact ⟨idx, forM_eq_ok_iff.1 hvalid (rule, idx) (mem_zipIdx_iff_getElem?.2 hidx)⟩
  refine ⟨fun hlimits => ⟨hlimits.members, hlimits.selectors⟩, fun ⟨hmembers, hselectors⟩ => ?_⟩
  refine ⟨htags, hrules, hmembers, hselectors, fun rule hmem => ?_, fun rule hmem => ?_,
    fun rule hmem => ?_⟩ <;> obtain ⟨idx, hok⟩ := hrule rule hmem
  · exact (validateRule_eq_ok hok).2.1
  · exact (validateRule_eq_ok hok).1
  · exact (validateRule_eq_ok hok).2.2

def policyFrom (src : List Selector) (members : List DeviceFingerprint) : AclPolicy :=
  ⟨insert ⟨"dev", by decide +kernel⟩ members ∅, [⟨.accept, src, [.wildcard], .wildcard, none⟩],
    .drop, 1⟩

theorem open_policy_within_limits : (policyFrom [.wildcard] []).WithinLimits :=
  (signing_limits_iff _ [] [] (by decide +kernel)).2 ⟨by decide +kernel, by decide +kernel⟩

/-- **A rule with 33 selectors, and a tag with 1025 members, may be signed.** -/
theorem long_lists_signed :
    (validateForSigning (policyFrom (.replicate 33 .wildcard) []) [] [] = .ok () ∧
      ¬ (policyFrom (.replicate 33 .wildcard) []).WithinLimits) ∧
    validateForSigning (policyFrom [.wildcard] (.replicate 1025 ⟨.replicate 32 0⟩))
        [⟨.replicate 32 0⟩] [] = .ok () ∧
      ¬ (policyFrom [.wildcard] (.replicate 1025 ⟨.replicate 32 0⟩)).WithinLimits := by
  refine ⟨⟨by decide +kernel, fun h => ?_⟩, by decide +kernel, fun h => ?_⟩
  · exact absurd (h.selectors _ mem_cons_self).1 (by decide)
  · exact absurd (h.members _ mem_cons_self) (by rw [length_replicate]; decide)

end PactMesh
