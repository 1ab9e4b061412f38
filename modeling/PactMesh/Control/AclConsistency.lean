import PactMesh.Control.Rename

/-!
# The policy names members only

A policy is checked against the member list when a tag is edited; other operations change the list
and do not look at the policy.  All only add to the list, except the rename of the command line.
That a policy without rules comes back from its CBOR, up to the order of tags and members, is an
assumption; no operation writes rules.  Main results:

* `acl_consistent`: the policy passes the check all along, if no tagged member is renamed;
* `rename_breaks_acl`: after such a rename it does not.
-/

namespace PactMesh

open Checks List

variable {T : StateSuite} {root : TrustDomainRoot T} {dir dir' : NetworkDir} {op : GovOp}

/-- The policies say the same about members; the encoder sorts the tags and the members of a tag. -/
structure AclPolicy.SameTags (p q : AclPolicy) : Prop where
  rules : q.rules = p.rules
  schemaVersion : q.schemaVersion = p.schemaVersion
  length_tags : q.tags.entries.length = p.tags.entries.length
  tagged : ∀ tag member, q.Tagged tag member ↔ p.Tagged tag member

/-- Policies without rules come back from their CBOR. -/
def StateSuite.ReadsBack (T : StateSuite) : Prop :=
  ∀ p : AclPolicy, p.rules = [] → ∃ q, T.policyFromCbor (T.policyToCbor p) = some q ∧ p.SameTags q

namespace NetworkDir

variable (root) in
/-- The policy of the state passes the check, and an edit of a tag of a member who is not revoked
succeeds unless there are too many tags. -/
structure AclConsistent (dir : NetworkDir) : Prop where
  valid : ∃ policy, T.policyFromCbor dir.payload.acl = some policy ∧
    validateAclForSigning policy (dir.certBodies T) dir.state = .ok ()
  editable : ∀ fp tag add, dir.indexed fp = true → dir.state.listsRevoked fp = false →
    (∀ policy, T.policyFromCbor dir.payload.acl = some policy →
      (applyTag policy tag fp add).1.tags.entries.length ≤ maxTags) →
    ∃ dir', dir.updateTag root fp tag add = .ok dir'

variable (T) in
/-- A member that is renamed on the command line is in no tag. -/
def RenamesUntagged (dir : NetworkDir) : GovOp → Prop
  | .renameDevice deviceId label _ now =>
    ∀ row cert, dir.resolveDeviceView T deviceId now = .ok row →
      dir.certBodies T row.fingerprint = some cert → cert.details.deviceLabel ≠ label →
        tagsForMember T row.fingerprint dir.state = []
  | _ => True

variable (T) in
/-- The state holds the policy, which has no rules and names members only. -/
structure TagsIndexed (dir : NetworkDir) (policy : AclPolicy) : Prop where
  decoded : T.policyFromCbor dir.payload.acl = some policy
  rules : policy.rules = []
  schemaVersion : policy.schemaVersion ≠ 0
  length_tags : policy.tags.entries.length ≤ maxTags
  members : ∀ tag member, policy.Tagged tag member → member ∈ memberFingerprintsForAcl dir.state

variable {fp : MemberCertFingerprint}

theorem not_tagged_of_tagsForMember {state : SignedNetworkState}
    {policy : AclPolicy} (hpolicy : T.policyFromCbor state.details.payload.acl = some policy)
    (h : tagsForMember T fp state = []) (tag : TagName) :
    ¬ policy.Tagged tag (certFingerprintToDeviceFingerprint fp) := by
  rintro ⟨members, hl, hmem⟩
  unfold tagsForMember at h
  rw [hpolicy] at h
  have hnil := filter_eq_nil_iff.1 (map_eq_nil_iff.1 h) ⟨tag, members⟩
    (AList.mem_lookup_iff.1 hl)
  exact hnil (contains_iff_mem.2 hmem)

namespace TagsIndexed

variable {policy : AclPolicy}

variable (h : TagsIndexed T dir policy)
include h

theorem valid : validateAclForSigning policy (dir.certBodies T) dir.state = .ok () :=
  (validateForSigning_eq_ok_iff h.rules).2 ⟨h.length_tags, h.schemaVersion, h.members⟩

theorem of_acl_eq (hacl : dir'.payload.acl = dir.payload.acl)
    (hindex : ∀ entry ∈ dir.payload.memberCertIndex,
      (∃ tag, policy.Tagged tag (certFingerprintToDeviceFingerprint entry.fingerprint)) →
        entry ∈ dir'.payload.memberCertIndex) :
    TagsIndexed T dir' policy where
  decoded := hacl ▸ h.decoded
  rules := h.rules
  schemaVersion := h.schemaVersion
  length_tags := h.length_tags
  members tag member htag := by
    obtain ⟨entry, hentry, rfl⟩ := mem_map.1 (h.members tag member htag)
    exact mem_map.2 ⟨entry, hindex entry hentry ⟨tag, htag⟩, rfl⟩

theorem addMember (cert : MemberCert) : TagsIndexed T (dir.addMember root cert) policy := by
  unfold NetworkDir.addMember
  split_ifs
  · exact h
  · exact h.of_acl_eq rfl fun entry hentry _ => mem_append_left _ hentry

theorem edit (hcbor : T.ReadsBack) {tag : TagName} {add : Bool}
    (hvalid : validateAclForSigning (applyTag policy tag fp add).1 (dir.certBodies T) dir.state =
      .ok ()) :
    ∃ policy', TagsIndexed T
      (dir.commit root { dir.payload with acl := T.policyToCbor (applyTag policy tag fp add).1 })
      policy' := by
  have hrules : (applyTag policy tag fp add).1.rules = [] := (rules_applyTag add).1.trans h.rules
  obtain ⟨hlength, hschema, hmembers⟩ := (validateForSigning_eq_ok_iff hrules).1 hvalid
  obtain ⟨policy', hread, hsame⟩ := hcbor _ hrules
  exact ⟨policy', hread, hsame.rules.trans hrules, hsame.schemaVersion ▸ hschema,
    hsame.length_tags ▸ hlength, fun tag' member htag =>
      hmembers tag' member ((hsame.tagged tag' member).1 htag)⟩

theorem effect (hcbor : T.ReadsBack) (hop : RenamesUntagged T dir op) (he : Effect root dir op dir') :
    ∃ policy', TagsIndexed T dir' policy' := by
  cases he with
  | unchanged => exact ⟨policy, h⟩
  | @approve cert hcert | @bootstrap cert deviceId hcert =>
    refine ⟨policy, addMember ?_ cert⟩
    exact h.of_acl_eq rfl fun _ he _ => he
  | @tag policy' tag fp add hpolicy hvalid =>
    obtain rfl : policy = policy' := Option.some.inj (h.decoded.symm.trans hpolicy)
    exact h.edit hcbor hvalid
  | reissue hrename hrow hlive hcert hlabel =>
    subst hrename
    refine ⟨policy, h.of_acl_eq rfl ?_⟩
    rintro entry hentry ⟨tag, htag⟩
    refine mem_append_left _ (mem_filter.2 ⟨hentry, decide_eq_true ?_⟩)
    -- the row that goes is not named by the policy
    intro heq
    rw [heq] at htag
    exact not_tagged_of_tagsForMember h.decoded (hop _ _ hrow hcert hlabel) tag htag
  | revoke | disabled | labels | hostname | grants | explicitAddress | freeAddress | hints =>
    exact ⟨policy, h.of_acl_eq rfl fun _ he _ => he⟩

theorem valid_applyTag {tag : TagName}
    {add : Bool} (hindexed : dir.indexed fp = true)
    (hlength : (applyTag policy tag fp add).1.tags.entries.length ≤ maxTags) :
    validateAclForSigning (applyTag policy tag fp add).1 (dir.certBodies T) dir.state = .ok () := by
  obtain ⟨hrules, hschema⟩ : (applyTag policy tag fp add).1.rules = policy.rules ∧
      (applyTag policy tag fp add).1.schemaVersion = policy.schemaVersion := rules_applyTag add
  refine (validateForSigning_eq_ok_iff (hrules.trans h.rules)).2
    ⟨hlength, hschema ▸ h.schemaVersion, fun tag' member htag => ?_⟩
  obtain hold | rfl := tagged_applyTag htag
  · exact h.members tag' member hold
  · obtain ⟨entry, hentry, heq⟩ := any_eq_true.1 hindexed
    exact mem_map.2 ⟨entry, hentry, congrArg _ (eq_of_beq heq)⟩

theorem aclConsistent : AclConsistent root dir where
  valid := ⟨policy, h.decoded, h.valid⟩
  editable fp tag add hindexed hlive hlength := by
    have hvalid : validateAclForSigning (applyTag policy tag fp add).1 (dir.certBodies T) dir.state =
        .ok () := h.valid_applyTag hindexed (hlength policy h.decoded)
    simp only [updateTag, bind_eq_ok_iff, ensure_eq_ok_iff, require_eq_ok_iff, exists_const,
      memberStatus_ne_revoked_iff]
    by_cases hchanged : (applyTag policy tag fp add).2 = true
    · refine ⟨dir.commit root
        { dir.payload with acl := T.policyToCbor (applyTag policy tag fp add).1 },
        hlive, policy, h.decoded, ?_⟩
      rw [if_pos hchanged, hvalid]
      rfl
    · refine ⟨dir, hlive, policy, h.decoded, ?_⟩
      rw [if_neg hchanged]
      rfl

end TagsIndexed

end NetworkDir

/-- **The policy names members only** after any operations on a new network, as long as no member is
renamed on the command line while it is in a tag; and then tags can be edited. -/
theorem acl_consistent (hcbor : T.ReadsBack) {name : NetworkLocalId} {action : Action} {ops : List GovOp}
    (hrun : ((Trans.ofFun (NetworkDir.step root)).guard (NetworkDir.RenamesUntagged T)).Run
      (createNetwork root name action) ops dir) : NetworkDir.AclConsistent root dir := by
  obtain ⟨first, hread, hsame⟩ := hcbor ⟨∅, [], action, aclSchemaVersion⟩ rfl
  have hnew : NetworkDir.TagsIndexed T (createNetwork root name action) first :=
    ⟨hread, hsame.rules, hsame.schemaVersion ▸ (by decide : aclSchemaVersion ≠ 0),
      hsame.length_tags ▸ Nat.zero_le _, fun tag member htag => by
        simpa [AclPolicy.Tagged] using (hsame.tagged tag member).1 htag⟩
  have hinv := hrun.invariant (I := fun d => ∃ policy, NetworkDir.TagsIndexed T d policy)
    ⟨_, hnew⟩ (by
      rintro d op _ ⟨policy, hd⟩ ⟨hop, rfl⟩
      exact hd.effect hcbor hop (NetworkDir.effect_step root d op))
  obtain ⟨policy, h⟩ := hinv
  exact h.aclConsistent

/-- A member is put into a tag and renamed.  The policy does not pass the check any more, and another
member cannot be put into the tag. -/
theorem rename_breaks_acl :
    let dir := [sampleRename, sampleApprove (all32 4)].foldl
      (NetworkDir.step sampleRoot) (sampleChanged fun fp => [.apiTrustTag fp opsTag true])
    (sampleGovSuite.policyFromCbor dir.payload.acl).map (fun policy =>
        validateAclForSigning policy (dir.certBodies sampleGovSuite) dir.state) =
      some (.error (.tagMemberNotFound "ops")) ∧
    (dir.run sampleRoot (.apiTrustTag ((sampleMember (all32 4) 4).fingerprint
      sampleGovSuite) opsTag true)).toOption = none ∧
    dir.indexed ((sampleMember (all32 4) 4).fingerprint
      sampleGovSuite) = true := by
  decide +kernel

/-! ### A codec for policies without rules

It sorts the members of a tag, as the one of the source does. -/

namespace TagCodec

/-- A string of bytes, with a one before each and a zero at the end. -/
def put (bs : List UInt8) : List UInt8 := bs.flatMap ([1, ·]) ++ [0]

/-- The strings in a row. -/
def scan : List UInt8 → List (List UInt8)
  | [] => []
  | 1 :: b :: rest => (b :: (scan rest).headD []) :: (scan rest).tail
  | _ :: rest => [] :: scan rest

/-- The members of a tag in order. -/
def sortEntry (e : (_ : TagName) × List DeviceFingerprint) : (_ : TagName) × List DeviceFingerprint :=
  ⟨e.1, e.2.insertionSort fun a b => a.bytes.toList ≤ b.bytes.toList⟩

def encodeEntry (e : (_ : TagName) × List DeviceFingerprint) : List UInt8 :=
  (e.1.val.toUTF8.data.toList :: (sortEntry e).2.map (·.bytes.toList)).flatMap put

def decodeMember (bs : List UInt8) : Option DeviceFingerprint :=
  if h : bs.length = 32 then some ⟨⟨bs.toArray, h⟩⟩ else none

def decodeEntry (bs : List UInt8) : Option ((_ : TagName) × List DeviceFingerprint) :=
  match scan bs with
  | [] => none
  | name :: members => do
    let name ← String.fromUTF8? ⟨name.toArray⟩
    let members ← members.mapM decodeMember
    if h : isTagName name then some ⟨⟨name, h⟩, members⟩ else none

def encode (policy : AclPolicy) : List UInt8 :=
  policy.schemaVersion :: (if policy.defaultAction = .accept then 1 else 0) ::
    (policy.tags.entries.map encodeEntry).flatMap put

def decode : List UInt8 → Option AclPolicy
  | version :: action :: bs => do
    let entries ← (scan bs).mapM decodeEntry
    if h : entries.keys.Nodup then
      some ⟨⟨entries, h⟩, [], if action = 1 then .accept else .drop, version⟩
    else none
  | _ => none

theorem scan_put (bs rest : List UInt8) : scan (put bs ++ rest) = bs :: scan rest := by
  induction bs with
  | nil => rfl
  | cons b bs ih =>
    change scan (1 :: b :: (put bs ++ rest)) = _
    rw [scan, ih]
    rfl

theorem scan_flatMap_put (xs : List (List UInt8)) : scan (xs.flatMap put) = xs := by
  induction xs with
  | nil => rfl
  | cons x xs ih => rw [flatMap_cons, scan_put, ih]

theorem mapM_map {α β γ : Type} {f : α → β} {g : β → Option γ} {h : α → γ}
    (hg : ∀ a, g (f a) = some (h a)) (l : List α) : (l.map f).mapM g = some (l.map h) := by
  induction l with
  | nil => rfl
  | cons a l ih => simp [hg, ih]

theorem decodeEntry_encodeEntry (e : (_ : TagName) × List DeviceFingerprint) :
    decodeEntry (encodeEntry e) = some (sortEntry e) := by
  have hmembers : ∀ m : DeviceFingerprint, decodeMember m.bytes.toList = some m := fun m =>
    dif_pos m.bytes.length_toList
  rw [decodeEntry, encodeEntry, scan_flatMap_put]
  simp only [fromUTF8?_toUTF8, mapM_map hmembers, map_id']
  exact dif_pos e.1.valid

/-- The primitives of `sampleGovSuite` with this codec. -/
def suite : StateSuite := { sampleGovSuite with policyToCbor := encode, policyFromCbor := decode }

theorem readsBack : suite.ReadsBack := by
  intro p hp
  have hkeys : (p.tags.entries.map sortEntry).keys.Nodup := by
    have h := p.tags.nodupKeys
    rw [NodupKeys, keys] at h
    simpa [keys, sortEntry, Function.comp_def] using h
  refine ⟨⟨⟨p.tags.entries.map sortEntry, hkeys⟩, [], p.defaultAction, p.schemaVersion⟩, ?_, hp.symm,
    rfl, length_map _, fun tag member => ?_⟩
  · change decode (encode p) = _
    rw [encode, decode, scan_flatMap_put, mapM_map decodeEntry_encodeEntry]
    cases haction : p.defaultAction <;> simp [hkeys]
  · constructor
    · rintro ⟨_, hlookup, hmem⟩
      obtain ⟨e, he, heq⟩ := mem_map.1 (AList.mem_lookup_iff.1 hlookup)
      cases heq
      exact ⟨e.2, AList.mem_lookup_iff.2 he, (mem_insertionSort _).1 hmem⟩
    · rintro ⟨members, hlookup, hmem⟩
      exact ⟨_, AList.mem_lookup_iff.2 (mem_map_of_mem (AList.mem_lookup_iff.1 hlookup)),
        (mem_insertionSort _).2 hmem⟩

/-- The root `[9, 9, …]`. -/
def rootOf9 : TrustDomainRoot suite :=
  ⟨sampleRoot.pkRoot, sampleRoot.sign, sampleRoot.length_sign, sampleRoot.verify_sign⟩

def firstDir : NetworkDir := createNetwork rootOf9 ⟨"office"⟩ .accept

def fingerprint (device : UInt8) (version : UInt64) : MemberCertFingerprint :=
  (sampleMember (all32 device) version).fingerprint suite

/-- Two devices join and are put into a tag. -/
def ops : List GovOp :=
  [sampleApprove (all32 3), sampleApprove (all32 4),
    .apiTrustTag (fingerprint 3 1) opsTag true, .apiTrustTag (fingerprint 4 2) opsTag true]

end TagCodec

open TagCodec in
theorem acl_consistent_two_tagged :
    tagsForMember suite (fingerprint 3 1) (ops.foldl (NetworkDir.step rootOf9) firstDir).state =
        [opsTag] ∧
      tagsForMember suite (fingerprint 4 2) (ops.foldl (NetworkDir.step rootOf9) firstDir).state =
        [opsTag] ∧
      NetworkDir.AclConsistent rootOf9 (ops.foldl (NetworkDir.step rootOf9) firstDir) := by
  have hrun : ((Trans.ofFun (NetworkDir.step rootOf9)).guard
      (NetworkDir.RenamesUntagged suite)).Run firstDir ops
        (ops.foldl (NetworkDir.step rootOf9) firstDir) :=
    .cons ⟨trivial, rfl⟩ (.cons ⟨trivial, rfl⟩ (.cons ⟨trivial, rfl⟩ (.cons ⟨trivial, rfl⟩ .nil)))
  exact ⟨by decide +kernel, by decide +kernel, acl_consistent readsBack hrun⟩

end PactMesh
