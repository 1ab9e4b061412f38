import PactMesh.Control.Governance
import PactMesh.Lib.Trans

/-!
# What the operations of the root do

`Effect` lists the ways in which an operation that succeeds changes the payload, with what it has
checked, and `effect_of_run` says that there are no others.
-/

namespace PactMesh

open Checks List

variable {T : StateSuite} (root : TrustDomainRoot T)

structure Issued (dir : NetworkDir) (cert : MemberCert) : Prop where
  trustDomainId : cert.details.trustDomainId = root.id
  networkLocalId : cert.details.networkLocalId = dir.name ∨
    cert.details.networkLocalId = dir.state.details.networkLocalId
  hostname : cert.details.hostname = none

inductive Effect (dir : NetworkDir) (op : GovOp) : NetworkDir → Prop
  | unchanged : Effect dir op dir
  | approve {cert : MemberCert} (hcert : Issued root dir cert) :
    Effect dir op
      (NetworkDir.addMember root { dir with memberCerts := cert :: dir.memberCerts } cert)
  | bootstrap {cert : MemberCert} {deviceId : Option String}
      (hcert : dir.memberCert = some cert ∨ dir.memberCert = none ∧ Issued root dir cert) :
    Effect dir op
      (NetworkDir.addMember root { dir with memberCert := some cert, deviceId := deviceId } cert)
  | revoke {r : RevokedCert} (hindexed : dir.indexed r.certFingerprint = true) :
    Effect dir op
      (dir.commit root { dir.payload with revokedCerts := dir.payload.revokedCerts ++ [r] })
  | disabled (disabledCerts : List DisabledCert) :
    Effect dir op (dir.commit root { dir.payload with disabledCerts := disabledCerts })
  | labels (labelBindings : List LabelBinding) :
    Effect dir op (dir.commit root { dir.payload with labelBindings := labelBindings })
  | hostname {fp : MemberCertFingerprint} {cert : MemberCert} {hostname : Option HostnameLabel}
      {now : UInt64} (hcert : dir.activeMemberCert T fp = .ok cert)
      (hfree : ∀ new, hostname = some new → ∀ p ∈ dir.liveHostnameEntries T fp, p.2 ≠ some new) :
    Effect dir op (dir.commit root (dir.bindHostname fp cert.details.hostname hostname now))
  | grants (capabilityGrants : List CapabilityGrant) :
    Effect dir op (dir.commit root { dir.payload with capabilityGrants := capabilityGrants })
  | tag {policy : AclPolicy} {tag : TagName} {fp : MemberCertFingerprint} {add : Bool}
      (hpolicy : T.policyFromCbor dir.payload.acl = some policy)
      (hvalid : validateAclForSigning (applyTag policy tag fp add).1 (dir.certBodies T) dir.state =
        .ok ()) :
    Effect dir op
      (dir.commit root { dir.payload with acl := T.policyToCbor (applyTag policy tag fp add).1 })
  | explicitAddress {fp : MemberCertFingerprint} {cert : MemberCert} {ipv4 : Option AssignedIpv4}
      (hop : op = .apiAssignedIpv4 fp ipv4 ∨ op = .trustAssignedIpv4 fp ipv4)
      (hcert : dir.certBodies T fp = some cert) :
    Effect dir op (dir.assign root (T.encodeDeviceId cert.details.devicePk) ipv4)
  | freeAddress {deviceId : String} {free : UInt32} {prefixLen : UInt8}
      (hfree : free ∉ dir.payload.ipAssignments.map (·.ipv4.addr)) :
    Effect dir op (dir.assign root deviceId (some ⟨free, prefixLen⟩))
  | hints (peerHints : List PeerHint) :
    Effect dir op (dir.commit root { dir.payload with peerHints := peerHints })
  | reissue {deviceId label : String} {note : Option String} {now : UInt64} {row : DeviceView}
      {cert : MemberCert} (hop : op = .renameDevice deviceId label note now)
      (hrow : dir.resolveDeviceView T deviceId now = .ok row)
      (hlive : dir.state.listsRevoked row.fingerprint = false)
      (hcert : dir.certBodies T row.fingerprint = some cert)
      (hlabel : cert.details.deviceLabel ≠ label) :
    Effect dir op (dir.reissue root row.fingerprint cert label note now)

namespace NetworkDir

variable {root} {dir dir' : NetworkDir} {op : GovOp} {fp : MemberCertFingerprint}

@[simp] theorem name_commit (payload : NetworkStatePayload) :
    (dir.commit root payload).name = dir.name := rfl

theorem addMember_memberCerts (cert : MemberCert) (certs : List MemberCert) :
    addMember root { dir with memberCerts := certs } cert =
      { dir.addMember root cert with memberCerts := certs } := by
  unfold addMember
  change (if dir.indexed _ = true then _ else _) = _
  split_ifs <;> rfl

theorem memberCerts_addMember (cert : MemberCert) :
    (dir.addMember root cert).memberCerts = dir.memberCerts := by
  unfold addMember
  split_ifs <;> rfl

@[simp] theorem name_addMember (cert : MemberCert) : (dir.addMember root cert).name = dir.name := by
  unfold addMember
  split_ifs <;> rfl

/-! ### The checks of an operation -/

theorem memberStatus_ne_revoked_iff {state : SignedNetworkState} :
    (memberStatus fp state != .revoked) = true ↔ state.listsRevoked fp = false := by
  unfold memberStatus
  split_ifs <;> simp_all

variable {cert : MemberCert} {label deviceId : String} {now : UInt64} {note : Option String}

theorem activeMemberCert_eq_ok_iff :
    dir.activeMemberCert T fp = .ok cert ↔
      dir.indexed fp = true ∧ dir.state.listsRevoked fp = false ∧ dir.certBodies T fp = some cert := by
  simp only [activeMemberCert, bind_eq_ok_iff, ensure_eq_ok_iff, exists_const, require_eq_ok_iff,
    memberStatus_ne_revoked_iff]

theorem not_mem_of_firstFree {used : List UInt32} {lo n : ℕ} {a : UInt32}
    (h : firstFree used lo n = some a) : a ∉ used := by
  induction n generalizing lo with
  | zero => simp [firstFree] at h
  | succ n ih =>
    unfold firstFree at h
    split_ifs at h with hused
    · exact ih h
    · cases h
      simpa using hused

theorem not_mem_of_pickFreeIp {pool : AssignedIpv4} {assignments : List IpAssignment} {a : UInt32}
    (h : pickFreeIp pool assignments = .ok a) : a ∉ assignments.map (·.ipv4.addr) := by
  simp only [pickFreeIp, bind_eq_ok_iff, ensure_eq_ok_iff, exists_const, require_eq_ok_iff] at h
  exact not_mem_of_firstFree h.2

/-! ### One effect for each operation -/

theorem effect_approve {applicantPk : Bytes32} {daemonAgrees : Bool}
    (h : dir.approve root applicantPk label daemonAgrees now = .ok dir') :
    Effect root dir op dir' := by
  simp only [approve, bind_eq_ok_iff, ensure_eq_ok_iff, exists_const, memberCerts_addMember,
    ← addMember_memberCerts] at h
  obtain ⟨-, h⟩ := h
  cases h
  exact .approve ⟨rfl, .inl rfl, rfl⟩

theorem effect_bootstrapSelf {devicePk : Bytes32}
    (h : dir.bootstrapSelf root devicePk label now = .ok dir') : Effect root dir op dir' := by
  simp only [bootstrapSelf, bind_eq_ok_iff, ensure_eq_ok_iff, exists_const] at h
  obtain ⟨-, cert, hcert, h⟩ := h
  cases h
  refine .bootstrap ?_
  unfold ownCert at hcert
  cases hold : dir.memberCert with
  | none =>
    rw [hold] at hcert
    cases hcert
    exact .inr ⟨rfl, rfl, .inr rfl, rfl⟩
  | some old =>
    simp only [hold, bind_eq_ok_iff, ensure_eq_ok_iff, exists_const] at hcert
    obtain ⟨-, -, -, -, hcert⟩ := hcert
    cases hcert
    exact .inl rfl

theorem effect_revoke {reason : RevocationReason}
    (h : dir.revoke root fp reason note now = .ok dir') : Effect root dir op dir' := by
  simp only [revoke, bind_eq_ok_iff, ensure_eq_ok_iff, exists_const] at h
  obtain ⟨hindexed, h⟩ := h
  cases h
  exact .revoke hindexed

theorem effect_disable {expectedUntil : Option UInt64}
    (h : dir.disable root fp expectedUntil note now = .ok dir') : Effect root dir op dir' := by
  simp only [disable, bind_eq_ok_iff, ensure_eq_ok_iff, exists_const] at h
  obtain ⟨-, -, h⟩ := h
  cases h
  exact .disabled _

theorem effect_enable (h : dir.enable root fp = .ok dir') : Effect root dir op dir' := by
  simp only [enable, bind_eq_ok_iff, ensure_eq_ok_iff, exists_const] at h
  obtain ⟨-, -, h⟩ := h
  cases h
  exact .disabled _

theorem effect_relabel (h : dir.relabel root fp label now = .ok dir') :
    Effect root dir op dir' := by
  simp only [relabel, bind_eq_ok_iff, ensure_eq_ok_iff, exists_const] at h
  obtain ⟨-, cert, -, h⟩ := h
  split_ifs at h <;> cases h
  · exact .unchanged
  · exact .labels _
  · exact .labels _

theorem effect_setHostname {hostname : Option HostnameLabel}
    (hcert : dir.activeMemberCert T fp = .ok cert)
    (h : dir.setHostname root fp cert hostname now = .ok dir') : Effect root dir op dir' := by
  unfold setHostname at h
  by_cases hsame : hostname = effectiveHostname T cert dir.state
  · rw [if_pos hsame] at h
    cases h
    exact .unchanged
  · rw [if_neg hsame] at h
    cases hostname with
    | none =>
      cases h
      exact .hostname hcert (by simp)
    | some new =>
      simp only [bind_eq_ok_iff, mapError_eq_ok_iff, checkHostnameUnique_eq_ok_iff,
        exists_const] at h
      obtain ⟨hfree, h⟩ := h
      cases h
      refine .hostname hcert ?_
      rintro _ ⟨⟩
      exact hfree

theorem effect_updateHostname {text : Option String}
    (h : dir.updateHostname root fp text now = .ok dir') : Effect root dir op dir' := by
  simp only [updateHostname, bind_eq_ok_iff] at h
  obtain ⟨cert, hcert, hostname, -, h⟩ := h
  exact effect_setHostname hcert h

theorem effect_setCapability {edit : CapabilityEdit}
    (h : dir.setCapability root fp edit now = .ok dir') : Effect root dir op dir' := by
  simp only [setCapability, bind_eq_ok_iff, ensure_eq_ok_iff, exists_const] at h
  obtain ⟨-, -, cert, -, h⟩ := h
  split_ifs at h <;> cases h
  · exact .unchanged
  · exact .grants _
  · exact .grants _

theorem effect_renameDevice (hop : op = .renameDevice deviceId label note now)
    (h : dir.renameDevice root deviceId label note now = .ok dir') : Effect root dir op dir' := by
  simp only [renameDevice, bind_eq_ok_iff, ensure_eq_ok_iff, require_eq_ok_iff, exists_const,
    memberStatus_ne_revoked_iff] at h
  obtain ⟨-, row, hrow, hlive, cert, hcert, h⟩ := h
  split_ifs at h with hlabel <;> cases h
  · exact .unchanged
  · exact .reissue hop hrow hlive hcert hlabel

theorem effect_updateTag {tag : TagName} {add : Bool}
    (h : dir.updateTag root fp tag add = .ok dir') : Effect root dir op dir' := by
  simp only [updateTag, bind_eq_ok_iff, ensure_eq_ok_iff, require_eq_ok_iff, exists_const] at h
  obtain ⟨-, policy, hpolicy, h⟩ := h
  split_ifs at h
  · simp only [bind_eq_ok_iff, mapError_eq_ok_iff] at h
    obtain ⟨u, hvalid, h⟩ := h
    cases h
    exact .tag hpolicy hvalid
  · cases h
    exact .unchanged

theorem effect_setAssignedIpv4 {ipv4 : Option AssignedIpv4}
    (hop : op = .apiAssignedIpv4 fp ipv4 ∨ op = .trustAssignedIpv4 fp ipv4)
    (hcert : dir.certBodies T fp = some cert) :
    Effect root dir op (dir.setAssignedIpv4 root cert ipv4) := by
  unfold setAssignedIpv4
  dsimp only
  split_ifs
  · exact .unchanged
  · exact .explicitAddress hop hcert

theorem effect_autoAssignTo {pool : AssignedIpv4}
    (h : dir.autoAssignTo root deviceId pool = .ok dir') : Effect root dir op dir' := by
  unfold autoAssignTo at h
  split_ifs at h
  · cases h
    exact .unchanged
  · simp only [bind_eq_ok_iff] at h
    obtain ⟨free, hfree, h⟩ := h
    cases h
    exact .freeAddress (not_mem_of_pickFreeIp hfree)

/-- **What the operations do**: every successful operation has one of the effects. -/
theorem effect_of_run (h : dir.run root op = .ok dir') : Effect root dir op dir' := by
  cases op with
  | bootstrapSelf devicePk label now => exact effect_bootstrapSelf h
  | approve applicantPk label daemonAgrees now => exact effect_approve h
  | revoke fp reason note now => exact effect_revoke h
  | disable fp expectedUntil note now => exact effect_disable h
  | enable fp => exact effect_enable h
  | relabel fp label now => exact effect_relabel h
  | renameDevice deviceId label note now => exact effect_renameDevice rfl h
  | updateHostname fp text now => exact effect_updateHostname h
  | apiHostname fp text now => exact effect_updateHostname h
  | setCapability fp edit now => exact effect_setCapability h
  | apiTrustTag fp tag add =>
    simp only [run, apiTrustTag, bind_eq_ok_iff, ensure_eq_ok_iff, exists_const] at h
    exact effect_updateTag h.2
  | trustTagUpdate deviceId tag add now =>
    simp only [run, trustTagUpdate, bind_eq_ok_iff] at h
    obtain ⟨row, -, h⟩ := h
    exact effect_updateTag h
  | apiAssignedIpv4 fp ipv4 =>
    simp only [run, apiAssignedIpv4, bind_eq_ok_iff, activeMemberCert_eq_ok_iff] at h
    obtain ⟨cert, ⟨-, -, hcert⟩, h⟩ := h
    cases h
    exact effect_setAssignedIpv4 (.inl rfl) hcert
  | trustAssignedIpv4 fp ipv4 =>
    simp only [run, trustAssignedIpv4, bind_eq_ok_iff, ensure_eq_ok_iff, require_eq_ok_iff,
      exists_const] at h
    obtain ⟨-, cert, hcert, h⟩ := h
    cases h
    exact effect_setAssignedIpv4 (.inr rfl) hcert
  | apiAutoAssign fp pool =>
    simp only [run, apiAutoAssign, bind_eq_ok_iff] at h
    obtain ⟨cert, -, h⟩ := h
    exact effect_autoAssignTo h
  | ensureSelfIpAssigned pool =>
    simp only [run, ensureSelfIpAssigned, bind_eq_ok_iff] at h
    obtain ⟨deviceId, -, h⟩ := h
    exact effect_autoAssignTo h
  | addPeerHint url label capabilities expiresAt now =>
    simp only [run, addPeerHint] at h
    split_ifs at h <;> cases h
    · exact .unchanged
    · exact .hints _
  | removePeerHint url =>
    simp only [run, removePeerHint] at h
    split_ifs at h <;> cases h
    · exact .unchanged
    · exact .hints _

variable (root dir) in
def step (op : GovOp) : NetworkDir :=
  match dir.run root op with
  | .ok dir' => dir'
  | .error _ => dir

theorem effect_step (root : TrustDomainRoot T) (dir : NetworkDir) (op : GovOp) :
    Effect root dir op (dir.step root op) := by
  unfold step
  cases h : dir.run root op with
  | ok dir' => exact effect_of_run h
  | error e => exact .unchanged

theorem name_effect (h : Effect root dir op dir') : dir'.name = dir.name := by
  cases h <;> simp [assign, reissue]

theorem mem_index_of_resolveDeviceView {row : DeviceView}
    (h : dir.resolveDeviceView T deviceId now = .ok row) :
    ∃ entry ∈ dir.payload.memberCertIndex, entry.fingerprint = row.fingerprint := by
  unfold resolveDeviceView at h
  split at h
  · cases h
  · next hrows =>
    cases h
    have hmem := mem_filter.1 (hrows ▸ mem_cons_self)
    have hrow : row ∈ dir.listMemberViews T now := hmem.1
    obtain ⟨entry, hentry, rfl⟩ := mem_map.1 hrow
    exact ⟨entry, hentry, rfl⟩
  · cases h

/-! ### Members and revocations -/

theorem state_cases (h : Effect root dir op dir') :
    dir'.state = dir.state ∨ ∃ payload, dir'.state = dir.state.next root payload ∧
      dir.payload.revokedCerts ⊆ payload.revokedCerts := by
  cases h with
  | unchanged => exact .inl rfl
  | @approve cert hcert | @bootstrap cert deviceId hcert =>
    unfold NetworkDir.addMember
    split_ifs
    · exact .inl rfl
    · exact .inr ⟨_, rfl, List.Subset.refl _⟩
  | revoke hindexed => exact .inr ⟨_, rfl, subset_append_left _ _⟩
  | reissue => exact .inr ⟨_, rfl, subset_append_left _ _⟩
  | disabled | labels | hostname | grants | tag | explicitAddress | freeAddress | hints =>
    exact .inr ⟨_, rfl, List.Subset.refl _⟩

theorem revoked_effect (h : Effect root dir op dir') (hrev : dir.state.listsRevoked fp = true) :
    dir'.state.listsRevoked fp = true := by
  obtain hsame | ⟨payload, hnext, hsub⟩ := state_cases h
  · rw [hsame]
    exact hrev
  · obtain ⟨r, hr, hfp⟩ := any_eq_true.1 hrev
    rw [hnext]
    exact any_eq_true.2 ⟨r, hsub hr, hfp⟩

theorem indexed_addMember (h : dir.indexed fp = true) :
    (dir.addMember root cert).indexed fp = true := by
  unfold addMember
  split_ifs
  · exact h
  · obtain ⟨entry, hentry, hfp⟩ := any_eq_true.1 h
    exact any_eq_true.2 ⟨entry, mem_append_left _ hentry, hfp⟩

theorem indexed_effect (h : Effect root dir op dir') (hfp : dir.indexed fp = true) :
    dir'.indexed fp = true ∨ dir'.state.listsRevoked fp = true := by
  cases h with
  | unchanged => exact .inl hfp
  | approve | bootstrap => exact .inl (indexed_addMember hfp)
  | @reissue deviceId label note now row cert =>
    obtain ⟨entry, hentry, heq⟩ := any_eq_true.1 hfp
    by_cases hold : entry.fingerprint = row.fingerprint
    · refine .inr (any_eq_true.2 ⟨_, mem_append_right _ mem_cons_self, ?_⟩)
      rw [← hold]
      exact heq
    · refine .inl (any_eq_true.2 ⟨entry, mem_append_left _ ?_, heq⟩)
      exact mem_filter.2 ⟨hentry, by simpa using hold⟩
  | revoke | disabled | labels | hostname | grants | tag | explicitAddress | freeAddress | hints =>
    exact .inl hfp

/-! ### What holds in every directory -/

def OnFile (dir : NetworkDir) (cert : MemberCert) : Prop :=
  cert ∈ dir.memberCerts ∨ dir.memberCert = some cert

theorem onFile_of_certBodies (h : dir.certBodies T fp = some cert) :
    dir.OnFile cert ∧ cert.fingerprint T = fp := by
  rw [certBodies, Option.or_eq_some_iff] at h
  obtain h | ⟨-, h⟩ := h
  · exact ⟨.inl (mem_of_find?_eq_some h), by simpa using find?_some h⟩
  · obtain ⟨hfile, hfp⟩ := Option.filter_eq_some_iff.1 h
    exact ⟨.inr hfile, by simpa using hfp⟩

theorem exists_certBodies (h : dir.OnFile cert) :
    ∃ cert', dir.certBodies T (cert.fingerprint T) = some cert' := by
  rw [← Option.isSome_iff_exists, certBodies, Option.isSome_or, Bool.or_eq_true, find?_isSome]
  obtain h | h := h
  · exact .inl ⟨cert, h, by simp⟩
  · exact .inr (by simp [h, Option.filter])

variable (T) in
def Known (dir : NetworkDir) (fp : MemberCertFingerprint) : Prop :=
  ∃ cert, dir.OnFile cert ∧ cert.fingerprint T = fp

variable (root) in
/-- The state is that of this network, and the certificates that it lists or revokes are on file;
those on file are for this network and carry no hostname. -/
structure Sound (dir : NetworkDir) : Prop where
  trustDomainId : dir.state.details.trustDomainId = root.id
  networkLocalId : dir.state.details.networkLocalId = dir.name
  files : ∀ cert, dir.OnFile cert → cert.details.trustDomainId = root.id ∧
    cert.details.networkLocalId = dir.name ∧ cert.details.hostname = none
  indexed : ∀ entry ∈ dir.payload.memberCertIndex, dir.Known T entry.fingerprint
  revoked : ∀ r ∈ dir.payload.revokedCerts, dir.Known T r.certFingerprint

namespace Sound

theorem createNetwork (root : TrustDomainRoot T) (name : NetworkLocalId)
    (action : Action) : Sound root (createNetwork root name action) where
  trustDomainId := rfl
  networkLocalId := rfl
  files cert h := by
    obtain h | h := h
    · cases h
    · cases h
  indexed := nofun
  revoked := nofun

variable (h : Sound root dir)
include h

theorem commit {payload : NetworkStatePayload}
    (hindexed : ∀ entry ∈ payload.memberCertIndex, dir.Known T entry.fingerprint)
    (hrevoked : ∀ r ∈ payload.revokedCerts, dir.Known T r.certFingerprint) :
    Sound root (dir.commit root payload) :=
  ⟨h.trustDomainId, h.networkLocalId, h.files, hindexed, hrevoked⟩

theorem of_files (hstate : dir'.state = dir.state) (hname : dir'.name = dir.name)
    (hkeep : ∀ cert, dir.OnFile cert → dir'.OnFile cert)
    (hnew : ∀ cert, dir'.OnFile cert → dir.OnFile cert ∨ Issued root dir cert) :
    Sound root dir' where
  trustDomainId := hstate ▸ h.trustDomainId
  networkLocalId := by rw [hstate, hname, h.networkLocalId]
  files cert hcert := by
    rw [hname]
    obtain hold | hissued := hnew cert hcert
    · exact h.files cert hold
    · refine ⟨hissued.trustDomainId, ?_, hissued.hostname⟩
      exact hissued.networkLocalId.elim id fun hnet => hnet.trans h.networkLocalId
  indexed entry hentry := by
    rw [payload, hstate] at hentry
    obtain ⟨cert, hcert, hfp⟩ := h.indexed entry hentry
    exact ⟨cert, hkeep cert hcert, hfp⟩
  revoked r hr := by
    rw [payload, hstate] at hr
    obtain ⟨cert, hcert, hfp⟩ := h.revoked r hr
    exact ⟨cert, hkeep cert hcert, hfp⟩

theorem addFile (hcert : Issued root dir cert) :
    Sound root { dir with memberCerts := cert :: dir.memberCerts } := by
  refine h.of_files rfl rfl (fun c hc => hc.imp_left (mem_cons_of_mem cert)) ?_
  rintro c (hc | hc)
  · obtain rfl | hc := mem_cons.1 hc
    · exact .inr hcert
    · exact .inl (.inl hc)
  · exact .inl (.inr hc)

theorem addMember (hcert : dir.OnFile cert) : Sound root (dir.addMember root cert) := by
  unfold NetworkDir.addMember
  split_ifs
  · exact h
  · refine h.commit ?_ h.revoked
    intro entry hentry
    obtain hentry | hentry := mem_append.1 hentry
    · exact h.indexed entry hentry
    · rw [mem_singleton] at hentry
      exact ⟨cert, hcert, by rw [hentry]; rfl⟩

theorem effect (he : Effect root dir op dir') : Sound root dir' := by
  cases he with
  | unchanged => exact h
  | approve hcert => exact (h.addFile hcert).addMember (.inl mem_cons_self)
  | @bootstrap cert deviceId hcert =>
    refine addMember ?_ (.inr rfl)
    refine h.of_files rfl rfl ?_ ?_
    · rintro c (hc | hc)
      · exact .inl hc
      · obtain hold | ⟨hnone, -⟩ := hcert
        · exact .inr (hold.symm.trans hc)
        · rw [hnone] at hc
          cases hc
    · rintro c (hc | hc)
      · exact .inl (.inl hc)
      · cases hc
        exact hcert.imp (fun hold => .inr hold) And.right
  | revoke hindexed =>
    refine h.commit h.indexed ?_
    intro r hr
    obtain hr | hr := mem_append.1 hr
    · exact h.revoked r hr
    · obtain ⟨entry, hentry, hfp⟩ := any_eq_true.1 hindexed
      rw [mem_singleton.1 hr, ← eq_of_beq hfp]
      exact h.indexed entry hentry
  | @reissue deviceId label note now row cert hop hrow hlive hcert hlabel =>
    obtain ⟨hfile, hfp⟩ := onFile_of_certBodies hcert
    set new := dir.renamedCert root cert label
    obtain ⟨htd, hnet, hhost⟩ := h.files cert hfile
    have hissued : Issued root dir new := ⟨htd, .inl hnet, hhost⟩
    have hfiles := h.addFile hissued
    refine hfiles.commit ?_ ?_
    · intro entry hentry
      obtain hentry | hentry := mem_append.1 hentry
      · exact hfiles.indexed entry (mem_filter.1 hentry).1
      · rw [mem_singleton.1 hentry]
        exact ⟨new, .inl mem_cons_self, rfl⟩
    · intro r hr
      obtain hr | hr := mem_append.1 hr
      · exact hfiles.revoked r hr
      · rw [mem_singleton.1 hr]
        exact ⟨cert, hfile.imp_left (mem_cons_of_mem new), hfp⟩
  | disabled | labels | hostname | grants | tag | explicitAddress | freeAddress | hints =>
    exact h.commit h.indexed h.revoked

end Sound

end NetworkDir

end PactMesh
