import PactMesh.Control.Effects

/-!
# Renaming a device

The command line renames a device by a new certificate with another label, and revokes the old one.
What a state says about a member is kept under the fingerprint of its certificate, and the rename
moves nothing to the new one.  The web console keeps the certificate and binds a label to it.

Main result: `rename_keeps_iff`.
-/

namespace PactMesh

open Checks List

variable {T : StateSuite} {root : TrustDomainRoot T} {dir dir' : NetworkDir}

structure NetworkStatePayload.Unmentioned (T : StateSuite) (payload : NetworkStatePayload)
    (fp : MemberCertFingerprint) : Prop where
  index : ∀ e ∈ payload.memberCertIndex, e.fingerprint ≠ fp
  revoked : ∀ r ∈ payload.revokedCerts, r.certFingerprint ≠ fp
  disabled : ∀ d ∈ payload.disabledCerts, d.certFingerprint ≠ fp
  grants : ∀ g ∈ payload.capabilityGrants, g.certFingerprint ≠ fp
  hostnames : ∀ b ∈ payload.hostnameBindings, b.certFingerprint ≠ fp
  tags : ∀ policy, T.policyFromCbor payload.acl = some policy →
    ∀ e ∈ policy.tags.entries, certFingerprintToDeviceFingerprint fp ∉ e.2

def TrustDomainPool.Holds (pool : TrustDomainPool) (pkRoot : Bytes32) (cert : MemberCert)
    (state : SignedNetworkState) : Prop :=
  ∃ dom, pool.domains cert.details.trustDomainId = some dom ∧ dom.pkRoot = pkRoot ∧
    dom.networks cert.details.networkLocalId = some state

namespace NetworkDir

/-- At `now`, a certificate means under a state what its predecessor meant under another one, and
nodes treat the two alike. -/
structure SameMeaning (T : StateSuite) (pool pool' : TrustDomainPool) (cert cert' : MemberCert)
    (state state' : SignedNetworkState) (now : UInt64) : Prop where
  capabilities : effectiveCapabilities T cert' state' = effectiveCapabilities T cert state
  hostname : effectiveHostname T cert' state' = effectiveHostname T cert state
  disabled : state'.isDisabled (cert'.fingerprint T) now = state.isDisabled (cert.fingerprint T) now
  admission : pool'.verifyMemberCert T cert' now = .ok cert' ↔
    pool.verifyMemberCert T cert now = .ok cert
  tags : tagsForMember T (cert'.fingerprint T) state' = tagsForMember T (cert.fingerprint T) state

/-- The state adds nothing to a certificate: no grant and no hostname but those that repeat the
certificate, no disablement at the time, and no tag. -/
structure Bare (T : StateSuite) (cert : MemberCert) (state : SignedNetworkState) (now : UInt64) :
    Prop where
  capabilities : ∀ g, state.details.payload.capabilityGrants.find?
    (fun g => g.certFingerprint == cert.fingerprint T) = some g →
      g.capabilities = cert.details.capabilities
  hostname : ∀ b, state.details.payload.hostnameBindings.find?
    (fun b => b.certFingerprint == cert.fingerprint T) = some b → b.hostname = cert.details.hostname
  enabled : state.isDisabled (cert.fingerprint T) now = false
  untagged : tagsForMember T (cert.fingerprint T) state = []

/-! ### What a state says about a fingerprint -/

variable {state : SignedNetworkState} {fp : MemberCertFingerprint} {cert : MemberCert}

theorem effectiveCapabilities_eq_cert_iff :
    effectiveCapabilities T cert state = cert.details.capabilities ↔
      ∀ g, state.details.payload.capabilityGrants.find?
        (fun g => g.certFingerprint == cert.fingerprint T) = some g →
          g.capabilities = cert.details.capabilities := by
  unfold effectiveCapabilities effectiveCapabilitiesByFingerprint
  cases state.details.payload.capabilityGrants.find? _ with
  | none => simp
  | some g => simp

theorem effectiveHostname_eq_cert_iff :
    effectiveHostname T cert state = cert.details.hostname ↔
      ∀ b, state.details.payload.hostnameBindings.find?
        (fun b => b.certFingerprint == cert.fingerprint T) = some b →
          b.hostname = cert.details.hostname := by
  unfold effectiveHostname effectiveHostnameByFingerprint
  cases state.details.payload.hostnameBindings.find? _ with
  | none => simp
  | some b => simp

theorem bare_of_unmentioned (now : UInt64)
    (h : state.details.payload.Unmentioned T (cert.fingerprint T)) :
    Bare T cert state now where
  capabilities g hg := by
    have hfp := find?_some hg
    exact absurd (eq_of_beq hfp) (h.grants g (mem_of_find?_eq_some hg))
  hostname b hb := by
    have hfp := find?_some hb
    exact absurd (eq_of_beq hfp) (h.hostnames b (mem_of_find?_eq_some hb))
  enabled := by
    refine any_eq_false.2 fun d hd hact => ?_
    exact h.disabled d hd (eq_of_beq (Bool.and_eq_true_iff.1 hact).1)
  untagged := by
    unfold tagsForMember
    split
    · rfl
    · next policy hpolicy =>
      rw [map_eq_nil_iff, filter_eq_nil_iff]
      intro e he hmem
      exact h.tags policy hpolicy e he (contains_iff_mem.1 hmem)

/-! ### The new certificate -/

variable {deviceId label : String} {note : Option String} {t : UInt64} {row : DeviceView}
  {cert : MemberCert}

theorem renameDevice_eq_reissue (hrow : dir.resolveDeviceView T deviceId t = .ok row)
    (hcert : dir.certBodies T row.fingerprint = some cert) (hlabel : cert.details.deviceLabel ≠ label)
    (h : dir.renameDevice root deviceId label note t = .ok dir') :
    dir.state.listsRevoked row.fingerprint = false ∧
      dir' = dir.reissue root row.fingerprint cert label note t := by
  simp only [renameDevice, bind_eq_ok_iff, ensure_eq_ok_iff, require_eq_ok_iff, exists_const,
    memberStatus_ne_revoked_iff, hrow] at h
  obtain ⟨-, _, ⟨⟩, hlive, cert', hcert', h⟩ := h
  obtain rfl : cert = cert' := Option.some.inj (hcert.symm.trans hcert')
  rw [if_neg hlabel] at h
  cases h
  exact ⟨hlive, rfl⟩

theorem verify_renamedCert (h : cert.verify T root.pkRoot = .ok ()) :
    (dir.renamedCert root cert label).verify T root.pkRoot = .ok () := by
  obtain ⟨htd, htime, -⟩ := MemberCert.verify_eq_ok_iff.1 h
  exact MemberCert.verify_eq_ok_iff.2 ⟨htd, htime, root.length_sign _, root.verify_sign _⟩

theorem bare_renamedCert (now : UInt64) (hfresh : dir.payload.Unmentioned T
      ((dir.renamedCert root cert label).fingerprint T)) :
    Bare T (dir.renamedCert root cert label) (dir.reissue root fp cert label note t).state now := by
  -- a rename leaves the lists that count as they are
  have h : Bare T (dir.renamedCert root cert label) dir.state now := bare_of_unmentioned now hfresh
  exact ⟨h.capabilities, h.hostname, h.enabled, h.untagged⟩

end NetworkDir

open NetworkDir

/-- **What a rename keeps.**  A device is renamed whose certificate is signed and not revoked;
`pool` holds the state before, `pool'` the one after.  The new certificate, which no state has
mentioned, means what the old one meant exactly if the state said nothing about the old one. -/
theorem rename_keeps_iff {pool pool' : TrustDomainPool} {deviceId label : String}
    {note : Option String} {t now : UInt64} {row : DeviceView} {cert : MemberCert}
    (hrun : dir.renameDevice root deviceId label note t = .ok dir')
    (hrow : dir.resolveDeviceView T deviceId t = .ok row)
    (hcert : dir.certBodies T row.fingerprint = some cert)
    (hlabel : cert.details.deviceLabel ≠ label)
    (hsigned : cert.verify T root.pkRoot = .ok ())
    (href : cert.details.networkStateVersionRef ≤ dir.state.details.version)
    (hfresh : dir.payload.Unmentioned T
      ((dir.renamedCert root cert label).fingerprint T))
    (hpool : pool.Holds root.pkRoot cert dir.state)
    (hpool' : pool'.Holds root.pkRoot cert dir'.state) :
    SameMeaning T pool pool' cert (dir.renamedCert root cert label) dir.state dir'.state now ↔
      Bare T cert dir.state now := by
  obtain ⟨hlive, rfl⟩ := renameDevice_eq_reissue hrow hcert hlabel hrun
  obtain ⟨-, hfp⟩ := onFile_of_certBodies hcert
  obtain ⟨entry, hentry, hrowfp⟩ := mem_index_of_resolveDeviceView hrow
  obtain ⟨dom, hdom, hpk, hnet⟩ := hpool
  obtain ⟨dom', hdom', hpk', hnet'⟩ := hpool'
  set new := dir.renamedCert root cert label with hnew
  set next := dir.reissue root row.fingerprint cert label note t
  have hbare : Bare T new next.state now := bare_renamedCert now hfresh
  have hcaps := effectiveCapabilities_eq_cert_iff.2 hbare.capabilities
  have hhost := effectiveHostname_eq_cert_iff.2 hbare.hostname
  have hold : IndexedMember T pool dom dir.state entry cert :=
    ⟨hdom, hpk ▸ hsigned, hnet, hentry, hrowfp.trans hfp.symm, href⟩
  have hmember : IndexedMember T pool' dom' next.state (indexEntryOf T new) new :=
    ⟨hdom', hpk' ▸ verify_renamedCert hsigned, hnet', mem_append_right _ mem_cons_self,
      rfl, UInt64.le_refl _⟩
  have hrev : next.state.listsRevoked (new.fingerprint T) = false := by
    refine any_eq_false.2 fun r hr heq => ?_
    obtain hr | hr := mem_append.1 hr
    · exact hfresh.revoked r hr (eq_of_beq heq)
    · rw [mem_singleton.1 hr] at heq
      exact hfresh.index entry hentry (hrowfp.trans (eq_of_beq heq))
  constructor
  · intro h
    refine ⟨effectiveCapabilities_eq_cert_iff.1 (h.capabilities.symm.trans hcaps),
      effectiveHostname_eq_cert_iff.1 (h.hostname.symm.trans hhost), ?_, ?_⟩
    · rw [← h.disabled]
      exact hbare.enabled
    · rw [← h.tags]
      exact hbare.untagged
  · intro h
    have haccept : pool'.verifyMemberCert T new now = .ok new ↔
        pool.verifyMemberCert T cert now = .ok cert := by
      have henabled : dir.state.isDisabled row.fingerprint now = false := hfp ▸ h.enabled
      rw [hold.accepted_iff, hmember.accepted_iff, hrowfp]
      exact ⟨fun hok => ⟨hok.1, hlive, henabled⟩, fun hok => ⟨hok.1, hrev, hbare.enabled⟩⟩
    exact ⟨hcaps.trans (effectiveCapabilities_eq_cert_iff.2 h.capabilities).symm,
      hhost.trans (effectiveHostname_eq_cert_iff.2 h.hostname).symm,
      hbare.enabled.trans h.enabled.symm, haccept, hbare.untagged.trans h.untagged.symm⟩

/-- The device with key `[3, 3, …]` joins and is changed in some ways. -/
def sampleChanged (changes : MemberCertFingerprint → List GovOp) : NetworkDir :=
  (sampleApprove (all32 3) ::
    changes ((sampleMember (all32 3) 1).fingerprint
      sampleGovSuite)).foldl (NetworkDir.step sampleRoot) sampleDir

def sampleRename : GovOp := .renameDevice (sampleGovSuite.encodeDeviceId (all32 3)) "laptop" none 8

def sampleHolding (state : SignedNetworkState) : TrustDomainPool where
  domains td := if td = sampleRoot.id then
      some { pkRoot := sampleRoot.pkRoot, networks := fun _ => some state }
    else none

/-- The device gets a hostname, the right to relay and a tag, and is disabled.  After the rename it
has lost all of these, and it is let in. -/
theorem rename_enables :
    let cert := sampleMember (all32 3) 1
    let dir := sampleChanged fun fp =>
      [.updateHostname fp (some "db") 6, .setCapability fp ⟨some true, none, [], false⟩ 6,
        .apiTrustTag fp opsTag true, .disable fp none none 6]
    let dir' := dir.step sampleRoot sampleRename
    let new := dir.renamedCert sampleRoot cert "laptop"
    dir'.payload.memberCertIndex.map (·.fingerprint) = [new.fingerprint sampleGovSuite] ∧
      (effectiveCapabilities sampleGovSuite cert dir.state).canRelayData = true ∧
      (effectiveCapabilities sampleGovSuite new dir'.state).canRelayData = false ∧
      effectiveHostname sampleGovSuite cert dir.state = some ⟨"db"⟩ ∧
      effectiveHostname sampleGovSuite new dir'.state = none ∧
      tagsForMember sampleGovSuite (cert.fingerprint sampleGovSuite) dir.state = [opsTag] ∧
      tagsForMember sampleGovSuite (new.fingerprint sampleGovSuite) dir'.state = [] ∧
      (sampleHolding dir.state).verifyMemberCert sampleGovSuite cert 9 = .error .disabled ∧
      (sampleHolding dir'.state).verifyMemberCert sampleGovSuite new 9 = .ok new := by
  decide +kernel

/-- A device that nothing was done to keeps what it had. -/
theorem rename_keeps_bare :
    let cert := sampleMember (all32 3) 1
    let dir := sampleChanged fun _ => []
    let dir' := dir.step sampleRoot sampleRename
    SameMeaning sampleGovSuite (sampleHolding dir.state) (sampleHolding dir'.state) cert
      (dir.renamedCert sampleRoot cert "laptop") dir.state dir'.state 9 := by
  intro cert dir dir'
  have hrun : dir.renameDevice sampleRoot
      (sampleGovSuite.encodeDeviceId (all32 3)) "laptop" none 8 = .ok dir' := by
    decide +kernel
  have hrow : dir.resolveDeviceView sampleGovSuite
      (sampleGovSuite.encodeDeviceId (all32 3)) 8 =
        .ok (viewForMember sampleGovSuite (indexEntryOf sampleGovSuite cert) (some cert) dir.state
          ⟨"office"⟩ none false 8) := by
    decide +kernel
  have hfresh : dir.payload.Unmentioned sampleGovSuite
      ((dir.renamedCert sampleRoot cert "laptop").fingerprint sampleGovSuite) := by
    refine ⟨by decide +kernel, by decide +kernel, by decide +kernel, by decide +kernel,
      by decide +kernel, ?_⟩
    rintro _ ⟨⟩ e he
    cases he
  refine (rename_keeps_iff hrun hrow (by decide +kernel) (by decide +kernel) (by decide +kernel)
    (by decide +kernel) hfresh ⟨_, rfl, rfl, rfl⟩ ⟨_, rfl, rfl, rfl⟩).2 ?_
  refine ⟨?_, ?_, by decide +kernel, by decide +kernel⟩
  · intro g hg
    cases hg
  · intro b hb
    cases hb

end PactMesh
