import PactMesh.Control.Effects

/-!
# Hostnames are unique

A hostname is compared with those of the other members when it is set.  No certificate carries one,
and bindings outlive their row of the member list; but a row goes away only when the certificate is
revoked, so that no binding comes to life again.

Main result: `hostnames_unique`.
-/

namespace PactMesh

open List

variable {T : StateSuite} {root : TrustDomainRoot T} {dir dir' : NetworkDir} {op : GovOp}
  {fp fp' : MemberCertFingerprint}

namespace NetworkDir

def Live (dir : NetworkDir) (fp : MemberCertFingerprint) : Prop :=
  dir.indexed fp = true ∧ dir.state.listsRevoked fp = false

variable (T) in
/-- The certificate of every member is on file, and no two members who are not revoked have the same
effective hostname. -/
structure UniqueHostnames (dir : NetworkDir) : Prop where
  onFile : ∀ fp, dir.Live fp → ∃ cert, dir.certBodies T fp = some cert
  unique : ∀ fp fp', dir.Live fp → dir.Live fp' → fp ≠ fp' → ∀ cert cert',
    dir.certBodies T fp = some cert → dir.certBodies T fp' = some cert' →
      ∀ hostname, effectiveHostname T cert dir.state = some hostname →
        effectiveHostname T cert' dir.state ≠ some hostname

def boundHostname (dir : NetworkDir) (fp : MemberCertFingerprint) : Option HostnameLabel :=
  effectiveHostnameByFingerprint fp none dir.state

theorem effectiveHostname_eq_bound (h : Sound root dir) {cert : MemberCert}
    (hcert : dir.certBodies T fp = some cert) :
    effectiveHostname T cert dir.state = dir.boundHostname fp := by
  obtain ⟨hfile, hfp⟩ := onFile_of_certBodies hcert
  rw [effectiveHostname, hfp, (h.files cert hfile).2.2, boundHostname]

theorem Sound.exists_certBodies (h : Sound root dir) (hfp : dir.indexed fp = true) :
    ∃ cert, dir.certBodies T fp = some cert := by
  obtain ⟨entry, hentry, heq⟩ := any_eq_true.1 hfp
  obtain ⟨cert, hfile, hcert⟩ := h.indexed entry hentry
  rw [← eq_of_beq heq, ← hcert]
  exact NetworkDir.exists_certBodies hfile

/-- The invariant: bindings are for members or revoked certificates, and those of members who are
not revoked differ. -/
structure BoundOnce (dir : NetworkDir) : Prop where
  known : ∀ b ∈ dir.payload.hostnameBindings,
    dir.indexed b.certFingerprint = true ∨ dir.state.listsRevoked b.certFingerprint = true
  once : ∀ fp fp', dir.Live fp → dir.Live fp' → fp ≠ fp' →
    ∀ hostname, dir.boundHostname fp = some hostname → dir.boundHostname fp' ≠ some hostname

theorem exists_binding {hostname : HostnameLabel} (h : dir.boundHostname fp = some hostname) :
    ∃ b ∈ dir.payload.hostnameBindings, b.certFingerprint = fp := by
  unfold boundHostname effectiveHostnameByFingerprint at h
  split at h
  · next b hb => exact ⟨b, mem_of_find?_eq_some hb, by simpa using find?_some hb⟩
  · cases h

theorem BoundOnce.live_of_effect (h : BoundOnce dir) (he : Effect root dir op dir')
    (hlive : dir'.Live fp) {hostname : HostnameLabel} (hbound : dir.boundHostname fp = some hostname) :
    dir.Live fp := by
  have hnot : dir.state.listsRevoked fp = false := by
    cases hrev : dir.state.listsRevoked fp with
    | false => rfl
    | true => exact absurd (revoked_effect he hrev) (by simp [hlive.2])
  obtain ⟨b, hb, rfl⟩ := exists_binding hbound
  refine ⟨(h.known b hb).resolve_right ?_, hnot⟩
  simp [hnot]

theorem BoundOnce.of_bindings_eq (h : BoundOnce dir) (he : Effect root dir op dir')
    (hsame : dir'.payload.hostnameBindings = dir.payload.hostnameBindings) : BoundOnce dir' := by
  have hbound : ∀ fp, dir'.boundHostname fp = dir.boundHostname fp := by
    intro fp
    unfold payload at hsame
    rw [boundHostname, boundHostname, effectiveHostnameByFingerprint,
      effectiveHostnameByFingerprint, hsame]
  constructor
  · intro b hb
    rw [hsame] at hb
    obtain hindexed | hrevoked := h.known b hb
    · exact indexed_effect he hindexed
    · exact .inr (revoked_effect he hrevoked)
  · intro fp fp' hlive hlive' hne hostname hfp hfp'
    rw [hbound] at hfp hfp'
    exact h.once fp fp' (h.live_of_effect he hlive hfp) (h.live_of_effect he hlive' hfp') hne hostname
      hfp hfp'

theorem hostnameBindings_addMember (cert : MemberCert) :
    (dir.addMember root cert).payload.hostnameBindings = dir.payload.hostnameBindings := by
  unfold addMember
  split_ifs <;> rfl

/-! ### Setting a hostname -/

theorem boundHostname_put {hostname : Option HostnameLabel} {now : UInt64}
    (hdir' : dir'.payload.hostnameBindings = Keyed.put HostnameBinding.certFingerprint fp
      (if hostname = none then none else some ⟨fp, hostname, now⟩) dir.payload.hostnameBindings) :
    dir'.boundHostname fp' = if fp' = fp then hostname else dir.boundHostname fp' := by
  have hkey : ∀ b, (if hostname = none then none else some ⟨fp, hostname, now⟩) = some b →
      HostnameBinding.certFingerprint b = fp := by
    intro b hb
    split_ifs at hb
    cases hb
    rfl
  unfold payload at hdir'
  unfold boundHostname effectiveHostnameByFingerprint
  rw [hdir']
  by_cases hfp : fp' = fp
  · rw [if_pos hfp, hfp, Keyed.find?_put_self hkey]
    cases hostname <;> rfl
  · rw [if_neg hfp, Keyed.find?_put_of_ne hkey hfp]

theorem mem_liveHostnameEntries (h : Sound root dir) (hlive : dir.Live fp') (hne : fp' ≠ fp) :
    (fp', dir.boundHostname fp') ∈ dir.liveHostnameEntries T fp := by
  obtain ⟨cert, hcert⟩ := h.exists_certBodies hlive.1
  obtain ⟨entry, hentry, heq⟩ := any_eq_true.1 hlive.1
  obtain rfl := eq_of_beq heq
  have hstatus : memberStatus entry.fingerprint dir.state ≠ .revoked := by
    simpa using memberStatus_ne_revoked_iff.2 hlive.2
  unfold liveHostnameEntries
  refine mem_filterMap.2 ⟨entry, ?_, ?_⟩
  · exact mem_filter.2 ⟨mem_filter.2 ⟨hentry, by simpa using hne⟩, by simpa using hstatus⟩
  · rw [hcert, Option.map_some, effectiveHostname_eq_bound h hcert]

theorem BoundOnce.put (h : BoundOnce dir) (hsound : Sound root dir)
    (hindexed : dir.indexed fp = true) {hostname : Option HostnameLabel} {now : UInt64}
    (hfree : ∀ new, hostname = some new → ∀ p ∈ dir.liveHostnameEntries T fp, p.2 ≠ some new) :
    BoundOnce (dir.commit root (dir.bindHostname fp none hostname now)) := by
  constructor
  · intro b hb
    obtain ⟨hb, -⟩ | hb := Keyed.mem_put.1 hb
    · exact h.known b hb
    · split_ifs at hb
      cases hb
      exact .inl hindexed
  · intro fp₁ fp₂ hlive₁ hlive₂ hne new h₁ h₂
    rw [boundHostname_put rfl] at h₁ h₂
    -- the members are the same as before, so one of the two must be the one that gets the hostname
    have hlive₁ : dir.Live fp₁ := hlive₁
    have hlive₂ : dir.Live fp₂ := hlive₂
    split_ifs at h₁ h₂ with hfp₁ hfp₂
    · exact hne (hfp₁.trans hfp₂.symm)
    · exact hfree new h₁ _ (mem_liveHostnameEntries hsound hlive₂ hfp₂) h₂
    · exact hfree new h₂ _ (mem_liveHostnameEntries hsound hlive₁ hfp₁) h₁
    · exact h.once fp₁ fp₂ hlive₁ hlive₂ hne new h₁ h₂

theorem BoundOnce.effect (h : BoundOnce dir) (hsound : Sound root dir)
    (he : Effect root dir op dir') : BoundOnce dir' := by
  have hkeep := h.of_bindings_eq he
  cases he with
  | @hostname fp cert hostname now hcert hfree =>
    obtain ⟨hindexed, -, hcert⟩ := activeMemberCert_eq_ok_iff.1 hcert
    rw [(hsound.files cert (onFile_of_certBodies hcert).1).2.2]
    exact h.put hsound hindexed hfree
  | approve | bootstrap => exact hkeep (hostnameBindings_addMember _)
  | unchanged | revoke | disabled | labels | grants | tag | explicitAddress | freeAddress | hints
  | reissue => exact hkeep rfl

theorem BoundOnce.uniqueHostnames (h : BoundOnce dir) (hsound : Sound root dir) :
    dir.UniqueHostnames T where
  onFile _ hlive := hsound.exists_certBodies hlive.1
  unique fp fp' hlive hlive' hne cert cert' hcert hcert' hostname h₁ h₂ := by
    rw [effectiveHostname_eq_bound hsound hcert] at h₁
    rw [effectiveHostname_eq_bound hsound hcert'] at h₂
    exact h.once fp fp' hlive hlive' hne hostname h₁ h₂

end NetworkDir

/-- **Hostnames are unique** after any operations on a new network. -/
theorem hostnames_unique (root : TrustDomainRoot T) (name : NetworkLocalId)
    (action : Action) (ops : List GovOp) :
    (ops.foldl (NetworkDir.step root) (createNetwork root name action)).UniqueHostnames T := by
  have hnew : (createNetwork root name action).BoundOnce :=
    ⟨nofun, fun fp fp' hlive => absurd hlive.1 Bool.false_ne_true⟩
  have hinv := (Trans.run_ofFun (NetworkDir.step root) (createNetwork root name action) ops).invariant
    (I := fun d => NetworkDir.Sound root d ∧ d.BoundOnce) ⟨.createNetwork root name action, hnew⟩
    (by
      rintro d op _ ⟨hsound, hbound⟩ rfl
      have he := NetworkDir.effect_step root d op
      exact ⟨hsound.effect he, hbound.effect hsound he⟩)
  exact hinv.2.uniqueHostnames hinv.1

end PactMesh
