import PactMesh.Control.Effects

/-!
# Revocation is permanent

The states that the root publishes reach a node in any order, more than once or not at all, mixed with
states of other networks and forgeries.  Once the node holds a state that revokes a certificate, it
rejects the certificate for good, since a pool replaces a state only by one with a higher version.

SHA-256 is assumed to tell the certificates in question apart; versions stay below 2⁶⁴.

Main result: `revocation_permanent`.
-/

namespace PactMesh

open List TrustDomainPool

variable {T : StateSuite} {root : TrustDomainRoot T} {dir dir' : NetworkDir} {op : GovOp}

/-! ### The states that the root publishes -/

def NetworkDir.trace (root : TrustDomainRoot T) (dir : NetworkDir) (ops : List GovOp) :
    List NetworkDir := Trans.trace (NetworkDir.step root) dir ops

def Follows (s s' : SignedNetworkState) : Prop :=
  s' = s ∨ s.versionNat < s'.versionNat ∧
    s.details.payload.revokedCerts ⊆ s'.details.payload.revokedCerts

theorem Follows.trans {s₁ s₂ s₃ : SignedNetworkState} (h₁ : Follows s₁ s₂) (h₂ : Follows s₂ s₃) :
    Follows s₁ s₃ := by
  obtain rfl | ⟨hlt, hsub⟩ := h₁
  · exact h₂
  · obtain rfl | ⟨hlt', hsub'⟩ := h₂
    · exact .inr ⟨hlt, hsub⟩
    · exact .inr ⟨hlt.trans hlt', List.Subset.trans hsub hsub'⟩

theorem NetworkDir.follows_step (hver : dir.state.details.version ≠ 0 - 1) :
    Follows dir.state (dir.step root op).state := by
  obtain h | ⟨payload, h, hsub⟩ := state_cases (effect_step root dir op)
  · exact .inl h
  · refine .inr ⟨?_, h ▸ hsub⟩
    have hnext : (dir.state.next root payload).versionNat = dir.state.versionNat + 1 :=
      toNat_satAdd_one hver
    rw [h, hnext]
    exact Nat.lt_succ_self _

variable {ops : List GovOp}

theorem NetworkDir.follows_trace
    (hver : ∀ d ∈ dir.trace root ops, d.state.details.version ≠ 0 - 1) :
    ∀ d ∈ dir.trace root ops, Follows dir.state d.state := by
  induction ops generalizing dir with
  | nil =>
    intro d hd
    rw [mem_singleton.1 hd]
    exact .inl rfl
  | cons op ops ih =>
    have hver' := forall_mem_cons.1 hver
    refine forall_mem_cons.2 ⟨.inl rfl, fun d hd => ?_⟩
    exact (follows_step hver'.1).trans (ih hver'.2 d hd)

/-- **Of two published states, the one with the higher version revokes more.** -/
theorem NetworkDir.revoked_subset
    (hver : ∀ d ∈ dir.trace root ops, d.state.details.version ≠ 0 - 1) {d d' : NetworkDir}
    (hd : d ∈ dir.trace root ops) (hd' : d' ∈ dir.trace root ops)
    (hle : d.state.versionNat ≤ d'.state.versionNat) :
    d.payload.revokedCerts ⊆ d'.payload.revokedCerts := by
  induction ops generalizing dir with
  | nil =>
    rw [mem_singleton.1 hd, mem_singleton.1 hd']
    exact List.Subset.refl _
  | cons op ops ih =>
    have hfol := follows_trace hver
    obtain rfl | htail := mem_cons.1 hd
    · obtain heq | ⟨-, hsub⟩ := hfol d' hd'
      · rw [payload, payload, heq]
        exact List.Subset.refl _
      · exact hsub
    · obtain rfl | htail' := mem_cons.1 hd'
      · -- the later state has no higher version: nothing was written in between
        obtain heq | ⟨hlt, -⟩ := hfol d hd
        · rw [payload, payload, heq]
          exact List.Subset.refl _
        · exact absurd hle (not_le.2 hlt)
      · exact ih (forall_mem_cons.1 hver).2 htail htail'

/-- In every directory that grew out of a new network, certificates that are listed or revoked are
on file and belong to the network. -/
theorem NetworkDir.sound_of_mem_trace {name : NetworkLocalId} {action : Action}
    {d : NetworkDir} (hd : d ∈ (createNetwork root name action).trace root ops) :
    Sound root d ∧ d.name = name := by
  refine Trans.forall_mem_trace (I := fun d => Sound root d ∧ d.name = name) ?_
    ⟨.createNetwork root name action, rfl⟩ ops d hd
  rintro d op ⟨hsound, hname⟩
  exact ⟨hsound.effect (effect_step root d op), (name_effect (effect_step root d op)).trans hname⟩

/-! ### A node that receives them -/

def Published (root : TrustDomainRoot T) (name : NetworkLocalId) (action : Action)
    (ops : List GovOp) (s : SignedNetworkState) : Prop :=
  ∃ d ∈ (createNetwork root name action).trace root ops, d.state = s

theorem TrustDomainPool.rejects_of_listsRevoked {pool : TrustDomainPool} {cert : MemberCert}
    {s : SignedNetworkState} {now : UInt64}
    (hs : pool.networkState cert.details.trustDomainId cert.details.networkLocalId = some s)
    (hrev : s.listsRevoked (cert.fingerprint T) = true) :
    ∃ e, pool.verifyMemberCert T cert now = .error e := by
  cases hok : pool.verifyMemberCert T cert now with
  | error e => exact ⟨e, rfl⟩
  | ok cert' =>
    obtain ⟨-, entry, state, hdom, -, hnet, -, -, hnot, -⟩ := verifyMemberCert_eq_ok_iff.1 hok
    have heq : state = s := by
      rw [networkState, hdom, Option.bind_some, hnet] at hs
      exact Option.some.inj hs
    rw [heq, SignedNetworkState.isRevoked_eq, hrev] at hnot
    cases hnot

/-- **Revocation is permanent.**  The root carries out any operations; a node takes any calls, where
a state of the network that verifies is one the root has published.  If at some time its state
revokes a certificate, the node rejects the certificate at all later times. -/
theorem revocation_permanent {name : NetworkLocalId} {action : Action} {ops : List GovOp}
    (hver : ∀ d ∈ (createNetwork root name action).trace root ops, d.state.details.version ≠ 0 - 1)
    {pool : TrustDomainPool} (hroot : pool.rootVerifyKey root.id = some root.pkRoot)
    (hheld : ∀ s, pool.networkState root.id name = some s → Published root name action ops s)
    {earlier later : List PoolCall}
    (hsigned : ∀ s, PoolCall.applyNetworkState s ∈ earlier ++ later →
      s.validFor T root.id name root.pkRoot = true → Published root name action ops s)
    {cert : MemberCert}
    (hsha : ∀ d ∈ (createNetwork root name action).trace root ops, ∀ c, d.OnFile c →
      c.fingerprint T = cert.fingerprint T → c = cert)
    {s : SignedNetworkState} (hs : (pool.callAll T earlier).networkState root.id name = some s)
    (hrev : s.listsRevoked (cert.fingerprint T) = true) (now : UInt64) :
    ∃ e, ((pool.callAll T earlier).callAll T later).verifyMemberCert T cert now = .error e := by
  obtain ⟨hroot₁, hheld₁⟩ := callAll_held hroot hheld
    fun s hs => hsigned s (mem_append_left later hs)
  obtain ⟨-, hheld₂⟩ := callAll_held hroot₁ hheld₁
    fun s hs => hsigned s (mem_append_right earlier hs)
  obtain ⟨s', hs', hle⟩ := callAll_newer hroot₁ hs
  obtain ⟨d, hd, rfl⟩ := hheld₁ s hs
  obtain ⟨d', hd', rfl⟩ := hheld₂ s' hs'
  -- the certificate is one that the root issued for this network
  obtain ⟨r, hr, hfp⟩ := any_eq_true.1 hrev
  obtain ⟨hsound, rfl⟩ := NetworkDir.sound_of_mem_trace hd
  obtain ⟨c, hfile, hc⟩ := hsound.revoked r hr
  have hcert : c = cert := hsha d hd c hfile (hc.trans (eq_of_beq hfp))
  obtain ⟨htd, hnet, -⟩ := hsound.files c hfile
  rw [hcert] at htd hnet
  -- the node's state is a published one of a higher version, so it revokes the certificate too
  have hsub := NetworkDir.revoked_subset hver hd hd' hle
  refine rejects_of_listsRevoked (by rw [htd, hnet]; exact hs') ?_
  exact any_eq_true.2 ⟨r, hsub hr, hfp⟩

/-- A device joins and its certificate is revoked; the node hears of the revocation first and then
of the state before it. -/
theorem late_state_keeps_revocation :
    let cert := sampleMember (all32 3) 1
    let approved := sampleDir.step sampleRoot (sampleApprove (all32 3))
    let revoke := .revoke (cert.fingerprint sampleGovSuite) .keyCompromise none 6
    let pool := (⟨fun _ => none⟩ : TrustDomainPool).addRoot sampleGovSuite sampleRoot.pkRoot
    ∃ e, ((pool.callAll sampleGovSuite [.applyNetworkState (approved.step sampleRoot revoke).state]
      ).callAll sampleGovSuite [.applyNetworkState approved.state]).verifyMemberCert
        sampleGovSuite cert 7 = .error e := by
  intro cert approved revoke pool
  let ops := [sampleApprove (all32 3), revoke]
  have htrace : ∀ d ∈ (createNetwork sampleRoot ⟨"office"⟩ .accept).trace sampleRoot ops,
      d.state.details.version ≠ 0 - 1 ∧ d.memberCert = none ∧ ∀ c ∈ d.memberCerts, c = cert := by
    decide +kernel
  have hheld : (pool.callAll sampleGovSuite [.applyNetworkState (approved.step sampleRoot revoke).state]
      ).networkState sampleRoot.id ⟨"office"⟩ = (approved.step sampleRoot revoke).state := by
    decide +kernel
  refine revocation_permanent (fun d hd => (htrace d hd).1) (by decide +kernel) (fun s hs => ?_)
    (fun s hs _ => ?_) (fun d hd c hc _ => ?_) hheld (by decide +kernel) 7
  · cases hs
  · rw [mem_append, mem_singleton, mem_singleton] at hs
    obtain hs | hs := hs
    all_goals rw [PoolCall.applyNetworkState.inj hs]
    · exact ⟨_, .tail _ (.tail _ (.head _)), rfl⟩
    · exact ⟨_, .tail _ (.head _), rfl⟩
  · obtain hc | hc := hc
    · exact (htrace d hd).2.2 c hc
    · rw [(htrace d hd).2.1] at hc
      cases hc

end PactMesh
