import PactMesh.Lib.Trans
import PactMesh.Peers.GroupTrust

/-!
# The groups of peers under requests

The groups that a node has recorded for its peers, as it serves one synchronisation request after
another.

Main result: `groups_justified`.
-/

namespace PactMesh

open Outcome SyncedRouteInfo RouteService OrderedMap

/-- A request with what surrounds the node when it arrives; the raw descriptions are those of the
request. -/
structure SyncCall where
  env : RouteEnv
  req : SyncRouteInfoRequest
  rawPeerInfos : Option (List RawPeerInfo)
  raws : RawsMatch req rawPeerInfos

namespace RouteService

def syncSystem : Trans RouteService SyncCall where
  step svc call svc' :=
    ∃ result, svc.doSyncRouteInfo call.env call.req call.rawPeerInfos = .returns (result, svc')

variable {svc : RouteService} {env : RouteEnv} {sender : Sender} {req : SyncRouteInfoRequest}
  {rawPeerInfos : Option (List RawPeerInfo)} {w w' : Working}

variable {received : Bool}

theorem synced_of_receivePeerInfos (hraws : RawsMatch req rawPeerInfos)
    (h : svc.receivePeerInfos env sender req.peerInfos rawPeerInfos w =
      .returns (.ok received, w')) :
    received = false ∧ w'.synced = w.synced ∨ received = true ∧ ∃ merged : SyncedRouteInfo,
        merged.groupTrustMap = w.synced.groupTrustMap ∧
        merged.trustedCredentialPubkeys = w.synced.trustedCredentialPubkeys ∧ merged.peerInfos =
          (requestInfos env sender req).foldl (mergeInfo env.nowMs) w.synced.peerInfos ∧
        w'.synced = merged.verifyAndUpdateGroupTrusts env.verifyGroup (requestInfos env sender req)
          env.aclGroupDeclarations true := by
  unfold receivePeerInfos at h
  cases hinfos : req.peerInfos with
  | none =>
    rw [hinfos] at h
    cases h
    exact .inl ⟨rfl, rfl⟩
  | some infos =>
    rw [hinfos] at h
    obtain ⟨raws, rfl, hmap⟩ := hraws infos hinfos
    obtain ⟨rpi, haccepted, -⟩ := acceptedPeerInfos_eq env sender hmap
    have hrequest : requestInfos env sender req = mergedInfos env sender infos := by
      rw [requestInfos, hinfos]
      rfl
    simp only [haccepted, returns_bind] at h
    split_ifs at h
    · cases h
      exact .inl ⟨rfl, rfl⟩
    · obtain ⟨⟨result, merged⟩, hmerge, h⟩ := bind_eq_returns_iff.1 h
      cases result with
      | error e => cases h
      | ok u =>
        cases h
        obtain ⟨_, _, _, -, hall, hmerged⟩ := updatePeerInfosFrom_merged hmerge
        rw [hall rfl, ← hrequest] at hmerged
        refine .inr ⟨rfl, merged, ?_, ?_, ?_, by rw [hrequest]⟩ <;> rw [hmerged]

variable {myPeerId : PeerId} {svc' : RouteService}

section Invariant

variable (verify : PeerGroupInfo → String → PeerId → Bool) (declared : List GroupIdentity)

structure GroupInv (svc : RouteService) : Prop where
  exact : svc.synced.Exact verify declared svc.myPeerId
  stored : svc.synced.WellStored

def MarkedAmong (known : RoutePeerInfo → Prop) : Prop :=
  ∀ admin info, known admin → known info → isAdminPeer admin = true →
    ∀ proof ∈ admin.trustedCredentialPubkeys, ∀ credential, proof.credential = some credential →
      info.noiseStaticPubkey ≠ [] → info.noiseStaticPubkey = credential.pubkey →
      isCredentialPeerInfo info = true

/-- A table of `known` descriptions and placeholders that is ready for a refresh. -/
structure Ready (myPeerId : PeerId) (known : RoutePeerInfo → Prop) (s : SyncedRouteInfo) : Prop where
  pending : s.Pending verify declared myPeerId
  stored : s.WellStored
  infos : ∀ peerId info, s.peerInfos.get peerId = some info →
    (∃ orig, known orig ∧ ∃ t, info = { orig with lastUpdate := t }) ∨
      info.version = 0 ∧ info.noiseStaticPubkey = []

variable {verify declared} in
theorem Ready.fills {known : RoutePeerInfo → Prop} {nowMs : ℕ}
    {s s' : SyncedRouteInfo} (h : Ready verify declared myPeerId known s)
    (hfills : Fills nowMs s s') : Ready verify declared myPeerId known s' where
  pending := h.pending.fills hfills
  stored := h.stored.fills hfills
  infos peerId info hget := by
    rcases hfills.infos peerId with heq | ⟨-, hfilled⟩
    · exact h.infos peerId info (heq ▸ hget)
    · rw [hfilled] at hget
      cases hget
      exact .inr ⟨rfl, rfl⟩

variable {verify declared} in
theorem Ready.marked {known : RoutePeerInfo → Prop} {s : SyncedRouteInfo}
    (h : Ready verify declared myPeerId known s) (hmarked : MarkedAmong known) (nowSecs : ℤ) :
    s.Marked (s.collectTrustedCredentials nowSecs).allTrusted := by
  intro peerId info hinfo hcred
  have hkey : info.noiseStaticPubkey ≠ [] := by
    intro hnil
    simp [credentialFor, hnil] at hcred
  rw [credentialFor, if_neg (by simpa using hkey)] at hcred
  obtain ⟨credential, hcred⟩ := Option.ne_none_iff_exists'.1 hcred
  obtain ⟨adminId, admin, hadmin, hisAdmin, proof, hproof, hpublished, hpubkey⟩ :=
    exists_admin_of_trusted hcred
  rcases h.infos adminId admin hadmin with ⟨admin', hknownAdmin, t, rfl⟩ | ⟨hver, -⟩
  · rcases h.infos peerId info hinfo with ⟨info', hknownInfo, t', rfl⟩ | ⟨-, hnil⟩
    · exact hmarked admin' info' hknownAdmin hknownInfo hisAdmin proof hproof credential hpublished
        hkey hpubkey.symm
    · exact absurd hnil hkey
  · simp [isAdminPeer, hver] at hisAdmin

def Known (svc : RouteService) (env : RouteEnv) (sender : Sender) (req : SyncRouteInfoRequest)
    (info : RoutePeerInfo) : Prop :=
  (∃ peerId, svc.synced.peerInfos.get peerId = some info) ∨ info ∈ requestInfos env sender req

/-- What the descriptions of a request must keep to: the merge does not stop at one of them, they have
versions, none is stale, and credential peers are marked. -/
structure Current (svc : RouteService) (env : RouteEnv) (sender : Sender)
    (req : SyncRouteInfoRequest) : Prop where
  merged : AllMerged env.nowMs svc.myPeerId sender.peerId svc.synced.peerInfos
    (requestInfos env sender req)
  versions : ∀ info ∈ requestInfos env sender req, info.version ≠ 0
  noneStale : svc.synced.NoneStale verify declared svc.myPeerId (requestInfos env sender req)
  marked : MarkedAmong (Known svc env sender req)

def CurrentCall (svc : RouteService) (call : SyncCall) : Prop :=
  call.env.verifyGroup = verify ∧ call.env.aclGroupDeclarations = declared ∧
    ∀ sender, svc.senderOf call.env call.req.myPeerId = some sender →
      Current verify declared svc call.env sender call.req

variable {verify declared}

theorem ready_of_receivePeerInfos (hraws : RawsMatch req rawPeerInfos)
    (hinv : GroupInv verify declared svc) (hv : env.verifyGroup = verify)
    (hd : env.aclGroupDeclarations = declared) (hcurrent : Current verify declared svc env sender req)
    (hw : w.synced = svc.synced)
    (h : svc.receivePeerInfos env sender req.peerInfos rawPeerInfos w = .returns (.ok received, w')) :
    Ready verify declared svc.myPeerId (Known svc env sender req) w'.synced := by
  have hsame : ∀ peerId info, svc.synced.peerInfos.get peerId = some info →
      ∃ orig, Known svc env sender req orig ∧ ∃ t, info = { orig with lastUpdate := t } :=
    fun peerId info hget => ⟨info, .inl ⟨peerId, hget⟩, info.lastUpdate, rfl⟩
  rcases synced_of_receivePeerInfos hraws h with ⟨-, heq⟩ |
    ⟨-, merged, hgroups, htrusted, hinfos, heq⟩
  · rw [heq, hw]
    exact ⟨hinv.exact.pending, hinv.stored, fun peerId info hget => .inl (hsame peerId info hget)⟩
  · rw [hw] at hgroups htrusted hinfos
    have hframe := (regrouped_verifyAndUpdateGroupTrusts verify declared true
      (requestInfos env sender req) merged).frame.1
    rw [heq, hv, hd]
    refine ⟨pending_verify hinv.exact hcurrent.noneStale hgroups htrusted hinfos, ?_,
      fun peerId info hget => .inl ?_⟩
    · exact wellStored_merge hinv.stored hcurrent.versions (hframe.trans hinfos)
    · rw [hframe, hinfos] at hget
      rcases origin_of_stored hget with hold | ⟨orig, hmem, -, rfl⟩
      · exact hsame peerId info hold
      · exact ⟨orig, .inr hmem, _, rfl⟩

theorem groupInv_syncFrom (hverify : ∀ g secret p, verify g secret p = true → g.groupProof ≠ [])
    (hraws : RawsMatch req rawPeerInfos) (hinv : GroupInv verify declared svc)
    (hv : env.verifyGroup = verify) (hd : env.aclGroupDeclarations = declared)
    (hcurrent : Current verify declared svc env sender req)
    {result : Except SyncRouteInfoError (SyncRouteInfoResponse × SyncEffects)}
    (h : svc.syncFrom env sender req rawPeerInfos = .returns (result, svc')) :
    svc'.myPeerId = svc.myPeerId ∧ GroupInv verify declared svc' := by
  obtain ⟨⟨r, w₁⟩, hreceived, h⟩ := bind_eq_returns_iff.1 h
  have hok : ∃ received, r = .ok received := by
    obtain ⟨-, hpanics⟩ | ⟨-, ⟨-, received, w', hw⟩ | ⟨hstop, -⟩⟩ :=
      receivePeerInfos_cases env svc sender
        ⟨svc.synced, svc.openSession env sender.peerId req.mySessionId⟩ hraws
    · exact absurd ⟨_, hreceived⟩ hpanics
    · rw [hreceived] at hw
      cases hw
      exact ⟨received, rfl⟩
    · exact absurd hcurrent.merged hstop
  obtain ⟨received, rfl⟩ := hok
  obtain ⟨⟨connsReceived, w₂⟩, hconns, h⟩ := bind_eq_returns_iff.1 h
  obtain ⟨⟨response, svc''⟩, hfinish, h⟩ := bind_eq_returns_iff.1 h
  cases h
  obtain ⟨hme, isPeerActive, _, hsynced, -⟩ := finishSync_synced hfinish
  refine ⟨hme, ?_⟩
  have hready : Ready verify declared svc.myPeerId (Known svc env sender req) w₂.synced := by
    have hready₁ := ready_of_receivePeerInfos hraws hinv hv hd hcurrent rfl hreceived
    rcases receiveConnInfo_cases hconns with ⟨-, heq⟩ | ⟨-, -, hfills⟩
    · exact heq ▸ hready₁
    · exact hready₁.fills hfills
  cases hany : received || connsReceived with
  | true =>
    rw [hany, refreshedIf, if_pos rfl] at hsynced
    have hexact := exact_refresh hverify isPeerActive hready.pending hready.stored
      (hready.marked hcurrent.marked (env.nowMs / 1000 : ℕ))
    have hstored := wellStored_refresh (env.nowMs / 1000 : ℕ) isPeerActive hready.stored
    exact ⟨by rw [hme, hsynced]; exact hexact, by rw [hsynced]; exact hstored⟩
  | false =>
    -- nothing was received, and the table is as it was
    rw [Bool.or_eq_false_iff] at hany
    obtain ⟨rfl, rfl⟩ := hany
    rcases synced_of_receivePeerInfos hraws hreceived with ⟨-, heq₁⟩ | ⟨htrue, -⟩
    · rcases receiveConnInfo_cases hconns with ⟨-, heq₂⟩ | ⟨htrue, -⟩
      · rw [Bool.or_self, refreshedIf, if_neg Bool.false_ne_true, heq₂, heq₁] at hsynced
        exact ⟨by rw [hme, hsynced]; exact hinv.exact, by rw [hsynced]; exact hinv.stored⟩
      · cases htrue
    · cases htrue

theorem groupInv_step (hverify : ∀ g secret p, verify g secret p = true → g.groupProof ≠ [])
    {call : SyncCall} (hinv : GroupInv verify declared svc)
    (hcall : CurrentCall verify declared svc call) (hstep : syncSystem.step svc call svc') :
    svc'.myPeerId = svc.myPeerId ∧ GroupInv verify declared svc' := by
  obtain ⟨result, h⟩ := hstep
  obtain ⟨hv, hd, hcurrent⟩ := hcall
  unfold doSyncRouteInfo at h
  cases hsender : svc.senderOf call.env call.req.myPeerId with
  | none =>
    rw [hsender] at h
    cases h
    exact ⟨rfl, hinv.exact, hinv.stored⟩
  | some sender =>
    rw [hsender] at h
    exact groupInv_syncFrom hverify call.raws hinv hv hd (hcurrent sender hsender) h

theorem groupInv_alone (info : RoutePeerInfo) (hid : info.peerId = svc.myPeerId)
    (hver : info.version ≠ 0) (hinfos : svc.synced.peerInfos = empty.insert svc.myPeerId info)
    (hgroups : svc.synced.groupTrustMap = .empty) : GroupInv verify declared svc where
  exact peerId hne name := by
    have hnone : svc.synced.peerInfos.get peerId = none := by
      rw [hinfos, get_insert_of_ne hne, get_empty]
    simp [groupsOf, hgroups, storedGroups, credentialGroups, hnone]
  stored peerId stored hget := by
    rw [hinfos, get_insert] at hget
    split_ifs at hget with hkey
    · cases hget
      exact .inr ⟨hver, hid.trans hkey.symm⟩
    · cases hget

def GroupsKept (svc svc' : RouteService) : Prop :=
  ∀ peerId, peerId ≠ svc.myPeerId →
    svc'.synced.peerInfos.get peerId = svc.synced.peerInfos.get peerId →
    ∀ name, name ∉ svc.synced.credentialGroups peerId → name ∉ svc'.synced.credentialGroups peerId →
      ((svc'.synced.groupsOf peerId).contains name = true ↔
        (svc.synced.groupsOf peerId).contains name = true)

theorem GroupInv.groupsKept (h : GroupInv verify declared svc)
    (h' : GroupInv verify declared svc') (hme : svc'.myPeerId = svc.myPeerId) :
    GroupsKept svc svc' := by
  intro peerId hne hsame name hbefore hafter
  rw [h.exact.justified peerId hne name, h'.exact.justified peerId (hme ▸ hne) name, storedGroups,
    storedGroups, hsame]
  exact or_congr_right (iff_of_false hafter hbefore)

/-- **Groups are justified by what is stored**: if every request is current, then after each of them
the groups of a remote peer are those of its stored description and its trusted credential, and
those of its description change only with it. -/
theorem groups_justified (hverify : ∀ g secret p, verify g secret p = true → g.groupProof ≠ [])
    {calls : List SyncCall} (hstart : GroupInv verify declared svc)
    (hcalls : syncSystem.Along (CurrentCall verify declared) svc calls) :
    syncSystem.Along (fun svc call => ∀ svc', syncSystem.step svc call svc' →
      svc'.synced.Justified verify declared svc'.myPeerId ∧ GroupsKept svc svc') svc calls := by
  refine hcalls.of_invariant hstart (fun svc call svc' hinv hcall hstep => ?_)
    fun svc call hinv hcall svc' hstep => ?_
  · exact (groupInv_step hverify hinv hcall hstep).2
  · obtain ⟨hme, hinv'⟩ := groupInv_step hverify hinv hcall hstep
    exact ⟨hinv'.exact.justified, hinv.groupsKept hinv' hme⟩

end Invariant

/-- The data to sign behind the secret, in place of their HMAC. -/
def proofOf (secret groupName : String) (peerId : PeerId) : List UInt8 :=
  (secret ++ groupName).toUTF8.data.toList ++ 0 :: Endian.beBytes 4 peerId.toNat

/-- The quiet node, which knows the secret of a group. -/
def opsEnv : RouteEnv :=
  { quietEnv with
    aclGroupDeclarations := [⟨"ops", "secret"⟩]
    verifyGroup := fun g secret peerId => g.groupProof == proofOf secret g.groupName peerId }

def bring (infos : List RoutePeerInfo) : SyncCall where
  env := opsEnv
  req := { bareRequest with peerInfos := some infos }
  rawPeerInfos := some (infos.map fun info => ⟨info, []⟩)
  raws := by
    rintro _ ⟨⟩
    exact ⟨_, rfl, by simp [Function.comp_def]⟩

def inOps : RoutePeerInfo := { describe 7 1 9 with groups := [⟨"ops", proofOf "secret" "ops" 7⟩] }

def leftOps : RoutePeerInfo := describe 7 2 9

theorem seven_in_ops_justified :
    syncSystem.Along (fun svc call => ∀ svc', syncSystem.step svc call svc' →
      svc'.synced.Justified opsEnv.verifyGroup opsEnv.aclGroupDeclarations svc'.myPeerId ∧
        GroupsKept svc svc') quietService [bring [inOps]] := by
  have hverify : ∀ g secret p, opsEnv.verifyGroup g secret p = true → g.groupProof ≠ [] := by
    intro g secret p h hnil
    simp [opsEnv, proofOf, hnil] at h
  have hstart : GroupInv opsEnv.verifyGroup opsEnv.aclGroupDeclarations quietService :=
    groupInv_alone (describe 1 3 7) rfl (by decide) rfl rfl
  have hcurrent : Current opsEnv.verifyGroup opsEnv.aclGroupDeclarations quietService opsEnv ⟨2, none⟩
      (bring [inOps]).req := by
    have hinfos : requestInfos opsEnv ⟨2, none⟩ (bring [inOps]).req = [inOps] := rfl
    have hnew : quietService.synced.peerInfos.get 7 = none := rfl
    refine ⟨?_, ?_, ?_, ?_⟩
    · exact ⟨by decide, trivial⟩
    · rw [hinfos]
      simp [inOps, describe]
    · rw [hinfos]
      intro info hmem _ other hother _
      rw [List.mem_singleton] at hmem
      subst hmem
      rcases hother with hget | ⟨hmem, -⟩
      · cases hnew.symm.trans hget
      · rw [List.mem_singleton] at hmem
        rw [hmem]
    · -- nobody publishes credentials
      have hnone : ∀ info, Known quietService opsEnv ⟨2, none⟩ (bring [inOps]).req info →
          info.trustedCredentialPubkeys = [] := by
        rintro info (⟨peerId, hget⟩ | hmem)
        · rw [quietService, get_insert] at hget
          split_ifs at hget
          · cases hget
            rfl
          · cases hget
        · rw [hinfos, List.mem_singleton] at hmem
          rw [hmem]
          rfl
      intro admin info hadmin _ _ proof hproof
      rw [hnone admin hadmin] at hproof
      cases hproof
  refine groups_justified hverify hstart ⟨⟨rfl, rfl, fun sender hsender => ?_⟩, fun _ _ => trivial⟩
  cases hsender
  exact hcurrent

/-- **A description that is not stored decides the groups**: peer 7 has left the group, and an old
description brings it back. -/
theorem stale_description_restores_group :
    ∃ svc₁ svc₂, syncSystem.step quietService (bring [leftOps]) svc₁ ∧
      syncSystem.step svc₁ (bring [inOps]) svc₂ ∧
      svc₁.synced.peerInfos.get 7 = some { leftOps with lastUpdate := some 1000 } ∧
      svc₂.synced.peerInfos.get 7 = some { leftOps with lastUpdate := some 1000 } ∧
      (svc₁.synced.groupsOf 7).contains "ops" = false ∧
      (svc₂.synced.groupsOf 7).contains "ops" = true ∧
      ¬ svc₂.synced.Justified opsEnv.verifyGroup opsEnv.aclGroupDeclarations svc₂.myPeerId := by
  refine ⟨_, _, ⟨_, rfl⟩, ⟨_, rfl⟩, rfl, rfl, rfl, rfl, fun h => ?_⟩
  have hgroup := (h 7 (by decide) "ops").1 rfl
  revert hgroup
  decide +kernel

end RouteService

end PactMesh
