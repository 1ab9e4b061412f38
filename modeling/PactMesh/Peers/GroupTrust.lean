import PactMesh.Peers.RouteMerge

/-!
# The groups of peers

A peer is in a group if its description proves it, if an administrator's description says so, or if
its credential says so.  The groups are worked out from the descriptions that arrive, whether or not
these are stored.

Main result: `exact_refresh`.
-/

namespace PactMesh

open OrderedMap List Option

namespace SyncedRouteInfo

variable (s : SyncedRouteInfo)

def groupsOf (peerId : PeerId) : OrderedMap String (List UInt8) :=
  (s.groupTrustMap.get peerId).getD .empty

variable {s}

theorem get_groupsOf_setPeerGroups (peerId : PeerId) (groups : OrderedMap String (List UInt8))
    (q : PeerId) (name : String) :
    ((s.setPeerGroups peerId groups).groupsOf q).get name =
      if q = peerId then groups.get name else (s.groupsOf q).get name := by
  rw [setPeerGroups]
  by_cases hempty : groups.entries.isEmpty = true
  · rw [if_pos hempty, get_eq_none_of_isEmpty hempty]
    simp only [groupsOf, get_erase]
    split_ifs <;> rfl
  · rw [if_neg hempty]
    simp only [groupsOf, get_insert]
    split_ifs <;> rfl

theorem get_groupsOf_setVerifiedGroups (peerId : PeerId) (groups : OrderedMap String (List UInt8))
    (q : PeerId) (name : String) :
    ((s.setVerifiedGroups peerId groups).groupsOf q).get name =
      if q = peerId then groups.get name else (s.groupsOf q).get name := by
  rw [setVerifiedGroups]
  split_ifs with hnothing hq hq
  · subst hq
    rw [Bool.and_eq_true, Bool.not_eq_true'] at hnothing
    have hnone : s.groupTrustMap.get q = none := by
      simpa [OrderedMap.contains] using hnothing.2
    rw [groupsOf, hnone, get_eq_none_of_isEmpty hnothing.1]
    rfl
  · rfl
  · rw [get_groupsOf_setPeerGroups, if_pos hq]
  · rw [get_groupsOf_setPeerGroups, if_neg hq]

theorem get_getProofGroups (peerId : PeerId) (name : String) :
    (s.getProofGroups peerId).get name =
      ((s.groupsOf peerId).get name).filter fun proof => !proof.isEmpty := by
  rw [getProofGroups, groupsOf]
  cases s.groupTrustMap.get peerId with
  | none => rfl
  | some groups =>
    simp only [Option.getD_some]
    rw [foldl_entries (k := name) (g := (get · name)) (w := fun proof old => if proof.isEmpty then old else some proof)]
    · cases groups.get name <;> simp [Option.filter_some]
    · intro e _ acc
      by_cases hk : name = e.1 <;> by_cases hempty : e.2.isEmpty <;> simp [hk, hempty, eq_comm]

section Verify

variable (verify : PeerGroupInfo → String → PeerId → Bool) (declared : List GroupIdentity)

def verified (info : RoutePeerInfo) : OrderedMap String (List UInt8) :=
  verifyGroups verify (declared.foldl (fun m g => m.insert g.groupName g.groupSecret) .empty) true
    info

variable {verify declared}

/-- **Arriving descriptions decide the groups**: if all descriptions of a peer have the same groups,
these are recorded, and a peer without a description is left alone. -/
theorem get_groupsOf_verifyAndUpdateGroupTrusts {infos : List RoutePeerInfo} {peerId : PeerId}
    {groups : String → Option (List UInt8)}
    (h : ∀ info ∈ infos, info.peerId = peerId → (verified verify declared info).get = groups) :
    ((s.verifyAndUpdateGroupTrusts verify infos declared true).groupsOf peerId).get =
      if ∃ info ∈ infos, info.peerId = peerId then groups else (s.groupsOf peerId).get := by
  unfold verifyAndUpdateGroupTrusts
  induction infos generalizing s with
  | nil => simp
  | cons info infos ih =>
    obtain ⟨hinfo, hrest⟩ := forall_mem_cons.1 h
    rw [foldl_cons, ih hrest]
    simp only [exists_mem_cons_iff]
    by_cases hlater : ∃ info ∈ infos, info.peerId = peerId
    · rw [if_pos hlater, if_pos (.inr hlater)]
    · simp only [or_iff_left hlater]
      rw [if_neg hlater]
      funext name
      refine (get_groupsOf_setVerifiedGroups _ (verified verify declared info) _ _).trans ?_
      by_cases hp : info.peerId = peerId
      · rw [if_pos hp.symm, if_pos hp, hinfo hp]
      · rw [if_neg (Ne.symm hp), if_neg hp]

theorem get_verified_of_no_groups {info : RoutePeerInfo} (h : info.groups = []) (name : String) :
    (verified verify declared info).get name = none := by
  rw [verified, verifyGroups, h]
  split_ifs <;> rfl

theorem ne_nil_of_get_verified (hverify : ∀ g secret p, verify g secret p = true → g.groupProof ≠ [])
    {info : RoutePeerInfo} (hcred : isCredentialPeerInfo info = true) {name : String}
    {proof : List UInt8} (h : (verified verify declared info).get name = some proof) :
    proof ≠ [] := by
  have hadmin : isAdminPeer info = false := by
    rw [isAdminPeer, hcred]
    split_ifs <;> rfl
  rw [verified, verifyGroups, hadmin, Bool.and_false, if_neg Bool.false_ne_true] at h
  -- the loop only inserts proofs that verify
  refine (foldl_origin (P := (OrderedMap.get · name = some proof)) (Q := fun _ => proof ≠ []) h
    fun m g hget => ?_).elim nofun fun ⟨_, _, hproof⟩ => hproof
  split at hget
  · exact .inl hget
  · split_ifs at hget with hver
    · rw [get_insert] at hget
      split_ifs at hget
      · cases hget
        exact .inr (hverify g _ _ hver)
      · exact .inl hget
    · exact .inl hget

end Verify

section Stored

variable (nowMs : ℕ) (m : PeerInfoMap) {infos : List RoutePeerInfo}
  {peerId : PeerId} {version : Version}

theorem exists_stored
    (h : (∃ old, m.get peerId = some old ∧ version ≤ old.version) ∨
      ∃ info ∈ infos, info.peerId = peerId ∧ version ≤ info.version) :
    ∃ stored, (infos.foldl (mergeInfo nowMs) m).get peerId = some stored ∧
      version ≤ stored.version := by
  refine foldl_reaches (P := fun m : PeerInfoMap =>
    ∃ stored, m.get peerId = some stored ∧ version ≤ stored.version) h fun m info h => ?_
  rw [get_mergeInfo]
  split_ifs with hp hnew
  · refine ⟨_, rfl, ?_⟩
    rcases h with ⟨old, hold, hle⟩ | ⟨-, hle⟩
    · rw [hold, all_some, decide_eq_true_eq] at hnew
      exact UInt32.le_trans hle (UInt32.le_of_lt hnew)
    · exact hle
  · rcases h with hold | ⟨-, hle⟩
    · exact hold
    · cases hold : m.get peerId with
      | none => simp [hold] at hnew
      | some old =>
        rw [hold, all_some, decide_eq_true_eq] at hnew
        exact ⟨old, rfl, UInt32.le_trans hle (UInt32.not_lt.1 hnew)⟩
  · exact h.resolve_right fun hinfo => hp hinfo.1

end Stored

section Trusted

variable {nowSecs : ℤ} {pubkey : List UInt8} {credential : TrustedCredentialPubkey} {c : Collected}

theorem trusted_of_addProof {proof : TrustedCredentialPubkeyProof}
    (h : (c.addProof nowSecs proof).allTrusted.get pubkey = some credential) :
    c.allTrusted.get pubkey = some credential ∨
      proof.credential = some credential ∧ credential.pubkey = pubkey := by
  rw [Collected.addProof] at h
  split at h
  · exact .inl h
  · rename_i published hpublished
    split_ifs at h
    · exact .inl h
    · rw [get_orInsert] at h
      cases hold : c.allTrusted.get pubkey with
      | some old =>
        rw [hold, some_or] at h
        exact .inl h
      | none =>
        rw [hold, none_or] at h
        split_ifs at h with hkey
        cases h
        exact .inr ⟨hpublished, hkey.symm⟩

theorem trusted_of_addPeer {e : PeerId × RoutePeerInfo}
    (h : (c.addPeer nowSecs e).allTrusted.get pubkey = some credential) :
    c.allTrusted.get pubkey = some credential ∨
      isAdminPeer e.2 = true ∧ ∃ proof ∈ e.2.trustedCredentialPubkeys,
        proof.credential = some credential ∧ credential.pubkey = pubkey := by
  rw [Collected.addPeer] at h
  split at h
  · exact .inl h
  · rename_i hnot
    have hadmin : isAdminPeer e.2 = true := by simpa using hnot
    exact (foldl_origin (P := fun c : Collected => c.allTrusted.get pubkey = some credential) h
      fun _ _ => trusted_of_addProof).imp_right fun hnew => ⟨hadmin, hnew⟩

theorem exists_admin_of_trusted
    (h : (s.collectTrustedCredentials nowSecs).allTrusted.get pubkey = some credential) :
    ∃ peerId admin, s.peerInfos.get peerId = some admin ∧ isAdminPeer admin = true ∧
      ∃ proof ∈ admin.trustedCredentialPubkeys, proof.credential = some credential ∧
        credential.pubkey = pubkey := by
  rcases foldl_origin (P := fun c : Collected => c.allTrusted.get pubkey = some credential) h
    (fun _ e => trusted_of_addPeer (e := e)) with hempty | ⟨e, he, hadmin, hproof⟩
  · cases hempty
  · exact ⟨e.1, e.2, get_of_mem he, hadmin, hproof⟩

end Trusted

theorem get_foldl_orInsert_nil (groups : List String) (m : OrderedMap String (List UInt8))
    (name : String) :
    (groups.foldl (fun m group => m.orInsert group []) m).get name =
      (m.get name).or (if name ∈ groups then some [] else none) := by
  induction groups generalizing m with
  | nil => simp
  | cons group groups ih =>
    rw [foldl_cons, ih, get_orInsert]
    cases m.get name with
    | some proof => simp
    | none => by_cases hname : name = group <;> simp [hname]

def credentialFor (allTrusted : TrustedKeyMap)
    (info : RoutePeerInfo) : Option TrustedCredentialPubkey :=
  if info.noiseStaticPubkey.isEmpty then none else allTrusted.get info.noiseStaticPubkey

variable (s) in
def WellStored : Prop :=
  ∀ peerId info, s.peerInfos.get peerId = some info →
    info.groups = [] ∧ info.noiseStaticPubkey = [] ∨ info.version ≠ 0 ∧ info.peerId = peerId

/-- The groups of a peer with a trusted credential: those proved, and those of the credential. -/
def regroup (credential : Option TrustedCredentialPubkey) (name : String)
    (group : Option (List UInt8)) : Option (List UInt8) :=
  credential.elim group fun credential =>
    (group.filter fun proof => !proof.isEmpty).or
      (if name ∈ credential.groups then some [] else none)

theorem get_groupsOf_addCredentialGroups
    (allTrusted : TrustedKeyMap) {e : PeerId × RoutePeerInfo}
    (he : e.2.noiseStaticPubkey = [] ∨ e.2.peerId = e.1) (s : SyncedRouteInfo) (peerId : PeerId)
    (name : String) :
    ((addCredentialGroups allTrusted s e).groupsOf peerId).get name =
      if e.1 = peerId then
        regroup (credentialFor allTrusted e.2) name ((s.groupsOf peerId).get name)
      else (s.groupsOf peerId).get name := by
  rw [addCredentialGroups, credentialFor, regroup]
  by_cases hempty : e.2.noiseStaticPubkey.isEmpty = true
  · simp only [hempty, if_true, elim_none, ite_self]
  · have hid : e.2.peerId = e.1 := by
      rcases he with hnil | hid
      · rw [hnil] at hempty
        exact absurd rfl hempty
      · exact hid
    rw [if_neg hempty, if_neg hempty, hid]
    cases allTrusted.get e.2.noiseStaticPubkey with
    | none => exact (ite_self _).symm
    | some credential =>
      by_cases hkey : e.1 = peerId
      · subst hkey
        simp only [get_groupsOf_setPeerGroups, if_true, get_foldl_orInsert_nil, get_getProofGroups,
          elim_some]
      · rw [if_neg hkey]
        exact (get_groupsOf_setPeerGroups _ _ _ _).trans (if_neg fun heq => hkey heq.symm)

theorem Regrouped.frame {s' : SyncedRouteInfo} (h : Regrouped s s') :
    s'.peerInfos = s.peerInfos ∧ s'.trustedCredentialPubkeys = s.trustedCredentialPubkeys := by
  obtain ⟨_, _, rfl⟩ := h
  exact ⟨rfl, rfl⟩

theorem get_removePeers (peerIds : List PeerId) (peerId : PeerId) :
    (s.removePeers peerIds).peerInfos.get peerId =
        (if peerId ∈ peerIds then none else s.peerInfos.get peerId) ∧
      (s.removePeers peerIds).groupsOf peerId =
        (if peerId ∈ peerIds then .empty else s.groupsOf peerId) ∧
      (s.removePeers peerIds).trustedCredentialPubkeys = s.trustedCredentialPubkeys := by
  rw [removePeers]
  by_cases hempty : peerIds.isEmpty = true
  · rw [if_pos hempty, isEmpty_iff.1 hempty]
    exact ⟨by simp, by simp, rfl⟩
  · rw [if_neg hempty]
    by_cases hmem : peerId ∈ peerIds <;>
      simp [incVersion, groupsOf, get_retain, hmem]

/-! ### Justified groups -/

section Justified

variable (verify : PeerGroupInfo → String → PeerId → Bool) (declared : List GroupIdentity)
  (myPeerId : PeerId) (s : SyncedRouteInfo)

def storedGroups (peerId : PeerId) (name : String) : Option (List UInt8) :=
  (s.peerInfos.get peerId).bind fun info => (verified verify declared info).get name

def credentialGroups (peerId : PeerId) : List String :=
  (((s.peerInfos.get peerId).bind (credentialFor s.trustedCredentialPubkeys)).map (·.groups)).getD []

/-- **The groups of remote peers are justified**: they are those of the stored descriptions and of
the trusted credentials. -/
def Justified : Prop :=
  ∀ peerId, peerId ≠ myPeerId → ∀ name, (s.groupsOf peerId).contains name = true ↔
    s.storedGroups verify declared peerId name ≠ none ∨ name ∈ s.credentialGroups peerId

def Exact : Prop :=
  ∀ peerId, peerId ≠ myPeerId → ∀ name, (s.groupsOf peerId).get name =
    (s.storedGroups verify declared peerId name).or
      (if name ∈ s.credentialGroups peerId then some [] else none)

/-- Before a refresh: groups beyond those of the description come from a credential that was trusted
at the last refresh. -/
def Pending : Prop :=
  ∀ peerId, peerId ≠ myPeerId → ∃ extra : List String,
    (∀ name, (s.groupsOf peerId).get name = (s.storedGroups verify declared peerId name).or
      (if name ∈ extra then some [] else none)) ∧ ((∀ info, s.peerInfos.get peerId = some info →
      credentialFor s.trustedCredentialPubkeys info = none) → extra = [])

variable {verify declared myPeerId s}

theorem Exact.justified (h : s.Exact verify declared myPeerId) :
    s.Justified verify declared myPeerId := by
  intro peerId hne name
  rw [OrderedMap.contains, h peerId hne name]
  cases s.storedGroups verify declared peerId name with
  | some proof => simp
  | none => by_cases hname : name ∈ s.credentialGroups peerId <;> simp [hname]

theorem Exact.pending (h : s.Exact verify declared myPeerId) :
    s.Pending verify declared myPeerId := by
  intro peerId hne
  refine ⟨s.credentialGroups peerId, h peerId hne, fun huntrusted => ?_⟩
  cases hinfo : s.peerInfos.get peerId with
  | none => simp [credentialGroups, hinfo]
  | some info => simp [credentialGroups, hinfo, huntrusted info hinfo]

theorem Pending.fills {nowMs : ℕ} {s' : SyncedRouteInfo} (h : s.Pending verify declared myPeerId)
    (hfills : Fills nowMs s s') : s'.Pending verify declared myPeerId := by
  intro peerId hne
  obtain ⟨extra, hget, hextra⟩ := h peerId hne
  have hgroups : s'.groupsOf peerId = s.groupsOf peerId := by rw [groupsOf, groupsOf, hfills.groups]
  rcases hfills.infos peerId with heq | ⟨hnone, hfilled⟩
  · refine ⟨extra, fun name => ?_, ?_⟩
    · rw [hgroups, hget name, storedGroups, storedGroups, heq]
    · rw [heq, hfills.trusted]
      exact hextra
  · refine ⟨[], fun name => ?_, fun _ => rfl⟩
    rw [hgroups, hget name, hextra (by simp [hnone]), storedGroups, storedGroups, hnone, hfilled, bind_some,
      get_verified_of_no_groups rfl]
    rfl

def Marked (allTrusted : TrustedKeyMap) (s : SyncedRouteInfo) :
    Prop :=
  ∀ peerId info, s.peerInfos.get peerId = some info → credentialFor allTrusted info ≠ none →
    isCredentialPeerInfo info = true

theorem mem_revoked {peerId : PeerId} {info : RoutePeerInfo}
    {allTrusted : TrustedKeyMap} (hstored : s.WellStored)
    (hinfo : s.peerInfos.get peerId = some info)
    (hbefore : credentialFor s.trustedCredentialPubkeys info ≠ none)
    (hnow : credentialFor allTrusted info = none) :
    peerId ∈ s.collectRevokedCredentialPeers s.trustedCredentialPubkeys.contains allTrusted := by
  have hkey : info.noiseStaticPubkey ≠ [] := by
    intro h
    simp [credentialFor, h] at hbefore
  have hver : info.version ≠ 0 := by
    rcases hstored peerId info hinfo with ⟨-, hnil⟩ | ⟨hver, -⟩
    · exact absurd hnil hkey
    · exact hver
  have hprev : s.trustedCredentialPubkeys.contains info.noiseStaticPubkey = true := by
    rw [OrderedMap.contains, isSome_iff_ne_none]
    simpa [credentialFor, hkey] using hbefore
  have hgone : allTrusted.contains info.noiseStaticPubkey = false := by
    rw [OrderedMap.contains]
    simpa [credentialFor, hkey] using hnow
  rw [collectRevokedCredentialPeers, mem_filterMap]
  exact ⟨(peerId, info), mem_of_get hinfo, by simp [hkey, hver, hprev, hgone]⟩

/-- **What a refresh does to a peer**: it is removed, or it keeps its description, and gets the groups
of its credential in place of all that are not proved, if its credential is trusted. -/
theorem refresh_cases (nowSecs : ℤ) (isPeerActive : PeerId → Bool) (hstored : s.WellStored)
    (peerId : PeerId) :
    let allTrusted := (s.collectTrustedCredentials nowSecs).allTrusted
    let s' := (s.verifyAndUpdateCredentialTrustsWithActivePeers nowSecs isPeerActive).2.2
    s'.trustedCredentialPubkeys = allTrusted ∧
      (s'.peerInfos.get peerId = none ∧ s'.groupsOf peerId = .empty ∨
        peerId ∉ s.collectRevokedCredentialPeers s.trustedCredentialPubkeys.contains allTrusted ∧
          s'.peerInfos.get peerId = s.peerInfos.get peerId ∧
          ∀ name, (s'.groupsOf peerId).get name = regroup
            ((s.peerInfos.get peerId).bind (credentialFor allTrusted)) name
            ((s.groupsOf peerId).get name)) := by
  intro allTrusted s'
  let owners := s.collectNonReusableCredentialOwners allTrusted isPeerActive
  let replaced := (s.replaceTrustedCredentialPubkeys allTrusted).replaceNonReusableCredentialOwners
    owners.1
  let untrusted := peerSet (s.collectRevokedCredentialPeers s.trustedCredentialPubkeys.contains
    allTrusted ++ owners.2)
  obtain ⟨hinfos, hgroups, htrusted⟩ :=
    get_removePeers (s := replaced.updateCredentialGroups allTrusted) untrusted peerId
  obtain ⟨hinfos', htrusted'⟩ := (regrouped_updateCredentialGroups allTrusted replaced).frame
  refine ⟨htrusted.trans htrusted', ?_⟩
  by_cases hmem : peerId ∈ untrusted
  · rw [if_pos hmem] at hinfos hgroups
    exact .inl ⟨hinfos, hgroups⟩
  · rw [if_neg hmem] at hinfos hgroups
    refine .inr ⟨fun hrev => hmem (mem_peerSet.2 (mem_append_left _ hrev)), ?_, fun name => ?_⟩
    · exact hinfos.trans (congrArg (OrderedMap.get · peerId) hinfos')
    · have hloop := foldl_entries (k := peerId) (g := fun s => (groupsOf s peerId).get name)
        (w := fun info => regroup (credentialFor allTrusted info) name) replaced.peerInfos replaced
        fun e he s => get_groupsOf_addCredentialGroups allTrusted
          ((hstored e.1 e.2 (get_of_mem he)).imp And.right And.right) s peerId name
      refine (congrArg (OrderedMap.get · name) hgroups).trans (hloop.trans ?_)
      change (s.peerInfos.get peerId).elim _ _ = _
      cases s.peerInfos.get peerId <;> rfl

/-- **A refresh makes the groups exact**, if the descriptions of peers with a credential are
marked. -/
theorem exact_refresh (hverify : ∀ g secret p, verify g secret p = true → g.groupProof ≠ [])
    {nowSecs : ℤ} (isPeerActive : PeerId → Bool) (h : s.Pending verify declared myPeerId)
    (hstored : s.WellStored)
    (hmarked : s.Marked (s.collectTrustedCredentials nowSecs).allTrusted) :
    (s.verifyAndUpdateCredentialTrustsWithActivePeers nowSecs isPeerActive).2.2.Exact verify declared
      myPeerId := by
  intro peerId hne name
  obtain ⟨htrusted, ⟨hnone, hempty⟩ | ⟨hrev, hinfo, hgroups⟩⟩ :=
    refresh_cases nowSecs isPeerActive hstored peerId
  · simp [hempty, storedGroups, credentialGroups, hnone]
  · obtain ⟨extra, hget, hextra⟩ := h peerId hne
    rw [hgroups, hget, storedGroups, storedGroups, credentialGroups, hinfo, htrusted, regroup]
    cases hstoredInfo : s.peerInfos.get peerId with
    | none => simp [hextra (by simp [hstoredInfo])]
    | some info =>
      simp only [bind_some]
      rcases eq_none_or_eq_some
        (credentialFor (s.collectTrustedCredentials nowSecs).allTrusted info) with
        hcred | ⟨credential, hcred⟩
      · have hnil : extra = [] := by
          refine hextra fun info' hinfo' => by_contra fun hbefore => ?_
          cases hstoredInfo.symm.trans hinfo'
          exact hrev (mem_revoked hstored hstoredInfo hbefore hcred)
        simp [hcred, hnil]
      · -- all groups of the description are proved, so that only those of the old credential go
        have hmark := hmarked peerId info hstoredInfo (by simp [hcred])
        simp only [hcred, elim_some, map_some, getD_some]
        cases hver : (verified verify declared info).get name with
        | none => by_cases hname : name ∈ extra <;> simp [hname, filter_some]
        | some proof =>
          have hproof := ne_nil_of_get_verified hverify hmark hver
          simp [filter_some, hproof]

theorem wellStored_refresh (nowSecs : ℤ) (isPeerActive : PeerId → Bool) (hstored : s.WellStored) :
    (s.verifyAndUpdateCredentialTrustsWithActivePeers nowSecs isPeerActive).2.2.WellStored := by
  intro peerId info hget
  obtain ⟨-, ⟨hnone, -⟩ | ⟨-, hinfo, -⟩⟩ := refresh_cases nowSecs isPeerActive hstored peerId
  · rw [hnone] at hget
    cases hget
  · exact hstored peerId info (hinfo ▸ hget)

variable (verify declared myPeerId s) in
/-- A description of the same remote peer that is stored, or arrives as well, and is not older, has
the same groups. -/
def NoneStale (infos : List RoutePeerInfo) : Prop :=
  ∀ info ∈ infos, info.peerId ≠ myPeerId → ∀ other,
    (s.peerInfos.get info.peerId = some other ∨ other ∈ infos ∧ other.peerId = info.peerId) →
    info.version ≤ other.version →
    (verified verify declared other).get = (verified verify declared info).get

variable {infos : List RoutePeerInfo} {nowMs : ℕ} {s' : SyncedRouteInfo}

theorem pending_verify (h : s.Exact verify declared myPeerId)
    (hstale : s.NoneStale verify declared myPeerId infos)
    (hgroups : s'.groupTrustMap = s.groupTrustMap)
    (htrusted : s'.trustedCredentialPubkeys = s.trustedCredentialPubkeys)
    (hinfos : s'.peerInfos = infos.foldl (mergeInfo nowMs) s.peerInfos) :
    (s'.verifyAndUpdateGroupTrusts verify infos declared true).Pending verify declared myPeerId := by
  intro peerId hne
  obtain ⟨hframe, hframe'⟩ :=
    (regrouped_verifyAndUpdateGroupTrusts verify declared true infos s').frame
  simp only [storedGroups, hframe, hframe']
  by_cases hany : ∃ info ∈ infos, info.peerId = peerId
  · obtain ⟨info₀, hmem₀, rfl⟩ := hany
    obtain ⟨stored, hstored, -⟩ := exists_stored nowMs s.peerInfos
      (.inr ⟨info₀, hmem₀, rfl, UInt32.le_refl _⟩)
    -- every description of the peer has the groups of the one that is stored in the end
    have hsame : ∀ info ∈ infos, info.peerId = info₀.peerId →
        (verified verify declared info).get = (verified verify declared stored).get := by
      intro info hmem hp
      obtain ⟨stored', hstored', hle⟩ := exists_stored nowMs s.peerInfos
        (.inr ⟨info, hmem, hp, UInt32.le_refl _⟩)
      rw [hstored] at hstored'
      cases hstored'
      rcases origin_of_stored hstored with hold | ⟨other, hother, hid, rfl⟩
      · exact (hstale info hmem (hp ▸ hne) stored (.inl (hp ▸ hold)) hle).symm
      · exact (hstale info hmem (hp ▸ hne) other (.inr ⟨hother, hid.trans hp.symm⟩) hle).symm
    refine ⟨[], fun name => ?_, fun _ => rfl⟩
    rw [get_groupsOf_verifyAndUpdateGroupTrusts hsame, if_pos ⟨info₀, hmem₀, rfl⟩, hinfos, hstored]
    simp
  · have hnone : ∀ info ∈ infos, info.peerId ≠ peerId := fun info hmem hp => hany ⟨info, hmem, hp⟩
    obtain ⟨extra, hget, hextra⟩ := h.pending peerId hne
    have hkeep : s'.peerInfos.get peerId = s.peerInfos.get peerId := by
      rcases get_foldl_mergeInfo nowMs infos s.peerInfos peerId with h | ⟨info, hmem, hp, -⟩
      · rw [hinfos, h]
      · exact absurd hp (hnone info hmem)
    refine ⟨extra, fun name => ?_, ?_⟩
    · have hvacuous : ∀ info ∈ infos, info.peerId = peerId →
          (verified verify declared info).get = fun _ => none :=
        fun info hmem hp => absurd hp (hnone info hmem)
      rw [get_groupsOf_verifyAndUpdateGroupTrusts hvacuous, if_neg hany, hkeep, groupsOf, hgroups]
      exact hget name
    · rw [hkeep, htrusted]
      exact hextra

theorem wellStored_merge (h : s.WellStored) (hver : ∀ info ∈ infos, info.version ≠ 0)
    (hinfos : s'.peerInfos = infos.foldl (mergeInfo nowMs) s.peerInfos) : s'.WellStored := by
  intro peerId stored hget
  rw [hinfos] at hget
  rcases origin_of_stored hget with hold | ⟨info, hmem, hid, rfl⟩
  · exact h peerId stored hold
  · exact .inr ⟨hver info hmem, hid⟩

theorem WellStored.fills (h : s.WellStored) (hfills : Fills nowMs s s') : s'.WellStored := by
  intro peerId info hget
  rcases hfills.infos peerId with heq | ⟨-, hfilled⟩
  · exact h peerId info (heq ▸ hget)
  · rw [hfilled] at hget
    cases hget
    exact .inl ⟨rfl, rfl⟩

end Justified

end SyncedRouteInfo

end PactMesh
