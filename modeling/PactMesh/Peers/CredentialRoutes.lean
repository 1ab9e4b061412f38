import PactMesh.Peers.RouteFrame

/-!
# What a credential peer can change in the routes

A credential peer should touch nothing but its own description, restricted to what its credential
allows, and the connections if it may relay.  But the sender is looked up by the id in the request.

Main result: `credential_routes`.
-/

namespace PactMesh

open Outcome List Option OrderedMap

namespace IpNet

/-- The address, as a number of `w` bits, lies in the network. -/
def InRange (net : IpNet) (w addr : ℕ) : Prop :=
  net.ip.width = w ∧ net.firstAddress ≤ addr ∧ addr ≤ net.lastAddress

end IpNet

theorem inRange_of_cidrIsSubset {child parent : IpNet} (h : cidrIsSubset child parent = true)
    {w addr : ℕ} (hin : child.InRange w addr) : parent.InRange w addr := by
  simp only [cidrIsSubset, Bool.and_eq_true, beq_iff_eq, decide_eq_true_eq] at h
  obtain ⟨⟨hwidth, hfirst⟩, hlast⟩ := h
  obtain ⟨hw, hlo, hhi⟩ := hin
  exact ⟨hwidth ▸ hw, hfirst.trans hlo, hhi.trans hlast⟩

def CidrAllowed (parse : String → Option IpNet) (allowed : List String) (cidr : String) : Prop :=
  ∃ net ∈ parse cidr, ∃ text ∈ allowed, ∃ parent ∈ parse text,
    ∀ w addr, net.InRange w addr → parent.InRange w addr

theorem cidrAllowed_of_any {parse : String → Option IpNet} {allowed : List String} {cidr : String}
    (h : allowed.any (cidrIsSubsetStr parse cidr) = true) : CidrAllowed parse allowed cidr := by
  obtain ⟨text, hmem, hsub⟩ := any_eq_true.1 h
  unfold cidrIsSubsetStr at hsub
  split at hsub
  · next net parent hnet hparent =>
    exact ⟨net, hnet, text, hmem, parent, hparent, fun _ _ => inRange_of_cidrIsSubset hsub⟩
  · cases hsub

def Removed {α : Type*} (old new : Option α) : Prop := new = old ∨ new = none

def Kept {α : Type*} (isPlaceholder : α → Prop) (old new : Option α) : Prop :=
  new = old ∨ new = none ∨ old = none ∧ ∃ a ∈ new, isPlaceholder a

section Entries

variable {α : Type*} {old mid new : Option α}

theorem Removed.refl (old : Option α) : Removed old old := .inl rfl

theorem SyncedRouteInfo.Filled.kept_removed {a : α} {isPlaceholder : α → Prop} (ha : isPlaceholder a)
    (h₁ : Filled a old mid) (h₂ : Removed mid new) : Kept isPlaceholder old new := by
  obtain rfl | rfl := h₂
  · exact h₁.imp id fun ⟨hnone, hsome⟩ => .inr ⟨hnone, a, hsome, ha⟩
  · exact .inr (.inl rfl)

end Entries

namespace SyncedRouteInfo

variable {s : SyncedRouteInfo} {nowMs : ℕ}

def IsPlaceholder (info : RoutePeerInfo) : Prop := info.version = 0

def IsConnPlaceholder (info : RouteConnInfo) : Prop := info.version = 0 ∧ info.connectedPeers = []

variable {s₁ s₂ s₃ s' : SyncedRouteInfo} {α : Type*}

structure SameRoutes (s s' : SyncedRouteInfo) : Prop where
  infos : s'.peerInfos = s.peerInfos
  conns : s'.connMap = s.connMap
  foreign : s'.foreignNetwork = s.foreignNetwork

theorem Regrouped.sameRoutes (h : Regrouped s s') : SameRoutes s s' := by
  obtain ⟨_, _, rfl⟩ := h
  exact ⟨rfl, rfl, rfl⟩

structure RemovedBy (s s' : SyncedRouteInfo) : Prop where
  infos : ∀ p, Removed (s.peerInfos.get p) (s'.peerInfos.get p)
  conns : ∀ p, Removed (s.connMap.get p) (s'.connMap.get p)
  foreign : ∀ k, Removed (s.foreignNetwork.get k) (s'.foreignNetwork.get k)

theorem SameRoutes.removedBy (h₁ : SameRoutes s₁ s₂) (h₂ : RemovedBy s₂ s₃) : RemovedBy s₁ s₃ :=
  ⟨fun p => h₁.infos ▸ h₂.infos p, fun p => h₁.conns ▸ h₂.conns p,
    fun k => h₁.foreign ▸ h₂.foreign k⟩

theorem removed_retain {κ : Type*} [DecidableEq κ] {m : OrderedMap κ α} {keep : κ → Bool} (k : κ) :
    Removed (m.get k) ((m.retain keep).get k) := by
  rw [get_retain]
  split_ifs
  · exact .inl rfl
  · exact .inr rfl

theorem removedBy_removePeers (peerIds : List PeerId) : RemovedBy s (s.removePeers peerIds) := by
  unfold removePeers
  split_ifs
  · exact ⟨fun _ => .refl _, fun _ => .refl _, fun _ => .refl _⟩
  · exact ⟨removed_retain, removed_retain, removed_retain⟩

theorem removedBy_refreshedIf {env : RouteEnv} (isPeerActive : PeerId → Bool) (received : Bool) :
    RemovedBy s (s.refreshedIf env isPeerActive received) := by
  unfold refreshedIf
  split_ifs
  · simp only [verifyAndUpdateCredentialTrustsWithActivePeers]
    generalize s.collectTrustedCredentials _ = collected
    generalize s.collectNonReusableCredentialOwners collected.allTrusted isPeerActive = owners
    have hsame := (regrouped_updateCredentialGroups collected.allTrusted
      ((s.replaceTrustedCredentialPubkeys collected.allTrusted).replaceNonReusableCredentialOwners
        owners.1)).sameRoutes
    exact SameRoutes.removedBy ⟨hsame.infos, hsame.conns, hsame.foreign⟩ (removedBy_removePeers _)
  · exact ⟨fun _ => .refl _, fun _ => .refl _, fun _ => .refl _⟩

end SyncedRouteInfo

open SyncedRouteInfo

namespace RouteService

variable {env : RouteEnv} {svc svc' : RouteService} {sender : Sender} {w w' : Working}
  {credential : TrustedCredentialPubkey}

structure Restricted (env : RouteEnv) (credential : TrustedCredentialPubkey) (info : RoutePeerInfo) :
    Prop where
  marked : isCredentialPeerInfo info = true
  cidrs : ∀ cidr ∈ info.proxyCidrs, CidrAllowed env.parseCidr credential.allowedProxyCidrs cidr

theorem restricted_restrictToCredential (info : RoutePeerInfo) (nowMs : ℕ) :
    Restricted env credential
      { restrictToCredential env.parseCidr credential info with lastUpdate := some nowMs } := by
  refine ⟨rfl, fun cidr hcidr => ?_⟩
  simp only [restrictToCredential, markCredentialPeer] at hcidr
  split_ifs at hcidr
  · exact cidrAllowed_of_any (mem_filter.1 hcidr).2
  · cases hcidr

/-- **What a request may change in the name of a credential peer.** -/
structure CredentialFrame (env : RouteEnv) (svc svc' : RouteService) (peerId : PeerId) : Prop where
  /-- only the peer's own description is inserted or replaced, restricted to its credential -/
  infos : ∀ p, Kept IsPlaceholder (svc.synced.peerInfos.get p) (svc'.synced.peerInfos.get p) ∨
    p = peerId ∧ ∃ credential ∈ svc.credentialInfo env peerId,
      ∃ info ∈ svc'.synced.peerInfos.get p, Restricted env credential info
  /-- connections change only if the credential allows to relay -/
  conns : ∀ p, Kept IsConnPlaceholder (svc.synced.connMap.get p) (svc'.synced.connMap.get p) ∨
    ∃ credential ∈ svc.credentialInfo env peerId, credential.allowRelay = true
  /-- foreign networks do not change -/
  foreign : ∀ k, Removed (svc.synced.foreignNetwork.get k) (svc'.synced.foreignNetwork.get k)

structure OwnStored (env : RouteEnv) (credential : TrustedCredentialPubkey) (peerId : PeerId)
    (s s' : SyncedRouteInfo) : Prop where
  infos : ∀ p, s'.peerInfos.get p = s.peerInfos.get p ∨
    p = peerId ∧ ∃ info ∈ s'.peerInfos.get p, Restricted env credential info
  conns : s'.connMap = s.connMap
  foreign : s'.foreignNetwork = s.foreignNetwork

theorem OwnStored.refl (s : SyncedRouteInfo) : OwnStored env credential sender.peerId s s :=
  ⟨fun _ => .inl rfl, rfl, rfl⟩

variable {raws : Option (List RawPeerInfo)} {req : SyncRouteInfoRequest}

variable (hcred : sender.credential = some credential)
include hcred

theorem acceptedPeerInfos_of_credential {infos pi : List RoutePeerInfo} {rpi : List RawPeerInfo}
    (h : acceptedPeerInfos env sender infos raws = .returns (pi, rpi)) :
    ∀ info ∈ pi, ∃ given, given.peerId = sender.peerId ∧
      info = restrictToCredential env.parseCidr credential given := by
  obtain ⟨raws, -, h⟩ := bind_eq_returns_iff.1 h
  simp only [hcred] at h
  obtain ⟨found, hfound, h⟩ := bind_eq_returns_iff.1 h
  unfold extractCredentialPeerInfo at hfound
  split at hfound
  · cases hfound
    cases h
    exact nofun
  · next idx hidx =>
    obtain ⟨hlt, hid, -⟩ := findIdx?_eq_some_iff_getElem.1 hidx
    obtain ⟨given, hgiven, hfound⟩ := bind_eq_returns_iff.1 hfound
    obtain ⟨raw, -, hfound⟩ := bind_eq_returns_iff.1 hfound
    have hget : given = infos[idx] := by
      rw [index, getElem?_eq_getElem hlt] at hgiven
      exact (Outcome.returns.inj hgiven).symm
    cases hfound
    cases h
    intro info hinfo
    rw [mem_singleton] at hinfo
    exact ⟨given, hget ▸ beq_iff_eq.1 hid, hinfo⟩

theorem ownStored_receivePeerInfos {infos : Option (List RoutePeerInfo)}
    {result : Except SyncRouteInfoError Bool}
    (h : svc.receivePeerInfos env sender infos raws w = .returns (result, w')) :
    OwnStored env credential sender.peerId w.synced w'.synced := by
  unfold receivePeerInfos at h
  cases infos with
  | none =>
    cases h
    exact .refl _
  | some infos =>
    obtain ⟨⟨pi, rpi⟩, haccepted, h⟩ := bind_eq_returns_iff.1 h
    have hown := acceptedPeerInfos_of_credential hcred haccepted
    simp only at h
    split_ifs at h with hempty
    · cases h
      exact .refl _
    · obtain ⟨⟨updated, synced⟩, hupdate, h⟩ := bind_eq_returns_iff.1 h
      have hsynced : OwnStored env credential sender.peerId w.synced synced := by
        obtain ⟨merged, _, _, hsub, -, rfl⟩ := updatePeerInfosFrom_merged hupdate
        refine ⟨fun p => (get_foldl_mergeInfo env.nowMs merged w.synced.peerInfos p).imp_right ?_,
          rfl, rfl⟩
        rintro ⟨info, hmem, hid, hget⟩
        obtain ⟨given, hgiven, rfl⟩ := hown info (hsub hmem)
        exact ⟨hid.symm.trans hgiven, _, hget, restricted_restrictToCredential given _⟩
      cases updated with
      | error e =>
        cases h
        exact hsynced
      | ok _ =>
        cases h
        have hgroups := (regrouped_verifyAndUpdateGroupTrusts env.verifyGroup
          env.aclGroupDeclarations true pi synced).sameRoutes
        exact ⟨fun p => by rw [hgroups.infos]; exact hsynced.infos p,
          hgroups.conns.trans hsynced.conns, hgroups.foreign.trans hsynced.foreign⟩

omit hcred

/-- **A sender that is known as a credential peer changes no more than it may.** -/
theorem credentialFrame_doSyncRouteInfo
    {result : Except SyncRouteInfoError (SyncRouteInfoResponse × SyncEffects)}
    (hidentity : env.isCredential req.myPeerId = true)
    (h : svc.doSyncRouteInfo env req raws = .returns (result, svc')) :
    CredentialFrame env svc svc' req.myPeerId := by
  unfold doSyncRouteInfo senderOf at h
  rw [if_pos hidentity] at h
  cases hcred : svc.credentialInfo env req.myPeerId with
  | none =>
    rw [hcred] at h
    cases h
    exact ⟨fun _ => .inl (.inl rfl), fun _ => .inl (.inl rfl), fun _ => .refl _⟩
  | some credential =>
    simp only [hcred, map_some] at h
    obtain ⟨⟨received, w₁⟩, hinfos, h⟩ := bind_eq_returns_iff.1 h
    have hown := ownStored_receivePeerInfos rfl hinfos
    cases received with
    | error e =>
      cases h
      exact ⟨fun p => (hown.infos p).imp .inl fun ⟨hp, hinfo⟩ => ⟨hp, credential, hcred, hinfo⟩,
        fun p => .inl (.inl (by rw [← hown.conns]; rfl)),
        fun k => .inl (by rw [← hown.foreign]; rfl)⟩
    | ok received =>
      obtain ⟨⟨conns, w₂⟩, hconns, h⟩ := bind_eq_returns_iff.1 h
      obtain ⟨hfilled, hrelay⟩ : Fills env.nowMs w₁.synced w₂.synced ∧
          (w₂.synced.connMap = w₁.synced.connMap ∨ credential.allowRelay = true) := by
        obtain ⟨-, hsame⟩ | ⟨-, hrelay, hfills⟩ := receiveConnInfo_cases hconns
        · exact ⟨hsame ▸ .refl _, .inl (by rw [hsame])⟩
        · exact ⟨hfills, .inr hrelay⟩
      obtain ⟨⟨response, svc''⟩, hfinish, h⟩ := bind_eq_returns_iff.1 h
      have hremoved : RemovedBy w₂.synced svc''.synced := by
        obtain ⟨-, isPeerActive, foreign, hsynced, hforeign⟩ := finishSync_synced hfinish
        rw [hsynced, hforeign rfl]
        exact removedBy_refreshedIf isPeerActive _
      cases h
      refine ⟨fun p => ?_, fun p => ?_, fun k => ?_⟩
      · obtain hsame | ⟨hp, info, hinfo, hrestricted⟩ := hown.infos p
        · exact .inl (Filled.kept_removed (a := placeholder env.nowMs) rfl
            (hsame ▸ hfilled.infos p) (hremoved.infos p))
        · -- the peer's own description is not filled, and may be removed
          have hfill := (hfilled.infos p).resolve_right fun hnone => by
            rw [mem_def.1 hinfo] at hnone
            cases hnone.1
          obtain hkeep | hgone := hremoved.infos p
          · exact .inr ⟨hp, credential, hcred, info, hkeep.trans (hfill.trans hinfo), hrestricted⟩
          · exact .inl (.inr (.inl hgone))
      · obtain hsame | hallowed := hrelay
        · refine .inl ((hremoved.conns p).imp (fun hkeep => ?_) .inl)
          rw [hkeep, hsame, hown.conns]
        · exact .inr ⟨credential, hcred, hallowed⟩
      · refine (hremoved.foreign k).imp (fun hkeep => ?_) id
        rw [hkeep, hfilled.foreign, hown.foreign]

def announceNetwork (peerId : PeerId) (networkName : String) : SyncRouteInfoRequest where
  myPeerId := peerId
  mySessionId := 0
  isInitiator := false
  peerInfos := none
  connInfo := none
  foreignNetworkInfos := some [⟨some ⟨peerId, networkName⟩, some ⟨[], none, 1, peerId⟩⟩]

theorem foreign_announceNetwork {peerId : PeerId} (hidentity : env.isCredential peerId = false)
    {networkName : String} (hfree : svc.synced.foreignNetwork.get ⟨peerId, networkName⟩ = none) :
    ∃ result svc', svc.doSyncRouteInfo env (announceNetwork peerId networkName) none =
        .returns (result, svc') ∧ svc'.synced.foreignNetwork.get ⟨peerId, networkName⟩ =
        some ⟨[], some env.nowMs, 1, peerId⟩ := by
  have hsender : svc.senderOf env peerId = some ⟨peerId, none⟩ := by
    rw [senderOf, if_neg (by rw [hidentity]; exact Bool.false_ne_true)]
  have hget : (svc.store peerId ⟨svc.synced, svc.openSession env peerId 0⟩).synced.foreignNetwork.get
      ⟨peerId, networkName⟩ = none := hfree
  simp only [doSyncRouteInfo, announceNetwork, hsender, syncFrom, receivePeerInfos, receiveConnInfo,
    finishSync, receiveForeignNetwork, updateForeignNetwork, updateForeignNetworkItem,
    SyncRouteSession.updateDstSavedForeignNetworkVersion, SyncRouteSession.savedForeignVersions,
    unwrap, pure_eq, returns_bind, Bool.or_self, Bool.false_eq_true,
    if_false, if_true, isSome_none, foldl_cons, foldl_nil, hget]
  exact ⟨_, _, rfl, get_insert_self⟩

def networkNames (n : ℕ) : String := String.ofList (List.replicate n 'a')

theorem networkNames_injective : networkNames.Injective := by
  intro m n h
  have hlist := congrArg (fun s => s.toList.length) h
  simpa [networkNames] using hlist

/-- **What a credential peer can change.**  A request whose id is the peer's own and is looked up as
that of a credential peer changes no more than it may.  Any other id can be used to change more, in
every state of the service. -/
theorem credential_routes (env : RouteEnv) (svc : RouteService) (peerId : PeerId) :
    (∀ req raws result svc', req.myPeerId = peerId → env.isCredential req.myPeerId = true →
      svc.doSyncRouteInfo env req raws = .returns (result, svc') →
        CredentialFrame env svc svc' peerId) ∧
    ∀ claimed, env.isCredential claimed = false → ∃ req result svc', req.myPeerId = claimed ∧
      svc.doSyncRouteInfo env req none = .returns (result, svc') ∧
        ¬ CredentialFrame env svc svc' peerId := by
  constructor
  · rintro req raws result svc' rfl hidentity h
    exact credentialFrame_doSyncRouteInfo hidentity h
  · intro claimed hidentity
    have hinj : (fun n => (⟨claimed, networkNames n⟩ : ForeignNetworkRouteInfoKey)).Injective := by
      intro m n h
      exact networkNames_injective (ForeignNetworkRouteInfoKey.mk.inj h).2
    obtain ⟨n, hfree⟩ := exists_get_eq_none _ hinj svc.synced.foreignNetwork
    obtain ⟨result, svc', h, hget⟩ := foreign_announceNetwork hidentity hfree
    refine ⟨announceNetwork claimed (networkNames n), result, svc', rfl, h, fun hframe => ?_⟩
    obtain hsame | hgone := hframe.foreign ⟨claimed, networkNames n⟩
    · rw [hget, hfree] at hsame
      cases hsame
    · rw [hget] at hgone
      cases hgone

def guestEnv : RouteEnv :=
  { quietEnv with
    getPeerIdentityType := fun p => if p = 2 then some .credential else none
    getPeerPublicKey := fun p => if p = 2 then some [2] else none }

def guestService : RouteService :=
  { quietService with
    synced :=
      { quietService.synced with
        peerInfos := quietService.synced.peerInfos.insert 3
          { describe 3 1 9 with
            trustedCredentialPubkeys := [⟨some ⟨[2], [], false, 100, [], none⟩⟩] }
        trustedCredentialPubkeys := empty.insert [2] ⟨[2], [], false, 100, [], none⟩ } }

def rewriteRequest (claimed : PeerId) : SyncRouteInfoRequest :=
  { announceNetwork claimed "net" with
    peerInfos := some [{ describe 2 1 4 with proxyCidrs := ["10.0.0.0/8"] }, describe 3 2 9]
    connInfo := some (.connPeerList [⟨some ⟨3, 5⟩, []⟩]) }

def rewriteRaws : List RawPeerInfo :=
  [⟨{ describe 2 1 4 with proxyCidrs := ["10.0.0.0/8"] }, []⟩, ⟨describe 3 2 9, []⟩]

/-- **A credential peer that names an unknown id is an administrator**: it replaces what another
peer has announced and announces a foreign network. -/
theorem credential_peer_rewrites_routes :
    guestEnv.getPeerIdentityTypeFromInterface 2 = some .credential ∧
      ∃ result svc', guestService.doSyncRouteInfo guestEnv (rewriteRequest 9) (some rewriteRaws) =
          .returns (.ok result, svc') ∧
        svc'.synced.peerInfos.get 3 = some { describe 3 2 9 with lastUpdate := some 1000 } ∧
        svc'.synced.connMap.get 3 = some ⟨[], 5, 1000⟩ ∧
        svc'.synced.foreignNetwork.get ⟨9, "net"⟩ = some ⟨[], some 1000, 1, 9⟩ ∧
        ¬ CredentialFrame guestEnv guestService svc' 2 := by
  refine ⟨rfl, _, _, rfl, by decide +kernel, by decide +kernel, by decide +kernel, fun h => ?_⟩
  obtain hsame | hgone := h.foreign ⟨9, "net"⟩
  · exact absurd hsame (by decide +kernel)
  · exact absurd hgone (by decide +kernel)

/-- The same request under the peer's own id. -/
theorem credential_peer_own_request :
    guestEnv.isCredential 2 = true ∧
      ∃ result svc', guestService.doSyncRouteInfo guestEnv (rewriteRequest 2) (some rewriteRaws) =
          .returns (.ok result, svc') ∧ CredentialFrame guestEnv guestService svc' 2 ∧
        svc'.synced.peerInfos.get 3 = guestService.synced.peerInfos.get 3 :=
  ⟨rfl, _, _, rfl, (credential_routes guestEnv guestService 2).1 (rewriteRequest 2)
    (some rewriteRaws) _ _ rfl rfl rfl, by decide +kernel⟩

end RouteService

end PactMesh
