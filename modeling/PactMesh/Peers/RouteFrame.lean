import PactMesh.Peers.RouteTotality

/-!
# What the operations on the route table leave alone

Each operation writes a few parts of the table.  Groups are written to two maps, descriptions are
merged one after another, and a merge of connections is made of three kinds of steps.
-/

namespace PactMesh

open Outcome List

namespace SyncedRouteInfo

variable {s s' : SyncedRouteInfo} {nowMs : ℕ} {peerId : PeerId}

/-- `s'` is `s` with other groups. -/
def Regrouped (s s' : SyncedRouteInfo) : Prop :=
  ∃ groups cache, s' = { s with groupTrustMap := groups, groupTrustMapCache := cache }

theorem Regrouped.trans {s₁ s₂ s₃ : SyncedRouteInfo} (h₁ : Regrouped s₁ s₂)
    (h₂ : Regrouped s₂ s₃) : Regrouped s₁ s₃ := by
  obtain ⟨_, _, rfl⟩ := h₁
  obtain ⟨groups, cache, rfl⟩ := h₂
  exact ⟨groups, cache, rfl⟩

theorem regrouped_setPeerGroups (s : SyncedRouteInfo) (peerId : PeerId)
    (groups : OrderedMap String (List UInt8)) : Regrouped s (s.setPeerGroups peerId groups) := by
  unfold setPeerGroups
  split_ifs <;> exact ⟨_, _, rfl⟩

theorem regrouped_foldl {α : Type*} {f : SyncedRouteInfo → α → SyncedRouteInfo}
    (hf : ∀ s a, Regrouped s (f s a)) (l : List α) (s : SyncedRouteInfo) :
    Regrouped s (l.foldl f s) :=
  List.foldlRecOn (motive := Regrouped s) l f ⟨_, _, rfl⟩ fun s' h a _ => h.trans (hf s' a)

theorem regrouped_verifyAndUpdateGroupTrusts (verify : PeerGroupInfo → String → PeerId → Bool)
    (declared : List GroupIdentity) (trust : Bool) (infos : List RoutePeerInfo)
    (s : SyncedRouteInfo) :
    Regrouped s (s.verifyAndUpdateGroupTrusts verify infos declared trust) := by
  refine regrouped_foldl (fun s info => ?_) infos s
  unfold setVerifiedGroups
  split_ifs
  · exact ⟨_, _, rfl⟩
  · exact regrouped_setPeerGroups _ _ _

theorem regrouped_updateCredentialGroups
    (allTrusted : TrustedKeyMap) (s : SyncedRouteInfo) :
    Regrouped s (s.updateCredentialGroups allTrusted) := by
  refine regrouped_foldl (fun s e => ?_) s.peerInfos.entries s
  unfold addCredentialGroups
  split_ifs
  · exact ⟨_, _, rfl⟩
  · split
    · exact ⟨_, _, rfl⟩
    · exact regrouped_setPeerGroups _ _ _

section Infos

variable {m : PeerInfoMap} {infos : List RoutePeerInfo}

theorem get_mergeInfo (info : RoutePeerInfo) (peerId : PeerId) :
    (mergeInfo nowMs m info).get peerId =
      if info.peerId = peerId then
        if (m.get peerId).all fun old => decide (old.version < info.version) then
          some { info with lastUpdate := some nowMs }
        else m.get peerId
      else m.get peerId := by
  unfold mergeInfo
  by_cases hp : info.peerId = peerId
  · subst hp
    rw [if_pos rfl]
    split_ifs <;> simp
  · rw [if_neg hp]
    split_ifs
    · exact OrderedMap.get_insert_of_ne (Ne.symm hp)
    · rfl

theorem get_foldl_mergeInfo (nowMs : ℕ) (infos : List RoutePeerInfo)
    (m : PeerInfoMap) (peerId : PeerId) :
    (infos.foldl (mergeInfo nowMs) m).get peerId = m.get peerId ∨
      ∃ info ∈ infos, info.peerId = peerId ∧
        (infos.foldl (mergeInfo nowMs) m).get peerId = some { info with lastUpdate := some nowMs } := by
  induction infos generalizing m with
  | nil => exact .inl rfl
  | cons info infos ih =>
    rw [foldl_cons]
    rcases ih (mergeInfo nowMs m info) with hold | ⟨i, hi, heq⟩
    · rw [hold, get_mergeInfo]
      split_ifs with hp
      · exact .inr ⟨info, mem_cons_self, hp, rfl⟩
      · exact .inl rfl
      · exact .inl rfl
    · exact .inr ⟨i, mem_cons_of_mem _ hi, heq⟩

theorem origin_of_stored {stored : RoutePeerInfo}
    (h : (infos.foldl (mergeInfo nowMs) m).get peerId = some stored) :
    m.get peerId = some stored ∨ ∃ info ∈ infos, info.peerId = peerId ∧
      stored = { info with lastUpdate := some nowMs } := by
  rcases get_foldl_mergeInfo nowMs infos m peerId with hold | ⟨info, hi, hp, heq⟩
  · exact .inl (hold.symm.trans h)
  · exact .inr ⟨info, hi, hp, Option.some.inj (h.symm.trans heq)⟩

/-- **What a merge of descriptions writes**: those before the one it stops at, if it stops. -/
theorem updatePeerInfosFrom_merged {myPeerId dstPeerId : PeerId} {myPeerRouteId : UInt64}
    {raws : List RawPeerInfo} {idx : ℕ} {changed : Bool} {r : Except SyncRouteInfoError Unit}
    (h : updatePeerInfosFrom nowMs myPeerId myPeerRouteId dstPeerId raws infos idx changed s =
      .returns (r, s')) :
    ∃ merged raws' version, merged ⊆ infos ∧ (r = .ok () → merged = infos) ∧ s' = { s with
        peerInfos := merged.foldl (mergeInfo nowMs) s.peerInfos
        rawPeerInfos := raws'
        version := version } := by
  induction infos generalizing idx changed s with
  | nil =>
    cases h
    cases changed <;> exact ⟨[], _, _, nil_subset _, fun _ => rfl, rfl⟩
  | cons info infos ih =>
    obtain ⟨raw, -, h⟩ := bind_eq_returns_iff.1 h
    obtain ⟨checked, -, h⟩ := bind_eq_returns_iff.1 h
    cases checked with
    | error e =>
      cases h
      exact ⟨[], _, _, nil_subset _, nofun, rfl⟩
    | ok u =>
      obtain ⟨-, -, h⟩ := bind_eq_returns_iff.1 h
      split_ifs at h with hnew
      all_goals
        obtain ⟨merged, raws', version, hsub, hall, rfl⟩ := ih h
        refine ⟨info :: merged, raws', version, cons_subset_cons _ hsub,
          fun hr => by rw [hall hr], ?_⟩
        rw [foldl_cons, mergeInfo_eq info raw]
      · rw [if_pos hnew]
        rfl
      · rw [if_neg hnew]

end Infos

/-- A relation that filling in placeholders keeps to. -/
structure FillRule (nowMs : ℕ) (R : SyncedRouteInfo → SyncedRouteInfo → Prop) : Prop where
  refl : ∀ s, R s s
  trans : ∀ {s₁ s₂ s₃}, R s₁ s₂ → R s₂ s₃ → R s₁ s₃
  incVersion : ∀ s, R s s.incVersion
  fillOne : ∀ s peerId, R s (fillOne nowMs s peerId)

/-- A relation that every step of a merge of connections keeps to. -/
structure ConnRule (nowMs : ℕ) (R : SyncedRouteInfo → SyncedRouteInfo → Prop) : Prop
    extends FillRule nowMs R where
  insertConn : ∀ s peerId conn, R s { s with connMap := s.connMap.insert peerId conn }

section Rule

variable {R : SyncedRouteInfo → SyncedRouteInfo → Prop}

theorem FillRule.incVersionIf (hR : FillRule nowMs R) (s : SyncedRouteInfo) (changed : Bool) :
    R s (s.incVersionIf changed) := by
  cases changed with
  | false => exact hR.refl s
  | true => exact hR.incVersion s

theorem FillRule.fillEmptyPeerInfo (hR : FillRule nowMs R) (s : SyncedRouteInfo)
    (peerIds : List PeerId) : R s (s.fillEmptyPeerInfo nowMs peerIds) := by
  refine hR.trans ?_ (hR.incVersionIf _ _)
  exact List.foldlRecOn (motive := R s) peerIds _ (hR.refl s)
    fun s' h peerId _ => hR.trans h (hR.fillOne s' peerId)

variable (hR : ConnRule nowMs R)
include hR

theorem ConnRule.updateOne (s : SyncedRouteInfo) (p : PeerIdVersion) (connected : List PeerId) :
    R s ((s.fillEmptyPeerInfo nowMs connected).updateConnInfoOnePeer nowMs p connected).2 := by
  refine hR.trans (hR.fillEmptyPeerInfo s connected) ?_
  simp only [updateConnInfoOnePeer]
  split_ifs
  · exact hR.insertConn _ _ _
  · exact hR.refl _

theorem ConnRule.updateConnInfoFrom {b : RouteConnBitmap} {ps : List PeerIdVersion} {peerIdx : ℕ}
    {changed : Bool} (h : updateConnInfoFrom nowMs b ps peerIdx changed s = .returns s') :
    R s s' := by
  induction ps generalizing peerIdx changed s with
  | nil =>
    cases h
    exact hR.incVersionIf _ _
  | cons p ps ih =>
    obtain ⟨connected, -, h⟩ := bind_eq_returns_iff.1 h
    exact hR.trans (hR.updateOne s p connected) (ih h)

/-- **A merge of connections keeps to what its steps keep to.** -/
theorem ConnRule.updateConnInfo {connInfo : ConnInfo}
    (h : s.updateConnInfo nowMs connInfo = .returns s') : R s s' := by
  cases connInfo with
  | connBitmap b => exact hR.trans (hR.fillEmptyPeerInfo s _) (hR.updateConnInfoFrom h)
  | connPeerList entries =>
    cases h
    refine hR.trans ?_ (hR.incVersionIf _ _)
    refine List.foldlRecOn (motive := fun acc : Bool × SyncedRouteInfo => R s acc.2) entries _
      (hR.refl s) fun acc h entry _ => ?_
    unfold updateConnInfoWithEntry
    cases entry.peerId with
    | none => exact h
    | some p => exact hR.trans h (hR.updateOne acc.2 p _)

end Rule

/-- The value stands where nothing stood, or nothing has changed. -/
def Filled {α : Type*} (a : α) (old new : Option α) : Prop := new = old ∨ old = none ∧ new = some a

theorem Filled.trans {α : Type*} {a : α} {old mid new : Option α} (h₁ : Filled a old mid)
    (h₂ : Filled a mid new) : Filled a old new := by
  obtain rfl | ⟨rfl, rfl⟩ := h₁
  · exact h₂
  · obtain rfl | ⟨hnone, -⟩ := h₂
    · exact .inr ⟨rfl, rfl⟩
    · cases hnone

/-- `s'` is `s` with other connections, and with placeholders for some peers that had no
description. -/
structure Fills (nowMs : ℕ) (s s' : SyncedRouteInfo) : Prop where
  groups : s'.groupTrustMap = s.groupTrustMap
  trusted : s'.trustedCredentialPubkeys = s.trustedCredentialPubkeys
  foreign : s'.foreignNetwork = s.foreignNetwork
  infos : ∀ p, Filled (placeholder nowMs) (s.peerInfos.get p) (s'.peerInfos.get p)

theorem Fills.refl (s : SyncedRouteInfo) : Fills nowMs s s := ⟨rfl, rfl, rfl, fun _ => .inl rfl⟩

theorem Fills.trans {s₁ s₂ s₃ : SyncedRouteInfo} (h : Fills nowMs s₁ s₂) (h' : Fills nowMs s₂ s₃) :
    Fills nowMs s₁ s₃ :=
  ⟨h'.groups.trans h.groups, h'.trusted.trans h.trusted, h'.foreign.trans h.foreign,
    fun p => (h.infos p).trans (h'.infos p)⟩

theorem fills_fillOne (s : SyncedRouteInfo) (peerId : PeerId) :
    Fills nowMs s (fillOne nowMs s peerId) := by
  refine ⟨rfl, rfl, rfl, fun p => ?_⟩
  rw [fillOne, OrderedMap.get_orInsert]
  cases s.peerInfos.get p with
  | some info => exact .inl rfl
  | none =>
    split_ifs
    · exact .inr ⟨rfl, rfl⟩
    · exact .inl rfl

theorem fills_updateConnInfo {connInfo : ConnInfo}
    (h : s.updateConnInfo nowMs connInfo = .returns s') : Fills nowMs s s' :=
  ConnRule.updateConnInfo
    { refl := .refl
      trans := .trans
      incVersion := fun _ => ⟨rfl, rfl, rfl, fun _ => .inl rfl⟩
      fillOne := fills_fillOne
      insertConn := fun _ _ _ => ⟨rfl, rfl, rfl, fun _ => .inl rfl⟩ } h

theorem updateForeignNetwork_eq (nowMs : ℕ) (infos : List ForeignNetworkInfo)
    (s : SyncedRouteInfo) : ∃ foreignNetwork,
      (s.updateForeignNetwork nowMs infos).2 = { s with foreignNetwork := foreignNetwork } := by
  refine List.foldlRecOn (motive := fun acc : Bool × SyncedRouteInfo => ∃ foreignNetwork,
    acc.2 = { s with foreignNetwork := foreignNetwork }) infos _ ⟨_, rfl⟩ ?_
  rintro ⟨changed, _⟩ ⟨foreignNetwork, rfl⟩ item _
  unfold updateForeignNetworkItem
  split
  · dsimp only
    split_ifs <;> exact ⟨_, rfl⟩
  · exact ⟨_, rfl⟩

/-- `refresh_credential_trusts_with_current_topology` on the table, if anything was received. -/
def refreshedIf (env : RouteEnv) (isPeerActive : PeerId → Bool) (received : Bool)
    (s : SyncedRouteInfo) : SyncedRouteInfo :=
  if received then
    (s.verifyAndUpdateCredentialTrustsWithActivePeers (env.nowMs / 1000 : ℕ) isPeerActive).2.2
  else s

end SyncedRouteInfo

namespace RouteService

open SyncedRouteInfo

variable {env : RouteEnv} {svc svc' : RouteService} {sender : Sender} {w w' : Working}
  {received : Bool}

theorem receiveConnInfo_cases {connInfo : Option ConnInfo}
    (h : receiveConnInfo env sender connInfo w = .returns (received, w')) :
    received = false ∧ w'.synced = w.synced ∨ received = true ∧
      sender.credential.all (·.allowRelay) = true ∧ Fills env.nowMs w.synced w'.synced := by
  unfold receiveConnInfo at h
  cases connInfo with
  | none =>
    cases h
    exact .inl ⟨rfl, rfl⟩
  | some connInfo =>
    dsimp only at h
    split_ifs at h with hrelay
    · obtain ⟨synced, hsynced, h⟩ := bind_eq_returns_iff.1 h
      cases h
      exact .inr ⟨rfl, hrelay, fills_updateConnInfo hsynced⟩
    · cases h
      exact .inl ⟨rfl, rfl⟩

/-- The rest of a request refreshes the trusted credentials and writes foreign networks, but not for
a credential peer. -/
theorem finishSync_synced {req : SyncRouteInfoRequest}
    {response : SyncRouteInfoResponse × SyncEffects}
    (h : svc.finishSync env sender req received w = .returns (response, svc')) :
    svc'.myPeerId = svc.myPeerId ∧ ∃ isPeerActive foreign,
      svc'.synced = { w.synced.refreshedIf env isPeerActive received with
        foreignNetwork := foreign } ∧ (sender.credential.isSome = true →
          foreign = (w.synced.refreshedIf env isPeerActive received).foreignNetwork) := by
  have hforeign : ∀ {w₁ w₂ : Working} {changed},
      receiveForeignNetwork env sender req.foreignNetworkInfos w₁ = .returns (changed, w₂) →
      ∃ foreign, w₂.synced = { w₁.synced with foreignNetwork := foreign } ∧
        (sender.credential.isSome = true → foreign = w₁.synced.foreignNetwork) := by
    intro w₁ w₂ changed h
    unfold receiveForeignNetwork at h
    split at h
    · cases h
      exact ⟨_, rfl, fun _ => rfl⟩
    · split_ifs at h with hcred
      · cases h
        exact ⟨_, rfl, fun _ => rfl⟩
      · obtain ⟨session, -, h⟩ := bind_eq_returns_iff.1 h
        cases h
        obtain ⟨foreign, heq⟩ := updateForeignNetwork_eq _ _ w₁.synced
        exact ⟨foreign, heq, fun h => absurd h hcred⟩
  unfold finishSync at h
  cases received with
  | true =>
    obtain ⟨⟨changed, w₁⟩, hw₁, h⟩ := bind_eq_returns_iff.1 h
    cases h
    exact ⟨rfl, _, hforeign hw₁⟩
  | false =>
    obtain ⟨⟨changed, w₁⟩, hw₁, h⟩ := bind_eq_returns_iff.1 h
    cases h
    exact ⟨rfl, fun _ => true, hforeign hw₁⟩

end RouteService

end PactMesh
