import PactMesh.Peers.RouteSync

/-!
# Which route requests are served without a panic

The lengths and optional parts of a request are chosen by its sender.  Three places rely on them:

* a bitmap of connections is indexed for every pair of the listed peers, whatever its length;
* a foreign network without key, or without value, is unwrapped although the merge passes it over;
* a newer description of this node under another route id is answered with a panic.

Main result: `route_sync_total`.
-/

namespace PactMesh

open Outcome SyncedRouteInfo SyncRouteSession

namespace RouteConnBitmap

variable {b : RouteConnBitmap}

def Covers (b : RouteConnBitmap) : Prop := b.peerIds.length * b.peerIds.length ≤ 8 * b.bitmap.length

instance : Decidable b.Covers := inferInstanceAs (Decidable (_ ≤ _))

theorem returns_getBit_iff (b : RouteConnBitmap) (idx : ℕ) :
    (b.getBit idx).Returns ↔ idx / 8 < b.bitmap.length := by
  rw [getBit, index]
  by_cases h : idx / 8 < b.bitmap.length <;> simp [h]

theorem returns_connectedFrom_iff (b : RouteConnBitmap) (peerIdx : ℕ) (ps : List PeerIdVersion)
    (idx : ℕ) :
    (b.connectedFrom peerIdx ps idx).Returns ↔
      ∀ i < ps.length, (peerIdx * b.peerIds.length + (idx + i)) / 8 < b.bitmap.length := by
  induction ps generalizing idx with
  | nil => simp [connectedFrom]
  | cons p ps ih =>
    refine (returns_bind_iff_and fun _ =>
      (returns_bind_iff_left fun _ => returns_returns _).trans (ih _)).trans ?_
    rw [returns_getBit_iff, List.length_cons, Nat.forall_lt_succ_left']
    simp only [Nat.add_zero, Nat.add_comm 1, Nat.add_assoc]

theorem returns_getConnectedPeers_iff {peerIdx : ℕ} :
    (b.getConnectedPeers peerIdx).Returns ↔
      ∀ j < b.peerIds.length, (peerIdx * b.peerIds.length + j) / 8 < b.bitmap.length := by
  have h := returns_connectedFrom_iff b peerIdx b.peerIds 0
  simp only [Nat.zero_add] at h
  rw [← h]
  exact returns_bind_iff_left fun _ => returns_returns _

theorem bit_lt {n i j : ℕ} (hi : i < n) (hj : j < n) : i * n + j < n * n := by
  calc i * n + j < i * n + n := by omega
    _ = (i + 1) * n := by rw [Nat.add_mul, Nat.one_mul]
    _ ≤ n * n := Nat.mul_le_mul_right _ hi

theorem covers_iff : b.Covers ↔ ∀ i < b.peerIds.length, (b.getConnectedPeers i).Returns := by
  simp only [returns_getConnectedPeers_iff]
  constructor
  · intro h i hi j hj
    have hbit := bit_lt hi hj
    unfold Covers at h
    omega
  · intro h
    unfold Covers
    -- the last bit is in range
    cases hn : b.peerIds.length with
    | zero => omega
    | succ n =>
      have hlast := h n (by omega) n (by omega)
      rw [hn] at hlast
      have hsq : (n + 1) * (n + 1) = n * (n + 1) + n + 1 := by
        rw [Nat.add_mul, Nat.one_mul, Nat.add_assoc]
      omega

end RouteConnBitmap

namespace SyncedRouteInfo

variable {s : SyncedRouteInfo} {nowMs : ℕ}

theorem returns_updateConnInfoFrom_iff (nowMs : ℕ) (b : RouteConnBitmap) (ps : List PeerIdVersion)
    (peerIdx : ℕ) (changed : Bool) (s : SyncedRouteInfo) :
    (updateConnInfoFrom nowMs b ps peerIdx changed s).Returns ↔
      ∀ i < ps.length, (b.getConnectedPeers (peerIdx + i)).Returns := by
  induction ps generalizing peerIdx changed s with
  | nil => simp [updateConnInfoFrom]
  | cons p ps ih =>
    rw [updateConnInfoFrom, returns_bind_iff_and fun _ => ih _ _ _, List.length_cons,
      Nat.forall_lt_succ_left']
    simp only [Nat.add_zero, Nat.add_comm 1, Nat.add_assoc]

theorem returns_updateConnInfo_iff (s : SyncedRouteInfo) (nowMs : ℕ) (connInfo : ConnInfo) :
    (s.updateConnInfo nowMs connInfo).Returns ↔ ∀ b, connInfo = .connBitmap b → b.Covers := by
  cases connInfo with
  | connPeerList entries => simp [updateConnInfo]
  | connBitmap b =>
    have h := returns_updateConnInfoFrom_iff nowMs b b.peerIds 0 false
      (s.fillEmptyPeerInfo nowMs (peerSet (b.peerIds.map (·.peerId))))
    simp only [Nat.zero_add] at h
    rw [updateConnInfo, updateConnInfoWithBitmap, h, ← RouteConnBitmap.covers_iff]
    exact ⟨fun hb _ he => ConnInfo.connBitmap.inj he ▸ hb, fun hb => hb b rfl⟩

/-- Every description has a raw one of the same peer at its place. -/
def Aligned (infos : List RoutePeerInfo) (raws : List RawPeerInfo) : Prop :=
  ∀ (i : ℕ) (info : RoutePeerInfo), infos[i]? = some info →
    ∃ raw : RawPeerInfo, raws[i]? = some raw ∧ raw.known.peerId = info.peerId

theorem Aligned.cons {info : RoutePeerInfo} {infos : List RoutePeerInfo} {raws : List RawPeerInfo}
    {idx : ℕ} (h : Aligned (info :: infos) (raws.drop idx)) :
    (∃ raw, index raws idx = .returns raw ∧ raw.known.peerId = info.peerId) ∧
      Aligned infos (raws.drop (idx + 1)) := by
  constructor
  · obtain ⟨raw, hraw, hid⟩ := h 0 info rfl
    rw [List.getElem?_drop] at hraw
    exact ⟨raw, by rw [index, ← Nat.add_zero idx, hraw], hid⟩
  · intro i info hi
    have hraw := h (i + 1) info hi
    rwa [← List.drop_drop, List.getElem?_drop, Nat.add_comm 1]

def mergeInfo (nowMs : ℕ) (m : PeerInfoMap) (info : RoutePeerInfo) :
    PeerInfoMap :=
  if (m.get info.peerId).all fun old => decide (old.version < info.version) then
    m.insert info.peerId { info with lastUpdate := some nowMs }
  else m

def SelfDuplicate (myPeerId : PeerId) (myPeerRouteId : UInt64)
    (m : PeerInfoMap) (info : RoutePeerInfo) : Prop :=
  info.peerId = myPeerId ∧ info.peerRouteId ≠ myPeerRouteId ∧
    ((m.get info.peerId).map (·.version)).getD 0 < info.version

def SenderDuplicate (myPeerId dstPeerId : PeerId) (m : PeerInfoMap)
    (info : RoutePeerInfo) : Prop :=
  info.peerId ≠ myPeerId ∧ info.peerId = dstPeerId ∧
    ∃ old ∈ m.get dstPeerId, old.peerRouteId ≠ info.peerRouteId ∧ info.version < old.version

instance {myPeerId : PeerId} {myPeerRouteId : UInt64} {m : PeerInfoMap}
    {info : RoutePeerInfo} : Decidable (SelfDuplicate myPeerId myPeerRouteId m info) :=
  inferInstanceAs (Decidable (_ ∧ _ ∧ _))

instance {myPeerId dstPeerId : PeerId} {m : PeerInfoMap}
    {info : RoutePeerInfo} : Decidable (SenderDuplicate myPeerId dstPeerId m info) :=
  inferInstanceAs (Decidable (_ ∧ _ ∧ _))

def NoSelfDuplicate (nowMs : ℕ) (myPeerId : PeerId) (myPeerRouteId : UInt64) (dstPeerId : PeerId) :
    PeerInfoMap → List RoutePeerInfo → Prop
  | _, [] => True
  | m, info :: infos => ¬ SelfDuplicate myPeerId myPeerRouteId m info ∧
      (SenderDuplicate myPeerId dstPeerId m info ∨
        NoSelfDuplicate nowMs myPeerId myPeerRouteId dstPeerId (mergeInfo nowMs m info) infos)

def AllMerged (nowMs : ℕ) (myPeerId dstPeerId : PeerId) :
    PeerInfoMap → List RoutePeerInfo → Prop
  | _, [] => True
  | m, info :: infos => ¬ SenderDuplicate myPeerId dstPeerId m info ∧
      AllMerged nowMs myPeerId dstPeerId (mergeInfo nowMs m info) infos

/-- A merge of descriptions panics, takes them all, or stops at one. -/
def MergeEnds {α σ : Type} (noPanic merged : Prop)
    (result : Outcome (Except SyncRouteInfoError α × σ)) : Prop :=
  ¬ noPanic ∧ ¬ result.Returns ∨
    noPanic ∧ (merged ∧ (∃ a s', result = .returns (.ok a, s')) ∨
      ¬ merged ∧ ∃ s', result = .returns (.error .duplicatePeerId, s'))

variable {myPeerId dstPeerId : PeerId} {myPeerRouteId : UInt64}

theorem checkDuplicatePeerId_eq (info : RoutePeerInfo) :
    s.checkDuplicatePeerId myPeerId myPeerRouteId dstPeerId
        (if info.peerId = dstPeerId then (s.peerInfos.get dstPeerId).map (·.peerRouteId) else none)
        info =
      if SelfDuplicate myPeerId myPeerRouteId s.peerInfos info then .panics .explicitPanic
      else if SenderDuplicate myPeerId dstPeerId s.peerInfos info then
        .returns (.error .duplicatePeerId)
      else .returns (.ok ()) := by
  unfold checkDuplicatePeerId
  by_cases hme : info.peerId = myPeerId
  · have hsender : ¬ SenderDuplicate myPeerId dstPeerId s.peerInfos info := fun h => h.1 hme
    have hself : SelfDuplicate myPeerId myPeerRouteId s.peerInfos info ↔
        info.peerRouteId ≠ myPeerRouteId ∧
          s.getPeerInfoVersionWithDefault info.peerId < info.version := and_iff_right hme
    rw [if_pos hme, if_neg hsender, if_congr hself rfl rfl]
    by_cases hroute : info.peerRouteId = myPeerRouteId
    · simp [ensure, hroute]
    · by_cases hversion : s.getPeerInfoVersionWithDefault info.peerId < info.version <;>
        simp [ensure, hroute, hversion]
  · have hself : ¬ SelfDuplicate myPeerId myPeerRouteId s.peerInfos info := fun h => hme h.1
    rw [if_neg hme, if_neg hself]
    by_cases hdst : info.peerId = dstPeerId
    · rw [if_pos hdst, if_pos hdst]
      cases hold : s.peerInfos.get dstPeerId with
      | none =>
        have hsender : ¬ SenderDuplicate myPeerId dstPeerId s.peerInfos info := by
          rintro ⟨-, -, old, hmem, -⟩
          rw [hold] at hmem
          cases hmem
        rw [if_neg hsender]
        rfl
      | some old =>
        have hsender : SenderDuplicate myPeerId dstPeerId s.peerInfos info ↔
            old.peerRouteId ≠ info.peerRouteId ∧ info.version < old.version := by
          have hne : dstPeerId ≠ myPeerId := hdst ▸ hme
          simp [SenderDuplicate, hdst, hne, hold]
        simp only [Option.map_some, getPeerInfoVersionWithDefault, hdst, hold, Option.getD_some,
          hsender, Bool.and_eq_true, bne_iff_ne, decide_eq_true_eq, pure_eq]
    · have hsender : ¬ SenderDuplicate myPeerId dstPeerId s.peerInfos info := fun h => hdst h.2.1
      rw [if_neg hdst, if_neg hsender]
      rfl

theorem isNewPeerInfo_eq (info : RoutePeerInfo) : s.isNewPeerInfo info =
    (s.peerInfos.get info.peerId).all fun old => decide (old.version < info.version) := by
  rw [isNewPeerInfo]
  cases s.peerInfos.get info.peerId <;> rfl

theorem mergeInfo_eq (info : RoutePeerInfo) (raw : RawPeerInfo) :
    mergeInfo nowMs s.peerInfos info =
      (if s.isNewPeerInfo info then s.storePeerInfo nowMs info raw else s).peerInfos := by
  rw [mergeInfo, ← isNewPeerInfo_eq]
  split_ifs <;> rfl

theorem updatePeerInfosFrom_cases (nowMs : ℕ) (myPeerId : PeerId) (myPeerRouteId : UInt64)
    (dstPeerId : PeerId) {raws : List RawPeerInfo} {infos : List RoutePeerInfo} (idx : ℕ)
    (changed : Bool) (s : SyncedRouteInfo) (hraw : Aligned infos (raws.drop idx)) :
    MergeEnds (NoSelfDuplicate nowMs myPeerId myPeerRouteId dstPeerId s.peerInfos infos)
      (AllMerged nowMs myPeerId dstPeerId s.peerInfos infos)
      (updatePeerInfosFrom nowMs myPeerId myPeerRouteId dstPeerId raws infos idx changed s) := by
  induction infos generalizing idx changed s with
  | nil => exact .inr ⟨trivial, .inl ⟨trivial, _, _, rfl⟩⟩
  | cons info infos ih =>
    obtain ⟨⟨raw, hindex, hid⟩, hrest⟩ := hraw.cons
    simp only [updatePeerInfosFrom, hindex, returns_bind, checkDuplicatePeerId_eq]
    by_cases hself : SelfDuplicate myPeerId myPeerRouteId s.peerInfos info
    · refine .inl ⟨fun h => h.1 hself, ?_⟩
      simp [hself]
    by_cases hsender : SenderDuplicate myPeerId dstPeerId s.peerInfos info
    · refine .inr ⟨⟨hself, .inl hsender⟩, .inr ⟨fun h => h.1 hsender, s, ?_⟩⟩
      simp [hself, hsender]
    · have hnoself : NoSelfDuplicate nowMs myPeerId myPeerRouteId dstPeerId s.peerInfos
            (info :: infos) ↔ NoSelfDuplicate nowMs myPeerId myPeerRouteId dstPeerId
              (mergeInfo nowMs s.peerInfos info) infos := by
        simp [NoSelfDuplicate, hself, hsender]
      have hmerged : AllMerged nowMs myPeerId dstPeerId s.peerInfos (info :: infos) ↔
          AllMerged nowMs myPeerId dstPeerId (mergeInfo nowMs s.peerInfos info) infos := by
        simp [AllMerged, hsender]
      have hensure : ensure (raw.known.peerId == info.peerId) .assertionFailed =
          .returns () := by simp [ensure, hid]
      rw [hnoself, hmerged, mergeInfo_eq info raw]
      simp only [hself, hsender, if_false, returns_bind, hensure]
      split_ifs
      · exact ih _ _ _ hrest
      · exact ih _ _ _ hrest

def ItemComplete (dstPeerId : PeerId) (item : ForeignNetworkInfo) : Prop :=
  ∃ key ∈ item.key, key.peerId = dstPeerId ∨ item.value ≠ none

theorem returns_savedForeignVersions_iff (dstPeerId : PeerId) (items : List ForeignNetworkInfo)
    (m : OrderedMap ForeignNetworkRouteInfoKey Version) :
    (savedForeignVersions dstPeerId items m).Returns ↔
      ∀ item ∈ items, ItemComplete dstPeerId item := by
  induction items generalizing m with
  | nil => simp [savedForeignVersions]
  | cons item items ih =>
    rw [List.forall_mem_cons, savedForeignVersions]
    cases hkey : item.key with
    | none => simp [unwrap, ItemComplete, hkey]
    | some key =>
      simp only [unwrap, returns_bind]
      by_cases hdst : key.peerId = dstPeerId
      · have hitem : ItemComplete dstPeerId item := ⟨key, hkey, .inl hdst⟩
        rw [if_pos hdst, ih, and_iff_right hitem]
      · rw [if_neg hdst]
        cases hvalue : item.value with
        | none => simp [ItemComplete, hkey, hdst, hvalue]
        | some value =>
          have hitem : ItemComplete dstPeerId item := ⟨key, hkey, .inr (by simp [hvalue])⟩
          rw [returns_bind, ih, and_iff_right hitem]

end SyncedRouteInfo

namespace RouteService

variable {env : RouteEnv} {svc : RouteService} {sender : Sender} {w : Working}

def mergedInfos (env : RouteEnv) (sender : Sender) (infos : List RoutePeerInfo) :
    List RoutePeerInfo :=
  match sender.credential with
  | none => infos
  | some credential =>
    (((infos.findIdx? (·.peerId == sender.peerId)).bind (infos[·]?)).map
      (restrictToCredential env.parseCidr credential)).toList

variable {infos : List RoutePeerInfo} {req : SyncRouteInfoRequest}
  {rawPeerInfos : Option (List RawPeerInfo)}

theorem aligned_of_map {raws : List RawPeerInfo} (h : raws.map (·.known) = infos) :
    Aligned infos raws := by
  subst h
  intro i info hi
  rw [List.getElem?_map, Option.map_eq_some_iff] at hi
  obtain ⟨raw, hraw, rfl⟩ := hi
  exact ⟨raw, hraw, rfl⟩

theorem acceptedPeerInfos_eq (env : RouteEnv) (sender : Sender) {raws : List RawPeerInfo}
    (h : raws.map (·.known) = infos) :
    ∃ rpi, acceptedPeerInfos env sender infos (some raws) =
        .returns (mergedInfos env sender infos, rpi) ∧
      Aligned (mergedInfos env sender infos) rpi := by
  have halign := aligned_of_map h
  unfold acceptedPeerInfos mergedInfos
  simp only [unwrap, returns_bind]
  cases sender.credential with
  | none => exact ⟨raws, rfl, halign⟩
  | some credential =>
    simp only [extractCredentialPeerInfo]
    cases hidx : infos.findIdx? (·.peerId == sender.peerId) with
    | none => exact ⟨[], rfl, by simp [Aligned]⟩
    | some idx =>
      obtain ⟨hlt, -⟩ := List.findIdx?_eq_some_iff_getElem.1 hidx
      have hinfo : infos[idx]? = some infos[idx] := List.getElem?_eq_getElem hlt
      obtain ⟨raw, hraw, hid⟩ := halign idx _ hinfo
      refine ⟨[patchRawFromInfo raw (restrictToCredential env.parseCidr credential infos[idx])],
        ?_, ?_⟩
      · simp [index, hinfo, hraw]
      · intro i info hi
        simp only [Option.bind_some, hinfo, Option.map_some, Option.toList_some] at hi
        cases i with
        | zero =>
          cases hi
          exact ⟨_, rfl, hid⟩
        | succ i => cases hi

def requestInfos (env : RouteEnv) (sender : Sender) (req : SyncRouteInfoRequest) :
    List RoutePeerInfo := (req.peerInfos.map (mergedInfos env sender)).getD []

def RawsMatch (req : SyncRouteInfoRequest) (rawPeerInfos : Option (List RawPeerInfo)) : Prop :=
  ∀ infos, req.peerInfos = some infos →
    ∃ raws, rawPeerInfos = some raws ∧ raws.map (·.known) = infos

theorem receivePeerInfos_cases (env : RouteEnv) (svc : RouteService) (sender : Sender) (w : Working)
    (hraws : RawsMatch req rawPeerInfos) :
    MergeEnds (NoSelfDuplicate env.nowMs svc.myPeerId svc.myPeerRouteId sender.peerId
        w.synced.peerInfos (requestInfos env sender req))
      (AllMerged env.nowMs svc.myPeerId sender.peerId w.synced.peerInfos (requestInfos env sender req))
      (svc.receivePeerInfos env sender req.peerInfos rawPeerInfos w) := by
  simp only [requestInfos, receivePeerInfos]
  cases hinfos : req.peerInfos with
  | none => exact .inr ⟨trivial, .inl ⟨trivial, false, w, rfl⟩⟩
  | some infos =>
    obtain ⟨raws, rfl, hmap⟩ := hraws infos hinfos
    obtain ⟨rpi, haccepted, halign⟩ := acceptedPeerInfos_eq env sender hmap
    simp only [haccepted, returns_bind, Option.map_some, Option.getD_some]
    cases hempty : (mergedInfos env sender infos).isEmpty with
    | true =>
      rw [List.isEmpty_iff] at hempty
      rw [hempty]
      exact .inr ⟨trivial, .inl ⟨trivial, false, w, rfl⟩⟩
    | false =>
      simp only [Bool.false_eq_true, if_false]
      obtain ⟨hdup, hpanics⟩ | ⟨hnodup, ⟨hmerged, _, s', hs⟩ | ⟨hstop, s', hs⟩⟩ :=
        updatePeerInfosFrom_cases env.nowMs svc.myPeerId svc.myPeerRouteId sender.peerId 0
          false w.synced halign
      · exact .inl ⟨hdup, fun h => hpanics (returns_bind_iff.1 h).1⟩
      · refine .inr ⟨hnodup, .inl ⟨hmerged, true, ?_⟩⟩
        rw [updatePeerInfos, hs]
        exact ⟨_, rfl⟩
      · refine .inr ⟨hnodup, .inr ⟨hstop, ?_⟩⟩
        rw [updatePeerInfos, hs]
        exact ⟨_, rfl⟩

theorem returns_receiveConnInfo_iff {connInfo : Option ConnInfo} :
    (receiveConnInfo env sender connInfo w).Returns ↔
      ∀ b, connInfo = some (.connBitmap b) → sender.credential.all (·.allowRelay) = true →
        b.Covers := by
  cases connInfo with
  | none => simp [receiveConnInfo]
  | some connInfo =>
    rw [receiveConnInfo]
    cases sender.credential.all (·.allowRelay) with
    | false => simp
    | true =>
      simp only [if_true, Option.some.injEq, true_implies]
      rw [← returns_updateConnInfo_iff w.synced env.nowMs]
      exact returns_bind_iff_left fun _ => returns_returns _

theorem returns_receiveForeignNetwork_iff (env : RouteEnv) (sender : Sender) (w : Working)
    (infos : Option (List ForeignNetworkInfo)) :
    (receiveForeignNetwork env sender infos w).Returns ↔
      ∀ items, infos = some items → sender.credential = none →
        ∀ item ∈ items, ItemComplete sender.peerId item := by
  cases infos with
  | none => simp [receiveForeignNetwork]
  | some items =>
    rw [receiveForeignNetwork]
    cases sender.credential with
    | some credential => simp
    | none =>
      have hsaved := returns_savedForeignVersions_iff sender.peerId items
        w.session.dstSavedForeignNetworkVersions
      simp only [Option.isSome_none, Bool.false_eq_true, if_false,
        updateDstSavedForeignNetworkVersion, Option.some.injEq, true_implies, forall_eq']
      rw [← hsaved, bind_assoc]
      exact returns_bind_iff_left fun _ => returns_returns _

theorem returns_finishSync_iff {need : Bool} :
    (svc.finishSync env sender req need w).Returns ↔
      ∀ items, req.foreignNetworkInfos = some items → sender.credential = none →
        ∀ item ∈ items, ItemComplete sender.peerId item := by
  rw [finishSync]
  generalize (if need = true then
    (svc.store sender.peerId w).refreshCredentialTrustsWithCurrentTopology env
    else ([], svc.store sender.peerId w)) = refreshed
  rw [← returns_receiveForeignNetwork_iff env sender ⟨refreshed.2.synced, w.session⟩
    req.foreignNetworkInfos]
  exact returns_bind_iff_left fun _ => returns_returns _

structure SyncSafe (env : RouteEnv) (svc : RouteService) (sender : Sender)
    (req : SyncRouteInfoRequest) : Prop where
  /-- no description that is merged is a newer one of this node under another route id -/
  infos : NoSelfDuplicate env.nowMs svc.myPeerId svc.myPeerRouteId sender.peerId
    svc.synced.peerInfos (requestInfos env sender req)
  /-- a bitmap that is merged has a bit for every pair of peers -/
  conns : AllMerged env.nowMs svc.myPeerId sender.peerId svc.synced.peerInfos
      (requestInfos env sender req) →
    ∀ b, req.connInfo = some (.connBitmap b) → sender.credential.all (·.allowRelay) = true →
      b.Covers
  /-- the foreign networks that are merged have a key and a value -/
  foreign : AllMerged env.nowMs svc.myPeerId sender.peerId svc.synced.peerInfos
      (requestInfos env sender req) →
    ∀ items, req.foreignNetworkInfos = some items → sender.credential = none →
      ∀ item ∈ items, ItemComplete sender.peerId item

theorem returns_syncFrom_iff (hraws : RawsMatch req rawPeerInfos) :
    (svc.syncFrom env sender req rawPeerInfos).Returns ↔ SyncSafe env svc sender req := by
  unfold syncFrom
  generalize svc.openSession env sender.peerId req.mySessionId = session
  obtain ⟨hdup, hpanics⟩ | ⟨hnodup, ⟨hmerged, received, w', hw⟩ | ⟨hstop, w', hw⟩⟩ :=
    receivePeerInfos_cases env svc sender ⟨svc.synced, session⟩ hraws
  · exact iff_of_false (fun h => hpanics (returns_bind_iff.1 h).1) fun h => hdup h.infos
  · simp only [hw, returns_bind]
    refine (returns_bind_iff_and fun _ => (returns_bind_iff_left fun _ => returns_returns _).trans
      returns_finishSync_iff).trans ?_
    rw [returns_receiveConnInfo_iff]
    exact ⟨fun h => ⟨hnodup, fun _ => h.1, fun _ => h.2⟩,
      fun h => ⟨h.conns hmerged, h.foreign hmerged⟩⟩
  · simp only [hw, returns_bind]
    exact iff_of_true (returns_returns _)
      ⟨hnodup, fun h => absurd h hstop, fun h => absurd h hstop⟩

def RequestSafe (env : RouteEnv) (svc : RouteService) (req : SyncRouteInfoRequest) : Prop :=
  ∀ sender, svc.senderOf env req.myPeerId = some sender → SyncSafe env svc sender req

theorem returns_doSyncRouteInfo_iff (env : RouteEnv) (svc : RouteService)
    (hraws : RawsMatch req rawPeerInfos) :
    (svc.doSyncRouteInfo env req rawPeerInfos).Returns ↔ RequestSafe env svc req := by
  unfold doSyncRouteInfo RequestSafe
  cases svc.senderOf env req.myPeerId with
  | none => exact iff_of_true (returns_returns _) nofun
  | some sender =>
    rw [returns_syncFrom_iff hraws]
    exact ⟨fun h _ he => Option.some.inj he ▸ h, fun h => h sender rfl⟩

theorem extractRawPeerInfos_eq {codec : RouteCodec} (hcodec : codec.Agrees) {rawInput : List UInt8}
    (hdecode : codec.decode rawInput = some req) :
    ∃ rawPeerInfos, extractRawPeerInfos codec rawInput req.peerInfos = .returns rawPeerInfos ∧
      RawsMatch req rawPeerInfos := by
  obtain ⟨raws, hraws, hknown⟩ := hcodec rawInput req hdecode
  cases hinfos : req.peerInfos with
  | none =>
    refine ⟨none, rfl, fun infos h => ?_⟩
    rw [hinfos] at h
    cases h
  | some infos =>
    rw [hinfos, Option.getD_some] at hknown
    have hlen : raws.length = infos.length := by rw [← hknown, List.length_map]
    refine ⟨some raws, ?_, fun infos' h => ?_⟩
    · simp [extractRawPeerInfos, getRawPeerInfos, hraws, unwrap, ensure, hlen]
    · rw [hinfos] at h
      cases h
      exact ⟨raws, rfl, hknown⟩

/-- **Which requests are served without a panic.** -/
theorem route_sync_total {codec : RouteCodec} (hcodec : codec.Agrees) (env : RouteEnv)
    (svc : RouteService) (rawInput : List UInt8) :
    (svc.receive env codec rawInput).Returns ↔
      ∀ req, codec.decode rawInput = some req → RequestSafe env svc req := by
  unfold receive
  cases hdecode : codec.decode rawInput with
  | none => exact iff_of_true (returns_returns _) nofun
  | some req =>
    obtain ⟨rawPeerInfos, hextract, hraws⟩ := extractRawPeerInfos_eq hcodec hdecode
    have hdo := returns_doSyncRouteInfo_iff env svc hraws
    simp only [Option.some.injEq, forall_eq', syncRouteInfo, hextract, returns_bind]
    rw [← hdo, bind_assoc]
    refine returns_bind_iff_left ?_
    rintro ⟨_ | _, _⟩ <;> exact returns_returns _

def quietEnv : RouteEnv where
  snapshotIdentityTypes _ := none
  getPeerIdentityType _ := none
  getPeerPublicKey _ := none
  peerReachable _ _ := false
  aclGroupDeclarations := []
  verifyGroup _ _ _ := false
  parseCidr _ := none
  nowMs := 1000
  freshSessionId := 5

def describe (peerId : PeerId) (version : Version) (peerRouteId : UInt64) : RoutePeerInfo :=
  { RoutePeerInfo.new with peerId := peerId, version := version, peerRouteId := peerRouteId }

def quietService : RouteService where
  myPeerId := 1
  myPeerRouteId := 7
  synced := { SyncedRouteInfo.empty with
    peerInfos := OrderedMap.empty.insert 1 (describe 1 3 7)
    version := 1 }
  sessions := .empty
  trustedKeys := .empty

def bareRequest : SyncRouteInfoRequest where
  myPeerId := 2
  mySessionId := 9
  isInitiator := true
  peerInfos := none
  connInfo := none
  foreignNetworkInfos := none

def fullRequest : SyncRouteInfoRequest :=
  { bareRequest with
    peerInfos := some [describe 2 1 8, describe 3 1 9]
    connInfo := some (.connBitmap ⟨[⟨2, 1⟩, ⟨3, 1⟩], [6]⟩)
    foreignNetworkInfos := some [⟨some ⟨3, "net"⟩, some ⟨[4], none, 1, 6⟩⟩, ⟨some ⟨2, "net"⟩, none⟩] }

/-- The bytes of `bareRequest`, and behind them those of further fields. -/
def withFields (fields : List UInt8) : List UInt8 := [8, 2, 16, 9, 24, 1] ++ fields

def bitmapField : List UInt8 := [42, 12, 10, 4, 8, 2, 16, 1, 10, 4, 8, 3, 16, 1]

def foreignField : List UInt8 := [50, 2, 10, 0]

def descriptionField : List UInt8 := [34, 8, 10, 6, 8, 1, 72, 4, 96, 8]

def fullFields : List UInt8 :=
  [34, 16, 10, 6, 8, 2, 72, 1, 96, 8, 10, 6, 8, 3, 72, 1, 96, 9,
    42, 15, 10, 4, 8, 2, 16, 1, 10, 4, 8, 3, 16, 1, 18, 1, 6,
    50, 31, 10, 18, 10, 7, 8, 3, 18, 3, 110, 101, 116, 18, 7, 10, 1, 4, 24, 1, 40, 6,
    10, 9, 10, 7, 8, 2, 18, 3, 110, 101, 116]

/-- The Protobuf codec on four requests. -/
def sampleCodec : RouteCodec where
  decode bytes := decode bytes
  decodeDynamic bytes := (decode bytes).map fun req =>
    (req.peerInfos.getD []).map fun info => ⟨info, []⟩
where
  decode (bytes : List UInt8) : Option SyncRouteInfoRequest :=
    if bytes = withFields bitmapField then
      some { bareRequest with connInfo := some (.connBitmap ⟨[⟨2, 1⟩, ⟨3, 1⟩], []⟩) }
    else if bytes = withFields foreignField then
      some { bareRequest with foreignNetworkInfos := some [⟨none, none⟩] }
    else if bytes = withFields descriptionField then
      some { bareRequest with peerInfos := some [describe 1 4 8] }
    else if bytes = withFields fullFields then some fullRequest
    else none

/-- **Three requests that make the node panic**: no bitmap for two peers, a foreign network without
key, and a newer description of the node. -/
theorem requests_that_panic :
    quietService.receive quietEnv sampleCodec (withFields bitmapField) = .panics .indexOutOfRange ∧
    quietService.receive quietEnv sampleCodec (withFields foreignField) = .panics .unwrapNone ∧
    quietService.receive quietEnv sampleCodec (withFields descriptionField) =
      .panics .explicitPanic := ⟨rfl, rfl, rfl⟩

/-- A request that is served. -/
theorem full_request_served :
    sampleCodec.Agrees ∧
      (quietService.receive quietEnv sampleCodec (withFields fullFields)).Returns ∧
      RequestSafe quietEnv quietService fullRequest := by
  have hcodec : sampleCodec.Agrees := fun bytes req (h : sampleCodec.decode bytes = some req) =>
    ⟨_, congrArg (Option.map _) h, by simp [Function.comp_def]⟩
  have hreturns : (quietService.receive quietEnv sampleCodec (withFields fullFields)).Returns :=
    ⟨_, rfl⟩
  exact ⟨hcodec, hreturns, (route_sync_total hcodec quietEnv quietService _).1 hreturns _ rfl⟩

end RouteService

end PactMesh
