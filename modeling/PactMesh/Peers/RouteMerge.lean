import PactMesh.Lib.Newest
import PactMesh.Peers.RouteFrame

/-!
# Merging route information

What a node hears of the peers arrives in any order, more than once, and the connections in one of
two forms.  For every peer the table keeps the newest description and connections it was offered, as
far as versions above zero go; version zero is what the node fills in for peers it only knows by id.

Main result: `route_merge_converges`.
-/

namespace PactMesh

open Outcome List Option Newest RouteService

structure AnnouncedConn where
  peerId : PeerId
  version : Version
  connectedPeers : List PeerId
deriving DecidableEq

def RoutePeerInfo.timeless (info : RoutePeerInfo) : RoutePeerInfo := { info with lastUpdate := none }

def RoutePeerInfo.versionNat (info : RoutePeerInfo) : ℕ := info.version.toNat

def AnnouncedConn.versionNat (conn : AnnouncedConn) : ℕ := conn.version.toNat

/-- The content of an entry, if a peer announced it: version 0 is that of an empty entry. -/
def announced {α β : Type*} (version : β → Version) (content : β → α) (entry : Option β) : Option α :=
  (entry.filter fun b => version b ≠ 0).map content

namespace SyncedRouteInfo

variable (s : SyncedRouteInfo)

def announcedInfo (peerId : PeerId) : Option RoutePeerInfo :=
  announced (·.version) (·.timeless) (s.peerInfos.get peerId)

def announcedConn (peerId : PeerId) : Option AnnouncedConn :=
  announced (·.version) (fun conn => ⟨peerId, conn.version, conn.connectedPeers⟩)
    (s.connMap.get peerId)

end SyncedRouteInfo

def RouteConnBitmap.row (b : RouteConnBitmap) (peerIdx : ℕ) (p : PeerIdVersion) :
    Option AnnouncedConn :=
  match b.getConnectedPeers peerIdx with
  | .returns connected => some ⟨p.peerId, p.version, connected⟩
  | .panics _ => none

def PeerConnInfo.announced (entry : PeerConnInfo) : Option AnnouncedConn :=
  entry.peerId.map fun p => ⟨p.peerId, p.version, peerSet entry.connectedPeerIds⟩

def ConnInfo.announced : ConnInfo → List AnnouncedConn
  | .connBitmap b => b.peerIds.zipIdx.filterMap fun e => b.row e.2 e.1
  | .connPeerList entries => entries.filterMap (·.announced)

/-- A call of `update_peer_infos` or `update_conn_info`. -/
inductive RouteUpdate
  | peerInfos (nowMs : ℕ) (dstPeerId : PeerId) (infos : List RoutePeerInfo)
    (raws : List RawPeerInfo)
  | connInfo (nowMs : ℕ) (connInfo : ConnInfo)

namespace RouteUpdate

def infos : RouteUpdate → List RoutePeerInfo
  | peerInfos _ _ infos _ => (infos.filter fun info => info.version ≠ 0).map (·.timeless)
  | connInfo _ _ => []

def conns : RouteUpdate → List AnnouncedConn
  | peerInfos _ _ _ _ => []
  | connInfo _ conns => conns.announced.filter fun conn => conn.version ≠ 0

/-- The update is well formed, its descriptions are not of this node, and those of a peer have the
route id of the peer. -/
def WellFormed (myPeerId : PeerId) (routeId : PeerId → UInt64) : RouteUpdate → Prop
  | peerInfos _ _ infos raws => SyncedRouteInfo.Aligned infos raws ∧
      ∀ info ∈ infos, info.peerId ≠ myPeerId ∧ info.peerRouteId = routeId info.peerId
  | connInfo _ conns => ∀ b, conns = .connBitmap b → b.Covers

end RouteUpdate

namespace SyncedRouteInfo

variable (myPeerId : PeerId) (myPeerRouteId : UInt64)

def update (s : SyncedRouteInfo) :
    RouteUpdate → Outcome (Except SyncRouteInfoError Unit × SyncedRouteInfo)
  | .peerInfos nowMs dstPeerId infos raws =>
    s.updatePeerInfos nowMs myPeerId myPeerRouteId dstPeerId infos raws
  | .connInfo nowMs connInfo => do return (.ok (), ← s.updateConnInfo nowMs connInfo)

def updateAll : List RouteUpdate → SyncedRouteInfo →
    Outcome (Except SyncRouteInfoError Unit × SyncedRouteInfo)
  | [], s => return (.ok (), s)
  | u :: us, s => do
    match ← s.update myPeerId myPeerRouteId u with
    | (.error e, s) => return (.error e, s)
    | (.ok (), s) => updateAll us s

def OneRouteId (routeId : PeerId → UInt64) (s : SyncedRouteInfo) : Prop :=
  ∀ peerId info, s.announcedInfo peerId = some info → info.peerRouteId = routeId peerId

/-- A map that replaces the entry of the owner by a newer one keeps the registers. -/
theorem announced_stored {α β : Type*} (version : β → Version) (content : β → α) (key : α → ℕ)
    (hkey : ∀ b, key (content b) = (version b).toNat) (owner : α → PeerId) (i : PeerId)
    (old : Option β) (new : β) (a : α) (ha : owner a = i → content new = a) :
    announced version content (if owner a = i then
        if old.all fun b => decide (version b < version new) then some new else old else old) =
      if version new ≠ 0 then offerAt key owner i (announced version content old) a
      else announced version content old := by
  have hpos : ∀ v : Version, ¬ v < 0 := fun v h => by simp [UInt32.lt_iff_toNat_lt] at h
  rw [offerAt]
  by_cases hi : owner a = i
  swap
  · rw [if_neg hi, if_neg hi, ite_self]
  rw [if_pos hi, if_pos hi, ← ha hi]
  unfold announced
  cases old with
  | none => by_cases hnew : version new = 0 <;> simp [hnew, offer]
  | some b =>
    by_cases hnew : version new = 0
    · simp [hnew, hpos]
    · by_cases hb : version b = 0
      · have hlt : (0 : Version) < version new := by
          rw [UInt32.lt_iff_toNat_lt]
          exact Nat.pos_of_ne_zero fun h => hnew (UInt32.toNat_inj.1 h)
        simp [filter_some, hb, hnew, hlt, offer]
      · have hlt : version b < version new ↔ key (content b) < key (content new) := by
          rw [hkey, hkey, UInt32.lt_iff_toNat_lt]
        by_cases hver : version b < version new
        · simp [filter_some, hb, hnew, hver, offer, hlt.1 hver]
        · simp [filter_some, hb, hnew, hver, offer, mt hlt.2 hver]

variable {s : SyncedRouteInfo} {nowMs : ℕ}

theorem filter_get_orInsert {α : Type*} {m : OrderedMap PeerId α} {k q : PeerId} {a : α}
    {f : α → Bool} (ha : f a = false) : ((m.orInsert k a).get q).filter f = (m.get q).filter f := by
  rw [OrderedMap.get_orInsert]
  cases m.get q with
  | some b => rfl
  | none => split_ifs <;> simp [ha]

theorem connRule_announcedInfo (nowMs : ℕ) :
    ConnRule nowMs fun s s' => s'.announcedInfo = s.announcedInfo where
  refl _ := rfl
  trans h₁ h₂ := h₂.trans h₁
  incVersion _ := rfl
  fillOne _ _ := funext fun _ => congrArg (Option.map _) (filter_get_orInsert rfl)
  insertConn _ _ _ := rfl

theorem fillRule_announcedConn (nowMs : ℕ) :
    FillRule nowMs fun s s' => s'.announcedConn = s.announcedConn where
  refl _ := rfl
  trans h₁ h₂ := h₂.trans h₁
  incVersion _ := rfl
  fillOne _ _ := funext fun _ => congrArg (Option.map _) (filter_get_orInsert rfl)

variable {myPeerId dstPeerId : PeerId} {myPeerRouteId : UInt64} {routeId : PeerId → UInt64}

/-- The descriptions in the map have the route ids of their peers. -/
def RouteIds (routeId : PeerId → UInt64) (m : PeerInfoMap) : Prop :=
  ∀ peerId info, m.get peerId = some info → info.version ≠ 0 → info.peerRouteId = routeId peerId

theorem oneRouteId_iff : s.OneRouteId routeId ↔ RouteIds routeId s.peerInfos := by
  constructor
  · intro h peerId info hget hver
    exact h peerId info.timeless (by simp [announcedInfo, announced, hget, filter_some, hver])
  · intro h peerId info hinfo
    obtain ⟨stored, hstored, rfl⟩ := map_eq_some_iff.1 hinfo
    obtain ⟨hget, hver⟩ := filter_eq_some_iff.1 hstored
    exact h peerId stored hget (by simpa using hver)

section RouteIds

variable {m : PeerInfoMap} {infos : List RoutePeerInfo}

theorem RouteIds.foldl (hm : RouteIds routeId m)
    (hinfos : ∀ info ∈ infos, info.peerRouteId = routeId info.peerId) :
    RouteIds routeId (infos.foldl (mergeInfo nowMs) m) := by
  intro peerId stored hget hver
  rcases origin_of_stored hget with hold | ⟨info, hmem, rfl, rfl⟩
  · exact hm peerId stored hold hver
  · exact hinfos info hmem

variable (nowMs myPeerRouteId dstPeerId) in
theorem RouteIds.merges (hm : RouteIds routeId m)
    (hinfos : ∀ info ∈ infos, info.peerId ≠ myPeerId ∧ info.peerRouteId = routeId info.peerId) :
    NoSelfDuplicate nowMs myPeerId myPeerRouteId dstPeerId m infos ∧
      AllMerged nowMs myPeerId dstPeerId m infos := by
  induction infos generalizing m with
  | nil => exact ⟨trivial, trivial⟩
  | cons info infos ih =>
    obtain ⟨⟨hme, hroute⟩, hrest⟩ := forall_mem_cons.1 hinfos
    have hsender : ¬ SenderDuplicate myPeerId dstPeerId m info := by
      rintro ⟨-, rfl, old, hold, hne, hlt⟩
      have hpos : old.version ≠ 0 := by
        intro h0
        simp [h0, UInt32.lt_iff_toNat_lt] at hlt
      exact hne ((hm _ _ hold hpos).trans hroute.symm)
    have hm' : RouteIds routeId ([info].foldl (mergeInfo nowMs) m) := hm.foldl (by simpa)
    obtain ⟨hself, hmerged⟩ := ih hm' hrest
    exact ⟨⟨fun h => hme h.1, .inr hself⟩, hsender, hmerged⟩

end RouteIds

theorem updatePeerInfosFrom_returns {raws : List RawPeerInfo} {infos : List RoutePeerInfo} (idx : ℕ)
    (changed : Bool) (s : SyncedRouteInfo) (hraw : Aligned infos (raws.drop idx))
    (hone : s.OneRouteId routeId)
    (hinfos : ∀ info ∈ infos, info.peerId ≠ myPeerId ∧ info.peerRouteId = routeId info.peerId) :
    ∃ s', updatePeerInfosFrom nowMs myPeerId myPeerRouteId dstPeerId raws infos idx changed s =
        .returns (.ok (), s') ∧ s'.peerInfos = infos.foldl (mergeInfo nowMs) s.peerInfos ∧
      s'.connMap = s.connMap ∧ s'.OneRouteId routeId := by
  have hm := oneRouteId_iff.1 hone
  obtain ⟨hself, hmerged⟩ := hm.merges nowMs dstPeerId myPeerRouteId hinfos
  obtain ⟨hdup, -⟩ | ⟨-, ⟨-, _, s', heq⟩ | ⟨hstop, -⟩⟩ :=
    updatePeerInfosFrom_cases nowMs myPeerId myPeerRouteId dstPeerId idx changed s hraw
  · exact absurd hself hdup
  · obtain ⟨merged, _, _, -, hall, rfl⟩ := updatePeerInfosFrom_merged heq
    obtain rfl := hall rfl
    exact ⟨_, heq, rfl, rfl, oneRouteId_iff.2 (hm.foldl fun info hmem => (hinfos info hmem).2)⟩
  · exact absurd hmerged hstop

theorem announced_foldl_mergeInfo (infos : List RoutePeerInfo)
    (m : PeerInfoMap) (peerId : PeerId) :
    announced (·.version) (·.timeless) ((infos.foldl (mergeInfo nowMs) m).get peerId) =
      ((infos.filter fun info => info.version ≠ 0).map (·.timeless)).foldl
        (offerAt RoutePeerInfo.versionNat RoutePeerInfo.peerId peerId)
        (announced (·.version) (·.timeless) (m.get peerId)) := by
  induction infos generalizing m with
  | nil => rfl
  | cons info infos ih =>
    have hone := announced_stored RoutePeerInfo.version RoutePeerInfo.timeless
      RoutePeerInfo.versionNat (fun _ => rfl) RoutePeerInfo.peerId peerId (m.get peerId)
      { info with lastUpdate := some nowMs } info.timeless fun _ => rfl
    rw [foldl_cons, ih, get_mergeInfo, filter_cons]
    refine (congrArg (fun r => foldl _ r _) hone).trans ?_
    by_cases hpos : info.version = 0 <;> simp [hpos]

def mergeConn (nowMs : ℕ) (s : SyncedRouteInfo) (conn : AnnouncedConn) : SyncedRouteInfo :=
  ((s.fillEmptyPeerInfo nowMs conn.connectedPeers).updateConnInfoOnePeer nowMs
    ⟨conn.peerId, conn.version⟩ conn.connectedPeers).2

theorem announcedConn_updateConnInfoOnePeer (p : PeerIdVersion) (connected : List PeerId)
    (peerId : PeerId) :
    (s.updateConnInfoOnePeer nowMs p connected).2.announcedConn peerId =
      if p.version ≠ 0 then
        offerAt AnnouncedConn.versionNat AnnouncedConn.peerId peerId
          (s.announcedConn peerId) ⟨p.peerId, p.version, connected⟩
      else s.announcedConn peerId := by
  have hget : (s.updateConnInfoOnePeer nowMs p connected).2.connMap.get peerId =
      if p.peerId = peerId then
        if (s.connMap.get peerId).all fun old => decide (old.version < p.version) then
          some ⟨connected, p.version, nowMs⟩
        else s.connMap.get peerId
      else s.connMap.get peerId := by
    by_cases hp : p.peerId = peerId
    · subst hp
      rw [if_pos rfl]
      cases hold : s.connMap.get p.peerId with
      | none => simp [updateConnInfoOnePeer, hold]
      | some old =>
        by_cases hlt : old.version < p.version <;> simp [updateConnInfoOnePeer, hold, hlt]
    · rw [if_neg hp]
      simp only [updateConnInfoOnePeer]
      split_ifs
      · exact OrderedMap.get_insert_of_ne (Ne.symm hp)
      · rfl
  rw [announcedConn, hget]
  exact announced_stored RouteConnInfo.version
    (fun conn => ⟨peerId, conn.version, conn.connectedPeers⟩) AnnouncedConn.versionNat
    (fun _ => rfl) AnnouncedConn.peerId peerId (s.connMap.get peerId)
    ⟨connected, p.version, nowMs⟩ ⟨p.peerId, p.version, connected⟩ fun h => by rw [← h]

theorem announcedConn_foldl_mergeConn (conns : List AnnouncedConn) (s : SyncedRouteInfo)
    (peerId : PeerId) :
    (conns.foldl (mergeConn nowMs) s).announcedConn peerId =
      (conns.filter fun conn => conn.version ≠ 0).foldl
        (offerAt AnnouncedConn.versionNat AnnouncedConn.peerId peerId)
        (s.announcedConn peerId) := by
  induction conns generalizing s with
  | nil => rfl
  | cons conn conns ih =>
    rw [foldl_cons, ih, mergeConn, announcedConn_updateConnInfoOnePeer,
      (fillRule_announcedConn nowMs).fillEmptyPeerInfo, filter_cons]
    by_cases hpos : conn.version = 0 <;> simp [hpos]

theorem foldl_updateConnInfoWithEntry (entries : List PeerConnInfo) (acc : Bool × SyncedRouteInfo) :
    (entries.foldl (updateConnInfoWithEntry nowMs) acc).2 =
      (entries.filterMap (·.announced)).foldl (mergeConn nowMs) acc.2 := by
  induction entries generalizing acc with
  | nil => rfl
  | cons entry entries ih =>
    rw [foldl_cons, ih, filterMap_cons]
    obtain ⟨_ | p, connected⟩ := entry <;> rfl

theorem updateConnInfoFrom_eq (nowMs : ℕ) (b : RouteConnBitmap) (ps : List PeerIdVersion) (peerIdx : ℕ)
    (changed : Bool) (s : SyncedRouteInfo)
    (h : ∀ i < ps.length, (b.getConnectedPeers (peerIdx + i)).Returns) :
    ∃ changed', updateConnInfoFrom nowMs b ps peerIdx changed s =
      .returns ((((ps.zipIdx peerIdx).filterMap fun e => b.row e.2 e.1).foldl (mergeConn nowMs)
        s).incVersionIf changed') := by
  induction ps generalizing peerIdx changed s with
  | nil => exact ⟨changed, rfl⟩
  | cons p ps ih =>
    obtain ⟨connected, hconn⟩ := h 0 (Nat.succ_pos _)
    rw [Nat.add_zero] at hconn
    have hrest : ∀ i < ps.length, (b.getConnectedPeers (peerIdx + 1 + i)).Returns := by
      intro i hi
      rw [Nat.add_right_comm, Nat.add_assoc]
      exact h (i + 1) (Nat.succ_lt_succ hi)
    have hrow : b.row peerIdx p = some ⟨p.peerId, p.version, connected⟩ := by
      rw [RouteConnBitmap.row, hconn]
    simp only [zipIdx_cons, filterMap_cons, hrow, foldl_cons, updateConnInfoFrom,
      hconn, returns_bind]
    exact ih (peerIdx + 1) _ _ hrest

/-- **Connections in either form** are offered to the registers; the descriptions stay. -/
theorem updateConnInfo_returns (nowMs : ℕ) {connInfo : ConnInfo}
    (h : ∀ b, connInfo = .connBitmap b → b.Covers) (s : SyncedRouteInfo) :
    ∃ s', s.updateConnInfo nowMs connInfo = .returns s' ∧ s'.announcedInfo = s.announcedInfo ∧
      ∀ peerId, s'.announcedConn peerId =
        (connInfo.announced.filter fun conn => conn.version ≠ 0).foldl
          (offerAt AnnouncedConn.versionNat AnnouncedConn.peerId peerId)
          (s.announcedConn peerId) := by
  cases connInfo with
  | connBitmap b =>
    have hrows : ∀ i < b.peerIds.length, (b.getConnectedPeers (0 + i)).Returns := by
      simpa using RouteConnBitmap.covers_iff.1 (h b rfl)
    obtain ⟨changed, heq⟩ := updateConnInfoFrom_eq nowMs b b.peerIds 0 false
      (s.fillEmptyPeerInfo nowMs (peerSet (b.peerIds.map (·.peerId)))) hrows
    have hreturns : s.updateConnInfo nowMs (.connBitmap b) = _ := heq
    refine ⟨_, heq, (connRule_announcedInfo nowMs).updateConnInfo hreturns, fun peerId => ?_⟩
    rw [(fillRule_announcedConn nowMs).incVersionIf, announcedConn_foldl_mergeConn,
      (fillRule_announcedConn nowMs).fillEmptyPeerInfo]
    rfl
  | connPeerList entries =>
    have hreturns : s.updateConnInfo nowMs (.connPeerList entries) = _ := rfl
    refine ⟨_, rfl, (connRule_announcedInfo nowMs).updateConnInfo hreturns, fun peerId => ?_⟩
    rw [updateConnInfoWithList, (fillRule_announcedConn nowMs).incVersionIf, foldl_updateConnInfoWithEntry,
      announcedConn_foldl_mergeConn]
    rfl

/-- **One update** succeeds and offers what it carries to the registers. -/
theorem update_returns (myPeerRouteId : UInt64) {u : RouteUpdate}
    (hu : u.WellFormed myPeerId routeId)
    (hone : s.OneRouteId routeId) :
    ∃ s', s.update myPeerId myPeerRouteId u = .returns (.ok (), s') ∧ s'.OneRouteId routeId ∧
      ∀ peerId, s'.announcedInfo peerId = u.infos.foldl
          (offerAt RoutePeerInfo.versionNat RoutePeerInfo.peerId peerId)
          (s.announcedInfo peerId) ∧ s'.announcedConn peerId = u.conns.foldl
          (offerAt AnnouncedConn.versionNat AnnouncedConn.peerId peerId)
          (s.announcedConn peerId) := by
  cases u with
  | peerInfos nowMs dstPeerId infos raws =>
    obtain ⟨halign, hinfos⟩ := hu
    obtain ⟨s', heq, hpeers, hconns, hone'⟩ :=
      updatePeerInfosFrom_returns 0 false s halign hone hinfos
    refine ⟨s', heq, hone', fun peerId => ⟨?_, ?_⟩⟩
    · rw [announcedInfo, hpeers, announced_foldl_mergeInfo]
      rfl
    · rw [announcedConn, hconns]
      rfl
  | connInfo nowMs connInfo =>
    obtain ⟨s', heq, hinfo, hconn⟩ := updateConnInfo_returns nowMs hu s
    refine ⟨s', by simp [update, heq], ?_, fun peerId => ⟨congrFun hinfo peerId, hconn peerId⟩⟩
    intro peerId info hann
    rw [hinfo] at hann
    exact hone peerId info hann

/-- **Any number of updates** succeed and offer what they carry to the registers. -/
theorem updateAll_returns (myPeerRouteId : UInt64) {us : List RouteUpdate}
    (hus : ∀ u ∈ us, u.WellFormed myPeerId routeId)
    (hone : s.OneRouteId routeId) :
    ∃ s', updateAll myPeerId myPeerRouteId us s = .returns (.ok (), s') ∧ ∀ peerId,
        s'.announcedInfo peerId = (us.flatMap (·.infos)).foldl
          (offerAt RoutePeerInfo.versionNat RoutePeerInfo.peerId peerId)
          (s.announcedInfo peerId) ∧ s'.announcedConn peerId = (us.flatMap (·.conns)).foldl
          (offerAt AnnouncedConn.versionNat AnnouncedConn.peerId peerId)
          (s.announcedConn peerId) := by
  induction us generalizing s with
  | nil => exact ⟨s, rfl, fun _ => ⟨rfl, rfl⟩⟩
  | cons u us ih =>
    obtain ⟨hu, hrest⟩ := forall_mem_cons.1 hus
    obtain ⟨s₁, hupd, hone₁, hann₁⟩ := update_returns myPeerRouteId hu hone
    obtain ⟨s', heq, hann⟩ := ih hrest hone₁
    refine ⟨s', by simp only [updateAll, hupd, returns_bind, heq], fun peerId => ?_⟩
    simp only [flatMap_cons, foldl_append]
    rw [← (hann₁ peerId).1, ← (hann₁ peerId).2]
    exact hann peerId

structure EqualContent (us : List RouteUpdate) : Prop where
  infos : ∀ a ∈ us.flatMap (·.infos), ∀ b ∈ us.flatMap (·.infos),
    a.peerId = b.peerId → a.version = b.version → a = b
  conns : ∀ a ∈ us.flatMap (·.conns), ∀ b ∈ us.flatMap (·.conns),
    a.peerId = b.peerId → a.version = b.version → a = b

structure SameContent (us vs : List RouteUpdate) : Prop where
  infos : ∀ a, a ∈ us.flatMap (·.infos) ↔ a ∈ vs.flatMap (·.infos)
  conns : ∀ a, a ∈ us.flatMap (·.conns) ↔ a ∈ vs.flatMap (·.conns)

/-- **Merging converges.**  Well-formed updates in which equal versions have equal content, every
peer uses one route id and no description is of this node are all merged, the table ends up with the
newest of each peer, and updates that carry the same, in any order and form, lead to the same. -/
theorem route_merge_converges (myPeerId : PeerId) (myPeerRouteId : UInt64)
    (routeId : PeerId → UInt64) (s : SyncedRouteInfo) (us vs : List RouteUpdate)
    (hone : s.OneRouteId routeId) (hus : ∀ u ∈ us, u.WellFormed myPeerId routeId)
    (hvs : ∀ v ∈ vs, v.WellFormed myPeerId routeId) (hequal : EqualContent us)
    (hsame : SameContent us vs) :
    ∃ s₁ s₂, updateAll myPeerId myPeerRouteId us s = .returns (.ok (), s₁) ∧
      updateAll myPeerId myPeerRouteId vs s = .returns (.ok (), s₂) ∧ ∀ peerId,
        s₁.announcedInfo peerId = s₂.announcedInfo peerId ∧
        s₁.announcedConn peerId = s₂.announcedConn peerId ∧
        s₁.announcedInfo peerId = ((s.announcedInfo peerId).toList ++
          (us.flatMap (·.infos)).filter (·.peerId = peerId)).argmax RoutePeerInfo.versionNat ∧
        s₁.announcedConn peerId = ((s.announcedConn peerId).toList ++
          (us.flatMap (·.conns)).filter (·.peerId = peerId)).argmax AnnouncedConn.versionNat := by
  obtain ⟨s₁, heq₁, hann₁⟩ := updateAll_returns myPeerRouteId hus hone
  obtain ⟨s₂, heq₂, hann₂⟩ := updateAll_returns myPeerRouteId hvs hone
  refine ⟨s₁, s₂, heq₁, heq₂, fun peerId => ⟨?_, ?_, ?_, ?_⟩⟩
  · rw [(hann₁ peerId).1, (hann₂ peerId).1]
    refine foldl_offerAt_eq_of_mem_iff ?_ hsame.infos
    intro a ha b hb hown hver
    exact hequal.infos a ha b hb hown (UInt32.toNat_inj.1 hver)
  · rw [(hann₁ peerId).2, (hann₂ peerId).2]
    refine foldl_offerAt_eq_of_mem_iff ?_ hsame.conns
    intro a ha b hb hown hver
    exact hequal.conns a ha b hb hown (UInt32.toNat_inj.1 hver)
  · rw [(hann₁ peerId).1, foldl_offerAt]
  · rw [(hann₁ peerId).2, foldl_offerAt]

def tellSeven (version : Version) : RouteUpdate :=
  .peerInfos 0 7 [describe 7 version 5] [⟨describe 7 version 5, []⟩]

/-- Both orders are merged, and lead to version 2. -/
theorem seven_converges :
    ∃ s₁ s₂, updateAll 1 9 [tellSeven 1, tellSeven 2] .empty = .returns (.ok (), s₁) ∧
      updateAll 1 9 [tellSeven 2, tellSeven 1] .empty = .returns (.ok (), s₂) ∧
      ∀ peerId, s₁.announcedInfo peerId = s₂.announcedInfo peerId ∧
        s₁.announcedConn peerId = s₂.announcedConn peerId := by
  have hone : OneRouteId (fun _ => 5) .empty := by
    intro peerId info h
    cases h
  have hwf : ∀ version, (tellSeven version).WellFormed 1 fun _ => 5 :=
    fun _ => ⟨aligned_of_map rfl, by simp [describe]⟩
  have hequal : EqualContent [tellSeven 1, tellSeven 2] := ⟨by decide +kernel, by decide +kernel⟩
  obtain ⟨s₁, s₂, h₁, h₂, hview⟩ := route_merge_converges 1 9 (fun _ => 5) .empty _
    [tellSeven 2, tellSeven 1] hone (by simp [hwf]) (by simp [hwf]) hequal
    ⟨fun a => by simp [or_comm], fun a => by simp [or_comm]⟩
  exact ⟨s₁, s₂, h₁, h₂, fun peerId => ⟨(hview peerId).1, (hview peerId).2.1⟩⟩

end SyncedRouteInfo

end PactMesh
