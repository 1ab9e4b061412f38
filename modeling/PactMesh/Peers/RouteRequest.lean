import PactMesh.Peers.RouteMerge

/-!
# The requests that a node synchronises its peers with

A session remembers which versions the other side has, so that a request only carries what is new.
Entries are looked through from the one that was updated last, up to the first that is older than the
last synchronisation.  Connections go out as a list, or as a bitmap kept for all sessions.

Main result: `conn_bitmap_faithful`.
-/

namespace PactMesh

open ByteBitmap OrderedMap SyncedRouteInfo RouteConnBitmap
open List hiding beq_eq_decide

/-! ### The larger of two versions -/

theorem toNat_max_version (v w : Version) : (max v w).toNat = max v.toNat w.toNat := by
  change (if v ≤ w then w else v).toNat = _
  split_ifs with h
  · exact (max_eq_right (UInt32.le_iff_toNat_le.1 h)).symm
  · exact (max_eq_left (Nat.le_of_not_le fun hle => h (UInt32.le_iff_toNat_le.2 hle))).symm

@[simp] theorem max_version_zero (v : Version) : max v 0 = v := by
  rw [← UInt32.toNat_inj, toNat_max_version]
  exact max_eq_left (Nat.zero_le _)

@[simp] theorem zero_max_version (v : Version) : max 0 v = v := by
  rw [← UInt32.toNat_inj, toNat_max_version]
  exact max_eq_right (Nat.zero_le _)

theorem le_max_version {v a b : Version} : v ≤ max a b ↔ v ≤ a ∨ v ≤ b := by
  simp only [UInt32.le_iff_toNat_le, toNat_max_version, le_max_iff]

structure RequestSource where
  synced : SyncedRouteInfo
  /-- `peer_reachable` of the route table -/
  peerReachable : PeerId → Bool
  cachedLocalConnMap : RouteConnBitmap
  cachedLocalConnMapVersion : Version
  /-- `FORCE_USE_CONN_LIST` -/
  forceUseConnList : Bool

structure SyncContents where
  peerInfos : Option (List RoutePeerInfo)
  connInfo : Option ConnInfo
  foreignNetworkInfos : Option (List ForeignNetworkInfo)
deriving DecidableEq

/-! ### What the other side has -/

namespace SyncRouteSession

variable (session : SyncRouteSession) (dstPeerId : PeerId)

def checkSaved {κ : Type} [DecidableEq κ] (saved : OrderedMap κ Version) (owner : PeerId) (key : κ)
    (version : Version) : Bool :=
  if version == 0 || owner == dstPeerId then true
  else (saved.get key).any fun v => decide (version ≤ v)

def checkSavedPeerInfoUpdateToDate (peerId : PeerId) (version : Version) : Bool :=
  checkSaved dstPeerId session.dstSavedPeerInfoVersions peerId peerId version

def checkSavedConnVersionUpdateToDate (peerId : PeerId) (version : Version) : Bool :=
  checkSaved dstPeerId session.dstSavedConnInfoVersion peerId peerId version

def checkSavedForeignNetworkVersionUpdateToDate (key : ForeignNetworkRouteInfoKey)
    (version : Version) : Bool :=
  checkSaved dstPeerId session.dstSavedForeignNetworkVersions key.peerId key version

def updateLastSyncSuccTimestamp (next : ℕ) : SyncRouteSession :=
  if session.lastSyncSuccTimestamp.all fun old => decide (old < next) then
    { session with lastSyncSuccTimestamp := some next }
  else session

end SyncRouteSession

/-! ### Selecting entries -/

section Select

variable {α : Type} (lastSync : Option ℕ) (lastUpdate : α → Option ℕ) (owner : PeerId × α → PeerId)
  (version : α → Version) (upToDate : PeerId → Version → Bool) (reachable : PeerId → Bool)

def isOlder (a : α) : Bool := (lastUpdate a).any fun t => lastSync.any fun last => decide (t < last)

/-- The loop over the entries, up to one that is older than the last synchronisation: what is sent,
and what is kept for when it can be reached. -/
def selectLoop : List (PeerId × α) → OrderedMap PeerId Version →
    List (PeerId × α) × OrderedMap PeerId Version
  | [], unreachable => ([], unreachable)
  | e :: es, unreachable =>
    if isOlder lastSync lastUpdate e.2 then ([], unreachable)
    else if upToDate (owner e) (version e.2) then selectLoop es unreachable
    else if !reachable e.1 then selectLoop es (unreachable.insert e.1 (version e.2))
    else
      let rest := selectLoop es unreachable
      (e :: rest.1, rest.2)

def select (m : OrderedMap PeerId α) (unreachable : OrderedMap PeerId Version) :
    List (PeerId × α) × OrderedMap PeerId Version :=
  let (selected, unreachable) := selectLoop lastSync lastUpdate owner version upToDate reachable
    m.entries.reverse unreachable
  let kept := unreachable.retain fun peerId =>
    (unreachable.get peerId).any fun v => !upToDate peerId v && m.contains peerId
  (selected ++ kept.entries.filterMap fun e =>
    if reachable e.1 then (m.get e.1).map fun a => (e.1, a) else none, kept)

end Select

namespace RequestSource

variable (src : RequestSource) (session : SyncRouteSession) (dstPeerId : PeerId)

def buildRouteInfo : Option (List RoutePeerInfo) × SyncRouteSession :=
  let (selected, unreachable) := select session.lastSyncSuccTimestamp RoutePeerInfo.lastUpdate
    (fun e => e.2.peerId) RoutePeerInfo.version (session.checkSavedPeerInfoUpdateToDate dstPeerId)
    src.peerReachable src.synced.peerInfos session.unreachablePeersForPeerInfo
  (if selected.isEmpty then none else some (selected.map Prod.snd),
    { session with unreachablePeersForPeerInfo := unreachable })

/-- The sizes of `PeerIdVersion` and `PeerId` in bytes. -/
def connEntrySize (conn : RouteConnInfo) : ℕ := 8 + conn.connectedPeers.length * 4

/-- `build_conn_peer_list`, with the estimated size -/
def buildConnPeerList : Option (List PeerConnInfo × ℕ) × SyncRouteSession :=
  let (selected, unreachable) := select session.lastSyncSuccTimestamp
    (fun conn => some conn.lastUpdate) Prod.fst RouteConnInfo.version
    (session.checkSavedConnVersionUpdateToDate dstPeerId) src.peerReachable src.synced.connMap
    session.unreachablePeersForConnInfo
  (if selected.isEmpty then none
    else some (selected.map fun e => ⟨some ⟨e.1, e.2.version⟩, e.2.connectedPeers⟩,
      (selected.map fun e => connEntrySize e.2).sum),
    { session with unreachablePeersForConnInfo := unreachable })

def estimateConnBitmapSize : ℕ :=
  src.cachedLocalConnMap.bitmap.length + src.cachedLocalConnMap.peerIds.length * 8

def dstSupportsPeerList : Bool :=
  (((src.synced.peerInfos.get dstPeerId).bind (·.featureFlag)).map (·.supportConnListSync)).getD
    false || src.forceUseConnList

def buildConnInfo : Option ConnInfo × SyncRouteSession :=
  match src.buildConnPeerList session dstPeerId with
  | (none, session) => (none, session)
  | (some (peerList, estimatedSize), session) =>
    if decide (estimatedSize < src.estimateConnBitmapSize) && src.dstSupportsPeerList dstPeerId then
      (some (.connPeerList peerList), session)
    else (some (.connBitmap src.cachedLocalConnMap), session)

def buildForeignNetworkInfo : Option (List ForeignNetworkInfo) :=
  let infos := (src.synced.foreignNetwork.entries.filter fun e =>
    !session.checkSavedForeignNetworkVersionUpdateToDate dstPeerId e.1 e.2.version).map
      fun e => ⟨some e.1, some e.2⟩
  if infos.isEmpty then none else some infos

def buildSyncRequest : SyncContents × SyncRouteSession :=
  let (routeInfos, session) := src.buildRouteInfo session dstPeerId
  let (connInfo, session) := src.buildConnInfo session dstPeerId
  (⟨routeInfos, connInfo, src.buildForeignNetworkInfo session dstPeerId⟩, session)

end RequestSource

def ConnInfo.Announces (connInfo : ConnInfo) (peerId : PeerId) (conn : RouteConnInfo) : Prop :=
  ∃ a ∈ connInfo.announced, a.peerId = peerId ∧ a.version = conn.version ∧
    ∀ other, other ∈ a.connectedPeers ↔ other ∈ conn.connectedPeers

/-! ### The cached bitmap -/

namespace RouteConnBitmap

variable {b : RouteConnBitmap}

theorem getBit_eq_testBit {idx : ℕ} (h : idx / 8 < b.bitmap.length) :
    b.getBit idx = .returns (testBit b.bitmap idx) := by
  rw [getBit, Outcome.index, testBit_eq, getD_eq_getElem?_getD,
    getElem?_eq_getElem h, Nat.testBit_eq_decide_div_mod_eq]
  simp [beq_eq_decide]

theorem mem_connectedFrom {peerIdx idx : ℕ} {ps : List PeerIdVersion} {connected : List PeerId}
    (h : b.connectedFrom peerIdx ps idx = .returns connected) {peerId : PeerId} :
    peerId ∈ connected ↔ ∃ j p, ps[j]? = some p ∧ p.peerId = peerId ∧
      testBit b.bitmap (peerIdx * b.peerIds.length + (idx + j)) = true := by
  induction ps generalizing idx connected with
  | nil =>
    cases h
    simp
  | cons p ps ih =>
    obtain ⟨bit, hbit, h⟩ := Outcome.bind_eq_returns_iff.1 h
    obtain ⟨rest, hrest, h⟩ := Outcome.bind_eq_returns_iff.1 h
    cases h
    rw [getBit_eq_testBit ((returns_getBit_iff b _).1 ⟨bit, hbit⟩)] at hbit
    cases hbit
    have hnext : ∀ j, idx + 1 + j = idx + (j + 1) := fun j => by omega
    have hmem : peerId ∈ (if testBit b.bitmap (peerIdx * b.peerIds.length + idx) then
        p.peerId :: rest else rest) ↔
        (p.peerId = peerId ∧ testBit b.bitmap (peerIdx * b.peerIds.length + idx) = true) ∨
          peerId ∈ rest := by
      split_ifs with hset
      · simp [hset, eq_comm]
      · simp [hset]
    rw [hmem, ih hrest]
    simp only [hnext]
    constructor
    · rintro (⟨hp, hset⟩ | ⟨j, q, hq⟩)
      · exact ⟨0, p, rfl, hp, hset⟩
      · exact ⟨j + 1, q, hq⟩
    · rintro ⟨j, q, hq, hid, hset⟩
      cases j with
      | zero =>
        cases hq
        exact .inl ⟨hid, hset⟩
      | succ j => exact .inr ⟨j, q, hq, hid, hset⟩

end RouteConnBitmap

namespace RequestSource

variable (src : RequestSource)

def addToAllPeerIds (m : OrderedMap PeerId Version) (peerId : PeerId) (version : Version) :
    OrderedMap PeerId Version := setIfLarger m peerId version

def addConn (m : OrderedMap PeerId Version) (e : PeerId × RouteConnInfo) :
    OrderedMap PeerId Version :=
  if src.peerReachable e.1 then
    e.2.connectedPeers.foldl (addToAllPeerIds · · 0) (addToAllPeerIds m e.1 e.2.version)
  else m

/-- `all_peer_ids`: the peers of the bitmap. -/
def allPeerIds : OrderedMap PeerId Version := src.synced.connMap.entries.foldl src.addConn .empty

/-- The bits that are set: bit `i * n + j` if peer `i` of `n` is connected to peer `j`. -/
def connBits (connMap : OrderedMap PeerId RouteConnInfo) (peerIds : List PeerIdVersion) : List ℕ :=
  peerIds.zipIdx.flatMap fun e =>
    match connMap.get e.1.peerId with
    | none => []
    | some connected =>
      (peerIds.zipIdx.filter fun f => connected.connectedPeers.contains f.1.peerId).map
        fun f => e.2 * peerIds.length + f.2

def connBitmap : RouteConnBitmap :=
  let peerIds := (src.allPeerIds.entries.insertionSort fun a b => a.1 ≤ b.1).map
    fun e => ⟨e.1, e.2⟩
  { peerIds := peerIds
    bitmap := (connBits src.synced.connMap peerIds).foldl setBit
      (List.replicate ((peerIds.length * peerIds.length + 7) / 8) 0) }

/-- The cache in `update_route_table_and_cached_local_conn_bitmap`, once the route table is up to
date. -/
def updateCachedLocalConnBitmap : RequestSource :=
  if src.cachedLocalConnMapVersion < src.synced.version then
    { src with
      cachedLocalConnMap := src.connBitmap
      cachedLocalConnMapVersion := src.synced.version }
  else src

section Bitmap

variable {src}

theorem get_addToAllPeerIds_zero (connected : List PeerId) (m : OrderedMap PeerId Version)
    (peerId : PeerId) :
    (connected.foldl (addToAllPeerIds · · 0) m).get peerId =
      if peerId ∈ connected then some ((m.get peerId).getD 0) else m.get peerId := by
  induction connected generalizing m with
  | nil => simp
  | cons other connected ih =>
    rw [foldl_cons, ih, addToAllPeerIds, setIfLarger, get_insert]
    by_cases hp : peerId = other <;> by_cases hmem : peerId ∈ connected <;> simp [hp, hmem]

theorem get_addConn (m : OrderedMap PeerId Version) (e : PeerId × RouteConnInfo) (peerId : PeerId) :
    (src.addConn m e).get peerId =
      if src.peerReachable e.1 = true then
        if peerId = e.1 then some (max ((m.get e.1).getD 0) e.2.version)
        else if peerId ∈ e.2.connectedPeers then some ((m.get peerId).getD 0) else m.get peerId
      else m.get peerId := by
  rw [addConn]
  split_ifs with hreach hp hmem
  · rw [get_addToAllPeerIds_zero, addToAllPeerIds, setIfLarger, get_insert, if_pos hp]
    simp
  · rw [get_addToAllPeerIds_zero, addToAllPeerIds, setIfLarger, get_insert, if_neg hp, if_pos hmem]
  · rw [get_addToAllPeerIds_zero, addToAllPeerIds, setIfLarger, get_insert, if_neg hp, if_neg hmem]
  · rfl

variable {peerId : PeerId} {conn : RouteConnInfo}

theorem contains_allPeerIds (hget : src.synced.connMap.get peerId = some conn)
    (hreach : src.peerReachable peerId = true) {other : PeerId}
    (hother : other = peerId ∨ other ∈ conn.connectedPeers) :
    src.allPeerIds.contains other = true := by
  refine foldl_reaches (P := (OrderedMap.contains · other = true))
    (Q := fun e => src.peerReachable e.1 = true ∧ (other = e.1 ∨ other ∈ e.2.connectedPeers))
    (.inr ⟨(peerId, conn), mem_of_get hget, hreach, hother⟩) fun m e h => ?_
  rw [OrderedMap.contains] at h ⊢
  rw [get_addConn]
  grind

theorem get_allPeerIds (hget : src.synced.connMap.get peerId = some conn)
    (hreach : src.peerReachable peerId = true) : src.allPeerIds.get peerId = some conn.version := by
  -- steps for other peers give the peer version 0 at most
  have hstep : ∀ e ∈ src.synced.connMap.entries, ∀ m, ((src.addConn m e).get peerId).getD 0 =
      if e.1 = peerId then max ((m.get peerId).getD 0) e.2.version else (m.get peerId).getD 0 := by
    intro e _ m
    rw [get_addConn]
    by_cases he : e.1 = peerId
    · simp [he, hreach]
    · rw [if_neg he, if_neg (Ne.symm he)]
      split_ifs <;> simp
  have hvalue : (src.allPeerIds.get peerId).getD 0 = conn.version := by
    rw [allPeerIds, foldl_entries (g := fun m => (get m peerId).getD 0)
      (w := fun conn v => max v conn.version) _ _ hstep, hget]
    exact zero_max_version _
  obtain ⟨v, hv⟩ := contains_eq_true_iff.1 (contains_allPeerIds hget hreach (.inl rfl))
  rw [hv] at hvalue ⊢
  exact congrArg some hvalue

theorem mem_connBits {connMap : OrderedMap PeerId RouteConnInfo} {peerIds : List PeerIdVersion}
    {bit : ℕ} : bit ∈ connBits connMap peerIds ↔ ∃ i p j q conn, peerIds[i]? = some p ∧
      peerIds[j]? = some q ∧ connMap.get p.peerId = some conn ∧ q.peerId ∈ conn.connectedPeers ∧
      bit = i * peerIds.length + j := by
  simp only [connBits, mem_flatMap, Prod.exists, mem_zipIdx_iff_getElem?]
  constructor
  · rintro ⟨p, i, hp, hbit⟩
    cases hconn : connMap.get p.peerId with
    | none => simp [hconn] at hbit
    | some conn =>
      simp only [hconn, mem_map, mem_filter, Prod.exists, mem_zipIdx_iff_getElem?,
        contains_iff_mem] at hbit
      obtain ⟨q, j, ⟨hq, hmem⟩, rfl⟩ := hbit
      exact ⟨i, p, j, q, conn, hp, hq, hconn, hmem, rfl⟩
  · rintro ⟨i, p, j, q, conn, hp, hq, hconn, hmem, rfl⟩
    refine ⟨p, i, hp, ?_⟩
    simp only [hconn, mem_map, mem_filter, Prod.exists, mem_zipIdx_iff_getElem?, contains_iff_mem]
    exact ⟨q, j, ⟨hq, hmem⟩, rfl⟩

variable (src) in
theorem length_connBitmap : src.connBitmap.bitmap.length =
    (src.connBitmap.peerIds.length * src.connBitmap.peerIds.length + 7) / 8 := by
  rw [connBitmap, length_foldl_setBit, length_replicate]

variable (src) in
theorem covers_connBitmap : src.connBitmap.Covers := by
  rw [RouteConnBitmap.Covers, length_connBitmap]
  omega

theorem testBit_connBitmap {bit : ℕ} : testBit src.connBitmap.bitmap bit = true ↔
    bit ∈ connBits src.synced.connMap src.connBitmap.peerIds := by
  have hrange : ∀ bit ∈ connBits src.synced.connMap src.connBitmap.peerIds, bit <
      8 * (List.replicate ((src.connBitmap.peerIds.length * src.connBitmap.peerIds.length + 7) / 8)
        (0 : UInt8)).length := by
    intro bit hbit
    obtain ⟨i, p, j, q, conn, hp, hq, -, -, rfl⟩ := mem_connBits.1 hbit
    have hlt := bit_lt (List.getElem?_eq_some_iff.1 hp).1
      (List.getElem?_eq_some_iff.1 hq).1
    rw [length_replicate]
    omega
  have hbit := testBit_foldl_setBit hrange bit
  rw [testBit_replicate_zero, Bool.or_false] at hbit
  exact (Bool.eq_iff_iff.1 hbit).trans decide_eq_true_iff

theorem connBitmap_row {i : ℕ} {p : PeerIdVersion} (hp : src.connBitmap.peerIds[i]? = some p)
    (hget : src.synced.connMap.get p.peerId = some conn) :
    ∃ connected, src.connBitmap.getConnectedPeers i = .returns connected ∧
      ∀ other, other ∈ connected ↔ other ∈ conn.connectedPeers ∧
        ∃ q ∈ src.connBitmap.peerIds, q.peerId = other := by
  have hi := (List.getElem?_eq_some_iff.1 hp).1
  obtain ⟨connected, hconnected⟩ := covers_iff.1 src.covers_connBitmap i hi
  obtain ⟨row, hrow, heq⟩ := Outcome.bind_eq_returns_iff.1 hconnected
  cases heq
  refine ⟨_, hconnected, fun other => ?_⟩
  simp only [mem_peerSet, mem_connectedFrom hrow, testBit_connBitmap, mem_connBits, Nat.zero_add]
  constructor
  · rintro ⟨j, q, hq, rfl, i', p', j', q', conn', hp', hq', hget', hmem, hbit⟩
    -- a bit belongs to one row and one column
    have hj := (List.getElem?_eq_some_iff.1 hq).1
    have hj' := (List.getElem?_eq_some_iff.1 hq').1
    have hn : 0 < src.connBitmap.peerIds.length := by omega
    obtain rfl : i = i' := by
      have hdiv := congrArg (· / src.connBitmap.peerIds.length) hbit
      simpa [Nat.mul_add_div hn, Nat.add_comm, Nat.add_mul_div_right _ _ hn, Nat.div_eq_of_lt hj,
        Nat.div_eq_of_lt hj'] using hdiv
    obtain rfl : j = j' := by omega
    cases hp.symm.trans hp'
    cases hq.symm.trans hq'
    cases hget.symm.trans hget'
    exact ⟨hmem, q, mem_of_getElem? hq, rfl⟩
  · rintro ⟨hmem, q, hq, rfl⟩
    obtain ⟨j, hq⟩ := mem_iff_getElem?.1 hq
    exact ⟨j, q, hq, rfl, i, p, j, q, conn, hp, hq, hget, hmem, rfl⟩

theorem mem_connBitmap_peerIds {p : PeerIdVersion} :
    p ∈ src.connBitmap.peerIds ↔ src.allPeerIds.get p.peerId = some p.version := by
  simp only [connBitmap, mem_map, mem_insertionSort, Prod.exists]
  constructor
  · rintro ⟨peerId, version, hmem, rfl⟩
    exact get_of_mem hmem
  · exact fun h => ⟨p.peerId, p.version, mem_of_get h, rfl⟩

/-- **A bitmap that has just been built announces the connections of all reachable peers.** -/
theorem announces_connBitmap (hget : src.synced.connMap.get peerId = some conn)
    (hreach : src.peerReachable peerId = true) :
    (ConnInfo.connBitmap src.connBitmap).Announces peerId conn := by
  have hmem : (⟨peerId, conn.version⟩ : PeerIdVersion) ∈ src.connBitmap.peerIds :=
    mem_connBitmap_peerIds.2 (get_allPeerIds hget hreach)
  obtain ⟨i, hi⟩ := mem_iff_getElem?.1 hmem
  obtain ⟨connected, hrow, hconnected⟩ := connBitmap_row hi hget
  refine ⟨⟨peerId, conn.version, connected⟩, ?_, rfl, rfl, fun other => ?_⟩
  · refine mem_filterMap.2 ⟨(⟨peerId, conn.version⟩, i), mem_zipIdx_iff_getElem?.2 hi, ?_⟩
    rw [row, hrow]
  · refine (hconnected other).trans (and_iff_left_of_imp fun hother => ?_)
    obtain ⟨version, hversion⟩ :=
      contains_eq_true_iff.1 (contains_allPeerIds hget hreach (.inr hother))
    exact ⟨⟨other, version⟩, mem_connBitmap_peerIds.2 hversion, rfl⟩

end Bitmap

/-- **The bitmap carries the connections of every reachable peer**: the peer is listed, with its
version wherever it is, and its row is read as the connected peers that are listed, which are all. -/
theorem conn_bitmap_faithful (src : RequestSource) (peerId : PeerId) (conn : RouteConnInfo)
    (hget : src.synced.connMap.get peerId = some conn) (hreach : src.peerReachable peerId = true) :
    (∃ p ∈ src.connBitmap.peerIds, p.peerId = peerId) ∧
      (∀ other ∈ conn.connectedPeers, ∃ q ∈ src.connBitmap.peerIds, q.peerId = other) ∧
      ∀ i p, src.connBitmap.peerIds[i]? = some p → p.peerId = peerId → p.version = conn.version ∧
        ∃ connected, src.connBitmap.getConnectedPeers i = .returns connected ∧
          ∀ other, other ∈ connected ↔ other ∈ conn.connectedPeers ∧
            ∃ q ∈ src.connBitmap.peerIds, q.peerId = other := by
  have hversion := get_allPeerIds hget hreach
  refine ⟨⟨⟨peerId, conn.version⟩, mem_connBitmap_peerIds.2 hversion, rfl⟩, fun other hother => ?_, ?_⟩
  · obtain ⟨version, hlisted⟩ :=
      contains_eq_true_iff.1 (contains_allPeerIds hget hreach (.inr hother))
    exact ⟨⟨other, version⟩, mem_connBitmap_peerIds.2 hlisted, rfl⟩
  · rintro i p hp rfl
    have hlisted := mem_connBitmap_peerIds.1 (mem_of_getElem? hp)
    exact ⟨Option.some.inj (hlisted.symm.trans hversion), connBitmap_row hp hget⟩

/-- Peer 1 is connected to 2 and 3; nine bits take two bytes. -/
def lineSource : RequestSource where
  synced := { SyncedRouteInfo.empty with connMap := OrderedMap.empty.insert 1 ⟨[2, 3], 4, 50⟩ }
  peerReachable _ := true
  cachedLocalConnMap := ⟨[], []⟩
  cachedLocalConnMapVersion := 0
  forceUseConnList := false

theorem line_bitmap_faithful : lineSource.connBitmap.bitmap = [6, 0] ∧
    ∃ connected, lineSource.connBitmap.getConnectedPeers 0 = .returns connected ∧
      ∀ other, other ∈ connected ↔ other ∈ ([2, 3] : List PeerId) ∧
        ∃ q ∈ lineSource.connBitmap.peerIds, q.peerId = other :=
  ⟨by decide +kernel, ((conn_bitmap_faithful lineSource 1 ⟨[2, 3], 4, 50⟩ rfl rfl).2.2 0 ⟨1, 4⟩
    (by decide +kernel) rfl).2⟩

end RequestSource

end PactMesh
