import PactMesh.Peers.RouteRequest
import Mathlib.Data.List.TakeWhile

/-!
# Sessions with a peer that has started anew

If the other side has started anew, its session id changes, and what the session remembers of it is
void.  The id is seen in a request or a response, and what the call carried is noted right after.

Main result: `restart_resends_iff`.
-/

namespace PactMesh

open OrderedMap Outcome SyncRouteSession SyncedRouteInfo
open List hiding get_of_mem

/-! ### What is selected -/

section Select

variable {α : Type} {lastSync : Option ℕ} {lastUpdate : α → Option ℕ} {owner : PeerId × α → PeerId}
  {version : α → Version} {upToDate : PeerId → Version → Bool} {reachable : PeerId → Bool}

def recent (lastSync : Option ℕ) (lastUpdate : α → Option ℕ) (m : OrderedMap PeerId α) :
    List (PeerId × α) := m.entries.reverse.takeWhile fun e => !isOlder lastSync lastUpdate e.2

theorem mem_recent_none {m : OrderedMap PeerId α} {e : PeerId × α} :
    e ∈ recent none lastUpdate m ↔ e ∈ m.entries := by
  have hnever : ∀ a : α, isOlder none lastUpdate a = false := fun a => by simp [isOlder]
  rw [recent, takeWhile_eq_self_iff.2 (by simp [hnever]), mem_reverse]

theorem selectLoop_fst (entries : List (PeerId × α)) (unreachable : OrderedMap PeerId Version) :
    (selectLoop lastSync lastUpdate owner version upToDate reachable entries unreachable).1 =
      (entries.takeWhile fun e => !isOlder lastSync lastUpdate e.2).filter
        fun e => !upToDate (owner e) (version e.2) && reachable e.1 := by
  induction entries generalizing unreachable with
  | nil => rfl
  | cons e entries ih =>
    rw [selectLoop]
    split_ifs with hold hsaved hreach
    · simp [hold]
    · rw [ih, takeWhile_cons_of_pos (by simpa using hold), filter_cons_of_neg]
      simp [hsaved]
    · rw [ih, takeWhile_cons_of_pos (by simpa using hold), filter_cons_of_neg]
      simpa using fun _ => hreach
    · dsimp only
      rw [ih, takeWhile_cons_of_pos (by simpa using hold), filter_cons_of_pos]
      simpa using And.intro hsaved hreach

theorem unreachable_of_selectLoop {entries : List (PeerId × α)}
    {unreachable : OrderedMap PeerId Version}
    (h : ∀ peerId, unreachable.contains peerId = true → reachable peerId = false) {peerId : PeerId}
    (hmem : (selectLoop lastSync lastUpdate owner version upToDate reachable entries
      unreachable).2.contains peerId = true) : reachable peerId = false := by
  induction entries generalizing unreachable with
  | nil => exact h peerId hmem
  | cons first entries ih =>
    rw [selectLoop] at hmem
    split_ifs at hmem with hold hsaved hreach
    · exact h peerId hmem
    · exact ih h hmem
    · refine ih (fun q hq => ?_) hmem
      rw [OrderedMap.contains, get_insert] at hq
      split_ifs at hq with heq
      · rw [heq]
        simpa using hreach
      · exact h q hq
    · exact ih h hmem

theorem select_fst (m : OrderedMap PeerId α) :
    (select lastSync lastUpdate owner version upToDate reachable m .empty).1 =
      (recent lastSync lastUpdate m).filter
        fun e => !upToDate (owner e) (version e.2) && reachable e.1 := by
  rw [recent, ← selectLoop_fst m.entries.reverse .empty, select]
  refine append_right_eq_self.2 (filterMap_eq_nil_iff.2 ?_)
  rintro ⟨peerId, v⟩ hmem
  have hcontains : (selectLoop lastSync lastUpdate owner version upToDate reachable m.entries.reverse
      .empty).2.contains peerId = true := by
    have hget := get_of_mem hmem
    rw [get_retain] at hget
    split_ifs at hget
    exact contains_eq_true_iff.2 ⟨v, hget⟩
  have hreach := unreachable_of_selectLoop (by simp [OrderedMap.contains]) hcontains
  simp [hreach]

end Select

/-! ### What a call leaves in the session -/

/-- A call that went well: what the other side has sent or been sent, and when the request was built
if it was this node's. -/
structure SyncExchange where
  contents : SyncContents
  sentAt : Option ℕ

namespace SyncExchange

variable (ex : SyncExchange)

def hasInfo (peerId : PeerId) (version : Version) : Bool :=
  ex.contents.peerInfos.any fun infos =>
    infos.any fun info => info.peerId == peerId && decide (version ≤ info.version)

def hasConn (peerId : PeerId) (version : Version) : Bool :=
  ex.contents.connInfo.any fun connInfo =>
    (SyncRouteSession.announcedConns connInfo).any
      fun p => p.peerId == peerId && decide (version ≤ p.version)

def hasForeign (key : ForeignNetworkRouteInfoKey) (version : Version) : Bool :=
  ex.contents.foreignNetworkInfos.any fun infos =>
    infos.any fun item => item.key == some key &&
      item.value.any fun value => decide (version ≤ value.version)

end SyncExchange

namespace SyncRouteSession

variable (session : SyncRouteSession) (dstPeerId : PeerId)

def noteExchange (sessionId : UInt64) (ex : SyncExchange) : Outcome SyncRouteSession := do
  let session := session.updateDstSessionId sessionId
  let session := ex.contents.peerInfos.elim session
    (session.updateDstSavedPeerInfoVersion · dstPeerId)
  let session := ex.contents.connInfo.elim session
    (session.updateDstSavedConnInfoVersion · dstPeerId)
  let session ← ex.contents.foreignNetworkInfos.elim (return session)
    (session.updateDstSavedForeignNetworkVersion · dstPeerId)
  return ex.sentAt.elim session session.updateLastSyncSuccTimestamp

/-- The end of `sync_route_with_peer`, for a response without error to a request that was built at
time `next`. -/
def handleResponse (isInitiator : Bool) (sessionId : UInt64) (sent : SyncContents) (next : ℕ) :
    Outcome SyncRouteSession :=
  { session with dstIsInitiator := isInitiator }.noteExchange dstPeerId sessionId ⟨sent, some next⟩

section Saved

variable {session dstPeerId} {κ : Type} [DecidableEq κ] {version : Version}

/-- The version, or a later one, is saved. -/
def covers (saved : OrderedMap κ Version) (key : κ) (version : Version) : Bool :=
  (saved.get key).any fun v => decide (version ≤ v)

theorem checkSaved_eq {saved : OrderedMap κ Version} {owner : PeerId} {key : κ} {known : Bool}
    (h : owner ≠ dstPeerId → covers saved key version = known) :
    checkSaved dstPeerId saved owner key version =
      (version == 0 || owner == dstPeerId || known) := by
  rw [checkSaved]
  split_ifs with hnever
  · rw [hnever, Bool.true_or]
  · rw [Bool.not_eq_true] at hnever
    rw [hnever, Bool.false_or]
    exact h (by simpa using (Bool.or_eq_false_iff.1 hnever).2)

theorem covers_setIfLarger (m : OrderedMap κ Version) (key : κ) (new : Version) (k : κ) :
    covers (setIfLarger m key new) k version =
      (covers m k version || (key == k && decide (version ≤ new))) := by
  rw [covers, covers, setIfLarger, get_insert, Bool.eq_iff_iff]
  by_cases hk : k = key
  · subst hk
    cases m.get k with
    | none => simp
    | some old => simp [le_max_version]
  · simp [hk, Ne.symm hk]

theorem covers_foldl_setIfLarger {β : Type} {peerId : PeerId}
    (hpeer : peerId ≠ dstPeerId) (peerOf : β → PeerId) (versionOf : β → Version) (items : List β)
    (m : OrderedMap PeerId Version) :
    covers (items.foldl (fun m b => if peerOf b = dstPeerId then m
        else setIfLarger m (peerOf b) (versionOf b)) m) peerId version = (covers m peerId version ||
        items.any fun b => peerOf b == peerId && decide (version ≤ versionOf b)) := by
  induction items generalizing m with
  | nil => simp
  | cons b items ih =>
    rw [foldl_cons, ih, any_cons]
    split_ifs with hskip
    · have hne : (peerOf b == peerId) = false := beq_eq_false_iff_ne.2 (hskip ▸ Ne.symm hpeer)
      rw [hne, Bool.false_and, Bool.false_or]
    · rw [covers_setIfLarger, Bool.or_assoc]

theorem covers_savedForeignVersions {key : ForeignNetworkRouteInfoKey}
    (hpeer : key.peerId ≠ dstPeerId) {items : List ForeignNetworkInfo}
    {m m' : OrderedMap ForeignNetworkRouteInfoKey Version}
    (h : savedForeignVersions dstPeerId items m = .returns m') :
    covers m' key version = (covers m key version ||
        items.any fun item => item.key == some key &&
          item.value.any fun value => decide (version ≤ value.version)) := by
  induction items generalizing m with
  | nil =>
    cases h
    simp
  | cons item items ih =>
    obtain ⟨k, hk, h⟩ := bind_eq_returns_iff.1 h
    rw [any_cons, unwrap_eq_returns_iff.1 hk]
    split_ifs at h with hskip
    · have hne : (some k == some key) = false := by
        rw [beq_eq_false_iff_ne]
        rintro ⟨⟩
        exact hpeer hskip
      rw [ih h, hne, Bool.false_and, Bool.false_or]
    · obtain ⟨value, hvalue, h⟩ := bind_eq_returns_iff.1 h
      rw [ih h, covers_setIfLarger, Bool.or_assoc, unwrap_eq_returns_iff.1 hvalue]
      rfl

end Saved

variable {session dstPeerId} {session' : SyncRouteSession} {sessionId : UInt64} {ex : SyncExchange}

theorem noteInfos_eq (session : SyncRouteSession) (dstPeerId : PeerId) (ex : SyncExchange) :
    ∃ saved, ex.contents.peerInfos.elim session (session.updateDstSavedPeerInfoVersion · dstPeerId) =
        { session with dstSavedPeerInfoVersions := saved } ∧
      ∀ peerId version, peerId ≠ dstPeerId → covers saved peerId version =
        (covers session.dstSavedPeerInfoVersions peerId version || ex.hasInfo peerId version) := by
  unfold SyncExchange.hasInfo
  cases ex.contents.peerInfos with
  | none => exact ⟨_, rfl, by simp⟩
  | some infos => exact ⟨_, rfl, fun _ _ hpeer => covers_foldl_setIfLarger hpeer _ _ _ _⟩

theorem noteConns_eq (session : SyncRouteSession) (dstPeerId : PeerId) (ex : SyncExchange) :
    ∃ saved, ex.contents.connInfo.elim session (session.updateDstSavedConnInfoVersion · dstPeerId) =
        { session with dstSavedConnInfoVersion := saved } ∧
      ∀ peerId version, peerId ≠ dstPeerId → covers saved peerId version =
        (covers session.dstSavedConnInfoVersion peerId version || ex.hasConn peerId version) := by
  unfold SyncExchange.hasConn
  cases ex.contents.connInfo with
  | none => exact ⟨_, rfl, by simp⟩
  | some connInfo => exact ⟨_, rfl, fun _ _ hpeer => covers_foldl_setIfLarger hpeer _ _ _ _⟩

theorem noteForeign_eq (h : ex.contents.foreignNetworkInfos.elim (return session)
      (session.updateDstSavedForeignNetworkVersion · dstPeerId) = .returns session') :
    ∃ saved, session' = { session with dstSavedForeignNetworkVersions := saved } ∧
      ∀ key version, key.peerId ≠ dstPeerId → covers saved key version =
        (covers session.dstSavedForeignNetworkVersions key version || ex.hasForeign key version) := by
  unfold SyncExchange.hasForeign
  cases hinfos : ex.contents.foreignNetworkInfos with
  | none =>
    rw [hinfos] at h
    cases h
    exact ⟨_, rfl, by simp⟩
  | some infos =>
    rw [hinfos] at h
    obtain ⟨saved, hsaved, h⟩ := bind_eq_returns_iff.1 h
    cases h
    exact ⟨saved, rfl, fun _ _ hpeer => covers_savedForeignVersions hpeer hsaved⟩

theorem noteTime_eq (h : session.lastSyncSuccTimestamp = none) (sentAt : Option ℕ) :
    sentAt.elim session session.updateLastSyncSuccTimestamp =
      { session with lastSyncSuccTimestamp := sentAt } := by
  cases sentAt with
  | none => rw [Option.elim_none, ← h]
  | some next =>
    rw [Option.elim_some, updateLastSyncSuccTimestamp, h, Option.all_none, if_pos rfl]

/-- **What the session remembers after a call with a new id**: what the call carried, and the foreign
networks from before. -/
theorem noteExchange_spec (hid : sessionId ≠ session.dstSessionId)
    (h : session.noteExchange dstPeerId sessionId ex = .returns session') :
    session'.unreachablePeersForPeerInfo = .empty ∧ session'.unreachablePeersForConnInfo = .empty ∧
      session'.lastSyncSuccTimestamp = ex.sentAt ∧
      (∀ peerId version, session'.checkSavedPeerInfoUpdateToDate dstPeerId peerId version =
        (version == 0 || peerId == dstPeerId || ex.hasInfo peerId version)) ∧
      (∀ peerId version, session'.checkSavedConnVersionUpdateToDate dstPeerId peerId version =
        (version == 0 || peerId == dstPeerId || ex.hasConn peerId version)) ∧
      ∀ key version, session'.checkSavedForeignNetworkVersionUpdateToDate dstPeerId key version =
        (version == 0 || key.peerId == dstPeerId ||
          (covers session.dstSavedForeignNetworkVersions key version ||
            ex.hasForeign key version)) := by
  rw [noteExchange, updateDstSessionId, if_neg hid] at h
  obtain ⟨session₃, hforeign, h⟩ := bind_eq_returns_iff.1 h
  obtain ⟨infosSaved, hinfos, hinfosGet⟩ := noteInfos_eq
    { session with
      dstSessionId := sessionId
      dstSavedConnInfoVersion := .empty
      dstSavedPeerInfoVersions := .empty
      lastSyncSuccTimestamp := none
      unreachablePeersForPeerInfo := .empty
      unreachablePeersForConnInfo := .empty } dstPeerId ex
  rw [hinfos] at hforeign
  obtain ⟨connsSaved, hconns, hconnsGet⟩ := noteConns_eq _ dstPeerId ex
  rw [hconns] at hforeign
  obtain ⟨foreignSaved, rfl, hforeignGet⟩ := noteForeign_eq hforeign
  rw [pure_eq, noteTime_eq rfl] at h
  cases h
  refine ⟨rfl, rfl, rfl, ?_, ?_, ?_⟩
  · intro peerId version
    exact checkSaved_eq fun hpeer => (hinfosGet peerId version hpeer).trans (Bool.false_or _)
  · intro peerId version
    exact checkSaved_eq fun hpeer => (hconnsGet peerId version hpeer).trans (Bool.false_or _)
  · intro key version
    exact checkSaved_eq fun hpeer => hforeignGet key version hpeer

end SyncRouteSession

namespace RequestSource

variable (src : RequestSource) (dstPeerId : PeerId)

/-- A request carries everything for another side that has nothing: the descriptions with a version
and the connections of reachable peers, and the foreign networks with a version, except for what is
its own. -/
@[mk_iff]
structure Complete (contents : SyncContents) : Prop where
  infos : ∀ peerId info, src.synced.peerInfos.get peerId = some info →
    src.peerReachable peerId = true → info.version ≠ 0 → info.peerId ≠ dstPeerId →
    ∃ infos, contents.peerInfos = some infos ∧ info ∈ infos
  conns : ∀ peerId conn, src.synced.connMap.get peerId = some conn →
    src.peerReachable peerId = true → peerId ≠ dstPeerId →
    ∃ connInfo, contents.connInfo = some connInfo ∧ connInfo.Announces peerId conn
  foreign : ∀ key entry, src.synced.foreignNetwork.get key = some entry → entry.version ≠ 0 →
    key.peerId ≠ dstPeerId →
    ∃ infos, contents.foreignNetworkInfos = some infos ∧ ⟨some key, some entry⟩ ∈ infos

variable (ex : SyncExchange)

/-- The connections that are due after the call: of reachable peers, with a version, not older than the
request of the call and not carried by it. -/
def dueConns : List (PeerId × RouteConnInfo) :=
  (recent ex.sentAt (fun conn => some conn.lastUpdate) src.synced.connMap).filter fun e =>
    e.2.version != 0 && e.1 != dstPeerId && !ex.hasConn e.1 e.2.version && src.peerReachable e.1

def PrefersList : Prop :=
  ((src.dueConns dstPeerId ex).map fun e => connEntrySize e.2).sum < src.estimateConnBitmapSize ∧
    src.dstSupportsPeerList dstPeerId = true

instance : Decidable (src.PrefersList dstPeerId ex) := inferInstanceAs (Decidable (_ ∧ _))

/-- When everything is sent: nothing that the other side may lack was carried by the call or is
older than its request, no foreign network is held for known from before, and a cached bitmap has
the connections of all reachable peers. -/
@[mk_iff]
structure NothingHeldBack (session : SyncRouteSession) : Prop where
  infos : ∀ peerId info, src.synced.peerInfos.get peerId = some info →
    src.peerReachable peerId = true → info.version ≠ 0 → info.peerId ≠ dstPeerId →
    ex.hasInfo info.peerId info.version = false ∧
      ∃ e ∈ recent ex.sentAt RoutePeerInfo.lastUpdate src.synced.peerInfos,
        e.2 = info ∧ src.peerReachable e.1 = true
  conns : ∀ peerId conn, src.synced.connMap.get peerId = some conn →
    src.peerReachable peerId = true → peerId ≠ dstPeerId →
    if src.PrefersList dstPeerId ex then (peerId, conn) ∈ src.dueConns dstPeerId ex
    else src.dueConns dstPeerId ex ≠ [] ∧
      (ConnInfo.connBitmap src.cachedLocalConnMap).Announces peerId conn
  foreign : ∀ key entry, src.synced.foreignNetwork.get key = some entry → entry.version ≠ 0 →
    key.peerId ≠ dstPeerId → ex.hasForeign key entry.version = false ∧
      ∀ v, session.dstSavedForeignNetworkVersions.get key = some v → v < entry.version

variable {src dstPeerId ex} {session session' : SyncRouteSession} {sessionId : UInt64}

theorem exists_mem_unless_empty {β γ : Type} {l : List β} {items : List γ} {c : γ}
    (h : l = [] → items = []) :
    (∃ sent, (if l.isEmpty then none else some items) = some sent ∧ c ∈ sent) ↔ c ∈ items := by
  by_cases hempty : l.isEmpty = true
  · simp [hempty, h (List.isEmpty_iff.1 hempty)]
  · simp [hempty]

theorem buildConnInfo_eq (src : RequestSource) (session : SyncRouteSession) (dstPeerId : PeerId) :
    src.buildConnInfo session dstPeerId =
      ((src.buildConnPeerList session dstPeerId).1.map fun list =>
        if decide (list.2 < src.estimateConnBitmapSize) && src.dstSupportsPeerList dstPeerId then
          .connPeerList list.1
        else .connBitmap src.cachedLocalConnMap, (src.buildConnPeerList session dstPeerId).2) := by
  rw [buildConnInfo]
  rcases src.buildConnPeerList session dstPeerId with ⟨_ | list, session⟩
  · rfl
  · dsimp only [Option.map_some]
    split_ifs <;> rfl

section Restarted

variable (hid : sessionId ≠ session.dstSessionId)
    (h : session.noteExchange dstPeerId sessionId ex = .returns session')

include hid h

theorem buildRouteInfo_of_restart {info : RoutePeerInfo} (hversion : info.version ≠ 0)
    (hpeer : info.peerId ≠ dstPeerId) :
    (∃ infos, (src.buildRouteInfo session' dstPeerId).1 = some infos ∧ info ∈ infos) ↔
      ex.hasInfo info.peerId info.version = false ∧
        ∃ e ∈ recent ex.sentAt RoutePeerInfo.lastUpdate src.synced.peerInfos,
          e.2 = info ∧ src.peerReachable e.1 = true := by
  obtain ⟨hunreachable, -, hlast, hcheck, -⟩ := noteExchange_spec hid h
  rw [buildRouteInfo, hunreachable, hlast]
  refine (exists_mem_unless_empty fun hnil => ?_).trans ?_
  · rw [hnil, map_nil]
  · simp only [select_fst, mem_map, mem_filter, hcheck, Bool.and_eq_true, Bool.not_eq_true',
      Bool.or_eq_false_iff, beq_eq_false_iff_ne]
    constructor
    · rintro ⟨e, ⟨hrecent, ⟨-, hcarried⟩, hreach⟩, rfl⟩
      exact ⟨hcarried, e, hrecent, rfl, hreach⟩
    · rintro ⟨hcarried, e, hrecent, rfl, hreach⟩
      exact ⟨e, ⟨hrecent, ⟨⟨hversion, hpeer⟩, hcarried⟩, hreach⟩, rfl⟩

theorem buildForeignNetworkInfo_of_restart {key : ForeignNetworkRouteInfoKey}
    {entry : ForeignNetworkRouteInfoEntry}
    (hget : src.synced.foreignNetwork.get key = some entry) (hversion : entry.version ≠ 0)
    (hpeer : key.peerId ≠ dstPeerId) :
    (∃ infos, src.buildForeignNetworkInfo session' dstPeerId = some infos ∧
        ⟨some key, some entry⟩ ∈ infos) ↔ ex.hasForeign key entry.version = false ∧
        ∀ v, session.dstSavedForeignNetworkVersions.get key = some v → v < entry.version := by
  obtain ⟨-, -, -, -, -, hcheck⟩ := noteExchange_spec hid h
  rw [buildForeignNetworkInfo]
  refine (exists_mem_unless_empty id).trans ?_
  have hmem : (⟨some key, some entry⟩ : ForeignNetworkInfo) ∈
      (src.synced.foreignNetwork.entries.filter fun e =>
        !session'.checkSavedForeignNetworkVersionUpdateToDate dstPeerId e.1 e.2.version).map
          (fun e => ⟨some e.1, some e.2⟩) ↔
      session'.checkSavedForeignNetworkVersionUpdateToDate dstPeerId key entry.version = false := by
    simp only [mem_map, mem_filter, Prod.exists, ForeignNetworkInfo.mk.injEq,
      Option.some.injEq, Bool.not_eq_true']
    constructor
    · rintro ⟨_, _, ⟨-, hfree⟩, rfl, rfl⟩
      exact hfree
    · exact fun hfree => ⟨key, entry, ⟨mem_of_get hget, hfree⟩, rfl, rfl⟩
  rw [hmem, hcheck, beq_false_of_ne hversion, beq_false_of_ne hpeer, Bool.false_or, Bool.false_or,
    Bool.or_eq_false_iff, and_comm]
  refine and_congr_right fun _ => ?_
  rw [SyncRouteSession.covers]
  cases session.dstSavedForeignNetworkVersions.get key with
  | none => simp
  | some v => simp

theorem buildConnInfo_of_restart :
    (src.buildConnInfo session' dstPeerId).1 =
      if src.dueConns dstPeerId ex = [] then none
      else some (if src.PrefersList dstPeerId ex then
        .connPeerList ((src.dueConns dstPeerId ex).map
          fun e => ⟨some ⟨e.1, e.2.version⟩, e.2.connectedPeers⟩)
      else .connBitmap src.cachedLocalConnMap) := by
  obtain ⟨-, hunreachable, hlast, -, hcheck, -⟩ := noteExchange_spec hid h
  have hdue : (select ex.sentAt (fun conn => some conn.lastUpdate) Prod.fst RouteConnInfo.version
      (session'.checkSavedConnVersionUpdateToDate dstPeerId) src.peerReachable src.synced.connMap
      .empty).1 = src.dueConns dstPeerId ex := by
    rw [select_fst, dueConns]
    congr 1
    funext e
    rw [hcheck, Bool.not_or, Bool.not_or]
    rfl
  rw [buildConnInfo_eq, buildConnPeerList, hunreachable, hlast]
  dsimp only
  rw [hdue]
  by_cases hnil : src.dueConns dstPeerId ex = []
  · simp [hnil]
  · simp [hnil, PrefersList]
    congr

end Restarted

theorem announces_dueConns {peerId : PeerId} {conn : RouteConnInfo}
    (hget : src.synced.connMap.get peerId = some conn) :
    (ConnInfo.connPeerList ((src.dueConns dstPeerId ex).map
        fun e => ⟨some ⟨e.1, e.2.version⟩, e.2.connectedPeers⟩)).Announces peerId conn ↔
      (peerId, conn) ∈ src.dueConns dstPeerId ex := by
  have hstored : ∀ e ∈ src.dueConns dstPeerId ex, src.synced.connMap.get e.1 = some e.2 := by
    intro e he
    have hmem := (takeWhile_sublist _).subset (mem_filter.1 he).1
    exact get_of_mem (mem_reverse.1 hmem)
  constructor
  · rintro ⟨a, ha, rfl, -, -⟩
    obtain ⟨entry, hentry, ha⟩ := mem_filterMap.1 ha
    obtain ⟨e, he, rfl⟩ := mem_map.1 hentry
    cases ha
    cases (hstored e he).symm.trans hget
    exact he
  · intro he
    refine ⟨⟨peerId, conn.version, peerSet conn.connectedPeers⟩, ?_, rfl, rfl, fun _ => mem_peerSet⟩
    exact mem_filterMap.2 ⟨_, mem_map.2 ⟨(peerId, conn), he, rfl⟩, rfl⟩

theorem buildSyncRequest_fst (src : RequestSource) (session : SyncRouteSession) (dstPeerId : PeerId) :
    (src.buildSyncRequest session dstPeerId).1 =
      ⟨(src.buildRouteInfo session dstPeerId).1, (src.buildConnInfo session dstPeerId).1,
        src.buildForeignNetworkInfo session dstPeerId⟩ := by
  simp only [buildSyncRequest, buildConnInfo_eq]
  rfl

/-- **When a restart is followed by everything**: once a call has shown a new session id, the next
request is complete exactly if nothing is held back. -/
theorem restart_resends_iff (hid : sessionId ≠ session.dstSessionId)
    (h : session.noteExchange dstPeerId sessionId ex = .returns session') :
    src.Complete dstPeerId (src.buildSyncRequest session' dstPeerId).1 ↔
      src.NothingHeldBack dstPeerId ex session := by
  rw [buildSyncRequest_fst, complete_iff, nothingHeldBack_iff]
  refine and_congr ?_ (and_congr ?_ ?_)
  · refine forall₂_congr fun peerId info => forall₄_congr fun _ _ hversion hpeer => ?_
    exact buildRouteInfo_of_restart hid h hversion hpeer
  · refine forall₂_congr fun peerId conn => forall₃_congr fun hget _ _ => ?_
    -- the connections, in whichever form they go out
    rw [buildConnInfo_of_restart hid h]
    by_cases hnil : src.dueConns dstPeerId ex = []
    · simp [hnil]
    · by_cases hlist : src.PrefersList dstPeerId ex
      · simp [hnil, hlist, announces_dueConns hget]
      · simp [hnil, hlist]
  · refine forall₂_congr fun key entry => forall₃_congr fun hget hversion hpeer => ?_
    exact buildForeignNetworkInfo_of_restart hid h hget hversion hpeer

def officeSource : RequestSource :=
  updateCachedLocalConnBitmap
    { synced :=
        { SyncedRouteInfo.empty with
          peerInfos := OrderedMap.empty.insert 1
            { RouteService.describe 1 3 7 with lastUpdate := some 50 }
          connMap := OrderedMap.empty.insert 1 ⟨[2], 4, 50⟩
          foreignNetwork := OrderedMap.empty.insert ⟨1, "office"⟩ ⟨[5], some 50, 3, 9⟩
          version := 1 }
      peerReachable := fun _ => true
      cachedLocalConnMap := ⟨[], []⟩
      cachedLocalConnMapVersion := 0
      forceUseConnList := false }

def emptyContents : SyncContents := ⟨none, none, none⟩

def earlierSession : SyncRouteSession := { SyncRouteSession.new 5 with dstSessionId := 8 }

theorem office_resent : officeSource.Complete 2
    (officeSource.buildSyncRequest { earlierSession with dstSessionId := 9 } 2).1 := by
  have hnote : earlierSession.noteExchange 2 9 ⟨emptyContents, none⟩ =
      .returns { earlierSession with dstSessionId := 9 } := rfl
  refine (restart_resends_iff (by decide) hnote).2 ⟨?_, ?_, ?_⟩
  · intro peerId info hget _ _ _
    exact ⟨rfl, (peerId, info), mem_recent_none.2 (mem_of_get hget), rfl, rfl⟩
  · intro peerId conn hget _ _
    have hbitmap : ¬ officeSource.PrefersList 2 ⟨emptyContents, none⟩ := by decide +kernel
    rw [if_neg hbitmap]
    exact ⟨by decide +kernel, announces_connBitmap hget rfl⟩
  · intro key entry _ _ _
    exact ⟨rfl, fun v hv => by cases hv⟩

/-- **What a restart leaves out**: a foreign network known before, and, if the new id comes with a
response, all that is older than the request. -/
theorem restart_holds_back :
    (∃ session', { earlierSession with
        dstSavedForeignNetworkVersions := OrderedMap.empty.insert ⟨1, "office"⟩ 3 }.noteExchange 2 9
          ⟨emptyContents, none⟩ = .returns session' ∧
      (officeSource.buildSyncRequest session' 2).1.foreignNetworkInfos = none ∧
      ¬ officeSource.Complete 2 (officeSource.buildSyncRequest session' 2).1) ∧
    ∃ session', earlierSession.handleResponse 2 true 9 emptyContents 100 = .returns session' ∧
      (officeSource.buildSyncRequest session' 2).1.peerInfos = none ∧
      (officeSource.buildSyncRequest session' 2).1.connInfo = none ∧
      ¬ officeSource.Complete 2 (officeSource.buildSyncRequest session' 2).1 := by
  have hforeign : (officeSource.buildSyncRequest { earlierSession with
      dstSessionId := 9
      dstSavedForeignNetworkVersions := OrderedMap.empty.insert ⟨1, "office"⟩ 3 }
        2).1.foreignNetworkInfos = none := by decide +kernel
  have hinfos : (officeSource.buildSyncRequest { earlierSession with
      dstSessionId := 9
      dstIsInitiator := true
      lastSyncSuccTimestamp := some 100 } 2).1.peerInfos = none := by decide +kernel
  refine ⟨⟨_, rfl, hforeign, fun h => ?_⟩, _, rfl, hinfos, by decide +kernel, fun h => ?_⟩
  · obtain ⟨infos, hsent, -⟩ :=
      h.foreign ⟨1, "office"⟩ ⟨[5], some 50, 3, 9⟩ rfl (by decide) (by decide)
    cases hforeign.symm.trans hsent
  · obtain ⟨infos, hsent, -⟩ := h.infos 1 _ rfl rfl (by decide) (by decide)
    cases hinfos.symm.trans hsent

end RequestSource

end PactMesh
