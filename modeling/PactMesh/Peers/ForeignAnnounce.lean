import PactMesh.Lib.Newest
import PactMesh.Lib.Trans
import PactMesh.Peers.RouteInfo

/-!
# Announcing foreign networks

A node lists the foreign networks that it serves and compares the list with what it announced last.
Others merge the announcements by version.  The version of a change is the wall clock in seconds: the
list carries version zero, so that counting up from it starts at zero; only the withdrawal of a
network counts up from the version that is stored.

Main result: `foreign_announcements_iff`.
-/

namespace PactMesh

open OrderedMap List Option ForeignNetworkRouteInfoEntry Newest

structure ListedNetwork where
  peers : List PeerId
  /-- when a peer came or went last, in milliseconds -/
  lastUpdate : Option ℕ
  myPeerIdForThisNetwork : PeerId
deriving DecidableEq

/-- What `list_foreign_networks` hands to the route: entries of this node, each with peers. -/
structure ForeignListing (myPeerId : PeerId) where
  infos : OrderedMap ForeignNetworkRouteInfoKey ForeignNetworkRouteInfoEntry
  fresh : ∀ key entry, infos.get key = some entry →
    key.peerId = myPeerId ∧ entry.foreignPeerIds ≠ [] ∧ entry.version = 0

/-- One network of `list_foreign_networks`; one without peers is passed over. -/
def ForeignListing.add {myPeerId : PeerId} (nowMs : ℕ) (l : ForeignListing myPeerId)
    (item : String × ListedNetwork) : ForeignListing myPeerId :=
  if h : item.2.peers = [] then l
  else
    { infos := l.infos.insert ⟨myPeerId, item.1⟩
        ⟨item.2.peers, some (item.2.lastUpdate.getD nowMs), 0, item.2.myPeerIdForThisNetwork⟩
      fresh := by
        intro key entry hget
        rw [get_insert] at hget
        split_ifs at hget with hkey
        · cases hget
          exact ⟨by rw [hkey], h, rfl⟩
        · exact l.fresh key entry hget }

def listForeignNetworks (myPeerId : PeerId) (nowMs : ℕ) (networks : OrderedMap String ListedNetwork) :
    ForeignListing myPeerId := networks.entries.foldl (ForeignListing.add nowMs) ⟨.empty, by simp⟩

/-! ### The own entries -/

/-- `UPDATE_PEER_INFO_PERIOD`, in milliseconds -/
def updatePeerInfoPeriod : ℕ := 3600 * 1000

def nowVersion (nowMs : ℕ) : Version := UInt32.ofNat (nowMs / 1000)

def isForeignNetworkInfoNewer (next prev : ForeignNetworkRouteInfoEntry) : Option Bool := do
  let nextUpdate ← next.lastUpdate
  let prevUpdate ← prev.lastUpdate
  return decide (prevUpdate < nextUpdate)

namespace ForeignNetworkRouteInfoEntry

variable (nowMs : ℕ) (entry : ForeignNetworkRouteInfoEntry)

def needRenew (new : ForeignNetworkRouteInfoEntry) : Bool :=
  match isForeignNetworkInfoNewer new entry with
  | none => false
  | some isNewer =>
    isNewer || (entry.lastUpdate.any fun t => decide (updatePeerInfoPeriod < nowMs - t))

/-- What is written in place of an own entry: the listed one with a version from the clock, or the
entry without peers if it is not listed any more. -/
def rewritten : Option ForeignNetworkRouteInfoEntry → Option ForeignNetworkRouteInfoEntry
  | some new =>
    if entry.needRenew nowMs new then
      some { new with version := max (new.version + 1) (nowVersion nowMs) }
    else none
  | none =>
    if entry.foreignPeerIds.isEmpty then none
    else
      some { entry with
        foreignPeerIds := []
        lastUpdate := some nowMs
        version := max (entry.version + 1) (nowVersion nowMs) }

end ForeignNetworkRouteInfoEntry

def insertListed (nowMs : ℕ)
    (m : OrderedMap ForeignNetworkRouteInfoKey ForeignNetworkRouteInfoEntry)
    (item : ForeignNetworkRouteInfoKey × ForeignNetworkRouteInfoEntry) :
    OrderedMap ForeignNetworkRouteInfoKey ForeignNetworkRouteInfoEntry :=
  match m.get item.1 with
  | some old => if old.version < item.2.version then m.insert item.1 item.2 else m
  | none => m.insert item.1 { item.2 with version := nowVersion nowMs }

namespace SyncedRouteInfo

variable (s : SyncedRouteInfo) {myPeerId : PeerId}

def updateMyForeignNetwork (nowMs : ℕ) (listed : ForeignListing myPeerId) : Bool × SyncedRouteInfo :=
  let rewrite (key : ForeignNetworkRouteInfoKey) (entry : ForeignNetworkRouteInfoEntry) :=
    if key.peerId = myPeerId then entry.rewritten nowMs (listed.infos.get key) else none
  let kept := s.foreignNetwork.mapValues fun key entry => (rewrite key entry).getD entry
  let remaining := listed.infos.retain fun key => !s.foreignNetwork.contains key
  let updated := (s.foreignNetwork.entries.any fun e => (rewrite e.1 e.2).isSome) ||
    !remaining.entries.isEmpty
  (updated, incVersionIf { s with
    foreignNetwork := remaining.entries.foldl (insertListed nowMs) kept } updated)

/-- What `update_my_foreign_network` writes for an own network, if something. -/
def ownWrite (nowMs : ℕ) (listed : ForeignListing myPeerId) (key : ForeignNetworkRouteInfoKey) :
    Option ForeignNetworkRouteInfoEntry :=
  if key.peerId = myPeerId then
    match s.foreignNetwork.get key with
    | some entry => entry.rewritten nowMs (listed.infos.get key)
    | none => (listed.infos.get key).map fun new => { new with version := nowVersion nowMs }
  else none

variable {s}

variable {m : OrderedMap ForeignNetworkRouteInfoKey ForeignNetworkRouteInfoEntry}

def listedOver (nowMs : ℕ) (new : ForeignNetworkRouteInfoEntry) :
    Option ForeignNetworkRouteInfoEntry → Option ForeignNetworkRouteInfoEntry
  | some old => some (if old.version < new.version then new else old)
  | none => some { new with version := nowVersion nowMs }

theorem get_insertListed (nowMs : ℕ)
    (item : ForeignNetworkRouteInfoKey × ForeignNetworkRouteInfoEntry)
    (key : ForeignNetworkRouteInfoKey) :
    (insertListed nowMs m item).get key =
      if item.1 = key then listedOver nowMs item.2 (m.get key) else m.get key := by
  unfold insertListed
  split_ifs with hkey
  · subst hkey
    cases hget : m.get item.1 with
    | none => exact get_insert_self
    | some old => by_cases hold : old.version < item.2.version <;> simp [listedOver, hold, hget]
  · cases m.get item.1 with
    | none => exact get_insert_of_ne (Ne.symm hkey)
    | some old => by_cases hold : old.version < item.2.version <;> simp [hold, Ne.symm hkey]

/-- **An own entry after an update** is what the update writes, or stays. -/
theorem get_updateMyForeignNetwork (nowMs : ℕ) (listed : ForeignListing myPeerId)
    {key : ForeignNetworkRouteInfoKey} (hown : key.peerId = myPeerId) :
    (s.updateMyForeignNetwork nowMs listed).2.foreignNetwork.get key =
      (s.ownWrite nowMs listed key).or (s.foreignNetwork.get key) := by
  have hinc : ∀ (t : SyncedRouteInfo) changed,
      (t.incVersionIf changed).foreignNetwork = t.foreignNetwork := by
    intro t changed
    cases changed <;> rfl
  simp only [updateMyForeignNetwork, hinc]
  rw [foldl_entries (g := (get · key)) _ _ fun e _ _ => get_insertListed nowMs e key, get_retain,
    get_mapValues, ownWrite, if_pos hown]
  cases hget : s.foreignNetwork.get key with
  | none => cases listed.infos.get key <;> simp [OrderedMap.contains, hget, listedOver]
  | some entry =>
    simp only [OrderedMap.contains, hget, isSome_some, if_not_true, map_some, hown, if_true]
    cases entry.rewritten nowMs (listed.infos.get key) <;> rfl

end SyncedRouteInfo

structure ForeignAnnouncer (myPeerId : PeerId) where
  synced : SyncedRouteInfo
  announced : ForeignNetworkRouteInfoKey → List ForeignNetworkRouteInfoEntry

inductive AnnounceEvent (myPeerId : PeerId)
  | update (nowMs : ℕ) (listed : ForeignListing myPeerId)
  | cleanUp (keep : ForeignNetworkRouteInfoKey → Bool)

namespace ForeignAnnouncer

variable {myPeerId : PeerId}

def start (myPeerId : PeerId) (synced : SyncedRouteInfo) : ForeignAnnouncer myPeerId :=
  ⟨synced, fun key => (synced.foreignNetwork.get key).toList⟩

variable (node : ForeignAnnouncer myPeerId)

def apply : AnnounceEvent myPeerId → ForeignAnnouncer myPeerId
  | .update nowMs listed =>
    { synced := (node.synced.updateMyForeignNetwork nowMs listed).2
      announced := fun key =>
        node.announced key ++ (node.synced.ownWrite nowMs listed key).toList }
  | .cleanUp keep =>
    { node with
      synced := { node.synced with foreignNetwork := node.synced.foreignNetwork.retain keep } }

def announcer (myPeerId : PeerId) : Trans (ForeignAnnouncer myPeerId) (AnnounceEvent myPeerId) :=
  .ofFun apply

def latest (key : ForeignNetworkRouteInfoKey) : Option ForeignNetworkRouteInfoEntry :=
  (node.announced key).getLast?

def Supersedes : AnnounceEvent myPeerId → Prop
  | .update nowMs listed => ∀ key, key.peerId = myPeerId →
      ∀ entry, node.synced.ownWrite nowMs listed key = some entry →
        ∀ prev, node.latest key = some prev → prev.version < entry.version
  | .cleanUp _ => True

/-- The clock is ahead of the last version of each network that has changed, or whose entry is
renewed or was removed; a network that is withdrawn has not run out of versions. -/
def ClockAhead : AnnounceEvent myPeerId → Prop
  | .update nowMs listed => ∀ key, key.peerId = myPeerId →
      match node.synced.foreignNetwork.get key, listed.infos.get key with
      | some entry, some new =>
        entry.needRenew nowMs new = true → entry.version < max 1 (nowVersion nowMs)
      | some entry, none => entry.foreignPeerIds ≠ [] → entry.version ≠ 0xffffffff
      | none, some _ => ∀ prev, node.latest key = some prev → prev.version < nowVersion nowMs
      | none, none => True
  | .cleanUp _ => True

def Tracks : Prop :=
  ∀ key entry, key.peerId = myPeerId → node.synced.foreignNetwork.get key = some entry →
    node.latest key = some entry

variable {node}

theorem tracks_start (synced : SyncedRouteInfo) : (start myPeerId synced).Tracks := by
  intro key entry _ hget
  have hstored : synced.foreignNetwork.get key = some entry := hget
  simp [latest, start, hstored]

theorem tracks_apply (h : node.Tracks) (event : AnnounceEvent myPeerId) :
    (node.apply event).Tracks := by
  intro key entry hown hget
  cases event with
  | update nowMs listed =>
    simp only [apply, SyncedRouteInfo.get_updateMyForeignNetwork nowMs listed hown] at hget
    simp only [latest, apply]
    cases hwrite : node.synced.ownWrite nowMs listed key with
    | some written =>
      rw [hwrite, some_or] at hget
      cases hget
      simp
    | none =>
      rw [hwrite, none_or] at hget
      rw [toList_none, append_nil]
      exact h key entry hown hget
  | cleanUp keep =>
    rw [apply, get_retain] at hget
    split_ifs at hget
    exact h key entry hown hget

theorem lt_max_version_iff {a b c : Version} : a < max b c ↔ a < b ∨ a < c := by
  have hmax : max b c = if b ≤ c then c else b := rfl
  rw [hmax]
  simp only [UInt32.lt_iff_toNat_lt, UInt32.le_iff_toNat_le]
  split_ifs <;> omega

theorem lt_succ_or_clock_iff {v clock : Version} : v < max (v + 1) clock ↔ v ≠ 0xffffffff := by
  rw [lt_max_version_iff]
  constructor
  · rintro h rfl
    have hclock := clock.toNat_lt
    simp only [UInt32.lt_iff_toNat_lt] at h
    revert h
    simp
    omega
  · intro hne
    left
    have hv := v.toNat_lt
    have hne' : v.toNat ≠ 4294967295 := fun h => hne (UInt32.toNat_inj.1 h)
    rw [UInt32.lt_iff_toNat_lt, UInt32.toNat_add]
    simp
    omega

/-- **One event**: what is announced supersedes exactly if the clock is ahead. -/
theorem supersedes_iff_clockAhead (h : node.Tracks) (event : AnnounceEvent myPeerId) :
    node.Supersedes event ↔ node.ClockAhead event := by
  cases event with
  | cleanUp keep => exact Iff.rfl
  | update nowMs listed =>
    refine forall₂_congr fun key hown => ?_
    rw [SyncedRouteInfo.ownWrite, if_pos hown]
    cases hstored : node.synced.foreignNetwork.get key with
    | some entry =>
      rw [h key entry hown hstored]
      cases hlisted : listed.infos.get key with
      | some new =>
        have hzero : new.version = 0 := (listed.fresh key new hlisted).2.2
        by_cases hrenew : entry.needRenew nowMs new = true
        · simp [rewritten, hrenew, hzero]
        · simp [rewritten, hrenew]
      | none =>
        by_cases hempty : entry.foreignPeerIds = []
        · simp [rewritten, hempty]
        · simp [rewritten, hempty, lt_succ_or_clock_iff]
    | none =>
      cases hlisted : listed.infos.get key <;> simp

def Increasing (node : ForeignAnnouncer myPeerId) : Prop :=
  ∀ key, (node.announced key).Pairwise fun a b => a.version < b.version

theorem increasing_start (synced : SyncedRouteInfo) : (start myPeerId synced).Increasing := by
  intro key
  rw [start]
  cases synced.foreignNetwork.get key <;> simp

theorem Increasing.lt_latest (h : node.Increasing) {key : ForeignNetworkRouteInfoKey}
    {last entry : ForeignNetworkRouteInfoEntry} (hlast : node.latest key = some last)
    (hmem : entry ∈ node.announced key) : entry = last ∨ entry.version < last.version := by
  obtain ⟨front, heq⟩ := getLast?_eq_some_iff.1 hlast
  have hpair := h key
  rw [heq] at hpair hmem
  rcases mem_append.1 hmem with hfront | hend
  · exact .inr ((pairwise_append.1 hpair).2.2 entry hfront last (mem_singleton_self _))
  · exact .inl (mem_singleton.1 hend)

theorem Increasing.apply (h : node.Increasing) {event : AnnounceEvent myPeerId}
    (hsup : node.Supersedes event) : (node.apply event).Increasing := by
  cases event with
  | cleanUp keep => exact h
  | update nowMs listed =>
    intro key
    simp only [ForeignAnnouncer.apply]
    cases hwrite : node.synced.ownWrite nowMs listed key with
    | none =>
      rw [toList_none, append_nil]
      exact h key
    | some written =>
      have hown : key.peerId = myPeerId := by
        by_contra hne
        rw [SyncedRouteInfo.ownWrite, if_neg hne] at hwrite
        cases hwrite
      refine pairwise_append.2 ⟨h key, pairwise_singleton _ _, ?_⟩
      intro entry hmem new hnew
      cases mem_singleton.1 hnew
      -- the last announcement is older than what is written, and the others are older than it
      obtain ⟨last, hlast⟩ : ∃ last, node.latest key = some last :=
        ⟨_, getLast?_eq_some_getLast (ne_nil_of_mem hmem)⟩
      have hnewer := hsup key hown written hwrite last hlast
      rcases h.lt_latest hlast hmem with rfl | hlt
      · exact hnewer
      · exact UInt32.lt_trans hlt hnewer

end ForeignAnnouncer

/-! ### Peers that merge the announcements -/

def ForeignNetworkRouteInfoEntry.timeless (entry : ForeignNetworkRouteInfoEntry) :
    ForeignNetworkRouteInfoEntry := { entry with lastUpdate := none }

abbrev AnnouncedForeign := ForeignNetworkRouteInfoKey × ForeignNetworkRouteInfoEntry

def AnnouncedForeign.versionNat (a : AnnouncedForeign) : ℕ := a.2.version.toNat

def ForeignNetworkInfo.announced (item : ForeignNetworkInfo) : Option AnnouncedForeign :=
  match item.key, item.value with
  | some key, some entry => some (key, entry.timeless)
  | _, _ => none

namespace SyncedRouteInfo

def mergeForeign (s : SyncedRouteInfo) (batches : List (ℕ × List ForeignNetworkInfo)) :
    SyncedRouteInfo := batches.foldl (fun s batch => (s.updateForeignNetwork batch.1 batch.2).2) s

def announcedForeign (s : SyncedRouteInfo) (key : ForeignNetworkRouteInfoKey) :
    Option AnnouncedForeign := (s.foreignNetwork.get key).map fun entry => (key, entry.timeless)

theorem announcedForeign_updateForeignNetworkItem (nowMs : ℕ) (acc : Bool × SyncedRouteInfo)
    (item : ForeignNetworkInfo) (key : ForeignNetworkRouteInfoKey) :
    (updateForeignNetworkItem nowMs acc item).2.announcedForeign key =
      item.announced.toList.foldl (offerAt AnnouncedForeign.versionNat Prod.fst key)
        (acc.2.announcedForeign key) := by
  obtain ⟨_ | itemKey, _ | entry⟩ := item
  · rfl
  · rfl
  · rfl
  simp only [ForeignNetworkInfo.announced, toList_some, foldl_cons, foldl_nil,
    updateForeignNetworkItem, offerAt]
  by_cases hkey : itemKey = key
  · subst hkey
    cases hold : acc.2.foreignNetwork.get itemKey with
    | none => simp [announcedForeign, hold, offer, timeless]
    | some old =>
      have hlt : old.version < entry.version ↔ old.version.toNat < entry.version.toNat :=
        UInt32.lt_iff_toNat_lt
      by_cases hver : old.version < entry.version
      · simp [announcedForeign, hold, offer, timeless, hver,
          AnnouncedForeign.versionNat, hlt.1 hver]
      · simp [announcedForeign, hold, offer, timeless, hver,
          AnnouncedForeign.versionNat, mt hlt.2 hver]
  · rw [if_neg hkey]
    split_ifs
    · simp [announcedForeign, get_insert_of_ne (Ne.symm hkey)]
    · rfl

theorem announcedForeign_foldl (nowMs : ℕ) (items : List ForeignNetworkInfo)
    (acc : Bool × SyncedRouteInfo) (key : ForeignNetworkRouteInfoKey) :
    (items.foldl (updateForeignNetworkItem nowMs) acc).2.announcedForeign key =
      (items.filterMap (·.announced)).foldl
        (offerAt AnnouncedForeign.versionNat Prod.fst key) (acc.2.announcedForeign key) := by
  induction items generalizing acc with
  | nil => rfl
  | cons item items ih =>
    rw [foldl_cons, ih, announcedForeign_updateForeignNetworkItem, filterMap_cons]
    cases item.announced <;> rfl

def carried (batches : List (ℕ × List ForeignNetworkInfo)) : List AnnouncedForeign :=
  batches.flatMap fun batch => batch.2.filterMap (·.announced)

/-- **A peer that merges** keeps the newest of what it held and what arrives. -/
theorem announcedForeign_mergeForeign (s : SyncedRouteInfo)
    (batches : List (ℕ × List ForeignNetworkInfo)) (key : ForeignNetworkRouteInfoKey) :
    (s.mergeForeign batches).announcedForeign key =
      ((s.announcedForeign key).toList ++ (carried batches).filter (·.1 = key)).argmax
        AnnouncedForeign.versionNat := by
  rw [← foldl_offerAt]
  induction batches generalizing s with
  | nil => rfl
  | cons batch batches ih =>
    have hfirst := announcedForeign_foldl batch.1 batch.2 (false, s) key
    rw [carried, flatMap_cons, foldl_append, ← hfirst]
    exact ih _

end SyncedRouteInfo

namespace ForeignAnnouncer

variable {myPeerId : PeerId} {node : ForeignAnnouncer myPeerId}

structure Hears (node : ForeignAnnouncer myPeerId) (key : ForeignNetworkRouteInfoKey)
    (peer : SyncedRouteInfo) (batches : List (ℕ × List ForeignNetworkInfo)) : Prop where
  held : ∀ entry, peer.foreignNetwork.get key = some entry →
    ∃ a ∈ node.announced key, entry.timeless = a.timeless
  carried : ∀ a ∈ SyncedRouteInfo.carried batches, a.1 = key →
    ∃ entry ∈ node.announced key, a.2 = entry.timeless
  latest : ∀ last, node.latest key = some last → (key, last.timeless) ∈ SyncedRouteInfo.carried batches

theorem Increasing.merged_eq_latest (h : node.Increasing) {key : ForeignNetworkRouteInfoKey}
    {last : ForeignNetworkRouteInfoEntry} (hlast : node.latest key = some last)
    {peer : SyncedRouteInfo} {batches : List (ℕ × List ForeignNetworkInfo)}
    (hears : node.Hears key peer batches) :
    (peer.mergeForeign batches).announcedForeign key = some (key, last.timeless) := by
  rw [SyncedRouteInfo.announcedForeign_mergeForeign]
  have hannounced : ∀ a ∈ (peer.announcedForeign key).toList ++
      (SyncedRouteInfo.carried batches).filter (·.1 = key),
      ∃ entry ∈ node.announced key, a = (key, entry.timeless) := by
    intro a ha
    rcases mem_append.1 ha with hheld | hcarried
    · obtain ⟨entry, hget, rfl⟩ := map_eq_some_iff.1 (mem_toList.1 hheld)
      obtain ⟨announced, hmem, heq⟩ := hears.held entry hget
      exact ⟨announced, hmem, by rw [heq]⟩
    · rw [mem_filter, decide_eq_true_eq] at hcarried
      obtain ⟨entry, hmem, heq⟩ := hears.carried a hcarried.1 hcarried.2
      exact ⟨entry, hmem, Prod.ext hcarried.2 heq⟩
  apply argmax_eq_some_of_lt
  · refine mem_append_right _ (mem_filter.2 ⟨hears.latest last hlast, by simp⟩)
  · intro a ha hne
    obtain ⟨entry, hmem, rfl⟩ := hannounced a ha
    rcases h.lt_latest hlast hmem with rfl | hlt
    · exact absurd rfl hne
    · exact UInt32.lt_iff_toNat_lt.1 hlt

/-- **Announcements supersede when the clock is ahead.**  In every run of updates and clean-ups,
every announcement gets a larger version than the one before exactly if at every change the clock is
ahead.  Peers that merge the announcements in any order and hear of the last one then end up with
it. -/
theorem foreign_announcements_iff (myPeerId : PeerId) (synced : SyncedRouteInfo)
    (events : List (AnnounceEvent myPeerId)) :
    ((announcer myPeerId).Along Supersedes (start myPeerId synced) events ↔
      (announcer myPeerId).Along ClockAhead (start myPeerId synced) events) ∧
    ∀ node, (announcer myPeerId).Run (start myPeerId synced) events node →
      (announcer myPeerId).Along ClockAhead (start myPeerId synced) events →
      ∀ key last, key.peerId = myPeerId → node.latest key = some last →
        ∀ peer batches, node.Hears key peer batches →
          (peer.mergeForeign batches).announcedForeign key = some (key, last.timeless) := by
  have htracks : (announcer myPeerId).Along (fun node _ => node.Tracks) (start myPeerId synced)
      events :=
    Trans.along_invariant (tracks_start synced)
      fun _ event _ h hstep => hstep ▸ tracks_apply h event
  have hiff := Trans.along_congr_of htracks fun node event h => supersedes_iff_clockAhead h event
  refine ⟨hiff, ?_⟩
  intro node hrun hclock key last hown hlast peer batches hears
  have hincreasing : node.Increasing := ((hiff.2 hclock).run_guard hrun).invariant
    (increasing_start synced) fun _ _ _ h ⟨hsup, hstep⟩ => hstep ▸ h.apply hsup
  exact hincreasing.merged_eq_latest hlast hears

def officeKey : ForeignNetworkRouteInfoKey := ⟨1, "office"⟩

/-- A list with this network, with the peers `5` and then `more`. -/
def officeListing (lastUpdate : ℕ) (more : List PeerId) : ForeignListing 1 :=
  listForeignNetworks 1 0 (OrderedMap.empty.insert "office" ⟨5 :: more, some lastUpdate, 9⟩)

def officeMessage (more : List PeerId) (version : Version) : ℕ × List ForeignNetworkInfo :=
  (0, [⟨some officeKey, some ⟨5 :: more, none, version, 9⟩⟩])

/-- The clock is set back, peer 6 joins, and the change is announced with a smaller version.  A peer
that hears of both keeps the old state. -/
theorem change_after_clock_set_back_lost :
    let node := (((start 1 .empty).apply (.update 100000 (officeListing 80000 []))).apply
      (.update 90000 (officeListing 88000 [6])))
    node.announced officeKey = [⟨[5], some 80000, 100, 9⟩, ⟨[5, 6], some 88000, 90, 9⟩] ∧
      (SyncedRouteInfo.empty.mergeForeign [officeMessage [] 100, officeMessage [6] 90]).announcedForeign
        officeKey = some (officeKey, ⟨[5], none, 100, 9⟩) := by
  decide +kernel

/-- With a clock that goes on, the change is announced with a larger version, and a peer that hears
of both in the wrong order ends up with the new state. -/
theorem change_with_later_clock_heard :
    (SyncedRouteInfo.empty.mergeForeign [officeMessage [6] 112, officeMessage [] 100]).announcedForeign
      officeKey = some (officeKey, ⟨[5, 6], none, 112, 9⟩) := by
  let synced : SyncedRouteInfo := { SyncedRouteInfo.empty with
    foreignNetwork := OrderedMap.empty.insert officeKey ⟨[5], some 80000, 100, 9⟩ }
  let events : List (AnnounceEvent 1) := [.update 112000 (officeListing 105000 [6])]
  have hclock : (announcer 1).Along ClockAhead (start 1 synced) events := by
    refine ⟨fun key _ => ?_, fun _ _ => trivial⟩
    have hstored : (start 1 synced).synced.foreignNetwork.get key =
        if key = officeKey then some ⟨[5], some 80000, 100, 9⟩ else none := get_insert ..
    have hlisted : (officeListing 105000 [6]).infos.get key =
        if key = officeKey then some ⟨[5, 6], some 105000, 0, 9⟩ else none := get_insert ..
    rw [hstored, hlisted]
    split_ifs
    · intro _
      decide +kernel
    · trivial
  have hlast : (events.foldl apply (start 1 synced)).announced officeKey =
      [⟨[5], some 80000, 100, 9⟩, ⟨[5, 6], some 105000, 112, 9⟩] := by decide +kernel
  refine (foreign_announcements_iff 1 synced events).2 _ (Trans.run_ofFun _ _ _) hclock officeKey _
    rfl (congrArg getLast? hlast) .empty [officeMessage [6] 112, officeMessage [] 100] ⟨nofun, ?_, ?_⟩
  · rw [hlast]
    decide +kernel
  · rw [latest, hlast]
    decide +kernel

end ForeignAnnouncer

end PactMesh
