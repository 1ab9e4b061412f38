import PactMesh.Lib.OrderedMap
import PactMesh.Peers.ForeignNetworkManager
import PactMesh.Peers.Identities

/-!
# The tables of the foreign network manager

The manager keeps an entry for every network, the networks of each peer, and the time at which each
network last changed.  `add_peer_conn` registers the network and the peer first and checks afterwards.

Main results: `addPeerConn_refines`, `rejected_foreign_conn_traceless_iff`.
-/

namespace PactMesh

open OrderedMap Option Function

structure ForeignConn extends InboundConn where
  admission : Admission
  same_peer : admission.conn.getPeerId = peerId
  same_tunnel : admission.conn.isHolePunched = isHolePunched

/-- `ForeignNetworkEntry` with its peer map -/
structure ForeignEntry where
  networkName : String
  myPeerId : PeerId
  relayData : Bool
  peerMap : OrderedMap PeerId Peer

/-- `PeerMap::add_new_peer_conn` of an entry -/
def ForeignEntry.addNewPeerConn (entry : ForeignEntry) (a : Admission) :
    Except AdmissionError Unit × ForeignEntry :=
  match entry.peerMap.get a.conn.getPeerId with
  | none =>
    match Peer.new.offerConn a with
    | (.error e, _) => (.error e, entry)
    | (.ok (), peer) =>
      (.ok (), { entry with peerMap := entry.peerMap.insert a.conn.getPeerId peer })
  | some peer =>
    let out := peer.offerConn a
    (out.1, { entry with peerMap := entry.peerMap.replace a.conn.getPeerId out.2 })

/-- The entry of a network that this connection is the first of. -/
def ForeignEntry.fresh (conn : ForeignConn) (relayData : Bool) : ForeignEntry :=
  ⟨conn.networkName, conn.myPeerId, relayData, .empty⟩

/-- The peer has all the direct connections that it may have. -/
def ForeignEntry.full (entry : ForeignEntry) (maxDirectConns : ℕ) (peerId : PeerId) : Bool :=
  (entry.peerMap.get peerId).any fun peer => maxDirectConns ≤ peer.getDirectlyConnections.length

/-- The manager: the configuration, the clock, and the tables of `ForeignNetworkManagerData`. -/
structure ForeignManager where
  trustDomainId : TrustDomainId
  flags : RelayFlags
  relayGrants : RelayGrantTable
  now : UInt64
  systemTime : ℕ
  networkPeerMaps : String → Option ForeignEntry
  peerNetworkMap : PeerId → Option (Finset String)
  networkPeerLastUpdate : String → Option ℕ

namespace ForeignManager

variable (m : ForeignManager)

def config : RelayNode := ⟨m.trustDomainId, m.flags, m.relayGrants, m.now, fun _ => none⟩

def removePeer (peerId : PeerId) (networkName : String) : ForeignManager :=
  let m := match m.peerNetworkMap peerId with
    | none => m
    | some names =>
      let names := names.erase networkName
      { m with peerNetworkMap :=
          update m.peerNetworkMap peerId (if names = ∅ then none else some names) }
  match m.networkPeerMaps networkName with
  | none => m
  | some entry =>
    if entry.peerMap.entries.isEmpty then
      { m with
        networkPeerMaps := update m.networkPeerMaps networkName none
        networkPeerLastUpdate := update m.networkPeerLastUpdate networkName none }
    else m

def listed (peerId : PeerId) (networkName : String) : Finset String :=
  insert networkName ((m.peerNetworkMap peerId).getD ∅)

/-- The tables with the entry, the peer under its network, and the network changed now. -/
def registered (conn : ForeignConn) (entry : ForeignEntry) : ForeignManager :=
  { m with
    networkPeerMaps := update m.networkPeerMaps conn.networkName (some entry)
    peerNetworkMap :=
      update m.peerNetworkMap conn.peerId (some (m.listed conn.peerId conn.networkName))
    networkPeerLastUpdate := update m.networkPeerLastUpdate conn.networkName (some m.systemTime) }

/-- `get_or_insert_entry`: the entry, and whether it is new -/
def getOrInsertEntry (conn : ForeignConn) (relayData : Bool) :
    (ForeignEntry × Bool) × ForeignManager :=
  let found := m.networkPeerMaps conn.networkName
  let entry := found.getD (.fresh conn relayData)
  ((entry, found.isNone), m.registered conn entry)

def addPeerConn (conn : ForeignConn) : Except AddPeerConnError Unit × ForeignManager :=
  match m.config.relayDecision conn.toInboundConn with
  | .error e => (.error e, m)
  | .ok relayData =>
    let ((entry, newAdded), m) := m.getOrInsertEntry conn relayData
    if entry.networkName ≠ conn.networkName ∨ entry.myPeerId ≠ conn.myPeerId then
      (.error (if entry.myPeerId ≠ conn.myPeerId then .myPeerIdNotMatch
          else .foreignPeerIdentityNotTrusted),
        if newAdded then m.removePeer conn.peerId entry.networkName else m)
    else if !newAdded && entry.full m.flags.maxDirectConns conn.peerId then
      (.error .tooManyDirectConns, m)
    else
      let out := entry.addNewPeerConn conn.admission
      (match out.1 with
        | .ok () => .ok ()
        | .error _ => .error .peerRefused, { m with
          networkPeerMaps := update m.networkPeerMaps entry.networkName (some out.2) })

end ForeignManager

/-! ### What a connection does to the tables -/

/-- The entry turns the connection away: it belongs to another network or another id of the node, or
the peer has enough connections or another identity. -/
def ForeignEntry.Refuses (entry : ForeignEntry) (maxDirectConns : ℕ) (conn : ForeignConn) : Prop :=
  entry.networkName ≠ conn.networkName ∨ entry.myPeerId ≠ conn.myPeerId ∨
    ∃ peer, entry.peerMap.get conn.peerId = some peer ∧
      (maxDirectConns ≤ peer.getDirectlyConnections.length ∨ ¬ peer.Agrees conn.admission.conn)

namespace ForeignEntry.Refuses

variable {entry : ForeignEntry} {conn : ForeignConn} {maxDirectConns : ℕ}

theorem of_mismatch (maxDirectConns : ℕ)
    (h : entry.networkName ≠ conn.networkName ∨ entry.myPeerId ≠ conn.myPeerId) :
    entry.Refuses maxDirectConns conn := h.imp_right .inl

theorem of_full (h : entry.full maxDirectConns conn.peerId = true) :
    entry.Refuses maxDirectConns conn := by
  obtain ⟨peer, hget, hmax⟩ := (any_eq_true _ _).1 h
  exact .inr (.inr ⟨peer, hget, .inl (of_decide_eq_true hmax)⟩)

end ForeignEntry.Refuses

variable {entry : ForeignEntry}

theorem ForeignEntry.addNewPeerConn_of_some {a : Admission} {peer : Peer}
    (h : entry.peerMap.get a.conn.getPeerId = some peer) :
    entry.addNewPeerConn a = ((peer.offerConn a).1,
      { entry with peerMap := entry.peerMap.replace a.conn.getPeerId (peer.offerConn a).2 }) := by
  simp only [addNewPeerConn, h]

theorem ForeignEntry.addNewPeerConn_spec (entry : ForeignEntry) (conn : ForeignConn) :
    let out := ((entry.peerMap.get conn.peerId).getD .new).offerConn conn.admission
    ∃ peerMap, entry.addNewPeerConn conn.admission = (out.1, { entry with peerMap := peerMap }) ∧
      ∀ p, peerMap.get p = if p = conn.peerId then some out.2 else entry.peerMap.get p := by
  rw [← conn.same_peer]
  cases hget : entry.peerMap.get conn.admission.conn.getPeerId with
  | none =>
    refine ⟨entry.peerMap.insert _ (Peer.new.offerConn conn.admission).2, ?_, fun p => get_insert⟩
    simp only [addNewPeerConn, hget]
    rfl
  | some peer =>
    refine ⟨_, addNewPeerConn_of_some hget, fun p => ?_⟩
    rw [get_replace, hget]
    rfl

theorem ForeignEntry.addNewPeerConn_of_not_refuses {maxDirectConns : ℕ} {conn : ForeignConn}
    (h : ¬ entry.Refuses maxDirectConns conn) :
    ∃ peerMap, entry.addNewPeerConn conn.admission = (.ok (), { entry with peerMap := peerMap }) ∧
      peerMap.contains conn.peerId = true ∧
      ∀ p, entry.peerMap.contains p = true → peerMap.contains p = true := by
  obtain ⟨peerMap, hout, hget⟩ := entry.addNewPeerConn_spec conn
  have hok : (((entry.peerMap.get conn.peerId).getD .new).offerConn conn.admission).1 = .ok () := by
    cases hpeer : entry.peerMap.get conn.peerId with
    | none => rfl
    | some peer =>
      rw [getD_some, Peer.offerConn_eq_ok_iff]
      by_contra hnot
      exact h (.inr (.inr ⟨peer, hpeer, .inr hnot⟩))
  refine ⟨peerMap, by rw [hout, hok], ?_, fun p hp => ?_⟩
  · rw [OrderedMap.contains, hget, if_pos rfl]
    rfl
  · rw [OrderedMap.contains, hget]
    split_ifs
    · rfl
    · exact hp

section Cases

variable {m : ForeignManager} {conn : ForeignConn} {relayData : Bool} {entry : ForeignEntry}

open ForeignManager

theorem networkPeerMaps_registered_self :
    (m.registered conn entry).networkPeerMaps conn.networkName = some entry := update_self _ _ _

theorem networkPeerMaps_registered_of_ne {networkName : String}
    (h : networkName ≠ conn.networkName) :
    (m.registered conn entry).networkPeerMaps networkName = m.networkPeerMaps networkName :=
  update_of_ne h _ _

theorem registered_update (entry' : ForeignEntry) :
    ({ m.registered conn entry with
        networkPeerMaps := update (m.registered conn entry).networkPeerMaps
          conn.networkName (some entry') } : ForeignManager) = m.registered conn entry' := by
  simp [registered]

def KeepsType (entry : ForeignEntry) (maxDirectConns : ℕ) (conn : ForeignConn) : Prop :=
  entry.networkName = conn.networkName → entry.myPeerId = conn.myPeerId →
    ∀ peer, entry.peerMap.get conn.peerId = some peer → peer.getDirectlyConnections.length < maxDirectConns →
      peer.peerIdentityType.isSome = true

section Found

variable {maxDirectConns : ℕ}
  (hfound : (m.networkPeerMaps conn.networkName).getD (.fresh conn relayData) = entry)
include hfound

theorem known_of_refuses (h : entry.Refuses maxDirectConns conn) :
    m.networkPeerMaps conn.networkName = some entry := by
  cases hold : m.networkPeerMaps conn.networkName with
  | some old =>
    rw [hold] at hfound
    exact congrArg some hfound
  | none =>
    rw [hold] at hfound
    subst hfound
    simp [ForeignEntry.Refuses, ForeignEntry.fresh, get_empty] at h

variable (hdec : m.config.relayDecision conn.toInboundConn = .ok relayData)
include hdec

theorem addPeerConn_eq : m.addPeerConn conn =
      if entry.networkName ≠ conn.networkName ∨ entry.myPeerId ≠ conn.myPeerId then
        (.error (if entry.myPeerId ≠ conn.myPeerId then .myPeerIdNotMatch
          else .foreignPeerIdentityNotTrusted), m.registered conn entry)
      else if entry.full m.flags.maxDirectConns conn.peerId then
        (.error .tooManyDirectConns, m.registered conn entry)
      else
        (match (entry.addNewPeerConn conn.admission).1 with
          | .ok () => .ok ()
          | .error _ => .error .peerRefused,
          m.registered conn (entry.addNewPeerConn conn.admission).2) := by
  simp only [addPeerConn, hdec, getOrInsertEntry, hfound]
  by_cases hmis : entry.networkName ≠ conn.networkName ∨ entry.myPeerId ≠ conn.myPeerId
  · rw [if_pos hmis, if_pos hmis, known_of_refuses hfound (.of_mismatch m.flags.maxDirectConns hmis)]
    rfl
  · have hname : entry.networkName = conn.networkName := by
      by_contra hne
      exact hmis (.inl hne)
    rw [if_neg hmis, if_neg hmis, hname, registered_update]
    refine if_congr (Bool.and_eq_true_iff.trans (and_iff_right_of_imp fun hfull => ?_)) rfl rfl
    rw [known_of_refuses hfound (.of_full hfull)]
    rfl

theorem addPeerConn_of_not_refuses (hpass : ¬ entry.Refuses m.flags.maxDirectConns conn) :
    ∃ entry', m.addPeerConn conn = (.ok (), m.registered conn entry') ∧
      entry'.peerMap.contains conn.peerId = true ∧
      ∀ p, entry.peerMap.contains p = true → entry'.peerMap.contains p = true := by
  obtain ⟨peerMap, hadd, hself, hothers⟩ := ForeignEntry.addNewPeerConn_of_not_refuses hpass
  have hmatch : ¬ (entry.networkName ≠ conn.networkName ∨ entry.myPeerId ≠ conn.myPeerId) :=
    fun hmis => hpass (.of_mismatch _ hmis)
  refine ⟨{ entry with peerMap := peerMap }, ?_, hself, hothers⟩
  rw [addPeerConn_eq hfound hdec, if_neg hmatch, if_neg fun h => hpass (.of_full h), hadd]

theorem addPeerConn_of_refuses (hrefuses : entry.Refuses m.flags.maxDirectConns conn) :
    ∃ e entry', m.addPeerConn conn = (.error e, m.registered conn entry') ∧
      (entry' = entry ↔ KeepsType entry m.flags.maxDirectConns conn) := by
  rw [addPeerConn_eq hfound hdec]
  by_cases hmis : entry.networkName ≠ conn.networkName ∨ entry.myPeerId ≠ conn.myPeerId
  · rw [if_pos hmis]
    exact ⟨_, entry, rfl, iff_of_true rfl fun hname hid =>
      absurd hmis (by rw [not_or, not_not, not_not]; exact ⟨hname, hid⟩)⟩
  rw [if_neg hmis]
  rw [not_or, not_not, not_not] at hmis
  obtain ⟨hname, hid⟩ := hmis
  obtain ⟨peer, hget, hpeer⟩ :=
    (hrefuses.resolve_left (not_not.2 hname)).resolve_left (not_not.2 hid)
  simp only [ForeignEntry.full, hget, any_some, decide_eq_true_eq]
  by_cases hmax : m.flags.maxDirectConns ≤ peer.getDirectlyConnections.length
  · rw [if_pos hmax]
    refine ⟨_, entry, rfl, iff_of_true rfl fun _ _ peer' hget' hlt => ?_⟩
    cases hget.symm.trans hget'
    omega
  · rw [if_neg hmax]
    have hnot := hpeer.resolve_left hmax
    have hget' := hget
    rw [← conn.same_peer] at hget'
    have hadd := ForeignEntry.addNewPeerConn_of_some hget'
    have hfails : (peer.offerConn conn.admission).1 ≠ .ok () := fun hok =>
      hnot (Peer.offerConn_eq_ok_iff.1 hok)
    have hkeeps : KeepsType entry m.flags.maxDirectConns conn ↔
        peer.peerIdentityType.isSome = true :=
      ⟨fun h => h hname hid peer hget (by omega), fun h _ _ peer' hpeer' _ =>
        Option.some.inj (hget.symm.trans hpeer') ▸ h⟩
    have hsame : (entry.addNewPeerConn conn.admission).2 = entry ↔
        peer.peerIdentityType.isSome = true := by
      rw [hadd, ← Peer.offerConn_of_not_agrees hnot, ← replace_eq_self_iff hget']
      cases entry
      simp
    rw [hadd] at hsame ⊢
    cases hout : (peer.offerConn conn.admission).1 with
    | ok u => exact absurd hout hfails
    | error e => exact ⟨.peerRefused, _, rfl, hsame.trans hkeeps.symm⟩

end Found

end Cases

/-! ### The decisions are those of the relay -/

structure EntryRefines (e : ForeignEntry) (entry : ForeignNetworkEntry) : Prop where
  networkName : entry.networkName = e.networkName
  myPeerId : entry.myPeerId = e.myPeerId
  relayData : entry.relayData = e.relayData
  tunnels (p : PeerId) : (entry.conns.filter fun c => c.peerId = p).map (·.isHolePunched) =
    ((e.peerMap.get p).getD .new).conns.map (·.conn.isHolePunched)

structure Refines (m : ForeignManager) (node : RelayNode) : Prop where
  flags : node.flags = m.flags
  relayGrants : node.relayGrants = m.relayGrants
  now : node.now = m.now
  entries (networkName : String) :
    Option.Rel EntryRefines (m.networkPeerMaps networkName) (node.entries networkName)

section Refinement

variable {m : ForeignManager} {node : RelayNode} {conn : ForeignConn} {entry : ForeignEntry}
  {entry' : ForeignNetworkEntry}

theorem Refines.relayDecision (h : Refines m node) :
    node.relayDecision conn.toInboundConn = m.config.relayDecision conn.toInboundConn := by
  unfold RelayNode.relayDecision
  rw [h.flags, h.relayGrants, h.now]
  rfl

theorem Refines.registered (h : Refines m node) (hentry : EntryRefines entry entry') :
    Refines (m.registered conn entry) (node.setEntry conn.networkName (some entry')) where
  flags := h.flags
  relayGrants := h.relayGrants
  now := h.now
  entries networkName := by
    by_cases hname : networkName = conn.networkName
    · subst hname
      rw [RelayNode.entries_setEntry_self, networkPeerMaps_registered_self]
      exact .some hentry
    · rw [RelayNode.entries_setEntry_of_ne hname, networkPeerMaps_registered_of_ne hname]
      exact h.entries networkName

theorem Peer.conns_offerConn (peer : Peer) (a : Admission) : (peer.offerConn a).2.conns =
    if (peer.offerConn a).1 = .ok () then a :: peer.conns else peer.conns := by
  obtain ⟨-, hout⟩ | ⟨-, -, hout⟩ | ⟨-, hout⟩ := peer.offerConn_cases a <;> simp [hout]

theorem EntryRefines.addNewPeerConn (h : EntryRefines entry entry') (conn : ForeignConn) :
    EntryRefines (entry.addNewPeerConn conn.admission).2
      (if (entry.addNewPeerConn conn.admission).1 = .ok () then
        { entry' with conns := conn.toInboundConn :: entry'.conns } else entry') := by
  obtain ⟨peerMap, hout, hget⟩ := entry.addNewPeerConn_spec conn
  have hpeer : ∀ p, (peerMap.get p).getD .new = if p = conn.peerId then
      (((entry.peerMap.get conn.peerId).getD .new).offerConn conn.admission).2
      else (entry.peerMap.get p).getD .new := by
    intro p
    rw [hget]
    split_ifs <;> rfl
  rw [hout]
  dsimp only
  split_ifs with hok <;>
    refine ⟨h.networkName, h.myPeerId, h.relayData, fun p => ?_⟩ <;>
    by_cases hp : p = conn.peerId
  · simp [hpeer, hp, Peer.conns_offerConn, hok, h.tunnels, conn.same_tunnel]
  · simp [hpeer, hp, Ne.symm hp, h.tunnels]
  · simp [hpeer, hp, Peer.conns_offerConn, hok, h.tunnels]
  · simp [hpeer, hp, h.tunnels]

variable {relayData : Bool}

theorem EntryRefines.full_iff (h : EntryRefines entry entry') {max : ℕ} (hmax : 0 < max)
    (p : PeerId) :
    entry.full max p = true ↔
      (entry'.conns.filter fun c => c.peerId = p) ≠ [] ∧
        max ≤ ((entry'.conns.filter fun c => c.peerId = p).filter (!·.isHolePunched)).length := by
  have hdirect := congrArg (fun l => (l.filter (!·)).length) (h.tunnels p)
  simp only [List.filter_map, List.length_map, Function.comp_def] at hdirect
  have hfull : max ≤ ((entry'.conns.filter fun c => c.peerId = p).filter (!·.isHolePunched)).length ↔
      entry.full max p = true := by
    rw [hdirect, ForeignEntry.full]
    cases entry.peerMap.get p with
    | none => simpa [Peer.new] using hmax.ne'
    | some peer => exact decide_eq_true_iff.symm
  refine ⟨fun h => ⟨?_, hfull.2 h⟩, fun h => hfull.1 h.2⟩
  intro hnil
  have hlen := hmax.trans_le (hfull.2 h)
  simp [hnil] at hlen

theorem Refines.getOrInsertEntry (h : Refines m node) (conn : ForeignConn) (relayData : Bool) :
    ∃ entry', node.getOrInsertEntry conn.toInboundConn relayData =
        (entry', (m.networkPeerMaps conn.networkName).isNone) ∧
      EntryRefines ((m.networkPeerMaps conn.networkName).getD (.fresh conn relayData)) entry' := by
  have hentries := h.entries conn.networkName
  unfold RelayNode.getOrInsertEntry
  generalize m.networkPeerMaps conn.networkName = found at hentries
  generalize node.entries conn.networkName = found' at hentries
  cases hentries with
  | none => exact ⟨_, rfl, rfl, rfl, rfl, fun _ => rfl⟩
  | some hentry => exact ⟨_, rfl, hentry⟩

/-- **The decisions are those of the relay**, and so are the entries, as far as the relay has them. -/
theorem addPeerConn_refines (h : Refines m node) (hmax : 0 < m.flags.maxDirectConns)
    (conn : ForeignConn) :
    ∃ taken, (node.addPeerConn conn.toInboundConn taken).1 = (m.addPeerConn conn).1 ∧
      Refines (m.addPeerConn conn).2 (node.addPeerConn conn.toInboundConn taken).2 := by
  cases hdec : m.config.relayDecision conn.toInboundConn with
  | error e =>
    have hout : m.addPeerConn conn = (.error e, m) := by
      simp only [ForeignManager.addPeerConn, hdec]
    have hrelay : node.addPeerConn conn.toInboundConn true = (.error e, node) := by
      simp only [RelayNode.addPeerConn, h.relayDecision, hdec]
    exact ⟨true, by rw [hout, hrelay], by rw [hout, hrelay]; exact h⟩
  | ok relayData =>
    obtain ⟨entry', hfound', hentry⟩ := h.getOrInsertEntry conn relayData
    generalize hfound : (m.networkPeerMaps conn.networkName).getD _ = entry at hentry
    refine ⟨decide ((entry.addNewPeerConn conn.admission).1 = .ok ()), ?_⟩
    have hflags : ∀ e, (node.setEntry conn.networkName e).flags = m.flags := fun _ => h.flags
    simp only [addPeerConn_eq hfound hdec, RelayNode.addPeerConn, h.relayDecision, hdec, hfound',
      RelayNode.joinEntry, RelayNode.setEntry_setEntry, hentry.networkName, hentry.myPeerId, hflags]
    by_cases hmis : entry.networkName ≠ conn.networkName ∨ entry.myPeerId ≠ conn.myPeerId
    · rw [if_pos hmis, if_pos hmis, known_of_refuses hfound (.of_mismatch 0 hmis)]
      exact ⟨rfl, h.registered hentry⟩
    rw [if_neg hmis, if_neg hmis]
    simp only [Bool.and_eq_true, decide_eq_true_eq, and_assoc, ← hentry.full_iff hmax]
    by_cases hfull : entry.full m.flags.maxDirectConns conn.peerId = true
    · rw [if_pos hfull, known_of_refuses hfound (.of_full hfull), if_pos ⟨rfl, hfull⟩]
      exact ⟨rfl, h.registered hentry⟩
    rw [if_neg hfull, if_neg fun h => hfull h.2]
    have hadded := hentry.addNewPeerConn conn
    cases hout : (entry.addNewPeerConn conn.admission).1 with
    | ok u =>
      rw [if_pos hout, hentry.networkName, hentry.myPeerId] at hadded
      exact ⟨rfl, h.registered hadded⟩
    | error e =>
      rw [if_neg (by simp [hout])] at hadded
      exact ⟨rfl, h.registered hadded⟩

end Refinement

/-! ### Rejected connections -/

namespace ForeignManager

def SameTables (m m' : ForeignManager) : Prop :=
  m'.networkPeerMaps = m.networkPeerMaps ∧ m'.peerNetworkMap = m.peerNetworkMap ∧
    m'.networkPeerLastUpdate = m.networkPeerLastUpdate

def Lists (m : ForeignManager) (peerId : PeerId) (networkName : String) : Prop :=
  ∃ names, m.peerNetworkMap peerId = some names ∧ networkName ∈ names

def ListedPresent (m : ForeignManager) : Prop :=
  ∀ peerId networkName, m.Lists peerId networkName →
    ∃ entry, m.networkPeerMaps networkName = some entry ∧ entry.peerMap.contains peerId = true

variable {m : ForeignManager} {conn : ForeignConn} {entry entry' : ForeignEntry}

theorem sameTables_registered_iff (hsome : m.networkPeerMaps conn.networkName = some entry) :
    m.SameTables (m.registered conn entry') ↔
      entry' = entry ∧ m.Lists conn.peerId conn.networkName ∧
        m.networkPeerLastUpdate conn.networkName = some m.systemTime := by
  have hlists : m.peerNetworkMap conn.peerId = some (m.listed conn.peerId conn.networkName) ↔
      m.Lists conn.peerId conn.networkName := by
    cases hnames : m.peerNetworkMap conn.peerId with
    | none => simp [Lists, hnames]
    | some names => simp [Lists, listed, hnames, eq_comm (a := names)]
  rw [← hlists, SameTables, registered]
  simp only [update_eq_self_iff, hsome, Option.some.injEq]
  exact and_congr_right' (and_congr eq_comm eq_comm)

theorem lists_registered_iff {peerId : PeerId} {networkName : String} :
    (m.registered conn entry).Lists peerId networkName ↔
      m.Lists peerId networkName ∨ peerId = conn.peerId ∧ networkName = conn.networkName := by
  by_cases hp : peerId = conn.peerId
  · subst hp
    have hnames : (m.registered conn entry).peerNetworkMap conn.peerId =
        some (m.listed conn.peerId conn.networkName) := update_self _ _ _
    cases hold : m.peerNetworkMap conn.peerId with
    | none => simp [Lists, hnames, listed, hold]
    | some names => simp [Lists, hnames, listed, hold, or_comm]
  · have hnames : (m.registered conn entry).peerNetworkMap peerId = m.peerNetworkMap peerId :=
      update_of_ne hp _ _
    simp [Lists, hnames, hp]

theorem ListedPresent.registered (hm : m.ListedPresent)
    (hself : entry'.peerMap.contains conn.peerId = true)
    (hothers : ∀ entry, m.networkPeerMaps conn.networkName = some entry →
      ∀ p, entry.peerMap.contains p = true → entry'.peerMap.contains p = true) :
    (m.registered conn entry').ListedPresent := by
  intro peerId networkName hlists
  by_cases hname : networkName = conn.networkName
  · subst hname
    refine ⟨entry', networkPeerMaps_registered_self, ?_⟩
    obtain hlists | ⟨rfl, -⟩ := lists_registered_iff.1 hlists
    · obtain ⟨entry, hentry, hmem⟩ := hm peerId _ hlists
      exact hothers entry hentry peerId hmem
    · exact hself
  · rw [networkPeerMaps_registered_of_ne hname]
    exact hm peerId networkName ((lists_registered_iff.1 hlists).resolve_right fun h => hname h.2)

theorem ListedPresent.of_sameTables {m' : ForeignManager} (hm : m.ListedPresent)
    (h : m.SameTables m') : m'.ListedPresent := by
  intro peerId networkName hlists
  rw [Lists, h.2.1] at hlists
  rw [h.1]
  exact hm peerId networkName hlists

end ForeignManager

open ForeignManager

/-- **When a rejected connection leaves nothing behind**: if the relay decision lets it pass and a
known network refuses it, then the peer is listed for the network already, the network has changed
at this very moment, and a peer that is asked has an identity type. -/
theorem rejected_foreign_conn_traceless_iff (m : ForeignManager) (conn : ForeignConn) :
    (((m.addPeerConn conn).1 ≠ .ok () → m.SameTables (m.addPeerConn conn).2) ∧
      (m.ListedPresent → (m.addPeerConn conn).2.ListedPresent)) ↔
      ∀ relayData entry, m.config.relayDecision conn.toInboundConn = .ok relayData →
        m.networkPeerMaps conn.networkName = some entry →
        entry.Refuses m.flags.maxDirectConns conn →
        KeepsType entry m.flags.maxDirectConns conn ∧ m.Lists conn.peerId conn.networkName ∧
          m.networkPeerLastUpdate conn.networkName = some m.systemTime := by
  cases hdec : m.config.relayDecision conn.toInboundConn with
  | error e =>
    have hout : m.addPeerConn conn = (.error e, m) := by simp only [addPeerConn, hdec]
    rw [hout]
    exact iff_of_true ⟨fun _ => ⟨rfl, rfl, rfl⟩, id⟩ (by simp)
  | ok relayData =>
    generalize hfound : (m.networkPeerMaps conn.networkName).getD (.fresh conn relayData) = entry
    have hknown : ∀ old, m.networkPeerMaps conn.networkName = some old → entry = old :=
      fun old hold => by rw [← hfound, hold]; rfl
    by_cases hrefuses : entry.Refuses m.flags.maxDirectConns conn
    · have hsome := known_of_refuses hfound hrefuses
      obtain ⟨e, entry', hout, hsame⟩ := addPeerConn_of_refuses hfound hdec hrefuses
      rw [hout]
      have htables : m.SameTables (m.registered conn entry') ↔ _ :=
        (sameTables_registered_iff hsome).trans (and_congr_left' hsame)
      constructor
      · rintro ⟨htrace, -⟩ _ old - hold -
        rw [← hknown old hold]
        exact htables.1 (htrace (by simp))
      · intro h
        have hsametables := htables.2 (h relayData entry rfl hsome hrefuses)
        exact ⟨fun _ => hsametables, fun hm => hm.of_sameTables hsametables⟩
    · obtain ⟨entry', hout, hself, hothers⟩ := addPeerConn_of_not_refuses hfound hdec hrefuses
      rw [hout]
      refine iff_of_true ⟨fun h => absurd rfl h, fun hm => hm.registered hself ?_⟩ ?_
      · intro old hold
        rwa [← hknown old hold]
      · intro _ old _ hold hrefuses'
        rw [← hknown old hold] at hrefuses'
        exact absurd hrefuses' hrefuses

def emptyForeignManager : ForeignManager where
  trustDomainId := ⟨all32 9⟩
  flags := ⟨fun _ => true, false, 3⟩
  relayGrants := ⟨[]⟩
  now := 0
  systemTime := 5
  networkPeerMaps _ := none
  peerNetworkMap _ := none
  networkPeerLastUpdate _ := none

def foreignConn (myPeerId peerId : PeerId) : ForeignConn where
  networkName := "net"
  myPeerId := myPeerId
  peerId := peerId
  isHolePunched := false
  trustDomainId := ⟨all32 9⟩
  borrowedProof := none
  proof_domain := nofun
  admission := ⟨⟨none, { sampleRequest [] with myPeerId := peerId }, false⟩, sampleManager.node⟩
  same_peer := rfl
  same_tunnel := rfl

/-- A second peer comes in, to a network that has an entry. -/
theorem second_foreign_conn_refines :
    let m := (emptyForeignManager.addPeerConn (foreignConn 1 8)).2
    ∃ node taken, Refines m node ∧ (m.networkPeerMaps "net").isSome = true ∧
      (node.addPeerConn (foreignConn 1 9).toInboundConn taken).1 = .ok () ∧
      Refines (m.addPeerConn (foreignConn 1 9)).2
        (node.addPeerConn (foreignConn 1 9).toInboundConn taken).2 := by
  intro m
  have hempty : Refines emptyForeignManager emptyForeignManager.config :=
    ⟨rfl, rfl, rfl, fun _ => .none⟩
  obtain ⟨first, -, hfirst⟩ := addPeerConn_refines hempty (by decide) (foreignConn 1 8)
  obtain ⟨taken, hanswer, hsecond⟩ := addPeerConn_refines hfirst (by decide) (foreignConn 1 9)
  exact ⟨_, taken, hfirst, by decide +kernel, hanswer.trans (by decide +kernel), hsecond⟩

def managerWith8 : ForeignManager :=
  { (emptyForeignManager.addPeerConn (foreignConn 1 8)).2 with systemTime := 6 }

/-- **A peer that is turned away stays listed**: peer 9 comes for another id of the relay and is
listed for a network in which it is not. -/
theorem rejected_peer_stays_listed :
    (managerWith8.addPeerConn (foreignConn 2 9)).1 = .error .myPeerIdNotMatch ∧
      managerWith8.peerNetworkMap 9 = none ∧ managerWith8.networkPeerLastUpdate "net" = some 5 ∧
      (managerWith8.addPeerConn (foreignConn 2 9)).2.peerNetworkMap 9 = some {"net"} ∧
      (managerWith8.addPeerConn (foreignConn 2 9)).2.networkPeerLastUpdate "net" = some 6 ∧
      ((managerWith8.addPeerConn (foreignConn 2 9)).2.networkPeerMaps "net").map
        (fun entry => entry.peerMap.contains 9) = some false := by
  decide +kernel

end PactMesh
