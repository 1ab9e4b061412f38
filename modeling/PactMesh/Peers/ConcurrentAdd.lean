import PactMesh.Lib.Publication
import PactMesh.Peers.Identities

/-!
# Connections that are added at the same time

`PeerMap::add_new_peer_conn` finds or makes the peer, adds the connection, waits for its receive loop
to start, and stores the peer if it is new.  A connection is held if it is in the peer that the map
has in the end.

Main results: `peers_pinned_over_run`, `concurrent_adds_held_iff`.
-/

namespace PactMesh

open Publication

/-- `PeerConnId`; a call is named by its connection. -/
abbrev PeerConnId := ℕ

structure SharedPeer where
  peerIdentityType : Option PeerIdentityType
  peerPublicKey : Option (List UInt8)
  conns : List PeerConnId

namespace SharedPeer

/-- `Peer::new` -/
def new : SharedPeer := ⟨none, none, []⟩

/-- `Peer::add_peer_conn` until the receive loop starts -/
def enter (peer : SharedPeer) (conn : PeerConn) : Except AdmissionError Unit × SharedPeer :=
  if peer.peerIdentityType.any (· ≠ conn.getPeerIdentityType) then
    (.error .peerIdentityTypeMismatch, peer)
  else
    let peer := { peer with peerIdentityType := some conn.getPeerIdentityType }
    if peer.peerPublicKey.any (· ≠ conn.noiseRemoteStaticPubkey) then
      (.error .peerPublicKeyMismatch, peer)
    else (.ok (), { peer with peerPublicKey := some conn.noiseRemoteStaticPubkey })

/-- `Peer::add_peer_conn` after that -/
def insertConn (peer : SharedPeer) (i : PeerConnId) : SharedPeer := { peer with conns := i :: peer.conns }

def toPeer (connOf : PeerConnId → PeerConn) (node : PeerManagerNode) (peer : SharedPeer) : Peer :=
  ⟨peer.peerIdentityType, peer.peerPublicKey, peer.conns.map fun i => ⟨connOf i, node⟩⟩

end SharedPeer

def addOps (connOf : PeerConnId → PeerConn) : Ops PeerConnId SharedPeer AdmissionError where
  fresh := .new
  join i peer := peer.enter (connOf i)
  attach i peer := peer.insertConn i

abbrev AddState := State PeerId PeerConnId SharedPeer AdmissionError

/-- Interleaved calls of `PeerMap::add_new_peer_conn` -/
def addSystem (connOf : PeerConnId → PeerConn) : Trans AddState (Event PeerConnId) :=
  system (addOps connOf) fun i => (connOf i).getPeerId

variable {connOf : PeerConnId → PeerConn} {node : PeerManagerNode}

/-- **Without an interruption** the two halves are `Peer::add_peer_conn`. -/
theorem SharedPeer.offerConn_toPeer (peer : SharedPeer) (i : PeerConnId) :
    (peer.toPeer connOf node).offerConn ⟨connOf i, node⟩ = ((peer.enter (connOf i)).1,
        match (peer.enter (connOf i)).1 with
          | .ok () => ((peer.enter (connOf i)).2.insertConn i).toPeer connOf node
          | .error _ => (peer.enter (connOf i)).2.toPeer connOf node) := by
  by_cases htype : peer.peerIdentityType.any (· ≠ (connOf i).getPeerIdentityType) = true
  · simp only [Peer.offerConn, enter, toPeer, htype, if_true]
  · by_cases hkey : peer.peerPublicKey.any (· ≠ (connOf i).noiseRemoteStaticPubkey) = true
    · simp only [Peer.offerConn, enter, toPeer, htype, hkey, if_true, if_false, Bool.false_eq_true]
    · simp only [Peer.offerConn, enter, toPeer, htype, hkey, if_false, Bool.false_eq_true,
        insertConn, List.map_cons]

/-! ### What peers keep -/

def PeerKeeps (connOf : PeerConnId → PeerConn) (peer : SharedPeer) (waiting added : Set PeerConnId) : Prop :=
  (∀ i, i ∈ peer.conns ↔ i ∈ added) ∧
    ∀ i ∈ waiting ∪ added, peer.peerIdentityType = some (connOf i).getPeerIdentityType ∧
      peer.peerPublicKey = some (connOf i).noiseRemoteStaticPubkey

theorem SharedPeer.enter_cases (peer : SharedPeer) (conn : PeerConn) :
    (∃ e, peer.enter conn = (.error e, peer)) ∨ (∃ e, peer.enter conn =
        (.error e, { peer with peerIdentityType := some conn.getPeerIdentityType }) ∧
      ∀ t ∈ peer.peerIdentityType, t = conn.getPeerIdentityType) ∨ (peer.enter conn =
        (.ok (), ⟨some conn.getPeerIdentityType, some conn.noiseRemoteStaticPubkey, peer.conns⟩) ∧
      (∀ t ∈ peer.peerIdentityType, t = conn.getPeerIdentityType) ∧
      ∀ k ∈ peer.peerPublicKey, k = conn.noiseRemoteStaticPubkey) := by
  unfold enter
  by_cases htype : ∀ t ∈ peer.peerIdentityType, t = conn.getPeerIdentityType
  · rw [if_neg (by rw [any_ne_iff, not_not]; exact htype)]
    by_cases hkey : ∀ k ∈ peer.peerPublicKey, k = conn.noiseRemoteStaticPubkey
    · exact .inr (.inr ⟨if_neg (by rw [any_ne_iff, not_not]; exact hkey), htype, hkey⟩)
    · exact .inr (.inl ⟨_, if_pos (any_ne_iff.2 hkey), htype⟩)
  · exact .inl ⟨_, if_pos (any_ne_iff.2 htype)⟩

theorem served_peerKeeps : Served (addOps connOf) (PeerKeeps connOf) := by
  refine ⟨?_, ?_, ?_, ?_⟩
  · exact ⟨by simp [addOps, SharedPeer.new], by simp⟩
  · rintro peer W D i ⟨hconns, hkeeps⟩ hok
    obtain ⟨e, h⟩ | ⟨e, h, -⟩ | ⟨h, htype, hkey⟩ := peer.enter_cases (connOf i)
    · simp [addOps, h] at hok
    · simp [addOps, h] at hok
    · simp only [addOps, h]
      refine ⟨hconns, fun j hj => ?_⟩
      rw [Set.insert_union, Set.mem_insert_iff] at hj
      obtain rfl | hj := hj
      · exact ⟨rfl, rfl⟩
      · obtain ⟨ht, hk⟩ := hkeeps j hj
        rw [← htype _ ht, ← hkey _ hk]
        exact ⟨rfl, rfl⟩
  · rintro peer W D i e ⟨hconns, hkeeps⟩ herror
    obtain ⟨e, h⟩ | ⟨e, h, htype⟩ | ⟨h, -⟩ := peer.enter_cases (connOf i)
    · simp only [addOps, h]
      exact ⟨hconns, hkeeps⟩
    · simp only [addOps, h]
      refine ⟨hconns, fun j hj => ?_⟩
      obtain ⟨ht, hk⟩ := hkeeps j hj
      rw [← htype _ ht]
      exact ⟨rfl, hk⟩
    · simp [addOps, h] at herror
  · rintro peer W D i ⟨hconns, hkeeps⟩ hmem
    refine ⟨fun j => ?_, fun j hj => hkeeps j ?_⟩
    · simp [addOps, SharedPeer.insertConn, hconns]
    · simp only [Set.mem_union, Set.mem_sdiff, Set.mem_insert_iff] at hj ⊢
      obtain ⟨hj, -⟩ | rfl | hj := hj
      · exact .inl hj
      · exact .inl hmem
      · exact .inr hj

/-! ### Held connections -/

def Held (connOf : PeerConnId → PeerConn) (s : AddState) (i : PeerConnId) : Prop :=
  ∃ r, s.published (connOf i).getPeerId = some r ∧ i ∈ (s.object r).conns

def OneIdentity (connOf : PeerConnId → PeerConn) (peer : SharedPeer) : Prop :=
  ∀ i ∈ peer.conns, ∀ j ∈ peer.conns,
    (connOf i).noiseRemoteStaticPubkey = (connOf j).noiseRemoteStaticPubkey ∧
      (connOf i).getPeerIdentityType = (connOf j).getPeerIdentityType

structure Settled (connOf : PeerConnId → PeerConn) (s : AddState) : Prop where
  known : Known s
  still (i : PeerConnId) (r : Ref PeerId PeerConnId) (isNew : Bool) : s.phase i ≠ .waiting r isNew
  added (i : PeerConnId) (r : Ref PeerId PeerConnId) : s.phase i = .done r →
    s.published (connOf i).getPeerId = some r
  keeps (r : Ref PeerId PeerConnId) : PeerKeeps connOf (s.object r) (waitingAt s r) (doneAt s r)

theorem Settled.serial {s : AddState} (h : Settled connOf s) :
    Serial (fun i => (connOf i).getPeerId) s where
  done hi := h.added _ _ hi
  joined hi := absurd hi (h.still _ _ _)
  free hi := absurd hi (h.still _ _ _)
  one hi := absurd hi (h.still _ _ _)

theorem keeps_of_run {s₀ s : AddState} {events : List (Event PeerConnId)} (h₀ : Settled connOf s₀)
    (hrun : (addSystem connOf).Run s₀ events s) :
    ∀ r, PeerKeeps connOf (s.object r) (waitingAt s r) (doneAt s r) := by
  have hinv := hrun.invariant
    (I := fun s => Known s ∧ ∀ r, PeerKeeps connOf (s.object r) (waitingAt s r) (doneAt s r))
    ⟨h₀.known, h₀.keeps⟩ fun s ev s' hs hst =>
      ⟨hs.1.step hst, served_peerKeeps.step hs.1 hs.2 hst⟩
  exact hinv.2

theorem PeerKeeps.oneIdentity {peer : SharedPeer} {W D : Set PeerConnId}
    (h : PeerKeeps connOf peer W D) : OneIdentity connOf peer := by
  intro i hi j hj
  obtain ⟨hti, hki⟩ := h.2 i (.inr ((h.1 i).1 hi))
  obtain ⟨htj, hkj⟩ := h.2 j (.inr ((h.1 j).1 hj))
  exact ⟨Option.some.inj (hki.symm.trans hkj), Option.some.inj (hti.symm.trans htj)⟩

/-- **Peers are pinned to one identity at all times**, for every interleaving: a peer has just the
connections of the calls that are done with it, and these calls and those that still wait show one
key and one type. -/
theorem peers_pinned_over_run {s₀ s : AddState} {events : List (Event PeerConnId)}
    (h₀ : Settled connOf s₀) (hrun : (addSystem connOf).Run s₀ events s)
    (r : Ref PeerId PeerConnId) :
    (∀ i, i ∈ (s.object r).conns ↔ s.phase i = .done r) ∧
      ∀ i ∈ waitingAt s r ∪ doneAt s r, ∀ j ∈ waitingAt s r ∪ doneAt s r,
        (connOf i).noiseRemoteStaticPubkey = (connOf j).noiseRemoteStaticPubkey ∧
          (connOf i).getPeerIdentityType = (connOf j).getPeerIdentityType := by
  obtain ⟨hconns, hkeeps⟩ := keeps_of_run h₀ hrun r
  refine ⟨hconns, fun i hi j hj => ?_⟩
  obtain ⟨hti, hki⟩ := hkeeps i hi
  obtain ⟨htj, hkj⟩ := hkeeps j hj
  exact ⟨Option.some.inj (hki.symm.trans hkj), Option.some.inj (hti.symm.trans htj)⟩

/-- **When all added connections are held**, for every interleaving of calls: no call finds no peer
while another call for that peer id is adding its first connection.  The connections of one peer
share one identity in any case. -/
theorem concurrent_adds_held_iff {s₀ s : AddState} {events : List (Event PeerConnId)}
    (h₀ : Settled connOf s₀) (hrun : (addSystem connOf).Run s₀ events s)
    (hdone : ∀ i r isNew, s.phase i ≠ .waiting r isNew) :
    ((∀ i r, s.phase i = .done r → Held connOf s i) ∧
      ∀ peerId r, s.published peerId = some r → OneIdentity connOf (s.object r)) ↔
      (addSystem connOf).Along (NoOverlap fun i => (connOf i).getPeerId) s₀ events := by
  have hkeeps := keeps_of_run h₀ hrun
  have hheld : ∀ i r, s.phase i = .done r →
      (Held connOf s i ↔ s.published (connOf i).getPeerId = some r) := by
    intro i r hi
    constructor
    · rintro ⟨r', hfound, hmem⟩
      have hi' : s.phase i = .done r' := ((hkeeps r').1 i).1 hmem
      rw [hfound, Phase.done.inj (hi.symm.trans hi')]
    · intro hfound
      exact ⟨r, hfound, ((hkeeps r).1 i).2 hi⟩
  have hfresh : ∀ i, ((addOps connOf).join i (addOps connOf).fresh).1 = .ok () := fun i => rfl
  rw [addSystem, ← published_iff_along hfresh h₀.known h₀.serial hrun hdone]
  constructor
  · rintro ⟨hall, -⟩ i r hi
    exact (hheld i r hi).1 (hall i r hi)
  · intro hall
    exact ⟨fun i r hi => (hheld i r hi).2 (hall i r hi), fun _ r _ => (hkeeps r).oneIdentity⟩

def noPeers : AddState := ⟨fun _ => none, fun _ => .new, fun _ => .idle⟩

theorem settled_noPeers : Settled connOf noPeers where
  known := ⟨nofun, nofun, nofun, nofun⟩
  still := nofun
  added := nofun
  keeps r := ⟨by simp [noPeers, SharedPeer.new, doneAt], by simp [noPeers, doneAt, waitingAt,
    Phase.waitsWith]⟩

def connsOf7 : PeerConnId → PeerConn := fun _ => ⟨none, sampleRequest [], false⟩

theorem pinned_while_waiting :
    ∃ s, (addSystem connsOf7).Run noPeers [.start 0, .finish 0, .start 1] s ∧
      s.phase 1 = .waiting (.created 0) false ∧
      ∀ i, i ∈ (s.object (.created 0)).conns ↔ s.phase i = .done (.created 0) := by
  have hrun : (addSystem connsOf7).Run noPeers [.start 0, .finish 0, .start 1] _ :=
    .cons rfl (.cons rfl (.cons rfl .nil))
  exact ⟨_, hrun, rfl, (peers_pinned_over_run settled_noPeers hrun (.created 0)).1⟩

/-- **Of two first connections one is lost**: both calls succeed, and the peer in the map has the
second connection only. -/
theorem first_connections_collide :
    ∃ s, (addSystem connsOf7).Run noPeers [.start 0, .start 1, .finish 0, .finish 1] s ∧
      s.phase 0 = .done (.created 0) ∧ s.phase 1 = .done (.created 1) ∧
      s.published 7 = some (.created 1) ∧ (s.object (.created 1)).conns = [1] ∧
      ¬ Held connsOf7 s 0 := by
  refine ⟨_, .cons rfl (.cons rfl (.cons rfl (.cons rfl .nil))), rfl, rfl, rfl, rfl, ?_⟩
  rintro ⟨r, hfound, hmem⟩
  cases Option.some.inj hfound
  cases hmem with
  | tail _ h => cases h

/-- One after the other, both connections are held. -/
theorem two_connections_in_turn :
    ∃ s, (addSystem connsOf7).Run noPeers [.start 0, .finish 0, .start 1, .finish 1] s ∧
      s.phase 0 = .done (.created 0) ∧ s.phase 1 = .done (.created 0) ∧
      Held connsOf7 s 0 ∧ Held connsOf7 s 1 := by
  obtain ⟨s, hrun, h0, h1, hother⟩ : ∃ s, (addSystem connsOf7).Run noPeers
      [.start 0, .finish 0, .start 1, .finish 1] s ∧ s.phase 0 = .done (.created 0) ∧
      s.phase 1 = .done (.created 0) ∧ ∀ i, i ≠ 0 → i ≠ 1 → s.phase i = .idle := by
    refine ⟨_, .cons rfl (.cons rfl (.cons rfl (.cons rfl .nil))), rfl, rfl, fun i hi0 hi1 => ?_⟩
    rw [phase_finish_of_ne hi1, phase_start_of_ne hi1, phase_finish_of_ne hi0,
      phase_start_of_ne hi0]
    rfl
  have hdone : ∀ i r isNew, s.phase i ≠ .waiting r isNew := by
    intro i r isNew
    by_cases hi0 : i = 0
    · rw [hi0, h0]
      nofun
    · by_cases hi1 : i = 1
      · rw [hi1, h1]
        nofun
      · rw [hother i hi0 hi1]
        nofun
  have halong : (addSystem connsOf7).Along (NoOverlap fun i => (connsOf7 i).getPeerId) noPeers
      [.start 0, .finish 0, .start 1, .finish 1] := by
    refine ⟨nofun, fun s₁ h₁ => ⟨trivial, fun s₂ h₂ => ⟨?_, fun _ _ =>
      ⟨trivial, fun _ _ => trivial⟩⟩⟩⟩
    cases h₁
    cases h₂
    intro hfree
    cases hfree
  have hall := (concurrent_adds_held_iff settled_noPeers hrun hdone).2 halong
  exact ⟨s, hrun, h0, h1, hall.1 0 _ h0, hall.1 1 _ h1⟩

end PactMesh
