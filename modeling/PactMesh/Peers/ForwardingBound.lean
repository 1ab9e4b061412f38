import PactMesh.Peers.Forwarding

/-!
# How often a packet is forwarded

The loop of a node forwards a packet at most seven times.  Between two of these a packet passes an
entry, is readdressed, or is wrapped and travels inside a packet with a counter of its own.  So there
is a bound for packets that are wrapped a given number of times; but two networks that relay for each
other wrap a packet again and again.

Main result: `forwarding_bounded`.
-/

namespace PactMesh

open Option PeerManagerHeader

variable {ν : Type}

/-! ### Headers and packets -/

/-- How often a packet is handed on for each time that its counter goes up, if it can be wrapped that
many times more. -/
def hopsPerCount : ℕ → ℕ
  | 0 => 3
  -- the counts of the wrapper, which begins with one, and the hops around them
  | depth + 1 => 7 * hopsPerCount depth + 6

theorem three_le_hopsPerCount (depth : ℕ) : 3 ≤ hopsPerCount depth := by
  cases depth with
  | zero => exact le_rfl
  | succ depth =>
    rw [hopsPerCount]
    omega

variable {hdr : PeerManagerHeader} {e : MeshEntry ν} {self : ν} {networkName : String}
  {p : MeshPacket}

theorem forwardHdr_eq_some {cred : Bool} {hdr' : PeerManagerHeader}
    (h : forwardHdr cred hdr = some hdr') :
    hdr.forwardCounter.toNat < 8 ∧ hdr'.forwardCounter.toNat = hdr.forwardCounter.toNat + 1 := by
  rw [forwardHdr] at h
  split at h
  · cases h
  · rename_i hcount
    have hlt : hdr.forwardCounter.toNat < 8 := by
      have hle := UInt8.le_iff_toNat_le.1 (UInt8.not_lt.1 hcount)
      change hdr.forwardCounter.toNat ≤ 7 at hle
      omega
    have hadd : (hdr.forwardCounter + 1).toNat = hdr.forwardCounter.toNat + 1 := by
      rw [UInt8.toNat_add]
      change (hdr.forwardCounter.toNat + 1) % 256 = _
      omega
    split at h
    · cases h
    · cases h
      split_ifs <;> exact ⟨hlt, hadd⟩

namespace MeshPacket

/-- Every wrapper says whom the packet inside is for. -/
def Addressed : MeshPacket → Prop
  | plain _ => True
  | foreign _ _ dstPeerId inner => dstPeerId = inner.hdr.toPeerId ∧ inner.Addressed

/-- What the counters of a packet leave, if it can be wrapped `more` times. -/
def load : MeshPacket → ℕ → ℕ
  | plain pkt, more => (8 - pkt.hdr.forwardCounter.toNat) * hopsPerCount more
  | foreign hdr _ _ inner, more =>
    inner.load (more + 1) + 3 + (8 - hdr.forwardCounter.toNat) * hopsPerCount more

/-- Encryption and compression leave alone what the bound depends on. -/
structure Reworked (p p' : MeshPacket) : Prop where
  depth : p'.depth = p.depth
  load : ∀ more, p'.load more = p.load more
  addressed : p.Addressed → p'.Addressed

theorem Reworked.refl (p : MeshPacket) : Reworked p p := ⟨rfl, fun _ => rfl, id⟩

theorem Reworked.trans {p q r : MeshPacket} (h : Reworked p q) (h' : Reworked q r) : Reworked p r :=
  ⟨h'.depth.trans h.depth, fun more => (h'.load more).trans (h.load more),
    h'.addressed ∘ h.addressed⟩

theorem Reworked.of_apply (f : Rework) (pkt : Packet) :
    Reworked (.plain pkt) (.plain (f.apply pkt)) := by
  obtain ⟨flags, len, hkeeps⟩ := f.keeps pkt
  exact ⟨rfl, fun more => by rw [MeshPacket.load, MeshPacket.load, hkeeps], id⟩

theorem reworked_rework (f : Rework) (p : MeshPacket) : Reworked p (p.rework f) := by
  cases p with
  | plain pkt => exact .of_apply f pkt
  | foreign hdr networkName dstPeerId inner => exact .refl _

theorem reworked_encrypted (f : Option Rework) (p : MeshPacket) :
    Reworked p ((f.map p.encrypted).getD p) := by
  cases f with
  | none => exact .refl p
  | some f =>
    cases p with
    | plain pkt => exact .of_apply f pkt
    | foreign hdr networkName dstPeerId inner => exact ⟨rfl, fun _ => rfl, id⟩

theorem withHdr_same (p : MeshPacket) (hdr : PeerManagerHeader) :
    (p.withHdr hdr).depth = p.depth ∧ (p.Addressed → (p.withHdr hdr).Addressed) := by
  cases p with
  | plain pkt => exact ⟨rfl, id⟩
  | foreign _ networkName dstPeerId inner => exact ⟨rfl, id⟩

theorem load_withHdr {more : ℕ} (hlt : p.hdr.forwardCounter.toNat < 8)
    (hcount : hdr.forwardCounter.toNat = p.hdr.forwardCounter.toNat + 1) :
    (p.withHdr hdr).load more + hopsPerCount more = p.load more := by
  have hmul : (8 - hdr.forwardCounter.toNat) * hopsPerCount more + hopsPerCount more =
      (8 - p.hdr.forwardCounter.toNat) * hopsPerCount more := by
    rw [← Nat.succ_mul]
    congr 1
    omega
  cases p with
  | plain pkt => exact hmul
  | foreign hdr' networkName dstPeerId inner =>
    rw [withHdr, load, load]
    change _ = _ + (8 - (foreign hdr' networkName dstPeerId inner).hdr.forwardCounter.toNat) * _
    omega

end MeshPacket

open MeshPacket

/-! ### The ways on -/

namespace MeshPeerMap

variable {m : MeshPeerMap ν} {self place : Place ν} {dstPeerId : PeerId}

/-- The map is no next hop of its own. -/
def NoSelfHop (m : MeshPeerMap ν) : Prop :=
  ∀ dstPeerId policy, m.getNextHopWithPolicy dstPeerId policy = some m.myPeerId →
    dstPeerId = m.myPeerId

theorem NoSelfHop.getGatewayPeerId (h : m.NoSelfHop) {policy : NextHopPolicy}
    (hgateway : m.getGatewayPeerId dstPeerId policy = some m.myPeerId) : dstPeerId = m.myPeerId := by
  rw [MeshPeerMap.getGatewayPeerId] at hgateway
  split_ifs at hgateway with hself
  · exact hself
  · exact Option.some.inj hgateway
  · exact h _ _ hgateway

theorem sendMsgDirectly_cases (h : m.sendMsgDirectly self dstPeerId = some place) :
    dstPeerId = m.myPeerId ∧ place = self ∨ ∃ y, m.conns dstPeerId = some y ∧ place = .main y := by
  rw [sendMsgDirectly] at h
  split_ifs at h with hself
  · exact .inl ⟨hself, (Option.some.inj h).symm⟩
  · obtain ⟨y, hy, rfl⟩ := map_eq_some_iff.1 h
    exact .inr ⟨y, hy, rfl⟩

theorem NoSelfHop.sendMsg_cases (h : m.NoSelfHop) {policy : NextHopPolicy}
    (hsend : m.sendMsg self dstPeerId policy = some place) :
    dstPeerId = m.myPeerId ∧ place = self ∨ ∃ peerId y, m.conns peerId = some y ∧ place = .main y := by
  obtain ⟨gateway, hgateway, hdirect⟩ := bind_eq_some_iff.1 hsend
  rcases sendMsgDirectly_cases hdirect with ⟨rfl, hplace⟩ | ⟨y, hy, hplace⟩
  · exact .inl ⟨h.getGatewayPeerId hgateway, hplace⟩
  · exact .inr ⟨gateway, y, hy, hplace⟩

end MeshPeerMap

namespace MeshNode

variable {n : MeshNode ν} {self : ν} {p p' : MeshPacket} {place : Place ν}

theorem reworked_of_sendMsg {dstPeerId : PeerId} (h : n.sendMsg self p dstPeerId = some (place, p')) :
    Reworked p p' := by
  rw [sendMsg] at h
  split at h
  case h_4 => cases h
  all_goals
    obtain ⟨_, -, heq⟩ := map_eq_some_iff.1 h
    cases heq
  · exact .refl p
  · exact .refl p
  · exact reworked_encrypted _ p

/-- A packet is counted and reworked. -/
def Forwarded (n : MeshNode ν) (p p' : MeshPacket) : Prop :=
  ∃ hdr, forwardHdr n.isCredentialNode p.hdr = some hdr ∧ Reworked (p.withHdr hdr) p'

theorem forwarded_of_recvUnhandled (h : n.recvUnhandled self p = some (place, p')) :
    n.Forwarded p p' := by
  rw [recvUnhandled] at h
  split_ifs at h
  obtain ⟨hdr, hhdr, hsend⟩ := bind_eq_some_iff.1 h
  refine ⟨hdr, hhdr, ?_⟩
  dsimp only at hsend
  split_ifs at hsend
  · exact (reworked_rework _ _).trans (reworked_of_sendMsg hsend)
  · exact reworked_of_sendMsg hsend

/-- **The ways on from a node**: the inner packet is taken out, the packet is readdressed by the node
that has wrapped it, or it is forwarded. -/
theorem recvMain_cases (h : n.recvMain self p = some (place, p')) :
    (∃ hdr networkName dstPeerId e, p = .foreign hdr networkName dstPeerId p' ∧
        n.entries networkName = some e ∧
        e.peers.sendMsg (.entry self networkName e.peers.myPeerId) dstPeerId .leastHop = some place) ∨
      (∃ hdr networkName dstPeerId inner e toPeerId, p = .foreign hdr networkName dstPeerId inner ∧
        n.entries networkName = some e ∧ e.peers.myPeerId = hdr.fromPeerId ∧
        n.getOriginMyPeerId networkName hdr.toPeerId = some toPeerId ∧
        n.peers.sendMsg (.main self) toPeerId .leastHop = some place ∧
        p' = .foreign { hdr with toPeerId := toPeerId } networkName dstPeerId inner) ∨
      n.Forwarded p p' := by
  cases p with
  | plain pkt => exact .inr (.inr (forwarded_of_recvUnhandled h))
  | foreign hdr networkName dstPeerId inner =>
    rw [recvMain] at h
    split_ifs at h with henc hme hown
    · exact .inr (.inr (forwarded_of_recvUnhandled h))
    · obtain ⟨e, he, hsend⟩ := bind_eq_some_iff.1 h
      obtain ⟨_, hplace, heq⟩ := map_eq_some_iff.1 hsend
      cases heq
      exact .inl ⟨hdr, networkName, dstPeerId, e, rfl, he, hplace⟩
    · obtain ⟨e, he, hid⟩ := map_eq_some_iff.1 hown
      split at h
      · exact .inr (.inr (forwarded_of_recvUnhandled h))
      · rename_i toPeerId horigin
        obtain ⟨_, hplace, heq⟩ := map_eq_some_iff.1 h
        cases heq
        exact .inr (.inl ⟨hdr, networkName, dstPeerId, inner, e, toPeerId, rfl, he, hid, horigin,
          hplace, rfl⟩)
    · exact .inr (.inr (forwarded_of_recvUnhandled h))

end MeshNode

/-- **The ways on from an entry**: over a connection of the entry, or wrapped to the loop of the node. -/
theorem MeshEntry.recvEntry_cases {p' : MeshPacket} {place : Place ν}
    (h : e.recvEntry self networkName p = some (place, p')) :
    p.hdr.toPeerId ≠ e.peers.myPeerId ∧
      ((∃ gateway, e.peers.getGatewayPeerId p.hdr.toPeerId .leastHop = some gateway ∧
          e.peers.sendMsgDirectly (.entry self networkName e.peers.myPeerId) gateway = some place ∧
          Reworked p p') ∨ e.connectedGateway p.hdr.toPeerId = none ∧ place = .main self ∧ ∃ via,
          p' = p.wrap networkName p.hdr.toPeerId e.peers.myPeerId via) := by
  rw [recvEntry] at h
  split at h
  · cases h
  · rename_i hforwards
    have hto : p.hdr.toPeerId ≠ e.peers.myPeerId := by
      rintro heq
      simp [ForeignNetworkEntry.forwards, heq] at hforwards
    refine ⟨hto, ?_⟩
    split at h
    · rename_i gateway hgateway
      obtain ⟨_, hplace, heq⟩ := map_eq_some_iff.1 h
      cases heq
      refine .inl ⟨gateway, (filter_eq_some_iff.1 hgateway).1, hplace, ?_⟩
      split_ifs
      · exact reworked_encrypted _ p
      · exact .refl p
    · rename_i hnone
      cases h
      exact .inr ⟨hnone, rfl, _, rfl⟩

/-- No node or entry is a next hop of its own, and no peer id is used by the entries of two nodes for the
same network. -/
structure Mesh.Orderly (owner : String → PeerId → ν) (m : Mesh ν) : Prop where
  owns : ∀ x networkName e, (m x).entries networkName = some e →
    owner networkName e.peers.myPeerId = x
  noSelfHop : ∀ x, (m x).peers.NoSelfHop
  noSelfConn : ∀ x peerId, (m x).peers.conns peerId ≠ some x
  entryNoSelfHop : ∀ x networkName e, (m x).entries networkName = some e → e.peers.NoSelfHop

/-- The packet is at an entry that has to wrap it. -/
def Mesh.Wraps (m : Mesh ν) (place : Place ν) (p : MeshPacket) : Prop :=
  ∃ x networkName myPeerId e, place = .entry x networkName myPeerId ∧
    (m x).entries networkName = some e ∧ e.connectedGateway p.hdr.toPeerId = none

/-- A step of an orderly mesh, in which packets are wrapped at most `maxDepth` times. -/
def OrderlyStep (owner : String → PeerId → ν) (maxDepth : ℕ) (s : Place ν × MeshPacket)
    (m : Mesh ν) : Prop := m.Orderly owner ∧ (m.Wraps s.1 s.2 → s.2.depth < maxDepth)

section Rank

variable [DecidableEq ν] (owner : String → PeerId → ν) (maxDepth : ℕ)

/-- How often a packet can be handed on before its counter goes up. -/
def placeRank : Place ν → MeshPacket → ℕ
  | .main _, .plain _ => 1
  | .main x, .foreign hdr networkName _ _ => if owner networkName hdr.fromPeerId = x then 2 else 1
  | .entry _ _ myPeerId, p =>
    if p.hdr.toPeerId = myPeerId then 1 else hopsPerCount (maxDepth - p.depth)

def forwardRank (s : Place ν × MeshPacket) : ℕ :=
  s.2.load (maxDepth - s.2.depth) + placeRank owner maxDepth s.1 s.2

structure Wellwrapped (s : Place ν × MeshPacket) : Prop where
  addressed : s.2.Addressed
  depth_le : s.2.depth ≤ maxDepth

/-- A step keeps packets well wrapped and lowers the rank. -/
def Lowers (s s' : Place ν × MeshPacket) : Prop :=
  Wellwrapped maxDepth s → Wellwrapped maxDepth s' ∧
    forwardRank owner maxDepth s' < forwardRank owner maxDepth s

variable {owner maxDepth} {m : Mesh ν} {x : ν} {place : Place ν} {p p' : MeshPacket}

theorem placeRank_main_mem :
    1 ≤ placeRank owner maxDepth (.main x) p ∧ placeRank owner maxDepth (.main x) p ≤ 2 := by
  cases p with
  | plain pkt => exact ⟨le_rfl, Nat.le_succ _⟩
  | foreign hdr networkName dstPeerId inner =>
    rw [placeRank]
    split_ifs <;> omega

theorem placeRank_mem : 1 ≤ placeRank owner maxDepth place p ∧
    placeRank owner maxDepth place p ≤ hopsPerCount (maxDepth - p.depth) := by
  have hthree := three_le_hopsPerCount (maxDepth - p.depth)
  cases place with
  | main x =>
    have hmain : _ ∧ placeRank owner maxDepth (.main x) p ≤ 2 := placeRank_main_mem
    omega
  | entry x networkName myPeerId =>
    rw [placeRank]
    split_ifs <;> omega

variable {hdr : PeerManagerHeader} {networkName : String} {e : MeshEntry ν}

theorem forwarded_lt {n : MeshNode ν} {place' : Place ν} (h : n.Forwarded p p') :
    Lowers owner maxDepth (place, p) (place', p') := by
  intro hs
  obtain ⟨hdr, hhdr, hreworked⟩ := h
  obtain ⟨hlt, hcount⟩ := forwardHdr_eq_some hhdr
  obtain ⟨hdepth, hload, haddressed⟩ := hreworked
  obtain ⟨hdepth', haddressed'⟩ := p.withHdr_same hdr
  refine ⟨⟨haddressed (haddressed' hs.addressed), ?_⟩, ?_⟩
  · change p'.depth ≤ maxDepth
    rw [hdepth, hdepth']
    exact hs.depth_le
  · have hle : _ ∧ placeRank owner maxDepth place' p' ≤ hopsPerCount (maxDepth - p'.depth) :=
      placeRank_mem
    have hone : 1 ≤ placeRank owner maxDepth place p := placeRank_mem.1
    have hcounted : (p.withHdr hdr).load (maxDepth - p.depth) + hopsPerCount (maxDepth - p.depth) =
        p.load (maxDepth - p.depth) := load_withHdr hlt hcount
    rw [hdepth, hdepth'] at hle
    simp only [forwardRank]
    rw [hload, hdepth, hdepth']
    omega

theorem unwrapped_lt {dstPeerId : PeerId} (hself : e.peers.NoSelfHop)
    (hsend : e.peers.sendMsg (.entry x networkName e.peers.myPeerId) dstPeerId .leastHop =
      some place) :
    Lowers owner maxDepth (.main x, .foreign hdr networkName dstPeerId p) (place, p) := by
  rintro ⟨⟨hdst, haddressed⟩, hdepth⟩
  change p.depth + 1 ≤ maxDepth at hdepth
  refine ⟨⟨haddressed, Nat.le_of_succ_le hdepth⟩, ?_⟩
  -- at its own entry the inner packet has arrived
  have hplace : placeRank owner maxDepth place p ≤ 2 := by
    rcases hself.sendMsg_cases hsend with ⟨harrived, rfl⟩ | ⟨_, y, -, rfl⟩
    · rw [placeRank, if_pos (hdst.symm.trans harrived)]
      exact Nat.le_succ 1
    · exact placeRank_main_mem.2
  have hmore : maxDepth - p.depth = maxDepth - (p.depth + 1) + 1 := by omega
  change p.load (maxDepth - p.depth) + placeRank owner maxDepth place p <
    p.load (maxDepth - (p.depth + 1) + 1) + 3 + _ + _
  rw [← hmore]
  omega

theorem readdressed_lt (hm : m.Orderly owner) {dstPeerId toPeerId : PeerId}
    (he : (m x).entries networkName = some e) (hfrom : e.peers.myPeerId = hdr.fromPeerId)
    (hto : toPeerId ≠ (m x).peers.myPeerId)
    (hsend : (m x).peers.sendMsg (.main x) toPeerId .leastHop = some place) :
    Lowers owner maxDepth (.main x, .foreign hdr networkName dstPeerId p)
      (place, .foreign { hdr with toPeerId := toPeerId } networkName dstPeerId p) := by
  intro hs
  refine ⟨⟨hs.addressed, hs.depth_le⟩, ?_⟩
  have howner : owner networkName hdr.fromPeerId = x := hfrom ▸ hm.owns x networkName e he
  rcases (hm.noSelfHop x).sendMsg_cases hsend with ⟨hme, -⟩ | ⟨peerId, y, hconn, rfl⟩
  · exact absurd hme hto
  · have hne : owner networkName hdr.fromPeerId ≠ y := by
      rintro rfl
      rw [howner] at hconn
      exact hm.noSelfConn x peerId hconn
    simp only [forwardRank, placeRank, if_pos howner, if_neg hne]
    change _ + 1 < _ + 2
    exact Nat.lt_succ_self _

theorem relayed_lt (hself : e.peers.NoSelfHop) (hto : p.hdr.toPeerId ≠ e.peers.myPeerId)
    {gateway : PeerId} (hgateway : e.peers.getGatewayPeerId p.hdr.toPeerId .leastHop = some gateway)
    (hsend : e.peers.sendMsgDirectly (.entry x networkName e.peers.myPeerId) gateway = some place)
    (hreworked : Reworked p p') :
    Lowers owner maxDepth (.entry x networkName e.peers.myPeerId, p) (place, p') := by
  intro hs
  obtain ⟨hdepth, hload, haddressed⟩ := hreworked
  refine ⟨⟨haddressed hs.addressed, hdepth.le.trans hs.depth_le⟩, ?_⟩
  rcases MeshPeerMap.sendMsgDirectly_cases hsend with ⟨rfl, -⟩ | ⟨y, -, rfl⟩
  · exact absurd (hself.getGatewayPeerId hgateway) hto
  · have hmain : placeRank owner maxDepth (.main y) p' ≤ 2 := placeRank_main_mem.2
    have hthree := three_le_hopsPerCount (maxDepth - p.depth)
    have hentry : placeRank owner maxDepth (.entry x networkName e.peers.myPeerId) p =
        hopsPerCount (maxDepth - p.depth) := if_neg hto
    simp only [forwardRank]
    rw [hload, hdepth, hentry]
    omega

theorem wrapped_lt {via : PeerId} (hto : p.hdr.toPeerId ≠ e.peers.myPeerId)
    (hdepth : p.depth < maxDepth)
    (hwrap : p' = p.wrap networkName p.hdr.toPeerId e.peers.myPeerId via) :
    Lowers owner maxDepth (.entry x networkName e.peers.myPeerId, p) (.main x, p') := by
  intro hs
  have hdepth' : p'.depth = p.depth + 1 := by
    rw [hwrap]
    rfl
  have hmore : maxDepth - p.depth = maxDepth - (p.depth + 1) + 1 := by omega
  have hload : p'.load (maxDepth - (p.depth + 1)) =
      p.load (maxDepth - p.depth) + 3 + 7 * hopsPerCount (maxDepth - (p.depth + 1)) := by
    rw [hwrap, wrap, load, hmore]
    rfl
  have hcount : hopsPerCount (maxDepth - p.depth) =
      7 * hopsPerCount (maxDepth - (p.depth + 1)) + 6 := by
    rw [hmore, hopsPerCount]
  have hmain : placeRank owner maxDepth (.main x) p' ≤ 2 := placeRank_main_mem.2
  have hentry : placeRank owner maxDepth (.entry x networkName e.peers.myPeerId) p =
      hopsPerCount (maxDepth - p.depth) := if_neg hto
  refine ⟨⟨hwrap ▸ ⟨rfl, hs.addressed⟩, hdepth'.le.trans hdepth⟩, ?_⟩
  simp only [forwardRank]
  rw [hdepth', hload, hentry]
  omega

/-- **Every step lowers the rank.** -/
theorem lowers_of_step {s s' : Place ν × MeshPacket}
    (hstep : (forwarding.guard (OrderlyStep owner maxDepth)).step s m s') :
    Lowers owner maxDepth s s' := by
  obtain ⟨⟨hm, hwraps⟩, hrecv⟩ := hstep
  obtain ⟨place, p⟩ := s
  obtain ⟨place', p'⟩ := s'
  cases place with
  | main x =>
    rcases MeshNode.recvMain_cases hrecv with ⟨hdr, networkName, dstPeerId, e, rfl, he, hsend⟩ |
      ⟨hdr, networkName, dstPeerId, inner, e, toPeerId, rfl, he, hfrom, horigin, hsend, rfl⟩ | hforwarded
    · exact unwrapped_lt (hm.entryNoSelfHop x networkName e he) hsend
    · -- the node's own entries are not in the map, so the packet leaves the node
      have hto : toPeerId ≠ (m x).peers.myPeerId := by
        rintro rfl
        exact (m x).origin_ne _ _ horigin
      exact readdressed_lt hm he hfrom hto hsend
    · exact forwarded_lt hforwarded
  | entry x networkName myPeerId =>
    obtain ⟨e, he, hentry⟩ := bind_eq_some_iff.1 hrecv
    -- the loop of an entry that is gone receives nothing
    split_ifs at hentry with hid
    subst hid
    obtain ⟨hto, ⟨gateway, hgateway, hsend, hreworked⟩ | ⟨hnone, rfl, via, rfl⟩⟩ :=
      MeshEntry.recvEntry_cases hentry
    · exact relayed_lt (hm.entryNoSelfHop x networkName e he) hto hgateway hsend hreworked
    · exact wrapped_lt hto (hwraps ⟨x, networkName, _, e, rfl, he, hnone⟩) rfl

end Rank

/-- **Forwarding is bounded** as long as the mesh is orderly and packets are wrapped at most
`maxDepth` times, whatever the tables are and however they change. -/
theorem forwarding_bounded (owner : String → PeerId → ν) (maxDepth : ℕ) {place : Place ν}
    {pkt : Packet} {ms : List (Mesh ν)} {s : Place ν × MeshPacket}
    (h : (forwarding.guard (OrderlyStep owner maxDepth)).Run (place, .plain pkt) ms s) :
    ms.length ≤ 9 * hopsPerCount maxDepth := by
  classical
  have hstart : Wellwrapped maxDepth (place, .plain pkt) := ⟨trivial, Nat.zero_le _⟩
  have hrank := h.length_add_rank_le (forwardRank owner maxDepth) hstart fun _ _ _ hs hstep =>
    lowers_of_step hstep hs
  have hplace : placeRank owner maxDepth place (.plain pkt) ≤ hopsPerCount maxDepth := placeRank_mem.2
  have hload : (MeshPacket.plain pkt).load maxDepth ≤ 8 * hopsPerCount maxDepth :=
    Nat.mul_le_mul_right _ (Nat.sub_le _ _)
  have hfirst : forwardRank owner maxDepth (place, .plain pkt) =
      (MeshPacket.plain pkt).load maxDepth + placeRank owner maxDepth place (.plain pkt) := rfl
  omega

/-! ### Two networks that relay for each other -/

/-- The roles in each of the two networks: a relay for the other one, the node that it is connected
to, and a second relay that only the other network reaches. -/
inductive CrossRole
  | relay
  | gate
  | far
deriving DecidableEq

abbrev CrossNode := Bool × CrossRole

def crossName (side : Bool) : String := if side then "n" else "m"

def crossId : CrossNode → PeerId
  | (false, .relay) => 1
  | (false, .gate) => 2
  | (false, .far) => 3
  | (true, .relay) => 4
  | (true, .gate) => 5
  | (true, .far) => 6

def crossEntryId (node : CrossNode) : PeerId := crossId node + 10

def onlyTo {α : Type} (peerId : PeerId) (value : α) (key : PeerId) : Option α :=
  if key = peerId then some value else none

/-- In its own network, a relay reaches the far relay through the gate, and the gate reaches it through
the relay of the other network. -/
def crossPeers (node : CrossNode) : MeshPeerMap CrossNode where
  myPeerId := crossId node
  conns :=
    match node with
    | (side, .relay) => onlyTo (crossId (side, .gate)) (side, .gate)
    | (side, .gate) => onlyTo (crossId (side, .relay)) (side, .relay)
    | (_, .far) => fun _ => none
  getNextHopWithPolicy dstPeerId _ :=
    match node with
    | (side, .relay) => onlyTo (crossId (side, .far)) (crossId (side, .gate)) dstPeerId
    | (side, .gate) => onlyTo (crossId (side, .far)) (crossEntryId (!side, .relay)) dstPeerId
    | (_, .far) => none

/-- In the other network, a relay reaches that network's far relay through the far relay of its own side,
to which it is not connected. -/
def crossEntryPeers (node : CrossNode) : MeshPeerMap CrossNode where
  myPeerId := crossEntryId node
  conns :=
    match node with
    | (side, .relay) => onlyTo (crossId (!side, .gate)) (!side, .gate)
    | (_, .gate) => fun _ => none
    | (side, .far) => onlyTo (crossId (!side, .far)) (!side, .far)
  getNextHopWithPolicy dstPeerId _ :=
    match node with
    | (side, .relay) => onlyTo (crossId (!side, .far)) (crossEntryId (side, .far)) dstPeerId
    | _ => none

def Rework.off : Rework := ⟨id, fun pkt => ⟨pkt.hdr.flags, pkt.hdr.len, rfl⟩⟩

def crossMesh : Mesh CrossNode := fun node =>
  { peers := crossPeers node
    client :=
      match node with
      | (_, .relay) => fun _ => none
      | (side, .gate) => onlyTo (crossEntryId (!side, .relay)) ((!side, .relay), crossName side)
      | (side, .far) => onlyTo (crossEntryId (!side, .far)) ((!side, .far), crossName side)
    entries := fun networkName =>
      if node.2 ≠ .gate ∧ networkName = crossName (!node.1) then
        some ⟨crossEntryPeers node, true, fun _ => true, none⟩
      else none
    getOriginMyPeerId := fun networkName peerId =>
      if node.2 = .relay ∧ networkName = crossName (!node.1) ∧ peerId = crossEntryId (node.1, .far)
        then some (crossId (node.1, .far)) else none
    origin_ne := by
      intro networkName peerId
      obtain ⟨side, role⟩ := node
      cases side <;> cases role <;> simp [crossPeers, crossId]
    identities := ∅
    isCredentialNode := false
    compressAndEncrypt := .off
    relayEncrypt := none }

def crossOwner (_ : String) (peerId : PeerId) : CrossNode :=
  if peerId = crossEntryId (false, .relay) then (false, .relay)
  else if peerId = crossEntryId (false, .far) then (false, .far)
  else if peerId = crossEntryId (true, .relay) then (true, .relay)
  else (true, .far)

theorem crossMesh_orderly : crossMesh.Orderly crossOwner where
  owns := by
    rintro ⟨side, role⟩ networkName e he
    simp only [crossMesh] at he
    split_ifs at he with hentry
    cases he
    cases side <;> cases role <;> first | rfl | exact absurd rfl hentry.1
  noSelfHop := by
    rintro ⟨side, role⟩ dstPeerId policy hhop
    change (crossPeers (side, role)).getNextHopWithPolicy dstPeerId policy = some (crossId (side, role))
      at hhop
    cases side <;> cases role <;> grind [crossPeers, onlyTo, crossId, crossEntryId]
  noSelfConn := by
    rintro ⟨side, role⟩ peerId
    cases side <;> cases role <;> simp [crossMesh, crossPeers, onlyTo]
  entryNoSelfHop := by
    rintro ⟨side, role⟩ networkName e he
    simp only [crossMesh] at he
    split_ifs at he
    cases he
    intro dstPeerId policy hhop
    change (crossEntryPeers (side, role)).getNextHopWithPolicy dstPeerId policy =
      some (crossEntryId (side, role)) at hhop
    cases side <;> cases role <;> grind [crossEntryPeers, onlyTo, crossId, crossEntryId]

def crossPlace (side : Bool) : Place CrossNode :=
  .entry (side, .relay) (crossName (!side)) (crossEntryId (side, .relay))

theorem crossMesh_entries (side : Bool) : (crossMesh (side, .relay)).entries (crossName (!side)) =
    some ⟨crossEntryPeers (side, .relay), true, fun _ => true, none⟩ := if_pos ⟨by simp, rfl⟩

/-- The packet as the relay wraps it. -/
def crossWrap (side : Bool) (p : MeshPacket) (toPeerId : PeerId) : MeshPacket :=
  p.wrap (crossName (!side)) (crossId (!side, .far)) (crossEntryId (side, .relay)) toPeerId

theorem cross_wrap (side : Bool) (hto : p.hdr.toPeerId = crossId (!side, .far)) :
    crossMesh.recv (crossPlace side) p =
      some (.main (side, .relay), crossWrap side p (crossEntryId (side, .far))) := by
  have hne : crossId (!side, .far) ≠ (crossEntryPeers (side, .relay)).myPeerId := by
    cases side <;> decide
  have hgateway : (crossEntryPeers (side, .relay)).getGatewayPeerId (crossId (!side, .far))
      .leastHop = some (crossEntryId (side, .far)) := by
    cases side <;> rfl
  rw [crossPlace, Mesh.recv, crossMesh_entries, bind_some, if_pos (by rfl), crossWrap]
  simp [MeshEntry.recvEntry, MeshEntry.connectedGateway, ForeignNetworkEntry.forwards, hto, hne,
    hgateway]
  cases side <;> rfl

theorem cross_readdress (side : Bool) (p : MeshPacket) :
    crossMesh.recv (.main (side, .relay)) (crossWrap side p (crossEntryId (side, .far))) =
      some (.main (side, .gate), crossWrap side p (crossId (side, .far))) := by
  have hentries := crossMesh_entries side
  have horigin : (crossMesh (side, .relay)).getOriginMyPeerId (crossName (!side))
      (crossEntryId (side, .far)) = some (crossId (side, .far)) := if_pos ⟨rfl, rfl, rfl⟩
  rw [Mesh.recv, crossWrap, MeshPacket.wrap, MeshNode.recvMain,
    if_neg (by simp [PeerManagerHeader.isEncrypted, PeerManagerHeader.hasFlag, flagEncrypted])]
  dsimp only
  rw [if_neg (by cases side <;> decide), MeshNode.getNetworkPeerId, hentries, horigin]
  cases side <;> rfl

theorem cross_forward (side : Bool) (p : MeshPacket) :
    ∃ q, crossMesh.recv (.main (side, .gate)) (crossWrap side p (crossId (side, .far))) =
        some (crossPlace (!side), q) ∧ q.hdr.toPeerId = crossId (side, .far) := by
  have hentries : (crossMesh (side, .gate)).entries (crossName (!side)) = none := by
    simp [crossMesh]
  rw [Mesh.recv, crossWrap, MeshPacket.wrap, MeshNode.recvMain,
    if_neg (by simp [PeerManagerHeader.isEncrypted, PeerManagerHeader.hasFlag, flagEncrypted])]
  dsimp only
  rw [if_neg (by cases side <;> decide), MeshNode.getNetworkPeerId, hentries]
  cases side <;> exact ⟨_, rfl, rfl⟩

theorem cross_run : ∀ (hops : ℕ) (side : Bool) (p : MeshPacket),
    p.hdr.toPeerId = crossId (!side, .far) →
      ∃ s, forwarding.Run (crossPlace side, p) (List.replicate hops crossMesh) s
  | 0, side, p, _ => ⟨(crossPlace side, p), .nil⟩
  | 1, side, _, hto => ⟨_, .cons (cross_wrap side hto) .nil⟩
  | 2, side, p, hto => ⟨_, .cons (cross_wrap side hto) (.cons (cross_readdress side p) .nil)⟩
  | hops + 3, side, p, hto => by
    -- three hops lead to the other side, where the packet is for the far relay of this one
    obtain ⟨q, hforward, hq⟩ := cross_forward side p
    obtain ⟨s, hrun⟩ := cross_run hops (!side) q (by rw [Bool.not_not]; exact hq)
    exact ⟨s, .cons (cross_wrap side hto) (.cons (cross_readdress side p) (.cons hforward hrun))⟩

def crossPacket : Packet :=
  ⟨⟨crossId (false, .gate), crossId (false, .far), PacketType.data.toByte, 0, 1, 0, 0⟩, []⟩

/-- **A packet is forwarded for ever** in two networks that relay for each other, although no table leads
a packet back to where it is. -/
theorem forwarding_unbounded :
    crossMesh.Orderly crossOwner ∧
      (crossMesh (false, .gate)).sendMsg (false, .gate) (.plain crossPacket) (crossId (false, .far)) =
        some (crossPlace true, .plain crossPacket) ∧
      ∀ hops, ∃ s, forwarding.Run (crossPlace true, .plain crossPacket)
        (List.replicate hops crossMesh) s :=
  ⟨crossMesh_orderly, rfl, fun hops => cross_run hops true _ rfl⟩

/-- The bound for packets that are wrapped once. -/
theorem forwarding_bounded_cross :
    ∃ s, (forwarding.guard (OrderlyStep crossOwner 1)).Run (crossPlace true, .plain crossPacket)
        (List.replicate 3 crossMesh) s ∧
      (List.replicate 3 crossMesh).length ≤ 9 * hopsPerCount 1 := by
  obtain ⟨q, hforward, -⟩ := cross_forward true (.plain crossPacket)
  have hrun : (forwarding.guard (OrderlyStep crossOwner 1)).Run (crossPlace true, .plain crossPacket)
      (List.replicate 3 crossMesh) (crossPlace false, q) := by
    refine .cons ⟨⟨crossMesh_orderly, fun _ => Nat.zero_lt_one⟩, cross_wrap true rfl⟩
      (.cons ⟨⟨crossMesh_orderly, ?_⟩, cross_readdress true _⟩
        (.cons ⟨⟨crossMesh_orderly, ?_⟩, hforward⟩ .nil))
    · rintro ⟨_, _, _, _, hplace, -⟩
      cases hplace
    · rintro ⟨_, _, _, _, hplace, -⟩
      cases hplace
  exact ⟨_, hrun, forwarding_bounded crossOwner 1 hrun⟩

end PactMesh
