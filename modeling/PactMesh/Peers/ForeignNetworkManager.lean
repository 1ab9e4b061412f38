import PactMesh.Lib.Trans
import PactMesh.Peers.Handshake
import PactMesh.Peers.TrustAcl
import PactMesh.Trust.RelayBorrow

/-!
# Relaying for other networks

The foreign network manager keeps an entry for every network name and forwards packets between the
connections of an entry.  Whether an entry forwards data is decided by its first connection: the name
must be in the whitelist, and with the proof of a borrowed relay the grant table must allow data for
its trust domain.

Main result: `borrowed_relay_grant_bound`.
-/

namespace PactMesh

open List

/-! ### Connections and entries -/

/-- What the manager looks at in a connection after the handshake, which has checked that a proof is
for the trust domain of the certificate. -/
structure InboundConn where
  networkName : String
  myPeerId : PeerId
  peerId : PeerId
  isHolePunched : Bool
  /-- that of the certificate which the pool has accepted -/
  trustDomainId : TrustDomainId
  borrowedProof : Option BorrowedRelayProof
  proof_domain : ∀ proof ∈ borrowedProof, proof.trustDomainId = trustDomainId
deriving DecidableEq

def InboundConn.ofPlain (cert : MemberCert) (networkName : String) (myPeerId peerId : PeerId) :
    InboundConn where
  networkName := networkName
  myPeerId := myPeerId
  peerId := peerId
  isHolePunched := true
  trustDomainId := cert.details.trustDomainId
  borrowedProof := none
  proof_domain := nofun

/-- `ForeignNetworkEntry`: `relay_data` does not change. -/
structure ForeignNetworkEntry where
  networkName : String
  myPeerId : PeerId
  relayData : Bool
  /-- the connections of `peer_map`, the last one first -/
  conns : List InboundConn := []
deriving DecidableEq

/-- The flags that matter here; `whitelisted` stands for the wildcards of
`relay_network_whitelist`. -/
structure RelayFlags where
  whitelisted : String → Bool
  relayAllPeerRpc : Bool
  maxDirectConns : ℕ

structure RelayNode where
  trustDomainId : TrustDomainId
  flags : RelayFlags
  relayGrants : RelayGrantTable
  now : UInt64
  entries : String → Option ForeignNetworkEntry

inductive AddPeerConnError
  | notInWhitelist
  | noRelayGrant (td : TrustDomainId)
  | myPeerIdNotMatch
  | foreignPeerIdentityNotTrusted
  | tooManyDirectConns
  | peerRefused
deriving DecidableEq

namespace RelayNode

variable (node : RelayNode)

def setEntry (networkName : String) (entry : Option ForeignNetworkEntry) : RelayNode :=
  { node with entries := Function.update node.entries networkName entry }

/-- `remove_peer`: an entry without connections is dropped. -/
def removePeer (networkName : String) : RelayNode :=
  match node.entries networkName with
  | some entry => if entry.conns = [] then node.setEntry networkName none else node
  | none => node

/-- The first part of `add_peer_conn`: may the connection stay, and would it relay data? -/
def relayDecision (conn : InboundConn) : Except AddPeerConnError Bool :=
  let whitelisted := node.flags.whitelisted conn.networkName
  if !whitelisted && !node.flags.relayAllPeerRpc then .error .notInWhitelist
  else
    match conn.borrowedProof with
    | none => .ok whitelisted
    | some proof =>
      let dataOk := node.relayGrants.permitsDataRelay proof.trustDomainId node.now
      let holepunchOk := node.relayGrants.permitsHolepunchAssist proof.trustDomainId node.now
      if !dataOk && !holepunchOk then .error (.noRelayGrant proof.trustDomainId)
      else .ok (whitelisted && dataOk)

/-- `get_or_insert_entry`: the entry for the name, and whether it is new. -/
def getOrInsertEntry (conn : InboundConn) (relayData : Bool) : ForeignNetworkEntry × Bool :=
  match node.entries conn.networkName with
  | some entry => (entry, false)
  | none => ({ networkName := conn.networkName, myPeerId := conn.myPeerId, relayData := relayData }, true)

/-- The last part of `add_peer_conn`; `taken` says that the peer map takes the connection. -/
def joinEntry (conn : InboundConn) (entry : ForeignNetworkEntry) (newAdded taken : Bool) :
    Except AddPeerConnError Unit × RelayNode :=
  if entry.networkName ≠ conn.networkName ∨ entry.myPeerId ≠ conn.myPeerId then
    (.error (if entry.myPeerId ≠ conn.myPeerId then .myPeerIdNotMatch
        else .foreignPeerIdentityNotTrusted),
      if newAdded then node.removePeer entry.networkName else node)
  else
    let ofPeer := entry.conns.filter fun c => c.peerId = conn.peerId
    if !newAdded && ofPeer ≠ [] &&
        node.flags.maxDirectConns ≤ (ofPeer.filter (!·.isHolePunched)).length then
      (.error .tooManyDirectConns, node)
    else if !taken then (.error .peerRefused, node)
    else
      (.ok (), node.setEntry conn.networkName (some { entry with conns := conn :: entry.conns }))

def addPeerConn (conn : InboundConn) (taken : Bool) : Except AddPeerConnError Unit × RelayNode :=
  match node.relayDecision conn with
  | .error e => (.error e, node)
  | .ok relayData =>
    let (entry, newAdded) := node.getOrInsertEntry conn relayData
    (node.setEntry conn.networkName (some entry)).joinEntry conn entry newAdded taken

end RelayNode

/-- `start_packet_recv`: a packet goes on unless it is for this node, or it is data by the types
listed here and the entry does not relay data or is over its limit. -/
def ForeignNetworkEntry.forwards (entry : ForeignNetworkEntry) (packetType : UInt8)
    (toPeerId : PeerId) (withinLimit : Bool) : Bool :=
  toPeerId != entry.myPeerId &&
    (if [PacketType.data, .kcpSrc, .kcpDst].any (·.toByte == packetType) then
      entry.relayData && withinLimit
    else true)

/-! ### Runs of a relay -/

inductive RelayEvent
  /-- a connection comes in -/
  | connect (conn : InboundConn) (taken : Bool)
  /-- a connection closes -/
  | close (networkName : String) (i : ℕ)
  /-- a peer without connections is removed -/
  | removePeer (networkName : String)
  /-- the event handler of an entry ends -/
  | removeNetwork (networkName : String)
  /-- the grant table is replaced -/
  | reloadRelayGrants (table : RelayGrantTable)
  /-- the clock changes -/
  | tick (now : UInt64)
  /-- the flags change -/
  | patchFlags (flags : RelayFlags)
  /-- a packet comes in over a connection -/
  | packet (networkName : String) (conn : InboundConn) (packetType : UInt8) (toPeerId : PeerId)
      (withinLimit : Bool)

namespace RelayNode

variable (node : RelayNode)

def step : RelayEvent → RelayNode
  | .connect conn taken => (node.addPeerConn conn taken).2
  | .close networkName i =>
    node.setEntry networkName
      ((node.entries networkName).map fun entry => { entry with conns := entry.conns.eraseIdx i })
  | .removePeer networkName => node.removePeer networkName
  | .removeNetwork networkName => node.setEntry networkName none
  | .reloadRelayGrants table => { node with relayGrants := table }
  | .tick now => { node with now := now }
  | .patchFlags flags => { node with flags := flags }
  | .packet .. => node

def Forwards (networkName : String) (conn : InboundConn) (packetType : UInt8) (toPeerId : PeerId)
    (withinLimit : Bool) : Prop :=
  ∃ entry, node.entries networkName = some entry ∧ conn ∈ entry.conns ∧
    entry.forwards packetType toPeerId withinLimit = true

/-- The table allows data at the time for every connection of another trust domain whose entry relays
data. -/
def AllowsInUse (table : RelayGrantTable) (now : UInt64) : Prop :=
  ∀ networkName entry, node.entries networkName = some entry → entry.relayData = true →
    ∀ conn ∈ entry.conns, conn.trustDomainId ≠ node.trustDomainId →
      table.permitsDataRelay conn.trustDomainId now = true

/-- A member of another trust domain joins an entry that relays data only with a grant for data, and
founds one under a name of the whitelist only with a proof; no grant in use is withdrawn or runs
out; and data that the filter does not know only comes in where data is relayed. -/
def KeepsToGrants : RelayEvent → Prop
  | .connect conn _ => conn.trustDomainId ≠ node.trustDomainId →
    match node.entries conn.networkName with
    | some entry => entry.relayData = true →
      node.relayGrants.permitsDataRelay conn.trustDomainId node.now = true
    | none => node.flags.whitelisted conn.networkName = true → conn.borrowedProof ≠ none
  | .reloadRelayGrants table => node.AllowsInUse table node.now
  | .tick now => node.AllowsInUse node.relayGrants now
  | .packet networkName _ packetType _ _ =>
    packetType ∈ [PacketType.quicSrc, .quicDst, .dataWithKcpSrcModified,
      .dataWithQuicSrcModified].map PacketType.toByte →
        ∀ entry, node.entries networkName = some entry → entry.relayData = true
  | .close .. | .removePeer _ | .removeNetwork _ | .patchFlags _ => True

variable {node} {conn : InboundConn} {taken : Bool}

theorem permits_of_relayDecision (h : node.relayDecision conn = .ok true)
    (hproof : node.flags.whitelisted conn.networkName = true → conn.borrowedProof ≠ none) :
    node.relayGrants.permitsDataRelay conn.trustDomainId node.now = true := by
  unfold relayDecision at h
  dsimp only at h
  split_ifs at h
  cases hp : conn.borrowedProof with
  | none =>
    simp only [hp, Except.ok.injEq] at h
    exact absurd hp (hproof h)
  | some proof =>
    simp only [hp] at h
    split_ifs at h
    rw [Except.ok.injEq, Bool.and_eq_true] at h
    rw [← conn.proof_domain proof hp]
    exact h.2

@[simp] theorem entries_setEntry_self (networkName : String) (entry : Option ForeignNetworkEntry) :
    (node.setEntry networkName entry).entries networkName = entry := Function.update_self ..

variable {networkName : String} {entry : ForeignNetworkEntry}

theorem entries_setEntry_of_ne {name : String} (hne : name ≠ networkName)
    (entry : Option ForeignNetworkEntry) :
    (node.setEntry networkName entry).entries name = node.entries name :=
  Function.update_of_ne hne ..

@[simp] theorem setEntry_setEntry (networkName : String) (e e' : Option ForeignNetworkEntry) :
    (node.setEntry networkName e).setEntry networkName e' = node.setEntry networkName e' := by
  simp [setEntry]

variable (node conn) in
/-- What an entry can be after a connection has come in: the old one, or a new one by the decision,
with the connection added or not. -/
def Received (entry : ForeignNetworkEntry) : Prop :=
  (∃ old, node.entries conn.networkName = some old ∧ entry.relayData = old.relayData ∧
    ∀ c ∈ entry.conns, c = conn ∨ c ∈ old.conns) ∨
  (node.entries conn.networkName = none ∧ node.relayDecision conn = .ok entry.relayData ∧
    ∀ c ∈ entry.conns, c = conn)

theorem joinEntry_cases (node : RelayNode) (conn : InboundConn) (entry : ForeignNetworkEntry)
    (newAdded taken : Bool)
    (hnew : newAdded = true → entry.networkName = conn.networkName ∧ entry.myPeerId = conn.myPeerId) :
    (node.joinEntry conn entry newAdded taken).2 = node ∨
      (node.joinEntry conn entry newAdded taken).2 =
        node.setEntry conn.networkName (some { entry with conns := conn :: entry.conns }) := by
  unfold joinEntry
  by_cases hmis : entry.networkName ≠ conn.networkName ∨ entry.myPeerId ≠ conn.myPeerId
  · have hold : newAdded = false := by
      cases newAdded with
      | false => rfl
      | true => simp [hnew rfl] at hmis
    simp [hmis, hold]
  · rw [if_neg hmis]
    dsimp only
    split_ifs
    · exact .inl rfl
    · exact .inl rfl
    · exact .inr rfl

theorem addPeerConn_cases (node : RelayNode) (conn : InboundConn) (taken : Bool) :
    (node.addPeerConn conn taken).2 = node ∨
      ∃ entry, (node.addPeerConn conn taken).2 = node.setEntry conn.networkName (some entry) ∧
        node.Received conn entry := by
  unfold addPeerConn
  cases hdec : node.relayDecision conn with
  | error e => exact .inl rfl
  | ok relayData =>
    refine .inr ?_
    cases hent : node.entries conn.networkName with
    | some old =>
      simp only [getOrInsertEntry, hent]
      obtain hsame | hadded := joinEntry_cases (node.setEntry conn.networkName (some old)) conn old
        false taken nofun
      · exact ⟨old, hsame, .inl ⟨old, hent, rfl, fun c hc => .inr hc⟩⟩
      · refine ⟨_, hadded.trans (setEntry_setEntry ..), .inl ⟨old, hent, rfl, fun c hc => ?_⟩⟩
        exact mem_cons.1 hc
    | none =>
      simp only [getOrInsertEntry, hent]
      set new : ForeignNetworkEntry :=
        { networkName := conn.networkName, myPeerId := conn.myPeerId, relayData := relayData }
      obtain hsame | hadded := joinEntry_cases (node.setEntry conn.networkName (some new)) conn new
        true taken fun _ => ⟨rfl, rfl⟩
      · exact ⟨new, hsame, .inr ⟨hent, hdec, nofun⟩⟩
      · refine ⟨_, hadded.trans (setEntry_setEntry ..), .inr ⟨hent, hdec, fun c hc => ?_⟩⟩
        exact mem_singleton.1 hc

theorem AllowsInUse.setEntry {table : RelayGrantTable} {now : UInt64}
    (h : node.AllowsInUse table now) {entry : Option ForeignNetworkEntry}
    (hentry : ∀ e ∈ entry, e.relayData = true → ∀ c ∈ e.conns,
      c.trustDomainId ≠ node.trustDomainId → table.permitsDataRelay c.trustDomainId now = true) :
    (node.setEntry networkName entry).AllowsInUse table now := by
  intro name e he
  by_cases hname : name = networkName
  · subst hname
    rw [entries_setEntry_self] at he
    exact hentry e he
  · rw [entries_setEntry_of_ne hname] at he
    exact h name e he

theorem removePeer_cases (node : RelayNode) (networkName : String) :
    node.removePeer networkName = node ∨
      node.removePeer networkName = node.setEntry networkName none := by
  unfold RelayNode.removePeer
  split
  · split_ifs
    · exact .inr rfl
    · exact .inl rfl
  · exact .inl rfl

theorem AllowsInUse.received (h : node.AllowsInUse node.relayGrants node.now)
    (hconn : node.KeepsToGrants (.connect conn taken)) (hentry : node.Received conn entry) :
    (node.setEntry conn.networkName (some entry)).AllowsInUse node.relayGrants node.now := by
  refine h.setEntry ?_
  rintro e ⟨⟩ hrelay c hc hforeign
  obtain ⟨old, hold, hsame, hconns⟩ | ⟨hnone, hdec, hconns⟩ := hentry
  · rw [hsame] at hrelay
    obtain rfl | hc := hconns c hc
    · have hjoin := hconn hforeign
      rw [hold] at hjoin
      exact hjoin hrelay
    · exact h _ old hold hrelay c hc hforeign
  · obtain rfl := hconns c hc
    have hfound := hconn hforeign
    rw [hnone] at hfound
    rw [hrelay] at hdec
    exact permits_of_relayDecision hdec hfound

theorem AllowsInUse.step (h : node.AllowsInUse node.relayGrants node.now) {event : RelayEvent}
    (hevent : node.KeepsToGrants event) :
    (node.step event).AllowsInUse (node.step event).relayGrants (node.step event).now := by
  cases event with
  | connect conn taken =>
    obtain hsame | ⟨entry, hset, hentry⟩ := addPeerConn_cases node conn taken
    · simpa only [RelayNode.step, hsame] using h
    · rw [RelayNode.step, hset]
      exact h.received hevent hentry
  | close networkName i =>
    refine h.setEntry ?_
    intro e he hrelay c hc hforeign
    obtain ⟨old, hold, rfl⟩ := Option.map_eq_some_iff.1 he
    exact h networkName old hold hrelay c (mem_of_mem_eraseIdx hc) hforeign
  | removePeer networkName =>
    obtain hsame | hset := removePeer_cases node networkName
    · simpa only [RelayNode.step, hsame] using h
    · rw [RelayNode.step, hset]
      exact h.setEntry nofun
  | removeNetwork networkName => exact h.setEntry nofun
  | reloadRelayGrants table => exact hevent
  | tick now => exact hevent
  | patchFlags flags => exact h
  | packet => exact h

/-- Data that an entry forwards is of a type that the filter knows, and then the entry relays data, or
of one of four others. -/
theorem relayData_of_forwards {packetType : UInt8} {toPeerId : PeerId} {withinLimit : Bool}
    (hdata : trafficKind packetType = .data)
    (h : entry.forwards packetType toPeerId withinLimit = true) :
    entry.relayData = true ∨ packetType ∈ [PacketType.quicSrc, .quicDst, .dataWithKcpSrcModified,
      .dataWithQuicSrcModified].map PacketType.toByte := by
  unfold trafficKind at hdata
  unfold ForeignNetworkEntry.forwards at h
  split_ifs at h with hfilter
  · simp only [Bool.and_eq_true] at h
    exact .inl h.2.1
  · refine .inr ?_
    split_ifs at hdata with hkind
    simp only [any_cons, any_nil, Bool.or_eq_true, beq_iff_eq, Bool.or_false, not_or]
      at hfilter hkind
    simp only [map_cons, map_nil, mem_cons, not_mem_nil, or_false]
    tauto

end RelayNode

/-- **When borrowed relay is bound by grants.**  After any events that keep to the grants, data of
another trust domain is forwarded only if the current table has an entry for this domain that has
not expired and allows data. -/
theorem borrowed_relay_grant_bound {node₀ node : RelayNode} {events : List RelayEvent}
    (hinit : ∀ networkName, node₀.entries networkName = none)
    (hrun : ((Trans.ofFun RelayNode.step).guard RelayNode.KeepsToGrants).Run node₀ events node)
    {networkName : String} {conn : InboundConn} {packetType : UInt8} {toPeerId : PeerId}
    {withinLimit : Bool}
    (hpacket : node.KeepsToGrants (.packet networkName conn packetType toPeerId withinLimit))
    (hforwards : node.Forwards networkName conn packetType toPeerId withinLimit)
    (hdata : trafficKind packetType = .data)
    (hforeign : conn.trustDomainId ≠ node.trustDomainId) :
    node.relayGrants.GrantsData conn.trustDomainId node.now := by
  have hinv : node.AllowsInUse node.relayGrants node.now := by
    refine hrun.invariant (I := fun n => n.AllowsInUse n.relayGrants n.now) ?_ ?_
    · intro name entry hentry
      rw [hinit name] at hentry
      cases hentry
    · rintro n event _ hn ⟨hevent, rfl⟩
      exact hn.step hevent
  obtain ⟨entry, hentry, hconn, hfwd⟩ := hforwards
  have hrelay : entry.relayData = true := by
    obtain hrelay | htype := RelayNode.relayData_of_forwards hdata hfwd
    · exact hrelay
    · exact hpacket htype entry hentry
  exact RelayGrantTable.grantsData_of_permits
    (hinv networkName entry hentry hrelay conn hconn hforeign)

instance (node : RelayNode) (networkName : String) (conn : InboundConn) (packetType : UInt8)
    (toPeerId : PeerId) (withinLimit : Bool) :
    Decidable (node.Forwards networkName conn packetType toPeerId withinLimit) :=
  decidable_of_iff ((node.entries networkName).any (fun entry =>
      entry.conns.contains conn && entry.forwards packetType toPeerId withinLimit) = true) (by
    unfold RelayNode.Forwards
    cases node.entries networkName <;> simp)

instance (table : RelayGrantTable) (td : TrustDomainId) (now : UInt64) :
    Decidable (table.GrantsData td now) := by
  unfold RelayGrantTable.GrantsData
  infer_instance

/-- A relay of the domain `[9, 9, …]` at the time 5 with some grants; all names are in the
whitelist. -/
def sampleRelay (grants : List RelayGrantEntry) : RelayNode where
  trustDomainId := ⟨all32 9⟩
  flags := { whitelisted := fun _ => true, relayAllPeerRpc := false, maxDirectConns := 3 }
  relayGrants := ⟨grants⟩
  now := 5
  entries _ := none

def sampleGrant (domain : UInt8) (data holepunch : Bool) : RelayGrantEntry :=
  ⟨⟨all32 domain⟩, ⟨data, holepunch⟩, 100⟩

def sampleForeignCert (domain : UInt8) : MemberCert :=
  { sampleCert (all32 3) with
    details :=
      { (sampleCert (all32 3)).details with
        trustDomainId := ⟨all32 domain⟩ } }

/-- A connection of a domain for the network `branch`, without Noise. -/
def samplePlain (domain : UInt8) (peerId : PeerId) : InboundConn :=
  .ofPlain (sampleForeignCert domain) "branch" 1 peerId

def sampleBorrower (domain : UInt8) (peerId : PeerId) : InboundConn :=
  { samplePlain domain peerId with
    borrowedProof := some ⟨⟨all32 domain⟩, sampleForeignCert domain, 5⟩
    proof_domain := by
      rintro _ ⟨⟩
      rfl }

/-- A packet of another trust domain that counts as data is forwarded to the peer 8 without a
grant. -/
def RelayNode.Breach (node : RelayNode) (conn : InboundConn) (packetType : PacketType) : Prop :=
  node.Forwards "branch" conn packetType.toByte 8 true ∧ trafficKind packetType.toByte = .data ∧
    conn.trustDomainId ≠ node.trustDomainId ∧
    ¬ node.relayGrants.GrantsData conn.trustDomainId node.now

instance (node : RelayNode) (conn : InboundConn) (packetType : PacketType) :
    Decidable (node.Breach conn packetType) := by
  unfold RelayNode.Breach
  infer_instance

/-- Data goes through without a grant: of a peer that skips the Noise handshake; under the name of
another domain; after the grant has been removed; after it has expired; and inside QUIC. -/
theorem relayed_without_grant :
    ([.connect (samplePlain 1 7) true].foldl RelayNode.step (sampleRelay [])).Breach
        (samplePlain 1 7) .data ∧
      ([.connect (sampleBorrower 1 7) true, .connect (sampleBorrower 2 6) true].foldl RelayNode.step
        (sampleRelay [sampleGrant 1 true false, sampleGrant 2 false true])).Breach
          (sampleBorrower 2 6) .data ∧
      ([.connect (sampleBorrower 1 7) true, .reloadRelayGrants ⟨[]⟩].foldl RelayNode.step
        (sampleRelay [sampleGrant 1 true false])).Breach (sampleBorrower 1 7) .data ∧
      ([.connect (sampleBorrower 1 7) true, .tick 100].foldl RelayNode.step
        (sampleRelay [sampleGrant 1 true false])).Breach (sampleBorrower 1 7) .data ∧
      ([.connect (sampleBorrower 1 7) true].foldl RelayNode.step
        (sampleRelay [sampleGrant 1 false true])).Breach (sampleBorrower 1 7) .quicSrc := by
  decide +kernel

/-- With a grant for data, data goes through. -/
theorem relayed_with_grant :
    let node := (sampleRelay [sampleGrant 1 true false]).step (.connect (sampleBorrower 1 7) true)
    node.Forwards "branch" (sampleBorrower 1 7) PacketType.data.toByte 8 true ∧
      node.relayGrants.GrantsData ⟨all32 1⟩ node.now := by
  intro node
  have hkeeps : (sampleRelay [sampleGrant 1 true false]).KeepsToGrants
      (.connect (sampleBorrower 1 7) true) := fun _ _ => nofun
  have hrun : ((Trans.ofFun RelayNode.step).guard RelayNode.KeepsToGrants).Run
      (sampleRelay [sampleGrant 1 true false]) [.connect (sampleBorrower 1 7) true] node :=
    .cons ⟨hkeeps, rfl⟩ .nil
  have hforwards : node.Forwards "branch" (sampleBorrower 1 7) PacketType.data.toByte 8 true := by
    decide +kernel
  have htype : node.KeepsToGrants
      (.packet "branch" (sampleBorrower 1 7) PacketType.data.toByte 8 true) :=
    fun hquic => absurd hquic (by decide)
  refine ⟨hforwards, ?_⟩
  exact borrowed_relay_grant_bound (fun _ => rfl) hrun htype hforwards (by decide) (by decide +kernel)

end PactMesh
