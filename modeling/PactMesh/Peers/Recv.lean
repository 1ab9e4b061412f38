import PactMesh.Common.Compressor
import PactMesh.Peers.TrustAcl
import PactMesh.Session.RoundTrip

/-!
# From the wire to the local pipeline

The filter of a connection decrypts what the connected peer itself sent to this node.  The receive
loop answers pings and hands everything else to the peer manager, which forwards what is for others;
what is for this node is decrypted under the session with its sender if it is still encrypted,
decompressed, shown to the packet filters and handed to the local pipeline.

Main result: `authentic_iff`.
-/

namespace PactMesh

open PeerManagerHeader

structure PeerSessionTunnelFilter where
  /-- secure mode is on -/
  enabled : Bool
  myPeerId : PeerId
  /-- the connected peer and the session with it, once the handshake is over -/
  peerId : Option PeerId
  session : Option PeerSession

def PeerManagerHeader.hasType (h : PeerManagerHeader) (types : List PacketType) : Bool :=
  types.any (·.toByte == h.packetType)

def shouldSkipEncrypt (h : PeerManagerHeader) : Bool :=
  h.hasType [.noiseHandshakeMsg1, .noiseHandshakeMsg2, .noiseHandshakeMsg3, .relayHandshake,
    .relayHandshakeAck, .ping, .pong]

inductive FilterOutput
  | pass (pkt : Packet)
  | drop
  /-- "session invalidated due to consecutive decrypt failures" -/
  | close

variable (C : CryptoSuite)

def PeerSessionTunnelFilter.afterReceived (f : PeerSessionTunnelFilter) (pkt : Packet)
    (nowMs : UInt64) : FilterOutput × PeerSessionTunnelFilter :=
  if !f.enabled then (.pass pkt, f)
  else if shouldSkipEncrypt pkt.hdr then (.pass pkt, f)
  else if pkt.hdr.fromPeerId = 0 then (.pass pkt, f)
  else
    match f.peerId with
    | none => (.pass pkt, f)
    | some peerId =>
      -- what the connected peer relays for others is left to the peer manager
      if pkt.hdr.fromPeerId ≠ peerId then (.pass pkt, f)
      else
        match f.session with
        | none => (.pass pkt, f)
        | some session =>
          if pkt.hdr.toPeerId ≠ f.myPeerId then (.pass pkt, f)
          else
            match session.decryptPayload C pkt.hdr.fromPeerId f.myPeerId pkt nowMs with
            | (.error _, session) =>
              (if session.isValid then .drop else .close, { f with session := some session })
            | (.ok pkt, session) => (.pass pkt, { f with session := some session })

structure RecvNode where
  myPeerId : PeerId
  networkName : String
  secureMode : Bool
  isCredentialNode : Bool
  /-- the cipher of the network, which is used without secure mode -/
  encryptor : Encryptor
  store : PeerSessionStore
  aclNode : TrustAclNode
  /-- `process_packet_with_acl` on the way in -/
  aclFilter : Packet → Bool
  /-- `try_compress_and_encrypt`, whose errors are ignored here -/
  compressAndEncrypt : Packet → Packet
  /-- the foreign network manager made the packet, and it goes out again -/
  sendsForeign : Packet → Bool

inductive RecvOutcome
  /-- handed to the local pipeline -/
  | delivered (pkt : Packet)
  | forwarded (pkt : Packet)
  /-- handed to `handle_handshake_packet` -/
  | relayHandshake (pkt : Packet)
  /-- handed to the foreign network manager, or sent on for it -/
  | foreignNetwork (pkt : Packet)
  /-- a ping that is sent back as a pong -/
  | pong (pkt : Packet)
  /-- a pong for the pinger of the connection -/
  | control (pkt : Packet)
  | dropped
  | closed
deriving DecidableEq

variable (Z : Zstd) (N : PacketParsers) (T : TrustSuite) (node : RecvNode)

/-- `decrypt_if_needed`: the packet if there is a session with its sender, under which it decrypts;
and the sessions afterwards. -/
def decryptIfNeeded (pkt : Packet) (nowMs : UInt64) : Option Packet × PeerSessionStore :=
  if !node.secureMode then (none, node.store)
  else
    let key : SessionKey := ⟨node.networkName, pkt.hdr.fromPeerId⟩
    match node.store.get key with
    -- a relay handshake is started instead
    | (none, store) => (none, store)
    | (some session, store) =>
      match session.decryptPayload C pkt.hdr.fromPeerId node.myPeerId pkt nowMs with
      | (.error _, session) => (none, store.insert key session)
      | (.ok pkt, session) => (some pkt, store.insert key session)

def forwardPacket (pkt : Packet) : RecvOutcome :=
  if 7 < pkt.hdr.forwardCounter then .dropped
  else if node.isCredentialNode && pkt.hdr.hasType [.handShake, .noiseHandshakeMsg1,
      .noiseHandshakeMsg2, .noiseHandshakeMsg3] then .dropped
  else
    let hdr := if 2 < pkt.hdr.forwardCounter && pkt.hdr.hasFlag flagLatencyFirst
      then pkt.hdr.setLatencyFirst false else pkt.hdr
    let pkt : Packet := ⟨{ hdr with forwardCounter := hdr.forwardCounter + 1 }, pkt.payload⟩
    .forwarded (if pkt.hdr.fromPeerId = node.myPeerId ∧ pkt.hdr.hasType [.data, .kcpSrc, .kcpDst]
      then node.compressAndEncrypt pkt else pkt)

def deliver (pkt : Packet) : RecvOutcome :=
  match decompress Z pkt with
  | .error _ => .dropped
  | .ok pkt => if deliversLocally N T node.aclNode node.aclFilter pkt then .delivered pkt else .dropped

/-- `start_peer_recv` for one packet. -/
def startPeerRecv (pkt : Packet) (nowMs : UInt64) : RecvOutcome × PeerSessionStore :=
  if pkt.hdr.hasType [.foreignNetworkPacket] &&
      (pkt.hdr.toPeerId = node.myPeerId || node.sendsForeign pkt) then
    (.foreignNetwork pkt, node.store)
  else if pkt.hdr.toPeerId ≠ node.myPeerId then (forwardPacket node pkt, node.store)
  else if pkt.hdr.hasType [.relayHandshake, .relayHandshakeAck] then
    (.relayHandshake pkt, node.store)
  else if !node.secureMode then
    match node.encryptor.decrypt C pkt with
    | .error _ => (.dropped, node.store)
    | .ok pkt => (deliver Z N T node pkt, node.store)
  else if pkt.hdr.isEncrypted then
    match decryptIfNeeded C node pkt nowMs with
    | (none, store) => (.dropped, store)
    | (some pkt, store) => (deliver Z N T node pkt, store)
  -- the filter has decrypted the packet, or it was never encrypted: here the two look the same
  else (deliver Z N T node pkt, node.store)

/-- What becomes of the bytes that arrive on a connection: the filter, the receive loop of the
connection, and the peer manager. -/
def receive (f : PeerSessionTunnelFilter) (wire : ZCPacket) (nowMs : UInt64) : RecvOutcome :=
  match wire.packet with
  | none => .closed
  | some pkt =>
    match (f.afterReceived C pkt nowMs).1 with
    | .drop => .dropped
    | .close => .closed
    | .pass pkt =>
      if pkt.hdr.hasType [.ping] then
        .pong ⟨{ pkt.hdr with packetType := PacketType.pong.toByte }, pkt.payload⟩
      else if pkt.hdr.hasType [.pong] then .control pkt
      else (startPeerRecv C Z N T node pkt nowMs).1

section

variable (f : PeerSessionTunnelFilter) (wire : ZCPacket) (nowMs : UInt64)

def handshakeTypes : List PacketType :=
  [.handShake, .noiseHandshakeMsg1, .noiseHandshakeMsg2, .noiseHandshakeMsg3, .ping, .pong,
    .relayHandshake, .relayHandshakeAck]

/-- The delivered packet was decrypted under the session with its sender: that of the connection, if
the sender is the connected peer, or the one in the store. -/
def Authenticated (pkt delivered : Packet) : Prop :=
  pkt.hdr.isEncrypted = true ∧ ∃ session clear,
    ((f.peerId = some delivered.hdr.fromPeerId ∧ f.session = some session) ∨
      node.store.valid ⟨node.networkName, delivered.hdr.fromPeerId⟩ = some session) ∧
    (session.decryptPayload C delivered.hdr.fromPeerId node.myPeerId pkt nowMs).1 = .ok clear ∧
    decompress Z clear = .ok delivered

def Authentic : Prop :=
  ∀ delivered, receive C Z N T node f wire nowMs = .delivered delivered →
    delivered.hdr.hasType handshakeTypes = false →
    ∃ pkt, wire.packet = some pkt ∧ Authenticated C Z node f nowMs pkt delivered

def PeerSessionTunnelFilter.Direct (f : PeerSessionTunnelFilter) (pkt : Packet)
    (session : PeerSession) : Prop :=
  pkt.hdr.fromPeerId ≠ 0 ∧ f.peerId = some pkt.hdr.fromPeerId ∧ f.session = some session ∧
    pkt.hdr.toPeerId = f.myPeerId

/-- A packet whose flag is clear is stopped otherwise: it is not for this node, it is of a foreign
network, the session of the connection refuses it, it does not decompress, or a filter drops it. -/
def Stopped (pkt : Packet) : Prop :=
  pkt.hdr.toPeerId ≠ node.myPeerId ∨ pkt.hdr.hasType [.foreignNetworkPacket] = true ∨
    (∃ session e, f.Direct pkt session ∧
      (session.decryptPayload C pkt.hdr.fromPeerId f.myPeerId pkt nowMs).1 = .error e) ∨
    ∀ q, decompress Z pkt = .ok q → deliversLocally N T node.aclNode node.aclFilter q = false

end

section Proof

variable {C Z N T node} {f : PeerSessionTunnelFilter} {pkt q : Packet} {nowMs : UInt64}

theorem hasType_congr {h h' : PeerManagerHeader} (heq : h'.packetType = h.packetType)
    (types : List PacketType) : h'.hasType types = h.hasType types := by
  rw [hasType, hasType, heq]

theorem hasType_mono {h : PeerManagerHeader} {types types' : List PacketType}
    (hsub : types ⊆ types') (hno : h.hasType types' = false) : h.hasType types = false := by
  simp only [hasType, List.any_eq_false] at hno ⊢
  exact fun t ht => hno t (hsub ht)

theorem decryptPayload_hdr {s : PeerSession} {a b : PeerId}
    (h : (s.decryptPayload C a b pkt nowMs).1 = .ok q) :
    q.hdr.fromPeerId = pkt.hdr.fromPeerId ∧ q.hdr.toPeerId = pkt.hdr.toPeerId ∧
      q.hdr.packetType = pkt.hdr.packetType ∧ q.hdr.isEncrypted = false ∧
      (pkt.hdr.isEncrypted = false → q = pkt) := by
  have hcipher : ∃ e : Encryptor, e.decrypt C pkt = .ok q := by
    unfold PeerSession.decryptPayload at h
    split at h
    · cases h
    · exact SecureDatagramSession.decrypt_of_decryptPayload h
  obtain ⟨e, he⟩ := hcipher
  cases hflag : pkt.hdr.isEncrypted with
  | false =>
    rw [Encryptor.decrypt_of_clear hflag] at he
    cases he
    exact ⟨rfl, rfl, rfl, hflag, fun _ => rfl⟩
  | true =>
    rw [Encryptor.decrypt_hdr_of_encrypted hflag he]
    exact ⟨rfl, rfl, rfl, by simp⟩

theorem decompress_kept (h : decompress Z pkt = .ok q) :
    q.hdr.fromPeerId = pkt.hdr.fromPeerId ∧ q.hdr.packetType = pkt.hdr.packetType := by
  rcases decompress_hdr h with hq | hq <;> rw [hq] <;> exact ⟨rfl, rfl⟩

theorem deliver_eq_delivered :
    deliver Z N T node pkt = .delivered q ↔
      decompress Z pkt = .ok q ∧ deliversLocally N T node.aclNode node.aclFilter q = true := by
  unfold deliver
  cases decompress Z pkt with
  | error e => simp
  | ok p =>
    by_cases hp : deliversLocally N T node.aclNode node.aclFilter p = true
    · simp only [hp, if_true, RecvOutcome.delivered.injEq, Except.ok.injEq]
      exact ⟨fun h => ⟨h, h ▸ hp⟩, fun h => h.1⟩
    · simp only [hp, Bool.false_eq_true, if_false, reduceCtorEq, Except.ok.injEq, false_iff]
      rintro ⟨rfl, h⟩
      exact hp h

variable (C f pkt nowMs) in
theorem afterReceived_cases :
    ((f.enabled = true → shouldSkipEncrypt pkt.hdr = false → ∀ s, ¬ f.Direct pkt s) ∧
      (f.afterReceived C pkt nowMs).1 = .pass pkt) ∨ ∃ s, f.Direct pkt s ∧
      ((∃ e, (s.decryptPayload C pkt.hdr.fromPeerId f.myPeerId pkt nowMs).1 = .error e ∧
          ∀ p, (f.afterReceived C pkt nowMs).1 ≠ .pass p) ∨
        ∃ p, (s.decryptPayload C pkt.hdr.fromPeerId f.myPeerId pkt nowMs).1 = .ok p ∧
          (f.afterReceived C pkt nowMs).1 = .pass p) := by
  by_cases h : f.enabled = true ∧ shouldSkipEncrypt pkt.hdr = false ∧ ∃ s, f.Direct pkt s
  · obtain ⟨hf, hskip, s, hdirect⟩ := h
    refine .inr ⟨s, hdirect, ?_⟩
    obtain ⟨hfrom, hpeer, hsession, hto⟩ := hdirect
    simp only [PeerSessionTunnelFilter.afterReceived, hf, hskip, hfrom, hpeer, hsession, hto]
    rcases s.decryptPayload C pkt.hdr.fromPeerId f.myPeerId pkt nowMs with ⟨e | p, session⟩
    · refine .inl ⟨e, rfl, fun p => ?_⟩
      cases hv : session.isValid <;> simp [hv]
    · exact .inr ⟨p, rfl, by simp⟩
  · refine .inl ⟨fun hf hskip s hs => h ⟨hf, hskip, s, hs⟩, ?_⟩
    have hno : ∀ s, f.session = some s → f.enabled = true → shouldSkipEncrypt pkt.hdr = false →
        ¬ (pkt.hdr.fromPeerId ≠ 0 ∧ f.peerId = some pkt.hdr.fromPeerId ∧
          pkt.hdr.toPeerId = f.myPeerId) :=
      fun s hs hf hskip hd => h ⟨hf, hskip, s, hd.1, hd.2.1, hs, hd.2.2⟩
    grind [PeerSessionTunnelFilter.afterReceived]

theorem forwardPacket_ne_delivered : forwardPacket node pkt ≠ .delivered q := by
  unfold forwardPacket
  split_ifs <;> simp

theorem decryptIfNeeded_eq_some (hsecure : node.secureMode = true) (pkt q : Packet)
    (nowMs : UInt64) :
    (decryptIfNeeded C node pkt nowMs).1 = some q ↔ ∃ session,
      node.store.valid ⟨node.networkName, pkt.hdr.fromPeerId⟩ = some session ∧
      (session.decryptPayload C pkt.hdr.fromPeerId node.myPeerId pkt nowMs).1 = .ok q := by
  simp only [decryptIfNeeded, hsecure, if_not_true]
  have hfst := node.store.get_fst ⟨node.networkName, pkt.hdr.fromPeerId⟩
  cases hget : node.store.get ⟨node.networkName, pkt.hdr.fromPeerId⟩ with
  | mk found store =>
    rw [hget] at hfst
    rw [← hfst]
    cases found with
    | none => simp
    | some session =>
      simp only [Option.some.injEq, exists_eq_left']
      cases session.decryptPayload C pkt.hdr.fromPeerId node.myPeerId pkt nowMs with
      | mk result session' => cases result <;> simp

/-- What is delivered in secure mode is for this node and of no special type; if it is still
encrypted, it decrypts under the session with its sender. -/
theorem startPeerRecv_delivered (hsecure : node.secureMode = true) :
    (startPeerRecv C Z N T node pkt nowMs).1 = .delivered q ↔
      pkt.hdr.toPeerId = node.myPeerId ∧ pkt.hdr.hasType [.foreignNetworkPacket] = false ∧
      pkt.hdr.hasType [.relayHandshake, .relayHandshakeAck] = false ∧
      ((pkt.hdr.isEncrypted = true ∧ ∃ session clear,
          node.store.valid ⟨node.networkName, pkt.hdr.fromPeerId⟩ = some session ∧
          (session.decryptPayload C pkt.hdr.fromPeerId node.myPeerId pkt nowMs).1 = .ok clear ∧
          deliver Z N T node clear = .delivered q) ∨
        (pkt.hdr.isEncrypted = false ∧ deliver Z N T node pkt = .delivered q)) := by
  by_cases hto : pkt.hdr.toPeerId = node.myPeerId
  swap
  · refine iff_of_false ?_ fun h => hto h.1
    simp only [startPeerRecv, hto, decide_false, Bool.false_or, ne_eq, not_false_eq_true, if_true]
    split_ifs
    · simp
    · exact forwardPacket_ne_delivered
  cases hfor : pkt.hdr.hasType [.foreignNetworkPacket] with
  | true => simp [startPeerRecv, hto, hfor]
  | false =>
    cases hrel : pkt.hdr.hasType [.relayHandshake, .relayHandshakeAck] with
    | true => simp [startPeerRecv, hto, hfor, hrel]
    | false =>
      simp only [startPeerRecv, hto, hfor, hrel, hsecure, Bool.false_and, Bool.false_eq_true,
        if_false, ne_eq, not_true_eq_false, Bool.not_true, true_and]
      cases pkt.hdr.isEncrypted with
      | false => simp
      | true =>
        simp only [if_true, true_and, Bool.true_eq_false, false_and, or_false]
        have hiff := fun p => decryptIfNeeded_eq_some (C := C) hsecure pkt p nowMs
        generalize decryptIfNeeded C node pkt nowMs = out at hiff ⊢
        obtain ⟨_ | p, store⟩ := out
        · refine iff_of_false (by simp) ?_
          rintro ⟨session, clear, hvalid, hok, -⟩
          cases (hiff clear).2 ⟨session, hvalid, hok⟩
        · obtain ⟨session, hvalid, hok⟩ := (hiff p).1 rfl
          refine ⟨fun h => ⟨session, p, hvalid, hok, h⟩, ?_⟩
          rintro ⟨session', clear, hvalid', hok', h⟩
          cases (hiff clear).2 ⟨session', hvalid', hok'⟩
          exact h

variable {wire : ZCPacket}

theorem receive_of_pass (hwire : wire.packet = some pkt) {p : Packet}
    (hpass : (f.afterReceived C pkt nowMs).1 = .pass p)
    (htype : p.hdr.hasType handshakeTypes = false) :
    receive C Z N T node f wire nowMs = (startPeerRecv C Z N T node p nowMs).1 := by
  have hping : p.hdr.hasType [.ping] = false := hasType_mono (by simp [handshakeTypes]) htype
  have hpong : p.hdr.hasType [.pong] = false := hasType_mono (by simp [handshakeTypes]) htype
  simp [receive, hwire, hpass, hping, hpong]

theorem start_of_delivered (hwire : wire.packet = some pkt)
    (h : receive C Z N T node f wire nowMs = .delivered q) :
    ∃ p, (f.afterReceived C pkt nowMs).1 = .pass p ∧
      (startPeerRecv C Z N T node p nowMs).1 = .delivered q := by
  simp only [receive, hwire] at h
  cases hout : (f.afterReceived C pkt nowMs).1 with
  | pass p =>
    simp only [hout] at h
    split_ifs at h
    exact ⟨p, rfl, h⟩
  | drop | close => simp [hout] at h

theorem afterReceived_type {p : Packet} (h : (f.afterReceived C pkt nowMs).1 = .pass p) :
    p.hdr.packetType = pkt.hdr.packetType := by
  rcases afterReceived_cases C f pkt nowMs with
    ⟨-, hpass⟩ | ⟨s, -, ⟨e, -, hno⟩ | ⟨p', hok, hpass⟩⟩
  · cases hpass.symm.trans h
    rfl
  · exact absurd h (hno p)
  · cases hpass.symm.trans h
    exact (decryptPayload_hdr hok).2.2.1

variable (hsecure : node.secureMode = true)
include hsecure

theorem delivered_type (hwire : wire.packet = some pkt)
    (h : receive C Z N T node f wire nowMs = .delivered q) :
    q.hdr.packetType = pkt.hdr.packetType := by
  obtain ⟨p, hpass, hstart⟩ := start_of_delivered hwire h
  refine Eq.trans ?_ (afterReceived_type hpass)
  obtain ⟨-, -, -, ⟨-, session, clear, -, hdec, hdel⟩ | ⟨-, hdel⟩⟩ :=
    (startPeerRecv_delivered hsecure).1 hstart
  · exact (decompress_kept (deliver_eq_delivered.1 hdel).1).2.trans (decryptPayload_hdr hdec).2.2.1
  · exact (decompress_kept (deliver_eq_delivered.1 hdel).1).2

theorem receive_clear (hf : f.enabled = true)
    (hwire : wire.packet = some pkt) (hclear : pkt.hdr.isEncrypted = false)
    (htype : pkt.hdr.hasType handshakeTypes = false) :
    receive C Z N T node f wire nowMs = .delivered q ↔
      pkt.hdr.toPeerId = node.myPeerId ∧ pkt.hdr.hasType [.foreignNetworkPacket] = false ∧
      (∀ s, f.Direct pkt s →
        ∃ p, (s.decryptPayload C pkt.hdr.fromPeerId f.myPeerId pkt nowMs).1 = .ok p) ∧
      decompress Z pkt = .ok q ∧ deliversLocally N T node.aclNode node.aclFilter q = true := by
  have hrelay : pkt.hdr.hasType [.relayHandshake, .relayHandshakeAck] = false :=
    hasType_mono (by simp [handshakeTypes]) htype
  have hstart : (startPeerRecv C Z N T node pkt nowMs).1 = .delivered q ↔
      pkt.hdr.toPeerId = node.myPeerId ∧ pkt.hdr.hasType [.foreignNetworkPacket] = false ∧
      decompress Z pkt = .ok q ∧ deliversLocally N T node.aclNode node.aclFilter q = true := by
    rw [startPeerRecv_delivered hsecure, ← deliver_eq_delivered]
    simp [hclear, hrelay]
  rcases afterReceived_cases C f pkt nowMs with
    ⟨hno, hpass⟩ | ⟨s, hdirect, ⟨e, herr, hnopass⟩ | ⟨p, hok, hpass⟩⟩
  · rw [receive_of_pass hwire hpass htype, hstart]
    simp [hno hf (hasType_mono (by simp [handshakeTypes]) htype)]
  · refine iff_of_false (fun h => ?_) fun h => ?_
    · obtain ⟨p, hp, -⟩ := start_of_delivered hwire h
      exact hnopass p hp
    · obtain ⟨p, hp⟩ := h.2.2.1 s hdirect
      rw [herr] at hp
      cases hp
  · -- the session has nothing to check in a packet whose flag is clear
    obtain rfl := (decryptPayload_hdr hok).2.2.2.2 hclear
    have hall : ∀ s', f.Direct p s' →
        ∃ p', (s'.decryptPayload C p.hdr.fromPeerId f.myPeerId p nowMs).1 = .ok p' := by
      intro s' hs'
      have hs : s' = s := Option.some.inj (hs'.2.2.1.symm.trans hdirect.2.2.1)
      exact ⟨p, hs ▸ hok⟩
    rw [receive_of_pass hwire hpass htype, hstart]
    exact ⟨fun ⟨h1, h2, h3⟩ => ⟨h1, h2, hall, h3⟩, fun ⟨h1, h2, _, h3⟩ => ⟨h1, h2, h3⟩⟩

theorem authenticated_of_encrypted
    (hwire : wire.packet = some pkt) (henc : pkt.hdr.isEncrypted = true)
    (h : receive C Z N T node f wire nowMs = .delivered q) :
    Authenticated C Z node f nowMs pkt q := by
  refine ⟨henc, ?_⟩
  obtain ⟨p, hpass, hstart⟩ := start_of_delivered hwire h
  obtain ⟨hto, -, -, hcase⟩ := (startPeerRecv_delivered hsecure).1 hstart
  rcases afterReceived_cases C f pkt nowMs with
    ⟨-, hsame⟩ | ⟨s, hdirect, ⟨e, -, hnopass⟩ | ⟨p', hok, hsame⟩⟩
  · cases hsame.symm.trans hpass
    obtain ⟨-, session, clear, hvalid, hdec, hdel⟩ | ⟨hclear, -⟩ := hcase
    · have hq := (deliver_eq_delivered.1 hdel).1
      have hfrom := (decompress_kept hq).1.trans (decryptPayload_hdr hdec).1
      rw [hfrom]
      exact ⟨session, clear, .inr hvalid, hdec, hq⟩
    · cases henc.symm.trans hclear
  · exact absurd hpass (hnopass p)
  · cases hsame.symm.trans hpass
    obtain ⟨hpfrom, hpto, -, hpclear, -⟩ := decryptPayload_hdr hok
    obtain ⟨henc', -⟩ | ⟨-, hdel⟩ := hcase
    · cases hpclear.symm.trans henc'
    · have hq := (deliver_eq_delivered.1 hdel).1
      have hfrom := (decompress_kept hq).1.trans hpfrom
      have hmy : f.myPeerId = node.myPeerId := (hdirect.2.2.2.symm.trans hpto.symm).trans hto
      rw [hfrom, ← hmy]
      exact ⟨s, p, .inl ⟨hdirect.2.1, hdirect.2.2.1⟩, hok, hq⟩

omit hsecure

/-- **In secure mode, local delivery means authentication exactly for the packets that come
encrypted or are stopped for another reason.** -/
theorem authentic_iff (C : CryptoSuite) (Z : Zstd) (N : PacketParsers) (T : TrustSuite)
    (node : RecvNode) (f : PeerSessionTunnelFilter) (wire : ZCPacket) (nowMs : UInt64)
    (hsecure : node.secureMode = true) (hf : f.enabled = true) :
    Authentic C Z N T node f wire nowMs ↔ ∀ pkt, wire.packet = some pkt →
        pkt.hdr.isEncrypted = true ∨ pkt.hdr.hasType handshakeTypes = true ∨
          Stopped C Z N T node f nowMs pkt := by
  cases hwire : wire.packet with
  | none =>
    refine iff_of_true (fun q hq => ?_) fun pkt h => by cases h
    simp [receive, hwire] at hq
  | some pkt =>
    simp only [Option.some.injEq, forall_eq']
    constructor
    · intro hauth
      by_contra hcond
      simp only [not_or, Bool.not_eq_true] at hcond
      obtain ⟨hclear, htype, hrun⟩ := hcond
      simp only [Stopped, not_or, not_not, Bool.not_eq_true, not_exists, not_and, not_forall,
        Bool.not_eq_false] at hrun
      obtain ⟨hto, hforeign, hdirect, q, hq, hgates⟩ := hrun
      have hdel : receive C Z N T node f wire nowMs = .delivered q := by
        refine (receive_clear hsecure hf hwire hclear htype).2 ⟨hto, hforeign, fun s hs => ?_, hq,
          hgates⟩
        cases hdec : (s.decryptPayload C pkt.hdr.fromPeerId f.myPeerId pkt nowMs).1 with
        | error e => exact absurd hdec (hdirect s e hs)
        | ok p => exact ⟨p, rfl⟩
      obtain ⟨pkt', hpkt', henc, -⟩ := hauth q hdel
        ((hasType_congr (decompress_kept hq).2 _).trans htype)
      cases hwire.symm.trans hpkt'
      cases hclear.symm.trans henc
    · intro hcond q hdel hqtype
      refine ⟨pkt, hwire, ?_⟩
      have htype : pkt.hdr.hasType handshakeTypes = false := by
        rw [← hasType_congr (delivered_type hsecure hwire hdel)]
        exact hqtype
      cases henc : pkt.hdr.isEncrypted with
      | true => exact authenticated_of_encrypted hsecure hwire henc hdel
      | false =>
        obtain ⟨hto, hforeign, hdirect, hq, hgates⟩ :=
          (receive_clear hsecure hf hwire henc htype).1 hdel
        rcases hcond with h | h | h | h | ⟨s, e, hs, he⟩ | h
        · simp [henc] at h
        · simp [htype] at h
        · exact absurd hto h
        · simp [hforeign] at h
        · obtain ⟨p, hp⟩ := hdirect s hs
          rw [he] at hp
          cases hp
        · simp [h q hq] at hgates

end Proof

def sampleRecvNode : RecvNode where
  myPeerId := 3
  networkName := "office"
  secureMode := true
  isCredentialNode := false
  encryptor := ⟨.xor, []⟩
  store := .empty
  aclNode := sampleAclNode [1]
  aclFilter _ := true
  compressAndEncrypt p := p
  sendsForeign _ := false

def sampleFilter : PeerSessionTunnelFilter where
  enabled := true
  myPeerId := 3
  peerId := some 8
  session := some (.new "office" 3 8 (all32 5) 1 0 "aes-gcm" "aes-gcm" none 0)

def sampleRpcPacket (fromPeerId : PeerId) (flags : UInt8) : Packet :=
  ⟨⟨fromPeerId, 3, PacketType.rpcReq.toByte, flags, 0, 0, 28⟩, List.replicate 28 0⟩

def sampleRpc (fromPeerId : PeerId) (flags : UInt8) : ZCPacket :=
  .ofPacket .tcp (sampleRpcPacket fromPeerId flags)

def noZstd : Zstd := fun _ _ => .error .other

def SampleAuthentic (fromPeerId : PeerId) (flags : UInt8) : Prop :=
  Authentic transparentSuite noZstd sampleParsers sampleSuite sampleRecvNode sampleFilter
    (sampleRpc fromPeerId flags) 0

/-- A request that comes encrypted is not delivered unauthenticated. -/
theorem encrypted_rpc_authentic :
    sampleRecvNode.secureMode = true ∧ sampleFilter.enabled = true ∧
      SampleAuthentic 8 flagEncrypted := by
  refine ⟨rfl, rfl, (authentic_iff _ _ _ _ _ _ _ _ rfl rfl).2 fun pkt hpkt => .inl ?_⟩
  rw [sampleRpc, ZCPacket.packet_ofPacket, Option.some.injEq] at hpkt
  rw [← hpkt]
  decide +kernel

theorem not_authentic_of_clear {fromPeerId : PeerId} {q : Packet}
    (hdel : receive transparentSuite noZstd sampleParsers sampleSuite sampleRecvNode sampleFilter
      (sampleRpc fromPeerId 0) 0 = .delivered q)
    (htype : q.hdr.hasType handshakeTypes = false) : ¬ SampleAuthentic fromPeerId 0 := by
  intro hauth
  obtain ⟨pkt, hpkt, henc, -⟩ := hauth q hdel htype
  have hflags : flagEncrypted ≠ 0 := by decide
  rw [sampleRpc, ZCPacket.packet_ofPacket, Option.some.injEq] at hpkt
  rw [← hpkt] at henc
  simp [sampleRpcPacket, isEncrypted, hasFlag, hflags.symm] at henc

/-- **A request whose flag is clear is delivered**, under the name of a peer that is not connected,
under no name, and under the connected peer's. -/
theorem clear_packet_delivered :
    ¬ SampleAuthentic 7 0 ∧ ¬ SampleAuthentic 0 0 ∧ ¬ SampleAuthentic 8 0 := by
  refine ⟨not_authentic_of_clear (q := sampleRpcPacket 7 0) ?_ ?_,
    not_authentic_of_clear (q := sampleRpcPacket 0 0) ?_ ?_,
    not_authentic_of_clear (q := sampleRpcPacket 8 0) ?_ ?_⟩
  all_goals decide +kernel

end PactMesh
