import PactMesh.Peers.Handshake

/-!
# Connections and how a node admits them

A connection runs one of four handshakes: with or without secure mode, and on either side of the
tunnel.  What the handshake left behind (`PeerConn`) decides whether the peer manager takes it.
-/

namespace PactMesh

open List

structure PeerManagerNode extends HandshakeNode where
  /-- secure mode is configured and enabled -/
  secureMode : Bool
  privateMode : Bool

structure PeerConn where
  noise : Option NoiseHandshakeResult
  /-- what the other side said, or what stands for it after a Noise handshake -/
  info : HandshakeRequest
  /-- cleared for a tunnel that connects directly -/
  isHolePunched : Bool

def MAGIC : UInt32 := 0xd1e1a5e1

variable (H : HandshakeSuite) (node : PeerManagerNode)

namespace PeerConn

variable (conn : PeerConn)

def getPeerId : PeerId := conn.info.myPeerId

def noiseRemoteStaticPubkey : List UInt8 := (conn.noise.map (·.remoteStaticPubkey)).getD []

def getPeerIdentityType : PeerIdentityType := (conn.noise.map (·.peerIdentityType)).getD .admin

def peerMemberCert : Option MemberCert :=
  match conn.noise.bind (·.memberCert) with
  | some cert => some cert
  | none => H.certFromCbor conn.info.memberCertCbor

def peerTrustDomainId : Option TrustDomainId :=
  (conn.peerMemberCert H).map (·.details.trustDomainId)

def matchesLocalTrustDomain : Bool :=
  match node.trustContext with
  | none => false
  | some ctx =>
    match conn.peerMemberCert H with
    | none => false
    | some cert => cert.details.trustDomainId = ctx.trustDomainId ∧
        cert.details.networkLocalId = ctx.networkLocalId

end PeerConn

open PeerConn

def buildHandshakeRsp (noise : NoiseHandshakeResult) : HandshakeRequest where
  magic := MAGIC
  myPeerId := noise.peerId
  version := VERSION
  features := []
  networkName := noise.remoteNetworkName
  memberCertCbor := (noise.memberCert.map H.certToCbor).getD []
  applicantNonce := []
  applicantSignature := []

def PeerConn.ofNoise (noise : NoiseHandshakeResult) : PeerConn :=
  ⟨some noise, buildHandshakeRsp H noise, true⟩

inductive FirstPacket
  | noiseMsg1 (inputs : ServerInputs)
  /-- `HandShake`, if it decodes; `sent` says whether the answer can be sent -/
  | handShake (req : Option HandshakeRequest)
      (handshakeRecved : String → Except HandshakeError PeerId) (sent : Bool)
  | other

def checkPeerIdConflict (myPeerId : PeerId) (conn : PeerConn) : Except HandshakeError PeerConn :=
  if conn.getPeerId = myPeerId then .error .peerIdConflict else .ok conn

def plainHandshakeAsServer (req : HandshakeRequest)
    (handshakeRecved : String → Except HandshakeError PeerId) (sent : Bool) :
    Except HandshakeError PeerConn :=
  match decodeHandshakePacket req with
  | .error e => .error e
  | .ok req =>
    match (decodeAndVerifyPlainHandshake H [] req).1 with
    | .error e => .error e
    | .ok req =>
      -- the signature was made with the key of the certificate; the pool answers for that
      match verifyCertCbor H node.toHandshakeNode req.memberCertCbor with
      | .error e => .error e
      | .ok _ =>
        match handshakeRecved req.networkName with
        | .error e => .error e
        | .ok myPeerId =>
          match node.trustContext with
          | none => .error .trustContextNotConfigured
          | some _ =>
            if !sent then .error .notSent
            else checkPeerIdConflict myPeerId ⟨none, req, true⟩

def doHandshakeAsServerExt (store : PeerSessionStore) (first : FirstPacket) :
    Except HandshakeError PeerConn × PeerSessionStore :=
  match first with
  | .noiseMsg1 inputs =>
    if node.secureMode then
      let run := doNoiseHandshakeAsServer H node.toHandshakeNode store inputs
      match run.result with
      | .error e => (.error e, run.store)
      | .ok noise =>
        match inputs.handshakeRecved noise.remoteNetworkName with
        | .error e => (.error e, run.store)
        | .ok myPeerId => (checkPeerIdConflict myPeerId (.ofNoise H noise), run.store)
    else (.error .unexpectedPacketType, store)
  | .handShake req handshakeRecved sent =>
    match req with
    | none => (.error .noMessage, store)
    -- taken in secure mode as well: it is `addNewPeerConn` that compares the modes
    | some req => (plainHandshakeAsServer H node req handshakeRecved sent, store)
  | .other => (.error .unexpectedPacketType, store)

structure ClientInputs where
  /-- msg2 with the source in its header and the static key it proves, in secure mode -/
  msg2 : Option (PeerId × NoiseMsg2 × List UInt8)
  /-- the node's own message can be sent -/
  sent : Bool
  nowMs : UInt64
  /-- the requests that arrive before the time is up, without secure mode -/
  received : List HandshakeRequest

def waitHandshakeLoop (seen : List (List UInt8)) :
    List HandshakeRequest → Except HandshakeError HandshakeRequest
  | [] => .error .noMessage
  | req :: received =>
    match decodeAndVerifyPlainHandshake H seen req with
    | (.ok req, _) => .ok req
    | (.error _, seen) => waitHandshakeLoop seen received

def plainHandshakeAsClient (inputs : ClientInputs) : Except HandshakeError PeerConn :=
  match node.trustContext with
  | none => .error .trustContextNotConfigured
  | some _ =>
    if !inputs.sent then .error .notSent
    else
      -- unlike the other side, this one does not ask the pool about the certificate
      match waitHandshakeLoop H [] inputs.received with
      | .error e => .error e
      | .ok req => checkPeerIdConflict node.myPeerId ⟨none, req, true⟩

def doHandshakeAsClient (store : PeerSessionStore) (conn : ClientConn) (inputs : ClientInputs) :
    Except HandshakeError PeerConn × PeerSessionStore :=
  if node.secureMode then
    let store := (clientStart node.toHandshakeNode store conn).2
    match inputs.msg2 with
    | none => (.error .noMessage, store)
    | some (srcPeerId, msg2, remoteStatic) =>
      match clientFinish H node.toHandshakeNode store conn srcPeerId msg2 remoteStatic inputs.sent
        inputs.nowMs with
      | (.error e, store) => (.error e, store)
      | (.ok noise, store) => (checkPeerIdConflict node.myPeerId (.ofNoise H noise), store)
  else (plainHandshakeAsClient H node inputs, store)

inductive AdmissionError
  | handshake (e : HandshakeError)
  /-- "trust context not configured" -/
  | trustContextNotConfigured
  /-- the tunnel comes from the virtual network itself -/
  | loop
  /-- "same-network peers must use the same secure mode" -/
  | secureModeMismatch
  /-- "trust domain identity not match" -/
  | trustDomainIdentityNotMatch
  /-- "private mode is turned on, foreign trust domain mismatch" -/
  | privateMode
  /-- "peer identity type mismatch" -/
  | peerIdentityTypeMismatch
  /-- "peer public key mismatch" -/
  | peerPublicKeyMismatch
deriving DecidableEq

structure Admission where
  conn : PeerConn
  node : PeerManagerNode

structure Peer where
  peerIdentityType : Option PeerIdentityType
  peerPublicKey : Option (List UInt8)
  conns : List Admission

abbrev PeerMap := PeerId → Option Peer

def Peer.new : Peer := ⟨none, none, []⟩

def Peer.getDirectlyConnections (peer : Peer) : List Admission :=
  peer.conns.filter (!·.conn.isHolePunched)

/-- `Peer::add_peer_conn`: the identity type is stored before the key is compared. -/
def Peer.offerConn (peer : Peer) (a : Admission) : Except AdmissionError Unit × Peer :=
  if peer.peerIdentityType.any (· ≠ a.conn.getPeerIdentityType) then
    (.error .peerIdentityTypeMismatch, peer)
  else
    let peer := { peer with peerIdentityType := some a.conn.getPeerIdentityType }
    if peer.peerPublicKey.any (· ≠ a.conn.noiseRemoteStaticPubkey) then
      (.error .peerPublicKeyMismatch, peer)
    else
      (.ok (), { peer with
        peerPublicKey := some a.conn.noiseRemoteStaticPubkey
        conns := a :: peer.conns })

def Peer.closeConn (peer : Peer) (i : Nat) : Peer :=
  let conns := peer.conns.eraseIdx i
  if conns.isEmpty then .new else { peer with conns }

/-- `PeerMap::add_new_peer_conn`: a new peer is stored once the connection is in it. -/
def PeerMap.offerConn (peers : PeerMap) (a : Admission) : Except AdmissionError Unit × PeerMap :=
  match peers a.conn.getPeerId with
  | none =>
    match Peer.new.offerConn a with
    | (.error e, _) => (.error e, peers)
    | (.ok (), peer) => (.ok (), Function.update peers a.conn.getPeerId (some peer))
  | some peer =>
    let out := peer.offerConn a
    (out.1, Function.update peers a.conn.getPeerId (some out.2))

/-- `PeerManager::add_new_peer_conn`: both sides use the same mode, and the certificate names the
local trust domain and network. -/
def addNewPeerConn (peers : PeerMap) (conn : PeerConn) : Except AdmissionError PeerMap :=
  if node.secureMode ≠ !conn.noiseRemoteStaticPubkey.isEmpty then .error .secureModeMismatch
  else if !conn.matchesLocalTrustDomain H node then .error .trustDomainIdentityNotMatch
  else
    let (result, peers) := peers.offerConn ⟨conn, node⟩
    result.map fun _ => peers

/-! ### Whose certificate has been checked -/

def PeerConn.Checked (conn : PeerConn) : Prop :=
  ∃ cert pool, conn.peerMemberCert H = some cert ∧ node.trustPool = some pool ∧
    pool.verifyMemberCert H cert node.now = .ok cert

section Checked

variable {H node} {conn : PeerConn}

theorem checkPeerIdConflict_ok {myPeerId : PeerId} {conn' : PeerConn}
    (h : checkPeerIdConflict myPeerId conn = .ok conn') : conn' = conn := by
  unfold checkPeerIdConflict at h
  split_ifs at h
  cases h
  rfl

theorem checked_ofNoise {noise : NoiseHandshakeResult} {cert : MemberCert}
    {bytes : List UInt8} (hcert : noise.memberCert = some cert)
    (hv : verifyCertCbor H node.toHandshakeNode bytes = .ok cert) :
    (ofNoise H noise).Checked H node := by
  obtain ⟨pool, -, hpool, hver⟩ := verifyCertCbor_ok hv
  exact ⟨cert, pool, by simp [peerMemberCert, ofNoise, hcert], hpool, hver⟩

variable {req : HandshakeRequest}

theorem checked_plain {cert : MemberCert}
    (hv : verifyCertCbor H node.toHandshakeNode req.memberCertCbor = .ok cert) :
    (mk none req true).Checked H node := by
  obtain ⟨pool, hdec, hpool, hver⟩ := verifyCertCbor_ok hv
  exact ⟨cert, pool, by simp [peerMemberCert, hdec], hpool, hver⟩

def SignedRequest (H : HandshakeSuite) (req : HandshakeRequest) : Prop :=
  ∃ cert, H.certFromCbor req.memberCertCbor = some cert ∧ verifyHandshakeSignature H req cert = .ok ()

variable (H) in
structure PassesAsServer (node : PeerManagerNode) (req : HandshakeRequest)
    (handshakeRecved : String → Except HandshakeError PeerId) (sent : Bool) : Prop where
  signed : SignedRequest H req
  member : ∃ cert, verifyCertCbor H node.toHandshakeNode req.memberCertCbor = .ok cert
  notEmpty : req.memberCertCbor.isEmpty = false
  context : node.trustContext.isSome = true
  answered : sent = true
  otherId : ∃ myPeerId, handshakeRecved req.networkName = .ok myPeerId ∧ req.myPeerId ≠ myPeerId

variable (H) in
structure PassesAsClient (node : PeerManagerNode) (inputs : ClientInputs)
    (req : HandshakeRequest) : Prop where
  plain : node.secureMode = false
  context : node.trustContext.isSome = true
  called : inputs.sent = true
  first : ∃ skipped later, inputs.received = skipped ++ req :: later ∧ SignedRequest H req ∧
    ∀ r ∈ skipped, ¬ SignedRequest H r
  otherId : req.myPeerId ≠ node.myPeerId

theorem decodeAndVerify_of_signed (h : SignedRequest H req) :
    decodeAndVerifyPlainHandshake H [] req = (.ok req, [req.applicantNonce]) := by
  obtain ⟨cert, hdec, hsig⟩ := h
  simp [decodeAndVerifyPlainHandshake, hdec, hsig]

theorem decodeAndVerify_of_not_signed (h : ¬ SignedRequest H req) :
    ∃ e, decodeAndVerifyPlainHandshake H [] req = (.error e, []) := by
  unfold decodeAndVerifyPlainHandshake
  cases hdec : H.certFromCbor req.memberCertCbor with
  | none => exact ⟨_, rfl⟩
  | some cert =>
    cases hsig : verifyHandshakeSignature H req cert with
    | error e => exact ⟨e, by simp [hsig]⟩
    | ok _ => exact absurd ⟨cert, hdec, hsig⟩ h

theorem SignedRequest.lengths (h : SignedRequest H req) :
    req.applicantNonce.length = HANDSHAKE_NONCE_LEN ∧ req.applicantSignature.length = 64 := by
  obtain ⟨cert, -, hsig⟩ := h
  unfold verifyHandshakeSignature at hsig
  split_ifs at hsig with hnonce hlen
  exact ⟨not_not.1 hnonce, not_not.1 hlen⟩

theorem plainHandshakeAsServer_eq_ok_iff {handshakeRecved : String → Except HandshakeError PeerId}
    {sent : Bool} : plainHandshakeAsServer H node req handshakeRecved sent = .ok conn ↔
      conn = ⟨none, req, true⟩ ∧ PassesAsServer H node req handshakeRecved sent := by
  constructor
  · intro h
    unfold plainHandshakeAsServer at h
    split at h
    · cases h
    next hpacket =>
      unfold decodeHandshakePacket at hpacket
      split_ifs at hpacket with _ _ hempty
      cases hpacket
      by_cases hsigned : SignedRequest H req
      swap
      · obtain ⟨e, he⟩ := decodeAndVerify_of_not_signed hsigned
        rw [he] at h
        cases h
      rw [decodeAndVerify_of_signed hsigned] at h
      dsimp only at h
      split at h
      · cases h
      next hcert =>
        split at h
        · cases h
        next hhook =>
          split at h
          · cases h
          next hctx =>
            unfold checkPeerIdConflict at h
            split_ifs at h with hsent hid
            cases h
            exact ⟨rfl, hsigned, ⟨_, hcert⟩, by simpa using hempty, by rw [hctx]; rfl,
              by simpa using hsent, _, hhook, hid⟩
  · rintro ⟨rfl, h⟩
    obtain ⟨cert, hcert⟩ := h.member
    obtain ⟨myPeerId, hhook, hid⟩ := h.otherId
    obtain ⟨ctx, hctx⟩ := Option.isSome_iff_exists.1 h.context
    obtain ⟨hnonce, hlen⟩ := h.signed.lengths
    simp [plainHandshakeAsServer, decodeHandshakePacket, decodeAndVerify_of_signed h.signed, hnonce,
      hlen, h.notEmpty, hcert, hhook, hctx, h.answered, checkPeerIdConflict, getPeerId, hid]

theorem waitHandshakeLoop_eq_ok_iff {received : List HandshakeRequest} :
    waitHandshakeLoop H [] received = .ok req ↔
      ∃ skipped later, received = skipped ++ req :: later ∧ SignedRequest H req ∧
        ∀ r ∈ skipped, ¬ SignedRequest H r := by
  induction received with
  | nil =>
    refine iff_of_false (by simp [waitHandshakeLoop]) ?_
    rintro ⟨skipped, later, h, -⟩
    simp at h
  | cons r received ih =>
    rw [waitHandshakeLoop]
    by_cases hsigned : SignedRequest H r
    · rw [decodeAndVerify_of_signed hsigned]
      constructor
      · intro h
        cases h
        exact ⟨[], received, rfl, hsigned, by simp⟩
      · rintro ⟨skipped, later, heq, -, hskipped⟩
        cases skipped with
        | nil => rw [(List.cons.inj heq).1]
        | cons r' skipped =>
          cases heq
          exact absurd hsigned (hskipped _ mem_cons_self)
    · obtain ⟨e, he⟩ := decodeAndVerify_of_not_signed hsigned
      rw [he]
      refine ih.trans ⟨?_, ?_⟩
      · rintro ⟨skipped, later, rfl, hreq, hskipped⟩
        exact ⟨r :: skipped, later, rfl, hreq, forall_mem_cons.2 ⟨hsigned, hskipped⟩⟩
      · rintro ⟨skipped, later, heq, hreq, hskipped⟩
        cases skipped with
        | nil =>
          cases heq
          exact absurd hreq hsigned
        | cons r' skipped =>
          cases heq
          exact ⟨skipped, later, rfl, hreq, (forall_mem_cons.1 hskipped).2⟩

theorem plainHandshakeAsClient_eq_ok_iff {inputs : ClientInputs}
    (hplain : node.secureMode = false) :
    plainHandshakeAsClient H node inputs = .ok conn ↔
      ∃ req, conn = ⟨none, req, true⟩ ∧ PassesAsClient H node inputs req := by
  unfold plainHandshakeAsClient
  cases hctx : node.trustContext with
  | none => exact iff_of_false nofun fun ⟨_, _, h⟩ => by simpa [hctx] using h.context
  | some ctx =>
    cases hsent : inputs.sent with
    | false => exact iff_of_false nofun fun ⟨_, _, h⟩ => by simpa [hsent] using h.called
    | true =>
      have hpasses : ∀ req, PassesAsClient H node inputs req ↔
          waitHandshakeLoop H [] inputs.received = .ok req ∧ req.myPeerId ≠ node.myPeerId :=
        fun req => ⟨fun h => ⟨waitHandshakeLoop_eq_ok_iff.2 h.first, h.otherId⟩,
          fun h => ⟨hplain, by rw [hctx]; rfl, hsent, waitHandshakeLoop_eq_ok_iff.1 h.1, h.2⟩⟩
      simp only [if_not_true, hpasses]
      cases waitHandshakeLoop H [] inputs.received with
      | error e => simp
      | ok req =>
        by_cases hid : req.myPeerId = node.myPeerId
        · simp [checkPeerIdConflict, getPeerId, hid]
        · simp [checkPeerIdConflict, getPeerId, hid, eq_comm (b := conn)]

/-- **A node that accepts a tunnel has the certificate checked**, with and without secure mode. -/
theorem doHandshakeAsServerExt_checked {store : PeerSessionStore} {first : FirstPacket}
    (h : (doHandshakeAsServerExt H node store first).1 = .ok conn) : conn.Checked H node := by
  unfold doHandshakeAsServerExt at h
  cases first with
  | noiseMsg1 inputs =>
    simp only at h
    split_ifs at h
    split at h
    · cases h
    next noise hnoise =>
      split at h
      · cases h
      · obtain ⟨cert, bytes, hcert, hv⟩ := doNoiseHandshakeAsServer_ok hnoise
        rw [checkPeerIdConflict_ok h]
        exact checked_ofNoise hcert hv
  | handShake req handshakeRecved sent =>
    cases req with
    | none => cases h
    | some req =>
      obtain ⟨rfl, hpasses⟩ := plainHandshakeAsServer_eq_ok_iff.1 h
      obtain ⟨cert, hcert⟩ := hpasses.member
      exact checked_plain hcert
  | other => cases h

/-- In secure mode a client has the certificate checked if the other side claims the same network;
without it, it only knows that the answer is signed. -/
theorem doHandshakeAsClient_checked {store : PeerSessionStore} {cc : ClientConn}
    {inputs : ClientInputs} (h : (doHandshakeAsClient H node store cc inputs).1 = .ok conn)
    (hname : conn.info.networkName = node.networkName) :
    (node.secureMode = true ∧ conn.Checked H node) ∨
      (node.secureMode = false ∧ conn = ⟨none, conn.info, true⟩ ∧ conn.info ∈ inputs.received ∧
        SignedRequest H conn.info) := by
  unfold doHandshakeAsClient at h
  cases hmode : node.secureMode with
  | true =>
    refine .inl ⟨rfl, ?_⟩
    simp only [hmode, if_true] at h
    split at h
    · cases h
    next srcPeerId msg2 remoteStatic _ =>
      split at h
      · cases h
      next noise _ hnoise =>
        have hconn := checkPeerIdConflict_ok h
        obtain ⟨action, ctx, hcheck, hverify, -, hremote, -⟩ :=
          clientFinish_ok (congrArg Prod.fst hnoise)
        -- the name is the own one, so the role hint must be 1
        have hown : msg2.bNetworkName = node.networkName := by
          rw [← hremote, ← hname, hconn]
          rfl
        have hrole := (clientCheckMsg2_ok hcheck).2 hown
        rcases clientVerifyCert_ok hverify with ⟨-, cert, hcert, hv⟩ | ⟨hne, -⟩
        · rw [hconn]
          exact checked_ofNoise hcert hv
        · exact absurd hrole hne
  | false =>
    refine .inr ⟨rfl, ?_⟩
    simp only [hmode, Bool.false_eq_true, if_false, plainHandshakeAsClient_eq_ok_iff hmode] at h
    obtain ⟨req, rfl, hpasses⟩ := h
    obtain ⟨skipped, later, hreceived, hsigned, -⟩ := hpasses.first
    exact ⟨rfl, by simp [hreceived], hsigned⟩

theorem matchesLocalTrustDomain_iff : conn.matchesLocalTrustDomain H node = true ↔
    ∃ ctx cert, node.trustContext = some ctx ∧ conn.peerMemberCert H = some cert ∧
      cert.details.trustDomainId = ctx.trustDomainId ∧
      cert.details.networkLocalId = ctx.networkLocalId := by
  unfold matchesLocalTrustDomain
  cases hctx : node.trustContext with
  | none => simp
  | some ctx => cases hcert : conn.peerMemberCert H <;> simp

theorem addNewPeerConn_ok {peers peers' : PeerMap}
    (h : addNewPeerConn H node peers conn = .ok peers') :
    conn.matchesLocalTrustDomain H node = true ∧ peers' = (peers.offerConn ⟨conn, node⟩).2 := by
  unfold addNewPeerConn at h
  split_ifs at h with hmode hmatch
  refine ⟨by simpa using hmatch, ?_⟩
  generalize peers.offerConn ⟨conn, node⟩ = out at h ⊢
  obtain ⟨_ | _, peers''⟩ := out
  · cases h
  · exact (Except.ok.inj h).symm

theorem PeerMap.offerConn_snd (peers : PeerMap) (a : Admission) :
    (peers.offerConn a).2 = Function.update peers a.conn.getPeerId
      (some (((peers a.conn.getPeerId).getD .new).offerConn a).2) := by
  cases h : peers a.conn.getPeerId <;> simp only [PeerMap.offerConn, h] <;> rfl

theorem PeerMap.mem_offerConn {peers : PeerMap} {a b : Admission} {peerId : PeerId} {peer : Peer}
    (hp : (peers.offerConn a).2 peerId = some peer) (hb : b ∈ peer.conns) :
    b = a ∨ ∃ old, peers peerId = some old ∧ b ∈ old.conns := by
  have hoffer : ∀ p : Peer, b ∈ (p.offerConn a).2.conns → b = a ∨ b ∈ p.conns := by
    intro p h
    unfold Peer.offerConn at h
    dsimp only at h
    split_ifs at h
    · exact .inr h
    · exact .inr h
    · exact mem_cons.1 h
  rw [PeerMap.offerConn_snd, Function.update_apply] at hp
  split_ifs at hp with hid
  · cases hp
    refine (hoffer _ hb).imp_right fun hb => ?_
    rw [hid]
    cases hold : peers a.conn.getPeerId with
    | none =>
      rw [hold] at hb
      cases hb
    | some old =>
      rw [hold] at hb
      exact ⟨old, rfl, hb⟩
  · exact .inr ⟨peer, hp, hb⟩

end Checked

end PactMesh
