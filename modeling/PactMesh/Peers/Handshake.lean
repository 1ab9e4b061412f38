import PactMesh.Session.PeerSession
import PactMesh.Trust.Pool

/-!
# The handshakes of a connection

In secure mode two nodes run the Noise pattern XX; the payloads negotiate a session
(`PeerSessionStore`) and carry the member certificates.  Without it each side sends one request signed
with its device key.

The Noise state machine is a library: the code sees the decrypted payload of a message (or a failure)
and, from msg3 resp. msg2 on, the static key of the other side.
-/

namespace PactMesh

abbrev ConnId := BitVec 128

/-- `PeerConnNoiseMsg1Pb`. -/
structure NoiseMsg1 where
  version : UInt32
  aNetworkName : String
  aSessionGeneration : Option UInt32
  aConnId : Option ConnId
  clientEncryptionAlgorithm : String
deriving DecidableEq

/-- `PeerConnNoiseMsg2Pb`. -/
structure NoiseMsg2 where
  bNetworkName : String
  roleHint : UInt32
  /-- `none` stands for an unknown value -/
  action : Option PeerSessionAction
  bSessionGeneration : UInt32
  rootKey32 : Option (List UInt8)
  initialEpoch : UInt32
  bConnId : Option ConnId
  aConnIdEcho : Option ConnId
  serverEncryptionAlgorithm : String
  memberCertCbor : List UInt8
deriving DecidableEq

/-- `PeerConnNoiseMsg3Pb`. -/
structure NoiseMsg3 where
  aConnIdEcho : Option ConnId
  bConnIdEcho : Option ConnId
  memberCertCbor : List UInt8
  borrowedRelayProof : Option (List UInt8)
deriving DecidableEq

structure HandshakeRequest where
  magic : UInt32
  myPeerId : PeerId
  version : UInt32
  features : List String
  networkName : String
  memberCertCbor : List UInt8
  applicantNonce : List UInt8
  applicantSignature : List UInt8
deriving DecidableEq

structure BorrowedRelayProof where
  trustDomainId : TrustDomainId
  memberCert : MemberCert
  timestamp : UInt64
deriving DecidableEq

structure HandshakeSuite extends TrustSuite where
  proofFromCbor : List UInt8 → Option BorrowedRelayProof
  /-- the canonical CBOR of magic, peer id, version, features and nonce -/
  encodeHandshakeSignaturePayload : HandshakeRequest → List UInt8

instance : Coe HandshakeSuite TrustSuite := ⟨HandshakeSuite.toTrustSuite⟩

inductive SecureAuthLevel
  | encryptedUnauthenticated
  | peerVerified
  | trustDomainVerified
deriving DecidableEq

inductive PeerIdentityType
  | admin
  | credential
  | sharedNode
deriving DecidableEq

inductive HandshakeError
  /-- "noise read msg failed", "decode message failed", "conn closed during wait handshake
  response", or the time is up -/
  | noMessage
  /-- "noise write msg1 failed", or the connection does not take the packet -/
  | notSent
  /-- "trust context not configured" -/
  | trustContextNotConfigured
  /-- "peer_id mismatch" -/
  | peerIdMismatch
  /-- "noise msg2 conn_id_echo mismatch" -/
  | msg2ConnIdEchoMismatch
  /-- "invalid session action" -/
  | invalidSessionAction
  /-- "role_hint must be 1 when network_name is same" -/
  | roleHintMismatch
  /-- "noise msg3 a_conn_id mismatch" -/
  | msg3AConnIdMismatch
  /-- "noise msg3 b_conn_id mismatch" -/
  | msg3BConnIdMismatch
  /-- "invalid member cert cbor" -/
  | invalidMemberCertCbor
  /-- "invalid borrowed relay proof cbor" -/
  | invalidBorrowedRelayProofCbor
  | trustDomainMismatch
  /-- "member_cert verify failed" -/
  | memberCertVerifyFailed
  /-- "pinned remote static pubkey mismatch" -/
  | pinnedPubkeyMismatch
  /-- "pinned pubkey not in trusted list" -/
  | pinnedPubkeyNotTrusted
  /-- "invalid applicant nonce" -/
  | invalidApplicantNonce
  /-- "invalid applicant signature" -/
  | invalidApplicantSignature
  /-- "missing member cert cbor" -/
  | missingMemberCertCbor
  /-- "replayed applicant nonce" -/
  | replayedApplicantNonce
  /-- "unexpected packet type during handshake" -/
  | unexpectedPacketType
  /-- "peer id conflict" -/
  | peerIdConflict
  /-- an error of the session store -/
  | session (e : SessionError)
deriving DecidableEq

/-! ### What a handshake reads of the node -/

structure HandshakeNode where
  myPeerId : PeerId
  networkName : String
  trustContext : Option TrustDomainContext
  trustPool : Option TrustDomainPool
  encryptionAlgorithm : String
  /-- the Noise static public key -/
  localStaticPubkey : Key32
  isPubkeyTrusted : List UInt8 → String → Bool
  /-- seconds since the epoch -/
  now : UInt64

structure NoiseHandshakeResult where
  peerId : PeerId
  session : PeerSession
  remoteStaticPubkey : List UInt8
  secureAuthLevel : SecureAuthLevel
  peerIdentityType : PeerIdentityType
  remoteNetworkName : String
  memberCert : Option MemberCert
  remoteEncryptAlgo : String

variable (H : HandshakeSuite) (node : HandshakeNode)

def toKey32 (bytes : List UInt8) : Option Key32 :=
  if h : bytes.length = 32 then some ⟨bytes.toArray, by simpa using h⟩ else none

def verifyCertCbor (bytes : List UInt8) : Except HandshakeError MemberCert :=
  match H.certFromCbor bytes with
  | none => .error .invalidMemberCertCbor
  | some cert =>
    match node.trustPool with
    | none => .error .memberCertVerifyFailed
    | some pool =>
      match pool.verifyMemberCert H cert node.now with
      | .error _ => .error .memberCertVerifyFailed
      | .ok cert => .ok cert

/-- Authentication of the other side: a verified certificate decides; otherwise a pinned key must
match and be trusted; otherwise a trusted key is enough. -/
def verifyRemoteAuth (verifiedMemberCert : Option MemberCert) (remotePubkey : List UInt8)
    (pinnedPubkey : Option (List UInt8)) (remoteNetworkName : String) :
    Except HandshakeError SecureAuthLevel :=
  -- with a certificate the static key plays no part any more
  if verifiedMemberCert.isSome then .ok .trustDomainVerified
  else
    match pinnedPubkey with
    | some pinned =>
      if pinned ≠ remotePubkey then .error .pinnedPubkeyMismatch
      else if !node.isPubkeyTrusted remotePubkey remoteNetworkName then
        .error .pinnedPubkeyNotTrusted
      else .ok .peerVerified
    | none =>
      if node.isPubkeyTrusted remotePubkey remoteNetworkName then .ok .peerVerified
      else .ok .encryptedUnauthenticated

def classifyRemoteIdentity (remoteNetworkName : String) (secureAuthLevel : SecureAuthLevel)
    (remoteRoleHintIsSameNetwork isClient : Bool) : PeerIdentityType :=
  if !remoteRoleHintIsSameNetwork || remoteNetworkName != node.networkName then
    if isClient then .sharedNode else .credential
  else if secureAuthLevel = .trustDomainVerified ∨ secureAuthLevel = .peerVerified then .admin
  else .credential

/-! ### The Noise handshake, responder -/

structure ServerPending where
  key : SessionKey
  session : PeerSession
  trustContext : TrustDomainContext
  roleHint : UInt32
  msg1 : NoiseMsg1
  bConnId : ConnId

def serverMsg2 (ctx : TrustDomainContext) (roleHint : UInt32) (msg1 : NoiseMsg1) (bConnId : ConnId)
    (ret : UpsertResponderSessionReturn) : NoiseMsg2 where
  bNetworkName := node.networkName
  roleHint := roleHint
  action := some ret.action
  bSessionGeneration := ret.sessionGeneration
  rootKey32 := ret.rootKey.map (·.toList)
  initialEpoch := ret.initialEpoch
  bConnId := some bConnId
  aConnIdEcho := msg1.aConnId
  serverEncryptionAlgorithm := node.encryptionAlgorithm
  memberCertCbor := H.certToCbor ctx.memberCert

/-- The responder from msg1 to msg2.  `handshakeRecved` is the caller's hook, which picks the local
peer id for the network the initiator names. -/
def serverRespond (store : PeerSessionStore)
    (handshakeRecved : String → Except HandshakeError PeerId) (srcPeerId : PeerId)
    (msg1 : NoiseMsg1) (newRootKey : Key32) (bConnId : ConnId) (nowMs : UInt64) :
    Except HandshakeError (ServerPending × NoiseMsg2) × PeerSessionStore :=
  match handshakeRecved msg1.aNetworkName with
  | .error e => (.error e, store)
  | .ok myPeerId =>
    let roleHint : UInt32 := if msg1.aNetworkName = node.networkName then 1 else 2
    -- network and peer id are what msg1 claims: nothing has been authenticated yet
    let key : SessionKey := ⟨msg1.aNetworkName, srcPeerId⟩
    match store.upsertResponderSession key myPeerId msg1.aSessionGeneration
      node.encryptionAlgorithm msg1.clientEncryptionAlgorithm none newRootKey nowMs with
    | (.error e, store) => (.error (.session e), store)
    | (.ok ret, store) =>
      match node.trustContext with
      -- a session that was created stays in the store
      | none => (.error .trustContextNotConfigured, store)
      | some ctx =>
        (.ok (⟨key, ret.session, ctx, roleHint, msg1, bConnId⟩,
          serverMsg2 H node ctx roleHint msg1 bConnId ret), store)

def checkBorrowedProof (ctx : TrustDomainContext) (memberCert : MemberCert)
    (borrowedRelayProof : Option (List UInt8)) : Except HandshakeError (Option BorrowedRelayProof) :=
  if memberCert.details.trustDomainId = ctx.trustDomainId then .ok none
  else
    match borrowedRelayProof with
    | none => .error .trustDomainMismatch
    | some bytes =>
      match H.proofFromCbor bytes with
      | none => .error .invalidBorrowedRelayProofCbor
      | some proof =>
        -- the clocks may be five minutes apart, either way
        if 300 < (max proof.timestamp node.now).toNat - (min proof.timestamp node.now).toNat then
          .error .trustDomainMismatch
        else if proof.memberCert.fingerprint H ≠
            memberCert.fingerprint H then .error .trustDomainMismatch
        else if proof.trustDomainId ≠ memberCert.details.trustDomainId then
          .error .trustDomainMismatch
        else .ok (some proof)

/-- The certificate of msg3: decoded, with a proof if it is of another trust domain, and checked by
the pool. -/
def serverVerifyCert (ctx : TrustDomainContext) (msg3 : NoiseMsg3) :
    Except HandshakeError MemberCert :=
  match H.certFromCbor msg3.memberCertCbor with
  | none => .error .invalidMemberCertCbor
  | some cert =>
    match checkBorrowedProof H node ctx cert msg3.borrowedRelayProof with
    | .error e => .error e
    | .ok _ => verifyCertCbor H node msg3.memberCertCbor

def serverResult (pending : ServerPending) (session : PeerSession) (remoteStatic : List UInt8)
    (cert : MemberCert) (level : SecureAuthLevel) : NoiseHandshakeResult where
  peerId := pending.key.peerId
  session := session
  remoteStaticPubkey := remoteStatic
  secureAuthLevel := level
  peerIdentityType := classifyRemoteIdentity node pending.msg1.aNetworkName level
    (pending.roleHint = 1) false
  remoteNetworkName := pending.msg1.aNetworkName
  memberCert := some cert
  remoteEncryptAlgo := pending.msg1.clientEncryptionAlgorithm

def serverFinish (store : PeerSessionStore) (pending : ServerPending) (msg3 : NoiseMsg3)
    (remoteStatic : List UInt8) : Except HandshakeError NoiseHandshakeResult × PeerSessionStore :=
  if msg3.aConnIdEcho ≠ pending.msg1.aConnId then (.error .msg3AConnIdMismatch, store)
  else if msg3.bConnIdEcho ≠ some pending.bConnId then (.error .msg3BConnIdMismatch, store)
  else
    match pending.session.checkOrSetPeerStaticPubkey (toKey32 remoteStatic) with
    | .error e => (.error (.session e), store)
    | .ok session =>
      let session := session.bindStaticIdentities node.localStaticPubkey.toList remoteStatic
      -- the session is shared with the store, so it is written before the certificate is looked at
      let store := store.insert pending.key session
      match serverVerifyCert H node pending.trustContext msg3 with
      | .error e => (.error e, store)
      | .ok cert =>
        let level := if pending.roleHint = 1 then
            verifyRemoteAuth node (some cert) remoteStatic none pending.msg1.aNetworkName
          else .ok .encryptedUnauthenticated
        (level.map (serverResult node pending session remoteStatic cert), store)

inductive ServerEvent
  | msg2Sent (msg2 : NoiseMsg2)
  | remoteAuthenticated (memberCert : MemberCert)
deriving DecidableEq

structure ServerInputs where
  /-- the source in the header of msg1, which nothing protects -/
  srcPeerId : PeerId
  /-- msg1, unless it does not decode -/
  msg1 : Option NoiseMsg1
  handshakeRecved : String → Except HandshakeError PeerId
  /-- the root key drawn if a session is created -/
  newRootKey : Key32
  bConnId : ConnId
  nowMs : UInt64
  /-- msg2 is written and sent -/
  msg2Sent : Bool
  /-- msg3 with the static key it proves, unless it does not come in time or does not decode -/
  msg3 : Option (NoiseMsg3 × List UInt8)

structure ServerRun where
  result : Except HandshakeError NoiseHandshakeResult
  events : List ServerEvent
  store : PeerSessionStore

def serverAwaitMsg3 (store : PeerSessionStore) (inputs : ServerInputs) (pending : ServerPending)
    (msg2 : NoiseMsg2) : ServerRun :=
  if !inputs.msg2Sent then ⟨.error .notSent, [], store⟩
  else
    match inputs.msg3 with
    | none => ⟨.error .noMessage, [.msg2Sent msg2], store⟩
    | some (msg3, remoteStatic) =>
      match serverFinish H node store pending msg3 remoteStatic with
      | (.error e, store) => ⟨.error e, [.msg2Sent msg2], store⟩
      | (.ok result, store) =>
        ⟨.ok result, .msg2Sent msg2 :: (result.memberCert.map .remoteAuthenticated).toList, store⟩

def doNoiseHandshakeAsServer (store : PeerSessionStore) (inputs : ServerInputs) : ServerRun :=
  match inputs.msg1 with
  | none => ⟨.error .noMessage, [], store⟩
  | some msg1 =>
    match serverRespond H node store inputs.handshakeRecved inputs.srcPeerId msg1 inputs.newRootKey
      inputs.bConnId inputs.nowMs with
    | (.error e, store) => ⟨.error e, [], store⟩
    | (.ok (pending, msg2), store) => serverAwaitMsg3 H node store inputs pending msg2

/-! ### The Noise handshake, initiator -/

structure ClientConn where
  peerIdHint : Option PeerId
  /-- the key pinned for the address in the configuration -/
  pinnedRemotePubkey : Option (List UInt8)
  myEncryptAlgo : String
  aConnId : ConnId

def VERSION : UInt32 := 1

def clientStart (store : PeerSessionStore) (conn : ClientConn) : NoiseMsg1 × PeerSessionStore :=
  let found := match conn.peerIdHint with
    | none => (none, store)
    | some peerId => store.get ⟨node.networkName, peerId⟩
  ({ version := VERSION
     aNetworkName := node.networkName
     aSessionGeneration := found.1.map (·.datagram.sessionGeneration)
     aConnId := some conn.aConnId
     clientEncryptionAlgorithm := conn.myEncryptAlgo }, found.2)

def clientVerifyCert (msg2 : NoiseMsg2) : Except HandshakeError (Option MemberCert) :=
  if msg2.roleHint = 1 then (verifyCertCbor H node msg2.memberCertCbor).map some else .ok none

def clientAuthLevel (conn : ClientConn) (msg2 : NoiseMsg2) (remoteStatic : List UInt8)
    (verifiedMemberCert : Option MemberCert) : Except HandshakeError SecureAuthLevel :=
  if msg2.roleHint ≠ 1 ∧ conn.pinnedRemotePubkey = none then .ok .encryptedUnauthenticated
  else
    verifyRemoteAuth node verifiedMemberCert remoteStatic conn.pinnedRemotePubkey msg2.bNetworkName

def clientCheckMsg2 (conn : ClientConn) (srcPeerId : PeerId) (msg2 : NoiseMsg2) :
    Except HandshakeError (PeerSessionAction × TrustDomainContext) :=
  if conn.peerIdHint.any (· ≠ srcPeerId) then .error .peerIdMismatch
  else if msg2.aConnIdEcho ≠ some conn.aConnId then .error .msg2ConnIdEchoMismatch
  else
    match msg2.action with
    | none => .error .invalidSessionAction
    | some action =>
      if msg2.bNetworkName = node.networkName ∧ msg2.roleHint ≠ 1 then .error .roleHintMismatch
      else
        match node.trustContext with
        | none => .error .trustContextNotConfigured
        | some ctx => .ok (action, ctx)

def clientFinish (store : PeerSessionStore) (conn : ClientConn) (srcPeerId : PeerId)
    (msg2 : NoiseMsg2) (remoteStatic : List UInt8) (msg3Sent : Bool) (nowMs : UInt64) :
    Except HandshakeError NoiseHandshakeResult × PeerSessionStore :=
  match clientCheckMsg2 node conn srcPeerId msg2 with
  | .error e => (.error e, store)
  | .ok (action, _) =>
    if !msg3Sent then (.error .notSent, store)
    else
      match clientVerifyCert H node msg2 with
      | .error e => (.error e, store)
      | .ok verifiedMemberCert =>
        match clientAuthLevel node conn msg2 remoteStatic verifiedMemberCert with
        | .error e => (.error e, store)
        | .ok level =>
          let key : SessionKey := ⟨node.networkName, srcPeerId⟩
          match store.applyInitiatorAction key node.myPeerId action msg2.bSessionGeneration
            (msg2.rootKey32.bind toKey32) msg2.initialEpoch node.encryptionAlgorithm
            msg2.serverEncryptionAlgorithm (toKey32 remoteStatic) nowMs with
          | (.error e, store) => (.error (.session e), store)
          | (.ok session, store) =>
            let session := session.bindStaticIdentities node.localStaticPubkey.toList remoteStatic
            (.ok
              { peerId := srcPeerId
                session := session
                remoteStaticPubkey := remoteStatic
                secureAuthLevel := level
                peerIdentityType := classifyRemoteIdentity node msg2.bNetworkName level
                  (msg2.roleHint = 1) true
                remoteNetworkName := msg2.bNetworkName
                memberCert := verifiedMemberCert
                remoteEncryptAlgo := msg2.serverEncryptionAlgorithm }, store.insert key session)

/-! ### The handshake without secure mode -/

def HANDSHAKE_NONCE_LEN : Nat := 16

def verifyHandshakeSignature (req : HandshakeRequest) (cert : MemberCert) :
    Except HandshakeError Unit :=
  if req.applicantNonce.length ≠ HANDSHAKE_NONCE_LEN then .error .invalidApplicantNonce
  else if req.applicantSignature.length ≠ 64 then .error .invalidApplicantSignature
  else if H.verify cert.details.devicePk (H.encodeHandshakeSignaturePayload req)
      req.applicantSignature then .ok ()
  else .error .invalidApplicantSignature

/-- Decode the certificate, check the signature, and refuse a nonce this connection has seen.  The
pool is not asked. -/
def decodeAndVerifyPlainHandshake (seen : List (List UInt8)) (req : HandshakeRequest) :
    Except HandshakeError HandshakeRequest × List (List UInt8) :=
  match H.certFromCbor req.memberCertCbor with
  | none => (.error .invalidMemberCertCbor, seen)
  | some cert =>
    match verifyHandshakeSignature H req cert with
    | .error e => (.error e, seen)
    | .ok () =>
      if req.applicantNonce ∈ seen then (.error .replayedApplicantNonce, seen)
      else (.ok req, req.applicantNonce :: seen)

def decodeHandshakePacket (req : HandshakeRequest) : Except HandshakeError HandshakeRequest :=
  if req.applicantNonce.length ≠ HANDSHAKE_NONCE_LEN then .error .invalidApplicantNonce
  else if req.applicantSignature.length ≠ 64 then .error .invalidApplicantSignature
  else if req.memberCertCbor.isEmpty then .error .missingMemberCertCbor
  else .ok req

/-! ### What the handshakes can do -/

section Cases

variable {H node}

variable {bytes remoteStatic : List UInt8} {cert : MemberCert} {msg3 : NoiseMsg3}
  {store : PeerSessionStore} {srcPeerId : PeerId} {pending : ServerPending} {msg2 : NoiseMsg2}
  {r : NoiseHandshakeResult}

theorem toList_of_toKey32 {key : Key32} (h : toKey32 bytes = some key) : key.toList = bytes := by
  unfold toKey32 at h
  split_ifs at h
  cases h
  simp [Vector.toList]

theorem toKey32_eq_none : toKey32 bytes = none ↔ bytes.length ≠ 32 := by
  unfold toKey32
  split_ifs with h <;> simp [h]

theorem toKey32_isSome (h : bytes.length = 32) : ∃ key, toKey32 bytes = some key := by
  cases hkey : toKey32 bytes with
  | none => exact absurd h (toKey32_eq_none.1 hkey)
  | some key => exact ⟨key, rfl⟩

theorem verifyCertCbor_ok (h : verifyCertCbor H node bytes = .ok cert) :
    ∃ pool, H.certFromCbor bytes = some cert ∧ node.trustPool = some pool ∧
      pool.verifyMemberCert H cert node.now = .ok cert := by
  unfold verifyCertCbor at h
  cases hdec : H.certFromCbor bytes with
  | none => simp [hdec] at h
  | some decoded =>
    cases hpool : node.trustPool with
    | none => simp [hdec, hpool] at h
    | some pool =>
      cases hver : pool.verifyMemberCert H decoded node.now with
      | error e => simp [hdec, hpool, hver] at h
      | ok cert' =>
        simp only [hdec, hpool, hver, Except.ok.injEq] at h
        have hsame := (TrustDomainPool.verifyMemberCert_eq_ok_iff.1 hver).1
        subst h hsame
        exact ⟨pool, rfl, rfl, hver⟩

theorem serverVerifyCert_ok {ctx : TrustDomainContext}
    (h : serverVerifyCert H node ctx msg3 = .ok cert) :
    verifyCertCbor H node msg3.memberCertCbor = .ok cert := by
  unfold serverVerifyCert at h
  split at h
  · cases h
  · split at h
    · cases h
    · exact h

theorem verifyRemoteAuth_some (cert : MemberCert) (remotePubkey : List UInt8)
    (pinnedPubkey : Option (List UInt8)) (remoteNetworkName : String) :
    verifyRemoteAuth node (some cert) remotePubkey pinnedPubkey remoteNetworkName =
      .ok .trustDomainVerified := rfl

def EchoOk (msg1 : NoiseMsg1) (bConnId : ConnId) (msg3 : NoiseMsg3) : Prop :=
  msg3.aConnIdEcho = msg1.aConnId ∧ msg3.bConnIdEcho = some bConnId

instance (msg1 : NoiseMsg1) (bConnId : ConnId) (msg3 : NoiseMsg3) :
    Decidable (EchoOk msg1 bConnId msg3) := inferInstanceAs (Decidable (_ ∧ _))

theorem serverRespond_ok {handshakeRecved : String → Except HandshakeError PeerId}
    {msg1 : NoiseMsg1} {newRootKey : Key32} {bConnId : ConnId} {nowMs : UInt64}
    (h : (serverRespond H node store handshakeRecved srcPeerId msg1 newRootKey bConnId nowMs).1 =
      .ok (pending, msg2)) :
    node.trustContext = some pending.trustContext ∧ pending.msg1 = msg1 ∧
      pending.bConnId = bConnId ∧ msg2.bConnId = some bConnId := by
  unfold serverRespond at h
  split at h
  · cases h
  · simp only at h
    split at h
    · cases h
    · split at h
      · cases h
      next ctx hctx =>
        cases h
        exact ⟨hctx, rfl, rfl, rfl⟩

/-- Everything the responder can do with msg3: refuse it before anything is written, or write the
static keys into the session and then accept or refuse the certificate. -/
theorem serverFinish_cases (store : PeerSessionStore) (pending : ServerPending) (msg3 : NoiseMsg3)
    (remoteStatic : List UInt8) :
    let out := serverFinish H node store pending msg3 remoteStatic
    let bind (s : PeerSession) := s.bindStaticIdentities node.localStaticPubkey.toList remoteStatic
    (∃ e, ¬ EchoOk pending.msg1 pending.bConnId msg3 ∧ out = (.error e, store)) ∨
    (∃ e, EchoOk pending.msg1 pending.bConnId msg3 ∧
      pending.session.checkOrSetPeerStaticPubkey (toKey32 remoteStatic) = .error e ∧
      out = (.error (.session e), store)) ∨ ∃ s, EchoOk pending.msg1 pending.bConnId msg3 ∧
      pending.session.checkOrSetPeerStaticPubkey (toKey32 remoteStatic) = .ok s ∧
      ((∃ e, serverVerifyCert H node pending.trustContext msg3 = .error e ∧
          out = (.error e, store.insert pending.key (bind s))) ∨
        ∃ cert level, serverVerifyCert H node pending.trustContext msg3 = .ok cert ∧
          out = (.ok (serverResult node pending (bind s) remoteStatic cert level),
            store.insert pending.key (bind s))) := by
  by_cases ha : msg3.aConnIdEcho = pending.msg1.aConnId
  swap
  · exact .inl ⟨.msg3AConnIdMismatch, fun h => ha h.1, by simp [serverFinish, ha]⟩
  by_cases hb : msg3.bConnIdEcho = some pending.bConnId
  swap
  · exact .inl ⟨.msg3BConnIdMismatch, fun h => hb h.2, by simp [serverFinish, ha, hb]⟩
  refine .inr ?_
  cases hs : pending.session.checkOrSetPeerStaticPubkey (toKey32 remoteStatic) with
  | error e => exact .inl ⟨e, ⟨ha, hb⟩, rfl, by simp [serverFinish, ha, hb, hs]⟩
  | ok s =>
    refine .inr ⟨s, ⟨ha, hb⟩, rfl, ?_⟩
    cases hc : serverVerifyCert H node pending.trustContext msg3 with
    | error e => exact .inl ⟨e, rfl, by simp [serverFinish, ha, hb, hs, hc]⟩
    | ok cert =>
      refine .inr ⟨cert, if pending.roleHint = 1 then .trustDomainVerified else
        .encryptedUnauthenticated, rfl, ?_⟩
      by_cases hr : pending.roleHint = 1
      · simp [serverFinish, ha, hb, hs, hc, hr, verifyRemoteAuth_some, Except.map]
      · simp [serverFinish, ha, hb, hs, hc, hr, Except.map]

theorem serverFinish_ok (h : (serverFinish H node store pending msg3 remoteStatic).1 = .ok r) :
    ∃ cert, r.memberCert = some cert ∧
      serverVerifyCert H node pending.trustContext msg3 = .ok cert := by
  rcases serverFinish_cases (H := H) store pending msg3 remoteStatic with
    ⟨e, -, hout⟩ | ⟨e, -, -, hout⟩ | ⟨s, -, -, ⟨e, -, hout⟩ | ⟨cert, level, hc, hout⟩⟩
  all_goals
    rw [hout] at h
    cases h
  exact ⟨cert, rfl, hc⟩

theorem serverFinish_accepts (hecho : EchoOk pending.msg1 pending.bConnId msg3)
    (hnone : pending.session.peerStaticPubkey = none)
    (hcert : serverVerifyCert H node pending.trustContext msg3 = .ok cert)
    (store : PeerSessionStore) (remoteStatic : List UInt8) :
    ∃ r, (serverFinish H node store pending msg3 remoteStatic).1 = .ok r ∧
      r.memberCert = some cert := by
  obtain ⟨s, hs⟩ := PeerSession.checkOrSetPeerStaticPubkey_of_none hnone (toKey32 remoteStatic)
  rcases serverFinish_cases (H := H) store pending msg3 remoteStatic with
    ⟨e, hne, -⟩ | ⟨e, -, he, -⟩ | ⟨_, -, -, ⟨e, he, -⟩ | ⟨cert', level, hc, hout⟩⟩
  · exact absurd hecho hne
  · rw [hs] at he
    cases he
  · rw [hcert] at he
    cases he
  · rw [hcert, Except.ok.injEq] at hc
    exact ⟨_, by rw [hout], by rw [hc]; rfl⟩

theorem doNoiseHandshakeAsServer_ok {inputs : ServerInputs}
    (h : (doNoiseHandshakeAsServer H node store inputs).result = .ok r) :
    ∃ cert bytes, r.memberCert = some cert ∧ verifyCertCbor H node bytes = .ok cert := by
  unfold doNoiseHandshakeAsServer at h
  split at h
  · cases h
  · split at h
    · cases h
    · unfold serverAwaitMsg3 at h
      split_ifs at h
      split at h
      · cases h
      · split at h
        · cases h
        next hout =>
          cases h
          obtain ⟨cert, hcert, hc⟩ := serverFinish_ok (congrArg Prod.fst hout)
          exact ⟨cert, _, hcert, serverVerifyCert_ok hc⟩

theorem clientFinish_ok {conn : ClientConn} {msg3Sent : Bool} {nowMs : UInt64}
    (h : (clientFinish H node store conn srcPeerId msg2 remoteStatic msg3Sent nowMs).1 = .ok r) :
    ∃ action ctx, clientCheckMsg2 node conn srcPeerId msg2 = .ok (action, ctx) ∧
      clientVerifyCert H node msg2 = .ok r.memberCert ∧ r.peerId = srcPeerId ∧
      r.remoteNetworkName = msg2.bNetworkName ∧ r.remoteStaticPubkey = remoteStatic := by
  unfold clientFinish at h
  cases hcheck : clientCheckMsg2 node conn srcPeerId msg2 with
  | error e => simp [hcheck] at h
  | ok out =>
    obtain ⟨action, ctx⟩ := out
    refine ⟨action, ctx, rfl, ?_⟩
    simp only [hcheck] at h
    cases hsent : msg3Sent with
    | false => simp [hsent] at h
    | true =>
      simp only [hsent, if_not_true] at h
      split at h
      · cases h
      · split at h
        · cases h
        · split at h
          · cases h
          · cases h
            exact ⟨by assumption, rfl, rfl, rfl⟩

theorem clientCheckMsg2_ok {conn : ClientConn} {action : PeerSessionAction}
    {ctx : TrustDomainContext} (h : clientCheckMsg2 node conn srcPeerId msg2 = .ok (action, ctx)) :
    node.trustContext = some ctx ∧ (msg2.bNetworkName = node.networkName → msg2.roleHint = 1) := by
  unfold clientCheckMsg2 at h
  cases hact : msg2.action with
  | none =>
    rw [hact] at h
    split_ifs at h
  | some action' =>
    cases hctx : node.trustContext with
    | none =>
      rw [hact, hctx] at h
      split_ifs at h
    | some ctx' =>
      rw [hact, hctx] at h
      split_ifs at h with _ _ hrole
      cases h
      exact ⟨rfl, fun hname => by_contra fun hne => hrole ⟨hname, hne⟩⟩

theorem clientVerifyCert_ok {cert : Option MemberCert}
    (h : clientVerifyCert H node msg2 = .ok cert) :
    (msg2.roleHint = 1 ∧ ∃ c, cert = some c ∧ verifyCertCbor H node msg2.memberCertCbor = .ok c) ∨
      (msg2.roleHint ≠ 1 ∧ cert = none) := by
  unfold clientVerifyCert at h
  split_ifs at h with hrole
  · cases hv : verifyCertCbor H node msg2.memberCertCbor with
    | error e =>
      rw [hv] at h
      cases h
    | ok c =>
      rw [hv] at h
      cases h
      exact .inl ⟨hrole, c, rfl, rfl⟩
  · cases h
    exact .inr ⟨hrole, rfl⟩

end Cases

/-- Primitives to run the handshakes on: those of the trust domain, with certificates that can be
read back. -/
def sampleHandshakeSuite : HandshakeSuite where
  toTrustSuite :=
    { sampleSuite with
      certFromCbor := fun bytes =>
        match bytes with
        | 1 :: pk => (toKey32 pk).map sampleCert
        -- a certificate without the signature of the root
        | 2 :: pk => (toKey32 pk).map fun pk => { sampleCert pk with signature := [] }
        | _ => none }
  proofFromCbor _ := none
  encodeHandshakeSignaturePayload req := req.applicantNonce

def sampleHandshakeNode : HandshakeNode where
  myPeerId := 3
  networkName := "office"
  trustContext := some sampleContext
  trustPool := some (samplePool [1])
  encryptionAlgorithm := "aes-gcm"
  localStaticPubkey := all32 4
  isPubkeyTrusted _ _ := false
  now := 5

def openConn (aConnId : ConnId) : ClientConn where
  peerIdHint := none
  pinnedRemotePubkey := none
  myEncryptAlgo := "aes-gcm"
  aConnId := aConnId

end PactMesh
