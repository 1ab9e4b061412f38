import PactMesh.Session.SecureDatagram

/-!
# The session store

A node keeps one `PeerSession` for each network and peer.  The responder of a handshake calls
`upsertResponderSession`, which finds or creates the session and decides what to tell the initiator
(`PeerSessionAction`), and the initiator carries that out with `applyInitiatorAction`.  An object
that has left the store is invalid or unused, so it never encrypts again.
-/

namespace PactMesh

abbrev PeerId := UInt32

inductive PeerSessionAction
  | join
  | sync
  | create
deriving DecidableEq

structure SessionKey where
  networkName : String
  peerId : PeerId
deriving DecidableEq

structure PeerSession where
  peerId : PeerId
  /-- the peer's Noise static key, once it is known -/
  peerStaticPubkey : Option Key32
  datagram : SecureDatagramSession
  invalidated : Bool

inductive SessionError
  /-- "encrypt algorithm not same" -/
  | encryptAlgorithmNotSame
  /-- "peer static pubkey mismatch" -/
  | peerStaticPubkeyMismatch
  /-- "no local session for JOIN" -/
  | noLocalSessionForJoin
  /-- "JOIN generation mismatch" -/
  | joinGenerationMismatch
  /-- "missing root_key" -/
  | missingRootKey
deriving DecidableEq

namespace PeerSession

def new (networkName : String) (localPeerId peerId : PeerId) (rootKey : Key32)
    (sessionGeneration initialEpoch : UInt32) (sendCipherAlgorithm recvCipherAlgorithm : String)
    (peerStaticPubkey : Option Key32) (nowMs : UInt64) : PeerSession where
  peerId := peerId
  peerStaticPubkey := peerStaticPubkey
  datagram := .newWithKdfContext rootKey sessionGeneration initialEpoch sendCipherAlgorithm
    recvCipherAlgorithm (some (.new networkName localPeerId peerId)) nowMs
  invalidated := false

variable (C : CryptoSuite) (s : PeerSession)

def isValid : Bool := !s.invalidated && s.datagram.isValid

def checkOrSetPeerStaticPubkey (peerStaticPubkey : Option Key32) :
    Except SessionError PeerSession :=
  match peerStaticPubkey with
  | none => .ok s
  | some key =>
    match s.peerStaticPubkey with
    | some existing => if existing = key then .ok s else .error .peerStaticPubkeyMismatch
    | none => .ok { s with peerStaticPubkey := some key }

/-- The two checks every handshake makes on a session it finds: `check_encrypt_algo_same`, then
`check_or_set_peer_static_pubkey`. -/
def checkHandshake (sendAlgorithm recvAlgorithm : String) (peerStaticPubkey : Option Key32) :
    Except SessionError PeerSession :=
  if s.datagram.checkEncryptAlgoSame sendAlgorithm recvAlgorithm then
    s.checkOrSetPeerStaticPubkey peerStaticPubkey
  else .error .encryptAlgorithmNotSame

def bindStaticIdentities (localStaticPubkey remoteStaticPubkey : List UInt8) : PeerSession :=
  { s with datagram := s.datagram.setIdentityBinding localStaticPubkey remoteStaticPubkey }

def syncRootKey (rootKey : Key32) (sessionGeneration initialEpoch : UInt32)
    (preserveRxGrace : Bool) (nowMs : UInt64) : PeerSession :=
  { s with
    datagram := s.datagram.syncRootKey rootKey sessionGeneration initialEpoch preserveRxGrace nowMs }

def dirForSender (senderPeerId receiverPeerId : PeerId) : SecureDatagramDirection :=
  if senderPeerId < receiverPeerId then .aToB else .bToA

def encryptPayload (senderPeerId receiverPeerId : PeerId) (pkt : Packet) (nowMs : UInt64) :
    Except DatagramError Packet × PeerSession :=
  if !s.isValid then (.error .sessionInvalidated, s)
  else
    let out := s.datagram.encryptPayload C (dirForSender senderPeerId receiverPeerId) pkt nowMs
    (out.1, { s with datagram := out.2 })

def decryptPayload (senderPeerId receiverPeerId : PeerId) (pkt : Packet) (nowMs : UInt64) :
    Except DatagramError Packet × PeerSession :=
  if !s.isValid then (.error .sessionInvalidated, s)
  else
    let out := s.datagram.decryptPayload C (dirForSender senderPeerId receiverPeerId) pkt nowMs
    (out.1, { s with datagram := out.2 })

variable {s}

variable {key : Option Key32} {s' : PeerSession}

theorem checkOrSetPeerStaticPubkey_ok (h : s.checkOrSetPeerStaticPubkey key = .ok s') :
    s' = { s with peerStaticPubkey := s'.peerStaticPubkey } := by
  unfold checkOrSetPeerStaticPubkey at h
  split at h
  · cases h
    rfl
  · split at h
    · split_ifs at h
      cases h
      rfl
    · cases h
      rfl

theorem checkOrSetPeerStaticPubkey_of_none (h : s.peerStaticPubkey = none) (key : Option Key32) :
    ∃ s', s.checkOrSetPeerStaticPubkey key = .ok s' := by
  cases key with
  | none => exact ⟨s, rfl⟩
  | some key => exact ⟨{ s with peerStaticPubkey := some key }, by
      simp [checkOrSetPeerStaticPubkey, h]⟩

theorem checkHandshake_ok {sendAlg recvAlg : String}
    (h : s.checkHandshake sendAlg recvAlg key = .ok s') :
    s' = { s with peerStaticPubkey := s'.peerStaticPubkey } := by
  unfold checkHandshake at h
  split_ifs at h
  exact checkOrSetPeerStaticPubkey_ok h

theorem checkHandshake_datagram {sendAlg recvAlg : String}
    (h : s.checkHandshake sendAlg recvAlg key = .ok s') : s'.datagram = s.datagram := by
  rw [checkHandshake_ok h]

theorem checkHandshake_none (s : PeerSession) (sendAlg recvAlg : String) :
    s.checkHandshake sendAlg recvAlg none =
      if s.datagram.checkEncryptAlgoSame sendAlg recvAlg then .ok s
      else .error .encryptAlgorithmNotSame := rfl

theorem checkHandshake_new (networkName : String) (localPeerId peerId : PeerId) (rootKey : Key32)
    (gen epoch : UInt32) (sendAlg recvAlg : String) (static : Option Key32) (nowMs : UInt64) :
    (new networkName localPeerId peerId rootKey gen epoch sendAlg recvAlg static
      nowMs).checkHandshake sendAlg recvAlg static =
      .ok (new networkName localPeerId peerId rootKey gen epoch sendAlg recvAlg static nowMs) := by
  have halgo : (new networkName localPeerId peerId rootKey gen epoch sendAlg recvAlg static
      nowMs).datagram.checkEncryptAlgoSame sendAlg recvAlg = true := by
    simp [new, SecureDatagramSession.checkEncryptAlgoSame, SecureDatagramSession.newWithKdfContext]
  rw [checkHandshake, if_pos halgo]
  cases static with
  | none => rfl
  | some key => simp [checkOrSetPeerStaticPubkey, new]

end PeerSession

open PeerSession

abbrev PeerSessionStore := SessionKey → Option PeerSession

structure UpsertResponderSessionReturn where
  session : PeerSession
  action : PeerSessionAction
  sessionGeneration : UInt32
  rootKey : Option Key32
  initialEpoch : UInt32

namespace PeerSessionStore

variable (store : PeerSessionStore)

def empty : PeerSessionStore := fun _ => none

def insert (key : SessionKey) (session : PeerSession) : PeerSessionStore :=
  Function.update store key (some session)

def remove (key : SessionKey) : PeerSessionStore := Function.update store key none

def get (key : SessionKey) : Option PeerSession × PeerSessionStore :=
  match store key with
  | none => (none, store)
  | some session => if session.isValid then (some session, store) else (none, store.remove key)

def invalidateForPeer (peerId : PeerId) : PeerSessionStore := fun key =>
  if key.peerId = peerId then none else store key

def valid (key : SessionKey) : Option PeerSession := (store key).filter (·.isValid)

/-- Find or create the session for an incoming handshake; `newRootKey` is the root key drawn when
a session is created. -/
def upsertResponderSession (key : SessionKey) (localPeerId : PeerId)
    (aSessionGeneration : Option UInt32) (sendAlgorithm recvAlgorithm : String)
    (peerStaticPubkey : Option Key32) (newRootKey : Key32) (nowMs : UInt64) :
    Except SessionError UpsertResponderSessionReturn × PeerSessionStore :=
  match store.valid key with
  | none =>
    let session := new key.networkName localPeerId key.peerId newRootKey 1 0
      sendAlgorithm recvAlgorithm peerStaticPubkey nowMs
    (.ok ⟨session, .create, 1, some newRootKey, 0⟩, store.insert key session)
  | some session =>
    match session.checkHandshake sendAlgorithm recvAlgorithm peerStaticPubkey with
    | .error e => (.error e, store)
    | .ok session =>
      let localGen := session.datagram.sessionGeneration
      if aSessionGeneration = some localGen then
        (.ok ⟨session, .join, localGen, none, 0⟩, store.insert key session)
      else
        (.ok ⟨session, .sync, localGen, some session.datagram.rootKey,
          session.datagram.nextSyncEpoch⟩, store.insert key session)

/-- `applyInitiatorAction` for `Join`: keep the session that is there. -/
def joinSession (key : SessionKey) (bSessionGeneration : UInt32)
    (sendAlgorithm recvAlgorithm : String) (peerStaticPubkey : Option Key32) :
    Except SessionError PeerSession × PeerSessionStore :=
  match store.get key with
  | (none, store) => (.error .noLocalSessionForJoin, store)
  | (some session, store) =>
    match session.checkHandshake sendAlgorithm recvAlgorithm peerStaticPubkey with
    | .error e => (.error e, store)
    | .ok session =>
      if session.datagram.sessionGeneration ≠ bSessionGeneration then
        (.error .joinGenerationMismatch, store.insert key session)
      else (.ok session, store.insert key session)

/-- `applyInitiatorAction` for `Sync` and `Create`: start over with the root key received, in the
session that is there or in a new one. -/
def startSession (key : SessionKey) (localPeerId : PeerId) (rootKey : Key32)
    (bSessionGeneration initialEpoch : UInt32) (preserveRxGrace : Bool)
    (sendAlgorithm recvAlgorithm : String) (peerStaticPubkey : Option Key32) (nowMs : UInt64) :
    Except SessionError PeerSession × PeerSessionStore :=
  let session := (store.valid key).getD
    (new key.networkName localPeerId key.peerId rootKey bSessionGeneration initialEpoch
      sendAlgorithm recvAlgorithm peerStaticPubkey nowMs)
  match session.checkHandshake sendAlgorithm recvAlgorithm peerStaticPubkey with
  | .error e => (.error e, store.insert key session)
  | .ok session =>
    let session := session.syncRootKey rootKey bSessionGeneration initialEpoch preserveRxGrace nowMs
    (.ok session, store.insert key session)

def applyInitiatorAction (key : SessionKey) (localPeerId : PeerId) (action : PeerSessionAction)
    (bSessionGeneration : UInt32) (rootKey32 : Option Key32) (initialEpoch : UInt32)
    (sendAlgorithm recvAlgorithm : String) (peerStaticPubkey : Option Key32) (nowMs : UInt64) :
    Except SessionError PeerSession × PeerSessionStore :=
  match action, rootKey32 with
  | .join, _ =>
    store.joinSession key bSessionGeneration sendAlgorithm recvAlgorithm peerStaticPubkey
  | _, none => (.error .missingRootKey, store)
  | action, some rootKey =>
    store.startSession key localPeerId rootKey bSessionGeneration initialEpoch
      (action == .sync) sendAlgorithm recvAlgorithm peerStaticPubkey nowMs

/-! ### What the store operations can do -/

@[simp] theorem insert_self (key : SessionKey) (session : PeerSession) :
    store.insert key session key = some session := Function.update_self ..

@[simp] theorem insert_of_ne {key key' : SessionKey} (h : key' ≠ key) (session : PeerSession) :
    store.insert key session key' = store key' := Function.update_of_ne h ..

theorem insert_eq_self {store : PeerSessionStore} {key : SessionKey} {session : PeerSession}
    (h : store key = some session) : store.insert key session = store := by
  rw [insert, ← h, Function.update_eq_self]

@[simp] theorem remove_self (key : SessionKey) : store.remove key key = none :=
  Function.update_self ..

variable {store} {key : SessionKey} {localPeerId : PeerId}

theorem valid_eq_some_iff {s : PeerSession} :
    store.valid key = some s ↔ store key = some s ∧ s.isValid = true := Option.filter_eq_some_iff

theorem get_cases (store : PeerSessionStore) (key : SessionKey) :
    (∃ s, store.valid key = some s ∧ store.get key = (some s, store)) ∨
    (store.get key).1 = none ∧ (store.get key).2 key = none := by
  unfold get
  cases h : store key with
  | none => exact .inr ⟨rfl, h⟩
  | some s =>
    by_cases hv : s.isValid = true
    · exact .inl ⟨s, valid_eq_some_iff.2 ⟨h, hv⟩, by simp [hv]⟩
    · exact .inr ⟨by simp [hv], by simp [hv]⟩

theorem get_fst (store : PeerSessionStore) (key : SessionKey) :
    (store.get key).1 = store.valid key := by
  unfold get valid
  cases store key with
  | none => rfl
  | some s => by_cases hv : s.isValid = true <;> simp [Option.filter, hv]

section Upsert

variable (store : PeerSessionStore) (key : SessionKey) (localPeerId : PeerId)
  (aGen : Option UInt32) (sendAlg recvAlg : String) (static : Option Key32) (newRootKey : Key32)
  (nowMs : UInt64)

/-- `upsertResponderSession` creates a session where there is no valid one, fails without an effect,
or answers the valid session with `join` or `sync`. -/
theorem upsertResponderSession_cases :
    let new := new key.networkName localPeerId key.peerId newRootKey 1 0 sendAlg recvAlg
      static nowMs
    let out := store.upsertResponderSession key localPeerId aGen sendAlg recvAlg static newRootKey
      nowMs
    (store.valid key = none ∧
      out = (.ok ⟨new, .create, 1, some newRootKey, 0⟩, store.insert key new)) ∨
    (∃ session e, store.valid key = some session ∧
      session.checkHandshake sendAlg recvAlg static = .error e ∧ out = (.error e, store)) ∨
    ∃ session session', store.valid key = some session ∧
      session.checkHandshake sendAlg recvAlg static = .ok session' ∧
      ((aGen = some session'.datagram.sessionGeneration ∧
          out = (.ok ⟨session', .join, session'.datagram.sessionGeneration, none, 0⟩,
            store.insert key session')) ∨ (aGen ≠ some session'.datagram.sessionGeneration ∧
          out = (.ok ⟨session', .sync, session'.datagram.sessionGeneration,
            some session'.datagram.rootKey, session'.datagram.nextSyncEpoch⟩,
            store.insert key session'))) := by
  simp only [upsertResponderSession]
  cases store.valid key with
  | none => exact .inl ⟨rfl, rfl⟩
  | some session =>
    refine .inr ?_
    cases hst : session.checkHandshake sendAlg recvAlg static with
    | error e => exact .inl ⟨session, e, rfl, hst, by simp [hst]⟩
    | ok session' =>
      refine .inr ⟨session, session', rfl, hst, ?_⟩
      by_cases hg : aGen = some session'.datagram.sessionGeneration
      · exact .inl ⟨hg, by simp [hst, hg]⟩
      · exact .inr ⟨hg, by simp [hst, hg]⟩

theorem upsertResponderSession_isSome :
    ((store.upsertResponderSession key localPeerId aGen sendAlg recvAlg static newRootKey
      nowMs).2 key).isSome = true := by
  obtain ⟨-, hout⟩ | ⟨s, e, hs, -, hout⟩ | ⟨s, s', -, -, ⟨-, hout⟩ | ⟨-, hout⟩⟩ :=
    store.upsertResponderSession_cases key localPeerId aGen sendAlg recvAlg static newRootKey nowMs
  · simp [hout]
  · simp [hout, (valid_eq_some_iff.1 hs).1]
  · simp [hout]
  · simp [hout]

end Upsert

/-- What a step on the store leaves under its key without restarting a session: nothing, or the
session that was there up to its static key. -/
def Kept (store store' : PeerSessionStore) (key : SessionKey) : Prop :=
  store' key = none ∨ ∃ s p, store key = some s ∧ store' key = some { s with peerStaticPubkey := p }

theorem Kept.refl (store : PeerSessionStore) (key : SessionKey) : Kept store store key := by
  cases h : store key with
  | none => exact .inl h
  | some s => exact .inr ⟨s, s.peerStaticPubkey, h, h⟩

def Restarted (s : PeerSession) (rootKey : Key32) (gen epoch : UInt32) : Prop :=
  s.datagram.rootKey = rootKey ∧ s.datagram.sessionGeneration = gen ∧
    s.datagram.sendEpoch = epoch ∧ s.datagram.sendSeq = fun _ => 0

section Initiator

variable (store : PeerSessionStore) (key : SessionKey) (localPeerId : PeerId) (bGen : UInt32)
  (initialEpoch : UInt32) (sendAlg recvAlg : String) (static : Option Key32) (nowMs : UInt64)

theorem joinSession_spec :
    let out := store.joinSession key bGen sendAlg recvAlg static
    Kept store out.2 key ∧ ∀ s, out.1 = .ok s → out.2 key = some s := by
  unfold joinSession
  obtain ⟨s, hs, hget⟩ | ⟨hnone, hdrop⟩ := store.get_cases key
  · rw [hget]
    simp only
    cases hst : s.checkHandshake sendAlg recvAlg static with
    | error e => exact ⟨.refl store key, nofun⟩
    | ok s' =>
      refine ⟨.inr ⟨s, s'.peerStaticPubkey, (valid_eq_some_iff.1 hs).1, ?_⟩, ?_⟩
      · rw [← checkHandshake_ok hst]
        by_cases hg : s'.datagram.sessionGeneration = bGen <;> simp [hg]
      · by_cases hg : s'.datagram.sessionGeneration = bGen <;> simp [hg]
  · rw [← Prod.mk.eta (p := store.get key), hnone]
    exact ⟨.inl hdrop, nofun⟩

theorem startSession_spec (rootKey : Key32) (preserve : Bool) :
    let out := store.startSession key localPeerId rootKey bGen initialEpoch preserve sendAlg recvAlg
      static nowMs
    (Kept store out.2 key ∨ ∃ s', out.2 key = some s' ∧ Restarted s' rootKey bGen initialEpoch) ∧
      ∀ s, out.1 = .ok s → out.2 key = some s := by
  simp only [startSession]
  generalize hsess : (store.valid key).getD _ = session
  split
  · refine ⟨?_, nofun⟩
    cases hv : store.valid key with
    | some s =>
      rw [hv, Option.getD_some] at hsess
      subst hsess
      exact .inl (.inr ⟨s, s.peerStaticPubkey, (valid_eq_some_iff.1 hv).1, insert_self ..⟩)
    | none =>
      rw [hv, Option.getD_none] at hsess
      subst hsess
      exact .inr ⟨_, insert_self .., rfl, rfl, rfl, rfl⟩
  · refine ⟨.inr ⟨_, insert_self .., rfl, rfl, rfl, rfl⟩, ?_⟩
    rintro _ ⟨⟩
    exact insert_self ..

/-- What `applyInitiatorAction` leaves under its key: what was there, up to the static key, or a
session restarted with the root key, generation and epoch it was given.  A session that it returns is
the one it leaves. -/
theorem applyInitiatorAction_spec (action : PeerSessionAction) (rootKey32 : Option Key32) :
    let out := store.applyInitiatorAction key localPeerId action bGen rootKey32 initialEpoch sendAlg
      recvAlg static nowMs
    (Kept store out.2 key ∨ action ≠ .join ∧ ∃ rootKey s', rootKey32 = some rootKey ∧
      out.2 key = some s' ∧ Restarted s' rootKey bGen initialEpoch) ∧
      ∀ s, out.1 = .ok s → out.2 key = some s := by
  cases action with
  | join =>
    obtain ⟨hkept, hok⟩ := joinSession_spec store key bGen sendAlg recvAlg static
    exact ⟨.inl hkept, hok⟩
  | sync | create =>
    cases rootKey32 with
    | none => exact ⟨.inl (.refl store key), nofun⟩
    | some rootKey =>
      obtain ⟨h, hok⟩ := startSession_spec store key localPeerId bGen initialEpoch sendAlg recvAlg
        static nowMs rootKey _
      exact ⟨h.imp_right fun ⟨s', hs', hr⟩ => ⟨nofun, rootKey, s', rfl, hs', hr⟩, hok⟩

variable {store key}

theorem applyInitiatorAction_create (hvalid : store.valid key = none) (rootKey : Key32) :
    ∃ s, (store.applyInitiatorAction key localPeerId .create bGen (some rootKey) initialEpoch
      sendAlg recvAlg static nowMs).1 = .ok s := by
  simp only [applyInitiatorAction, startSession, hvalid, Option.getD_none, checkHandshake_new]
  exact ⟨_, rfl⟩

end Initiator

end PeerSessionStore

end PactMesh
