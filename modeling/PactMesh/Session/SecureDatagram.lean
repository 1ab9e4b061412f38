import PactMesh.Peers.Encrypt
import PactMesh.Session.ReplayState
import Mathlib.Data.Vector.Basic

/-!
# Secure datagram sessions

The keyed state two peers share for their datagrams.  A datagram travels with the nonce
`epoch ‖ seq`; the traffic key of an epoch and direction is derived from the session's root key and
generation.  The sender counts `seq` up and moves to the next epoch after a number of packets or
some time; the receiver keeps the windows of `ReplayState`.  `syncRootKey` installs a root key,
generation and start epoch handed over by the other side.
-/

namespace PactMesh

open Endian

abbrev Key32 := Vector UInt8 32

/-- The same byte 32 times. -/
def key32 (b : UInt8) : Key32 := Vector.replicate 32 b

structure SecureDatagramKdfContext where
  networkName : String
  lowPeerId : UInt32
  highPeerId : UInt32
deriving DecidableEq

namespace SecureDatagramKdfContext

def new (networkName : String) (localPeerId remotePeerId : UInt32) : SecureDatagramKdfContext where
  networkName := networkName
  lowPeerId := min localPeerId remotePeerId
  highPeerId := max localPeerId remotePeerId

theorem new_comm (networkName : String) (a b : UInt32) :
    new networkName a b = new networkName b a := by
  have hmin : min a b = min b a := by
    change (if a ≤ b then a else b) = if b ≤ a then b else a
    grind
  have hmax : max a b = max b a := by
    change (if a ≤ b then b else a) = if b ≤ a then a else b
    grind
  rw [new, new, hmin, hmax]

def hmacInput (ctx : SecureDatagramKdfContext) : List UInt8 :=
  beBytes 4 (ctx.networkName.utf8ByteSize % 2 ^ 32) ++ ctx.networkName.toUTF8.data.toList ++
    beBytes 4 ctx.lowPeerId.toNat ++ beBytes 4 ctx.highPeerId.toNat

end SecureDatagramKdfContext

structure EpochKeySlot where
  epoch : UInt32
  generation : UInt32
  sendCipher : Encryptor
  recvCipher : Encryptor
deriving DecidableEq

/-- The two cached keys of a direction; `none` stands for an invalid slot. -/
structure KeySlots where
  fst : Option EpochKeySlot
  snd : Option EpochKeySlot
deriving DecidableEq

structure SecureDatagramSession where
  rootKey : Key32
  sessionGeneration : UInt32
  kdfContext : Option SecureDatagramKdfContext
  /-- both Noise static keys, smaller first, once they are known -/
  identityBinding : Option (List UInt8)
  sendEpoch : UInt32
  sendSeq : SecureDatagramDirection → UInt64
  sendEpochStartedMs : UInt64
  sendPacketsSinceEpoch : UInt64
  replay : ReplayState
  keyCache : SecureDatagramDirection → KeySlots
  sendCipherAlgorithm : String
  recvCipherAlgorithm : String
  invalidated : Bool
  decryptFailCount : UInt32

structure DatagramId where
  rootKey : Key32
  generation : UInt32
  dir : SecureDatagramDirection
  epoch : UInt32
  seq : UInt64
deriving DecidableEq

inductive DatagramError
  /-- "session invalidated" -/
  | sessionInvalidated
  /-- "no tail" -/
  | noTail
  /-- "replay rejected" -/
  | replayRejected
  | cipher (e : EncryptError)
deriving DecidableEq

namespace SecureDatagramSession

def rotateAfterPackets : UInt64 := 1000000

def rotateAfterMs : UInt64 := 10 * 60 * 1000

def decryptFailThreshold : UInt32 := 10

def newWithKdfContext (rootKey : Key32) (sessionGeneration initialEpoch : UInt32)
    (sendCipherAlgorithm recvCipherAlgorithm : String)
    (kdfContext : Option SecureDatagramKdfContext) (nowMs : UInt64) : SecureDatagramSession where
  rootKey := rootKey
  sessionGeneration := sessionGeneration
  kdfContext := kdfContext
  identityBinding := none
  sendEpoch := initialEpoch
  sendSeq := fun _ => 0
  sendEpochStartedMs := nowMs
  sendPacketsSinceEpoch := 0
  replay := .empty
  keyCache := fun _ => ⟨none, none⟩
  sendCipherAlgorithm := sendCipherAlgorithm
  recvCipherAlgorithm := recvCipherAlgorithm
  invalidated := false
  decryptFailCount := 0

variable (C : CryptoSuite) (s : SecureDatagramSession)

def invalidate : SecureDatagramSession := { s with invalidated := true }

def isValid : Bool := !s.invalidated

def setIdentityBinding (localStaticPubkey remoteStaticPubkey : List UInt8) :
    SecureDatagramSession :=
  if localStaticPubkey.length ≠ 32 ∨ remoteStaticPubkey.length ≠ 32 then s
  else
    let buf := if localStaticPubkey ≤ remoteStaticPubkey then
        localStaticPubkey ++ remoteStaticPubkey
      else remoteStaticPubkey ++ localStaticPubkey
    match s.identityBinding with
    | none => { s with identityBinding := some buf }
    | some _ => s

def nextSyncEpoch : UInt32 :=
  let step (maxEpoch : UInt32) (slot : Option EpochRxSlot) : UInt32 :=
    match slot with
    | some slot => max maxEpoch slot.epoch
    | none => maxEpoch
  let ab := s.replay.rxSlots .aToB
  let ba := s.replay.rxSlots .bToA
  step (step (step (step s.sendEpoch ab.cur) ab.prev) ba.cur) ba.prev + 1

def checkEncryptAlgoSame (sendAlgorithm recvAlgorithm : String) : Bool :=
  s.sendCipherAlgorithm == sendAlgorithm && s.recvCipherAlgorithm == recvAlgorithm

def syncRootKey (rootKey : Key32) (sessionGeneration initialEpoch : UInt32)
    (preserveRxGrace : Bool) (nowMs : UInt64) : SecureDatagramSession :=
  { s with
    rootKey := rootKey
    sessionGeneration := sessionGeneration
    sendEpoch := initialEpoch
    sendSeq := fun _ => 0
    sendEpochStartedMs := nowMs
    sendPacketsSinceEpoch := 0
    -- the old windows outlive the restart only under the same root key
    replay := s.replay.sync (preserveRxGrace && s.rootKey == rootKey) nowMs
    keyCache := fun _ => ⟨none, none⟩ }

def dirByte : SecureDatagramDirection → UInt8
  | .aToB => 0
  | .bToA => 1

/-- The bytes that `hkdf_traffic_key` expands. -/
def expandInput (epoch : UInt32) (dir : SecureDatagramDirection) : List UInt8 :=
  let ctx := match s.kdfContext with
    | some ctx => ctx.hmacInput
    | none => []
  let binding := match s.identityBinding with
    | some binding => "id".toUTF8.data.toList ++ binding
    | none => []
  "pactmesh secure datagram traffic v2".toUTF8.data.toList ++
    beBytes 4 s.sessionGeneration.toNat ++ beBytes 4 epoch.toNat ++ [dirByte dir] ++
    ctx ++ binding ++ [1]

def hkdfTrafficKey (epoch : UInt32) (dir : SecureDatagramDirection) : List UInt8 :=
  let prk := C.hmacSha256 (List.replicate 32 0) s.rootKey.toList
  let okm := C.hmacSha256 prk (s.expandInput epoch dir)
  okm.take 32

def cachedSlot (slots : KeySlots) (epoch generation : UInt32) : Option EpochKeySlot :=
  match slots.fst.filter fun slot => slot.epoch == epoch && slot.generation == generation with
  | some slot => some slot
  | none => slots.snd.filter fun slot => slot.epoch == epoch && slot.generation == generation

def getOrCreateEncryptor (epoch : UInt32) (dir : SecureDatagramDirection) (generation : UInt32)
    (isSend : Bool) : Encryptor × SecureDatagramSession :=
  match cachedSlot (s.keyCache dir) epoch generation with
  | some slot => (if isSend then slot.sendCipher else slot.recvCipher, s)
  | none =>
    let key := s.hkdfTrafficKey C epoch dir
    let slot : EpochKeySlot :=
      { epoch := epoch
        generation := generation
        sendCipher := createEncryptor s.sendCipherAlgorithm (key.take 16) key
        recvCipher := createEncryptor s.recvCipherAlgorithm (key.take 16) key }
    let slots := s.keyCache dir
    let slots := match slots.fst with
      | none => { slots with fst := some slot }
      | some first =>
        if first.epoch = epoch then { slots with fst := some slot }
        else { slots with snd := some slot }
    (if isSend then slot.sendCipher else slot.recvCipher,
      { s with keyCache := Function.update s.keyCache dir slots })

def pruneKeyCache : SecureDatagramSession :=
  let allowed (dir : SecureDatagramDirection) (slot : EpochKeySlot) : Bool :=
    slot.epoch == s.sendEpoch || (s.replay.rxSlots dir).epochInSlots slot.epoch ||
      (s.replay.graceSlots dir).epochInSlots slot.epoch
  { s with
    keyCache := fun dir =>
      ⟨(s.keyCache dir).fst.filter (allowed dir), (s.keyCache dir).snd.filter (allowed dir)⟩ }

def maybeRotateEpoch (nowMs : UInt64) : SecureDatagramSession :=
  let packets := s.sendPacketsSinceEpoch + 1
  if packets < rotateAfterPackets ∧ satSub nowMs s.sendEpochStartedMs < rotateAfterMs then
    { s with sendPacketsSinceEpoch := packets }
  else
    { s with
      sendEpoch := s.sendEpoch + 1
      sendEpochStartedMs := nowMs
      sendPacketsSinceEpoch := 0 }

def nextNonce (dir : SecureDatagramDirection) (nowMs : UInt64) :
    UInt32 × UInt64 × SecureDatagramSession :=
  let s := s.maybeRotateEpoch nowMs
  (s.sendEpoch, s.sendSeq dir,
    { s with sendSeq := Function.update s.sendSeq dir (s.sendSeq dir + 1) })

/-- The datagram that the next `encryptPayload` call in a direction makes. -/
def txId (dir : SecureDatagramDirection) (nowMs : UInt64) : DatagramId :=
  ⟨s.rootKey, s.sessionGeneration, dir, (s.nextNonce dir nowMs).1, (s.nextNonce dir nowMs).2.1⟩

def nonceBytes (epoch : UInt32) (seq : UInt64) : List UInt8 :=
  beBytes 4 epoch.toNat ++ beBytes 8 seq.toNat

def encryptPayload (dir : SecureDatagramDirection) (pkt : Packet) (nowMs : UInt64) :
    Except DatagramError Packet × SecureDatagramSession :=
  if !s.isValid then (.error .sessionInvalidated, s)
  else
    -- the number is used up even if the encryption fails
    let (epoch, seq, s) := s.nextNonce dir nowMs
    let (encryptor, s) := s.getOrCreateEncryptor C epoch dir s.sessionGeneration true
    match encryptor.encryptWithNonce C pkt (nonceBytes epoch seq) with
    | .error e => (.error (.cipher e), s.invalidate)
    | .ok pkt => (.ok pkt, s)

def parseTail (payload : List UInt8) : Option (UInt32 × UInt64) :=
  (StandardAeadTail.refFromSuffix payload).map fun tail =>
    (UInt32.ofNat (beNat (tail.nonce.take 4)), UInt64.ofNat (beNat (tail.nonce.drop 4)))

def decryptPayload (dir : SecureDatagramDirection) (pkt : Packet) (nowMs : UInt64) :
    Except DatagramError Packet × SecureDatagramSession :=
  if !s.isValid then (.error .sessionInvalidated, s)
  else
    match parseTail pkt.payload with
    | none => (.error .noTail, s)
    | some (epoch, seq) =>
      let (ok, replay) := s.replay.precheckReplay s.sendEpoch epoch seq dir nowMs
      let s := { s with replay := replay }
      if !ok then (.error .replayRejected, s)
      else
        let (encryptor, s) := s.getOrCreateEncryptor C epoch dir s.sessionGeneration false
        match encryptor.decrypt C pkt with
        | .error e =>
          let count := s.decryptFailCount + 1
          let s := { s with decryptFailCount := count }
          (.error (.cipher e), if decryptFailThreshold ≤ count then s.invalidate else s)
        | .ok pkt =>
          -- only now does the datagram count: a forged one leaves no mark in a window
          let s := { s with decryptFailCount := 0 }
          let (ok, replay) := s.replay.commitReplay s.sendEpoch epoch seq dir nowMs
          let s := { s with replay := replay }.pruneKeyCache
          if !ok then (.error .replayRejected, s) else (.ok pkt, s)

/-! ### What the operations can do -/

variable {C s}

theorem setIdentityBinding_eq (s : SecureDatagramSession) (l r : List UInt8) :
    ∃ binding, s.setIdentityBinding l r = { s with identityBinding := binding } := by
  by_cases hlen : l.length ≠ 32 ∨ r.length ≠ 32
  · exact ⟨s.identityBinding, by simp only [setIdentityBinding, hlen, if_true]⟩
  · simp only [setIdentityBinding, hlen, if_false]
    split
    · exact ⟨_, rfl⟩
    · exact ⟨s.identityBinding, rfl⟩

theorem getOrCreateEncryptor_snd (epoch : UInt32) (dir : SecureDatagramDirection)
    (generation : UInt32) (isSend : Bool) :
    ∃ cache, (s.getOrCreateEncryptor C epoch dir generation isSend).2 =
      { s with keyCache := cache } := by
  unfold getOrCreateEncryptor
  split
  · exact ⟨s.keyCache, rfl⟩
  · exact ⟨_, rfl⟩

theorem nextNonce_eq (s : SecureDatagramSession) (dir : SecureDatagramDirection) (nowMs : UInt64) :
    ∃ started packets epoch, (epoch = s.sendEpoch ∨ epoch = s.sendEpoch + 1) ∧
      s.nextNonce dir nowMs = (epoch, s.sendSeq dir, { s with
          sendEpoch := epoch
          sendSeq := Function.update s.sendSeq dir (s.sendSeq dir + 1)
          sendEpochStartedMs := started
          sendPacketsSinceEpoch := packets }) := by
  unfold nextNonce maybeRotateEpoch
  by_cases h : s.sendPacketsSinceEpoch + 1 < rotateAfterPackets ∧
      satSub nowMs s.sendEpochStartedMs < rotateAfterMs
  · simp only [h, and_self, if_true]
    exact ⟨_, _, _, .inl rfl, rfl⟩
  · simp only [h, if_false]
    exact ⟨_, _, _, .inr rfl, rfl⟩

/-- Everything `encryptPayload` can do: fail on an invalid session, or use up one nonce and either
return a packet or invalidate the session. -/
theorem encryptPayload_cases (C : CryptoSuite) (s : SecureDatagramSession)
    (dir : SecureDatagramDirection) (pkt : Packet) (nowMs : UInt64) :
    (s.isValid = false ∧ s.encryptPayload C dir pkt nowMs = (.error .sessionInvalidated, s)) ∨
    ∃ cache invalid started packets epoch, (epoch = s.sendEpoch ∨ epoch = s.sendEpoch + 1) ∧
      epoch = (s.nextNonce dir nowMs).1 ∧ s.isValid = true ∧ (s.encryptPayload C dir pkt nowMs).2 =
        { s with
          sendEpoch := epoch
          sendSeq := Function.update s.sendSeq dir (s.sendSeq dir + 1)
          sendEpochStartedMs := started
          sendPacketsSinceEpoch := packets
          keyCache := cache
          invalidated := invalid } := by
  by_cases hv : s.isValid = true
  · obtain ⟨started, packets, epoch, he, hn⟩ := s.nextNonce_eq dir nowMs
    refine .inr ?_
    unfold encryptPayload
    simp only [hv, if_not_true, hn]
    obtain ⟨cache, hc⟩ := getOrCreateEncryptor_snd (C := C) (s := { s with
      sendEpoch := epoch
      sendSeq := Function.update s.sendSeq dir (s.sendSeq dir + 1)
      sendEpochStartedMs := started
      sendPacketsSinceEpoch := packets }) epoch dir s.sessionGeneration true
    simp only [hc]
    split
    · exact ⟨cache, true, started, packets, epoch, he, rfl, trivial, rfl⟩
    · exact ⟨cache, s.invalidated, started, packets, epoch, he, rfl, trivial, rfl⟩
  · have hv : s.isValid = false := Bool.eq_false_iff.2 hv
    exact .inl ⟨hv, by simp [encryptPayload, hv]⟩

end SecureDatagramSession

end PactMesh
