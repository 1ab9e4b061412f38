import PactMesh.Session.PeerSession

/-!
# What one side encrypts, the other decrypts

Two sessions that agree on everything their traffic keys are derived from (`SameKeys`) derive the
same keys, so what one of them encrypts with an AEAD cipher is decrypted by the other, as long as the
replay check lets the nonce through.  While every cached cipher is the one that would be derived
(`CacheOk`), looking a cipher up is deriving it, and both operations can be described without caches.

Main result: `decryptPayload_of_encryptPayload`.
-/

namespace PactMesh

open Endian

def EpochKeySlot.IsFor (slot : EpochKeySlot) (epoch generation : UInt32) : Prop :=
  slot.epoch = epoch ∧ slot.generation = generation

namespace SecureDatagramSession

variable {C : CryptoSuite} {s r : SecureDatagramSession} {dir : SecureDatagramDirection}

def derivedCipher (C : CryptoSuite) (s : SecureDatagramSession) (epoch : UInt32)
    (dir : SecureDatagramDirection) (isSend : Bool) : Encryptor :=
  let key := s.hkdfTrafficKey C epoch dir
  createEncryptor (if isSend then s.sendCipherAlgorithm else s.recvCipherAlgorithm) (key.take 16) key

def CacheOk (C : CryptoSuite) (s : SecureDatagramSession) : Prop :=
  ∀ dir epoch slot, cachedSlot (s.keyCache dir) epoch s.sessionGeneration = some slot →
    slot.sendCipher = s.derivedCipher C epoch dir true ∧
      slot.recvCipher = s.derivedCipher C epoch dir false

structure SameKeys (s r : SecureDatagramSession) : Prop where
  rootKey : s.rootKey = r.rootKey
  sessionGeneration : s.sessionGeneration = r.sessionGeneration
  kdfContext : s.kdfContext = r.kdfContext
  identityBinding : s.identityBinding = r.identityBinding

theorem SameKeys.refl (s : SecureDatagramSession) : SameKeys s s := ⟨rfl, rfl, rfl, rfl⟩

theorem SameKeys.symm (h : SameKeys s r) : SameKeys r s := ⟨h.1.symm, h.2.symm, h.3.symm, h.4.symm⟩

theorem SameKeys.trans {t : SecureDatagramSession} (h : SameKeys s r) (h' : SameKeys r t) :
    SameKeys s t := ⟨h.1.trans h'.1, h.2.trans h'.2, h.3.trans h'.3, h.4.trans h'.4⟩

theorem SameKeys.expandInput (h : SameKeys s r) (epoch : UInt32) (dir : SecureDatagramDirection) :
    s.expandInput epoch dir = r.expandInput epoch dir := by
  simp only [SecureDatagramSession.expandInput, h.sessionGeneration, h.kdfContext,
    h.identityBinding]

theorem SameKeys.hkdfTrafficKey (h : SameKeys s r) (epoch : UInt32)
    (dir : SecureDatagramDirection) :
    s.hkdfTrafficKey C epoch dir = r.hkdfTrafficKey C epoch dir := by
  simp only [SecureDatagramSession.hkdfTrafficKey, h.rootKey, h.expandInput]

theorem SameKeys.derivedCipher (h : SameKeys s r)
    (halg : s.sendCipherAlgorithm = r.recvCipherAlgorithm) (epoch : UInt32) :
    s.derivedCipher C epoch dir true = r.derivedCipher C epoch dir false := by
  simp [SecureDatagramSession.derivedCipher, h.hkdfTrafficKey, halg]

theorem getOrCreateEncryptor_fst (h : s.CacheOk C) (epoch : UInt32) (isSend : Bool) :
    (s.getOrCreateEncryptor C epoch dir s.sessionGeneration isSend).1 =
      s.derivedCipher C epoch dir isSend := by
  unfold getOrCreateEncryptor
  cases hslot : cachedSlot (s.keyCache dir) epoch s.sessionGeneration with
  | some slot =>
    obtain ⟨hsend, hrecv⟩ := h dir epoch slot hslot
    cases isSend with
    | true => exact hsend
    | false => exact hrecv
  | none => cases isSend <;> rfl

theorem algorithm_derivedCipher_ne_xor
    (h : EncryptionAlgorithm.ofName s.recvCipherAlgorithm ≠ some .xor) (epoch : UInt32)
    (dir : SecureDatagramDirection) : (s.derivedCipher C epoch dir false).algorithm ≠ .xor :=
  createEncryptor_algorithm_ne_xor h _ _

/-! ### The key cache only saves work -/

variable {epoch : UInt32} {pkt pkt' : Packet} {nowMs seq : UInt64}

theorem cachedSlot_eq_some_iff {slots : KeySlots} {generation : UInt32} {slot : EpochKeySlot} :
    cachedSlot slots epoch generation = some slot ↔ slot.IsFor epoch generation ∧
      (slots.fst = some slot ∨ (∀ first, slots.fst = some first → ¬ first.IsFor epoch generation) ∧
          slots.snd = some slot) := by
  rw [RxSlots.found_iff slots.snd (fun b h => by rw [cachedSlot, h]) (fun h => by rw [cachedSlot, h])]
  simp only [Bool.and_eq_true, beq_iff_eq, EpochKeySlot.IsFor]

theorem cachedSlot_insert {slots : KeySlots} {generation : UInt32} {new slot : EpochKeySlot}
    (hgen : new.generation = generation) (h : cachedSlot (match slots.fst with
      | none => { slots with fst := some new }
      | some first => if first.epoch = new.epoch then { slots with fst := some new }
        else { slots with snd := some new }) epoch generation = some slot) :
    slot = new ∧ new.epoch = epoch ∨ cachedSlot slots epoch generation = some slot := by
  rw [cachedSlot_eq_some_iff] at h
  obtain ⟨his, h⟩ := h
  by_cases hnew : slot = new
  · exact .inl ⟨hnew, hnew ▸ his.1⟩
  have hne : some new ≠ some slot := fun h => hnew (Option.some.inj h).symm
  refine .inr (cachedSlot_eq_some_iff.2 ⟨his, ?_⟩)
  -- the slot is an old one: it was not in the place that the new slot took
  have hfst : ∀ snd, (some new = some slot ∨ (∀ first, some new = some first →
      ¬ first.IsFor epoch generation) ∧ snd = some slot) → new.epoch ≠ epoch ∧ snd = some slot := by
    rintro snd (h | ⟨h, hsnd⟩)
    · exact absurd h hne
    · exact ⟨fun he => h new rfl ⟨he, hgen⟩, hsnd⟩
  cases hold : slots.fst with
  | none =>
    simp only [hold] at h
    exact .inr ⟨nofun, (hfst _ h).2⟩
  | some first =>
    simp only [hold] at h
    split_ifs at h with hfirst
    · obtain ⟨he, hsnd⟩ := hfst _ h
      refine .inr ⟨?_, hsnd⟩
      rintro _ ⟨⟩ hfor
      exact he (hfirst.symm.trans hfor.1)
    · exact h.imp id fun h => absurd h.2 hne

theorem CacheOk.getOrCreateEncryptor (h : s.CacheOk C) (epoch : UInt32)
    (dir : SecureDatagramDirection) (isSend : Bool) :
    (s.getOrCreateEncryptor C epoch dir s.sessionGeneration isSend).2.CacheOk C := by
  unfold SecureDatagramSession.getOrCreateEncryptor
  cases cachedSlot (s.keyCache dir) epoch s.sessionGeneration with
  | some slot => exact h
  | none =>
    intro d e slot hs
    simp only [Function.update_apply] at hs
    split at hs
    · next hd =>
      subst hd
      obtain ⟨rfl, rfl⟩ | hold := cachedSlot_insert rfl hs
      · exact ⟨rfl, rfl⟩
      · exact h d e slot hold
    · exact h d e slot hs

theorem CacheOk.pruneKeyCache (h : s.CacheOk C) : s.pruneKeyCache.CacheOk C := by
  intro d e slot hs
  refine h d e slot ?_
  simp only [SecureDatagramSession.pruneKeyCache, cachedSlot_eq_some_iff,
    Option.filter_eq_some_iff] at hs ⊢
  obtain ⟨his, ⟨hfst, -⟩ | ⟨hno, hsnd, hallowed⟩⟩ := hs
  · exact ⟨his, .inl hfst⟩
  · refine ⟨his, .inr ⟨fun first hfst hfor => hno first ⟨hfst, ?_⟩ hfor, hsnd⟩⟩
    rwa [hfor.1, ← his.1]

/-! ### What becomes of a packet that is sent -/

/-- **A packet is encrypted with the cipher and nonce that come next**, whatever is cached. -/
theorem encryptPayload_eq (h : s.CacheOk C) (hvalid : s.isValid = true)
    (dir : SecureDatagramDirection) (pkt : Packet) (nowMs : UInt64) :
    ∃ cache, CacheOk C { s with keyCache := cache } ∧ s.encryptPayload C dir pkt nowMs =
        match (s.derivedCipher C (s.nextNonce dir nowMs).1 dir true).encryptWithNonce C pkt
          (nonceBytes (s.nextNonce dir nowMs).1 (s.nextNonce dir nowMs).2.1) with
        | .error e => (.error (.cipher e),
            { (s.nextNonce dir nowMs).2.2 with keyCache := cache }.invalidate)
        | .ok pkt => (.ok pkt, { (s.nextNonce dir nowMs).2.2 with keyCache := cache }) := by
  obtain ⟨started, packets, epoch, -, hn⟩ := s.nextNonce_eq dir nowMs
  obtain ⟨s', hs'⟩ : ∃ s', s' = (s.nextNonce dir nowMs).2.2 := ⟨_, rfl⟩
  have hsent : CacheOk C s' := by
    rw [hs', hn]
    exact h
  have hcache := hsent.getOrCreateEncryptor epoch dir true
  obtain ⟨cache, hc⟩ := getOrCreateEncryptor_snd (C := C) (s := s') epoch dir s'.sessionGeneration
    true
  rw [hc] at hcache
  refine ⟨cache, ?_, ?_⟩
  · rw [hs', hn] at hcache
    exact hcache
  · unfold encryptPayload
    have hfst : (s'.getOrCreateEncryptor C epoch dir s'.sessionGeneration true).1 = _ :=
      getOrCreateEncryptor_fst hsent epoch true
    rw [hs', hn] at hfst hc
    simp only [hvalid, if_not_true, hn, hfst, hc]
    rfl

theorem encryptPayload_ok (hcache : s.CacheOk C)
    (h : (s.encryptPayload C dir pkt nowMs).1 = .ok pkt') :
    (s.derivedCipher C (s.nextNonce dir nowMs).1 dir true).encryptWithNonce C pkt
      (nonceBytes (s.nextNonce dir nowMs).1 (s.nextNonce dir nowMs).2.1) = .ok pkt' := by
  have hvalid : s.isValid = true := by
    obtain ⟨-, herr⟩ | ⟨_, _, _, _, _, -, -, hvalid, -⟩ := encryptPayload_cases C s dir pkt nowMs
    · rw [herr] at h
      cases h
    · exact hvalid
  obtain ⟨cache, -, heq⟩ := encryptPayload_eq hcache hvalid dir pkt nowMs
  rw [heq] at h
  split at h
  · cases h
  · cases h
    assumption

/-! ### What becomes of a packet that arrives -/

inductive Verdict
  /-- the session is invalid or the packet has no tail; nothing is looked at -/
  | stopped (e : DatagramError)
  /-- the replay check refuses the nonce -/
  | rejected
  /-- the cipher refuses the packet -/
  | refused (e : EncryptError)
  /-- the packet is handed on and its nonce recorded -/
  | accepted (epoch : UInt32) (seq : UInt64) (pkt : Packet)

/-- The verdict when `cipher` gives the cipher of an epoch. -/
def verdictWith (C : CryptoSuite) (s : SecureDatagramSession) (cipher : UInt32 → Encryptor)
    (dir : SecureDatagramDirection) (pkt : Packet) (nowMs : UInt64) : Verdict :=
  if !s.isValid then .stopped .sessionInvalidated
  else
    match parseTail pkt.payload with
    | none => .stopped .noTail
    | some (epoch, seq) =>
      if !(s.replay.precheckReplay s.sendEpoch epoch seq dir nowMs).1 then .rejected
      else
        match (cipher epoch).decrypt C pkt with
        | .error e => .refused e
        | .ok pkt => .accepted epoch seq pkt

def verdict (C : CryptoSuite) (s : SecureDatagramSession) (dir : SecureDatagramDirection)
    (pkt : Packet) (nowMs : UInt64) : Verdict :=
  s.verdictWith C (fun epoch => s.derivedCipher C epoch dir false) dir pkt nowMs

def settle (s : SecureDatagramSession) (dir : SecureDatagramDirection) (nowMs : UInt64)
    (cache : SecureDatagramDirection → KeySlots) :
    Verdict → Except DatagramError Packet × SecureDatagramSession
  | .stopped e => (.error e, s)
  | .rejected => (.error .replayRejected, { s with replay := s.replay.refresh nowMs })
  | .refused e =>
    (.error (.cipher e), { s with
        replay := s.replay.refresh nowMs
        keyCache := cache
        decryptFailCount := s.decryptFailCount + 1
        invalidated := decide (decryptFailThreshold ≤ s.decryptFailCount + 1) || s.invalidated })
  | .accepted epoch seq pkt =>
    (.ok pkt, { s with
        replay := ((s.replay.refresh nowMs).commitReplay s.sendEpoch epoch seq dir nowMs).2
        keyCache := cache
        decryptFailCount := 0 })

/-- A packet is treated as the verdict with the cipher that is looked up says. -/
theorem decryptPayload_settle (C : CryptoSuite) (s : SecureDatagramSession)
    (dir : SecureDatagramDirection) (pkt : Packet) (nowMs : UInt64) :
    ∃ cipher cache, (s.CacheOk C → CacheOk C { s with keyCache := cache } ∧
        ∀ epoch, cipher epoch = s.derivedCipher C epoch dir false) ∧
      s.decryptPayload C dir pkt nowMs =
        s.settle dir nowMs cache (s.verdictWith C cipher dir pkt nowMs) := by
  obtain ⟨cipher, hlookup⟩ : ∃ cipher : UInt32 → Encryptor, ∀ epoch,
      ({ s with replay := s.replay.refresh nowMs }.getOrCreateEncryptor C epoch dir
        s.sessionGeneration false).1 = cipher epoch := ⟨_, fun _ => rfl⟩
  have hcipher : s.CacheOk C → ∀ epoch, cipher epoch = s.derivedCipher C epoch dir false :=
    fun h epoch => (hlookup epoch).symm.trans
      (getOrCreateEncryptor_fst (s := { s with replay := s.replay.refresh nowMs }) h epoch false)
  refine ⟨cipher, ?_⟩
  have hkeep : s.CacheOk C → CacheOk C { s with keyCache := s.keyCache } ∧ _ :=
    fun h => ⟨h, hcipher h⟩
  unfold decryptPayload verdictWith
  by_cases hv : s.isValid = true
  · simp only [hv, if_not_true]
    cases parseTail pkt.payload with
    | none => exact ⟨s.keyCache, hkeep, rfl⟩
    | some nonce =>
      obtain ⟨epoch, seq⟩ := nonce
      simp only [s.replay.precheckReplay_snd]
      cases hp : (s.replay.precheckReplay s.sendEpoch epoch seq dir nowMs).1 with
      | false => exact ⟨s.keyCache, hkeep, rfl⟩
      | true =>
        have hcache := fun h : CacheOk C { s with replay := s.replay.refresh nowMs } =>
          h.getOrCreateEncryptor epoch dir false
        obtain ⟨cache, hc⟩ := getOrCreateEncryptor_snd (C := C)
          (s := { s with replay := s.replay.refresh nowMs }) epoch dir s.sessionGeneration false
        rw [hc] at hcache
        simp only [if_not_true, hlookup, hc]
        cases (cipher epoch).decrypt C pkt with
        | error e =>
          refine ⟨cache, fun h => ⟨hcache h, hcipher h⟩, ?_⟩
          by_cases hth : decryptFailThreshold ≤ s.decryptFailCount + 1 <;>
            simp [settle, hth, invalidate]
        | ok pkt' =>
          have hfst := (s.replay.commitReplay_fst s.sendEpoch epoch seq dir nowMs).trans hp
          have hpruned := fun h => CacheOk.pruneKeyCache (s := { s with
            replay := ((s.replay.refresh nowMs).commitReplay s.sendEpoch epoch seq dir nowMs).2
            keyCache := cache
            decryptFailCount := 0 }) (hcache h)
          simp only [hfst, if_not_true]
          exact ⟨_, fun h => ⟨hpruned h, hcipher h⟩, rfl⟩
  · exact ⟨s.keyCache, hkeep, by simp [hv, settle]⟩

/-- **A packet is treated as its verdict says**, whatever is cached. -/
theorem decryptPayload_eq (h : s.CacheOk C) (dir : SecureDatagramDirection) (pkt : Packet)
    (nowMs : UInt64) : ∃ cache, CacheOk C { s with keyCache := cache } ∧
      s.decryptPayload C dir pkt nowMs = s.settle dir nowMs cache (s.verdict C dir pkt nowMs) := by
  obtain ⟨cipher, cache, hlookup, heq⟩ := s.decryptPayload_settle C dir pkt nowMs
  obtain ⟨hcache, hcipher⟩ := hlookup h
  obtain rfl := funext hcipher
  exact ⟨cache, hcache, heq⟩

theorem of_verdictWith_accepted {cipher : UInt32 → Encryptor}
    (h : s.verdictWith C cipher dir pkt nowMs = .accepted epoch seq pkt') :
    s.isValid = true ∧ parseTail pkt.payload = some (epoch, seq) ∧
      (s.replay.precheckReplay s.sendEpoch epoch seq dir nowMs).1 = true ∧
      (cipher epoch).decrypt C pkt = .ok pkt' := by
  unfold verdictWith at h
  split at h
  · cases h
  next hv =>
    split at h
    · cases h
    next ht =>
      split at h
      · cases h
      next hp =>
        split at h
        · cases h
        next hdec =>
          cases h
          rw [Bool.not_eq_true, Bool.not_eq_false'] at hv hp
          exact ⟨hv, ht, hp, hdec⟩

theorem decrypt_of_decryptPayload (h : (s.decryptPayload C dir pkt nowMs).1 = .ok pkt') :
    ∃ e : Encryptor, e.decrypt C pkt = .ok pkt' := by
  obtain ⟨cipher, cache, -, heq⟩ := s.decryptPayload_settle C dir pkt nowMs
  rw [heq] at h
  cases hv : s.verdictWith C cipher dir pkt nowMs with
  | accepted epoch seq q =>
    rw [hv] at h
    cases h
    exact ⟨_, (of_verdictWith_accepted hv).2.2.2⟩
  | _ =>
    rw [hv] at h
    cases h

theorem sameKeys_settle (s : SecureDatagramSession) (dir : SecureDatagramDirection)
    (nowMs : UInt64) (cache : SecureDatagramDirection → KeySlots) (v : Verdict) :
    SameKeys s (s.settle dir nowMs cache v).2 := by
  cases v <;> exact ⟨rfl, rfl, rfl, rfl⟩

theorem verdict_of_opened (hvalid : s.isValid = true)
    (htail : parseTail pkt.payload = some (epoch, seq))
    (hreplay : (s.replay.precheckReplay s.sendEpoch epoch seq dir nowMs).1 = true)
    (hdec : (s.derivedCipher C epoch dir false).decrypt C pkt = .ok pkt') :
    s.verdict C dir pkt nowMs = .accepted epoch seq pkt' := by
  simp only [verdict, verdictWith, hvalid, htail, hreplay, hdec, if_not_true]

theorem parseTail_of_refFromSuffix {payload tag : List UInt8}
    (h : StandardAeadTail.refFromSuffix payload = some ⟨tag, nonceBytes epoch seq⟩) :
    parseTail payload = some (epoch, seq) := by
  have hepoch : beNat ((nonceBytes epoch seq).take 4) = epoch.toNat := by
    rw [nonceBytes, List.take_left' (length_beBytes 4 _), beNat_beBytes epoch.toNat_lt]
  have hseq : beNat ((nonceBytes epoch seq).drop 4) = seq.toNat := by
    rw [nonceBytes, List.drop_left' (length_beBytes 4 _), beNat_beBytes seq.toNat_lt]
  simp only [parseTail, h, Option.map_some, hepoch, hseq, UInt32.ofNat_toNat, UInt64.ofNat_toNat]

/-- **What one session encrypts, a session with the same keys decrypts.** -/
theorem decryptPayload_of_encryptPayload (hC : C.Lawful) (hkeys : SameKeys s r)
    (halg : s.sendCipherAlgorithm = r.recvCipherAlgorithm)
    (haead : EncryptionAlgorithm.ofName s.sendCipherAlgorithm ≠ some .xor) (hscache : s.CacheOk C)
    (hrcache : r.CacheOk C) (hvalid : r.isValid = true) {sentMs : UInt64}
    (hclear : pkt.hdr.isEncrypted = false) (henc : (s.encryptPayload C dir pkt sentMs).1 = .ok pkt')
    (hreplay : (r.replay.precheckReplay r.sendEpoch (s.nextNonce dir sentMs).1
      (s.nextNonce dir sentMs).2.1 dir nowMs).1 = true) :
    (r.decryptPayload C dir pkt' nowMs).1 = .ok pkt := by
  have hxor : (s.derivedCipher C (s.nextNonce dir sentMs).1 dir true).algorithm ≠ .xor :=
    createEncryptor_algorithm_ne_xor haead _ _
  have hsent := encryptPayload_ok hscache henc
  obtain ⟨tag, htail⟩ := Encryptor.refFromSuffix_of_encryptWithNonce hxor hclear hsent
  have hopened := Encryptor.decrypt_of_encryptWithNonce hC hxor hclear hsent
  rw [hkeys.derivedCipher halg] at hopened
  obtain ⟨cache, -, heq⟩ := decryptPayload_eq hrcache dir pkt' nowMs
  rw [heq, verdict_of_opened hvalid (parseTail_of_refFromSuffix htail) hreplay hopened]
  rfl

end SecureDatagramSession

end PactMesh
