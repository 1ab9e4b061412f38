import PactMesh.Lib.Insertion
import PactMesh.Session.ReplayLag
import PactMesh.Session.RoundTrip

/-!
# What gets past the cipher

A session hands a packet on, or records it, only after its cipher has opened it.  But a packet whose
`ENCRYPTED` flag is clear passes every cipher as it is, and the replay check drops expired slots
before the packet is opened.

Main result: `aead_gate`.
-/

namespace PactMesh

open Endian List Insertion StandardAeadTail

variable {C : CryptoSuite} {s s₁ s₂ : SecureDatagramSession} {dir : SecureDatagramDirection}
  {pkt : Packet} {nowMs : UInt64}

/-! ### Packets that were produced -/

open SecureDatagramSession

structure EncryptCall where
  session : SecureDatagramSession
  dir : SecureDatagramDirection
  pkt : Packet
  nowMs : UInt64

namespace EncryptCall

variable (C : CryptoSuite) (call : EncryptCall)

def nonce : UInt32 × UInt64 :=
  ((call.session.nextNonce call.dir call.nowMs).1, (call.session.nextNonce call.dir call.nowMs).2.1)

def cipher : Encryptor :=
  let s := (call.session.nextNonce call.dir call.nowMs).2.2
  (s.getOrCreateEncryptor C call.nonce.1 call.dir s.sessionGeneration true).1

def payload : Option (List UInt8) :=
  match (call.session.encryptPayload C call.dir call.pkt call.nowMs).1 with
  | .ok pkt => some pkt.payload
  | .error _ => none

end EncryptCall

/-- The ciphers cannot be forged, as far as the calls of `encrypt_payload` are concerned. -/
structure CryptoSuite.Unforgeable (C : CryptoSuite) (calls : List EncryptCall) : Prop where
  /-- what an AEAD cipher opens, a call returned under the same key and nonce -/
  opened : ∀ {alg key nonce text tag plain}, alg ≠ EncryptionAlgorithm.xor →
    C.aeadOpen alg key nonce text tag = some plain →
      ∃ call ∈ calls, call.cipher C = ⟨alg, key⟩ ∧ nonceBytes call.nonce.1 call.nonce.2 = nonce ∧
        call.payload C = some (text ++ tag ++ nonce)
  /-- the two directions never have the same key -/
  direction : ∀ call ∈ calls, ∀ (s : SecureDatagramSession) epoch dir,
    call.cipher C = s.derivedCipher C epoch dir false → call.dir = dir

namespace SecureDatagramSession

/-- The payload is what `encrypt_payload` returned under the key, direction and nonce with which
the session would open it. -/
def Produced (C : CryptoSuite) (calls : List EncryptCall) (s : SecureDatagramSession)
    (dir : SecureDatagramDirection) (pkt : Packet) : Prop :=
  ∃ call ∈ calls, call.dir = dir ∧ parseTail pkt.payload = some call.nonce ∧
    call.cipher C = s.derivedCipher C call.nonce.1 dir false ∧ call.payload C = some pkt.payload

instance (C : CryptoSuite) (calls : List EncryptCall) (s : SecureDatagramSession)
    (dir : SecureDatagramDirection) (pkt : Packet) : Decidable (Produced C calls s dir pkt) :=
  inferInstanceAs (Decidable (∃ call ∈ calls, _))

variable {calls : List EncryptCall} (hC : C.Unforgeable calls)
  (haead : EncryptionAlgorithm.ofName s.recvCipherAlgorithm ≠ some .xor)

theorem append_of_refFromSuffix {payload : List UInt8} {tail : StandardAeadTail}
    (h : refFromSuffix payload = some tail) :
    payload.take (payload.length - size) ++ tail.tag ++ tail.nonce = payload := by
  unfold refFromSuffix at h
  split_ifs at h
  cases h
  rw [append_assoc, take_append_drop, take_append_drop]

include hC haead in
theorem produced_of_decrypt {pkt' : Packet} {epoch : UInt32} {seq : UInt64}
    (htail : parseTail pkt.payload = some (epoch, seq)) (hflag : pkt.hdr.isEncrypted = true)
    (h : (s.derivedCipher C epoch dir false).decrypt C pkt = .ok pkt') :
    Produced C calls s dir pkt := by
  have halg := algorithm_derivedCipher_ne_xor (C := C) haead epoch dir
  unfold Encryptor.decrypt at h
  simp only [hflag, if_not_true, halg, if_false] at h
  cases hsuffix : refFromSuffix pkt.payload with
  | none => simp [hsuffix] at h
  | some tail =>
    simp only [hsuffix] at h
    split at h
    · cases h
    · next hopen =>
      obtain ⟨call, hcall, hcipher, hnonce, hpayload⟩ := hC.opened halg hopen
      have hnonce : refFromSuffix pkt.payload =
          some ⟨tail.tag, nonceBytes call.nonce.1 call.nonce.2⟩ := by rw [hsuffix, hnonce]
      have hparse : parseTail pkt.payload = some call.nonce := parseTail_of_refFromSuffix hnonce
      have hepoch : epoch = call.nonce.1 :=
        congrArg Prod.fst (Option.some.inj (htail.symm.trans hparse))
      refine ⟨call, hcall, hC.direction call hcall s epoch dir hcipher, hparse, ?_, ?_⟩
      · rw [hcipher, hepoch]
      · rw [hpayload, append_of_refFromSuffix hsuffix]

def Gate (C : CryptoSuite) (calls : List EncryptCall) (s : SecureDatagramSession)
    (dir : SecureDatagramDirection) (pkt : Packet) (nowMs : UInt64) : Prop :=
  ((∃ pkt', (s.decryptPayload C dir pkt nowMs).1 = .ok pkt') ∨
    (s.decryptPayload C dir pkt nowMs).2.replay ≠ s.replay) → Produced C calls s dir pkt

def PassesUnopened (s : SecureDatagramSession) (dir : SecureDatagramDirection) (pkt : Packet)
    (nowMs : UInt64) : Prop :=
  pkt.hdr.isEncrypted = false ∧ s.isValid = true ∧ ∃ nonce ∈ parseTail pkt.payload,
      (s.replay.precheckReplay s.sendEpoch nonce.1 nonce.2 dir nowMs).1 = true

def Expires (s : SecureDatagramSession) (pkt : Packet) (nowMs : UInt64) : Prop :=
  s.isValid = true ∧ (parseTail pkt.payload).isSome ∧ s.replay.refresh nowMs ≠ s.replay

include hC haead in
theorem verdict_ne_accepted (hforged : ¬ Produced C calls s dir pkt)
    (hflag : ¬ s.PassesUnopened dir pkt nowMs) (epoch : UInt32) (seq : UInt64) (pkt' : Packet) :
    s.verdict C dir pkt nowMs ≠ .accepted epoch seq pkt' := by
  intro h
  obtain ⟨hv, ht, hp, hdec⟩ := of_verdictWith_accepted h
  cases hf : pkt.hdr.isEncrypted with
  | true => exact hforged (produced_of_decrypt hC haead ht hf hdec)
  | false => exact hflag ⟨hf, hv, _, ht, hp⟩

theorem PassesUnopened.verdict (h : s.PassesUnopened dir pkt nowMs) :
    ∃ epoch seq, s.verdict C dir pkt nowMs = .accepted epoch seq pkt := by
  obtain ⟨hf, hv, ⟨epoch, seq⟩, ht, hp⟩ := h
  refine ⟨epoch, seq, ?_⟩
  simp only [SecureDatagramSession.verdict, verdictWith, hv, Option.mem_def.1 ht, hp, if_not_true,
    Encryptor.decrypt_of_clear hf]

theorem replay_settle {v : Verdict} (hv : s.verdict C dir pkt nowMs = v)
    (hno : ∀ epoch seq pkt', v ≠ .accepted epoch seq pkt')
    (cache : SecureDatagramDirection → KeySlots) :
    (s.settle dir nowMs cache v).2.replay = s.replay ↔ ¬ s.Expires pkt nowMs := by
  unfold SecureDatagramSession.verdict verdictWith at hv
  split at hv
  · next hinv =>
    subst hv
    exact iff_of_true rfl fun h => by simp [h.1] at hinv
  next hvalid =>
    have hvalid : s.isValid = true := by simpa using hvalid
    split at hv
    · next ht =>
      subst hv
      refine iff_of_true rfl fun h => ?_
      have hsome := h.2.1
      simp [ht] at hsome
    next ht =>
      have hrefresh : s.replay.refresh nowMs = s.replay ↔ ¬ s.Expires pkt nowMs := by
        simp [Expires, hvalid, ht]
      split at hv
      · subst hv
        exact hrefresh
      · split at hv
        · subst hv
          exact hrefresh
        · subst hv
          exact absurd rfl (hno _ _ _)

include hC haead in
/-- **Which packets the gate holds for.** -/
theorem gate_iff (hcache : s.CacheOk C) :
    Gate C calls s dir pkt nowMs ↔ (¬ Produced C calls s dir pkt →
      ¬ s.PassesUnopened dir pkt nowMs ∧ ¬ s.Expires pkt nowMs) := by
  obtain ⟨cache, -, heq⟩ := decryptPayload_eq hcache dir pkt nowMs
  rw [Gate, ← not_imp_not]
  refine imp_congr_right fun hforged => ?_
  rw [not_or, not_not, not_exists, heq]
  constructor
  · rintro ⟨hok, hreplay⟩
    have hno : ¬ s.PassesUnopened dir pkt nowMs := by
      intro hp
      obtain ⟨epoch, seq, hv⟩ := hp.verdict (C := C)
      exact hok pkt (by rw [hv]; rfl)
    exact ⟨hno, (replay_settle rfl (verdict_ne_accepted hC haead hforged hno) cache).1 hreplay⟩
  · rintro ⟨hno, hexp⟩
    have hv := verdict_ne_accepted hC haead hforged hno
    refine ⟨fun pkt' => ?_, (replay_settle rfl hv cache).2 hexp⟩
    cases hverdict : s.verdict C dir pkt nowMs with
    | accepted epoch seq pkt' => exact absurd hverdict (hv epoch seq pkt')
    | stopped e => exact nofun
    | rejected => exact nofun
    | refused e => exact nofun

/-! ### Inserted packets -/

structure Arrival where
  dir : SecureDatagramDirection
  pkt : Packet
  nowMs : UInt64

def receive (C : CryptoSuite) (s : SecureDatagramSession) (a : Arrival) :
    Except DatagramError Packet × SecureDatagramSession := s.decryptPayload C a.dir a.pkt a.nowMs

/-- The second session is the first one without some refused packets: it has the same keys and, once
what has expired is dropped, replay state, and it has counted fewer failures. -/
structure Lag (C : CryptoSuite) (t : UInt64) (s₁ s₂ : SecureDatagramSession) : Prop where
  keys : SameKeys s₁ s₂
  recvCipherAlgorithm : s₁.recvCipherAlgorithm = s₂.recvCipherAlgorithm
  aead : EncryptionAlgorithm.ofName s₁.recvCipherAlgorithm ≠ some .xor
  sendEpoch : s₁.sendEpoch = s₂.sendEpoch
  invalidated : s₁.invalidated = s₂.invalidated
  cache₁ : s₁.CacheOk C
  cache₂ : s₂.CacheOk C
  replay : ∀ t', t ≤ t' → (s₁.replay.refresh t').Same (s₂.replay.refresh t')
  decryptFailCount : s₂.decryptFailCount ≤ s₁.decryptFailCount

theorem Lag.mono {t t' : UInt64} (ht : t ≤ t') (h : Lag C t s₁ s₂) : Lag C t' s₁ s₂ :=
  { h with replay := fun t'' ht' => h.replay t'' (UInt64.le_trans ht ht') }

theorem Lag.verdict (h : Lag C nowMs s₁ s₂) (dir : SecureDatagramDirection) (pkt : Packet) :
    s₁.verdict C dir pkt nowMs = s₂.verdict C dir pkt nowMs := by
  have hvalid : s₁.isValid = s₂.isValid := congrArg not h.invalidated
  have hcipher : ∀ epoch,
      s₁.derivedCipher C epoch dir false = s₂.derivedCipher C epoch dir false := by
    intro epoch
    simp only [derivedCipher, h.keys.hkdfTrafficKey, h.recvCipherAlgorithm, Bool.false_eq_true,
      if_false]
  have hcheck : ∀ epoch seq, (s₁.replay.precheckReplay s₁.sendEpoch epoch seq dir nowMs).1 =
      (s₂.replay.precheckReplay s₂.sendEpoch epoch seq dir nowMs).1 := by
    intro epoch seq
    rw [h.sendEpoch]
    exact ReplayState.precheckReplay_fst_congr (h.replay nowMs (UInt64.le_refl _))
  simp only [SecureDatagramSession.verdict, verdictWith, hvalid, hcipher, hcheck]

theorem Lag.same_refresh (h : Lag C nowMs s₁ s₂) {t' : UInt64} (ht : nowMs ≤ t') :
    ((s₁.replay.refresh nowMs).refresh t').Same (s₂.replay.refresh t') :=
  (ReplayState.same_refresh_refresh ht).trans (h.replay t' ht)

theorem toNat_failed {c : UInt32} (h : c < 9) : (c + 1).toNat = c.toNat + 1 ∧ c.toNat < 9 := by
  have hlt : c.toNat < 9 := h
  exact ⟨(UInt32.toNat_add c 1).trans (Nat.mod_eq_of_lt (Nat.succ_lt_succ (hlt.trans (by decide)))),
    hlt⟩

theorem not_threshold_of_lt {c : UInt32} (h : c < 9) : ¬ decryptFailThreshold ≤ c + 1 := by
  obtain ⟨hsucc, hlt⟩ := toNat_failed h
  rw [UInt32.le_iff_toNat_le, hsucc]
  change ¬ 10 ≤ c.toNat + 1
  omega

theorem Lag.skip (h : Lag C nowMs s₁ s₂)
    (hno : ∀ epoch seq pkt', s₁.verdict C dir pkt nowMs ≠ .accepted epoch seq pkt')
    (hcount : ∀ e, s₁.verdict C dir pkt nowMs = .refused e → s₁.decryptFailCount < 9) :
    Lag C nowMs (s₁.decryptPayload C dir pkt nowMs).2 s₂ := by
  obtain ⟨cache, hcache, heq⟩ := decryptPayload_eq h.cache₁ dir pkt nowMs
  have hkeys := (sameKeys_settle s₁ dir nowMs cache (s₁.verdict C dir pkt nowMs)).symm.trans h.keys
  rw [heq]
  cases hv : s₁.verdict C dir pkt nowMs with
  | stopped e => exact h
  | rejected =>
    rw [hv] at hkeys
    exact { h with keys := hkeys, replay := fun t' ht => h.same_refresh ht }
  | refused e =>
    rw [hv] at hkeys
    have hlt := hcount e hv
    exact { h with
      keys := hkeys
      invalidated := by simp [settle, not_threshold_of_lt hlt, h.invalidated]
      cache₁ := hcache
      replay := fun t' ht => h.same_refresh ht
      decryptFailCount := UInt32.le_iff_toNat_le.2
        ((Nat.le_succ_of_le h.decryptFailCount).trans_eq (toNat_failed hlt).1.symm) }
  | accepted epoch seq pkt' => exact absurd hv (hno epoch seq pkt')

theorem Lag.both (h : Lag C nowMs s₁ s₂)
    (hcount : ∀ e, s₁.verdict C dir pkt nowMs = .refused e → s₁.decryptFailCount < 9) :
    (s₁.decryptPayload C dir pkt nowMs).1 = (s₂.decryptPayload C dir pkt nowMs).1 ∧
      Lag C nowMs (s₁.decryptPayload C dir pkt nowMs).2 (s₂.decryptPayload C dir pkt nowMs).2 := by
  obtain ⟨cache₁, hcache₁, heq₁⟩ := decryptPayload_eq h.cache₁ dir pkt nowMs
  obtain ⟨cache₂, hcache₂, heq₂⟩ := decryptPayload_eq h.cache₂ dir pkt nowMs
  have hsame : ∀ t', nowMs ≤ t' →
      ((s₁.replay.refresh nowMs).refresh t').Same ((s₂.replay.refresh nowMs).refresh t') :=
    fun t' _ => (h.replay nowMs (UInt64.le_refl _)).refresh t'
  have hkeys := ((sameKeys_settle s₁ dir nowMs cache₁ (s₁.verdict C dir pkt nowMs)).symm.trans
    h.keys).trans (sameKeys_settle s₂ dir nowMs cache₂ (s₁.verdict C dir pkt nowMs))
  rw [heq₁, heq₂, ← h.verdict dir pkt]
  cases hv : s₁.verdict C dir pkt nowMs with
  | stopped e => exact ⟨rfl, h⟩
  | rejected =>
    rw [hv] at hkeys
    exact ⟨rfl, { h with keys := hkeys, replay := hsame }⟩
  | refused e =>
    rw [hv] at hkeys
    have hlt := hcount e hv
    have hlt₂ := UInt32.lt_of_le_of_lt h.decryptFailCount hlt
    exact ⟨rfl, { h with
      keys := hkeys
      invalidated := by
        simp [settle, not_threshold_of_lt hlt, not_threshold_of_lt hlt₂, h.invalidated]
      cache₁ := hcache₁
      cache₂ := hcache₂
      replay := hsame
      decryptFailCount := UInt32.le_iff_toNat_le.2 (((toNat_failed hlt₂).1.trans_le
        (Nat.succ_le_succ h.decryptFailCount)).trans_eq (toNat_failed hlt).1.symm) }⟩
  | accepted epoch seq pkt' =>
    rw [hv] at hkeys
    have hcommit :
        ((s₁.replay.refresh nowMs).commitReplay s₁.sendEpoch epoch seq dir nowMs).2.Same
          ((s₂.replay.refresh nowMs).commitReplay s₂.sendEpoch epoch seq dir nowMs).2 := by
      rw [h.sendEpoch]
      exact ReplayState.same_commitReplay (hsame nowMs (UInt64.le_refl _))
    refine ⟨rfl, ?_⟩
    dsimp only [settle]
    exact { h with
      keys := hkeys
      cache₁ := hcache₁
      cache₂ := hcache₂
      replay := fun t' _ => hcommit.refresh t'
      decryptFailCount := UInt32.le_refl _ }

/-- An inserted packet is forged and does not pass unopened; and a packet that the cipher refuses,
inserted or not, is not the tenth since the last one that was accepted. -/
structure Harmless (C : CryptoSuite) (calls : List EncryptCall) (s : SecureDatagramSession)
    (a : Bool × Arrival) : Prop where
  /-- an inserted packet was not produced -/
  forged : a.1 = true → ¬ Produced C calls s a.2.dir a.2.pkt
  flagged : a.1 = true → ¬ s.PassesUnopened a.2.dir a.2.pkt a.2.nowMs
  count : ∀ e, s.verdict C a.2.dir a.2.pkt a.2.nowMs = .refused e → s.decryptFailCount < 9

include hC haead in
/-- **Forged packets do not change what happens to the others.** -/
theorem receive_unchanged (hcache : s.CacheOk C)
    {as : List (Bool × Arrival)} (hclock : as.Pairwise fun a b => a.2.nowMs ≤ b.2.nowMs)
    (h : (system (receive C)).Along (Harmless C calls) s as) :
    outputsOfOthers (receive C) s as = outputs (receive C) s (others as) := by
  have hstart : Lag C 0 s s :=
    { keys := ⟨rfl, rfl, rfl, rfl⟩
      recvCipherAlgorithm := rfl
      aead := haead
      sendEpoch := rfl
      invalidated := rfl
      cache₁ := hcache
      cache₂ := hcache
      replay := fun _ _ => .refl _
      decryptFailCount := UInt32.le_refl _ }
  exact outputsOfOthers_eq (f := receive C) (R := Lag C) (G := Harmless C calls)
    Arrival.nowMs Lag.mono
    (fun hlag hg => hlag.skip
      (verdict_ne_accepted hC hlag.aead (hg.forged rfl) (hg.flagged rfl)) hg.count)
    (fun hlag hg => hlag.both hg.count) hstart (fun _ _ => UInt64.zero_le) hclock h

/-! ### One genuine datagram -/

def lockedSuite : CryptoSuite where
  aeadSeal _ _ _ text := some (text, List.replicate 16 9)
  aeadOpen alg key nonce text tag :=
    if alg = .aesGcm ∧ key = [0] ∧ nonce = nonceBytes 1 0 ∧ text = [7] ∧ tag = List.replicate 16 9
    then some [7] else none
  hmacSha256 _ msg := [msg.getD 43 0]

def lockedSession : SecureDatagramSession :=
  .newWithKdfContext (key32 0) 1 1 "aes-gcm" "aes-gcm" none 0

def lockedCall : EncryptCall := ⟨lockedSession, .aToB, ⟨samplePacket.hdr, [7]⟩, 0⟩

def lockedDatagram (flag : Bool) (body : List UInt8) (seq : UInt64) (nowMs : UInt64) : Arrival :=
  ⟨.aToB, ⟨samplePacket.hdr.setEncrypted flag, body ++ nonceBytes 1 seq⟩, nowMs⟩

def genuineDatagram (nowMs : UInt64) : Arrival :=
  lockedDatagram true (7 :: List.replicate 16 9) 0 nowMs

def forgedDatagram (nowMs : UInt64) : Arrival := lockedDatagram true (List.replicate 16 0) 5 nowMs

def clearDatagram (nowMs : UInt64) : Arrival := lockedDatagram false (List.replicate 16 0) 0 nowMs

theorem lockedSuite_hkdfTrafficKey (s : SecureDatagramSession) (epoch : UInt32)
    (dir : SecureDatagramDirection) : s.hkdfTrafficKey lockedSuite epoch dir = [dirByte dir] := rfl

theorem lockedSuite_unforgeable : lockedSuite.Unforgeable [lockedCall] where
  opened := by
    intro alg key nonce text tag plain _ h
    simp only [lockedSuite] at h
    split_ifs at h with hc
    obtain ⟨rfl, rfl, rfl, rfl, rfl⟩ := hc
    exact ⟨lockedCall, mem_singleton_self _, by decide +kernel, by decide +kernel,
      by decide +kernel⟩
  direction := by
    intro call hcall s epoch dir h
    rw [mem_singleton] at hcall
    subst hcall
    have hkey : ∀ alg : String,
        (createEncryptor alg [dirByte dir] [dirByte dir]).key = [dirByte dir] := by
      intro alg
      unfold createEncryptor
      cases (EncryptionAlgorithm.ofName alg).getD default <;> rfl
    have hcall : (lockedCall.cipher lockedSuite).key = [0] := by decide +kernel
    have hdir := hkey s.recvCipherAlgorithm
    rw [h, derivedCipher, lockedSuite_hkdfTrafficKey] at hcall
    have hbyte : [dirByte dir] = [0] := hdir.symm.trans hcall
    cases dir with
    | aToB => rfl
    | bToA => exact absurd hbyte (by decide)

theorem lockedSession_cacheOk : lockedSession.CacheOk lockedSuite := nofun

/-- **A datagram whose flag is clear needs no key**: it is handed on and takes the place of a
genuine one. -/
theorem clear_datagram_marks_window :
    lockedSuite.Unforgeable [lockedCall] ∧ lockedSession.CacheOk lockedSuite ∧
      -- a clear datagram that nobody made is handed on
      ¬ Gate lockedSuite [lockedCall] lockedSession .aToB (clearDatagram 0).pkt 0 ∧
      -- and makes the genuine one, which would be handed on, a replay
      outputs (receive lockedSuite) lockedSession [genuineDatagram 1] = [.ok lockedCall.pkt] ∧
      outputsOfOthers (receive lockedSuite) lockedSession
        [(true, clearDatagram 0), (false, genuineDatagram 1)] = [.error .replayRejected] ∧
      -- ten forged datagrams that are not ten in a row invalidate the session
      outputs (receive lockedSuite) lockedSession
        [genuineDatagram 0, genuineDatagram 1, genuineDatagram 2] =
          [.ok lockedCall.pkt, .error .replayRejected, .error .replayRejected] ∧
      outputsOfOthers (receive lockedSuite) lockedSession
        ([(false, genuineDatagram 0)] ++ List.replicate 5 (true, forgedDatagram 1) ++
          [(false, genuineDatagram 1)] ++ List.replicate 5 (true, forgedDatagram 2) ++
          [(false, genuineDatagram 2)]) =
        [.ok lockedCall.pkt, .error .replayRejected, .error .sessionInvalidated] := by
  have hforged : ¬ Produced lockedSuite [lockedCall] lockedSession .aToB (clearDatagram 0).pkt := by
    decide +kernel
  refine ⟨lockedSuite_unforgeable, lockedSession_cacheOk, fun hgate => hforged (hgate (.inl ?_)),
    by decide +kernel, by decide +kernel, by decide +kernel, by decide +kernel⟩
  exact ⟨(clearDatagram 0).pkt, by decide +kernel⟩

/-- **Which packets get past the cipher.**  A packet that was not produced is neither handed on nor
changes the replay state if and only if the replay check refuses it or its flag is set, and nothing
has expired.  Forged packets of that kind change nothing for the others, as long as the clock does
not go back and no ten packets in a row are refused. -/
theorem aead_gate {C : CryptoSuite} {calls : List EncryptCall} (hC : C.Unforgeable calls)
    {s : SecureDatagramSession} (hcache : s.CacheOk C)
    (haead : EncryptionAlgorithm.ofName s.recvCipherAlgorithm ≠ some .xor) :
    (∀ dir pkt nowMs, Gate C calls s dir pkt nowMs ↔ (¬ Produced C calls s dir pkt →
      ¬ s.PassesUnopened dir pkt nowMs ∧ ¬ s.Expires pkt nowMs)) ∧
    ∀ as : List (Bool × Arrival), (as.Pairwise fun a b => a.2.nowMs ≤ b.2.nowMs) →
      (system (receive C)).Along (Harmless C calls) s as → outputsOfOthers (receive C) s as =
          outputs (receive C) s (others as) :=
  ⟨fun _ _ _ => gate_iff hC haead hcache,
    fun _ hclock h => receive_unchanged hC haead hcache hclock h⟩

def sampleArrivals : List (Bool × Arrival) :=
  [(true, forgedDatagram 0), (false, genuineDatagram 1), (true, forgedDatagram 2),
    (true, forgedDatagram 3), (false, genuineDatagram 4)]

def checkHarmless (s : SecureDatagramSession) (a : Bool × Arrival) : Bool :=
  decide (s.decryptFailCount < 9) &&
    (!a.1 || (!decide (Produced lockedSuite [lockedCall] s a.2.dir a.2.pkt) &&
      a.2.pkt.hdr.isEncrypted))

theorem harmless_of_check {a : Bool × Arrival}
    (h : checkHarmless s a = true) : Harmless lockedSuite [lockedCall] s a := by
  rw [checkHarmless, Bool.and_eq_true, decide_eq_true_eq] at h
  obtain ⟨hcount, h⟩ := h
  refine ⟨fun hins => ?_, fun hins hp => ?_, fun _ _ => hcount⟩
  · simp only [hins, Bool.not_true, Bool.false_or, Bool.and_eq_true, Bool.not_eq_true',
      decide_eq_false_iff_not] at h
    exact h.1
  · simp [hins, hp.1] at h

/-- Datagrams that nobody made, inserted around a genuine one. -/
theorem sample_arrivals_unchanged :
    lockedSuite.Unforgeable [lockedCall] ∧ lockedSession.CacheOk lockedSuite ∧
      ¬ Produced lockedSuite [lockedCall] lockedSession .aToB (forgedDatagram 0).pkt ∧
      Gate lockedSuite [lockedCall] lockedSession .aToB (genuineDatagram 0).pkt 0 ∧
      outputsOfOthers (receive lockedSuite) lockedSession sampleArrivals =
        [.ok lockedCall.pkt, .error .replayRejected] ∧ outputs (receive lockedSuite) lockedSession
        [genuineDatagram 1, genuineDatagram 4] = [.ok lockedCall.pkt, .error .replayRejected] := by
  have hproduced :
      Produced lockedSuite [lockedCall] lockedSession .aToB (genuineDatagram 0).pkt := by
    decide +kernel
  have halong : (system (receive lockedSuite)).Along
      (Harmless lockedSuite [lockedCall]) lockedSession sampleArrivals :=
    Trans.along_of_check (f := fun s a => some (receive lockedSuite s a.2).2) (g := checkHarmless)
      (fun _ _ _ h => congrArg some h.symm) (fun _ _ => harmless_of_check) (by decide +kernel)
  obtain ⟨hgate, hothers⟩ := aead_gate lockedSuite_unforgeable lockedSession_cacheOk
    (by decide +kernel)
  have hsame := hothers sampleArrivals (by decide) halong
  have hout : outputs (receive lockedSuite) lockedSession
      [genuineDatagram 1, genuineDatagram 4] = [.ok lockedCall.pkt, .error .replayRejected] := by
    decide +kernel
  exact ⟨lockedSuite_unforgeable, lockedSession_cacheOk, by decide +kernel,
    (hgate _ _ _).2 fun hno => absurd hproduced hno, hsame.trans hout, hout⟩

end SecureDatagramSession

end PactMesh
