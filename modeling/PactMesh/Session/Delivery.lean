import PactMesh.Lib.Fifo
import PactMesh.Session.Agreement
import PactMesh.Session.InOrder
import Mathlib.Data.Set.Function

/-!
# Delivery between two sessions

Two sessions are created from one root key, generation, context and identity binding, and a link
that neither loses nor reorders packets joins them: each direction is a queue (`PairLink`).

Main result: `delivered_in_order_iff`.
-/

namespace PactMesh

open Endian Side List Function StandardAeadTail Encryptor

/-! ### What the libraries promise -/

structure CryptoSuite.Correct (C : CryptoSuite) : Prop extends C.Lawful where
  aeadSeal_eq : ∀ alg key nonce text, ∃ sealed tag,
    C.aeadSeal alg key nonce text = some (sealed, tag) ∧ tag.length = tagSize

structure CryptoSuite.HmacDistinct (C : CryptoSuite) (key : List UInt8)
    (msgs : Set (List UInt8)) : Prop where
  length_hmac : ∀ msg ∈ msgs, (C.hmacSha256 key msg).length = 32
  injOn : Set.InjOn (C.hmacSha256 key) msgs

theorem Encryptor.exists_encryptWithNonce {C : CryptoSuite} (hC : C.Correct) (e : Encryptor)
    {p : Packet} {nonce : List UInt8} (hclear : p.hdr.isEncrypted = false)
    (hnonce : nonce.length = nonceSize) : ∃ q, e.encryptWithNonce C p nonce = .ok q := by
  obtain ⟨sealed, tag, hseal, htag⟩ := hC.aeadSeal_eq e.algorithm e.key nonce p.payload
  unfold encryptWithNonce
  by_cases halg : e.algorithm = .xor
  · simp [hclear, halg]
  · simp [hclear, halg, hnonce, hseal, htag]

namespace SecureDatagramSession

variable {C : CryptoSuite} {s r : SecureDatagramSession} {dir : SecureDatagramDirection}

theorem length_nonceBytes (epoch : UInt32) (seq : UInt64) :
    (nonceBytes epoch seq).length = nonceSize := by
  simp [nonceBytes, nonceSize]

/-- The epoch and the direction stand behind a front of fixed length. -/
theorem expandInput_eq (s : SecureDatagramSession) : ∃ front rest, front.length = 39 ∧
    ∀ epoch dir, s.expandInput epoch dir =
      front ++ (beBytes 4 epoch.toNat ++ [dirByte dir] ++ rest) := by
  refine ⟨"pactmesh secure datagram traffic v2".toUTF8.data.toList ++
    beBytes 4 s.sessionGeneration.toNat, ?rest, ?length, fun epoch dir => ?eq⟩
  case eq => simp only [expandInput, append_assoc]; rfl
  case length =>
    rw [length_append, length_beBytes]
    decide +kernel

theorem epochDir_inj {e e' : UInt32} {d d' : SecureDatagramDirection}
    (h : beBytes 4 e.toNat ++ [dirByte d] = beBytes 4 e'.toNat ++ [dirByte d']) :
    e = e' ∧ d = d' := by
  obtain ⟨hepoch, hdir⟩ := append_inj h (by simp only [length_beBytes])
  refine ⟨?_, ?_⟩
  · rw [← UInt32.toNat_inj, ← beNat_beBytes (k := 4) e.toNat_lt, hepoch, beNat_beBytes e'.toNat_lt]
  · revert hdir
    cases d <;> cases d' <;> simp [dirByte]

theorem expandInput_inj {e e' : UInt32} {d d' : SecureDatagramDirection}
    (h : s.expandInput e d = s.expandInput e' d') : e = e' ∧ d = d' := by
  obtain ⟨front, rest, -, heq⟩ := s.expandInput_eq
  rw [heq, heq] at h
  exact epochDir_inj (append_cancel_right (append_cancel_left h))

theorem identityBinding_setIdentityBinding_comm (hs : s.identityBinding = none)
    (hr : r.identityBinding = none) (a b : List UInt8) :
    (s.setIdentityBinding a b).identityBinding = (r.setIdentityBinding b a).identityBinding := by
  unfold setIdentityBinding
  by_cases hlen : a.length ≠ 32 ∨ b.length ≠ 32
  · rw [if_pos hlen, if_pos hlen.symm, hs, hr]
  · have hlen' : ¬ (b.length ≠ 32 ∨ a.length ≠ 32) := fun h => hlen h.symm
    simp only [if_neg hlen, if_neg hlen', hs, hr, PeerPair.append_sorted_comm a b]

/-! ### One direction -/

structure InFlight where
  plain : Packet
  wire : Packet

structure Carries (C : CryptoSuite) (cipher : UInt32 → Encryptor) (item : InFlight)
    (n : UInt32 × UInt64) : Prop where
  tail : parseTail item.wire.payload = some n
  opens : (cipher n.1).decrypt C item.wire = .ok item.plain

structure Linked (C : CryptoSuite) (dir : SecureDatagramDirection) (s r : SecureDatagramSession)
    (queue : List InFlight) : Prop where
  keys : SameKeys s r
  algorithm : s.sendCipherAlgorithm = r.recvCipherAlgorithm
  aead : EncryptionAlgorithm.ofName r.recvCipherAlgorithm ≠ some .xor
  spans : ∃ p, r.replay.Awaits dir p ∧
    Fifo.Spans nonceCounter (Carries C fun epoch => r.derivedCipher C epoch dir false) p queue
      (s.sendEpoch, s.sendSeq dir)

structure Sent (C : CryptoSuite) (s s' : SecureDatagramSession) : Prop where
  valid : s'.isValid = true
  cache : s'.CacheOk C
  keys : SameKeys s s'
  receives : ∀ {dir s₀ queue}, Linked C dir s₀ s queue → Linked C dir s₀ s' queue

structure Received (C : CryptoSuite) (r r' : SecureDatagramSession) : Prop where
  valid : r'.isValid = true
  cache : r'.CacheOk C
  keys : SameKeys r r'
  sends : ∀ {dir r₀ queue}, Linked C dir r r₀ queue → Linked C dir r' r₀ queue

variable {queue : List InFlight} {nowMs : UInt64}

/-- **Sending puts a packet on its way.** -/
theorem Linked.encryptPayload (hC : C.Correct) (h : Linked C dir s r queue)
    (hvalid : s.isValid = true) (hcache : s.CacheOk C) (hlimits : s.BelowLimits dir nowMs)
    {pkt : Packet} (hclear : pkt.hdr.isEncrypted = false) :
    ∃ wire s', s.encryptPayload C dir pkt nowMs = (.ok wire, s') ∧ Sent C s s' ∧
      Linked C dir s' r (queue ++ [⟨pkt, wire⟩]) := by
  obtain ⟨wire, hwire⟩ := exists_encryptWithNonce hC
    (s.derivedCipher C (s.nextNonce dir nowMs).1 dir true) hclear
    (length_nonceBytes (s.nextNonce dir nowMs).1 (s.nextNonce dir nowMs).2.1)
  obtain ⟨cache, hcache', heq⟩ := encryptPayload_eq hcache hvalid dir pkt nowMs
  rw [hwire] at heq
  have hstep := nonceCounter_nextNonce hlimits
  have hcarries : Carries C (fun epoch => r.derivedCipher C epoch dir false) ⟨pkt, wire⟩
      ((s.nextNonce dir nowMs).1, (s.nextNonce dir nowMs).2.1) := by
    rw [h.keys.derivedCipher h.algorithm] at hwire
    have haead := algorithm_derivedCipher_ne_xor (C := C) h.aead (s.nextNonce dir nowMs).1 dir
    obtain ⟨tag, htail⟩ := refFromSuffix_of_encryptWithNonce haead hclear hwire
    exact ⟨parseTail_of_refFromSuffix htail,
      decrypt_of_encryptWithNonce hC.toLawful haead hclear hwire⟩
  obtain ⟨p, hawaits, hspans⟩ := h.spans
  obtain ⟨started, packets, epoch, -, hn⟩ := s.nextNonce_eq dir nowMs
  have hpush := hspans.push hstep hcarries
  rw [hn] at heq hpush
  exact ⟨wire, _, heq, ⟨hvalid, hcache', ⟨rfl, rfl, rfl, rfl⟩, fun hl =>
      ⟨hl.keys.trans ⟨rfl, rfl, rfl, rfl⟩, hl.algorithm, hl.aead, hl.spans⟩⟩,
    ⟨h.keys.1, h.keys.2, h.keys.3, h.keys.4⟩, h.algorithm, h.aead, p, hawaits, hpush⟩

/-- **The oldest packet on its way is decrypted to what was sent.** -/
theorem Linked.decryptPayload {item : InFlight} (h : Linked C dir s r (item :: queue))
    (hvalid : r.isValid = true) (hcache : r.CacheOk C) (nowMs : UInt64) :
    ∃ r', r.decryptPayload C dir item.wire nowMs = (.ok item.plain, r') ∧ Received C r r' ∧
      Linked C dir s r' queue := by
  obtain ⟨p, hawaits, hspans⟩ := h.spans
  obtain ⟨⟨epoch, seq⟩, p', hstep, ⟨htail, hopens⟩, hrest⟩ := hspans.pop
  obtain ⟨cache, hcache', heq⟩ := decryptPayload_eq hcache dir item.wire nowMs
  have hpre := ReplayState.precheckReplay_of_awaits hawaits hstep r.sendEpoch nowMs
  rw [verdict_of_opened hvalid htail hpre hopens] at heq
  have hnext := (hawaits.refresh nowMs).commitReplay hstep r.sendEpoch nowMs
  exact ⟨_, heq, ⟨hvalid, hcache', ⟨rfl, rfl, rfl, rfl⟩, fun hl =>
      ⟨⟨hl.keys.1, hl.keys.2, hl.keys.3, hl.keys.4⟩, hl.algorithm, hl.aead, hl.spans⟩⟩,
    h.keys.trans ⟨rfl, rfl, rfl, rfl⟩, h.algorithm, h.aead, p', hnext, hrest⟩

end SecureDatagramSession

open SecureDatagramSession

/-! ### Both directions -/

structure SessionPair where
  networkName : String
  id : Side → PeerId
  rootKey : Key32
  sessionGeneration : UInt32
  initialEpoch : Side → UInt32
  /-- the encryption algorithms the nodes are configured with -/
  algorithm : Side → String
  /-- the peer's Noise static key, where it is known on creation -/
  peerStaticPubkey : Side → Option Key32
  /-- the Noise static keys bound to the traffic keys, if they are bound -/
  boundPubkeys : Option (Side → List UInt8)
  createdMs : Side → UInt64

structure PlainPacket extends Packet where
  clear : hdr.isEncrypted = false

structure PairLink where
  session : Side → PeerSession
  queue : Side → List InFlight

inductive LinkEvent
  | send (x : Side) (pkt : PlainPacket) (nowMs : UInt64)
  /-- the oldest packet from `x` reaches the other node -/
  | deliver (x : Side) (nowMs : UInt64)

theorem Side.eq_or_eq_other (x y : Side) : y = x ∨ y = x.other := by
  cases x <;> cases y <;> simp [Side.other]

namespace SessionPair

variable (P : SessionPair) (C : CryptoSuite)

def dir (x : Side) : SecureDatagramDirection := PeerSession.dirForSender (P.id x) (P.id x.other)

def created (x : Side) : PeerSession :=
  .new P.networkName (P.id x) (P.id x.other) P.rootKey P.sessionGeneration
    (P.initialEpoch x) (P.algorithm x) (P.algorithm x.other) (P.peerStaticPubkey x) (P.createdMs x)

def session (x : Side) : PeerSession :=
  match P.boundPubkeys with
  | none => P.created x
  | some keys => (P.created x).bindStaticIdentities (keys x) (keys x.other)

def init : PairLink := ⟨P.session, fun _ => []⟩

theorem init_session (x : Side) : P.init.session x = P.session x := rfl

/-- What `encrypt_payload` makes of a packet that a node sends. -/
def encrypt (st : PairLink) (x : Side) (pkt : PlainPacket) (nowMs : UInt64) :
    Except DatagramError Packet × PeerSession :=
  (st.session x).encryptPayload C (P.id x) (P.id x.other) pkt.toPacket nowMs

/-- What `decrypt_payload` makes of a packet from a node. -/
def decrypt (st : PairLink) (x : Side) (wire : Packet) (nowMs : UInt64) :
    Except DatagramError Packet × PeerSession :=
  (st.session x.other).decryptPayload C (P.id x) (P.id x.other) wire nowMs

def step (st : PairLink) : LinkEvent → PairLink
  | .send x pkt nowMs =>
    let out := P.encrypt C st x pkt nowMs
    { session := update st.session x out.2
      queue := match out.1 with
        | .ok wire => update st.queue x (st.queue x ++ [⟨pkt.toPacket, wire⟩])
        | .error _ => st.queue }
  | .deliver x nowMs =>
    match st.queue x with
    | [] => st
    | item :: rest =>
      { session := update st.session x.other (P.decrypt C st x item.wire nowMs).2
        queue := update st.queue x rest }

def system : Trans PairLink LinkEvent := .ofFun (P.step C)

def BelowLimits (st : PairLink) : LinkEvent → Prop
  | .send x _ nowMs => (st.session x).datagram.BelowLimits (P.dir x) nowMs
  | .deliver _ _ => True

/-- A packet that is sent is encrypted, under a key that the other direction never has; one that
arrives is decrypted to what was sent. -/
def Works (st : PairLink) : LinkEvent → Prop
  | .send x pkt nowMs =>
    (∃ wire, (P.encrypt C st x pkt nowMs).1 = .ok wire) ∧
      ∀ epoch, (st.session x).datagram.hkdfTrafficKey C
          ((st.session x).datagram.nextNonce (P.dir x) nowMs).1 (P.dir x) ≠
        (st.session x.other).datagram.hkdfTrafficKey C epoch (P.dir x.other)
  | .deliver x nowMs =>
    ∀ item, (st.queue x).head? = some item → (P.decrypt C st x item.wire nowMs).1 = .ok item.plain

variable {P C} {st : PairLink}

/-! ### The sessions as created -/

theorem session_eq (x : Side) : ∃ binding, P.session x = { P.created x with
    datagram := { (P.created x).datagram with identityBinding := binding } } := by
  unfold session
  cases P.boundPubkeys with
  | none => exact ⟨_, rfl⟩
  | some keys =>
    obtain ⟨binding, heq⟩ := setIdentityBinding_eq (P.created x).datagram (keys x) (keys x.other)
    exact ⟨binding, by rw [← heq]; rfl⟩

theorem identityBinding_session (x : Side) :
    (P.session x).datagram.identityBinding = (P.session x.other).datagram.identityBinding := by
  unfold session
  cases P.boundPubkeys with
  | none => rfl
  | some keys =>
    simp only [other_other]
    exact identityBinding_setIdentityBinding_comm rfl rfl _ _

theorem sameKeys_session (x : Side) :
    SameKeys (P.session x).datagram (P.session x.other).datagram := by
  refine ⟨?_, ?_, ?_, identityBinding_session x⟩ <;>
    obtain ⟨_, hx⟩ := session_eq (P := P) x <;> obtain ⟨_, hy⟩ := session_eq (P := P) x.other <;>
    rw [hx, hy]
  case refine_3 =>
    change some _ = some _
    rw [other_other, SecureDatagramKdfContext.new_comm]
  all_goals rfl

theorem isValid_session (x : Side) : (P.session x).isValid = true := by
  obtain ⟨_, hx⟩ := session_eq (P := P) x
  rw [hx]
  rfl

theorem cacheOk_session (x : Side) : (P.session x).datagram.CacheOk C := by
  obtain ⟨_, hx⟩ := session_eq (P := P) x
  rw [hx]
  rintro dir epoch slot ⟨⟩

structure Inv (P : SessionPair) (C : CryptoSuite) (st : PairLink) : Prop where
  valid : ∀ x, (st.session x).isValid = true
  cache : ∀ x, (st.session x).datagram.CacheOk C
  keys : ∀ x, SameKeys (P.session x).datagram (st.session x).datagram
  linked : ∀ x, Linked C (P.dir x) (st.session x).datagram (st.session x.other).datagram
    (st.queue x)

theorem inv_init (haead : ∀ x, EncryptionAlgorithm.ofName (P.algorithm x) ≠ some .xor) :
    P.Inv C P.init := by
  refine ⟨isValid_session, cacheOk_session, fun x => .refl _, fun x => ?_⟩
  obtain ⟨_, hx⟩ := session_eq (P := P) x
  obtain ⟨_, hy⟩ := session_eq (P := P) x.other
  have halg : (P.session x.other).datagram.recvCipherAlgorithm = P.algorithm x := by
    rw [hy]
    exact congrArg P.algorithm x.other_other
  refine ⟨sameKeys_session x, .trans (by rw [init_session, hx]; rfl) halg.symm, halg ▸ haead x, _, ?_,
    .nil _⟩
  rw [init_session, hy]
  exact ReplayState.empty_awaits _ _

namespace Inv

theorem isValid_datagram (h : P.Inv C st) (x : Side) : (st.session x).datagram.isValid = true :=
  (Bool.and_eq_true_iff.1 (h.valid x)).2

theorem encrypt (hC : C.Correct) (h : P.Inv C st) (x : Side) (pkt : PlainPacket) {nowMs : UInt64}
    (hlimits : (st.session x).datagram.BelowLimits (P.dir x) nowMs) :
    ∃ wire s', P.encrypt C st x pkt nowMs = (.ok wire, { st.session x with datagram := s' }) ∧
      Sent C (st.session x).datagram s' ∧ Linked C (P.dir x) s' (st.session x.other).datagram
        (st.queue x ++ [⟨pkt.toPacket, wire⟩]) := by
  obtain ⟨wire, s', heq, hsent, hlinked⟩ :=
    (h.linked x).encryptPayload hC (h.isValid_datagram x) (h.cache x) hlimits pkt.clear
  refine ⟨wire, s', ?_, hsent, hlinked⟩
  unfold SessionPair.encrypt PeerSession.encryptPayload
  simp only [h.valid, if_not_true]
  rw [← SessionPair.dir, heq]

theorem decrypt (h : P.Inv C st) {x : Side} {item : InFlight} {rest : List InFlight}
    (hqueue : st.queue x = item :: rest) (nowMs : UInt64) :
    ∃ r', P.decrypt C st x item.wire nowMs =
        (.ok item.plain, { st.session x.other with datagram := r' }) ∧
      Received C (st.session x.other).datagram r' ∧
        Linked C (P.dir x) (st.session x).datagram r' rest := by
  have hlinked := h.linked x
  rw [hqueue] at hlinked
  obtain ⟨r', heq, hreceived, hrest⟩ := hlinked.decryptPayload
    (h.isValid_datagram x.other) (h.cache x.other) nowMs
  refine ⟨r', ?_, hreceived, hrest⟩
  unfold SessionPair.decrypt PeerSession.decryptPayload
  simp only [h.valid, if_not_true]
  rw [← SessionPair.dir, heq]

theorem update (h : P.Inv C st) {x : Side} {d : SecureDatagramSession} {y : Side}
    {queue : List InFlight} (hvalid : d.isValid = true) (hcache : d.CacheOk C)
    (hkeys : SameKeys (st.session x).datagram d)
    (hsend : Linked C (P.dir x) d (st.session x.other).datagram
      (update st.queue y queue x))
    (hreceive : Linked C (P.dir x.other) (st.session x.other).datagram d
      (update st.queue y queue x.other)) :
    P.Inv C ⟨update st.session x { st.session x with datagram := d }, update st.queue y queue⟩ := by
  have hold : (st.session x).invalidated = false := by
    simpa using (Bool.and_eq_true_iff.1 (h.valid x)).1
  refine ⟨?_, ?_, ?_, fun z => ?_⟩
  · refine (forall_update_iff st.session fun _ s => s.isValid = true).2 ⟨?_, ?_⟩
    · rw [PeerSession.isValid, hold, hvalid]
      rfl
    · exact fun z _ => h.valid z
  · exact (forall_update_iff st.session fun _ s => s.datagram.CacheOk C).2
      ⟨hcache, fun z _ => h.cache z⟩
  · exact (forall_update_iff st.session fun z s =>
      SameKeys (P.session z).datagram s.datagram).2 ⟨(h.keys x).trans hkeys, fun z _ => h.keys z⟩
  · obtain rfl | rfl := eq_or_eq_other x z
    · simp only [update_self, update_of_ne (other_ne z)]
      exact hsend
    · simp only [update_self, update_of_ne (other_ne x), other_other]
      exact hreceive

/-- **Every event keeps both directions linked.** -/
theorem step (hC : C.Correct) (h : P.Inv C st) (event : LinkEvent)
    (hlimits : P.BelowLimits st event) : P.Inv C (P.step C st event) := by
  cases event with
  | send x pkt nowMs =>
    obtain ⟨wire, s', heq, hsent, hlinked⟩ := h.encrypt hC x pkt hlimits
    simp only [SessionPair.step, heq]
    refine h.update hsent.valid hsent.cache hsent.keys ?_ ?_
    · rw [update_self]
      exact hlinked
    · rw [update_of_ne (other_ne x)]
      have hback := h.linked x.other
      rw [other_other] at hback
      exact hsent.receives hback
  | deliver x nowMs =>
    cases hqueue : st.queue x with
    | nil => simpa only [SessionPair.step, hqueue] using h
    | cons item rest =>
      obtain ⟨r', heq, hreceived, hrest⟩ := h.decrypt hqueue nowMs
      simp only [SessionPair.step, hqueue, heq]
      refine h.update hreceived.valid hreceived.cache hreceived.keys ?_ ?_
      · rw [update_of_ne (other_ne x)]
        exact hreceived.sends (h.linked x.other)
      · rw [other_other, update_self]
        exact hrest

end Inv

/-! ### Keys of the two directions -/

def HmacDistinct (P : SessionPair) (C : CryptoSuite) : Prop :=
  C.HmacDistinct (C.hmacSha256 (List.replicate 32 0) P.rootKey.toList)
    {msg | ∃ x epoch dir, msg = (P.session x).datagram.expandInput epoch dir}

theorem dir_ne_of_id_ne (h : P.id .a ≠ P.id .b) (x : Side) : P.dir x ≠ P.dir x.other := by
  have hne : P.id x ≠ P.id x.other := by
    cases x with
    | a => exact h
    | b => exact h.symm
  unfold dir PeerSession.dirForSender
  rw [other_other]
  grind

/-- **The two directions have different traffic keys**, in any two epochs. -/
theorem hkdfTrafficKey_ne (hmac : P.HmacDistinct C) (h : P.id .a ≠ P.id .b) (x : Side)
    (e e' : UInt32) : (P.session x).datagram.hkdfTrafficKey C e (P.dir x) ≠
      (P.session x.other).datagram.hkdfTrafficKey C e' (P.dir x.other) := by
  rw [← (sameKeys_session x).hkdfTrafficKey e' (P.dir x.other)]
  obtain ⟨_, hx⟩ := session_eq (P := P) x
  have hroot : (P.session x).datagram.rootKey = P.rootKey := by
    rw [hx]
    rfl
  have hmem : ∀ e d, (P.session x).datagram.expandInput e d ∈
      {msg | ∃ x epoch dir, msg = (P.session x).datagram.expandInput epoch dir} :=
    fun e d => ⟨x, e, d, rfl⟩
  have hlen := fun e d => hmac.length_hmac _ (hmem e d)
  rw [hkdfTrafficKey, hkdfTrafficKey, hroot, take_of_length_le (hlen _ _).le,
    take_of_length_le (hlen _ _).le]
  intro heq
  have hinput := hmac.injOn (hmem e (P.dir x)) (hmem e' (P.dir x.other)) heq
  exact dir_ne_of_id_ne h x (expandInput_inj hinput).2

theorem hkdfTrafficKey_eq_of_id_eq (h : P.id .a = P.id .b) (epoch : UInt32) :
    (P.session .a).datagram.hkdfTrafficKey C epoch (P.dir .a) =
      (P.session .b).datagram.hkdfTrafficKey C epoch (P.dir .b) := by
  have hdir : P.dir .a = P.dir .b := by
    simp only [dir, Side.other, h]
  rw [hdir]
  exact (sameKeys_session .a).hkdfTrafficKey epoch (P.dir .b)

/-! ### The cipher without a tail -/

theorem belowLimits_init (x : Side) (pkt : PlainPacket) :
    P.BelowLimits P.init (.send x pkt (P.createdMs x)) := by
  obtain ⟨_, hx⟩ := session_eq (P := P) x
  refine ⟨?_, ?_⟩ <;> rw [init_session, hx]
  · simp [nextNonce, maybeRotateEpoch, created, PeerSession.new, newWithKdfContext, satSub,
      rotateAfterPackets, rotateAfterMs]
  · exact (by decide : (0 : UInt64) < 0 + 1)

theorem encrypt_init_of_xor {x : Side}
    (halg : EncryptionAlgorithm.ofName (P.algorithm x) = some .xor) (pkt : PlainPacket)
    (nowMs : UInt64) : ∃ wire, (P.encrypt C P.init x pkt nowMs).1 = .ok wire ∧
      wire.payload.length = pkt.payload.length := by
  obtain ⟨_, hx⟩ := session_eq (P := P) x
  obtain ⟨cache, -, heq⟩ := encryptPayload_eq (C := C) (cacheOk_session x)
    (Bool.and_eq_true_iff.1 (isValid_session x)).2 (P.dir x) pkt.toPacket nowMs
  have hxor : ∀ epoch, ((P.session x).datagram.derivedCipher C epoch (P.dir x) true).algorithm =
      .xor := by
    intro epoch
    rw [hx, derivedCipher, if_pos rfl, createEncryptor_algorithm]
    exact congrArg (Option.getD · _) halg
  unfold SessionPair.encrypt PeerSession.encryptPayload
  simp only [init, isValid_session, if_not_true]
  rw [← SessionPair.dir, heq]
  simp [encryptWithNonce, pkt.clear, hxor, xorData]

theorem decrypt_ne_ok_of_length_lt {x : Side} {wire : Packet}
    (h : wire.payload.length < size) (nowMs : UInt64) (pkt : Packet) :
    (P.decrypt C st x wire nowMs).1 ≠ .ok pkt := by
  have htail : parseTail wire.payload = none := by
    simp [parseTail, refFromSuffix, h]
  unfold SessionPair.decrypt PeerSession.decryptPayload SecureDatagramSession.decryptPayload
  split_ifs <;> simp [htail]

/-! ### In-order delivery -/

def emptyPlainPacket : PlainPacket := ⟨samplePacket, by decide⟩

/-- **Packets delivered in order and without loss are decrypted to what was sent, and the two
directions have different keys, exactly if the ids differ and neither algorithm is `xor`.** -/
theorem delivered_in_order_iff (hC : C.Correct) (hmac : P.HmacDistinct C) :
    (∀ events, (P.system C).Along P.BelowLimits P.init events →
      (P.system C).Along (P.Works C) P.init events) ↔
    P.id .a ≠ P.id .b ∧ ∀ x, EncryptionAlgorithm.ofName (P.algorithm x) ≠ some .xor := by
  constructor
  · intro h
    have hsend : ∀ x, P.Works C P.init (.send x emptyPlainPacket (P.createdMs x)) := fun x =>
      (h [.send x emptyPlainPacket (P.createdMs x)]
        ⟨belowLimits_init x emptyPlainPacket, fun _ _ => trivial⟩).1
    refine ⟨fun hid => ?_, fun x halg => ?_⟩
    · exact (hsend .a).2 _ (hkdfTrafficKey_eq_of_id_eq hid _)
    · -- the empty packet leaves as an empty packet, and has no nonce to be checked
      obtain ⟨wire, hwire, hlen⟩ := encrypt_init_of_xor (C := C) halg emptyPlainPacket
        (P.createdMs x)
      have hrun := h [.send x emptyPlainPacket (P.createdMs x), .deliver x 0]
        ⟨belowLimits_init x emptyPlainPacket, fun _ _ => ⟨trivial, fun _ _ => trivial⟩⟩
      have hqueue : (P.step C P.init (.send x emptyPlainPacket (P.createdMs x))).queue x =
          [⟨emptyPlainPacket.toPacket, wire⟩] := by
        simp only [SessionPair.step, hwire, update_self]
        rfl
      have hdeliver := (hrun.2 _ rfl).1 ⟨emptyPlainPacket.toPacket, wire⟩ (by rw [hqueue]; rfl)
      refine decrypt_ne_ok_of_length_lt ?_ _ _ hdeliver
      rw [hlen]
      decide
  · rintro ⟨hid, haead⟩ events hlimits
    refine hlimits.of_invariant (I := P.Inv C) (inv_init haead) ?_ ?_
    · rintro st event _ hinv hl rfl
      exact hinv.step hC event hl
    · intro st event hinv hl
      cases event with
      | send x pkt nowMs =>
        obtain ⟨wire, s', heq, -, -⟩ := hinv.encrypt hC x pkt hl
        refine ⟨⟨wire, by rw [heq]⟩, fun epoch => ?_⟩
        rw [← (hinv.keys x).hkdfTrafficKey, ← (hinv.keys x.other).hkdfTrafficKey]
        exact hkdfTrafficKey_ne hmac hid x _ epoch
      | deliver x nowMs =>
        intro item hitem
        obtain ⟨rest, hqueue⟩ := head?_eq_some_iff.1 hitem
        obtain ⟨r', heq, -, -⟩ := hinv.decrypt hqueue nowMs
        rw [heq]

end SessionPair

/-- A suite whose ciphers return the text as it is, and whose HMAC returns the epoch and direction
of the key derivation. -/
def laneSuite : CryptoSuite :=
  { transparentSuite with hmacSha256 := fun _ msg => (msg.drop 39).take 5 ++ List.replicate 27 0 }

theorem laneSuite_correct : laneSuite.Correct where
  open_seal h := by
    cases h
    rfl
  aeadSeal_eq _ _ _ text := ⟨text, List.replicate 16 0, rfl, rfl⟩

theorem hmacSha256_laneSuite (s : SecureDatagramSession) (key : List UInt8) (epoch : UInt32)
    (dir : SecureDatagramDirection) : laneSuite.hmacSha256 key (s.expandInput epoch dir) =
      beBytes 4 epoch.toNat ++ [dirByte dir] ++ List.replicate 27 0 := by
  obtain ⟨front, rest, hfront, heq⟩ := s.expandInput_eq
  have hfive : (beBytes 4 epoch.toNat ++ [dirByte dir]).length = 5 := by
    rw [length_append, length_beBytes, length_singleton]
  change ((s.expandInput epoch dir).drop 39).take 5 ++ List.replicate 27 0 = _
  rw [heq, drop_left' hfront, take_left' hfive]

theorem laneSuite_hmacDistinct (P : SessionPair) : P.HmacDistinct laneSuite := by
  refine ⟨?_, ?_⟩
  · rintro _ ⟨x, epoch, dir, rfl⟩
    simp [hmacSha256_laneSuite]
  · rintro _ ⟨x, epoch, dir, rfl⟩ _ ⟨y, epoch', dir', rfl⟩ heq
    rw [hmacSha256_laneSuite, hmacSha256_laneSuite] at heq
    obtain ⟨rfl, rfl⟩ := epochDir_inj (append_cancel_right heq)
    obtain rfl | rfl := eq_or_eq_other x y
    · rfl
    · exact (P.sameKeys_session x).expandInput epoch dir

def configuredPair (algorithm : String) : SessionPair where
  networkName := "net"
  id
    | .a => 1
    | .b => 2
  rootKey := .replicate 32 7
  sessionGeneration := 1
  initialEpoch _ := 0
  algorithm _ := algorithm
  peerStaticPubkey _ := none
  boundPubkeys := none
  createdMs _ := 0

def greeting : PlainPacket :=
  ⟨{ samplePacket with payload := [104, 101, 108, 108, 111] }, by decide⟩

/-- With an AEAD cipher the greeting arrives. -/
theorem greeting_delivered : ((configuredPair "chacha20").system laneSuite).Along
    ((configuredPair "chacha20").Works laneSuite) (configuredPair "chacha20").init
      [.send .a greeting 0, .deliver .a 0] :=
  (SessionPair.delivered_in_order_iff laneSuite_correct (laneSuite_hmacDistinct _)).2
    ⟨by decide, fun _ => show EncryptionAlgorithm.ofName "chacha20" ≠ some .xor by decide +kernel⟩ _
    ⟨SessionPair.belowLimits_init .a greeting, fun _ _ => ⟨trivial, fun _ _ => trivial⟩⟩

/-- With `xor` the greeting is sent, and refused when it arrives: it has no tail. -/
theorem xor_greeting_refused :
    laneSuite.Correct ∧ (configuredPair "xor").HmacDistinct laneSuite ∧
    ((configuredPair "xor").system laneSuite).Along (configuredPair "xor").BelowLimits
      (configuredPair "xor").init [.send .a greeting 0, .deliver .a 0] ∧
    let st := (configuredPair "xor").step laneSuite (configuredPair "xor").init (.send .a greeting 0)
    (st.queue .a).map (fun item =>
      (item.plain, ((configuredPair "xor").decrypt laneSuite st .a item.wire 0).1)) =
      [(greeting.toPacket, .error .noTail)] := by
  refine ⟨laneSuite_correct, laneSuite_hmacDistinct _, ?_, ?_⟩
  · exact ⟨SessionPair.belowLimits_init .a greeting, fun _ _ => ⟨trivial, fun _ _ => trivial⟩⟩
  · decide +kernel

end PactMesh
