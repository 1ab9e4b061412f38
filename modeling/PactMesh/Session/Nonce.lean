import PactMesh.Session.RoundTrip
import PactMesh.Session.TwoPeers

/-!
# Nonces of a pair of peers

Under one root key, generation and direction no `(epoch, seq)` may be used twice.  The sender counts
up, except when the initiator of a handshake applies `Sync` or `Create`: then it starts over with
`seq = 0` at an epoch that the *responder* chose.  The responder does not know the epochs of datagrams
that were lost or whose windows were dropped, and hands out the same epoch again.

Main result: `used_nodup_of_startsAhead`.
-/

namespace PactMesh

open PeerSessionStore List

namespace SecureDatagramSession

structure SameTx (s s' : SecureDatagramSession) : Prop where
  rootKey : s'.rootKey = s.rootKey
  sessionGeneration : s'.sessionGeneration = s.sessionGeneration
  sendEpoch : s'.sendEpoch = s.sendEpoch
  sendSeq : s'.sendSeq = s.sendSeq

def Ahead (s : SecureDatagramSession) (dir : SecureDatagramDirection) (used : List DatagramId) :
    Prop :=
  ∀ id ∈ used, id.rootKey = s.rootKey → id.generation = s.sessionGeneration → id.dir = dir →
    id.epoch < s.sendEpoch ∨ id.epoch = s.sendEpoch ∧ id.seq < s.sendSeq dir

theorem SameTx.refl (s : SecureDatagramSession) : SameTx s s := ⟨rfl, rfl, rfl, rfl⟩

variable {s : SecureDatagramSession} {dir : SecureDatagramDirection}

theorem Ahead.of_sameTx {s' : SecureDatagramSession} {used : List DatagramId} (h : s.Ahead dir used)
    (hs : SameTx s s') : s'.Ahead dir used := by
  intro id hid hkey hgen hdir
  rw [hs.sendEpoch, hs.sendSeq]
  exact h id hid (hkey.trans hs.rootKey) (hgen.trans hs.sessionGeneration) hdir

theorem sameTx_setIdentityBinding (s : SecureDatagramSession) (l r : List UInt8) :
    SameTx s (s.setIdentityBinding l r) := by
  obtain ⟨binding, hb⟩ := s.setIdentityBinding_eq l r
  rw [hb]
  exact ⟨rfl, rfl, rfl, rfl⟩

theorem sameTx_decryptPayload (C : CryptoSuite) (s : SecureDatagramSession)
    (dir : SecureDatagramDirection) (pkt : Packet) (nowMs : UInt64) :
    SameTx s (s.decryptPayload C dir pkt nowMs).2 := by
  obtain ⟨cipher, cache, -, heq⟩ := s.decryptPayload_settle C dir pkt nowMs
  rw [heq]
  cases s.verdictWith C cipher dir pkt nowMs <;> exact ⟨rfl, rfl, rfl, rfl⟩

theorem rootKey_encryptPayload (C : CryptoSuite) (s : SecureDatagramSession)
    (dir : SecureDatagramDirection) (pkt : Packet) (nowMs : UInt64) :
    (s.encryptPayload C dir pkt nowMs).2.rootKey = s.rootKey := by
  obtain ⟨-, hs⟩ | ⟨_, _, _, _, _, -, -, -, hs⟩ := s.encryptPayload_cases C dir pkt nowMs <;> rw [hs]

theorem lt_add_one {n : UInt64} (h : n ≠ 0 - 1) : n < n + 1 := by grind

theorem lt_add_one32 {n : UInt32} (h : n ≠ 0 - 1) : n < n + 1 := by grind

theorem Ahead.encryptPayload {used : List DatagramId} (h : s.Ahead dir used)
    (hepoch : s.sendEpoch ≠ 0 - 1) (hseq : s.sendSeq dir ≠ 0 - 1) (C : CryptoSuite) (pkt : Packet)
    (nowMs : UInt64) (hv : s.isValid = true) :
    s.txId dir nowMs ∉ used ∧
      (s.encryptPayload C dir pkt nowMs).2.Ahead dir (s.txId dir nowMs :: used) := by
  obtain ⟨hinv, -⟩ | ⟨cache, invalid, started, packets, epoch, he, hn, -, hs⟩ :=
    s.encryptPayload_cases C dir pkt nowMs
  · rw [hv] at hinv
    cases hinv
  · have hid : s.txId dir nowMs = ⟨s.rootKey, s.sessionGeneration, dir, epoch, s.sendSeq dir⟩ := by
      obtain ⟨_, _, _, -, hnonce⟩ := s.nextNonce_eq dir nowMs
      rw [txId, ← hn, hnonce]
    -- the epoch of the nonce is not older than the session's
    have hle : s.sendEpoch ≤ epoch := by
      obtain rfl | rfl := he
      · exact UInt32.le_refl _
      · exact UInt32.le_of_lt (lt_add_one32 hepoch)
    have hold : ∀ id ∈ used, id.rootKey = s.rootKey → id.generation = s.sessionGeneration →
        id.dir = dir → id.epoch < epoch ∨ id.epoch = epoch ∧ id.seq < s.sendSeq dir := by
      intro id hid hkey hgen hdir
      obtain hlt | ⟨heq, hlt⟩ := h id hid hkey hgen hdir
      · exact .inl (UInt32.lt_of_lt_of_le hlt hle)
      · obtain rfl | rfl := he
        · exact .inr ⟨heq, hlt⟩
        · exact .inl (by rw [heq]; exact lt_add_one32 hepoch)
    rw [hid, hs]
    constructor
    · intro hmem
      obtain hlt | ⟨-, hlt⟩ := hold _ hmem rfl rfl rfl
      · exact UInt32.lt_irrefl _ hlt
      · exact UInt64.lt_irrefl _ hlt
    · intro id hid hkey hgen hdir
      simp only [Function.update_self]
      rw [mem_cons] at hid
      obtain rfl | hid := hid
      · exact .inr ⟨rfl, lt_add_one hseq⟩
      · exact (hold id hid hkey hgen hdir).imp_right
          fun h => ⟨h.1, UInt64.lt_trans h.2 (lt_add_one hseq)⟩

end SecureDatagramSession

def Flight.rootKey : Flight → Option Key32
  | msg1 .. => none
  | msg2 _ _ _ rootKey _ => rootKey
  | answered _ _ _ rootKey _ => rootKey
  | msg3 .. => none

namespace PeerPair

variable {P : PeerPair} {C : CryptoSuite} {st : PairState}

open SecureDatagramSession

theorem sameTx_applyStore {store : PeerSessionStore} {x : Side} {action : PeerSessionAction}
    {bGen : UInt32} {rootKey : Option Key32} {epoch : UInt32} {nowMs : UInt64} {s' : PeerSession}
    (h : P.applyStore store x action bGen rootKey epoch nowMs (P.key x) = some s') :
    ∃ s, (store.applyInitiatorAction (P.key x) (P.id x) action bGen rootKey epoch (P.algorithm x)
      (P.algorithm x.other) (some (P.staticKey x.other)) nowMs).2 (P.key x) = some s ∧
      SameTx s.datagram s'.datagram := by
  cases hok : (store.applyInitiatorAction (P.key x) (P.id x) action bGen rootKey epoch
    (P.algorithm x) (P.algorithm x.other) (some (P.staticKey x.other)) nowMs).1 with
  | ok session =>
    simp only [applyStore, hok, insert_self, Option.some.injEq] at h
    subst h
    exact ⟨session, (applyInitiatorAction_spec ..).2 _ hok, sameTx_setIdentityBinding ..⟩
  | error e =>
    simp only [applyStore, hok] at h
    exact ⟨s', h, .refl _⟩

def DrawsFreshKey (P : PeerPair) (st : PairState) : PairEvent → Prop
  | .respond x _ newRootKey _ =>
    ((st.store x.other).valid (P.key x.other)).isNone = true → newRootKey ∉ st.drawn
  | _ => True

instance (P : PeerPair) (st : PairState) : DecidablePred (P.DrawsFreshKey st)
  | .respond .. => inferInstanceAs (Decidable (_ → _ ∉ _))
  | .start .. | .answer .. | .apply .. | .finish .. | .lose .. | .send .. | .receive .. | .evict ..
  | .invalidateForPeer .. => .isTrue trivial

/-- A side that applies `Sync` or `Create` starts above every epoch it has used under that root key
and generation, and the counters of a side that sends are not about to wrap. -/
def StartsAhead (P : PeerPair) (st : PairState) : PairEvent → Prop
  | .apply x action bGen rootKey epoch _ => action ≠ .join → ∀ id ∈ st.used,
      some id.rootKey = rootKey → id.generation = bGen → id.dir = P.dir x → id.epoch < epoch
  | .send x _ _ => ∀ s ∈ P.session st x,
      s.datagram.sendEpoch ≠ 0 - 1 ∧ s.datagram.sendSeq (P.dir x) ≠ 0 - 1
  | _ => True

instance (P : PeerPair) (st : PairState) : DecidablePred (P.StartsAhead st)
  | .apply .. => inferInstanceAs (Decidable (_ → ∀ id ∈ _, _ → _ → _ → _))
  | .send .. => inferInstanceAs (Decidable (∀ s ∈ P.session st _, _))
  | .start .. | .respond .. | .answer .. | .finish .. | .lose .. | .receive .. | .evict ..
  | .invalidateForPeer .. => .isTrue trivial

structure NonceInv (P : PeerPair) (st : PairState) : Prop where
  nodup : st.used.Nodup
  usedDrawn : ∀ {id}, id ∈ st.used → id.rootKey ∈ st.drawn
  flightDrawn : ∀ f ∈ st.flights, ∀ k ∈ f.rootKey, k ∈ st.drawn
  sessionDrawn : ∀ {x s}, P.session st x = some s → s.datagram.rootKey ∈ st.drawn
  ahead : ∀ {x s}, P.session st x = some s → s.datagram.Ahead (P.dir x) st.used

namespace NonceInv

variable (h : NonceInv P st)
include h

variable {flights : List Flight} {x : Side} {store : PeerSessionStore}

/-- A step of the side `x`: only the nonces it uses and the session it leaves matter. -/
theorem of_update {used : List DatagramId} {drawn : List Key32}
    (hused : used = st.used ∨ ∃ id ∉ st.used, used = id :: st.used ∧ id.rootKey ∈ st.drawn ∧
      id.dir = P.dir x)
    (hdrawn : ∀ {k}, k ∈ st.drawn → k ∈ drawn)
    (hflights : ∀ f ∈ flights, f ∈ st.flights ∨ ∀ k ∈ f.rootKey, k ∈ drawn)
    (hstore : ∀ {s}, store (P.key x) = some s →
      s.datagram.rootKey ∈ drawn ∧ s.datagram.Ahead (P.dir x) used) :
    NonceInv P ⟨Function.update st.store x store, flights, used, drawn⟩ := by
  have hsub : ∀ {i}, i ∈ used → i ∈ st.used ∨ i.rootKey ∈ st.drawn ∧ i.dir = P.dir x := by
    intro i hi
    obtain rfl | ⟨id, -, rfl, hid⟩ := hused
    · exact .inl hi
    · obtain rfl | hi := mem_cons.1 hi
      · exact .inr hid
      · exact .inl hi
  constructor
  · obtain rfl | ⟨id, hnew, rfl, -⟩ := hused
    · exact h.nodup
    · exact nodup_cons.2 ⟨hnew, h.nodup⟩
  · exact fun hi => hdrawn ((hsub hi).elim h.usedDrawn And.left)
  · exact fun f hf k hk =>
      (hflights f hf).elim (fun hf => hdrawn (h.flightDrawn f hf k hk)) fun hd => hd k hk
  · intro y s hs
    obtain ⟨rfl, hs⟩ | ⟨-, hs⟩ := session_update_cases hs
    · exact (hstore hs).1
    · exact hdrawn (h.sessionDrawn hs)
  · intro y s hs
    obtain ⟨rfl, hs⟩ | ⟨hy, hs⟩ := session_update_cases hs
    · exact (hstore hs).2
    · -- the other side sends in the other direction
      intro i hi hk hg hd
      obtain hi | ⟨-, hdir⟩ := hsub hi
      · exact h.ahead hs i hi hk hg hd
      · exact absurd (dir_injective (hd.symm.trans hdir)) hy

theorem of_store (x : Side) (store : PeerSessionStore)
    (hflights : ∀ f ∈ flights, f ∈ st.flights ∨ ∀ k ∈ f.rootKey, k ∈ st.drawn)
    (hstore : ∀ {s'}, store (P.key x) = some s' →
      ∃ s, P.session st x = some s ∧ SameTx s.datagram s'.datagram) :
    NonceInv P { st with store := Function.update st.store x store, flights := flights } := by
  refine h.of_update (.inl rfl) (fun hk => hk) hflights fun hs' => ?_
  obtain ⟨s, hs, htx⟩ := hstore hs'
  rw [htx.rootKey]
  exact ⟨h.sessionDrawn hs, (h.ahead hs).of_sameTx htx⟩

theorem respond {aGen : Option UInt32} {newRootKey : Key32} {nowMs : UInt64}
    (hfresh : ((st.store x.other).valid (P.key x.other)).isNone = true → newRootKey ∉ st.drawn) :
    NonceInv P (P.respondStep st x aGen newRootKey nowMs) := by
  unfold respondStep
  obtain ⟨hnone, hout⟩ | ⟨s, e, hs, -, hout⟩ | ⟨s, s', hs, hcheck, hcase⟩ :=
    (st.store x.other).upsertResponderSession_cases (P.key x.other) (P.id x.other) aGen
      (P.algorithm x.other) (P.algorithm x) none newRootKey nowMs
  · -- a session is created under the key just drawn
    simp only [hout, hnone, Option.isNone_none, if_true]
    refine h.of_update (.inl rfl) (mem_cons_of_mem _) ?_ fun hs => ?_
    · refine forall_mem_cons.2 ⟨.inr ?_, fun _ hf => .inl (mem_of_mem_erase hf)⟩
      rintro _ ⟨⟩
      exact mem_cons_self
    · cases (insert_self ..).symm.trans hs
      refine ⟨mem_cons_self, fun id hid hkey => ?_⟩
      have hused := h.usedDrawn hid
      rw [hkey] at hused
      exact absurd hused (hfresh (by rw [hnone]; rfl))
  · simp only [hout, hs, Option.isNone_some, Bool.false_eq_true, if_false]
    exact h.of_store x.other _ (fun _ hf => .inl (mem_of_mem_erase hf))
      fun {s'} hs' => ⟨s', hs', .refl _⟩
  · -- the session found is left as it is, up to the static key
    have hdata := PeerSession.checkHandshake_datagram hcheck
    have hsess := (valid_eq_some_iff.1 hs).1
    have hstore : ∀ {t}, (st.store x.other).insert (P.key x.other) s' (P.key x.other) = some t →
        ∃ s, P.session st x.other = some s ∧ SameTx s.datagram t.datagram := by
      intro t ht
      cases (insert_self ..).symm.trans ht
      exact ⟨s, hsess, hdata ▸ .refl _⟩
    simp only [hs, Option.isNone_some, Bool.false_eq_true, if_false]
    obtain ⟨-, hout⟩ | ⟨-, hout⟩ := hcase
    all_goals
      simp only [hout]
      refine h.of_store x.other _
        (forall_mem_cons.2 ⟨.inr ?_, fun _ hf => .inl (mem_of_mem_erase hf)⟩) hstore
    · exact nofun
    · rintro _ ⟨⟩
      exact hdata ▸ h.sessionDrawn hsess

theorem apply {action : PeerSessionAction} {bGen : UInt32}
    {rootKey : Option Key32} {epoch : UInt32} {nowMs : UInt64}
    (hmem : .answered x action bGen rootKey epoch ∈ st.flights)
    (hahead : action ≠ .join → ∀ id ∈ st.used, some id.rootKey = rootKey →
      id.generation = bGen → id.dir = P.dir x → id.epoch < epoch) :
    NonceInv P (P.applyStep st x action bGen rootKey epoch nowMs) := by
  have hstore := ((st.store x).applyInitiatorAction_spec (P.key x) (P.id x) bGen epoch
    (P.algorithm x) (P.algorithm x.other) (some (P.staticKey x.other)) nowMs action rootKey).1
  unfold applyStep
  obtain hkept | ⟨hact, root, s₁, hroot, hs₁, hkey, hgen, hepoch, -⟩ := hstore
  · refine h.of_store x _ (fun _ hf => .inl (mem_of_mem_erase hf)) fun {s'} hs' => ?_
    obtain ⟨s, hs, htx⟩ := sameTx_applyStore hs'
    obtain hnone | ⟨s₀, p, hs₀, hs₁⟩ := hkept
    · rw [hnone] at hs
      cases hs
    · rw [hs₁, Option.some.injEq] at hs
      subst hs
      exact ⟨s₀, hs₀, htx⟩
  · refine h.of_update (.inl rfl) (fun hk => hk) (fun _ hf => .inl (mem_of_mem_erase hf))
      fun hs' => ?_
    obtain ⟨s, hs, htx⟩ := sameTx_applyStore hs'
    rw [hs₁, Option.some.injEq] at hs
    subst hs
    have hkey := htx.rootKey.trans hkey
    refine ⟨hkey ▸ h.flightDrawn _ hmem root hroot, fun id hid hk hg hd => .inl ?_⟩
    rw [htx.sendEpoch, hepoch]
    rw [← hk.trans hkey] at hroot
    exact hahead hact id hid hroot.symm (hg.trans (htx.sessionGeneration.trans hgen)) hd

theorem send (pkt : Packet) (nowMs : UInt64)
    (hwrap : ∀ s, P.session st x = some s →
      s.datagram.sendEpoch ≠ 0 - 1 ∧ s.datagram.sendSeq (P.dir x) ≠ 0 - 1) :
    NonceInv P (P.sendStep C st x pkt nowMs) := by
  unfold sendStep
  cases hs : P.session st x with
  | none => exact h
  | some s =>
    obtain ⟨hepoch, hseq⟩ := hwrap s hs
    cases hv : s.isValid with
    | true =>
      have hdv : s.datagram.isValid = true := (Bool.and_eq_true_iff.1 hv).2
      obtain ⟨hnew, hahead⟩ := (h.ahead hs).encryptPayload hepoch hseq C pkt nowMs hdv
      simp only [PeerSession.encryptPayload, hv, if_not_true]
      have hkey := (rootKey_encryptPayload C s.datagram (P.dir x) pkt nowMs).symm ▸ h.sessionDrawn hs
      split
      · refine h.of_update (.inr ⟨_, hnew, rfl, h.sessionDrawn hs, rfl⟩) (fun hk => hk) (fun _ => .inl) ?_
        intro t ht
        cases (insert_self ..).symm.trans ht
        exact ⟨hkey, hahead⟩
      · refine h.of_update (.inl rfl) (fun hk => hk) (fun _ => .inl) ?_
        intro t ht
        cases (insert_self ..).symm.trans ht
        exact ⟨hkey, fun i hi => hahead i (mem_cons_of_mem _ hi)⟩
    | false =>
      simp only [PeerSession.encryptPayload, hv, Bool.not_false, if_true]
      refine h.of_store x _ (fun _ => .inl) fun {t} ht => ?_
      cases (insert_self ..).symm.trans ht
      exact ⟨s, hs, .refl _⟩

theorem receive (x : Side) (pkt : Packet) (nowMs : UInt64) :
    NonceInv P (P.receiveStep C st x pkt nowMs) := by
  unfold receiveStep
  cases hs : P.session st x with
  | none => exact h
  | some s =>
    refine h.of_store x _ (fun _ => .inl) fun {t} ht => ?_
    cases (insert_self ..).symm.trans ht
    refine ⟨s, hs, ?_⟩
    unfold PeerSession.decryptPayload
    split_ifs
    · exact .refl _
    · exact sameTx_decryptPayload ..

theorem finish (x : Side) : NonceInv P (P.finishStep st x) := by
  refine h.of_store x.other _ (fun _ hf => .inl (mem_of_mem_erase hf)) ?_
  intro t ht
  unfold finishStore at ht
  cases hs : st.store x.other (P.key x.other) with
  | none =>
    simp only [hs] at ht
    cases ht
  | some s =>
    cases hst : s.checkOrSetPeerStaticPubkey (some (P.staticKey x)) with
    | error e =>
      simp only [hs, hst, Option.some.injEq] at ht
      exact ⟨s, hs, ht ▸ .refl _⟩
    | ok s' =>
      simp only [hs, hst, insert_self, Option.some.injEq] at ht
      subst ht
      have hdata : s'.datagram = s.datagram := by rw [PeerSession.checkOrSetPeerStaticPubkey_ok hst]
      exact ⟨s, hs, hdata ▸ sameTx_setIdentityBinding ..⟩

theorem of_dropped
    (hf : ∀ f ∈ flights, f ∈ st.flights ∨ ∀ k ∈ f.rootKey, k ∈ st.drawn)
    (hs : ∀ {s'}, store (P.key x) = some s' → P.session st x = some s') :
    NonceInv P ⟨Function.update st.store x store, flights, st.used, st.drawn⟩ := by
  exact h.of_store x store hf fun {s'} hs' => ⟨s', hs hs', .refl _⟩

theorem of_flights
    (hf : ∀ f ∈ flights, f ∈ st.flights ∨ ∀ k ∈ f.rootKey, k ∈ st.drawn) :
    NonceInv P { st with flights := flights } := by
  have := h.of_dropped hf fun {s'} (hs' : st.store .a (P.key .a) = some s') => hs'
  rwa [Function.update_eq_self] at this

theorem step {ev : PairEvent} (hkey : DrawsFreshKey P st ev)
    (hahead : StartsAhead P st ev) : NonceInv P (P.step C st ev) := by
  cases ev with
  | start x hint =>
    simp only [PeerPair.step]
    split_ifs
    · refine h.of_dropped (forall_mem_cons.2 ⟨.inr nofun, fun _ => .inl⟩) fun {s'} hs' => ?_
      obtain ⟨s, -, hget⟩ | ⟨-, hnone⟩ := (st.store x).get_cases (P.key x)
      · rw [hget] at hs'
        exact hs'
      · rw [hnone] at hs'
        cases hs'
    · exact h.of_flights (forall_mem_cons.2 ⟨.inr nofun, fun _ => .inl⟩)
  | respond x aGen newRootKey nowMs =>
    simp only [PeerPair.step]
    split_ifs
    · exact h.respond hkey
    · exact h
  | answer x action bGen rootKey epoch =>
    simp only [PeerPair.step]
    split_ifs with hmem
    · exact h.of_flights (forall_mem_cons.2 ⟨.inr (h.flightDrawn (.msg2 ..) hmem),
        forall_mem_cons.2 ⟨.inr nofun, fun _ hf => .inl (mem_of_mem_erase hf)⟩⟩)
    · exact h
  | apply x action bGen rootKey epoch nowMs =>
    simp only [PeerPair.step]
    split_ifs with hmem
    · exact h.apply hmem hahead
    · exact h
  | finish x =>
    simp only [PeerPair.step]
    split_ifs
    · exact h.finish x
    · exact h
  | lose f => exact h.of_flights fun _ hf => .inl (mem_of_mem_erase hf)
  | send x pkt nowMs => exact h.send pkt nowMs hahead
  | receive x pkt nowMs => exact h.receive x pkt nowMs
  | evict x =>
    refine h.of_dropped (fun _ => .inl) fun hs' => ?_
    rw [remove_self] at hs'
    cases hs'
  | invalidateForPeer x =>
    refine h.of_dropped (fun _ => .inl) fun hs' => ?_
    simp only [PeerSessionStore.invalidateForPeer, key, if_true] at hs'
    cases hs'

end NonceInv

end PeerPair

/-- **No nonce is used twice** along a run in which fresh root keys are distinct, every `Sync` and
`Create` starts above the epochs its side has used, and no counter wraps. -/
theorem used_nodup_of_startsAhead (P : PeerPair) (C : CryptoSuite) (evs : List PairEvent)
    (st : PairState)
    (hrun : ((P.sys C).guard fun st ev => P.DrawsFreshKey st ev ∧ P.StartsAhead st ev).Run
      PeerPair.init evs st) : st.used.Nodup := by
  have hinv : P.NonceInv st := by
    refine hrun.invariant ⟨nodup_nil, nofun, nofun, nofun, nofun⟩ ?_
    rintro st ev st' hst ⟨⟨hkey, hahead⟩, rfl⟩
    exact hst.step hkey hahead
  exact hinv.nodup

/-- A handshake from `a` to `b` in which `b` answers with `action`, the root key `k` of generation 1
and the start epoch `epoch`. -/
def handshakeEvents (action : PeerSessionAction) (k : Key32) (epoch : UInt32) : List PairEvent :=
  [.start .a false, .respond .a none k 0, .answer .a action 1 (some k) epoch,
    .apply .a action 1 (some k) epoch 0, .finish .a]

/-- The two nodes create a session and reconnect twice.  `b` hears nothing of the packet `a` sends
in between, so it offers the same start epoch. -/
def reconnectEvents : List PairEvent :=
  handshakeEvents .create (key32 7) 0 ++
    handshakeEvents .sync (key32 7) 1 ++ [.send .a samplePacket 0] ++
    handshakeEvents .sync (key32 7) 1 ++ [.send .a samplePacket 0]

/-- **A second `Sync` repeats a nonce**: after it `a` encrypts its next packet under the traffic key
and nonce of a packet it already sent. -/
theorem sync_reuses_nonce :
    ∃ st, ((samplePair.sys transparentSuite).guard samplePair.DrawsFreshKey).Run PeerPair.init
        reconnectEvents st ∧ ¬ st.used.Nodup :=
  ⟨_, Trans.run_guard_ofFun (by decide +kernel), by decide +kernel⟩

/-- With one reconnect only, the two packets sent before and after it have different nonces. -/
theorem used_nodup_single_sync :
    ∃ st, ((samplePair.sys transparentSuite).guard fun st ev =>
          samplePair.DrawsFreshKey st ev ∧ samplePair.StartsAhead st ev).Run PeerPair.init
        (handshakeEvents .create (key32 7) 0 ++ [.send .a samplePacket 0] ++
          handshakeEvents .sync (key32 7) 1 ++ [.send .a samplePacket 0]) st ∧
      st.used.length = 2 ∧ st.used.Nodup := by
  have hrun := Trans.run_guard_ofFun
    (f := samplePair.step transparentSuite)
    (G := fun st ev => samplePair.DrawsFreshKey st ev ∧ samplePair.StartsAhead st ev)
    (show Trans.allGuarded _ _ PeerPair.init
      (handshakeEvents .create (key32 7) 0 ++ [.send .a samplePacket 0] ++
        handshakeEvents .sync (key32 7) 1 ++ [.send .a samplePacket 0]) = true by
      decide +kernel)
  exact ⟨_, hrun, by decide +kernel, used_nodup_of_startsAhead _ _ _ _ hrun⟩

end PactMesh
