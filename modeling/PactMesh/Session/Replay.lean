import PactMesh.Lib.Trans
import PactMesh.Session.RoundTrip
import Mathlib.Data.Set.Insert

/-!
# Replay protection

The system here is one session object under any sequence of operations (`SessionOp`), together with
the log of the datagrams it has accepted.  A window is dropped when its epoch stays silent for
`evictIdleAfterMs`, and a resynchronisation drops all of them; the next datagram of the epoch then
starts an empty one.  One is also started for an epoch whose window is live in the previous slot,
while the current slot is empty.

* `RxInv` : one direction's slots account for all that was accepted, and no two are of one epoch;
* `accepted_nodup_of_startsAbove` : no datagram is accepted twice while windows start in epochs
  without one, and above what was accepted;
* `accepts_twice_past_live_window` : a datagram accepted again while the window that holds it is live;
* `cached_keys_current_of_bindsUnused` : the traffic keys that a session caches (`KeysCurrent`) stay
  current while the identities are bound before their use.
-/

namespace PactMesh

open ReplayWindow256 RxSlots SecureDatagramSession ReplayState

/-! ### The invariant of one direction -/

namespace RxSlots

/-- The two slots are of different epochs. -/
def Distinct (rx : RxSlots) : Prop :=
  ∀ cur prev, rx.cur = some cur → rx.prev = some prev → prev.epoch ≠ cur.epoch

/-- `rx` holds no other slots than `rx'` does in the same place. -/
def Sub (rx rx' : RxSlots) : Prop :=
  (∀ slot, rx.cur = some slot → rx'.cur = some slot) ∧
    ∀ slot, rx.prev = some slot → rx'.prev = some slot

variable {slot : EpochRxSlot}

theorem Sub.mem {rx rx' : RxSlots} (h : rx.Sub rx') (hs : rx.Mem slot) : rx'.Mem slot :=
  hs.imp (h.1 slot) (h.2 slot)

theorem Sub.distinct {rx rx' : RxSlots} (h : rx.Sub rx') (hd : rx'.Distinct) : rx.Distinct :=
  fun _ _ hc hp => hd _ _ (h.1 _ hc) (h.2 _ hp)

theorem empty_sub (rx : RxSlots) : empty.Sub rx := ⟨fun _ h => (by cases h), fun _ h => (by cases h)⟩

theorem mem_left {a : EpochRxSlot} {prev : Option EpochRxSlot} :
    Mem ⟨some a, prev⟩ slot ↔ a = slot ∨ prev = some slot := by
  simp [Mem]

theorem mem_right {a : EpochRxSlot} {cur : Option EpochRxSlot} :
    Mem ⟨cur, some a⟩ slot ↔ cur = some slot ∨ a = slot := by
  simp [Mem]

theorem evictOld_sub (rx : RxSlots) (nowMs : UInt64) : (rx.evictOld nowMs).Sub rx :=
  ⟨fun _ => Option.eq_some_of_filter_eq_some, fun _ => Option.eq_some_of_filter_eq_some⟩

theorem epoch_ne_of_find {rx : RxSlots} {e : UInt32} (hf : rx.find e = none) (hm : rx.Mem slot) :
    slot.epoch ≠ e := by
  rintro rfl
  obtain ⟨slot', hs⟩ := find_of_mem hm
  rw [hf] at hs
  cases hs

end RxSlots

/-- `slot'` is of the epoch of `slot` and rejects at least as much. -/
def Sharper (slot slot' : EpochRxSlot) : Prop :=
  slot'.epoch = slot.epoch ∧ ∀ {q : UInt64}, slot.window.Rejects q → slot'.window.Rejects q

theorem Sharper.refl (slot : EpochRxSlot) : Sharper slot slot := ⟨rfl, id⟩

theorem sharper_accept (slot : EpochRxSlot) (q nowMs : UInt64) :
    Sharper slot (slot.accept q nowMs).2 := ⟨rfl, fun h => rejects_accept h q⟩

variable {nowMs : UInt64}

/-- A window started at `q` rejects what lies 256 numbers below it. -/
theorem fresh_rejects {e : UInt32} {q q' : UInt64} (h : q'.toNat + 256 ≤ q.toNat) :
    ((EpochRxSlot.fresh e nowMs).accept q nowMs).2.window.Rejects q' :=
  (rejects_accept_iff (.inr rfl) (ne_true_of_eq_false · (EpochRxSlot.fresh_canAccept e q nowMs))).2
    (.inr (.inr h))

/-- The slots `rx` and grace slots `g` of one direction against the set `A` of the epochs and
numbers accepted in it. -/
structure RxInv (rx g : RxSlots) (A : Set (UInt32 × UInt64)) : Prop where
  /-- a slot of an accepted datagram's epoch rejects it -/
  covered : ∀ {e q slot}, (e, q) ∈ A → rx.Mem slot ∨ g.Mem slot → slot.epoch = e →
    slot.window.Rejects q
  /-- the current and the previous slot are of different epochs -/
  distinct : rx.Distinct
  /-- so are the two grace slots -/
  graceDistinct : g.Distinct
  /-- no epoch has both a slot and a grace slot -/
  apart : ∀ {old slot}, g.Mem old → rx.Mem slot → old.epoch ≠ slot.epoch

namespace RxInv

variable {rx rx' g g' : RxSlots} {A : Set (UInt32 × UInt64)} {e : UInt32} {q : UInt64}

theorem sub (h : RxInv rx g A) (hrx : rx'.Sub rx) (hg : g'.Sub g) : RxInv rx' g' A where
  covered ha hs := h.covered ha (hs.imp hrx.mem hg.mem)
  distinct := hrx.distinct h.distinct
  graceDistinct := hg.distinct h.graceDistinct
  apart ho hs := h.apart (hg.mem ho) (hrx.mem hs)

/-- Slots and grace slots play the same part. -/
theorem swap (h : RxInv rx g A) : RxInv g rx A where
  covered ha hs := h.covered ha hs.symm
  distinct := h.graceDistinct
  graceDistinct := h.distinct
  apart ho hs := (h.apart hs ho).symm

theorem empty (A : Set (UInt32 × UInt64)) : RxInv .empty .empty A where
  covered _ hs := by simp at hs
  distinct _ _ hc := by cases hc
  graceDistinct _ _ hc := by cases hc
  apart ho := by simp at ho

theorem shift (h : RxInv rx g A) : RxInv .empty rx A where
  covered ha hs := h.covered ha (.inl (hs.resolve_left (not_mem_empty _)))
  distinct _ _ hc := by cases hc
  graceDistinct := h.distinct
  apart _ hs := absurd hs (not_mem_empty _)

variable {slot : EpochRxSlot}

theorem not_mem_of_canAccept (h : RxInv rx g A) (hs : rx.Mem slot ∨ g.Mem slot)
    (hq : slot.window.canAccept q = true) : (slot.epoch, q) ∉ A := by
  intro ha
  have hrej : slot.window.canAccept q = false := h.covered ha hs rfl
  rw [hq] at hrej
  cases hrej

/-- Recording `(e, q)` turns the slots into `rx'` and `g'`: those of the epoch reject `q`, and each
is an old slot that rejects at least as much as before, or a new one of the epoch that rejects all
that was accepted in it. -/
theorem record (h : RxInv rx g A)
    (hself : ∀ {slot'}, rx'.Mem slot' ∨ g'.Mem slot' → slot'.epoch = e → slot'.window.Rejects q)
    (hslot : ∀ {slot'}, rx'.Mem slot' ∨ g'.Mem slot' →
      (∃ slot, (rx.Mem slot ∨ g.Mem slot) ∧ Sharper slot slot') ∨
        slot'.epoch = e ∧ ∀ {q'}, (e, q') ∈ A → slot'.window.Rejects q')
    (hdist : rx'.Distinct) (hgdist : g'.Distinct)
    (hapart : ∀ {old slot}, g'.Mem old → rx'.Mem slot → old.epoch ≠ slot.epoch) :
    RxInv rx' g' (insert (e, q) A) := by
  refine ⟨?_, hdist, hgdist, hapart⟩
  intro e₁ q₁ slot ha hs he
  rw [Set.mem_insert_iff, Prod.mk.injEq] at ha
  obtain ⟨rfl, rfl⟩ | ha := ha
  · exact hself hs he
  obtain ⟨old, hold, heq, hrej⟩ | ⟨hnew, hrej⟩ := hslot hs
  · exact hrej (h.covered ha hold (heq ▸ he))
  · obtain rfl := hnew.symm.trans he
    exact hrej ha

/-- The current slot becomes a window started at `q` for an epoch that no slot holds. -/
theorem start (h : RxInv rx g A) (nowMs : UInt64) (hgrace : g.find e = none) (hrx : rx.find e = none)
    (hbelow : ∀ {q'}, (e, q') ∈ A → q'.toNat + 256 ≤ q.toNat) {other : Option EpochRxSlot}
    (hother : ∀ {slot}, other = some slot → rx.Mem slot) :
    (e, q) ∉ A ∧
      RxInv ⟨some ((EpochRxSlot.fresh e nowMs).accept q nowMs).2, other⟩ g (insert (e, q) A) := by
  have hfst : (e, q) ∉ A := fun ha => by
    have := hbelow ha
    omega
  refine ⟨hfst, h.record ?_ ?_ ?_ h.graceDistinct ?_⟩
  · rintro slot' (hs | hs) hse
    · obtain rfl | hs := mem_left.1 hs
      · exact rejects_accept_self _ q
      · exact absurd hse (epoch_ne_of_find hrx (hother hs))
    · exact absurd hse (epoch_ne_of_find hgrace hs)
  · rintro slot' (hs | hs)
    · obtain rfl | hs := mem_left.1 hs
      · exact .inr ⟨rfl, fun ha => fresh_rejects (hbelow ha)⟩
      · exact .inl ⟨slot', .inl (hother hs), .refl _⟩
    · exact .inl ⟨slot', .inr hs, .refl _⟩
  · rintro cur' prev ⟨⟩ hprev
    exact epoch_ne_of_find hrx (hother hprev)
  · intro old slot' ho hs
    obtain rfl | hs := mem_left.1 hs
    · exact epoch_ne_of_find hgrace ho
    · exact h.apart ho (hother hs)

/-- What recording `q` in the slot found for its epoch leaves. -/
theorem mem_touch (hd : rx.Distinct) {slot' : EpochRxSlot}
    (hf : rx.find e = some slot) (hs : (rx.touch e q nowMs).2.Mem slot') :
    (slot'.epoch = e → slot'.window.Rejects q) ∧ ∃ old, rx.Mem old ∧ Sharper old slot' := by
  obtain ⟨hc, he, ht⟩ | ⟨hp, he, hne, ht⟩ := touch_of_find hf q nowMs
  · rw [ht] at hs
    obtain rfl | hs := mem_left.1 hs
    · exact ⟨fun _ => rejects_accept_self _ q, slot, .inl hc, sharper_accept slot q nowMs⟩
    · refine ⟨fun hse => ?_, slot', .inr hs, .refl _⟩
      exact absurd (hse.trans he.symm) (hd _ _ hc hs)
  · rw [ht] at hs
    obtain hs | rfl := mem_right.1 hs
    · exact ⟨fun hse => absurd hse (hne _ hs), slot', .inl hs, .refl _⟩
    · exact ⟨fun _ => rejects_accept_self _ q, slot, .inr hp, sharper_accept slot q nowMs⟩

theorem distinct_touch (hd : rx.Distinct) (hf : rx.find e = some slot) :
    (rx.touch e q nowMs).2.Distinct := by
  intro cur' prev' hc' hp'
  obtain ⟨hc, -, ht⟩ | ⟨hp, -, -, ht⟩ := touch_of_find hf q nowMs
  · rw [ht] at hc' hp'
    cases hc'
    exact hd slot prev' hc hp'
  · rw [ht] at hc' hp'
    cases hp'
    exact hd cur' slot hc' hp

theorem mem_of_find (hf : rx.find e = some slot) : rx.Mem slot ∧ slot.epoch = e := by
  obtain ⟨he, hc | ⟨-, hp⟩⟩ := find_eq_some_iff.1 hf
  · exact ⟨.inl hc, he⟩
  · exact ⟨.inr hp, he⟩

/-- **A datagram recorded in the slot of its epoch** was not accepted before and is accounted for
afterwards. -/
theorem touch_rx (h : RxInv rx g A) (nowMs : UInt64) (hf : rx.find e = some slot)
    (hcan : slot.window.canAccept q = true) :
    (e, q) ∉ A ∧ RxInv (rx.touch e q nowMs).2 g (insert (e, q) A) := by
  obtain ⟨hmem, rfl⟩ := mem_of_find hf
  refine ⟨h.not_mem_of_canAccept (.inl hmem) hcan,
    h.record ?_ ?_ (distinct_touch h.distinct hf) h.graceDistinct ?_⟩
  · rintro slot' (hs | hs) hse
    · exact (mem_touch h.distinct hf hs).1 hse
    · exact absurd hse (h.apart hs hmem)
  · rintro slot' (hs | hs)
    · obtain ⟨old, hold, hsharp⟩ := (mem_touch h.distinct hf hs).2
      exact .inl ⟨old, .inl hold, hsharp⟩
    · exact .inl ⟨slot', .inr hs, .refl _⟩
  · intro old slot' ho hs
    obtain ⟨slot₀, hslot₀, heq, -⟩ := (mem_touch h.distinct hf hs).2
    rw [heq]
    exact h.apart ho hslot₀

/-- The same for a datagram whose epoch a grace slot holds. -/
theorem touch_grace (h : RxInv rx g A) (nowMs : UInt64) (hf : g.find e = some slot)
    (hcan : slot.window.canAccept q = true) :
    (e, q) ∉ A ∧ RxInv rx (g.touch e q nowMs).2 (insert (e, q) A) := by
  obtain ⟨hnot, hinv⟩ := h.swap.touch_rx nowMs hf hcan
  exact ⟨hnot, hinv.swap⟩

/-- **A datagram that the slots accept** was not accepted before and is accounted for afterwards, if
a window it starts is the only one of its epoch and starts far above what was accepted in it. -/
theorem accept (h : RxInv rx g A) {sendEpoch : UInt32} (nowMs : UInt64)
    (hcan : rx.canAccept sendEpoch e q = true) (hgrace : g.find e = none)
    (hstart : rx.cur = none ∨ rx.find e = none →
      rx.find e = none ∧ ∀ {q'}, (e, q') ∈ A → q'.toNat + 256 ≤ q.toNat) :
    (e, q) ∉ A ∧ RxInv (rx.accept sendEpoch e q nowMs).2 g (insert (e, q) A) := by
  obtain ⟨hc, hacc⟩ | ⟨slot, hf, hw, hacc⟩ | ⟨cur, hc, hf, hacc⟩ := accept_cases hcan nowMs
  · obtain ⟨hf, hbelow⟩ := hstart (.inl hc)
    rw [hacc]
    exact h.start nowMs hgrace hf hbelow .inr
  · rw [hacc]
    exact h.touch_rx nowMs hf hw
  · rw [hacc]
    refine h.start nowMs hgrace hf (hstart (.inr hf)).2 ?_
    rintro slot ⟨⟩
    exact .inl hc

end RxInv

/-! ### The invariant of a replay state -/

/-- A datagram of this epoch would start a window: at this time no grace slot holds the epoch, and
the current slot of the direction is empty or no slot holds the epoch. -/
def ReplayState.startsWindow (r : ReplayState) (dir : SecureDatagramDirection) (epoch : UInt32)
    (nowMs : UInt64) : Bool :=
  let r := r.refresh nowMs
  ((r.graceSlots dir).find epoch).isNone &&
    ((r.rxSlots dir).cur.isNone || ((r.rxSlots dir).find epoch).isNone)

/-- `RxInv` in both directions. -/
def ReplayInv (r : ReplayState) (A : SecureDatagramDirection → Set (UInt32 × UInt64)) : Prop :=
  ∀ dir, RxInv (r.rxSlots dir) (r.graceSlots dir) (A dir)

namespace ReplayInv

variable {r : ReplayState} {A : SecureDatagramDirection → Set (UInt32 × UInt64)}
  {dir : SecureDatagramDirection} {sendEpoch e : UInt32} {q nowMs : UInt64}

theorem refresh (h : ReplayInv r A) (nowMs : UInt64) : ReplayInv (r.refresh nowMs) A := by
  intro dir
  rw [refresh_rxSlots]
  obtain hg | hg := r.graceSlots_refresh dir nowMs
  · rw [hg]
    exact (h dir).sub (evictOld_sub _ nowMs) (empty_sub _)
  · rw [hg]
    exact (h dir).sub (evictOld_sub _ nowMs) (evictOld_sub _ nowMs)

theorem sync_true (h : ReplayInv r A) (nowMs : UInt64) : ReplayInv (r.sync true nowMs) A := by
  intro dir
  simp only [sync, graceSlots, if_true]
  split_ifs
  · exact .empty _
  · exact (h dir).shift

theorem sync_false (r : ReplayState) (A : SecureDatagramDirection → Set (UInt32 × UInt64))
    (nowMs : UInt64) : ReplayInv (r.sync false nowMs) A :=
  fun _ => RxInv.empty _

theorem commit (h : ReplayInv r A)
    (hpre : (r.precheckReplay sendEpoch e q dir nowMs).1 = true)
    (hstart : r.startsWindow dir e nowMs = true → ((r.refresh nowMs).rxSlots dir).find e = none ∧
        ∀ {q'}, (e, q') ∈ A dir → q'.toNat + 256 ≤ q.toNat) :
    (e, q) ∉ A dir ∧ ReplayInv ((r.refresh nowMs).commitReplay sendEpoch e q dir nowMs).2
        (Function.update A dir (insert (e, q) (A dir))) := by
  have hr := h.refresh nowMs
  have hrr := r.refresh_refresh nowMs
  unfold precheckReplay at hpre
  unfold startsWindow at hstart
  generalize r.refresh nowMs = r' at *
  cases hf : (r'.graceSlots dir).find e with
  | some slot =>
    simp only [hf] at hpre
    obtain ⟨hnot, hinv⟩ := (hr dir).touch_grace nowMs hf hpre
    refine ⟨hnot, fun d => ?_⟩
    rw [commitReplay_of_grace (by rw [hrr]; exact hf), hrr]
    have hg := r'.graceSlots_update dir ((r'.graceSlots dir).touch e q nowMs).2
      (fun hz => by rw [hz] at hf; cases hf) d
    rw [hg]
    by_cases hd : d = dir
    · subst hd
      simpa using hinv
    · simpa [hd] using hr d
  | none =>
    simp only [hf] at hpre
    obtain ⟨hnot, hinv⟩ := (hr dir).accept nowMs hpre hf
      fun hs => hstart (by simpa [hf] using hs)
    refine ⟨hnot, fun d => ?_⟩
    rw [commitReplay_of_rx (by rw [hrr]; exact hf), hrr]
    by_cases hd : d = dir
    · subst hd
      simpa using hinv
    · simpa [hd] using hr d

end ReplayInv

/-! ### Runs of a session -/

inductive SessionOp
  | encrypt (dir : SecureDatagramDirection) (pkt : Packet) (nowMs : UInt64)
  | decrypt (dir : SecureDatagramDirection) (pkt : Packet) (nowMs : UInt64)
  | syncRootKey (rootKey : Key32) (generation initialEpoch : UInt32) (preserveRxGrace : Bool)
      (nowMs : UInt64)
  | setIdentityBinding (localStaticPubkey remoteStaticPubkey : List UInt8)
  | invalidate

def SecureDatagramSession.rxId (s : SecureDatagramSession) (dir : SecureDatagramDirection)
    (nonce : UInt32 × UInt64) : DatagramId :=
  ⟨s.rootKey, s.sessionGeneration, dir, nonce.1, nonce.2⟩

structure RxRun where
  session : SecureDatagramSession
  accepted : List DatagramId

namespace RxRun

variable (C : CryptoSuite)

/-- One operation; a packet that `decryptPayload` returns enters the log. -/
def step (st : RxRun) : SessionOp → RxRun
  | .encrypt dir pkt nowMs => { st with session := (st.session.encryptPayload C dir pkt nowMs).2 }
  | .decrypt dir pkt nowMs =>
    { session := (st.session.decryptPayload C dir pkt nowMs).2
      accepted := match (st.session.decryptPayload C dir pkt nowMs).1, parseTail pkt.payload with
        | .ok _, some nonce => st.session.rxId dir nonce :: st.accepted
        | _, _ => st.accepted }
  | .syncRootKey rootKey generation initialEpoch preserveRxGrace nowMs =>
    { st with session :=
        st.session.syncRootKey rootKey generation initialEpoch preserveRxGrace nowMs }
  | .setIdentityBinding localKey remoteKey =>
    { st with session := st.session.setIdentityBinding localKey remoteKey }
  | .invalidate => { st with session := st.session.invalidate }

def sys : Trans RxRun SessionOp := .ofFun (step C)

/-- An accepted datagram that starts a window finds no window of its epoch, and its number is at
least 256 above all accepted before in its epoch and direction under its root key. -/
def StartsAbove (st : RxRun) : SessionOp → Prop
  | .decrypt dir pkt nowMs => ∀ nonce, parseTail pkt.payload = some nonce →
      (∃ pkt', (st.session.decryptPayload C dir pkt nowMs).1 = .ok pkt') →
      st.session.replay.startsWindow dir nonce.1 nowMs = true →
      ((st.session.replay.refresh nowMs).rxSlots dir).find nonce.1 = none ∧
        ∀ id ∈ st.accepted, id.rootKey = st.session.rootKey → id.dir = dir → id.epoch = nonce.1 →
          id.seq.toNat + 256 ≤ nonce.2.toNat
  | _ => True

/-- The epochs and numbers accepted in a direction under a root key. -/
def acceptedUnder (log : List DatagramId) (rootKey : Key32) (dir : SecureDatagramDirection) :
    Set (UInt32 × UInt64) :=
  { nonce | ∃ id ∈ log, id.rootKey = rootKey ∧ id.dir = dir ∧ (id.epoch, id.seq) = nonce }

structure Inv (st : RxRun) : Prop where
  nodup : st.accepted.Nodup
  replay : ReplayInv st.session.replay (acceptedUnder st.accepted st.session.rootKey)

variable {C} {st : RxRun}

theorem acceptedUnder_cons (log : List DatagramId) (rootKey : Key32) (generation : UInt32)
    (dir : SecureDatagramDirection) (nonce : UInt32 × UInt64) :
    acceptedUnder (⟨rootKey, generation, dir, nonce.1, nonce.2⟩ :: log) rootKey =
      Function.update (acceptedUnder log rootKey) dir
        (insert nonce (acceptedUnder log rootKey dir)) := by
  funext d
  ext x
  by_cases hd : d = dir
  · subst hd
    simp [acceptedUnder, eq_comm]
  · simp [acceptedUnder, hd, Ne.symm hd]

theorem Inv.of_same {s' : SecureDatagramSession} (h : st.Inv)
    (hkey : s'.rootKey = st.session.rootKey) (hreplay : s'.replay = st.session.replay) :
    Inv { st with session := s' } := ⟨h.nodup, by simpa only [hkey, hreplay] using h.replay⟩

theorem Inv.decrypt (h : st.Inv) {dir : SecureDatagramDirection} {pkt : Packet}
    (habove : st.StartsAbove C (.decrypt dir pkt nowMs)) :
    (st.step C (.decrypt dir pkt nowMs)).Inv := by
  obtain ⟨cipher, cache, -, heq⟩ := st.session.decryptPayload_settle C dir pkt nowMs
  simp only [step, heq]
  cases hv : st.session.verdictWith C cipher dir pkt nowMs with
  | stopped e => exact h
  | rejected => exact ⟨h.nodup, h.replay.refresh nowMs⟩
  | refused e => exact ⟨h.nodup, h.replay.refresh nowMs⟩
  | accepted epoch seq pkt' =>
    obtain ⟨-, htail, hpre, -⟩ := of_verdictWith_accepted hv
    have hok : (st.session.decryptPayload C dir pkt nowMs).1 = .ok pkt' := by rw [heq, hv]; rfl
    simp only [settle, htail]
    have hstart : st.session.replay.startsWindow dir epoch nowMs = true →
        ((st.session.replay.refresh nowMs).rxSlots dir).find epoch = none ∧
          ∀ {q'}, (epoch, q') ∈ acceptedUnder st.accepted st.session.rootKey dir →
            q'.toNat + 256 ≤ seq.toNat := by
      intro hs
      obtain ⟨hf, hbelow⟩ := habove (epoch, seq) htail ⟨pkt', hok⟩ hs
      refine ⟨hf, ?_⟩
      rintro q' ⟨id, hid, hkey, hdir, hn⟩
      cases hn
      exact hbelow id hid hkey hdir rfl
    obtain ⟨hnot, hinv⟩ := h.replay.commit hpre hstart
    refine ⟨List.nodup_cons.2 ⟨fun hmem => hnot ⟨_, hmem, rfl, rfl, rfl⟩, h.nodup⟩, ?_⟩
    rw [rxId, acceptedUnder_cons]
    exact hinv

theorem Inv.step (h : st.Inv) {op : SessionOp} (habove : st.StartsAbove C op) :
    (st.step C op).Inv := by
  cases op with
  | encrypt dir pkt nowMs =>
    obtain ⟨-, he⟩ | ⟨cache, invalid, started, packets, epoch, -, -, -, he⟩ :=
      st.session.encryptPayload_cases C dir pkt nowMs
    · exact h.of_same (by rw [he]) (by rw [he])
    · exact h.of_same (by rw [he]) (by rw [he])
  | decrypt dir pkt nowMs => exact h.decrypt habove
  | syncRootKey rootKey generation initialEpoch preserveRxGrace nowMs =>
    refine ⟨h.nodup, ?_⟩
    simp only [RxRun.step, SecureDatagramSession.syncRootKey]
    by_cases hp : preserveRxGrace && st.session.rootKey == rootKey
    · obtain ⟨-, hkey⟩ := Bool.and_eq_true_iff.1 hp
      obtain rfl := eq_of_beq hkey
      rw [hp]
      exact h.replay.sync_true nowMs
    · rw [Bool.not_eq_true] at hp
      rw [hp]
      exact ReplayInv.sync_false _ _ nowMs
  | setIdentityBinding localKey remoteKey =>
    obtain ⟨binding, hb⟩ := st.session.setIdentityBinding_eq localKey remoteKey
    exact h.of_same (by rw [hb]) (by rw [hb])
  | invalidate => exact h.of_same rfl rfl

end RxRun

/-- **No datagram is accepted twice** along a run in which every window is started in an epoch that
no slot holds, 256 numbers or more above what was accepted in it. -/
theorem accepted_nodup_of_startsAbove (C : CryptoSuite) (rootKey : Key32)
    (generation initialEpoch : UInt32) (sendAlgorithm recvAlgorithm : String)
    (kdfContext : Option SecureDatagramKdfContext) (nowMs : UInt64) (ops : List SessionOp)
    (st : RxRun)
    (hrun : ((RxRun.sys C).guard (RxRun.StartsAbove C)).Run
      ⟨.newWithKdfContext rootKey generation initialEpoch sendAlgorithm recvAlgorithm kdfContext
        nowMs, []⟩ ops st) : st.accepted.Nodup := by
  have hinv : st.Inv := by
    refine hrun.invariant ⟨List.nodup_nil, fun _ => RxInv.empty _⟩ ?_
    rintro st op st' hst ⟨habove, rfl⟩
    exact hst.step habove
  exact hinv.nodup

/-! ### Silent epochs -/

/-- A session at epoch `epoch`, the same on both sides. -/
def sampleSession (epoch : UInt32) : SecureDatagramSession :=
  .newWithKdfContext (key32 0) 1 epoch "aes-gcm" "aes-gcm" none 0

/-- What the other side sends for `samplePacket` as datagram `seq` of an epoch. -/
def sampleDatagram (epoch : UInt32) (seq : UInt64) : Packet where
  hdr := samplePacket.hdr.setEncrypted true
  payload := List.replicate 16 0 ++ nonceBytes epoch seq

/-- A datagram arrives: its epoch, number and time. -/
def arrival (d : UInt32 × UInt64 × UInt64) : SessionOp :=
  .decrypt .aToB (sampleDatagram d.1 d.2.1) d.2.2

/-- The session after the datagrams have arrived. -/
def arrivals (ds : List (UInt32 × UInt64 × UInt64)) : RxRun :=
  (ds.map arrival).foldl (RxRun.step transparentSuite) ⟨sampleSession 0, []⟩

/-- The window of epoch `0` is live when its datagram `1` comes again after a second and a half, but
epoch `1` has been silent for 30 seconds: the current slot is empty, and the datagram is accepted
a second time. -/
theorem accepts_twice_past_live_window :
    (((sampleSession 0).encryptPayload transparentSuite .aToB samplePacket 0).2.encryptPayload
        transparentSuite .aToB samplePacket 0).1.toOption = some (sampleDatagram 0 1) ∧
      (((arrivals [(0, 0, 1000), (1, 0, 2000), (0, 1, 31000)]).session.replay.refresh
        32500).rxSlots .aToB).prev.any (fun slot => !slot.window.canAccept 1) = true ∧
      ¬ (arrivals [(0, 0, 1000), (1, 0, 2000), (0, 1, 31000), (0, 1, 32500)]).accepted.Nodup := by
  decide +kernel

theorem startsAbove_arrival {st : RxRun} {d : UInt32 × UInt64 × UInt64}
    (htail : parseTail (sampleDatagram d.1 d.2.1).payload = some (d.1, d.2.1))
    (h : st.session.replay.startsWindow .aToB d.1 d.2.2 = true →
      ((st.session.replay.refresh d.2.2).rxSlots .aToB).find d.1 = none ∧
        ∀ id ∈ st.accepted, id.epoch = d.1 → id.seq.toNat + 256 ≤ d.2.1.toNat) :
    st.StartsAbove transparentSuite (arrival d) := by
  intro nonce hn _ hs
  obtain rfl : (d.1, d.2.1) = nonce := Option.some.inj (htail.symm.trans hn)
  exact ⟨(h hs).1, fun id hid _ _ => (h hs).2 id hid⟩

/-- After the same silence a datagram of a new epoch starts a window, and the log stays free of
duplicates. -/
theorem accepted_nodup_new_epoch_after_idle :
    (arrivals [(0, 0, 1000), (1, 0, 2000), (0, 1, 31000), (2, 0, 32500)]).accepted.length = 4 ∧
      (arrivals [(0, 0, 1000), (1, 0, 2000), (0, 1, 31000), (2, 0, 32500)]).accepted.Nodup := by
  refine ⟨by decide +kernel, accepted_nodup_of_startsAbove transparentSuite _ 1 0 _ _ none 0
    ([(0, 0, 1000), (1, 0, 2000), (0, 1, 31000), (2, 0, 32500)].map arrival) _ <|
    .cons ⟨startsAbove_arrival ?_ ?_, rfl⟩ <| .cons ⟨startsAbove_arrival ?_ ?_, rfl⟩ <|
    .cons ⟨startsAbove_arrival ?_ ?_, rfl⟩ <| .cons ⟨startsAbove_arrival ?_ ?_, rfl⟩ .nil⟩
  all_goals decide +kernel

/-! ### Cached keys -/

namespace SecureDatagramSession

def Cached (s : SecureDatagramSession) (dir : SecureDatagramDirection) (slot : EpochKeySlot) : Prop :=
  (s.keyCache dir).fst = some slot ∨ (s.keyCache dir).snd = some slot

/-- Every cached slot holds the ciphers that its epoch, direction and generation give now. -/
def KeysCurrent (C : CryptoSuite) (s : SecureDatagramSession) : Prop :=
  ∀ dir slot, s.Cached dir slot →
    let s := { s with sessionGeneration := slot.generation }
    slot.sendCipher = s.derivedCipher C slot.epoch dir true ∧
      slot.recvCipher = s.derivedCipher C slot.epoch dir false

namespace KeysCurrent

variable {C : CryptoSuite} {s : SecureDatagramSession}

theorem of_not_cached (h : ∀ dir slot, ¬ s.Cached dir slot) : s.KeysCurrent C :=
  fun dir slot hslot => absurd hslot (h dir slot)

variable (h : s.KeysCurrent C)
  (dir : SecureDatagramDirection) (pkt : Packet) (nowMs : UInt64)

include h

theorem getOrCreateEncryptor (epoch : UInt32) (isSend : Bool) :
    (s.getOrCreateEncryptor C epoch dir s.sessionGeneration isSend).2.KeysCurrent C := by
  unfold SecureDatagramSession.getOrCreateEncryptor
  split
  · exact h
  · intro d slot hslot
    simp only [Cached, Function.update_apply] at hslot
    split at hslot
    · next hd =>
      subst hd
      -- one place holds the new slot, the other what it held before
      split at hslot
      · obtain ⟨⟨⟩⟩ | hold := hslot
        · exact ⟨rfl, rfl⟩
        · exact h d slot (.inr hold)
      · split at hslot
        · obtain ⟨⟨⟩⟩ | hold := hslot
          · exact ⟨rfl, rfl⟩
          · exact h d slot (.inr hold)
        · obtain hold | ⟨⟨⟩⟩ := hslot
          · exact h d slot (.inl hold)
          · exact ⟨rfl, rfl⟩
    · exact h d slot hslot

theorem pruneKeyCache : s.pruneKeyCache.KeysCurrent C :=
  fun d slot hslot => h d slot
    (hslot.imp Option.eq_some_of_filter_eq_some Option.eq_some_of_filter_eq_some)

theorem encryptPayload : (s.encryptPayload C dir pkt nowMs).2.KeysCurrent C := by
  have hsent : KeysCurrent C (s.nextNonce dir nowMs).2.2 := by
    obtain ⟨_, _, _, -, hn⟩ := s.nextNonce_eq dir nowMs
    rw [hn]
    exact h
  have hcache := hsent.getOrCreateEncryptor dir (s.nextNonce dir nowMs).1 true
  unfold SecureDatagramSession.encryptPayload
  split
  · exact h
  · simp only
    split <;> exact hcache

theorem decryptPayload : (s.decryptPayload C dir pkt nowMs).2.KeysCurrent C := by
  unfold SecureDatagramSession.decryptPayload
  split
  · exact h
  · split
    · exact h
    · next epoch seq _ =>
      have hcache := getOrCreateEncryptor (s := { s with
        replay := (s.replay.precheckReplay s.sendEpoch epoch seq dir nowMs).2 }) h dir epoch false
      simp only
      split
      · exact h
      · split
        · split <;> exact hcache
        · split <;> exact pruneKeyCache hcache

end KeysCurrent

end SecureDatagramSession

/-- A binding that changes the session comes while nothing is cached. -/
def RxRun.BindsUnused (st : RxRun) : SessionOp → Prop
  | .setIdentityBinding localKey remoteKey =>
    st.session.setIdentityBinding localKey remoteKey = st.session ∨
      ∀ dir slot, ¬ st.session.Cached dir slot
  | _ => True

/-- **Cached traffic keys are current** along a run in which the identities are bound before the
first key is cached. -/
theorem cached_keys_current_of_bindsUnused (C : CryptoSuite) (rootKey : Key32)
    (generation initialEpoch : UInt32) (sendAlgorithm recvAlgorithm : String)
    (kdfContext : Option SecureDatagramKdfContext) (nowMs : UInt64) (ops : List SessionOp)
    (st : RxRun) (hrun : ((RxRun.sys C).guard RxRun.BindsUnused).Run
      ⟨.newWithKdfContext rootKey generation initialEpoch sendAlgorithm recvAlgorithm kdfContext
        nowMs, []⟩ ops st) : st.session.KeysCurrent C := by
  refine hrun.invariant (I := fun st => st.session.KeysCurrent C) ?_ ?_
  · exact .of_not_cached (by simp [Cached, newWithKdfContext])
  · rintro st op st' hst ⟨hbinds, rfl⟩
    cases op with
    | encrypt dir pkt nowMs => exact hst.encryptPayload dir pkt nowMs
    | decrypt dir pkt nowMs => exact hst.decryptPayload dir pkt nowMs
    | syncRootKey => exact .of_not_cached (by simp [Cached, RxRun.step, syncRootKey])
    | setIdentityBinding localKey remoteKey =>
      obtain hsame | hunused := hbinds
      · simp only [RxRun.step, hsame]
        exact hst
      · obtain ⟨binding, hb⟩ := st.session.setIdentityBinding_eq localKey remoteKey
        simp only [RxRun.step, hb]
        exact .of_not_cached hunused
    | invalidate => exact hst

/-- A suite whose keys show the last bytes they are derived from. -/
def suffixSuite : CryptoSuite := { transparentSuite with hmacSha256 := fun _ msg => msg.reverse }

def bindSample : SessionOp := .setIdentityBinding (List.replicate 32 7) (List.replicate 32 9)

def boundFirst : List SessionOp := [bindSample, .encrypt .aToB samplePacket 0]

def bindRun (ops : List SessionOp) : RxRun :=
  ops.foldl (RxRun.step suffixSuite) ⟨sampleSession 0, []⟩

theorem keys_current_bound_first :
    ((bindRun boundFirst).session.keyCache .aToB).fst.isSome = true ∧
      (bindRun boundFirst).session.KeysCurrent suffixSuite := by
  refine ⟨by decide +kernel, cached_keys_current_of_bindsUnused _ _ _ _ _ _ _ _ boundFirst _
    (.cons ⟨Or.inr ?_, rfl⟩ (.cons ⟨trivial, rfl⟩ .nil))⟩
  simp [Cached, newWithKdfContext]

theorem stale_key_of_bound_late :
    ¬ (bindRun [.encrypt .aToB samplePacket 0, bindSample]).session.KeysCurrent suffixSuite := by
  set s := (bindRun [.encrypt .aToB samplePacket 0, bindSample]).session
  intro h
  obtain ⟨slot, hslot, hne⟩ : ∃ slot ∈ (s.keyCache .aToB).fst, slot.sendCipher ≠ derivedCipher
      suffixSuite { s with sessionGeneration := slot.generation } slot.epoch .aToB true := by
    decide +kernel
  exact hne (h .aToB slot (.inl hslot)).1

end PactMesh
