import PactMesh.Session.AeadGate
import PactMesh.Session.Replay

/-!
# Datagrams in order

A sender hands out nonces one after the other (`nonceCounter`): the number counts up, and the epoch
moves on by one or not at all.  A receiver that has taken all nonces up to a position of that counter
(`RxSlots.Awaits`) takes the next one, whatever it has forgotten in between.
-/

namespace PactMesh

open Endian

namespace ReplayWindow256

variable {w : ReplayWindow256} {seq : UInt64}

theorem canAccept_of_lt (h : w.valid = true → w.maxSeq < seq) : w.canAccept seq = true := by
  unfold canAccept
  cases hv : w.valid with
  | false => rfl
  | true => simp [h hv]

theorem maxSeq_accept (h : w.valid = true → w.maxSeq < seq) : (w.accept seq).2.maxSeq = seq := by
  obtain ⟨-, heq⟩ | ⟨-, -, heq⟩ | ⟨hrej, -⟩ | ⟨hv, hle, -, -⟩ := w.accept_cases seq
  · rw [heq]
    rfl
  · rw [heq]
    rfl
  · rw [Rejects, canAccept_of_lt h] at hrej
    cases hrej
  · exact absurd (h hv) (UInt64.not_lt.2 (UInt64.le_iff_toNat_le.2 hle))

end ReplayWindow256

def nonceCounter : Trans (UInt32 × UInt64) (UInt32 × UInt64) where
  step p n p' := (n.1 = p.1 ∨ n.1 = p.1 + 1) ∧ p.1 ≤ n.1 ∧ n.2 = p.2 ∧ p.2 < p.2 + 1 ∧
    p' = (n.1, p.2 + 1)

namespace EpochRxSlot

structure Before (slot : EpochRxSlot) (p : UInt32 × UInt64) : Prop where
  epoch : slot.epoch ≤ p.1
  maxSeq : slot.window.valid = true → slot.window.maxSeq < p.2

variable {slot : EpochRxSlot} {p n p' : UInt32 × UInt64}

theorem fresh_before (epoch : UInt32) (seq nowMs : UInt64) :
    (fresh epoch nowMs).Before (epoch, seq) := ⟨UInt32.le_refl _, nofun⟩

theorem Before.step (h : slot.Before p) (hst : nonceCounter.step p n p') : slot.Before p' := by
  obtain ⟨-, hle, -, hlt, rfl⟩ := hst
  exact ⟨UInt32.le_trans h.epoch hle, fun hv => UInt64.lt_trans (h.maxSeq hv) hlt⟩

theorem Before.accept (h : slot.Before (slot.epoch, n.2)) (hn : slot.epoch = n.1)
    (hst : nonceCounter.step p n p') (nowMs : UInt64) : (slot.accept n.2 nowMs).2.Before p' := by
  obtain ⟨-, -, hseq, hlt, rfl⟩ := hst
  refine ⟨hn ▸ UInt32.le_refl _, fun _ => ?_⟩
  have hmax : (slot.accept n.2 nowMs).2.window.maxSeq = n.2 :=
    ReplayWindow256.maxSeq_accept h.maxSeq
  rw [hmax, hseq]
  exact hlt

end EpochRxSlot

namespace RxSlots

structure Awaits (rx : RxSlots) (p : UInt32 × UInt64) : Prop where
  before : ∀ slot, rx.Mem slot → slot.Before p
  cur : ∀ cur, rx.cur = some cur → cur.epoch = p.1

variable {rx : RxSlots} {p n p' : UInt32 × UInt64}

theorem empty_awaits (p : UInt32 × UInt64) : empty.Awaits p :=
  ⟨fun slot h => absurd h (not_mem_empty slot), nofun⟩

theorem awaits_mk {cur prev : Option EpochRxSlot}
    (hcur : ∀ slot, cur = some slot → slot.Before p ∧ slot.epoch = p.1)
    (hprev : ∀ slot, prev = some slot → slot.Before p) : Awaits ⟨cur, prev⟩ p := by
  refine ⟨?_, fun slot hslot => (hcur slot hslot).2⟩
  rintro slot (hslot | hslot)
  · exact (hcur slot hslot).1
  · exact hprev slot hslot

theorem Awaits.evictOld (h : rx.Awaits p) (nowMs : UInt64) : (rx.evictOld nowMs).Awaits p :=
  ⟨fun slot hslot => h.before slot ((evictOld_sub rx nowMs).mem hslot),
    fun cur hcur => h.cur cur ((evictOld_sub rx nowMs).1 cur hcur)⟩

theorem not_maxAllowedEpoch_lt {cur : EpochRxSlot} (hcur : rx.cur = some cur) (sendEpoch : UInt32) :
    ¬ rx.maxAllowedEpoch sendEpoch < cur.epoch + 1 := by
  have hbase : ∀ base : UInt32, cur.epoch ≤ base →
      ¬ satAdd32 base maxAcceptedRxEpochAhead < cur.epoch + 1 := by
    intro base hle
    have hahead : maxAcceptedRxEpochAhead.toNat = 3 := rfl
    have hlt := cur.epoch.toNat_lt
    rw [UInt32.le_iff_toNat_le] at hle
    rw [UInt32.lt_iff_toNat_lt, toNat_satAdd32, UInt32.toNat_add, UInt32.toNat_one, hahead]
    omega
  have hmax : ∀ a b : UInt32, a ≤ max a b ∧ b ≤ max a b := by
    intro a b
    have heq : max a b = if a ≤ b then b else a := rfl
    rw [heq]
    split_ifs with hab
    · exact ⟨hab, UInt32.le_refl b⟩
    · exact ⟨UInt32.le_refl a, (UInt32.le_total a b).resolve_left hab⟩
  unfold maxAllowedEpoch
  simp only [hcur]
  cases rx.prev with
  | none => exact hbase _ (hmax sendEpoch cur.epoch).2
  | some prev => exact hbase _ (UInt32.le_trans (hmax sendEpoch cur.epoch).2 (hmax _ prev.epoch).1)

/-- **The next nonce is accepted.** -/
theorem Awaits.canAccept (h : rx.Awaits p) (hst : nonceCounter.step p n p') (sendEpoch : UInt32) :
    rx.canAccept sendEpoch n.1 n.2 = true := by
  obtain ⟨hepoch, hle, hseq, -, -⟩ := hst
  unfold RxSlots.canAccept
  cases hcur : rx.cur with
  | none => rfl
  | some cur =>
    have hp := h.cur cur hcur
    cases hfind : rx.find n.1 with
    | some slot =>
      have hmem : rx.Mem slot := (find_eq_some_iff.1 hfind).2.imp id And.right
      refine ReplayWindow256.canAccept_of_lt fun hv => ?_
      rw [hseq]
      exact (h.before slot hmem).maxSeq hv
    | none =>
      -- the current slot is not of this epoch, so the epoch is the one after it
      have hne : n.1 ≠ p.1 := by
        intro heq
        rw [find_eq_some_iff.2 ⟨hp.trans heq.symm, .inl hcur⟩] at hfind
        cases hfind
      have hnext : n.1 = cur.epoch + 1 := by rw [hp, hepoch.resolve_left hne]
      have hlt : cur.epoch < n.1 := by
        rw [hp]
        exact UInt32.lt_of_le_of_ne hle hne.symm
      simp only [hlt, decide_true, Bool.true_and, Bool.not_eq_true', decide_eq_false_iff_not]
      rw [hnext]
      exact not_maxAllowedEpoch_lt hcur sendEpoch

/-- **Once it is recorded, the nonce after it is awaited.** -/
theorem Awaits.accept (h : rx.Awaits p) (hst : nonceCounter.step p n p') (sendEpoch : UInt32)
    (nowMs : UInt64) : (rx.accept sendEpoch n.1 n.2 nowMs).2.Awaits p' := by
  have hstep := hst
  obtain ⟨hepoch, hle, hseq, hlt, rfl⟩ := hst
  have hold : ∀ slot, rx.Mem slot → slot.Before (n.1, p.2 + 1) :=
    fun slot hslot => (h.before slot hslot).step hstep
  have hfresh : ((EpochRxSlot.fresh n.1 nowMs).accept n.2 nowMs).2.Before (n.1, p.2 + 1) :=
    (EpochRxSlot.fresh_before n.1 n.2 nowMs).accept rfl hstep nowMs
  have htaken : ∀ slot, rx.Mem slot → slot.epoch = n.1 →
      (slot.accept n.2 nowMs).2.Before (n.1, p.2 + 1) := by
    intro slot hslot hn
    refine EpochRxSlot.Before.accept ⟨UInt32.le_refl _, fun hv => ?_⟩ hn hstep nowMs
    rw [hseq]
    exact (h.before slot hslot).maxSeq hv
  obtain ⟨-, heq⟩ | ⟨slot, hfind, -, heq⟩ | ⟨cur, hcur, -, heq⟩ :=
    accept_cases (h.canAccept hstep sendEpoch) nowMs
  · rw [heq]
    refine awaits_mk ?_ fun slot hslot => hold slot (.inr hslot)
    rintro _ ⟨⟩
    exact ⟨hfresh, rfl⟩
  · rw [heq]
    obtain ⟨hcur, hn, ht⟩ | ⟨hprev, hn, -, ht⟩ := touch_of_find hfind n.2 nowMs
    · rw [ht]
      refine awaits_mk ?_ fun slot hslot => hold slot (.inr hslot)
      rintro _ ⟨⟩
      exact ⟨htaken slot (.inl hcur) hn, hn⟩
    · rw [ht]
      refine awaits_mk (fun cur hcur => ⟨hold cur (.inl hcur), ?_⟩) ?_
      · -- the previous slot is not newer than the current one
        have hprevle := (h.before slot (.inr hprev)).epoch
        rw [hn] at hprevle
        exact (h.cur cur hcur).trans (UInt32.le_antisymm hle hprevle)
      · rintro _ ⟨⟩
        exact htaken slot (.inr hprev) hn
  · rw [heq]
    refine awaits_mk ?_ ?_
    · rintro _ ⟨⟩
      exact ⟨hfresh, rfl⟩
    · rintro _ ⟨⟩
      exact hold cur (.inl hcur)

end RxSlots

namespace ReplayState

structure Awaits (r : ReplayState) (dir : SecureDatagramDirection) (p : UInt32 × UInt64) :
    Prop where
  noGrace : r.syncRxGraceExpiresAtMs = 0
  slots : (r.rxSlots dir).Awaits p

variable {r : ReplayState} {dir : SecureDatagramDirection} {p n p' : UInt32 × UInt64}

theorem empty_awaits (dir : SecureDatagramDirection) (p : UInt32 × UInt64) : empty.Awaits dir p :=
  ⟨rfl, RxSlots.empty_awaits p⟩

theorem Awaits.refresh (h : r.Awaits dir p) (nowMs : UInt64) : (r.refresh nowMs).Awaits dir p := by
  refine ⟨?_, ?_⟩
  · simp only [ReplayState.refresh, h.noGrace, if_true]
  · rw [refresh_rxSlots]
    exact h.slots.evictOld nowMs

theorem Awaits.find_graceSlots (h : r.Awaits dir p) (epoch : UInt32) :
    (r.graceSlots dir).find epoch = none := by
  rw [graceSlots_of_expired h.noGrace]
  rfl

theorem precheckReplay_of_awaits (h : r.Awaits dir p) (hst : nonceCounter.step p n p')
    (sendEpoch : UInt32) (nowMs : UInt64) :
    (r.precheckReplay sendEpoch n.1 n.2 dir nowMs).1 = true := by
  simp only [precheckReplay, (h.refresh nowMs).find_graceSlots]
  exact (h.refresh nowMs).slots.canAccept hst sendEpoch

theorem Awaits.commitReplay (h : r.Awaits dir p) (hst : nonceCounter.step p n p')
    (sendEpoch : UInt32) (nowMs : UInt64) :
    (r.commitReplay sendEpoch n.1 n.2 dir nowMs).2.Awaits dir p' := by
  rw [commitReplay_of_rx ((h.refresh nowMs).find_graceSlots n.1)]
  refine ⟨(h.refresh nowMs).noGrace, ?_⟩
  simp only [Function.update_self]
  exact (h.refresh nowMs).slots.accept hst sendEpoch nowMs

end ReplayState

namespace SecureDatagramSession

variable {C : CryptoSuite} {s : SecureDatagramSession} {dir : SecureDatagramDirection}

def BelowLimits (s : SecureDatagramSession) (dir : SecureDatagramDirection) (nowMs : UInt64) :
    Prop := s.sendEpoch ≤ (s.nextNonce dir nowMs).1 ∧ s.sendSeq dir < s.sendSeq dir + 1

theorem nonceCounter_nextNonce {nowMs : UInt64} (h : s.BelowLimits dir nowMs) :
    nonceCounter.step (s.sendEpoch, s.sendSeq dir)
      ((s.nextNonce dir nowMs).1, (s.nextNonce dir nowMs).2.1)
      ((s.nextNonce dir nowMs).2.2.sendEpoch, (s.nextNonce dir nowMs).2.2.sendSeq dir) := by
  obtain ⟨hepoch, hseq⟩ := h
  obtain ⟨started, packets, epoch, he, hn⟩ := s.nextNonce_eq dir nowMs
  rw [hn] at hepoch ⊢
  exact ⟨he, hepoch, rfl, hseq, by simp⟩

end SecureDatagramSession

end PactMesh
