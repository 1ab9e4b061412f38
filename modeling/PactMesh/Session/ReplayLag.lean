import PactMesh.Session.ReplayState

/-!
# Replay states that differ only in what has expired

Every replay check first drops what has expired, so a check that records nothing still leaves a trace:
slots are dropped earlier than they would have been.  This module shows that nobody can tell.
-/

namespace PactMesh

theorem EpochRxSlot.idle_of_le {slot : EpochRxSlot} {t t' : UInt64} (ht : t ≤ t')
    (h : slot.idle t = true) : slot.idle t' = true := by
  rw [idle, Bool.and_eq_true, decide_eq_true_eq] at h ⊢
  refine ⟨h.1, UInt64.lt_of_lt_of_le h.2 ?_⟩
  rw [UInt64.le_iff_toNat_le] at ht ⊢
  rw [toNat_satSub, toNat_satSub]
  exact Nat.sub_le_sub_right ht _

theorem RxSlots.evictOld_evictOld_of_le {rx : RxSlots} {t t' : UInt64} (ht : t ≤ t') :
    (rx.evictOld t).evictOld t' = rx.evictOld t' := by
  have hidle : ∀ slot : EpochRxSlot, (!slot.idle t && !slot.idle t') = !slot.idle t' := by
    intro slot
    cases h : slot.idle t with
    | false => rfl
    | true => rw [EpochRxSlot.idle_of_le ht h]; rfl
  simp [evictOld, Option.filter_filter, hidle]

namespace ReplayState

variable {r r₁ r₂ : ReplayState} {t t' : UInt64}

structure Same (r₁ r₂ : ReplayState) : Prop where
  rxSlots : r₁.rxSlots = r₂.rxSlots
  expires : r₁.syncRxGraceExpiresAtMs = r₂.syncRxGraceExpiresAtMs
  grace : r₁.syncRxGraceExpiresAtMs ≠ 0 → r₁.syncRxGrace = r₂.syncRxGrace

theorem Same.refl (r : ReplayState) : Same r r := ⟨rfl, rfl, fun _ => rfl⟩

theorem Same.trans {r₃ : ReplayState} (h₁ : Same r₁ r₂) (h₂ : Same r₂ r₃) : Same r₁ r₃ :=
  ⟨h₁.rxSlots.trans h₂.rxSlots, h₁.expires.trans h₂.expires,
    fun hne => (h₁.grace hne).trans (h₂.grace (h₁.expires ▸ hne))⟩

theorem Same.eq_of_ne (h : Same r₁ r₂) (hne : r₁.syncRxGraceExpiresAtMs ≠ 0) : r₁ = r₂ := by
  obtain ⟨rx₁, g₁, e₁⟩ := r₁
  obtain ⟨rx₂, g₂, e₂⟩ := r₂
  obtain ⟨hrx, he, hg⟩ := h
  cases hrx
  cases he
  cases hg hne
  rfl

theorem Same.of_expired (hrx : r₁.rxSlots = r₂.rxSlots) (h₁ : r₁.syncRxGraceExpiresAtMs = 0)
    (h₂ : r₂.syncRxGraceExpiresAtMs = 0) : Same r₁ r₂ :=
  ⟨hrx, h₁.trans h₂.symm, fun hne => absurd h₁ hne⟩

theorem expires_refresh_of_expired (h : r.syncRxGraceExpiresAtMs = 0) :
    (r.refresh t).syncRxGraceExpiresAtMs = 0 := by
  simp [refresh, h]

theorem Same.refresh (h : Same r₁ r₂) (t : UInt64) : Same (r₁.refresh t) (r₂.refresh t) := by
  by_cases h0 : r₁.syncRxGraceExpiresAtMs = 0
  · refine .of_expired ?_ (expires_refresh_of_expired h0)
      (expires_refresh_of_expired (h.expires ▸ h0))
    funext dir
    rw [refresh_rxSlots, refresh_rxSlots, h.rxSlots]
  · rw [h.eq_of_ne h0]
    exact .refl _

theorem expires_refresh_of_le (ht : t ≤ t') (h : (r.refresh t).syncRxGraceExpiresAtMs = 0) :
    (r.refresh t').syncRxGraceExpiresAtMs = 0 := by
  obtain h' | ⟨g, hg, hne, hnow, hexp, -⟩ := r.refresh_cases t'
  · exact h'
  · have hnow := UInt64.lt_of_le_of_lt ht hnow
    have hexp := UInt64.not_le.2 (UInt64.lt_of_le_of_lt ht hexp)
    simp [ReplayState.refresh, hne, hnow, hg, hexp] at h

theorem same_refresh_refresh (ht : t ≤ t') : Same ((r.refresh t).refresh t') (r.refresh t') := by
  have hrx : ((r.refresh t).refresh t').rxSlots = (r.refresh t').rxSlots := by
    funext dir
    rw [refresh_rxSlots, refresh_rxSlots, refresh_rxSlots, RxSlots.evictOld_evictOld_of_le ht]
  obtain h0 | ⟨g, hg, hne, -, -, hr⟩ := r.refresh_cases t
  · exact .of_expired hrx (expires_refresh_of_expired h0) (expires_refresh_of_le ht h0)
  · obtain h0' | ⟨g', hg', -, hnow', hexp', hr'⟩ := r.refresh_cases t'
    · refine .of_expired hrx ?_ h0'
      -- the second refresh finds the grace period that the first one left
      obtain h | ⟨g', hg', -, hnow', hexp', -⟩ := (r.refresh t).refresh_cases t'
      · exact h
      · rw [hr] at hg' hnow'
        cases hg'
        have hexp' : ¬ g.expiresAtMs ≤ t' := UInt64.not_le.2 hexp'
        simp [ReplayState.refresh, hne, hnow', hg, hexp'] at h0'
    · cases hg.symm.trans hg'
      refine ⟨hrx, ?_, fun _ => ?_⟩
      · rw [hr, hr']
        simp [ReplayState.refresh, hne, hnow', UInt64.not_le.2 hexp']
      · rw [hr, hr']
        simp [ReplayState.refresh, hne, hnow', UInt64.not_le.2 hexp',
          RxSlots.evictOld_evictOld_of_le ht]

theorem Same.graceSlots (h : Same r₁ r₂) (dir : SecureDatagramDirection) :
    r₁.graceSlots dir = r₂.graceSlots dir := by
  by_cases h0 : r₁.syncRxGraceExpiresAtMs = 0
  · rw [graceSlots_of_expired h0, graceSlots_of_expired (h.expires ▸ h0)]
  · rw [h.eq_of_ne h0]

variable {sendEpoch epoch : UInt32} {seq : UInt64} {dir : SecureDatagramDirection}

theorem precheckReplay_fst_congr (h : Same (r₁.refresh t) (r₂.refresh t)) :
    (r₁.precheckReplay sendEpoch epoch seq dir t).1 =
      (r₂.precheckReplay sendEpoch epoch seq dir t).1 := by
  simp only [precheckReplay]
  rw [h.graceSlots dir, h.rxSlots]
  split <;> rfl

theorem same_commitReplay (h : Same (r₁.refresh t) (r₂.refresh t)) :
    Same (r₁.commitReplay sendEpoch epoch seq dir t).2
      (r₂.commitReplay sendEpoch epoch seq dir t).2 := by
  by_cases h0 : (r₁.refresh t).syncRxGraceExpiresAtMs = 0
  · have h0' : (r₂.refresh t).syncRxGraceExpiresAtMs = 0 := h.expires ▸ h0
    simp only [commitReplay, graceSlots_of_expired h0, graceSlots_of_expired h0',
      RxSlots.epochInSlots, RxSlots.find, RxSlots.empty, Option.filter_none, Option.isSome_none,
      Bool.false_eq_true, if_false]
    exact .of_expired (by rw [h.rxSlots]) h0 h0'
  · simp only [commitReplay]
    rw [h.eq_of_ne h0]
    exact .refl _

end ReplayState

end PactMesh
