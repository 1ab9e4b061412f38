import PactMesh.Lib.Saturating
import PactMesh.Session.ReplayWindow
import Mathlib.Logic.Function.Basic

/-!
# Receive slots

What a session remembers of the datagrams it has accepted: for each direction the windows of the
current and the previous epoch, and, for a short time after a resynchronisation, a copy of the
windows it replaced (`SyncRxGrace`).  Slots that the source marks with a `valid` flag are `Option`s.

A datagram is checked before (`precheckReplay`) and after (`commitReplay`) it is decrypted.
-/

namespace PactMesh

open Option Function

inductive SecureDatagramDirection
  | aToB
  | bToA
deriving DecidableEq

def evictIdleAfterMs : UInt64 := 30000

def syncRxGraceAfterMs : UInt64 := 5000

def maxAcceptedRxEpochAhead : UInt32 := 3

structure EpochRxSlot where
  epoch : UInt32
  window : ReplayWindow256
  lastRxMs : UInt64
deriving DecidableEq

namespace EpochRxSlot

def fresh (epoch : UInt32) (nowMs : UInt64) : EpochRxSlot := ⟨epoch, .empty, nowMs⟩

def idle (slot : EpochRxSlot) (nowMs : UInt64) : Bool :=
  slot.lastRxMs != 0 && decide (evictIdleAfterMs < satSub nowMs slot.lastRxMs)

def accept (slot : EpochRxSlot) (seq nowMs : UInt64) : Bool × EpochRxSlot :=
  ((slot.window.accept seq).1, { slot with lastRxMs := nowMs, window := (slot.window.accept seq).2 })

theorem accept_fst (slot : EpochRxSlot) (seq nowMs : UInt64) :
    (slot.accept seq nowMs).1 = slot.window.canAccept seq := ReplayWindow256.accept_fst seq

theorem fresh_canAccept (epoch : UInt32) (seq nowMs : UInt64) :
    (fresh epoch nowMs).window.canAccept seq = true := by
  simp [fresh, ReplayWindow256.canAccept, ReplayWindow256.empty]

end EpochRxSlot

structure RxSlots where
  cur : Option EpochRxSlot
  prev : Option EpochRxSlot
deriving DecidableEq

namespace RxSlots

def empty : RxSlots := ⟨none, none⟩

def Mem (rx : RxSlots) (slot : EpochRxSlot) : Prop := rx.cur = some slot ∨ rx.prev = some slot

def evictOld (rx : RxSlots) (nowMs : UInt64) : RxSlots where
  cur := rx.cur.filter fun slot => !slot.idle nowMs
  prev := rx.prev.filter fun slot => !slot.idle nowMs

def find (rx : RxSlots) (epoch : UInt32) : Option EpochRxSlot :=
  match rx.cur.filter fun slot => slot.epoch == epoch with
  | some slot => some slot
  | none => rx.prev.filter fun slot => slot.epoch == epoch

/-- Whether one of the slots holds the epoch (`epoch_in_slots`). -/
def epochInSlots (rx : RxSlots) (epoch : UInt32) : Bool := (rx.find epoch).isSome

def touch (rx : RxSlots) (epoch : UInt32) (seq nowMs : UInt64) : Bool × RxSlots :=
  match rx.cur.filter fun slot => slot.epoch == epoch with
  | some slot =>
    ((slot.accept seq nowMs).1, { rx with cur := some (slot.accept seq nowMs).2 })
  | none =>
    match rx.prev.filter fun slot => slot.epoch == epoch with
    | some slot =>
      ((slot.accept seq nowMs).1, { rx with prev := some (slot.accept seq nowMs).2 })
    | none => (false, rx)

def maxAllowedEpoch (rx : RxSlots) (sendEpoch : UInt32) : UInt32 :=
  let baselineEpoch := match rx.cur with
    | some slot => max sendEpoch slot.epoch
    | none => sendEpoch
  let baselineEpoch := match rx.prev with
    | some slot => max baselineEpoch slot.epoch
    | none => baselineEpoch
  satAdd32 baselineEpoch maxAcceptedRxEpochAhead

def canAccept (rx : RxSlots) (sendEpoch epoch : UInt32) (seq : UInt64) : Bool :=
  match rx.cur with
  | none => true
  | some cur =>
    match rx.find epoch with
    | some slot => slot.window.canAccept seq
    | none => decide (cur.epoch < epoch) && !decide (rx.maxAllowedEpoch sendEpoch < epoch)

/-- Record a datagram: an empty current slot is opened for its epoch, an epoch in use goes to its
slot, a newer epoch becomes the current one. -/
def accept (rx : RxSlots) (sendEpoch epoch : UInt32) (seq nowMs : UInt64) : Bool × RxSlots :=
  match rx.cur with
  | none => { rx with cur := some (.fresh epoch nowMs) }.touch epoch seq nowMs
  | some cur =>
    if rx.epochInSlots epoch then rx.touch epoch seq nowMs
    else if cur.epoch < epoch then
      if rx.maxAllowedEpoch sendEpoch < epoch then (false, rx)
      else
        let slot := (EpochRxSlot.fresh epoch nowMs).accept seq nowMs
        (slot.1, ⟨some slot.2, some cur⟩)
    else (false, rx)

variable {rx : RxSlots}

@[simp] theorem not_mem_empty (slot : EpochRxSlot) : ¬ empty.Mem slot := by simp [Mem, empty]

@[simp] theorem evictOld_evictOld (nowMs : UInt64) :
    (rx.evictOld nowMs).evictOld nowMs = rx.evictOld nowMs := by
  simp [evictOld, filter_filter]

variable {epoch : UInt32} {slot : EpochRxSlot}

theorem filter_epoch_eq_some_iff {x : Option EpochRxSlot} :
    x.filter (fun slot => slot.epoch == epoch) = some slot ↔ x = some slot ∧ slot.epoch = epoch := by
  rw [filter_eq_some_iff, beq_iff_eq]

theorem filter_epoch_eq_none_iff {x : Option EpochRxSlot} :
    x.filter (fun slot => slot.epoch == epoch) = none ↔ ∀ slot, x = some slot → slot.epoch ≠ epoch := by
  simp [filter_eq_none_iff]

/-- What is found in the first of two places, and else in the second. -/
theorem found_iff {α : Type} {x found : Option α} (y : Option α) {p : α → Bool} {a : α}
    (hfst : ∀ b, x.filter p = some b → found = some b)
    (hsnd : x.filter p = none → found = y.filter p) :
    found = some a ↔ p a ∧ (x = some a ∨ (∀ b, x = some b → ¬ p b) ∧ y = some a) := by
  cases h : x.filter p with
  | some b =>
    obtain ⟨hb, hp⟩ := filter_eq_some_iff.1 h
    rw [hfst b h]
    constructor
    · rintro ⟨⟩
      exact ⟨hp, .inl hb⟩
    · rintro ⟨-, ha | ⟨hno, -⟩⟩
      · rw [← hb, ha]
      · exact absurd hp (hno b hb)
  | none =>
    have hno : ∀ b, x = some b → ¬ p b := by simpa [filter_eq_none_iff] using h
    rw [hsnd h, filter_eq_some_iff]
    constructor
    · rintro ⟨ha, hp⟩
      exact ⟨hp, .inr ⟨hno, ha⟩⟩
    · rintro ⟨hp, ha | ⟨-, ha⟩⟩
      · exact absurd hp (hno a ha)
      · exact ⟨ha, hp⟩

theorem find_eq_some_iff :
    rx.find epoch = some slot ↔ slot.epoch = epoch ∧ (rx.cur = some slot ∨
      (∀ cur, rx.cur = some cur → cur.epoch ≠ epoch) ∧ rx.prev = some slot) := by
  rw [found_iff rx.prev (fun b h => by rw [find, h]) (fun h => by rw [find, h])]
  simp only [beq_iff_eq, ne_eq]

theorem find_of_mem (h : rx.Mem slot) : ∃ slot', rx.find slot.epoch = some slot' := by
  by_cases hc : ∃ cur, rx.cur = some cur ∧ cur.epoch = slot.epoch
  · obtain ⟨cur, hcur, he⟩ := hc
    exact ⟨cur, find_eq_some_iff.2 ⟨he, .inl hcur⟩⟩
  · have hne : ∀ cur, rx.cur = some cur → cur.epoch ≠ slot.epoch :=
      fun cur hcur he => hc ⟨cur, hcur, he⟩
    obtain h | h := h
    · exact absurd rfl (hne slot h)
    · exact ⟨slot, find_eq_some_iff.2 ⟨rfl, .inr ⟨hne, h⟩⟩⟩

theorem touch_of_find (h : rx.find epoch = some slot) (seq nowMs : UInt64) :
    rx.cur = some slot ∧ slot.epoch = epoch ∧ rx.touch epoch seq nowMs =
      ((slot.accept seq nowMs).1, ⟨some (slot.accept seq nowMs).2, rx.prev⟩) ∨
    rx.prev = some slot ∧ slot.epoch = epoch ∧ (∀ cur, rx.cur = some cur → cur.epoch ≠ epoch) ∧
      rx.touch epoch seq nowMs =
        ((slot.accept seq nowMs).1, ⟨rx.cur, some (slot.accept seq nowMs).2⟩) := by
  obtain ⟨he, hcur | ⟨hcur, hprev⟩⟩ := find_eq_some_iff.1 h
  · refine .inl ⟨hcur, he, ?_⟩
    rw [touch, filter_epoch_eq_some_iff.2 ⟨hcur, he⟩]
  · refine .inr ⟨hprev, he, hcur, ?_⟩
    rw [touch, filter_epoch_eq_none_iff.2 hcur, filter_epoch_eq_some_iff.2 ⟨hprev, he⟩]

theorem touch_fst_of_find (h : rx.find epoch = some slot) (seq nowMs : UInt64) :
    (rx.touch epoch seq nowMs).1 = slot.window.canAccept seq := by
  rw [← EpochRxSlot.accept_fst slot seq nowMs]
  obtain ⟨-, -, ht⟩ | ⟨-, -, -, ht⟩ := touch_of_find h seq nowMs <;> rw [ht]

theorem find_fresh (epoch : UInt32) (nowMs : UInt64) (prev : Option EpochRxSlot) :
    RxSlots.find ⟨some (.fresh epoch nowMs), prev⟩ epoch = some (.fresh epoch nowMs) :=
  find_eq_some_iff.2 ⟨rfl, .inl rfl⟩

theorem accept_fst (sendEpoch epoch : UInt32) (seq nowMs : UInt64) :
    (rx.accept sendEpoch epoch seq nowMs).1 = rx.canAccept sendEpoch epoch seq := by
  unfold accept canAccept epochInSlots
  cases rx.cur with
  | none =>
    simp only
    rw [touch_fst_of_find (find_fresh epoch nowMs rx.prev), EpochRxSlot.fresh_canAccept]
  | some cur =>
    cases hf : rx.find epoch with
    | some slot => simp [touch_fst_of_find hf]
    | none =>
      by_cases hlt : cur.epoch < epoch
      · by_cases hfar : rx.maxAllowedEpoch sendEpoch < epoch
        · simp [hlt, hfar]
        · simp [hlt, hfar, EpochRxSlot.accept_fst, EpochRxSlot.fresh_canAccept]
      · simp [hlt]

/-- The three ways a datagram is accepted: it opens the empty current slot, goes to the slot of its
epoch, or starts a newer epoch. -/
theorem accept_cases {sendEpoch : UInt32} {seq : UInt64}
    (h : rx.canAccept sendEpoch epoch seq = true) (nowMs : UInt64) :
    (rx.cur = none ∧ (rx.accept sendEpoch epoch seq nowMs).2 =
      ⟨some ((EpochRxSlot.fresh epoch nowMs).accept seq nowMs).2, rx.prev⟩) ∨
    (∃ slot, rx.find epoch = some slot ∧ slot.window.canAccept seq = true ∧
      rx.accept sendEpoch epoch seq nowMs = rx.touch epoch seq nowMs) ∨
    (∃ cur, rx.cur = some cur ∧ rx.find epoch = none ∧ (rx.accept sendEpoch epoch seq nowMs).2 =
      ⟨some ((EpochRxSlot.fresh epoch nowMs).accept seq nowMs).2, some cur⟩) := by
  unfold accept epochInSlots
  unfold canAccept at h
  cases hcur : rx.cur with
  | none =>
    refine .inl ⟨rfl, ?_⟩
    obtain ⟨-, -, ht⟩ | ⟨-, -, hne, -⟩ := touch_of_find (find_fresh epoch nowMs rx.prev) seq nowMs
    · simp only [ht]
    · exact absurd rfl (hne _ rfl)
  | some cur =>
    rw [hcur] at h
    cases hf : rx.find epoch with
    | some slot =>
      simp only [hf] at h
      exact .inr (.inl ⟨slot, rfl, h, by simp⟩)
    | none =>
      simp only [hf, Bool.and_eq_true, decide_eq_true_eq, Bool.not_eq_true',
        decide_eq_false_iff_not] at h
      exact .inr (.inr ⟨cur, rfl, rfl, by simp [h.1, h.2]⟩)

end RxSlots

/-! ### Slots of both directions -/

structure SyncRxGrace where
  slots : SecureDatagramDirection → RxSlots
  expiresAtMs : UInt64

structure ReplayState where
  rxSlots : SecureDatagramDirection → RxSlots
  syncRxGrace : Option SyncRxGrace
  /-- `0` when no grace period is running -/
  syncRxGraceExpiresAtMs : UInt64

namespace ReplayState

def empty : ReplayState := ⟨fun _ => .empty, none, 0⟩

def graceSlots (r : ReplayState) (dir : SecureDatagramDirection) : RxSlots :=
  if r.syncRxGraceExpiresAtMs = 0 then .empty
  else match r.syncRxGrace with
    | some g => g.slots dir
    | none => .empty

def refresh (r : ReplayState) (nowMs : UInt64) : ReplayState :=
  let r := { r with rxSlots := fun dir => (r.rxSlots dir).evictOld nowMs }
  if r.syncRxGraceExpiresAtMs = 0 then r
  else if nowMs < r.syncRxGraceExpiresAtMs then
    match r.syncRxGrace with
    | some g =>
      if g.expiresAtMs ≤ nowMs then { r with syncRxGrace := none, syncRxGraceExpiresAtMs := 0 }
      else
        { r with syncRxGrace := some { g with slots := fun dir => (g.slots dir).evictOld nowMs } }
    | none => { r with syncRxGraceExpiresAtMs := 0 }
  else { r with syncRxGraceExpiresAtMs := 0 }

def precheckReplay (r : ReplayState) (sendEpoch epoch : UInt32) (seq : UInt64)
    (dir : SecureDatagramDirection) (nowMs : UInt64) : Bool × ReplayState :=
  let r := r.refresh nowMs
  match (r.graceSlots dir).find epoch with
  | some slot => (slot.window.canAccept seq, r)
  | none => ((r.rxSlots dir).canAccept sendEpoch epoch seq, r)

/-- Record a decrypted datagram: in the grace slots if they hold its epoch, or else in the slots of
its direction. -/
def commitReplay (r : ReplayState) (sendEpoch epoch : UInt32) (seq : UInt64)
    (dir : SecureDatagramDirection) (nowMs : UInt64) : Bool × ReplayState :=
  let r := r.refresh nowMs
  if (r.graceSlots dir).epochInSlots epoch then
    let touched := (r.graceSlots dir).touch epoch seq nowMs
    (touched.1, { r with
      syncRxGrace := r.syncRxGrace.map fun g =>
        { g with slots := update g.slots dir touched.2 } })
  else
    let accepted := (r.rxSlots dir).accept sendEpoch epoch seq nowMs
    (accepted.1, { r with rxSlots := update r.rxSlots dir accepted.2 })

def sync (r : ReplayState) (canPreserve : Bool) (nowMs : UInt64) : ReplayState :=
  let expiresAtMs := satAdd nowMs syncRxGraceAfterMs
  if canPreserve then ⟨fun _ => .empty, some ⟨r.rxSlots, expiresAtMs⟩, expiresAtMs⟩
  else ⟨fun _ => .empty, none, 0⟩

variable {r : ReplayState} {dir : SecureDatagramDirection}

@[simp] theorem refresh_rxSlots (nowMs : UInt64) :
    (r.refresh nowMs).rxSlots dir = (r.rxSlots dir).evictOld nowMs := by
  simp only [refresh]
  split_ifs with h0 hnow
  · rfl
  · cases r.syncRxGrace with
    | none => rfl
    | some g => by_cases hexp : g.expiresAtMs ≤ nowMs <;> simp [hexp]
  · rfl

theorem refresh_cases (r : ReplayState) (nowMs : UInt64) :
    ((r.refresh nowMs).syncRxGraceExpiresAtMs = 0) ∨
    ∃ g, r.syncRxGrace = some g ∧ r.syncRxGraceExpiresAtMs ≠ 0 ∧
      nowMs < r.syncRxGraceExpiresAtMs ∧ nowMs < g.expiresAtMs ∧ r.refresh nowMs =
        ⟨fun dir => (r.rxSlots dir).evictOld nowMs,
          some { g with slots := fun dir => (g.slots dir).evictOld nowMs },
          r.syncRxGraceExpiresAtMs⟩ := by
  by_cases h0 : r.syncRxGraceExpiresAtMs = 0
  · exact .inl (by simp [refresh, h0])
  by_cases hnow : nowMs < r.syncRxGraceExpiresAtMs
  · cases hg : r.syncRxGrace with
    | none => exact .inl (by simp [refresh, h0, hnow, hg])
    | some g =>
      by_cases hexp : g.expiresAtMs ≤ nowMs
      · exact .inl (by simp [refresh, h0, hnow, hg, hexp])
      · exact .inr ⟨g, rfl, h0, hnow, UInt64.not_le.1 hexp, by simp [refresh, h0, hnow, hg, hexp]⟩
  · exact .inl (by simp [refresh, h0, hnow])

theorem graceSlots_of_expired (h : r.syncRxGraceExpiresAtMs = 0) : r.graceSlots dir = .empty := by
  simp [graceSlots, h]

theorem graceSlots_refresh (r : ReplayState) (dir : SecureDatagramDirection) (nowMs : UInt64) :
    (r.refresh nowMs).graceSlots dir = .empty ∨
      (r.refresh nowMs).graceSlots dir = (r.graceSlots dir).evictOld nowMs := by
  obtain h0 | ⟨g, hg, hne, -, -, hr⟩ := r.refresh_cases nowMs
  · exact .inl (graceSlots_of_expired h0)
  · exact .inr (by simp [hr, graceSlots, hne, hg])

theorem refresh_refresh (r : ReplayState) (nowMs : UInt64) :
    (r.refresh nowMs).refresh nowMs = r.refresh nowMs := by
  obtain h0 | ⟨g, hg, hne, hnow, hexp, hr⟩ := r.refresh_cases nowMs
  · have hrx : (fun dir => ((r.refresh nowMs).rxSlots dir).evictOld nowMs) =
        (r.refresh nowMs).rxSlots := by
      funext dir
      rw [refresh_rxSlots, RxSlots.evictOld_evictOld]
    rw [refresh, hrx]
    exact if_pos h0
  · rw [hr]
    simp [refresh, hne, hnow, UInt64.not_le.2 hexp]

@[simp] theorem graceSlots_setRxSlots (rx : SecureDatagramDirection → RxSlots) :
    graceSlots { r with rxSlots := rx } dir = r.graceSlots dir := rfl

theorem graceSlots_update (r : ReplayState) (dir : SecureDatagramDirection) (rx : RxSlots)
    (h : r.graceSlots dir ≠ .empty) (d : SecureDatagramDirection) :
    graceSlots { r with
      syncRxGrace := r.syncRxGrace.map fun g => { g with slots := update g.slots dir rx } } d =
      update r.graceSlots dir rx d := by
  unfold graceSlots at h ⊢
  by_cases h0 : r.syncRxGraceExpiresAtMs = 0
  · simp [h0] at h
  · cases hg : r.syncRxGrace with
    | none => simp [hg] at h
    | some g =>
      by_cases hd : d = dir
      · subst hd
        simp [h0]
      · simp [h0, hd]

theorem commitReplay_of_grace {epoch : UInt32} {nowMs : UInt64} {slot : EpochRxSlot}
    (h : ((r.refresh nowMs).graceSlots dir).find epoch = some slot) (sendEpoch : UInt32)
    (seq : UInt64) :
    r.commitReplay sendEpoch epoch seq dir nowMs =
      ((((r.refresh nowMs).graceSlots dir).touch epoch seq nowMs).1, { r.refresh nowMs with
          syncRxGrace := (r.refresh nowMs).syncRxGrace.map fun g =>
            { g with
              slots := update g.slots dir
                (((r.refresh nowMs).graceSlots dir).touch epoch seq nowMs).2 } }) := by
  rw [commitReplay, RxSlots.epochInSlots, h]
  rfl

theorem commitReplay_of_rx {epoch : UInt32} {nowMs : UInt64}
    (h : ((r.refresh nowMs).graceSlots dir).find epoch = none) (sendEpoch : UInt32)
    (seq : UInt64) :
    r.commitReplay sendEpoch epoch seq dir nowMs =
      ((((r.refresh nowMs).rxSlots dir).accept sendEpoch epoch seq nowMs).1, { r.refresh nowMs with
          rxSlots := update (r.refresh nowMs).rxSlots dir
            (((r.refresh nowMs).rxSlots dir).accept sendEpoch epoch seq nowMs).2 }) := by
  rw [commitReplay, RxSlots.epochInSlots, h]
  rfl

theorem precheckReplay_snd (r : ReplayState) (sendEpoch epoch : UInt32) (seq : UInt64)
    (dir : SecureDatagramDirection) (nowMs : UInt64) :
    (r.precheckReplay sendEpoch epoch seq dir nowMs).2 = r.refresh nowMs := by
  simp only [precheckReplay]
  split <;> rfl

theorem precheckReplay_of_empty (hrx : r.rxSlots dir = .empty) (hgrace : r.graceSlots dir = .empty)
    (sendEpoch epoch : UInt32) (seq nowMs : UInt64) :
    (r.precheckReplay sendEpoch epoch seq dir nowMs).1 = true := by
  have hgrace' : (r.refresh nowMs).graceSlots dir = .empty := by
    obtain h | h := r.graceSlots_refresh dir nowMs
    · exact h
    · rw [h, hgrace]
      rfl
  have hfind : RxSlots.empty.find epoch = none := rfl
  simp only [precheckReplay, hgrace', hfind, refresh_rxSlots, hrx]
  rfl

/-- **The check after decryption agrees with the check before it**, made at the same time. -/
theorem commitReplay_fst (r : ReplayState) (sendEpoch epoch : UInt32) (seq : UInt64)
    (dir : SecureDatagramDirection) (nowMs : UInt64) :
    ((r.refresh nowMs).commitReplay sendEpoch epoch seq dir nowMs).1 =
      (r.precheckReplay sendEpoch epoch seq dir nowMs).1 := by
  simp only [precheckReplay]
  have hrr := r.refresh_refresh nowMs
  split
  · rename_i slot hf
    rw [commitReplay_of_grace (by rw [hrr]; exact hf), hrr, RxSlots.touch_fst_of_find hf]
  · rename_i hf
    rw [commitReplay_of_rx (by rw [hrr]; exact hf), hrr, RxSlots.accept_fst]

end ReplayState

end PactMesh
