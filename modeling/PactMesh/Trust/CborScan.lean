import PactMesh.Trust.Cbor
import Mathlib.Logic.Relation

/-!
# How deep CBOR is nested and how much it announces

A byte string is read here as a flat sequence of heads.  What is left to be read is kept as frames:
so many items, or items up to a break.  At every head the reading shows how deep the item lies and
how much room it announces.

Main result: `readsItem_parseCanonicalValue`.
-/

namespace PactMesh

open Cbor Decoder Outcome

inductive Frame
  | items (n : ℕ)
  /-- `k` items at a time up to a break -/
  | untilBreak (k : ℕ)
deriving DecidableEq

def Opening.frames : Opening → List Frame
  | .atom _ => []
  | .array len => [.items len]
  | .arrayIndef => [.untilBreak 1]
  | .map len => [.items (2 * len)]
  | .mapIndef => [.untilBreak 2]
  | .tag _ => [.items 1]

def Opening.announced (m : Machine) : Opening → ℕ
  | .array len => len * m.valueSize
  | .map len => len * (2 * m.valueSize)
  | _ => 0

structure Reading where
  frames : List Frame
  rest : List UInt8

def Frame.depth : List Frame → ℕ
  | [] => 0
  | .items _ :: σ => depth σ + 1
  | .untilBreak _ :: σ => depth σ

namespace Reading

def start (bs : List UInt8) : Reading := ⟨[.items 1], bs⟩

def next : Reading → Option Reading
  | ⟨[], _⟩ => none
  | ⟨.items 0 :: σ, rest⟩ => some ⟨σ, rest⟩
  | ⟨.items (n + 1) :: σ, rest⟩ =>
    match opening rest with
    | .error _ => none
    | .ok (o, rest') => some ⟨o.frames ++ .items n :: σ, rest'⟩
  | ⟨.untilBreak _ :: _, []⟩ => none
  | ⟨.untilBreak k :: σ, b :: rest⟩ =>
    if kindOf b = .break then some ⟨σ, rest⟩
    else some ⟨.items k :: .untilBreak k :: σ, b :: rest⟩

def Fits (m : Machine) : Reading → Prop
  | ⟨.items (n + 1) :: σ, rest⟩ =>
    Frame.depth (.items (n + 1) :: σ) ≤ m.stack ∧
      ∀ o rest', opening rest = .ok (o, rest') → o.announced m ≤ m.alloc
  | _ => True

def Within (m : Machine) (c : Reading) : Prop :=
  ∀ c', Relation.ReflTransGen (fun c c' => c.next = some c') c c' → c'.Fits m

variable {m : Machine} {σ : List Frame} {rest : List UInt8}

theorem within_iff {c : Reading} : c.Within m ↔ c.Fits m ∧ ∀ c', c.next = some c' → c'.Within m := by
  constructor
  · intro h
    exact ⟨h c .refl, fun c' hnext c'' hrun => h c'' (.head hnext hrun)⟩
  · rintro ⟨hfits, hnext⟩ c' hrun
    rcases Relation.ReflTransGen.cases_head hrun with rfl | ⟨c₁, hstep, hrun⟩
    · exact hfits
    · exact hnext c₁ hstep c' hrun

@[simp] theorem within_items_zero : Within m ⟨.items 0 :: σ, rest⟩ ↔ Within m ⟨σ, rest⟩ := by
  rw [within_iff]
  exact ⟨fun h => h.2 _ rfl, fun h => ⟨trivial, fun _ hnext => by cases hnext; exact h⟩⟩

theorem within_items_succ {n : ℕ} : Within m ⟨.items (n + 1) :: σ, rest⟩ ↔
    Frame.depth σ < m.stack ∧ ∀ o rest', opening rest = .ok (o, rest') →
      o.announced m ≤ m.alloc ∧ Within m ⟨o.frames ++ .items n :: σ, rest'⟩ := by
  rw [within_iff, Fits]
  have hnext : ∀ o rest', opening rest = .ok (o, rest') →
      next ⟨.items (n + 1) :: σ, rest⟩ = some ⟨o.frames ++ .items n :: σ, rest'⟩ := by
    intro o rest' hopen
    rw [next, hopen]
  constructor
  · rintro ⟨⟨hdepth, halloc⟩, h⟩
    exact ⟨hdepth, fun o rest' hopen => ⟨halloc o rest' hopen, h _ (hnext o rest' hopen)⟩⟩
  · rintro ⟨hdepth, h⟩
    refine ⟨⟨hdepth, fun o rest' hopen => (h o rest' hopen).1⟩, ?_⟩
    intro c' hc'
    cases hopen : opening rest with
    | error e =>
      rw [next, hopen] at hc'
      cases hc'
    | ok p =>
      obtain ⟨o, rest'⟩ := p
      rw [hnext o rest' hopen] at hc'
      cases hc'
      exact (h o rest' hopen).2

theorem within_untilBreak_nil {k : ℕ} : Within m ⟨.untilBreak k :: σ, []⟩ :=
  within_iff.2 ⟨trivial, nofun⟩

theorem within_untilBreak_cons {k : ℕ} {b : UInt8} :
    Within m ⟨.untilBreak k :: σ, b :: rest⟩ ↔
      if kindOf b = .break then Within m ⟨σ, rest⟩
      else Within m ⟨.items k :: .untilBreak k :: σ, b :: rest⟩ := by
  rw [within_iff]
  simp only [Fits, true_and, next]
  split_ifs
  · exact ⟨fun h => h _ rfl, fun h _ he => by cases he; exact h⟩
  · exact ⟨fun h => h _ rfl, fun h _ he => by cases he; exact h⟩

/-! ### Decoders that follow the reading -/

def ReadsItem (m : Machine) (d : ℕ) {α : Type} (p : Decoder α) : Prop :=
  ∀ n σ rest, Frame.depth σ = d → (Within m ⟨.items (n + 1) :: σ, rest⟩ ↔
    wp p (fun _ rest' => Within m ⟨.items n :: σ, rest'⟩) rest)

/-- The decoder reads all `k` items of the innermost frame, at a given depth. -/
def ReadsFrame (m : Machine) (d k : ℕ) {α : Type} (q : Decoder α) : Prop :=
  ∀ σ rest, Frame.depth σ = d →
    (Within m ⟨.items k :: σ, rest⟩ ↔ wp q (fun _ rest' => Within m ⟨σ, rest'⟩) rest)

variable {d k : ℕ} {α : Type} {p q : Decoder α}

theorem ReadsItem.frame_one (hp : ReadsItem m d p) : ReadsFrame m d 1 p := by
  intro σ rest hσ
  rw [hp 0 σ rest hσ]
  exact wp_congr fun _ _ _ => within_items_zero

theorem ReadsItem.frame_two (hp : ReadsItem m d p) : ReadsFrame m d 2 (entryOf p) := by
  intro σ rest hσ
  rw [hp 1 σ rest hσ]
  simp only [entryOf, wp_bind, wp_pure]
  exact wp_congr fun _ rest' _ => hp.frame_one σ rest' hσ

theorem ReadsItem.times (hp : ReadsItem m d p) (n : ℕ) : ReadsFrame m d n (times p n) := by
  induction n with
  | zero => exact fun σ rest _ => within_items_zero
  | succ n ih =>
    intro σ rest hσ
    rw [hp n σ rest hσ]
    simp only [Decoder.times, wp_bind, wp_pure]
    exact wp_congr fun _ rest' _ => ih σ rest' hσ

theorem ReadsItem.times_entryOf (hp : ReadsItem m d p) (n : ℕ) :
    ReadsFrame m d (2 * n) (Decoder.times (entryOf p) n) := by
  induction n with
  | zero => exact fun σ rest _ => within_items_zero
  | succ n ih =>
    intro σ rest hσ
    rw [Nat.mul_succ, hp _ σ rest hσ]
    simp only [Decoder.times, entryOf, wp_bind, wp_pure]
    refine wp_congr fun _ rest₁ _ => ?_
    rw [hp _ σ rest₁ hσ]
    exact wp_congr fun _ rest₂ _ => ih σ rest₂ hσ

/-- Up to a break, the elements are read one after the other.  The elements take something of the
input, so that the bytes bound their number. -/
theorem ReadsFrame.untilBreakAux (hq : ReadsFrame m d k q)
    (hlt : ∀ bs, wlp q (fun _ rest => rest.length < bs.length) bs) {fuel : ℕ}
    (hσ : Frame.depth σ = d) (hfuel : rest.length < fuel) :
    Within m ⟨.untilBreak k :: σ, rest⟩ ↔
      wp (Decoder.untilBreakAux q fuel) (fun _ rest' => Within m ⟨σ, rest'⟩) rest := by
  induction fuel generalizing rest with
  | zero => exact absurd hfuel (Nat.not_lt_zero _)
  | succ fuel ih =>
    rw [Decoder.untilBreakAux, wp_bind, wp_peek_iff]
    cases rest with
    | nil => exact iff_of_true within_untilBreak_nil (by simp [datatype])
    | cons b rest =>
      rw [within_untilBreak_cons]
      simp only [datatype, Except.ok.injEq, forall_eq']
      split_ifs with hbreak
      · have hb : b = 0xff := eq_of_kindOf_break hbreak
        simp only [wp_bind, wp_item_iff, byte, hb, wp_pure]
        exact ⟨fun h _ _ he => by cases he; exact h, fun h => h () rest rfl⟩
      · rw [hq (.untilBreak k :: σ) (b :: rest) hσ]
        simp only [wp_bind, wp_pure]
        refine wp_congr fun a rest' hres => ih ?_
        have := hlt (b :: rest) a rest' hres
        omega

theorem ReadsFrame.untilBreak (hq : ReadsFrame m d k q)
    (hlt : ∀ bs, wlp q (fun _ rest => rest.length < bs.length) bs) (hσ : Frame.depth σ = d) :
    Within m ⟨.untilBreak k :: σ, rest⟩ ↔
      wp (Decoder.untilBreak q) (fun _ rest' => Within m ⟨σ, rest'⟩) rest :=
  hq.untilBreakAux hlt hσ (Nat.lt_succ_self _)

/-- **Parsing follows the reading**: with the room that is left on the stack, the parser reads the
next item. -/
theorem readsItem_parseCanonicalValue {room : ℕ} (hroom : d + room = m.stack) :
    ReadsItem m d (parseCanonicalValue m room) := by
  induction room generalizing d with
  | zero =>
    intro n σ rest hσ
    rw [within_items_succ]
    exact iff_of_false (fun h => by omega) id
  | succ room ih =>
    intro n σ rest hσ
    rw [within_items_succ, parseCanonicalValue_succ, wp_bind, wp_item_iff]
    have hdepth : Frame.depth σ < m.stack := by omega
    have hp : ReadsItem m (d + 1) (parseCanonicalValue m room) := ih (by omega)
    have hlt := fun bs => (wlp_parseCanonicalValue m room bs).mono fun _ _ h => h.2
    have hltEntry : ∀ bs, wlp (entryOf (parseCanonicalValue m room))
        (fun _ rest => rest.length < bs.length) bs := by
      intro bs
      simp only [entryOf, wlp_bind, wlp_pure]
      refine (hlt bs).mono fun _ rest₁ h₁ => (hlt rest₁).mono fun _ rest₂ h₂ => h₂.trans h₁
    have hσ' : Frame.depth (.items n :: σ) = d + 1 := by rw [Frame.depth, hσ]
    simp only [hdepth, true_and]
    refine forall₃_congr fun o rest' _ => ?_
    cases o with
    | atom v => exact ⟨fun h => h.2, fun h => ⟨Nat.zero_le _, h⟩⟩
    | array len =>
      simp only [Opening.complete, wp_bind, wp_lift_iff, Machine.withCapacity_eq_returns_iff,
        exists_const, wp_pure]
      exact and_congr Iff.rfl (hp.times len _ rest' hσ')
    | map len =>
      simp only [Opening.complete, wp_bind, wp_lift_iff, Machine.withCapacity_eq_returns_iff,
        exists_const, wp_pure]
      exact and_congr Iff.rfl (hp.times_entryOf len _ rest' hσ')
    | arrayIndef =>
      simp only [Opening.complete, wp_bind, wp_pure]
      exact (and_iff_right (Nat.zero_le _)).trans (hp.frame_one.untilBreak hlt hσ')
    | mapIndef =>
      simp only [Opening.complete, wp_bind, wp_pure]
      exact (and_iff_right (Nat.zero_le _)).trans (hp.frame_two.untilBreak hltEntry hσ')
    | tag t =>
      simp only [Opening.complete, wp_bind, wp_pure]
      exact (and_iff_right (Nat.zero_le _)).trans (hp.frame_one _ rest' hσ')

theorem within_start_iff (m : Machine) (bs : List UInt8) :
    (start bs).Within m ↔ (parseCanonicalValue m m.stack bs).Returns := by
  rw [returns_iff_wp, start, readsItem_parseCanonicalValue (d := 0) (Nat.zero_add _) 0 [] bs rfl]
  refine wp_congr fun _ rest _ => iff_of_true ?_ trivial
  exact within_items_zero.2 (within_iff.2 ⟨trivial, nofun⟩)

end Reading

end PactMesh
