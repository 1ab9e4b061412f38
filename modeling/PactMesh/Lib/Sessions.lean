import PactMesh.Lib.Trans
import Mathlib.Logic.Function.Basic

/-!
# Read, modify, write

Several parties work on one cell.  A session reads the cell and later commits a change, which is
applied to what it has read and overwrites the cell.  Nothing keeps sessions from overlapping.

Main result: `serial_of_run`.
-/

namespace PactMesh

namespace Sessions

variable {S M E : Type*}

/-- The cell, what the open sessions have read, and the committed changes with what they wrote. -/
structure World (S M : Type*) where
  cell : S
  sessions : ℕ → Option S := fun _ => none
  committed : List (M × S) := []

/-- A session opens, or it commits a change and ends. -/
inductive Event (M : Type*)
  | opens (i : ℕ)
  | commits (i : ℕ) (m : M)

variable (apply : S → M → Except E S)

/-- One event; `apply` may refuse a change, and then nothing is written. -/
def World.step (w : World S M) : Event M → World S M
  | .opens i => { w with sessions := Function.update w.sessions i (some w.cell) }
  | .commits i m =>
    match w.sessions i with
    | none => w
    | some s =>
      let sessions := Function.update w.sessions i none
      match apply s m with
      | .error _ => { w with sessions := sessions }
      | .ok s' => ⟨s', sessions, w.committed ++ [(m, s')]⟩

/-- The cell is what the session that commits has read. -/
def World.Undisturbed (w : World S M) : Event M → Prop
  | .opens _ => True
  | .commits i _ => ∀ s ∈ w.sessions i, s = w.cell

/-- The changes, applied one after the other, write what is written down beside them. -/
def Serial : S → List (M × S) → S → Prop
  | s, [], t => t = s
  | s, (m, s') :: l, t => apply s m = .ok s' ∧ Serial s' l t

variable {apply}

variable {s t : S} {l : List (M × S)}

theorem Serial.append {u : S} {m : M} (h : Serial apply s l t) (hm : apply t m = .ok u) :
    Serial apply s (l ++ [(m, u)]) u := by
  induction l generalizing s with
  | nil =>
    obtain rfl : t = s := h
    exact ⟨hm, rfl⟩
  | cons p l ih => exact ⟨h.1, ih h.2⟩

theorem Serial.keeps {P : S → Prop} (h : Serial apply s l t)
    (hkeep : ∀ p ∈ l, ∀ s s', P s → apply s p.1 = .ok s' → P s') (hs : P s) : P t := by
  induction l generalizing s with
  | nil =>
    obtain rfl : t = s := h
    exact hs
  | cons p l ih =>
    have hkeep' := List.forall_mem_cons.1 hkeep
    exact ih h.2 hkeep'.2 (hkeep'.1 s p.2 hs h.1)

theorem Serial.after {P : S → Prop} (h : Serial apply s l t)
    (hkeep : ∀ p ∈ l, ∀ s s', P s → apply s p.1 = .ok s' → P s') {p : M × S} (hp : p ∈ l)
    (hest : ∀ s s', apply s p.1 = .ok s' → P s') : P t := by
  induction l generalizing s with
  | nil => cases hp
  | cons q l ih =>
    have hkeep' := (List.forall_mem_cons.1 hkeep).2
    obtain rfl | hp := List.mem_cons.1 hp
    · exact h.2.keeps hkeep' (hest s p.2 h.1)
    · exact ih h.2 hkeep' hp

theorem World.serial_step {s₀ : S} {w : World S M} {e : Event M}
    (h : Serial apply s₀ w.committed w.cell) (he : w.Undisturbed e) :
    Serial apply s₀ (w.step apply e).committed (w.step apply e).cell := by
  cases e with
  | opens i => exact h
  | commits i m =>
    unfold World.step
    cases hs : w.sessions i with
    | none => simpa only [hs] using h
    | some s =>
      obtain rfl : s = w.cell := he s hs
      cases hm : apply w.cell m with
      | error e => simpa only [hs, hm] using h
      | ok s' => simpa only [hs, hm] using h.append hm

/-- **No change is lost** in a run where nothing disturbs the sessions. -/
theorem serial_of_run {G : World S M → Event M → Prop} (hG : ∀ w e, G w e → w.Undisturbed e)
    {s₀ : S} {es : List (Event M)} {w : World S M}
    (h : ((Trans.ofFun (World.step apply)).guard G).Run { cell := s₀ } es w) :
    Serial apply s₀ w.committed w.cell := by
  have hinit : Serial apply s₀ ([] : List (M × S)) s₀ := rfl
  refine h.invariant (I := fun w => Serial apply s₀ w.committed w.cell) hinit ?_
  rintro w e _ hw ⟨hg, rfl⟩
  exact World.serial_step hw (hG w e hg)

end Sessions

end PactMesh
