import PactMesh.Lib.Trans

/-!
# Inputs inserted into a run

Inputs that somebody inserts are harmless when the answers to all others stay what they were without
them: two runs are compared by a relation between their states that may refer to the time of the
latest input.
-/

namespace PactMesh

namespace Insertion

variable {S I O : Type*} (f : S → I → O × S)

/-- The answers to a sequence of inputs. -/
def outputs : S → List I → List O
  | _, [] => []
  | s, i :: is => (f s i).1 :: outputs (f s i).2 is

/-- The inputs that were not inserted; an inserted one is marked `true`. -/
def others : List (Bool × I) → List I
  | [] => []
  | (inserted, i) :: is => if inserted then others is else i :: others is

/-- The answers to the other inputs in the run that takes all of them. -/
def outputsOfOthers : S → List (Bool × I) → List O
  | _, [] => []
  | s, (inserted, i) :: is =>
    if inserted then outputsOfOthers (f s i).2 is else (f s i).1 :: outputsOfOthers (f s i).2 is

/-- The system of the run that takes all inputs. -/
def system : Trans S (Bool × I) := .ofFun fun s l => (f s l.2).2

variable {f} {T : Type*} [LE T] (clock : I → T) {R : T → S → S → Prop} {G : S → Bool × I → Prop}

theorem outputsOfOthers_eq (mono : ∀ {t t' s₁ s₂}, t ≤ t' → R t s₁ s₂ → R t' s₁ s₂)
    (skip : ∀ {s₁ s₂ i}, R (clock i) s₁ s₂ → G s₁ (true, i) → R (clock i) (f s₁ i).2 s₂)
    (both : ∀ {s₁ s₂ i}, R (clock i) s₁ s₂ → G s₁ (false, i) →
      (f s₁ i).1 = (f s₂ i).1 ∧ R (clock i) (f s₁ i).2 (f s₂ i).2)
    {t : T} {s₁ s₂ : S} (hR : R t s₁ s₂) {is : List (Bool × I)} (ht : ∀ i ∈ is, t ≤ clock i.2)
    (hclock : is.Pairwise fun i j => clock i.2 ≤ clock j.2) (hG : (system f).Along G s₁ is) :
    outputsOfOthers f s₁ is = outputs f s₂ (others is) := by
  induction is generalizing t s₁ s₂ with
  | nil => rfl
  | cons i is ih =>
    obtain ⟨inserted, i⟩ := i
    obtain ⟨hi, hrest⟩ := hG
    obtain ⟨hlater, hsorted⟩ := List.pairwise_cons.1 hclock
    have hR := mono (ht _ List.mem_cons_self) hR
    cases inserted with
    | true => exact ih (skip hR hi) hlater hsorted (hrest _ rfl)
    | false =>
      obtain ⟨hout, hR⟩ := both hR hi
      simp only [outputsOfOthers, others, outputs, Bool.false_eq_true, if_false]
      rw [hout, ih hR hlater hsorted (hrest _ rfl)]

end Insertion

end PactMesh
