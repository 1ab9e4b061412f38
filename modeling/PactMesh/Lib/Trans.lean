import Mathlib.Data.List.Induction

/-!
# Step relations and their runs

A system is a labelled step relation; a run is a finite sequence of steps.  `Run.invariant` is the
induction over runs, and `Trans.Along T Q s ls` says that every step of a run meets `Q`.
-/

namespace PactMesh

open List

/-- A labelled step relation on states `S` with labels `L`. -/
structure Trans (S L : Type*) where
  /-- `step s l s'` : the label `l` can take `s` to `s'`. -/
  step : S → L → S → Prop

namespace Trans

variable {S L : Type*}

/-- The system whose step is a function. -/
def ofFun (f : S → L → S) : Trans S L where
  step s l s' := s' = f s l

/-- The steps of `T` that meet `G` in the state they leave. -/
def guard (T : Trans S L) (G : S → L → Prop) : Trans S L where
  step s l s' := G s l ∧ T.step s l s'

/-- `T.Run s₀ ls s` : the labels `ls` lead from `s₀` to `s`; the last step comes last. -/
inductive Run (T : Trans S L) (s₀ : S) : List L → S → Prop
  | nil : Run T s₀ [] s₀
  | snoc {ls : List L} {s s' : S} {l : L} : Run T s₀ ls s → T.step s l s' → Run T s₀ (ls ++ [l]) s'

variable {T : Trans S L} {s₀ s : S} {ls : List L}

variable {I : S → Prop} {G Q : S → L → Prop}

theorem Run.invariant (h : T.Run s₀ ls s) (h₀ : I s₀)
    (hstep : ∀ s l s', I s → T.step s l s' → I s') : I s := by
  induction h with
  | nil => exact h₀
  | snoc _ hst ih => exact hstep _ _ _ ih hst

/-- **A rank that every step lowers bounds the length of the runs.** -/
theorem Run.length_add_rank_le (rank : S → ℕ) (h : T.Run s₀ ls s) (h₀ : I s₀)
    (hstep : ∀ s l s', I s → T.step s l s' → I s' ∧ rank s' < rank s) :
    ls.length + rank s ≤ rank s₀ := by
  suffices hrun : I s ∧ ls.length + rank s ≤ rank s₀ from hrun.2
  induction h with
  | nil => exact ⟨h₀, by simp⟩
  | snoc _ hst ih =>
    obtain ⟨hI, hlt⟩ := hstep _ _ _ ih.1 hst
    have hle := ih.2
    rw [length_append, length_singleton]
    exact ⟨hI, by omega⟩

theorem Run.cons {l : L} {s₁ : S} (hst : T.step s₀ l s₁) (h : T.Run s₁ ls s) :
    T.Run s₀ (l :: ls) s := by
  induction h with
  | nil => exact .snoc .nil hst
  | snoc _ hst' ih => exact .snoc ih hst'

theorem run_nil_iff : T.Run s₀ [] s ↔ s = s₀ := by
  refine ⟨fun h => ?_, fun h => h ▸ .nil⟩
  generalize hlabels : [] = labels at h
  cases h with
  | nil => rfl
  | snoc h hst => simp at hlabels

theorem run_cons_iff {l : L} : T.Run s₀ (l :: ls) s ↔ ∃ s₁, T.step s₀ l s₁ ∧ T.Run s₁ ls s := by
  refine ⟨fun h => ?_, fun ⟨s₁, hst, h⟩ => .cons hst h⟩
  generalize hlabels : l :: ls = labels at h
  induction h generalizing ls with
  | nil => cases hlabels
  | snoc h hst ih =>
    rename_i front s s' last
    cases front with
    | nil =>
      cases hlabels
      rw [run_nil_iff] at h
      exact ⟨s', h ▸ hst, .nil⟩
    | cons a front =>
      obtain ⟨rfl, rfl⟩ := List.cons.inj hlabels
      obtain ⟨s₁, hfirst, hrest⟩ := ih rfl
      exact ⟨s₁, hfirst, .snoc hrest hst⟩

theorem run_ofFun (f : S → L → S) (s₀ : S) (ls : List L) : (ofFun f).Run s₀ ls (ls.foldl f s₀) := by
  induction ls using List.reverseRecOn with
  | nil => exact .nil
  | append_singleton ls l ih =>
    rw [foldl_append]
    exact .snoc ih rfl

/-- Every step of the fold meets `G`. -/
def allGuarded (f : S → L → S) (G : S → L → Prop) [∀ s l, Decidable (G s l)] : S → List L → Bool
  | _, [] => true
  | s, l :: ls => decide (G s l) && allGuarded f G (f s l) ls

theorem run_guard_ofFun {f : S → L → S} [∀ s l, Decidable (G s l)] {s₀ : S} {ls : List L}
    (h : allGuarded f G s₀ ls = true) : ((ofFun f).guard G).Run s₀ ls (ls.foldl f s₀) := by
  induction ls generalizing s₀ with
  | nil => exact .nil
  | cons l ls ih =>
    rw [allGuarded, Bool.and_eq_true, decide_eq_true_eq] at h
    exact .cons ⟨h.1, rfl⟩ (ih h.2)

/-- The states that a step function runs through, the first one included. -/
def trace (f : S → L → S) : S → List L → List S
  | s, [] => [s]
  | s, l :: ls => s :: trace f (f s l) ls

theorem forall_mem_trace {f : S → L → S} (hstep : ∀ s l, I s → I (f s l)) {s₀ : S} (h₀ : I s₀)
    (ls : List L) : ∀ s ∈ trace f s₀ ls, I s := by
  induction ls generalizing s₀ with
  | nil => simpa [trace] using h₀
  | cons l ls ih => exact forall_mem_cons.2 ⟨h₀, ih (hstep s₀ l h₀)⟩

/-- Every step that the labels take from `s` meets `Q` in the state it leaves. -/
def Along (T : Trans S L) (Q : S → L → Prop) : S → List L → Prop
  | _, [] => True
  | s, l :: ls => Q s l ∧ ∀ s', T.step s l s' → T.Along Q s' ls

theorem along_congr {Q' : S → L → Prop} (h : ∀ s l, Q s l ↔ Q' s l) :
    T.Along Q s ls ↔ T.Along Q' s ls := by
  induction ls generalizing s with
  | nil => exact Iff.rfl
  | cons l ls ih => exact and_congr (h s l) (forall₂_congr fun s' _ => ih)

theorem along_congr_of {Q' : S → L → Prop} (hG : T.Along G s ls)
    (h : ∀ s l, G s l → (Q s l ↔ Q' s l)) : T.Along Q s ls ↔ T.Along Q' s ls := by
  induction ls generalizing s with
  | nil => exact Iff.rfl
  | cons l ls ih => exact and_congr (h s l hG.1) (forall₂_congr fun s' hst => ih (hG.2 s' hst))

theorem Along.of_invariant (hG : T.Along G s ls) (hs : I s)
    (hstep : ∀ s l s', I s → G s l → T.step s l s' → I s') (hQ : ∀ s l, I s → G s l → Q s l) :
    T.Along Q s ls := by
  induction ls generalizing s with
  | nil => trivial
  | cons l ls ih =>
    obtain ⟨hl, hrest⟩ := hG
    exact ⟨hQ s l hs hl, fun s' hst => ih (hrest s' hst) (hstep s l s' hs hl hst)⟩

theorem along_invariant (hs : I s) (hstep : ∀ s l s', I s → T.step s l s' → I s') :
    T.Along (fun s _ => I s) s ls := by
  induction ls generalizing s with
  | nil => trivial
  | cons l ls ih => exact ⟨hs, fun s' hst => ih (hstep s l s' hs hst)⟩

theorem Along.run_guard {s' : S} (hG : T.Along G s ls) (h : T.Run s ls s') :
    (T.guard G).Run s ls s' := by
  induction ls generalizing s with
  | nil =>
    rw [run_nil_iff] at h
    exact h ▸ .nil
  | cons l ls ih =>
    obtain ⟨s₁, hst, hrest⟩ := run_cons_iff.1 h
    exact .cons ⟨hG.1, hst⟩ (ih (hG.2 s₁ hst) hrest)

/-- A computed check of every step: `f` gives the next state, `g` checks the step. -/
def checkAlong (f : S → L → Option S) (g : S → L → Bool) : S → List L → Bool
  | _, [] => true
  | s, l :: ls => g s l && (f s l).all fun s' => checkAlong f g s' ls

theorem along_of_check {f : S → L → Option S} {g : S → L → Bool}
    (hf : ∀ s l s', T.step s l s' → f s l = some s') (hg : ∀ s l, g s l = true → G s l)
    (h : checkAlong f g s ls = true) : T.Along G s ls := by
  induction ls generalizing s with
  | nil => trivial
  | cons l ls ih =>
    rw [checkAlong, Bool.and_eq_true] at h
    refine ⟨hg s l h.1, fun s' hst => ih ?_⟩
    have hall := h.2
    rw [hf s l s' hst] at hall
    exact hall

end Trans

end PactMesh
