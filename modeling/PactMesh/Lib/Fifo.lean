import PactMesh.Lib.Trans
import Mathlib.Data.List.Forall2

/-!
# Queues that follow a counter

A sender labels its messages, one step of a system `T` for each label; a receiver that takes them from
a queue follows the same system.  `Spans T Carries p queue p'` says that the messages of `queue` lead
from `p` to `p'`; it survives a `push` at the end and a `pop` at the front.
-/

namespace PactMesh

namespace Fifo

variable {P L M : Type*} {T : Trans P L} {Carries : M → L → Prop} {p p' : P} {queue : List M}

/-- The messages of the queue carry the labels of a run from `p` to `p'`. -/
def Spans (T : Trans P L) (Carries : M → L → Prop) (p : P) (queue : List M) (p' : P) : Prop :=
  ∃ labels, T.Run p labels p' ∧ List.Forall₂ Carries queue labels

theorem Spans.nil (p : P) : Spans T Carries p [] p := ⟨[], .nil, .nil⟩

theorem Spans.push (h : Spans T Carries p queue p') {m : M} {l : L} {p'' : P}
    (hst : T.step p' l p'') (hm : Carries m l) : Spans T Carries p (queue ++ [m]) p'' := by
  obtain ⟨labels, hrun, hall⟩ := h
  exact ⟨labels ++ [l], .snoc hrun hst, List.rel_append hall (.cons hm .nil)⟩

theorem Spans.pop {m : M} (h : Spans T Carries p (m :: queue) p') :
    ∃ l p₁, T.step p l p₁ ∧ Carries m l ∧ Spans T Carries p₁ queue p' := by
  obtain ⟨labels, hrun, hall⟩ := h
  cases hall with
  | cons hm hrest =>
    obtain ⟨p₁, hst, hrun⟩ := Trans.run_cons_iff.1 hrun
    exact ⟨_, p₁, hst, hm, _, hrun, hrest⟩

end Fifo

end PactMesh
