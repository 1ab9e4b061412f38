import Mathlib.Algebra.Order.Ring.Int
import Mathlib.Data.List.Basic

/-!
# Computations that can panic

A function of the source returns a value, which may itself be an error, or it panics.  `Outcome`
keeps the two apart: an error is a value, and a panic is no value.

* `returns_bind_iff` and its like : what it takes for a computation to return.
-/

namespace PactMesh

open List

/-- What made a computation panic. -/
inductive PanicKind
  | unwrapNone
  | indexOutOfRange
  | arithmeticOverflow
  | capacityOverflow
  | assertionFailed
  | divisionByZero
  | explicitPanic
  | stackOverflow
  | outOfMemory
deriving DecidableEq

/-- The result of a computation that can panic. -/
inductive Outcome (α : Type)
  | returns (a : α)
  | panics (why : PanicKind)
deriving DecidableEq

namespace Outcome

variable {α β : Type}

/-- Go on with the value, if there is one. -/
protected def bind (x : Outcome α) (f : α → Outcome β) : Outcome β :=
  match x with
  | .returns a => f a
  | .panics why => .panics why

instance : Monad Outcome where
  pure := .returns
  bind := Outcome.bind

instance : LawfulMonad Outcome :=
  LawfulMonad.mk' Outcome (by rintro α ⟨⟩ <;> rfl) (fun _ _ => rfl)
    (by rintro α β γ ⟨⟩ _ _ <;> rfl)

@[simp] theorem pure_eq (a : α) : (pure a : Outcome α) = .returns a := rfl

@[simp] theorem returns_bind (a : α) (f : α → Outcome β) : (Outcome.returns a >>= f) = f a := rfl

@[simp] theorem panics_bind (why : PanicKind) (f : α → Outcome β) :
    ((.panics why : Outcome α) >>= f) = .panics why := rfl

/-- `unwrap` and `expect` -/
def unwrap : Option α → Outcome α
  | some a => .returns a
  | none => .panics .unwrapNone

/-- `xs[i]` -/
def index (xs : List α) (i : ℕ) : Outcome α :=
  match xs[i]? with
  | some a => .returns a
  | none => .panics .indexOutOfRange

/-- `xs[i] = a` -/
def setIndex (xs : List α) (i : ℕ) (a : α) : Outcome (List α) :=
  if i < xs.length then .returns (xs.set i a) else .panics .indexOutOfRange

/-- `xs[i..j]` -/
def slice (xs : List α) (i j : ℕ) : Outcome (List α) :=
  if i ≤ j ∧ j ≤ xs.length then .returns ((xs.drop i).take (j - i)) else .panics .indexOutOfRange

/-- `xs[i..i + data.len()].copy_from_slice(data)` -/
def copyFromSlice (xs : List α) (i : ℕ) (data : List α) : Outcome (List α) :=
  if i + data.length ≤ xs.length then .returns (xs.take i ++ data ++ xs.drop (i + data.length))
  else .panics .indexOutOfRange

/-- The result of an operation on `w`-bit numbers whose true result is `n`: out of range it panics
with overflow checks and wraps without. -/
def arith (checks : Bool) (w : ℕ) (n : ℤ) : Outcome ℕ :=
  if 0 ≤ n ∧ n < 2 ^ w then .returns n.toNat
  else if checks then .panics .arithmeticOverflow
  else .returns (n % 2 ^ w).toNat

/-- Panic unless the condition holds. -/
def ensure (p : Bool) (why : PanicKind) : Outcome Unit := if p then .returns () else .panics why

/-- The computation does not panic. -/
def Returns (x : Outcome α) : Prop := ∃ a, x = .returns a

instance (x : Outcome α) : Decidable x.Returns :=
  match x with
  | .returns a => isTrue ⟨a, rfl⟩
  | .panics _ => isFalse nofun

@[simp] theorem returns_returns (a : α) : (returns a).Returns := ⟨a, rfl⟩

@[simp] theorem not_returns_panics (why : PanicKind) : ¬ (panics why : Outcome α).Returns := nofun

variable {x : Outcome α} {f : α → Outcome β} {xs : List α} {i : ℕ}

theorem bind_eq_returns_iff {b : β} :
    x >>= f = .returns b ↔ ∃ a, x = .returns a ∧ f a = .returns b := by
  cases x with
  | panics why => exact ⟨nofun, nofun⟩
  | returns a => exact ⟨fun h => ⟨a, rfl, h⟩, fun ⟨_, rfl, h⟩ => h⟩

theorem returns_bind_iff : (x >>= f).Returns ↔ x.Returns ∧ ∀ a, x = .returns a → (f a).Returns := by
  cases x <;> simp

theorem Returns.bind (hx : x.Returns) (hf : ∀ a, x = .returns a → (f a).Returns) :
    (x >>= f).Returns := returns_bind_iff.2 ⟨hx, hf⟩

theorem returns_bind_iff_left (hf : ∀ a, (f a).Returns) : (x >>= f).Returns ↔ x.Returns :=
  returns_bind_iff.trans (and_iff_left fun a _ => hf a)

theorem returns_bind_iff_and {p : Prop} (hf : ∀ a, (f a).Returns ↔ p) :
    (x >>= f).Returns ↔ x.Returns ∧ p := by
  cases x <;> simp [hf]

@[simp] theorem returns_unwrap_iff {o : Option α} : (unwrap o).Returns ↔ o ≠ none := by
  cases o <;> simp [unwrap]

theorem unwrap_eq_returns_iff {o : Option α} {a : α} : unwrap o = .returns a ↔ o = some a := by
  cases o <;> simp [unwrap]

@[simp] theorem returns_ensure_iff {p : Bool} {why : PanicKind} :
    (ensure p why).Returns ↔ p = true := by
  cases p <;> simp [ensure]

theorem returns_mapM_iff {l : List α} : (l.mapM f).Returns ↔ ∀ a ∈ l, (f a).Returns := by
  induction l with
  | nil => simp [Returns]
  | cons a l ih =>
    rw [mapM_cons, forall_mem_cons, ← ih]
    exact returns_bind_iff_and fun _ => returns_bind_iff_left fun _ => returns_returns _

theorem mapM_eq_returns {l : List α} {g : α → β} (h : ∀ a ∈ l, f a = .returns (g a)) :
    l.mapM f = .returns (l.map g) := by
  induction l with
  | nil => rfl
  | cons a l ih =>
    obtain ⟨ha, hl⟩ := forall_mem_cons.1 h
    rw [mapM_cons, ha, returns_bind, ih hl]
    rfl

theorem arith_natCast {checks : Bool} {w n : ℕ} (h : n < 2 ^ w) :
    arith checks w (n : ℤ) = .returns n := by
  have hn : (n : ℤ) < 2 ^ w := by exact_mod_cast h
  rw [arith, if_pos ⟨Int.natCast_nonneg n, hn⟩, Int.toNat_natCast]

theorem lt_of_arith_eq {checks : Bool} {w n : ℕ} {z : ℤ} (h : arith checks w z = .returns n) :
    n < 2 ^ w := by
  have hpos : (0 : ℤ) < 2 ^ w := by exact_mod_cast Nat.two_pow_pos w
  unfold arith at h
  split_ifs at h with hz
  · cases h
    rw [Int.toNat_lt hz.1]
    exact_mod_cast hz.2
  · cases h
    rw [Int.toNat_lt (Int.emod_nonneg _ hpos.ne')]
    exact_mod_cast Int.emod_lt_of_pos z hpos

theorem slice_eq {j : ℕ} (hij : i ≤ j) (hj : j ≤ xs.length) :
    slice xs i j = .returns ((xs.drop i).take (j - i)) := if_pos ⟨hij, hj⟩

theorem copyFromSlice_eq {data : List α} (h : i + data.length ≤ xs.length) :
    copyFromSlice xs i data = .returns (xs.take i ++ data ++ xs.drop (i + data.length)) := if_pos h

theorem copyFromSlice_append (done rest data : List α) (hi : done.length = i)
    (h : data.length ≤ rest.length) :
    copyFromSlice (done ++ rest) i data = .returns (done ++ data ++ rest.drop data.length) := by
  subst hi
  rw [copyFromSlice_eq (by simpa using h), take_left, drop_length_add_append]

theorem length_of_copyFromSlice {data ys : List α} (h : copyFromSlice xs i data = .returns ys) :
    ys.length = xs.length := by
  unfold copyFromSlice at h
  split at h
  · next hi =>
    cases h
    simp only [length_append, length_take, length_drop]
    omega
  · cases h

end Outcome

end PactMesh
