import Mathlib.Logic.Function.Basic

/-!
# Replacing a file through a temporary one

Each of the steps can fail; a write that fails leaves anything in the temporary file, and a rename
happens or does not.
-/

namespace PactMesh

namespace FileReplace

/-- The step that fails. -/
inductive FileError
  | createDirAll
  | write
  | rename
deriving DecidableEq

/-- What the file system does with the steps, for files with contents in `β`. -/
structure FileOutcome (β : Type*) where
  createDirAll : Bool := true
  /-- `some left` : the write fails, and `left` is what is in the temporary file afterwards -/
  writeFails : Option (Option β) := none
  rename : Bool := true

variable {α β : Type*} [DecidableEq α]

/-- No step fails. -/
def FileOutcome.Works (outcome : FileOutcome β) : Prop :=
  outcome.createDirAll = true ∧ outcome.writeFails = none ∧ outcome.rename = true

/-- Make the directory, write the temporary file and rename it: the result and the files
afterwards. -/
def replaceFile (disk : α → Option β) (path tmpPath : α) (content : β) (outcome : FileOutcome β) :
    Except FileError Unit × (α → Option β) :=
  if outcome.createDirAll = false then (.error .createDirAll, disk)
  else
    match outcome.writeFails with
    | some left => (.error .write, Function.update disk tmpPath left)
    | none =>
      let written := Function.update disk tmpPath (some content)
      if outcome.rename = false then (.error .rename, written)
      else (.ok (), Function.update (Function.update written tmpPath none) path (some content))

variable {disk : α → Option β} {path tmpPath : α} {content : β} {outcome : FileOutcome β}

theorem replaceFile_cases (disk : α → Option β) (path tmpPath : α) (content : β)
    (outcome : FileOutcome β) :
    (outcome.Works ∧ (replaceFile disk path tmpPath content outcome).1 = .ok () ∧
      (replaceFile disk path tmpPath content outcome).2 path = some content) ∨
    ¬ outcome.Works ∧ (∃ e, (replaceFile disk path tmpPath content outcome).1 = .error e) ∧
      ∀ other, other ≠ tmpPath →
        (replaceFile disk path tmpPath content outcome).2 other = disk other := by
  unfold replaceFile FileOutcome.Works
  obtain ⟨dir, fails, rename⟩ := outcome
  cases dir <;> cases fails <;> cases rename <;> simp +contextual

theorem replaceFile_of_ne {other : α} (h : other ≠ path) (htmp : other ≠ tmpPath) :
    (replaceFile disk path tmpPath content outcome).2 other = disk other := by
  unfold replaceFile
  obtain ⟨dir, fails, rename⟩ := outcome
  cases dir <;> cases fails <;> cases rename <;> simp [h, htmp]

end FileReplace

end PactMesh
