import PactMesh.Lib.Trans
import Mathlib.Data.Set.Insert
import Mathlib.Logic.Function.Basic

/-!
# Shared objects that are created on demand

A call joins the object published under its key, or a new one, which it publishes when it is done,
whatever is under the key by then.  Calls take two steps with a wait between them and interleave.

Main result: `published_iff_along`.
-/

namespace PactMesh.Publication

open Function

/-- Objects by origin: those of the start, and those that calls create. -/
inductive Ref (κ ι : Type*)
  | initial (k : κ)
  | created (i : ι)
deriving DecidableEq

/-- How far a call has come. -/
inductive Phase (κ ι ε : Type*)
  | idle
  /-- the call has joined an object, which it has created itself if `isNew` -/
  | waiting (r : Ref κ ι) (isNew : Bool)
  | done (r : Ref κ ι)
  | failed (e : ε)
deriving DecidableEq

/-- What calls do to objects. -/
structure Ops (ι σ ε : Type*) where
  /-- a new object -/
  fresh : σ
  /-- the step before the wait, which may fail -/
  join : ι → σ → Except ε Unit × σ
  /-- the step after the wait -/
  attach : ι → σ → σ

/-- What is published, all objects, and the calls. -/
structure State (κ ι σ ε : Type*) where
  published : κ → Option (Ref κ ι)
  object : Ref κ ι → σ
  phase : ι → Phase κ ι ε

/-- The two steps of a call. -/
inductive Event (ι : Type*)
  | start (i : ι)
  | finish (i : ι)
deriving DecidableEq

variable {κ ι σ ε : Type*} [DecidableEq κ] [DecidableEq ι]

section Step

variable (ops : Ops ι σ ε) (key : ι → κ)

/-- A call joins an object. -/
def State.join (s : State κ ι σ ε) (i : ι) (r : Ref κ ι) (isNew : Bool) (obj : σ) : State κ ι σ ε :=
  { s with
    object := update s.object r (ops.join i obj).2
    phase := update s.phase i
      (match (ops.join i obj).1 with
        | .ok () => .waiting r isNew
        | .error e => .failed e) }

/-- The first step: look for the object, or create one. -/
def State.start (s : State κ ι σ ε) (i : ι) : State κ ι σ ε :=
  match s.published (key i) with
  | none => s.join ops i (.created i) true ops.fresh
  | some r => s.join ops i r false (s.object r)

/-- The second step: a new object is published. -/
def State.finish (s : State κ ι σ ε) (i : ι) (r : Ref κ ι) (isNew : Bool) : State κ ι σ ε where
  published := if isNew then update s.published (key i) (some r) else s.published
  object := update s.object r (ops.attach i (s.object r))
  phase := update s.phase i (.done r)

/-- One event, if its call is ready for it. -/
def step (s : State κ ι σ ε) : Event ι → Option (State κ ι σ ε)
  | .start i =>
    match s.phase i with
    | .idle => some (s.start ops key i)
    | _ => none
  | .finish i =>
    match s.phase i with
    | .waiting r isNew => some (s.finish ops key i r isNew)
    | _ => none

/-- The system of interleaved calls. -/
def system : Trans (State κ ι σ ε) (Event ι) where
  step s ev s' := step ops key s ev = some s'

end Step

variable {ops : Ops ι σ ε} {key : ι → κ} {s s' s₀ : State κ ι σ ε} {ev : Event ι}
  {events : List (Event ι)}

theorem step_cases (h : step ops key s ev = some s') :
    (∃ i, ev = .start i ∧ s.phase i = .idle ∧
      (s.published (key i) = none ∧ s' = s.join ops i (.created i) true ops.fresh ∨
        ∃ r, s.published (key i) = some r ∧ s' = s.join ops i r false (s.object r))) ∨
    ∃ i r isNew, ev = .finish i ∧ s.phase i = .waiting r isNew ∧
      s' = s.finish ops key i r isNew := by
  cases ev with
  | start i =>
    cases hphase : s.phase i with
    | idle =>
      simp only [step, hphase, Option.some.injEq] at h
      subst h
      refine .inl ⟨i, rfl, hphase, ?_⟩
      unfold State.start
      cases s.published (key i) with
      | none => exact .inl ⟨rfl, rfl⟩
      | some r => exact .inr ⟨r, rfl, rfl⟩
    | _ => simp [step, hphase] at h
  | finish i =>
    cases hphase : s.phase i with
    | waiting r isNew =>
      simp only [step, hphase, Option.some.injEq] at h
      exact .inr ⟨i, r, isNew, rfl, hphase, h.symm⟩
    | _ => simp [step, hphase] at h

section Phases

variable {i j : ι} {r r' : Ref κ ι} {isNew isNew' : Bool} {obj : σ}

theorem phase_join_of_ne (h : j ≠ i) : (s.join ops i r isNew obj).phase j = s.phase j :=
  update_of_ne h _ _

theorem phase_join_self : (s.join ops i r isNew obj).phase i =
    match (ops.join i obj).1 with
      | .ok () => .waiting r isNew
      | .error e => .failed e := update_self _ _ _

theorem phase_start_of_ne (h : j ≠ i) : (s.start ops key i).phase j = s.phase j := by
  unfold State.start
  split <;> exact phase_join_of_ne h

theorem phase_finish_of_ne (h : j ≠ i) : (s.finish ops key i r isNew).phase j = s.phase j :=
  update_of_ne h _ _

theorem phase_finish_self : (s.finish ops key i r isNew).phase i = .done r := update_self _ _ _

theorem waiting_join (h : (s.join ops i r isNew obj).phase j = .waiting r' isNew') :
    j = i ∧ r' = r ∧ isNew' = isNew ∧ (ops.join i obj).1 = .ok () ∨
      j ≠ i ∧ s.phase j = .waiting r' isNew' := by
  by_cases hj : j = i
  · subst hj
    rw [phase_join_self] at h
    cases hout : (ops.join j obj).1 with
    | error e => simp [hout] at h
    | ok u =>
      simp only [hout, Phase.waiting.injEq] at h
      exact .inl ⟨rfl, h.1.symm, h.2.symm, rfl⟩
  · rw [phase_join_of_ne hj] at h
    exact .inr ⟨hj, h⟩

theorem done_join (h : (s.join ops i r isNew obj).phase j = .done r') :
    j ≠ i ∧ s.phase j = .done r' := by
  by_cases hj : j = i
  · subst hj
    rw [phase_join_self] at h
    cases hout : (ops.join j obj).1 <;> simp [hout] at h
  · rw [phase_join_of_ne hj] at h
    exact ⟨hj, h⟩

theorem not_idle_join_self : (s.join ops i r isNew obj).phase i ≠ .idle := by
  rw [phase_join_self]
  cases (ops.join i obj).1 <;> simp

theorem waiting_finish (h : (s.finish ops key i r isNew).phase j = .waiting r' isNew') :
    j ≠ i ∧ s.phase j = .waiting r' isNew' := by
  by_cases hj : j = i
  · subst hj
    rw [phase_finish_self] at h
    cases h
  · rw [phase_finish_of_ne hj] at h
    exact ⟨hj, h⟩

theorem done_finish (h : (s.finish ops key i r isNew).phase j = .done r') :
    j = i ∧ r' = r ∨ j ≠ i ∧ s.phase j = .done r' := by
  by_cases hj : j = i
  · subst hj
    rw [phase_finish_self] at h
    exact .inl ⟨rfl, (Phase.done.inj h).symm⟩
  · rw [phase_finish_of_ne hj] at h
    exact .inr ⟨hj, h⟩

end Phases

theorem not_idle_step (h : step ops key s ev = some s') {j : ι} (hj : s.phase j ≠ .idle) :
    s'.phase j ≠ .idle := by
  obtain ⟨i, -, hidle, hcase⟩ | ⟨i, r, isNew, -, -, rfl⟩ := step_cases h
  · have hji : j ≠ i := by
      rintro rfl
      exact hj hidle
    obtain ⟨-, rfl⟩ | ⟨r, -, rfl⟩ := hcase <;> rwa [phase_join_of_ne hji]
  · by_cases hji : j = i
    · rw [hji, phase_finish_self]
      nofun
    · rwa [phase_finish_of_ne hji]

/-! ### Which objects are known -/

/-- Objects that calls create belong to calls that have started. -/
structure Known (s : State κ ι σ ε) : Prop where
  waiting {i j : ι} {isNew : Bool} : s.phase i = .waiting (.created j) isNew → s.phase j ≠ .idle
  done {i j : ι} : s.phase i = .done (.created j) → s.phase j ≠ .idle
  published {k : κ} {j : ι} : s.published k = some (.created j) → s.phase j ≠ .idle
  own {i : ι} {r : Ref κ ι} : s.phase i = .waiting r true → r = .created i

theorem Known.join (hs : Known s) {i : ι} {r : Ref κ ι} {isNew : Bool} {obj : σ}
    (hkeep : ∀ {j : ι}, s.phase j ≠ .idle → (s.join ops i r isNew obj).phase j ≠ .idle)
    (hr : ∀ {j : ι}, r = .created j → (s.join ops i r isNew obj).phase j ≠ .idle)
    (hown : isNew = true → r = .created i) : Known (s.join ops i r isNew obj) := by
  refine ⟨fun hj => ?_, fun hj => hkeep (hs.done (done_join hj).2),
    fun hk => hkeep (hs.published hk), fun hj => ?_⟩
  · obtain ⟨-, heq, -⟩ | ⟨-, hold⟩ := waiting_join hj
    · exact hr heq.symm
    · exact hkeep (hs.waiting hold)
  · obtain ⟨rfl, rfl, hnew, -⟩ | ⟨-, hold⟩ := waiting_join hj
    · exact hown hnew.symm
    · exact hs.own hold

theorem Known.step (hs : Known s) (h : step ops key s ev = some s') : Known s' := by
  have hkeep : ∀ {j : ι}, s.phase j ≠ .idle → s'.phase j ≠ .idle := not_idle_step h
  obtain ⟨i, -, -, ⟨-, rfl⟩ | ⟨r, hfound, rfl⟩⟩ | ⟨i, r, isNew, -, hwait, rfl⟩ := step_cases h
  · exact hs.join hkeep (fun heq => Ref.created.inj heq ▸ not_idle_join_self) fun _ => rfl
  · exact hs.join hkeep (fun heq => hkeep (hs.published (heq ▸ hfound))) nofun
  · refine ⟨fun hj => hkeep (hs.waiting (waiting_finish hj).2), fun hj => ?_, fun hk => ?_,
      fun hj => hs.own (waiting_finish hj).2⟩
    · obtain ⟨-, rfl⟩ | ⟨-, hold⟩ := done_finish hj
      · exact hkeep (hs.waiting hwait)
      · exact hkeep (hs.done hold)
    · cases isNew with
      | false => exact hkeep (hs.published hk)
      | true =>
        rename_i k j
        by_cases hki : k = key i
        · subst hki
          simp only [State.finish, if_true, update_self, Option.some.injEq] at hk
          subst hk
          exact hkeep (hs.waiting hwait)
        · simp only [State.finish, if_true, update_of_ne hki] at hk
          exact hkeep (hs.published hk)

/-! ### What the objects hold -/

/-- The object that a call has joined and waits with. -/
def Phase.waitsWith : Phase κ ι ε → Option (Ref κ ι)
  | .waiting r _ => some r
  | _ => none

/-- The calls that have joined an object and wait. -/
def waitingAt (s : State κ ι σ ε) (r : Ref κ ι) : Set ι := {i | (s.phase i).waitsWith = some r}

/-- The calls that are done with an object. -/
def doneAt (s : State κ ι σ ε) (r : Ref κ ι) : Set ι := {i | s.phase i = .done r}

/-- What an object keeps of the calls that wait and of those that are done, call by call. -/
structure Served (ops : Ops ι σ ε) (I : σ → Set ι → Set ι → Prop) : Prop where
  fresh : I ops.fresh ∅ ∅
  joined {obj : σ} {W D : Set ι} {i : ι} : I obj W D → (ops.join i obj).1 = .ok () →
    I (ops.join i obj).2 (insert i W) D
  refused {obj : σ} {W D : Set ι} {i : ι} {e : ε} : I obj W D → (ops.join i obj).1 = .error e →
    I (ops.join i obj).2 W D
  attached {obj : σ} {W D : Set ι} {i : ι} : I obj W D → i ∈ W →
    I (ops.attach i obj) (W \ {i}) (insert i D)

section Members

variable {i : ι} {r r' : Ref κ ι} {isNew : Bool} {obj : σ}

theorem doneAt_join (hidle : s.phase i = .idle) :
    doneAt (s.join ops i r isNew obj) r' = doneAt s r' := by
  ext j
  refine ⟨fun h => (done_join h).2, fun h => ?_⟩
  have hj : j ≠ i := by
    rintro rfl
    cases hidle.symm.trans h
  exact (phase_join_of_ne hj).trans h

theorem waitingAt_join_of_ok (hidle : s.phase i = .idle) (hok : (ops.join i obj).1 = .ok ()) :
    waitingAt (s.join ops i r isNew obj) r' =
      if r' = r then insert i (waitingAt s r') else waitingAt s r' := by
  ext j
  by_cases hj : j = i
  · subst hj
    by_cases hr : r' = r
    · simp [waitingAt, phase_join_self, hok, Phase.waitsWith, hr]
    · simp [waitingAt, phase_join_self, hok, Phase.waitsWith, hidle, hr, Ne.symm hr]
  · split_ifs <;> simp [waitingAt, phase_join_of_ne hj, hj]

theorem waitingAt_join_of_error {e : ε} (hidle : s.phase i = .idle)
    (herror : (ops.join i obj).1 = .error e) :
    waitingAt (s.join ops i r isNew obj) r' = waitingAt s r' := by
  ext j
  by_cases hj : j = i
  · subst hj
    simp [waitingAt, phase_join_self, herror, Phase.waitsWith, hidle]
  · simp [waitingAt, phase_join_of_ne hj]

theorem waitingAt_finish (hwait : s.phase i = .waiting r isNew) :
    waitingAt (s.finish ops key i r isNew) r' =
      if r' = r then waitingAt s r' \ {i} else waitingAt s r' := by
  ext j
  by_cases hj : j = i
  · subst hj
    by_cases hr : r' = r
    · simp [waitingAt, phase_finish_self, Phase.waitsWith, hr]
    · simp [waitingAt, phase_finish_self, Phase.waitsWith, hwait, hr, Ne.symm hr]
  · split_ifs <;> simp [waitingAt, phase_finish_of_ne hj, hj]

theorem doneAt_finish (hwait : s.phase i = .waiting r isNew) :
    doneAt (s.finish ops key i r isNew) r' =
      if r' = r then insert i (doneAt s r') else doneAt s r' := by
  ext j
  by_cases hj : j = i
  · subst hj
    by_cases hr : r' = r
    · simp [doneAt, phase_finish_self, hr]
    · simp [doneAt, phase_finish_self, hwait, hr, Ne.symm hr]
  · split_ifs <;> simp [doneAt, phase_finish_of_ne hj, hj]

theorem object_join_self : (s.join ops i r isNew obj).object r = (ops.join i obj).2 :=
  update_self _ _ _

theorem object_join_of_ne (h : r' ≠ r) : (s.join ops i r isNew obj).object r' = s.object r' :=
  update_of_ne h _ _

theorem object_finish_self : (s.finish ops key i r isNew).object r = ops.attach i (s.object r) :=
  update_self _ _ _

theorem object_finish_of_ne (h : r' ≠ r) : (s.finish ops key i r isNew).object r' = s.object r' :=
  update_of_ne h _ _

end Members

variable {I : σ → Set ι → Set ι → Prop} {i : ι} {r : Ref κ ι}

theorem Served.join (hI : Served ops I) (hs : ∀ r, I (s.object r) (waitingAt s r) (doneAt s r))
    {isNew : Bool} {obj : σ} (hidle : s.phase i = .idle) (hobj : I obj (waitingAt s r) (doneAt s r))
    (r' : Ref κ ι) :
    I ((s.join ops i r isNew obj).object r') (waitingAt (s.join ops i r isNew obj) r')
      (doneAt (s.join ops i r isNew obj) r') := by
  rw [doneAt_join hidle]
  cases hout : (ops.join i obj).1 with
  | ok u =>
    rw [waitingAt_join_of_ok hidle hout]
    by_cases hr : r' = r
    · subst hr
      rw [if_pos rfl, object_join_self]
      exact hI.joined hobj hout
    · rw [if_neg hr, object_join_of_ne hr]
      exact hs r'
  | error e =>
    rw [waitingAt_join_of_error hidle hout]
    by_cases hr : r' = r
    · subst hr
      rw [object_join_self]
      exact hI.refused hobj hout
    · rw [object_join_of_ne hr]
      exact hs r'

theorem Served.step (hI : Served ops I) (hknown : Known s)
    (hs : ∀ r, I (s.object r) (waitingAt s r) (doneAt s r))
    (h : Publication.step ops key s ev = some s') (r' : Ref κ ι) :
    I (s'.object r') (waitingAt s' r') (doneAt s' r') := by
  obtain ⟨i, -, hidle, ⟨-, rfl⟩ | ⟨r, -, rfl⟩⟩ | ⟨i, r, isNew, -, hwait, rfl⟩ := step_cases h
  · -- nobody knows the new object
    have hnobody : waitingAt s (.created i) = ∅ ∧ doneAt s (.created i) = ∅ := by
      refine ⟨Set.eq_empty_of_forall_notMem ?_, Set.eq_empty_of_forall_notMem ?_⟩
      · intro j hj
        cases hphase : s.phase j with
        | waiting r isNew =>
          simp only [waitingAt, Set.mem_ofPred_eq, hphase, Phase.waitsWith, Option.some.injEq] at hj
          exact hknown.waiting (hj ▸ hphase) hidle
        | _ => simp [waitingAt, hphase, Phase.waitsWith] at hj
      · intro j hj
        exact hknown.done hj hidle
    refine hI.join hs hidle ?_ r'
    rw [hnobody.1, hnobody.2]
    exact hI.fresh
  · exact hI.join hs hidle (hs r) r'
  · rw [waitingAt_finish hwait, doneAt_finish hwait]
    by_cases hr : r' = r
    · subst hr
      have hmem : i ∈ waitingAt s r' := by simp [waitingAt, hwait, Phase.waitsWith]
      rw [if_pos rfl, if_pos rfl, object_finish_self]
      exact hI.attached (hs r') hmem
    · rw [if_neg hr, if_neg hr, object_finish_of_ne hr]
      exact hs r'

/-! ### Lost objects -/

/-- No call that finds its key free meets another one that is about to publish under that key. -/
def NoOverlap (key : ι → κ) (s : State κ ι σ ε) : Event ι → Prop
  | .start i => s.published (key i) = none → ∀ j r, s.phase j = .waiting r true → key j ≠ key i
  | .finish _ => True

/-- The objects of calls are published, or about to be, one under each key. -/
structure Serial (key : ι → κ) (s : State κ ι σ ε) : Prop where
  done {i : ι} {r : Ref κ ι} : s.phase i = .done r → s.published (key i) = some r
  joined {i : ι} {r : Ref κ ι} : s.phase i = .waiting r false → s.published (key i) = some r
  free {i : ι} {r : Ref κ ι} : s.phase i = .waiting r true → s.published (key i) = none
  one {i j : ι} {r r' : Ref κ ι} : s.phase i = .waiting r true → s.phase j = .waiting r' true →
    key i = key j → i = j

/-- The call creates an object of its own. -/
def Creates (s : State κ ι σ ε) (i : ι) : Prop :=
  s.phase i = .waiting (.created i) true ∨ s.phase i = .done (.created i)

/-- Two calls create objects for one key. -/
def Collides (key : ι → κ) (s : State κ ι σ ε) : Prop :=
  ∃ i j, i ≠ j ∧ key i = key j ∧ Creates s i ∧ Creates s j

theorem Creates.step (hi : Creates s i) (h : step ops key s ev = some s') : Creates s' i := by
  obtain ⟨j, -, hidle, hcase⟩ | ⟨j, r, isNew, -, hwait, rfl⟩ := step_cases h
  · have hij : i ≠ j := by
      rintro rfl
      obtain hi | hi := hi <;> cases hidle.symm.trans hi
    obtain ⟨-, rfl⟩ | ⟨r, -, rfl⟩ := hcase <;> rwa [Creates, phase_join_of_ne hij]
  · by_cases hij : i = j
    · subst hij
      obtain hi | hi := hi
      · cases hwait.symm.trans hi
        exact .inr phase_finish_self
      · cases hwait.symm.trans hi
    · rwa [Creates, phase_finish_of_ne hij]

theorem Collides.step (hs : Collides key s) (h : step ops key s ev = some s') :
    Collides key s' := by
  obtain ⟨i, j, hne, hkey, hi, hj⟩ := hs
  exact ⟨i, j, hne, hkey, hi.step h, hj.step h⟩

theorem Serial.join (hs : Serial key s) {isNew : Bool}
    (hjoined : isNew = false → s.published (key i) = some r)
    (hfree : isNew = true → s.published (key i) = none ∧
      ∀ j r, s.phase j = .waiting r true → key j ≠ key i) (object : σ) :
    Serial key (s.join ops i r isNew object) := by
  refine ⟨fun hj => hs.done (done_join hj).2, fun hj => ?_, fun hj => ?_, fun hj hj' hkey => ?_⟩
  · obtain ⟨rfl, rfl, hnew, -⟩ | ⟨-, hold⟩ := waiting_join hj
    · exact hjoined hnew.symm
    · exact hs.joined hold
  · obtain ⟨rfl, -, hnew, -⟩ | ⟨-, hold⟩ := waiting_join hj
    · exact (hfree hnew.symm).1
    · exact hs.free hold
  · obtain ⟨rfl, -, hnew, -⟩ | ⟨-, hold⟩ := waiting_join hj
    · obtain ⟨rfl, -⟩ | ⟨-, hold'⟩ := waiting_join hj'
      · rfl
      · exact absurd hkey.symm ((hfree hnew.symm).2 _ _ hold')
    · obtain ⟨rfl, -, hnew, -⟩ | ⟨-, hold'⟩ := waiting_join hj'
      · exact absurd hkey ((hfree hnew.symm).2 _ _ hold)
      · exact hs.one hold hold' hkey

theorem Serial.finish_joined (hs : Serial key s) (hwait : s.phase i = .waiting r false) :
    Serial key (s.finish ops key i r false) := by
  refine ⟨fun hj => ?_, fun hj => hs.joined (waiting_finish hj).2,
    fun hj => hs.free (waiting_finish hj).2,
    fun hj hj' => hs.one (waiting_finish hj).2 (waiting_finish hj').2⟩
  obtain ⟨rfl, rfl⟩ | ⟨-, hold⟩ := done_finish hj
  · exact hs.joined hwait
  · exact hs.done hold

theorem Serial.finish_new (hs : Serial key s) (hwait : s.phase i = .waiting r true) :
    Serial key (s.finish ops key i r true) := by
  -- the key was free, so that no other call has an object for it
  have hfree := hs.free hwait
  have hother : ∀ {j : ι}, key j ≠ key i →
      (s.finish ops key i r true).published (key j) = s.published (key j) :=
    fun hkey => update_of_ne hkey _ _
  have hsome : ∀ {j : ι} {r' : Ref κ ι}, s.published (key j) = some r' → key j ≠ key i := by
    intro j r' hj heq
    rw [heq, hfree] at hj
    cases hj
  refine ⟨fun hj => ?_, fun hj => ?_, fun hj => ?_,
    fun hj hj' => hs.one (waiting_finish hj).2 (waiting_finish hj').2⟩
  · obtain ⟨rfl, rfl⟩ | ⟨-, hold⟩ := done_finish hj
    · exact update_self _ _ _
    · rw [hother (hsome (hs.done hold))]
      exact hs.done hold
  · have hold := hs.joined (waiting_finish hj).2
    rw [hother (hsome hold)]
    exact hold
  · obtain ⟨hne, hold⟩ := waiting_finish hj
    rw [hother fun hkey => hne (hs.one hold hwait hkey)]
    exact hs.free hold

theorem Serial.step (hs : Serial key s) (hno : NoOverlap key s ev)
    (h : step ops key s ev = some s') : Serial key s' := by
  obtain ⟨i, rfl, -, ⟨hfree, rfl⟩ | ⟨r, hfound, rfl⟩⟩ | ⟨i, r, isNew, rfl, hwait, rfl⟩ := step_cases h
  · exact hs.join (by simp) (fun _ => ⟨hfree, hno hfree⟩) _
  · exact hs.join (fun _ => hfound) (by simp) _
  · cases isNew with
    | false => exact hs.finish_joined hwait
    | true => exact hs.finish_new hwait

theorem collides_of_overlap (hfresh : ∀ i, (ops.join i ops.fresh).1 = .ok ()) (hknown : Known s)
    (hover : ¬ NoOverlap key s ev) (h : step ops key s ev = some s') : Collides key s' := by
  cases ev with
  | finish i => exact absurd trivial hover
  | start i =>
    simp only [NoOverlap, not_forall, not_not] at hover
    obtain ⟨hfree, j, r, hwait, hkey⟩ := hover
    obtain ⟨i', heq, hidle, ⟨-, rfl⟩ | ⟨r', hfound, -⟩⟩ | ⟨_, _, _, heq, -⟩ := step_cases h
    · cases heq
      have hne : i ≠ j := by
        rintro rfl
        cases hidle.symm.trans hwait
      refine ⟨i, j, hne, hkey.symm, .inl ?_, .inl ?_⟩
      · rw [phase_join_self, hfresh i]
      · rw [phase_join_of_ne hne.symm, hwait, hknown.own hwait]
    · cases heq
      cases hfree.symm.trans hfound
    · cases heq

theorem along_or_collides (hfresh : ∀ i, (ops.join i ops.fresh).1 = .ok ()) (hknown : Known s₀)
    (hrun : (system ops key).Run s₀ events s) :
    (system ops key).Along (NoOverlap key) s₀ events ∨ Collides key s := by
  induction events generalizing s₀ with
  | nil => exact .inl trivial
  | cons ev events ih =>
    obtain ⟨s₁, hst, hrest⟩ := Trans.run_cons_iff.1 hrun
    by_cases hno : NoOverlap key s₀ ev
    · refine (ih (hknown.step hst) hrest).imp_left fun halong => ⟨hno, fun s' hst' => ?_⟩
      exact Option.some.inj (hst.symm.trans hst') ▸ halong
    · have hcollides := collides_of_overlap hfresh hknown hno hst
      exact .inr (hrest.invariant hcollides fun _ _ _ hs h => hs.step h)

theorem Serial.of_along (hs : Serial key s₀) (halong : (system ops key).Along (NoOverlap key) s₀ events)
    (hrun : (system ops key).Run s₀ events s) : Serial key s :=
  (halong.run_guard hrun).invariant hs fun _ _ _ hs h => hs.step h.1 h.2

/-- **When the objects of all calls are published in the end**: no call finds its key free while
another one is about to publish under that key. -/
theorem published_iff_along (hfresh : ∀ i, (ops.join i ops.fresh).1 = .ok ()) (hknown : Known s₀)
    (hserial : Serial key s₀) (hrun : (system ops key).Run s₀ events s)
    (hdone : ∀ i r isNew, s.phase i ≠ .waiting r isNew) :
    (∀ i r, s.phase i = .done r → s.published (key i) = some r) ↔
      (system ops key).Along (NoOverlap key) s₀ events := by
  constructor
  · intro hall
    refine (along_or_collides hfresh hknown hrun).resolve_right ?_
    rintro ⟨i, j, hne, hkey, hi, hj⟩
    have hi' := hall i _ (hi.resolve_left (hdone i _ _))
    have hj' := hall j _ (hj.resolve_left (hdone j _ _))
    rw [hkey, hj'] at hi'
    cases hi'
    exact hne rfl
  · intro halong i r hi
    exact (hserial.of_along halong hrun).done hi

end PactMesh.Publication
