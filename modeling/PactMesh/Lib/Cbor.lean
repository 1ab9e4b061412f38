import PactMesh.Lib.Checks
import PactMesh.Lib.Endian
import PactMesh.Lib.Outcome

/-!
# Reading CBOR

The heads of CBOR items and a decoder that reads items one after the other; it may fail with an
error, and it may panic.
-/

namespace PactMesh

open List

namespace Cbor

open Endian

/-- Why nothing can be read. -/
inductive Error
  | endOfInput
  | typeMismatch
  | utf8
  | missingValue
  | message (text : String)
deriving DecidableEq

/-- The kinds of item.  Numbers of all widths are one kind. -/
inductive Kind
  | unsigned
  | negative
  | bytes
  | bytesIndef
  | string
  | stringIndef
  | array
  | arrayIndef
  | map
  | mapIndef
  | tag
  | bool
  | null
  | undefined
  | f16
  | f32
  | f64
  | simple
  | break
  | unknown
deriving DecidableEq

/-- The kind of an item whose length may be left open. -/
def kindOfLength (definite indefinite : Kind) (info : ℕ) : Kind :=
  if info ≤ 27 then definite else if info = 31 then indefinite else .unknown

/-- The kind of an item without argument. -/
def kindOfSimple (info : ℕ) : Kind :=
  if info = 20 ∨ info = 21 then .bool
  else if info = 22 then .null
  else if info = 23 then .undefined
  else if info ≤ 24 then .simple
  else if info = 25 then .f16
  else if info = 26 then .f32
  else if info = 27 then .f64
  else if info = 31 then .break
  else .unknown

/-- The kind that the first byte of an item tells. -/
def kindOf (b : UInt8) : Kind :=
  let info := b.toNat % 32
  match b.toNat / 32 with
  | 0 => if info ≤ 27 then .unsigned else .unknown
  | 1 => if info ≤ 27 then .negative else .unknown
  | 2 => kindOfLength .bytes .bytesIndef info
  | 3 => kindOfLength .string .stringIndef info
  | 4 => kindOfLength .array .arrayIndef info
  | 5 => kindOfLength .map .mapIndef info
  | 6 => if info ≤ 27 then .tag else .unknown
  | _ => kindOfSimple info

theorem kindOf_first (b : UInt8) :
    (kindOf b = .array → b.toNat ≠ 159) ∧ (kindOf b = .arrayIndef → b.toNat = 159) ∧
      (kindOf b = .map → b.toNat ≠ 191) ∧ (kindOf b = .mapIndef → b.toNat = 191) ∧
      (kindOf b = .null → b = 0xf6) ∧ (kindOf b = .undefined → b = 0xf7) := by
  revert b
  exact forall_byte (by decide +kernel)

theorem eq_of_kindOf_break {b : UInt8} (h : kindOf b = .break) : b = 0xff :=
  forall_byte (p := fun b => kindOf b = .break → b = 0xff) (by decide +kernel) b h

/-- The number in the next `k` bytes. -/
def readBe (k : ℕ) (bs : List UInt8) : Except Error (ℕ × List UInt8) :=
  if bs.length < k then .error .endOfInput else .ok (beNat (bs.take k), bs.drop k)

/-- The argument of a head with the given low bits. -/
def argument (info : ℕ) (bs : List UInt8) : Except Error (ℕ × List UInt8) :=
  if info < 24 then .ok (info, bs)
  else if info ≤ 27 then readBe (2 ^ (info - 24)) bs
  else .error .typeMismatch

/-- The argument of an item of a major type. -/
def head (major : ℕ) : List UInt8 → Except Error (ℕ × List UInt8)
  | [] => .error .endOfInput
  | b :: bs => if b.toNat / 32 = major then argument (b.toNat % 32) bs else .error .typeMismatch

/-- The shortest head with a major type and an argument. -/
def encodeHead (major n : ℕ) : List UInt8 :=
  if n < 24 then [.ofNat (32 * major + n)]
  else if n < 2 ^ 8 then .ofNat (32 * major + 24) :: beBytes 1 n
  else if n < 2 ^ 16 then .ofNat (32 * major + 25) :: beBytes 2 n
  else if n < 2 ^ 32 then .ofNat (32 * major + 26) :: beBytes 4 n
  else .ofNat (32 * major + 27) :: beBytes 8 n

variable {k n major info : ℕ} {bs rest : List UInt8} {α : Type}

theorem readBe_beBytes (h : n < 256 ^ k) (rest : List UInt8) :
    readBe k (beBytes k n ++ rest) = .ok (n, rest) := by
  have hlen : ¬ (beBytes k n ++ rest).length < k := by simp
  rw [readBe, if_neg hlen, take_left' (length_beBytes k n),
    drop_left' (length_beBytes k n), beNat_beBytes h]

theorem head_cons (hmajor : major < 8) (hinfo : info < 32) (rest : List UInt8) :
    head major (.ofNat (32 * major + info) :: rest) = argument info rest := by
  have hb : (UInt8.ofNat (32 * major + info)).toNat = 32 * major + info := by
    rw [UInt8.toNat_ofNat']
    omega
  have hdiv : (32 * major + info) / 32 = major := by omega
  have hmod : (32 * major + info) % 32 = info := by omega
  rw [head, hb, hdiv, hmod, if_pos rfl]

theorem argument_wide (hk : k ≤ 3) (h : n < 256 ^ 2 ^ k) (rest : List UInt8) :
    argument (24 + k) (beBytes (2 ^ k) n ++ rest) = .ok (n, rest) := by
  have hlow : ¬ 24 + k < 24 := by omega
  have hhigh : 24 + k ≤ 27 := by omega
  rw [argument, if_neg hlow, if_pos hhigh, Nat.add_sub_cancel_left, readBe_beBytes h]

theorem head_encodeHead (hmajor : major < 8) (hn : n < 2 ^ 64) (rest : List UInt8) :
    head major (encodeHead major n ++ rest) = .ok (n, rest) := by
  unfold encodeHead
  split_ifs with h₀ h₁ h₂ h₃
  · rw [singleton_append, head_cons hmajor (by omega), argument, if_pos h₀]
  · rw [cons_append, head_cons hmajor (by omega)]
    exact argument_wide (k := 0) (by omega) (by omega) rest
  · rw [cons_append, head_cons hmajor (by omega)]
    exact argument_wide (k := 1) (by omega) (by omega) rest
  · rw [cons_append, head_cons hmajor (by omega)]
    exact argument_wide (k := 2) (by omega) (by omega) rest
  · rw [cons_append, head_cons hmajor (by omega)]
    exact argument_wide (k := 3) (by omega) (by omega) rest

theorem readBe_le (h : readBe k bs = .ok (n, rest)) : rest.length ≤ bs.length := by
  unfold readBe at h
  split at h
  · cases h
  · cases h
    rw [length_drop]
    omega

theorem argument_le (h : argument info bs = .ok (n, rest)) : rest.length ≤ bs.length := by
  unfold argument at h
  split_ifs at h
  · cases h
    exact le_rfl
  · exact readBe_le h

theorem head_lt (h : head major bs = .ok (n, rest)) : rest.length < bs.length := by
  cases bs with
  | nil => cases h
  | cons b bs =>
    rw [head] at h
    split_ifs at h
    exact Nat.lt_succ_of_le (argument_le h)

/-- The kind of an item with an argument. -/
def kindOfMajor : ℕ → Kind
  | 0 => .unsigned
  | 1 => .negative
  | 2 => .bytes
  | 3 => .string
  | 4 => .array
  | 5 => .map
  | _ => .tag

theorem kindOf_major (hmajor : major < 7) (hinfo : info < 28) :
    kindOf (.ofNat (32 * major + info)) = kindOfMajor major := by
  have hall : ∀ major : Fin 7, ∀ info : Fin 28,
      kindOf (.ofNat (32 * major.val + info.val)) = kindOfMajor major.val := by
    decide
  exact hall ⟨major, hmajor⟩ ⟨info, hinfo⟩

theorem exists_encodeHead_eq (major n : ℕ) :
    ∃ info tail, info < 28 ∧ encodeHead major n = .ofNat (32 * major + info) :: tail := by
  unfold encodeHead
  split_ifs with h
  · exact ⟨n, [], by omega, rfl⟩
  · exact ⟨24, _, by omega, rfl⟩
  · exact ⟨25, _, by omega, rfl⟩
  · exact ⟨26, _, by omega, rfl⟩
  · exact ⟨27, _, by omega, rfl⟩

/-! ### What can be read -/

/-- The kind of the next item. -/
def datatype : List UInt8 → Except Error Kind
  | [] => .error .endOfInput
  | b :: _ => .ok (kindOf b)

theorem datatype_encodeHead (hmajor : major < 7) (n : ℕ) (rest : List UInt8) :
    datatype (encodeHead major n ++ rest) = .ok (kindOfMajor major) := by
  obtain ⟨info, tail, hinfo, hhead⟩ := exists_encodeHead_eq major n
  rw [hhead, cons_append, datatype, kindOf_major hmajor hinfo]

theorem datatype_of_head (hmajor : major < 7) (h : head major bs = .ok (n, rest)) :
    datatype bs = .ok (kindOfMajor major) := by
  cases bs with
  | nil => cases h
  | cons b bs =>
    rw [head] at h
    split_ifs at h with hb
    have hinfo : b.toNat % 32 < 28 := by
      unfold argument at h
      split_ifs at h <;> omega
    have hbyte : b = .ofNat (32 * major + b.toNat % 32) := by
      rw [← hb, Nat.div_add_mod, UInt8.ofNat_toNat]
    rw [datatype, hbyte, kindOf_major hmajor hinfo]

/-- The next byte. -/
def byte (expected : UInt8) : List UInt8 → Except Error (Unit × List UInt8)
  | [] => .error .endOfInput
  | b :: bs => if b = expected then .ok ((), bs) else .error .typeMismatch

/-- The next `n` bytes. -/
def readSlice (n : ℕ) (bs : List UInt8) : Except Error (List UInt8 × List UInt8) :=
  if bs.length < n then .error .endOfInput else .ok (bs.take n, bs.drop n)

theorem readSlice_append (bs rest : List UInt8) :
    readSlice bs.length (bs ++ rest) = .ok (bs, rest) := by
  have hlen : ¬ (bs ++ rest).length < bs.length := by simp
  rw [readSlice, if_neg hlen, take_left, drop_left]

/-- An item that is its argument. -/
def number (major : ℕ) (bs : List UInt8) : Except Error (UInt64 × List UInt8) := do
  let (n, rest) ← head major bs
  return (.ofNat n, rest)

/-- A number. -/
def u64 : List UInt8 → Except Error (UInt64 × List UInt8) := number 0

/-- A negative number: `n` stands for `-1 - n`. -/
def negative : List UInt8 → Except Error (UInt64 × List UInt8) := number 1

/-- A tag. -/
def tag : List UInt8 → Except Error (UInt64 × List UInt8) := number 6

/-- A byte string. -/
def bytes (bs : List UInt8) : Except Error (List UInt8 × List UInt8) := do
  let (n, rest) ← head 2 bs
  readSlice n rest

/-- A text. -/
def str (bs : List UInt8) : Except Error (String × List UInt8) := do
  let (n, rest) ← head 3 bs
  let (slice, rest) ← readSlice n rest
  match String.fromUTF8? ⟨slice.toArray⟩ with
  | some s => return (s, rest)
  | none => .error .utf8

theorem number_encodeHead (hmajor : major < 8) (n : UInt64) (rest : List UInt8) :
    number major (encodeHead major n.toNat ++ rest) = .ok (n, rest) := by
  rw [number, head_encodeHead hmajor n.toNat_lt]
  simp [bind, Except.bind, pure, Except.pure]

theorem bytes_encode {data : List UInt8} (h : data.length < 2 ^ 64) (rest : List UInt8) :
    bytes (encodeHead 2 data.length ++ (data ++ rest)) = .ok (data, rest) := by
  rw [bytes, head_encodeHead (by decide) h]
  exact readSlice_append data rest

theorem str_encode {s : String} (h : s.toUTF8.data.toList.length < 2 ^ 64) (rest : List UInt8) :
    str (encodeHead 3 s.toUTF8.data.toList.length ++ (s.toUTF8.data.toList ++ rest)) =
      .ok (s, rest) := by
  have hutf8 : String.fromUTF8? ⟨s.toUTF8.data.toList.toArray⟩ = some s := by
    rw [Array.toArray_toList]
    exact dif_pos s.isValidUTF8
  rw [str, head_encodeHead (by decide) h]
  simp only [bind, Except.bind, readSlice_append, hutf8]
  rfl

/-- The start of an array or a map: how many elements it has, unless that is left open. -/
def container (major : ℕ) : List UInt8 → Except Error (Option ℕ × List UInt8)
  | [] => .error .endOfInput
  | b :: bs =>
    if b.toNat = 32 * major + 31 then .ok (none, bs)
    else (head major (b :: bs)).map fun p => (some p.1, p.2)

/-- The start of an array. -/
def array : List UInt8 → Except Error (Option ℕ × List UInt8) := container 4

/-- The start of a map. -/
def map : List UInt8 → Except Error (Option ℕ × List UInt8) := container 5

/-- A truth value. -/
def bool : List UInt8 → Except Error (Bool × List UInt8)
  | [] => .error .endOfInput
  | b :: bs =>
    if b = 0xf4 then .ok (false, bs) else if b = 0xf5 then .ok (true, bs) else .error .typeMismatch

/-- The bits of a floating-point number of `k` bytes. -/
def float (k : ℕ) (first : UInt8) (bs : List UInt8) : Except Error (ℕ × List UInt8) := do
  let (_, rest) ← byte first bs
  readBe k rest

/-- A decoder reads from the rest of the input. -/
def Decoder (α : Type) := List UInt8 → Outcome (Except Error (α × List UInt8))

namespace Decoder

variable {α β : Type}

/-- Go on with what was read. -/
protected def bind (p : Decoder α) (f : α → Decoder β) : Decoder β := fun bs =>
  match p bs with
  | .panics why => .panics why
  | .returns (.error e) => .returns (.error e)
  | .returns (.ok (a, rest)) => f a rest

instance : Monad Decoder where
  pure a := fun bs => .returns (.ok (a, bs))
  bind := Decoder.bind

/-- Read one item, or the head of one. -/
def item (f : List UInt8 → Except Error (α × List UInt8)) : Decoder α := fun bs => .returns (f bs)

/-- Look at the next item without reading it. -/
def peek (f : List UInt8 → Except Error α) : Decoder α := item fun bs => (f bs).map fun a => (a, bs)

/-- Fail. -/
def fail (e : Error) : Decoder α := fun _ => .returns (.error e)

/-- Do something that reads nothing. -/
def lift (x : Outcome α) : Decoder α := fun bs => x >>= fun a => .returns (.ok (a, bs))

/-- Read `n` times. -/
def times (p : Decoder α) : ℕ → Decoder (List α)
  | 0 => pure []
  | n + 1 => do
    let a ← p
    let as ← times p n
    return a :: as

/-- Read until a break, at most as often as `fuel` says. -/
def untilBreakAux (p : Decoder α) : ℕ → Decoder (List α)
  | 0 => fail .endOfInput
  | fuel + 1 => do
    if (← peek datatype) = .break then
      item (byte 0xff)
      return []
    else
      let a ← p
      let as ← untilBreakAux p fuel
      return a :: as

/-- Read until a break.  There are no more elements than bytes. -/
def untilBreak (p : Decoder α) : Decoder (List α) := fun bs => untilBreakAux p (bs.length + 1) bs

/-- The decoder does not panic, and what it reads and leaves meets `Q`. -/
def wp (p : Decoder α) (Q : α → List UInt8 → Prop) (bs : List UInt8) : Prop :=
  match p bs with
  | .panics _ => False
  | .returns (.error _) => True
  | .returns (.ok (a, rest)) => Q a rest

variable {p : Decoder α} {Q Q' : α → List UInt8 → Prop} {bs : List UInt8}

@[simp] theorem wp_pure {a : α} : wp (pure a) Q bs ↔ Q a bs := Iff.rfl

@[simp] theorem wp_bind {f : α → Decoder β} {Q : β → List UInt8 → Prop} :
    wp (p >>= f) Q bs ↔ wp p (fun a rest => wp (f a) Q rest) bs := by
  change wp (Decoder.bind p f) Q bs ↔ _
  unfold wp Decoder.bind
  match p bs with
  | .panics why => exact Iff.rfl
  | .returns (.error e) => exact Iff.rfl
  | .returns (.ok (a, rest)) => exact Iff.rfl

variable {f : List UInt8 → Except Error (α × List UInt8)}

theorem wp_item_iff : wp (item f) Q bs ↔ ∀ a rest, f bs = .ok (a, rest) → Q a rest := by
  unfold wp item
  match f bs with
  | .error e => exact iff_of_true trivial nofun
  | .ok (a, rest) => exact ⟨fun h _ _ he => by cases he; exact h, fun h => h a rest rfl⟩

theorem wp_peek_iff {f : List UInt8 → Except Error α} :
    wp (peek f) Q bs ↔ ∀ a, f bs = .ok a → Q a bs := by
  rw [peek, wp_item_iff]
  cases f bs with
  | error e => exact iff_of_true nofun nofun
  | ok a => exact ⟨fun h _ he => h _ _ (by cases he; rfl), fun h _ _ he => by cases he; exact h a rfl⟩

theorem wp_lift_iff {x : Outcome α} : wp (lift x) Q bs ↔ ∃ a, x = .returns a ∧ Q a bs := by
  cases x with
  | panics why => exact iff_of_false id nofun
  | returns a => exact ⟨fun h => ⟨a, rfl, h⟩, fun ⟨_, he, h⟩ => by cases he; exact h⟩

theorem wp_congr (h : ∀ a rest, p bs = .returns (.ok (a, rest)) → (Q a rest ↔ Q' a rest)) :
    wp p Q bs ↔ wp p Q' bs := by
  unfold wp
  match hp : p bs with
  | .panics why => exact Iff.rfl
  | .returns (.error e) => exact Iff.rfl
  | .returns (.ok (a, rest)) => exact h a rest hp

theorem wp.mono (hp : wp p Q bs) (h : ∀ a rest, Q a rest → Q' a rest) : wp p Q' bs := by
  unfold wp at hp ⊢
  match hres : p bs with
  | .panics why => simp [hres] at hp
  | .returns (.error e) => trivial
  | .returns (.ok (a, rest)) =>
    rw [hres] at hp
    exact h a rest hp

theorem returns_iff_wp : (p bs).Returns ↔ wp p (fun _ _ => True) bs := by
  unfold wp
  match p bs with
  | .panics why => simp
  | .returns (.error e) => simp
  | .returns (.ok (a, rest)) => simp

/-! ### What a decoder reads if it succeeds -/

/-- What the decoder reads and leaves, if it succeeds, meets `Q`. -/
def wlp (p : Decoder α) (Q : α → List UInt8 → Prop) (bs : List UInt8) : Prop :=
  ∀ a rest, p bs = .returns (.ok (a, rest)) → Q a rest

@[simp] theorem wlp_pure {a : α} : wlp (pure a) Q bs ↔ Q a bs :=
  ⟨fun h => h a bs rfl, fun h _ _ he => by cases he; exact h⟩

@[simp] theorem wlp_bind {f : α → Decoder β} {Q : β → List UInt8 → Prop} :
    wlp (p >>= f) Q bs ↔ wlp p (fun a rest => wlp (f a) Q rest) bs := by
  change wlp (Decoder.bind p f) Q bs ↔ _
  unfold wlp Decoder.bind
  match p bs with
  | .panics why => exact iff_of_true nofun nofun
  | .returns (.error e) => exact iff_of_true nofun nofun
  | .returns (.ok (a, rest)) => exact ⟨fun h _ _ he => by cases he; exact h, fun h => h a rest rfl⟩

theorem wlp_item_iff : wlp (item f) Q bs ↔ ∀ a rest, f bs = .ok (a, rest) → Q a rest :=
  ⟨fun h a rest hf => h a rest (by rw [item, hf]), fun h a rest hf => h a rest (Outcome.returns.inj hf)⟩

theorem wlp_lift_iff {x : Outcome α} : wlp (lift x) Q bs ↔ ∀ a, x = .returns a → Q a bs := by
  cases x with
  | panics why => exact iff_of_true nofun nofun
  | returns a =>
    exact ⟨fun h _ he => by cases he; exact h a bs rfl, fun h _ _ he => by cases he; exact h a rfl⟩

theorem wlp.mono (hp : wlp p Q bs) (h : ∀ a rest, Q a rest → Q' a rest) : wlp p Q' bs :=
  fun a rest hres => h a rest (hp a rest hres)

section Loops

variable {I : List UInt8 → Prop} {P : α → Prop}

variable (hp : ∀ bs, I bs → wlp p (fun a rest => P a ∧ I rest) bs)
include hp

theorem wlp_times (n : ℕ) (hbs : I bs) :
    wlp (times p n) (fun as rest => (∀ a ∈ as, P a) ∧ I rest) bs := by
  induction n generalizing bs with
  | zero => exact wlp_pure.2 ⟨nofun, hbs⟩
  | succ n ih =>
    rw [times, wlp_bind]
    refine (hp bs hbs).mono fun a rest ha => ?_
    rw [wlp_bind]
    refine (ih ha.2).mono fun as rest' has => ?_
    exact wlp_pure.2 ⟨forall_mem_cons.2 ⟨ha.1, has.1⟩, has.2⟩

theorem wlp_untilBreakAux (htail : ∀ b bs, I (b :: bs) → I bs) (fuel : ℕ) (hbs : I bs) :
    wlp (untilBreakAux p fuel) (fun as rest => (∀ a ∈ as, P a) ∧ I rest) bs := by
  induction fuel generalizing bs with
  | zero => exact nofun
  | succ fuel ih =>
    rw [untilBreakAux, wlp_bind, peek, wlp_item_iff]
    intro kind rest hkind
    cases bs with
    | nil => cases hkind
    | cons b bs =>
      cases hkind
      split_ifs
      · rw [wlp_bind, wlp_item_iff]
        intro _ rest hbyte
        rw [byte] at hbyte
        split_ifs at hbyte
        cases hbyte
        exact wlp_pure.2 ⟨nofun, htail b _ hbs⟩
      · rw [wlp_bind]
        refine (hp _ hbs).mono fun a rest ha => ?_
        rw [wlp_bind]
        refine (ih ha.2).mono fun as rest' has => ?_
        exact wlp_pure.2 ⟨forall_mem_cons.2 ⟨ha.1, has.1⟩, has.2⟩

theorem wlp_untilBreak (htail : ∀ b bs, I (b :: bs) → I bs) (hbs : I bs) :
    wlp (untilBreak p) (fun as rest => (∀ a ∈ as, P a) ∧ I rest) bs :=
  wlp_untilBreakAux hp htail (bs.length + 1) hbs

end Loops

end Decoder

/-! ### Reading takes something of the input -/

theorem readSlice_le {slice : List UInt8} (h : readSlice n bs = .ok (slice, rest)) :
    rest.length ≤ bs.length := by
  unfold readSlice at h
  split at h
  · cases h
  · cases h
    rw [length_drop]
    omega

theorem byte_lt {expected : UInt8} {u : Unit} (h : byte expected bs = .ok (u, rest)) :
    rest.length < bs.length := by
  cases bs with
  | nil => cases h
  | cons b bs =>
    rw [byte] at h
    split_ifs at h
    cases h
    exact Nat.lt_succ_self _

theorem number_lt {n : UInt64} (h : number major bs = .ok (n, rest)) : rest.length < bs.length := by
  obtain ⟨⟨k, rest'⟩, hhead, hret⟩ := Checks.bind_eq_ok_iff.1 h
  cases hret
  exact head_lt hhead

theorem bytes_lt {data : List UInt8} (h : bytes bs = .ok (data, rest)) :
    rest.length < bs.length := by
  obtain ⟨⟨k, rest'⟩, hhead, hslice⟩ := Checks.bind_eq_ok_iff.1 h
  exact (readSlice_le hslice).trans_lt (head_lt hhead)

theorem str_lt {s : String} (h : str bs = .ok (s, rest)) : rest.length < bs.length := by
  obtain ⟨⟨k, rest'⟩, hhead, h⟩ := Checks.bind_eq_ok_iff.1 h
  obtain ⟨⟨slice, rest''⟩, hslice, h⟩ := Checks.bind_eq_ok_iff.1 h
  have hle := (readSlice_le hslice).trans_lt (head_lt hhead)
  dsimp only at h
  split at h
  · cases h
    exact hle
  · cases h

theorem bool_lt {b : Bool} (h : bool bs = .ok (b, rest)) : rest.length < bs.length := by
  cases bs with
  | nil => cases h
  | cons first bs =>
    rw [bool] at h
    split_ifs at h <;> cases h <;> exact Nat.lt_succ_self _

theorem float_lt {first : UInt8} (h : float k first bs = .ok (n, rest)) :
    rest.length < bs.length := by
  obtain ⟨⟨u, rest'⟩, hbyte, hread⟩ := Checks.bind_eq_ok_iff.1 h
  exact (readBe_le hread).trans_lt (byte_lt hbyte)

/-! ### Deterministic encoding -/

/-- What a floating-point number stands for: a multiple of the smallest number of 64 bits, or an
infinity or no number, with what sets these apart. -/
inductive FloatValue
  | finite (negative : Bool) (magnitude : ℕ)
  | special (negative : Bool) (payload : ℕ)
deriving DecidableEq

/-- The value of the bits, in the format with so many bits for the exponent and the fraction. -/
def floatValue (exponentBits fractionBits bits : ℕ) : FloatValue :=
  let negative := 0 < bits / 2 ^ (exponentBits + fractionBits)
  let exponent := bits / 2 ^ fractionBits % 2 ^ exponentBits
  let fraction := bits % 2 ^ fractionBits
  if exponent = 2 ^ exponentBits - 1 then .special negative (fraction * 2 ^ (52 - fractionBits))
  else
    .finite negative ((if exponent = 0 then fraction else 2 ^ fractionBits + fraction) *
      2 ^ (max exponent 1 - 1 + 1074 - (2 ^ (exponentBits - 1) - 2 + fractionBits)))

/-- The number of 32 bits has no form of 16 bits. -/
def ShortSingle (bits : UInt32) : Prop := ∀ h < 2 ^ 16, floatValue 5 10 h ≠ floatValue 8 23 bits.toNat

/-- The number of 64 bits has no form of 32 bits. -/
def ShortDouble (bits : UInt64) : Prop := ∀ s < 2 ^ 32, floatValue 8 23 s ≠ floatValue 11 52 bits.toNat

/-- The deterministic encoding of an item: shortest heads, definite lengths, map keys in strictly
increasing order, and floating-point numbers in their shortest form. -/
inductive Deterministic : List UInt8 → Prop
  | number {major n : ℕ} : major ≤ 1 → n < 2 ^ 64 → Deterministic (encodeHead major n)
  | bytes (bs : List UInt8) : Deterministic (encodeHead 2 bs.length ++ bs)
  | text (s : String) :
    Deterministic (encodeHead 3 s.toUTF8.data.toList.length ++ s.toUTF8.data.toList)
  | array {items : List (List UInt8)} : (∀ item ∈ items, Deterministic item) →
    Deterministic (encodeHead 4 items.length ++ items.flatten)
  | map {entries : List (List UInt8 × List UInt8)} : (∀ e ∈ entries, Deterministic e.1) →
    (∀ e ∈ entries, Deterministic e.2) → (entries.Pairwise fun a b => a.1 < b.1) →
    Deterministic (encodeHead 5 entries.length ++ entries.flatMap fun e => e.1 ++ e.2)
  | tag {t : ℕ} {inner : List UInt8} : t < 2 ^ 64 → Deterministic inner →
    Deterministic (encodeHead 6 t ++ inner)
  | simple {b : UInt8} : 0xf4 ≤ b → b ≤ 0xf7 → Deterministic [b]
  | single {bits : UInt32} : ShortSingle bits → Deterministic (0xfa :: beBytes 4 bits.toNat)
  | double {bits : UInt64} : ShortDouble bits → Deterministic (0xfb :: beBytes 8 bits.toNat)

/-! ### Reading encoded lists -/

theorem Decoder.bind_of_ok {β : Type} {p : Decoder α} {f : α → Decoder β} {a : α}
    (h : p bs = .returns (.ok (a, rest))) : (p >>= f) bs = f a rest := by
  change Decoder.bind _ _ _ = _
  rw [Decoder.bind, h]

theorem Decoder.lift_of_returns {x : Outcome α} {a : α} (h : x = .returns a) (bs : List UInt8) :
    lift x bs = .returns (.ok (a, bs)) := by
  rw [lift, h]
  rfl

/-- Elements that can be read one by one can be read in a row. -/
theorem Decoder.times_eq {p : Decoder α} {enc : α → List UInt8} {as : List α}
    (hp : ∀ a ∈ as, ∀ rest, p (enc a ++ rest) = .returns (.ok (a, rest))) (rest : List UInt8) :
    times p as.length (as.flatMap enc ++ rest) = .returns (.ok (as, rest)) := by
  induction as with
  | nil => rfl
  | cons a as ih =>
    obtain ⟨ha, has⟩ := forall_mem_cons.1 hp
    rw [flatMap_cons, append_assoc, length_cons, times, bind_of_ok (ha _), bind_of_ok (ih has)]
    rfl

end Cbor

end PactMesh
