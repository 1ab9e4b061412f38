import PactMesh.Lib.Cbor
import Mathlib.Data.List.Sort

/-!
# Canonical CBOR

Everything the trust layer reads from others is CBOR in canonical form.  `fromCbor` parses the bytes
into a value, encodes the value anew and compares; only then the bytes are decoded as the object that
is expected.

The parser calls itself for the parts of an item, and reserves room for the elements that an array or
a map announces.  It runs on a `Machine` and panics when the machine gives no more stack or memory.
-/

namespace PactMesh

open Cbor Decoder Outcome

/-- What a decoder runs on: stack for nested calls, the bytes that can be allocated at once, and the
sizes of the elements that are allocated. -/
structure Machine where
  stack : ℕ
  alloc : ℕ
  /-- `size_of::<CanonicalValue>()` -/
  valueSize : ℕ
  /-- `size_of::<IpNet>()` -/
  ipNetSize : ℕ
  /-- `size_of::<Url>()` -/
  urlSize : ℕ
  /-- no allocation is larger than `isize::MAX` -/
  alloc_lt : alloc < 2 ^ 63

/-- `Vec::with_capacity` -/
def Machine.withCapacity (m : Machine) (len size : ℕ) : Outcome Unit :=
  if len * size ≤ m.alloc then .returns ()
  else .panics (if 2 ^ 63 ≤ len * size then .capacityOverflow else .outOfMemory)

theorem Machine.withCapacity_eq_returns_iff {m : Machine} {len size : ℕ} {u : Unit} :
    m.withCapacity len size = .returns u ↔ len * size ≤ m.alloc := by
  unfold withCapacity
  split_ifs with h
  · exact iff_of_true rfl h
  · exact iff_of_false nofun h

inductive CanonicalValue
  | unsigned (n : UInt64)
  /-- `n` stands for `-1 - n` -/
  | negative (n : UInt64)
  | bytes (bs : List UInt8)
  | text (s : String)
  | array (items : List CanonicalValue)
  | map (entries : List (CanonicalValue × CanonicalValue))
  | tag (tag : UInt64) (inner : CanonicalValue)
  | bool (b : Bool)
  | null
  | undefined
  | f32 (bits : UInt32)
  | f64 (bits : UInt64)

namespace CanonicalValue

mutual

def encode : CanonicalValue → List UInt8
  | .unsigned n => encodeHead 0 n.toNat
  | .negative n => encodeHead 1 n.toNat
  | .bytes bs => encodeHead 2 bs.length ++ bs
  | .text s => encodeHead 3 s.toUTF8.data.toList.length ++ s.toUTF8.data.toList
  | .array items => encodeHead 4 items.length ++ encodeItems items
  | .map entries =>
    encodeHead 5 entries.length ++
      ((encodeEntries entries).insertionSort fun a b => a.1 ≤ b.1).flatMap fun e => e.1 ++ e.2
  | .tag t inner => encodeHead 6 t.toNat ++ encode inner
  | .bool b => [if b then 0xf5 else 0xf4]
  | .null => [0xf6]
  | .undefined => [0xf7]
  | .f32 bits => 0xfa :: Endian.beBytes 4 bits.toNat
  | .f64 bits => 0xfb :: Endian.beBytes 8 bits.toNat

def encodeItems : List CanonicalValue → List UInt8
  | [] => []
  | v :: vs => encode v ++ encodeItems vs

def encodeEntries : List (CanonicalValue × CanonicalValue) → List (List UInt8 × List UInt8)
  | [] => []
  | (k, v) :: es => (encode k, encode v) :: encodeEntries es

end

mutual

def nesting : CanonicalValue → ℕ
  | .array items => nestingItems items + 1
  | .map entries => nestingEntries entries + 1
  | .tag _ inner => nesting inner + 1
  | _ => 1

def nestingItems : List CanonicalValue → ℕ
  | [] => 0
  | v :: vs => max (nesting v) (nestingItems vs)

def nestingEntries : List (CanonicalValue × CanonicalValue) → ℕ
  | [] => 0
  | (k, v) :: es => max (max (nesting k) (nesting v)) (nestingEntries es)

end

end CanonicalValue

/-- `encode_canonical_value`, which calls itself once for every level of the value. -/
def encodeCanonicalValue (m : Machine) (value : CanonicalValue) : Outcome (List UInt8) :=
  if value.nesting ≤ m.stack then .returns value.encode else .panics .stackOverflow

def entryOf {α : Type} (p : Decoder α) : Decoder (α × α) := do
  let key ← p
  let value ← p
  return (key, value)

def parseCanonicalValue (m : Machine) : ℕ → Decoder CanonicalValue
  | 0 => lift (.panics .stackOverflow)
  | room + 1 => do
    match ← peek datatype with
    | .unsigned => return .unsigned (← item u64)
    | .negative => return .negative (← item negative)
    | .bytes => return .bytes (← item bytes)
    | .string => return .text (← item str)
    | .bytesIndef | .stringIndef => fail (.message "indefinite bytes/text are not canonical")
    | .array => do
      let len ← lift (unwrap (← item array))
      lift (m.withCapacity len m.valueSize)
      return .array (← times (parseCanonicalValue m room) len)
    | .arrayIndef => do
      let _ ← item array
      return .array (← untilBreak (parseCanonicalValue m room))
    | .map => do
      let len ← lift (unwrap (← item map))
      lift (m.withCapacity len (2 * m.valueSize))
      return .map (← times (entryOf (parseCanonicalValue m room)) len)
    | .mapIndef => do
      let _ ← item map
      return .map (← untilBreak (entryOf (parseCanonicalValue m room)))
    | .tag => do
      let t ← item tag
      return .tag t (← parseCanonicalValue m room)
    | .bool => return .bool (← item bool)
    | .null => do
      item (byte 0xf6)
      return .null
    | .undefined => do
      item (byte 0xf7)
      return .undefined
    | .f32 => return .f32 (.ofNat (← item (float 4 0xfa)))
    | .f64 => return .f64 (.ofNat (← item (float 8 0xfb)))
    | .f16 => fail (.message "f16 support unavailable in this build")
    | .simple | .break | .unknown => fail (.message "unsupported CBOR token for canonical helper")

inductive CborError
  | decode (e : Cbor.Error)
  | nonCanonical
  | trailingBytes
deriving DecidableEq

def decodeWhole {α : Type} (decode : Decoder α) (bytes : List UInt8) :
    Outcome (Except CborError α) := do
  match ← decode bytes with
  | .error e => return .error (.decode e)
  | .ok (value, rest) => return if rest ≠ [] then .error .trailingBytes else .ok value

/-- `from_cbor`: check that the bytes are canonical and decode them. -/
def fromCbor {α : Type} (m : Machine) (decode : Decoder α) (bytes : List UInt8) :
    Outcome (Except CborError α) := do
  match ← decodeWhole (parseCanonicalValue m m.stack) bytes with
  | .error e => return .error e
  | .ok parsed =>
    let canonical ← encodeCanonicalValue m parsed
    if canonical ≠ bytes then return .error .nonCanonical
    decodeWhole decode bytes

/-! ### Heads of items -/

inductive Opening
  | atom (v : CanonicalValue)
  | array (len : ℕ)
  | arrayIndef
  | map (len : ℕ)
  | mapIndef
  | tag (t : UInt64)

def openingOf (bs : List UInt8) : Kind → Except Cbor.Error (Opening × List UInt8)
  | .unsigned => (u64 bs).map (Prod.map (.atom ∘ .unsigned) id)
  | .negative => (negative bs).map (Prod.map (.atom ∘ .negative) id)
  | .bytes => (bytes bs).map (Prod.map (.atom ∘ .bytes) id)
  | .string => (str bs).map (Prod.map (.atom ∘ .text) id)
  | .bytesIndef | .stringIndef => .error (.message "indefinite bytes/text are not canonical")
  | .array => (head 4 bs).map (Prod.map .array id)
  | .arrayIndef => .ok (.arrayIndef, bs.tail)
  | .map => (head 5 bs).map (Prod.map .map id)
  | .mapIndef => .ok (.mapIndef, bs.tail)
  | .tag => (tag bs).map (Prod.map .tag id)
  | .bool => (bool bs).map (Prod.map (.atom ∘ .bool) id)
  | .null => .ok (.atom .null, bs.tail)
  | .undefined => .ok (.atom .undefined, bs.tail)
  | .f32 => (float 4 0xfa bs).map (Prod.map (.atom ∘ .f32 ∘ .ofNat) id)
  | .f64 => (float 8 0xfb bs).map (Prod.map (.atom ∘ .f64 ∘ .ofNat) id)
  | .f16 => .error (.message "f16 support unavailable in this build")
  | .simple | .break | .unknown => .error (.message "unsupported CBOR token for canonical helper")

def opening (bs : List UInt8) : Except Cbor.Error (Opening × List UInt8) := do
  openingOf bs (← datatype bs)

/-- The rest of an item after its head; `p` parses the parts. -/
def Opening.complete (m : Machine) (p : Decoder CanonicalValue) : Opening → Decoder CanonicalValue
  | .atom v => pure v
  | .array len => do
    lift (m.withCapacity len m.valueSize)
    return .array (← times p len)
  | .arrayIndef => return .array (← untilBreak p)
  | .map len => do
    lift (m.withCapacity len (2 * m.valueSize))
    return .map (← times (entryOf p) len)
  | .mapIndef => return .map (← untilBreak (entryOf p))
  | .tag t => return .tag t (← p)

section Opening

variable {α β : Type} {k : Opening → Decoder β} {bs : List UInt8}

theorem item_opening_map {f : List UInt8 → Except Cbor.Error (α × List UInt8)} {g : α → Opening}
    (h : opening bs = (f bs).map (Prod.map g id)) :
    (item opening >>= k) bs = (item f >>= fun a => k (g a)) bs := by
  change Decoder.bind _ _ _ = Decoder.bind _ _ _
  unfold Decoder.bind item
  rw [h]
  cases f bs with
  | error e => rfl
  | ok p => rfl

theorem item_opening_ok {o : Opening} {rest : List UInt8} (h : opening bs = .ok (o, rest)) :
    (item opening >>= k) bs = k o rest := by
  change Decoder.bind _ _ _ = _
  unfold Decoder.bind item
  rw [h]

theorem item_opening_error {e : Cbor.Error} (h : opening bs = .error e) :
    (item opening >>= k) bs = .returns (.error e) := by
  change Decoder.bind _ _ _ = _
  unfold Decoder.bind item
  rw [h]

end Opening

/-- **Parsing reads one head and goes on with the parts.** -/
theorem parseCanonicalValue_succ (m : Machine) (room : ℕ) :
    parseCanonicalValue m (room + 1) =
      item opening >>= Opening.complete m (parseCanonicalValue m room) := by
  funext bs
  rw [parseCanonicalValue]
  cases bs with
  | nil => rfl
  | cons b bs =>
    have hpeek : ∀ F : Kind → Decoder CanonicalValue,
        (peek datatype >>= F) (b :: bs) = F (kindOf b) (b :: bs) := fun _ => rfl
    have hopening : ∀ kind, kindOf b = kind → opening (b :: bs) = openingOf (b :: bs) kind := by
      rintro _ rfl
      rfl
    have hfirst := kindOf_first b
    rw [hpeek]
    symm
    cases hk : kindOf b with
    | unsigned | negative | bytes | string | bool | f32 | f64 | tag =>
      exact (item_opening_map (hopening _ hk)).trans rfl
    | array | map =>
      refine (item_opening_map (hopening _ hk)).trans ?_
      change Decoder.bind _ _ _ = Decoder.bind _ _ _
      simp only [hk, Decoder.bind, item, array, map, container] at hfirst ⊢
      rw [if_neg (by simpa using hfirst)]
      cases head _ (b :: bs) <;> rfl
    | arrayIndef | mapIndef =>
      refine (item_opening_ok (hopening _ hk)).trans ?_
      change _ = Decoder.bind _ _ _
      simp only [hk, Decoder.bind, item, array, map, container] at hfirst ⊢
      rw [if_pos (by simpa using hfirst)]
      rfl
    | null | undefined =>
      refine (item_opening_ok (hopening _ hk)).trans ?_
      simp [hk] at hfirst
      rw [hfirst]
      rfl
    | bytesIndef | stringIndef | f16 | simple | «break» | unknown =>
      rw [item_opening_error (hopening _ hk)]
      rfl

/-! ### What is parsed -/

theorem map_eq_ok {α β : Type} {x : Except Cbor.Error (α × List UInt8)} {g : α → β}
    {rest : List UInt8} {b : β} (h : x.map (Prod.map g id) = .ok (b, rest)) :
    ∃ a, x = .ok (a, rest) ∧ b = g a := by
  cases x with
  | error e => cases h
  | ok p =>
    cases h
    exact ⟨p.1, rfl, rfl⟩

theorem opening_lt {bs rest : List UInt8} {o : Opening} (h : opening bs = .ok (o, rest)) :
    rest.length < bs.length ∧ ∀ v, o = .atom v → v.nesting = 1 := by
  obtain ⟨kind, hkind, h⟩ := Checks.bind_eq_ok_iff.1 h
  cases bs with
  | nil => cases hkind
  | cons b bs =>
    cases kind with
    | unsigned | negative | tag =>
      obtain ⟨a, ha, rfl⟩ := map_eq_ok h
      exact ⟨number_lt ha, by rintro _ ⟨⟩ <;> rfl⟩
    | bytes =>
      obtain ⟨a, ha, rfl⟩ := map_eq_ok h
      exact ⟨bytes_lt ha, by rintro _ ⟨⟩; rfl⟩
    | string =>
      obtain ⟨a, ha, rfl⟩ := map_eq_ok h
      exact ⟨str_lt ha, by rintro _ ⟨⟩; rfl⟩
    | bool =>
      obtain ⟨a, ha, rfl⟩ := map_eq_ok h
      exact ⟨bool_lt ha, by rintro _ ⟨⟩; rfl⟩
    | f32 | f64 =>
      obtain ⟨a, ha, rfl⟩ := map_eq_ok h
      exact ⟨float_lt ha, by rintro _ ⟨⟩; rfl⟩
    | array | map =>
      obtain ⟨a, ha, rfl⟩ := map_eq_ok h
      exact ⟨head_lt ha, nofun⟩
    | null | undefined | arrayIndef | mapIndef =>
      cases h
      exact ⟨Nat.lt_succ_self _, by rintro _ ⟨⟩ <;> rfl⟩
    | bytesIndef | stringIndef | f16 | simple | «break» | unknown => cases h

theorem CanonicalValue.nestingItems_le_iff {vs : List CanonicalValue} {room : ℕ} :
    nestingItems vs ≤ room ↔ ∀ v ∈ vs, v.nesting ≤ room := by
  induction vs with
  | nil => simp [nestingItems]
  | cons v vs ih => rw [nestingItems, max_le_iff, ih, List.forall_mem_cons]

theorem CanonicalValue.nestingEntries_le_iff {es : List (CanonicalValue × CanonicalValue)}
    {room : ℕ} : nestingEntries es ≤ room ↔ ∀ e ∈ es, e.1.nesting ≤ room ∧ e.2.nesting ≤ room := by
  induction es with
  | nil => simp [nestingEntries]
  | cons e es ih => rw [nestingEntries, max_le_iff, max_le_iff, ih, List.forall_mem_cons]

theorem wlp_parseCanonicalValue (m : Machine) (room : ℕ) (bs : List UInt8) :
    wlp (parseCanonicalValue m room)
      (fun v rest => v.nesting ≤ room ∧ rest.length < bs.length) bs := by
  induction room generalizing bs with
  | zero => exact wlp_lift_iff.2 nofun
  | succ room ih =>
    rw [parseCanonicalValue_succ, wlp_bind, wlp_item_iff]
    intro o rest hopen
    obtain ⟨hlt, hatom⟩ := opening_lt hopen
    -- the parts leave no more than the head did
    have hpart : ∀ bs, bs.length ≤ rest.length → wlp (parseCanonicalValue m room)
        (fun v rest' => v.nesting ≤ room ∧ rest'.length ≤ rest.length) bs :=
      fun bs hbs => (ih bs).mono fun v rest' h => ⟨h.1, (h.2.trans_le hbs).le⟩
    have hentry : ∀ bs, bs.length ≤ rest.length → wlp (entryOf (parseCanonicalValue m room))
        (fun e rest' => (e.1.nesting ≤ room ∧ e.2.nesting ≤ room) ∧ rest'.length ≤ rest.length)
        bs := by
      intro bs hbs
      rw [entryOf, wlp_bind]
      refine (hpart bs hbs).mono fun key rest₁ hkey => ?_
      rw [wlp_bind]
      refine (hpart rest₁ hkey.2).mono fun value rest₂ hvalue => ?_
      exact wlp_pure.2 ⟨⟨hkey.1, hvalue.1⟩, hvalue.2⟩
    have htail : ∀ b bs, (b :: bs : List UInt8).length ≤ rest.length → bs.length ≤ rest.length :=
      fun b bs h => (Nat.le_succ _).trans h
    cases o with
    | atom v => exact wlp_pure.2 ⟨(hatom v rfl).le.trans (Nat.succ_le_succ (Nat.zero_le room)), hlt⟩
    | array len =>
      rw [Opening.complete, wlp_bind, wlp_lift_iff]
      intro _ _
      rw [wlp_bind]
      refine (wlp_times hpart len le_rfl).mono fun items rest' h => wlp_pure.2 ?_
      exact ⟨Nat.succ_le_succ (CanonicalValue.nestingItems_le_iff.2 h.1), h.2.trans_lt hlt⟩
    | arrayIndef =>
      rw [Opening.complete, wlp_bind]
      refine (wlp_untilBreak hpart htail le_rfl).mono fun items rest' h => wlp_pure.2 ?_
      exact ⟨Nat.succ_le_succ (CanonicalValue.nestingItems_le_iff.2 h.1), h.2.trans_lt hlt⟩
    | map len =>
      rw [Opening.complete, wlp_bind, wlp_lift_iff]
      intro _ _
      rw [wlp_bind]
      refine (wlp_times hentry len le_rfl).mono fun entries rest' h => wlp_pure.2 ?_
      exact ⟨Nat.succ_le_succ (CanonicalValue.nestingEntries_le_iff.2 h.1), h.2.trans_lt hlt⟩
    | mapIndef =>
      rw [Opening.complete, wlp_bind]
      refine (wlp_untilBreak hentry htail le_rfl).mono fun entries rest' h => wlp_pure.2 ?_
      exact ⟨Nat.succ_le_succ (CanonicalValue.nestingEntries_le_iff.2 h.1), h.2.trans_lt hlt⟩
    | tag t =>
      rw [Opening.complete, wlp_bind]
      refine (hpart rest le_rfl).mono fun v rest' h => wlp_pure.2 ?_
      exact ⟨Nat.succ_le_succ h.1, h.2.trans_lt hlt⟩

end PactMesh
