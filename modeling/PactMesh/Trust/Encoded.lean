import PactMesh.Trust.CborScan

/-!
# Decoders on canonical bytes

The typed decoders run only on bytes that are the encoding of a value.  There no array has more
elements than bytes follow it, so the room that a decoder reserves is bounded by the input.
-/

namespace PactMesh

open Cbor Decoder Outcome List

/-! ### Heads of encoded values -/

namespace CanonicalValue

def head : CanonicalValue → Opening
  | .array items => .array items.length
  | .map entries => .map entries.length
  | .tag t _ => .tag t
  | v => .atom v

def parts : CanonicalValue → List UInt8
  | .array items => encodeItems items
  | .map entries =>
    ((encodeEntries entries).insertionSort fun a b => a.1 ≤ b.1).flatMap fun e => e.1 ++ e.2
  | .tag _ inner => encode inner
  | _ => []

variable {v : CanonicalValue} {α : Type}

theorem encodeItems_eq (vs : List CanonicalValue) : encodeItems vs = vs.flatMap encode := by
  induction vs with
  | nil => rfl
  | cons v vs ih => rw [encodeItems, ih, flatMap_cons]

theorem encodeItems_append (vs ws : List CanonicalValue) :
    encodeItems (vs ++ ws) = encodeItems vs ++ encodeItems ws := by
  rw [encodeItems_eq, flatMap_append, ← encodeItems_eq, ← encodeItems_eq]

theorem encodeEntries_eq (es : List (CanonicalValue × CanonicalValue)) :
    encodeEntries es = es.map fun e => (e.1.encode, e.2.encode) := by
  induction es with
  | nil => rfl
  | cons e es ih => rw [encodeEntries, ih, map_cons]

def sorted (entries : List (CanonicalValue × CanonicalValue)) :
    List (CanonicalValue × CanonicalValue) :=
  entries.insertionSort fun a b => a.1.encode ≤ b.1.encode

theorem sorted_perm (entries : List (CanonicalValue × CanonicalValue)) :
    (sorted entries).Perm entries := perm_insertionSort _ _

theorem parts_map (entries : List (CanonicalValue × CanonicalValue)) :
    parts (.map entries) = (sorted entries).flatMap fun e => e.1.encode ++ e.2.encode := by
  have hsort := map_insertionSort (fun a b : CanonicalValue × CanonicalValue =>
    a.1.encode ≤ b.1.encode) (fun a b : List UInt8 × List UInt8 => a.1 ≤ b.1)
    (fun e => (e.1.encode, e.2.encode)) entries fun _ _ _ _ => Iff.rfl
  rw [parts, encodeEntries_eq, ← hsort, flatMap_map]
  rfl

theorem length_le_flatMap {f : α → List UInt8} {a : α} {l : List α} (h : a ∈ l) :
    (f a).length ≤ (l.flatMap f).length :=
  (sublist_flatten_of_mem (mem_map_of_mem h)).length_le.trans_eq
    (by rw [flatMap_def])

theorem length_le_length_flatMap {f : α → List UInt8} (h : ∀ a, f a ≠ []) (l : List α) :
    l.length ≤ (l.flatMap f).length := by
  induction l with
  | nil => exact le_rfl
  | cons a l ih =>
    have ha := length_pos_iff.2 (h a)
    rw [flatMap_cons, length_append, length_cons]
    omega

theorem encodeHead_ne_nil (major n : ℕ) : encodeHead major n ≠ [] := by
  obtain ⟨info, tail, -, h⟩ := exists_encodeHead_eq major n
  rw [h]
  exact cons_ne_nil _ _

theorem encode_ne_nil (v : CanonicalValue) : v.encode ≠ [] := by
  cases v <;> simp [encode, encodeHead_ne_nil]

theorem length_le_encodeItems (vs : List CanonicalValue) : vs.length ≤ (encodeItems vs).length := by
  rw [encodeItems_eq]
  exact length_le_length_flatMap encode_ne_nil vs

theorem exists_parts_eq (v : CanonicalValue) :
    ∃ ws, v.parts = encodeItems ws ∧ ∀ len, v.head = .array len → len = ws.length := by
  cases v with
  | array items => exact ⟨items, rfl, by rintro _ ⟨⟩; rfl⟩
  | map entries =>
    refine ⟨(sorted entries).flatMap fun e => [e.1, e.2], ?_, nofun⟩
    rw [parts_map, encodeItems_eq, flatMap_assoc]
    simp
  | tag t inner => exact ⟨[inner], by rw [parts, encodeItems, encodeItems, append_nil], nofun⟩
  | _ => exact ⟨[], rfl, nofun⟩

/-- The bytes before the parts. -/
def headBytes : CanonicalValue → List UInt8
  | .array items => encodeHead 4 items.length
  | .map entries => encodeHead 5 entries.length
  | .tag t _ => encodeHead 6 t.toNat
  | v => v.encode

/-- How many parts the head of an array or a map announces. -/
def width : CanonicalValue → ℕ
  | .array items => items.length
  | .map entries => entries.length
  | _ => 0

theorem encode_eq (v : CanonicalValue) : v.encode = v.headBytes ++ v.parts := by
  cases v with
  | array | map | tag => rfl
  | _ => exact (append_nil _).symm

theorem width_le_parts (v : CanonicalValue) : v.width ≤ v.parts.length := by
  cases v with
  | array items => exact length_le_encodeItems items
  | map entries =>
    rw [parts_map, width, ← (sorted_perm entries).length_eq]
    exact length_le_length_flatMap (fun e => by simp [encode_ne_nil]) _
  | _ => exact Nat.zero_le _

theorem opening_of_read {α : Type} (f : List UInt8 → Except Cbor.Error (α × List UInt8))
    (g : α → Opening) {kind : Kind} {bs rest : List UInt8} {a : α}
    (hkind : datatype bs = .ok kind) (hof : openingOf bs kind = (f bs).map (Prod.map g id))
    (hread : f bs = .ok (a, rest)) : opening bs = .ok (g a, rest) := by
  have hopening : opening bs = openingOf bs kind := by
    rw [opening, hkind]
    rfl
  rw [hopening, hof, hread]
  rfl

theorem float_beBytes {k n : ℕ} (first : UInt8) (h : n < 256 ^ k) (rest : List UInt8) :
    float k first (first :: (Endian.beBytes k n ++ rest)) = .ok (n, rest) := by
  rw [float, byte, if_pos rfl]
  exact readBe_beBytes h rest

theorem opening_headBytes (v : CanonicalValue) (hhead : v.headBytes.length < 2 ^ 64)
    (hwidth : v.width < 2 ^ 64) (rest : List UInt8) :
    opening (v.headBytes ++ rest) = .ok (v.head, rest) := by
  have hdata : ∀ major < 7, ∀ n rest, datatype (encodeHead major n ++ rest) =
      .ok (kindOfMajor major) := fun major hmajor => datatype_encodeHead hmajor
  cases v with
  | unsigned n =>
    exact opening_of_read u64 (.atom ∘ .unsigned) (hdata 0 (by decide) _ _) rfl
      (number_encodeHead (by decide) n rest)
  | negative n =>
    exact opening_of_read Cbor.negative (.atom ∘ .negative) (hdata 1 (by decide) _ _) rfl
      (number_encodeHead (by decide) n rest)
  | bytes bs =>
    simp only [headBytes, encode, length_append] at hhead
    simp only [headBytes, encode, append_assoc]
    exact opening_of_read Cbor.bytes (.atom ∘ .bytes) (hdata 2 (by decide) _ _) rfl
      (bytes_encode (by omega) rest)
  | text s =>
    simp only [headBytes, encode, length_append] at hhead
    simp only [headBytes, encode, append_assoc]
    exact opening_of_read str (.atom ∘ .text) (hdata 3 (by decide) _ _) rfl
      (str_encode (by omega) rest)
  | array items =>
    exact opening_of_read (Cbor.head 4) .array (hdata 4 (by decide) _ _) rfl
      (head_encodeHead (by decide) hwidth _)
  | map entries =>
    exact opening_of_read (Cbor.head 5) .map (hdata 5 (by decide) _ _) rfl
      (head_encodeHead (by decide) hwidth _)
  | tag t inner =>
    exact opening_of_read Cbor.tag .tag (hdata 6 (by decide) _ _) rfl
      (number_encodeHead (by decide) t _)
  | bool b => cases b <;> rfl
  | null => rfl
  | undefined => rfl
  | f32 bits =>
    have h := opening_of_read (float 4 0xfa) (.atom ∘ .f32 ∘ .ofNat) rfl rfl
      (float_beBytes 0xfa bits.toNat_lt rest)
    rwa [Function.comp_apply, Function.comp_apply, UInt32.ofNat_toNat] at h
  | f64 bits =>
    have h := opening_of_read (float 8 0xfb) (.atom ∘ .f64 ∘ .ofNat) rfl rfl
      (float_beBytes 0xfb bits.toNat_lt rest)
    rwa [Function.comp_apply, Function.comp_apply, UInt64.ofNat_toNat] at h

/-- **Reading the head of an encoded value.** -/
theorem opening_encode (v : CanonicalValue) (hv : v.encode.length < 2 ^ 64) (rest : List UInt8) :
    opening (v.encode ++ rest) = .ok (v.head, v.parts ++ rest) := by
  have hwidth := v.width_le_parts
  rw [encode_eq, length_append] at hv
  rw [encode_eq, append_assoc]
  exact opening_headBytes v (by omega) (by omega) _

end CanonicalValue

open CanonicalValue

/-! ### Canonical bytes -/

/-- At most `L` bytes that are encoded values one after the other. -/
def Encoded (L : ℕ) (bs : List UInt8) : Prop := ∃ vs, bs = encodeItems vs ∧ bs.length ≤ L

theorem encoded_encode (v : CanonicalValue) : Encoded v.encode.length v.encode :=
  ⟨[v], by rw [encodeItems, encodeItems, append_nil], le_rfl⟩

namespace Encoded

variable {L : ℕ} {bs rest : List UInt8}

theorem exists_opening (h : Encoded L bs) (hL : L < 2 ^ 64) (hbs : bs ≠ []) :
    ∃ v : CanonicalValue, ∃ vs, opening bs = .ok (v.head, v.parts ++ encodeItems vs) := by
  obtain ⟨vs, rfl, hlen⟩ := h
  cases vs with
  | nil => exact absurd rfl hbs
  | cons v vs =>
    rw [encodeItems, length_append] at hlen
    exact ⟨v, vs, v.opening_encode (by omega) _⟩

/-- **Reading a head leaves encoded values**, and an array has no more elements than bytes. -/
theorem of_opening {o : Opening} (h : Encoded L bs) (hL : L < 2 ^ 64)
    (hopen : opening bs = .ok (o, rest)) : Encoded L rest ∧ ∀ len, o = .array len → len ≤ L := by
  have hlt := (opening_lt hopen).1
  have hbs : bs ≠ [] := ne_nil_of_length_pos (by omega)
  obtain ⟨v, vs, hv⟩ := h.exists_opening hL hbs
  obtain ⟨ws, hparts, harray⟩ := v.exists_parts_eq
  have hle : bs.length ≤ L := h.choose_spec.2
  rw [hopen] at hv
  cases hv
  have hrest : v.parts ++ encodeItems vs = encodeItems (ws ++ vs) := by
    rw [hparts, encodeItems_append]
  refine ⟨⟨ws ++ vs, hrest, by omega⟩, fun len hlen => ?_⟩
  calc len = ws.length := harray len hlen
    _ ≤ (ws ++ vs).length := by simp
    _ ≤ (v.parts ++ encodeItems vs).length := by
      rw [hrest]
      exact length_le_encodeItems _
    _ ≤ L := by omega

theorem kindOf_ne_break {b : UInt8} (h : Encoded L (b :: bs)) (hL : L < 2 ^ 64) :
    kindOf b ≠ .break := by
  intro hb
  obtain ⟨v, vs, hv⟩ := h.exists_opening hL (cons_ne_nil b bs)
  have hkind : opening (b :: bs) = openingOf (b :: bs) (kindOf b) := rfl
  rw [hkind, hb] at hv
  cases hv

end Encoded

/-! ### Decoders that keep encoded values -/

def Keeps {α : Type} (L : ℕ) (p : Decoder α) : Prop :=
  ∀ bs, Encoded L bs → wp p (fun _ rest => Encoded L rest) bs

def ReadsHead {α : Type} (f : List UInt8 → Except Cbor.Error (α × List UInt8)) : Prop :=
  ∀ bs a rest, f bs = .ok (a, rest) → ∃ o, opening bs = .ok (o, rest)

section Keeps

variable {α β : Type} {L : ℕ} {p : Decoder α}

theorem keeps_pure (a : α) : Keeps L (pure a) := fun _ hbs => wp_pure.2 hbs

theorem keeps_fail (e : Cbor.Error) : Keeps L (fail e : Decoder α) := fun _ _ => trivial

theorem Keeps.bind {f : α → Decoder β} (hp : Keeps L p) (hf : ∀ a, Keeps L (f a)) :
    Keeps L (p >>= f) := fun bs hbs =>
  wp_bind.2 ((hp bs hbs).mono fun a rest hrest => hf a rest hrest)

theorem keeps_item {f : List UInt8 → Except Cbor.Error (α × List UInt8)} (hL : L < 2 ^ 64)
    (hf : ReadsHead f) : Keeps L (item f) := by
  intro bs hbs
  rw [wp_item_iff]
  intro a rest hread
  obtain ⟨o, hopen⟩ := hf bs a rest hread
  exact (hbs.of_opening hL hopen).1

theorem keeps_peek (f : List UInt8 → Except Cbor.Error α) : Keeps L (peek f) :=
  fun _ hbs => wp_peek_iff.2 fun _ _ => hbs

theorem Keeps.times (hp : Keeps L p) (n : ℕ) : Keeps L (times p n) := by
  induction n with
  | zero => exact keeps_pure []
  | succ n ih => exact hp.bind fun a => ih.bind fun as => keeps_pure (a :: as)

theorem Keeps.untilBreakAux (hL : L < 2 ^ 64) (hp : Keeps L p) (fuel : ℕ) :
    Keeps L (untilBreakAux p fuel) := by
  induction fuel with
  | zero => exact keeps_fail _
  | succ fuel ih =>
    intro bs hbs
    rw [Decoder.untilBreakAux, wp_bind, wp_peek_iff]
    intro kind hkind
    cases bs with
    | nil => cases hkind
    | cons b bs =>
      cases hkind
      rw [if_neg (hbs.kindOf_ne_break hL)]
      exact (hp.bind fun a => ih.bind fun as => keeps_pure (a :: as)) _ hbs

theorem Keeps.untilBreak (hL : L < 2 ^ 64) (hp : Keeps L p) : Keeps L (untilBreak p) :=
  fun bs hbs => hp.untilBreakAux hL (bs.length + 1) bs hbs

end Keeps

/-! ### Which readers read heads -/

theorem readsHead_of_head {α : Type} {f : List UInt8 → Except Cbor.Error (α × List UInt8)} {major : ℕ}
    (hmajor : major < 7) (k : ℕ × List UInt8 → Except Cbor.Error (α × List UInt8)) (g : α → Opening)
    (hf : ∀ bs, f bs = head major bs >>= k)
    (hof : ∀ bs, openingOf bs (kindOfMajor major) = (f bs).map (Prod.map g id)) : ReadsHead f := by
  intro bs a rest h
  obtain ⟨p, hhead, -⟩ := Checks.bind_eq_ok_iff.1 ((hf bs).symm.trans h)
  exact ⟨_, opening_of_read f g (datatype_of_head hmajor hhead) (hof bs) h⟩

theorem readsHead_u64 : ReadsHead u64 :=
  readsHead_of_head (by decide) _ _ (fun _ => rfl) fun _ => rfl

theorem readsHead_bytes : ReadsHead bytes :=
  readsHead_of_head (by decide) _ _ (fun _ => rfl) fun _ => rfl

theorem readsHead_str : ReadsHead str :=
  readsHead_of_head (by decide) _ _ (fun _ => rfl) fun _ => rfl

theorem readsHead_bool : ReadsHead bool := by
  intro bs b rest h
  cases bs with
  | nil => cases h
  | cons first bs =>
    have hkind : datatype (first :: bs) = .ok .bool := by
      rw [Cbor.bool] at h
      split_ifs at h with h₀ h₁
      · rw [h₀]
        rfl
      · rw [h₁]
        rfl
    exact ⟨_, opening_of_read _ (.atom ∘ .bool) hkind rfl h⟩

theorem readsHead_null : ReadsHead (byte 0xf6) := by
  intro bs _ rest h
  cases bs with
  | nil => cases h
  | cons first bs =>
    rw [byte] at h
    split_ifs at h with hfirst
    cases h
    rw [hfirst]
    exact ⟨_, rfl⟩

theorem opening_of_array {bs rest : List UInt8} {len : Option ℕ} (h : array bs = .ok (len, rest)) :
    ∃ o, opening bs = .ok (o, rest) ∧ ∀ n, len = some n → o = .array n := by
  cases bs with
  | nil => cases h
  | cons b bs =>
    rw [Cbor.array, container] at h
    split_ifs at h with hb
    · cases h
      have hbyte : b = 0x9f := UInt8.toNat_inj.1 hb
      rw [hbyte]
      exact ⟨.arrayIndef, rfl, by simp⟩
    · cases hhead : Cbor.head 4 (b :: bs) with
      | error e =>
        rw [hhead] at h
        cases h
      | ok p =>
        rw [hhead] at h
        cases h
        refine ⟨_, opening_of_read (Cbor.head 4) .array
          (datatype_of_head (by decide) hhead) rfl hhead, ?_⟩
        rintro _ ⟨⟩
        rfl

theorem readsHead_array : ReadsHead array := fun _ _ _ h => (opening_of_array h).imp fun _ => And.left

/-! ### The monad of decoders for canonical bytes -/

/-- The machine can reserve an element for every byte of an input of `L` bytes. -/
structure Machine.RoomFor (m : Machine) (L : ℕ) : Prop where
  length_lt : L < 2 ^ 64
  ipNet : L * m.ipNetSize ≤ m.alloc
  url : L * m.urlSize ≤ m.alloc

structure CanonicalDecoder (m : Machine) (α : Type) where
  run : Decoder α
  keeps : ∀ L, m.RoomFor L → Keeps L run

namespace CanonicalDecoder

variable {m : Machine} {α : Type}

instance : Monad (CanonicalDecoder m) where
  pure a := ⟨pure a, fun _ _ => keeps_pure a⟩
  bind p f := ⟨p.run >>= fun a => (f a).run, fun L hL =>
    (p.keeps L hL).bind fun a => (f a).keeps L hL⟩

def fail (e : Cbor.Error) : CanonicalDecoder m α := ⟨Decoder.fail e, fun _ _ => keeps_fail e⟩

def ofReader (f : List UInt8 → Except Cbor.Error (α × List UInt8)) (hf : ReadsHead f) :
    CanonicalDecoder m α := ⟨item f, fun _ hL => keeps_item hL.length_lt hf⟩

def kind : CanonicalDecoder m Kind := ⟨peek datatype, fun _ _ => keeps_peek datatype⟩

def u64 : CanonicalDecoder m UInt64 := ofReader Cbor.u64 readsHead_u64

def bytes : CanonicalDecoder m (List UInt8) := ofReader Cbor.bytes readsHead_bytes

def str : CanonicalDecoder m String := ofReader Cbor.str readsHead_str

def bool : CanonicalDecoder m Bool := ofReader Cbor.bool readsHead_bool

def null : CanonicalDecoder m Unit := ofReader (byte 0xf6) readsHead_null

def array : CanonicalDecoder m (Option ℕ) := ofReader Cbor.array readsHead_array

/-- Read `n` times. -/
def times (p : CanonicalDecoder m α) (n : ℕ) : CanonicalDecoder m (List α) :=
  ⟨p.run.times n, fun L hL => (p.keeps L hL).times n⟩

def untilBreak (p : CanonicalDecoder m α) : CanonicalDecoder m (List α) :=
  ⟨p.run.untilBreak, fun L hL => (p.keeps L hL).untilBreak hL.length_lt⟩

def reservedVec (size : ℕ) (hsize : ∀ L, m.RoomFor L → L * size ≤ m.alloc)
    (p : CanonicalDecoder m α) : CanonicalDecoder m (List α) where
  run := do
    match ← item Cbor.array with
    | none => Decoder.fail (.message "indefinite array is not supported")
    | some len => do
      lift (m.withCapacity len size)
      p.run.times len
  keeps := by
    intro L hL bs hbs
    rw [wp_bind, wp_item_iff]
    intro len rest hread
    obtain ⟨o, hopen, harray⟩ := opening_of_array hread
    obtain ⟨hrest, hlen⟩ := hbs.of_opening hL.length_lt hopen
    cases len with
    | none => trivial
    | some n =>
      have hn : n * size ≤ m.alloc :=
        (Nat.mul_le_mul_right size (hlen n (harray n rfl))).trans (hsize L hL)
      rw [wp_bind, wp_lift_iff]
      exact ⟨(), Machine.withCapacity_eq_returns_iff.2 hn, (p.keeps L hL).times n rest hrest⟩

end CanonicalDecoder

end PactMesh
