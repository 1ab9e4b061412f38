import PactMesh.Trust.Decoding

/-!
# Which bytes are accepted as canonical

Bytes are accepted if they parse to a value whose encoding they are.  The encoder sorts the entries of
a map by their keys, but keeps two entries with the same key, and writes a floating-point number with
the width that was read.

Main results: `accepted_deterministic_iff`, `canonical_encoder_sound`.
-/

namespace PactMesh

open CanonicalValue Cbor Decoder Outcome List

namespace CanonicalValue

/-- No map has a key twice, and no floating-point number has a shorter form. -/
inductive Strict : CanonicalValue → Prop
  | atom {v : CanonicalValue} : v.head = .atom v → (∀ bits, v = .f32 bits → ShortSingle bits) →
    (∀ bits, v = .f64 bits → ShortDouble bits) → Strict v
  | array {items : List CanonicalValue} : (∀ v ∈ items, Strict v) → Strict (.array items)
  | map {entries : List (CanonicalValue × CanonicalValue)} : (∀ e ∈ entries, Strict e.1) →
    (∀ e ∈ entries, Strict e.2) → (entries.map fun e => e.1.encode).Nodup → Strict (.map entries)
  | tag {t : UInt64} {inner : CanonicalValue} : Strict inner → Strict (.tag t inner)

/-! ### Strict values and deterministic bytes -/

variable {v w : CanonicalValue} {α : Type} {es entries : List (CanonicalValue × CanonicalValue)}

theorem encode_map (entries : List (CanonicalValue × CanonicalValue)) :
    encode (.map entries) = encodeHead 5 entries.length ++
      (sorted entries).flatMap fun e => e.1.encode ++ e.2.encode := by
  rw [← parts_map]
  rfl

theorem pairwise_sorted (entries : List (CanonicalValue × CanonicalValue)) :
    (sorted entries).Pairwise fun a b => a.1.encode ≤ b.1.encode := pairwise_insertionSort _ _

theorem Strict.deterministic (h : v.Strict) : Deterministic v.encode := by
  induction h with
  | @atom v hatom hsingle hdouble =>
    cases v with
    | unsigned n => exact .number (by decide) n.toNat_lt
    | negative n => exact .number (by decide) n.toNat_lt
    | bytes bs => exact .bytes bs
    | text s => exact .text s
    | bool b => cases b <;> exact .simple (by decide) (by decide)
    | null => exact .simple (by decide) (by decide)
    | undefined => exact .simple (by decide) (by decide)
    | f32 bits => exact .single (hsingle bits rfl)
    | f64 bits => exact .double (hdouble bits rfl)
    | array | map | tag => cases hatom
  | @array items _ ih =>
    have hitems : ∀ item ∈ items.map encode, Deterministic item := forall_mem_map.2 ih
    have hdet := Deterministic.array hitems
    rwa [length_map, ← flatMap_def, ← encodeItems_eq] at hdet
  | @map entries _ _ hnodup ihkeys ihvalues =>
    have hmem : ∀ {e}, e ∈ sorted entries → e ∈ entries := (sorted_perm entries).mem_iff.1
    have hnodup' : ((sorted entries).map fun e => e.1.encode).Nodup :=
      ((sorted_perm entries).map _).nodup_iff.2 hnodup
    have hlt : (sorted entries).Pairwise fun a b => a.1.encode < b.1.encode := by
      refine ((pairwise_sorted entries).and (pairwise_map.1 hnodup')).imp fun h => ?_
      by_contra hnot
      exact h.2 (List.le_antisymm h.1 hnot)
    have hkeys : ∀ e ∈ (sorted entries).map fun e => (e.1.encode, e.2.encode), Deterministic e.1 :=
      forall_mem_map.2 fun e he => ihkeys e (hmem he)
    have hdet := Deterministic.map hkeys (forall_mem_map.2 fun e he => ihvalues e (hmem he))
      (pairwise_map.2 hlt)
    rwa [length_map, (sorted_perm entries).length_eq, flatMap_map, ← encode_map] at hdet
  | tag _ ih => exact .tag (UInt64.toNat_lt _) ih

theorem exists_map_eq {β : Type} {P : α → Prop} {f : α → β} {l : List β}
    (h : ∀ b ∈ l, ∃ a, P a ∧ f a = b) : ∃ as : List α, (∀ a ∈ as, P a) ∧ as.map f = l := by
  induction l with
  | nil => exact ⟨[], by simp, rfl⟩
  | cons b l ih =>
    obtain ⟨⟨a, ha, rfl⟩, hl⟩ := forall_mem_cons.1 h
    obtain ⟨as, has, rfl⟩ := ih hl
    exact ⟨a :: as, forall_mem_cons.2 ⟨ha, has⟩, rfl⟩

theorem strict_of_not_float (hatom : v.head = .atom v)
    (hfloat : (match v with | .f32 _ | .f64 _ => false | _ => true) = true) : v.Strict := by
  refine .atom hatom ?_ ?_ <;> rintro bits rfl <;> cases hfloat

theorem strict_bytes (bs : List UInt8) : Strict (.bytes bs) := strict_of_not_float rfl rfl

theorem strict_text (s : String) : Strict (.text s) := strict_of_not_float rfl rfl

theorem exists_strict {b : List UInt8} (h : Deterministic b) :
    ∃ v : CanonicalValue, v.Strict ∧ v.encode = b := by
  induction h with
  | @number major n hmajor hn =>
    have hcast : (UInt64.ofNat n).toNat = n := by rw [UInt64.toNat_ofNat', Nat.mod_eq_of_lt hn]
    have hcases : major = 0 ∨ major = 1 := by omega
    rcases hcases with rfl | rfl
    · exact ⟨.unsigned (.ofNat n), strict_of_not_float rfl rfl, by rw [encode, hcast]⟩
    · exact ⟨.negative (.ofNat n), strict_of_not_float rfl rfl, by rw [encode, hcast]⟩
  | bytes bs => exact ⟨.bytes bs, strict_bytes bs, rfl⟩
  | text s => exact ⟨.text s, strict_text s, rfl⟩
  | array _ ih =>
    obtain ⟨vs, hvs, rfl⟩ := exists_map_eq ih
    exact ⟨.array vs, .array hvs, by
      rw [encode, encodeItems_eq, length_map, flatMap_def]⟩
  | @map entries _ _ hkeys ihkeys ihvalues =>
    have hentries : ∀ e ∈ entries, ∃ e' : CanonicalValue × CanonicalValue,
        (e'.1.Strict ∧ e'.2.Strict) ∧ (e'.1.encode, e'.2.encode) = e := by
      intro e he
      obtain ⟨k, hk, hkey⟩ := ihkeys e he
      obtain ⟨v, hv, hvalue⟩ := ihvalues e he
      exact ⟨(k, v), ⟨hk, hv⟩, Prod.ext hkey hvalue⟩
    obtain ⟨es, hes, rfl⟩ := exists_map_eq hentries
    have hpairs := pairwise_map.1 hkeys
    have hsorted : sorted es = es := List.Pairwise.insertionSort_eq (hpairs.imp List.le_of_lt)
    have hnodup : (es.map fun e => e.1.encode).Nodup :=
      pairwise_map.2 (hpairs.imp fun {a b} hlt (heq : a.1.encode = b.1.encode) =>
        List.lt_irrefl _ (heq ▸ hlt))
    refine ⟨.map es, .map (fun e he => (hes e he).1) (fun e he => (hes e he).2) hnodup, ?_⟩
    rw [encode_map, hsorted, length_map, flatMap_map]
  | @tag t inner ht _ ih =>
    obtain ⟨v, hv, rfl⟩ := ih
    exact ⟨.tag (.ofNat t) v, .tag hv, by rw [encode, UInt64.toNat_ofNat', Nat.mod_eq_of_lt ht]⟩
  | @simple b hlow hhigh =>
    have hcases : ∀ b : UInt8, 0xf4 ≤ b → b ≤ 0xf7 → b = 0xf4 ∨ b = 0xf5 ∨ b = 0xf6 ∨ b = 0xf7 :=
      Endian.forall_byte (by decide +kernel)
    rcases hcases b hlow hhigh with rfl | rfl | rfl | rfl
    · exact ⟨.bool false, strict_of_not_float rfl rfl, rfl⟩
    · exact ⟨.bool true, strict_of_not_float rfl rfl, rfl⟩
    · exact ⟨.null, strict_of_not_float rfl rfl, rfl⟩
    · exact ⟨.undefined, strict_of_not_float rfl rfl, rfl⟩
  | @single bits h => exact ⟨.f32 bits, .atom rfl (by rintro _ ⟨⟩; exact h) (by rintro _ ⟨⟩), rfl⟩
  | @double bits h => exact ⟨.f64 bits, .atom rfl (by rintro _ ⟨⟩) (by rintro _ ⟨⟩; exact h), rfl⟩

/-! ### Parsing encoded values -/

/-- The same value, but for the order of map entries. -/
def Same (w v : CanonicalValue) : Prop := v.encode = w.encode ∧ (w.Strict ↔ v.Strict)

theorem one_le_nesting (v : CanonicalValue) : 1 ≤ v.nesting := by
  cases v <;> simp [nesting]

theorem strict_array_iff {items : List CanonicalValue} :
    Strict (.array items) ↔ ∀ v ∈ items, v.Strict := by
  refine ⟨fun h => ?_, .array⟩
  cases h with
  | atom hatom => cases hatom
  | array h => exact h

theorem strict_map_iff :
    Strict (.map entries) ↔ (∀ e ∈ entries, e.1.Strict ∧ e.2.Strict) ∧
      (entries.map fun e => e.1.encode).Nodup := by
  constructor
  · intro h
    cases h with
    | atom hatom => cases hatom
    | map hkeys hvalues hnodup => exact ⟨fun e he => ⟨hkeys e he, hvalues e he⟩, hnodup⟩
  · rintro ⟨hparts, hnodup⟩
    exact .map (fun e he => (hparts e he).1) (fun e he => (hparts e he).2) hnodup

theorem strict_tag_iff {t : UInt64} {inner : CanonicalValue} :
    Strict (.tag t inner) ↔ inner.Strict := by
  refine ⟨fun h => ?_, .tag⟩
  cases h with
  | atom hatom => cases hatom
  | tag h => exact h

mutual

/-- `minicbor::to_vec`: the entries of a map are written in the order they have. -/
def raw : CanonicalValue → List UInt8
  | .array items => encodeHead 4 items.length ++ rawItems items
  | .map entries => encodeHead 5 entries.length ++ rawEntries entries
  | .tag t inner => encodeHead 6 t.toNat ++ raw inner
  | v => encode v

def rawItems : List CanonicalValue → List UInt8
  | [] => []
  | v :: vs => raw v ++ rawItems vs

def rawEntries : List (CanonicalValue × CanonicalValue) → List UInt8
  | [] => []
  | (k, v) :: es => (raw k ++ raw v) ++ rawEntries es

end

def rawParts : CanonicalValue → List UInt8
  | .array items => rawItems items
  | .map entries => rawEntries entries
  | .tag _ inner => raw inner
  | _ => []

theorem rawItems_eq (vs : List CanonicalValue) : rawItems vs = vs.flatMap raw := by
  induction vs with
  | nil => rfl
  | cons v vs ih => rw [rawItems, ih, flatMap_cons]

theorem rawEntries_eq (es : List (CanonicalValue × CanonicalValue)) :
    rawEntries es = es.flatMap fun e => e.1.raw ++ e.2.raw := by
  induction es with
  | nil => rfl
  | cons e es ih => rw [rawEntries, ih, flatMap_cons]

theorem raw_eq (v : CanonicalValue) : v.raw = v.headBytes ++ v.rawParts := by
  cases v with
  | array | map | tag => rw [raw, headBytes, rawParts]
  | _ => exact (append_nil _).symm

theorem raw_ne_nil (v : CanonicalValue) : v.raw ≠ [] := by
  cases v <;> simp [raw, encodeHead_ne_nil, encode_ne_nil]

theorem width_le_rawParts (v : CanonicalValue) : v.width ≤ v.rawParts.length := by
  cases v with
  | array items =>
    rw [rawParts, rawItems_eq]
    exact length_le_length_flatMap raw_ne_nil items
  | map entries =>
    rw [rawParts, rawEntries_eq]
    exact length_le_length_flatMap (fun e => by simp [raw_ne_nil]) entries
  | _ => exact Nat.zero_le _

/-- **What is written can be parsed** on a machine with enough room, and the value comes back. -/
theorem parse_raw {m : Machine} {room : ℕ} (w : CanonicalValue) (hroom : w.nesting ≤ room)
    (hlen : w.raw.length < 2 ^ 64) (halloc : w.raw.length * (2 * m.valueSize) ≤ m.alloc)
    (rest : List UInt8) :
    parseCanonicalValue m room (w.raw ++ rest) = .returns (.ok (w, rest)) := by
  induction room generalizing w rest with
  | zero => exact absurd hroom (by have := one_le_nesting w; omega)
  | succ room ih =>
    have hwidth := w.width_le_rawParts
    have hraw := congrArg List.length w.raw_eq
    rw [length_append] at hraw
    have hpart : ∀ v : CanonicalValue, v.nesting ≤ room → v.raw.length ≤ w.rawParts.length →
        ∀ rest, parseCanonicalValue m room (v.raw ++ rest) = .returns (.ok (v, rest)) :=
      fun v hv hle => ih v hv (by omega) ((Nat.mul_le_mul_right _ (by omega)).trans halloc)
    have hfits : ∀ size ≤ 2 * m.valueSize, ∀ bs,
        lift (m.withCapacity w.width size) bs = .returns (.ok ((), bs)) := fun size hsize =>
      lift_of_returns (Machine.withCapacity_eq_returns_iff.2
        ((Nat.mul_le_mul (by omega) hsize).trans halloc))
    rw [raw_eq, append_assoc, parseCanonicalValue_succ,
      item_opening_ok (opening_headBytes w (by omega) (by omega) _)]
    cases w with
    | array items =>
      rw [nesting] at hroom
      rw [rawParts, rawItems_eq] at hpart ⊢
      rw [width] at hfits
      have hitem := fun v (hv : v ∈ items) =>
        hpart v (nestingItems_le_iff.1 (by omega) v hv) (length_le_flatMap hv)
      rw [head, Opening.complete, bind_of_ok (hfits m.valueSize (by omega) _),
        bind_of_ok (times_eq hitem rest)]
      rfl
    | map entries =>
      rw [nesting] at hroom
      rw [rawParts, rawEntries_eq] at hpart ⊢
      rw [width] at hfits
      have hentry : ∀ e ∈ entries, ∀ rest, entryOf (parseCanonicalValue m room)
          ((e.1.raw ++ e.2.raw) ++ rest) = .returns (.ok (e, rest)) := by
        intro e he rest
        have hnest := nestingEntries_le_iff.1 le_rfl e he
        have hshort := length_le_flatMap (f := fun e => e.1.raw ++ e.2.raw) he
        rw [length_append] at hshort
        rw [entryOf, append_assoc, bind_of_ok (hpart e.1 (by omega) (by omega) _),
          bind_of_ok (hpart e.2 (by omega) (by omega) _)]
        rfl
      rw [head, Opening.complete, bind_of_ok (hfits _ le_rfl _), bind_of_ok (times_eq hentry rest)]
      rfl
    | tag t inner =>
      rw [nesting] at hroom
      rw [head, rawParts, Opening.complete, bind_of_ok (hpart inner (by omega) le_rfl rest)]
      rfl
    | _ => rfl

@[elab_as_elim]
theorem induct {motive : CanonicalValue → Prop} (atom : ∀ v, v.head = .atom v → motive v)
    (array : ∀ items, (∀ v ∈ items, motive v) → motive (.array items))
    (map : ∀ entries, (∀ e ∈ entries, motive e.1 ∧ motive e.2) → motive (.map entries))
    (tag : ∀ t inner, motive inner → motive (.tag t inner)) (v : CanonicalValue) : motive v :=
  v.rec (fun _ => atom _ rfl) (fun _ => atom _ rfl) (fun _ => atom _ rfl) (fun _ => atom _ rfl)
    array map tag (fun _ => atom _ rfl) (atom _ rfl) (atom _ rfl) (fun _ => atom _ rfl)
    (fun _ => atom _ rfl) nofun (fun _ _ hv hvs => forall_mem_cons.2 ⟨hv, hvs⟩) nofun
    (fun _ _ he hes => forall_mem_cons.2 ⟨he, hes⟩) fun _ _ hk hv => ⟨hk, hv⟩

/-- **An encoding is how the value is written when the entries of all maps are sorted.** -/
theorem exists_raw_eq (w : CanonicalValue) :
    ∃ v, v.raw = w.encode ∧ v.nesting ≤ w.nesting ∧ Same w v := by
  induction w using induct with
  | atom v hatom =>
    refine ⟨v, ?_, le_rfl, rfl, Iff.rfl⟩
    cases v with
    | array | map | tag => cases hatom
    | _ => rfl
  | array items ih =>
    choose! f hraw hnesting hsame using ih
    refine ⟨.array (items.map f), ?_, ?_, ?_, ?_⟩
    · rw [raw, encode, rawItems_eq, encodeItems_eq, length_map, flatMap_map, flatMap_congr hraw]
    · exact Nat.succ_le_succ (nestingItems_le_iff.2 (forall_mem_map.2 fun v hv =>
        (hnesting v hv).trans (nestingItems_le_iff.1 le_rfl v hv)))
    · rw [encode, encode, encodeItems_eq, encodeItems_eq, length_map, flatMap_map,
        flatMap_congr fun v hv => (hsame v hv).1]
    · rw [strict_array_iff, strict_array_iff, forall_mem_map]
      exact forall₂_congr fun v hv => (hsame v hv).2
  | map entries ih =>
    have : Nonempty CanonicalValue := ⟨.null⟩
    choose! f hf using fun e he => (ih e he).1
    choose! g hg using fun e he => (ih e he).2
    have hperm := sorted_perm entries
    have hmem : ∀ {e}, e ∈ sorted entries → e ∈ entries := hperm.mem_iff.1
    have hbytes : ∀ e ∈ sorted entries, (f e).encode = e.1.encode ∧ (g e).encode = e.2.encode :=
      fun e he => ⟨(hf e (hmem he)).2.2.1, (hg e (hmem he)).2.2.1⟩
    refine ⟨.map ((sorted entries).map fun e => (f e, g e)), ?_, ?_, ?_, ?_⟩
    · rw [raw, encode_map, rawEntries_eq, length_map, hperm.length_eq, flatMap_map]
      exact congrArg _ (flatMap_congr fun e he => by
        rw [(hf e (hmem he)).1, (hg e (hmem he)).1])
    · refine Nat.succ_le_succ (nestingEntries_le_iff.2 (forall_mem_map.2 fun e he => ?_))
      have hle := nestingEntries_le_iff.1 le_rfl e (hmem he)
      exact ⟨(hf e (hmem he)).2.1.trans hle.1, (hg e (hmem he)).2.1.trans hle.2⟩
    · -- the parts stand in the order of their keys already
      have hsorted : sorted ((sorted entries).map fun e => (f e, g e)) =
          (sorted entries).map fun e => (f e, g e) := by
        refine (pairwise_map.2 ?_).insertionSort_eq
        refine (pairwise_sorted entries).imp_of_mem fun ha hb hle => ?_
        rwa [(hbytes _ ha).1, (hbytes _ hb).1]
      rw [encode_map, encode_map, hsorted, length_map, hperm.length_eq, flatMap_map]
      exact congrArg _ (flatMap_congr fun e he => by rw [(hbytes e he).1, (hbytes e he).2])
    · rw [strict_map_iff, strict_map_iff, forall_mem_map, map_map,
        ← (hperm.map fun e => e.1.encode).nodup_iff]
      refine and_congr (forall_congr' fun e => ?_) ?_
      · rw [hperm.mem_iff]
        exact forall_congr' fun he => and_congr (hf e he).2.2.2 (hg e he).2.2.2
      · rw [map_congr_left fun e he => (hbytes e he).1.symm]
        rfl
  | tag t inner ih =>
    obtain ⟨v, hraw, hnesting, hsame⟩ := ih
    refine ⟨.tag t v, by rw [raw, encode, hraw], Nat.succ_le_succ hnesting, ?_, ?_⟩
    · rw [encode, encode, hsame.1]
    · rw [strict_tag_iff, strict_tag_iff, hsame.2]

/-- **Encoded values can be parsed** on a machine with enough room, and the value comes back but for
the order of map entries. -/
theorem exists_parse_encode {m : Machine} {room : ℕ} (w : CanonicalValue) (hroom : w.nesting ≤ room)
    (hlen : w.encode.length < 2 ^ 64) (halloc : w.encode.length * (2 * m.valueSize) ≤ m.alloc) :
    ∃ v, parseCanonicalValue m room w.encode = .returns (.ok (v, [])) ∧ Same w v := by
  obtain ⟨v, hraw, hnesting, hsame⟩ := exists_raw_eq w
  have hparse := parse_raw v (hnesting.trans hroom) (hraw ▸ hlen) (hraw ▸ halloc) []
  rw [append_nil, hraw] at hparse
  exact ⟨v, hparse, hsame⟩

/-- Two values with the same encoding differ in the order of map entries only. -/
theorem strict_iff_of_encode_eq {w : CanonicalValue} (heq : v.encode = w.encode)
    (hlen : v.encode.length < 2 ^ 64) : v.Strict ↔ w.Strict := by
  let m : Machine := ⟨max v.nesting w.nesting, 0, 0, 0, 0, by decide⟩
  obtain ⟨u, hu, hv⟩ := exists_parse_encode (m := m) v (le_max_left _ w.nesting) hlen (by simp [m])
  obtain ⟨u', hu', hw⟩ := exists_parse_encode (m := m) w (le_max_right v.nesting _) (heq ▸ hlen)
    (by simp [m])
  rw [heq, hu'] at hu
  cases hu
  exact hv.2.trans hw.2.symm

end CanonicalValue

section Accepted

variable {α : Type} {m : Machine} {decode : Decoder α} {bytes : List UInt8} {a : α}

theorem decodeWhole_of_ok (h : decode bytes = .returns (.ok (a, []))) :
    decodeWhole decode bytes = .returns (.ok a) := by
  rw [decodeWhole, h]
  rfl

theorem exists_encode_of_accepted (h : fromCbor m decode bytes = .returns (.ok a)) :
    ∃ v : CanonicalValue, parseCanonicalValue m m.stack bytes = .returns (.ok (v, [])) ∧
      v.encode = bytes := by
  obtain ⟨r, hr, h⟩ := bind_eq_returns_iff.1 h
  match r with
  | .error e => cases h
  | .ok v =>
    obtain ⟨encoded, hencoded, h⟩ := bind_eq_returns_iff.1 h
    rw [encodeCanonicalValue] at hencoded
    split_ifs at hencoded
    cases hencoded
    split_ifs at h with hcanonical
    · cases h
    · exact ⟨v, decodeWhole_eq_ok hr, not_not.1 hcanonical⟩

/-- **Accepted bytes are the encoding of a value**, and they are deterministic just if no map in it
has a key twice and no floating-point number has a shorter form. -/
theorem accepted_deterministic_iff (m : Machine) (decode : Decoder α) (bytes : List UInt8) (a : α)
    (h : fromCbor m decode bytes = .returns (.ok a)) (hlen : bytes.length < 2 ^ 64) :
    (∃ v : CanonicalValue, v.encode = bytes) ∧
      ∀ v : CanonicalValue, v.encode = bytes → (Deterministic bytes ↔ v.Strict) := by
  refine ⟨(exists_encode_of_accepted h).imp fun _ => And.right, ?_⟩
  rintro v rfl
  constructor
  · intro hdet
    obtain ⟨w, hw, heq⟩ := exists_strict hdet
    exact (strict_iff_of_encode_eq heq (heq ▸ hlen)).1 hw
  · exact CanonicalValue.Strict.deterministic

end Accepted

/-- `to_canonical_cbor`, when `minicbor::to_vec` wrote `encoded`. -/
def canonicalizeCbor (m : Machine) (encoded : List UInt8) : Outcome (List UInt8) := do
  match ← parseCanonicalValue m m.stack encoded with
  | .ok (parsed, _) => encodeCanonicalValue m parsed
  | .error _ => .panics .explicitPanic

/-- The machine has stack for the levels of the value, and memory for as many elements as bytes. -/
structure Machine.HasRoom (m : Machine) (w : CanonicalValue) : Prop where
  stack : w.nesting ≤ m.stack
  bytes : ∀ bs ∈ [w.raw, w.encode], bs.length < 2 ^ 64 ∧ bs.length * (2 * m.valueSize) ≤ m.alloc

/-- The same item: at any level, map entries with distinct keys may stand in another order. -/
inductive CanonicalValue.Reordered : CanonicalValue → CanonicalValue → Prop
  | refl (v : CanonicalValue) : Reordered v v
  | trans {u v w : CanonicalValue} : Reordered u v → Reordered v w → Reordered u w
  | entries {es es' : List (CanonicalValue × CanonicalValue)} : es.Perm es' →
    (es.map fun e => e.1.encode).Nodup → Reordered (.map es) (.map es')
  | item {vs ws : List CanonicalValue} {v w : CanonicalValue} : Reordered v w →
    Reordered (.array (vs ++ v :: ws)) (.array (vs ++ w :: ws))
  | entry {es es' : List (CanonicalValue × CanonicalValue)} {k k' v v' : CanonicalValue} :
    Reordered k k' → Reordered v v' →
      Reordered (.map (es ++ (k, v) :: es')) (.map (es ++ (k', v') :: es'))
  | tag {t : UInt64} {v w : CanonicalValue} : Reordered v w → Reordered (.tag t v) (.tag t w)

theorem CanonicalValue.Reordered.encode_eq {v w : CanonicalValue} (h : Reordered v w) :
    v.encode = w.encode := by
  induction h with
  | refl v => rfl
  | trans _ _ ih₁ ih₂ => exact ih₁.trans ih₂
  | @entries es es' hperm hnodup =>
    -- keys in order that are not the same stand in one order only
    have hsorted : sorted es = sorted es' := by
      refine List.Perm.eq_of_pairwise (fun a b ha hb hab hba => ?_) (pairwise_sorted es)
        (pairwise_sorted es') ((sorted_perm es).trans (hperm.trans (sorted_perm es').symm))
      exact inj_on_of_nodup_map hnodup ((sorted_perm es).mem_iff.1 ha)
        (hperm.mem_iff.2 ((sorted_perm es').mem_iff.1 hb)) (List.le_antisymm hab hba)
    rw [encode_map, encode_map, hsorted, hperm.length_eq]
  | item _ ih => simp [encode, encodeItems_eq, ih]
  | entry _ _ ihKey ihValue => simp [encode, encodeEntries_eq, ihKey, ihValue]
  | tag _ ih => rw [encode, encode, ih]

theorem canonicalizeCbor_raw {m : Machine} {w : CanonicalValue} (hstack : w.nesting ≤ m.stack)
    (hlen : w.raw.length < 2 ^ 64) (halloc : w.raw.length * (2 * m.valueSize) ≤ m.alloc) :
    canonicalizeCbor m w.raw = .returns w.encode := by
  have hparse := w.parse_raw hstack hlen halloc []
  rw [append_nil] at hparse
  rw [canonicalizeCbor, hparse]
  exact if_pos hstack

/-- **The canonical encoder is sound.**  It does not panic, `from_cbor` takes its output for
canonical, the value that is read there is encoded as the same bytes again, and accepted bytes that
are the same item are the same. -/
theorem canonical_encoder_sound (m : Machine) (w : CanonicalValue) (hm : m.HasRoom w) :
    (∃ bytes, canonicalizeCbor m w.raw = .returns bytes ∧
      (∀ {α : Type} (decode : Decoder α), fromCbor m decode bytes = decodeWhole decode bytes) ∧
      ∃ v, parseCanonicalValue m m.stack bytes = .returns (.ok (v, [])) ∧
        canonicalizeCbor m v.raw = .returns bytes) ∧
    ∀ {α β : Type} (m₁ m₂ : Machine) (decode₁ : Decoder α) (decode₂ : Decoder β)
      (bytes₁ bytes₂ : List UInt8) (a₁ : α) (a₂ : β) (v₁ v₂ : CanonicalValue),
      fromCbor m₁ decode₁ bytes₁ = .returns (.ok a₁) →
      fromCbor m₂ decode₂ bytes₂ = .returns (.ok a₂) →
      parseCanonicalValue m₁ m₁.stack bytes₁ = .returns (.ok (v₁, [])) →
      parseCanonicalValue m₂ m₂.stack bytes₂ = .returns (.ok (v₂, [])) →
      v₁.Reordered v₂ → bytes₁ = bytes₂ := by
  constructor
  · obtain ⟨hrawLen, hrawAlloc⟩ := hm.bytes w.raw (by simp)
    obtain ⟨hlen, halloc⟩ := hm.bytes w.encode (by simp)
    obtain ⟨v, hraw, hnesting, hsame⟩ := w.exists_raw_eq
    have hstack := hnesting.trans hm.stack
    have hagain := canonicalizeCbor_raw hstack (hraw ▸ hlen) (hraw ▸ halloc)
    have hparse := v.parse_raw hstack (hraw ▸ hlen) (hraw ▸ halloc) []
    rw [append_nil, hraw] at hparse
    refine ⟨w.encode, canonicalizeCbor_raw hm.stack hrawLen hrawAlloc, fun decode => ?_, v, hparse,
      hsame.1 ▸ hagain⟩
    rw [fromCbor, decodeWhole_of_ok hparse, Outcome.returns_bind]
    simp [encodeCanonicalValue, hstack, hsame.1]
  · intro α β m₁ m₂ decode₁ decode₂ bytes₁ bytes₂ a₁ a₂ v₁ v₂ h₁ h₂ hv₁ hv₂ hsame
    obtain ⟨u₁, hu₁, rfl⟩ := exists_encode_of_accepted h₁
    obtain ⟨u₂, hu₂, rfl⟩ := exists_encode_of_accepted h₂
    rw [hv₁] at hu₁
    rw [hv₂] at hu₂
    cases hu₁
    cases hu₂
    exact hsame.encode_eq

def unsortedMap : CanonicalValue := .map [(.unsigned 2, .null), (.unsigned 1, .text "a")]

theorem unsorted_map_encoded :
    ∃ bytes, canonicalizeCbor ⟨2, 1000, 10, 0, 0, by decide⟩ unsortedMap.raw = .returns bytes :=
  (canonical_encoder_sound ⟨2, 1000, 10, 0, 0, by decide⟩ unsortedMap
    ⟨by decide, by decide⟩).1.imp fun _ h => h.1

def acceptedJoin : JoinRequest :=
  ⟨⟨.replicate 32 0⟩, ⟨"n"⟩, .replicate 32 7, "d", "", [], List.replicate 64 0⟩

def sampleJoinValues : List CanonicalValue :=
  [.array [.bytes (List.replicate 32 0)], .array [.text "n"], .bytes (List.replicate 32 7), .text "d",
    .text "", .bytes [], .array [.bytes (List.replicate 64 0)]]

def sampleJoinWith (extra : CanonicalValue) : CanonicalValue := .array (sampleJoinValues ++ [extra])

def repeatedKey : CanonicalValue := .map [(.unsigned 0, .unsigned 0), (.unsigned 0, .unsigned 0)]

def wideOne : CanonicalValue := .f64 0x3ff0000000000000

def receiveJoin (v : CanonicalValue) : Outcome (Except CborError JoinRequest) :=
  fromCbor (sampleLimits.machine v.encode)
    (JoinRequest.decode (m := sampleLimits.machine v.encode)).run v.encode

theorem not_deterministic_sampleJoinWith {extra : CanonicalValue} (h : ¬ extra.Strict)
    (hlen : (sampleJoinWith extra).encode.length < 2 ^ 64) :
    ¬ Deterministic (sampleJoinWith extra).encode := by
  intro hdet
  obtain ⟨v, hv, heq⟩ := exists_strict hdet
  have hstrict := (strict_iff_of_encode_eq heq (heq ▸ hlen)).1 hv
  exact h (strict_array_iff.1 hstrict _ (mem_append_right _ mem_cons_self))

/-- **A key twice, and a number in a long form, are accepted** in an element that is skipped. -/
theorem repeated_key_accepted :
    (receiveJoin (sampleJoinWith repeatedKey) = .returns (.ok acceptedJoin) ∧
      ¬ Deterministic (sampleJoinWith repeatedKey).encode) ∧
    receiveJoin (sampleJoinWith wideOne) = .returns (.ok acceptedJoin) ∧
      ¬ Deterministic (sampleJoinWith wideOne).encode := by
  have hkey : ¬ repeatedKey.Strict := fun h =>
    absurd (strict_map_iff.1 h).2 (by decide +kernel)
  have hone : ¬ wideOne.Strict := by
    rintro (⟨-, -, h⟩)
    exact h _ rfl 0x3f800000 (by decide) (by decide +kernel)
  exact ⟨⟨by decide +kernel, not_deterministic_sampleJoinWith hkey (by decide +kernel)⟩,
    by decide +kernel, not_deterministic_sampleJoinWith hone (by decide +kernel)⟩

/-- The sample join request is accepted, and deterministic. -/
theorem sample_join_deterministic :
    receiveJoin (.array sampleJoinValues) = .returns (.ok acceptedJoin) ∧
      Deterministic (array sampleJoinValues).encode := by
  have haccepted : receiveJoin (.array sampleJoinValues) = .returns (.ok acceptedJoin) := by
    decide +kernel
  have hstrict : CanonicalValue.Strict (.array sampleJoinValues) := by
    simp [strict_array_iff, sampleJoinValues, strict_bytes, strict_text]
  exact ⟨haccepted, ((accepted_deterministic_iff _ _ _ _ haccepted (by decide +kernel)).2 _ rfl).2
    hstrict⟩

end PactMesh
