import PactMesh.Trust.PoolApply
import PactMesh.Trust.Wire

/-!
# Decoding and checking what others send

Certificates, network states, metadata, invitations and join requests arrive as bytes from anyone and
are decoded and checked.  The release build aborts on a panic, so `catch_unwind` does not help there.

Decoding is run here on the machine that an input of its size is entitled to: a stack of constant
depth, and room in proportion to the input.

Main result: `decoding_total`.
-/

namespace PactMesh

open Cbor Decoder Outcome Reading

structure ReceiveSuite extends StateSuite, WireSuite

inductive TrustObject
  | memberCert
  | networkState
  | trustDomainMeta
  | networkBootstrap
  | joinRequest
deriving DecidableEq

inductive DecodeVerifyError
  | cbor (e : CborError)
  | cert (e : VerifyError)
  | state (e : NetworkStateVerifyError)
  | inconsistent
  | join (e : JoinVerifyError)
deriving DecidableEq

variable (S : ReceiveSuite) (m : Machine) (rootPk : Bytes32)

def decodeThen {α : Type} (decode : CanonicalDecoder m α)
    (check : α → Outcome (Except DecodeVerifyError Unit)) (bytes : List UInt8) :
    Outcome (Except DecodeVerifyError Unit) := do
  match ← fromCbor m decode.run bytes with
  | .error e => return .error (.cbor e)
  | .ok a => check a

/-- `from_cbor`, and then `verify`, `verify_self_consistency` or `verify_self_signature`.  The root
key is one that the node trusts. -/
def decodeAndVerify : TrustObject → List UInt8 → Outcome (Except DecodeVerifyError Unit)
  | .memberCert => decodeThen m (MemberCert.decode S.toWireSuite) fun cert =>
    return (cert.verify S.toTrustSuite rootPk).mapError .cert
  | .networkState => decodeThen m SignedNetworkState.decode fun state =>
    return (state.verify S.toStateSuite rootPk).mapError .state
  | .trustDomainMeta => decodeThen m (SignedTrustDomainMeta.decode S.toWireSuite) fun tdMeta =>
    return (tdMeta.verify S.toStateSuite rootPk).mapError .state
  | .networkBootstrap => decodeThen m (NetworkBootstrap.decode S.toWireSuite) fun bootstrap =>
    return if bootstrap.verifySelfConsistency S.toStateSuite then .ok () else .error .inconsistent
  | .joinRequest => decodeThen m JoinRequest.decode fun jr => do
    return (← jr.verifySelfSignature S.toJoinSuite).mapError .join

/-- `decode_verified_join` in a build that aborts on a panic. -/
def decodeVerifiedJoinAborting (innerCbor : List UInt8) : Outcome (Option JoinRequest) := do
  match ← fromCbor m (JoinRequest.decode (m := m)).run innerCbor with
  | .error _ => return none
  | .ok jr =>
    match ← jr.verifySelfSignature S.toJoinSuite with
    | .ok () => return some jr
    | .error _ => return none

structure DecodeLimits where
  depth : ℕ
  factor : ℕ
  valueSize : ℕ
  ipNetSize : ℕ
  urlSize : ℕ
  ipNetSize_pos : 0 < ipNetSize
  ipNetSize_le : ipNetSize ≤ factor
  urlSize_le : urlSize ≤ factor

def DecodeLimits.machine (l : DecodeLimits) (bytes : List UInt8) : Machine where
  stack := l.depth
  alloc := min (l.factor * bytes.length) (2 ^ 63 - 1)
  valueSize := l.valueSize
  ipNetSize := l.ipNetSize
  urlSize := l.urlSize
  alloc_lt := by omega

section Decode

variable {m} {α : Type}

variable {bytes : List UInt8}

theorem returns_decodeWhole_iff {p : Decoder α} :
    (decodeWhole p bytes).Returns ↔ (p bytes).Returns := by
  refine returns_bind_iff_left fun r => ?_
  match r with
  | .error e => exact returns_returns _
  | .ok (value, rest) => exact returns_returns _

theorem decodeWhole_eq_ok {p : Decoder α} {a : α} (h : decodeWhole p bytes = .returns (.ok a)) :
    p bytes = .returns (.ok (a, [])) := by
  obtain ⟨r, hr, h⟩ := bind_eq_returns_iff.1 h
  match r with
  | .error e => cases h
  | .ok (value, rest) =>
    rw [hr]
    dsimp only at h
    split_ifs at h with hrest
    · cases h
    · cases h
      rw [not_not.1 hrest]

/-- **Decoding returns exactly if nesting and announced lengths fit the machine**, which must have
room for an element per byte. -/
theorem returns_fromCbor_iff (decode : CanonicalDecoder m α) (hroom : m.RoomFor bytes.length) :
    (fromCbor m decode.run bytes).Returns ↔ (start bytes).Within m := by
  rw [within_start_iff, ← returns_decodeWhole_iff, fromCbor, returns_bind_iff]
  refine and_iff_left fun r hr => ?_
  match r with
  | .error e => exact returns_returns _
  | .ok parsed =>
    have hparse := decodeWhole_eq_ok hr
    have hnest : parsed.nesting ≤ m.stack := (wlp_parseCanonicalValue m m.stack bytes _ _ hparse).1
    have hencode : encodeCanonicalValue m parsed = .returns parsed.encode := if_pos hnest
    simp only [hencode, returns_bind]
    split_ifs with hcanonical
    · exact returns_returns _
    · -- the bytes are the encoding of the value, so the typed decoder is on its ground
      have hbytes : parsed.encode = bytes := not_not.1 hcanonical
      have hencoded : Encoded bytes.length bytes := hbytes ▸ encoded_encode parsed
      rw [returns_decodeWhole_iff, returns_iff_wp]
      exact (decode.keeps _ hroom bytes hencoded).mono fun _ _ _ => trivial

theorem returns_decodeThen_iff (decode : CanonicalDecoder m α)
    {check : α → Outcome (Except DecodeVerifyError Unit)} (hroom : m.RoomFor bytes.length) :
    (decodeThen m decode check bytes).Returns ↔ (start bytes).Within m ∧
      ∀ a, fromCbor m decode.run bytes = .returns (.ok a) → (check a).Returns := by
  rw [← returns_fromCbor_iff decode hroom, decodeThen, returns_bind_iff]
  refine and_congr_right fun _ => ⟨fun h a ha => h _ ha, fun h r hr => ?_⟩
  match r with
  | .error e => exact returns_returns _
  | .ok a => exact h a hr

end Decode

/-! ### Which bytes are received without a panic -/

def HasValidKey (bytes : List UInt8) : Prop :=
  ∀ jr, fromCbor m (JoinRequest.decode (m := m)).run bytes = .returns (.ok jr) →
    jr.applicantSignature.length = 64 → S.toJoinSuite.isVerifyingKey jr.applicantPk = true

def InvalidRequest (bytes : List UInt8) : Prop :=
  ∀ jr, fromCbor m (JoinRequest.decode (m := m)).run bytes = .returns (.ok jr) →
    jr.verifySelfSignature S.toJoinSuite ≠ .returns (.ok ())

theorem returns_verifySelfSignature_iff {J : JoinSuite} {jr : JoinRequest} :
    (jr.verifySelfSignature J).Returns ↔
      (jr.applicantSignature.length = 64 → J.isVerifyingKey jr.applicantPk = true) := by
  unfold JoinRequest.verifySelfSignature
  split_ifs with hlen
  · exact iff_of_true (returns_returns _) fun h => absurd h hlen
  · have hlen : jr.applicantSignature.length = 64 := not_not.1 hlen
    rw [forall_prop_of_true hlen]
    refine (returns_bind_iff_left fun _ => returns_returns _).trans ?_
    exact (returns_bind_iff_left fun _ => returns_returns _).trans returns_ensure_iff

variable {bytes : List UInt8}

theorem DecodeLimits.roomFor_machine (l : DecodeLimits) (h : bytes.length * l.factor < 2 ^ 63) :
    (l.machine bytes).RoomFor bytes.length := by
  have halloc : (l.machine bytes).alloc = bytes.length * l.factor := by
    rw [Nat.mul_comm] at h ⊢
    exact Nat.min_eq_left (Nat.le_pred_of_lt h)
  refine ⟨?_, ?_, ?_⟩
  · have hpos := l.ipNetSize_pos.trans_le l.ipNetSize_le
    have hle := Nat.le_mul_of_pos_right bytes.length hpos
    omega
  · rw [halloc]
    exact Nat.mul_le_mul_left _ l.ipNetSize_le
  · rw [halloc]
    exact Nat.mul_le_mul_left _ l.urlSize_le

theorem returns_decodeAndVerify_iff {m : Machine} (hroom : m.RoomFor bytes.length)
    (object : TrustObject) : (decodeAndVerify S m rootPk object bytes).Returns ↔
      (start bytes).Within m ∧ (object = .joinRequest → HasValidKey S m bytes) := by
  cases object with
  | memberCert | networkState | trustDomainMeta | networkBootstrap =>
    rw [decodeAndVerify, returns_decodeThen_iff _ hroom]
    exact and_congr_right fun _ => iff_of_true (fun _ _ => returns_returns _) nofun
  | joinRequest =>
    rw [decodeAndVerify, returns_decodeThen_iff _ hroom]
    refine and_congr_right fun _ => ?_
    rw [forall_prop_of_true rfl]
    refine forall₂_congr fun jr _ => ?_
    rw [← returns_verifySelfSignature_iff]
    exact returns_bind_iff_left fun _ => returns_returns _

theorem decodeVerifiedJoinAborting_eq_none_iff {m : Machine} (hroom : m.RoomFor bytes.length)
    (hinvalid : InvalidRequest S m bytes) :
    decodeVerifiedJoinAborting S m bytes = .returns none ↔
      (start bytes).Within m ∧ HasValidKey S m bytes := by
  rw [← returns_fromCbor_iff (JoinRequest.decode (m := m)) hroom, decodeVerifiedJoinAborting,
    bind_eq_returns_iff]
  constructor
  · rintro ⟨r, hr, h⟩
    refine ⟨⟨r, hr⟩, fun jr hjr => returns_verifySelfSignature_iff.1 ?_⟩
    rw [hr] at hjr
    cases hjr
    obtain ⟨verified, hverified, -⟩ := bind_eq_returns_iff.1 h
    exact ⟨verified, hverified⟩
  · rintro ⟨⟨r, hr⟩, hkey⟩
    refine ⟨r, hr, ?_⟩
    match r with
    | .error e => rfl
    | .ok jr =>
      obtain ⟨verified, hverified⟩ := returns_verifySelfSignature_iff.2 (hkey jr hr)
      simp only [hverified, returns_bind]
      match verified with
      | .ok () => exact absurd hverified (hinvalid jr hr)
      | .error e => rfl

/-- **Receiving is total for shallow bytes that announce no more than they hold**, and for join
requests whose key is one: decoding and checking returns, on a constant stack and with room in
proportion to the input, exactly then; and then an invalid join request gives none. -/
theorem decoding_total (l : DecodeLimits) (bytes : List UInt8)
    (hlen : bytes.length * l.factor < 2 ^ 63) :
    (∀ object, (decodeAndVerify S (l.machine bytes) rootPk object bytes).Returns ↔
      (start bytes).Within (l.machine bytes) ∧
        (object = .joinRequest → HasValidKey S (l.machine bytes) bytes)) ∧
      (InvalidRequest S (l.machine bytes) bytes →
        (decodeVerifiedJoinAborting S (l.machine bytes) bytes = .returns none ↔
          (start bytes).Within (l.machine bytes) ∧ HasValidKey S (l.machine bytes) bytes)) := by
  have hroom := l.roomFor_machine hlen
  exact ⟨returns_decodeAndVerify_iff S rootPk hroom, decodeVerifiedJoinAborting_eq_none_iff S hroom⟩

/-! ### Bytes that make the decoder panic -/

theorem depth_lt_of_within {m : Machine} {σ : List Frame} {n k : ℕ}
    (h : Within m ⟨.items (n + 1) :: σ, List.replicate k 0x81⟩) : Frame.depth σ + k ≤ m.stack := by
  induction k generalizing σ n with
  | zero => exact (within_items_succ.1 h).1.le
  | succ k ih =>
    have hopen : opening (List.replicate (k + 1) 0x81) = .ok (.array 1, List.replicate k 0x81) := rfl
    have hparts : Frame.depth (.items n :: σ) + k ≤ m.stack :=
      ih ((within_items_succ.1 h).2 _ _ hopen).2
    rw [Frame.depth] at hparts
    omega

theorem exists_not_returns_decodeAndVerify (l : DecodeLimits) (object : TrustObject) :
    ∃ bytes, ¬ (decodeAndVerify S (l.machine bytes) rootPk object bytes).Returns := by
  refine ⟨List.replicate (l.depth + 1) 0x81, fun h => ?_⟩
  have hparse : (parseCanonicalValue (l.machine (List.replicate (l.depth + 1) 0x81)) l.depth
      (List.replicate (l.depth + 1) 0x81)).Returns := by
    rw [← returns_decodeWhole_iff]
    cases object with
    | _ =>
      exact (returns_bind_iff.1 (returns_bind_iff.1 h).1).1
  have hwithin := (within_start_iff (l.machine _) _).2 hparse
  have hle : Frame.depth [] + (l.depth + 1) ≤ l.depth := depth_lt_of_within hwithin
  omega

def plainReceiveSuite (isKey : Bool) : ReceiveSuite where
  sha256 _ := .replicate 32 0
  verify _ _ _ := true
  marshalForSigning _ := []
  certToCbor _ := []
  certFromCbor _ := none
  policyFromCbor _ := none
  marshalStateForSigning _ := []
  marshalMetaForSigning _ := []
  policyToCbor _ := []
  encodeDeviceId _ := ""
  netToString _ := ""
  joinFromCbor _ := none
  marshalJoinForSigning _ := []
  isVerifyingKey _ := isKey
  parseUrl := some

def sampleLimits : DecodeLimits where
  depth := 8
  factor := 128
  valueSize := 32
  ipNetSize := 18
  urlSize := 88
  ipNetSize_pos := by decide
  ipNetSize_le := by decide
  urlSize_le := by decide

def sampleJoinBytes : List UInt8 :=
  [0x87, 0x81, 0x58, 32] ++ List.replicate 32 0 ++ [0x81, 0x61, 110, 0x58, 32] ++
    List.replicate 32 7 ++ [0x61, 100, 0x60, 0x40, 0x81, 0x58, 64] ++ List.replicate 64 0

/-- An array that announces `2 ^ 64 - 1` elements. -/
def hugeArray : List UInt8 := 0x9b :: List.replicate 8 0xff

/-- **Bytes that stop a node.**  Nine bytes ask for more memory than there can be; for every depth
there are bytes that are nested deeper; and a join request with bytes that are no key panics. -/
theorem received_bytes_panic :
    (∀ object, decodeAndVerify (plainReceiveSuite true) (sampleLimits.machine hugeArray) (.replicate 32 0)
      object hugeArray = .panics .capacityOverflow) ∧
    (¬ ∃ l : DecodeLimits, ∀ bytes, (decodeAndVerify (plainReceiveSuite true) (l.machine bytes)
      (.replicate 32 0) .memberCert bytes).Returns) ∧
    decodeVerifiedJoinAborting (plainReceiveSuite false) (sampleLimits.machine sampleJoinBytes)
      sampleJoinBytes = .panics .unwrapNone := by
  refine ⟨?_, ?_, ?_⟩
  · intro object
    cases object <;> rfl
  · rintro ⟨l, h⟩
    obtain ⟨bytes, hbytes⟩ := exists_not_returns_decodeAndVerify _ _ l .memberCert
    exact hbytes (h bytes)
  · decide +kernel

/-- A join request with a key is received, so it is shallow and announces little. -/
theorem sample_join_received :
    (start sampleJoinBytes).Within (sampleLimits.machine sampleJoinBytes) ∧
      HasValidKey (plainReceiveSuite true) (sampleLimits.machine sampleJoinBytes) sampleJoinBytes := by
  have hreturns : (decodeAndVerify (plainReceiveSuite true) (sampleLimits.machine sampleJoinBytes)
      (.replicate 32 0) .joinRequest sampleJoinBytes).Returns := by
    decide +kernel
  have hlen : sampleJoinBytes.length * sampleLimits.factor < 2 ^ 63 := by decide +kernel
  obtain ⟨hwithin, hkey⟩ := ((decoding_total _ _ sampleLimits sampleJoinBytes hlen).1 _).1 hreturns
  exact ⟨hwithin, hkey rfl⟩

end PactMesh
