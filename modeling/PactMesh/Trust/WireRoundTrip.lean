import PactMesh.Lib.Base64
import PactMesh.Trust.Armor
import PactMesh.Trust.Signing
import PactMesh.Trust.Strict

/-!
# Signed objects on the wire

Certificates, network states and metadata are encoded, perhaps armored, and decoded again.

Main result: `signed_objects_survive`.
-/

namespace PactMesh

open Cbor Decoder CanonicalDecoder CanonicalValue List Outcome

theorem Machine.RoomFor.mono {m : Machine} {L L' : ℕ} (h : m.RoomFor L) (hle : L' ≤ L) :
    m.RoomFor L' :=
  ⟨hle.trans_lt h.length_lt, (Nat.mul_le_mul_right _ hle).trans h.ipNet,
    (Nat.mul_le_mul_right _ hle).trans h.url⟩

section Reads

variable {m : Machine} {α β : Type} {k : ℕ}

/-- Values of at most `k` levels in a row are read as `a`, if the machine has room. -/
structure Reads (k : ℕ) (p : CanonicalDecoder m α) (vs : List CanonicalValue) (a : α) : Prop where
  nesting : ∀ v ∈ vs, v.nesting ≤ k
  run : m.RoomFor (encodeItems vs).length → ∀ rest,
    p.run (encodeItems vs ++ rest) = .returns (.ok (a, rest))

namespace Reads

variable {p : CanonicalDecoder m α} {a : α} {b : β} {v : CanonicalValue} {vs : List CanonicalValue}

protected theorem pure (a : α) : Reads (m := m) k (pure a) [] a := ⟨by simp, fun _ _ => rfl⟩

theorem bind {f : α → CanonicalDecoder m β} {ws : List CanonicalValue} (hp : Reads k p vs a)
    (hf : Reads k (f a) ws b) : Reads k (p >>= f) (vs ++ ws) b := by
  refine ⟨forall_mem_append.2 ⟨hp.nesting, hf.nesting⟩, fun hroom rest => ?_⟩
  rw [encodeItems_append, length_append] at hroom
  rw [encodeItems_append, append_assoc]
  exact (bind_of_ok (hp.run (hroom.mono (by omega)) _)).trans (hf.run (hroom.mono (by omega)) rest)

theorem andThen {f : α → CanonicalDecoder m β} (hp : Reads k p [v] a) (hf : f a = pure b) :
    Reads k (p >>= f) [v] b := hp.bind (hf ▸ Reads.pure b)

theorem ofReader {f : List UInt8 → Except Cbor.Error (α × List UInt8)} (hf : ReadsHead f)
    (hnesting : v.nesting ≤ k)
    (hread : v.encode.length < 2 ^ 64 → ∀ rest, f (v.encode ++ rest) = .ok (a, rest)) :
    Reads (m := m) k (.ofReader f hf) [v] a := by
  refine ⟨by simpa using hnesting, fun hroom rest => ?_⟩
  simp only [encodeItems, append_nil] at hroom ⊢
  exact congrArg returns (hread hroom.length_lt rest)

theorem u64 (n : UInt64) : Reads (m := m) (k + 1) u64 [.unsigned n] n :=
  ofReader _ (Nat.le_add_left 1 k) fun _ => number_encodeHead (by decide) n

theorem bool (b : Bool) : Reads (m := m) (k + 1) bool [.bool b] b :=
  ofReader _ (Nat.le_add_left 1 k) fun _ _ => by cases b <;> rfl

theorem bytes (bs : List UInt8) : Reads (m := m) (k + 1) bytes [.bytes bs] bs := by
  refine ofReader _ (Nat.le_add_left 1 k) fun hlen rest => ?_
  rw [encode, length_append] at hlen
  rw [encode, append_assoc]
  exact bytes_encode (by omega) rest

theorem str (s : String) : Reads (m := m) (k + 1) str [.text s] s := by
  refine ofReader _ (Nat.le_add_left 1 k) fun hlen rest => ?_
  rw [encode, length_append] at hlen
  rw [encode, append_assoc]
  exact str_encode (by omega) rest

theorem byteArray32 (text : String) (bs : Bytes32) :
    Reads (m := m) (k + 1) (byteArray32 text) [.bytes bs.toList] bs := by
  refine (bytes bs.toList).andThen ?_
  rw [dif_pos (by simp)]
  rfl

theorem verifyingKey {W : WireSuite} {pk : Bytes32} (text : String)
    (h : W.isVerifyingKey pk = true) :
    Reads (m := m) (k + 1) (verifyingKey W text) [encodeKey pk] pk :=
  (byteArray32 text pk).andThen (if_pos h)

theorem boundedNumber {bound n : UInt64} (h : n < bound) :
    Reads (m := m) (k + 1) (boundedNumber bound) [.unsigned n] n := (u64 n).andThen (if_pos h)

theorem run_array (hroom : m.RoomFor (encodeItems [.array vs]).length) (rest : List UInt8) :
    (array (m := m)).run (encodeItems [.array vs] ++ rest) =
      .returns (.ok (some vs.length, encodeItems vs ++ rest)) := by
  have hlen := length_le_encodeItems vs
  have hlt := hroom.length_lt
  simp only [encodeItems, encode, append_nil, length_append] at hlt
  simp only [encodeItems, encode, append_nil, append_assoc]
  obtain ⟨info, tail, hinfo, hhead⟩ := exists_encodeHead_eq 4 vs.length
  have hread := head_encodeHead (by decide : 4 < 8) (by omega : vs.length < 2 ^ 64)
    (encodeItems vs ++ rest)
  refine congrArg returns ?_
  rw [hhead, cons_append] at hread ⊢
  rw [Cbor.array, container, hread, if_neg]
  · rfl
  · rw [UInt8.toNat_ofNat']
    omega

theorem room_items (h : m.RoomFor (encodeItems [.array vs]).length) :
    m.RoomFor (encodeItems vs).length := by
  refine h.mono ?_
  simp only [encodeItems, encode, append_nil, length_append]
  omega

theorem nesting_array (h : ∀ v ∈ vs, v.nesting ≤ k) :
    ∀ v ∈ [CanonicalValue.array vs], v.nesting ≤ k + 1 := by
  simpa [CanonicalValue.nesting] using nestingItems_le_iff.2 h

theorem record {fields : Option ℕ → CanonicalDecoder m (α × Option ℕ)}
    (h : Reads k (fields (some vs.length)) vs (a, some 0)) :
    Reads (k + 1) (record fields) [.array vs] a := by
  refine ⟨nesting_array h.nesting, fun hroom rest => ?_⟩
  exact (bind_of_ok (run_array hroom rest)).trans (bind_of_ok (h.run (room_items hroom) rest))

theorem newtype (h : Reads k p [v] a) : Reads (k + 1) (newtype p) [.array [v]] a := by
  have hfield : Reads k (PactMesh.field none p (some [v].length)) [v] (a, some 0) :=
    h.andThen (f := fun a => pure (a, some 0)) rfl
  exact record hfield

variable {f : α → CanonicalValue} {as : List α} {fields : List (CanonicalValue × Bool)}

theorem run_times (h : ∀ a ∈ as, Reads k p [f a] a)
    (hroom : m.RoomFor (encodeItems (as.map f)).length) (rest : List UInt8) :
    p.run.times (as.map f).length (encodeItems (as.map f) ++ rest) = .returns (.ok (as, rest)) := by
  rw [encodeItems_eq, flatMap_map] at hroom ⊢
  rw [length_map]
  refine times_eq (fun a ha rest => ?_) rest
  have hrun := (h a ha).run
  simp only [encodeItems, append_nil] at hrun
  exact hrun (hroom.mono (length_le_flatMap (f := fun a => (f a).encode) ha)) rest

theorem vec (h : ∀ a ∈ as, Reads k p [f a] a) : Reads (k + 1) (vec p) [.array (as.map f)] as := by
  refine ⟨nesting_array (forall_mem_map.2 fun a ha => (h a ha).nesting _ mem_cons_self),
    fun hroom rest => ?_⟩
  exact (bind_of_ok (run_array hroom rest)).trans (run_times h (room_items hroom) rest)

theorem optional (h : ∀ a, Reads (k + 1) p [f a] a)
    (hmajor : ∀ a, ∃ major n tail, major < 7 ∧ (f a).encode = encodeHead major n ++ tail)
    (o : Option α) : Reads (k + 1) (optional p) [orNull f o] o := by
  cases o with
  | none => exact ⟨by simp [orNull, CanonicalValue.nesting], fun _ _ => rfl⟩
  | some a =>
    obtain ⟨major, n, tail, hlt, hencode⟩ := hmajor a
    refine ⟨(h a).nesting, fun hroom rest => ?_⟩
    have hkind : (kind (m := m)).run (encodeItems [f a] ++ rest) =
        .returns (.ok (kindOfMajor major, encodeItems [f a] ++ rest)) := by
      refine congrArg returns ?_
      rw [encodeItems, hencode, append_assoc, append_assoc]
      dsimp only
      rw [datatype_encodeHead hlt]
      rfl
    have hnull : kindOfMajor major ≠ .null := by
      unfold kindOfMajor
      split <;> decide
    refine (bind_of_ok hkind).trans ?_
    dsimp only
    rw [if_neg hnull]
    exact bind_of_ok ((h a).run hroom rest)

theorem field {nil : Option α} {f : α × Option ℕ → CanonicalDecoder m β} (hp : Reads k p [v] a)
    (hf : Reads k (f (a, some vs.length)) vs b) :
    Reads k (field nil p (some (v :: vs).length) >>= f) (v :: vs) b := by
  have hfield : Reads k (PactMesh.field nil p (some (v :: vs).length)) [v] (a, some vs.length) :=
    hp.andThen (f := fun a => pure (a, some vs.length)) rfl
  exact hfield.bind hf

/-- A field that is left out at the end if it is nil. -/
theorem nilable {nil : Option α} {f : α × Option ℕ → CanonicalDecoder m β} {isNil : Bool}
    (hnil : isNil = true → nil = some a) (hp : Reads k p [v] a)
    (hf : Reads k (f (a, some (dropNil fields).length)) (dropNil fields) b) :
    Reads k (PactMesh.field nil p (some (dropNil ((v, isNil) :: fields)).length) >>= f)
      (dropNil ((v, isNil) :: fields)) b := by
  rw [dropNil]
  split_ifs with h
  · rw [h.2] at hf
    rw [hnil h.1]
    exact hf
  · exact hp.field hf

theorem nilOption {o : Option α} {q : CanonicalDecoder m (Option α)}
    {g : Option α × Option ℕ → CanonicalDecoder m β} (hq : Reads k q [orNull f o] o)
    (hg : Reads k (g (o, some (dropNil fields).length)) (dropNil fields) b) :
    Reads k (PactMesh.field (some none) q
      (some (dropNil (PactMesh.nilOption f o :: fields)).length) >>= g)
      (dropNil (PactMesh.nilOption f o :: fields)) b :=
  nilable (fun h => by rw [Option.isNone_iff_eq_none.1 h]) hq hg

theorem nilList {g : List α × Option ℕ → CanonicalDecoder m β} (has : ∀ a ∈ as, Reads k p [f a] a)
    (hg : Reads (k + 1) (g (as, some (dropNil fields).length)) (dropNil fields) b) :
    Reads (k + 1) (PactMesh.field (some []) (PactMesh.vec p)
      (some (dropNil (PactMesh.nilList f as :: fields)).length) >>= g)
      (dropNil (PactMesh.nilList f as :: fields)) b :=
  nilable (fun h => by rw [isEmpty_iff.1 h]) (vec has) hg

end Reads

theorem TrustDomainId.reads (id : TrustDomainId) :
    Reads (m := m) (k + 2) TrustDomainId.decode [id.encode] id :=
  (Reads.byteArray32 _ _).newtype.andThen rfl

theorem MemberCertFingerprint.reads (fp : MemberCertFingerprint) :
    Reads (m := m) (k + 2) MemberCertFingerprint.decode [fp.encode] fp :=
  (Reads.byteArray32 _ _).newtype.andThen rfl

theorem NetworkLocalId.reads (id : NetworkLocalId) :
    Reads (m := m) (k + 2) NetworkLocalId.decode [id.encode] id := (Reads.str _).newtype.andThen rfl

theorem HostnameLabel.reads (label : HostnameLabel) :
    Reads (m := m) (k + 2) HostnameLabel.decode [label.encode] label :=
  (Reads.str _).newtype.andThen rfl

theorem reads_signature (signature : List UInt8) :
    Reads (m := m) (k + 2) signatureBytes [encodeSignature signature] signature :=
  (Reads.bytes _).newtype

theorem reads_hostname (o : Option HostnameLabel) :
    Reads (m := m) (k + 2) (optional HostnameLabel.decode) [orNull HostnameLabel.encode o] o :=
  Reads.optional HostnameLabel.reads (fun _ => ⟨4, _, _, by decide, rfl⟩) o

theorem reads_text (o : Option String) : Reads (m := m) (k + 1) (optional str) [orNull .text o] o :=
  Reads.optional Reads.str (fun _ => ⟨3, _, _, by decide, rfl⟩) o

theorem reads_number (o : Option UInt64) :
    Reads (m := m) (k + 1) (optional u64) [orNull .unsigned o] o :=
  Reads.optional Reads.u64 (fun n => ⟨0, n.toNat, [], by decide, (append_nil _).symm⟩) o

theorem cidrOf_eq (net : IpNet) : cidrOf (m := m) net.ip net.prefixLen = pure net := by
  rw [cidrOf, IpNet.new, dif_pos net.prefixLen_le]

theorem ofNat_beNat {w : ℕ} (n : ℕ) (bits : BitVec w) (h : bits.toNat < 256 ^ n) :
    BitVec.ofNat w (Endian.beNat (Endian.beBytes n bits.toNat)) = bits := by
  rw [Endian.beNat_beBytes h, BitVec.ofNat_toNat, BitVec.setWidth_eq]

theorem reads_cidr (net : IpNet) : Reads (m := m) (k + 1) cidr [encodeCidr net] net := by
  have hnet := cidrOf_eq (m := m) net
  obtain ⟨ip, prefixLen, hle⟩ := net
  cases ip with
  | v4 bits =>
    refine (Reads.bytes _).andThen (Eq.trans ?_ hnet)
    exact congrArg (fun bits => cidrOf (.v4 bits) prefixLen) (ofNat_beNat 4 bits bits.isLt)
  | v6 bits =>
    refine (Reads.bytes _).andThen (Eq.trans ?_ hnet)
    exact congrArg (fun bits => cidrOf (.v6 bits) prefixLen) (ofNat_beNat 16 bits bits.isLt)

theorem reads_cidrVec (nets : List IpNet) :
    Reads (m := m) (k + 2) cidrVec [.array (nets.map encodeCidr)] nets := by
  refine ⟨Reads.nesting_array (forall_mem_map.2 fun net _ =>
    (reads_cidr (m := m) net).nesting _ mem_cons_self), fun hroom rest => ?_⟩
  have hitems := Reads.room_items hroom
  have hfits : (nets.map encodeCidr).length * m.ipNetSize ≤ m.alloc :=
    (Nat.mul_le_mul_right _ (length_le_encodeItems _)).trans hitems.ipNet
  have hreserved : m.withCapacity (nets.map encodeCidr).length m.ipNetSize = .returns () :=
    Machine.withCapacity_eq_returns_iff.2 hfits
  exact (bind_of_ok (Reads.run_array hroom rest)).trans
    ((bind_of_ok (lift_of_returns hreserved _)).trans
      (Reads.run_times (fun net _ => reads_cidr (k := 0) net) hitems rest))

theorem Capabilities.reads (c : Capabilities) :
    Reads (m := m) (k + 3) Capabilities.decode [c.encode] c :=
  .record <| .field (.bool _) <| .field (.bool _) <| .field (reads_cidrVec _) <| .field (.bool _) <|
    .pure _

variable {W : WireSuite}

theorem UnsignedMemberCert.reads {d : UnsignedMemberCert} (h : W.isVerifyingKey d.devicePk = true) :
    Reads (m := m) (k + 4) (UnsignedMemberCert.decode W) [d.encode] d :=
  .record <| .field d.trustDomainId.reads <| .field d.networkLocalId.reads <|
    .field (.verifyingKey _ h) <| .field (.str _) <| .field (.u64 _) <| .field (.u64 _) <|
    .field d.capabilities.reads <| .field (.u64 _) <| .nilOption (reads_hostname _) <| .pure _

theorem MemberCert.reads {cert : MemberCert} (h : W.isVerifyingKey cert.details.devicePk = true) :
    Reads (m := m) (k + 5) (MemberCert.decode W) [cert.encode] cert :=
  .record <| .field (UnsignedMemberCert.reads h) <| .field (reads_signature _) <| .pure _

theorem RevocationReason.reads (r : RevocationReason) :
    Reads (m := m) (k + 1) RevocationReason.decode [r.encode] r := by
  cases r <;> exact (Reads.boundedNumber (by decide)).andThen rfl

theorem RevokedCert.reads (r : RevokedCert) :
    Reads (m := m) (k + 3) RevokedCert.decode [r.encode] r :=
  .record <| .field r.certFingerprint.reads <| .field (.u64 _) <| .field r.reasonCode.reads <|
    .nilOption (reads_text _) <| .pure _

theorem DisabledCert.reads (d : DisabledCert) :
    Reads (m := m) (k + 3) DisabledCert.decode [d.encode] d :=
  .record <| .field d.certFingerprint.reads <| .field (.u64 _) <| .nilOption (reads_number _) <|
    .nilOption (reads_text _) <| .pure _

theorem MemberCertIndexEntry.reads (e : MemberCertIndexEntry) :
    Reads (m := m) (k + 3) MemberCertIndexEntry.decode [e.encode] e :=
  .record <| .field e.fingerprint.reads <| .field (.str _) <| .field (.u64 _) <| .field (.u64 _) <|
    .pure _

theorem PeerHint.reads (h : PeerHint) : Reads (m := m) (k + 3) PeerHint.decode [h.encode] h :=
  .record <| .field (.str _) <| .field (reads_text _) <| .field (.vec fun s _ => .str s) <|
    .field (.u64 _) <| .nilOption (reads_number _) <| .pure _

theorem IpAssignment.reads (a : IpAssignment) :
    Reads (m := m) (k + 3) IpAssignment.decode [a.encode] a := by
  have haddr : a.ipv4.addr.toUInt64 < 2 ^ 32 :=
    UInt64.lt_iff_toNat_lt.2 a.ipv4.addr.toNat_lt
  have hlen : a.ipv4.prefixLen.toUInt64 < 2 ^ 8 :=
    UInt64.lt_iff_toNat_lt.2 a.ipv4.prefixLen.toNat_lt
  have hpure : ∀ x, x = a.ipv4 → Reads (m := m) (k + 1) (pure (x, some 0)) [] (a.ipv4, some 0) := by
    rintro _ rfl
    exact .pure _
  have hipv4 : Reads (m := m) (k + 2) AssignedIpv4.decode [a.ipv4.encode] a.ipv4 :=
    .record <| .field (.boundedNumber haddr) <| .field (.boundedNumber hlen) <| hpure _ (by simp)
  exact .record <| .field (.str _) <| .field hipv4 <| .pure _

theorem CapabilityGrant.reads (g : CapabilityGrant) :
    Reads (m := m) (k + 4) CapabilityGrant.decode [g.encode] g :=
  .record <| .field g.certFingerprint.reads <| .field g.capabilities.reads <| .field (.u64 _) <|
    .pure _

theorem HostnameBinding.reads (b : HostnameBinding) :
    Reads (m := m) (k + 3) HostnameBinding.decode [b.encode] b :=
  .record <| .field b.certFingerprint.reads <| .field (reads_hostname _) <| .field (.u64 _) <| .pure _

theorem LabelBinding.reads (b : LabelBinding) :
    Reads (m := m) (k + 3) LabelBinding.decode [b.encode] b :=
  .record <| .field b.certFingerprint.reads <| .field (.str _) <| .field (.u64 _) <| .pure _

theorem NetworkStatePayload.reads (p : NetworkStatePayload) :
    Reads (m := m) (k + 6) NetworkStatePayload.decode [p.encode] p :=
  .record <| .field (.vec fun e _ => e.reads) <| .field (.vec fun r _ => r.reads) <|
    .field (.vec fun d _ => d.reads) <| .field (.bytes _) <| .field (.bytes _) <|
    .nilList (fun h _ => h.reads) <| .nilList (fun a _ => a.reads) <|
    .nilList (fun g _ => g.reads) <| .nilList (fun b _ => b.reads) <|
    .nilList (fun b _ => b.reads) <| .pure _

theorem UnsignedNetworkState.reads (d : UnsignedNetworkState) :
    Reads (m := m) (k + 7) UnsignedNetworkState.decode [d.encode] d :=
  .record <| .field d.trustDomainId.reads <| .field d.networkLocalId.reads <| .field (.u64 _) <|
    .field d.payload.reads <| .pure _

theorem SignedNetworkState.reads (state : SignedNetworkState) :
    Reads (m := m) (k + 8) SignedNetworkState.decode [state.encode] state :=
  .record <| .field state.details.reads <| .field (reads_signature _) <| .pure _

theorem RelayCapabilities.reads (c : RelayCapabilities) :
    Reads (m := m) (k + 2) RelayCapabilities.decode [c.encode] c :=
  .record <| .field (.bool _) <| .field (.bool _) <| .pure _

theorem ActiveRelay.reads {r : ActiveRelay} (h : W.isVerifyingKey r.devicePk = true) :
    Reads (m := m) (k + 3) (ActiveRelay.decode W) [r.encode] r :=
  .record <| .field (.verifyingKey _ h) <| .field (.str _) <| .field r.capabilities.reads <|
    .field (.u64 _) <| .pure _

theorem OutboundGrant.reads {g : OutboundGrant} (h : W.isVerifyingKey g.foreignRootPk = true) :
    Reads (m := m) (k + 3) (OutboundGrant.decode W) [g.encode] g :=
  .record <| .field (.verifyingKey _ h) <| .field g.foreignTrustDomainId.reads <|
    .field g.capabilities.reads <| .field (.u64 _) <| .pure _

def UnsignedTrustDomainMeta.HasKeys (W : WireSuite) (d : UnsignedTrustDomainMeta) : Prop :=
  (∀ r ∈ d.activeRelays, W.isVerifyingKey r.devicePk = true) ∧
    ∀ g ∈ d.outboundGrants, W.isVerifyingKey g.foreignRootPk = true

theorem UnsignedTrustDomainMeta.reads {d : UnsignedTrustDomainMeta} (h : d.HasKeys W) :
    Reads (m := m) (k + 5) (UnsignedTrustDomainMeta.decode W) [d.encode] d :=
  .record <| .field d.trustDomainId.reads <| .field (.u64 _) <|
    .field (.vec fun r hr => ActiveRelay.reads (h.1 r hr)) <|
    .nilList (fun g hg => OutboundGrant.reads (h.2 g hg)) <| .pure _

theorem SignedTrustDomainMeta.reads {tdMeta : SignedTrustDomainMeta}
    (h : tdMeta.details.HasKeys W) :
    Reads (m := m) (k + 6) (SignedTrustDomainMeta.decode W) [tdMeta.encode] tdMeta :=
  .record <| .field (UnsignedTrustDomainMeta.reads h) <| .field (reads_signature _) <| .pure _

end Reads

/-- `to_canonical_cbor` of a value that was encoded. -/
def toCanonicalCbor (m : Machine) (value : CanonicalValue) : Outcome (List UInt8) :=
  canonicalizeCbor m value.encode

inductive ParseError
  | armor (e : ArmorError)
  | cbor (e : CborError)
deriving DecidableEq

def toPem (m : Machine) (T : ReceiverSuite) (label : String) (value : CanonicalValue) :
    Outcome String := return wrapArmored T label (← toCanonicalCbor m value)

def fromPem {α : Type} (m : Machine) (base64Decode : List Char → Option (List UInt8))
    (label : String) (decode : CanonicalDecoder m α) (text : String) :
    Outcome (Except ParseError α) := do
  match unwrapArmored base64Decode text label with
  | .error e => return .error (.armor e)
  | .ok payload => return (← fromCbor m decode.run payload).mapError .cbor

/-- The machine has room for an object of `L` bytes. -/
structure Machine.Holds (m : Machine) (L : ℕ) : Prop extends m.RoomFor L where
  stack : 8 ≤ m.stack
  values : L * (2 * m.valueSize) ≤ m.alloc

section RoundTrip

variable {m : Machine} {α : Type} {decode : CanonicalDecoder m α} {v : CanonicalValue} {a : α}

variable (h : Reads 8 decode [v] a)
include h

theorem exists_parsed (hm : m.Holds v.encode.length) :
    ∃ parsed, parseCanonicalValue m m.stack v.encode = .returns (.ok (parsed, [])) ∧
      encodeCanonicalValue m parsed = .returns v.encode := by
  have hnesting := (h.nesting v mem_cons_self).trans hm.stack
  obtain ⟨parsed, hparsed, hsame⟩ := exists_parse_encode v hnesting hm.length_lt hm.values
  refine ⟨parsed, hparsed, ?_⟩
  rw [encodeCanonicalValue, if_pos (wlp_parseCanonicalValue m _ _ _ _ hparsed).1, hsame.1]

theorem toCanonicalCbor_eq (hm : m.Holds v.encode.length) :
    toCanonicalCbor m v = .returns v.encode := by
  obtain ⟨parsed, hparsed, hencoded⟩ := exists_parsed h hm
  rw [toCanonicalCbor, canonicalizeCbor, hparsed]
  exact hencoded

theorem Reads.run_encode (hroom : m.RoomFor v.encode.length) :
    decode.run v.encode = .returns (.ok (a, [])) := by
  have hrun := h.run
  simp only [encodeItems, append_nil] at hrun
  simpa using hrun hroom []

theorem fromCbor_encode (hm : m.Holds v.encode.length) :
    fromCbor m decode.run v.encode = .returns (.ok a) := by
  obtain ⟨parsed, hparsed, hencoded⟩ := exists_parsed h hm
  rw [fromCbor, decodeWhole_of_ok hparsed]
  simp only [returns_bind, hencoded]
  rw [if_neg (not_not.2 rfl)]
  exact decodeWhole_of_ok (h.run_encode hm.toRoomFor)

theorem eq_of_encode_eq {v' : CanonicalValue} {a' : α}
    (h' : Reads 8 decode [v'] a') (hroom : m.RoomFor v.encode.length) (heq : v.encode = v'.encode) :
    a = a' := by
  have hrun := h.run_encode hroom
  rw [heq, h'.run_encode (heq ▸ hroom)] at hrun
  cases hrun
  rfl

omit h

/-- The object comes back from its encoding, and from armored text. -/
def Survives (m : Machine) (T : ReceiverSuite) (base64Decode : List Char → Option (List UInt8))
    (label : String) (decode : CanonicalDecoder m α) (v : CanonicalValue) (a : α) : Prop :=
  (toCanonicalCbor m v >>= fromCbor m decode.run) = .returns (.ok a) ∧
    (toPem m T label v >>= fromPem m base64Decode label decode) = .returns (.ok a)

/-- The machine has room for an encoding, and base64 carries it. -/
structure Carries (m : Machine) (T : ReceiverSuite) (base64Decode : List Char → Option (List UInt8))
    (v : CanonicalValue) : Prop where
  holds : m.Holds v.encode.length
  decodes : base64Decode (T.base64Encode v.encode) = some v.encode
  chars : (T.base64Encode v.encode).any isWhitespace = false

variable {T : ReceiverSuite} {base64Decode : List Char → Option (List UInt8)} {label : String}

theorem survives_of_reads (h : Reads 8 decode [v] a) (hv : Carries m T base64Decode v)
    (hlabel : '\n' ∉ label.toList) : Survives m T base64Decode label decode v a := by
  have hencoded := toCanonicalCbor_eq h hv.holds
  have hdecoded := fromCbor_encode h hv.holds
  refine ⟨by rw [hencoded, returns_bind, hdecoded], ?_⟩
  have hpem : toPem m T label v = .returns (wrapArmored T label v.encode) := by
    rw [toPem, hencoded]
    rfl
  have hchars : ∀ c ∈ T.base64Encode v.encode, isWhitespace c = false := by
    simpa using hv.chars
  rw [hpem, returns_bind, fromPem, unwrapArmored_wrapArmored hv.decodes hchars hlabel]
  simp only [hdecoded, returns_bind]
  rfl

end RoundTrip

/-- **Signed objects survive the wire.**  Certificates, network states and metadata, whose keys are
keys, come back from their encoding and from armored text as they were, on a machine with room for
them where base64 carries them; so they are verified and fingerprinted as before.  And what is signed
determines the content. -/
theorem signed_objects_survive (m : Machine) (W : WireSuite) (T : ReceiverSuite)
    (base64Decode : List Char → Option (List UInt8)) :
    ((∀ cert : MemberCert, W.isVerifyingKey cert.details.devicePk = true →
      Carries m T base64Decode cert.encode → Survives m T base64Decode "PNW-MEMBER-CERT"
        (MemberCert.decode W) cert.encode cert) ∧
    (∀ state : SignedNetworkState, Carries m T base64Decode state.encode →
      Survives m T base64Decode "PNW-NETWORK-STATE" SignedNetworkState.decode state.encode state) ∧
    ∀ tdMeta : SignedTrustDomainMeta, tdMeta.details.HasKeys W →
      Carries m T base64Decode tdMeta.encode → Survives m T base64Decode "PNW-TRUST-DOMAIN-META"
        (SignedTrustDomainMeta.decode W) tdMeta.encode tdMeta) ∧
    (∀ d d' : UnsignedMemberCert, d.encode.encode.length < 2 ^ 64 →
      d.encode.encode = d'.encode.encode → d = d') ∧
    (∀ d d' : UnsignedNetworkState, d.encode.encode.length < 2 ^ 64 →
      d.encode.encode = d'.encode.encode → d = d') ∧
    ∀ d d' : UnsignedTrustDomainMeta, d.encode.encode.length < 2 ^ 64 →
      d.encode.encode = d'.encode.encode → d = d' := by
  refine ⟨⟨fun cert hkey hcert => ?_, fun state hstate => ?_, fun tdMeta hkeys hmeta => ?_⟩, ?_⟩
  · exact survives_of_reads (MemberCert.reads hkey) hcert (by decide)
  · exact survives_of_reads state.reads hstate (by decide)
  · exact survives_of_reads (SignedTrustDomainMeta.reads hkeys) hmeta (by decide)
  -- the content is what a decoder reads that takes all keys, on a machine with room for everything
  let any : WireSuite := { W with isVerifyingKey := fun _ => true }
  let wide : Machine := ⟨0, 0, 0, 0, 0, by decide⟩
  have hroom : ∀ L < 2 ^ 64, wide.RoomFor L := fun L hL => ⟨hL, by simp [wide], by simp [wide]⟩
  refine ⟨fun d d' hlen => ?_, fun d d' hlen => ?_, fun d d' hlen => ?_⟩
  · exact eq_of_encode_eq (UnsignedMemberCert.reads (W := any) rfl)
      (UnsignedMemberCert.reads (W := any) rfl) (hroom _ hlen)
  · exact eq_of_encode_eq d.reads d'.reads (hroom _ hlen)
  · have hkeys : ∀ d : UnsignedTrustDomainMeta, d.HasKeys any := fun _ => ⟨fun _ _ => rfl, fun _ _ => rfl⟩
    exact eq_of_encode_eq (UnsignedTrustDomainMeta.reads (hkeys d))
      (UnsignedTrustDomainMeta.reads (hkeys d')) (hroom _ hlen)

def sampleMachine : Machine := ⟨8, 2 ^ 20, 32, 18, 88, by decide⟩

/-- A certificate in base64. -/
theorem sample_cert_survives :
    Survives sampleMachine { TrustStore.sampleReceiverSuite with base64Encode := Base64.encode }
      Base64.decode "PNW-MEMBER-CERT" (MemberCert.decode (plainReceiveSuite true).toWireSuite)
      (sampleCert (all32 3)).encode (sampleCert (all32 3)) := by
  refine (signed_objects_survive _ _ _ _).1.1 _ rfl ⟨⟨⟨?_, ?_, ?_⟩, ?_, ?_⟩, ?_, ?_⟩
  all_goals decide +kernel

end PactMesh
