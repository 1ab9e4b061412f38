import PactMesh.Trust.Wire

/-!
# What is signed

Records are encoded as arrays of their fields, without the nil fields at the end.  The bytes that are
signed carry no tag that says what they are for; what separates them is the number of fields, and the
second field of a network state, which is an array, from that of the metadata, which is a number.

Main result: `signatures_not_confused`.
-/

namespace PactMesh

open Cbor CanonicalValue List

/-- Fields without the nil ones at the end. -/
def dropNil : List (CanonicalValue × Bool) → List CanonicalValue
  | [] => []
  | (v, isNil) :: fields =>
    if isNil ∧ dropNil fields = [] then [] else v :: dropNil fields

theorem length_dropNil_le (fields : List (CanonicalValue × Bool)) :
    (dropNil fields).length ≤ fields.length := by
  induction fields with
  | nil => exact le_rfl
  | cons field fields ih =>
    rw [dropNil]
    split_ifs
    · exact Nat.zero_le _
    · exact Nat.succ_le_succ ih

variable {α : Type}

def orNull (f : α → CanonicalValue) (o : Option α) : CanonicalValue := o.elim .null f

def nilOption (f : α → CanonicalValue) (o : Option α) : CanonicalValue × Bool :=
  (orNull f o, o.isNone)

/-- A list with `has_nil`. -/
def nilList (f : α → CanonicalValue) (l : List α) : CanonicalValue × Bool :=
  (.array (l.map f), l.isEmpty)

def encodeKey (pk : Bytes32) : CanonicalValue := .bytes pk.toList

def TrustDomainId.encode (id : TrustDomainId) : CanonicalValue := .array [.bytes id.bytes.toList]

def MemberCertFingerprint.encode (fp : MemberCertFingerprint) : CanonicalValue :=
  .array [.bytes fp.bytes.toList]

def NetworkLocalId.encode (id : NetworkLocalId) : CanonicalValue := .array [.text id.val]

def HostnameLabel.encode (label : HostnameLabel) : CanonicalValue := .array [.text label.val]

/-- `SignatureBytes32` -/
def encodeSignature (signature : List UInt8) : CanonicalValue := .array [.bytes signature]

def encodeCidr (net : IpNet) : CanonicalValue :=
  match net.ip with
  | .v4 bits => .bytes (4 :: (Endian.beBytes 4 bits.toNat ++ [net.prefixLen]))
  | .v6 bits => .bytes (6 :: (Endian.beBytes 16 bits.toNat ++ [net.prefixLen]))

def Capabilities.encode (c : Capabilities) : CanonicalValue :=
  .array [.bool c.canRelayData, .bool c.canRelayControl, .array (c.canProxySubnet.map encodeCidr),
    .bool c.canBeExitNode]

def UnsignedMemberCert.encode (d : UnsignedMemberCert) : CanonicalValue :=
  .array (d.trustDomainId.encode :: d.networkLocalId.encode :: encodeKey d.devicePk ::
    .text d.deviceLabel :: .unsigned d.notBefore :: .unsigned d.expiresAt :: d.capabilities.encode ::
    .unsigned d.networkStateVersionRef :: dropNil [nilOption HostnameLabel.encode d.hostname])

def MemberCert.encode (cert : MemberCert) : CanonicalValue :=
  .array [cert.details.encode, encodeSignature cert.signature]

def RevocationReason.encode : RevocationReason → CanonicalValue
  | .unspecified => .unsigned 0
  | .keyCompromise => .unsigned 1
  | .deviceLost => .unsigned 2
  | .removed => .unsigned 3
  | .superseded => .unsigned 4

def RevokedCert.encode (r : RevokedCert) : CanonicalValue :=
  .array (r.certFingerprint.encode :: .unsigned r.revokedAt :: r.reasonCode.encode ::
    dropNil [nilOption .text r.reasonNote])

def DisabledCert.encode (d : DisabledCert) : CanonicalValue :=
  .array (d.certFingerprint.encode :: .unsigned d.disabledAt ::
    dropNil [nilOption .unsigned d.expectedUntil, nilOption .text d.reasonNote])

def MemberCertIndexEntry.encode (e : MemberCertIndexEntry) : CanonicalValue :=
  .array [e.fingerprint.encode, .text e.deviceLabel, .unsigned e.issuedAt, .unsigned e.expiresAt]

def PeerHint.encode (h : PeerHint) : CanonicalValue :=
  .array (.text h.url :: orNull .text h.label :: .array (h.capabilities.map .text) ::
    .unsigned h.updatedAt :: dropNil [nilOption .unsigned h.expiresAt])

def AssignedIpv4.encode (a : AssignedIpv4) : CanonicalValue :=
  .array [.unsigned a.addr.toUInt64, .unsigned a.prefixLen.toUInt64]

def IpAssignment.encode (a : IpAssignment) : CanonicalValue := .array [.text a.deviceId, a.ipv4.encode]

def CapabilityGrant.encode (g : CapabilityGrant) : CanonicalValue :=
  .array [g.certFingerprint.encode, g.capabilities.encode, .unsigned g.grantedAt]

def HostnameBinding.encode (b : HostnameBinding) : CanonicalValue :=
  .array [b.certFingerprint.encode, orNull HostnameLabel.encode b.hostname, .unsigned b.boundAt]

def LabelBinding.encode (b : LabelBinding) : CanonicalValue :=
  .array [b.certFingerprint.encode, .text b.label, .unsigned b.boundAt]

def NetworkStatePayload.encode (p : NetworkStatePayload) : CanonicalValue :=
  .array (.array (p.memberCertIndex.map MemberCertIndexEntry.encode) ::
    .array (p.revokedCerts.map RevokedCert.encode) ::
    .array (p.disabledCerts.map DisabledCert.encode) :: .bytes p.acl :: .bytes p.routes ::
    dropNil [nilList PeerHint.encode p.peerHints, nilList IpAssignment.encode p.ipAssignments,
      nilList CapabilityGrant.encode p.capabilityGrants,
      nilList HostnameBinding.encode p.hostnameBindings, nilList LabelBinding.encode p.labelBindings])

def UnsignedNetworkState.encode (d : UnsignedNetworkState) : CanonicalValue :=
  .array [d.trustDomainId.encode, d.networkLocalId.encode, .unsigned d.version, d.payload.encode]

def SignedNetworkState.encode (state : SignedNetworkState) : CanonicalValue :=
  .array [state.details.encode, encodeSignature state.signature]

def RelayCapabilities.encode (c : RelayCapabilities) : CanonicalValue :=
  .array [.bool c.canRelayData, .bool c.canAssistHolepunch]

def ActiveRelay.encode (r : ActiveRelay) : CanonicalValue :=
  .array [encodeKey r.devicePk, .text r.deviceLabel, r.capabilities.encode, .unsigned r.expiresAt]

def OutboundGrant.encode (g : OutboundGrant) : CanonicalValue :=
  .array [encodeKey g.foreignRootPk, g.foreignTrustDomainId.encode, g.capabilities.encode,
    .unsigned g.expiresAt]

def UnsignedTrustDomainMeta.encode (d : UnsignedTrustDomainMeta) : CanonicalValue :=
  .array (d.trustDomainId.encode :: .unsigned d.version ::
    .array (d.activeRelays.map ActiveRelay.encode) ::
    dropNil [nilList OutboundGrant.encode d.outboundGrants])

def SignedTrustDomainMeta.encode (tdMeta : SignedTrustDomainMeta) : CanonicalValue :=
  .array [tdMeta.details.encode, encodeSignature tdMeta.signature]

/-- `UnsignedJoinRequest` -/
def JoinRequest.encodeUnsigned (jr : JoinRequest) : CanonicalValue :=
  .array [jr.trustDomainId.encode, jr.networkLocalId.encode, encodeKey jr.applicantPk,
    .text jr.deviceLabel, .text jr.hint, .bytes jr.nonce]

structure HandshakeSignaturePayload where
  magic : UInt32
  myPeerId : UInt32
  version : UInt32
  features : List String
  applicantNonce : List UInt8

def HandshakeSignaturePayload.encode (p : HandshakeSignaturePayload) : CanonicalValue :=
  .array [.unsigned p.magic.toUInt64, .unsigned p.myPeerId.toUInt64, .unsigned p.version.toUInt64,
    .array (p.features.map .text), .bytes p.applicantNonce]

inductive Signable
  | memberCert (details : UnsignedMemberCert)
  | networkState (details : UnsignedNetworkState)
  | trustDomainMeta (details : UnsignedTrustDomainMeta)
  | joinRequest (jr : JoinRequest)
  | handshake (payload : HandshakeSignaturePayload)

namespace Signable

inductive Purpose
  | memberCert
  | networkState
  | trustDomainMeta
  | joinRequest
  | handshake
deriving DecidableEq

def purpose : Signable → Purpose
  | memberCert _ => .memberCert
  | networkState _ => .networkState
  | trustDomainMeta _ => .trustDomainMeta
  | joinRequest _ => .joinRequest
  | handshake _ => .handshake

def Purpose.fields : Purpose → ℕ × ℕ
  | memberCert => (8, 9)
  | networkState => (4, 4)
  | trustDomainMeta => (3, 4)
  | joinRequest => (6, 6)
  | handshake => (5, 5)

def encode : Signable → CanonicalValue
  | memberCert details => details.encode
  | networkState details => details.encode
  | trustDomainMeta details => details.encode
  | joinRequest jr => jr.encodeUnsigned
  | handshake payload => payload.encode

def marshalForSigning (x : Signable) : List UInt8 := x.encode.encode

end Signable

theorem encode_array_eq {vs : List CanonicalValue} (h : vs.length < 24) :
    (array vs).encode = .ofNat (128 + vs.length) :: encodeItems vs := by
  rw [encode, encodeHead, if_pos h]
  rfl

theorem length_eq_of_encode_eq {vs ws : List CanonicalValue}
    (h : (array vs).encode = (array ws).encode)
    (hvs : vs.length < 24) (hws : ws.length < 24) :
    vs.length = ws.length ∧ encodeItems vs = encodeItems ws := by
  rw [encode_array_eq hvs, encode_array_eq hws, List.cons.injEq] at h
  have hfirst := congrArg UInt8.toNat h.1
  rw [UInt8.toNat_ofNat', UInt8.toNat_ofNat'] at hfirst
  exact ⟨by omega, h.2⟩

theorem length_encode_trustDomainId (id : TrustDomainId) : id.encode.encode.length = 35 := by
  simp [TrustDomainId.encode, encode, encodeItems, encodeHead]

/-- The second field separates a network state from metadata. -/
theorem state_ne_meta (state : UnsignedNetworkState) (tdMeta : UnsignedTrustDomainMeta) :
    state.encode.encode ≠ tdMeta.encode.encode := by
  intro h
  have hle := length_dropNil_le [nilList OutboundGrant.encode tdMeta.outboundGrants]
  rw [length_singleton] at hle
  have hitems := (length_eq_of_encode_eq h (by simp) (by simp only [length_cons]; omega)).2
  simp only [encodeItems] at hitems
  have hsecond := (append_inj hitems (by
    rw [length_encode_trustDomainId, length_encode_trustDomainId])).2
  obtain ⟨info, tail, hinfo, hhead⟩ := exists_encodeHead_eq 0 tdMeta.version.toNat
  have hversion : (unsigned tdMeta.version).encode = _ := hhead
  rw [NetworkLocalId.encode, encode_array_eq (by simp), hversion, cons_append,
    cons_append, List.cons.injEq] at hsecond
  have hfirst := congrArg UInt8.toNat hsecond.1
  rw [UInt8.toNat_ofNat', UInt8.toNat_ofNat', length_singleton] at hfirst
  omega

theorem exists_encode_eq (x : Signable) : ∃ vs, x.encode = .array vs ∧
    x.purpose.fields.1 ≤ vs.length ∧ vs.length ≤ x.purpose.fields.2 := by
  cases x with
  | memberCert d =>
    have hle := length_dropNil_le [nilOption HostnameLabel.encode d.hostname]
    exact ⟨_, rfl, by simp [Signable.purpose, Signable.Purpose.fields], Nat.add_le_add_right hle 8⟩
  | trustDomainMeta d =>
    have hle := length_dropNil_le [nilList OutboundGrant.encode d.outboundGrants]
    exact ⟨_, rfl, by simp [Signable.purpose, Signable.Purpose.fields], Nat.add_le_add_right hle 3⟩
  | networkState | joinRequest | handshake => exact ⟨_, rfl, le_rfl, le_rfl⟩

/-- Only a state and metadata can have the same number of fields. -/
theorem Signable.Purpose.of_same_fields {p q : Purpose} {n : ℕ} (h : p ≠ q)
    (hp : p.fields.1 ≤ n ∧ n ≤ p.fields.2) (hq : q.fields.1 ≤ n ∧ n ≤ q.fields.2) :
    p = .networkState ∧ q = .trustDomainMeta ∨ p = .trustDomainMeta ∧ q = .networkState := by
  cases p <;> cases q <;> simp [fields] at h hp hq ⊢ <;> omega

theorem marshalForSigning_ne {x y : Signable} (h : x.purpose ≠ y.purpose) :
    x.marshalForSigning ≠ y.marshalForSigning := by
  intro heq
  have hmost : ∀ p : Signable.Purpose, p.fields.2 < 24 := fun p => by cases p <;> decide
  obtain ⟨vs, hvs, hleast, hle⟩ := exists_encode_eq x
  obtain ⟨ws, hws, hleast', hle'⟩ := exists_encode_eq y
  have hsame : (array vs).encode = (array ws).encode := by
    rw [← hvs, ← hws]
    exact heq
  have hlen := (length_eq_of_encode_eq hsame (hle.trans_lt (hmost _)) (hle'.trans_lt (hmost _))).1
  rw [← hlen] at hleast' hle'
  rcases Signable.Purpose.of_same_fields h ⟨hleast, hle⟩ ⟨hleast', hle'⟩ with ⟨hx, hy⟩ | ⟨hx, hy⟩
  · cases x <;> cases hx
    cases y <;> cases hy
    exact state_ne_meta _ _ heq
  · cases x <;> cases hx
    cases y <;> cases hy
    exact state_ne_meta _ _ heq.symm

/-- **A signature made for one purpose does not verify for another**: the bytes that are signed
differ. -/
theorem signatures_not_confused (x y : Signable) (h : x.purpose ≠ y.purpose) :
    x.marshalForSigning ≠ y.marshalForSigning ∧
      ∀ (T : TrustSuite) (pk : Bytes32) (sign : List UInt8 → List UInt8),
        (∀ msg msg', T.verify pk msg (sign msg') = true → msg = msg') →
          T.verify pk y.marshalForSigning (sign x.marshalForSigning) = false := by
  have hne := marshalForSigning_ne h
  refine ⟨hne, fun T pk sign hbinding => Bool.eq_false_iff.2 fun hverify => ?_⟩
  exact hne (hbinding _ _ hverify).symm

def emptyState : UnsignedNetworkState :=
  ⟨⟨.replicate 32 0⟩, ⟨"n"⟩, 1, ⟨[], [], [], [], [], [], [], [], [], []⟩⟩

def grantingMeta : UnsignedTrustDomainMeta :=
  ⟨⟨.replicate 32 0⟩, 1, [], [⟨.replicate 32 0, ⟨.replicate 32 0⟩, ⟨true, true⟩, 1⟩]⟩

def echoSuite : TrustSuite := { sampleSuite with verify := fun _ msg signature => msg == signature }

/-- The signature of a state is not taken for one of metadata with as many fields. -/
theorem state_not_taken_for_meta :
    (Signable.networkState emptyState).marshalForSigning ≠
        (Signable.trustDomainMeta grantingMeta).marshalForSigning ∧
      echoSuite.verify (.replicate 32 0) (Signable.trustDomainMeta grantingMeta).marshalForSigning
        (Signable.networkState emptyState).marshalForSigning = false := by
  obtain ⟨hne, hverify⟩ := signatures_not_confused (.networkState emptyState)
    (.trustDomainMeta grantingMeta) (by decide)
  exact ⟨hne, hverify echoSuite (.replicate 32 0) id fun _ _ h => by simpa [echoSuite] using h⟩

end PactMesh
