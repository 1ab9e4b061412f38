import Mathlib.Data.UInt
import PactMesh.Trust.Encoded
import PactMesh.Trust.Join
import PactMesh.Trust.Pool

/-!
# Decoding the objects of the trust layer

A record is an array with the fields in order.  Fields at the end may be missing if their type has a
nil value, and further elements are skipped.  Keys are checked while they are decoded, with the
exception of the key in a join request.
-/

namespace PactMesh

open Cbor.Decoder (item wp_item_iff)
open CanonicalDecoder

def skipFrom : ℕ → Reading → Except Cbor.Error (Unit × List UInt8)
  | _, ⟨[], rest⟩ => .ok ((), rest)
  | 0, _ => .error .endOfInput
  | fuel + 1, c =>
    match c.next with
    | some c' => skipFrom fuel c'
    | none => .error .endOfInput

theorem Encoded.next {L : ℕ} {c c' : Reading} (h : Encoded L c.rest) (hL : L < 2 ^ 64)
    (hnext : c.next = some c') : Encoded L c'.rest := by
  match c with
  | ⟨[], rest⟩ => cases hnext
  | ⟨.items 0 :: σ, rest⟩ =>
    cases hnext
    exact h
  | ⟨.items (n + 1) :: σ, rest⟩ =>
    rw [Reading.next] at hnext
    split at hnext
    · cases hnext
    · cases hnext
      exact (h.of_opening hL ‹_›).1
  | ⟨.untilBreak k :: σ, []⟩ => cases hnext
  | ⟨.untilBreak k :: σ, b :: rest⟩ =>
    rw [Reading.next, if_neg (h.kindOf_ne_break hL)] at hnext
    cases hnext
    exact h

theorem Encoded.skipFrom {L fuel : ℕ} {c : Reading} {u : Unit} {rest : List UInt8}
    (h : Encoded L c.rest) (hL : L < 2 ^ 64) (hskip : skipFrom fuel c = .ok (u, rest)) :
    Encoded L rest := by
  induction fuel generalizing c with
  | zero =>
    match c with
    | ⟨[], _⟩ =>
      cases hskip
      exact h
  | succ fuel ih =>
    match c with
    | ⟨[], _⟩ =>
      cases hskip
      exact h
    | ⟨f :: σ, bs⟩ =>
      simp only [PactMesh.skipFrom] at hskip
      split at hskip
      · exact ih (h.next hL ‹_›) hskip
      · cases hskip

variable {m : Machine} {α : Type}

def skip : CanonicalDecoder m Unit where
  run := item fun bs => skipFrom (4 * bs.length + 2) (.start bs)
  keeps := fun _ hL _ hbs => wp_item_iff.2 fun _ _ hskip =>
    Encoded.skipFrom (c := .start _) hbs hL.length_lt hskip

def fieldPresent : Option ℕ → CanonicalDecoder m (Bool × Option ℕ)
  | some 0 => pure (false, some 0)
  | some (n + 1) => pure (true, some n)
  | none => do return ((← kind) ≠ .break, none)

/-- A field of a record; `nil` stands for it if it is missing. -/
def field (nil : Option α) (decode : CanonicalDecoder m α) (left : Option ℕ) :
    CanonicalDecoder m (α × Option ℕ) := do
  let (present, left) ← fieldPresent left
  if present then return (← decode, left)
  else
    match nil with
    | some a => return (a, left)
    | none => fail .missingValue

def skipFields : Option ℕ → CanonicalDecoder m Unit
  | some n => do
    let _ ← times skip n
  | none => do
    let _ ← untilBreak skip

def record (fields : Option ℕ → CanonicalDecoder m (α × Option ℕ)) : CanonicalDecoder m α := do
  let len ← array
  let (a, left) ← fields len
  skipFields left
  return a

def optional (decode : CanonicalDecoder m α) : CanonicalDecoder m (Option α) := do
  if (← kind) = .null then
    null
    return none
  else return some (← decode)

def vec (decode : CanonicalDecoder m α) : CanonicalDecoder m (List α) := do
  match ← array with
  | some len => times decode len
  | none => untilBreak decode

def newtype (decode : CanonicalDecoder m α) : CanonicalDecoder m α :=
  record fun left => field none decode left

def byteArray32 (text : String) : CanonicalDecoder m Bytes32 := do
  let bs ← bytes
  if h : bs.length = 32 then return ⟨bs.toArray, h⟩ else fail (.message text)

def boundedNumber (bound : UInt64) : CanonicalDecoder m UInt64 := do
  let n ← u64
  if n < bound then return n else fail .typeMismatch

def cidrOf (ip : IpAddr) (len : UInt8) : CanonicalDecoder m IpNet :=
  match IpNet.new ip len with
  | some net => return net
  | none => fail (.message "invalid prefix")

def cidr : CanonicalDecoder m IpNet := do
  match ← bytes with
  | [4, a, b, c, d, len] => cidrOf (.v4 (.ofNat 32 (Endian.beNat [a, b, c, d]))) len
  | 6 :: rest =>
    if rest.length = 17 then
      cidrOf (.v6 (.ofNat 128 (Endian.beNat (rest.take 16)))) (rest.getD 16 0)
    else fail (.message "invalid CIDR helper bytes")
  | _ => fail (.message "invalid CIDR helper bytes")

/-- `cidr_vec_cbor::decode` -/
def cidrVec : CanonicalDecoder m (List IpNet) := reservedVec m.ipNetSize (fun _ hL => hL.ipNet) cidr

structure WireSuite extends JoinSuite where
  /-- `Url::parse`, and the text of the result -/
  parseUrl : String → Option String

/-- `url_vec_cbor::decode` -/
def urlVec (W : WireSuite) : CanonicalDecoder m (List String) :=
  reservedVec m.urlSize (fun _ hL => hL.url) do
    match W.parseUrl (← str) with
    | some url => return url
    | none => fail (.message "invalid URL")

def verifyingKey (W : WireSuite) (text : String) : CanonicalDecoder m Bytes32 := do
  let pk ← byteArray32 text
  if W.isVerifyingKey pk then return pk else fail (.message "invalid public key")

def TrustDomainId.decode : CanonicalDecoder m TrustDomainId :=
  return ⟨← newtype (byteArray32 "invalid byte slice length")⟩

def MemberCertFingerprint.decode : CanonicalDecoder m MemberCertFingerprint :=
  return ⟨← newtype (byteArray32 "invalid byte slice length")⟩

def NetworkLocalId.decode : CanonicalDecoder m NetworkLocalId := return ⟨← newtype str⟩

def HostnameLabel.decode : CanonicalDecoder m HostnameLabel := return ⟨← newtype str⟩

/-- `SignatureBytes32` -/
def signatureBytes : CanonicalDecoder m (List UInt8) := newtype bytes

def Capabilities.decode : CanonicalDecoder m Capabilities :=
  record fun left => do
    let (canRelayData, left) ← field none bool left
    let (canRelayControl, left) ← field none bool left
    let (canProxySubnet, left) ← field none cidrVec left
    let (canBeExitNode, left) ← field none bool left
    return (⟨canRelayData, canRelayControl, canProxySubnet, canBeExitNode⟩, left)

variable (W : WireSuite)

def UnsignedMemberCert.decode : CanonicalDecoder m UnsignedMemberCert :=
  record fun left => do
    let (trustDomainId, left) ← field none TrustDomainId.decode left
    let (networkLocalId, left) ← field none NetworkLocalId.decode left
    let (devicePk, left) ← field none (verifyingKey W "device_pk must be 32 bytes") left
    let (deviceLabel, left) ← field none str left
    let (notBefore, left) ← field none u64 left
    let (expiresAt, left) ← field none u64 left
    let (capabilities, left) ← field none Capabilities.decode left
    let (networkStateVersionRef, left) ← field none u64 left
    let (hostname, left) ← field (some none) (optional HostnameLabel.decode) left
    return (⟨trustDomainId, networkLocalId, devicePk, deviceLabel, notBefore, expiresAt,
      capabilities, networkStateVersionRef, hostname⟩, left)

def MemberCert.decode : CanonicalDecoder m MemberCert :=
  record fun left => do
    let (details, left) ← field none (UnsignedMemberCert.decode W) left
    let (signature, left) ← field none signatureBytes left
    return (⟨details, signature⟩, left)

/-- `RevocationReason`, by its index -/
def RevocationReason.decode : CanonicalDecoder m RevocationReason := do
  match (← boundedNumber (2 ^ 32)).toNat with
  | 0 => return .unspecified
  | 1 => return .keyCompromise
  | 2 => return .deviceLost
  | 3 => return .removed
  | 4 => return .superseded
  | _ => fail (.message "unknown variant")

def RevokedCert.decode : CanonicalDecoder m RevokedCert :=
  record fun left => do
    let (certFingerprint, left) ← field none MemberCertFingerprint.decode left
    let (revokedAt, left) ← field none u64 left
    let (reasonCode, left) ← field none RevocationReason.decode left
    let (reasonNote, left) ← field (some none) (optional str) left
    return (⟨certFingerprint, revokedAt, reasonCode, reasonNote⟩, left)

def DisabledCert.decode : CanonicalDecoder m DisabledCert :=
  record fun left => do
    let (certFingerprint, left) ← field none MemberCertFingerprint.decode left
    let (disabledAt, left) ← field none u64 left
    let (expectedUntil, left) ← field (some none) (optional u64) left
    let (reasonNote, left) ← field (some none) (optional str) left
    return (⟨certFingerprint, disabledAt, expectedUntil, reasonNote⟩, left)

def MemberCertIndexEntry.decode : CanonicalDecoder m MemberCertIndexEntry :=
  record fun left => do
    let (fingerprint, left) ← field none MemberCertFingerprint.decode left
    let (deviceLabel, left) ← field none str left
    let (issuedAt, left) ← field none u64 left
    let (expiresAt, left) ← field none u64 left
    return (⟨fingerprint, deviceLabel, issuedAt, expiresAt⟩, left)

def PeerHint.decode : CanonicalDecoder m PeerHint :=
  record fun left => do
    let (url, left) ← field none str left
    let (label, left) ← field (some none) (optional str) left
    let (capabilities, left) ← field none (vec str) left
    let (updatedAt, left) ← field none u64 left
    let (expiresAt, left) ← field (some none) (optional u64) left
    return (⟨url, label, capabilities, updatedAt, expiresAt⟩, left)

def AssignedIpv4.decode : CanonicalDecoder m AssignedIpv4 :=
  record fun left => do
    let (addr, left) ← field none (boundedNumber (2 ^ 32)) left
    let (len, left) ← field none (boundedNumber (2 ^ 8)) left
    return (⟨addr.toUInt32, len.toUInt8⟩, left)

def IpAssignment.decode : CanonicalDecoder m IpAssignment :=
  record fun left => do
    let (deviceId, left) ← field none str left
    let (ipv4, left) ← field none AssignedIpv4.decode left
    return (⟨deviceId, ipv4⟩, left)

def CapabilityGrant.decode : CanonicalDecoder m CapabilityGrant :=
  record fun left => do
    let (certFingerprint, left) ← field none MemberCertFingerprint.decode left
    let (capabilities, left) ← field none Capabilities.decode left
    let (grantedAt, left) ← field none u64 left
    return (⟨certFingerprint, capabilities, grantedAt⟩, left)

def HostnameBinding.decode : CanonicalDecoder m HostnameBinding :=
  record fun left => do
    let (certFingerprint, left) ← field none MemberCertFingerprint.decode left
    let (hostname, left) ← field (some none) (optional HostnameLabel.decode) left
    let (boundAt, left) ← field none u64 left
    return (⟨certFingerprint, hostname, boundAt⟩, left)

def LabelBinding.decode : CanonicalDecoder m LabelBinding :=
  record fun left => do
    let (certFingerprint, left) ← field none MemberCertFingerprint.decode left
    let (label, left) ← field none str left
    let (boundAt, left) ← field none u64 left
    return (⟨certFingerprint, label, boundAt⟩, left)

/-- `NetworkStatePayload`; the lists from the sixth on may be missing. -/
def NetworkStatePayload.decode : CanonicalDecoder m NetworkStatePayload :=
  record fun left => do
    let (memberCertIndex, left) ← field none (vec MemberCertIndexEntry.decode) left
    let (revokedCerts, left) ← field none (vec RevokedCert.decode) left
    let (disabledCerts, left) ← field none (vec DisabledCert.decode) left
    let (acl, left) ← field none bytes left
    let (routes, left) ← field none bytes left
    let (peerHints, left) ← field (some []) (vec PeerHint.decode) left
    let (ipAssignments, left) ← field (some []) (vec IpAssignment.decode) left
    let (capabilityGrants, left) ← field (some []) (vec CapabilityGrant.decode) left
    let (hostnameBindings, left) ← field (some []) (vec HostnameBinding.decode) left
    let (labelBindings, left) ← field (some []) (vec LabelBinding.decode) left
    return (⟨memberCertIndex, revokedCerts, disabledCerts, acl, capabilityGrants, routes, peerHints,
      ipAssignments, hostnameBindings, labelBindings⟩, left)

def UnsignedNetworkState.decode : CanonicalDecoder m UnsignedNetworkState :=
  record fun left => do
    let (trustDomainId, left) ← field none TrustDomainId.decode left
    let (networkLocalId, left) ← field none NetworkLocalId.decode left
    let (version, left) ← field none u64 left
    let (payload, left) ← field none NetworkStatePayload.decode left
    return (⟨trustDomainId, networkLocalId, version, payload⟩, left)

def SignedNetworkState.decode : CanonicalDecoder m SignedNetworkState :=
  record fun left => do
    let (details, left) ← field none UnsignedNetworkState.decode left
    let (signature, left) ← field none signatureBytes left
    return (⟨details, signature⟩, left)

def RelayCapabilities.decode : CanonicalDecoder m RelayCapabilities :=
  record fun left => do
    let (canRelayData, left) ← field none bool left
    let (canAssistHolepunch, left) ← field none bool left
    return (⟨canRelayData, canAssistHolepunch⟩, left)

def ActiveRelay.decode : CanonicalDecoder m ActiveRelay :=
  record fun left => do
    let (devicePk, left) ← field none (verifyingKey W "device_pk must be 32 bytes") left
    let (deviceLabel, left) ← field none str left
    let (capabilities, left) ← field none RelayCapabilities.decode left
    let (expiresAt, left) ← field none u64 left
    return (⟨devicePk, deviceLabel, capabilities, expiresAt⟩, left)

def OutboundGrant.decode : CanonicalDecoder m OutboundGrant :=
  record fun left => do
    let (foreignRootPk, left) ← field none (verifyingKey W "device_pk must be 32 bytes") left
    let (foreignTrustDomainId, left) ← field none TrustDomainId.decode left
    let (capabilities, left) ← field none RelayCapabilities.decode left
    let (expiresAt, left) ← field none u64 left
    return (⟨foreignRootPk, foreignTrustDomainId, capabilities, expiresAt⟩, left)

def UnsignedTrustDomainMeta.decode : CanonicalDecoder m UnsignedTrustDomainMeta :=
  record fun left => do
    let (trustDomainId, left) ← field none TrustDomainId.decode left
    let (version, left) ← field none u64 left
    let (activeRelays, left) ← field none (vec (ActiveRelay.decode W)) left
    let (outboundGrants, left) ← field (some []) (vec (OutboundGrant.decode W)) left
    return (⟨trustDomainId, version, activeRelays, outboundGrants⟩, left)

def SignedTrustDomainMeta.decode : CanonicalDecoder m SignedTrustDomainMeta :=
  record fun left => do
    let (details, left) ← field none (UnsignedTrustDomainMeta.decode W) left
    let (signature, left) ← field none signatureBytes left
    return (⟨details, signature⟩, left)

def NetworkBootstrap.decode : CanonicalDecoder m NetworkBootstrap :=
  record fun left => do
    let (trustDomainId, left) ← field none TrustDomainId.decode left
    let (pkRoot, left) ← field none (verifyingKey W "pk_root must be 32 bytes") left
    let (networkLocalId, left) ← field none NetworkLocalId.decode left
    let (bootstrapSeeds, left) ← field none (urlVec W) left
    let (trustDomainLabel, left) ← field (some none) (optional str) left
    let (networkName, left) ← field (some none) (optional str) left
    let (description, left) ← field (some none) (optional str) left
    return (⟨trustDomainId, pkRoot, networkLocalId, bootstrapSeeds, trustDomainLabel, networkName,
      description⟩, left)

/-- `JoinRequest`.  The bytes of the key are taken as they are. -/
def JoinRequest.decode : CanonicalDecoder m JoinRequest :=
  record fun left => do
    let (trustDomainId, left) ← field none TrustDomainId.decode left
    let (networkLocalId, left) ← field none NetworkLocalId.decode left
    let (applicantPk, left) ← field none (byteArray32 "applicant_pk must be 32 bytes") left
    let (deviceLabel, left) ← field none str left
    let (hint, left) ← field none str left
    let (nonce, left) ← field none bytes left
    let (applicantSignature, left) ← field none signatureBytes left
    return (⟨trustDomainId, networkLocalId, applicantPk, deviceLabel, hint, nonce,
      applicantSignature⟩, left)

end PactMesh
