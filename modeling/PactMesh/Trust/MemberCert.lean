import PactMesh.Trust.Acl

/-!
# Member certificates

The root of a trust domain signs, for every member, a certificate with the member's device key and
its capabilities in one network.  `MemberCert.verify` checks that the domain id is the hash of the
root key, that the validity period is not empty and that the signature verifies.

Hashing, ed25519 and CBOR come from libraries and are the parameter `TrustSuite`.
-/

namespace PactMesh

structure TrustDomainId where
  bytes : Bytes32
deriving DecidableEq

structure MemberCertFingerprint where
  bytes : Bytes32
deriving DecidableEq

structure NetworkLocalId where
  val : String
deriving DecidableEq

structure Capabilities where
  canRelayData : Bool
  canRelayControl : Bool
  canProxySubnet : List IpNet
  canBeExitNode : Bool
deriving DecidableEq

structure UnsignedMemberCert where
  trustDomainId : TrustDomainId
  networkLocalId : NetworkLocalId
  /-- the ed25519 key of the device -/
  devicePk : Bytes32
  deviceLabel : String
  notBefore : UInt64
  expiresAt : UInt64
  capabilities : Capabilities
  networkStateVersionRef : UInt64
  hostname : Option HostnameLabel
deriving DecidableEq

structure MemberCert where
  details : UnsignedMemberCert
  signature : List UInt8
deriving DecidableEq

structure TrustSuite where
  sha256 : List UInt8 → Bytes32
  /-- ed25519: the signature of a message verifies under a public key -/
  verify : (pk : Bytes32) → (msg signature : List UInt8) → Bool
  /-- the canonical CBOR of a certificate's content, which is what the root signs -/
  marshalForSigning : UnsignedMemberCert → List UInt8
  /-- the canonical CBOR of a certificate -/
  certToCbor : MemberCert → List UInt8
  certFromCbor : List UInt8 → Option MemberCert
  policyFromCbor : List UInt8 → Option AclPolicy

variable (T : TrustSuite)

def TrustDomainId.fromRootPubkey (pk : Bytes32) : TrustDomainId := ⟨T.sha256 pk.toList⟩

/-- `member_cert::VerifyError`, as far as `verify` uses it. -/
inductive VerifyError
  | badSignature
  | badTimeWindow (nb ea : UInt64)
  | domainMismatch
deriving DecidableEq

namespace MemberCert

def fingerprint (cert : MemberCert) : MemberCertFingerprint := ⟨T.sha256 (T.certToCbor cert)⟩

def verify (cert : MemberCert) (rootPk : Bytes32) : Except VerifyError Unit :=
  if cert.details.trustDomainId ≠ .fromRootPubkey T rootPk then .error .domainMismatch
  else if cert.details.expiresAt ≤ cert.details.notBefore then
    .error (.badTimeWindow cert.details.notBefore cert.details.expiresAt)
  else if cert.signature.length ≠ 64 then .error .badSignature
  else if T.verify rootPk (T.marshalForSigning cert.details) cert.signature then .ok ()
  else .error .badSignature

variable {T} {cert : MemberCert} {rootPk : Bytes32}

theorem verify_eq_ok_iff : cert.verify T rootPk = .ok () ↔
    cert.details.trustDomainId = .fromRootPubkey T rootPk ∧
      cert.details.notBefore < cert.details.expiresAt ∧ cert.signature.length = 64 ∧
      T.verify rootPk (T.marshalForSigning cert.details) cert.signature = true := by
  unfold verify
  split_ifs with hid htime hlen hsig
  · simp [hid]
  · simp [UInt64.not_lt.2 htime]
  · simp [hlen]
  · simp_all [UInt64.not_le]
  · simp [hsig]

end MemberCert

end PactMesh
