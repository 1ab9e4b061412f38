import PactMesh.Trust.MemberCert

/-!
# Network states

The root of a trust domain publishes, for every network of the domain, a signed state: the member
list, the revoked and the disabled certificates, the access policy, fixed addresses and peer hints.
Capabilities, hostname and label of a member stand in its certificate; the state can override each
of them by an entry for the certificate's fingerprint.

The encodings come on top of `TrustSuite` as `StateSuite`; `TrustDomainRoot` is a root key pair whose
signatures verify.
-/

namespace PactMesh

inductive RevocationReason
  | unspecified
  | keyCompromise
  | deviceLost
  | removed
  | superseded
deriving DecidableEq

structure RevokedCert where
  certFingerprint : MemberCertFingerprint
  revokedAt : UInt64
  reasonCode : RevocationReason := .unspecified
  reasonNote : Option String := none
deriving DecidableEq

def RevokedCert.isActiveAt (_ : RevokedCert) (_now : UInt64) : Bool := true

structure DisabledCert where
  certFingerprint : MemberCertFingerprint
  disabledAt : UInt64
  expectedUntil : Option UInt64
  reasonNote : Option String := none
deriving DecidableEq

/-- The certificate is disabled at the time `now`. -/
def DisabledCert.isActiveAt (d : DisabledCert) (now : UInt64) : Bool :=
  d.expectedUntil.all fun expectedUntil => now ≤ expectedUntil

structure MemberCertIndexEntry where
  fingerprint : MemberCertFingerprint
  deviceLabel : String
  issuedAt : UInt64
  expiresAt : UInt64
deriving DecidableEq

structure PeerHint where
  url : String
  label : Option String
  capabilities : List String
  updatedAt : UInt64
  expiresAt : Option UInt64
deriving DecidableEq

structure AssignedIpv4 where
  addr : UInt32
  prefixLen : UInt8
deriving DecidableEq

/-- The fixed address of a device.  The device id is derived from the device key, so that the
assignment outlives a reissued certificate. -/
structure IpAssignment where
  deviceId : String
  ipv4 : AssignedIpv4
deriving DecidableEq

structure CapabilityGrant where
  certFingerprint : MemberCertFingerprint
  capabilities : Capabilities
  grantedAt : UInt64
deriving DecidableEq

/-- A hostname that replaces the one of a certificate; `none` clears it. -/
structure HostnameBinding where
  certFingerprint : MemberCertFingerprint
  hostname : Option HostnameLabel
  boundAt : UInt64
deriving DecidableEq

structure LabelBinding where
  certFingerprint : MemberCertFingerprint
  label : String
  boundAt : UInt64
deriving DecidableEq

structure NetworkStatePayload where
  memberCertIndex : List MemberCertIndexEntry
  revokedCerts : List RevokedCert
  disabledCerts : List DisabledCert
  /-- the CBOR of the policy, or nothing -/
  acl : List UInt8
  capabilityGrants : List CapabilityGrant
  routes : List UInt8 := []
  peerHints : List PeerHint := []
  ipAssignments : List IpAssignment := []
  hostnameBindings : List HostnameBinding := []
  labelBindings : List LabelBinding := []
deriving DecidableEq

structure UnsignedNetworkState where
  trustDomainId : TrustDomainId
  networkLocalId : NetworkLocalId
  version : UInt64
  payload : NetworkStatePayload
deriving DecidableEq

structure SignedNetworkState where
  details : UnsignedNetworkState
  signature : List UInt8
deriving DecidableEq

def SignedNetworkState.isRevoked (state : SignedNetworkState) (fp : MemberCertFingerprint)
    (now : UInt64) : Bool :=
  state.details.payload.revokedCerts.any fun r => r.certFingerprint == fp && r.isActiveAt now

/-- The certificate is disabled in the state at the time `now`. -/
def SignedNetworkState.isDisabled (state : SignedNetworkState) (fp : MemberCertFingerprint)
    (now : UInt64) : Bool :=
  state.details.payload.disabledCerts.any fun d => d.certFingerprint == fp && d.isActiveAt now

/-- The capabilities of a certificate under a state: those of the first grant for its fingerprint,
or else those of the certificate. -/
def effectiveCapabilitiesByFingerprint (fp : MemberCertFingerprint) (certFallback : Capabilities)
    (state : SignedNetworkState) : Capabilities :=
  match state.details.payload.capabilityGrants.find? fun g => g.certFingerprint == fp with
  | some grant => grant.capabilities
  | none => certFallback

/-- The hostname of a certificate under a state: that of the first binding for its fingerprint, or
else that of the certificate. -/
def effectiveHostnameByFingerprint (fp : MemberCertFingerprint)
    (certFallback : Option HostnameLabel) (state : SignedNetworkState) : Option HostnameLabel :=
  match state.details.payload.hostnameBindings.find? fun b => b.certFingerprint == fp with
  | some binding => binding.hostname
  | none => certFallback

/-- The label of a certificate under a state: that of the first binding for its fingerprint, or else
that of the certificate. -/
def effectiveLabelByFingerprint (fp : MemberCertFingerprint) (certFallback : String)
    (state : SignedNetworkState) : String :=
  match state.details.payload.labelBindings.find? fun b => b.certFingerprint == fp with
  | some binding => binding.label
  | none => certFallback

variable (T : TrustSuite)

def effectiveCapabilities (cert : MemberCert) (state : SignedNetworkState) : Capabilities :=
  effectiveCapabilitiesByFingerprint (cert.fingerprint T) cert.details.capabilities state

def effectiveHostname (cert : MemberCert) (state : SignedNetworkState) : Option HostnameLabel :=
  effectiveHostnameByFingerprint (cert.fingerprint T) cert.details.hostname state

def effectiveLabel (cert : MemberCert) (state : SignedNetworkState) : String :=
  effectiveLabelByFingerprint (cert.fingerprint T) cert.details.deviceLabel state

structure RelayCapabilities where
  canRelayData : Bool
  canAssistHolepunch : Bool
deriving DecidableEq

structure ActiveRelay where
  devicePk : Bytes32
  deviceLabel : String
  capabilities : RelayCapabilities
  expiresAt : UInt64
deriving DecidableEq

structure OutboundGrant where
  foreignRootPk : Bytes32
  foreignTrustDomainId : TrustDomainId
  capabilities : RelayCapabilities
  expiresAt : UInt64
deriving DecidableEq

structure UnsignedTrustDomainMeta where
  trustDomainId : TrustDomainId
  version : UInt64
  activeRelays : List ActiveRelay
  outboundGrants : List OutboundGrant
deriving DecidableEq

structure SignedTrustDomainMeta where
  details : UnsignedTrustDomainMeta
  signature : List UInt8
deriving DecidableEq

/-- The CBOR of network states, of trust domain metadata and of policies, and the texts of device
ids and subnets. -/
structure StateSuite extends TrustSuite where
  /-- the canonical CBOR of a state's content, which is what the root signs -/
  marshalStateForSigning : UnsignedNetworkState → List UInt8
  /-- the canonical CBOR of the metadata, which is what the root signs -/
  marshalMetaForSigning : UnsignedTrustDomainMeta → List UInt8
  policyToCbor : AclPolicy → List UInt8
  /-- the Base64 of a device key -/
  encodeDeviceId : Bytes32 → String
  /-- a subnet in writing -/
  netToString : IpNet → String

instance : Coe StateSuite TrustSuite := ⟨StateSuite.toTrustSuite⟩

/-- A root key pair: the public key and the signing operation of the secret key, whose signatures
have 64 bytes and verify under the public key. -/
structure TrustDomainRoot (T : TrustSuite) where
  pkRoot : Bytes32
  sign : (msg : List UInt8) → List UInt8
  length_sign : ∀ msg, (sign msg).length = 64
  verify_sign : ∀ msg, T.verify pkRoot msg (sign msg) = true

def TrustDomainRoot.id {T : TrustSuite} (root : TrustDomainRoot T) : TrustDomainId :=
  .fromRootPubkey T root.pkRoot

def UnsignedMemberCert.sign {T : TrustSuite} (details : UnsignedMemberCert)
    (root : TrustDomainRoot T) : MemberCert where
  details := details
  signature := root.sign (T.marshalForSigning details)

def UnsignedNetworkState.sign {T : StateSuite} (details : UnsignedNetworkState)
    (root : TrustDomainRoot T) : SignedNetworkState where
  details := details
  signature := root.sign (T.marshalStateForSigning details)

/-- `NetworkStateVerifyError`; the metadata check fails in the same two ways. -/
inductive NetworkStateVerifyError
  | badSignature
  | domainMismatch
deriving DecidableEq

/-- The check of something that a root signed: it names the trust domain of the root key, and the
signature verifies. -/
def verifyRootSigned (trustDomainId : TrustDomainId) (msg signature : List UInt8)
    (rootPk : Bytes32) : Except NetworkStateVerifyError Unit :=
  if trustDomainId ≠ .fromRootPubkey T rootPk then .error .domainMismatch
  else if signature.length ≠ 64 then .error .badSignature
  else if T.verify rootPk msg signature then .ok ()
  else .error .badSignature

def SignedNetworkState.verify (T : StateSuite) (state : SignedNetworkState) (rootPk : Bytes32) :
    Except NetworkStateVerifyError Unit :=
  verifyRootSigned T state.details.trustDomainId
    (T.marshalStateForSigning state.details) state.signature rootPk

def SignedTrustDomainMeta.verify (T : StateSuite) (tdMeta : SignedTrustDomainMeta)
    (rootPk : Bytes32) : Except NetworkStateVerifyError Unit :=
  verifyRootSigned T tdMeta.details.trustDomainId
    (T.marshalMetaForSigning tdMeta.details) tdMeta.signature rootPk

end PactMesh
