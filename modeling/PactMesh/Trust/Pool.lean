import PactMesh.Trust.NetworkState

/-!
# The trust pool of a node

For every trust domain a node knows, the pool holds the root key and the latest accepted state of
each network.  `verifyMemberCert` is the full check of a certificate.
-/

namespace PactMesh

structure NetworkBootstrap where
  trustDomainId : TrustDomainId
  pkRoot : Bytes32
  networkLocalId : NetworkLocalId
  bootstrapSeeds : List String
  trustDomainLabel : Option String
  networkName : Option String
  description : Option String
deriving DecidableEq

structure TrustDomainEntry where
  pkRoot : Bytes32
  /-- the latest accepted state of each network -/
  networks : NetworkLocalId → Option SignedNetworkState
  trustDomainMeta : Option SignedTrustDomainMeta := none
  networkBootstrap : Option NetworkBootstrap := none

structure TrustDomainPool where
  domains : TrustDomainId → Option TrustDomainEntry

/-- The membership a node itself has: its network, its certificate and the secret key of the
certificate's device key. -/
structure TrustDomainContext where
  trustDomainId : TrustDomainId
  networkLocalId : NetworkLocalId
  memberCert : MemberCert
  skSelf : Bytes32

inductive PoolVerifyError
  | unknownDomain
  | badSignature
  | futureVersionRef (have_ got : UInt64)
  | expired (now ea : UInt64)
  | revoked
  | disabled
  | noNetworkState (td : TrustDomainId) (nlid : NetworkLocalId)
deriving DecidableEq

variable (T : TrustSuite)

namespace TrustDomainPool

variable (pool : TrustDomainPool)

def networkState (td : TrustDomainId) (nlid : NetworkLocalId) : Option SignedNetworkState :=
  (pool.domains td).bind fun entry => entry.networks nlid

def verifyCertAgainstRootPk (cert : MemberCert) (rootPk : Bytes32) (now : UInt64) :
    Except PoolVerifyError Unit :=
  match cert.verify T rootPk with
  | .error _ => .error .badSignature
  | .ok () =>
    if cert.details.expiresAt ≤ now then .error (.expired now cert.details.expiresAt) else .ok ()

def verifyMemberCert (cert : MemberCert) (now : UInt64) : Except PoolVerifyError MemberCert :=
  match pool.domains cert.details.trustDomainId with
  | none => .error .unknownDomain
  | some entry =>
    match verifyCertAgainstRootPk T cert entry.pkRoot now with
    | .error e => .error e
    | .ok () =>
      match entry.networks cert.details.networkLocalId with
      | none =>
        .error (.noNetworkState cert.details.trustDomainId cert.details.networkLocalId)
      | some state =>
        if state.details.version < cert.details.networkStateVersionRef then
          .error (.futureVersionRef state.details.version cert.details.networkStateVersionRef)
        else if cert.details.expiresAt ≤ now then .error (.expired now cert.details.expiresAt)
        else if state.isRevoked (cert.fingerprint T) now then .error .revoked
        else if state.isDisabled (cert.fingerprint T) now then .error .disabled
        else .ok cert

variable {T pool}

theorem verifyMemberCert_eq_ok_iff {cert cert' : MemberCert} {now : UInt64} :
    pool.verifyMemberCert T cert now = .ok cert' ↔
      cert' = cert ∧ ∃ entry state, pool.domains cert.details.trustDomainId = some entry ∧
        cert.verify T entry.pkRoot = .ok () ∧
        entry.networks cert.details.networkLocalId = some state ∧
        cert.details.networkStateVersionRef ≤ state.details.version ∧
        now < cert.details.expiresAt ∧ state.isRevoked (cert.fingerprint T) now = false ∧
        state.isDisabled (cert.fingerprint T) now = false := by
  rw [eq_comm (a := cert') (b := cert)]
  unfold verifyMemberCert verifyCertAgainstRootPk
  cases pool.domains cert.details.trustDomainId with
  | none => simp
  | some entry =>
    cases hver : cert.verify T entry.pkRoot with
    | error e => simp [hver]
    | ok u =>
      by_cases hexp : cert.details.expiresAt ≤ now
      · have hnot : ¬ now < cert.details.expiresAt := UInt64.not_lt.2 hexp
        simp [hver, hexp, hnot]
      cases hstate : entry.networks cert.details.networkLocalId with
      | none => simp [hver, hexp, hstate]
      | some state =>
        have hlt : now < cert.details.expiresAt := UInt64.not_le.1 hexp
        by_cases hfuture : state.details.version < cert.details.networkStateVersionRef
        · simp [hver, hexp, hstate, hfuture, UInt64.not_le.2 hfuture]
        · cases hrev : state.isRevoked (cert.fingerprint T) now <;>
            cases hdis : state.isDisabled (cert.fingerprint T) now <;>
              simp [hexp, hlt, hver, hstate, hfuture, UInt64.not_lt.1 hfuture, hrev, hdis]

end TrustDomainPool

/-- The hash keeps the first 32 bytes, a key signs by its own bytes, and the policies `[1]` and
`[2]` accept and drop everything. -/
def sampleSuite : TrustSuite where
  sha256 bytes := Vector.ofFn fun i => bytes.getD i 0
  verify pk _ signature := signature == pk.toList ++ pk.toList
  marshalForSigning details := details.devicePk.toList
  certToCbor cert := 1 :: cert.details.devicePk.toList
  certFromCbor _ := none
  policyFromCbor
    | [1] => some ⟨∅, [], .accept, 1⟩
    | [2] => some ⟨∅, [], .drop, 1⟩
    | _ => none

/-- A certificate of the device with a given key, signed by the root `[9, 9, …]`. -/
def sampleCert (devicePk : Bytes32) : MemberCert where
  details :=
    { trustDomainId := ⟨all32 9⟩
      networkLocalId := ⟨"office"⟩
      devicePk := devicePk
      deviceLabel := "device"
      notBefore := 0
      expiresAt := 1000
      capabilities := ⟨true, true, [], false⟩
      networkStateVersionRef := 1
      hostname := none }
  signature := List.replicate 64 9

/-- The first state of the network, with the given content. -/
def stateWith (payload : NetworkStatePayload) : SignedNetworkState where
  details := ⟨⟨all32 9⟩, ⟨"office"⟩, 1, payload⟩
  signature := List.replicate 64 9

def samplePayload (acl : List UInt8) : NetworkStatePayload where
  memberCertIndex := []
  revokedCerts := []
  disabledCerts := []
  acl := acl
  capabilityGrants := []

def sampleState (acl : List UInt8) : SignedNetworkState := stateWith (samplePayload acl)

/-- A pool that knows the root `[9, 9, …]` and holds one state. -/
def poolHolding (state : SignedNetworkState) : TrustDomainPool where
  domains td := if td = ⟨all32 9⟩ then
      some
        { pkRoot := all32 9
          networks := fun nlid => if nlid = ⟨"office"⟩ then some state else none }
    else none

def samplePool (acl : List UInt8) : TrustDomainPool := poolHolding (sampleState acl)

/-- The node with device key `[3, 3, …]`. -/
def sampleContext : TrustDomainContext where
  trustDomainId := ⟨all32 9⟩
  networkLocalId := ⟨"office"⟩
  memberCert := sampleCert (all32 3)
  skSelf := all32 3

end PactMesh
