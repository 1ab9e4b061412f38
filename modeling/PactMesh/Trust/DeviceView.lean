import PactMesh.Trust.PoolApply

/-!
# The status of a member

The management views show for every member whether it is active, disabled, revoked or expired.
Whether a node lets the member in is decided elsewhere, by `verifyMemberCert`.

The two do not agree.  A disablement that names an end counts for `verifyMemberCert` only up to that
time, while `statusForMember` never looks at it; and a certificate is accepted before its validity
period has begun.

Main result: `status_agrees_iff`.
-/

namespace PactMesh

open SignedNetworkState

inductive DeviceStatus
  | active
  | disabled
  | revoked
  | expired
deriving DecidableEq

/-- The status of a member; `expiresAt` is taken from the member list. -/
def statusForMember (fingerprint : MemberCertFingerprint) (state : SignedNetworkState)
    (expiresAt now : UInt64) : DeviceStatus :=
  if state.details.payload.revokedCerts.any fun r => r.certFingerprint == fingerprint then
    .revoked
  else if state.details.payload.disabledCerts.any fun d => d.certFingerprint == fingerprint then
    .disabled
  else if expiresAt ≤ now then .expired
  else .active

inductive DeviceRole
  | root
  | member
  | external
deriving DecidableEq

structure DeviceCapabilityView where
  relayData : Bool
  relayControl : Bool
  proxySubnets : List IpNet
deriving DecidableEq

def DeviceCapabilityView.fromCapabilities (capabilities : Capabilities) : DeviceCapabilityView where
  relayData := capabilities.canRelayData
  relayControl := capabilities.canRelayControl
  proxySubnets := capabilities.canProxySubnet

structure DeviceView where
  fingerprint : MemberCertFingerprint
  deviceId : String
  deviceLabel : String
  role : DeviceRole
  networkLocalId : NetworkLocalId
  issuedAt : UInt64
  expiresAt : UInt64
  status : DeviceStatus
  capabilities : DeviceCapabilityView
  hostname : Option HostnameLabel
  assignedIpv4 : Option AssignedIpv4
  tags : List TagName
deriving DecidableEq

variable (T : StateSuite)

def roleForMember (cert : Option MemberCert) (localDeviceId : Option String) (hasRootKey : Bool) :
    DeviceRole :=
  match cert with
  | none => .member
  | some cert =>
    if hasRootKey && localDeviceId.any (· == T.encodeDeviceId cert.details.devicePk) then .root
    else .member

def assignedIpv4ForDevice (deviceId : String) (state : SignedNetworkState) : Option AssignedIpv4 :=
  (state.details.payload.ipAssignments.find? fun a => a.deviceId == deviceId).map (·.ipv4)

def tagsForMember (fingerprint : MemberCertFingerprint) (state : SignedNetworkState) :
    List TagName :=
  match T.policyFromCbor state.details.payload.acl with
  | none => []
  | some policy =>
    (policy.tags.entries.filter fun entry => entry.2.contains ⟨fingerprint.bytes⟩).map (·.1)

/-- The row of a member; `cert` is its certificate, if a file has it. -/
def viewForMember (entry : MemberCertIndexEntry) (cert : Option MemberCert)
    (state : SignedNetworkState) (networkLocalId : NetworkLocalId) (localDeviceId : Option String)
    (hasRootKey : Bool) (now : UInt64) : DeviceView :=
  let deviceId := (cert.map fun cert => T.encodeDeviceId cert.details.devicePk).getD "unknown"
  { fingerprint := entry.fingerprint
    deviceId := deviceId
    deviceLabel := effectiveLabelByFingerprint entry.fingerprint entry.deviceLabel state
    role := roleForMember T cert localDeviceId hasRootKey
    networkLocalId := networkLocalId
    issuedAt := entry.issuedAt
    expiresAt := entry.expiresAt
    status := statusForMember entry.fingerprint state entry.expiresAt now
    capabilities :=
      (cert.map fun cert => .fromCapabilities (effectiveCapabilities T cert state)).getD
        ⟨false, false, []⟩
    hostname := cert.bind fun cert => effectiveHostname T cert state
    assignedIpv4 := assignedIpv4ForDevice deviceId state
    tags := tagsForMember T entry.fingerprint state }

/-- `CachedMemberCert::is_active_at`: the validity period of a certificate. -/
def MemberCert.isActiveAt (cert : MemberCert) (now : UInt64) : Bool :=
  cert.details.notBefore ≤ now && now < cert.details.expiresAt

/-! ### Status and admission -/

def SignedNetworkState.listsDisabled (state : SignedNetworkState) (fp : MemberCertFingerprint) :
    Bool := state.details.payload.disabledCerts.any fun d => d.certFingerprint == fp

def SignedNetworkState.listsRevoked (state : SignedNetworkState) (fp : MemberCertFingerprint) :
    Bool := state.details.payload.revokedCerts.any fun r => r.certFingerprint == fp

theorem SignedNetworkState.isRevoked_eq (state : SignedNetworkState) (fp : MemberCertFingerprint)
    (now : UInt64) : state.isRevoked fp now = state.listsRevoked fp := by
  simp [isRevoked, listsRevoked, RevokedCert.isActiveAt]

variable {state : SignedNetworkState} {fp : MemberCertFingerprint}

theorem SignedNetworkState.listsDisabled_of_isDisabled {now : UInt64}
    (h : state.isDisabled fp now = true) : state.listsDisabled fp = true := by
  obtain ⟨d, hd, hact⟩ := List.any_eq_true.1 h
  exact List.any_eq_true.2 ⟨d, hd, (Bool.and_eq_true_iff.1 hact).1⟩

theorem statusForMember_eq_active_iff {expiresAt now : UInt64} :
    statusForMember fp state expiresAt now = .active ↔
      state.listsRevoked fp = false ∧ state.listsDisabled fp = false ∧ now < expiresAt := by
  unfold statusForMember
  split_ifs with hrev hdis hexp
  · simp [listsRevoked, hrev]
  · simp [listsDisabled, hdis]
  · simp [UInt64.not_lt.2 hexp]
  · simp [listsRevoked, listsDisabled, hrev, hdis, UInt64.not_le.1 hexp]

/-- The pool knows the network of a certificate that the root signed; it is that of the given row of
the member list, and the state is recent enough for it. -/
structure IndexedMember (T : StateSuite) (pool : TrustDomainPool) (dom : TrustDomainEntry)
    (state : SignedNetworkState) (entry : MemberCertIndexEntry) (cert : MemberCert) : Prop where
  domain : pool.domains cert.details.trustDomainId = some dom
  signed : cert.verify T dom.pkRoot = .ok ()
  network : dom.networks cert.details.networkLocalId = some state
  indexed : entry ∈ state.details.payload.memberCertIndex
  fingerprint : entry.fingerprint = cert.fingerprint T
  versionRef : cert.details.networkStateVersionRef ≤ state.details.version

/-- A member is shown as active exactly when its certificate is accepted, and what is accepted is in
its validity period. -/
def StatusAgrees (T : StateSuite) (pool : TrustDomainPool) (state : SignedNetworkState)
    (entry : MemberCertIndexEntry) (cert : MemberCert) (now : UInt64) : Prop :=
  (statusForMember entry.fingerprint state entry.expiresAt now = .active ↔
    pool.verifyMemberCert T cert now = .ok cert) ∧
  (pool.verifyMemberCert T cert now = .ok cert → cert.isActiveAt now = true)

/-- The member is revoked or disabled now; or its certificate has expired and the lists show that it
is not active; or its validity period has begun and not ended, for certificate and row, and no
disablement is listed, not even one that has run out. -/
def StatusSettled (state : SignedNetworkState) (entry : MemberCertIndexEntry) (cert : MemberCert)
    (now : UInt64) : Prop :=
  state.listsRevoked entry.fingerprint = true ∨ state.isDisabled entry.fingerprint now = true ∨
    (cert.details.expiresAt ≤ now ∧
      (state.listsDisabled entry.fingerprint = true ∨ entry.expiresAt ≤ now)) ∨
    (cert.details.notBefore ≤ now ∧ now < cert.details.expiresAt ∧ now < entry.expiresAt ∧
      state.listsDisabled entry.fingerprint = false)

section

variable {T} {pool : TrustDomainPool} {dom : TrustDomainEntry} {state : SignedNetworkState}
  {entry : MemberCertIndexEntry} {cert : MemberCert} {now : UInt64}

theorem IndexedMember.accepted_iff (h : IndexedMember T pool dom state entry cert) :
    pool.verifyMemberCert T cert now = .ok cert ↔
      now < cert.details.expiresAt ∧ state.listsRevoked entry.fingerprint = false ∧
        state.isDisabled entry.fingerprint now = false := by
  have href : ¬ state.details.version < cert.details.networkStateVersionRef :=
    UInt64.not_lt.2 h.versionRef
  unfold TrustDomainPool.verifyMemberCert TrustDomainPool.verifyCertAgainstRootPk
  simp only [h.domain, h.signed, h.network, href, if_false, ← h.fingerprint, isRevoked_eq]
  by_cases hexp : cert.details.expiresAt ≤ now
  · simp [hexp, UInt64.not_lt.2 hexp]
  · have hlt := UInt64.not_le.1 hexp
    simp only [hexp, if_false]
    split_ifs with hrev hdis <;> simp_all

/-- **When the status of a member agrees with its admission**, for every state, time and correctly
signed certificate of a member. -/
theorem status_agrees_iff (h : IndexedMember T pool dom state entry cert) :
    StatusAgrees T pool state entry cert now ↔ StatusSettled state entry cert now := by
  unfold StatusAgrees StatusSettled
  rw [h.accepted_iff, statusForMember_eq_active_iff]
  by_cases hrev : state.listsRevoked entry.fingerprint = true
  · simp [hrev]
  by_cases hdis : state.isDisabled entry.fingerprint now = true
  · simp [hdis, listsDisabled_of_isDisabled hdis]
  rw [Bool.not_eq_true] at hrev hdis
  -- what is left is a matter of the disable list and of three comparisons
  by_cases hexp : cert.details.expiresAt ≤ now
  · have hnlt := UInt64.not_lt.2 hexp
    by_cases hrow : entry.expiresAt ≤ now
    · simp [hrev, hexp, hnlt, hrow, UInt64.not_lt.2 hrow]
    · cases hlist : state.listsDisabled entry.fingerprint <;>
        simp [hrev, hdis, hexp, hnlt, hrow, UInt64.not_le.1 hrow]
  · have hlt := UInt64.not_le.1 hexp
    cases hlist : state.listsDisabled entry.fingerprint <;>
      simp [hrev, hdis, hexp, hlt, MemberCert.isActiveAt, and_comm]

end

def lapsedState : SignedNetworkState :=
  let fp := (sampleCert (all32 3)).fingerprint sampleSuite
  stateWith { samplePayload [1] with
    memberCertIndex := [⟨fp, "device", 0, 1000⟩]
    disabledCerts := [{ certFingerprint := fp, disabledAt := 1, expectedUntil := some 10 }] }

def lapsedDomain : TrustDomainEntry where
  pkRoot := all32 9
  networks nlid := if nlid = ⟨"office"⟩ then some lapsedState else none

def futureCert : MemberCert :=
  { sampleCert (all32 3) with
    details := { (sampleCert (all32 3)).details with notBefore := 100 } }

/-- After the end of the disablement the member is let in and still shown as disabled; and a
certificate is accepted long before it becomes valid. -/
theorem lapsed_member_accepted : (let cert := sampleCert (all32 3)
     let pool : TrustDomainPool := ⟨fun _ => some lapsedDomain⟩
     statusForMember (cert.fingerprint sampleSuite) lapsedState 1000 20 = .disabled ∧
       pool.verifyMemberCert sampleSuite cert 20 = .ok cert) ∧
    (samplePool [1]).verifyMemberCert sampleSuite futureCert 5 = .ok futureCert ∧
      futureCert.isActiveAt 5 = false := by
  decide +kernel

/-- While it lasts, the disablement shows in both. -/
theorem status_agrees_while_disabled :
    StatusAgrees sampleStateSuite ⟨fun _ => some lapsedDomain⟩ lapsedState
      ⟨(sampleCert (all32 3)).fingerprint sampleSuite, "device", 0, 1000⟩
      (sampleCert (all32 3)) 5 := by
  have hmember : IndexedMember sampleStateSuite ⟨fun _ => some lapsedDomain⟩ lapsedDomain lapsedState
      ⟨(sampleCert (all32 3)).fingerprint sampleSuite, "device", 0, 1000⟩
      (sampleCert (all32 3)) :=
    ⟨rfl, by decide +kernel, rfl, by decide +kernel, rfl, by decide +kernel⟩
  refine (status_agrees_iff hmember).2 (.inr (.inl ?_))
  decide +kernel

end PactMesh
