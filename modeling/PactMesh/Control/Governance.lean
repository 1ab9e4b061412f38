import PactMesh.Lib.Keyed
import PactMesh.Lib.Saturating
import PactMesh.Lib.Text
import PactMesh.Trust.DeviceView
import PactMesh.Trust.Validate
import Mathlib.Data.List.Destutter

/-!
# Governing a network

The root reads the signed state from the directory of the network, changes the payload, raises the
version, signs and writes the state back.  Where the command line, the terminal interface and the web
console differ, both are here.  The directory also holds the certificates of the members.

Operations take parsed values, and the passphrase is taken to be right.
-/

namespace PactMesh

open Checks

/-- The files of a network. -/
structure NetworkDir where
  /-- the name of the directory -/
  name : NetworkLocalId
  /-- `network_state.cbor.pem` -/
  state : SignedNetworkState
  /-- `member_cert.pem`, the certificate of this machine -/
  memberCert : Option MemberCert := none
  /-- `member_certs/<fingerprint>.pem`, the last one written first -/
  memberCerts : List MemberCert := []
  deviceId : Option String := none
deriving DecidableEq

/-- Why an operation fails. -/
inductive GovError
  | notIndexed
  | revoked
  | permanentlyRevoked
  | notDisabled
  | emptyLabel
  | certBodyMissing
  | hostname (e : HostnameError)
  | clearCombinedWithSubnets
  | noCapabilityChange
  | aclDecode
  | acl (e : AclError)
  | deviceIdNotFound
  | deviceIdAmbiguous
  | poolTooSmall
  | poolExhausted
  | daemonRefused
  | domainMismatch
  | networkMismatch
  | deviceKeyMismatch
  | badMemberCert
deriving DecidableEq

/-- The directory after an operation. -/
abbrev GovResult := Except GovError NetworkDir

/-- What `member_status` says: revoked before disabled before active; the time does not matter. -/
inductive MemberStatus
  | revoked
  | disabled
  | active
deriving DecidableEq

def memberStatus (fingerprint : MemberCertFingerprint) (state : SignedNetworkState) :
    MemberStatus :=
  if state.listsRevoked fingerprint then .revoked
  else if state.listsDisabled fingerprint then .disabled
  else .active

/-- A new network, without members. -/
def createNetwork {T : StateSuite} (root : TrustDomainRoot T) (name : NetworkLocalId)
    (defaultAction : Action) : NetworkDir where
  name := name
  state := UnsignedNetworkState.sign (T := T)
    { trustDomainId := root.id
      networkLocalId := name
      version := 1
      payload :=
        { memberCertIndex := []
          revokedCerts := []
          disabledCerts := []
          acl := T.policyToCbor ⟨∅, [], defaultAction, aclSchemaVersion⟩
          capabilityGrants := [] } } root

/-- The next version, with another payload. -/
def SignedNetworkState.next {T : StateSuite} (root : TrustDomainRoot T)
    (state : SignedNetworkState) (payload : NetworkStatePayload) : SignedNetworkState :=
  UnsignedNetworkState.sign (T := T)
    { state.details with version := satAdd state.details.version 1, payload := payload } root

namespace NetworkDir

variable {T : StateSuite} (root : TrustDomainRoot T) (dir : NetworkDir)

def payload : NetworkStatePayload := dir.state.details.payload

/-- Sign the next version and write it. -/
def commit (payload : NetworkStatePayload) : NetworkDir :=
  { dir with state := dir.state.next root payload }

/-- The certificate is in the list of members. -/
def indexed (fp : MemberCertFingerprint) : Bool :=
  dir.payload.memberCertIndex.any fun entry => entry.fingerprint == fp

variable (T) in
/-- `read_member_cert_bodies`: the certificates in `member_certs/` and the one beside it. -/
def certBodies : CertBodies := fun fp =>
  (dir.memberCerts.find? fun cert => cert.fingerprint T == fp).or
    (dir.memberCert.filter fun cert => cert.fingerprint T == fp)

variable (T) in
/-- The certificate of a member that is not revoked. -/
def activeMemberCert (fp : MemberCertFingerprint) : Except GovError MemberCert := do
  ensure (dir.indexed fp) .notIndexed
  ensure (memberStatus fp dir.state != .revoked) .revoked
  require (dir.certBodies T fp) .certBodyMissing

variable (T) in
/-- The rows of the member list.  The root key is looked for in `networks/`, where it never is. -/
def listMemberViews (now : UInt64) : List DeviceView :=
  let certs := dir.certBodies T
  dir.payload.memberCertIndex.map fun entry =>
    viewForMember T entry (certs entry.fingerprint) dir.state dir.name
      (dir.deviceId.filter (· ≠ "")) false now

variable (T) in
/-- The one member whose device id begins with the text. -/
def resolveDeviceView (deviceId : String) (now : UInt64) : Except GovError DeviceView :=
  match (dir.listMemberViews T now).filter fun row =>
      row.deviceId ≠ "unknown" && deviceId.toList.isPrefixOf row.deviceId.toList with
  | [] => .error .deviceIdNotFound
  | [row] => .ok row
  | _ => .error .deviceIdAmbiguous

/-- What the list of members says of a certificate. -/
def indexEntryOf (T : StateSuite) (cert : MemberCert) : MemberCertIndexEntry where
  fingerprint := cert.fingerprint T
  deviceLabel := cert.details.deviceLabel
  issuedAt := cert.details.notBefore
  expiresAt := cert.details.expiresAt

/-- List a certificate, unless it is listed. -/
def addMember (cert : MemberCert) : NetworkDir :=
  if dir.indexed (cert.fingerprint T) then dir
  else
    dir.commit root
      { dir.payload with memberCertIndex := dir.payload.memberCertIndex ++ [indexEntryOf T cert] }

/-- The certificate of a device that joins, for a year. -/
def approvalCert (applicantPk : Bytes32) (deviceLabel : String) (now : UInt64) : MemberCert :=
  UnsignedMemberCert.sign
    { trustDomainId := root.id
      networkLocalId := dir.name
      devicePk := applicantPk
      deviceLabel := deviceLabel
      notBefore := satSub now 1
      expiresAt := satAdd now (365 * 24 * 60 * 60)
      capabilities := ⟨false, false, [], false⟩
      networkStateVersionRef := dir.state.details.version
      hostname := none } root

/-- Let a device join.  The daemon, which has the request, may refuse; otherwise it hands the
certificate back. -/
def approve (applicantPk : Bytes32) (deviceLabel : String) (daemonAgrees : Bool) (now : UInt64) :
    GovResult := do
  let cert := dir.approvalCert root applicantPk deviceLabel now
  ensure daemonAgrees .daemonRefused
  let next := dir.addMember root cert
  return { next with memberCerts := cert :: next.memberCerts }

/-- The certificate of this machine, for ten years. -/
def selfCert (devicePk : Bytes32) (deviceLabel : String) (now : UInt64) : MemberCert :=
  UnsignedMemberCert.sign
    { trustDomainId := root.id
      networkLocalId := dir.state.details.networkLocalId
      devicePk := devicePk
      deviceLabel := deviceLabel
      notBefore := now
      expiresAt := satAdd now (3650 * 24 * 60 * 60)
      capabilities := ⟨true, true, [], false⟩
      networkStateVersionRef := satAdd dir.state.details.version 1
      hostname := none } root

/-- The certificate in `member_cert.pem`, which must fit, or a new one. -/
def ownCert (devicePk : Bytes32) (deviceLabel : String) (now : UInt64) :
    Except GovError MemberCert :=
  match dir.memberCert with
  | none => .ok (dir.selfCert root devicePk deviceLabel now)
  | some cert => do
    ensure (cert.details.trustDomainId = root.id) .domainMismatch
    ensure (cert.details.networkLocalId = dir.state.details.networkLocalId) .networkMismatch
    ensure (cert.details.devicePk = devicePk) .deviceKeyMismatch
    ensure (cert.verify T root.pkRoot).isOk .badMemberCert
    return cert

/-- Make this machine a member. -/
def bootstrapSelf (devicePk : Bytes32) (deviceLabel : String) (now : UInt64) : GovResult := do
  ensure (dir.state.details.trustDomainId = root.id) .domainMismatch
  let cert ← dir.ownCert root devicePk deviceLabel now
  let dir := { dir with memberCert := some cert, deviceId := some (T.encodeDeviceId devicePk) }
  return dir.addMember root cert

/-- Revoke a certificate, which stays listed. -/
def revoke (fp : MemberCertFingerprint) (reason : RevocationReason) (note : Option String)
    (now : UInt64) : GovResult := do
  ensure (dir.indexed fp) .notIndexed
  return dir.commit root
    { dir.payload with revokedCerts := dir.payload.revokedCerts ++ [⟨fp, now, reason, note⟩] }

/-- Disable a certificate, in place of an earlier disablement. -/
def disable (fp : MemberCertFingerprint) (expectedUntil : Option UInt64) (note : Option String)
    (now : UInt64) : GovResult := do
  ensure (!dir.state.listsRevoked fp) .permanentlyRevoked
  ensure (dir.indexed fp) .notIndexed
  return dir.commit root
    { dir.payload with
      disabledCerts := Keyed.put DisabledCert.certFingerprint fp (some ⟨fp, now, expectedUntil, note⟩)
        dir.payload.disabledCerts }

/-- Take a disablement back. -/
def enable (fp : MemberCertFingerprint) : GovResult := do
  ensure (!dir.state.listsRevoked fp) .permanentlyRevoked
  ensure (dir.state.listsDisabled fp) .notDisabled
  return dir.commit root
    { dir.payload with
      disabledCerts := Keyed.put DisabledCert.certFingerprint fp none dir.payload.disabledCerts }

/-- Override the label of a device. -/
def relabel (fp : MemberCertFingerprint) (label : String) (now : UInt64) : GovResult := do
  let label := trim label
  ensure (label ≠ "") .emptyLabel
  let cert ← dir.activeMemberCert T fp
  if label = effectiveLabel T cert dir.state then return dir
  return dir.commit root
    { dir.payload with
      labelBindings := Keyed.put LabelBinding.certFingerprint fp
        (if label = cert.details.deviceLabel then none else some ⟨fp, label, now⟩)
        dir.payload.labelBindings }

variable (T) in
/-- The hostnames that are taken: those of the members but `target` who are not revoked and whose
certificate is at hand. -/
def liveHostnameEntries (target : MemberCertFingerprint) :
    List (MemberCertFingerprint × Option HostnameLabel) :=
  ((dir.payload.memberCertIndex.filter fun entry => entry.fingerprint ≠ target).filter fun entry =>
    memberStatus entry.fingerprint dir.state ≠ .revoked).filterMap fun entry =>
      (dir.certBodies T entry.fingerprint).map fun cert =>
        (entry.fingerprint, effectiveHostname T cert dir.state)

/-- The payload with a hostname bound to a device, unless its certificate has the hostname. -/
def bindHostname (fp : MemberCertFingerprint) (certHostname hostname : Option HostnameLabel)
    (now : UInt64) : NetworkStatePayload :=
  { dir.payload with
    hostnameBindings := Keyed.put HostnameBinding.certFingerprint fp
      (if hostname = certHostname then none else some ⟨fp, hostname, now⟩)
      dir.payload.hostnameBindings }

/-- Override the hostname of a device by one that is free. -/
def setHostname (fp : MemberCertFingerprint) (cert : MemberCert) (hostname : Option HostnameLabel)
    (now : UInt64) : GovResult := do
  if hostname = effectiveHostname T cert dir.state then return dir
  match hostname with
  | some new =>
    (checkHostnameUnique new (dir.liveHostnameEntries T fp)).mapError GovError.hostname
  | none => pure ()
  return dir.commit root (dir.bindHostname fp cert.details.hostname hostname now)

def parseHostname (text : Option String) : Except GovError (Option HostnameLabel) :=
  match text with
  | none => .ok none
  | some text =>
    ((HostnameLabel.tryFromStr text).map some).mapError GovError.hostname

/-- `trust hostname` -/
def updateHostname (fp : MemberCertFingerprint) (text : Option String) (now : UInt64) :
    GovResult := do
  let cert ← dir.activeMemberCert T fp
  let hostname ← parseHostname text
  dir.setHostname root fp cert hostname now

/-- The web console, where a blank text means no hostname. -/
def apiHostname (fp : MemberCertFingerprint) (text : Option String) (now : UInt64) : GovResult :=
  dir.updateHostname root fp (text.filter fun text => trim text ≠ "") now

/-- The options of `trust capability`. -/
structure CapabilityEdit where
  relayData : Option Bool
  relayControl : Option Bool
  proxySubnet : List IpNet
  clearProxySubnet : Bool

/-- The capabilities with what is given in place of what was there. -/
def CapabilityEdit.apply (T : StateSuite) (edit : CapabilityEdit) (current : Capabilities) :
    Capabilities where
  canRelayData := edit.relayData.getD current.canRelayData
  canRelayControl := edit.relayControl.getD current.canRelayControl
  canProxySubnet :=
    if edit.clearProxySubnet then []
    else if edit.proxySubnet = [] then current.canProxySubnet
    else
      (edit.proxySubnet.insertionSort fun a b => T.netToString a ≤ T.netToString b).destutter
        (· ≠ ·)
  canBeExitNode := current.canBeExitNode

/-- Override the capabilities of a device. -/
def setCapability (fp : MemberCertFingerprint) (edit : CapabilityEdit) (now : UInt64) :
    GovResult := do
  ensure (!(edit.clearProxySubnet && edit.proxySubnet ≠ [])) .clearCombinedWithSubnets
  ensure (edit.relayData.isSome || edit.relayControl.isSome || edit.clearProxySubnet ||
    edit.proxySubnet ≠ []) .noCapabilityChange
  let cert ← dir.activeMemberCert T fp
  let current := effectiveCapabilities T cert dir.state
  let capabilities := edit.apply T current
  if capabilities = current then return dir
  return dir.commit root
    { dir.payload with
      capabilityGrants := Keyed.put CapabilityGrant.certFingerprint fp
        (if capabilities = cert.details.capabilities then none else some ⟨fp, capabilities, now⟩)
        dir.payload.capabilityGrants }

/-- List a certificate in place of another. -/
def replaceMemberIndexEntry (T : StateSuite) (index : List MemberCertIndexEntry)
    (oldFp : MemberCertFingerprint) (cert : MemberCert) : List MemberCertIndexEntry :=
  (index.filter fun entry => entry.fingerprint ≠ oldFp) ++ [indexEntryOf T cert]

/-- The certificate of a device under another label. -/
def renamedCert (cert : MemberCert) (label : String) : MemberCert :=
  UnsignedMemberCert.sign
    { cert.details with
      deviceLabel := label
      networkStateVersionRef := satAdd dir.state.details.version 1 } root

/-- The directory after a device has been given a new certificate, in place of the old one, which is
revoked as superseded. -/
def reissue (oldFp : MemberCertFingerprint) (cert : MemberCert) (label : String)
    (note : Option String) (now : UInt64) : NetworkDir :=
  let new := dir.renamedCert root cert label
  let next := dir.commit root
    { dir.payload with
      memberCertIndex := replaceMemberIndexEntry T dir.payload.memberCertIndex oldFp new
      revokedCerts := dir.payload.revokedCerts ++ [⟨oldFp, now, .superseded, note⟩] }
  { next with memberCerts := new :: next.memberCerts }

/-- `trust rename-device`: give a device another label, by a new certificate. -/
def renameDevice (deviceId label : String) (note : Option String) (now : UInt64) : GovResult := do
  ensure (trim label ≠ "") .emptyLabel
  let row ← dir.resolveDeviceView T deviceId now
  ensure (memberStatus row.fingerprint dir.state != .revoked) .revoked
  let cert ← require (dir.certBodies T row.fingerprint) .certBodyMissing
  if cert.details.deviceLabel = label then return dir
  return dir.reissue root row.fingerprint cert label note now

/-- Add a device to a tag or remove it, if the policy is valid then. -/
def updateTag (fp : MemberCertFingerprint) (tag : TagName) (add : Bool) : GovResult := do
  ensure (memberStatus fp dir.state != .revoked) .revoked
  let policy ← require (T.policyFromCbor dir.payload.acl) .aclDecode
  let (edited, changed) := applyTag policy tag fp add
  if changed then
    (validateAclForSigning edited (dir.certBodies T) dir.state).mapError GovError.acl
    return dir.commit root { dir.payload with acl := T.policyToCbor edited }
  else return dir

/-- The web console, which takes a fingerprint. -/
def apiTrustTag (fp : MemberCertFingerprint) (tag : TagName) (add : Bool) : GovResult := do
  ensure (dir.indexed fp) .notIndexed
  dir.updateTag root fp tag add

/-- `trust tag add` and `trust tag remove` -/
def trustTagUpdate (deviceId : String) (tag : TagName) (add : Bool) (now : UInt64) : GovResult := do
  let row ← dir.resolveDeviceView T deviceId now
  dir.updateTag root row.fingerprint tag add

/-- The first address of `n` addresses from `lo` on that is not used. -/
def firstFree (used : List UInt32) : (lo n : ℕ) → Option UInt32
  | _, 0 => none
  | lo, n + 1 =>
    if used.contains (UInt32.ofNat lo) then firstFree used (lo + 1) n else some (UInt32.ofNat lo)

/-- A free host address of a pool: not the network address, not the first host, not the broadcast
address, and not assigned. -/
def pickFreeIp (pool : AssignedIpv4) (assignments : List IpAssignment) : Except GovError UInt32 := do
  ensure (pool.prefixLen < 31) .poolTooSmall
  let hostBits := 32 - pool.prefixLen.toUInt32
  let mask : UInt32 := if hostBits = 32 then 0 else 0xffffffff <<< hostBits
  let network := pool.addr &&& mask
  let broadcast := network ||| ~~~mask
  let first := satAdd32 network 2
  require (firstFree (assignments.map (·.ipv4.addr)) first.toNat (broadcast.toNat - first.toNat))
    .poolExhausted

/-- Give a device an address, or take it back. -/
def assign (deviceId : String) (ipv4 : Option AssignedIpv4) : NetworkDir :=
  dir.commit root
    { dir.payload with
      ipAssignments := Keyed.put IpAssignment.deviceId deviceId (ipv4.map fun ipv4 => ⟨deviceId, ipv4⟩)
        dir.payload.ipAssignments }

/-- Assign what is not assigned yet. -/
def setAssignedIpv4 (cert : MemberCert) (ipv4 : Option AssignedIpv4) : NetworkDir :=
  let deviceId := T.encodeDeviceId cert.details.devicePk
  if assignedIpv4ForDevice deviceId dir.state = ipv4 then dir else dir.assign root deviceId ipv4

/-- The web console, which refuses revoked members. -/
def apiAssignedIpv4 (fp : MemberCertFingerprint) (ipv4 : Option AssignedIpv4) : GovResult := do
  let cert ← dir.activeMemberCert T fp
  return dir.setAssignedIpv4 root cert ipv4

/-- `trust assigned-ipv4`, which does not ask whether the member is revoked. -/
def trustAssignedIpv4 (fp : MemberCertFingerprint) (ipv4 : Option AssignedIpv4) : GovResult := do
  ensure (dir.indexed fp) .notIndexed
  let cert ← require (dir.certBodies T fp) .certBodyMissing
  return dir.setAssignedIpv4 root cert ipv4

/-- Give a free address to a device that has none. -/
def autoAssignTo (deviceId : String) (pool : AssignedIpv4) : GovResult := do
  if dir.payload.ipAssignments.any fun a => a.deviceId == deviceId then return dir
  let free ← pickFreeIp pool dir.payload.ipAssignments
  return dir.assign root deviceId (some ⟨free, pool.prefixLen⟩)

/-- Give a free address to a member. -/
def apiAutoAssign (fp : MemberCertFingerprint) (pool : AssignedIpv4) : GovResult := do
  let cert ← dir.activeMemberCert T fp
  dir.autoAssignTo root (T.encodeDeviceId cert.details.devicePk) pool

/-- Give a free address to this machine. -/
def ensureSelfIpAssigned (pool : AssignedIpv4) : GovResult := do
  let deviceId ← require (dir.deviceId.filter (· ≠ "")) .deviceIdNotFound
  dir.autoAssignTo root deviceId pool

/-- In lower case, in order and once each. -/
def normalizeCapabilities (caps : List String) : List String :=
  (((caps.map fun c => (trim c).toLower).filter (· ≠ "")).insertionSort (· ≤ ·)).destutter (· ≠ ·)

/-- Add the hint for a URL, or replace it. -/
def addPeerHint (url : String) (label : Option String) (capabilities : List String)
    (expiresAt : Option UInt64) (now : UInt64) : NetworkDir :=
  let hint : PeerHint := ⟨url, label, normalizeCapabilities capabilities, now, expiresAt⟩
  let hints := dir.payload.peerHints
  if hints.find? (fun h => h.url == url) = some hint then dir
  else
    let edited := match hints.findIdx? fun h => h.url == url with
      | some i => hints.set i hint
      | none => hints ++ [hint]
    dir.commit root
      { dir.payload with peerHints := edited.insertionSort fun a b => a.url ≤ b.url }

/-- Remove the hint for a URL. -/
def removePeerHint (url : String) : NetworkDir :=
  let kept := dir.payload.peerHints.filter fun h => h.url ≠ url
  if kept.length = dir.payload.peerHints.length then dir
  else dir.commit root { dir.payload with peerHints := kept.insertionSort fun a b => a.url ≤ b.url }

end NetworkDir

/-- The operations of all interfaces. -/
inductive GovOp
  | bootstrapSelf (devicePk : Bytes32) (label : String) (now : UInt64)
  | approve (applicantPk : Bytes32) (label : String) (daemonAgrees : Bool) (now : UInt64)
  | revoke (fp : MemberCertFingerprint) (reason : RevocationReason) (note : Option String)
      (now : UInt64)
  | disable (fp : MemberCertFingerprint) (expectedUntil : Option UInt64) (note : Option String)
      (now : UInt64)
  | enable (fp : MemberCertFingerprint)
  | relabel (fp : MemberCertFingerprint) (label : String) (now : UInt64)
  | renameDevice (deviceId label : String) (note : Option String) (now : UInt64)
  | updateHostname (fp : MemberCertFingerprint) (text : Option String) (now : UInt64)
  | apiHostname (fp : MemberCertFingerprint) (text : Option String) (now : UInt64)
  | setCapability (fp : MemberCertFingerprint) (edit : NetworkDir.CapabilityEdit) (now : UInt64)
  | apiTrustTag (fp : MemberCertFingerprint) (tag : TagName) (add : Bool)
  | trustTagUpdate (deviceId : String) (tag : TagName) (add : Bool) (now : UInt64)
  | apiAssignedIpv4 (fp : MemberCertFingerprint) (ipv4 : Option AssignedIpv4)
  | trustAssignedIpv4 (fp : MemberCertFingerprint) (ipv4 : Option AssignedIpv4)
  | apiAutoAssign (fp : MemberCertFingerprint) (pool : AssignedIpv4)
  | ensureSelfIpAssigned (pool : AssignedIpv4)
  | addPeerHint (url : String) (label : Option String) (capabilities : List String)
      (expiresAt : Option UInt64) (now : UInt64)
  | removePeerHint (url : String)

/-- Carry out an operation. -/
def NetworkDir.run {T : StateSuite} (root : TrustDomainRoot T) (dir : NetworkDir) :
    GovOp → GovResult
  | .bootstrapSelf devicePk label now => dir.bootstrapSelf root devicePk label now
  | .approve applicantPk label daemonAgrees now => dir.approve root applicantPk label daemonAgrees now
  | .revoke fp reason note now => dir.revoke root fp reason note now
  | .disable fp expectedUntil note now => dir.disable root fp expectedUntil note now
  | .enable fp => dir.enable root fp
  | .relabel fp label now => dir.relabel root fp label now
  | .renameDevice deviceId label note now => dir.renameDevice root deviceId label note now
  | .updateHostname fp text now => dir.updateHostname root fp text now
  | .apiHostname fp text now => dir.apiHostname root fp text now
  | .setCapability fp edit now => dir.setCapability root fp edit now
  | .apiTrustTag fp tag add => dir.apiTrustTag root fp tag add
  | .trustTagUpdate deviceId tag add now => dir.trustTagUpdate root deviceId tag add now
  | .apiAssignedIpv4 fp ipv4 => dir.apiAssignedIpv4 root fp ipv4
  | .trustAssignedIpv4 fp ipv4 => dir.trustAssignedIpv4 root fp ipv4
  | .apiAutoAssign fp pool => dir.apiAutoAssign root fp pool
  | .ensureSelfIpAssigned pool => dir.ensureSelfIpAssigned root pool
  | .addPeerHint url label capabilities expiresAt now =>
    .ok (dir.addPeerHint root url label capabilities expiresAt now)
  | .removePeerHint url => .ok (dir.removePeerHint root url)

def opsTag : TagName := ⟨"ops", by decide +kernel⟩

/-- The primitives of `sampleStateSuite`, with a CBOR of certificates that keeps the version and the
device key, and one of policies that knows the tag `ops` only. -/
def sampleGovSuite : StateSuite :=
  { sampleStateSuite with
    certToCbor := fun cert =>
      Endian.leBytes 8 cert.details.networkStateVersionRef.toNat ++ cert.details.devicePk.toList
    policyToCbor := fun policy =>
      (if policy.defaultAction = .accept then 1 else 2) ::
        match policy.tags.lookup opsTag with
        | none => []
        | some members => 0 :: members.flatMap (·.bytes.toList)
    policyFromCbor := fun bytes =>
      let action := if bytes.head? = some 1 then Action.accept else .drop
      match bytes.tail with
      | [] => some ⟨∅, [], action, aclSchemaVersion⟩
      | _ :: bytes =>
        let members := (List.range (bytes.length / 32)).map fun i =>
          (⟨Vector.ofFn fun j => bytes.getD (32 * i + j) 0⟩ : DeviceFingerprint)
        some ⟨(∅ : TagsMap).insert opsTag members, [], action, aclSchemaVersion⟩ }

/-- The root `[9, 9, …]`. -/
def sampleRoot : TrustDomainRoot sampleGovSuite where
  pkRoot := all32 9
  sign _ := (all32 9).toList ++ (all32 9).toList
  length_sign _ := rfl
  verify_sign _ := beq_self_eq_true _

def sampleDir : NetworkDir := createNetwork sampleRoot ⟨"office"⟩ .accept

def sampleApprove (devicePk : Bytes32) : GovOp := .approve devicePk "device" true 5

/-- The certificate that `sampleApprove` signs at a version. -/
def sampleMember (devicePk : Bytes32) (version : UInt64) : MemberCert :=
  UnsignedMemberCert.sign
    { trustDomainId := sampleRoot.id
      networkLocalId := ⟨"office"⟩
      devicePk := devicePk
      deviceLabel := "device"
      notBefore := 4
      expiresAt := 31536005
      capabilities := ⟨false, false, [], false⟩
      networkStateVersionRef := version
      hostname := none } sampleRoot

end PactMesh
