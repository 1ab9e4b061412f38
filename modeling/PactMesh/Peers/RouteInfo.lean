import PactMesh.Lib.Ip
import PactMesh.Lib.OrderedMap
import PactMesh.Lib.Outcome
import PactMesh.Session.PeerSession
import Mathlib.Data.List.Sort

/-!
# Route information from all peers

A node keeps what it has heard of every peer: the peer's description (`RoutePeerInfo`), its
connections (`RouteConnInfo`) and the foreign networks it serves.  What arrives replaces what is
stored if its version is larger.  The trust in credentials, which administrators publish in their
descriptions, is computed from the same table.
-/

namespace PactMesh

abbrev Version := UInt32

/-- A `BTreeSet` of peers: sorted, without repetitions. -/
def peerSet (l : List PeerId) : List PeerId := (l.insertionSort (· ≤ ·)).dedup

theorem mem_peerSet {l : List PeerId} {p : PeerId} : p ∈ peerSet l ↔ p ∈ l := by
  rw [peerSet, List.mem_dedup, List.mem_insertionSort]

namespace IpNet

def firstAddress (net : IpNet) : ℕ :=
  match net.ip with
  | .v4 bits => (bits &&& networkMask 32 net.prefixLen.toNat).toNat
  | .v6 bits => (bits &&& networkMask 128 net.prefixLen.toNat).toNat

def lastAddress (net : IpNet) : ℕ :=
  match net.ip with
  | .v4 bits => (bits ||| ~~~ networkMask 32 net.prefixLen.toNat).toNat
  | .v6 bits => (bits ||| ~~~ networkMask 128 net.prefixLen.toNat).toNat

end IpNet

def cidrIsSubset (child parent : IpNet) : Bool :=
  child.ip.width == parent.ip.width && decide (parent.firstAddress ≤ child.firstAddress) &&
    decide (child.lastAddress ≤ parent.lastAddress)

/-- `cidr_is_subset_str`, where `parse` reads a network from its text. -/
def cidrIsSubsetStr (parse : String → Option IpNet) (child parent : String) : Bool :=
  match parse child, parse parent with
  | some child, some parent => cidrIsSubset child parent
  | _, _ => false

structure PeerFeatureFlag where
  avoidRelayData : Bool := false
  supportConnListSync : Bool := false
  isCredentialPeer : Bool := false
deriving DecidableEq, Inhabited

structure TrustedCredentialPubkey where
  pubkey : List UInt8
  groups : List String
  allowRelay : Bool
  expiryUnix : ℤ
  allowedProxyCidrs : List String
  reusable : Option Bool
deriving DecidableEq

structure TrustedCredentialPubkeyProof where
  credential : Option TrustedCredentialPubkey
deriving DecidableEq

structure PeerGroupInfo where
  groupName : String
  groupProof : List UInt8
deriving DecidableEq

structure RoutePeerInfo where
  peerId : PeerId
  ipv4Addr : Option (BitVec 32) := none
  proxyCidrs : List String
  /-- set by the receiver, in milliseconds -/
  lastUpdate : Option ℕ
  version : Version
  featureFlag : Option PeerFeatureFlag
  peerRouteId : UInt64
  groups : List PeerGroupInfo
  noiseStaticPubkey : List UInt8
  trustedCredentialPubkeys : List TrustedCredentialPubkeyProof
deriving DecidableEq

def RoutePeerInfo.new : RoutePeerInfo where
  peerId := 0
  ipv4Addr := none
  proxyCidrs := []
  lastUpdate := none
  version := 0
  featureFlag := none
  peerRouteId := 0
  groups := []
  noiseStaticPubkey := []
  trustedCredentialPubkeys := []

/-- A description as a `DynamicMessage`: what is known of it, and the fields that are not. -/
structure RawPeerInfo where
  known : RoutePeerInfo
  unknownFields : List UInt8
deriving DecidableEq

/-- `patch_raw_from_info` for the fields `proxy_cidrs` and `feature_flag` -/
def patchRawFromInfo (raw : RawPeerInfo) (info : RoutePeerInfo) : RawPeerInfo :=
  { raw with
    known := { raw.known with proxyCidrs := info.proxyCidrs, featureFlag := info.featureFlag } }

structure PeerIdVersion where
  peerId : PeerId
  version : Version
deriving DecidableEq

/-- Connections as a bitmap: bit `i * n + j` says whether peer `i` of `n` is connected to `j`. -/
structure RouteConnBitmap where
  peerIds : List PeerIdVersion
  bitmap : List UInt8
deriving DecidableEq

structure PeerConnInfo where
  peerId : Option PeerIdVersion
  connectedPeerIds : List PeerId
deriving DecidableEq

/-- `conn_info` of a request. -/
inductive ConnInfo
  | connBitmap (bitmap : RouteConnBitmap)
  | connPeerList (peerConnInfos : List PeerConnInfo)
deriving DecidableEq

structure ForeignNetworkRouteInfoKey where
  peerId : PeerId
  networkName : String
deriving DecidableEq

structure ForeignNetworkRouteInfoEntry where
  foreignPeerIds : List PeerId
  /-- set by the receiver, in milliseconds -/
  lastUpdate : Option ℕ
  version : Version
  myPeerIdForThisNetwork : PeerId
deriving DecidableEq

structure ForeignNetworkInfo where
  key : Option ForeignNetworkRouteInfoKey
  value : Option ForeignNetworkRouteInfoEntry
deriving DecidableEq

namespace RouteConnBitmap

variable (b : RouteConnBitmap)

def getBit (idx : ℕ) : Outcome Bool := do
  let byte ← Outcome.index b.bitmap (idx / 8)
  return (byte.toNat / 2 ^ (idx % 8)) % 2 == 1

/-- The loop of `get_connected_peers` over the peers from position `idx` on. -/
def connectedFrom (peerIdx : ℕ) : List PeerIdVersion → ℕ → Outcome (List PeerId)
  | [], _ => return []
  | p :: ps, idx => do
    let bit ← b.getBit (peerIdx * b.peerIds.length + idx)
    let rest ← connectedFrom peerIdx ps (idx + 1)
    return if bit then p.peerId :: rest else rest

def getConnectedPeers (peerIdx : ℕ) : Outcome (List PeerId) := do
  let connected ← b.connectedFrom peerIdx b.peerIds 0
  return peerSet connected

end RouteConnBitmap

structure RouteConnInfo where
  connectedPeers : List PeerId
  version : Version
  lastUpdate : ℕ
deriving DecidableEq

inductive TrustedKeySource
  | ospfNode
  | ospfCredential
deriving DecidableEq

structure TrustedKeyMetadata where
  source : TrustedKeySource
  expiryUnix : Option ℤ
deriving DecidableEq

inductive SyncRouteInfoError
  | duplicatePeerId
  | stopped
deriving DecidableEq

abbrev PeerInfoMap := OrderedMap PeerId RoutePeerInfo

/-- The trusted credentials, by public key. -/
abbrev TrustedKeyMap := OrderedMap (List UInt8) TrustedCredentialPubkey

structure SyncedRouteInfo where
  peerInfos : PeerInfoMap
  rawPeerInfos : OrderedMap PeerId RawPeerInfo
  connMap : OrderedMap PeerId RouteConnInfo
  foreignNetwork : OrderedMap ForeignNetworkRouteInfoKey ForeignNetworkRouteInfoEntry
  /-- the groups of a peer with their proofs; no proof for those of its credential -/
  groupTrustMap : OrderedMap PeerId (OrderedMap String (List UInt8))
  groupTrustMapCache : OrderedMap PeerId (List String)
  trustedCredentialPubkeys : TrustedKeyMap
  nonReusableCredentialOwners : OrderedMap (List UInt8) PeerId
  version : Version
deriving DecidableEq

namespace SyncedRouteInfo

def empty : SyncedRouteInfo where
  peerInfos := .empty
  rawPeerInfos := .empty
  connMap := .empty
  foreignNetwork := .empty
  groupTrustMap := .empty
  groupTrustMapCache := .empty
  trustedCredentialPubkeys := .empty
  nonReusableCredentialOwners := .empty
  version := 0

variable (s : SyncedRouteInfo)

/-- `version.inc`, without overflow checks -/
def incVersion : SyncedRouteInfo := { s with version := s.version + 1 }

/-- `version.inc` if something has changed -/
def incVersionIf (changed : Bool) : SyncedRouteInfo := if changed then s.incVersion else s

def setPeerGroups (peerId : PeerId) (groups : OrderedMap String (List UInt8)) : SyncedRouteInfo :=
  if groups.entries.isEmpty then
    { s with
      groupTrustMap := s.groupTrustMap.erase peerId
      groupTrustMapCache := s.groupTrustMapCache.erase peerId }
  else
    { s with
      groupTrustMap := s.groupTrustMap.insert peerId groups
      groupTrustMapCache := s.groupTrustMapCache.insert peerId (groups.entries.map Prod.fst) }

def getProofGroups (peerId : PeerId) : OrderedMap String (List UInt8) :=
  match s.groupTrustMap.get peerId with
  | none => .empty
  | some groups =>
    groups.entries.foldl (fun m e => if e.2.isEmpty then m else m.insert e.1 e.2) .empty

def markCredentialPeer (info : RoutePeerInfo) (isCredentialPeer : Bool) : RoutePeerInfo :=
  { info with
    featureFlag := some { info.featureFlag.getD default with isCredentialPeer := isCredentialPeer } }

def isCredentialPeerInfo (info : RoutePeerInfo) : Bool :=
  (info.featureFlag.map (·.isCredentialPeer)).getD false

def credentialIsReusable (info : TrustedCredentialPubkey) : Bool := info.reusable.getD true

def isAdminPeer (info : RoutePeerInfo) : Bool :=
  if info.version = 0 then false else !isCredentialPeerInfo info

def getCredentialInfoByPubkey (peerPubkey : List UInt8) : Option TrustedCredentialPubkey :=
  if peerPubkey.isEmpty then none else s.trustedCredentialPubkeys.get peerPubkey

/-- The credentials and keys that are trusted, as `collect_trusted_credentials` collects them. -/
structure Collected where
  allTrusted : TrustedKeyMap
  globalTrustedKeys : OrderedMap (List UInt8) TrustedKeyMetadata

/-- One proof of an administrator.  The node has no network secret to check it with, so that every
proof counts. -/
def Collected.addProof (nowSecs : ℤ) (c : Collected) (proof : TrustedCredentialPubkeyProof) :
    Collected :=
  match proof.credential with
  | none => c
  | some credential =>
    if credential.expiryUnix ≤ nowSecs then c
    else
      { allTrusted := c.allTrusted.orInsert credential.pubkey credential
        globalTrustedKeys :=
          c.globalTrustedKeys.insert credential.pubkey
            ⟨.ospfCredential, some credential.expiryUnix⟩ }

/-- What `collect_trusted_credentials` takes from one description. -/
def Collected.addPeer (nowSecs : ℤ) (c : Collected) (e : PeerId × RoutePeerInfo) : Collected :=
  if !isAdminPeer e.2 then c
  else
    let keys := if e.2.noiseStaticPubkey.isEmpty then c.globalTrustedKeys
      else c.globalTrustedKeys.insert e.2.noiseStaticPubkey ⟨.ospfNode, none⟩
    e.2.trustedCredentialPubkeys.foldl (Collected.addProof nowSecs) ⟨c.allTrusted, keys⟩

def collectTrustedCredentials (nowSecs : ℤ) : Collected :=
  s.peerInfos.entries.foldl (.addPeer nowSecs) ⟨.empty, .empty⟩

/-- `replace_trusted_credential_pubkeys`, the map part -/
def replaceTrustedCredentialPubkeys (allTrusted : TrustedKeyMap) :
    SyncedRouteInfo := { s with trustedCredentialPubkeys := allTrusted }

def nonReusableCandidates (allTrusted : TrustedKeyMap)
    (isPeerActive : PeerId → Bool) : List (List UInt8 × PeerId) :=
  s.peerInfos.entries.filterMap fun e =>
    if e.2.noiseStaticPubkey.isEmpty then none
    else
      match allTrusted.get e.2.noiseStaticPubkey with
      | none => none
      | some credential =>
        if credentialIsReusable credential || !isPeerActive e.1 then none
        else some (e.2.noiseStaticPubkey, e.1)

/-- `collect_non_reusable_credential_owners`: the smallest candidate owns the credential, the others
are not trusted. -/
def collectNonReusableCredentialOwners
    (allTrusted : TrustedKeyMap) (isPeerActive : PeerId → Bool) :
    OrderedMap (List UInt8) PeerId × List PeerId :=
  let candidates := s.nonReusableCandidates allTrusted isPeerActive
  let activeOwners := candidates.foldl
    (fun m c => m.insert c.1 (match m.get c.1 with
      | some owner => min owner c.2
      | none => c.2))
    OrderedMap.empty
  (activeOwners, (candidates.filter fun c => activeOwners.get c.1 != some c.2).map Prod.snd)

def replaceNonReusableCredentialOwners (activeOwners : OrderedMap (List UInt8) PeerId) :
    SyncedRouteInfo :=
  { s with
    nonReusableCredentialOwners :=
      activeOwners.entries.foldl (fun m e => m.insert e.1 e.2)
        (s.nonReusableCredentialOwners.retain activeOwners.contains) }

/-- What `update_credential_groups` does for one description. -/
def addCredentialGroups (allTrusted : TrustedKeyMap)
    (s : SyncedRouteInfo) (e : PeerId × RoutePeerInfo) : SyncedRouteInfo :=
  if e.2.noiseStaticPubkey.isEmpty then s
  else
    match allTrusted.get e.2.noiseStaticPubkey with
    | none => s
    | some credential =>
      s.setPeerGroups e.2.peerId
        (credential.groups.foldl (fun m group => m.orInsert group []) (s.getProofGroups e.2.peerId))

def updateCredentialGroups (allTrusted : TrustedKeyMap) :
    SyncedRouteInfo :=
  s.peerInfos.entries.foldl (addCredentialGroups allTrusted) s

def collectRevokedCredentialPeers (prevTrusted : List UInt8 → Bool)
    (allTrusted : TrustedKeyMap) : List PeerId :=
  s.peerInfos.entries.filterMap fun e =>
    if e.2.noiseStaticPubkey.isEmpty || e.2.version == 0 then none
    else if prevTrusted e.2.noiseStaticPubkey && !allTrusted.contains e.2.noiseStaticPubkey then
      some e.1
    else none

def removePeers (peerIds : List PeerId) : SyncedRouteInfo :=
  if peerIds.isEmpty then s
  else
    incVersion
      { s with
        peerInfos := s.peerInfos.retain (!peerIds.contains ·)
        rawPeerInfos := s.rawPeerInfos.retain (!peerIds.contains ·)
        connMap := s.connMap.retain (!peerIds.contains ·)
        foreignNetwork := s.foreignNetwork.retain fun k => !peerIds.contains k.peerId
        groupTrustMap := s.groupTrustMap.retain (!peerIds.contains ·)
        groupTrustMapCache := s.groupTrustMapCache.retain (!peerIds.contains ·) }

/-- `verify_and_update_credential_trusts_with_active_peers`: the peers that are removed, the keys
that are trusted, and the table afterwards. -/
def verifyAndUpdateCredentialTrustsWithActivePeers (nowSecs : ℤ) (isPeerActive : PeerId → Bool) :
    List PeerId × OrderedMap (List UInt8) TrustedKeyMetadata × SyncedRouteInfo :=
  let collected := s.collectTrustedCredentials nowSecs
  let owners := s.collectNonReusableCredentialOwners collected.allTrusted isPeerActive
  let untrustedPeers := peerSet
    (s.collectRevokedCredentialPeers s.trustedCredentialPubkeys.contains collected.allTrusted ++
      owners.2)
  let s := s.replaceTrustedCredentialPubkeys collected.allTrusted
  let s := s.replaceNonReusableCredentialOwners owners.1
  let s := s.updateCredentialGroups collected.allTrusted
  (untrustedPeers, collected.globalTrustedKeys, s.removePeers untrustedPeers)

structure GroupIdentity where
  groupName : String
  groupSecret : String
deriving DecidableEq

/-- The groups of a peer that the node believes: those proved with the secret the node knows, and
all groups of an administrator. -/
def verifyGroups (verify : PeerGroupInfo → String → PeerId → Bool)
    (declarations : OrderedMap String String) (trustAdminGroupsWithoutProof : Bool)
    (info : RoutePeerInfo) : OrderedMap String (List UInt8) :=
  let proved := info.groups.foldl
    (fun m g =>
      match declarations.get g.groupName with
      | none => m
      | some secret => if verify g secret info.peerId then m.insert g.groupName g.groupProof else m)
    OrderedMap.empty
  if trustAdminGroupsWithoutProof && isAdminPeer info then
    info.groups.foldl (fun m g => m.orInsert g.groupName []) proved
  else proved

def setVerifiedGroups (peerId : PeerId) (groups : OrderedMap String (List UInt8)) :
    SyncedRouteInfo :=
  if groups.entries.isEmpty && !s.groupTrustMap.contains peerId then s
  else s.setPeerGroups peerId groups

def verifyAndUpdateGroupTrusts (verify : PeerGroupInfo → String → PeerId → Bool)
    (peerInfos : List RoutePeerInfo) (localGroupDeclarations : List GroupIdentity)
    (trustAdminGroupsWithoutProof : Bool) : SyncedRouteInfo :=
  let declarations := localGroupDeclarations.foldl
    (fun m g => m.insert g.groupName g.groupSecret) OrderedMap.empty
  peerInfos.foldl
    (fun s info => s.setVerifiedGroups info.peerId
      (verifyGroups verify declarations trustAdminGroupsWithoutProof info)) s

def placeholder (nowMs : ℕ) : RoutePeerInfo := { RoutePeerInfo.new with lastUpdate := some nowMs }

def connPlaceholder (nowMs : ℕ) : RouteConnInfo := ⟨[], 0, nowMs⟩

/-- `fill_empty_peer_info` for one peer, before the version is counted up. -/
def fillOne (nowMs : ℕ) (s : SyncedRouteInfo) (peerId : PeerId) : SyncedRouteInfo :=
  { s with
    peerInfos := s.peerInfos.orInsert peerId (placeholder nowMs)
    connMap := s.connMap.orInsert peerId (connPlaceholder nowMs) }

def fillEmptyPeerInfo (nowMs : ℕ) (peerIds : List PeerId) : SyncedRouteInfo :=
  (peerIds.foldl (fillOne nowMs) s).incVersionIf
    (peerIds.any fun p => !s.peerInfos.contains p || !s.connMap.contains p)

def getPeerInfoVersionWithDefault (peerId : PeerId) : Version :=
  ((s.peerInfos.get peerId).map (·.version)).getD 0

/-- `check_duplicate_peer_id`; a newer description of this node by another one is a panic. -/
def checkDuplicatePeerId (myPeerId : PeerId) (myPeerRouteId : UInt64) (dstPeerId : PeerId)
    (dstPeerRouteId : Option UInt64) (info : RoutePeerInfo) :
    Outcome (Except SyncRouteInfoError Unit) := do
  if info.peerId = myPeerId then
    Outcome.ensure (!(info.peerRouteId != myPeerRouteId &&
      decide (s.getPeerInfoVersionWithDefault info.peerId < info.version))) .explicitPanic
    return .ok ()
  else if info.peerId = dstPeerId then
    match dstPeerRouteId with
    | none => return .ok ()
    | some dstPeerRouteId =>
      if dstPeerRouteId != info.peerRouteId &&
          decide (info.version < s.getPeerInfoVersionWithDefault info.peerId) then
        return .error .duplicatePeerId
      else return .ok ()
  else return .ok ()

def storePeerInfo (nowMs : ℕ) (info : RoutePeerInfo) (raw : RawPeerInfo) : SyncedRouteInfo :=
  { s with
    rawPeerInfos := s.rawPeerInfos.insert info.peerId raw
    peerInfos := s.peerInfos.insert info.peerId { info with lastUpdate := some nowMs } }

def isNewPeerInfo (info : RoutePeerInfo) : Bool :=
  match s.peerInfos.get info.peerId with
  | none => true
  | some old => decide (old.version < info.version)

/-- The loop of `update_peer_infos` over the descriptions from position `idx` on, with a mark
whether something has been stored. -/
def updatePeerInfosFrom (nowMs : ℕ) (myPeerId : PeerId) (myPeerRouteId : UInt64)
    (dstPeerId : PeerId) (rawPeerInfos : List RawPeerInfo) :
    List RoutePeerInfo → ℕ → Bool → SyncedRouteInfo →
      Outcome (Except SyncRouteInfoError Unit × SyncedRouteInfo)
  | [], _, needIncVersion, s => return (.ok (), s.incVersionIf needIncVersion)
  | info :: infos, idx, needIncVersion, s => do
    let raw ← Outcome.index rawPeerInfos idx
    let dstPeerRouteId :=
      if info.peerId = dstPeerId then (s.peerInfos.get dstPeerId).map (·.peerRouteId) else none
    match ← s.checkDuplicatePeerId myPeerId myPeerRouteId dstPeerId dstPeerRouteId info with
    | .error e => return (.error e, s)
    | .ok () =>
      Outcome.ensure (raw.known.peerId == info.peerId) .assertionFailed
      if s.isNewPeerInfo info then
        updatePeerInfosFrom nowMs myPeerId myPeerRouteId dstPeerId rawPeerInfos infos (idx + 1) true
          (s.storePeerInfo nowMs info raw)
      else
        updatePeerInfosFrom nowMs myPeerId myPeerRouteId dstPeerId rawPeerInfos infos (idx + 1)
          needIncVersion s

def updatePeerInfos (nowMs : ℕ) (myPeerId : PeerId) (myPeerRouteId : UInt64) (dstPeerId : PeerId)
    (peerInfos : List RoutePeerInfo) (rawPeerInfos : List RawPeerInfo) :
    Outcome (Except SyncRouteInfoError Unit × SyncedRouteInfo) :=
  updatePeerInfosFrom nowMs myPeerId myPeerRouteId dstPeerId rawPeerInfos peerInfos 0 false s

def updateConnInfoOnePeer (nowMs : ℕ) (peerIdVersion : PeerIdVersion)
    (connectedPeers : List PeerId) : Bool × SyncedRouteInfo :=
  let isNew := match s.connMap.get peerIdVersion.peerId with
    | none => true
    | some old => decide (old.version < peerIdVersion.version)
  if isNew then
    (true, { s with
      connMap := s.connMap.insert peerIdVersion.peerId
        ⟨connectedPeers, peerIdVersion.version, nowMs⟩ })
  else (false, s)

/-- The loop of `update_conn_info_with_bitmap` over the peers from position `peerIdx` on. -/
def updateConnInfoFrom (nowMs : ℕ) (b : RouteConnBitmap) :
    List PeerIdVersion → ℕ → Bool → SyncedRouteInfo → Outcome SyncedRouteInfo
  | [], _, needIncVersion, s => return s.incVersionIf needIncVersion
  | p :: ps, peerIdx, needIncVersion, s => do
    let connectedPeers ← b.getConnectedPeers peerIdx
    let updated := (s.fillEmptyPeerInfo nowMs connectedPeers).updateConnInfoOnePeer nowMs p
      connectedPeers
    updateConnInfoFrom nowMs b ps (peerIdx + 1) (needIncVersion || updated.1) updated.2

def updateConnInfoWithBitmap (nowMs : ℕ) (b : RouteConnBitmap) : Outcome SyncedRouteInfo :=
  updateConnInfoFrom nowMs b b.peerIds 0 false
    (s.fillEmptyPeerInfo nowMs (peerSet (b.peerIds.map (·.peerId))))

/-- One entry of `update_conn_info_with_list`. -/
def updateConnInfoWithEntry (nowMs : ℕ) (acc : Bool × SyncedRouteInfo) (entry : PeerConnInfo) :
    Bool × SyncedRouteInfo :=
  match entry.peerId with
  | none => acc
  | some peerIdVersion =>
    let connectedPeers := peerSet entry.connectedPeerIds
    let updated := (acc.2.fillEmptyPeerInfo nowMs connectedPeers).updateConnInfoOnePeer nowMs
      peerIdVersion connectedPeers
    (acc.1 || updated.1, updated.2)

def updateConnInfoWithList (nowMs : ℕ) (peerConnInfos : List PeerConnInfo) : SyncedRouteInfo :=
  let acc := peerConnInfos.foldl (updateConnInfoWithEntry nowMs) (false, s)
  acc.2.incVersionIf acc.1

def updateConnInfo (nowMs : ℕ) (connInfo : ConnInfo) : Outcome SyncedRouteInfo :=
  match connInfo with
  | .connBitmap bitmap => s.updateConnInfoWithBitmap nowMs bitmap
  | .connPeerList peerConnInfos => return s.updateConnInfoWithList nowMs peerConnInfos

/-- One item of `update_foreign_network`; an item without key or value is passed over. -/
def updateForeignNetworkItem (nowMs : ℕ) (acc : Bool × SyncedRouteInfo)
    (item : ForeignNetworkInfo) : Bool × SyncedRouteInfo :=
  match item.key, item.value with
  | some key, some entry =>
    let isNew := match acc.2.foreignNetwork.get key with
      | none => true
      | some old => decide (old.version < entry.version)
    if isNew then
      (true, { acc.2 with
        foreignNetwork := acc.2.foreignNetwork.insert key { entry with lastUpdate := some nowMs } })
    else acc
  | _, _ => acc

def updateForeignNetwork (nowMs : ℕ) (infos : List ForeignNetworkInfo) : Bool × SyncedRouteInfo :=
  infos.foldl (updateForeignNetworkItem nowMs) (false, s)

end SyncedRouteInfo

end PactMesh
