import PactMesh.Peers.Handshake
import PactMesh.Peers.RouteInfo

/-!
# Route synchronisation requests

`syncRouteInfo` extracts the raw descriptions from the bytes of a request, looks up what the sender
is, filters the request of a credential peer, merges what is left, and refreshes the trust in
credentials.  The sender is who the request says it is (`my_peer_id`), and a sender the node is not
connected to counts as an administrator.
-/

namespace PactMesh

open SyncedRouteInfo Outcome

structure SyncRouteSession where
  dstSavedPeerInfoVersions : OrderedMap PeerId Version
  dstSavedConnInfoVersion : OrderedMap PeerId Version
  dstSavedForeignNetworkVersions : OrderedMap ForeignNetworkRouteInfoKey Version
  unreachablePeersForPeerInfo : OrderedMap PeerId Version
  unreachablePeersForConnInfo : OrderedMap PeerId Version
  lastSyncSuccTimestamp : Option ℕ
  mySessionId : UInt64
  dstSessionId : UInt64
  weAreInitiator : Bool
  dstIsInitiator : Bool
  rpcRxCount : UInt32
deriving DecidableEq

/-- `entry(key).or_default().set_if_larger(version)` -/
def setIfLarger {κ : Type} [DecidableEq κ] (m : OrderedMap κ Version) (key : κ) (version : Version) :
    OrderedMap κ Version := m.insert key (max ((m.get key).getD 0) version)

namespace SyncRouteSession

def new (mySessionId : UInt64) : SyncRouteSession where
  dstSavedPeerInfoVersions := .empty
  dstSavedConnInfoVersion := .empty
  dstSavedForeignNetworkVersions := .empty
  unreachablePeersForPeerInfo := .empty
  unreachablePeersForConnInfo := .empty
  lastSyncSuccTimestamp := none
  mySessionId := mySessionId
  dstSessionId := 0
  weAreInitiator := false
  dstIsInitiator := false
  rpcRxCount := 0

variable (session : SyncRouteSession)

def updateDstSessionId (sessionId : UInt64) : SyncRouteSession :=
  if sessionId = session.dstSessionId then session
  else
    { session with
      dstSessionId := sessionId
      dstSavedConnInfoVersion := .empty
      dstSavedPeerInfoVersions := .empty
      lastSyncSuccTimestamp := none
      unreachablePeersForPeerInfo := .empty
      unreachablePeersForConnInfo := .empty }

def updateDstSavedPeerInfoVersion (infos : List RoutePeerInfo) (dstPeerId : PeerId) :
    SyncRouteSession :=
  { session with
    dstSavedPeerInfoVersions := infos.foldl
      (fun m info => if info.peerId = dstPeerId then m else setIfLarger m info.peerId info.version)
      session.dstSavedPeerInfoVersions }

def announcedConns : ConnInfo → List PeerIdVersion
  | .connBitmap bitmap => bitmap.peerIds
  | .connPeerList peerConnInfos => peerConnInfos.filterMap (·.peerId)

def updateDstSavedConnInfoVersion (connInfo : ConnInfo) (dstPeerId : PeerId) : SyncRouteSession :=
  { session with
    dstSavedConnInfoVersion := (announcedConns connInfo).foldl
      (fun m p => if p.peerId = dstPeerId then m else setIfLarger m p.peerId p.version)
      session.dstSavedConnInfoVersion }

/-- The loop of `update_dst_saved_foreign_network_version`; it unwraps key and value. -/
def savedForeignVersions (dstPeerId : PeerId) :
    List ForeignNetworkInfo → OrderedMap ForeignNetworkRouteInfoKey Version →
      Outcome (OrderedMap ForeignNetworkRouteInfoKey Version)
  | [], m => return m
  | item :: items, m => do
    let key ← unwrap item.key
    if key.peerId = dstPeerId then savedForeignVersions dstPeerId items m
    else
      let value ← unwrap item.value
      savedForeignVersions dstPeerId items (setIfLarger m key value.version)

def updateDstSavedForeignNetworkVersion (infos : List ForeignNetworkInfo) (dstPeerId : PeerId) :
    Outcome SyncRouteSession := do
  let versions ← savedForeignVersions dstPeerId infos session.dstSavedForeignNetworkVersions
  return { session with dstSavedForeignNetworkVersions := versions }

end SyncRouteSession

structure SyncRouteInfoRequest where
  myPeerId : PeerId
  mySessionId : UInt64
  isInitiator : Bool
  peerInfos : Option (List RoutePeerInfo)
  connInfo : Option ConnInfo
  foreignNetworkInfos : Option (List ForeignNetworkInfo)
deriving DecidableEq

structure SyncRouteInfoResponse where
  isInitiator : Bool
  sessionId : UInt64
  error : Option SyncRouteInfoError
deriving DecidableEq

/-- The decoders for requests: into the generated type, and into a dynamic message of which only the
items of `peer_infos` are used. -/
structure RouteCodec where
  decode : List UInt8 → Option SyncRouteInfoRequest
  decodeDynamic : List UInt8 → Option (List RawPeerInfo)

def RouteCodec.Agrees (codec : RouteCodec) : Prop :=
  ∀ bytes req, codec.decode bytes = some req →
    ∃ raws, codec.decodeDynamic bytes = some raws ∧ raws.map (·.known) = req.peerInfos.getD []

structure RouteEnv where
  /-- the snapshot of the peers the node is connected to, with their identity types -/
  snapshotIdentityTypes : PeerId → Option (Option PeerIdentityType)
  getPeerIdentityType : PeerId → Option PeerIdentityType
  getPeerPublicKey : PeerId → Option (List UInt8)
  /-- whether the route table built from the table reaches a peer -/
  peerReachable : SyncedRouteInfo → PeerId → Bool
  aclGroupDeclarations : List GroupIdentity
  verifyGroup : PeerGroupInfo → String → PeerId → Bool
  parseCidr : String → Option IpNet
  nowMs : ℕ
  /-- the random id of a session that is created -/
  freshSessionId : UInt64

def RouteEnv.getPeerIdentityTypeFromInterface (env : RouteEnv) (peerId : PeerId) :
    Option PeerIdentityType :=
  match env.snapshotIdentityTypes peerId with
  | some identityType => identityType
  | none => env.getPeerIdentityType peerId

structure RouteService where
  myPeerId : PeerId
  myPeerRouteId : UInt64
  synced : SyncedRouteInfo
  sessions : OrderedMap PeerId SyncRouteSession
  /-- the keys handed over to the node's context -/
  trustedKeys : OrderedMap (List UInt8) TrustedKeyMetadata
deriving DecidableEq

structure SyncEffects where
  /-- the peers that are disconnected -/
  disconnected : List PeerId
  /-- whether the node starts to synchronise with its own peers -/
  syncNow : Bool
deriving DecidableEq

def restrictToCredential (parse : String → Option IpNet) (credential : TrustedCredentialPubkey)
    (info : RoutePeerInfo) : RoutePeerInfo :=
  let allowed := credential.allowedProxyCidrs
  let proxyCidrs := if !allowed.isEmpty then
      info.proxyCidrs.filter fun cidr => allowed.any (cidrIsSubsetStr parse cidr)
    else []
  markCredentialPeer { info with proxyCidrs := proxyCidrs } true

/-- `extract_credential_peer_info`: the sender's own description, restricted to its credential. -/
def extractCredentialPeerInfo (parse : String → Option IpNet) (fromPeerId : PeerId)
    (peerInfos : List RoutePeerInfo) (rawPeerInfos : List RawPeerInfo)
    (credential : TrustedCredentialPubkey) : Outcome (Option (RoutePeerInfo × RawPeerInfo)) :=
  match peerInfos.findIdx? (·.peerId == fromPeerId) with
  | none => return none
  | some infoIdx => do
    let info ← index peerInfos infoIdx
    let rawInfo ← index rawPeerInfos infoIdx
    let info := restrictToCredential parse credential info
    return some (info, patchRawFromInfo rawInfo info)

def RouteEnv.isCredential (env : RouteEnv) (fromPeerId : PeerId) : Bool :=
  (env.getPeerIdentityTypeFromInterface fromPeerId).getD .admin == .credential

namespace RouteService

variable (env : RouteEnv) (svc : RouteService)

/-- `get_or_start_session`, without the task -/
def getOrStartSession (peerId : PeerId) : SyncRouteSession :=
  (svc.sessions.get peerId).getD (.new env.freshSessionId)

def credentialInfo (peerId : PeerId) : Option TrustedCredentialPubkey :=
  (env.getPeerPublicKey peerId).bind svc.synced.getCredentialInfoByPubkey

def isActiveNonReusableCredentialPeer (peerId : PeerId) : Bool :=
  peerId == svc.myPeerId || svc.sessions.contains peerId || env.peerReachable svc.synced peerId

structure Sender where
  peerId : PeerId
  credential : Option TrustedCredentialPubkey
deriving DecidableEq

/-- The sender of a request by the id in the request: `none` if it should have a credential and has
none. -/
def senderOf (peerId : PeerId) : Option Sender :=
  if env.isCredential peerId then
    (svc.credentialInfo env peerId).map fun credential => ⟨peerId, some credential⟩
  else some ⟨peerId, none⟩

def acceptedPeerInfos (sender : Sender) (peerInfos : List RoutePeerInfo)
    (rawPeerInfos : Option (List RawPeerInfo)) : Outcome (List RoutePeerInfo × List RawPeerInfo) := do
  let raws ← unwrap rawPeerInfos
  match sender.credential with
  | none => return (peerInfos, raws)
  | some credential =>
    match ← extractCredentialPeerInfo env.parseCidr sender.peerId peerInfos raws credential with
    | some ret => return ([ret.1], [ret.2])
    | none => return ([], [])

structure Working where
  synced : SyncedRouteInfo
  session : SyncRouteSession
deriving DecidableEq

def receivePeerInfos (sender : Sender) (peerInfos : Option (List RoutePeerInfo))
    (rawPeerInfos : Option (List RawPeerInfo)) (w : Working) :
    Outcome (Except SyncRouteInfoError Bool × Working) :=
  match peerInfos with
  | none => return (.ok false, w)
  | some peerInfos => do
    let (pi, rpi) ← acceptedPeerInfos env sender peerInfos rawPeerInfos
    if pi.isEmpty then return (.ok false, w)
    else
      let (result, synced) ← w.synced.updatePeerInfos env.nowMs svc.myPeerId svc.myPeerRouteId
        sender.peerId pi rpi
      match result with
      | .error e => return (.error e, { w with synced := synced })
      | .ok () =>
        return (.ok true,
          { synced := synced.verifyAndUpdateGroupTrusts env.verifyGroup pi env.aclGroupDeclarations
              true
            session := w.session.updateDstSavedPeerInfoVersion pi sender.peerId })

def receiveConnInfo (sender : Sender) (connInfo : Option ConnInfo) (w : Working) :
    Outcome (Bool × Working) :=
  match connInfo with
  | none => return (false, w)
  | some connInfo =>
    if sender.credential.all (·.allowRelay) then do
      let synced ← w.synced.updateConnInfo env.nowMs connInfo
      return (true,
        { synced := synced
          session := w.session.updateDstSavedConnInfoVersion connInfo sender.peerId })
    else return (false, w)

def receiveForeignNetwork (sender : Sender) (infos : Option (List ForeignNetworkInfo))
    (w : Working) : Outcome (Bool × Working) :=
  match infos with
  | none => return (false, w)
  | some infos =>
    if sender.credential.isSome then return (false, w)
    else do
      let updated := w.synced.updateForeignNetwork env.nowMs infos
      let session ← w.session.updateDstSavedForeignNetworkVersion infos sender.peerId
      return (updated.1, ⟨updated.2, session⟩)

/-- `refresh_credential_trusts_with_current_topology`: the peers that are not trusted any more, and
the service afterwards. -/
def refreshCredentialTrustsWithCurrentTopology : List PeerId × RouteService :=
  let (untrusted, trustedKeys, synced) :=
    svc.synced.verifyAndUpdateCredentialTrustsWithActivePeers (env.nowMs / 1000 : ℕ)
      (svc.isActiveNonReusableCredentialPeer env)
  (untrusted, { svc with synced := synced, trustedKeys := trustedKeys })

def store (peerId : PeerId) (w : Working) : RouteService :=
  { svc with synced := w.synced, sessions := svc.sessions.insert peerId w.session }

/-- The rest of `do_sync_route_info`, after the descriptions and connections. -/
def finishSync (sender : Sender) (req : SyncRouteInfoRequest) (needUpdateRouteTable : Bool)
    (w : Working) : Outcome ((SyncRouteInfoResponse × SyncEffects) × RouteService) := do
  let (untrusted, svc) := if needUpdateRouteTable then
      (svc.store sender.peerId w).refreshCredentialTrustsWithCurrentTopology env
    else ([], svc.store sender.peerId w)
  let (changed, w) ← receiveForeignNetwork env sender req.foreignNetworkInfos
    ⟨svc.synced, w.session⟩
  let session := { w.session with dstIsInitiator := req.isInitiator }
  return ((⟨session.weAreInitiator, session.mySessionId, none⟩,
    ⟨untrusted, needUpdateRouteTable || changed⟩), svc.store sender.peerId { w with session := session })

def openSession (peerId : PeerId) (sessionId : UInt64) : SyncRouteSession :=
  let session := svc.getOrStartSession env peerId
  { session with rpcRxCount := session.rpcRxCount + 1 }.updateDstSessionId sessionId

/-- `do_sync_route_info` once the sender is known. -/
def syncFrom (sender : Sender) (req : SyncRouteInfoRequest)
    (rawPeerInfos : Option (List RawPeerInfo)) :
    Outcome (Except SyncRouteInfoError (SyncRouteInfoResponse × SyncEffects) × RouteService) := do
  let (result, w) ← svc.receivePeerInfos env sender req.peerInfos rawPeerInfos
    ⟨svc.synced, svc.openSession env sender.peerId req.mySessionId⟩
  match result with
  | .error e => return (.error e, svc.store sender.peerId w)
  | .ok infosReceived =>
    let (connsReceived, w) ← receiveConnInfo env sender req.connInfo w
    let (response, svc) ← svc.finishSync env sender req (infosReceived || connsReceived) w
    return (.ok response, svc)

def doSyncRouteInfo (req : SyncRouteInfoRequest) (rawPeerInfos : Option (List RawPeerInfo)) :
    Outcome (Except SyncRouteInfoError (SyncRouteInfoResponse × SyncEffects) × RouteService) :=
  match svc.senderOf env req.myPeerId with
  | none =>
    -- no credential found; the session has been started all the same
    return (.error .stopped, { svc with
      sessions := svc.sessions.insert req.myPeerId (svc.getOrStartSession env req.myPeerId) })
  | some sender => svc.syncFrom env sender req rawPeerInfos

/-- `get_raw_peer_infos`; bytes that do not decode make it panic. -/
def getRawPeerInfos (codec : RouteCodec) (rawInput : List UInt8) : Outcome (List RawPeerInfo) :=
  unwrap (codec.decodeDynamic rawInput)

def extractRawPeerInfos (codec : RouteCodec) (rawInput : List UInt8) :
    Option (List RoutePeerInfo) → Outcome (Option (List RawPeerInfo))
  | none => return none
  | some peerInfos => do
    let raws ← getRawPeerInfos codec rawInput
    ensure (raws.length == peerInfos.length) .assertionFailed
    return some raws

/-- `sync_route_info`: the raw descriptions are extracted from the bytes of the request. -/
def syncRouteInfo (codec : RouteCodec) (rawInput : List UInt8) (req : SyncRouteInfoRequest) :
    Outcome (SyncRouteInfoResponse × SyncEffects × RouteService) := do
  let rawPeerInfos ← extractRawPeerInfos codec rawInput req.peerInfos
  let (result, svc) ← svc.doSyncRouteInfo env req rawPeerInfos
  match result with
  | .ok (response, effects) => return (response, effects, svc)
  | .error e => return (⟨false, 0, some e⟩, ⟨[], false⟩, svc)

/-- The bytes of a request: `none` if they are no request. -/
def receive (codec : RouteCodec) (rawInput : List UInt8) :
    Outcome (Option (SyncRouteInfoResponse × SyncEffects) × RouteService) :=
  match codec.decode rawInput with
  | none => return (none, svc)
  | some req => do
    let (response, effects, svc) ← svc.syncRouteInfo env codec rawInput req
    return (some (response, effects), svc)

end RouteService

end PactMesh
