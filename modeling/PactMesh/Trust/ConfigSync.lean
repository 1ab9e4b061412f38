import PactMesh.Trust.PoolApply

/-!
# Pulling network states from peers

Every 15 seconds a node asks its peers for the versions and digests of the resources it holds, fetches
what it lacks and offers it to its pool.  A larger version is always fetched; every 120 seconds, in a
full sync, so is an equal version with another digest.  The pool takes larger versions only.

The rate limit and the delivery of calls are a condition on the call; the cache of pending
certificates, the files and the parsing of ids are left out.

Main result: `config_sync_iff`.
-/

namespace PactMesh

open List Newest SignedNetworkState

structure SyncSuite extends StateSuite where
  stateToCbor : SignedNetworkState → List UInt8
  stateFromCbor : List UInt8 → Option SignedNetworkState
  metaToCbor : SignedTrustDomainMeta → List UInt8
  metaFromCbor : List UInt8 → Option SignedTrustDomainMeta

instance : Coe SyncSuite StateSuite := ⟨SyncSuite.toStateSuite⟩

inductive ConfigResourceSelector
  | networkState (td : TrustDomainId) (nlid : NetworkLocalId)
  | trustDomainMetaId (td : TrustDomainId)
deriving DecidableEq

structure ResourceVersion where
  selector : ConfigResourceSelector
  version : UInt64
  contentDigest : List UInt8

def shouldFetchByVersionAndDigest (held : Option (UInt64 × List UInt8)) (remoteVersion : UInt64)
    (remoteDigest : List UInt8) (forceFullSync : Bool) : Bool :=
  match held with
  | none => 0 < remoteVersion
  | some (localVersion, localDigest) =>
    if localVersion < remoteVersion then true
    else forceFullSync && remoteVersion == localVersion && remoteDigest != localDigest

variable (T : SyncSuite)

def SignedNetworkState.digest (state : SignedNetworkState) : List UInt8 :=
  (T.sha256 (T.stateToCbor state)).toList

def SignedTrustDomainMeta.digest (tdMeta : SignedTrustDomainMeta) : List UInt8 :=
  (T.sha256 (T.metaToCbor tdMeta)).toList

namespace TrustDomainPool

variable (pool : TrustDomainPool)

def trustDomainMeta (td : TrustDomainId) : Option SignedTrustDomainMeta :=
  (pool.domains td).bind (·.trustDomainMeta)

def versionAndDigest : ConfigResourceSelector → Option (UInt64 × List UInt8)
  | .networkState td nlid =>
    (pool.networkState td nlid).map fun state => (state.details.version, state.digest T)
  | .trustDomainMetaId td =>
    (pool.trustDomainMeta td).map fun tdMeta => (tdMeta.details.version, tdMeta.digest T)

/-- `query_one`, on the peer -/
def queryOne (selector : ConfigResourceSelector) : ResourceVersion :=
  let (version, digest) := (pool.versionAndDigest T selector).getD (0, [])
  ⟨selector, version, digest⟩

def shouldFetch (remote : ResourceVersion) (forceFullSync : Bool) : Bool :=
  shouldFetchByVersionAndDigest (pool.versionAndDigest T remote.selector) remote.version
    remote.contentDigest forceFullSync

end TrustDomainPool

inductive FetchError
  | callerMemberCertRequired
  | callerMemberCertDecodeFailed
  | callerMemberCertVerifyFailed (e : PoolVerifyError)
  | trustDomainMismatch
  | networkStateNotFound
  | trustDomainMetaNotFound
  /-- the call is lost, or over the rate limit -/
  | notServed
deriving DecidableEq

inductive ReceiveError
  | trustDomainMismatch
  | networkLocalIdMismatch
  | poolApply (e : PoolApplyError)
deriving DecidableEq

namespace TrustDomainPool

variable (pool : TrustDomainPool)

def verifyCallerMemberCert (callerMemberCertBytes : List UInt8) (expectedTd : TrustDomainId)
    (now : UInt64) : Except FetchError Unit :=
  if callerMemberCertBytes = [] then .error .callerMemberCertRequired
  else
    match T.certFromCbor callerMemberCertBytes with
    | none => .error .callerMemberCertDecodeFailed
    | some cert =>
      match pool.verifyMemberCert T cert now with
      | .error e => .error (.callerMemberCertVerifyFailed e)
      | .ok _ =>
        if cert.details.trustDomainId ≠ expectedTd then .error .trustDomainMismatch else .ok ()

/-- `fetch_config`, on the peer -/
def fetchConfig (callerMemberCertBytes : List UInt8) (now : UInt64) :
    ConfigResourceSelector → Except FetchError (List UInt8)
  | .networkState td nlid => do
    pool.verifyCallerMemberCert T callerMemberCertBytes td now
    match pool.networkState td nlid with
    | none => .error .networkStateNotFound
    | some state => .ok (T.stateToCbor state)
  | .trustDomainMetaId td => do
    pool.verifyCallerMemberCert T callerMemberCertBytes td now
    match pool.trustDomainMeta td with
    | none => .error .trustDomainMetaNotFound
    | some tdMeta => .ok (T.metaToCbor tdMeta)

def receiveNetworkState (td : TrustDomainId) (nlid : NetworkLocalId) (state : SignedNetworkState) :
    Except ReceiveError Unit × TrustDomainPool :=
  if state.details.trustDomainId ≠ td then (.error .trustDomainMismatch, pool)
  else if state.details.networkLocalId ≠ nlid then (.error .networkLocalIdMismatch, pool)
  else
    match pool.applyNetworkState T state with
    | (.error e, pool') => (.error (.poolApply e), pool')
    | (.ok (), pool') => (.ok (), pool')

def receiveTrustDomainMeta (td : TrustDomainId) (tdMeta : SignedTrustDomainMeta) :
    Except ReceiveError Unit × TrustDomainPool :=
  if tdMeta.details.trustDomainId ≠ td then (.error .trustDomainMismatch, pool)
  else
    match pool.applyTrustDomainMeta T tdMeta with
    | (.error e, pool') => (.error (.poolApply e), pool')
    | (.ok (), pool') => (.ok (), pool')

end TrustDomainPool

structure PullContext where
  forceFullSync : Bool
  /-- the clock of the peer -/
  now : UInt64
  /-- what the client shows; empty if it has no certificate -/
  callerMemberCertBytes : List UInt8
  /-- the call reaches the peer and is within the rate limit -/
  delivered : ConfigResourceSelector → Bool

inductive PullOutcome
  | notNeeded
  | fetchFailed (e : FetchError)
  | decodeFailed
  | received (result : Except ReceiveError Unit)

namespace TrustDomainPool

def fetch (server : TrustDomainPool) (ctx : PullContext) (selector : ConfigResourceSelector) :
    Except FetchError (List UInt8) :=
  if ctx.delivered selector then server.fetchConfig T ctx.callerMemberCertBytes ctx.now selector
  else .error .notServed

def fetchAndApply (client server : TrustDomainPool) (ctx : PullContext)
    (selector : ConfigResourceSelector) : PullOutcome × TrustDomainPool :=
  match server.fetch T ctx selector with
  | .error e => (.fetchFailed e, client)
  | .ok payloadCbor =>
    match selector with
    | .networkState td nlid =>
      match T.stateFromCbor payloadCbor with
      | none => (.decodeFailed, client)
      | some state =>
        let (result, client) := client.receiveNetworkState T td nlid state
        (.received result, client)
    | .trustDomainMetaId td =>
      match T.metaFromCbor payloadCbor with
      | none => (.decodeFailed, client)
      | some tdMeta =>
        let (result, client) := client.receiveTrustDomainMeta T td tdMeta
        (.received result, client)

/-- One resource in `sync_once`. -/
def pullOne (client server : TrustDomainPool) (ctx : PullContext)
    (selector : ConfigResourceSelector) : PullOutcome × TrustDomainPool :=
  if client.shouldFetch T (server.queryOne T selector) ctx.forceFullSync then
    client.fetchAndApply T server ctx selector
  else (.notNeeded, client)

/-- One peer in `sync_once`: the client goes through the resources it holds, and a failure does not
stop it. -/
def syncPeer (client server : TrustDomainPool) (ctx : PullContext)
    (selectors : List ConfigResourceSelector) : TrustDomainPool :=
  selectors.foldl (fun client selector => (client.pullOne T server ctx selector).2) client

/-! ### What a pull does to the state of a network -/

variable {T} {client server : TrustDomainPool} {ctx : PullContext}
  {selector : ConfigResourceSelector} {td : TrustDomainId} {nlid : NetworkLocalId}
  {rootPk : Bytes32} {held state : SignedNetworkState}

theorem snd_receiveNetworkState (h : state.details.trustDomainId = td)
    (h' : state.details.networkLocalId = nlid) :
    (client.receiveNetworkState T td nlid state).2 = (client.applyNetworkState T state).2 := by
  simp only [receiveNetworkState, h, h', ne_eq, not_true_eq_false, if_false]
  split <;> simp_all

theorem pullOne_cases (T : SyncSuite) (client server : TrustDomainPool) (ctx : PullContext)
    (selector : ConfigResourceSelector) :
    (client.pullOne T server ctx selector).2 = client ∨
    ∃ c, (client.pullOne T server ctx selector).2 = client.call T c ∧
      ∀ state, c = .applyNetworkState state →
        selector = .networkState state.details.trustDomainId state.details.networkLocalId := by
  unfold pullOne
  split_ifs
  · unfold fetchAndApply
    split
    · exact .inl rfl
    · cases selector with
      | networkState td nlid =>
        dsimp only
        split
        · exact .inl rfl
        · rename_i state _
          by_cases htd : state.details.trustDomainId = td
          · by_cases hnl : state.details.networkLocalId = nlid
            · refine .inr ⟨.applyNetworkState state, snd_receiveNetworkState htd hnl, ?_⟩
              rintro _ ⟨⟩
              rw [htd, hnl]
            · simp [receiveNetworkState, htd, hnl]
          · simp [receiveNetworkState, htd]
      | trustDomainMetaId td =>
        dsimp only
        split
        · exact .inl rfl
        · rename_i tdMeta _
          by_cases htd : tdMeta.details.trustDomainId = td
          · refine .inr ⟨.applyTrustDomainMeta tdMeta, ?_, nofun⟩
            simp only [receiveTrustDomainMeta, htd, ne_eq, not_true_eq_false, if_false, call]
            split <;> simp_all
          · simp [receiveTrustDomainMeta, htd]
  · exact .inl rfl

theorem pullOne_frame (T : SyncSuite) (server : TrustDomainPool) (ctx : PullContext)
    (selector : ConfigResourceSelector) (nlid : NetworkLocalId)
    (hroot : client.rootVerifyKey td = some rootPk) :
    (client.pullOne T server ctx selector).2.rootVerifyKey td = some rootPk ∧
      (selector ≠ .networkState td nlid →
        (client.pullOne T server ctx selector).2.networkState td nlid =
          client.networkState td nlid) := by
  obtain hsame | ⟨c, hcall, hsel⟩ := pullOne_cases T client server ctx selector
  · rw [hsame]
    exact ⟨hroot, fun _ => rfl⟩
  · obtain ⟨hroot', hcases⟩ := call_cases (T := T) hroot nlid c
    rw [hcall]
    refine ⟨hroot', fun hne => ?_⟩
    obtain hkeep | ⟨state, rfl, hval, -⟩ := hcases
    · exact hkeep
    · obtain ⟨htd, hnl, -⟩ := validFor_iff.1 hval
      exact absurd (by rw [hsel state rfl, htd, hnl]) hne

theorem shouldFetch_iff (T : SyncSuite) (force : Bool)
    (hheld : client.networkState td nlid = some held) :
    client.shouldFetch T ⟨.networkState td nlid, state.details.version, state.digest T⟩ force =
        true ↔ held.details.version < state.details.version ∨
        force = true ∧ state.details.version = held.details.version ∧
          state.digest T ≠ held.digest T := by
  by_cases hlt : held.details.version < state.details.version <;>
    simp [shouldFetch, versionAndDigest, hheld, shouldFetchByVersionAndDigest, hlt, and_assoc]

theorem shouldFetch_queryOne (T : SyncSuite) (force : Bool)
    (hheld : client.networkState td nlid = some held)
    (hstate : server.networkState td nlid = some state) (hlt : held.versionNat < state.versionNat) :
    client.shouldFetch T (server.queryOne T (.networkState td nlid)) force = true := by
  have hquery : server.queryOne T (.networkState td nlid) =
      ⟨.networkState td nlid, state.details.version, state.digest T⟩ := by
    simp [queryOne, versionAndDigest, hstate]
  rw [hquery, shouldFetch_iff T force hheld]
  exact .inl (UInt64.lt_iff_toNat_lt.2 hlt)

theorem payload_of_fetch {payload : List UInt8} (hstate : server.networkState td nlid = some state)
    (h : server.fetch T ctx (.networkState td nlid) = .ok payload) : payload = T.stateToCbor state := by
  unfold fetch at h
  split_ifs at h
  simp only [fetchConfig, hstate] at h
  cases hcaller : server.verifyCallerMemberCert T ctx.callerMemberCertBytes td ctx.now with
  | error e =>
    rw [hcaller] at h
    cases h
  | ok u =>
    rw [hcaller] at h
    exact (Except.ok.inj h).symm

variable (T server ctx) in
def Answers (client : TrustDomainPool) (td : TrustDomainId) (nlid : NetworkLocalId) : Prop :=
  client.shouldFetch T (server.queryOne T (.networkState td nlid)) ctx.forceFullSync = true →
    ∃ payload, server.fetch T ctx (.networkState td nlid) = .ok payload

section Pull

variable (hroot : client.rootVerifyKey td = some rootPk)
    (hheld : client.networkState td nlid = some held)
    (hstate : server.networkState td nlid = some state)
    (hvalid : state.validFor T td nlid rootPk = true)
    (hcbor : T.stateFromCbor (T.stateToCbor state) = some state)
    (hanswer : held.versionNat < state.versionNat →
      server.fetch T ctx (.networkState td nlid) = .ok (T.stateToCbor state))

include hroot hheld hstate hvalid hcbor hanswer

/-- **A pull of a network** offers the state of the peer to the register of the network. -/
theorem networkState_pullOne :
    (client.pullOne T server ctx (.networkState td nlid)).2.networkState td nlid =
      offer versionNat (some held) state := by
  obtain ⟨htd, hnl, -⟩ := validFor_iff.1 hvalid
  have hoffer : (client.applyNetworkState T state).2.networkState td nlid =
      offer versionNat (some held) state := by
    rw [networkState_applyNetworkState hroot, if_pos hvalid, hheld]
  unfold pullOne
  split_ifs with hfetch
  · unfold fetchAndApply
    cases hpayload : server.fetch T ctx (.networkState td nlid) with
    | error e =>
      -- the peer does not serve it: then it is not newer
      have hold : ¬ held.versionNat < state.versionNat := by
        intro hlt
        rw [hanswer hlt] at hpayload
        cases hpayload
      rw [offer, if_neg hold]
      exact hheld
    | ok payload =>
      obtain rfl := payload_of_fetch hstate hpayload
      simp only [hcbor, snd_receiveNetworkState htd hnl, hoffer]
  · have hold : ¬ held.versionNat < state.versionNat := by
      intro hlt
      exact hfetch (shouldFetch_queryOne T _ hheld hstate hlt)
    rw [offer, if_neg hold]
    exact hheld

/-- **A pull of several resources**, among them the network or not. -/
theorem networkState_syncPeer (selectors : List ConfigResourceSelector) :
    (client.syncPeer T server ctx selectors).rootVerifyKey td = some rootPk ∧
      (client.syncPeer T server ctx selectors).networkState td nlid =
        if .networkState td nlid ∈ selectors then
          offer versionNat (some held) state
        else some held := by
  induction selectors generalizing client held with
  | nil => exact ⟨hroot, hheld⟩
  | cons selector selectors ih =>
    obtain ⟨hroot', hframe⟩ := pullOne_frame T server ctx selector nlid hroot
    by_cases hsel : selector = .networkState td nlid
    · subst hsel
      obtain ⟨new, hnew, hle, hagain⟩ :=
        exists_offer_eq versionNat held state
      have hpull := networkState_pullOne hroot hheld hstate hvalid hcbor hanswer
      obtain ⟨hr, hn⟩ := ih hroot' (hpull.trans hnew) fun hlt => absurd hle hlt.not_ge
      refine ⟨hr, hn.trans ?_⟩
      rw [hagain, ite_self, if_pos mem_cons_self, hnew]
    · obtain ⟨hr, hn⟩ := ih hroot' ((hframe hsel).trans hheld) hanswer
      refine ⟨hr, hn.trans ?_⟩
      simp [mem_cons, Ne.symm hsel]

end Pull

theorem fetch_of_answers (hheld : client.networkState td nlid = some held)
    (hstate : server.networkState td nlid = some state) (h : server.Answers T ctx client td nlid)
    (hlt : held.versionNat < state.versionNat) :
    server.fetch T ctx (.networkState td nlid) = .ok (T.stateToCbor state) := by
  obtain ⟨payload, hpayload⟩ := h (shouldFetch_queryOne T _ hheld hstate hlt)
  rw [hpayload, payload_of_fetch hstate hpayload]

theorem applyNetworkState_eq_ok_iff {T : StateSuite} (hroot : client.rootVerifyKey td = some rootPk)
    (hvalid : state.validFor T td nlid rootPk = true) :
    (client.applyNetworkState T state).1 = .ok () ↔
      ∀ held, client.networkState td nlid = some held → held.versionNat < state.versionNat := by
  obtain ⟨rfl, rfl, hver⟩ := validFor_iff.1 hvalid
  obtain ⟨entry, hentry, rfl⟩ := Option.map_eq_some_iff.1 hroot
  have hnet : client.networkState state.details.trustDomainId state.details.networkLocalId =
      entry.networks state.details.networkLocalId := by
    simp [networkState, hentry]
  rw [hnet]
  obtain ⟨e, he, hold⟩ | ⟨entry', hentry', -, hnew, hok⟩ := applyNetworkState_cases T client state
  · rw [he]
    obtain ⟨existing, hex, hle⟩ := hold entry hentry hver
    exact ⟨fun h => (by cases h), fun h => absurd (h existing hex) hle.not_gt⟩
  · cases Option.some.inj (hentry.symm.trans hentry')
    rw [hok]
    exact ⟨fun _ => hnew, fun _ => rfl⟩

end TrustDomainPool

def Fork (held state : SignedNetworkState) : Prop :=
  state.details.version = held.details.version ∧ state.digest T ≠ held.digest T

open TrustDomainPool

/-- Two nodes of one network that pull once from each other.  Their states come back from CBOR
unchanged; the second pull may see the first node before or after its own. -/
structure Exchange where
  td : TrustDomainId
  nlid : NetworkLocalId
  rootPk : Bytes32
  a : TrustDomainPool
  b : TrustDomainPool
  stateA : SignedNetworkState
  stateB : SignedNetworkState
  rootA : a.rootVerifyKey td = some rootPk
  rootB : b.rootVerifyKey td = some rootPk
  heldA : a.networkState td nlid = some stateA
  heldB : b.networkState td nlid = some stateB
  validA : stateA.validFor T td nlid rootPk = true
  validB : stateB.validFor T td nlid rootPk = true
  cborA : T.stateFromCbor (T.stateToCbor stateA) = some stateA
  cborB : T.stateFromCbor (T.stateToCbor stateB) = some stateB
  ctxA : PullContext
  ctxB : PullContext
  selectorsA : List ConfigResourceSelector
  selectorsB : List ConfigResourceSelector
  memA : .networkState td nlid ∈ selectorsA
  memB : .networkState td nlid ∈ selectorsB
  overlapping : Bool
  answersA : b.Answers T ctxA a td nlid
  answersB : (if overlapping then a else a.syncPeer T b ctxA selectorsA).Answers T ctxB b td nlid

namespace Exchange

variable {T} (x : Exchange T)

def a' : TrustDomainPool := x.a.syncPeer T x.b x.ctxA x.selectorsA

def b' : TrustDomainPool := x.b.syncPeer T (if x.overlapping then x.a else x.a') x.ctxB x.selectorsB

def SameState : Prop :=
  ∃ s s', x.a'.networkState x.td x.nlid = some s ∧ x.b'.networkState x.td x.nlid = some s' ∧
    s.details.version = s'.details.version ∧ s.digest T = s'.digest T

theorem networkState_a' : x.a'.networkState x.td x.nlid =
    offer versionNat (some x.stateA) x.stateB := by
  have hsync := networkState_syncPeer x.rootA x.heldA x.heldB x.validB x.cborB
    (fetch_of_answers x.heldA x.heldB x.answersA) x.selectorsA
  rw [a', hsync.2, if_pos x.memA]

theorem networkState_b'_of_held {state : SignedNetworkState}
    (hserver : (if x.overlapping then x.a else x.a').networkState x.td x.nlid = some state)
    (hvalid : state.validFor T x.td x.nlid x.rootPk = true)
    (hcbor : T.stateFromCbor (T.stateToCbor state) = some state) :
    x.b'.networkState x.td x.nlid = offer versionNat (some x.stateB) state := by
  have hsync := networkState_syncPeer x.rootB x.heldB hserver hvalid hcbor
    (fetch_of_answers x.heldB hserver x.answersB) x.selectorsB
  rw [b', hsync.2, if_pos x.memB]

theorem networkState_b' : x.b'.networkState x.td x.nlid =
    offer versionNat (some x.stateB) x.stateA := by
  by_cases hover : x.overlapping = true
  · exact x.networkState_b'_of_held (by rw [if_pos hover]; exact x.heldA) x.validA x.cborA
  · have hserver := x.networkState_a'
    rw [offer] at hserver
    split_ifs at hserver with hlt
    · -- the first node has taken the state of the second one
      rw [x.networkState_b'_of_held (by rw [if_neg hover]; exact hserver) x.validB x.cborB,
        offer, offer, if_neg (lt_irrefl _), if_neg hlt.not_gt]
    · exact x.networkState_b'_of_held (by rw [if_neg hover]; exact hserver) x.validA x.cborA

theorem sameState_iff : x.SameState ↔ ¬ Fork T x.stateA x.stateB := by
  unfold SameState
  rw [networkState_a', networkState_b', offer, offer]
  by_cases hver : x.stateB.details.version = x.stateA.details.version
  · have heq : x.stateB.versionNat = x.stateA.versionNat := congrArg UInt64.toNat hver
    rw [if_neg heq.not_gt, if_neg heq.not_lt]
    constructor
    · rintro ⟨_, _, ⟨⟩, ⟨⟩, -, hdigest⟩ hfork
      exact hfork.2 hdigest.symm
    · intro hfork
      refine ⟨_, _, rfl, rfl, hver.symm, ?_⟩
      by_contra hne
      exact hfork ⟨hver, fun h => hne h.symm⟩
  · -- both end with the newer state
    have hne : x.stateB.versionNat ≠ x.stateA.versionNat := fun h => hver (UInt64.toNat_inj.1 h)
    refine iff_of_true ?_ fun hfork => hver hfork.1
    obtain hlt | hgt := lt_or_gt_of_ne hne
    · rw [if_neg hlt.not_gt, if_pos hlt]
      exact ⟨_, _, rfl, rfl, rfl, rfl⟩
    · rw [if_pos hgt, if_neg hgt.not_gt]
      exact ⟨_, _, rfl, rfl, rfl, rfl⟩

end Exchange

/-- **Sync and forks.**  A valid state that a node decides to fetch is taken by its pool, in every
kind of sync, exactly if it is no fork of the state the node holds; and two nodes that pull once
from each other hold the same version and digest exactly if their states are no fork. -/
theorem config_sync_iff (T : SyncSuite) :
    (∀ (pool : TrustDomainPool) (state : SignedNetworkState) (td : TrustDomainId)
        (nlid : NetworkLocalId) (rootPk : Bytes32), pool.rootVerifyKey td = some rootPk →
        state.validFor T td nlid rootPk = true → ((∀ force, pool.shouldFetch T
            ⟨.networkState td nlid, state.details.version, state.digest T⟩ force = true →
          (pool.applyNetworkState T state).1 = .ok ()) ↔
        ∀ held, pool.networkState td nlid = some held → ¬ Fork T held state)) ∧
    ∀ x : Exchange T, x.SameState ↔ ¬ Fork T x.stateA x.stateB := by
  refine ⟨?_, Exchange.sameState_iff⟩
  intro pool state td nlid rootPk hroot hvalid
  rw [applyNetworkState_eq_ok_iff hroot hvalid]
  cases hheld : pool.networkState td nlid with
  | none => exact ⟨fun _ => nofun, fun _ _ _ => nofun⟩
  | some held =>
    simp only [shouldFetch_iff T _ hheld, Option.some.injEq, forall_eq']
    constructor
    · intro h hfork
      have hlt := h true (.inr ⟨rfl, hfork⟩)
      exact hlt.ne (congrArg UInt64.toNat hfork.1.symm)
    · rintro hfork force (hlt | ⟨-, hforked⟩)
      · exact UInt64.lt_iff_toNat_lt.1 hlt
      · exact absurd hforked hfork

/-- The CBOR of a state is its version and its policy; three states and the certificate of the
device `[3, 3, …]` can be read back. -/
def sampleSyncSuite : SyncSuite where
  toStateSuite :=
    { sampleStateSuite with certFromCbor := fun _ => some (sampleCert (all32 3)) }
  stateToCbor state := Endian.leBytes 8 state.details.version.toNat ++ state.details.payload.acl
  stateFromCbor bytes := [sampleState [1], sampleState [2], sampleStateAt 2].find? fun state =>
    Endian.leBytes 8 state.details.version.toNat ++ state.details.payload.acl == bytes
  metaToCbor _ := []
  metaFromCbor _ := none

def sampleFullSync : PullContext := ⟨true, 5, [1], fun _ => true⟩

/-- Two nodes hold states of version 1 with different policies.  In a full sync each fetches the
state of the other and refuses it. -/
theorem fork_stays :
    let office := ConfigResourceSelector.networkState ⟨all32 9⟩ ⟨"office"⟩
    let a' := (samplePool [1]).syncPeer sampleSyncSuite (samplePool [2]) sampleFullSync [office]
    let b' := (samplePool [2]).syncPeer sampleSyncSuite a' sampleFullSync [office]
    (samplePool [1]).shouldFetch sampleSyncSuite ((samplePool [2]).queryOne sampleSyncSuite office)
        true = true ∧ ((samplePool [1]).applyNetworkState sampleSyncSuite (sampleState [2])).1 =
        .error (.staleVersion 1 1) ∧ a'.networkState ⟨all32 9⟩ ⟨"office"⟩ = some (sampleState [1]) ∧
      b'.networkState ⟨all32 9⟩ ⟨"office"⟩ = some (sampleState [2]) ∧
      (sampleState [1]).digest sampleSyncSuite ≠ (sampleState [2]).digest sampleSyncSuite := by
  decide +kernel

def sampleExchange : Exchange sampleSyncSuite where
  td := ⟨all32 9⟩
  nlid := ⟨"office"⟩
  rootPk := all32 9
  a := samplePool [1]
  b := (sampleRootPool.applyNetworkState sampleStateSuite (sampleStateAt 2)).2
  stateA := sampleState [1]
  stateB := sampleStateAt 2
  rootA := by decide +kernel
  rootB := by decide +kernel
  heldA := by decide +kernel
  heldB := by decide +kernel
  validA := by decide +kernel
  validB := by decide +kernel
  cborA := by decide +kernel
  cborB := by decide +kernel
  ctxA := sampleFullSync
  ctxB := sampleFullSync
  selectorsA := [.networkState ⟨all32 9⟩ ⟨"office"⟩]
  selectorsB := [.networkState ⟨all32 9⟩ ⟨"office"⟩]
  memA := mem_singleton_self _
  memB := mem_singleton_self _
  overlapping := false
  answersA _ := ⟨sampleSyncSuite.stateToCbor (sampleStateAt 2), by decide +kernel⟩
  answersB _ := ⟨sampleSyncSuite.stateToCbor (sampleStateAt 2), by decide +kernel⟩

theorem newer_state_spreads : sampleExchange.SameState ∧
    ((samplePool [1]).applyNetworkState sampleSyncSuite (sampleStateAt 2)).1 = .ok () := by
  obtain ⟨htaken, hsame⟩ := config_sync_iff sampleSyncSuite
  refine ⟨(hsame sampleExchange).2 fun hfork => absurd hfork.1 (by decide +kernel), ?_⟩
  refine (htaken (samplePool [1]) (sampleStateAt 2) ⟨all32 9⟩ ⟨"office"⟩
    (all32 9) (by decide +kernel) (by decide +kernel)).2 ?_ false (by decide +kernel)
  intro held hheld hfork
  have heq : sampleState [1] = held :=
    Option.some.inj ((by decide +kernel : _ = some (sampleState [1])).symm.trans hheld)
  rw [← heq] at hfork
  exact absurd hfork.1 (by decide +kernel)

end PactMesh
