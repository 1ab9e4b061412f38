import PactMesh.Lib.FileReplace
import PactMesh.Lib.Trans
import PactMesh.Trust.ConfigSync

/-!
# Receiving signed updates

A node that is sent a network state, or the metadata of a trust domain, offers it to its pool and
then writes it to the directory of the trust domain: to a temporary file that is renamed.  A step of
the file system that fails leaves the pool with an object that the caller is told was not taken, and
that the version guard refuses when the caller tries again.

Main result: `receive_atomic_iff`.
-/

namespace PactMesh

open FileReplace TrustDomainPool

abbrev Path := List String

structure ReceiverSuite extends SyncSuite where
  base64Encode : List UInt8 → List Char

instance : Coe ReceiverSuite SyncSuite := ⟨ReceiverSuite.toSyncSuite⟩

def armorLineLen : ℕ := 64

def wrapArmored (T : ReceiverSuite) (label : String) (payload : List UInt8) : String :=
  let encoded := T.base64Encode payload
  "-----BEGIN " ++ label ++ "-----" ++ "\n" ++
    String.join ((encoded.toChunks armorLineLen).map fun chunk => String.ofList chunk ++ "\n") ++
    "-----END " ++ label ++ "-----" ++ "\n"

def networkStatePath (domainDir : Path) (nlid : NetworkLocalId) : Path :=
  domainDir ++ ["networks", nlid.val, "network_state.cbor.pem"]

def trustDomainMetaPath (domainDir : Path) : Path := domainDir ++ ["trust_domain_meta.pem"]

namespace ConfigResourceSelector

def td : ConfigResourceSelector → TrustDomainId
  | .networkState td _ => td
  | .trustDomainMetaId td => td

def path (domainDir : Path) : ConfigResourceSelector → Path
  | .networkState _ nlid => networkStatePath domainDir nlid
  | .trustDomainMetaId _ => trustDomainMetaPath domainDir

/-- The temporary file: `with_extension` replaces what follows the last dot. -/
def tmpPath (domainDir : Path) : ConfigResourceSelector → Path
  | .networkState _ nlid =>
    domainDir ++ ["networks", nlid.val, "network_state.cbor.cbor.pem.tmp"]
  | .trustDomainMetaId _ => domainDir ++ ["trust_domain_meta.pem.tmp"]

end ConfigResourceSelector

inductive SignedObject
  | networkState (state : SignedNetworkState)
  | trustDomainMeta (tdMeta : SignedTrustDomainMeta)
deriving DecidableEq

namespace SignedObject

def selector : SignedObject → ConfigResourceSelector
  | networkState state => .networkState state.details.trustDomainId state.details.networkLocalId
  | trustDomainMeta tdMeta => .trustDomainMetaId tdMeta.details.trustDomainId

def version : SignedObject → UInt64
  | networkState state => state.details.version
  | trustDomainMeta tdMeta => tdMeta.details.version

def verify (T : StateSuite) (rootPk : Bytes32) : SignedObject → Bool
  | networkState state => (state.verify T rootPk).isOk
  | trustDomainMeta tdMeta => (tdMeta.verify T rootPk).isOk

def toPem (T : ReceiverSuite) : SignedObject → String
  | networkState state => wrapArmored T "PNW-NETWORK-STATE" (T.stateToCbor state)
  | trustDomainMeta tdMeta => wrapArmored T "PNW-TRUST-DOMAIN-META" (T.metaToCbor tdMeta)

end SignedObject

namespace TrustDomainPool

def held (pool : TrustDomainPool) : ConfigResourceSelector → Option SignedObject
  | .networkState td nlid => (pool.networkState td nlid).map .networkState
  | .trustDomainMetaId td => (pool.trustDomainMeta td).map .trustDomainMeta

/-- `apply_network_state` or `apply_trust_domain_meta` -/
def offer (T : StateSuite) (pool : TrustDomainPool) :
    SignedObject → Except PoolApplyError Unit × TrustDomainPool
  | .networkState state => pool.applyNetworkState T state
  | .trustDomainMeta tdMeta => pool.applyTrustDomainMeta T tdMeta

def Accepts (T : StateSuite) (pool : TrustDomainPool) (object : SignedObject) : Prop :=
  (∃ rootPk, pool.rootVerifyKey object.selector.td = some rootPk ∧ object.verify T rootPk = true) ∧
  ∀ existing, pool.held object.selector = some existing → existing.version < object.version

end TrustDomainPool

inductive SignedReceiveError
  | trustDomainMismatch
  | networkLocalIdMismatch
  | poolApply (e : PoolApplyError)
  | file (e : FileError)
deriving DecidableEq

structure ReceiveReport where
  source : String
  selector : ConfigResourceSelector
  oldVersion : Option UInt64
  newVersion : UInt64
  persistedPath : Option Path
deriving DecidableEq

structure TrustStore where
  pool : TrustDomainPool
  disk : Path → Option String

structure ReceiveContext where
  persistDomainDir : Option Path
  source : String
  files : FileOutcome String

namespace TrustStore

variable (T : ReceiverSuite) (store : TrustStore)

def receiveSigned (object : SignedObject) (ctx : ReceiveContext) :
    Except SignedReceiveError ReceiveReport × TrustStore :=
  let oldVersion := (store.pool.held object.selector).map (·.version)
  let report := ReceiveReport.mk ctx.source object.selector oldVersion object.version
  match store.pool.offer T object with
  | (.error e, pool) => (.error (.poolApply e), { store with pool := pool })
  | (.ok (), pool) =>
    match ctx.persistDomainDir with
    | none => (.ok (report none), { store with pool := pool })
    | some domainDir =>
      let path := object.selector.path domainDir
      let written := replaceFile store.disk path (object.selector.tmpPath domainDir)
        (object.toPem T) ctx.files
      match written.1 with
      | .error e => (.error (.file e), ⟨pool, written.2⟩)
      | .ok () => (.ok (report (some path)), ⟨pool, written.2⟩)

def receiveNetworkState (td : TrustDomainId) (nlid : NetworkLocalId) (state : SignedNetworkState)
    (ctx : ReceiveContext) : Except SignedReceiveError ReceiveReport × TrustStore :=
  if state.details.trustDomainId ≠ td then (.error .trustDomainMismatch, store)
  else if state.details.networkLocalId ≠ nlid then (.error .networkLocalIdMismatch, store)
  else store.receiveSigned T (.networkState state) ctx

def receiveTrustDomainMeta (td : TrustDomainId) (tdMeta : SignedTrustDomainMeta)
    (ctx : ReceiveContext) : Except SignedReceiveError ReceiveReport × TrustStore :=
  if tdMeta.details.trustDomainId ≠ td then (.error .trustDomainMismatch, store)
  else store.receiveSigned T (.trustDomainMeta tdMeta) ctx

end TrustStore

inductive ReceiveCall
  | networkState (td : TrustDomainId) (nlid : NetworkLocalId) (state : SignedNetworkState)
    (ctx : ReceiveContext)
  | trustDomainMeta (td : TrustDomainId) (tdMeta : SignedTrustDomainMeta) (ctx : ReceiveContext)

namespace ReceiveCall

def object : ReceiveCall → SignedObject
  | networkState _ _ state _ => .networkState state
  | trustDomainMeta _ tdMeta _ => .trustDomainMeta tdMeta

def expected : ReceiveCall → ConfigResourceSelector
  | networkState td nlid _ _ => .networkState td nlid
  | trustDomainMeta td _ _ => .trustDomainMetaId td

def ctx : ReceiveCall → ReceiveContext
  | networkState _ _ _ ctx => ctx
  | trustDomainMeta _ _ ctx => ctx

def again (files : FileOutcome String) : ReceiveCall → ReceiveCall
  | networkState td nlid state ctx => networkState td nlid state { ctx with files := files }
  | trustDomainMeta td tdMeta ctx => trustDomainMeta td tdMeta { ctx with files := files }

end ReceiveCall

namespace TrustStore

variable (T : ReceiverSuite) (store : TrustStore)

def receive : ReceiveCall → Except SignedReceiveError ReceiveReport × TrustStore
  | .networkState td nlid state ctx => store.receiveNetworkState T td nlid state ctx
  | .trustDomainMeta td tdMeta ctx => store.receiveTrustDomainMeta T td tdMeta ctx

def receiver : Trans TrustStore ReceiveCall := .ofFun fun store call => (store.receive T call).2

/-- **Atomicity** of a call: a failure leaves the pool as it was; a success leaves the object in its
file; and a call that failed in the file system succeeds when it is repeated with one that works. -/
structure Atomic (call : ReceiveCall) : Prop where
  unchanged : ∀ e, (store.receive T call).1 = .error e → (store.receive T call).2.pool = store.pool
  persisted : ∀ report domainDir, (store.receive T call).1 = .ok report →
    call.ctx.persistDomainDir = some domainDir →
    (store.receive T call).2.disk (call.object.selector.path domainDir) = some (call.object.toPem T)
  retried : ∀ e, (store.receive T call).1 = .error (.file e) → ∀ files : FileOutcome String,
    files.Works → ∃ report, ((store.receive T call).2.receive T (call.again files)).1 = .ok report

def Persists (call : ReceiveCall) : Prop :=
  call.object.selector = call.expected → store.pool.Accepts T call.object →
    call.ctx.persistDomainDir ≠ none → call.ctx.files.Works

def AgreesOn (file : Option String) : Option SignedObject → Prop
  | none => file = none
  | some object => ∃ object' : SignedObject, object'.selector = object.selector ∧
      object'.version = object.version ∧ file = some (object'.toPem T)

def Agrees (dirOf : TrustDomainId → Option Path) : Prop :=
  ∀ (selector : ConfigResourceSelector) (domainDir : Path), dirOf selector.td = some domainDir →
    AgreesOn T (store.disk (selector.path domainDir)) (store.pool.held selector)

end TrustStore

/-! ### What a pool does with an object -/

namespace TrustDomainPool

variable {T : StateSuite} {pool : TrustDomainPool}

/-- `pool'` is `pool` with the object in place of what it holds of the resource. -/
structure Takes (pool : TrustDomainPool) (object : SignedObject) (pool' : TrustDomainPool) :
    Prop where
  held_self : pool'.held object.selector = some object
  held_of_ne : ∀ selector, selector ≠ object.selector → pool'.held selector = pool.held selector

variable {state : SignedNetworkState} {entry : TrustDomainEntry} {tdMeta : SignedTrustDomainMeta}
  {object : SignedObject}

theorem held_setEntry_of_ne {td : TrustDomainId} {selector : ConfigResourceSelector}
    (h : selector.td ≠ td) : (pool.setEntry td entry).held selector = pool.held selector := by
  cases selector <;> simp_all [held, networkState, trustDomainMeta, ConfigResourceSelector.td]

theorem takes_insertNetwork (h : pool.domains state.details.trustDomainId = some entry) :
    pool.Takes (.networkState state)
      (pool.setEntry state.details.trustDomainId (entry.insertNetwork state)) := by
  refine ⟨?_, fun selector hne => ?_⟩
  · simp [held, SignedObject.selector, networkState, TrustDomainEntry.insertNetwork]
  · by_cases htd : selector.td = state.details.trustDomainId
    · cases selector with
      | networkState td nlid =>
        cases htd
        have hnl : nlid ≠ state.details.networkLocalId := by
          rintro rfl
          exact hne rfl
        simp [held, networkState, h, TrustDomainEntry.insertNetwork, hnl]
      | trustDomainMetaId td =>
        cases htd
        simp [held, trustDomainMeta, h, TrustDomainEntry.insertNetwork]
    · exact held_setEntry_of_ne htd

theorem takes_setMeta (h : pool.domains tdMeta.details.trustDomainId = some entry) :
    pool.Takes (.trustDomainMeta tdMeta) (pool.setEntry tdMeta.details.trustDomainId
      { entry with trustDomainMeta := some tdMeta }) := by
  refine ⟨?_, fun selector hne => ?_⟩
  · simp [held, SignedObject.selector, trustDomainMeta]
  · by_cases htd : selector.td = tdMeta.details.trustDomainId
    · cases selector with
      | networkState td nlid =>
        cases htd
        simp [held, networkState, h]
      | trustDomainMetaId td =>
        cases htd
        exact absurd rfl hne
    · exact held_setEntry_of_ne htd

theorem accepts_networkState_iff (h : pool.domains state.details.trustDomainId = some entry) :
    pool.Accepts T (.networkState state) ↔ state.verify T entry.pkRoot = .ok () ∧
      ∀ existing, entry.networks state.details.networkLocalId = some existing →
        existing.versionNat < state.versionNat := by
  cases hver : state.verify T entry.pkRoot <;>
    simp [Accepts, SignedObject.selector, ConfigResourceSelector.td, rootVerifyKey, h, hver,
      SignedObject.verify, held, networkState, Except.isOk, Except.toBool, SignedObject.version,
      SignedNetworkState.versionNat, UInt64.lt_iff_toNat_lt]

theorem accepts_trustDomainMeta_iff (h : pool.domains tdMeta.details.trustDomainId = some entry) :
    pool.Accepts T (.trustDomainMeta tdMeta) ↔ tdMeta.verify T entry.pkRoot = .ok () ∧
      ∀ existing, entry.trustDomainMeta = some existing →
        existing.details.version < tdMeta.details.version := by
  cases hver : tdMeta.verify T entry.pkRoot <;>
    simp [Accepts, SignedObject.selector, ConfigResourceSelector.td, rootVerifyKey, h, hver,
      SignedObject.verify, held, trustDomainMeta, Except.isOk, Except.toBool, SignedObject.version]

theorem not_accepts_of_unknown (h : pool.domains object.selector.td = none) :
    ¬ pool.Accepts T object := by
  rintro ⟨⟨rootPk, hroot, -⟩, -⟩
  simp [rootVerifyKey, h] at hroot

/-- **What a pool does with an object**: it refuses it and stays as it is, or takes it. -/
theorem pool_offer_cases (T : StateSuite) (pool : TrustDomainPool) (object : SignedObject) :
    (¬ pool.Accepts T object ∧ ∃ e, pool.offer T object = (.error e, pool)) ∨
    pool.Accepts T object ∧ ∃ pool', pool.Takes object pool' ∧
      pool.offer T object = (.ok (), pool') := by
  cases object with
  | networkState state =>
    obtain ⟨e, he, hnot⟩ | ⟨entry, hentry, hver, hnew, hok⟩ := applyNetworkState_cases T pool state
    · refine .inl ⟨?_, e, he⟩
      cases hentry : pool.domains state.details.trustDomainId with
      | none => exact not_accepts_of_unknown hentry
      | some entry =>
        rw [accepts_networkState_iff hentry]
        rintro ⟨hver, hnew⟩
        obtain ⟨existing, hex, hle⟩ := hnot entry hentry hver
        exact absurd (hnew existing hex) hle.not_gt
    · exact .inr ⟨(accepts_networkState_iff hentry).2 ⟨hver, hnew⟩, _, takes_insertNetwork hentry, hok⟩
  | trustDomainMeta tdMeta =>
    rw [offer, applyTrustDomainMeta]
    cases hentry : pool.domains tdMeta.details.trustDomainId with
    | none => exact .inl ⟨not_accepts_of_unknown hentry, _, rfl⟩
    | some entry =>
      rw [accepts_trustDomainMeta_iff hentry]
      cases hver : tdMeta.verify T entry.pkRoot with
      | error e => exact .inl ⟨by simp, .badSignature, by simp only [hver]⟩
      | ok u =>
        simp only [hver]
        cases hold : entry.trustDomainMeta.filter
            fun existing => tdMeta.details.version ≤ existing.details.version with
        | some existing =>
          obtain ⟨hex, hle⟩ := Option.filter_eq_some_iff.1 hold
          refine .inl ⟨fun h => ?_, _, rfl⟩
          exact absurd (h.2 existing hex) (UInt64.not_lt.2 (of_decide_eq_true hle))
        | none =>
          refine .inr ⟨⟨trivial, ?_⟩, _, takes_setMeta hentry, rfl⟩
          intro existing hex
          have hnle := Option.filter_eq_none_iff.1 hold existing hex
          exact UInt64.not_le.1 fun hle => hnle (decide_eq_true hle)

theorem Takes.not_accepts {pool' : TrustDomainPool} (h : pool.Takes object pool') :
    ¬ pool'.Accepts T object :=
  fun hacc => UInt64.lt_irrefl _ (hacc.2 object h.held_self)

theorem Takes.ne {pool' : TrustDomainPool} (h : pool.Takes object pool')
    (hacc : pool.Accepts T object) : pool' ≠ pool := by
  rintro rfl
  exact h.not_accepts hacc

end TrustDomainPool

/-! ### What a call does -/

namespace TrustStore

variable {T : ReceiverSuite} {store : TrustStore} {call : ReceiveCall}

theorem receive_eq (T : ReceiverSuite) (store : TrustStore) (call : ReceiveCall) :
    (call.object.selector = call.expected ∧
      store.receive T call = store.receiveSigned T call.object call.ctx) ∨
    call.object.selector ≠ call.expected ∧ ∃ e, store.receive T call = (.error e, store) ∧
      ∀ e', e ≠ .file e' := by
  cases call with
  | networkState td nlid state ctx =>
    simp only [ReceiveCall.object, ReceiveCall.expected, SignedObject.selector, receive,
      receiveNetworkState, ne_eq, ConfigResourceSelector.networkState.injEq]
    by_cases htd : state.details.trustDomainId = td
    · by_cases hnl : state.details.networkLocalId = nlid
      · exact .inl ⟨⟨htd, hnl⟩, by simp [htd, hnl, ReceiveCall.ctx]⟩
      · exact .inr ⟨fun h => hnl h.2, .networkLocalIdMismatch, by simp [htd, hnl], by simp⟩
    · exact .inr ⟨fun h => htd h.1, .trustDomainMismatch, by simp [htd], by simp⟩
  | trustDomainMeta td tdMeta ctx =>
    simp only [ReceiveCall.object, ReceiveCall.expected, SignedObject.selector, receive,
      receiveTrustDomainMeta, ne_eq, ConfigResourceSelector.trustDomainMetaId.injEq]
    by_cases htd : tdMeta.details.trustDomainId = td
    · exact .inl ⟨htd, by simp [htd, ReceiveCall.ctx]⟩
    · exact .inr ⟨htd, .trustDomainMismatch, by simp [htd], by simp⟩

variable (T store) in
def diskAfter (object : SignedObject) (ctx : ReceiveContext) (domainDir : Path) :
    Except FileError Unit × (Path → Option String) :=
  replaceFile store.disk (object.selector.path domainDir) (object.selector.tmpPath domainDir)
    (object.toPem T) ctx.files

variable (T store) in
/-- The pool has taken the object: there is no directory, the file is written, or a step of the file
system fails. -/
def Taken (object : SignedObject) (ctx : ReceiveContext)
    (out : Except SignedReceiveError ReceiveReport × TrustStore) : Prop :=
  ∃ pool', store.pool.Takes object pool' ∧
    ((ctx.persistDomainDir = none ∧ ∃ report, out = (.ok report, ⟨pool', store.disk⟩)) ∨
      ∃ domainDir, ctx.persistDomainDir = some domainDir ∧ ((ctx.files.Works ∧
            (∃ report, out = (.ok report, ⟨pool', (store.diskAfter T object ctx domainDir).2⟩)) ∧
            (store.diskAfter T object ctx domainDir).2 (object.selector.path domainDir) =
              some (object.toPem T)) ∨ ¬ ctx.files.Works ∧ ∃ e,
            out = (.error (.file e), ⟨pool', (store.diskAfter T object ctx domainDir).2⟩)))

theorem receiveSigned_cases (T : ReceiverSuite) (store : TrustStore) (object : SignedObject)
    (ctx : ReceiveContext) :
    (¬ store.pool.Accepts T object ∧
      ∃ e, store.receiveSigned T object ctx = (.error (.poolApply e), store)) ∨
    store.pool.Accepts T object ∧ store.Taken T object ctx (store.receiveSigned T object ctx) := by
  unfold receiveSigned
  obtain ⟨hnot, e, he⟩ | ⟨hacc, pool', htakes, hok⟩ :=
    pool_offer_cases T store.pool object
  · exact .inl ⟨hnot, e, by simp only [he]⟩
  · refine .inr ⟨hacc, pool', htakes, ?_⟩
    simp only [hok]
    cases ctx.persistDomainDir with
    | none => exact .inl ⟨rfl, _, rfl⟩
    | some domainDir =>
      refine .inr ⟨domainDir, rfl, ?_⟩
      obtain ⟨hworks, hwritten, hfile⟩ | ⟨hfails, ⟨e, he⟩, -⟩ := replaceFile_cases store.disk
        (object.selector.path domainDir) (object.selector.tmpPath domainDir) (object.toPem T) ctx.files
      · simp only [hwritten]
        exact .inl ⟨hworks, ⟨_, rfl⟩, hfile⟩
      · simp only [he]
        exact .inr ⟨hfails, e, rfl⟩

/-- **The outcomes of a call**: it is refused, or the pool takes the object. -/
theorem receive_cases (T : ReceiverSuite) (store : TrustStore) (call : ReceiveCall) :
    (¬ (call.object.selector = call.expected ∧ store.pool.Accepts T call.object) ∧
      ∃ e, store.receive T call = (.error e, store) ∧ ∀ e', e ≠ .file e') ∨
    (call.object.selector = call.expected ∧ store.pool.Accepts T call.object) ∧
      store.Taken T call.object call.ctx (store.receive T call) := by
  obtain ⟨hexp, hrec⟩ | ⟨hne, e, he, hfile⟩ := receive_eq T store call
  · rw [hrec]
    obtain ⟨hnot, e, he⟩ | ⟨hacc, htaken⟩ := receiveSigned_cases T store call.object call.ctx
    · exact .inl ⟨fun h => hnot h.2, .poolApply e, he, by simp⟩
    · exact .inr ⟨⟨hexp, hacc⟩, htaken⟩
  · exact .inl ⟨fun h => hne h.1, e, he, hfile⟩

/-- **One call** is atomic exactly if the file system works when the call uses it. -/
theorem atomic_iff_persists (T : ReceiverSuite) (store : TrustStore) (call : ReceiveCall) :
    store.Atomic T call ↔ store.Persists T call := by
  obtain ⟨hnot, e, he, hfile⟩ | ⟨⟨hexp, hacc⟩, pool', htakes, ⟨hdir, report, hok⟩ |
    ⟨domainDir, hdir, ⟨hworks, ⟨report, hok⟩, hwritten⟩ | ⟨hfails, e, he⟩⟩⟩ :=
    receive_cases T store call
  · refine iff_of_true ⟨?_, ?_, ?_⟩ fun hexp hacc => absurd ⟨hexp, hacc⟩ hnot
    · simp [he]
    · simp [he]
    · intro e' he'
      rw [he] at he'
      exact absurd (Except.error.inj he') (hfile e')
  · -- no directory
    refine iff_of_true ⟨?_, ?_, ?_⟩ fun _ _ h => absurd hdir h
    · simp [hok]
    · simp [hdir]
    · simp [hok]
  · refine iff_of_true ⟨?_, ?_, ?_⟩ fun _ _ _ => hworks
    · simp [hok]
    · intro report' domainDir' _ hdir'
      cases Option.some.inj (hdir.symm.trans hdir')
      rw [hok]
      exact hwritten
    · simp [hok]
  · -- the pool has taken the object, and the caller is told of a failure
    refine iff_of_false (fun h => ?_) fun h => ?_
    · have hsame := h.unchanged _ (by rw [he])
      rw [he] at hsame
      exact htakes.ne hacc hsame
    · exact hfails (h hexp hacc (by simp [hdir]))

theorem path_inj {s s' : ConfigResourceSelector} {dir dir' : Path}
    (h : s.path dir = s'.path dir') (htd : dir = dir' → s.td = s'.td) : s = s' := by
  have hname := congrArg List.getLast? h
  cases s with
  | networkState td nlid =>
    cases s' with
    | networkState td' nlid' =>
      obtain ⟨hdir, hrest⟩ := List.append_inj' h rfl
      cases htd hdir
      obtain ⟨name⟩ := nlid
      obtain ⟨name'⟩ := nlid'
      simp_all
    | trustDomainMetaId td' =>
      simp [ConfigResourceSelector.path, networkStatePath, trustDomainMetaPath] at hname
  | trustDomainMetaId td =>
    cases s' with
    | networkState td' nlid' =>
      simp [ConfigResourceSelector.path, networkStatePath, trustDomainMetaPath] at hname
    | trustDomainMetaId td' =>
      obtain ⟨hdir, -⟩ := List.append_inj' h rfl
      cases htd hdir
      rfl

theorem path_ne_tmpPath (s s' : ConfigResourceSelector) (dir dir' : Path) :
    s.path dir ≠ s'.tmpPath dir' := by
  intro h
  have hname := congrArg List.getLast? h
  cases s <;> cases s' <;>
    simp [ConfigResourceSelector.path, networkStatePath, trustDomainMetaPath,
      ConfigResourceSelector.tmpPath] at hname

/-- **One call keeps memory and disk in agreement**, if it uses the directory of its trust domain and
the file system works. -/
theorem agrees_receive {dirOf : TrustDomainId → Option Path}
    (hinj : ∀ td td' dir, dirOf td = some dir → dirOf td' = some dir → td = td')
    (h : store.Agrees T dirOf) (hworks : store.Persists T call)
    (hdir : call.ctx.persistDomainDir = dirOf call.object.selector.td) :
    (store.receive T call).2.Agrees T dirOf := by
  obtain ⟨-, e, he, -⟩ | ⟨⟨hexp, hacc⟩, pool', htakes, ⟨hnone, report, hok⟩ |
    ⟨domainDir, hsome, ⟨-, ⟨report, hok⟩, hwritten⟩ | ⟨hfails, -⟩⟩⟩ := receive_cases T store call
  · rw [he]
    exact h
  · -- the trust domain has no directory
    rw [hok]
    intro selector dir hsel
    have hother : selector ≠ call.object.selector := by
      rintro rfl
      simp [← hdir, hnone] at hsel
    rw [htakes.held_of_ne selector hother]
    exact h selector dir hsel
  · rw [hok]
    intro selector dir hsel
    by_cases hsame : selector = call.object.selector
    · subst hsame
      cases Option.some.inj (hsome.symm.trans (hdir.trans hsel))
      rw [htakes.held_self]
      exact ⟨call.object, rfl, rfl, hwritten⟩
    · -- the file of another resource
      rw [htakes.held_of_ne selector hsame]
      have hpath : selector.path dir ≠ call.object.selector.path domainDir := by
        intro heq
        refine hsame (path_inj heq ?_)
        rintro rfl
        exact hinj _ _ _ hsel (hdir ▸ hsome)
      have hkeep : (store.diskAfter T call.object call.ctx domainDir).2 (selector.path dir) =
          store.disk (selector.path dir) :=
        replaceFile_of_ne hpath (path_ne_tmpPath _ _ _ _)
      show AgreesOn T ((store.diskAfter T call.object call.ctx domainDir).2 (selector.path dir)) _
      rw [hkeep]
      exact h selector dir hsel
  · exact absurd (hworks hexp hacc (by simp [hsome])) hfails

/-- **Receiving is atomic when the file system works.**  In every run, every call is atomic exactly
if the file system works whenever a call that is given a directory has an object that the pool
accepts. If moreover the calls about a trust domain use its own directory, memory and disk agree on
the versions all along. -/
theorem receive_atomic_iff (T : ReceiverSuite) (store : TrustStore) (calls : List ReceiveCall) :
    ((receiver T).Along (Atomic T) store calls ↔ (receiver T).Along (Persists T) store calls) ∧
    ∀ dirOf : TrustDomainId → Option Path,
      (∀ td td' dir, dirOf td = some dir → dirOf td' = some dir → td = td') → store.Agrees T dirOf →
      (receiver T).Along (fun store call => store.Persists T call ∧
        call.ctx.persistDomainDir = dirOf call.object.selector.td) store calls →
      ∀ store', (receiver T).Run store calls store' → store'.Agrees T dirOf := by
  refine ⟨Trans.along_congr (atomic_iff_persists T), ?_⟩
  intro dirOf hinj hagree hcalls store' hrun
  refine (hcalls.run_guard hrun).invariant (I := fun store => store.Agrees T dirOf) hagree ?_
  rintro _ call _ hagree ⟨⟨hworks, hdir⟩, hstep⟩
  exact hstep ▸ agrees_receive hinj hagree hworks hdir

def sampleReceiverSuite : ReceiverSuite where
  toSyncSuite := sampleSyncSuite
  base64Encode _ := []

def sampleStore : TrustStore := ⟨sampleRootPool, fun _ => none⟩

def sampleCall (files : FileOutcome String) : ReceiveCall :=
  .networkState ⟨all32 9⟩ ⟨"office"⟩ (sampleStateAt 2) ⟨some ["trust"], "peer", files⟩

/-- The rename fails.  The caller is told so, the pool has the state all the same, there is no file,
and a second call is refused as stale. -/
theorem failed_rename_keeps_state :
    let failed := sampleStore.receive sampleReceiverSuite (sampleCall ⟨true, none, false⟩)
    let again := failed.2.receive sampleReceiverSuite (sampleCall ⟨true, none, true⟩)
    failed.1 = .error (.file .rename) ∧ sampleStore.pool.networkState ⟨all32 9⟩ ⟨"office"⟩ = none ∧
      failed.2.pool.networkState ⟨all32 9⟩ ⟨"office"⟩ = some (sampleStateAt 2) ∧
      failed.2.disk (networkStatePath ["trust"] ⟨"office"⟩) = none ∧
      again.1 = .error (.poolApply (.staleVersion 2 2)) ∧
      again.2.disk (networkStatePath ["trust"] ⟨"office"⟩) = none := by
  decide +kernel

theorem held_sampleRootPool (selector : ConfigResourceSelector) :
    sampleRootPool.held selector = none := by
  cases selector <;>
    simp only [held, networkState, trustDomainMeta, sampleRootPool, addRoot, setEntry] <;>
    split_ifs <;> rfl

/-- With a file system that works, the call is atomic, and memory and disk agree afterwards. -/
theorem state_written_and_held :
    let dirOf : TrustDomainId → Option Path := fun td =>
      if td = ⟨all32 9⟩ then some ["trust"] else none
    sampleStore.Atomic sampleReceiverSuite (sampleCall ⟨true, none, true⟩) ∧
      (sampleStore.receive sampleReceiverSuite (sampleCall ⟨true, none, true⟩)).2.Agrees
        sampleReceiverSuite dirOf := by
  intro dirOf
  have hworks : sampleStore.Persists sampleReceiverSuite (sampleCall ⟨true, none, true⟩) :=
    fun _ _ _ => ⟨rfl, rfl, rfl⟩
  obtain ⟨hatomic, hagree⟩ := receive_atomic_iff sampleReceiverSuite sampleStore
    [sampleCall ⟨true, none, true⟩]
  refine ⟨(hatomic.2 ⟨hworks, fun _ _ => trivial⟩).1, ?_⟩
  refine hagree dirOf ?_ ?_ ⟨⟨hworks, by decide +kernel⟩, fun _ _ => trivial⟩ _
    (Trans.run_ofFun _ _ _)
  · intro td td' dir htd htd'
    simp only [dirOf, Option.ite_none_right_eq_some] at htd htd'
    exact htd.1.trans htd'.1.symm
  · intro selector dir _
    rw [show sampleStore.pool = sampleRootPool from rfl, held_sampleRootPool]
    rfl

end TrustStore

end PactMesh
