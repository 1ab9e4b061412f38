import PactMesh.Lib.Endian
import PactMesh.Lib.Newest
import PactMesh.Trust.Pool

/-!
# What a pool accepts

States and metadata reach a node from any peer, in any order, more than once or not at all.  The
pool takes a network state if the root of its trust domain signed it and its version is larger than
that of the state it holds for the network.

Main result: `applyAll_newest_and_converges`.
-/

namespace PactMesh

open SignedNetworkState List Option Newest

inductive PoolApplyError
  | unknownDomain
  | badSignature
  | staleVersion (have_ got : UInt64)
deriving DecidableEq

variable (T : StateSuite)

def NetworkBootstrap.verifySelfConsistency (bootstrap : NetworkBootstrap) : Bool :=
  bootstrap.trustDomainId == .fromRootPubkey T bootstrap.pkRoot

def TrustDomainEntry.insertNetwork (entry : TrustDomainEntry) (state : SignedNetworkState) :
    TrustDomainEntry :=
  { entry with
    networks := fun nlid =>
      if nlid = state.details.networkLocalId then some state else entry.networks nlid }

namespace TrustDomainPool

variable (pool : TrustDomainPool)

def setEntry (td : TrustDomainId) (entry : TrustDomainEntry) : TrustDomainPool where
  domains td' := if td' = td then some entry else pool.domains td'

def addRoot (pk : Bytes32) : TrustDomainPool :=
  let td := TrustDomainId.fromRootPubkey T pk
  match pool.domains td with
  | some _ => pool
  | none => pool.setEntry td { pkRoot := pk, networks := fun _ => none }

def applyNetworkState (state : SignedNetworkState) : Except PoolApplyError Unit × TrustDomainPool :=
  match pool.domains state.details.trustDomainId with
  | none => (.error .unknownDomain, pool)
  | some entry =>
    match state.verify T entry.pkRoot with
    | .error _ => (.error .badSignature, pool)
    | .ok () =>
      match (entry.networks state.details.networkLocalId).filter
          fun existing => state.details.version ≤ existing.details.version with
      | some existing =>
        (.error (.staleVersion existing.details.version state.details.version), pool)
      | none =>
        (.ok (), pool.setEntry state.details.trustDomainId (entry.insertNetwork state))

def applyTrustDomainMeta (tdMeta : SignedTrustDomainMeta) :
    Except PoolApplyError Unit × TrustDomainPool :=
  match pool.domains tdMeta.details.trustDomainId with
  | none => (.error .unknownDomain, pool)
  | some entry =>
    match tdMeta.verify T entry.pkRoot with
    | .error _ => (.error .badSignature, pool)
    | .ok () =>
      match entry.trustDomainMeta.filter
          fun existing => tdMeta.details.version ≤ existing.details.version with
      | some existing =>
        (.error (.staleVersion existing.details.version tdMeta.details.version), pool)
      | none =>
        (.ok (), pool.setEntry tdMeta.details.trustDomainId
          { entry with trustDomainMeta := some tdMeta })

def applyNetworkBootstrap (td : TrustDomainId) (bootstrap : NetworkBootstrap) :
    Except PoolApplyError Unit × TrustDomainPool :=
  if bootstrap.trustDomainId ≠ td then (.error .badSignature, pool)
  else if bootstrap.verifySelfConsistency T = false then (.error .badSignature, pool)
  else
    match pool.domains td with
    | none => (.error .unknownDomain, pool)
    | some entry =>
      (.ok (), pool.setEntry td { entry with networkBootstrap := some bootstrap })

def applyAll (states : List SignedNetworkState) : TrustDomainPool :=
  states.foldl (fun pool state => (pool.applyNetworkState T state).2) pool

def rootVerifyKey (td : TrustDomainId) : Option Bytes32 := (pool.domains td).map (·.pkRoot)

end TrustDomainPool

def SignedNetworkState.versionNat (state : SignedNetworkState) : ℕ := state.details.version.toNat

def SignedNetworkState.validFor (td : TrustDomainId) (nlid : NetworkLocalId) (rootPk : Bytes32)
    (state : SignedNetworkState) : Bool :=
  state.details.trustDomainId == td && state.details.networkLocalId == nlid &&
    (state.verify T rootPk).isOk

theorem SignedNetworkState.validFor_iff {T : StateSuite} {td : TrustDomainId}
    {nlid : NetworkLocalId} {rootPk : Bytes32} {state : SignedNetworkState} :
    state.validFor T td nlid rootPk = true ↔
      state.details.trustDomainId = td ∧ state.details.networkLocalId = nlid ∧
        state.verify T rootPk = .ok () := by
  cases hver : state.verify T rootPk <;>
    simp [validFor, hver, Except.isOk, Except.toBool]

namespace TrustDomainPool

variable {T} {pool : TrustDomainPool} {state : SignedNetworkState}

@[simp] theorem domains_setEntry_self (td : TrustDomainId) (entry : TrustDomainEntry) :
    (pool.setEntry td entry).domains td = some entry := if_pos rfl

variable {td : TrustDomainId} {rootPk : Bytes32}

@[simp] theorem domains_setEntry_of_ne {td' : TrustDomainId} (entry : TrustDomainEntry)
    (h : td' ≠ td) : (pool.setEntry td entry).domains td' = pool.domains td' := if_neg h

/-- A state is refused and the pool stays as it is, or the root of its trust domain signed it, it is
newer than what the pool holds, and its network alone changes. -/
theorem applyNetworkState_cases (T : StateSuite) (pool : TrustDomainPool)
    (state : SignedNetworkState) :
    (∃ e, pool.applyNetworkState T state = (.error e, pool) ∧
      ∀ entry, pool.domains state.details.trustDomainId = some entry →
        state.verify T entry.pkRoot = .ok () →
        ∃ existing, entry.networks state.details.networkLocalId = some existing ∧
          state.versionNat ≤ existing.versionNat) ∨
    ∃ entry, pool.domains state.details.trustDomainId = some entry ∧
      state.verify T entry.pkRoot = .ok () ∧
      (∀ existing, entry.networks state.details.networkLocalId = some existing →
        existing.versionNat < state.versionNat) ∧ pool.applyNetworkState T state =
        (.ok (), pool.setEntry state.details.trustDomainId (entry.insertNetwork state)) := by
  unfold applyNetworkState
  cases pool.domains state.details.trustDomainId with
  | none => exact .inl ⟨_, rfl, by simp⟩
  | some entry =>
    cases hver : state.verify T entry.pkRoot with
    | error e =>
      refine .inl ⟨.badSignature, by simp only [hver], ?_⟩
      intro entry' hentry hok
      cases hentry
      simp [hver] at hok
    | ok u =>
      simp only [hver]
      cases hold : (entry.networks state.details.networkLocalId).filter
          fun existing => state.details.version ≤ existing.details.version with
      | some existing =>
        obtain ⟨hnet, hle⟩ := filter_eq_some_iff.1 hold
        refine .inl ⟨_, rfl, ?_⟩
        intro entry' hentry _
        cases hentry
        exact ⟨existing, hnet, UInt64.le_iff_toNat_le.1 (of_decide_eq_true hle)⟩
      | none =>
        refine .inr ⟨entry, rfl, hver, ?_, rfl⟩
        intro existing hnet
        have hnle := filter_eq_none_iff.1 hold existing hnet
        rw [decide_eq_true_eq, UInt64.le_iff_toNat_le, not_le] at hnle
        exact hnle

theorem snd_applyNetworkState_of_error {e : PoolApplyError}
    (h : (pool.applyNetworkState T state).1 = .error e) :
    (pool.applyNetworkState T state).2 = pool := by
  rcases applyNetworkState_cases T pool state with ⟨e', he, -⟩ | ⟨entry, -, -, -, hok⟩
  · rw [he]
  · rw [hok] at h
    cases h

theorem domains_applyNetworkState_of_ne (h : td ≠ state.details.trustDomainId) :
    (pool.applyNetworkState T state).2.domains td = pool.domains td := by
  rcases applyNetworkState_cases T pool state with ⟨e, he, -⟩ | ⟨entry, -, -, -, hok⟩
  · rw [he]
  · rw [hok]
    exact domains_setEntry_of_ne _ h

theorem domains_applyNetworkState (T : StateSuite) (state : SignedNetworkState)
    {entry : TrustDomainEntry} (h : pool.domains td = some entry) :
    ∃ entry', (pool.applyNetworkState T state).2.domains td = some entry' ∧
      entry'.pkRoot = entry.pkRoot ∧ entry'.trustDomainMeta = entry.trustDomainMeta ∧
      entry'.networkBootstrap = entry.networkBootstrap ∧
      ∀ nlid, ¬ (state.details.trustDomainId = td ∧ state.details.networkLocalId = nlid) →
        entry'.networks nlid = entry.networks nlid := by
  by_cases htd : td = state.details.trustDomainId
  · rcases applyNetworkState_cases T pool state with ⟨e, he, -⟩ | ⟨entry', hdom, -, -, hok⟩
    · exact ⟨entry, by rw [he, h], rfl, rfl, rfl, fun _ _ => rfl⟩
    · have heq : entry' = entry := Option.some.inj (hdom.symm.trans (htd ▸ h))
      subst heq
      rw [hok, htd]
      exact ⟨entry'.insertNetwork state, domains_setEntry_self _ _, rfl, rfl, rfl,
        fun nlid hne => if_neg fun heq => hne ⟨rfl, heq.symm⟩⟩
  · exact ⟨entry, by rw [domains_applyNetworkState_of_ne htd, h], rfl, rfl, rfl, fun _ _ => rfl⟩

theorem rootVerifyKey_applyNetworkState (T : StateSuite) (state : SignedNetworkState)
    (td : TrustDomainId) :
    (pool.applyNetworkState T state).2.rootVerifyKey td = pool.rootVerifyKey td := by
  cases h : pool.domains td with
  | none =>
    rcases applyNetworkState_cases T pool state with ⟨e, he, -⟩ | ⟨entry, hdom, -, -, hok⟩
    · rw [he]
    · have hne : td ≠ state.details.trustDomainId := by
        rintro rfl
        simp [h] at hdom
      rw [rootVerifyKey, rootVerifyKey, domains_applyNetworkState_of_ne hne]
  | some entry =>
    obtain ⟨entry', hentry, hroot, -⟩ := domains_applyNetworkState T state h
    simp [rootVerifyKey, hentry, h, hroot]

/-- **One state**: the pool offers a valid state to the register of its network. -/
theorem networkState_applyNetworkState (h : pool.rootVerifyKey td = some rootPk)
    (nlid : NetworkLocalId) :
    (pool.applyNetworkState T state).2.networkState td nlid =
      if state.validFor T td nlid rootPk then
        offer versionNat (pool.networkState td nlid) state
      else pool.networkState td nlid := by
  obtain ⟨entry, hentry, rfl⟩ := map_eq_some_iff.1 h
  have hheld : pool.networkState td nlid = entry.networks nlid := by simp [networkState, hentry]
  by_cases hnet : state.details.trustDomainId = td ∧ state.details.networkLocalId = nlid
  · obtain ⟨rfl, rfl⟩ := hnet
    rcases applyNetworkState_cases T pool state with ⟨e, he, hnot⟩ | ⟨entry', hdom, hver, hnew, hok⟩
    · -- refused: the signature is bad, or the register holds something as new
      rw [he]
      split_ifs with hval
      · obtain ⟨-, -, hver⟩ := validFor_iff.1 hval
        obtain ⟨existing, hold, hle⟩ := hnot entry hentry hver
        rw [hheld, hold, offer, if_neg hle.not_gt]
      · rfl
    · cases Option.some.inj (hentry.symm.trans hdom)
      rw [hok, if_pos (validFor_iff.2 ⟨rfl, rfl, hver⟩), hheld]
      cases hold : entry.networks state.details.networkLocalId with
      | none => simp [networkState, TrustDomainEntry.insertNetwork, offer]
      | some existing =>
        simp [networkState, TrustDomainEntry.insertNetwork, offer, hnew existing hold]
  · -- a state of another network
    have hval : ¬ state.validFor T td nlid entry.pkRoot = true := fun hval =>
      hnet ⟨(validFor_iff.1 hval).1, (validFor_iff.1 hval).2.1⟩
    obtain ⟨entry', hentry', -, -, -, hsame⟩ := domains_applyNetworkState T state hentry
    rw [if_neg hval, hheld, networkState, hentry', bind_some, hsame nlid hnet]

theorem rootVerifyKey_applyAll (states : List SignedNetworkState) (td : TrustDomainId) :
    (pool.applyAll T states).rootVerifyKey td = pool.rootVerifyKey td := by
  induction states generalizing pool with
  | nil => rfl
  | cons state states ih =>
    exact ih.trans (rootVerifyKey_applyNetworkState T state td)

/-- **What a pool holds**: the newest of what it held and of the valid states it received, and the
first of those with the highest version. -/
theorem networkState_applyAll (h : pool.rootVerifyKey td = some rootPk) (nlid : NetworkLocalId)
    (states : List SignedNetworkState) :
    (pool.applyAll T states).networkState td nlid =
      ((pool.networkState td nlid).toList ++ states.filter (·.validFor T td nlid rootPk)).argmax
        versionNat := by
  rw [← foldl_offer]
  induction states generalizing pool with
  | nil => rfl
  | cons state states ih =>
    have hroot := (rootVerifyKey_applyNetworkState T state td).trans h
    refine (ih hroot).trans ?_
    rw [networkState_applyNetworkState h, filter_cons]
    split_ifs <;> rfl

theorem networkState_of_not_registered (h : pool.rootVerifyKey td = none) (nlid : NetworkLocalId) :
    pool.networkState td nlid = none := by
  rw [networkState, map_eq_none_iff.1 h, bind_none]

/-- Signed by the root that is registered. -/
def Verifies (T : StateSuite) (pool : TrustDomainPool) (state : SignedNetworkState) : Prop :=
  ∃ rootPk, pool.rootVerifyKey state.details.trustDomainId = some rootPk ∧
    state.verify T rootPk = .ok ()

theorem Verifies.of_validFor {nlid : NetworkLocalId} (hroot : pool.rootVerifyKey td = some rootPk)
    (h : state.validFor T td nlid rootPk = true) : Verifies T pool state := by
  obtain ⟨rfl, -, hver⟩ := validFor_iff.1 h
  exact ⟨rootPk, hroot, hver⟩

/-- Two pools that hold the same receive the same valid states. -/
structure SameInput (T : StateSuite) (pool pool' : TrustDomainPool)
    (states states' : List SignedNetworkState) : Prop where
  roots : ∀ td, pool'.rootVerifyKey td = pool.rootVerifyKey td
  held : ∀ td nlid, pool'.networkState td nlid = pool.networkState td nlid
  received : ∀ state, Verifies T pool state → (state ∈ states ↔ state ∈ states')

/-- The valid states of a network differ in version. -/
def DistinctVersions (T : StateSuite) (pool : TrustDomainPool)
    (states : List SignedNetworkState) : Prop :=
  ∀ s ∈ states, ∀ s' ∈ states, Verifies T pool s → Verifies T pool s' →
    s.details.trustDomainId = s'.details.trustDomainId →
    s.details.networkLocalId = s'.details.networkLocalId →
    s.details.version = s'.details.version → s = s'

theorem networkState_eq_of_sameInput {pool' : TrustDomainPool}
    {states states' : List SignedNetworkState} (hin : SameInput T pool pool' states states')
    (hdist : DistinctVersions T pool states) (td : TrustDomainId) (nlid : NetworkLocalId) :
    (pool.applyAll T states).networkState td nlid =
      (pool'.applyAll T states').networkState td nlid := by
  cases hroot : pool.rootVerifyKey td with
  | none =>
    have hroot' : pool'.rootVerifyKey td = none := (hin.roots td).trans hroot
    rw [networkState_of_not_registered ((rootVerifyKey_applyAll states td).trans hroot),
      networkState_of_not_registered ((rootVerifyKey_applyAll states' td).trans hroot')]
  | some rootPk =>
    rw [networkState_applyAll hroot, networkState_applyAll ((hin.roots td).trans hroot),
      hin.held td nlid]
    -- the valid states of the network are the same on both sides, as a set
    have hmax : (states.filter (·.validFor T td nlid rootPk)).argmax versionNat =
        (states'.filter (·.validFor T td nlid rootPk)).argmax versionNat := by
      apply argmax_eq_of_mem_iff
      · intro s hs s' hs' hver
        obtain ⟨hs, hval⟩ := mem_filter.1 hs
        obtain ⟨hs', hval'⟩ := mem_filter.1 hs'
        obtain ⟨htd, hnl, -⟩ := validFor_iff.1 hval
        obtain ⟨htd', hnl', -⟩ := validFor_iff.1 hval'
        exact hdist s hs s' hs' (.of_validFor hroot hval) (.of_validFor hroot hval')
          (htd.trans htd'.symm) (hnl.trans hnl'.symm) (UInt64.toNat_inj.1 hver)
      · intro s
        simp only [mem_filter, and_congr_left_iff]
        exact fun hval => hin.received s (.of_validFor hroot hval)
    cases pool.networkState td nlid with
    | none => exact hmax
    | some held =>
      rw [toList_some, singleton_append, singleton_append, argmax_cons, argmax_cons, hmax]

/-- **Pools hold the newest valid states and converge.**  What the pool holds for a network of a
registered trust domain is the first among the states of highest version, out of the one it held and
those that verify under the registered root; a trust domain that is not registered gets nothing; a
refused state changes nothing, and a state only its own network; and nodes that receive the same
valid states, with different versions, hold the same afterwards. -/
theorem applyAll_newest_and_converges (T : StateSuite) (pool : TrustDomainPool)
    (states : List SignedNetworkState) :
    (∀ td rootPk nlid, pool.rootVerifyKey td = some rootPk →
      (pool.applyAll T states).networkState td nlid =
        ((pool.networkState td nlid).toList ++ states.filter (·.validFor T td nlid rootPk)).argmax
          versionNat) ∧ (∀ td nlid, pool.rootVerifyKey td = none →
      (pool.applyAll T states).networkState td nlid = none) ∧
    (∀ state e, (pool.applyNetworkState T state).1 = .error e →
      (pool.applyNetworkState T state).2 = pool) ∧ (∀ state td, (td ≠ state.details.trustDomainId →
        (pool.applyNetworkState T state).2.domains td = pool.domains td) ∧
      ∀ entry, pool.domains td = some entry →
        ∃ entry', (pool.applyNetworkState T state).2.domains td = some entry' ∧
          entry'.pkRoot = entry.pkRoot ∧ entry'.trustDomainMeta = entry.trustDomainMeta ∧
          entry'.networkBootstrap = entry.networkBootstrap ∧
          ∀ nlid, ¬ (state.details.trustDomainId = td ∧ state.details.networkLocalId = nlid) →
            entry'.networks nlid = entry.networks nlid) ∧
    (∀ pool' states', SameInput T pool pool' states states' → DistinctVersions T pool states →
      ∀ td nlid, (pool.applyAll T states).networkState td nlid =
        (pool'.applyAll T states').networkState td nlid) := by
  refine ⟨?_, ?_, ?_, ?_, ?_⟩
  · intro td rootPk nlid hroot
    exact networkState_applyAll hroot nlid states
  · intro td nlid hroot
    exact networkState_of_not_registered ((rootVerifyKey_applyAll states td).trans hroot) nlid
  · intro state e herr
    exact snd_applyNetworkState_of_error herr
  · intro state td
    exact ⟨domains_applyNetworkState_of_ne, fun entry h => domains_applyNetworkState T state h⟩
  · intro pool' states' hin hdist
    exact networkState_eq_of_sameInput hin hdist

end TrustDomainPool

/-- The calls that change a pool. -/
inductive PoolCall
  | addRoot (pk : Bytes32)
  | applyNetworkState (state : SignedNetworkState)
  | applyTrustDomainMeta (tdMeta : SignedTrustDomainMeta)
  | applyNetworkBootstrap (td : TrustDomainId) (bootstrap : NetworkBootstrap)

namespace TrustDomainPool

variable {T} {pool : TrustDomainPool}

variable (T pool) in
def call : PoolCall → TrustDomainPool
  | .addRoot pk => pool.addRoot T pk
  | .applyNetworkState state => (pool.applyNetworkState T state).2
  | .applyTrustDomainMeta tdMeta => (pool.applyTrustDomainMeta T tdMeta).2
  | .applyNetworkBootstrap td bootstrap => (pool.applyNetworkBootstrap T td bootstrap).2

/-- Registered roots and their states are kept. -/
def SameStates (pool pool' : TrustDomainPool) : Prop :=
  ∀ td rootPk, pool.rootVerifyKey td = some rootPk → pool'.rootVerifyKey td = some rootPk ∧
      ∀ nlid, pool'.networkState td nlid = pool.networkState td nlid

theorem SameStates.refl (pool : TrustDomainPool) : SameStates pool pool :=
  fun _ _ h => ⟨h, fun _ => rfl⟩

theorem sameStates_setEntry {td : TrustDomainId} {entry entry' : TrustDomainEntry}
    (h : pool.domains td = some entry) (hroot : entry'.pkRoot = entry.pkRoot)
    (hnet : entry'.networks = entry.networks) : SameStates pool (pool.setEntry td entry') := by
  intro td' rootPk hreg
  by_cases htd : td' = td
  · subst htd
    rw [rootVerifyKey, h] at hreg
    simpa [rootVerifyKey, networkState, h, hroot, hnet] using hreg
  · simpa [rootVerifyKey, networkState, htd] using hreg

variable (T pool) in
/-- What is not a state leaves the states alone. -/
theorem sameStates_call (c : PoolCall) :
    SameStates pool (pool.call T c) ∨ ∃ state, c = .applyNetworkState state := by
  cases c with
  | applyNetworkState state => exact .inr ⟨state, rfl⟩
  | addRoot pk =>
    rw [call, addRoot]
    cases h : pool.domains (.fromRootPubkey T pk) with
    | some entry => exact .inl (.refl pool)
    | none =>
      refine .inl fun td rootPk hreg => ?_
      have htd : td ≠ .fromRootPubkey T pk := by
        rintro rfl
        simp [rootVerifyKey, h] at hreg
      simpa [rootVerifyKey, networkState, htd] using hreg
  | applyTrustDomainMeta tdMeta =>
    rw [call, applyTrustDomainMeta]
    split
    · exact .inl (.refl pool)
    · rename_i entry hentry
      split
      · exact .inl (.refl pool)
      · split
        · exact .inl (.refl pool)
        · exact .inl (sameStates_setEntry hentry rfl rfl)
  | applyNetworkBootstrap td bootstrap =>
    rw [call, applyNetworkBootstrap]
    split_ifs
    · exact .inl (.refl pool)
    · exact .inl (.refl pool)
    · split
      · exact .inl (.refl pool)
      · rename_i entry hentry
        exact .inl (sameStates_setEntry hentry rfl rfl)

/-- **One call**: the root keys of registered trust domains stay, and the state of a network stays
or is replaced by a newer one that the root signed. -/
theorem call_cases {td : TrustDomainId} {rootPk : Bytes32}
    (h : pool.rootVerifyKey td = some rootPk) (nlid : NetworkLocalId) (c : PoolCall) :
    (pool.call T c).rootVerifyKey td = some rootPk ∧
      ((pool.call T c).networkState td nlid = pool.networkState td nlid ∨
        ∃ state, c = .applyNetworkState state ∧ state.validFor T td nlid rootPk = true ∧
          (pool.call T c).networkState td nlid = some state ∧
          ∀ held, pool.networkState td nlid = some held → held.versionNat < state.versionNat) := by
  obtain hsame | ⟨state, rfl⟩ := sameStates_call T pool c
  · obtain ⟨hroot, hnet⟩ := hsame td rootPk h
    exact ⟨hroot, .inl (hnet nlid)⟩
  · refine ⟨(rootVerifyKey_applyNetworkState T state td).trans h, ?_⟩
    simp only [call, networkState_applyNetworkState h]
    by_cases hval : state.validFor T td nlid rootPk = true
    · rw [if_pos hval]
      cases pool.networkState td nlid with
      | none => exact .inr ⟨state, rfl, hval, rfl, nofun⟩
      | some held =>
        by_cases hlt : held.versionNat < state.versionNat
        · refine .inr ⟨state, rfl, hval, by rw [offer, if_pos hlt], ?_⟩
          rintro _ ⟨⟩
          exact hlt
        · exact .inl (by rw [offer, if_neg hlt])
    · exact .inl (if_neg hval)

variable (T pool) in
def callAll (calls : List PoolCall) : TrustDomainPool := calls.foldl (call T) pool

section CallAll

variable {td : TrustDomainId} {rootPk : Bytes32} {nlid : NetworkLocalId} {calls : List PoolCall}

theorem callAll_held {P : SignedNetworkState → Prop} (h : pool.rootVerifyKey td = some rootPk)
    (hheld : ∀ s, pool.networkState td nlid = some s → P s)
    (hsigned : ∀ s, PoolCall.applyNetworkState s ∈ calls →
      s.validFor T td nlid rootPk = true → P s) :
    (pool.callAll T calls).rootVerifyKey td = some rootPk ∧
      ∀ s, (pool.callAll T calls).networkState td nlid = some s → P s := by
  induction calls generalizing pool with
  | nil => exact ⟨h, hheld⟩
  | cons c calls ih =>
    obtain ⟨hroot, hcases⟩ := call_cases (T := T) h nlid c
    refine ih hroot ?_ fun s hs => hsigned s (mem_cons_of_mem c hs)
    obtain hsame | ⟨state, rfl, hval, hnew, -⟩ := hcases
    · rw [hsame]
      exact hheld
    · rw [hnew]
      rintro _ ⟨⟩
      exact hsigned state mem_cons_self hval

theorem callAll_newer {s : SignedNetworkState} (h : pool.rootVerifyKey td = some rootPk)
    (hs : pool.networkState td nlid = some s) :
    ∃ s', (pool.callAll T calls).networkState td nlid = some s' ∧ s.versionNat ≤ s'.versionNat := by
  induction calls generalizing pool s with
  | nil => exact ⟨s, hs, le_rfl⟩
  | cons c calls ih =>
    obtain ⟨hroot, hcases⟩ := call_cases (T := T) h nlid c
    obtain hsame | ⟨state, -, -, hnew, hlt⟩ := hcases
    · exact ih hroot (hsame.trans hs)
    · obtain ⟨s', hs', hle⟩ := ih hroot hnew
      exact ⟨s', hs', (hlt s hs).le.trans hle⟩

end CallAll

end TrustDomainPool

/-- The primitives of `sampleSuite` with a CBOR of states that only keeps the version and device ids
in letters. -/
def sampleStateSuite : StateSuite where
  toTrustSuite := sampleSuite
  marshalStateForSigning details := Endian.leBytes 8 details.version.toNat
  marshalMetaForSigning details := Endian.leBytes 8 details.version.toNat
  policyToCbor policy := if policy.defaultAction = .accept then [1] else [2]
  encodeDeviceId pk := String.ofList (pk.toList.map fun b => Char.ofNat (65 + b.toNat))
  netToString net := toString net.prefixLen

def sampleStateAt (version : UInt64) : SignedNetworkState :=
  { sampleState [1] with details := { (sampleState [1]).details with version := version } }

def sampleRootPool : TrustDomainPool :=
  (⟨fun _ => none⟩ : TrustDomainPool).addRoot sampleStateSuite (all32 9)

theorem applyAll_two_orders :
    (sampleRootPool.applyAll sampleStateSuite [sampleStateAt 1, sampleStateAt 2]).networkState
        ⟨all32 9⟩ ⟨"office"⟩ =
      (sampleRootPool.applyAll sampleStateSuite [sampleStateAt 2, sampleStateAt 1]).networkState
        ⟨all32 9⟩ ⟨"office"⟩ ∧
    (sampleRootPool.applyAll sampleStateSuite [sampleStateAt 2, sampleStateAt 1]).networkState
        ⟨all32 9⟩ ⟨"office"⟩ = some (sampleStateAt 2) := by
  refine ⟨?_, by decide +kernel⟩
  refine (TrustDomainPool.applyAll_newest_and_converges sampleStateSuite sampleRootPool
    [sampleStateAt 1, sampleStateAt 2]).2.2.2.2 sampleRootPool [sampleStateAt 2, sampleStateAt 1]
    ⟨fun _ => rfl, fun _ _ => rfl, ?_⟩ ?_ _ _
  · intro state _
    simp [or_comm]
  · intro s hs s' hs' _ _ _ _ hver
    simp only [mem_cons, not_mem_nil, or_false] at hs hs'
    rcases hs with rfl | rfl <;> rcases hs' with rfl | rfl <;> first | rfl | cases hver

end PactMesh
