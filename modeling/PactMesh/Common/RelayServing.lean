import PactMesh.Lib.Checks
import PactMesh.Trust.Pool
import PactMesh.Trust.RelayBorrow

/-!
# Editing the relay grants at run time

Patches add and remove entries by the text of a hexadecimal key; then the grant table is built anew,
where the key counts as bytes: a root key if it is one (`isKey`), or else the id of a trust
domain.  So several texts stand for one domain.

Main result: `relay_edits_take_effect_iff`.
-/

namespace PactMesh

open List hiding beq_eq_decide

inductive RootPkHexError
  | expected64HexChars (got : ℕ)
  | invalidDigit
  | notCharBoundary
deriving DecidableEq

def hexDigit (b : UInt8) : Option UInt8 :=
  if 48 ≤ b ∧ b ≤ 57 then some (b - 48)
  else if 97 ≤ b ∧ b ≤ 102 then some (b - 87)
  else if 65 ≤ b ∧ b ≤ 70 then some (b - 55)
  else none

/-- `u8::from_str_radix(_, 16)` on two bytes; a plus sign may lead. -/
def fromStrRadix16 (a b : UInt8) : Option UInt8 :=
  if a = 43 then hexDigit b else do return 16 * (← hexDigit a) + (← hexDigit b)

def isCharBoundary (bytes : List UInt8) (i : ℕ) : Bool :=
  (bytes[i]?).all fun b => b &&& 0xc0 != 0x80

def parseRootPkHex (s : String) : Except RootPkHexError Bytes32 := do
  let bytes := s.toByteArray.data.toList
  if bytes.length ≠ 64 then throw (.expected64HexChars bytes.length)
  let out ← (List.range 32).mapM fun i => do
    if !(isCharBoundary bytes (2 * i) && isCharBoundary bytes (2 * i + 2)) then
      throw RootPkHexError.notCharBoundary
    match fromStrRadix16 (bytes.getD (2 * i) 0) (bytes.getD (2 * i + 1) 0) with
    | some b => return b
    | none => throw .invalidDigit
  return Vector.ofFn fun i => out.getD i 0

/-! ### The list and the table -/

structure RelayServingEntryConfig where
  foreignRootPkHex : String
  canRelayData : Bool
  canAssistHolepunch : Bool
  expiresAt : UInt64
deriving DecidableEq

inductive ConfigPatchAction
  | add
  | remove
  | clear
deriving DecidableEq

def ConfigPatchAction.tryFrom : ℤ → Option ConfigPatchAction
  | 0 => some .add
  | 1 => some .remove
  | 2 => some .clear
  | _ => none

structure RelayServingPatch where
  action : ℤ
  foreignRootPkHex : String
  canRelayData : Bool
  canAssistHolepunch : Bool
  expiresAt : UInt64
deriving DecidableEq

/-- The entry that an `Add` pushes. -/
def RelayServingPatch.entry (patch : RelayServingPatch) : RelayServingEntryConfig where
  foreignRootPkHex := patch.foreignRootPkHex
  canRelayData := patch.canRelayData
  canAssistHolepunch := patch.canAssistHolepunch
  expiresAt := patch.expiresAt

def applyRelayServingPatch (list : List RelayServingEntryConfig) (patch : RelayServingPatch) :
    List RelayServingEntryConfig :=
  match ConfigPatchAction.tryFrom patch.action with
  | some .add =>
    (list.filter fun entry => entry.foreignRootPkHex ≠ patch.foreignRootPkHex) ++ [patch.entry]
  | some .remove => list.filter fun entry => entry.foreignRootPkHex ≠ patch.foreignRootPkHex
  | some .clear => []
  | none => list

section

variable (T : TrustSuite) (isKey : Bytes32 → Bool)

def domainOfKey (hex : String) : Except RootPkHexError TrustDomainId := do
  let bytes ← parseRootPkHex hex
  return if isKey bytes then .fromRootPubkey T bytes else ⟨bytes⟩

/-- `get_relay_grant_table`; an error is a panic. -/
def getRelayGrantTable (list : List RelayServingEntryConfig) :
    Except RootPkHexError RelayGrantTable := do
  let entries ← list.mapM fun entry => do
    let foreignRootPk ← domainOfKey T isKey entry.foreignRootPkHex
    return (⟨foreignRootPk, ⟨entry.canRelayData, entry.canAssistHolepunch⟩, entry.expiresAt⟩ :
      RelayGrantEntry)
  return ⟨entries⟩

/-- What a patch works on: the list of the configuration, if there is a trust domain, and the table
in use. -/
structure RelayServingState where
  relayServing : Option (List RelayServingEntryConfig)
  relayGrants : RelayGrantTable

/-- How `patch_relay_serving` can fail. -/
inductive PatchFailure
  | noTrustDomain
  | panicked (e : RootPkHexError)
deriving DecidableEq

/-- `patch_relay_serving`.  The list is stored before the table is built. -/
def patchRelayServing (state : RelayServingState) (patches : List RelayServingPatch) :
    Except PatchFailure Unit × RelayServingState :=
  if patches = [] then (.ok (), state)
  else
    match state.relayServing with
    | none => (.error .noTrustDomain, state)
    | some list =>
      let list := patches.foldl applyRelayServingPatch list
      match getRelayGrantTable T isKey list with
      | .error e => (.error (.panicked e), { state with relayServing := some list })
      | .ok table => (.ok (), ⟨some list, table⟩)

/-! ### What the edits should do -/

namespace RelayServingPatch

def Names (patch : RelayServingPatch) (td : TrustDomainId) : Prop :=
  match ConfigPatchAction.tryFrom patch.action with
  | some .add | some .remove => domainOfKey T isKey patch.foreignRootPkHex = .ok td
  | some .clear => True
  | none => False

def ValidKey (patch : RelayServingPatch) : Prop :=
  match ConfigPatchAction.tryFrom patch.action with
  | some .add | some .remove => ∃ bytes, parseRootPkHex patch.foreignRootPkHex = .ok bytes
  | _ => True

def decision (patch : RelayServingPatch) (now : UInt64) : Option RelayCapabilities :=
  if ConfigPatchAction.tryFrom patch.action = some .add ∧ now < patch.expiresAt then
    some ⟨patch.canRelayData, patch.canAssistHolepunch⟩
  else none

end RelayServingPatch

structure LastNaming (patches pre : List RelayServingPatch) (patch : RelayServingPatch)
    (post : List RelayServingPatch) (td : TrustDomainId) : Prop where
  split : patches = pre ++ patch :: post
  names : patch.Names T isKey td
  last : ∀ q ∈ post, ¬ q.Names T isKey td

def EditsTakeEffect (state : RelayServingState) (patches : List RelayServingPatch) : Prop :=
  (∀ e, (patchRelayServing T isKey state patches).1 ≠ .error (.panicked e)) ∧
  (state.relayServing ≠ none → (∀ patch ∈ patches, patch.ValidKey) →
    ∀ pre patch post td, LastNaming T isKey patches pre patch post td → ∀ now,
      (patchRelayServing T isKey state patches).2.relayGrants.permits td now = patch.decision now)

/-! ### Lists after patches -/

namespace RelayServingPatch

def drops (patch : RelayServingPatch) (hex : String) : Bool :=
  match ConfigPatchAction.tryFrom patch.action with
  | some .add | some .remove => patch.foreignRootPkHex = hex
  | some .clear => true
  | none => false

def added (patch : RelayServingPatch) : Option RelayServingEntryConfig :=
  if ConfigPatchAction.tryFrom patch.action = some .add then some patch.entry else none

end RelayServingPatch

def keptBy (patch : RelayServingPatch) (list : List RelayServingEntryConfig) :
    List RelayServingEntryConfig := list.filter fun entry => !patch.drops entry.foreignRootPkHex

theorem applyRelayServingPatch_eq (list : List RelayServingEntryConfig)
    (patch : RelayServingPatch) :
    applyRelayServingPatch list patch = keptBy patch list ++ patch.added.toList := by
  unfold applyRelayServingPatch keptBy RelayServingPatch.drops RelayServingPatch.added
  rcases ConfigPatchAction.tryFrom patch.action with _ | _ | _ | _
  · simp
  · simp [eq_comm]
  · simp [eq_comm]
  · simp

variable {entry : RelayServingEntryConfig} {pre post : List RelayServingPatch}

theorem mem_applyRelayServingPatch {list : List RelayServingEntryConfig}
    {patch : RelayServingPatch} : entry ∈ applyRelayServingPatch list patch ↔
      entry ∈ list ∧ patch.drops entry.foreignRootPkHex = false ∨ patch.added = some entry := by
  simp [applyRelayServingPatch_eq, keptBy, Option.mem_toList]

def Stays (list : List RelayServingEntryConfig) (patches : List RelayServingPatch)
    (entry : RelayServingEntryConfig) : Prop :=
  (entry ∈ list ∧ ∀ q ∈ patches, q.drops entry.foreignRootPkHex = false) ∨
  ∃ pre patch post, patches = pre ++ patch :: post ∧ patch.added = some entry ∧
    ∀ q ∈ post, q.drops entry.foreignRootPkHex = false

theorem mem_foldl_applyRelayServingPatch {patches : List RelayServingPatch}
    {list : List RelayServingEntryConfig} :
    entry ∈ patches.foldl applyRelayServingPatch list ↔ Stays list patches entry := by
  induction patches generalizing list with
  | nil => simp [Stays]
  | cons p patches ih =>
    rw [foldl_cons, ih, Stays, Stays, mem_applyRelayServingPatch, forall_mem_cons]
    constructor
    · rintro (⟨⟨hmem, hp⟩ | hadd, hq⟩ | ⟨pre, patch, post, rfl, hadd, hq⟩)
      · exact .inl ⟨hmem, hp, hq⟩
      · exact .inr ⟨[], p, patches, rfl, hadd, hq⟩
      · exact .inr ⟨p :: pre, patch, post, rfl, hadd, hq⟩
    · rintro (⟨hmem, hp, hq⟩ | ⟨pre, patch, post, hsplit, hadd, hq⟩)
      · exact .inl ⟨.inl ⟨hmem, hp⟩, hq⟩
      · obtain ⟨rfl, hpost⟩ | ⟨pre', rfl, hpost⟩ := cons_eq_append_iff.1 hsplit
        · obtain ⟨rfl, rfl⟩ := List.cons.inj hpost
          exact .inl ⟨.inr hadd, hq⟩
        · exact .inr ⟨pre', patch, post, hpost, hadd, hq⟩

/-! ### What a list permits -/

def inForce (td : TrustDomainId) (now : UInt64) (entry : RelayServingEntryConfig) : Bool :=
  domainOfKey T isKey entry.foreignRootPkHex = .ok td ∧ now < entry.expiresAt

def listPermits (list : List RelayServingEntryConfig) (td : TrustDomainId) (now : UInt64) :
    Option RelayCapabilities :=
  (list.find? (inForce T isKey td now)).map fun entry =>
    ⟨entry.canRelayData, entry.canAssistHolepunch⟩

variable {T isKey} {list : List RelayServingEntryConfig} {patch : RelayServingPatch}
  {td : TrustDomainId} {now : UInt64}

theorem permits_of_getRelayGrantTable {table : RelayGrantTable}
    (h : getRelayGrantTable T isKey list = .ok table) :
    table.permits td now = listPermits T isKey list td now := by
  simp only [getRelayGrantTable, Checks.bind_eq_ok_iff, Checks.mapM_eq_ok_iff] at h
  obtain ⟨entries, hentries, htable⟩ := h
  obtain rfl := Except.ok.inj htable
  clear htable
  induction hentries with
  | nil => rfl
  | @cons entry grant list entries hhead _ ih =>
    obtain ⟨domain, hdomain, hgrant⟩ := hhead
    obtain rfl := Except.ok.inj hgrant
    have hsame : (domain == td && decide (now < entry.expiresAt)) =
        inForce T isKey td now entry := by
      simp [inForce, hdomain, beq_eq_decide]
    simp only [RelayGrantTable.permits, listPermits, find?_cons, hsame] at ih ⊢
    cases inForce T isKey td now entry with
    | false => exact ih
    | true => rfl

theorem listPermits_append (l l' : List RelayServingEntryConfig) :
    listPermits T isKey (l ++ l') td now =
      (listPermits T isKey l td now).or (listPermits T isKey l' td now) := by
  rw [listPermits, find?_append, Option.map_or]
  rfl

theorem listPermits_of_names (h : patch.Names T isKey td) :
    listPermits T isKey (applyRelayServingPatch list patch) td now =
      (listPermits T isKey (keptBy patch list) td now).or (patch.decision now) := by
  have hnew : listPermits T isKey patch.added.toList td now = patch.decision now := by
    unfold RelayServingPatch.added RelayServingPatch.decision
    by_cases hadd : ConfigPatchAction.tryFrom patch.action = some .add
    · have hkey : domainOfKey T isKey patch.foreignRootPkHex = .ok td := by
        simpa [RelayServingPatch.Names, hadd] using h
      by_cases hnow : now < patch.expiresAt <;>
        simp [hadd, hnow, hkey, listPermits, inForce, RelayServingPatch.entry]
    · simp [hadd, listPermits]
  rw [applyRelayServingPatch_eq, listPermits_append, hnew]

theorem RelayServingPatch.names_of_drops {hex : String} (hdrops : patch.drops hex = true)
    (hkey : domainOfKey T isKey hex = .ok td) : patch.Names T isKey td := by
  unfold drops at hdrops
  unfold Names
  split at hdrops
  · rwa [of_decide_eq_true hdrops]
  · rwa [of_decide_eq_true hdrops]
  · trivial
  · cases hdrops

theorem RelayServingPatch.drops_of_added (h : patch.added = some entry) :
    patch.drops entry.foreignRootPkHex = true := by
  unfold added at h
  split at h
  · next hadd =>
    obtain rfl := Option.some.inj h
    simp [drops, hadd, RelayServingPatch.entry]
  · cases h

theorem listPermits_of_not_names (h : ¬ patch.Names T isKey td) :
    listPermits T isKey (applyRelayServingPatch list patch) td now =
      listPermits T isKey list td now := by
  have hdrops : ∀ entry, inForce T isKey td now entry = true →
      patch.drops entry.foreignRootPkHex = false := by
    intro entry hin
    rw [← Bool.not_eq_true]
    exact fun hd => h (patch.names_of_drops hd (of_decide_eq_true hin).1)
  have hkept : (keptBy patch list).find? (inForce T isKey td now) =
      list.find? (inForce T isKey td now) := by
    rw [keptBy, find?_filter]
    congr 1
    funext entry
    cases hin : inForce T isKey td now entry with
    | false => simp
    | true => simp [hdrops entry hin]
  have hnew : listPermits T isKey patch.added.toList td now = none := by
    rw [listPermits, Option.map_eq_none_iff, find?_eq_none]
    intro entry hentry hin
    have hd := patch.drops_of_added (Option.mem_toList.1 hentry)
    rw [hdrops entry hin] at hd
    cases hd
  rw [applyRelayServingPatch_eq, listPermits_append, hnew, Option.or_none, listPermits, hkept,
    listPermits]

theorem listPermits_foldl_of_not_names {patches : List RelayServingPatch}
    (h : ∀ q ∈ patches, ¬ q.Names T isKey td) :
    listPermits T isKey (patches.foldl applyRelayServingPatch list) td now =
      listPermits T isKey list td now := by
  induction patches generalizing list with
  | nil => rfl
  | cons patch patches ih =>
    obtain ⟨hpatch, hrest⟩ := forall_mem_cons.1 h
    rw [foldl_cons, ih hrest, listPermits_of_not_names hpatch]

/-! ### Entries under another text -/

def Counts (T : TrustSuite) (isKey : Bytes32 → Bool) (list : List RelayServingEntryConfig)
    (td : TrustDomainId) (entry : RelayServingEntryConfig) : Prop :=
  ∃ l l', list = l ++ entry :: l' ∧ 0 < entry.expiresAt ∧
    domainOfKey T isKey entry.foreignRootPkHex = .ok td ∧
    ∀ e ∈ l, domainOfKey T isKey e.foreignRootPkHex = .ok td → e.expiresAt < entry.expiresAt

theorem sub_one_lt_iff_le {a b : UInt64} (ha : 0 < a) : a - 1 < b ↔ a ≤ b := by
  have hone : 1 ≤ a.toNat := ha
  have hsub : (a - 1).toNat = a.toNat - 1 := UInt64.toNat_sub_of_le a 1 hone
  rw [UInt64.lt_iff_toNat_lt, UInt64.le_iff_toNat_le, hsub]
  omega

theorem find?_of_counts (h : Counts T isKey list td entry) :
    list.find? (inForce T isKey td (entry.expiresAt - 1)) = some entry := by
  obtain ⟨l, l', hlist, hpos, hkey, hbefore⟩ := h
  rw [find?_eq_some_iff_append]
  refine ⟨?_, l, l', hlist, fun e he => ?_⟩
  · exact decide_eq_true ⟨hkey, (sub_one_lt_iff_le hpos).2 (UInt64.le_refl _)⟩
  · rw [Bool.not_eq_true', inForce, decide_eq_false_iff_not, sub_one_lt_iff_le hpos]
    rintro ⟨hkeye, hle⟩
    exact UInt64.not_le.2 (hbefore e he hkeye) hle

theorem counts_of_find? (h : list.find? (inForce T isKey td now) = some entry) :
    Counts T isKey list td entry := by
  obtain ⟨hin, l, l', hlist, hbefore⟩ := find?_eq_some_iff_append.1 h
  obtain ⟨hkey, hnow⟩ := of_decide_eq_true hin
  refine ⟨l, l', hlist, ?_, hkey, fun e he hkeye => ?_⟩
  · exact UInt64.lt_of_le_of_lt UInt64.zero_le hnow
  · have hout := hbefore e he
    rw [Bool.not_eq_true', inForce, decide_eq_false_iff_not] at hout
    exact UInt64.lt_of_le_of_lt (UInt64.not_lt.1 fun hlt => hout ⟨hkeye, hlt⟩) hnow

def RelayServingPatch.Covers (patch : RelayServingPatch) (entry : RelayServingEntryConfig) : Prop :=
  ConfigPatchAction.tryFrom patch.action = some .add ∧ entry.canRelayData = patch.canRelayData ∧
    entry.canAssistHolepunch = patch.canAssistHolepunch ∧ entry.expiresAt ≤ patch.expiresAt

theorem or_decision_iff :
    (∀ now, (listPermits T isKey list td now).or (patch.decision now) = patch.decision now) ↔
      ∀ entry, Counts T isKey list td entry → patch.Covers entry := by
  constructor
  · intro h entry hcounts
    have hpos : 0 < entry.expiresAt := by
      obtain ⟨_, _, _, hpos, _⟩ := hcounts
      exact hpos
    have hlast := h (entry.expiresAt - 1)
    rw [listPermits, find?_of_counts hcounts, Option.map_some, Option.some_or, eq_comm,
      RelayServingPatch.decision] at hlast
    split at hlast
    · next hadd =>
      simp only [Option.some.injEq, RelayCapabilities.mk.injEq] at hlast
      exact ⟨hadd.1, hlast.1.symm, hlast.2.symm, (sub_one_lt_iff_le hpos).1 hadd.2⟩
    · cases hlast
  · intro h now
    cases hfind : list.find? (inForce T isKey td now) with
    | none => rw [listPermits, hfind, Option.map_none, Option.none_or]
    | some entry =>
      obtain ⟨hadd, hdata, hpunch, hle⟩ := h entry (counts_of_find? hfind)
      have hin := find?_some hfind
      have hnow := (of_decide_eq_true hin).2
      have hpatch := UInt64.lt_of_lt_of_le hnow hle
      rw [listPermits, hfind, RelayServingPatch.decision, if_pos ⟨hadd, hpatch⟩, Option.map_some,
        Option.some_or, hdata, hpunch]

variable (T isKey) in
theorem exists_getRelayGrantTable_iff :
    (∃ table, getRelayGrantTable T isKey list = .ok table) ↔
      ∀ entry ∈ list, ∃ bytes, parseRootPkHex entry.foreignRootPkHex = .ok bytes := by
  unfold getRelayGrantTable
  have htable : ∀ x : Except RootPkHexError (List RelayGrantEntry),
      (∃ table, (x >>= fun entries => pure (⟨entries⟩ : RelayGrantTable)) = .ok table) ↔
        ∃ entries, x = .ok entries := by
    intro x
    cases x with
    | error e => exact ⟨nofun, nofun⟩
    | ok entries => exact ⟨fun _ => ⟨entries, rfl⟩, fun _ => ⟨⟨entries⟩, rfl⟩⟩
  rw [htable, Checks.exists_mapM_eq_ok_iff]
  refine forall₂_congr fun entry _ => ?_
  unfold domainOfKey
  cases parseRootPkHex entry.foreignRootPkHex with
  | error e => exact ⟨nofun, nofun⟩
  | ok bytes => exact ⟨fun _ => ⟨bytes, rfl⟩, fun _ => ⟨_, rfl⟩⟩

variable {state : RelayServingState} {patches : List RelayServingPatch}

variable (T isKey) in
theorem not_panicked_iff (hlist : state.relayServing = some list) :
    (∀ e, (patchRelayServing T isKey state patches).1 ≠ .error (.panicked e)) ↔
      (patches ≠ [] → ∀ entry, Stays list patches entry →
        ∃ bytes, parseRootPkHex entry.foreignRootPkHex = .ok bytes) := by
  simp only [← mem_foldl_applyRelayServingPatch, ← exists_getRelayGrantTable_iff T isKey]
  unfold patchRelayServing
  by_cases hnil : patches = []
  · simp [hnil]
  · simp only [hnil, hlist, if_false]
    cases getRelayGrantTable T isKey (patches.foldl applyRelayServingPatch list) with
    | error e => simp [hnil]
    | ok table => simp

theorem permits_patchRelayServing (hlist : state.relayServing = some list) (hnil : patches ≠ [])
    (hok : ∀ e, (patchRelayServing T isKey state patches).1 ≠ .error (.panicked e)) :
    (patchRelayServing T isKey state patches).2.relayGrants.permits td now =
      listPermits T isKey (patches.foldl applyRelayServingPatch list) td now := by
  unfold patchRelayServing at hok ⊢
  simp only [hnil, hlist, if_false] at hok ⊢
  cases htable : getRelayGrantTable T isKey
      (patches.foldl applyRelayServingPatch list) with
  | error e =>
    rw [htable] at hok
    exact absurd rfl (hok e)
  | ok table => exact permits_of_getRelayGrantTable htable

theorem permits_eq_decision_iff (hlist : state.relayServing = some list)
    (hok : ∀ e, (patchRelayServing T isKey state patches).1 ≠ .error (.panicked e))
    (hlast : LastNaming T isKey patches pre patch post td) :
    (∀ now, (patchRelayServing T isKey state patches).2.relayGrants.permits td now =
        patch.decision now) ↔
      ∀ entry, Counts T isKey (keptBy patch (pre.foldl applyRelayServingPatch list)) td
        entry → patch.Covers entry := by
  have hnil : patches ≠ [] := by
    simp [hlast.split]
  simp only [permits_patchRelayServing hlist hnil hok, ← or_decision_iff]
  rw [hlast.split]
  simp only [foldl_append, foldl_cons, listPermits_foldl_of_not_names hlast.last,
    listPermits_of_names hlast.names]

structure EditsAgree (T : TrustSuite) (isKey : Bytes32 → Bool)
    (list : List RelayServingEntryConfig) (patches : List RelayServingPatch) : Prop where
  /-- every key that is left parses -/
  keys : patches ≠ [] → ∀ entry, Stays list patches entry →
    ∃ bytes, parseRootPkHex entry.foreignRootPkHex = .ok bytes
  /-- the last patch for a trust domain covers the entries that count for it under other texts -/
  texts : (∀ patch ∈ patches, patch.ValidKey) →
    ∀ pre patch post td, LastNaming T isKey patches pre patch post td →
      ∀ entry, Counts T isKey (keptBy patch (pre.foldl applyRelayServingPatch list)) td
        entry → patch.Covers entry

/-- **The last patch for a trust domain decides, and the node goes on, exactly when all keys that
are left parse and no entry for the domain under another text gives something else.** -/
theorem relay_edits_take_effect_iff (T : TrustSuite) (isKey : Bytes32 → Bool)
    (state : RelayServingState) (patches : List RelayServingPatch) :
    EditsTakeEffect T isKey state patches ↔
      ∀ list, state.relayServing = some list → EditsAgree T isKey list patches := by
  cases hlist : state.relayServing with
  | none =>
    have hok : ∀ e, (patchRelayServing T isKey state patches).1 ≠ .error (.panicked e) := by
      intro e
      unfold patchRelayServing
      split <;> simp [hlist]
    exact ⟨fun _ => nofun, fun _ => ⟨hok, fun h => absurd hlist h⟩⟩
  | some list =>
    constructor
    · rintro ⟨hok, heffect⟩ _ ⟨⟩
      have hkeys := (not_panicked_iff T isKey hlist).1 hok
      refine ⟨hkeys, fun hvalid pre patch post td hlast => ?_⟩
      have hdecides := heffect (by simp [hlist]) hvalid pre patch post td hlast
      exact (permits_eq_decision_iff hlist hok hlast).1 hdecides
    · intro h
      have hok := (not_panicked_iff T isKey hlist).2 (h list rfl).keys
      refine ⟨hok, fun _ hvalid pre patch post td hlast => ?_⟩
      have hcovers := (h list rfl).texts hvalid pre patch post td hlast
      exact (permits_eq_decision_iff hlist hok hlast).2 hcovers

theorem not_editsTakeEffect (hlist : state.relayServing ≠ none) (hvalid : patch.ValidKey)
    (hnames : patch.Names T isKey td)
    (h : (patchRelayServing T isKey state [patch]).2.relayGrants.permits td now ≠
      patch.decision now) : ¬ EditsTakeEffect T isKey state [patch] := by
  intro heffect
  refine h (heffect.2 hlist ?_ [] patch [] td ⟨rfl, hnames, nofun⟩ now)
  simpa using hvalid

end

def sampleKeySuite : TrustSuite :=
  { sampleSuite with sha256 := fun bytes => Vector.ofFn fun i => bytes.getD i 0 + 1 }

/-- The only root key is `[0xbb, 0xbb, …]`. -/
def sampleIsVerifyingKey (bytes : Bytes32) : Bool := bytes = all32 0xbb

def sampleKeyHex (a b : Char) : String := String.ofList (List.replicate 32 [a, b]).flatten

def sampleServing (hex : String) : RelayServingState := ⟨some [⟨hex, true, false, 100⟩], ⟨[]⟩⟩

/-- **A removal in small letters leaves the grant in capitals, an addition in small letters is not
looked at, a removal by the root key leaves the grant by the id, and a short key stops the node.**
-/
theorem relay_edit_ignored :
    ¬ EditsTakeEffect sampleKeySuite sampleIsVerifyingKey (sampleServing (sampleKeyHex 'A' 'A'))
        [⟨1, sampleKeyHex 'a' 'a', false, false, 0⟩] ∧
      ¬ EditsTakeEffect sampleKeySuite sampleIsVerifyingKey (sampleServing (sampleKeyHex 'A' 'A'))
        [⟨0, sampleKeyHex 'a' 'a', false, true, 100⟩] ∧
      ¬ EditsTakeEffect sampleKeySuite sampleIsVerifyingKey (sampleServing (sampleKeyHex 'b' 'c'))
        [⟨1, sampleKeyHex 'b' 'b', false, false, 0⟩] ∧
      (patchRelayServing sampleKeySuite sampleIsVerifyingKey (sampleServing (sampleKeyHex 'A' 'A'))
        [⟨0, "zz", true, false, 100⟩]).1 = .error (.panicked (.expected64HexChars 2)) := by
  have hsmall : parseRootPkHex (sampleKeyHex 'a' 'a') = .ok (all32 0xaa) := by
    decide +kernel
  have hroot : parseRootPkHex (sampleKeyHex 'b' 'b') = .ok (all32 0xbb) := by
    decide +kernel
  have hsmallDomain : domainOfKey sampleKeySuite sampleIsVerifyingKey (sampleKeyHex 'a' 'a') =
      .ok ⟨all32 0xaa⟩ := by
    decide +kernel
  have hrootDomain : domainOfKey sampleKeySuite sampleIsVerifyingKey (sampleKeyHex 'b' 'b') =
      .ok ⟨all32 0xbc⟩ := by
    decide +kernel
  refine ⟨?_, ?_, ?_, by decide +kernel⟩
  · exact not_editsTakeEffect (by decide) ⟨_, hsmall⟩ hsmallDomain
      (by decide +kernel : _ ≠ RelayServingPatch.decision _ 5)
  · exact not_editsTakeEffect (by decide) ⟨_, hsmall⟩ hsmallDomain
      (by decide +kernel : _ ≠ RelayServingPatch.decision _ 5)
  · exact not_editsTakeEffect (by decide) ⟨_, hroot⟩ hrootDomain
      (by decide +kernel : _ ≠ RelayServingPatch.decision _ 5)

end PactMesh
