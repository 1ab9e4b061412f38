import PactMesh.Common.TokenBucket
import PactMesh.Lib.Ip
import PactMesh.Lib.OrderedMap
import PactMesh.Lib.Text
import PactMesh.Lib.Trans

/-!
# The legacy ACL

A processor compiles the rules of the enabled chains, and the first rule that matches a packet
decides.  Results are cached, and rules with a rate limit also ask a token bucket.  Connection
tracking and statistics are left out: nothing here reads them.

Main result: `cached_decisions_agree`.
-/

namespace PactMesh.LegacyAcl

open Outcome Option OrderedMap

/-- `Protocol`; numbers that it does not have are read as the first. -/
inductive Protocol
  | unspecified
  | tcp
  | udp
  | icmp
  | icmpv6
  | any
deriving DecidableEq

inductive Action
  | noop
  | allow
  | drop
deriving DecidableEq

/-- `ChainType`; numbers that it does not have are read as the first. -/
inductive ChainType
  | unspecified
  | inbound
  | outbound
  | forward
deriving DecidableEq

structure Rule where
  priority : UInt32
  enabled : Bool
  protocol : Protocol
  ports : List String
  sourceIps : List String
  destinationIps : List String
  sourcePorts : List String
  action : Action
  rateLimit : UInt32
  burstLimit : UInt32
  stateful : Bool
  sourceGroups : List String
  destinationGroups : List String
deriving DecidableEq

structure Chain where
  chainType : ChainType
  enabled : Bool
  rules : List Rule
  defaultAction : Action
deriving DecidableEq

/-- `Acl`; without `acl_v1` there are no chains. -/
structure Acl where
  chains : List Chain
deriving DecidableEq

structure FastLookupRule where
  priority : UInt32
  protocol : Protocol
  srcIpRanges : List IpNet
  dstIpRanges : List IpNet
  srcPortRanges : List (UInt16 × UInt16)
  dstPortRanges : List (UInt16 × UInt16)
  sourceGroups : List String
  destinationGroups : List String
  action : Action
  enabled : Bool
  stateful : Bool
  rateLimit : UInt32
  burstLimit : UInt32

def parsePortRange (s : String) : Option (UInt16 × UInt16) :=
  let parse (cs : List Char) := (parseUnsigned 65535 (trim (String.ofList cs))).map UInt16.ofNat
  let start := s.toList.takeWhile (· ≠ '-')
  match s.toList.drop start.length with
  | [] => (parse start).map fun port => (port, port)
  | _ :: stop => do return (← parse start, ← parse stop)

/-- `convert_to_fast_lookup_rule`; `parseCidr` is `cidr::IpCidr::from_str`. -/
def convertToFastLookupRule (parseCidr : String → Option IpNet) (rule : Rule) : FastLookupRule where
  priority := rule.priority
  protocol := rule.protocol
  srcIpRanges := rule.sourceIps.filterMap parseCidr
  dstIpRanges := rule.destinationIps.filterMap parseCidr
  srcPortRanges := rule.sourcePorts.filterMap parsePortRange
  dstPortRanges := rule.ports.filterMap parsePortRange
  sourceGroups := rule.sourceGroups
  destinationGroups := rule.destinationGroups
  action := rule.action
  enabled := rule.enabled
  stateful := rule.stateful
  rateLimit := rule.rateLimit
  burstLimit := rule.burstLimit

def Protocol.hasPorts (protocol : Protocol) : Bool := protocol == .tcp || protocol == .udp

theorem hasPorts_tcp : true = Protocol.tcp.hasPorts := rfl

theorem hasPorts_icmp : false = Protocol.icmp.hasPorts := rfl

/-- `PacketInfo`, which is made with ports just for the protocols that have them. -/
structure PacketInfo where
  srcIp : IpAddr
  dstIp : IpAddr
  srcPort : Option UInt16
  dstPort : Option UInt16
  protocol : Protocol
  packetSize : ℕ
  srcGroups : List String
  dstGroups : List String
  isSome_srcPort : srcPort.isSome = protocol.hasPorts
  isSome_dstPort : dstPort.isSome = protocol.hasPorts
deriving DecidableEq

def anyOrEmpty {α : Type} (l : List α) (p : α → Bool) : Bool := l.isEmpty || l.any p

def inRange (port : UInt16) (range : UInt16 × UInt16) : Bool := range.1 ≤ port && port ≤ range.2

/-- `rule_matches` -/
def FastLookupRule.matches (rule : FastLookupRule) (info : PacketInfo) : Bool :=
  (rule.protocol == .any || rule.protocol == info.protocol) &&
    anyOrEmpty rule.srcIpRanges (·.contains info.srcIp) &&
    anyOrEmpty rule.dstIpRanges (·.contains info.dstIp) &&
    info.srcPort.all (fun port => anyOrEmpty rule.srcPortRanges (inRange port)) &&
    info.dstPort.all (fun port => anyOrEmpty rule.dstPortRanges (inRange port)) &&
    (rule.sourceGroups.isEmpty || info.srcGroups.any rule.sourceGroups.contains) &&
    (rule.destinationGroups.isEmpty || info.dstGroups.any rule.destinationGroups.contains)

inductive RuleId
  | priority (p : UInt32)
  | stateful (p : UInt32)
  | default
deriving DecidableEq

inductive AclLogContext
  | statefulMatch (srcIp dstIp : IpAddr)
  | ruleMatch (srcIp dstIp : IpAddr) (action : Action)
  | defaultDrop
  | defaultAllow
  | unsupportedChainType
  | rateLimitDrop
deriving DecidableEq

/-- `AclResult`; nothing is ever to be logged. -/
structure AclResult where
  action : Action
  matchedRule : RuleId
  logContext : AclLogContext
deriving DecidableEq

structure RateLimitKey where
  chainType : ChainType
  rulePriority : UInt32
deriving DecidableEq

/-- `RateLimitValue`, with a time in milliseconds. -/
structure RateLimitValue where
  tokenBucket : TokenBucket
  lastUpdate : ℕ

structure AclCacheKey where
  chainType : ChainType
  protocol : Protocol
  srcIp : IpAddr
  dstIp : IpAddr
  srcPort : UInt16
  dstPort : UInt16
  srcGroups : List String
  dstGroups : List String
deriving DecidableEq

def AclCacheKey.fromPacketInfo (info : PacketInfo) (chainType : ChainType) : AclCacheKey :=
  ⟨chainType, info.protocol, info.srcIp, info.dstIp, info.srcPort.getD 0, info.dstPort.getD 0,
    info.srcGroups, info.dstGroups⟩

/-- `AclCacheEntry`, whose result is known when it is stored. -/
structure AclCacheEntry where
  matchedRule : RuleId
  lastAccess : ℕ
  rateLimitKeys : List RateLimitKey
  aclResult : AclResult

structure Tables where
  ruleCache : OrderedMap AclCacheKey AclCacheEntry
  rateLimiters : OrderedMap RateLimitKey RateLimitValue

/-- `AclProcessor`: the rules and the default action of each type of chain. -/
structure Processor where
  rules : ChainType → List FastLookupRule
  defaultAction : ChainType → Action

/-- `build_rules` and `build_default_actions` -/
def Processor.new (parseCidr : String → Option IpNet) (acl : Acl) : Processor where
  rules chainType :=
    (acl.chains.filter fun chain => chain.enabled && chain.chainType == chainType).flatMap
      fun chain =>
        ((chain.rules.filter (·.enabled)).map (convertToFastLookupRule parseCidr)).insertionSort
          fun a b => b.priority ≤ a.priority
  defaultAction chainType :=
    -- a disabled chain is found, too
    ((acl.chains.find? (·.chainType == chainType)).map (·.defaultAction)).getD .allow

/-- `check_rate_limit`; a bucket that may not be created has to be there. -/
def checkRateLimit (now : ℕ) (key : RateLimitKey) (rate burst : UInt32) (allowCreate : Bool)
    (limiters : OrderedMap RateLimitKey RateLimitValue) :
    Outcome (Bool × OrderedMap RateLimitKey RateLimitValue) :=
  let take (bucket : TokenBucket) :=
    ((bucket.tryConsume 1).1, limiters.insert key ⟨(bucket.tryConsume 1).2, now⟩)
  if rate = 0 then return (true, limiters)
  else
    match limiters.get key with
    | some value => return take value.tokenBucket
    | none =>
      if allowCreate then return take (.newFromCfg ⟨burst.toNat, rate.toNat, 10⟩) else .panics .explicitPanic

def removeOldest (maxSize : ℕ) (cache : OrderedMap AclCacheKey AclCacheEntry) :
    OrderedMap AclCacheKey AclCacheEntry :=
  let size := cache.entries.length
  if size ≤ maxSize then cache
  else
    ((cache.entries.insertionSort fun a b => a.2.lastAccess ≤ b.2.lastAccess).take
      (size - maxSize + maxSize / 5)).foldl (fun cache entry => cache.erase entry.1) cache

/-- `cleanup_cache`: also remove what was not used for fifteen seconds. -/
def cleanupCache (now maxSize : ℕ) (cache : OrderedMap AclCacheKey AclCacheEntry) :
    OrderedMap AclCacheKey AclCacheEntry :=
  let expiredTimepoint := if now < 15000 then now else now - 15000
  removeOldest maxSize (cache.filter fun entry => expiredTimepoint < entry.lastAccess)

def cacheMaxSize : ℕ := 1024

def Tables.cacheResult (now : ℕ) (key : AclCacheKey) (entry : AclCacheEntry) (tables : Tables) :
    Tables :=
  let cache := tables.ruleCache.insert key entry
  { tables with
    ruleCache :=
      if cacheMaxSize * 2 < cache.entries.length then cleanupCache now cacheMaxSize cache
      else cache }

def checkRateLimits (now : ℕ) : List RateLimitKey → OrderedMap RateLimitKey RateLimitValue →
    Outcome (Bool × OrderedMap RateLimitKey RateLimitValue)
  | [], limiters => return (true, limiters)
  | key :: keys, limiters => do
    let (granted, limiters) ← checkRateLimit now key 1 1 false limiters
    if granted then checkRateLimits now keys limiters else return (false, limiters)

def processPacketWithCacheEntry (now : ℕ) (entry : AclCacheEntry) (tables : Tables) :
    Outcome (AclResult × Tables) := do
  let (granted, limiters) ← checkRateLimits now entry.rateLimitKeys tables.rateLimiters
  return (if granted then entry.aclResult else ⟨.drop, entry.matchedRule, .rateLimitDrop⟩,
    { tables with rateLimiters := limiters })

def FastLookupRule.result (rule : FastLookupRule) (info : PacketInfo) : AclResult :=
  if rule.stateful && rule.action == .allow then
    ⟨.allow, .stateful rule.priority, .statefulMatch info.srcIp info.dstIp⟩
  else ⟨rule.action, .priority rule.priority, .ruleMatch info.srcIp info.dstIp rule.action⟩

def FastLookupRule.rateLimitKeys (rule : FastLookupRule) (chainType : ChainType) :
    List RateLimitKey :=
  if 0 < rule.rateLimit then [⟨chainType, rule.priority⟩] else []

namespace Processor

variable (P : Processor)

def firstMatch (chainType : ChainType) (info : PacketInfo) : Option FastLookupRule :=
  (P.rules chainType).find? fun rule => rule.enabled && rule.matches info

def defaultResult (chainType : ChainType) : AclResult :=
  ⟨P.defaultAction chainType, .default,
    if P.defaultAction chainType = .drop then .defaultDrop else .defaultAllow⟩

def processPacket (now : ℕ) (info : PacketInfo) (chainType : ChainType) (tables : Tables) :
    Outcome (AclResult × Tables) :=
  let key := AclCacheKey.fromPacketInfo info chainType
  match tables.ruleCache.get key with
  | some cached =>
    processPacketWithCacheEntry now cached
      { tables with ruleCache := tables.ruleCache.replace key { cached with lastAccess := now } }
  | none =>
    if chainType = .unspecified then
      return (⟨.drop, .default, .unsupportedChainType⟩, tables)
    else
      match P.firstMatch chainType info with
      | some rule => do
        let (granted, limiters) ← checkRateLimit now ⟨chainType, rule.priority⟩ rule.rateLimit
          rule.burstLimit true tables.rateLimiters
        let tables := { tables with rateLimiters := limiters }
        if granted then
          let result := rule.result info
          return (result, tables.cacheResult now key
            ⟨result.matchedRule, now, rule.rateLimitKeys chainType, result⟩)
        else return (⟨.drop, .priority rule.priority, .rateLimitDrop⟩, tables)
      | none =>
        let result := P.defaultResult chainType
        return (result, tables.cacheResult now key ⟨.default, now, [], result⟩)

/-! ### What the rules say -/

def decision (chainType : ChainType) (info : PacketInfo) : AclResult :=
  if chainType = .unspecified then ⟨.drop, .default, .unsupportedChainType⟩
  else (P.firstMatch chainType info).elim (P.defaultResult chainType) (·.result info)

def limitsOf (chainType : ChainType) (info : PacketInfo) : List RateLimitKey :=
  (P.firstMatch chainType info).elim [] (·.rateLimitKeys chainType)

def CacheOk (cache : OrderedMap AclCacheKey AclCacheEntry) : Prop :=
  ∀ key entry, cache.get key = some entry → ∃ info chainType,
    key = .fromPacketInfo info chainType ∧ entry.aclResult = P.decision chainType info ∧
      entry.rateLimitKeys = P.limitsOf chainType info

variable {P}

theorem eq_of_fromPacketInfo_eq {info info' : PacketInfo} {chainType chainType' : ChainType}
    (h : AclCacheKey.fromPacketInfo info chainType = .fromPacketInfo info' chainType') :
    chainType = chainType' ∧ info' = { info with packetSize := info'.packetSize } := by
  have hport : ∀ {p p' : Option UInt16}, p.isSome = p'.isSome → p.getD 0 = p'.getD 0 → p' = p := by
    intro p p' hsome hget
    cases p <;> cases p' <;> simp_all
  obtain ⟨src, dst, sport, dport, protocol, size, sgroups, dgroups, hs, hd⟩ := info
  obtain ⟨src', dst', sport', dport', protocol', size', sgroups', dgroups', hs', hd'⟩ := info'
  simp only [AclCacheKey.fromPacketInfo, AclCacheKey.mk.injEq] at h
  obtain ⟨rfl, rfl, rfl, rfl, hsport, hdport, rfl, rfl⟩ := h
  obtain rfl := hport (hs.trans hs'.symm) hsport
  obtain rfl := hport (hd.trans hd'.symm) hdport
  exact ⟨rfl, rfl⟩

variable {cache : OrderedMap AclCacheKey AclCacheEntry}

theorem CacheOk.mono {cache' : OrderedMap AclCacheKey AclCacheEntry} (h : P.CacheOk cache)
    (hsub : ∀ key entry, cache'.get key = some entry → ∃ old, cache.get key = some old ∧
      entry.aclResult = old.aclResult ∧ entry.rateLimitKeys = old.rateLimitKeys) :
    P.CacheOk cache' := by
  intro key entry hentry
  obtain ⟨old, hold, hresult, hkeys⟩ := hsub key entry hentry
  rw [hresult, hkeys]
  exact h key old hold

theorem CacheOk.removeOldest (h : P.CacheOk cache) (maxSize : ℕ) :
    P.CacheOk (removeOldest maxSize cache) := by
  unfold LegacyAcl.removeOldest
  dsimp only
  split
  · exact h
  · refine List.foldlRecOn (motive := P.CacheOk) _ _ h fun cache hcache e _ => ?_
    refine hcache.mono fun key entry hentry => ⟨entry, ?_, rfl, rfl⟩
    rw [get_erase] at hentry
    exact (ite_none_left_eq_some.1 hentry).2

theorem CacheOk.cleanupCache (h : P.CacheOk cache) (now maxSize : ℕ) :
    P.CacheOk (cleanupCache now maxSize cache) := by
  refine CacheOk.removeOldest (h.mono fun key entry hentry => ⟨entry, ?_, rfl, rfl⟩) maxSize
  exact get_of_mem (List.mem_of_mem_filter (mem_of_get hentry))

theorem CacheOk.cacheResult {tables : Tables} (h : P.CacheOk tables.ruleCache) (now : ℕ)
    {info : PacketInfo} {chainType : ChainType} {entry : AclCacheEntry}
    (hresult : entry.aclResult = P.decision chainType info)
    (hkeys : entry.rateLimitKeys = P.limitsOf chainType info) :
    P.CacheOk (tables.cacheResult now (.fromPacketInfo info chainType) entry).ruleCache := by
  have hinsert : P.CacheOk (tables.ruleCache.insert (.fromPacketInfo info chainType) entry) := by
    intro key entry' hentry
    rw [get_insert] at hentry
    split_ifs at hentry with hkey
    · cases hentry
      exact ⟨info, chainType, hkey, hresult, hkeys⟩
    · exact h key entry' hentry
  unfold Tables.cacheResult
  dsimp only
  split_ifs
  · exact hinsert.cleanupCache now cacheMaxSize
  · exact hinsert

variable {now : ℕ} {info : PacketInfo} {chainType : ChainType} {tables tables' : Tables}
  {result : AclResult}

/-- **A result is the decision of the rules, unless a rate limit drops the packet**, and the cache
holds decisions again. -/
theorem processPacket_spec (hcache : P.CacheOk tables.ruleCache)
    (h : P.processPacket now info chainType tables = .returns (result, tables')) :
    P.CacheOk tables'.ruleCache ∧ (result = P.decision chainType info ∨
        result.action = .drop ∧ result.logContext = .rateLimitDrop ∧
          P.limitsOf chainType info ≠ []) := by
  unfold processPacket at h
  dsimp only at h
  cases hget : tables.ruleCache.get (.fromPacketInfo info chainType) with
  | some cached =>
    rw [hget] at h
    obtain ⟨⟨granted, limiters⟩, hlimits, h⟩ := bind_eq_returns_iff.1 h
    cases h
    refine ⟨hcache.mono fun key entry hentry => ?_, ?_⟩
    · rw [get_replace] at hentry
      split_ifs at hentry with hkey
      · subst hkey
        rw [hget] at hentry
        cases hentry
        exact ⟨cached, hget, rfl, rfl⟩
      · exact ⟨entry, hentry, rfl, rfl⟩
    · obtain ⟨info', chainType', hkey, hresult, hkeys⟩ := hcache _ _ hget
      obtain ⟨rfl, hinfo⟩ := eq_of_fromPacketInfo_eq hkey
      rw [hinfo] at hresult hkeys
      cases granted with
      | true => exact .inl hresult
      | false =>
        refine .inr ⟨rfl, rfl, fun hnone => ?_⟩
        have hempty : cached.rateLimitKeys = [] := hkeys.trans hnone
        rw [hempty] at hlimits
        cases hlimits
  | none =>
    rw [hget] at h
    dsimp only at h
    split_ifs at h with hchain
    · cases h
      exact ⟨hcache, .inl (by rw [decision, if_pos hchain])⟩
    · cases hmatch : P.firstMatch chainType info with
      | none =>
        rw [hmatch] at h
        cases h
        have hdecision : P.defaultResult chainType = P.decision chainType info := by
          rw [decision, if_neg hchain, hmatch, elim_none]
        exact ⟨hcache.cacheResult now hdecision (by rw [limitsOf, hmatch, elim_none]),
          .inl hdecision⟩
      | some rule =>
        rw [hmatch] at h
        obtain ⟨⟨granted, limiters⟩, hlimit, h⟩ := bind_eq_returns_iff.1 h
        cases granted with
        | true =>
          cases h
          have hdecision : rule.result info = P.decision chainType info := by
            rw [decision, if_neg hchain, hmatch, elim_some]
          have hkeys : rule.rateLimitKeys chainType = P.limitsOf chainType info := by
            rw [limitsOf, hmatch, elim_some]
          have hcache' : P.CacheOk { tables with rateLimiters := limiters }.ruleCache := hcache
          exact ⟨hcache'.cacheResult now hdecision hkeys, .inl hdecision⟩
        | false =>
          cases h
          refine ⟨hcache, .inr ⟨rfl, rfl, fun hnone => ?_⟩⟩
          rw [limitsOf, hmatch, elim_some, FastLookupRule.rateLimitKeys] at hnone
          have hzero : rule.rateLimit = 0 := by
            by_contra hne
            rw [if_pos (UInt32.pos_iff_ne_zero.2 hne)] at hnone
            cases hnone
          rw [checkRateLimit, if_pos hzero] at hlimit
          cases hlimit

/-- **Without limits the rules decide**, and nothing panics. -/
theorem processPacket_of_unlimited (hcache : P.CacheOk tables.ruleCache)
    (hlimits : P.limitsOf chainType info = []) (now : ℕ) :
    ∃ tables', P.processPacket now info chainType tables =
      .returns (P.decision chainType info, tables') := by
  suffices hreturns : ∃ r, P.processPacket now info chainType tables = .returns r by
    obtain ⟨⟨result, tables'⟩, h⟩ := hreturns
    obtain ⟨-, rfl | ⟨-, -, hne⟩⟩ := processPacket_spec hcache h
    · exact ⟨tables', h⟩
    · exact absurd hlimits hne
  unfold processPacket
  dsimp only
  cases hget : tables.ruleCache.get (.fromPacketInfo info chainType) with
  | some cached =>
    obtain ⟨info', chainType', hkey, -, hkeys⟩ := hcache _ _ hget
    obtain ⟨rfl, hinfo⟩ := eq_of_fromPacketInfo_eq hkey
    rw [hinfo] at hkeys
    have hempty : cached.rateLimitKeys = [] := hkeys.trans hlimits
    dsimp only
    rw [processPacketWithCacheEntry, hempty]
    exact ⟨_, rfl⟩
  | none =>
    dsimp only
    split_ifs
    · exact ⟨_, rfl⟩
    · cases hmatch : P.firstMatch chainType info with
      | none => exact ⟨_, rfl⟩
      | some rule =>
        rw [limitsOf, hmatch, elim_some, FastLookupRule.rateLimitKeys] at hlimits
        have hzero : rule.rateLimit = 0 := by
          by_contra hne
          rw [if_pos (UInt32.pos_iff_ne_zero.2 hne)] at hlimits
          cases hlimits
        dsimp only
        rw [checkRateLimit, if_pos hzero]
        exact ⟨_, rfl⟩

end Processor

inductive Event
  | packet (now : ℕ) (info : PacketInfo) (chainType : ChainType)
  | cleanup (now : ℕ)
  | refill (key : RateLimitKey) (nowMicros : ℕ)

def Tables.cleanup (now : ℕ) (tables : Tables) : Tables where
  ruleCache := cleanupCache now cacheMaxSize tables.ruleCache
  rateLimiters := tables.rateLimiters.filter fun value => now - value.lastUpdate < 20000

def Tables.refill (key : RateLimitKey) (nowMicros : ℕ) (tables : Tables) : Tables :=
  { tables with
    rateLimiters := tables.rateLimiters.mapValues fun k value =>
      if k = key then { value with tokenBucket := value.tokenBucket.refill nowMicros } else value }

def Processor.step (P : Processor) (tables : Tables) : Event → Outcome Tables
  | .packet now info chainType => do return (← P.processPacket now info chainType tables).2
  | .cleanup now => return tables.cleanup now
  | .refill key nowMicros => return tables.refill key nowMicros

def Processor.system (P : Processor) : Trans Tables Event :=
  ⟨fun tables event tables' => P.step tables event = .returns tables'⟩

theorem Processor.CacheOk.step {P : Processor} {tables tables' : Tables} {event : Event}
    (hcache : P.CacheOk tables.ruleCache) (h : P.step tables event = .returns tables') :
    P.CacheOk tables'.ruleCache := by
  cases event with
  | packet now info chainType =>
    obtain ⟨⟨result, tables''⟩, hprocess, h⟩ := bind_eq_returns_iff.1 h
    cases h
    exact (processPacket_spec hcache hprocess).1
  | cleanup now =>
    cases h
    exact CacheOk.cleanupCache hcache now cacheMaxSize
  | refill key nowMicros =>
    cases h
    exact hcache

theorem Processor.cacheOk_of_run {P : Processor} {limiters : OrderedMap RateLimitKey RateLimitValue}
    {events : List Event} {tables : Tables} (hrun : P.system.Run ⟨.empty, limiters⟩ events tables) :
    P.CacheOk tables.ruleCache := by
  have hempty : P.CacheOk .empty := by
    intro key entry hentry
    cases hentry
  exact hrun.invariant (I := fun tables => P.CacheOk tables.ruleCache) hempty
    fun _ _ _ hcache hstep => hcache.step hstep

/-- **The cache changes no decision**: after any packets, clean-ups and refills, a packet without limits
gets what the rules say, and any other packet gets that or is dropped by a limit. -/
theorem cached_decisions_agree (P : Processor) (limiters : OrderedMap RateLimitKey RateLimitValue)
    (events : List Event) {tables : Tables} (hrun : P.system.Run ⟨.empty, limiters⟩ events tables)
    (now : ℕ) (info : PacketInfo) (chainType : ChainType) :
    (P.limitsOf chainType info = [] → ∃ tables',
      P.processPacket now info chainType tables = .returns (P.decision chainType info, tables')) ∧
    ∀ result tables', P.processPacket now info chainType tables = .returns (result, tables') →
      result = P.decision chainType info ∨ result.action = .drop ∧
        result.logContext = .rateLimitDrop ∧ P.limitsOf chainType info ≠ [] := by
  have hcache := Processor.cacheOk_of_run hrun
  refine ⟨fun hlimits => Processor.processPacket_of_unlimited hcache hlimits now, ?_⟩
  intro result tables' h
  exact (Processor.processPacket_spec hcache h).2

/-- A second packet is answered from the cache. -/
theorem second_packet_dropped :
    let P : Processor := ⟨fun _ => [], fun _ => .drop⟩
    ∃ info tables, P.system.Run ⟨.empty, .empty⟩ [.packet 0 info .inbound] tables ∧
      tables.ruleCache.contains (.fromPacketInfo info .inbound) = true ∧
      ∃ tables', P.processPacket 5 info .inbound tables =
        .returns (⟨.drop, .default, .defaultDrop⟩, tables') := by
  intro P
  let info : PacketInfo := ⟨.v4 1, .v4 2, none, none, .icmp, 84, [], [], rfl, rfl⟩
  have hagree := cached_decisions_agree P .empty [.packet 0 info .inbound] (.cons rfl .nil) 5 info
    .inbound
  exact ⟨info, _, .cons rfl .nil, rfl, hagree.1 rfl⟩

end PactMesh.LegacyAcl
