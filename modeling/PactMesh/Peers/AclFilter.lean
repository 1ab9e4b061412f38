import PactMesh.Common.AclProcessor
import PactMesh.Lib.Inet
import PactMesh.Peers.TrustAcl

/-!
# The filter of the legacy ACL

The filter asks the processor about every data packet.  It remembers outbound packets that it let pass
and lets their answers in, even if the rules drop them, until the clean task finds that the record has
not been used for thirty seconds.  KCP and QUIC connections ask the processor directly.  Times are in
milliseconds.

* `proxied_like_packets_iff` : when a proxied connection is treated like a packet;
* `return_traffic_only` : what is let in against the rules answers a packet that was let out, and the
  record was used at least every sixty seconds, give or take what the clean task is late.
-/

namespace PactMesh.LegacyAcl

open Outcome List OrderedMap

structure OutboundAllowRecord where
  srcIp : IpAddr
  dstIp : IpAddr
  srcPort : Option UInt16
  dstPort : Option UInt16
  protocol : Protocol
deriving DecidableEq

def OutboundAllowRecord.newFromInboundPacket (p : PacketInfo) : OutboundAllowRecord :=
  ⟨p.srcIp, p.dstIp, p.srcPort, p.dstPort, p.protocol⟩

/-- `new_from_outbound_packet`, which is the mirror image. -/
def OutboundAllowRecord.newFromOutboundPacket (p : PacketInfo) : OutboundAllowRecord :=
  ⟨p.dstIp, p.srcIp, p.dstPort, p.srcPort, p.protocol⟩

open OutboundAllowRecord

structure NodeView where
  myIpv4 : Option (BitVec 32)
  myIpv6 : Option (BitVec 128)
  peerGroups : PeerId → List String

section Extract

variable (N : PacketParsers) (node : NodeView) (packet : Packet)

def packetInfo (srcIp dstIp : IpAddr) (protocol : UInt8) (body : List UInt8) : Option PacketInfo :=
  let size := packet.payload.length
  let srcGroups := node.peerGroups packet.hdr.fromPeerId
  let dstGroups := node.peerGroups packet.hdr.toPeerId
  if protocol = 6 then (N.tcp body).map fun ports =>
    ⟨srcIp, dstIp, some ports.1, some ports.2, .tcp, size, srcGroups, dstGroups, rfl, rfl⟩
  else if protocol = 17 then (N.udp body).map fun ports =>
    ⟨srcIp, dstIp, some ports.1, some ports.2, .udp, size, srcGroups, dstGroups, rfl, rfl⟩
  else if protocol = 1 then
    some ⟨srcIp, dstIp, none, none, .icmp, size, srcGroups, dstGroups, hasPorts_icmp, hasPorts_icmp⟩
  else if protocol = 58 then
    some ⟨srcIp, dstIp, none, none, .icmpv6, size, srcGroups, dstGroups, rfl, rfl⟩
  else some ⟨srcIp, dstIp, none, none, .unspecified, size, srcGroups, dstGroups, rfl, rfl⟩

def extractPacketInfo : Option PacketInfo := do
  -- the version is read from the IPv4 view, also for IPv6
  let ipv4 ← N.ipv4 packet.payload
  if ipv4.version = 4 then
    packetInfo N node packet (.v4 ipv4.source) (.v4 ipv4.destination) ipv4.nextLevelProtocol
      ipv4.payload
  else if ipv4.version = 6 then
    let ipv6 ← N.ipv6 packet.payload
    packetInfo N node packet (.v6 ipv6.source) (.v6 ipv6.destination) ipv6.nextHeader ipv6.payload
  else none

def NodeView.chainType (isIn : Bool) (info : PacketInfo) : ChainType :=
  if isIn then
    if info.dstIp = .v4 (node.myIpv4.getD 0) ∨ info.dstIp = .v6 (node.myIpv6.getD 0) then .inbound
    else .forward
  else .outbound

end Extract

inductive Verdict
  /-- let through without asking the rules -/
  | unfiltered
  /-- let through by the rules -/
  | allowed
  /-- let out by the rules, and recorded -/
  | recorded (info : PacketInfo)
  /-- let in because of a record, against the rules -/
  | returning (info : PacketInfo)
  | dropped
deriving DecidableEq

def Verdict.admitted (v : Verdict) : Bool := v ≠ .dropped

def Verdict.record : Verdict → Option OutboundAllowRecord
  | .recorded info => some (newFromOutboundPacket info)
  | .returning info => some (newFromInboundPacket info)
  | _ => none

structure AclFilter where
  processor : Processor
  tables : Tables
  aclEnabled : Bool
  outboundAllowRecords : OrderedMap OutboundAllowRecord ℕ

namespace AclFilter

variable (parseCidr : String → Option IpNet) (N : PacketParsers) (node : NodeView) (f : AclFilter)

def new : AclFilter := ⟨Processor.new parseCidr ⟨[]⟩, ⟨.empty, .empty⟩, false, .empty⟩

/-- `reload_rules`; disabling keeps the processor. -/
def reloadRules : Option Acl → AclFilter
  | none => { f with aclEnabled := false }
  | some acl =>
    { f with
      processor := Processor.new parseCidr acl
      tables := ⟨.empty, f.tables.rateLimiters⟩
      aclEnabled := true }

def clean (now : ℕ) : AclFilter :=
  { f with outboundAllowRecords := f.outboundAllowRecords.filter fun time => now - time < 30000 }

def note (record : OutboundAllowRecord) (now : ℕ) : AclFilter :=
  { f with outboundAllowRecords := f.outboundAllowRecords.insert record now }

/-- `process_packet_with_acl` for a packet that could be read. -/
def processInfo (now : ℕ) (info : PacketInfo) (isIn : Bool) : Outcome (Verdict × AclFilter) := do
  let chainType := node.chainType isIn info
  let (result, tables) ← f.processor.processPacket now info chainType f.tables
  let f := { f with tables := tables }
  if result.action ≠ .drop then
    if chainType = .outbound then
      return (.recorded info, f.note (newFromOutboundPacket info) now)
    else return (.allowed, f)
  else if isIn && f.outboundAllowRecords.contains (newFromInboundPacket info) then
    return (.returning info, f.note (newFromInboundPacket info) now)
  else return (.dropped, f)

def processPacketWithAcl (now : ℕ) (packet : Packet) (isIn : Bool) : Outcome (Verdict × AclFilter) :=
  if f.aclEnabled = false ∨ packet.hdr.packetType ≠ PacketType.data.toByte then
    return (.unfiltered, f)
  else
    match extractPacketInfo N node packet with
    | none => return (.unfiltered, f)
    | some info => f.processInfo node now info isIn

/-- `ProxyAclHandler::handle_packet` -/
def handlePacket (now : ℕ) (info : PacketInfo) (chainType : ChainType) (buf : List UInt8) :
    Outcome (Bool × AclFilter) := do
  let (result, tables) ← f.processor.processPacket now { info with packetSize := buf.length }
    chainType f.tables
  return (result.action == .allow, { f with tables := tables })

end AclFilter

open AclFilter

inductive FilterEvent
  | reload (acl : Option Acl)
  | packet (node : NodeView) (packet : Packet) (isIn : Bool)
  | clean
  /-- a proxied packet, or what tasks of the processor do -/
  | processor (event : Event)

/-- A filter, the time of the last event and of the last run of the clean task, and what became of
the packets, the latest first. -/
structure FilterHistory where
  filter : AclFilter
  now : ℕ
  lastClean : ℕ
  verdicts : List (ℕ × Verdict)

variable (parseCidr : String → Option IpNet) (N : PacketParsers)

def FilterHistory.start (time : ℕ) : FilterHistory := ⟨.new parseCidr, time, time, []⟩

def FilterHistory.step (τ : FilterHistory) (time : ℕ) : FilterEvent → Outcome FilterHistory
  | .reload acl => return { τ with now := time, filter := τ.filter.reloadRules parseCidr acl }
  | .packet node packet isIn => do
    let (verdict, f) ← τ.filter.processPacketWithAcl N node time packet isIn
    return { τ with now := time, filter := f, verdicts := (time, verdict) :: τ.verdicts }
  | .clean => return { τ with now := time, filter := τ.filter.clean time, lastClean := time }
  | .processor event => do
    let tables ← τ.filter.processor.step τ.filter.tables event
    return { τ with now := time, filter := { τ.filter with tables := tables } }

def filterSystem : Trans FilterHistory (ℕ × FilterEvent) :=
  ⟨fun τ e τ' => τ.step parseCidr N e.1 e.2 = .returns τ'⟩

/-- Time does not go back, and no event comes more than `late` after the clean task was due again. -/
def FilterHistory.Timely (late : ℕ) (τ : FilterHistory) (e : ℕ × FilterEvent) : Prop :=
  τ.now ≤ e.1 ∧ e.1 ≤ τ.lastClean + 30000 + late

variable {parseCidr N} {node : NodeView} {f f' : AclFilter} {packet : Packet} {isIn : Bool}
  {now : ℕ} {verdict : Verdict} {τ τ' : FilterHistory} {info : PacketInfo}

theorem AclFilter.processPacketWithAcl_eq (henabled : f.aclEnabled = true)
    (hdata : packet.hdr.packetType = PacketType.data.toByte)
    (hinfo : extractPacketInfo N node packet = some info) :
    f.processPacketWithAcl N node now packet isIn = f.processInfo node now info isIn := by
  have hasked : ¬ (f.aclEnabled = false ∨ packet.hdr.packetType ≠ PacketType.data.toByte) := by
    simp [henabled, hdata]
  rw [processPacketWithAcl, if_neg hasked, hinfo]

theorem AclFilter.processPacketWithAcl_cases
    (h : f.processPacketWithAcl N node now packet isIn = .returns (verdict, f')) :
    f'.processor = f.processor ∧ f'.aclEnabled = f.aclEnabled ∧
      (f.processor.CacheOk f.tables.ruleCache → f'.processor.CacheOk f'.tables.ruleCache) ∧
      f'.outboundAllowRecords = verdict.record.elim f.outboundAllowRecords
        (f.outboundAllowRecords.insert · now) ∧ ∀ info, verdict = .returning info →
        f.outboundAllowRecords.contains (newFromInboundPacket info) = true := by
  unfold processPacketWithAcl at h
  split at h
  · cases h
    exact ⟨rfl, rfl, id, rfl, by simp⟩
  · split at h
    · cases h
      exact ⟨rfl, rfl, id, rfl, by simp⟩
    · obtain ⟨⟨result, tables⟩, hresult, h⟩ := bind_eq_returns_iff.1 h
      have hcache := fun hcache : f.processor.CacheOk f.tables.ruleCache =>
        (Processor.processPacket_spec hcache hresult).1
      dsimp only at h
      split_ifs at h with hdrop hchain hreturn
      · cases h
        exact ⟨rfl, rfl, hcache, rfl, by simp⟩
      · cases h
        exact ⟨rfl, rfl, hcache, rfl, by simp⟩
      · cases h
        refine ⟨rfl, rfl, hcache, rfl, fun info hinfo => ?_⟩
        cases hinfo
        exact (Bool.and_eq_true _ _ ▸ hreturn).2
      · cases h
        exact ⟨rfl, rfl, hcache, rfl, by simp⟩

theorem FilterHistory.cacheOk_of_run {time : ℕ} {events : List (ℕ × FilterEvent)}
    (hrun : (filterSystem parseCidr N).Run (.start parseCidr time) events τ) :
    τ.filter.processor.CacheOk τ.filter.tables.ruleCache := by
  have hempty : ∀ P : Processor, P.CacheOk .empty := by
    intro P key entry hentry
    cases hentry
  refine hrun.invariant (I := fun τ => τ.filter.processor.CacheOk τ.filter.tables.ruleCache)
    (hempty _) fun τ e τ' hcache hstep => ?_
  obtain ⟨time, event⟩ := e
  have hstep : τ.step parseCidr N time event = .returns τ' := hstep
  cases event with
  | reload acl =>
    cases hstep
    cases acl with
    | none => exact hcache
    | some acl => exact hempty _
  | packet node packet isIn =>
    obtain ⟨⟨verdict, f⟩, hpacket, hstep⟩ := bind_eq_returns_iff.1 hstep
    cases hstep
    exact (processPacketWithAcl_cases hpacket).2.2.1 hcache
  | clean =>
    cases hstep
    exact hcache
  | processor event =>
    obtain ⟨tables, hevent, hstep⟩ := bind_eq_returns_iff.1 hstep
    cases hstep
    exact hcache.step hevent

/-- **When proxied connections are treated like packets** with the same addresses, ports, groups and
chain, without a record and without rate limits: just if the rules do not say `noop` while the ACL
is enabled, and allow it while the ACL is disabled. -/
theorem proxied_like_packets_iff (parseCidr : String → Option IpNet) (N : PacketParsers) (time : ℕ)
    (events : List (ℕ × FilterEvent)) (τ : FilterHistory)
    (hrun : (filterSystem parseCidr N).Run (.start parseCidr time) events τ)
    (node : NodeView) (packet : Packet) (info : PacketInfo) (now now' : ℕ) (buf : List UInt8)
    (hdata : packet.hdr.packetType = PacketType.data.toByte)
    (hinfo : extractPacketInfo N node packet = some info)
    (hrecord : τ.filter.outboundAllowRecords.contains (newFromInboundPacket info) = false)
    (hlimits : τ.filter.processor.limitsOf (node.chainType true info) info = []) :
    ∃ admitted f₁ verdict f₂,
      τ.filter.handlePacket now info (node.chainType true info) buf = .returns (admitted, f₁) ∧
      τ.filter.processPacketWithAcl N node now' packet true = .returns (verdict, f₂) ∧
      (admitted = verdict.admitted ↔
        if τ.filter.aclEnabled then
          (τ.filter.processor.decision (node.chainType true info) info).action ≠ .noop
        else (τ.filter.processor.decision (node.chainType true info) info).action = .allow) := by
  have hcache := FilterHistory.cacheOk_of_run hrun
  set action := (τ.filter.processor.decision (node.chainType true info) info).action with haction
  have hproxied : ∃ tables, τ.filter.processor.processPacket now
      { info with packetSize := buf.length } (node.chainType true info) τ.filter.tables =
        .returns (τ.filter.processor.decision (node.chainType true info) info, tables) :=
    Processor.processPacket_of_unlimited hcache hlimits now
  obtain ⟨tables₁, hproxied⟩ := hproxied
  obtain ⟨tables₂, hpacket⟩ := Processor.processPacket_of_unlimited hcache hlimits now'
  have hhandled : τ.filter.handlePacket now info (node.chainType true info) buf =
      .returns (action == .allow, { τ.filter with tables := tables₁ }) := by
    rw [handlePacket, hproxied]
    rfl
  cases henabled : τ.filter.aclEnabled with
  | false =>
    refine ⟨_, _, .unfiltered, τ.filter, hhandled, ?_, ?_⟩
    · rw [processPacketWithAcl, if_pos (.inl henabled)]
      rfl
    · cases action <;> decide
  | true =>
    have hasked : τ.filter.processPacketWithAcl N node now' packet true = _ :=
      processPacketWithAcl_eq henabled hdata hinfo
    have hin : node.chainType true info ≠ .outbound := by
      rw [NodeView.chainType, if_pos rfl]
      split_ifs <;> decide
    simp only [AclFilter.processInfo, hpacket, returns_bind] at hasked
    rw [if_neg hin, Bool.true_and, hrecord, ← haction] at hasked
    by_cases hdrop : action = .drop
    · rw [if_neg (not_not.2 hdrop), if_neg Bool.false_ne_true] at hasked
      refine ⟨_, _, _, _, hhandled, hasked, ?_⟩
      rw [hdrop]
      decide
    · rw [if_pos hdrop] at hasked
      refine ⟨_, _, _, _, hhandled, hasked, ?_⟩
      revert hdrop
      cases action <;> decide

/-- What is read from the bytes of an IPv4 packet. -/
def inetParsers : PacketParsers where
  ipv4 bytes := (Inet.Ipv4View.read bytes).map fun v =>
    ⟨.ofNat v.version, .ofNat v.nextLevelProtocol, v.source, v.destination, v.payload⟩
  ipv6 _ := none
  tcp bytes := (Inet.TcpView.read bytes).map fun v => (v.source, v.destination)
  udp bytes := (Inet.UdpView.read bytes).map fun v => (v.source, v.destination)

def sampleView : NodeView := ⟨some 2, none, fun _ => []⟩

/-- A data packet with a TCP segment without data. -/
def segment (source destination : BitVec 32) (sourcePort destinationPort : ℕ) : Packet :=
  ⟨{ (default : PeerManagerHeader) with packetType := PacketType.data.toByte },
    [0x45, 0, 0, 40, 0, 0, 0, 0, 64, 6, 0, 0] ++ Inet.bytes32 source ++ Inet.bytes32 destination ++
      Inet.bytes16 sourcePort ++ Inet.bytes16 destinationPort ++
      [0, 0, 0, 1, 0, 0, 0, 1, 0x50, 0x10, 0, 64, 0, 0, 0, 0]⟩

/-- From port 1000 of 0.0.0.1 to port 22 of the node, 0.0.0.2. -/
def answer : Packet := segment 1 2 1000 22

def answerInfo : PacketInfo :=
  ⟨.v4 1, .v4 2, some 1000, some 22, .tcp, 40, [], [], hasPorts_tcp, hasPorts_tcp⟩

def inboundAcl (action : Action) : Acl := ⟨[⟨.inbound, true, [], action⟩]⟩

def reloaded (acls : List (Option Acl)) : AclFilter :=
  acls.foldl (·.reloadRules fun _ => none) (.new fun _ => none)

/-- A connection that the rules allow. -/
theorem allowed_connection_like_packet :
    ∃ admitted f₁ verdict f₂,
      (reloaded [some (inboundAcl .allow)]).handlePacket 0 answerInfo .inbound [] =
        .returns (admitted, f₁) ∧
      (reloaded [some (inboundAcl .allow)]).processPacketWithAcl inetParsers sampleView 0
        answer true = .returns (verdict, f₂) ∧ admitted = verdict.admitted := by
  obtain ⟨admitted, f₁, verdict, f₂, hhandled, hasked, hiff⟩ := proxied_like_packets_iff
    (fun _ => none) inetParsers 0 [(0, .reload (some (inboundAcl .allow)))] _ (.snoc .nil rfl)
    sampleView answer answerInfo 0 0 [] rfl rfl rfl rfl
  exact ⟨admitted, f₁, verdict, f₂, hhandled, hasked, hiff.2 (by decide)⟩

/-- **Proxied connections treated unlike packets**: `noop` refuses a connection and lets a packet
through; a disabled ACL still refuses connections. -/
theorem proxied_unlike_packets :
    (∃ f₁ f₂, (reloaded [some (inboundAcl .noop)]).handlePacket 0 answerInfo .inbound [] =
        .returns (false, f₁) ∧
      (reloaded [some (inboundAcl .noop)]).processPacketWithAcl inetParsers sampleView 0
        answer true = .returns (.allowed, f₂)) ∧
    ∃ f₁ f₂, (reloaded [some (inboundAcl .drop), none]).handlePacket 0 answerInfo .inbound [] =
        .returns (false, f₁) ∧
      (reloaded [some (inboundAcl .drop), none]).processPacketWithAcl inetParsers sampleView 0
        answer true = .returns (.unfiltered, f₂) := ⟨⟨_, _, rfl, rfl⟩, _, _, rfl, rfl⟩

def usesOf (record : OutboundAllowRecord) (verdicts : List (ℕ × Verdict)) : List (ℕ × Verdict) :=
  verdicts.filter fun use => use.2.record = some record

/-- The uses go back to an outbound packet that was let out, and each is at most sixty seconds and what
the clean task is late after the one before. -/
structure FromAllowed (late : ℕ) (record : OutboundAllowRecord) (uses : List (ℕ × Verdict)) :
    Prop where
  origin : ∃ time info, uses.getLast? = some (time, .recorded info) ∧
    newFromOutboundPacket info = record
  gaps : (uses.map Prod.fst).IsChain fun later earlier => later ≤ earlier + 60000 + late

/-- Every record was last used at its time, not long before the clean task ran, in a sequence of uses
that goes back to a packet that was let out. -/
structure FilterHistory.Recorded (late : ℕ) (τ : FilterHistory) : Prop where
  lastClean_le : τ.lastClean ≤ τ.now
  uses : ∀ record time, τ.filter.outboundAllowRecords.get record = some time →
    time ≤ τ.now ∧ τ.lastClean < time + 30000 ∧
      ∃ verdict uses before, usesOf record τ.verdicts = ((time, verdict) :: uses) ++ before ∧
        FromAllowed late record ((time, verdict) :: uses)

variable {late : ℕ}

theorem FilterHistory.Recorded.of_packet (h : τ.Recorded late) (htime : τ.now ≤ now)
    (hclean : now ≤ τ.lastClean + 30000 + late)
    (hstep : τ.step parseCidr N now (.packet node packet isIn) = .returns τ') : τ'.Recorded late := by
  obtain ⟨⟨verdict, f⟩, hpacket, hstep⟩ := bind_eq_returns_iff.1 hstep
  cases hstep
  obtain ⟨-, -, -, hrecords, hreturning⟩ := processPacketWithAcl_cases hpacket
  have hlast := h.lastClean_le
  refine ⟨hlast.trans htime, fun record time hget => ?_⟩
  dsimp only at hget ⊢
  rw [hrecords] at hget
  by_cases huse : verdict.record = some record
  · rw [huse, Option.elim_some, get_insert_self] at hget
    cases hget
    have huses : usesOf record ((now, verdict) :: τ.verdicts) =
        (now, verdict) :: usesOf record τ.verdicts := filter_cons_of_pos (by simpa using huse)
    rw [huses]
    refine ⟨le_rfl, by omega, ?_⟩
    cases verdict with
    | recorded info => exact ⟨_, [], _, rfl, ⟨now, info, rfl, Option.some.inj huse⟩, .singleton _⟩
    | returning info =>
      obtain ⟨last, hget⟩ := contains_eq_true_iff.1 (hreturning info rfl)
      cases huse
      obtain ⟨-, hrecent, v, uses, before, heq, ⟨t, i, horigin, hi⟩, hgaps⟩ := h.uses _ last hget
      refine ⟨_, (last, v) :: uses, before, by rw [heq]; rfl, ⟨t, i, ?_, hi⟩, ?_⟩
      · rw [getLast?_cons_cons, horigin]
      · exact isChain_cons_cons.2 ⟨by omega, hgaps⟩
    | unfiltered => cases huse
    | allowed => cases huse
    | dropped => cases huse
  · have huses : usesOf record ((now, verdict) :: τ.verdicts) = usesOf record τ.verdicts :=
      filter_cons_of_neg (by simpa using huse)
    have hold : τ.filter.outboundAllowRecords.get record = some time := by
      cases hrecord : verdict.record with
      | none => rwa [hrecord, Option.elim_none] at hget
      | some other =>
        have hne : record ≠ other := by
          rintro rfl
          exact huse hrecord
        rwa [hrecord, Option.elim_some, get_insert_of_ne hne] at hget
    obtain ⟨hle, hrecent, hfrom⟩ := h.uses record time hold
    rw [huses]
    exact ⟨hle.trans htime, hrecent, hfrom⟩

theorem FilterHistory.Recorded.step (h : τ.Recorded late) {e : ℕ × FilterEvent}
    (htimely : τ.Timely late e) (hstep : τ.step parseCidr N e.1 e.2 = .returns τ') :
    τ'.Recorded late := by
  obtain ⟨time, event⟩ := e
  obtain ⟨htime, hclean⟩ : τ.now ≤ time ∧ time ≤ τ.lastClean + 30000 + late := htimely
  have hlast := h.lastClean_le
  -- nothing but packets and the clean task changes the records
  have hkeep : ∀ f : AclFilter, f.outboundAllowRecords = τ.filter.outboundAllowRecords →
      FilterHistory.Recorded late { τ with now := time, filter := f } := by
    refine fun f hf => ⟨hlast.trans htime, fun record t hget => ?_⟩
    dsimp only at hget
    rw [hf] at hget
    obtain ⟨hle, hrest⟩ := h.uses record t hget
    exact ⟨hle.trans htime, hrest⟩
  cases event with
  | reload acl =>
    cases hstep
    refine hkeep _ ?_
    cases acl <;> rfl
  | packet node packet isIn => exact h.of_packet htime hclean hstep
  | clean =>
    cases hstep
    refine ⟨le_rfl, fun record t hget => ?_⟩
    obtain ⟨hmem, hrecent⟩ := mem_filter.1 (mem_of_get hget)
    obtain ⟨hle, -, hfrom⟩ := h.uses record t (get_of_mem hmem)
    have hrecent' : time - t < 30000 := by simpa using hrecent
    exact ⟨hle.trans htime, by dsimp only; omega, hfrom⟩
  | processor event =>
    obtain ⟨tables, -, hstep⟩ := bind_eq_returns_iff.1 hstep
    cases hstep
    exact hkeep _ rfl

/-- **What is let in against the rules answers a recent packet**: if the rules drop a packet and it is
let in while the ACL is enabled, then a packet with the mirrored addresses and ports was let out
earlier, and since then no two uses of the record in a row are further apart than sixty seconds and
what the clean task is late. -/
theorem return_traffic_only (parseCidr : String → Option IpNet) (N : PacketParsers) (late time : ℕ)
    (events : List (ℕ × FilterEvent)) (τ : FilterHistory)
    (hrun : ((filterSystem parseCidr N).guard (FilterHistory.Timely late)).Run (.start parseCidr time)
      events τ)
    (node : NodeView) (packet : Packet) (now : ℕ)
    (htimely : τ.Timely late (now, .packet node packet true))
    (henabled : τ.filter.aclEnabled = true)
    (hdata : packet.hdr.packetType = PacketType.data.toByte) (info : PacketInfo)
    (hinfo : extractPacketInfo N node packet = some info) (result : AclResult) (tables : Tables)
    (hresult : τ.filter.processor.processPacket now info (node.chainType true info)
      τ.filter.tables = .returns (result, tables))
    (hdrop : result.action = .drop) (verdict : Verdict) (f : AclFilter)
    (h : τ.filter.processPacketWithAcl N node now packet true = .returns (verdict, f))
    (hadmitted : verdict.admitted = true) :
    ∃ uses before, usesOf (newFromInboundPacket info) τ.verdicts = uses ++ before ∧
      FromAllowed late (newFromInboundPacket info) uses ∧
      (now :: uses.map Prod.fst).IsChain fun later earlier => later ≤ earlier + 60000 + late := by
  have hstart : (FilterHistory.start parseCidr time).Recorded late := by
    refine ⟨le_rfl, fun record t hget => ?_⟩
    cases hget
  have hrecorded : τ.Recorded late :=
    hrun.invariant hstart fun _ _ _ hτ hstep => hτ.step hstep.1 hstep.2
  rw [processPacketWithAcl_eq henabled hdata hinfo] at h
  simp only [AclFilter.processInfo, hresult, returns_bind] at h
  rw [if_neg (not_not.2 hdrop), Bool.true_and] at h
  split_ifs at h with hcontains
  · obtain ⟨last, hget⟩ := contains_eq_true_iff.1 hcontains
    obtain ⟨-, hrecent, v, uses, before, heq, hfrom⟩ := hrecorded.uses _ last hget
    have hnow : now ≤ τ.lastClean + 30000 + late := htimely.2
    exact ⟨_, before, heq, hfrom, isChain_cons_cons.2 ⟨by omega, hfrom.gaps⟩⟩
  · cases h
    cases hadmitted

/-- The rules drop what comes in.  A packet is let out, and the clean task keeps its record. -/
def sentOnce : List (ℕ × FilterEvent) :=
  [(0, .reload (some (inboundAcl .drop))), (1, .packet sampleView (segment 2 1 22 1000) false),
    (30000, .clean)]

/-- The clean task is two milliseconds late, and the answer is just before it. -/
structure LateAnswer (τ : FilterHistory) : Prop where
  run : ((filterSystem (fun _ => none) inetParsers).guard (FilterHistory.Timely 2)).Run
    (.start (fun _ => none) 0) sentOnce τ
  timely : τ.Timely 2 (60002, .packet sampleView answer true)
  enabled : τ.filter.aclEnabled = true
  dropped : ∃ result tables, τ.filter.processor.processPacket 60002 answerInfo .inbound
    τ.filter.tables = .returns (result, tables) ∧ result.action = .drop
  letIn : ∃ f, τ.filter.processPacketWithAcl inetParsers sampleView 60002 answer true =
    .returns (.returning answerInfo, f)
  uses : (usesOf (newFromInboundPacket answerInfo) τ.verdicts).map Prod.fst = [1]

theorem exists_lateAnswer : ∃ τ, LateAnswer τ :=
  ⟨_, .cons ⟨⟨by decide, by decide⟩, rfl⟩ (.cons ⟨⟨by decide, by decide⟩, rfl⟩
    (.cons ⟨⟨by decide, by decide⟩, rfl⟩ .nil)), ⟨by decide, by decide⟩, rfl, ⟨_, _, rfl, rfl⟩, ⟨_, rfl⟩,
    rfl⟩

theorem answer_let_in :
    ∃ τ, LateAnswer τ ∧ ∃ uses before, usesOf (newFromInboundPacket answerInfo) τ.verdicts =
      uses ++ before ∧ FromAllowed 2 (newFromInboundPacket answerInfo) uses := by
  obtain ⟨τ, h⟩ := exists_lateAnswer
  obtain ⟨result, tables, hresult, hdrop⟩ := h.dropped
  obtain ⟨f, hletIn⟩ := h.letIn
  obtain ⟨uses, before, huses, hfrom, -⟩ := return_traffic_only _ inetParsers 2 0 sentOnce τ h.run
    sampleView answer 60002 h.timely h.enabled rfl answerInfo rfl result tables hresult hdrop _ f
    hletIn rfl
  exact ⟨τ, h, uses, before, huses, hfrom⟩

/-- **The record outlives sixty seconds** by what the clean task is late. -/
theorem late_answer_let_in : ∃ τ, LateAnswer τ ∧
    ¬ (60002 :: (usesOf (newFromInboundPacket answerInfo) τ.verdicts).map Prod.fst).IsChain
      fun later earlier => later ≤ earlier + 60000 := by
  obtain ⟨τ, h⟩ := exists_lateAnswer
  refine ⟨τ, h, ?_⟩
  rw [h.uses]
  decide

end PactMesh.LegacyAcl
