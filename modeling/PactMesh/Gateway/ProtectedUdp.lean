import PactMesh.Gateway.UdpProxy
import PactMesh.Lib.Trans

/-!
# Protected destinations over UDP

A datagram should be dropped exactly when `should_deny_proxy` says so for its destination, whatever
the same source has sent before.  But a source that first contacts some other destination reaches the
listeners of the node, and one that first contacts a listener is cut off from everything else.

Main result: `datagrams_protected_iff`.
-/

namespace PactMesh

open Outcome

inductive UdpEvent
  | packet (ctx : GlobalCtx) (cidrs : CidrSet) (now : ℕ) (bindOk : Bool) (packet : Packet)
  | cleanNatTable (now : ℕ)
  | removeExpiredPackets (now : ℕ)

def UdpProxy.step (checks : Bool) (s : UdpProxy) : UdpEvent → Outcome (UdpProxy × UdpVerdict)
  | .packet ctx cidrs now bindOk packet => tryHandlePacket checks ctx cidrs now bindOk s packet
  | .cleanNatTable now => return (s.cleanNatTable now, .passed)
  | .removeExpiredPackets now => return (s.removeExpiredPackets now, .passed)

def udpSystem (checks : Bool) : Trans UdpProxy UdpEvent where
  step s e s' := ∃ v, s.step checks e = .returns (s', v)

def UdpVerdict.Respects (ctx : GlobalCtx) : UdpVerdict → Prop
  | passed => True
  | denied d => ctx.shouldDenyProxy d.realDst true = true
  | sent d _ => ctx.shouldDenyProxy d.realDst true = false

def UdpVerdict.expected (ctx : GlobalCtx) (d : UdpDatagram) : UdpVerdict :=
  if ctx.shouldDenyProxy d.realDst true then .denied d else .sent d (UdpProxy.targetOf ctx d)

/-- The packet completes the datagram `d`. -/
def UdpProxy.Completes (checks : Bool) (s : UdpProxy) (ctx : GlobalCtx) (cidrs : CidrSet) (now : ℕ)
    (packet : Packet) (d : UdpDatagram) : Prop :=
  ∃ s', readDatagram checks ctx cidrs now s packet = .returns (s', some d)

/-- What becomes of a packet respects the protected destinations and depends, as long as sockets can
be bound, on the destination of its datagram alone. -/
def UdpProxy.Protects (checks : Bool) (s : UdpProxy) : UdpEvent → Prop
  | .packet ctx cidrs now bindOk packet =>
    ∀ s' v, tryHandlePacket checks ctx cidrs now bindOk s packet = .returns (s', v) →
      v.Respects ctx ∧
        ∀ d, s.Completes checks ctx cidrs now packet d → bindOk = true → v = .expected ctx d
  | _ => True

def UdpProxy.EntryAgrees (checks : Bool) (s : UdpProxy) : UdpEvent → Prop
  | .packet ctx cidrs now _ packet =>
    ∀ d, s.Completes checks ctx cidrs now packet d → ∀ entry, s.natTable d.srcSocket = some entry →
        entry.denied = ctx.shouldDenyProxy d.realDst true
  | _ => True

namespace UdpProxy

variable {checks : Bool} {ctx : GlobalCtx} {cidrs : CidrSet} {now : ℕ} {packet : Packet}
  {s : UdpProxy} {d : UdpDatagram} {bindOk : Bool}

theorem tryHandlePacket_of_completes (bindOk : Bool) (h : s.Completes checks ctx cidrs now packet d) :
    ∃ s', tryHandlePacket checks ctx cidrs now bindOk s packet =
      .returns (s', verdictOf ctx bindOk d (s.natTable d.srcSocket)) := by
  obtain ⟨s₁, hread⟩ := h
  obtain ⟨ipv4, hcheck, -, htable⟩ := readDatagram_cases hread
  obtain ⟨s', hs', -⟩ := forwardDatagram_eq now bindOk s₁ d (proxiedPacket_cases hcheck).1
  refine ⟨s', ?_⟩
  simp only [tryHandlePacket, hread, returns_bind, hs', htable]

theorem exists_completes {s' : UdpProxy} {v : UdpVerdict}
    (h : tryHandlePacket checks ctx cidrs now bindOk s packet = .returns (s', v))
    (hv : v ≠ .passed) : ∃ d, s.Completes checks ctx cidrs now packet d := by
  obtain ⟨⟨s₁, o⟩, hread, hrest⟩ := bind_eq_returns_iff.1 h
  cases o with
  | some d => exact ⟨d, s₁, hread⟩
  | none =>
    simp only [pure_eq, Outcome.returns.injEq, Prod.mk.injEq] at hrest
    exact absurd hrest.2.symm hv

theorem verdictOf_respects {o : Option UdpNatEntry}
    (h : ∀ entry, o = some entry → entry.denied = ctx.shouldDenyProxy d.realDst true) :
    (verdictOf ctx bindOk d o).Respects ctx ∧
      (bindOk = true → verdictOf ctx bindOk d o = .expected ctx d) := by
  cases o with
  | some entry =>
    have hdenied := h entry rfl
    rw [verdictOf, UdpVerdict.expected, hdenied]
    cases hdeny : ctx.shouldDenyProxy d.realDst true with
    | true => exact ⟨hdeny, fun _ => rfl⟩
    | false => exact ⟨hdeny, fun _ => rfl⟩
  | none =>
    rw [verdictOf, UdpVerdict.expected]
    cases hdeny : ctx.shouldDenyProxy d.realDst true with
    | true => exact ⟨hdeny, fun _ => rfl⟩
    | false =>
      cases bindOk with
      | true => exact ⟨hdeny, fun _ => rfl⟩
      | false => exact ⟨trivial, by simp⟩

theorem agrees_of_respects {entry : UdpNatEntry}
    (h : (verdictOf ctx bindOk d (some entry)).Respects ctx) :
    entry.denied = ctx.shouldDenyProxy d.realDst true := by
  rw [verdictOf] at h
  cases hdenied : entry.denied with
  | true =>
    rw [hdenied] at h
    exact Eq.symm h
  | false =>
    rw [hdenied] at h
    exact Eq.symm h

theorem protects_iff (s : UdpProxy) (e : UdpEvent) :
    s.Protects checks e ↔ s.EntryAgrees checks e := by
  cases e with
  | cleanNatTable now => exact Iff.rfl
  | removeExpiredPackets now => exact Iff.rfl
  | packet ctx cidrs now bindOk packet =>
    constructor
    · intro h d hd entry hentry
      obtain ⟨s', hs'⟩ := tryHandlePacket_of_completes bindOk hd
      have hres := (h s' _ hs').1
      rw [hentry] at hres
      exact agrees_of_respects hres
    · intro hagree s' v hv
      have hverdict : ∀ d, s.Completes checks ctx cidrs now packet d →
          v = verdictOf ctx bindOk d (s.natTable d.srcSocket) := by
        intro d hd
        obtain ⟨s₁, hs₁⟩ := tryHandlePacket_of_completes bindOk hd
        rw [hv] at hs₁
        exact (Prod.mk.inj (Outcome.returns.inj hs₁)).2
      constructor
      · by_cases hpassed : v = .passed
        · rw [hpassed]
          trivial
        · obtain ⟨d, hd⟩ := exists_completes hv hpassed
          rw [hverdict d hd]
          exact (verdictOf_respects (hagree d hd)).1
      · intro d hd hbind
        rw [hverdict d hd]
        exact (verdictOf_respects (hagree d hd)).2 hbind

end UdpProxy

/-- **Protected destinations over UDP.**  Over every sequence of packets, settings and cleanings,
datagrams are dropped by their destination alone exactly if every datagram meets a NAT entry of its
source that agrees with its destination, or none. -/
theorem datagrams_protected_iff (checks : Bool) (events : List UdpEvent) :
    (udpSystem checks).Along (UdpProxy.Protects checks) .new events ↔
      (udpSystem checks).Along (UdpProxy.EntryAgrees checks) .new events :=
  Trans.along_congr UdpProxy.protects_iff

def sampleUdpPayload (source destination : BitVec 32) (srcPort dstPort : ℕ) : List UInt8 :=
  sampleIpv4 17 0 source destination (Inet.bytes16 srcPort ++ Inet.bytes16 dstPort ++ [0, 8, 0, 0])

/-- The peer `10.144.0.2` sends to the host `192.168.1.9` from port 5000. -/
def toHost (now : ℕ) : UdpEvent :=
  .packet sampleCtx (.load [sampleProxyNetwork]) now true
    (sampleData 0 (sampleUdpPayload 0x0a900002#32 0xc0a80109#32 5000 53))

/-- The peer `10.144.0.2` sends to the listener of the node from port 5000. -/
def toListener (now : ℕ) : UdpEvent :=
  .packet sampleCtx (.load [sampleProxyNetwork]) now true
    (sampleData 0 (sampleUdpPayload 0x0a900002#32 0x0a900001#32 5000 11010))

def UdpProxy.verdicts (checks : Bool) : UdpProxy → List UdpEvent → Outcome (List UdpVerdict)
  | _, [] => return []
  | s, e :: es => do
    let (s, v) ← s.step checks e
    let vs ← verdicts checks s es
    return v :: vs

def sampleUdpDatagram (destination : BitVec 32) (dstPort : UInt16) : UdpDatagram :=
  ⟨2, 1, ⟨.v4 0x0a900002#32, 5000⟩, destination, destination, dstPort, []⟩

/-- The datagram to the listener is sent after one to the host, and the datagram to the host is
dropped after one to the listener. -/
theorem first_contact_decides :
    UdpProxy.new.verdicts true [toHost 0, toListener 1] = .returns
          [.sent (sampleUdpDatagram 0xc0a80109#32 53) ⟨.v4 0xc0a80109#32, 53⟩,
            .sent (sampleUdpDatagram 0x0a900001#32 11010) ⟨loopback, 11010⟩] ∧
      UdpProxy.new.verdicts true [toListener 0, toHost 1] =
        .returns [.denied (sampleUdpDatagram 0x0a900001#32 11010),
          .denied (sampleUdpDatagram 0xc0a80109#32 53)] ∧
      sampleCtx.shouldDenyProxy (sampleUdpDatagram 0x0a900001#32 11010).realDst true = true ∧
      sampleCtx.shouldDenyProxy (sampleUdpDatagram 0xc0a80109#32 53).realDst true = false := by
  decide +kernel

end PactMesh
