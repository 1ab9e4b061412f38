import PactMesh.Gateway.CidrSet
import PactMesh.Gateway.IpReassembler
import PactMesh.Session.PeerSession

/-!
# The UDP proxy

`UdpProxy::try_handle_packet` puts the fragments of a datagram together and sends it to its real
destination through a NAT entry.  There is one entry for each source socket; the first datagram makes
it, and it keeps the answer of `should_deny_proxy` for the destination of that datagram.
-/

namespace PactMesh

open Inet Outcome Option IpReassembler

/-- The arguments of a `forward_task`, and since when its receive loop waits for a packet. -/
structure ForwardTask where
  virtualIpv4 : BitVec 32
  realIpv4 : BitVec 32
  mappedIpv4 : BitVec 32
  waitingSince : ℕ
deriving DecidableEq

/-- The NAT entry of a source socket; times are in seconds. -/
structure UdpNatEntry where
  srcPeerId : PeerId
  myPeerId : PeerId
  srcSocket : SocketAddr
  socket : Option Unit
  /-- set by the first datagram that is sent, and kept when the task has ended -/
  forwardTask : Option ForwardTask
  startTime : ℕ
  lastActiveTime : ℕ
  denied : Bool
  socket_eq : socket = if denied then none else some ()

structure UdpProxy where
  natTable : SocketAddr → Option UdpNatEntry
  ipReassembler : IpReassembler

def UdpProxy.new : UdpProxy := ⟨fun _ => none, .new 10⟩

structure UdpDatagram where
  fromPeerId : PeerId
  toPeerId : PeerId
  srcSocket : SocketAddr
  /-- the destination in the packet -/
  destination : BitVec 32
  realDstIp : BitVec 32
  dstPort : UInt16
  payload : List UInt8
deriving DecidableEq

def UdpDatagram.realDst (d : UdpDatagram) : SocketAddr := ⟨.v4 d.realDstIp, d.dstPort⟩

inductive UdpVerdict
  /-- `None`: it is left to the other filters -/
  | passed
  /-- dropped: the destination is a listener of the node -/
  | denied (d : UdpDatagram)
  /-- the payload is sent to a socket address -/
  | sent (d : UdpDatagram) (target : SocketAddr)
deriving DecidableEq

namespace UdpProxy

variable (checks : Bool) (ctx : GlobalCtx)

def reassemble (now : ℕ) (r : IpReassembler) (ipv4 : Ipv4View) :
    Outcome (IpReassembler × Option (List UInt8)) :=
  if isPacketFragmented ipv4 then
    r.addFragment checks now ipv4.source ipv4.destination ipv4
  else return (r, some ipv4.payload)

def datagramOf (hdr : PeerManagerHeader) (ipv4 : Ipv4View) (realDstIp : BitVec 32)
    (buf : List UInt8) : Option UdpDatagram :=
  (UdpView.read buf).map fun udp =>
    { fromPeerId := hdr.fromPeerId
      toPeerId := hdr.toPeerId
      srcSocket := ⟨.v4 ipv4.source, udp.source⟩
      destination := ipv4.destination
      realDstIp := realDstIp
      dstPort := udp.destination
      payload := udp.payload }

def checkPacket (cidrs : CidrSet) (packet : Packet) : Option (Ipv4View × BitVec 32) :=
  proxiedPacket protocolUdp ctx cidrs packet

/-- The first half of `try_handle_packet`: the datagram, once it is complete. -/
def readDatagram (cidrs : CidrSet) (now : ℕ) (s : UdpProxy) (packet : Packet) :
    Outcome (UdpProxy × Option UdpDatagram) :=
  match checkPacket ctx cidrs packet with
  | none => return (s, none)
  | some (ipv4, real) => do
    let (r, buf) ← reassemble checks now s.ipReassembler ipv4
    return ({ s with ipReassembler := r }, buf.bind (datagramOf packet.hdr ipv4 real))

def natEntryOf (now : ℕ) (bindOk : Bool) (s : UdpProxy) (d : UdpDatagram) : Option UdpNatEntry :=
  match s.natTable d.srcSocket with
  | some entry => some entry
  | none =>
    let denied := ctx.shouldDenyProxy d.realDst true
    if denied || bindOk then
      some
        { srcPeerId := d.fromPeerId
          myPeerId := d.toPeerId
          srcSocket := d.srcSocket
          socket := if denied then none else some ()
          forwardTask := none
          startTime := now
          lastActiveTime := now
          denied := denied
          socket_eq := rfl }
    else none

def forwardTaskOf (now : ℕ) (entry : UdpNatEntry) (d : UdpDatagram) : Option ForwardTask :=
  match entry.forwardTask with
  | some task => some task
  | none => ctx.getIpv4.map fun inet => ⟨inet.address, d.realDstIp, d.destination, now⟩

/-- The second half of `try_handle_packet`: find or make the NAT entry, drop or send. -/
def forwardDatagram (now : ℕ) (bindOk : Bool) (s : UdpProxy) (d : UdpDatagram) :
    Outcome (UdpProxy × UdpVerdict) :=
  match natEntryOf ctx now bindOk s d with
  | none => return (s, .passed)
  | some entry =>
    if entry.denied then
      return ({ s with natTable := Function.update s.natTable d.srcSocket (some entry) }, .denied d)
    else
      match forwardTaskOf ctx now entry d with
      | none =>
        return ({ s with natTable := Function.update s.natTable d.srcSocket (some entry) }, .passed)
      | some task => do
        let entry := { entry with forwardTask := some task, lastActiveTime := now }
        let _ ← unwrap entry.socket
        return ({ s with natTable := Function.update s.natTable d.srcSocket (some entry) },
          .sent d ⟨ctx.localized (.v4 d.realDstIp), d.dstPort⟩)

def tryHandlePacket (cidrs : CidrSet) (now : ℕ) (bindOk : Bool) (s : UdpProxy) (packet : Packet) :
    Outcome (UdpProxy × UdpVerdict) := do
  let (s, datagram) ← readDatagram checks ctx cidrs now s packet
  match datagram with
  | none => return (s, .passed)
  | some d => forwardDatagram ctx now bindOk s d

def cleanNatTable (now : ℕ) (s : UdpProxy) : UdpProxy :=
  { s with natTable := fun key => (s.natTable key).filter fun e => now - e.lastActiveTime < 180 }

def removeExpiredPackets (now : ℕ) (s : UdpProxy) : UdpProxy :=
  { s with ipReassembler := s.ipReassembler.removeExpiredPackets now }

/-! ### What becomes of a datagram -/

def targetOf (d : UdpDatagram) : SocketAddr := ⟨ctx.localized (.v4 d.realDstIp), d.dstPort⟩

def verdictOf (bindOk : Bool) (d : UdpDatagram) : Option UdpNatEntry → UdpVerdict
  | some entry => if entry.denied then .denied d else .sent d (targetOf ctx d)
  | none =>
    if ctx.shouldDenyProxy d.realDst true then .denied d
    else if bindOk then .sent d (targetOf ctx d)
    else .passed

variable {ctx} {checks} {cidrs : CidrSet} {packet : Packet} {now : ℕ} {s s' : UdpProxy}
  {d : UdpDatagram}

variable {bindOk : Bool}

theorem forwardDatagram_of_entry {entry : UdpNatEntry} (hip : ctx.getIpv4.isSome)
    (h : natEntryOf ctx now bindOk s d = some entry) :
    ∃ s', forwardDatagram ctx now bindOk s d =
        .returns (s', if entry.denied then .denied d else .sent d (targetOf ctx d)) ∧
      s'.ipReassembler = s.ipReassembler := by
  unfold forwardDatagram
  simp only [h]
  by_cases hdenied : entry.denied = true
  · simp only [hdenied, if_true]
    exact ⟨_, rfl, rfl⟩
  · obtain ⟨inet, hinet⟩ := isSome_iff_exists.1 hip
    obtain ⟨task, htask⟩ : ∃ task, forwardTaskOf ctx now entry d = some task := by
      unfold forwardTaskOf
      cases entry.forwardTask with
      | some task => exact ⟨task, rfl⟩
      | none => exact ⟨_, by rw [hinet]; rfl⟩
    have hsocket : entry.socket = some () := by rw [entry.socket_eq, if_neg hdenied]
    rw [if_neg hdenied, if_neg hdenied]
    simp only [htask, hsocket, unwrap, returns_bind]
    exact ⟨_, rfl, rfl⟩

theorem forwardDatagram_eq (now : ℕ) (bindOk : Bool) (s : UdpProxy) (d : UdpDatagram)
    (hip : ctx.getIpv4.isSome) :
    ∃ s', forwardDatagram ctx now bindOk s d =
        .returns (s', verdictOf ctx bindOk d (s.natTable d.srcSocket)) ∧
      s'.ipReassembler = s.ipReassembler := by
  cases hentry : natEntryOf ctx now bindOk s d with
  | some entry =>
    obtain ⟨s', hs', hr⟩ := forwardDatagram_of_entry hip hentry
    refine ⟨s', ?_, hr⟩
    rw [hs']
    unfold natEntryOf at hentry
    cases htable : s.natTable d.srcSocket with
    | some old =>
      simp only [htable, Option.some.injEq] at hentry
      rw [verdictOf, hentry]
    | none =>
      simp only [htable] at hentry
      split at hentry
      · next hcond =>
        have hdenied : entry.denied = ctx.shouldDenyProxy d.realDst true := by
          rw [← Option.some.inj hentry]
        rw [hdenied, verdictOf]
        cases hdeny : ctx.shouldDenyProxy d.realDst true with
        | true => rfl
        | false =>
          have hbind : bindOk = true := by simpa [hdeny] using hcond
          simp [hbind]
      · cases hentry
  | none =>
    refine ⟨s, ?_, rfl⟩
    unfold forwardDatagram
    simp only [hentry]
    unfold natEntryOf at hentry
    cases htable : s.natTable d.srcSocket with
    | some old => simp [htable] at hentry
    | none =>
      simp only [htable] at hentry
      split at hentry
      · cases hentry
      · next hcond =>
        rw [Bool.or_eq_true, not_or] at hcond
        simp [verdictOf, hcond.1, hcond.2]

theorem readDatagram_cases (h : readDatagram checks ctx cidrs now s packet = .returns (s', some d)) :
    ∃ ipv4, checkPacket ctx cidrs packet = some (ipv4, d.realDstIp) ∧
      d.destination = ipv4.destination ∧ s'.natTable = s.natTable := by
  unfold readDatagram at h
  split at h
  · simp at h
  · next ipv4 real hcheck =>
    obtain ⟨⟨r, buf⟩, -, hrest⟩ := bind_eq_returns_iff.1 h
    simp only [pure_eq, Outcome.returns.injEq, Prod.mk.injEq, bind_eq_some_iff] at hrest
    obtain ⟨rfl, bytes, -, hd⟩ := hrest
    obtain ⟨udp, -, rfl⟩ := map_eq_some_iff.1 hd
    exact ⟨ipv4, hcheck, rfl, rfl⟩

theorem natEntryOf_cases {entry : UdpNatEntry}
    (h : natEntryOf ctx now bindOk s d = some entry) :
    s.natTable d.srcSocket = some entry ∨ s.natTable d.srcSocket = none ∧
      entry.startTime = now ∧ entry.srcPeerId = d.fromPeerId ∧ entry.srcSocket = d.srcSocket ∧
        entry.forwardTask = none := by
  unfold natEntryOf at h
  cases hold : s.natTable d.srcSocket with
  | some old =>
    simp only [hold] at h
    exact .inl h
  | none =>
    simp only [hold] at h
    obtain ⟨-, h⟩ := ite_none_right_eq_some.1 h
    cases h
    exact .inr ⟨rfl, rfl, rfl, rfl, rfl⟩

/-- The entry is found or made, and used if the datagram is sent. -/
theorem forwardDatagram_cases {v : UdpVerdict}
    (h : forwardDatagram ctx now bindOk s d = .returns (s', v)) :
    s' = s ∧ v = .passed ∨ ∃ entry entry', natEntryOf ctx now bindOk s d = some entry ∧
      s'.natTable = Function.update s.natTable d.srcSocket (some entry') ∧
      (entry' = entry ∧ (∀ d target, v ≠ .sent d target) ∨ ∃ task,
        forwardTaskOf ctx now entry d = some task ∧
        entry' = { entry with forwardTask := some task, lastActiveTime := now } ∧
        v = .sent d (targetOf ctx d)) := by
  unfold forwardDatagram at h
  split at h
  · cases h
    exact .inl ⟨rfl, rfl⟩
  · next entry hentry =>
    split at h
    · cases h
      exact .inr ⟨entry, entry, hentry, rfl, .inl ⟨rfl, by simp⟩⟩
    · split at h
      · cases h
        exact .inr ⟨entry, entry, hentry, rfl, .inl ⟨rfl, by simp⟩⟩
      · next task htask =>
        obtain ⟨_, -, hret⟩ := bind_eq_returns_iff.1 h
        cases hret
        exact .inr ⟨entry, _, hentry, rfl, .inr ⟨task, htask, rfl, rfl⟩⟩

theorem tryHandlePacket_sent {target : SocketAddr}
    (h : tryHandlePacket checks ctx cidrs now bindOk s packet = .returns (s', .sent d target)) :
    ∃ ipv4, checkPacket ctx cidrs packet = some (ipv4, d.realDstIp) ∧
      d.destination = ipv4.destination ∧ target = targetOf ctx d := by
  obtain ⟨⟨s₁, o⟩, hread, hrest⟩ := bind_eq_returns_iff.1 h
  cases o with
  | none => simp at hrest
  | some d₁ =>
    obtain ⟨ipv4, hcheck, hdst, -⟩ := readDatagram_cases hread
    obtain ⟨-, hpassed⟩ | ⟨_, _, -, -, ⟨-, hnot⟩ | ⟨_, -, -, hsent⟩⟩ := forwardDatagram_cases hrest
    · cases hpassed
    · exact absurd rfl (hnot d target)
    · cases hsent
      exact ⟨ipv4, hcheck, hdst, rfl⟩

/-! ### Without a panic -/

def FragmentsFit (r : IpReassembler) (packet : Packet) : Prop :=
  ∀ ipv4 ∈ Ipv4View.read packet.payload, isPacketFragmented ipv4 = true →
    r.Fits ipv4.source ipv4.destination ipv4

instance (r : IpReassembler) (packet : Packet) : Decidable (FragmentsFit r packet) :=
  inferInstanceAs (Decidable (∀ _ ∈ _, _ → _))

theorem reassemble_of_fits {r : IpReassembler} {ipv4 : Ipv4View} (checks : Bool) (now : ℕ) (hr : r.Wf)
    (h : isPacketFragmented ipv4 = true → r.Fits ipv4.source ipv4.destination ipv4) :
    ∃ r' buf, reassemble checks now r ipv4 = .returns (r', buf) ∧ r'.Wf := by
  unfold reassemble
  split
  · next hfrag => exact addFragment_of_fits now hr (h hfrag)
  · exact ⟨r, some ipv4.payload, rfl, hr⟩

/-- **A UDP packet whose fragments fit is handled without a panic.** -/
theorem tryHandlePacket_of_fits (checks : Bool) (ctx : GlobalCtx) (cidrs : CidrSet) (now : ℕ)
    (bindOk : Bool) (hr : s.ipReassembler.Wf)
    (h : FragmentsFit s.ipReassembler packet) :
    ∃ s' v, tryHandlePacket checks ctx cidrs now bindOk s packet = .returns (s', v) ∧
      s'.ipReassembler.Wf := by
  cases hcheck : checkPacket ctx cidrs packet with
  | none =>
    refine ⟨s, .passed, ?_, hr⟩
    simp [tryHandlePacket, readDatagram, hcheck]
  | some found =>
    obtain ⟨ipv4, real⟩ := found
    obtain ⟨hip, hread, -⟩ := proxiedPacket_cases hcheck
    obtain ⟨r', buf, hbuf, hr'⟩ := reassemble_of_fits checks now hr (h ipv4 hread)
    simp only [tryHandlePacket, readDatagram, hcheck, hbuf, returns_bind, pure_eq]
    cases buf.bind (datagramOf packet.hdr ipv4 real) with
    | none => exact ⟨_, _, rfl, hr'⟩
    | some d =>
      obtain ⟨s', hs', hkeep⟩ := forwardDatagram_eq now bindOk { s with ipReassembler := r' } d hip
      exact ⟨s', _, hs', hkeep ▸ hr'⟩

end UdpProxy

end PactMesh
