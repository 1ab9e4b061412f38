import PactMesh.Gateway.ProtectedUdp

/-!
# Replies through the UDP proxy

A NAT entry belongs to a source socket and is made by its first datagram.  It keeps the peer that
sent that datagram, and one pair of a real and a mapped address, for the replies to all datagrams of
the socket.  The task that waits for the replies ends after two minutes without one, and while the
entry lives it is not started again.

* `Serves.step` : an entry keeps its peer and its addresses, whatever comes later;
* `udp_nat_transparent_iff` : when a reply comes to the sender of a datagram, and from the address
  that the datagram was sent to;
* `replies_not_restored` : replies that come from another address, and that do not come.
-/

namespace PactMesh

open Option

namespace UdpProxy

/-- A packet that `compose_ipv4_packet` makes of a reply. -/
structure UdpReply where
  fromPeerId : PeerId
  toPeerId : PeerId
  source : SocketAddr
  destination : SocketAddr
deriving DecidableEq

/-- `Ipv4Addr::is_loopback` -/
def isLoopback (ip : BitVec 32) : Bool := ip.extractLsb' 24 8 == 127#8

/-- The reply that `forward_task` makes of what comes from `src`. -/
def forwardReply (entry : UdpNatEntry) (task : ForwardTask) (src : SocketAddr) : Option UdpReply :=
  match src.ip with
  | .v6 _ => none
  | .v4 ip =>
    let ip := if isLoopback ip then task.virtualIpv4 else ip
    let ip := if ip = task.realIpv4 then task.mappedIpv4 else ip
    some ⟨entry.myPeerId, entry.srcPeerId, ⟨.v4 ip, src.port⟩, entry.srcSocket⟩

/-- The receive loop of the task has not timed out. -/
def waits (now : ℕ) (task : ForwardTask) : Bool := now - task.waitingSince < 120

/-- A packet from `src` comes to the socket of the entry of `key` that was made at `startTime`.  An
entry that was removed waits for nothing: it had been idle for longer than a receive loop waits. -/
def receiveReply (now : ℕ) (key : SocketAddr) (startTime : ℕ) (src : SocketAddr) (s : UdpProxy) :
    UdpProxy × Option UdpReply :=
  match (s.natTable key).filter (·.startTime = startTime) with
  | none => (s, none)
  | some entry =>
    match entry.forwardTask.filter (waits now) with
    | none => (s, none)
    | some task =>
      let reply := forwardReply entry task src
      let entry := { entry with
        forwardTask := some { task with waitingSince := now }
        lastActiveTime := if reply.isSome then now else entry.lastActiveTime }
      ({ s with natTable := Function.update s.natTable key (some entry) }, reply)

/-- The reply comes to the peer and the socket that sent the datagram, from where it was sent to. -/
def Transparent (d : UdpDatagram) (reply : Option UdpReply) : Prop :=
  ∃ r, reply = some r ∧ r.toPeerId = d.fromPeerId ∧ r.destination = d.srcSocket ∧
    r.source = ⟨.v4 d.destination, d.dstPort⟩

/-- The task that the replies to a datagram go through: that of the entry, or a new one. -/
def taskFor (ctx : GlobalCtx) (now : ℕ) (s : UdpProxy) (d : UdpDatagram) : Option ForwardTask :=
  ((s.natTable d.srcSocket).bind (·.forwardTask)).or
    (ctx.getIpv4.map fun inet => ⟨inet.address, d.realDstIp, d.destination, now⟩)

/-- The source of the replies, before the real address is replaced. -/
def seenIpv4 (ctx : GlobalCtx) (task : ForwardTask) (d : UdpDatagram) : BitVec 32 :=
  if ctx.isIpLocalVirtualIp (.v4 d.realDstIp) || isLoopback d.realDstIp then task.virtualIpv4
  else d.realDstIp

/-- The pair of the task fits the datagram, or the replies are not translated and need not be. -/
def Restores (ctx : GlobalCtx) (task : ForwardTask) (d : UdpDatagram) : Prop :=
  seenIpv4 ctx task d = task.realIpv4 ∧ task.mappedIpv4 = d.destination ∨
    seenIpv4 ctx task d ≠ task.realIpv4 ∧ seenIpv4 ctx task d = d.destination

/-- The entry of `key` that was made at `startTime` is there, and its task waits. -/
def Waits (s : UdpProxy) (key : SocketAddr) (startTime now : ℕ) : Prop :=
  ∃ entry ∈ s.natTable key, entry.startTime = startTime ∧ ∃ task ∈ entry.forwardTask,
    waits now task = true

variable {ctx : GlobalCtx} {now : ℕ} {bindOk : Bool} {s s' : UdpProxy} {d d' : UdpDatagram}
  {target : SocketAddr} {entry : UdpNatEntry} {task : ForwardTask} {v : UdpVerdict}

theorem forwardReply_eq : forwardReply entry task (targetOf ctx d) =
    some ⟨entry.myPeerId, entry.srcPeerId, ⟨.v4 (if seenIpv4 ctx task d = task.realIpv4 then
      task.mappedIpv4 else seenIpv4 ctx task d), d.dstPort⟩, entry.srcSocket⟩ := by
  unfold forwardReply targetOf GlobalCtx.localized seenIpv4
  cases ctx.isIpLocalVirtualIp (.v4 d.realDstIp) with
  | true => rfl
  | false => rfl

theorem transparent_forwardReply_iff :
    Transparent d (forwardReply entry task (targetOf ctx d)) ↔
      (entry.srcPeerId = d.fromPeerId ∧ entry.srcSocket = d.srcSocket) ∧ Restores ctx task d := by
  rw [forwardReply_eq, Restores, Transparent]
  split_ifs with hseen <;> simp [hseen, and_assoc]

/-! ### What becomes of an entry -/

/-- The same entry later: its peer, its socket and the addresses of its task stay. -/
structure Continues (e e' : UdpNatEntry) : Prop where
  startTime : e'.startTime = e.startTime
  srcPeerId : e'.srcPeerId = e.srcPeerId
  srcSocket : e'.srcSocket = e.srcSocket
  task : ∀ task ∈ e.forwardTask, ∃ t, e'.forwardTask = some { task with waitingSince := t }

theorem Continues.refl (e : UdpNatEntry) : Continues e e :=
  ⟨rfl, rfl, rfl, fun task h => ⟨task.waitingSince, h⟩⟩

theorem Continues.trans {e₁ e₂ e₃ : UdpNatEntry} (h : Continues e₁ e₂) (h' : Continues e₂ e₃) :
    Continues e₁ e₃ := by
  refine ⟨h'.startTime.trans h.startTime, h'.srcPeerId.trans h.srcPeerId,
    h'.srcSocket.trans h.srcSocket, fun task htask => ?_⟩
  obtain ⟨t, ht⟩ := h.task task htask
  exact h'.task { task with waitingSince := t } ht

/-- What an event at time `now` can do to the entry of a socket: nothing, use it, make it, or remove
it when it is old. -/
inductive EntryStep (now : ℕ) : Option UdpNatEntry → Option UdpNatEntry → Prop
  | same {o : Option UdpNatEntry} : EntryStep now o o
  | used {e e' : UdpNatEntry} : Continues e e' →
    e'.lastActiveTime = now ∨ e'.lastActiveTime = e.lastActiveTime → EntryStep now (some e) (some e')
  | made {e : UdpNatEntry} : e.startTime = now → EntryStep now none (some e)
  | removed {e : UdpNatEntry} : e.lastActiveTime < now → EntryStep now (some e) none

theorem EntryStep.update {table : SocketAddr → Option UdpNatEntry} {key : SocketAddr}
    (h : EntryStep now (table key) (some entry)) (key' : SocketAddr) :
    EntryStep now (table key') (Function.update table key (some entry) key') := by
  by_cases hkey : key' = key
  · subst hkey
    rwa [Function.update_self]
  · rw [Function.update_of_ne hkey]
    exact .same

theorem entryStep_forwardDatagram (h : forwardDatagram ctx now bindOk s d = .returns (s', v))
    (key : SocketAddr) : EntryStep now (s.natTable key) (s'.natTable key) := by
  obtain ⟨rfl, -⟩ | ⟨entry, entry', hentry, htable, hused⟩ := forwardDatagram_cases h
  · exact .same
  · rw [htable]
    refine .update ?_ key
    obtain hold | ⟨hnone, hstart, -⟩ := natEntryOf_cases hentry
    · rw [hold]
      obtain ⟨rfl, -⟩ | ⟨task, htask, rfl, -⟩ := hused
      · exact .same
      · refine .used ⟨rfl, rfl, rfl, fun old hmem => ⟨old.waitingSince, ?_⟩⟩ (.inl rfl)
        rw [← htask, forwardTaskOf, hmem]
    · rw [hnone]
      obtain ⟨rfl, -⟩ | ⟨task, -, rfl, -⟩ := hused
      · exact .made hstart
      · exact .made hstart

theorem entryStep_receiveReply (s : UdpProxy) (now : ℕ) (key : SocketAddr) (startTime : ℕ)
    (src key' : SocketAddr) :
    EntryStep now (s.natTable key') ((s.receiveReply now key startTime src).1.natTable key') := by
  unfold receiveReply
  split
  · exact .same
  · next entry hentry =>
    split
    · exact .same
    · next task htask =>
      refine .update ?_ key'
      rw [(filter_eq_some_iff.1 hentry).1]
      refine .used ⟨rfl, rfl, rfl, fun old hold => ⟨now, ?_⟩⟩ ?_
      · rw [← Option.some.inj ((filter_eq_some_iff.1 htask).1.symm.trans hold)]
      · dsimp only
        split_ifs
        · exact .inl rfl
        · exact .inr rfl

theorem entryStep_cleanNatTable (s : UdpProxy) (now : ℕ) (key : SocketAddr) :
    EntryStep now (s.natTable key) ((s.cleanNatTable now).natTable key) := by
  simp only [cleanNatTable]
  cases s.natTable key with
  | none => exact .same
  | some entry =>
    by_cases hactive : now - entry.lastActiveTime < 180
    · simp only [filter_some, hactive, decide_true, if_true]
      exact .same
    · simp only [filter_some, hactive, decide_false, Bool.false_eq_true, if_false]
      exact .removed (by omega)

end UdpProxy

/-! ### Runs with replies -/

open UdpProxy

/-- What the proxy handles, and the packets that come back to the socket of an entry. -/
inductive NatEvent
  | udp (event : UdpEvent)
  | reply (now : ℕ) (key : SocketAddr) (startTime : ℕ) (src : SocketAddr)

/-- The time of an event. -/
def NatEvent.now : NatEvent → ℕ
  | .udp (.packet _ _ now _ _) => now
  | .udp (.cleanNatTable now) => now
  | .udp (.removeExpiredPackets now) => now
  | .reply now _ _ _ => now

/-- The proxy and the time of the last event; time does not go back. -/
def natSystem (checks : Bool) : Trans (UdpProxy × ℕ) NatEvent where
  step st e st' := st.2 ≤ e.now ∧ st'.2 = e.now ∧
    match e with
    | .udp event => ∃ v, st.1.step checks event = .returns (st'.1, v)
    | .reply now key startTime src => st'.1 = (st.1.receiveReply now key startTime src).1

namespace UdpProxy

variable {checks : Bool} {st st' : UdpProxy × ℕ} {e : NatEvent} {key : SocketAddr} {startTime : ℕ}
  {entry : UdpNatEntry} {task : ForwardTask}

theorem forwarded_of_tryHandlePacket {ctx : GlobalCtx} {cidrs : CidrSet} {now : ℕ} {bindOk : Bool}
    {s s' : UdpProxy} {packet : Packet} {v : UdpVerdict}
    (h : tryHandlePacket checks ctx cidrs now bindOk s packet = .returns (s', v)) :
    s'.natTable = s.natTable ∧ v = .passed ∨ ∃ s₁ d, s₁.natTable = s.natTable ∧
      forwardDatagram ctx now bindOk s₁ d = .returns (s', v) := by
  obtain ⟨⟨s₁, o⟩, hread, hrest⟩ := Outcome.bind_eq_returns_iff.1 h
  have htable : s₁.natTable = s.natTable := by
    unfold readDatagram at hread
    split at hread
    · cases hread
      rfl
    · obtain ⟨_, -, hread⟩ := Outcome.bind_eq_returns_iff.1 hread
      cases hread
      rfl
  cases o with
  | none =>
    cases hrest
    exact .inl ⟨htable, rfl⟩
  | some d => exact .inr ⟨s₁, d, htable, hrest⟩

/-- **One event** does one of four things to the entry of a socket. -/
theorem entryStep_of_step (h : (natSystem checks).step st e st') (key : SocketAddr) :
    EntryStep e.now (st.1.natTable key) (st'.1.natTable key) := by
  obtain ⟨-, -, h⟩ := h
  cases e with
  | udp event =>
    obtain ⟨v, h⟩ := h
    cases event with
    | packet ctx cidrs now bindOk packet =>
      obtain ⟨htable, -⟩ | ⟨s₁, d, htable, hforward⟩ := forwarded_of_tryHandlePacket h
      · rw [htable]
        exact .same
      · rw [← htable]
        exact entryStep_forwardDatagram hforward key
    | cleanNatTable now =>
      obtain ⟨hs, -⟩ := Prod.mk.inj (Outcome.returns.inj h)
      rw [← hs]
      exact entryStep_cleanNatTable st.1 now key
    | removeExpiredPackets now =>
      obtain ⟨hs, -⟩ := Prod.mk.inj (Outcome.returns.inj h)
      rw [← hs]
      exact .same
  | reply now key' startTime src =>
    rw [h]
    exact entryStep_receiveReply st.1 now key' startTime src key

/-- The entry of `key` that was `entry` goes on, or it is gone and every later one was made later. -/
structure Serves (key : SocketAddr) (entry : UdpNatEntry) (st : UdpProxy × ℕ) : Prop where
  started : entry.startTime ≤ st.2
  serves : (∃ e ∈ st.1.natTable key, Continues entry e ∧ entry.startTime ≤ e.lastActiveTime) ∨
    entry.startTime < st.2 ∧ ∀ e ∈ st.1.natTable key, e.startTime ≠ entry.startTime

/-- **An entry keeps its peer and its addresses.** -/
theorem Serves.step (h : Serves key entry st) (hstep : (natSystem checks).step st e st') :
    Serves key entry st' := by
  have hentry := entryStep_of_step hstep key
  obtain ⟨hle, hnow, -⟩ := hstep
  obtain ⟨hstarted, h⟩ := h
  rw [← hnow] at hentry hle
  refine ⟨hstarted.trans hle, ?_⟩
  generalize st.1.natTable key = old at hentry h
  generalize st'.1.natTable key = new at hentry ⊢
  cases hentry with
  | same => exact h.imp_right fun hgone => ⟨hgone.1.trans_le hle, hgone.2⟩
  | @used e e' hcont hactive =>
    obtain ⟨_, ⟨⟩, hsame, hlast⟩ | ⟨hlt, hne⟩ := h
    · exact .inl ⟨e', rfl, hsame.trans hcont, by omega⟩
    · refine .inr ⟨hlt.trans_le hle, ?_⟩
      rintro _ ⟨⟩
      exact hcont.startTime ▸ hne e rfl
  | made hstart =>
    obtain ⟨_, ⟨⟩, -⟩ | ⟨hlt, -⟩ := h
    refine .inr ⟨hlt.trans_le hle, ?_⟩
    rintro _ ⟨⟩
    omega
  | removed hlast =>
    refine .inr ⟨?_, nofun⟩
    obtain ⟨_, ⟨⟩, -, hactive⟩ | ⟨hlt, -⟩ := h
    · omega
    · omega

theorem Serves.continues (h : Serves key entry st) {e : UdpNatEntry} (he : e ∈ st.1.natTable key)
    (hstart : e.startTime = entry.startTime) : Continues entry e := by
  obtain ⟨e', he', hcont, -⟩ | ⟨-, hne⟩ := h.serves
  · cases he'.symm.trans he
    exact hcont
  · exact absurd hstart (hne e he)

/-- No entry was made later than now. -/
theorem startTime_le_of_run {events : List NatEvent}
    (h : (natSystem checks).Run (.new, 0) events st) :
    ∀ key, ∀ e ∈ st.1.natTable key, e.startTime ≤ st.2 := by
  refine h.invariant (I := fun st => ∀ key, ∀ e ∈ st.1.natTable key, e.startTime ≤ st.2) nofun ?_
  intro st e st' ih hstep key
  have hentry := entryStep_of_step hstep key
  obtain ⟨hle, hnow, -⟩ := hstep
  have hold := ih key
  rw [← hnow] at hentry hle
  generalize st.1.natTable key = old at hentry hold
  generalize st'.1.natTable key = new at hentry
  cases hentry with
  | same => exact fun e he => (hold e he).trans hle
  | used hcont =>
    rintro _ ⟨⟩
    exact (hcont.startTime.trans_le (hold _ rfl)).trans hle
  | made hstart =>
    rintro _ ⟨⟩
    exact hstart.le
  | removed => exact nofun

theorem transparent_receiveReply_iff {ctx : GlobalCtx} {d : UdpDatagram} {now : ℕ} {s : UdpProxy}
    (hentry : task ∈ entry.forwardTask)
    (h : ∀ e ∈ s.natTable d.srcSocket, e.startTime = entry.startTime → Continues entry e) :
    Transparent d (s.receiveReply now d.srcSocket entry.startTime (targetOf ctx d)).2 ↔
      ((entry.srcPeerId = d.fromPeerId ∧ entry.srcSocket = d.srcSocket) ∧ Restores ctx task d) ∧
        s.Waits d.srcSocket entry.startTime now := by
  unfold receiveReply Waits
  cases hfound : (s.natTable d.srcSocket).filter (·.startTime = entry.startTime) with
  | none =>
    refine iff_of_false (by simp [Transparent]) ?_
    rintro ⟨-, e, he, hstart, -⟩
    have hno := filter_eq_none_iff.1 hfound e he
    simp [hstart] at hno
  | some e =>
    obtain ⟨he, hstart⟩ := filter_eq_some_iff.1 hfound
    obtain ⟨-, hpeer, hsocket, hkeeps⟩ := h e he (by simpa using hstart)
    obtain ⟨t, htask⟩ := hkeeps task hentry
    dsimp only
    rw [htask, he]
    by_cases hwaits : waits now { task with waitingSince := t } = true
    · rw [filter_some, if_pos hwaits]
      dsimp only
      rw [transparent_forwardReply_iff, hpeer, hsocket]
      refine ⟨fun hr => ⟨hr, e, rfl, by simpa using hstart, _, htask, hwaits⟩, fun hr => hr.1⟩
    · rw [filter_some, if_neg hwaits]
      refine iff_of_false (by simp [Transparent]) ?_
      rintro ⟨-, _, ⟨⟩, -, task', htask', hw⟩
      rw [htask] at htask'
      cases htask'
      exact hwaits hw

end UdpProxy

/-- **When a UDP flow sees the address it sent to.**  After any events a datagram is sent, and after
any more events a reply comes from where it was sent to, to the socket that it was sent from.  The
reply goes to the sender, from the address that the datagram was for, exactly if the entry of the
source socket, when there was one, was made for the same peer, its pair of addresses restores that of
the datagram, and its task still waits for replies. -/
theorem udp_nat_transparent_iff (checks : Bool) (earlier later : List NatEvent)
    (st st' : UdpProxy × ℕ) (hearlier : (natSystem checks).Run (.new, 0) earlier st)
    (ctx : GlobalCtx) (cidrs : CidrSet) (now : ℕ) (hnow : st.2 ≤ now) (bindOk : Bool)
    (packet : Packet) (s : UdpProxy) (d : UdpDatagram) (target : SocketAddr)
    (h : tryHandlePacket checks ctx cidrs now bindOk st.1 packet = .returns (s, .sent d target))
    (hlater : (natSystem checks).Run (s, now) later st') (replyTime : ℕ) :
    ∃ entry ∈ s.natTable d.srcSocket,
      (Transparent d (st'.1.receiveReply replyTime d.srcSocket entry.startTime target).2 ↔
        ((∀ old ∈ st.1.natTable d.srcSocket, old.srcPeerId = d.fromPeerId ∧
            old.srcSocket = d.srcSocket) ∧ ∀ task ∈ taskFor ctx now st.1 d, Restores ctx task d) ∧
        st'.1.Waits d.srcSocket entry.startTime replyTime) := by
  obtain ⟨-, hpassed⟩ | ⟨s₁, d₁, htable, hforward⟩ := forwarded_of_tryHandlePacket h
  · cases hpassed
  obtain ⟨-, hpassed⟩ | ⟨found, entry, hfound, hs, hused⟩ := forwardDatagram_cases hforward
  · cases hpassed
  obtain ⟨-, hnot⟩ | ⟨task, htask, hentry, hsent⟩ := hused
  · exact absurd rfl (hnot d target)
  cases hsent
  have hmem : s.natTable d.srcSocket = some entry := by rw [hs, Function.update_self]
  have hstart : entry.startTime ≤ now := by
    rw [hentry]
    obtain hold | ⟨-, hmade, -⟩ := natEntryOf_cases hfound
    · rw [htable] at hold
      exact (startTime_le_of_run hearlier _ _ hold).trans hnow
    · exact hmade.le
  have hserves : Serves d.srcSocket entry (s, now) :=
    ⟨hstart, .inl ⟨entry, hmem, .refl _, by rw [hentry] at hstart ⊢; exact hstart⟩⟩
  have hlast := hlater.invariant hserves fun _ _ _ ih hstep => ih.step hstep
  refine ⟨entry, hmem, (transparent_receiveReply_iff (by rw [hentry]; rfl) fun _ he hstart =>
    hlast.continues he hstart).trans (and_congr_left fun _ => ?_)⟩
  -- the entry was found or made, and its task with it
  rw [taskFor, ← htable, hentry]
  unfold forwardTaskOf at htask
  obtain hold | ⟨hnone, -, hpeer, hsocket, hfresh⟩ := natEntryOf_cases hfound
  · rw [hold]
    cases hfrozen : found.forwardTask with
    | some frozen =>
      simp only [hfrozen] at htask
      cases htask
      simp [hfrozen]
    | none =>
      simp only [hfrozen] at htask
      simp [hfrozen, htask]
  · simp only [hfresh] at htask
    simp [hnone, htask, hpeer, hsocket]

/-- `192.168.1.0/24` under its own addresses, and `192.168.2.0/24` as `10.1.0.0/24`. -/
def mappedCidrs : CidrSet :=
  .load [sampleProxyNetwork,
    ⟨⟨0xc0a80200#32, 24, Ipv4Inet.slash24_le, by decide⟩,
      some ⟨0x0a010000#32, 24, Ipv4Inet.slash24_le, by decide⟩⟩]

/-- The datagram from port 5000 of `10.144.0.2` to port 53 of an address is handled. -/
def handleDns (now : ℕ) (s : UdpProxy) (destination : BitVec 32) : Outcome (UdpProxy × UdpVerdict) :=
  tryHandlePacket true sampleCtx mappedCidrs now true s
    (sampleData 0 (sampleUdpPayload 0x0a900002#32 destination 5000 53))

def dnsSocket : SocketAddr := ⟨.v4 0x0a900002#32, 5000⟩

def sampleDns (destination realDstIp : BitVec 32) : UdpDatagram :=
  ⟨2, 1, dnsSocket, destination, realDstIp, 53, []⟩

/-- `10.1.0.1` stands for this server. -/
def mappedServer : SocketAddr := ⟨.v4 0xc0a80201, 53⟩

def mappedDns : UdpDatagram := sampleDns 0x0a010001 0xc0a80201

/-- The replies to the first datagram of a socket, to an address that is mapped, come from that
address; the second one after more than two minutes, but less than that after the first. -/
theorem first_datagram_transparent :
    ∃ s, handleDns 0 .new 0x0a010001 = .returns (s, .sent mappedDns mappedServer) ∧
      Transparent mappedDns ((s.receiveReply 100 dnsSocket 0 mappedServer).1.receiveReply 200
        dnsSocket 0 mappedServer).2 := by
  refine ⟨_, rfl, ?_⟩
  obtain ⟨entry, hentry, hiff⟩ := udp_nat_transparent_iff true []
    [.reply 100 dnsSocket 0 mappedServer] _ (_, 100) .nil sampleCtx mappedCidrs 0 le_rfl true
    (sampleData 0 (sampleUdpPayload 0x0a900002#32 0x0a010001 5000 53)) _ mappedDns mappedServer rfl
    (.cons ⟨Nat.zero_le _, rfl, rfl⟩ .nil) 200
  cases hentry
  refine hiff.2 ⟨⟨nofun, fun task htask => ?_⟩, _, rfl, rfl, _, rfl, rfl⟩
  cases htask
  exact .inl ⟨rfl, rfl⟩

/-- **Replies that are not restored**: after a datagram to 192.168.1.9, one to 10.1.0.1, which stands
for 192.168.2.1, is answered from 192.168.2.1; and a datagram that is sent when there was no reply
for two minutes is not answered at all. -/
theorem replies_not_restored :
    (∃ s₁ s₂, handleDns 0 .new 0xc0a80109 =
        .returns (s₁, .sent (sampleDns 0xc0a80109 0xc0a80109) ⟨.v4 0xc0a80109, 53⟩) ∧
      handleDns 1 s₁ 0x0a010001 = .returns (s₂, .sent mappedDns mappedServer) ∧
      (s₂.receiveReply 2 dnsSocket 0 mappedServer).2 = some ⟨1, 2, mappedServer, dnsSocket⟩) ∧
    ∃ s₁ s₂, handleDns 0 .new 0x0a010001 = .returns (s₁, .sent mappedDns mappedServer) ∧
      handleDns 150 s₁ 0x0a010001 = .returns (s₂, .sent mappedDns mappedServer) ∧
      (s₂.receiveReply 151 dnsSocket 0 mappedServer).2 = none :=
  ⟨⟨_, _, rfl, rfl, rfl⟩, _, _, rfl, rfl, rfl⟩

end PactMesh
