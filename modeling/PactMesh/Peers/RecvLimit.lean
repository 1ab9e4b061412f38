import Mathlib.Data.UInt
import PactMesh.Common.TokenBucket
import PactMesh.Lib.Endian

/-!
# Limiting what a connection receives

The receive loop hands a packet on and then takes as many tokens as the packet has bytes, so it never
goes on after a packet that is longer than the capacity of the bucket.  Tunnels over streams deliver
short frames only, but a websocket message may have any length, and the capacity can wrap.

Main result: `recv_never_wedges_iff`.
-/

namespace PactMesh

open Outcome BucketConfig TokenBucket

structure RecvFlags where
  foreignRelayBpsLimit : UInt64
  instanceRecvBpsLimit : UInt64

/-- The limit of a connection, in `start_recv_loop`. -/
def recvLimiterConfig (flags : RecvFlags) (isForeignNetwork : Bool) : Option LimiterConfig :=
  if isForeignNetwork then some ⟨none, some flags.foreignRelayBpsLimit, none⟩
  else if flags.instanceRecvBpsLimit ≠ 0 - 1 then
    some ⟨none, some flags.instanceRecvBpsLimit, none⟩
  else none

def tcpTunnelHeaderSize : ℕ := 4

/-- `FramedReader::extract_one_packet`: the next packet and the rest of the buffer, if it is
complete; an error if the body is too long. -/
def extractOnePacket (buf : List UInt8) (maxPacketSize : ℕ) :
    Option (Except String (List UInt8 × List UInt8)) :=
  if buf.length < tcpTunnelHeaderSize then none
  else
    let bodyLen := Endian.leNat (buf.take tcpTunnelHeaderSize)
    if maxPacketSize < bodyLen then some (.error "body too long")
    else if buf.length < tcpTunnelHeaderSize + bodyLen then none
    else some (.ok (buf.take (tcpTunnelHeaderSize + bodyLen),
      buf.drop (tcpTunnelHeaderSize + bodyLen)))

inductive StreamTunnel
  | tcp
  | quic
  | unix
deriving DecidableEq

def StreamTunnel.maxPacketSize : StreamTunnel → ℕ
  | .tcp => 2000
  | .quic => 2000
  | .unix => 4096

/-- The packet can come from a tunnel: it is a frame of a stream, or a binary websocket message, which
is taken as it is. -/
inductive Delivered : List UInt8 → Prop
  | frame (tunnel : StreamTunnel) {buf packet rest : List UInt8} :
    extractOnePacket buf tunnel.maxPacketSize = some (.ok (packet, rest)) → Delivered packet
  | websocketMessage (payload : List UInt8) : Delivered payload

theorem length_le_of_framed {tunnel : StreamTunnel} {buf packet rest : List UInt8}
    (h : extractOnePacket buf tunnel.maxPacketSize = some (.ok (packet, rest))) :
    packet.length ≤ 4100 := by
  have hmax : tunnel.maxPacketSize ≤ 4096 := by cases tunnel <;> decide
  unfold extractOnePacket at h
  dsimp only at h
  split_ifs at h with _ hbody _
  · cases h
  · cases h
    rw [List.length_take, tcpTunnelHeaderSize] at *
    omega

/-! ### Waiting for tokens -/

section Config

variable {checks : Bool} {cfg : LimiterConfig} {config : BucketConfig}

theorem ofLimiterConfig_eq (h : ofLimiterConfig checks cfg = .returns config) :
    arith checks 64 (cfg.burst * cfg.rate : ℕ) = .returns config.capacity ∧
      config.fillRate = cfg.rate ∧ config.refillInterval = cfg.interval := by
  obtain ⟨capacity, hcapacity, hret⟩ := bind_eq_returns_iff.1 h
  cases hret
  exact ⟨hcapacity, rfl, rfl⟩

theorem capacity_eq_of_lt (h : ofLimiterConfig checks cfg = .returns config)
    (hlt : cfg.burst * cfg.rate < 2 ^ 64) :
    config.capacity = cfg.burst * cfg.rate ∧ 8196 ≤ config.capacity := by
  have hcapacity := (ofLimiterConfig_eq h).1
  rw [arith_natCast hlt] at hcapacity
  have heq : config.capacity = cfg.burst * cfg.rate := (returns.inj hcapacity).symm
  refine ⟨heq, ?_⟩
  calc 8196 ≤ cfg.rate := cfg.le_rate
    _ ≤ cfg.burst * cfg.rate := Nat.le_mul_of_pos_left _ (le_max_left 1 _)
    _ = config.capacity := heq.symm

end Config

/-- **When the receive loop goes on**: for every limit and length there is a number of ticks after
which the tokens are there just if the length is no more than the capacity, which is the product of
burst and rate, and 8196 at least, if that product does not overflow. -/
theorem recv_never_wedges_iff (checks : Bool) (cfg : LimiterConfig) (config : BucketConfig)
    (hcfg : ofLimiterConfig checks cfg = .returns config) (length : ℕ) :
    ((∃ n, ∀ b : TokenBucket, b.config = config → b.availableTokens ≤ config.capacity →
      ∀ ticks : List ℕ, ticks.length = n → TickTimes config.refillInterval b.lastRefillTime ticks →
        ((b.afterTicks ticks).tryConsume length).1 = true ∧ (b.consume length ticks).isSome) ↔
      length ≤ config.capacity) ∧ (cfg.burst * cfg.rate < 2 ^ 64 →
      config.capacity = cfg.burst * cfg.rate ∧ 8196 ≤ config.capacity) := by
  obtain ⟨hcapacity, hrate, hinterval⟩ := ofLimiterConfig_eq hcfg
  refine ⟨⟨?_, fun hlength => ⟨length + 1, fun b hconfig havailable ticks hlen hticks => ?_⟩⟩,
    capacity_eq_of_lt hcfg⟩
  · rintro ⟨n, h⟩
    have hticks := tickTimes_on_time config.refillInterval 0 n
    obtain ⟨htry, -⟩ := h ⟨0, 0, config⟩ rfl (Nat.zero_le _) _ (by simp) hticks
    exact (tryConsume_iff.1 htry).1.trans_eq (by rw [config_afterTicks])
  · subst hconfig
    have hwf : b.Wf := ⟨cfg.le_rate.trans_eq hrate.symm, lt_of_arith_eq hcapacity, havailable⟩
    have htry := tryConsume_afterTicks hwf (cfg.interval_pos.trans_eq hinterval.symm) hticks hlength
      hlen.ge
    exact ⟨htry, isSome_consume htry⟩

/-- A limit of 1000 bytes per second, as `start_recv_loop` writes it. -/
def slowLimit : LimiterConfig := ⟨none, some 1000, none⟩

theorem ofLimiterConfig_slowLimit (checks : Bool) :
    ofLimiterConfig checks slowLimit = .returns ⟨8196, 8196, 10⟩ := by
  cases checks <;> decide

/-- With this limit a frame of a TCP tunnel is waited for. -/
theorem tcp_frame_waited_for :
    ∃ n, ∀ b : TokenBucket, b.config = ⟨8196, 8196, 10⟩ → b.availableTokens ≤ 8196 →
      ∀ ticks : List ℕ, ticks.length = n → TickTimes 10 b.lastRefillTime ticks →
        ((b.afterTicks ticks).tryConsume 2004).1 = true ∧ (b.consume 2004 ticks).isSome :=
  (recv_never_wedges_iff false slowLimit _ (ofLimiterConfig_slowLimit false) 2004).1.2 (by decide)

/-- **A websocket message of 10000 bytes stops a slow connection for ever**, and so does every
packet after a product that wraps to zero. -/
theorem long_message_wedges :
    recvLimiterConfig ⟨1000, 0 - 1⟩ true = some slowLimit ∧
      (∀ checks, ofLimiterConfig checks slowLimit = .returns ⟨8196, 8196, 10⟩) ∧
      Delivered (List.replicate 10000 0) ∧ (∀ ticks, (newFromCfg ⟨8196, 8196, 10⟩).consume
        (List.replicate 10000 (0 : UInt8)).length ticks = none) ∧
      ofLimiterConfig false ⟨some (2 ^ 32), some (2 ^ 32), none⟩ = .returns ⟨0, 2 ^ 32, 10⟩ ∧
      ∀ ticks, (newFromCfg ⟨0, 2 ^ 32, 10⟩).consume 1 ticks = none := by
  refine ⟨rfl, ofLimiterConfig_slowLimit, .websocketMessage _, fun ticks => ?_, by decide,
    fun ticks => ?_⟩
  · rw [List.length_replicate]
    exact consume_eq_none (by decide)
  · exact consume_eq_none (by decide)

end PactMesh
