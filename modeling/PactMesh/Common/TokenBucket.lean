import PactMesh.Lib.Outcome
import PactMesh.Lib.Rounding
import Mathlib.Algebra.Order.Floor.Semifield
import Mathlib.Data.List.Induction

/-!
# Token buckets

A background task adds tokens at every tick, in proportion to the time since the last one, in 64-bit
floating-point numbers.  Who wants more than there is waits for a tick; who wants more than the
capacity waits for ever.  `checks` says whether the build has overflow checks.

Main results: `rate_kept_iff`, `grants_bounded`.
-/

namespace PactMesh

open Outcome List

structure LimiterConfig where
  burstRate : Option UInt64
  bps : Option UInt64
  fillDurationMs : Option UInt64
deriving DecidableEq

/-- `BucketConfig`, with the interval in milliseconds. -/
structure BucketConfig where
  capacity : ℕ
  fillRate : ℕ
  refillInterval : ℕ
deriving DecidableEq

namespace LimiterConfig

variable (cfg : LimiterConfig)

/-- `1.max(cfg.burst_rate.unwrap_or(1))` -/
def burst : ℕ := max 1 (cfg.burstRate.getD 1).toNat

/-- `8196.max(cfg.bps.unwrap_or(u64::MAX / burst_rate))` -/
def rate : ℕ := max 8196 (cfg.bps.elim ((2 ^ 64 - 1) / cfg.burst) UInt64.toNat)

/-- `cfg.fill_duration_ms.map(|x| Duration::from_millis(1.max(x)))`, or 10 milliseconds. -/
def interval : ℕ := cfg.fillDurationMs.elim 10 fun ms => max 1 ms.toNat

theorem le_rate : 8196 ≤ cfg.rate := le_max_left _ _

theorem interval_pos : 1 ≤ cfg.interval := by
  unfold interval
  cases cfg.fillDurationMs with
  | none => decide
  | some ms => exact le_max_left _ _

end LimiterConfig

/-- `BucketConfig::from` -/
def BucketConfig.ofLimiterConfig (checks : Bool) (cfg : LimiterConfig) : Outcome BucketConfig := do
  let capacity ← arith checks 64 (cfg.burst * cfg.rate : ℕ)
  return ⟨capacity, cfg.rate, cfg.interval⟩

/-- `TokenBucket`, with the time since its creation in microseconds. -/
structure TokenBucket where
  availableTokens : ℕ
  lastRefillTime : ℕ
  config : BucketConfig
deriving DecidableEq

/-- The result of an operation on `f64`, whose true result is `q`. -/
def f64 (q : ℚ) : ℚ := Rounding.toDigits 53 q

/-- `q as u64` -/
def asU64 (q : ℚ) : ℕ := min ⌊q⌋₊ (2 ^ 64 - 1)

/-- `(fill_rate as f64 * elapsed_secs) as u64` -/
def tokensToAdd (fillRate elapsedMicros : ℕ) : ℕ :=
  let elapsedSecs := f64 (f64 elapsedMicros / 1000000)
  asU64 (f64 (f64 fillRate * elapsedSecs))

namespace TokenBucket

def newFromCfg (config : BucketConfig) : TokenBucket := ⟨config.capacity, 0, config⟩

def refill (b : TokenBucket) (nowMicros : ℕ) : TokenBucket :=
  let tokens := tokensToAdd b.config.fillRate (nowMicros - b.lastRefillTime)
  let b := { b with lastRefillTime := nowMicros }
  if tokens = 0 then b
  else
    { b with
      availableTokens := min (min (b.availableTokens + tokens) (2 ^ 64 - 1)) b.config.capacity }

def tryConsume (b : TokenBucket) (tokens : ℕ) : Bool × TokenBucket :=
  -- a request over the capacity is refused at once
  if b.config.capacity < tokens then (false, b)
  else if b.availableTokens < tokens then (false, b)
  else (true, { b with availableTokens := b.availableTokens - tokens })

/-- Take tokens, and wait for the next tick as long as there are not enough; nothing if the ticks run
out. -/
def consume (b : TokenBucket) (tokens : ℕ) : List ℕ → Option TokenBucket
  | [] => if (b.tryConsume tokens).1 then some (b.tryConsume tokens).2 else none
  | tick :: ticks =>
    if (b.tryConsume tokens).1 then some (b.tryConsume tokens).2
    else consume (b.refill tick) tokens ticks

def afterTicks (b : TokenBucket) (ticks : List ℕ) : TokenBucket := ticks.foldl refill b

end TokenBucket

/-! ### Tokens of a tick -/

theorem f64_ge {q : ℚ} (hq : 0 ≤ q) : 999 / 1000 * q ≤ f64 q := by
  have hle := Rounding.le_toDigits 53 hq
  have hsmall : q / 2 ^ 53 ≤ q / 1000 := by
    gcongr
    norm_num
  unfold f64
  linarith

theorem f64_nonneg {q : ℚ} (hq : 0 ≤ q) : 0 ≤ f64 q := le_trans (by linarith) (f64_ge hq)

theorem tokensToAdd_ge {fillRate : ℕ} (elapsed : ℕ) (hrate : 8196 ≤ fillRate) :
    tokensToAdd fillRate elapsed = 2 ^ 64 - 1 ∨
      8 * elapsed ≤ 1000 * tokensToAdd fillRate elapsed + 1000 := by
  set secs : ℚ := f64 (f64 elapsed / 1000000) with hsecs
  set added : ℚ := f64 (f64 fillRate * secs)
  have helapsed : (0 : ℚ) ≤ elapsed := Nat.cast_nonneg elapsed
  have hsecs_ge : 998 / 1000000000 * (elapsed : ℚ) ≤ secs := by
    have hmicros := f64_ge helapsed
    have hdiv : (0 : ℚ) ≤ f64 elapsed / 1000000 := div_nonneg (f64_nonneg helapsed) (by norm_num)
    have hround := f64_ge hdiv
    linarith
  have hrate_ge : 8187 ≤ f64 (fillRate : ℚ) := by
    have hcast : (8196 : ℚ) ≤ fillRate := by exact_mod_cast hrate
    have hround := f64_ge (le_trans (by norm_num) hcast)
    linarith
  have hsecs_nonneg : 0 ≤ secs := le_trans (by positivity) hsecs_ge
  have hproduct : 8187 * secs ≤ f64 fillRate * secs :=
    mul_le_mul_of_nonneg_right hrate_ge hsecs_nonneg
  have hadded_ge : 8 / 1000 * (elapsed : ℚ) ≤ added := by
    have hround := f64_ge (le_trans (by positivity) hproduct)
    linarith
  have hfloor : added < ⌊added⌋₊ + 1 := Nat.lt_floor_add_one added
  have htokens : tokensToAdd fillRate elapsed = min ⌊added⌋₊ (2 ^ 64 - 1) := rfl
  rcases le_total (2 ^ 64 - 1) ⌊added⌋₊ with hcap | hcap
  · exact .inl (htokens.trans (min_eq_right hcap))
  · right
    rw [htokens, min_eq_left hcap]
    have hlt : 8 / 1000 * (elapsed : ℚ) < ⌊added⌋₊ + 1 := hadded_ge.trans_lt hfloor
    have hcast : (8 * elapsed : ℚ) ≤ 1000 * ⌊added⌋₊ + 1000 := by linarith
    exact_mod_cast hcast

/-- Ticks are due one interval (in milliseconds) after the other and come then or later.  The last
refill (in microseconds) may itself be an interval late, so that the first of them is due at once. -/
structure TickTimes (interval last : ℕ) (ticks : List ℕ) : Prop where
  ordered : (last :: ticks).IsChain (· ≤ ·)
  due : ∀ i t, ticks[i]? = some t → last + i * (1000 * interval) ≤ t

theorem tickTimes_on_time (interval last n : ℕ) :
    TickTimes interval last ((List.range n).map fun i => last + (i + 1) * (1000 * interval)) := by
  refine ⟨?_, fun i t hi => ?_⟩
  · have hsorted : ((List.range n).map fun i => last + (i + 1) * (1000 * interval)).Pairwise
        (· ≤ ·) := by
      refine pairwise_map.2 (pairwise_lt_range.imp fun hij => ?_)
      exact Nat.add_le_add_left (Nat.mul_le_mul_right _ (by omega)) last
    refine List.Pairwise.isChain (pairwise_cons.2 ⟨fun t ht => ?_, hsorted⟩)
    obtain ⟨i, -, rfl⟩ := mem_map.1 ht
    exact Nat.le_add_right _ _
  · rw [getElem?_map] at hi
    obtain ⟨j, hj, rfl⟩ := Option.map_eq_some_iff.1 hi
    have hij : i = j := by
      obtain ⟨hlt, hget⟩ := List.getElem?_eq_some_iff.1 hj
      rwa [getElem_range] at hget
    rw [hij]
    exact Nat.add_le_add_left (Nat.mul_le_mul_right _ (Nat.le_succ j)) last

theorem TickTimes.le_getLastD {interval last : ℕ} {ticks : List ℕ} (h : TickTimes interval last ticks) :
    last + (ticks.length - 1) * (1000 * interval) ≤ ticks.getLastD last := by
  rcases eq_nil_or_concat' ticks with rfl | ⟨front, t, rfl⟩
  · simp
  · rw [getLastD_concat, length_append, length_singleton]
    exact h.due front.length t (by simp)

namespace TokenBucket

variable {b : TokenBucket} {ticks : List ℕ} {tokens : ℕ}

@[simp] theorem config_refill (b : TokenBucket) (t : ℕ) : (b.refill t).config = b.config := by
  unfold refill
  dsimp only
  split_ifs <;> rfl

@[simp] theorem lastRefillTime_refill (b : TokenBucket) (t : ℕ) :
    (b.refill t).lastRefillTime = t := by
  unfold refill
  dsimp only
  split_ifs <;> rfl

@[simp] theorem config_afterTicks (b : TokenBucket) (ticks : List ℕ) :
    (b.afterTicks ticks).config = b.config := by
  induction ticks generalizing b with
  | nil => rfl
  | cons t ticks ih => exact (ih (b.refill t)).trans (config_refill b t)

theorem lastRefillTime_afterTicks (b : TokenBucket) (ticks : List ℕ) :
    (b.afterTicks ticks).lastRefillTime = ticks.getLastD b.lastRefillTime := by
  induction ticks generalizing b with
  | nil => rfl
  | cons t ticks ih =>
    have hrest := ih (b.refill t)
    rwa [lastRefillTime_refill, ← getLastD_cons] at hrest

/-- What a bucket of a limiter is like: it is filled at a rate of 8196 at least, and its capacity is
a 64-bit number, which is never exceeded. -/
structure Wf (b : TokenBucket) : Prop where
  le_fillRate : 8196 ≤ b.config.fillRate
  capacity_lt : b.config.capacity < 2 ^ 64
  available_le : b.availableTokens ≤ b.config.capacity

theorem availableTokens_refill (hb : b.Wf) (t : ℕ) : (b.refill t).availableTokens =
    min (b.availableTokens + tokensToAdd b.config.fillRate (t - b.lastRefillTime))
      b.config.capacity := by
  have hcap := hb.capacity_lt
  have havailable := hb.available_le
  unfold refill
  dsimp only
  split_ifs with hzero
  · rw [hzero, Nat.add_zero, min_eq_left havailable]
  · dsimp only
    omega

theorem Wf.refill (hb : b.Wf) (t : ℕ) : (b.refill t).Wf := by
  refine ⟨?_, ?_, ?_⟩ <;> rw [config_refill]
  · exact hb.le_fillRate
  · exact hb.capacity_lt
  · rw [availableTokens_refill hb]
    exact min_le_right _ _

theorem full_or_gained_refill (hb : b.Wf) (t : ℕ) :
    (b.refill t).availableTokens = b.config.capacity ∨
      1000 * b.availableTokens + 8 * (t - b.lastRefillTime) ≤
        1000 * (b.refill t).availableTokens + 1000 := by
  have hcap := hb.capacity_lt
  have hadded := tokensToAdd_ge (t - b.lastRefillTime) hb.le_fillRate
  rw [availableTokens_refill hb]
  rcases hadded with h | h
  · left
    omega
  · rcases le_total (b.availableTokens + tokensToAdd b.config.fillRate (t - b.lastRefillTime))
      b.config.capacity with hle | hle
    · right
      rw [min_eq_left hle]
      omega
    · left
      exact min_eq_right hle

/-- **After some ticks the bucket is full, or it has gained in proportion to the time**, less one
token for each tick. -/
theorem full_or_gained (hb : b.Wf) (ticks : List ℕ) : (b.afterTicks ticks).Wf ∧
    ((b.afterTicks ticks).availableTokens = b.config.capacity ∨
      1000 * b.availableTokens + 8 * ((b.afterTicks ticks).lastRefillTime - b.lastRefillTime) ≤
        1000 * (b.afterTicks ticks).availableTokens + 1000 * ticks.length) := by
  induction ticks using reverseRecOn with
  | nil => exact ⟨hb, .inr (by simp [afterTicks])⟩
  | append_singleton ticks t ih =>
    obtain ⟨hwf, ih⟩ := ih
    have hfold : b.afterTicks (ticks ++ [t]) = (b.afterTicks ticks).refill t := foldl_append
    rw [hfold, ← config_afterTicks b ticks, length_append, length_singleton, lastRefillTime_refill]
    refine ⟨hwf.refill t, ?_⟩
    rcases full_or_gained_refill hwf t with hfull | hgained
    · exact .inl hfull
    · rcases ih with hfull | ih
      · -- a full bucket stays full
        rw [availableTokens_refill hwf, hfull, config_afterTicks]
        exact .inl (min_eq_right (Nat.le_add_right _ _))
      · exact .inr (by omega)

theorem tryConsume_iff : (b.tryConsume tokens).1 = true ↔
    tokens ≤ b.config.capacity ∧ tokens ≤ b.availableTokens := by
  unfold tryConsume
  split_ifs with h₁ h₂
  · simp [Nat.not_le.2 h₁]
  · simp [Nat.not_le.2 h₂]
  · simp [Nat.le_of_not_lt h₁, Nat.le_of_not_lt h₂]

theorem isSome_consume (h : ((b.afterTicks ticks).tryConsume tokens).1 = true) :
    (b.consume tokens ticks).isSome := by
  induction ticks generalizing b with
  | nil =>
    have h' : (b.tryConsume tokens).1 = true := h
    rw [consume, if_pos h']
    rfl
  | cons t ticks ih =>
    rw [consume]
    split_ifs
    · rfl
    · exact ih h

theorem consume_eq_none (h : b.config.capacity < tokens) : b.consume tokens ticks = none := by
  have hrefused : ∀ b : TokenBucket, b.config.capacity < tokens → (b.tryConsume tokens).1 = false := by
    intro b hb
    rw [tryConsume, if_pos hb]
  induction ticks generalizing b with
  | nil => simp [consume, hrefused b h]
  | cons t ticks ih =>
    rw [consume, hrefused b h, if_neg Bool.false_ne_true]
    exact ih (by rwa [config_refill])

theorem tryConsume_afterTicks {interval : ℕ} (hb : b.Wf) (hinterval : 1 ≤ interval)
    (hticks : TickTimes interval b.lastRefillTime ticks) (htokens : tokens ≤ b.config.capacity)
    (hlen : tokens < ticks.length) : ((b.afterTicks ticks).tryConsume tokens).1 = true := by
  refine tryConsume_iff.2 ⟨by rwa [config_afterTicks], ?_⟩
  rcases (full_or_gained hb ticks).2 with hfull | hgained
  · rwa [hfull]
  · -- each interval is a millisecond at least and brings eight tokens, less one
    have htime := hticks.le_getLastD
    have hms : (ticks.length - 1) * 1000 ≤ (ticks.length - 1) * (1000 * interval) :=
      Nat.mul_le_mul_left _ (Nat.le_mul_of_pos_right 1000 hinterval)
    rw [lastRefillTime_afterTicks] at hgained
    omega

end TokenBucket

/-! ### Interleavings, in exact arithmetic -/

/-- `(fill_rate as f64 * elapsed_secs) as u64`, without rounding. -/
def exactTokens (fillRate elapsedMicros : ℕ) : ℕ := asU64 (fillRate * (elapsedMicros / 1000000 : ℚ))

theorem exactTokens_eq (fillRate elapsed : ℕ) :
    exactTokens fillRate elapsed = min (fillRate * elapsed / 1000000) (2 ^ 64 - 1) := by
  have hdiv : (fillRate * (elapsed / 1000000 : ℚ)) =
      ((fillRate * elapsed : ℕ) : ℚ) / (1000000 : ℕ) := by
    push_cast
    ring
  rw [exactTokens, asU64, hdiv, Nat.floor_div_eq_div]

/-- The atomic steps of a refill and of a request, and time that passes. -/
inductive BucketStep
  | elapse (micros : ℕ)
  | swapTime
  | addTokens
  | tryConsume (tokens : ℕ)

/-- A bucket that is shared, with a record of its run. -/
structure SharedBucket where
  bucket : TokenBucket
  /-- the tokens of a refill that has swapped the times, and the time they count from -/
  pending : ℕ
  since : ℕ
  now : ℕ
  granted : ℕ
  added : ℕ
  /-- whether a refill has filled the bucket -/
  full : Bool

namespace SharedBucket

def new (config : BucketConfig) : SharedBucket := ⟨.newFromCfg config, 0, 0, 0, 0, 0, false⟩

/-- One task does all refills, one after the other. -/
def step (s : SharedBucket) : BucketStep → SharedBucket
  | .elapse micros => { s with now := s.now + micros }
  | .swapTime =>
    let elapsed := s.now - s.bucket.lastRefillTime
    if s.pending = 0 then
      { s with
        bucket := { s.bucket with lastRefillTime := s.now }
        pending := exactTokens s.bucket.config.fillRate elapsed
        since := s.bucket.lastRefillTime }
    else s
  | .addTokens =>
    let tokens :=
      min (min (s.bucket.availableTokens + s.pending) (2 ^ 64 - 1)) s.bucket.config.capacity
    if s.pending = 0 then s
    else
      { s with
        bucket := { s.bucket with availableTokens := tokens }
        pending := 0
        added := s.added + (tokens - s.bucket.availableTokens)
        full := s.full || decide (tokens = s.bucket.config.capacity) }
  | .tryConsume tokens =>
    { s with
      bucket := (s.bucket.tryConsume tokens).2
      granted := s.granted + if (s.bucket.tryConsume tokens).1 then tokens else 0 }

/-- The time from which the tokens count that are not yet in the bucket. -/
def owedSince (s : SharedBucket) : ℕ := if s.pending = 0 then s.bucket.lastRefillTime else s.since

/-- The time of the refill that a step begins, if it begins one. -/
def tick (s : SharedBucket) : BucketStep → Option ℕ
  | .swapTime => if s.pending = 0 then some s.now else none
  | _ => none

def tickTimes (s : SharedBucket) : List BucketStep → List ℕ
  | [] => []
  | e :: steps => (s.tick e).toList ++ (s.step e).tickTimes steps

/-- The fractions of tokens, in millionths, that refills at `ticks` drop after one at `last`. -/
def dropped (fillRate last : ℕ) : List ℕ → ℕ
  | [] => 0
  | t :: ticks => fillRate * (t - last) % 1000000 + dropped fillRate t ticks

structure Wf (s : SharedBucket) : Prop where
  capacity : s.bucket.config.capacity < 2 ^ 64
  available : s.bucket.availableTokens ≤ s.bucket.config.capacity
  past : s.bucket.lastRefillTime ≤ s.now
  pending : 1000000 * s.pending + s.bucket.config.fillRate * s.since ≤
    s.bucket.config.fillRate * s.bucket.lastRefillTime

/-- Nothing is lost but the fractions, `lost` millionths in all, as long as the bucket is not
filled. -/
def Counted (s : SharedBucket) (lost : ℕ) : Prop :=
  s.full = false → s.pending = 2 ^ 64 - 1 ∨
    1000000 * (s.added + s.pending) + lost = s.bucket.config.fillRate * s.bucket.lastRefillTime

/-- Tokens come into being only with the time of the last refill. -/
structure Conserves (s s' : SharedBucket) : Prop where
  config : s'.bucket.config = s.bucket.config
  tokens : 1000000 * (s'.granted + s'.bucket.availableTokens + s'.pending) +
      s.bucket.config.fillRate * s.bucket.lastRefillTime ≤
    1000000 * (s.granted + s.bucket.availableTokens + s.pending) +
      s.bucket.config.fillRate * s'.bucket.lastRefillTime

theorem tryConsume_snd (b : TokenBucket) (tokens : ℕ) :
    ∃ n, (b.tryConsume tokens).2 = { b with availableTokens := n } ∧
      (n + if (b.tryConsume tokens).1 then tokens else 0) = b.availableTokens := by
  unfold TokenBucket.tryConsume
  by_cases hcap : b.config.capacity < tokens
  · rw [if_pos hcap]
    exact ⟨_, rfl, rfl⟩
  · rw [if_neg hcap]
    by_cases hfew : b.availableTokens < tokens
    · rw [if_pos hfew]
      exact ⟨_, rfl, rfl⟩
    · rw [if_neg hfew]
      exact ⟨_, rfl, Nat.sub_add_cancel (Nat.le_of_not_lt hfew)⟩

variable {s : SharedBucket}

theorem step_spec (h : s.Wf) (e : BucketStep) :
    (s.step e).Wf ∧ s.Conserves (s.step e) := by
  have hsame : s.Wf ∧ s.Conserves s := ⟨h, rfl, le_rfl⟩
  obtain ⟨hcap, havailable, hpast, hpending⟩ := h
  cases e with
  | elapse micros =>
    have hlater := hpast.trans (Nat.le_add_right s.now micros)
    exact ⟨⟨hcap, havailable, hlater, hpending⟩, rfl, le_rfl⟩
  | swapTime =>
    rw [step]
    split_ifs with hzero
    · -- the tokens are rounded down, after the time has moved on
      have hmul := Nat.mul_le_mul_left s.bucket.config.fillRate hpast
      have htokens := exactTokens_eq s.bucket.config.fillRate (s.now - s.bucket.lastRefillTime)
      rw [Nat.mul_sub] at htokens
      refine ⟨⟨hcap, havailable, le_rfl, ?_⟩, rfl, ?_⟩ <;> dsimp only <;> omega
    · exact hsame
  | addTokens =>
    rw [step]
    split_ifs with hzero
    · exact hsame
    · refine ⟨⟨hcap, min_le_right _ _, hpast, ?_⟩, rfl, ?_⟩ <;> dsimp only <;> omega
  | tryConsume tokens =>
    obtain ⟨n, hb, htaken⟩ := tryConsume_snd s.bucket tokens
    rw [step, hb]
    exact ⟨⟨hcap, (Nat.le.intro htaken).trans havailable, hpast, hpending⟩, rfl,
      by dsimp only; omega⟩

theorem run_spec (h : s.Wf) (steps : List BucketStep) :
    (steps.foldl step s).Wf ∧ s.Conserves (steps.foldl step s) := by
  refine foldlRecOn (motive := fun s' => Wf s' ∧ s.Conserves s') steps step ⟨h, rfl, le_rfl⟩
    fun s' ⟨h', hconfig, htokens⟩ e _ => ?_
  obtain ⟨hwf, hconfig', htokens'⟩ := step_spec h' e
  rw [hconfig] at htokens'
  exact ⟨hwf, hconfig'.trans hconfig, by omega⟩

theorem wf_new {config : BucketConfig} (hcap : config.capacity < 2 ^ 64) : (new config).Wf :=
  ⟨hcap, le_rfl, le_rfl, le_rfl⟩

theorem run_new {config : BucketConfig} (hcap : config.capacity < 2 ^ 64) (steps : List BucketStep) :
    (steps.foldl step (new config)).Wf ∧ (steps.foldl step (new config)).bucket.config = config := by
  obtain ⟨hwf, hconfig, -⟩ := run_spec (wf_new hcap) steps
  exact ⟨hwf, hconfig⟩

theorem counted_step (h : s.Wf) {lost : ℕ} (hcounted : s.Counted lost)
    (e : BucketStep) : (s.step e).bucket.lastRefillTime = (s.tick e).getD s.bucket.lastRefillTime ∧
      (s.step e).Counted (lost + dropped s.bucket.config.fillRate s.bucket.lastRefillTime
        (s.tick e).toList) := by
  cases e with
  | elapse micros => exact ⟨rfl, hcounted⟩
  | swapTime =>
    rw [step, tick]
    split_ifs with hzero
    · have htokens := exactTokens_eq s.bucket.config.fillRate (s.now - s.bucket.lastRefillTime)
      have hmul := Nat.mul_le_mul_left s.bucket.config.fillRate h.past
      refine ⟨rfl, fun hfull => ?_⟩
      have := hcounted hfull
      dsimp only [Option.toList, dropped]
      rw [Nat.mul_sub] at htokens ⊢
      omega
    · exact ⟨rfl, hcounted⟩
  | addTokens =>
    rw [step]
    split_ifs with hzero
    · exact ⟨rfl, hcounted⟩
    · refine ⟨rfl, fun hfull => ?_⟩
      rw [Bool.or_eq_false_iff, decide_eq_false_iff_not] at hfull
      have := hcounted hfull.1
      have := h.capacity
      have := h.available
      dsimp only [tick, Option.toList, dropped]
      omega
  | tryConsume tokens =>
    obtain ⟨n, hb, -⟩ := tryConsume_snd s.bucket tokens
    rw [step, hb]
    exact ⟨rfl, hcounted⟩

/-- **A run loses what its refills drop.** -/
theorem counted_run (h : s.Wf) {lost : ℕ} (hcounted : s.Counted lost)
    (steps : List BucketStep) : (steps.foldl step s).Counted
      (lost + dropped s.bucket.config.fillRate s.bucket.lastRefillTime (s.tickTimes steps)) := by
  induction steps generalizing s lost with
  | nil => exact hcounted
  | cons e steps ih =>
    obtain ⟨hwf, hconserves⟩ := step_spec h e
    obtain ⟨hlast, hstep⟩ := counted_step h hcounted e
    have hrest := ih hwf hstep
    rw [hconserves.config, hlast, Nat.add_assoc] at hrest
    rw [foldl_cons, tickTimes]
    -- what a refill drops counts from the one before it
    cases htick : s.tick e <;> rw [htick] at hrest <;> simpa [dropped] using hrest

/-- **Refills keep the rate just if what they drop stays below two tokens**, as long as none fills
the bucket. -/
theorem rate_kept_iff {config : BucketConfig} (hcap : config.capacity < 2 ^ 64)
    (steps : List BucketStep) :
    let s := steps.foldl step (new config)
    s.full = false → s.pending = 0 →
      (config.fillRate * s.bucket.lastRefillTime / 1000000 - 1 ≤ s.added ↔
        dropped config.fillRate 0 ((new config).tickTimes steps) < 2000000) := by
  intro s hfull hzero
  obtain ⟨-, hconfig⟩ : s.Wf ∧ s.bucket.config = config := run_new hcap steps
  have hcounted : s.Counted (0 + dropped config.fillRate 0 ((new config).tickTimes steps)) :=
    counted_run (wf_new hcap) (fun _ => .inr rfl) steps
  have hcounted := hcounted hfull
  rw [hconfig, hzero] at hcounted
  omega

def tenMillis : List BucketStep := [.elapse 10000, .swapTime, .addTokens]

/-- A bucket for 50 packets a second gets nothing from ticks of ten milliseconds. -/
theorem slow_bucket_starves :
    let s := (.tryConsume 50 :: (List.replicate 4 tenMillis).flatten).foldl step (new ⟨50, 50, 10⟩)
    s.full = false ∧ s.pending = 0 ∧ s.bucket.availableTokens = 0 ∧ s.added = 0 ∧
      50 * s.bucket.lastRefillTime / 1000000 = 2 := by
  decide +kernel

/-- Ticks of a whole number of tokens drop nothing. -/
theorem even_bucket_keeps_rate :
    let s := (.tryConsume 50 :: (List.replicate 4 tenMillis).flatten).foldl step (new ⟨50, 200, 10⟩)
    s.added = 8 ∧ 200 * s.bucket.lastRefillTime / 1000000 - 1 ≤ s.added :=
  ⟨by decide +kernel, (@rate_kept_iff ⟨50, 200, 10⟩ (by decide) _ (by decide +kernel)
    (by decide +kernel)).2 (by decide +kernel)⟩

/-- **Buckets do not over-grant**: there is never more than the capacity, and what is granted from one
moment of a run to another is at most the capacity and what the rate gives for the time between them
and for the tick under way at the first. -/
theorem grants_bounded {config : BucketConfig} (hcap : config.capacity < 2 ^ 64)
    (earlier steps : List BucketStep) (tick : ℕ) :
    let s := earlier.foldl step (new config)
    let s' := steps.foldl step s
    s.bucket.availableTokens ≤ config.capacity ∧ (s.now - s.owedSince ≤ tick →
      1000000 * (s'.granted - s.granted) ≤
        1000000 * config.capacity + config.fillRate * (s'.now - s.now + tick)) := by
  intro s s'
  obtain ⟨hwf, hconfig⟩ : s.Wf ∧ s.bucket.config = config := run_new hcap earlier
  obtain ⟨hwf', -, htokens⟩ : s'.Wf ∧ s.Conserves s' := run_spec hwf steps
  have havailable := hwf.available
  have hpending := hwf.pending
  rw [hconfig] at htokens hpending havailable
  have howed : 1000000 * s.pending + config.fillRate * s.owedSince ≤
      config.fillRate * s.bucket.lastRefillTime := by
    unfold owedSince
    split_ifs with hzero
    · rw [hzero]
      omega
    · exact hpending
  refine ⟨havailable, fun htick => ?_⟩
  have htime : config.fillRate * s'.bucket.lastRefillTime - config.fillRate * s.owedSince ≤
      config.fillRate * (s'.now - s.now + tick) := by
    have hpast := hwf'.past
    rw [← Nat.mul_sub]
    exact Nat.mul_le_mul_left _ (by omega)
  omega

/-- Tokens worked out before the first moment are granted after it. -/
theorem late_tokens_granted :
    let s := [.tryConsume 50, .elapse 10000, .swapTime].foldl step (new ⟨50, 200, 10⟩)
    let s' := [.addTokens, .tryConsume 2].foldl step s
    s'.granted - s.granted = 2 ∧ s.bucket.availableTokens ≤ 50 ∧
      1000000 * (s'.granted - s.granted) ≤ 1000000 * 50 + 200 * (s'.now - s.now + 10000) := by
  intro s s'
  have htick : s.now - s.owedSince ≤ 10000 := by decide +kernel
  obtain ⟨havailable, hbound⟩ := @grants_bounded ⟨50, 200, 10⟩ (by decide)
    [.tryConsume 50, .elapse 10000, .swapTime] [.addTokens, .tryConsume 2] 10000
  exact ⟨by decide +kernel, havailable, hbound htick⟩

end SharedBucket

end PactMesh
