import MiniSiem.LocalRateLimit
import MiniSiem.Lib.RateLimit

/-! # The tokens of a local bucket

What a bucket of `LocalRateLimitState` (`queue/kafka.rs`) lets pass when its numbers are not rounded.

* **Operations.**  `BucketOp` is what `consume_logs` does with the bucket of an address
  (`limitLog_bucket`); the operations come in any order at non-decreasing times.
* **Bound.**  `tokenBucket_bounded`: between two times a bucket lets no more pass than its capacity and
  the refill of that time.  Blocks only delay a refill; an elapsed time that wraps only lowers it. -/

namespace MiniSiem

inductive BucketOp
  | allow (nowMs : Int64)
  | blockFor (nowMs : Int64) (windowMs : UInt64)
  | reset (nowMs : Int64)

def BucketOp.nowMs : BucketOp → Int64
  | .allow nowMs => nowMs
  | .blockFor nowMs _ => nowMs
  | .reset nowMs => nowMs

/-- A bucket, and the times at which it has let a call pass. -/
structure BucketRun where
  bucket : LocalRateLimitState
  passed : List Int64

section bucketRun

variable (round : ℚ → ℚ)

def BucketRun.step (s : BucketRun) : BucketOp → BucketRun
  | .allow nowMs =>
      let (allowed, bucket) := s.bucket.allow round nowMs
      ⟨bucket, if allowed then nowMs :: s.passed else s.passed⟩
  | .blockFor nowMs windowMs => { s with bucket := s.bucket.blockFor nowMs windowMs }
  | .reset _ => { s with bucket := { s.bucket with tokens := 0 } }

/-- The operations on a new bucket. -/
def runBucket (limit : UInt32) (windowMs : UInt64) (createdMs : Int64) (ops : List BucketOp) : BucketRun :=
  ops.foldl (BucketRun.step round) ⟨.new round limit windowMs createdMs, []⟩

end bucketRun

/-- The passed calls later than `a` and no later than `b`. -/
def BucketRun.passedWithin (s : BucketRun) (a b : ℚ) : List Int64 :=
  s.passed.filter fun t => a < t.toInt ∧ t.toInt ≤ b

/-- A log takes the bucket of its address through operations at its time. -/
theorem limitLog_bucket (settings : LimiterSettings) (limits : LocalRateLimits) (log : Log) (nowMs : Int64)
    (redis : Except String Bool) :
    ∃ ops : List BucketOp, (∀ op ∈ ops, op.nowMs = nowMs) ∧ ∀ passed,
      (limitLog settings limits log nowMs redis).2 log.sourceIp =
        some (ops.foldl (BucketRun.step settings.round) ⟨(limits log.sourceIp).getD
          (.new settings.round settings.perIp.toUInt32 settings.windowMs nowMs), passed⟩).bucket := by
  unfold limitLog
  cases hallow : ((limits log.sourceIp).getD (.new settings.round settings.perIp.toUInt32
    settings.windowMs nowMs)).allow settings.round nowMs with
  | mk allowed state =>
      cases allowed with
      | true => exact ⟨[.allow nowMs], by simp [BucketOp.nowMs], fun _ => by simp [BucketRun.step, hallow]⟩
      | false =>
          cases redis with
          | error e =>
              exact ⟨[.allow nowMs], by simp [BucketOp.nowMs], fun _ => by simp [BucketRun.step, hallow]⟩
          | ok room =>
              cases room with
              | true =>
                  refine ⟨[.allow nowMs, .reset nowMs], by simp [BucketOp.nowMs], fun _ => ?_⟩
                  simp [BucketRun.step, hallow]
              | false =>
                  refine ⟨[.allow nowMs, .blockFor nowMs settings.windowMs], by simp [BucketOp.nowMs],
                    fun _ => ?_⟩
                  simp [BucketRun.step, hallow]

/-! ### The bound -/

namespace LocalRateLimitState

/-- A bucket that is not filled above its capacity, and the number it has let pass since `start`. -/
structure Paced (b : LocalRateLimitState) (capacity rate start : ℚ) (now : ℤ) (n : ℕ) : Prop where
  capacity_eq : b.capacity = capacity
  rate_eq : b.refillPerMs = rate
  full : b.tokens ≤ capacity
  spends : RateLimit.Spends capacity rate start now b.lastRefillMs.toInt b.tokens n

section paced

variable {b : LocalRateLimitState} {capacity rate start : ℚ} {now : ℤ} {n : ℕ}

theorem Paced.later (h : b.Paced capacity rate start now n) (hrate : 0 ≤ rate) {nowMs : Int64}
    (hle : now ≤ nowMs.toInt) : b.Paced capacity rate start nowMs.toInt n :=
  { h with spends := h.spends.later hrate hle }

/-- The tokens are set to zero. -/
theorem Paced.reset (h : b.Paced capacity rate start now n) (hcapacity : 0 ≤ capacity) :
    ({ b with tokens := 0 } : LocalRateLimitState).Paced capacity rate start now n :=
  { h with full := hcapacity, spends := h.spends.fewer (le_max_right _ _) }

/-- The elapsed milliseconds, which wrap in `i64`, are no more than those between the times. -/
theorem elapsed_le {last nowMs : Int64} (h : last.toInt ≤ nowMs.toInt) :
    (nowMs - last).toInt ≤ nowMs.toInt - last.toInt := by
  rw [Int64.toInt_sub, Int.bmod_def]
  split_ifs <;> omega

theorem Paced.refill (h : b.Paced capacity rate start now n) (hrate : 0 ≤ rate) {nowMs : Int64}
    (hle : now ≤ nowMs.toInt) :
    (b.refill id nowMs).Paced capacity rate start nowMs.toInt n ∧
      nowMs.toInt ≤ (b.refill id nowMs).lastRefillMs.toInt := by
  unfold LocalRateLimitState.refill
  split_ifs with hlast
  · exact ⟨h.later hrate hle, Int64.le_iff_toInt_le.mp hlast⟩
  · rw [Int64.le_iff_toInt_le, not_le] at hlast
    refine ⟨⟨h.capacity_eq, h.rate_eq, ?_, ?_⟩, le_rfl⟩
    · exact (min_le_right _ _).trans h.capacity_eq.le
    · refine h.spends.refill hrate hlast.le ((min_le_left _ _).trans ?_)
      have helapsed : ((nowMs - b.lastRefillMs).toInt : ℚ) ≤ nowMs.toInt - b.lastRefillMs.toInt := by
        exact_mod_cast elapsed_le hlast.le
      have hflow := mul_le_mul_of_nonneg_left helapsed hrate
      simp only [id, h.rate_eq]
      linarith

/-- A call that passes takes a token, which counts if it comes after `start`. -/
theorem Paced.allow (h : b.Paced capacity rate start now n) (hrate : 0 ≤ rate) {nowMs : Int64}
    (hle : now ≤ nowMs.toInt) :
    (b.allow id nowMs).2.Paced capacity rate start nowMs.toInt n ∧
      ((b.allow id nowMs).1 = true → start ≤ nowMs.toInt →
        (b.allow id nowMs).2.Paced capacity rate start nowMs.toInt (n + 1)) := by
  have htouch : (b.touch nowMs).Paced capacity rate start now n := { h with }
  obtain ⟨hrefill, hlast⟩ := htouch.refill hrate hle
  unfold LocalRateLimitState.allow
  dsimp only
  split_ifs with hblocked htoken
  · exact ⟨htouch.later hrate hle, fun hno => by cases hno⟩
  · have hless : ((b.touch nowMs).refill id nowMs).tokens - 1 ≤
        ((b.touch nowMs).refill id nowMs).tokens := by linarith
    refine ⟨{ hrefill with
      full := hless.trans hrefill.full
      spends := hrefill.spends.fewer (hless.trans (le_max_left _ _)) }, fun _ hafter => { hrefill with
      full := hless.trans hrefill.full
      spends := hrefill.spends.take hrate htoken hrefill.full hafter hlast }⟩
  · exact ⟨hrefill, fun hno => by cases hno⟩

end paced

end LocalRateLimitState

section bound

variable {capacity rate a b : ℚ}

/-- The bucket is paced from `a` on, and the calls up to `b` are within its capacity and the refill. -/
structure BucketRun.Paced (capacity rate a b : ℚ) (now : ℤ) (s : BucketRun) : Prop where
  bucket : s.bucket.Paced capacity rate a now (s.passedWithin a b).length
  count : (s.passedWithin a b).length ≤ capacity + (b - a) * rate

theorem BucketRun.Paced.step (hcapacity : 0 ≤ capacity) (hrate : 0 ≤ rate) (hab : a ≤ b) {now : ℤ}
    {s : BucketRun} {op : BucketOp} (h : s.Paced capacity rate a b now) (hle : now ≤ op.nowMs.toInt) :
    (s.step id op).Paced capacity rate a b op.nowMs.toInt := by
  cases op with
  | blockFor nowMs windowMs => exact ⟨{ (h.bucket.later hrate hle).reset hcapacity with }, h.count⟩
  | reset nowMs => exact ⟨(h.bucket.later hrate hle).reset hcapacity, h.count⟩
  | allow nowMs =>
      obtain ⟨hkept, htaken⟩ := h.bucket.allow hrate hle
      by_cases hcounted : (s.bucket.allow id nowMs).1 = true ∧ a < nowMs.toInt ∧ nowMs.toInt ≤ b
      · obtain ⟨hallowed, hafter, hbefore⟩ := hcounted
        have hlength : ((s.step id (.allow nowMs)).passedWithin a b).length =
            (s.passedWithin a b).length + 1 := by
          unfold BucketRun.step BucketRun.passedWithin
          dsimp only
          rw [if_pos hallowed, List.filter_cons_of_pos (by simp [hafter, hbefore]), List.length_cons]
        have hpaced := htaken hallowed hafter.le
        refine ⟨hlength ▸ hpaced, ?_⟩
        rw [hlength]
        exact hpaced.spends.count_le hrate hcapacity hab hbefore
      · have hlength : (s.step id (.allow nowMs)).passedWithin a b = s.passedWithin a b := by
          unfold BucketRun.step BucketRun.passedWithin
          dsimp only
          split_ifs with hallowed
          · refine List.filter_cons_of_neg ?_
            simpa using fun hafter hbefore => hcounted ⟨hallowed, hafter, hbefore⟩
          · rfl
        exact ⟨hlength ▸ hkept, hlength ▸ h.count⟩

end bound

/-- **What a bucket lets pass between two times**: no more than its capacity and the refill of the time
between them. -/
theorem tokenBucket_bounded (limit : UInt32) (windowMs : UInt64) (createdMs : Int64)
    (ops : List BucketOp) (hsorted : (ops.map fun op => op.nowMs.toInt).Pairwise (· ≤ ·)) (a b : ℚ)
    (hab : a ≤ b) :
    (((runBucket id limit windowMs createdMs ops).passedWithin a b).length : ℚ) ≤
      (LocalRateLimitState.new id limit windowMs createdMs).capacity +
        (b - a) * (LocalRateLimitState.new id limit windowMs createdMs).refillPerMs := by
  have hcapacity : 0 ≤ (LocalRateLimitState.new id limit windowMs createdMs).capacity :=
    Nat.cast_nonneg _
  have hrate : 0 ≤ (LocalRateLimitState.new id limit windowMs createdMs).refillPerMs :=
    div_nonneg hcapacity (Nat.cast_nonneg _)
  have hstart : ∀ now : ℤ, BucketRun.Paced _ _ a b now
      ⟨LocalRateLimitState.new id limit windowMs createdMs, []⟩ := fun now =>
    ⟨⟨rfl, rfl, le_rfl, Or.inl rfl⟩, (Nat.cast_zero (R := ℚ)).le.trans
      (add_nonneg hcapacity (mul_nonneg (sub_nonneg.mpr hab) hrate))⟩
  have hstep := fun (last : ℤ) (s : BucketRun) (op : BucketOp) (h : s.Paced _ _ a b last)
    (hle : last ≤ op.nowMs.toInt) => h.step hcapacity hrate hab hle
  obtain ⟨now, h⟩ := RateLimit.foldl_sorted hstep hsorted hstart
  exact h.count

/-- A bucket of two tokens in a second, blocked after the first call: one call passes in the next second. -/
theorem blockedBucket_bounded :
    (((runBucket id 2 1000 0 [.allow 0, .blockFor 0 1000, .allow 500, .allow 1500]).passedWithin 0
        1500).length : ℚ) ≤
      (LocalRateLimitState.new id 2 1000 0).capacity +
        (1500 - 0) * (LocalRateLimitState.new id 2 1000 0).refillPerMs :=
  tokenBucket_bounded 2 1000 0 [.allow 0, .blockFor 0 1000, .allow 500, .allow 1500] (by decide) 0 1500
    (by norm_num)

end MiniSiem
