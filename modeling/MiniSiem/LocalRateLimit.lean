import MiniSiem.KafkaMessages

/-! # The flood limiter of the log consumer

`LocalRateLimitState` and the per-address limiter of `consume_logs` (`queue/kafka.rs`).

* **Numbers.**  The `f64` operations are those on rationals followed by `round`; the times are `i64`.
* **Decision.**  The local bucket allows a message first; when it does not, the sliding window in Redis
  decides, a rejected message may still be sampled, and a Redis error lets it pass. -/

namespace MiniSiem

structure LocalRateLimitState where
  capacity : ℚ
  tokens : ℚ
  refillPerMs : ℚ
  lastRefillMs : Int64
  blockedUntilMs : Int64
  lastSeenMs : Int64

namespace LocalRateLimitState

variable (round : ℚ → ℚ)

/-- `new`. -/
def new (limit : UInt32) (windowMs : UInt64) (nowMs : Int64) : LocalRateLimitState :=
  let capacity : ℚ := (max limit 1).toNat
  { capacity := capacity
    tokens := capacity
    refillPerMs := round (capacity / round (max windowMs 1).toNat)
    lastRefillMs := nowMs
    blockedUntilMs := 0
    lastSeenMs := nowMs }

def touch (s : LocalRateLimitState) (nowMs : Int64) : LocalRateLimitState :=
  { s with lastSeenMs := nowMs }

def refill (s : LocalRateLimitState) (nowMs : Int64) : LocalRateLimitState :=
  if nowMs ≤ s.lastRefillMs then s
  else
    let elapsedMs := round (nowMs - s.lastRefillMs).toInt
    { s with
      tokens := min (round (s.tokens + round (elapsedMs * s.refillPerMs))) s.capacity
      lastRefillMs := nowMs }

def allow (s : LocalRateLimitState) (nowMs : Int64) : Bool × LocalRateLimitState :=
  let s := s.touch nowMs
  if nowMs < s.blockedUntilMs then (false, s)
  else
    let s := s.refill round nowMs
    if 1 ≤ s.tokens then (true, { s with tokens := round (s.tokens - 1) }) else (false, s)

def blockFor (s : LocalRateLimitState) (nowMs : Int64) (windowMs : UInt64) : LocalRateLimitState :=
  ({ s with blockedUntilMs := nowMs + windowMs.toInt64, tokens := 0 }).touch nowMs

end LocalRateLimitState

/-- The settings of the limiter, the hash of an identifier, and how `f64` results are rounded. -/
structure LimiterSettings where
  round : ℚ → ℚ
  perIp : UInt64
  windowMs : UInt64
  sampleRate : UInt32
  hash : Uuid → UInt64

/-- The states of `local_rate_limits` by address. -/
abbrev LocalRateLimits := String → Option LocalRateLimitState

inductive Verdict
  | allowed
  | sampled
  | rateLimited
deriving DecidableEq

/-- The verdict on a log at a time, with the answer that Redis gives if it is asked. -/
def limitLog (settings : LimiterSettings) (limits : LocalRateLimits) (log : Log) (nowMs : Int64)
    (redis : Except String Bool) : Verdict × LocalRateLimits :=
  let state := (limits log.sourceIp).getD
    (.new settings.round settings.perIp.toUInt32 settings.windowMs nowMs)
  let (allowed, state) := state.allow settings.round nowMs
  let (verdict, state) :=
    if allowed then (Verdict.allowed, state)
    else match redis with
      | .ok true => (.allowed, { state with tokens := 0 })
      | .ok false =>
          let sample := settings.sampleRate ≤ 1 ||
            settings.hash log.id % settings.sampleRate.toUInt64 == 0
          (if sample then .sampled else .rateLimited, state.blockFor nowMs settings.windowMs)
      | .error _ => (.allowed, state)
  (verdict, Function.update limits log.sourceIp (some state))

/-- `saturating_mul` and `saturating_sub` on `i64`. -/
def saturateI64 (n : ℤ) : ℤ := max (-2 ^ 63) (min n (2 ^ 63 - 1))

/-- The tick of the cleanup interval. -/
def cleanupLimits (settings : LimiterSettings) (limits : LocalRateLimits) (nowMs : Int64) :
    LocalRateLimits :=
  let expiryMs := max (saturateI64 (settings.windowMs.toInt64.toInt * 4)) 60000
  fun ip => (limits ip).filter fun state =>
    saturateI64 (nowMs.toInt - state.lastSeenMs.toInt) ≤ expiryMs

end MiniSiem
