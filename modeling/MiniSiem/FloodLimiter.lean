import MiniSiem.LocalRateLimit
import MiniSiem.SlidingWindow
import MiniSiem.KafkaConsumers
import MiniSiem.Lib.Double
import MiniSiem.Lib.Runs

/-! # The two limiters of a source address

The flood limiter of `consume_logs` (`queue/kafka.rs`) together with the sliding windows it asks
(`RedisCache::allow_sliding_window` of `db/redis.rs`).

* **Stores.**  `FloodLimiter` holds the local buckets and the keys of Redis.  A log is judged by the
  bucket of its address; when it has no token, by the window of the address.
* **Time.**  `floodStep` takes the logs in the order of their times, and Redis answers each call.
* **Two limits.**  What the bucket admits is not in the window.  `flood_bounded_iff` says when the
  admissions of an address stay below the limit: step by step for any rounding of the bucket's numbers,
  and without rounding exactly for the addresses that never send more than the limit. -/

namespace MiniSiem

/-! ### The joint limiter -/

/-- What becomes of a call of the script. -/
inductive ScriptFate
  | answered
  | refused (e : String)
  | lost (e : String)

/-- A call of the script at a reading of the clock. -/
structure ScriptCall where
  now : ℤ
  fate : ScriptFate

structure FloodLimiter where
  limits : LocalRateLimits
  keys : String → Option LimiterKey

/-- Nothing has been judged. -/
def FloodLimiter.empty : FloodLimiter := ⟨fun _ => none, fun _ => none⟩

inductive FloodEvent
  | cleanup (nowMs : Int64)
  | message (log : Log) (nowMs : Int64) (call : ScriptCall)

/-- A log with the time and the verdict of the limiter. -/
structure Judgement where
  log : Log
  nowMs : Int64
  verdict : Verdict

/-- `rl_key`. -/
def rateLimitKey (sourceIp : String) : String := "siem:ratelimit:ip:" ++ sourceIp

section judge

variable (pexpire : UInt64 → Bool) (settings : LimiterSettings)

/-- The bucket of the address, a new one if it has none. -/
def bucketOf (limits : LocalRateLimits) (sourceIp : String) (nowMs : Int64) : LocalRateLimitState :=
  (limits sourceIp).getD (.new settings.round settings.perIp.toUInt32 settings.windowMs nowMs)

/-- The bucket of the address lets a log pass. -/
def tokenFound (limits : LocalRateLimits) (sourceIp : String) (nowMs : Int64) : Bool :=
  ((bucketOf settings limits sourceIp nowMs).allow settings.round nowMs).1

/-- The window of the address is not full. -/
def roomFound (keys : String → Option LimiterKey) (sourceIp : String) (now : ℤ) : Bool :=
  (keptSet settings.windowMs (keys (rateLimitKey sourceIp)) now).zcard < settings.perIp.toUInt32.toNat

/-- The call for an address: its result, and the keys it leaves. -/
def askWindow (keys : String → Option LimiterKey) (sourceIp : String) (call : ScriptCall) :
    Except String Bool × (String → Option LimiterKey) :=
  let key := rateLimitKey sourceIp
  let (reply, left) := allowSlidingWindow pexpire settings.windowMs settings.perIp.toUInt32 (keys key)
    call.now
  match call.fate with
  | .answered =>
      ((match reply with
        | some allowed => .ok allowed
        | none => .error "PEXPIRE"), Function.update keys key left)
  | .refused e => (.error e, keys)
  | .lost e => (.error e, Function.update keys key left)

/-- What `limitLog` is told about Redis, which is asked only when the bucket has no token. -/
def windowAnswer (s : FloodLimiter) (sourceIp : String) (nowMs : Int64) (call : ScriptCall) :
    Except String Bool × (String → Option LimiterKey) :=
  if tokenFound settings s.limits sourceIp nowMs then (.ok true, s.keys)
  else askWindow pexpire settings s.keys sourceIp call

/-- The judgement of an event, and the stores it leaves. -/
def judge (e : FloodEvent) (s : FloodLimiter) : Option Judgement × FloodLimiter :=
  match e with
  | .cleanup nowMs => (none, { s with limits := cleanupLimits settings s.limits nowMs })
  | .message log nowMs call =>
      let (answer, keys) := windowAnswer pexpire settings s log.sourceIp nowMs call
      let (verdict, limits) := limitLog settings s.limits log nowMs answer
      (some ⟨log, nowMs, verdict⟩, ⟨limits, keys⟩)

end judge

/-- A message of the consumer goes through the limiter as the log in it does. -/
theorem handleLogMessage_judge {pexpire : UInt64 → Bool} {settings : LogSettings} {s : FloodLimiter}
    {m : LogMessage} {log : Log} {call : ScriptCall}
    (hlog : logOfPayload settings.formats m.payload = some log)
    (hredis : m.redis = (windowAnswer pexpire settings.limiter s log.sourceIp m.nowMs call).1) :
    ∃ verdict, (judge pexpire settings.limiter (.message log m.nowMs call) s).1 =
        some ⟨log, m.nowMs, verdict⟩ ∧
      (handleLogMessage settings s.limits m).2 =
        (judge pexpire settings.limiter (.message log m.nowMs call) s).2.limits ∧
      (handleLogMessage settings s.limits m).1 = match verdict with
        | .rateLimited => ([.rateLimited log], .next)
        | .sampled => (.sampled log :: (passLog settings log m).1, (passLog settings log m).2)
        | .allowed => passLog settings log m := by
  rcases hjudged : limitLog settings.limiter s.limits log m.nowMs m.redis with ⟨verdict, limits⟩
  refine ⟨verdict, ?_, ?_, ?_⟩
  · simp only [judge, ← hredis, hjudged]
  · simp only [judge, ← hredis, hjudged, handleLogMessage, hlog]
  · cases verdict <;> simp only [hjudged, handleLogMessage, hlog]

/-! ### Runs -/

/-- The stores, the time of the latest log, and the judgements so far. -/
structure FloodRun where
  limiter : FloodLimiter
  clock : ℤ
  judged : List Judgement

/-- The start, at the epoch. -/
def FloodRun.start : FloodRun := ⟨.empty, 0, []⟩

namespace FloodRun

variable (s : FloodRun) (sourceIp : String)

/-- The times of the logs of an address. -/
def arrived : List ℤ :=
  (s.judged.filter fun j => j.log.sourceIp = sourceIp).map fun j => j.nowMs.toInt

/-- The times of those that were let through unsampled. -/
def admitted : List ℤ :=
  (s.judged.filter fun j => j.log.sourceIp = sourceIp ∧ j.verdict = .allowed).map
    fun j => j.nowMs.toInt

end FloodRun

section runs

variable (pexpire : UInt64 → Bool) (settings : LimiterSettings)

/-- The event comes in time, and Redis answers. -/
def FloodEvent.Possible (clock : ℤ) : FloodEvent → Prop
  | .cleanup _ => True
  | .message _ nowMs call => clock ≤ nowMs.toInt ∧ nowMs.toInt ≤ call.now ∧ call.fate = .answered

instance (clock : ℤ) : (e : FloodEvent) → Decidable (e.Possible clock)
  | .cleanup _ => isTrue trivial
  | .message _ nowMs ⟨now, .answered⟩ =>
      decidable_of_iff (clock ≤ nowMs.toInt ∧ nowMs.toInt ≤ now) (by simp [FloodEvent.Possible])
  | .message _ _ ⟨_, .refused _⟩ => isFalse fun h => nomatch h.2.2
  | .message _ _ ⟨_, .lost _⟩ => isFalse fun h => nomatch h.2.2

/-- An event of a run. -/
def floodStep (s : FloodRun) (e : FloodEvent) : Option FloodRun :=
  if e.Possible s.clock then
    let (judgement, limiter) := judge pexpire settings e s.limiter
    some ⟨limiter, match e with
      | .cleanup _ => s.clock
      | .message _ nowMs _ => nowMs.toInt, s.judged ++ judgement.toList⟩
  else none

/-- A log of the address that finds a token, or room in the window, comes when fewer than the limit were
admitted within the last window; or the window is empty. -/
def FloodRoom (sourceIp : String) (s : FloodRun) : FloodEvent → Prop
  | .cleanup _ => True
  | .message log nowMs call =>
      settings.windowMs ≠ 0 → log.sourceIp = sourceIp →
        (tokenFound settings s.limiter.limits sourceIp nowMs = true ∨
          roomFound settings s.limiter.keys sourceIp call.now = true) →
        (recentTimes settings.windowMs nowMs.toInt (s.admitted sourceIp)).length < settings.perIp.toNat

end runs

section steps

variable {pexpire : UInt64 → Bool} {settings : LimiterSettings}

theorem limitLog_eq_allowed_iff {limits : LocalRateLimits} {log : Log} {nowMs : Int64}
    {redis : Except String Bool} :
    (limitLog settings limits log nowMs redis).1 = .allowed ↔
      tokenFound settings limits log.sourceIp nowMs = true ∨ redis ≠ .ok false := by
  unfold limitLog tokenFound bucketOf
  simp only
  cases hallow : ((limits log.sourceIp).getD (.new settings.round settings.perIp.toUInt32
    settings.windowMs nowMs)).allow settings.round nowMs with
  | mk allowed state =>
      cases allowed with
      | true => simp
      | false =>
          simp only [Bool.false_eq_true, if_false, false_or]
          cases redis with
          | error e => simp
          | ok room =>
              cases room with
              | true => simp
              | false =>
                  simp only [ne_eq, not_true_eq_false, iff_false]
                  split_ifs <;> nofun

/-- The window of an address lets a log pass exactly when it has room. -/
theorem askWindow_answered (hpexpire : pexpire settings.windowMs = true)
    (keys : String → Option LimiterKey) (sourceIp : String) {call : ScriptCall}
    (hcall : call.fate = .answered) :
    (askWindow pexpire settings keys sourceIp call).1 = .ok (roomFound settings keys sourceIp call.now) := by
  unfold askWindow roomFound allowSlidingWindow
  rw [hcall]
  simp only [hpexpire, Bool.not_true, Bool.false_eq_true, if_false]
  by_cases hroom : (keptSet settings.windowMs (keys (rateLimitKey sourceIp)) call.now).zcard <
      settings.perIp.toUInt32.toNat
  · rw [if_pos hroom, decide_eq_true hroom]
  · rw [if_neg hroom, decide_eq_false hroom]

/-- An answered log is admitted exactly when it finds a token or room. -/
theorem limitLog_windowAnswer_iff (hpexpire : pexpire settings.windowMs = true) {s : FloodLimiter}
    {log : Log} {nowMs : Int64} {call : ScriptCall} (hcall : call.fate = .answered) :
    (limitLog settings s.limits log nowMs
        (windowAnswer pexpire settings s log.sourceIp nowMs call).1).1 = .allowed ↔
      tokenFound settings s.limits log.sourceIp nowMs = true ∨
        roomFound settings s.keys log.sourceIp call.now = true := by
  rw [limitLog_eq_allowed_iff]
  unfold windowAnswer
  by_cases htoken : tokenFound settings s.limits log.sourceIp nowMs = true
  · simp [htoken]
  · rw [if_neg htoken, askWindow_answered hpexpire s.keys log.sourceIp hcall]
    simp [htoken]

/-- A tick of the cleanup changes the buckets only. -/
theorem floodStep_cleanup {s s' : FloodRun} {nowMs : Int64}
    (h : floodStep pexpire settings s (.cleanup nowMs) = some s') :
    s' = { s with limiter := { s.limiter with
      limits := cleanupLimits settings s.limiter.limits nowMs } } := by
  have htick : floodStep pexpire settings s (.cleanup nowMs) =
      some ⟨{ s.limiter with limits := cleanupLimits settings s.limiter.limits nowMs }, s.clock,
        s.judged ++ []⟩ := if_pos trivial
  rw [htick, List.append_nil] at h
  exact (Option.some.inj h).symm

/-- What the step of a log does. -/
theorem floodStep_log (hpexpire : pexpire settings.windowMs = true) {s s' : FloodRun} {log : Log}
    {nowMs : Int64} {call : ScriptCall}
    (h : floodStep pexpire settings s (.message log nowMs call) = some s') :
    FloodEvent.Possible s.clock (.message log nowMs call) ∧
      ∃ verdict, s' = ⟨(judge pexpire settings (.message log nowMs call) s.limiter).2, nowMs.toInt,
          s.judged ++ [⟨log, nowMs, verdict⟩]⟩ ∧
        (verdict = .allowed ↔ tokenFound settings s.limiter.limits log.sourceIp nowMs = true ∨
          roomFound settings s.limiter.keys log.sourceIp call.now = true) := by
  unfold floodStep at h
  split_ifs at h with hpossible
  cases h
  exact ⟨hpossible, _, rfl, limitLog_windowAnswer_iff hpexpire hpossible.2.2⟩

end steps

namespace FloodRun

variable {s : FloodRun} {limiter : FloodLimiter} {clock : ℤ} {j : Judgement} {sourceIp : String}

theorem arrived_other (h : j.log.sourceIp ≠ sourceIp) :
    arrived ⟨limiter, clock, s.judged ++ [j]⟩ sourceIp = s.arrived sourceIp := by
  unfold arrived
  rw [List.filter_append, List.filter_cons_of_neg (by simpa using h), List.filter_nil, List.append_nil]

theorem arrived_own (h : j.log.sourceIp = sourceIp) :
    arrived ⟨limiter, clock, s.judged ++ [j]⟩ sourceIp = s.arrived sourceIp ++ [j.nowMs.toInt] := by
  unfold arrived
  rw [List.filter_append, List.filter_cons_of_pos (by simpa using h), List.filter_nil, List.map_append]
  rfl

theorem admitted_same (h : ¬ (j.log.sourceIp = sourceIp ∧ j.verdict = .allowed)) :
    admitted ⟨limiter, clock, s.judged ++ [j]⟩ sourceIp = s.admitted sourceIp := by
  unfold admitted
  rw [List.filter_append, List.filter_cons_of_neg (by simpa using h), List.filter_nil, List.append_nil]

theorem admitted_own (h : j.log.sourceIp = sourceIp ∧ j.verdict = .allowed) :
    admitted ⟨limiter, clock, s.judged ++ [j]⟩ sourceIp = s.admitted sourceIp ++ [j.nowMs.toInt] := by
  unfold admitted
  rw [List.filter_append, List.filter_cons_of_pos (by simpa using h), List.filter_nil, List.map_append]
  rfl

theorem admitted_sublist : (s.admitted sourceIp).Sublist (s.arrived sourceIp) := by
  unfold admitted arrived
  refine List.Sublist.map _ (List.monotone_filter_right _ fun j hj => ?_)
  exact decide_eq_true (of_decide_eq_true hj).1

end FloodRun

/-! ### The bound, step by step -/

section bound

variable {pexpire : UInt64 → Bool} {settings : LimiterSettings}

/-- The judgements are in the order of their times. -/
structure Chronological (s : FloodRun) : Prop where
  sorted : (s.judged.map fun j => j.nowMs.toInt).Pairwise (· ≤ ·)
  past : ∀ j ∈ s.judged, 0 ≤ j.nowMs.toInt ∧ j.nowMs.toInt ≤ s.clock
  epoch : 0 ≤ s.clock

theorem Chronological.start : Chronological .start :=
  ⟨List.Pairwise.nil, fun _ hj => (List.not_mem_nil hj).elim, le_rfl⟩

theorem Chronological.step (hpexpire : pexpire settings.windowMs = true) {s s' : FloodRun}
    {e : FloodEvent} (h : Chronological s) (hstep : floodStep pexpire settings s e = some s') :
    Chronological s' := by
  cases e with
  | cleanup nowMs =>
      obtain rfl := floodStep_cleanup hstep
      exact ⟨h.sorted, h.past, h.epoch⟩
  | message log nowMs call =>
      obtain ⟨⟨htime, -⟩, verdict, rfl, -⟩ := floodStep_log hpexpire hstep
      refine ⟨?_, ?_, h.epoch.trans htime⟩
      · rw [List.map_append, List.pairwise_append]
        refine ⟨h.sorted, List.pairwise_singleton _ _, ?_⟩
        intro t ht u hu
        obtain ⟨j, hj, rfl⟩ := List.mem_map.mp ht
        obtain rfl := List.mem_singleton.mp hu
        exact (h.past j hj).2.trans htime
      · intro j hj
        rcases List.mem_append.mp hj with hj | hj
        · exact ⟨(h.past j hj).1, (h.past j hj).2.trans htime⟩
        · obtain rfl := List.mem_singleton.mp hj
          exact ⟨h.epoch.trans htime, le_rfl⟩

theorem Chronological.arrived {s : FloodRun} (h : Chronological s) (sourceIp : String) :
    (s.arrived sourceIp).Pairwise (· ≤ ·) ∧ ∀ t ∈ s.arrived sourceIp, 0 ≤ t ∧ t ≤ s.clock := by
  refine ⟨h.sorted.sublist (List.filter_sublist.map _), fun t ht => ?_⟩
  obtain ⟨j, hj, rfl⟩ := List.mem_map.mp ht
  exact h.past j (List.mem_filter.mp hj).1

/-- A step keeps the bound exactly when it leaves room. -/
theorem atMost_floodStep_iff (hpexpire : pexpire settings.windowMs = true) (sourceIp : String)
    {s s' : FloodRun} {e : FloodEvent} (h : Chronological s)
    (hstep : floodStep pexpire settings s e = some s') :
    RateLimit.AtMost settings.windowMs.toNat settings.perIp.toNat (s'.admitted sourceIp) ↔
      RateLimit.AtMost settings.windowMs.toNat settings.perIp.toNat (s.admitted sourceIp) ∧
        FloodRoom settings sourceIp s e := by
  cases e with
  | cleanup nowMs =>
      obtain rfl := floodStep_cleanup hstep
      exact (and_iff_left trivial).symm
  | message log nowMs call =>
      obtain ⟨⟨htime, -⟩, verdict, rfl, hverdict⟩ := floodStep_log hpexpire hstep
      by_cases hown : log.sourceIp = sourceIp ∧ verdict = .allowed
      · obtain ⟨rfl, hallowed⟩ := hown
        rw [FloodRun.admitted_own ⟨rfl, hallowed⟩]
        by_cases hwindow : settings.windowMs = 0
        · have hzero : ((settings.windowMs.toNat : ℕ) : ℤ) ≤ 0 := by rw [hwindow]; rfl
          exact iff_of_true (RateLimit.atMost_of_nonpos hzero _)
            ⟨RateLimit.atMost_of_nonpos hzero _, fun hne => absurd hwindow hne⟩
        · have hpositive : (0 : ℤ) < settings.windowMs.toNat :=
            Int.natCast_pos.mpr (toNat_pos_of_ne_zero hwindow)
          rw [RateLimit.atMost_append_iff hpositive fun t ht =>
            ((h.arrived _).2 t (FloodRun.admitted_sublist.subset ht)).2.trans htime]
          refine and_congr_right fun _ => ⟨fun hroom _ _ _ => hroom, fun hroom => ?_⟩
          exact hroom hwindow rfl (hverdict.mp hallowed)
      · rw [FloodRun.admitted_same hown]
        refine (and_iff_left ?_).symm
        intro _ hip hfound
        exact absurd ⟨hip, hverdict.mpr (hip ▸ hfound)⟩ hown

end bound

/-! ### One address -/

section address

variable {pexpire : UInt64 → Bool} {settings : LimiterSettings} {s : FloodLimiter} {log : Log}
  {nowMs : Int64} {call : ScriptCall}

theorem rateLimitKey_inj {ip ip' : String} : rateLimitKey ip = rateLimitKey ip' ↔ ip = ip' := by
  unfold rateLimitKey
  rw [String.append_right_inj]

theorem windowAnswer_frame {sourceIp : String} (h : sourceIp ≠ log.sourceIp) :
    (windowAnswer pexpire settings s log.sourceIp nowMs call).2 (rateLimitKey sourceIp) =
      s.keys (rateLimitKey sourceIp) := by
  have hkey : rateLimitKey sourceIp ≠ rateLimitKey log.sourceIp := fun hk => h (rateLimitKey_inj.mp hk)
  unfold windowAnswer askWindow
  split_ifs
  · rfl
  · cases call.fate with
    | answered => exact Function.update_of_ne hkey _ _
    | refused e => rfl
    | lost e => exact Function.update_of_ne hkey _ _

/-- A log leaves the bucket and the window of any other address alone. -/
theorem judge_frame {sourceIp : String} (h : sourceIp ≠ log.sourceIp) :
    (judge pexpire settings (.message log nowMs call) s).2.limits sourceIp = s.limits sourceIp ∧
      (judge pexpire settings (.message log nowMs call) s).2.keys (rateLimitKey sourceIp) =
        s.keys (rateLimitKey sourceIp) :=
  ⟨Function.update_of_ne h _ _, windowAnswer_frame h⟩

/-- A log that finds a token takes it. -/
theorem judge_token (h : tokenFound settings s.limits log.sourceIp nowMs = true) :
    (judge pexpire settings (.message log nowMs call) s).2.limits log.sourceIp =
        some ((bucketOf settings s.limits log.sourceIp nowMs).allow settings.round nowMs).2 ∧
      (judge pexpire settings (.message log nowMs call) s).2.keys = s.keys := by
  have hanswer : windowAnswer pexpire settings s log.sourceIp nowMs call = (.ok true, s.keys) :=
    if_pos h
  unfold judge
  simp only [hanswer, and_true]
  unfold limitLog
  unfold tokenFound bucketOf at h
  simp only [h, if_true, Function.update_self]
  rfl

end address

/-! ### A bucket that never refuses -/

namespace LocalRateLimitState

/-- Without rounding, the bucket covers the logs of its address. -/
structure Level (settings : LimiterSettings) (b : LocalRateLimitState) (times : List ℤ) (clock : ℤ) :
    Prop where
  capacity : b.capacity = settings.perIp.toNat
  rate : b.refillPerMs = (settings.perIp.toNat : ℚ) / (settings.windowMs.toNat : ℤ)
  free : b.blockedUntilMs = 0
  last : 0 ≤ b.lastRefillMs.toInt ∧ b.lastRefillMs.toInt ≤ clock
  tokens : RateLimit.Covers b.capacity b.refillPerMs times b.lastRefillMs.toInt b.tokens

variable {settings : LimiterSettings} {b : LocalRateLimitState} {times : List ℤ} {clock : ℤ}

theorem Level.later {later : ℤ} (h : b.Level settings times clock) (hle : clock ≤ later) :
    b.Level settings times later :=
  { h with last := ⟨h.last.1, h.last.2.trans hle⟩ }

theorem limit_toNat (hsmall : settings.perIp.toNat < 2 ^ 32) :
    settings.perIp.toUInt32.toNat = settings.perIp.toNat := by
  rw [UInt64.toNat_toUInt32]
  exact Nat.mod_eq_of_lt hsmall

theorem max_one_toNat (limit : UInt32) : (max limit 1).toNat = max limit.toNat 1 := by
  have hmax : max limit 1 = if limit ≤ 1 then 1 else limit := rfl
  rw [hmax]
  split_ifs with h
  · exact (max_eq_right (UInt32.le_iff_toNat_le.mp h)).symm
  · rw [UInt32.le_iff_toNat_le, not_le] at h
    exact (max_eq_left h.le).symm

theorem max_one_of_pos {windowMs : UInt64} (h : 0 < windowMs.toNat) : max windowMs 1 = windowMs := by
  have hmax : max windowMs 1 = if windowMs ≤ 1 then 1 else windowMs := rfl
  rw [hmax]
  split_ifs with hle
  · exact UInt64.toNat_inj.mp (le_antisymm h (UInt64.le_iff_toNat_le.mp hle))
  · rfl

/-- A new bucket lets the first log pass. -/
theorem new_allow (round : ℚ → ℚ) (limit : UInt32) (windowMs : UInt64) {nowMs : Int64}
    (hnow : 0 ≤ nowMs.toInt) : ((new round limit windowMs nowMs).allow round nowMs).1 = true := by
  have hfree : ¬ nowMs < ((new round limit windowMs nowMs).touch nowMs).blockedUntilMs := by
    rw [Int64.lt_iff_toInt_lt]
    exact not_lt.mpr hnow
  have hrefill : ((new round limit windowMs nowMs).touch nowMs).refill round nowMs =
      (new round limit windowMs nowMs).touch nowMs := if_pos (Int64.le_refl nowMs)
  have htoken : 1 ≤ ((new round limit windowMs nowMs).touch nowMs).tokens := by
    have hcapacity : 1 ≤ (max limit 1).toNat := by
      rw [max_one_toNat]
      exact le_max_right _ _
    have hcast : (1 : ℚ) ≤ (max limit 1).toNat := by exact_mod_cast hcapacity
    exact hcast
  unfold allow
  simp only [hfree, if_false, hrefill, htoken, if_true]

theorem new_level (hround : ∀ q, settings.round q = q) (hsmall : settings.perIp.toNat < 2 ^ 32)
    (hlimit : 0 < settings.perIp.toNat) (hwindow : 0 < settings.windowMs.toNat) {nowMs : Int64}
    (hnow : 0 ≤ nowMs.toInt) (times : List ℤ) :
    (new settings.round settings.perIp.toUInt32 settings.windowMs nowMs).Level settings times
      nowMs.toInt := by
  have hcapacity : (max settings.perIp.toUInt32 1).toNat = settings.perIp.toNat := by
    rw [max_one_toNat, limit_toNat hsmall]
    exact max_eq_left hlimit
  constructor
  · exact congrArg Nat.cast hcapacity
  · unfold new
    simp only [hround, hcapacity, max_one_of_pos hwindow]
    rfl
  · rfl
  · exact ⟨hnow, le_rfl⟩
  · exact RateLimit.Covers.full _ _ le_rfl

/-- The difference of two times after the epoch. -/
theorem toInt_sub_of_le {a b : Int64} (ha : 0 ≤ a.toInt) (hab : a.toInt ≤ b.toInt) :
    (b - a).toInt = b.toInt - a.toInt := by
  have hb := b.toInt_lt
  rw [Int64.toInt_sub]
  exact Int.bmod_eq_of_le (by omega) (by omega)

/-- What a refill leaves. -/
theorem refill_spec (hround : ∀ q, settings.round q = q) {nowMs : Int64}
    (hlast : 0 ≤ b.lastRefillMs.toInt ∧ b.lastRefillMs.toInt ≤ nowMs.toInt) :
    ∃ tokens last, b.refill settings.round nowMs = { b with tokens, lastRefillMs := last } ∧
      last.toInt = nowMs.toInt ∧
      (b.capacity ≤ tokens ∨
        b.tokens + b.refillPerMs * (nowMs.toInt - b.lastRefillMs.toInt) ≤ tokens) := by
  unfold refill
  split_ifs with hle
  · have hsame : b.lastRefillMs.toInt = nowMs.toInt :=
      hlast.2.antisymm (Int64.le_iff_toInt_le.mp hle)
    refine ⟨b.tokens, b.lastRefillMs, rfl, hsame, Or.inr ?_⟩
    rw [hsame, sub_self, mul_zero, add_zero]
  · simp only [hround, toInt_sub_of_le hlast.1 hlast.2]
    refine ⟨_, _, rfl, rfl, ?_⟩
    rcases min_choice (b.tokens + ((nowMs.toInt - b.lastRefillMs.toInt : ℤ) : ℚ) * b.refillPerMs)
      b.capacity with hmin | hmin
    · right
      rw [hmin]
      push_cast
      linarith
    · exact Or.inl hmin.ge

/-- While no window holds more logs than the limit, the bucket has a token for each. -/
theorem Level.allow (hround : ∀ q, settings.round q = q) (hlimit : 0 < settings.perIp.toNat)
    (hwindow : 0 < settings.windowMs.toNat) {nowMs : Int64} (h : b.Level settings times clock)
    (htime : clock ≤ nowMs.toInt) (hsorted : (times ++ [nowMs.toInt]).Pairwise (· ≤ ·))
    (hbound : RateLimit.AtMost settings.windowMs.toNat settings.perIp.toNat (times ++ [nowMs.toInt])) :
    (b.allow settings.round nowMs).1 = true ∧
      (b.allow settings.round nowMs).2.Level settings (times ++ [nowMs.toInt]) nowMs.toInt := by
  have hfree : ¬ nowMs < (b.touch nowMs).blockedUntilMs := by
    have hblocked : (b.touch nowMs).blockedUntilMs = 0 := h.free
    rw [hblocked, Int64.lt_iff_toInt_lt]
    exact not_lt.mpr (h.last.1.trans (h.last.2.trans htime))
  obtain ⟨tokens, last, hrefill, hlast, htokens⟩ := refill_spec (b := b.touch nowMs) hround
    ⟨h.last.1, h.last.2.trans htime⟩
  have hrate : 0 ≤ b.refillPerMs := by
    rw [h.rate]
    positivity
  have hcovers := h.tokens.refill htokens hrate (h.last.2.trans htime)
  have htoken : 1 ≤ tokens := by
    refine RateLimit.Covers.token (Int.natCast_pos.mpr hwindow) hlimit ?_ hsorted hbound
    rw [← h.rate, ← h.capacity]
    exact hcovers
  unfold LocalRateLimitState.allow
  simp only [hfree, if_false, hrefill, htoken, if_true, true_and]
  refine ⟨h.capacity, h.rate, h.free, ?_, ?_⟩
  · exact ⟨hlast ▸ h.last.1.trans (h.last.2.trans htime), hlast.le⟩
  · simp only [hround, hlast]
    exact hcovers.take

end LocalRateLimitState

/-! ### An address that stays below the limit -/

section unrefused

variable {pexpire : UInt64 → Bool} {settings : LimiterSettings} {sourceIp : String} {s s' : FloodRun}
  {e : FloodEvent}

/-- The address has not sent more than the limit yet, and the bucket has let all its logs pass. -/
structure Unrefused (settings : LimiterSettings) (sourceIp : String) (s : FloodRun) : Prop where
  bounded : RateLimit.AtMost settings.windowMs.toNat settings.perIp.toNat (s.arrived sourceIp)
  passed : s.admitted sourceIp = s.arrived sourceIp
  unasked : s.limiter.keys (rateLimitKey sourceIp) = none
  bucket : ∀ b, s.limiter.limits sourceIp = some b →
    s.arrived sourceIp ≠ [] ∧ b.Level settings (s.arrived sourceIp) s.clock

/-- The address has sent more than the limit, and more than the limit were let through. -/
def Overrun (settings : LimiterSettings) (sourceIp : String) (s : FloodRun) : Prop :=
  ¬ RateLimit.AtMost settings.windowMs.toNat settings.perIp.toNat (s.arrived sourceIp) ∧
    ¬ RateLimit.AtMost settings.windowMs.toNat settings.perIp.toNat (s.admitted sourceIp)

theorem Unrefused.start : Unrefused settings sourceIp .start :=
  ⟨RateLimit.AtMost.nil, rfl, rfl, fun _ hb => nomatch hb⟩

theorem Overrun.step (hpexpire : pexpire settings.windowMs = true) (h : Overrun settings sourceIp s)
    (hstep : floodStep pexpire settings s e = some s') : Overrun settings sourceIp s' := by
  cases e with
  | cleanup nowMs =>
      obtain rfl := floodStep_cleanup hstep
      exact h
  | message log nowMs call =>
      obtain ⟨-, verdict, rfl, -⟩ := floodStep_log hpexpire hstep
      refine ⟨fun hmore => h.1 (hmore.sublist ?_), fun hmore => h.2 (hmore.sublist ?_)⟩
      · unfold FloodRun.arrived
        rw [List.filter_append, List.map_append]
        exact List.sublist_append_left _ _
      · unfold FloodRun.admitted
        rw [List.filter_append, List.map_append]
        exact List.sublist_append_left _ _

/-- The bucket has a token for a log with which the address still keeps to the limit. -/
theorem Unrefused.token (hround : ∀ q, settings.round q = q) (hsmall : settings.perIp.toNat < 2 ^ 32)
    (hwindow : 0 < settings.windowMs.toNat) (h : Unrefused settings sourceIp s) {nowMs : Int64}
    (hepoch : 0 ≤ nowMs.toInt) (htime : s.clock ≤ nowMs.toInt)
    (hsorted : (s.arrived sourceIp ++ [nowMs.toInt]).Pairwise (· ≤ ·))
    (hbound : RateLimit.AtMost settings.windowMs.toNat settings.perIp.toNat
      (s.arrived sourceIp ++ [nowMs.toInt])) :
    tokenFound settings s.limiter.limits sourceIp nowMs = true ∧
      ((bucketOf settings s.limiter.limits sourceIp nowMs).allow settings.round nowMs).2.Level settings
        (s.arrived sourceIp ++ [nowMs.toInt]) nowMs.toInt := by
  have hlimit : 0 < settings.perIp.toNat := by
    rw [Nat.pos_iff_ne_zero]
    intro hzero
    rw [hzero, RateLimit.atMost_zero_iff (Int.natCast_pos.mpr hwindow)] at hbound
    exact List.append_ne_nil_of_right_ne_nil _ (List.cons_ne_nil _ _) hbound
  have hlevel : (bucketOf settings s.limiter.limits sourceIp nowMs).Level settings
      (s.arrived sourceIp) nowMs.toInt := by
    unfold bucketOf
    cases hb : s.limiter.limits sourceIp with
    | none => exact LocalRateLimitState.new_level hround hsmall hlimit hwindow hepoch _
    | some b => exact (h.bucket b hb).2.later htime
  exact hlevel.allow hround hlimit hwindow le_rfl hsorted hbound

/-- Every next log finds a token, or the empty window. -/
theorem Unrefused.found (hsmall : settings.perIp.toNat < 2 ^ 32) (hwindow : 0 < settings.windowMs.toNat)
    (h : Unrefused settings sourceIp s) {nowMs : Int64} (hepoch : 0 ≤ nowMs.toInt) (now : ℤ) :
    tokenFound settings s.limiter.limits sourceIp nowMs = true ∨
      roomFound settings s.limiter.keys sourceIp now = true := by
  rcases Nat.eq_zero_or_pos settings.perIp.toNat with hzero | hpos
  · -- a limit of zero still makes a bucket of one token
    left
    have hnone := h.bounded
    rw [hzero, RateLimit.atMost_zero_iff (Int.natCast_pos.mpr hwindow)] at hnone
    have hnew : s.limiter.limits sourceIp = none :=
      Option.eq_none_iff_forall_not_mem.mpr fun b hb => (h.bucket b hb).1 hnone
    unfold tokenFound bucketOf
    rw [hnew]
    exact LocalRateLimitState.new_allow _ _ _ hepoch
  · right
    unfold roomFound keptSet liveKey
    rw [h.unasked]
    refine decide_eq_true ?_
    rw [LocalRateLimitState.limit_toNat hsmall]
    exact hpos

/-- Without rounding, the first log beyond the limit is let through, too. -/
theorem Unrefused.step (hpexpire : pexpire settings.windowMs = true)
    (hround : ∀ q, settings.round q = q) (hsmall : settings.perIp.toNat < 2 ^ 32)
    (hwindow : 0 < settings.windowMs.toNat) (hchrono : Chronological s)
    (h : Unrefused settings sourceIp s) (hstep : floodStep pexpire settings s e = some s') :
    Unrefused settings sourceIp s' ∨ Overrun settings sourceIp s' := by
  cases e with
  | cleanup nowMs =>
      obtain rfl := floodStep_cleanup hstep
      refine Or.inl ⟨h.bounded, h.passed, h.unasked, fun b hb => h.bucket b ?_⟩
      exact (Option.filter_eq_some_iff.mp hb).1
  | message log nowMs call =>
      have hchrono' := hchrono.step hpexpire hstep
      obtain ⟨⟨htime, -⟩, verdict, rfl, hverdict⟩ := floodStep_log hpexpire hstep
      by_cases hip : log.sourceIp = sourceIp
      · subst hip
        have hsorted := (hchrono'.arrived log.sourceIp).1
        rw [FloodRun.arrived_own rfl] at hsorted
        have hepoch : 0 ≤ nowMs.toInt := hchrono.epoch.trans htime
        have hallowed : verdict = .allowed := hverdict.mpr (h.found hsmall hwindow hepoch call.now)
        by_cases hbound : RateLimit.AtMost settings.windowMs.toNat settings.perIp.toNat
            (s.arrived log.sourceIp ++ [nowMs.toInt])
        · obtain ⟨htoken, hlevel⟩ := h.token hround hsmall hwindow hepoch htime hsorted hbound
          obtain ⟨hlimits, hkeys⟩ := @judge_token pexpire settings s.limiter log nowMs call htoken
          left
          constructor
          · rwa [FloodRun.arrived_own rfl]
          · rw [FloodRun.arrived_own rfl, FloodRun.admitted_own ⟨rfl, hallowed⟩, h.passed]
          · rw [hkeys]
            exact h.unasked
          · intro b hb
            rw [hlimits] at hb
            cases hb
            rw [FloodRun.arrived_own rfl]
            exact ⟨List.append_ne_nil_of_right_ne_nil _ (List.cons_ne_nil _ _), hlevel⟩
        · right
          unfold Overrun
          rw [FloodRun.arrived_own rfl, FloodRun.admitted_own ⟨rfl, hallowed⟩, h.passed]
          exact ⟨hbound, hbound⟩
      · obtain ⟨hlimits, hkeys⟩ := @judge_frame pexpire settings s.limiter log nowMs call
          sourceIp (Ne.symm hip)
        left
        constructor
        · rw [FloodRun.arrived_other hip]
          exact h.bounded
        · rw [FloodRun.arrived_other hip, FloodRun.admitted_same fun hown => hip hown.1]
          exact h.passed
        · rw [hkeys]
          exact h.unasked
        · intro b hb
          rw [hlimits] at hb
          rw [FloodRun.arrived_other hip]
          exact ⟨(h.bucket b hb).1, (h.bucket b hb).2.later htime⟩

/-- What is let through stays within the limit exactly when each log that is let through has room.  It
does when no window holds more logs of the address than the limit, and without rounding only then. -/
theorem flood_bounded_iff (hpexpire : pexpire settings.windowMs = true) {events : List FloodEvent}
    (hrun : Runs.run (floodStep pexpire settings) events .start = some s) (sourceIp : String) :
    (RateLimit.AtMost settings.windowMs.toNat settings.perIp.toNat (s.admitted sourceIp) ↔
      Runs.Meets (floodStep pexpire settings) (FloodRoom settings sourceIp) events .start) ∧
    (RateLimit.AtMost settings.windowMs.toNat settings.perIp.toNat (s.arrived sourceIp) →
      RateLimit.AtMost settings.windowMs.toNat settings.perIp.toNat (s.admitted sourceIp)) ∧
    ((∀ q, settings.round q = q) → settings.perIp.toNat < 2 ^ 32 →
      (RateLimit.AtMost settings.windowMs.toNat settings.perIp.toNat (s.admitted sourceIp) ↔
        RateLimit.AtMost settings.windowMs.toNat settings.perIp.toNat (s.arrived sourceIp))) := by
  refine ⟨?_, fun harrived => harrived.sublist FloodRun.admitted_sublist, ?_⟩
  · rw [Runs.holds_iff_meets (fun _ _ _ h => h.step hpexpire)
      (fun _ _ _ h => atMost_floodStep_iff hpexpire sourceIp h) Chronological.start hrun]
    exact and_iff_right RateLimit.AtMost.nil
  · intro hround hsmall
    rcases Nat.eq_zero_or_pos settings.windowMs.toNat with hzero | hwindow
    · rw [hzero]
      exact iff_of_true (RateLimit.atMost_of_nonpos le_rfl _) (RateLimit.atMost_of_nonpos le_rfl _)
    · have hfinal : Chronological s ∧ (Unrefused settings sourceIp s ∨ Overrun settings sourceIp s) := by
        refine Runs.run_invariant
          (J := fun t => Chronological t ∧ (Unrefused settings sourceIp t ∨ Overrun settings sourceIp t))
          (fun t e t' h hstep => ?_) ⟨Chronological.start, Or.inl Unrefused.start⟩ hrun
        obtain ⟨hchrono, hunrefused | hoverrun⟩ := h
        · exact ⟨hchrono.step hpexpire hstep,
            hunrefused.step hpexpire hround hsmall hwindow hchrono hstep⟩
        · exact ⟨hchrono.step hpexpire hstep, Or.inr (hoverrun.step hpexpire hstep)⟩
      rcases hfinal.2 with hunrefused | hoverrun
      · rw [hunrefused.passed]
      · exact iff_of_false hoverrun.2 hoverrun.1

end unrefused

/-- One log a second, and none sampled. -/
def oneASecond (round : ℚ → ℚ) : LimiterSettings where
  round := round
  perIp := 1
  windowMs := 1000
  sampleRate := 100
  hash := fun _ => 1

def floodLog (tenantId : String) : Log where
  id := "0c4e1f52-7a7e-4f0b-9a4e-6c3a5f0e2b11"
  tenantId := tenantId
  timestamp := .ofSeconds 1700000000
  eventType := "login_failed"
  sourceIp := "10.0.0.1"
  targetUser := none
  service := none
  message := "Failed password for root"
  severity := .medium
  metadata := .null
  receivedAt := .ofSeconds 1700000000

/-- Two logs of one address, a millisecond apart. -/
def twoLogs : List FloodEvent :=
  [.message (floodLog "acme") 1700000000000 ⟨1700000000000, .answered⟩,
    .message (floodLog "acme") 1700000000001 ⟨1700000000001, .answered⟩]

/-- The bucket lets the first log pass, and the window the second. -/
theorem twoLogs_overrun :
    ∃ s, Runs.run (floodStep (fun _ => true) (oneASecond Double.nearest)) twoLogs .start = some s ∧
      ¬ RateLimit.AtMost 1000 1 (s.admitted "10.0.0.1") := by
  have hadmitted : (Runs.run (floodStep (fun _ => true) (oneASecond Double.nearest)) twoLogs .start).map
      (·.admitted "10.0.0.1") = some [1700000000000, 1700000000001] := by decide +kernel
  obtain ⟨s, hs, hadmitted⟩ := Option.map_eq_some_iff.mp hadmitted
  refine ⟨s, hs, fun h => ?_⟩
  rw [hadmitted] at h
  exact absurd (h 1700000000000) (by decide)

/-- The two logs without rounding. -/
theorem twoLogs_bounded_iff : ∃ s,
    Runs.run (floodStep (fun _ => true) (oneASecond id)) twoLogs .start = some s ∧
    (RateLimit.AtMost 1000 1 (s.admitted "10.0.0.1") ↔
      RateLimit.AtMost 1000 1 (s.arrived "10.0.0.1")) := by
  have hsome : (Runs.run (floodStep (fun _ => true) (oneASecond id)) twoLogs .start).isSome = true := by
    decide +kernel
  obtain ⟨s, hs⟩ := Option.isSome_iff_exists.mp hsome
  exact ⟨s, hs, (flood_bounded_iff rfl hs "10.0.0.1").2.2 (fun _ => rfl) (by decide)⟩

end MiniSiem
