import MiniSiem.Lib.Double
import MiniSiem.RedisCounters

/-! # Daily usage of a tenant and its budget

`record_cost_usage` and the part of `evaluate_cost_decision` that reads the usage (`costs.rs`), on
`incr_by`, `get_counter`, `refresh_key` and the L1 maintenance of `db/redis.rs`.

* **Widths.**  Redis holds an `i64`, the L1 cache a `u64`, and `get_counter` returns a `u32`: it
  keeps the low bits of an L1 value, and cannot parse a greater reply of Redis.
* **Pressure.**  Both operands and the quotient are rounded to doubles.
* **Runs.**  The calls of one tenant on one day, with refreshes, evictions and restarts between
  them.  `budget_enforced_iff`: the usage read is the total recorded, and the pressure decides the
  budget, exactly when the total is below 2^32. -/

namespace MiniSiem

/-! ### Counters that grow by more than one -/

inductive ReadError where
  | outOfRange
  | notAnInteger
deriving DecidableEq, Repr

namespace RedisCache

variable (c : RedisCache) (now : DateTime) (key : String)

/-- `incr_by`. -/
def incrBy (delta expirySeconds : UInt64) : Except RedisError UInt32 × RedisCache :=
  match c.incrby now key delta.toInt64.toInt with
  | (.error e, c) => (.error e, c)
  | (.ok new, c) =>
      let c := c.expire now key expirySeconds.toInt64
      let newU : UInt32 := if new < 0 then 0 else UInt32.ofInt new
      let entry : L1Entry := { value := UInt64.ofInt new, ts := now.timestamp, hits := 1 }
      (.ok newU, { c with l1 := Function.update c.l1 key (some entry) })

/-- `get_counter`; the refresh of a stale entry happens later, in the background. -/
def getCounter : Except ReadError (Option UInt32) × RedisCache :=
  match c.l1 key with
  | some e =>
      let hits := if e.hits = 18446744073709551615 then e.hits else e.hits + 1
      (.ok (some e.value.toUInt32), { c with l1 := Function.update c.l1 key (some { e with hits }) })
  | none =>
      match c.live now key with
      | none => (.ok none, c)
      | some ⟨.int n, _⟩ =>
          if 0 ≤ n ∧ n < 4294967296 then
            let entry : L1Entry := { value := UInt64.ofInt n, ts := now.timestamp, hits := 1 }
            (.ok (some (UInt32.ofInt n)), { c with l1 := Function.update c.l1 key (some entry) })
          else (.error .outOfRange, c)
      | some ⟨.other, _⟩ => (.error .notAnInteger, c)

/-- `refresh_key`. -/
def refreshKey : RedisCache :=
  match c.live now key with
  | some ⟨.int n, _⟩ =>
      if 0 ≤ n ∧ n < 18446744073709551616 then
        let hits := ((c.l1 key).map (·.hits)).getD 1
        let entry : L1Entry := { value := UInt64.ofInt n, ts := now.timestamp, hits }
        { c with l1 := Function.update c.l1 key (some entry) }
      else c
  | _ => c

/-- The eviction of `start_l1_maintenance`, if it came about: in the program it blocks on the first entry that
is too old. -/
def evictOlder (maxAgeSecs : ℤ) : RedisCache :=
  { c with l1 := fun k => (c.l1 k).filter fun e => now.timestamp - e.ts ≤ maxAgeSecs }

/-- A new process starts with an empty L1 cache. -/
def restart : RedisCache := { c with l1 := fun _ => none }

/-- `ZINCRBY key`: the scores are not kept. -/
def zincrby : RedisCache :=
  match c.live now key with
  | none => { c with keys := Function.update c.keys key (some ⟨.other, none⟩) }
  | some _ => c

end RedisCache

/-! ### Keys and commands of a day -/

def costUsagePrefix : String := "siem:tenant:"

def pad (width n : ℕ) : String := String.ofList (List.leftpad width '0' (Nat.toDigits 10 n))

/-- The days since the epoch. -/
def DateTime.day (t : DateTime) : ℤ := t.1 / 86400000000000

/-- The year, month and day of a number of days since the epoch. -/
def civilFromDays (days : ℤ) : ℤ × ℕ × ℕ :=
  let z := days + 719468
  let era := z / 146097
  let doe := (z % 146097).toNat
  let yoe := (doe - doe / 1460 + doe / 36524 - doe / 146096) / 365
  let doy := doe - (365 * yoe + yoe / 4 - yoe / 100)
  let mp := (5 * doy + 2) / 153
  let month := if mp < 10 then mp + 3 else mp - 9
  (yoe + era * 400 + (if month ≤ 2 then 1 else 0), month, doy - (153 * mp + 2) / 5 + 1)

/-- `today_bucket`. -/
def todayBucket (now : DateTime) : String :=
  let (year, month, day) := civilFromDays now.day
  let years := if year < 0 then "-" ++ pad 3 year.natAbs else pad 4 year.natAbs
  years ++ "-" ++ pad 2 month ++ "-" ++ pad 2 day

/-- A usage key of a tenant on a day. -/
def costKey (tenantId : String) (now : DateTime) (suffix : String) : String :=
  costUsagePrefix ++ tenantId ++ ":cost:" ++ todayBucket now ++ ":" ++ suffix

section keys

variable (tenantId : String) (now : DateTime) (dimension key : String)

def usageBytesKey : String := costKey tenantId now "bytes"
def usageLogsKey : String := costKey tenantId now "logs"
def usageSampledKey : String := costKey tenantId now "sampled"
def usageDroppedKey : String := costKey tenantId now "dropped"
def rankKey : String := costKey tenantId now (dimension ++ ":rank")
def dimensionBytesKey : String := costKey tenantId now (dimension ++ ":" ++ key ++ ":bytes")
def dimensionLogsKey : String := costKey tenantId now (dimension ++ ":" ++ key ++ ":logs")
def dimensionSampledKey : String := costKey tenantId now (dimension ++ ":" ++ key ++ ":sampled")
def dimensionDroppedKey : String := costKey tenantId now (dimension ++ ":" ++ key ++ ":dropped")

end keys

structure CostDecision where
  action : String
  keep : Bool
  sampled : Bool
  dropped : Bool
  sampleRatePercent : Int32
  reason : String
  estimatedBytes : UInt64
  sourceKey : String
  integrationKey : String
  teamKey : String

/-- The commands whose results `record_cost_usage` ignores. -/
inductive CounterCommand where
  | incrBy (key : String) (delta expirySeconds : UInt64)
  | incrementCounter (key : String) (expirySeconds : UInt64)
  | zincrby (key member : String) (increment : ℕ)

def CounterCommand.key : CounterCommand → String
  | incrBy key _ _ => key
  | incrementCounter key _ => key
  | zincrby key _ _ => key

def CounterCommand.exec (now : DateTime) (c : RedisCache) : CounterCommand → RedisCache
  | incrBy key delta expirySeconds => (c.incrBy now key delta expirySeconds).2
  | incrementCounter key expirySeconds => (c.incrementCounter now key expirySeconds).2
  | zincrby key _ _ => c.zincrby now key

section recording

variable (tenantId : String) (now : DateTime) (decision : CostDecision)

/-- The increments of one event for the tenant and its dimensions. -/
def eventCommands (usage : String) (ofDimension : String → String → String) : List CounterCommand :=
  [.incrementCounter usage 86400,
    .incrementCounter (ofDimension "source" decision.sourceKey) 86400,
    .incrementCounter (ofDimension "integration" decision.integrationKey) 86400,
    .incrementCounter (ofDimension "team" decision.teamKey) 86400]

/-- What `record_cost_usage` does after it has counted the bytes of the tenant. -/
def dimensionCommands : List CounterCommand :=
  [.incrementCounter (usageLogsKey tenantId now) 86400,
    .incrBy (dimensionBytesKey tenantId now "source" decision.sourceKey) decision.estimatedBytes 86400,
    .incrementCounter (dimensionLogsKey tenantId now "source" decision.sourceKey) 86400,
    .incrBy (dimensionBytesKey tenantId now "integration" decision.integrationKey)
      decision.estimatedBytes 86400,
    .incrementCounter (dimensionLogsKey tenantId now "integration" decision.integrationKey) 86400,
    .incrBy (dimensionBytesKey tenantId now "team" decision.teamKey) decision.estimatedBytes 86400,
    .incrementCounter (dimensionLogsKey tenantId now "team" decision.teamKey) 86400,
    .zincrby (rankKey tenantId now "source") decision.sourceKey
      (Number.roundNat decision.estimatedBytes.toNat),
    .zincrby (rankKey tenantId now "integration") decision.integrationKey
      (Number.roundNat decision.estimatedBytes.toNat),
    .zincrby (rankKey tenantId now "team") decision.teamKey
      (Number.roundNat decision.estimatedBytes.toNat)] ++
  (if decision.sampled then
    eventCommands decision (usageSampledKey tenantId now) (dimensionSampledKey tenantId now)
  else []) ++
  (if decision.dropped then
    eventCommands decision (usageDroppedKey tenantId now) (dimensionDroppedKey tenantId now)
  else [])

/-- `record_cost_usage`. -/
def recordCostUsage (c : RedisCache) : RedisCache :=
  (CounterCommand.incrBy (usageBytesKey tenantId now) decision.estimatedBytes 86400 ::
    dimensionCommands tenantId now decision).foldl (CounterCommand.exec now) c

end recording

/-! ### Reading the usage -/

/-- `current_pressure`. -/
def currentPressure (currentBytes : UInt64) (budgetBytes : Int64) : ℚ :=
  if budgetBytes ≤ 0 then 0
  else Double.nearest ((Number.roundNat currentBytes.toNat : ℚ) /
    Number.roundNat budgetBytes.toInt.toNat)

/-- The usage of the tenant in `evaluate_cost_decision`. -/
def currentBytes (tenantId : String) (c : RedisCache) (now : DateTime) :
    Except ReadError UInt64 × RedisCache :=
  let (reply, c) := c.getCounter now (usageBytesKey tenantId now)
  (reply.map fun count => (count.getD 0).toUInt64, c)

/-- The next usage read is `total`, and the pressure reaches one when the budget is used up. -/
def BudgetEnforced (tenantId : String) (c : RedisCache) (now : DateTime) (total : ℕ) : Prop :=
  ∃ usage, (currentBytes tenantId c now).1 = .ok usage ∧ usage.toNat = total ∧
    ∀ budget : Int64, 0 < budget → (1 ≤ currentPressure usage budget ↔ budget.toInt ≤ total)

/-! ### A day -/

inductive UsageEvent where
  | record (now : DateTime) (decision : CostDecision)
  | read (now : DateTime)
  | refresh (now : DateTime)
  | evict (now : DateTime) (maxAgeSecs : ℤ)
  | restart

namespace UsageEvent

def exec (tenantId : String) (c : RedisCache) : UsageEvent → RedisCache
  | record now decision => recordCostUsage tenantId now decision c
  | read now => (currentBytes tenantId c now).2
  | refresh now => c.refreshKey now (usageBytesKey tenantId now)
  | evict now maxAgeSecs => c.evictOlder now maxAgeSecs
  | restart => c.restart

def bytes : UsageEvent → ℕ
  | record _ decision => decision.estimatedBytes.toNat
  | _ => 0

/-- The event takes place on a day. -/
def On (day : ℤ) : UsageEvent → Prop
  | record now _ | read now | refresh now | evict now _ => now.day = day
  | restart => True

end UsageEvent

def runUsage (tenantId : String) (c : RedisCache) (events : List UsageEvent) : RedisCache :=
  events.foldl (UsageEvent.exec tenantId) c

/-- The bytes recorded. -/
def totalBytes (events : List UsageEvent) : ℕ := (events.map UsageEvent.bytes).sum

/-! ### The pressure of small usage -/

/-- The rounded budget is exact, or beyond every usage that is read. -/
theorem gap_le_roundNat {used budget : ℕ} (hused : used < 2 ^ 32) (hless : used < budget) :
    (used : ℚ) + Number.roundNat budget * 2 ^ (-53 : ℤ) ≤ Number.roundNat budget := by
  have hunit : (2 : ℚ) ^ (-53 : ℤ) = 1 / 9007199254740992 := by norm_num
  rw [hunit]
  rcases Nat.lt_or_ge budget (2 ^ 53) with hsmall | hbig
  · rw [Number.roundNat_of_lt hsmall]
    have hnext : (used : ℚ) + 1 ≤ budget := by exact_mod_cast hless
    have hfits : (budget : ℚ) < 9007199254740992 := by exact_mod_cast hsmall
    linarith
  · have hround : (9007199254740992 : ℚ) ≤ Number.roundNat budget := by
      exact_mod_cast Number.le_roundNat hbig
    have hfits : (used : ℚ) < 4294967296 := by exact_mod_cast hused
    linarith

theorem one_le_currentPressure_iff {usage : UInt64} {budget : Int64} (husage : usage.toNat < 2 ^ 32)
    (hbudget : 0 < budget) : 1 ≤ currentPressure usage budget ↔ budget.toInt ≤ usage.toNat := by
  have hpositive : 0 < budget.toInt := Int64.lt_iff_toInt_lt.mp hbudget
  have hround : 0 < Number.roundNat budget.toInt.toNat :=
    Number.le_roundNat (k := 0) (show 1 ≤ budget.toInt.toNat by omega)
  have hround' : (0 : ℚ) < Number.roundNat budget.toInt.toNat := by exact_mod_cast hround
  unfold currentPressure
  rw [if_neg (Int64.not_le.mpr hbudget), Number.roundNat_of_lt (by omega : usage.toNat < 2 ^ 53)]
  constructor
  · intro hone
    by_contra hless
    have hgap := gap_le_roundNat husage (show usage.toNat < budget.toInt.toNat by omega)
    refine absurd hone (not_le.mpr (Double.nearest_lt_one ?_))
    rw [div_le_iff₀ hround']
    linarith
  · intro hle
    have hexact := Number.roundNat_of_lt (by omega : budget.toInt.toNat < 2 ^ 53)
    refine Double.one_le_nearest ?_
    rw [le_div_iff₀ hround', hexact, one_mul]
    exact_mod_cast (by omega : budget.toInt.toNat ≤ usage.toNat)

/-! ### What the commands leave alone -/

theorem costKey_inj {tenantId : String} {now : DateTime} {suffix suffix' : String} :
    costKey tenantId now suffix = costKey tenantId now suffix' ↔ suffix = suffix' :=
  String.append_right_inj _

/-- The entry of a key is the same in Redis and in the L1 cache. -/
def SameAt (key : String) (c c' : RedisCache) : Prop :=
  c'.keys key = c.keys key ∧ c'.l1 key = c.l1 key

theorem SameAt.trans {key : String} {c c' c'' : RedisCache} (h : SameAt key c c')
    (h' : SameAt key c' c'') : SameAt key c c'' :=
  ⟨h'.1.trans h.1, h'.2.trans h.2⟩

section frame

variable {now : DateTime} {key k : String} (h : k ≠ key) (c : RedisCache)
include h

theorem incrby_same (delta : ℤ) : SameAt k c (c.incrby now key delta).2 := by
  unfold RedisCache.incrby
  split
  · exact ⟨Function.update_of_ne h _ _, rfl⟩
  · split_ifs
    · exact ⟨Function.update_of_ne h _ _, rfl⟩
    · exact ⟨rfl, rfl⟩
    · exact ⟨rfl, rfl⟩
  · exact ⟨rfl, rfl⟩

theorem incrBy_same (delta expirySeconds : UInt64) :
    SameAt k c (c.incrBy now key delta expirySeconds).2 := by
  have hincr : SameAt k c (c.incrby now key delta.toInt64.toInt).2 := incrby_same h c _
  unfold RedisCache.incrBy
  rcases hr : c.incrby now key delta.toInt64.toInt with ⟨_ | new, c₁⟩
  · rw [hr] at hincr
    exact hincr
  · rw [hr] at hincr
    exact hincr.trans ⟨RedisCache.expire_frame h, Function.update_of_ne h _ _⟩

theorem incrementCounter_same (expirySeconds : UInt64) :
    SameAt k c (c.incrementCounter now key expirySeconds).2 := by
  refine ⟨c.incrementCounter_frame now expirySeconds h, ?_⟩
  have hincr := c.incr_l1 now key
  unfold RedisCache.incrementCounter
  rcases hr : c.incr now key with ⟨_ | n, c₁⟩
  · rw [hr] at hincr
    exact congrFun hincr k
  · rw [hr] at hincr
    dsimp only at hincr ⊢
    rw [Function.update_of_ne h]
    split_ifs
    · exact congrFun hincr k
    · exact congrFun hincr k

theorem zincrby_same : SameAt k c (c.zincrby now key) := by
  unfold RedisCache.zincrby
  split
  · exact ⟨Function.update_of_ne h _ _, rfl⟩
  · exact ⟨rfl, rfl⟩

end frame

theorem CounterCommand.exec_same {command : CounterCommand} {k : String} (now : DateTime)
    (c : RedisCache) (h : k ≠ command.key) : SameAt k c (command.exec now c) := by
  cases command with
  | incrBy key delta expirySeconds => exact incrBy_same h c delta expirySeconds
  | incrementCounter key expirySeconds => exact incrementCounter_same h c expirySeconds
  | zincrby key member increment => exact zincrby_same h c

theorem foldl_exec_same {k : String} (now : DateTime) (commands : List CounterCommand)
    (h : ∀ command ∈ commands, k ≠ command.key) (c : RedisCache) :
    SameAt k c (commands.foldl (CounterCommand.exec now) c) := by
  induction commands generalizing c with
  | nil => exact ⟨rfl, rfl⟩
  | cons command commands ih =>
      obtain ⟨hfirst, hrest⟩ := List.forall_mem_cons.mp h
      exact (command.exec_same now c hfirst).trans (ih hrest _)

/-- No other key of the call is the usage of the tenant. -/
theorem usageBytesKey_ne_of_mem {tenantId : String} {now : DateTime} {decision : CostDecision} :
    ∀ command ∈ dimensionCommands tenantId now decision, usageBytesKey tenantId now ≠ command.key := by
  -- the suffixes of the other keys do not start with the letter of this one
  have hsuffix : ∀ s t : String, s.toList.head? ≠ some 'b' → s ≠ "" → "bytes" ≠ s ++ t := by
    intro s t hhead hne heq
    have hlist := congrArg (fun x => x.toList.head?) heq
    simp only [String.toList_append] at hlist
    rw [List.head?_append_of_ne_nil _ (by simpa using hne)] at hlist
    exact hhead (hlist.symm.trans (by decide))
  have hsource := fun t => hsuffix "source:" t (by decide) (by decide)
  have hintegration := fun t => hsuffix "integration:" t (by decide) (by decide)
  have hteam := fun t => hsuffix "team:" t (by decide) (by decide)
  unfold dimensionCommands eventCommands
  split_ifs <;> simp [CounterCommand.key, usageBytesKey, usageLogsKey, usageSampledKey,
    usageDroppedKey, rankKey, dimensionBytesKey, dimensionLogsKey, dimensionSampledKey,
    dimensionDroppedKey, costKey_inj, String.append_assoc, hsource, hintegration, hteam]

/-! ### The total of the day -/

/-- Redis and the L1 cache hold the total, and the counter lives to the end of the day. -/
structure Tallied (key : String) (day : ℤ) (total : ℕ) (c : RedisCache) : Prop where
  stored : (total = 0 ∧ c.keys key = none) ∨ ∃ deadline,
    c.keys key = some ⟨.int total, some deadline⟩ ∧ ∀ t : DateTime, t.day = day → t.millis ≤ deadline
  cached : ∀ e, c.l1 key = some e → e.value.toNat = total

section tally

variable {key : String} {day : ℤ} {total : ℕ} {c : RedisCache} (h : Tallied key day total c)
include h

theorem Tallied.same {c' : RedisCache} (hsame : SameAt key c c') : Tallied key day total c' := by
  refine ⟨?_, ?_⟩
  · rw [hsame.1]
    exact h.stored
  · rw [hsame.2]
    exact h.cached

theorem Tallied.live {now : DateTime} (hday : now.day = day) : c.live now key = c.keys key := by
  unfold RedisCache.live
  rcases h.stored with ⟨-, hnone⟩ | ⟨deadline, hkey, hlives⟩
  · rw [hnone]
    rfl
  · rw [hkey]
    exact Option.filter_some_pos (decide_eq_true (hlives now hday))

/-- A new entry of the L1 cache that holds the total. -/
theorem Tallied.insert {e : L1Entry} (he : e.value.toNat = total) :
    Tallied key day total { c with l1 := Function.update c.l1 key (some e) } := by
  refine ⟨h.stored, fun e' he' => ?_⟩
  dsimp only at he'
  rw [Function.update_self] at he'
  exact Option.some.inj he' ▸ he

/-- Entries are only removed from the L1 cache. -/
theorem Tallied.remove {l1 : String → Option L1Entry} (hl1 : ∀ e, l1 key = some e → c.l1 key = some e) :
    Tallied key day total { c with l1 } :=
  ⟨h.stored, fun e he => h.cached e (hl1 e he)⟩

end tally

theorem toNat_ofInt_natCast {n : ℕ} (h : n < 2 ^ 63) : (UInt64.ofInt n).toNat = n := by
  unfold UInt64.ofInt
  rw [UInt64.toNat_ofNat']
  omega

theorem toInt_toInt64 {x : UInt64} (h : x.toNat < 2 ^ 63) : x.toInt64.toInt = x.toNat := by
  show x.toBitVec.toInt = _
  rw [BitVec.toInt_eq_toNat_of_lt (show 2 * x.toNat < 2 ^ 64 by omega)]
  rfl

/-- The end of the day comes before the expiry. -/
theorem millis_le_of_day {t now : DateTime} (h : t.day = now.day) :
    t.millis ≤ now.millis + 86400 * 1000 := by
  unfold DateTime.day at h
  unfold DateTime.millis
  omega

section events

variable {key : String} {day : ℤ} {total : ℕ} {c : RedisCache} {now : DateTime}

theorem Tallied.incrBy (h : Tallied key day total c) (hday : now.day = day) {delta : UInt64}
    (hfits : total + delta.toNat < 2 ^ 63) :
    Tallied key day (total + delta.toNat) (c.incrBy now key delta 86400).2 := by
  have hdelta := toInt_toInt64 (x := delta) (by omega)
  obtain ⟨expireAt, hreply⟩ : ∃ expireAt, c.incrby now key delta.toInt64.toInt =
      (.ok (total + delta.toNat : ℕ), { c with
        keys := Function.update c.keys key (some ⟨.int (total + delta.toNat : ℕ), expireAt⟩) }) := by
    unfold RedisCache.incrby
    rw [h.live hday, hdelta]
    rcases h.stored with ⟨rfl, hnone⟩ | ⟨deadline, hkey, -⟩
    · rw [hnone, Nat.zero_add]
      exact ⟨none, rfl⟩
    · rw [hkey]
      dsimp only
      rw [if_pos (by omega), if_pos (by omega)]
      exact ⟨some deadline, by push_cast; rfl⟩
  unfold RedisCache.incrBy
  rw [hreply]
  refine ⟨Or.inr ⟨now.millis + 86400 * 1000, ?_, fun t ht => millis_le_of_day (ht.trans hday.symm)⟩, ?_⟩
  · simp only [RedisCache.expire, Function.update_self]
    rfl
  · intro e he
    dsimp only at he
    rw [Function.update_self] at he
    rw [← Option.some.inj he]
    exact toNat_ofInt_natCast hfits

theorem Tallied.record (h : Tallied key day total c) (hday : now.day = day) {tenantId : String}
    (hkey : key = usageBytesKey tenantId now) {decision : CostDecision}
    (hfits : total + decision.estimatedBytes.toNat < 2 ^ 63) :
    Tallied key day (total + decision.estimatedBytes.toNat)
      (recordCostUsage tenantId now decision c) := by
  have hcounted := h.incrBy hday hfits
  rw [hkey] at hcounted ⊢
  unfold recordCostUsage
  rw [List.foldl_cons]
  exact hcounted.same (foldl_exec_same now _ usageBytesKey_ne_of_mem _)

theorem Tallied.getCounter (h : Tallied key day total c) (hday : now.day = day) :
    Tallied key day total (c.getCounter now key).2 := by
  unfold RedisCache.getCounter
  cases hl1 : c.l1 key with
  | some e => exact h.insert (h.cached e hl1)
  | none =>
      rw [h.live hday]
      rcases h.stored with ⟨-, hnone⟩ | ⟨deadline, hkey, -⟩
      · rw [hnone]
        exact h
      · rw [hkey]
        dsimp only
        split_ifs with hfits
        · exact h.insert (toNat_ofInt_natCast (by omega))
        · exact h

theorem Tallied.refreshKey (h : Tallied key day total c) (hday : now.day = day)
    (hfits : total < 2 ^ 63) : Tallied key day total (c.refreshKey now key) := by
  unfold RedisCache.refreshKey
  rw [h.live hday]
  rcases h.stored with ⟨-, hnone⟩ | ⟨deadline, hkey, -⟩
  · rw [hnone]
    exact h
  · rw [hkey]
    dsimp only
    rw [if_pos (by omega)]
    exact h.insert (toNat_ofInt_natCast hfits)

end events

section day

variable {tenantId : String} {now : DateTime}

theorem usageBytesKey_of_day {t : DateTime} (h : t.day = now.day) :
    usageBytesKey tenantId t = usageBytesKey tenantId now := by
  unfold usageBytesKey costKey todayBucket
  rw [h]

theorem Tallied.exec {total : ℕ} {c : RedisCache}
    (h : Tallied (usageBytesKey tenantId now) now.day total c) {e : UsageEvent} (he : e.On now.day)
    (hfits : total + e.bytes < 2 ^ 63) :
    Tallied (usageBytesKey tenantId now) now.day (total + e.bytes) (e.exec tenantId c) := by
  cases e with
  | record t decision => exact h.record he (usageBytesKey_of_day he).symm hfits
  | read t =>
      show Tallied _ _ total (c.getCounter t (usageBytesKey tenantId t)).2
      rw [usageBytesKey_of_day he]
      exact h.getCounter he
  | refresh t =>
      show Tallied _ _ total (c.refreshKey t (usageBytesKey tenantId t))
      rw [usageBytesKey_of_day he]
      exact h.refreshKey he hfits
  | evict t maxAgeSecs => exact h.remove fun e he => (Option.filter_eq_some_iff.mp he).1
  | restart => exact h.remove fun e he => by cases he

theorem tallied_run {events : List UsageEvent} (hday : ∀ e ∈ events, e.On now.day) {total : ℕ}
    (hfits : total + totalBytes events < 2 ^ 63) {c : RedisCache}
    (h : Tallied (usageBytesKey tenantId now) now.day total c) :
    Tallied (usageBytesKey tenantId now) now.day (total + totalBytes events)
      (runUsage tenantId c events) := by
  induction events generalizing total c with
  | nil => exact h
  | cons e events ih =>
      obtain ⟨hfirst, hrest⟩ := List.forall_mem_cons.mp hday
      have hsplit : totalBytes (e :: events) = e.bytes + totalBytes events := rfl
      rw [hsplit, ← Nat.add_assoc] at hfits ⊢
      exact ih hrest hfits (h.exec hfirst (by omega))

/-! ### What is read -/

theorem currentBytes_of_cached {c : RedisCache} {e : L1Entry}
    (h : c.l1 (usageBytesKey tenantId now) = some e) :
    (currentBytes tenantId c now).1 = .ok e.value.toUInt32.toUInt64 := by
  unfold currentBytes RedisCache.getCounter
  rw [h]
  rfl

theorem currentBytes_of_missing {c : RedisCache} (h : c.l1 (usageBytesKey tenantId now) = none)
    (hlive : c.live now (usageBytesKey tenantId now) = none) :
    (currentBytes tenantId c now).1 = .ok 0 := by
  unfold currentBytes RedisCache.getCounter
  rw [h, hlive]
  rfl

theorem currentBytes_of_stored {c : RedisCache} {n : ℤ} {expireAt : Option ℤ}
    (h : c.l1 (usageBytesKey tenantId now) = none)
    (hlive : c.live now (usageBytesKey tenantId now) = some ⟨.int n, expireAt⟩) :
    (currentBytes tenantId c now).1 =
      if 0 ≤ n ∧ n < 4294967296 then .ok (UInt32.ofInt n).toUInt64 else .error .outOfRange := by
  unfold currentBytes RedisCache.getCounter
  rw [h, hlive]
  dsimp only
  split_ifs
  · rfl
  · rfl

theorem currentBytes_eq_iff {total : ℕ} {c : RedisCache}
    (h : Tallied (usageBytesKey tenantId now) now.day total c) :
    (∃ usage, (currentBytes tenantId c now).1 = .ok usage ∧ usage.toNat = total) ↔ total < 2 ^ 32 := by
  cases hl1 : c.l1 (usageBytesKey tenantId now) with
  | some e =>
      have hlow : e.value.toUInt32.toUInt64.toNat = total % 2 ^ 32 := by
        rw [UInt32.toNat_toUInt64, UInt64.toNat_toUInt32, h.cached e hl1]
      rw [currentBytes_of_cached hl1]
      constructor
      · rintro ⟨usage, hread, htotal⟩
        rw [← Except.ok.inj hread, hlow] at htotal
        omega
      · intro hless
        exact ⟨_, rfl, hlow.trans (Nat.mod_eq_of_lt hless)⟩
  | none =>
      have hlive : c.live now (usageBytesKey tenantId now) = c.keys (usageBytesKey tenantId now) :=
        h.live rfl
      rcases h.stored with ⟨rfl, hnone⟩ | ⟨deadline, hkey, -⟩
      · rw [currentBytes_of_missing hl1 (hlive.trans hnone)]
        exact iff_of_true ⟨0, rfl, rfl⟩ (by norm_num)
      · rw [currentBytes_of_stored hl1 (hlive.trans hkey)]
        by_cases hless : total < 2 ^ 32
        · have hvalue : (UInt32.ofInt total).toUInt64.toNat = total := by
            unfold UInt32.ofInt
            rw [UInt32.toNat_toUInt64, UInt32.toNat_ofNat']
            omega
          rw [if_pos (by omega)]
          exact iff_of_true ⟨_, rfl, hvalue⟩ hless
        · rw [if_neg (by omega)]
          exact iff_of_false (fun ⟨usage, hread, _⟩ => by cases hread) hless

/-- **When the budget is enforced**: exactly for the totals below 2^32. -/
theorem budget_enforced_iff (tenantId : String) (c : RedisCache) (events : List UsageEvent)
    (now : DateTime) (hfresh : c.keys (usageBytesKey tenantId now) = none)
    (hcold : c.l1 (usageBytesKey tenantId now) = none) (hday : ∀ e ∈ events, e.On now.day)
    (hfits : totalBytes events < 2 ^ 63) :
    BudgetEnforced tenantId (runUsage tenantId c events) now (totalBytes events) ↔
      totalBytes events < 2 ^ 32 := by
  have hstart : Tallied (usageBytesKey tenantId now) now.day 0 c :=
    ⟨Or.inl ⟨rfl, hfresh⟩, fun e he => by rw [hcold] at he; cases he⟩
  have htally := tallied_run hday (by rwa [Nat.zero_add]) hstart
  rw [Nat.zero_add] at htally
  have hread := currentBytes_eq_iff htally
  constructor
  · rintro ⟨usage, hok, htotal, -⟩
    exact hread.mp ⟨usage, hok, htotal⟩
  · intro hless
    obtain ⟨usage, hok, htotal⟩ := hread.mpr hless
    refine ⟨usage, hok, htotal, fun budget hbudget => ?_⟩
    rw [← htotal]
    exact one_le_currentPressure_iff (htotal ▸ hless) hbudget

end day

/-! ### Gigabytes -/

/-- A kept event of a gigabyte and a quarter. -/
def gigabytes : CostDecision where
  action := "keep"
  keep := true
  sampled := false
  dropped := false
  sampleRatePercent := 100
  reason := "kept"
  estimatedBytes := 1250000000
  sourceKey := "10.0.0.1"
  integrationKey := "nginx"
  teamKey := "unassigned"

def freshRedis : RedisCache := ⟨fun _ => none, fun _ => none⟩

/-- Three such events are below the bound; the last one is read after a restart. -/
theorem threeEvents_enforced :
    BudgetEnforced "acme" (runUsage "acme" freshRedis
      [.record (.ofSeconds 0) gigabytes, .record (.ofSeconds 60) gigabytes,
        .record (.ofSeconds 120) gigabytes, .restart]) (.ofSeconds 180) 3750000000 := by
  have htotal : totalBytes [.record (.ofSeconds 0) gigabytes, .record (.ofSeconds 60) gigabytes,
      .record (.ofSeconds 120) gigabytes, .restart] = 3750000000 := by decide +kernel
  rw [← htotal]
  refine (budget_enforced_iff "acme" freshRedis [.record (.ofSeconds 0) gigabytes,
    .record (.ofSeconds 60) gigabytes, .record (.ofSeconds 120) gigabytes, .restart]
    (.ofSeconds 180) rfl rfl ?_ ?_).mpr ?_
  · simp [UsageEvent.On, DateTime.day, DateTime.ofSeconds]
  · decide +kernel
  · decide +kernel

/-- After four of them the L1 cache gives seven hundred megabytes. -/
theorem fourEvents_not_enforced :
    ¬ ∀ (tenantId : String) (c : RedisCache) (events : List UsageEvent) (now : DateTime),
      c.keys (usageBytesKey tenantId now) = none → c.l1 (usageBytesKey tenantId now) = none →
      (∀ e ∈ events, e.On now.day) → totalBytes events < 2 ^ 63 →
      BudgetEnforced tenantId (runUsage tenantId c events) now (totalBytes events) := by
  intro h
  obtain ⟨usage, hread, htotal, -⟩ := h "acme" freshRedis [.record (.ofSeconds 0) gigabytes,
    .record (.ofSeconds 60) gigabytes, .record (.ofSeconds 120) gigabytes,
    .record (.ofSeconds 180) gigabytes] (.ofSeconds 240) rfl rfl
    (by simp [UsageEvent.On, DateTime.day, DateTime.ofSeconds]) (by decide +kernel)
  have hlow : (currentBytes "acme" (runUsage "acme" freshRedis [.record (.ofSeconds 0) gigabytes,
      .record (.ofSeconds 60) gigabytes, .record (.ofSeconds 120) gigabytes,
      .record (.ofSeconds 180) gigabytes]) (.ofSeconds 240)).1 = .ok 705032704 := by decide +kernel
  rw [← Except.ok.inj (hlow.symm.trans hread)] at htotal
  revert htotal
  decide +kernel

end MiniSiem
