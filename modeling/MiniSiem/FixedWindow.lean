import MiniSiem.Lib.RateLimit

/-! # The fixed-window quota

`RedisCache::allow_fixed_window` of `db/redis.rs`, which gates every handler of the API.

* **Script.**  The script runs atomically on one counter with an expiry.  Every admitted call sets
  the expiry anew, so the counter lives on as long as the calls are closer than the window.
* **Clock.**  Times are those of the server in milliseconds; a key is gone when its expiry has
  elapsed.  Which windows `EXPIRE` accepts depends on the server; a refused one fails the call
  after the `INCRBY`.
* **Bound.**  `quota_never_exceeded`: the admitted calls of any half-open interval of the window's
  length cost at most the limit, since the counter still holds all of them.
* **Fairness.**  `fixed_window_fair_iff`: at a moment every rejection, whatever the cost, is
  justified by the calls of the last window exactly when the counter holds no older cost. -/

namespace MiniSiem

structure QuotaKey where
  value : ℕ
  expireAt : Option ℤ

def QuotaKey.live (k : QuotaKey) (now : ℤ) : Bool :=
  match k.expireAt with
  | some deadline => now < deadline
  | none => true

/-- The counter unless it has expired. -/
def liveQuota (key : Option QuotaKey) (now : ℤ) : Option QuotaKey := key.filter fun k => k.live now

/-- `tonumber(redis.call('GET', key) or '0')`. -/
def quotaValue (key : Option QuotaKey) (now : ℤ) : ℕ := ((liveQuota key now).map (·.value)).getD 0

/-- The window in milliseconds. -/
def windowMillis (windowSeconds : UInt64) : ℤ := windowSeconds.toNat * 1000

section quota

variable (expire : UInt64 → Bool) (windowSeconds : UInt64) (limit : UInt32)

/-- `allow_fixed_window`: the reply, or nothing if the script fails, and the key it leaves. -/
def allowFixedWindow (key : Option QuotaKey) (now : ℤ) (cost : UInt32) :
    Option Bool × Option QuotaKey :=
  let current := quotaValue key now + cost.toNat
  if current ≤ limit.toNat then
    if !expire windowSeconds then (none, some ⟨current, (liveQuota key now).bind (·.expireAt)⟩)
    else (some true, if windowSeconds = 0 then none
      else some ⟨current, some (now + windowMillis windowSeconds)⟩)
  else (some false, liveQuota key now)

/-! ### Sequences of calls -/

/-- The calls that returned true and those that failed, the newest first, and the key. -/
structure QuotaRun where
  admitted : List (ℤ × ℕ)
  failed : List (ℤ × ℕ)
  key : Option QuotaKey

def QuotaRun.call (s : QuotaRun) (c : ℤ × UInt32) : QuotaRun :=
  let (reply, key) := allowFixedWindow expire windowSeconds limit s.key c.1 c.2
  match reply with
  | some true => { s with admitted := (c.1, c.2.toNat) :: s.admitted, key }
  | some false => { s with key }
  | none => { s with failed := (c.1, c.2.toNat) :: s.failed, key }

def runQuota (calls : List (ℤ × UInt32)) : QuotaRun :=
  calls.foldl (QuotaRun.call expire windowSeconds limit) ⟨[], [], none⟩

/-- A call at `now`, whatever its cost, is rejected only if it exceeds the limit together with the
calls admitted in the window before. -/
def FairAt (s : QuotaRun) (now : ℤ) : Prop :=
  ∀ cost, (allowFixedWindow expire windowSeconds limit s.key now cost).1 = some false →
    limit.toNat < RateLimit.total (RateLimit.recent (windowMillis windowSeconds) now s.admitted) +
      cost.toNat

/-- The calls that reach back from `now` by gaps shorter than the window are in the last window,
unless they are free; and the calls that failed are free. -/
structure NothingStale (s : QuotaRun) (now : ℤ) : Prop where
  recent : ∀ a ∈ RateLimit.chain (windowMillis windowSeconds) now s.admitted,
    0 < a.2 → now < a.1 + windowMillis windowSeconds
  failed : ∀ a ∈ s.failed, a.2 = 0

end quota

/-! ### What the counter counts -/

section counts

variable {expire : UInt64 → Bool} {windowSeconds : UInt64} {limit : UInt32}

/-- The counter holds the linked calls and the failed ones. -/
structure Counted (expire : UInt64 → Bool) (windowSeconds : UInt64) (limit : UInt32) (last : ℤ)
    (s : QuotaRun) : Prop where
  newest : RateLimit.NewestFirst last s.admitted
  value : ∀ now, last ≤ now → quotaValue s.key now =
    RateLimit.total (RateLimit.chain (windowMillis windowSeconds) now s.admitted) +
      RateLimit.total s.failed
  bounded : ∀ now, last ≤ now → quotaValue s.key now ≤ limit.toNat
  accepted : expire windowSeconds = true → s.failed = []
  refused : expire windowSeconds = false → s.admitted = [] ∧ ∀ k, s.key = some k → k.expireAt = none

theorem counted_start (last : ℤ) : Counted expire windowSeconds limit last ⟨[], [], none⟩ where
  newest := trivial
  value := fun _ _ => rfl
  bounded := fun _ _ => Nat.zero_le _
  accepted := fun _ => rfl
  refused := fun _ => ⟨rfl, fun _ h => by cases h⟩

theorem quotaValue_some (k : QuotaKey) (now : ℤ) :
    quotaValue (some k) now = if k.live now then k.value else 0 := by
  cases hlive : k.live now with
  | true =>
      have hkey : liveQuota (some k) now = some k := Option.filter_some_pos hlive
      unfold quotaValue
      rw [hkey]
      rfl
  | false =>
      have hkey : liveQuota (some k) now = none := Option.filter_some_neg (by simpa using hlive)
      unfold quotaValue
      rw [hkey]
      rfl

/-- The value later is the value now, or nothing. -/
theorem quotaValue_liveQuota (key : Option QuotaKey) {now later : ℤ} (hle : now ≤ later) :
    quotaValue (liveQuota key now) later = quotaValue key later := by
  cases key with
  | none => rfl
  | some k =>
      cases hlive : k.live now with
      | true =>
          have hkey : liveQuota (some k) now = some k := Option.filter_some_pos hlive
          rw [hkey]
      | false =>
          have hkey : liveQuota (some k) now = none := Option.filter_some_neg (by simpa using hlive)
          have hlater : k.live later = false := by
            unfold QuotaKey.live at hlive ⊢
            cases hdeadline : k.expireAt with
            | none =>
                rw [hdeadline] at hlive
                cases hlive
            | some deadline =>
                rw [hdeadline] at hlive
                have hover := of_decide_eq_false hlive
                exact decide_eq_false (by omega)
          rw [hkey, quotaValue_some, hlater]
          rfl

section call

variable {s : QuotaRun} {c : ℤ × UInt32}

theorem QuotaRun.call_rejected (hfull : ¬ quotaValue s.key c.1 + c.2.toNat ≤ limit.toNat) :
    s.call expire windowSeconds limit c = { s with key := liveQuota s.key c.1 } := by
  unfold QuotaRun.call allowFixedWindow
  dsimp only
  rw [if_neg hfull]

theorem QuotaRun.call_failed (hroom : quotaValue s.key c.1 + c.2.toNat ≤ limit.toNat)
    (hexpire : expire windowSeconds = false) :
    s.call expire windowSeconds limit c =
      { s with
        failed := (c.1, c.2.toNat) :: s.failed
        key := some ⟨quotaValue s.key c.1 + c.2.toNat, (liveQuota s.key c.1).bind (·.expireAt)⟩ } := by
  unfold QuotaRun.call allowFixedWindow
  dsimp only
  rw [if_pos hroom, hexpire]
  rfl

theorem QuotaRun.call_admitted (hroom : quotaValue s.key c.1 + c.2.toNat ≤ limit.toNat)
    (hexpire : expire windowSeconds = true) :
    s.call expire windowSeconds limit c =
      { s with
        admitted := (c.1, c.2.toNat) :: s.admitted
        key := if windowSeconds = 0 then none
          else some ⟨quotaValue s.key c.1 + c.2.toNat, some (c.1 + windowMillis windowSeconds)⟩ } := by
  unfold QuotaRun.call allowFixedWindow
  dsimp only
  rw [if_pos hroom, hexpire]
  rfl

variable {last : ℤ} (h : Counted expire windowSeconds limit last s) (hle : last ≤ c.1)
include h hle

theorem Counted.rejected (hfull : ¬ quotaValue s.key c.1 + c.2.toNat ≤ limit.toNat) :
    Counted expire windowSeconds limit c.1 (s.call expire windowSeconds limit c) := by
  rw [QuotaRun.call_rejected hfull]
  refine ⟨h.newest.later hle, fun now hnow => ?_, fun now hnow => ?_, h.accepted, fun hno => ?_⟩
  · rw [quotaValue_liveQuota s.key hnow]
    exact h.value now (hle.trans hnow)
  · rw [quotaValue_liveQuota s.key hnow]
    exact h.bounded now (hle.trans hnow)
  · obtain ⟨hadmitted, hnever⟩ := h.refused hno
    exact ⟨hadmitted, fun k hk => hnever k (Option.filter_eq_some_iff.mp hk).1⟩

/-- The counter grows and never expires. -/
theorem Counted.failed (hroom : quotaValue s.key c.1 + c.2.toNat ≤ limit.toNat)
    (hexpire : expire windowSeconds = false) :
    Counted expire windowSeconds limit c.1 (s.call expire windowSeconds limit c) := by
  obtain ⟨hadmitted, hnever⟩ := h.refused hexpire
  have hkey : (liveQuota s.key c.1).bind (·.expireAt) = none := by
    cases hlive : liveQuota s.key c.1 with
    | none => rfl
    | some k => exact hnever k (Option.filter_eq_some_iff.mp hlive).1
  have hforever : ∀ now, quotaValue (some ⟨quotaValue s.key c.1 + c.2.toNat, none⟩) now =
      quotaValue s.key c.1 + c.2.toNat := fun now => quotaValue_some _ now
  rw [QuotaRun.call_failed hroom hexpire, hkey]
  refine ⟨h.newest.later hle, fun now _ => ?_, fun now _ => ?_, fun hyes => ?_, fun _ => ?_⟩
  · rw [hforever, h.value c.1 hle, hadmitted, RateLimit.total_cons]
    unfold RateLimit.chain
    rw [RateLimit.total_nil]
    omega
  · rw [hforever]
    exact hroom
  · rw [hexpire] at hyes
    cases hyes
  · refine ⟨hadmitted, fun k hk => ?_⟩
    rw [← Option.some.inj hk]

theorem Counted.admit (hroom : quotaValue s.key c.1 + c.2.toNat ≤ limit.toNat)
    (hexpire : expire windowSeconds = true) :
    Counted expire windowSeconds limit c.1 (s.call expire windowSeconds limit c) := by
  have hnone := h.accepted hexpire
  have hvalue := h.value c.1 hle
  rw [hnone, RateLimit.total_nil, Nat.add_zero] at hvalue
  rw [QuotaRun.call_admitted hroom hexpire]
  refine ⟨⟨le_rfl, h.newest.later hle⟩, fun now hnow => ?_, fun now _ => ?_, fun _ => hnone,
    fun hno => ?_⟩
  · rw [hnone, RateLimit.total_nil, Nat.add_zero]
    unfold RateLimit.chain
    by_cases hzero : windowSeconds = 0
    · have hover : ¬ now < c.1 + windowMillis windowSeconds := by
        rw [hzero]
        show ¬ now < c.1 + 0 * 1000
        omega
      rw [if_neg hover, if_pos hzero]
      rfl
    · rw [if_neg hzero, quotaValue_some]
      unfold QuotaKey.live
      simp only [decide_eq_true_eq]
      split_ifs with hgap
      · rw [hvalue, RateLimit.total_cons]
        omega
      · rfl
  · split_ifs
    · exact Nat.zero_le _
    · rw [quotaValue_some]
      split_ifs
      · exact hroom
      · exact Nat.zero_le _
  · rw [hexpire] at hno
    cases hno

theorem Counted.call : Counted expire windowSeconds limit c.1 (s.call expire windowSeconds limit c) := by
  by_cases hroom : quotaValue s.key c.1 + c.2.toNat ≤ limit.toNat
  · cases hexpire : expire windowSeconds with
    | false => exact h.failed hle hroom hexpire
    | true => exact h.admit hle hroom hexpire
  · exact h.rejected hle hroom

end call

theorem counted_run {calls : List (ℤ × UInt32)} {now : ℤ}
    (hsorted : (calls.map Prod.fst ++ [now]).Pairwise (· ≤ ·)) :
    Counted expire windowSeconds limit now (runQuota expire windowSeconds limit calls) := by
  obtain ⟨last, hle, h⟩ :=
    RateLimit.foldl_clock (fun _ _ _ h hle => h.call hle) hsorted (@counted_start expire windowSeconds limit)
  exact ⟨h.newest.later hle, fun t ht => h.value t (hle.trans ht),
    fun t ht => h.bounded t (hle.trans ht), h.accepted, h.refused⟩

/-- The calls counted are within the limit in every interval of the window's length. -/
structure Limited (expire : UInt64 → Bool) (windowSeconds : UInt64) (limit : UInt32) (last : ℤ)
    (s : QuotaRun) : Prop extends Counted expire windowSeconds limit last s where
  within : ∀ start, RateLimit.costWithin (windowMillis windowSeconds) start s.admitted ≤ limit.toNat

/-- The calls of the last window are among those that the counter counts. -/
theorem Counted.recent_le {last : ℤ} {s : QuotaRun}
    (h : Counted expire windowSeconds limit last s) :
    RateLimit.total (RateLimit.recent (windowMillis windowSeconds) last s.admitted) ≤
      limit.toNat := by
  have hvalue := h.value last le_rfl
  have hbounded := h.bounded last le_rfl
  rw [← RateLimit.recent_chain _ h.newest le_rfl]
  calc RateLimit.total (RateLimit.recent (windowMillis windowSeconds) last
        (RateLimit.chain (windowMillis windowSeconds) last s.admitted))
      ≤ RateLimit.total (RateLimit.chain (windowMillis windowSeconds) last s.admitted) :=
        RateLimit.total_filter_le _ _
    _ ≤ limit.toNat := by omega

theorem Limited.call {last : ℤ} {s : QuotaRun} {c : ℤ × UInt32}
    (h : Limited expire windowSeconds limit last s) (hle : last ≤ c.1) :
    Limited expire windowSeconds limit c.1 (s.call expire windowSeconds limit c) := by
  have hcounted := h.toCounted.call hle
  refine ⟨hcounted, fun start => ?_⟩
  have hrecent := hcounted.recent_le
  by_cases hroom : quotaValue s.key c.1 + c.2.toNat ≤ limit.toNat
  · cases hexpire : expire windowSeconds with
    | false =>
        rw [QuotaRun.call_failed hroom hexpire]
        exact h.within start
    | true =>
        rw [QuotaRun.call_admitted hroom hexpire] at hrecent ⊢
        exact RateLimit.costWithin_cons_le start (h.within start) hrecent
  · rw [QuotaRun.call_rejected hroom]
    exact h.within start

end counts

/-! ### The bound -/

/-- **The quota is never exceeded**: the calls that return true in any half-open interval of the
window's length cost at most the limit. -/
theorem quota_never_exceeded (expire : UInt64 → Bool) (windowSeconds : UInt64) (limit : UInt32)
    (calls : List (ℤ × UInt32)) (hsorted : (calls.map Prod.fst).Pairwise (· ≤ ·)) (start : ℤ) :
    RateLimit.costWithin (windowMillis windowSeconds) start
      (runQuota expire windowSeconds limit calls).admitted ≤ limit.toNat := by
  have hlimited : ∀ last, Limited expire windowSeconds limit last ⟨[], [], none⟩ := fun last =>
    ⟨counted_start last, fun _ => Nat.zero_le _⟩
  obtain ⟨last, h⟩ := RateLimit.foldl_sorted (fun _ _ _ h hle => h.call hle) hsorted hlimited
  exact h.within start

/-- Three calls within a minute: two are admitted, and the interval holds no more than the limit. -/
theorem threeCalls_within : RateLimit.costWithin (windowMillis 60) 0
    (runQuota (fun _ => true) 60 2 [(0, 1), (30000, 1), (59999, 1)]).admitted ≤ 2 :=
  quota_never_exceeded (fun _ => true) 60 2 [(0, 1), (30000, 1), (59999, 1)] (by decide) 0

/-! ### Fairness -/

section fairness

variable (expire : UInt64 → Bool) (windowSeconds : UInt64) (limit : UInt32)

theorem allowFixedWindow_rejects (key : Option QuotaKey) (now : ℤ) (cost : UInt32) :
    (allowFixedWindow expire windowSeconds limit key now cost).1 = some false ↔
      limit.toNat < quotaValue key now + cost.toNat := by
  unfold allowFixedWindow
  dsimp only
  by_cases hroom : quotaValue key now + cost.toNat ≤ limit.toNat
  · rw [if_pos hroom]
    refine iff_of_false ?_ (by omega)
    cases expire windowSeconds with
    | true => exact fun h => by cases h
    | false => exact fun h => by cases h
  · rw [if_neg hroom]
    exact iff_of_true rfl (by omega)

theorem fair_iff_nothingStale {s : QuotaRun} {now : ℤ}
    (h : Counted expire windowSeconds limit now s) :
    FairAt expire windowSeconds limit s now ↔ NothingStale windowSeconds s now := by
  have hvalue := h.value now le_rfl
  have hbounded := h.bounded now le_rfl
  have hstale := RateLimit.total_le_recent_iff (windowMillis windowSeconds) now
    (RateLimit.chain (windowMillis windowSeconds) now s.admitted)
  have hpart := RateLimit.total_filter_le (fun a => now < a.1 + windowMillis windowSeconds)
    (RateLimit.chain (windowMillis windowSeconds) now s.admitted)
  have hrecent := RateLimit.recent_chain (windowMillis windowSeconds) h.newest le_rfl
  unfold FairAt
  simp only [allowFixedWindow_rejects]
  rw [hrecent] at hstale
  unfold RateLimit.recent at hrecent hstale ⊢
  rw [hrecent] at hpart
  constructor
  · intro hfair
    -- the cheapest call that is rejected decides
    have hcounted : quotaValue s.key now ≤ RateLimit.total
        (s.admitted.filter fun a => now < a.1 + windowMillis windowSeconds) := by
      by_contra hmore
      have hlimit := limit.toNat_lt
      have hcost : (UInt32.ofNat (limit.toNat - quotaValue s.key now + 1)).toNat =
          limit.toNat - quotaValue s.key now + 1 := by
        refine UInt32.toNat_ofNat_of_lt' ?_
        show _ < 4294967296
        omega
      have hjustified := hfair (UInt32.ofNat (limit.toNat - quotaValue s.key now + 1))
      rw [hcost] at hjustified
      omega
    refine ⟨hstale.mp (by omega), ?_⟩
    rw [← RateLimit.total_eq_zero_iff]
    omega
  · rintro ⟨hfresh, hfailed⟩ cost hrejected
    have hchain := hstale.mpr hfresh
    rw [← RateLimit.total_eq_zero_iff] at hfailed
    omega

/-- **When the quota is fair**: after any calls, at any later time, exactly when nothing older than
the window is counted. -/
theorem fixed_window_fair_iff (calls : List (ℤ × UInt32)) (now : ℤ)
    (hsorted : (calls.map Prod.fst ++ [now]).Pairwise (· ≤ ·)) :
    FairAt expire windowSeconds limit (runQuota expire windowSeconds limit calls) now ↔
      NothingStale windowSeconds (runQuota expire windowSeconds limit calls) now :=
  fair_iff_nothingStale expire windowSeconds limit (counted_run hsorted)

end fairness

/-! ### Steady traffic -/

/-- A server that takes every expiry up to a century. -/
def sampleExpire (windowSeconds : UInt64) : Bool := windowSeconds ≤ 3153600000

/-- Two calls within a minute use up a limit of two. -/
theorem burst_fair :
    FairAt sampleExpire 60 2 (runQuota sampleExpire 60 2 [(0, 1), (1000, 1)]) 2000 := by
  refine (fixed_window_fair_iff sampleExpire 60 2 [(0, 1), (1000, 1)] 2000 (by decide)).mpr ⟨?_, ?_⟩
  · decide +kernel
  · decide +kernel

/-- A call every forty seconds: the third one is rejected, with one call in the last minute. -/
theorem steadyTraffic_unfair :
    ¬ ∀ (expire : UInt64 → Bool) (windowSeconds : UInt64) (limit : UInt32)
      (calls : List (ℤ × UInt32)) (now : ℤ), (calls.map Prod.fst ++ [now]).Pairwise (· ≤ ·) →
      FairAt expire windowSeconds limit (runQuota expire windowSeconds limit calls) now := by
  intro h
  have hjustified := h sampleExpire 60 2 [(0, 1), (40000, 1)] 80000 (by decide) 1 (by decide +kernel)
  revert hjustified
  decide +kernel

end MiniSiem
