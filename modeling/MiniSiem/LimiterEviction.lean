import MiniSiem.FloodLimiter
import MiniSiem.Lib.MachineInt
import MiniSiem.Lib.Unwinding

/-! # Eviction of idle buckets

The cleanup tick of `consume_logs` (`queue/kafka.rs`), which drops the buckets of the addresses that have
not been seen for a while.

* **Idle.**  A bucket is dropped after more than four windows, and at least a minute.  By then it is
  not blocked any more and the next refill fills it up, so a new bucket does the same.
* **Relation.**  `Alike` relates what a run with ticks and one without hold for an address;
  `decisions_without_ticks`: both judge every log alike.
* **Clock.**  The times do not decrease, and none is before the epoch: `Utc::now`, which both arms
  read, panics there. -/

namespace MiniSiem

def FloodEvent.nowMs : FloodEvent → Int64
  | .cleanup nowMs => nowMs
  | .message _ nowMs _ => nowMs

def FloodEvent.isMessage : FloodEvent → Bool
  | .cleanup _ => false
  | .message _ _ _ => true

/-- The judgements of the logs in order, from empty buckets. -/
def decisions (pexpire : UInt64 → Bool) (settings : LimiterSettings) (keys : String → Option LimiterKey)
    (events : List FloodEvent) : List Judgement :=
  (Unwinding.replies (judge pexpire settings) events ⟨fun _ => none, keys⟩).filterMap id

/-! ### One bucket -/

namespace LocalRateLimitState

section bucket

variable {settings : LimiterSettings} {b b' : LocalRateLimitState} {clock : ℤ} {nowMs : Int64}

/-- What holds of the bucket of an address until the clock, without rounding. -/
structure Tracked (settings : LimiterSettings) (b : LocalRateLimitState) (clock : ℤ) : Prop where
  capacity : b.capacity = (max settings.perIp.toUInt32 1).toNat
  rate : b.refillPerMs = b.capacity / (max settings.windowMs 1).toNat
  tokens : 0 ≤ b.tokens
  refilled : 0 ≤ b.lastRefillMs.toInt ∧ b.lastRefillMs.toInt ≤ b.lastSeenMs.toInt
  seen : b.lastSeenMs.toInt ≤ clock
  blocked : b.blockedUntilMs.toInt ≤ b.lastSeenMs.toInt + settings.windowMs.toNat

/-- The bucket is not blocked, and the next refill fills it up. -/
structure Idle (settings : LimiterSettings) (b : LocalRateLimitState) (clock : ℤ) : Prop extends
    Tracked settings b clock where
  free : b.blockedUntilMs.toInt ≤ clock
  past : b.lastRefillMs.toInt < clock
  full : b.capacity ≤ b.tokens + (clock - b.lastRefillMs.toInt) * b.refillPerMs

/-- The buckets differ at most in the end of a block that is over. -/
def Same (b b' : LocalRateLimitState) (clock : ℤ) : Prop :=
  ∃ ended, b = { b' with blockedUntilMs := ended } ∧
    (ended = b'.blockedUntilMs ∨ ended.toInt ≤ clock ∧ b'.blockedUntilMs.toInt ≤ clock)

theorem Same.refl (b : LocalRateLimitState) (clock : ℤ) : b.Same b clock := ⟨_, rfl, Or.inl rfl⟩

theorem Same.later (h : b.Same b' clock) {later : ℤ} (hle : clock ≤ later) : b.Same b' later :=
  h.imp fun _ h => ⟨h.1, h.2.imp_right fun h => ⟨h.1.trans hle, h.2.trans hle⟩⟩

theorem Tracked.later (h : b.Tracked settings clock) {later : ℤ} (hle : clock ≤ later) :
    b.Tracked settings later := { h with seen := h.seen.trans hle }

theorem Tracked.rate_nonneg (h : b.Tracked settings clock) : 0 ≤ b.refillPerMs := by
  rw [h.rate, h.capacity]
  positivity

theorem Idle.later (h : b.Idle settings clock) {later : ℤ} (hle : clock ≤ later) :
    b.Idle settings later := by
  have hflow : ((clock : ℚ) - b.lastRefillMs.toInt) * b.refillPerMs ≤
      (later - b.lastRefillMs.toInt) * b.refillPerMs := by
    have hcast : (clock : ℚ) ≤ later := by exact_mod_cast hle
    gcongr
    exact h.rate_nonneg
  exact ⟨h.toTracked.later hle, h.free.trans hle, h.past.trans_le hle, h.full.trans (by linarith)⟩

theorem new_tracked (hround : ∀ q, settings.round q = q) (hnow : 0 ≤ nowMs.toInt) :
    (new settings.round settings.perIp.toUInt32 settings.windowMs nowMs).Tracked settings
      nowMs.toInt := by
  refine ⟨rfl, ?_, Nat.cast_nonneg _, ⟨hnow, le_rfl⟩, le_rfl, ?_⟩
  · unfold new
    simp only [hround]
  · show (0 : ℤ) ≤ nowMs.toInt + settings.windowMs.toNat
    omega

theorem Tracked.touch (h : b.Tracked settings clock) (hle : clock ≤ nowMs.toInt) :
    (b.touch nowMs).Tracked settings nowMs.toInt :=
  { h with
    refilled := ⟨h.refilled.1, (h.refilled.2.trans h.seen).trans hle⟩
    seen := le_rfl
    blocked := h.blocked.trans (add_le_add_left (h.seen.trans hle) _) }

theorem Tracked.refill (hround : ∀ q, settings.round q = q) (h : b.Tracked settings nowMs.toInt)
    (hseen : b.lastSeenMs = nowMs) : (b.refill settings.round nowMs).Tracked settings nowMs.toInt := by
  unfold LocalRateLimitState.refill
  split_ifs with hold
  · exact h
  · rw [Int64.le_iff_toInt_le, not_le] at hold
    have helapsed : (0 : ℚ) ≤ (nowMs - b.lastRefillMs).toInt := by
      rw [toInt_sub_of_le h.refilled.1 hold.le]
      exact_mod_cast sub_nonneg.mpr hold.le
    refine { h with tokens := ?_, refilled := ⟨h.refilled.1.trans hold.le, hseen ▸ le_rfl⟩ }
    simp only [hround]
    exact le_min (add_nonneg h.tokens (mul_nonneg helapsed h.rate_nonneg))
      (h.capacity ▸ Nat.cast_nonneg _)

theorem Tracked.allow (hround : ∀ q, settings.round q = q) (h : b.Tracked settings clock)
    (hle : clock ≤ nowMs.toInt) : (b.allow settings.round nowMs).2.Tracked settings nowMs.toInt := by
  have htouch := h.touch hle
  have hrefill := htouch.refill hround rfl
  unfold LocalRateLimitState.allow
  dsimp only
  split_ifs with hblocked htoken
  · exact htouch
  · exact { hrefill with tokens := by rw [hround]; linarith }
  · exact hrefill

theorem Tracked.reset (h : b.Tracked settings clock) :
    ({ b with tokens := 0 } : LocalRateLimitState).Tracked settings clock :=
  { h with tokens := le_rfl }

theorem toInt_toInt64 (n : UInt64) : n.toInt64.toInt = (n.toNat : ℤ).bmod (2 ^ 64) :=
  BitVec.toInt_eq_toNat_bmod _

theorem Tracked.blockFor (h : b.Tracked settings clock) (hle : clock ≤ nowMs.toInt) :
    (b.blockFor nowMs settings.windowMs).Tracked settings nowMs.toInt := by
  refine { (h.reset.touch hle) with blocked := ?_ }
  have hpast : 0 ≤ nowMs.toInt := h.refilled.1.trans ((h.refilled.2.trans h.seen).trans hle)
  show (nowMs + settings.windowMs.toInt64).toInt ≤ nowMs.toInt + settings.windowMs.toNat
  rw [Int64.toInt_add, toInt_toInt64, Int.bmod_def, Int.bmod_def]
  split_ifs <;> omega

/-- A block that is over does not show. -/
theorem Same.allow (round : ℚ → ℚ) (h : b.Same b' clock) (hle : clock ≤ nowMs.toInt) :
    (b.allow round nowMs).1 = (b'.allow round nowMs).1 ∧
      (b.allow round nowMs).2.Same (b'.allow round nowMs).2 nowMs.toInt := by
  obtain ⟨ended, rfl, rfl | ⟨hended, hended'⟩⟩ := h
  · exact ⟨rfl, .refl _ _⟩
  · have hfree : ¬ nowMs < ended := by
      rw [Int64.lt_iff_toInt_lt]
      exact not_lt.mpr (hended.trans hle)
    have hfree' : ¬ nowMs < b'.blockedUntilMs := by
      rw [Int64.lt_iff_toInt_lt]
      exact not_lt.mpr (hended'.trans hle)
    unfold LocalRateLimitState.allow touch LocalRateLimitState.refill
    dsimp only
    rw [if_neg hfree, if_neg hfree']
    split_ifs <;> exact ⟨rfl, ended, rfl, Or.inr ⟨hended.trans hle, hended'.trans hle⟩⟩

/-- A bucket that is not blocked and that the refill fills up lets a call pass. -/
theorem allow_full {round : ℚ → ℚ} (hfree : b.blockedUntilMs.toInt ≤ nowMs.toInt)
    (hfilled : (b.touch nowMs).refill round nowMs =
      { b with tokens := b.capacity, lastRefillMs := nowMs, lastSeenMs := nowMs })
    (htoken : 1 ≤ b.capacity) :
    b.allow round nowMs = (true, { b with
      tokens := round (b.capacity - 1), lastRefillMs := nowMs, lastSeenMs := nowMs }) := by
  have hpassed : ¬ nowMs < (b.touch nowMs).blockedUntilMs := by
    rw [Int64.lt_iff_toInt_lt]
    exact not_lt.mpr hfree
  unfold LocalRateLimitState.allow
  simp only [hfilled]
  rw [if_neg hpassed, if_pos htoken]

/-- The next refill fills an idle bucket up. -/
theorem Idle.refill (hround : ∀ q, settings.round q = q) (h : b.Idle settings nowMs.toInt) :
    (b.touch nowMs).refill settings.round nowMs =
      { b with tokens := b.capacity, lastRefillMs := nowMs, lastSeenMs := nowMs } := by
  have hpast : ¬ nowMs ≤ (b.touch nowMs).lastRefillMs := by
    rw [Int64.le_iff_toInt_le]
    exact not_le.mpr h.past
  have hfull : b.capacity ≤ b.tokens + ((nowMs - b.lastRefillMs).toInt : ℚ) * b.refillPerMs := by
    rw [toInt_sub_of_le h.refilled.1 h.past.le]
    push_cast
    exact h.full
  unfold LocalRateLimitState.refill
  rw [if_neg hpast]
  simp only [hround]
  exact congrArg (fun tokens => ({ b with tokens, lastRefillMs := nowMs, lastSeenMs := nowMs } :
    LocalRateLimitState)) (min_eq_right hfull)

/-- An idle bucket does what a new one does. -/
theorem Idle.allow (hround : ∀ q, settings.round q = q) (h : b.Idle settings clock)
    (hle : clock ≤ nowMs.toInt) :
    ((new settings.round settings.perIp.toUInt32 settings.windowMs nowMs).allow settings.round nowMs).1 =
        (b.allow settings.round nowMs).1 ∧
      ((new settings.round settings.perIp.toUInt32 settings.windowMs nowMs).allow
          settings.round nowMs).2.Same (b.allow settings.round nowMs).2 nowMs.toInt := by
  have hidle := h.later hle
  have hepoch : 0 ≤ nowMs.toInt := h.refilled.1.trans hidle.past.le
  have htoken : (1 : ℚ) ≤ (max settings.perIp.toUInt32 1).toNat := by
    rw [max_one_toNat]
    exact_mod_cast le_max_right _ _
  have hfilled : ((new settings.round settings.perIp.toUInt32 settings.windowMs nowMs).touch
      nowMs).refill settings.round nowMs =
        new settings.round settings.perIp.toUInt32 settings.windowMs nowMs :=
    if_pos (Int64.le_refl nowMs)
  rw [allow_full hidle.free (hidle.refill hround) (h.capacity ▸ htoken),
    allow_full (b := new settings.round settings.perIp.toUInt32 settings.windowMs nowMs) hepoch hfilled htoken]
  refine ⟨rfl, 0, ?_, Or.inr ⟨hepoch, hidle.free⟩⟩
  unfold new
  simp only [h.capacity, h.rate, hround]

theorem window_toNat (windowMs : UInt64) : (max windowMs 1).toNat = max windowMs.toNat 1 :=
  MachineInt.toNat_uint64_max windowMs 1

/-- A bucket that the tick drops is idle. -/
theorem Tracked.idle (hwindow : settings.windowMs.toNat < 2 ^ 61) (h : b.Tracked settings clock)
    (hepoch : 0 ≤ nowMs.toInt)
    (hdropped : ¬ saturateI64 (nowMs.toInt - b.lastSeenMs.toInt) ≤
      max (saturateI64 (settings.windowMs.toInt64.toInt * 4)) 60000) :
    b.Idle settings nowMs.toInt := by
  have hlimit : settings.windowMs.toInt64.toInt = settings.windowMs.toNat := by
    rw [toInt_toInt64]
    exact Int.bmod_eq_of_le (by omega) (by omega)
  rw [hlimit] at hdropped
  have hnow := nowMs.toInt_lt
  obtain ⟨hfirst, hlast⟩ := h.refilled
  have hgap : max (settings.windowMs.toNat * 4 : ℤ) 60000 < nowMs.toInt - b.lastSeenMs.toInt := by
    unfold saturateI64 at hdropped
    omega
  have hwindows : ((max settings.windowMs 1).toNat : ℚ) ≤ nowMs.toInt - b.lastRefillMs.toInt := by
    have hcast : ((max settings.windowMs 1).toNat : ℤ) ≤ nowMs.toInt - b.lastRefillMs.toInt := by
      rw [window_toNat]
      omega
    exact_mod_cast hcast
  have hpositive : (0 : ℚ) < (max settings.windowMs 1).toNat := by
    rw [window_toNat]
    exact_mod_cast lt_max_of_lt_right Nat.one_pos
  have hblocked := h.blocked
  refine ⟨{ h with seen := by omega }, by omega, by omega, ?_⟩
  have hrefill : b.capacity ≤ (nowMs.toInt - b.lastRefillMs.toInt) * b.refillPerMs := by
    rw [h.rate, mul_div_assoc', le_div_iff₀ hpositive, mul_comm]
    exact mul_le_mul_of_nonneg_right hwindows (h.capacity ▸ Nat.cast_nonneg _)
  linarith [h.tokens]

end bucket

end LocalRateLimitState

/-! ### The runs with and without ticks -/

section runs

open LocalRateLimitState

variable {pexpire : UInt64 → Bool} {settings : LimiterSettings}

/-- What a run with ticks and one without hold for an address. -/
inductive Alike (settings : LimiterSettings) (clock : ℤ) :
    Option LocalRateLimitState → Option LocalRateLimitState → Prop
  | absent : Alike settings clock none none
  | kept {b b' : LocalRateLimitState} (htracked : b'.Tracked settings clock) (hsame : b.Same b' clock) :
      Alike settings clock (some b) (some b')
  | dropped {b' : LocalRateLimitState} (hidle : b'.Idle settings clock) : Alike settings clock none (some b')

theorem Alike.later {clock later : ℤ} {x y : Option LocalRateLimitState} (h : Alike settings clock x y)
    (hle : clock ≤ later) : Alike settings later x y := by
  cases h with
  | absent => exact .absent
  | kept htracked hsame => exact .kept (htracked.later hle) (hsame.later hle)
  | dropped hidle => exact .dropped (hidle.later hle)

/-- The first step of a log: the bucket, which may be new, is asked for a token. -/
theorem Alike.allow (hround : ∀ q, settings.round q = q) {clock : ℤ} {nowMs : Int64}
    {x y : Option LocalRateLimitState} (h : Alike settings clock x y) (hepoch : 0 ≤ clock)
    (hle : clock ≤ nowMs.toInt) :
    ((x.getD (.new settings.round settings.perIp.toUInt32 settings.windowMs nowMs)).allow settings.round
          nowMs).1 =
        ((y.getD (.new settings.round settings.perIp.toUInt32 settings.windowMs nowMs)).allow
          settings.round nowMs).1 ∧
      Alike settings nowMs.toInt
        (some ((x.getD (.new settings.round settings.perIp.toUInt32 settings.windowMs nowMs)).allow
          settings.round nowMs).2)
        (some ((y.getD (.new settings.round settings.perIp.toUInt32 settings.windowMs nowMs)).allow
          settings.round nowMs).2) := by
  cases h with
  | absent => exact ⟨rfl, .kept ((new_tracked hround (hepoch.trans hle)).allow hround le_rfl) (.refl _ _)⟩
  | kept htracked hsame =>
      obtain ⟨hallowed, hkept⟩ := hsame.allow settings.round hle
      exact ⟨hallowed, .kept (htracked.allow hround hle) hkept⟩
  | dropped hidle =>
      obtain ⟨hallowed, hkept⟩ := hidle.allow hround hle
      exact ⟨hallowed, .kept (hidle.toTracked.allow hround hle) hkept⟩

theorem alike_update {limits limits' : LocalRateLimits} {clock : ℤ}
    (h : ∀ ip, Alike settings clock (limits ip) (limits' ip)) {x y : Option LocalRateLimitState} {ip : String}
    (hnew : Alike settings clock x y) (other : String) :
    Alike settings clock (Function.update limits ip x other) (Function.update limits' ip y other) := by
  rcases eq_or_ne other ip with rfl | hne
  · rw [Function.update_self, Function.update_self]
    exact hnew
  · rw [Function.update_of_ne hne, Function.update_of_ne hne]
    exact h other

/-- A log is judged alike, and leaves alike buckets. -/
theorem limitLog_alike (hround : ∀ q, settings.round q = q) {limits limits' : LocalRateLimits} {clock : ℤ}
    {nowMs : Int64} (h : ∀ ip, Alike settings clock (limits ip) (limits' ip)) (hepoch : 0 ≤ clock)
    (hle : clock ≤ nowMs.toInt) (log : Log) (redis : Except String Bool) :
    (limitLog settings limits log nowMs redis).1 = (limitLog settings limits' log nowMs redis).1 ∧
      ∀ ip, Alike settings nowMs.toInt ((limitLog settings limits log nowMs redis).2 ip)
        ((limitLog settings limits' log nowMs redis).2 ip) := by
  have hasked := (h log.sourceIp).allow hround hepoch hle
  have hothers := fun ip => (h ip).later hle
  unfold limitLog
  dsimp only
  generalize ((limits log.sourceIp).getD (.new settings.round settings.perIp.toUInt32 settings.windowMs
    nowMs)).allow settings.round nowMs = x at hasked ⊢
  generalize ((limits' log.sourceIp).getD (.new settings.round settings.perIp.toUInt32
    settings.windowMs nowMs)).allow settings.round nowMs = y at hasked ⊢
  obtain ⟨allowed, b⟩ := x
  obtain ⟨allowed', b'⟩ := y
  obtain ⟨hallowed, hkept⟩ := hasked
  dsimp only at hallowed hkept ⊢
  subst hallowed
  cases hkept with
  | kept htracked hsame =>
      cases allowed with
      | true => exact ⟨rfl, alike_update hothers (.kept htracked hsame)⟩
      | false =>
          cases redis with
          | error e => exact ⟨rfl, alike_update hothers (.kept htracked hsame)⟩
          | ok room =>
              obtain ⟨ended, rfl, hended⟩ := hsame
              cases room with
              | true => exact ⟨rfl, alike_update hothers (.kept htracked.reset ⟨ended, rfl, hended⟩)⟩
              | false => exact ⟨rfl, alike_update hothers (.kept (htracked.blockFor le_rfl) (.refl _ _))⟩

/-- A tick drops idle buckets only. -/
theorem cleanupLimits_alike (hwindow : settings.windowMs.toNat < 2 ^ 61) {limits limits' : LocalRateLimits}
    {clock : ℤ} {nowMs : Int64} (h : ∀ ip, Alike settings clock (limits ip) (limits' ip)) (hepoch : 0 ≤ clock)
    (hle : clock ≤ nowMs.toInt) (ip : String) :
    Alike settings nowMs.toInt (cleanupLimits settings limits nowMs ip) (limits' ip) := by
  have hlater := (h ip).later hle
  unfold cleanupLimits
  cases hlimit : limits ip with
  | none =>
      rw [hlimit] at hlater
      exact hlater
  | some b =>
      rw [hlimit] at hlater
      generalize limits' ip = y at hlater
      cases hlater with
      | kept htracked hsame =>
          by_cases hold : saturateI64 (nowMs.toInt - b.lastSeenMs.toInt) ≤
              max (saturateI64 (settings.windowMs.toInt64.toInt * 4)) 60000
          · rw [Option.filter_some, if_pos (decide_eq_true hold)]
            exact .kept htracked hsame
          · rw [Option.filter_some, if_neg (by simpa using hold)]
            obtain ⟨ended, rfl, -⟩ := hsame
            exact .dropped (htracked.idle hwindow (hepoch.trans hle) hold)

/-- The events come in order from the clock on, and the stores are alike. -/
def AlikeBefore (settings : LimiterSettings) (events : List FloodEvent) (s s' : FloodLimiter) : Prop :=
  ∃ clock, 0 ≤ clock ∧ (clock :: events.map fun e => e.nowMs.toInt).Pairwise (· ≤ ·) ∧ s.keys = s'.keys ∧
    ∀ ip, Alike settings clock (s.limits ip) (s'.limits ip)

/-- The clock moves on to the time of the first event. -/
theorem sorted_cons {clock : ℤ} {e : FloodEvent} {events : List FloodEvent}
    (h : (clock :: (e :: events).map fun e => e.nowMs.toInt).Pairwise (· ≤ ·)) :
    clock ≤ e.nowMs.toInt ∧ (e.nowMs.toInt :: events.map fun e => e.nowMs.toInt).Pairwise (· ≤ ·) := by
  rw [List.map_cons] at h
  obtain ⟨hclock, hrest⟩ := List.pairwise_cons.mp h
  exact ⟨hclock _ List.mem_cons_self, hrest⟩

theorem AlikeBefore.message (hround : ∀ q, settings.round q = q) {s s' : FloodLimiter} {e : FloodEvent}
    {events : List FloodEvent} (he : e.isMessage = true) (h : AlikeBefore settings (e :: events) s s') :
    (judge pexpire settings e s).1 = (judge pexpire settings e s').1 ∧
      AlikeBefore settings events (judge pexpire settings e s).2 (judge pexpire settings e s').2 := by
  obtain ⟨clock, hepoch, hsorted, hkeys, halike⟩ := h
  obtain ⟨hle, hrest⟩ := sorted_cons hsorted
  cases e with
  | cleanup nowMs => cases he
  | message log nowMs call =>
      have htoken : tokenFound settings s.limits log.sourceIp nowMs =
          tokenFound settings s'.limits log.sourceIp nowMs :=
        ((halike log.sourceIp).allow hround hepoch hle).1
      have hanswer : windowAnswer pexpire settings s log.sourceIp nowMs call =
          windowAnswer pexpire settings s' log.sourceIp nowMs call := by
        unfold windowAnswer
        rw [htoken, hkeys]
      have hnow : clock ≤ nowMs.toInt := hle
      obtain ⟨hverdict, hlimits⟩ := limitLog_alike hround halike hepoch hnow log
        (windowAnswer pexpire settings s' log.sourceIp nowMs call).1
      unfold judge
      dsimp only
      rw [hanswer, hverdict]
      exact ⟨rfl, nowMs.toInt, hepoch.trans hle, hrest, rfl, hlimits⟩

theorem AlikeBefore.cleanup (hwindow : settings.windowMs.toNat < 2 ^ 61) {s s' : FloodLimiter}
    {e : FloodEvent} {events : List FloodEvent} (he : e.isMessage = false)
    (h : AlikeBefore settings (e :: events) s s') :
    (judge pexpire settings e s).1 = none ∧
      AlikeBefore settings events (judge pexpire settings e s).2 s' := by
  obtain ⟨clock, hepoch, hsorted, hkeys, halike⟩ := h
  obtain ⟨hle, hrest⟩ := sorted_cons hsorted
  cases e with
  | message log nowMs call => cases he
  | cleanup nowMs =>
      exact ⟨rfl, nowMs.toInt, hepoch.trans hle, hrest, hkeys,
        cleanupLimits_alike hwindow halike hepoch hle⟩

end runs

/-- **Eviction does not show**: every log is judged as in the run without the cleanup ticks. -/
theorem decisions_without_ticks (pexpire : UInt64 → Bool) {settings : LimiterSettings}
    (hround : ∀ q, settings.round q = q) (hwindow : settings.windowMs.toNat < 2 ^ 61)
    (keys : String → Option LimiterKey) {events : List FloodEvent}
    (hclock : (0 :: events.map fun e => e.nowMs.toInt).Pairwise (· ≤ ·)) :
    decisions pexpire settings keys events =
      decisions pexpire settings keys (events.filter (·.isMessage)) := by
  unfold decisions
  rw [← Unwinding.thin_eq_filter]
  have halike : AlikeBefore settings events ⟨fun _ => none, keys⟩ ⟨fun _ => none, keys⟩ :=
    ⟨0, le_rfl, hclock, rfl, fun _ => .absent⟩
  exact Unwinding.filterMap_replies_thin _ (fun _ _ _ _ => AlikeBefore.message hround)
    (fun _ _ _ _ => AlikeBefore.cleanup hwindow) halike

/-- An address that comes back after its bucket was dropped. -/
def returningLogs : List FloodEvent :=
  [.message (floodLog "acme") 1700000000000 ⟨1700000000000, .answered⟩, .cleanup 1700000060001,
    .message (floodLog "acme") 1700000060002 ⟨1700000060002, .answered⟩]

theorem returningLogs_without_ticks :
    decisions (fun _ => true) (oneASecond id) (fun _ => none) returningLogs =
      decisions (fun _ => true) (oneASecond id) (fun _ => none) (returningLogs.filter (·.isMessage)) :=
  decisions_without_ticks (fun _ => true) (fun _ => rfl) (by decide) (fun _ => none) (by decide)

end MiniSiem
