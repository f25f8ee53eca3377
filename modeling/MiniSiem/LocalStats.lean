import MiniSiem.Engine
import MiniSiem.StatsSync
import MiniSiem.Lib.Carrying
import MiniSiem.Lib.MachineInt

/-! # Local statistics

`LocalStats` of `detection/engine.rs` and the task that flushes it to Redis every second.

* **Counters.**  Each of the four is an atomic of its own; an increment and a swap are one command each.
  `increments` counts beside them how often each has been incremented.
* **Redis.**  The rest of the system changes the cache at any time, so each command finds a cache of its own.
  `added` sums what the commands of the flush task add to the number under the key of a counter.
* **Conservation.**  What the task has taken and is about to send is what its program carries.
  `conserved_iff_lossless`: no count is lost in any state reached exactly when no counter wraps and
  Redis accepts every amount that is sent. -/

namespace MiniSiem

open Atomic

/-- The four atomics, and what has been counted beside them. -/
structure LocalCounters where
  counters : StatsCounter → UInt64
  increments : StatsCounter → ℕ
  added : StatsCounter → ℤ

def LocalCounters.new : LocalCounters := ⟨fun _ => 0, fun _ => 0, fun _ => 0⟩

inductive LocalCmd
  | fetchAdd (counter : StatsCounter)
  | swap (counter : StatsCounter)
  | redis (c : StatsCmd)
deriving DecidableEq

abbrev LocalCmd.Reply : LocalCmd → Type
  | fetchAdd _ => UInt64
  | swap _ => UInt64
  | redis c => c.Reply

abbrev LocalProg := Prog LocalCmd LocalCmd.Reply

def LocalProg.ofStats {α : Type} : StatsProg α → LocalProg α
  | .ret a => .ret a
  | .call c k => .call (.redis c) fun r => ofStats (k r)

/-- The key holds no value, or a number with room for the amount. -/
def RedisCache.HasRoom (c : RedisCache) (now : DateTime) (key : String) (delta : ℤ) : Prop :=
  ∀ e ∈ c.live now key, ∃ n, e.value = .int n ∧ FitsInt64 n ∧ FitsInt64 (n + delta)

namespace StatsRead

/-- The cache after a command. -/
def after (found : StatsRead) (c : StatsCmd) : RedisCache :=
  (execStats found.tick c ⟨found.cache, fun _ => none⟩).2.cache

/-- What a command adds to the number under a key. -/
def growth (found : StatsRead) (c : StatsCmd) (key : String) : ℤ :=
  ((found.after c).count found.tick.clock key).getD 0 - (found.cache.count found.tick.clock key).getD 0

/-- Redis answers, and there is room for the amount. -/
def Accepts (found : StatsRead) (key : String) (delta : Int64) : Prop :=
  found.tick.fault = none ∧ found.cache.HasRoom found.tick.clock key delta.toInt

end StatsRead

/-- The effect of a command. -/
def execLocal (found : StatsRead) : (c : LocalCmd) → LocalCounters → c.Reply × LocalCounters
  | .fetchAdd counter, s =>
      (s.counters counter,
        { s with
          counters := Function.update s.counters counter (s.counters counter + 1)
          increments := Function.update s.increments counter (s.increments counter + 1) })
  | .swap counter, s => (s.counters counter, { s with counters := Function.update s.counters counter 0 })
  | .redis c, s =>
      ((execStats found.tick c ⟨found.cache, fun _ => none⟩).1,
        { s with added := fun counter => s.added counter + found.growth c (syncKey counter) })

theorem LocalCmd.reply_nonempty (c : LocalCmd) : Nonempty c.Reply :=
  ⟨(execLocal ⟨⟨fun _ => none, fun _ => none⟩, { clock := .ofSeconds 0 }⟩ c .new).1⟩

/-! ### The programs -/

/-- `incr_log`. -/
def incrLog : LocalProg Unit := .call (.fetchAdd .totalLogs) fun _ => .ret ()

/-- `incr_alert`. -/
def incrAlert (isCritical : Bool) : LocalProg Unit :=
  .call (.fetchAdd .totalAlerts) fun _ => .call (.fetchAdd .activeAlerts) fun _ =>
    if isCritical then .call (.fetchAdd .criticalAlerts) fun _ => .ret () else .ret ()

/-- `take_and_reset`. -/
def takeAndReset : LocalProg (UInt64 × UInt64 × UInt64 × UInt64) :=
  .call (.swap .totalLogs) fun tl => .call (.swap .totalAlerts) fun ta =>
    .call (.swap .activeAlerts) fun aa => .call (.swap .criticalAlerts) fun ca => .ret (tl, ta, aa, ca)

/-- One week. -/
def statsExpiry : UInt64 := 60 * 60 * 24 * 7

/-- An amount above zero is sent, and the result is dropped. -/
def sendCount (counter : StatsCounter) (amount : UInt64) : LocalProg Unit :=
  if amount > 0 then
    (LocalProg.ofStats (Counters.incrBy (syncKey counter) amount statsExpiry)).bind fun _ => .ret ()
  else .ret ()

/-- One round of the flush task. -/
def flushStats : LocalProg Unit :=
  takeAndReset.bind fun (tl, ta, aa, ca) =>
    (sendCount .totalLogs tl).bind fun _ => (sendCount .totalAlerts ta).bind fun _ =>
      (sendCount .activeAlerts aa).bind fun _ => sendCount .criticalAlerts ca

/-- The flush task, for a number of rounds. -/
def flushLoop : ℕ → LocalProg Unit
  | 0 => .ret ()
  | rounds + 1 => flushStats.bind fun _ => flushLoop rounds

inductive LocalCall
  | incrLog
  | incrAlert (isCritical : Bool)

def LocalCall.prog : LocalCall → LocalProg Unit
  | incrLog => MiniSiem.incrLog
  | incrAlert isCritical => MiniSiem.incrAlert isCritical

/-- The flush task beside any calls. -/
abbrev LocalPool (ι : Type) := Pool (Option ι) LocalCmd LocalCmd.Reply Unit LocalCounters

def localPool {ι : Type} (rounds : ℕ) (calls : ι → LocalCall) : LocalPool ι where
  progs := fun
    | none => flushLoop rounds
    | some i => (calls i).prog
  store := .new

/-- What has been counted, as the engine has it. -/
def LocalCounters.counted (s : LocalCounters) : LocalStats :=
  ⟨s.increments .totalLogs, s.increments .totalAlerts, s.increments .activeAlerts,
    s.increments .criticalAlerts⟩

/-- Alone, the calls count as the engine does. -/
theorem incrLog_run (found : StatsRead) (s : LocalCounters) :
    (incrLog.run (execLocal found) s).2.counted = s.counted.incrLog := rfl

theorem incrAlert_run (isCritical : Bool) (found : StatsRead) (s : LocalCounters) :
    ((incrAlert isCritical).run (execLocal found) s).2.counted = s.counted.incrAlert isCritical := by
  cases isCritical with
  | true => rfl
  | false => rfl

/-! ### Conservation -/

/-- What a command takes from the counters; an amount that is sent counts negative, whether or not Redis
accepts it. -/
def LocalCmd.moves : (c : LocalCmd) → c.Reply → StatsCounter → ℤ
  | .swap counter, amount => Pi.single counter amount.toNat
  | .redis (.incrBy key delta), _ => fun counter => if syncKey counter = key then -delta.toUInt64.toNat else 0
  | _, _ => 0

/-- What the flush task has taken and is about to send. -/
abbrev LocalProg.Carries (p : LocalProg Unit) (amounts : StatsCounter → ℤ) : Prop :=
  Prog.Carries LocalCmd.moves (fun _ => 0) amounts p

/-- Every increment is in Redis, in its counter, or about to be sent. -/
def Conserved {ι : Type} (s : LocalPool ι) : Prop :=
  ∃ carried, LocalProg.Carries (s.progs none) carried ∧ ∀ counter,
    (s.store.increments counter : ℤ) =
      s.store.added counter + (s.store.counters counter).toNat + carried counter

/-- No counter is incremented beyond a `u64`; an amount that is sent fits an `i64`, and Redis accepts it. -/
def LocalCounters.Keeps (s : LocalCounters) (found : StatsRead) : LocalCmd → Prop
  | .fetchAdd counter => s.counters counter ≠ 18446744073709551615
  | .redis (.incrBy key delta) => 0 ≤ delta.toInt ∧ found.Accepts key delta
  | _ => True

def Lossless {ι : Type} (s : LocalPool ι) (e : Option ι × StatsRead) : Prop :=
  ∀ c, (s.progs e.1).next = some c → s.store.Keeps e.2 c

/-! ### Redis -/

theorem syncKey_inj {counter counter' : StatsCounter} :
    syncKey counter = syncKey counter' ↔ counter = counter' := by
  constructor
  · intro h
    have htext : (syncKey counter).toList = (syncKey counter').toList := congrArg String.toList h
    revert htext
    cases counter <;> cases counter' <;> decide
  · exact congrArg syncKey

section redis

variable {c c' : RedisCache} {now : DateTime} {found : StatsRead} {key : String}

theorem count_congr (now : DateTime) (h : c'.keys key = c.keys key) : c'.count now key = c.count now key := by
  unfold RedisCache.count
  rw [live_congr h]

theorem count_of_live {e : Option RedisEntry} (h : c.live now key = e) :
    c.count now key = e.bind fun e => e.value.number := by
  unfold RedisCache.count
  rw [h]

/-- An expiry ahead keeps the number. -/
theorem count_expireLive {seconds : Int64} (h : 0 < seconds.toInt) :
    (c.expireLive now key seconds).count now key = c.count now key := by
  have hkey : (c.expireLive now key seconds).keys key =
      (c.live now key).map fun e => { e with expireAt := some (now.millis + seconds.toInt * 1000) } := by
    unfold RedisCache.expireLive
    dsimp only
    rw [Function.update_self, if_neg (not_le.mpr h)]
  cases hlive : c.live now key with
  | none =>
      rw [hlive, Option.map_none] at hkey
      have hafter : (c.expireLive now key seconds).live now key = none := by
        unfold RedisCache.live
        rw [hkey]
        rfl
      rw [count_of_live hlive, count_of_live hafter]
  | some e =>
      rw [hlive, Option.map_some] at hkey
      have hafter : (c.expireLive now key seconds).live now key =
          some { e with expireAt := some (now.millis + seconds.toInt * 1000) } := by
        refine live_eq_some_iff.mpr ⟨hkey, ?_⟩
        rintro _ ⟨⟩
        omega
      rw [count_of_live hlive, count_of_live hafter]
      rfl

theorem count_incrby {delta : ℤ} (h : c.HasRoom now key delta) :
    (c.incrby now key delta).2.count now key = some ((c.count now key).getD 0 + delta) := by
  unfold RedisCache.incrby
  cases hlive : c.live now key with
  | none =>
      rw [count_of_live hlive]
      refine (count_of_live (e := some ⟨.int delta, none⟩) ?_).trans ?_
      · exact live_eq_some_iff.mpr ⟨Function.update_self _ _ _, fun _ hd => nomatch hd⟩
      · exact congrArg some (zero_add delta).symm
  | some e =>
      obtain ⟨n, hn, hfits, hroom⟩ := h e hlive
      obtain ⟨value, deadline⟩ := e
      obtain rfl : value = .int n := hn
      dsimp only
      rw [count_of_live hlive, if_pos hfits, if_pos hroom]
      refine (count_of_live (e := some ⟨.int (n + delta), deadline⟩) ?_).trans rfl
      exact live_eq_some_iff.mpr ⟨Function.update_self _ _ _, (live_eq_some_iff.mp hlive).2⟩

theorem incrby_refused {delta : ℤ} (h : ¬ c.HasRoom now key delta) : (c.incrby now key delta).2 = c := by
  unfold RedisCache.incrby
  cases hlive : c.live now key with
  | none =>
      refine absurd (fun e he => ?_) h
      rw [hlive] at he
      cases he
  | some e =>
      obtain ⟨value, deadline⟩ := e
      cases value with
      | other => rfl
      | int n =>
          dsimp only
          split_ifs with hfits hroom
          · refine absurd (fun e he => ⟨n, ?_, hfits, hroom⟩) h
            rw [hlive] at he
            rw [← Option.some.inj he]
          · rfl
          · rfl

/-- A command adds nothing to a key it does not write. -/
theorem growth_frame {c : StatsCmd} (h : c.writes ≠ some key) : found.growth c key = 0 := by
  unfold StatsRead.growth StatsRead.after
  rw [count_congr found.tick.clock (execStats_frame h), sub_self]

theorem growth_expire {seconds : Int64} (h : 0 < seconds.toInt) (k : String) :
    found.growth (.expire k seconds) key = 0 := by
  by_cases hk : key = k
  · subst hk
    unfold StatsRead.growth StatsRead.after
    rw [execStats_expire]
    split_ifs
    · rw [count_expireLive h, sub_self]
    · exact sub_self _
  · exact growth_frame fun hwrites => hk (Option.some.inj hwrites).symm

theorem after_incrBy (found : StatsRead) (key : String) (delta : Int64) : found.after (.incrBy key delta) =
    if found.tick.fault = none then (found.cache.incrby found.tick.clock key delta.toInt).2
    else found.cache := attemptRedis_cache

/-- What `INCRBY` adds, if Redis accepts it. -/
theorem growth_incrBy {delta : Int64} (h : found.Accepts key delta) :
    found.growth (.incrBy key delta) key = delta.toInt := by
  obtain ⟨hfault, hroom⟩ := h
  unfold StatsRead.growth
  rw [after_incrBy, if_pos hfault, count_incrby hroom]
  exact add_sub_cancel_left _ _

/-- An amount that Redis does not accept is not added. -/
theorem growth_incrBy_refused {delta : Int64} (h : ¬ found.Accepts key delta) :
    found.growth (.incrBy key delta) key = 0 := by
  unfold StatsRead.growth
  rw [after_incrBy]
  split_ifs with hfault
  · rw [incrby_refused fun hroom => h ⟨hfault, hroom⟩, sub_self]
  · exact sub_self _

end redis

/-! ### The commands of the programs -/

/-- A command of the flush task to Redis: an amount for one of the counters, an expiry ahead, or nothing that
changes Redis. -/
def StatsCmd.Flushes : StatsCmd → Prop
  | .incrBy key delta => (∃ counter, key = syncKey counter) ∧ delta ≠ 0
  | .expire _ seconds => 0 < seconds.toInt
  | c => c.durable = false

/-- A command of a program of the pool. -/
def LocalCmd.OfProg {ι : Type} : Option ι → LocalCmd → Prop
  | none, .swap _ => True
  | none, .redis c => c.Flushes
  | some _, .fetchAdd _ => True
  | _, _ => False

abbrev LocalProg.Issues {α : Type} (Q : LocalCmd → Prop) (p : LocalProg α) : Prop :=
  p.Ensures (fun _ _ _ => True) (fun _ c => Q c) ()

theorem StatsCmd.flushes_of_durable {c : StatsCmd} (h : c.durable = false) : c.Flushes := by
  cases c with
  | incrBy _ _ => cases h
  | expire _ _ => cases h
  | _ => exact h

theorem ofStats_issues {α : Type} {Q : LocalCmd → Prop} {p : StatsProg α}
    (h : OnlyIssues (fun c => Q (.redis c)) p) : (LocalProg.ofStats p).Issues Q := by
  induction p with
  | ret a => trivial
  | call c k ih =>
      obtain ⟨hc, hk⟩ := h () le_rfl
      exact fun _ _ => ⟨hc, fun r _ => ih r (hk r trivial)⟩

theorem LocalCall.prog_issues {ι : Type} (i : ι) (call : LocalCall) :
    LocalProg.Issues (LocalCmd.OfProg (some i)) call.prog := by
  cases call with
  | incrLog => exact fun _ _ => ⟨trivial, fun _ _ => trivial⟩
  | incrAlert isCritical =>
      refine fun _ _ => ⟨trivial, fun _ _ => fun _ _ => ⟨trivial, fun _ _ => ?_⟩⟩
      cases isCritical with
      | true => exact fun _ _ => ⟨trivial, fun _ _ => trivial⟩
      | false => trivial

section flush

variable {ι : Type}

theorem sendCount_issues (counter : StatsCounter) (amount : UInt64) :
    (sendCount counter amount).Issues (LocalCmd.OfProg (none : Option ι)) := by
  unfold sendCount
  split_ifs with hamount
  · refine Prog.Ensures.bind (ofStats_issues ?_) fun _ _ _ => trivial
    have hne : amount.toInt64 ≠ 0 := fun hzero => by
      have hback : amount = 0 := congrArg Int64.toUInt64 hzero
      rw [hback] at hamount
      exact absurd hamount (by decide)
    exact incrBy_onlyIssues (fun c => StatsCmd.flushes_of_durable) ⟨⟨counter, rfl⟩, hne⟩
      (show 0 < statsExpiry.toInt64.toInt by decide)
  · trivial

theorem flushLoop_issues (rounds : ℕ) : (flushLoop rounds).Issues (LocalCmd.OfProg (none : Option ι)) := by
  induction rounds with
  | zero => trivial
  | succ rounds ih =>
      refine Prog.Ensures.bind ?_ fun _ _ _ => ih
      refine Prog.Ensures.bind ?_ fun _ _ amounts => ?_
      · exact fun _ _ => ⟨trivial, fun _ _ => fun _ _ => ⟨trivial, fun _ _ => fun _ _ =>
          ⟨trivial, fun _ _ => fun _ _ => ⟨trivial, fun _ _ => trivial⟩⟩⟩⟩
      · refine (sendCount_issues _ _).bind fun _ _ _ => ?_
        refine (sendCount_issues _ _).bind fun _ _ _ => ?_
        exact (sendCount_issues _ _).bind fun _ _ _ => sendCount_issues _ _

end flush

/-! ### What the flush task carries -/

theorem moves_of_durable {c : StatsCmd} (h : c.durable = false) (r : c.Reply) :
    (LocalCmd.redis c).moves r = 0 := by
  cases c with
  | incrBy _ _ => cases h
  | _ => rfl

theorem moves_incrBy (counter : StatsCounter) (delta : Int64)
    (r : StatsCmd.Reply (.incrBy (syncKey counter) delta)) :
    (LocalCmd.redis (.incrBy (syncKey counter) delta)).moves r =
      -Pi.single counter (delta.toUInt64.toNat : ℤ) := by
  funext counter'
  unfold LocalCmd.moves
  dsimp only
  rw [Pi.neg_apply, if_congr syncKey_inj rfl rfl]
  by_cases hcounter : counter' = counter
  · subst hcounter
    rw [if_pos rfl, Pi.single_eq_same]
  · rw [if_neg hcounter, Pi.single_eq_of_ne hcounter, neg_zero]

/-- An amount that is in hand is handed over. -/
theorem sendCount_carries (counter : StatsCounter) (amount : UInt64) (rest : StatsCounter → ℤ) :
    Prog.Carries LocalCmd.moves (fun _ => rest) (rest + Pi.single counter (amount.toNat : ℤ))
      (sendCount counter amount) := by
  unfold sendCount
  split_ifs with hamount
  · suffices h : Prog.Carries LocalCmd.moves (fun _ => rest) (rest + Pi.single counter (amount.toNat : ℤ))
        (LocalProg.ofStats (Counters.incrBy (syncKey counter) amount statsExpiry)) from h.bind fun _ => rfl
    refine Prog.carries_call fun r => ?_
    have hmoved : rest + Pi.single counter (amount.toNat : ℤ) +
        (LocalCmd.redis (.incrBy (syncKey counter) amount.toInt64)).moves r = rest := by
      rw [moves_incrBy]
      exact add_neg_cancel_right _ _
    rw [hmoved]
    refine Prog.carries_of_ensures (ofStats_issues (Q := fun c => ∀ r, c.moves r = 0) ?_)
    cases r with
    | error e => trivial
    | ok n =>
        refine fun _ _ => ⟨fun _ => rfl, fun r _ => ?_⟩
        cases r with
        | error e => trivial
        | ok _ => exact refreshL1_onlyIssues (fun _ hc => moves_of_durable hc) _ _ _ _
  · have hzero : amount = 0 := by
      have hle : ¬ 0 < amount.toNat := fun h => hamount (UInt64.lt_iff_toNat_lt.mpr h)
      exact UInt64.toNat_inj.mp (by simpa using hle)
    refine Prog.carries_ret ?_
    rw [hzero]
    simp

/-- What has been taken, in the order in which it is sent. -/
def takenCounts : UInt64 × UInt64 × UInt64 × UInt64 → StatsCounter → ℤ
  | (tl, ta, aa, ca) =>
      0 + Pi.single .criticalAlerts (ca.toNat : ℤ) + Pi.single .activeAlerts (aa.toNat : ℤ) +
        Pi.single .totalAlerts (ta.toNat : ℤ) + Pi.single .totalLogs (tl.toNat : ℤ)

theorem takeAndReset_carries : Prog.Carries LocalCmd.moves takenCounts 0 takeAndReset := by
  refine Prog.carries_call fun tl => Prog.carries_call fun ta => Prog.carries_call fun aa =>
    Prog.carries_call fun ca => Prog.carries_ret ?_
  unfold LocalCmd.moves takenCounts
  dsimp only
  abel

theorem flushStats_carries : LocalProg.Carries flushStats 0 := by
  refine takeAndReset_carries.bind ?_
  rintro ⟨tl, ta, aa, ca⟩
  refine (sendCount_carries .totalLogs tl _).bind fun _ => ?_
  refine (sendCount_carries .totalAlerts ta _).bind fun _ => ?_
  exact (sendCount_carries .activeAlerts aa _).bind fun _ => sendCount_carries .criticalAlerts ca 0

theorem flushLoop_carries (rounds : ℕ) : LocalProg.Carries (flushLoop rounds) 0 := by
  induction rounds with
  | zero => rfl
  | succ rounds ih => exact flushStats_carries.bind fun _ => ih

/-! ### Steps -/

/-- The increments that are neither in Redis nor in their counter. -/
def LocalCounters.underway (s : LocalCounters) (counter : StatsCounter) : ℤ :=
  s.increments counter - s.added counter - (s.counters counter).toNat

section steps

variable {ι : Type} {s : LocalCounters} {found : StatsRead}

theorem conserved_iff_balanced (s : LocalPool ι) :
    Conserved s ↔ Pool.Balanced LocalCmd.moves (fun _ => 0) LocalCounters.underway none s := by
  unfold Conserved Pool.Balanced
  constructor
  · rintro ⟨carried, hcarries, hall⟩
    have hcarried : s.store.underway = carried := by
      funext counter
      unfold LocalCounters.underway
      rw [hall counter]
      ring
    rw [hcarried]
    exact hcarries
  · intro h
    refine ⟨_, h, fun counter => ?_⟩
    unfold LocalCounters.underway
    ring

theorem fetchAdd_keeps_iff (s : LocalCounters) (found : StatsRead) (counter : StatsCounter) :
    (execLocal found (.fetchAdd counter) s).2.underway = s.underway ↔ s.Keeps found (.fetchAdd counter) := by
  show _ ↔ s.counters counter ≠ 18446744073709551615
  rw [← MachineInt.toNat_add_one_iff, funext_iff]
  have hself : (execLocal found (.fetchAdd counter) s).2.underway counter =
      (s.increments counter + 1 : ℕ) - s.added counter - (s.counters counter + 1).toNat := by
    unfold execLocal LocalCounters.underway
    dsimp only
    rw [Function.update_self, Function.update_self]
  constructor
  · intro h
    have hcounter := h counter
    rw [hself] at hcounter
    unfold LocalCounters.underway at hcounter
    omega
  · intro h counter'
    by_cases hne : counter' = counter
    · subst hne
      rw [hself]
      unfold LocalCounters.underway
      omega
    · unfold execLocal LocalCounters.underway
      dsimp only
      rw [Function.update_of_ne hne, Function.update_of_ne hne]

theorem swap_keeps (s : LocalCounters) (found : StatsRead) (counter : StatsCounter) :
    (execLocal found (.swap counter) s).2.underway =
      s.underway + (LocalCmd.swap counter).moves (execLocal found (.swap counter) s).1 := by
  funext counter'
  show (s.increments counter' : ℤ) - s.added counter' -
      (Function.update s.counters counter 0 counter').toNat =
    s.underway counter' + Pi.single (M := fun _ => ℤ) counter ((s.counters counter).toNat : ℤ) counter'
  unfold LocalCounters.underway
  by_cases hne : counter' = counter
  · subst hne
    rw [Function.update_self, Pi.single_eq_same]
    show _ - ((0 : ℕ) : ℤ) = _
    ring
  · rw [Function.update_of_ne hne, Pi.single_eq_of_ne hne]
    ring

/-- An amount that is handed over must be what is added under the key of its counter. -/
theorem moved_iff_growth {counter : StatsCounter} {delta : Int64} {after : StatsCounter → ℤ}
    {r : StatsCmd.Reply (.incrBy (syncKey counter) delta)}
    (hafter : ∀ counter', after counter' =
      s.underway counter' - found.growth (.incrBy (syncKey counter) delta) (syncKey counter')) :
    after = s.underway + (LocalCmd.redis (.incrBy (syncKey counter) delta)).moves r ↔
      found.growth (.incrBy (syncKey counter) delta) (syncKey counter) = delta.toUInt64.toNat := by
  rw [moves_incrBy, funext_iff]
  constructor
  · intro h
    have hcounter := h counter
    rw [hafter, Pi.add_apply, Pi.neg_apply, Pi.single_eq_same] at hcounter
    omega
  · intro h counter'
    rw [hafter, Pi.add_apply, Pi.neg_apply]
    by_cases hne : counter' = counter
    · subst hne
      rw [Pi.single_eq_same, h]
      ring
    · have hkey : (StatsCmd.incrBy (syncKey counter) delta).writes ≠ some (syncKey counter') :=
        fun hwrites => hne (syncKey_inj.mp (Option.some.inj hwrites)).symm
      rw [Pi.single_eq_of_ne hne, growth_frame hkey]
      ring

/-- What a command to Redis adds is what has been handed over. -/
theorem redis_keeps_iff {c : StatsCmd} (hc : c.Flushes) (s : LocalCounters) (found : StatsRead) :
    (execLocal found (.redis c) s).2.underway =
        s.underway + (LocalCmd.redis c).moves (execLocal found (.redis c) s).1 ↔
      s.Keeps found (.redis c) := by
  have hunderway : ∀ counter, (execLocal found (.redis c) s).2.underway counter =
      s.underway counter - found.growth c (syncKey counter) := by
    intro counter
    unfold execLocal LocalCounters.underway
    ring
  have hstill : (∀ counter, found.growth c (syncKey counter) = 0) →
      (∀ r, (LocalCmd.redis c).moves r = 0) → (execLocal found (.redis c) s).2.underway =
        s.underway + (LocalCmd.redis c).moves (execLocal found (.redis c) s).1 := by
    intro hgrowth hmoves
    funext counter
    rw [hunderway, hmoves, hgrowth, add_zero, sub_zero]
  cases c with
  | incrBy key delta =>
      obtain ⟨⟨counter, rfl⟩, hne⟩ := hc
      show _ ↔ 0 ≤ delta.toInt ∧ found.Accepts (syncKey counter) delta
      rw [moved_iff_growth hunderway]
      by_cases haccepts : found.Accepts (syncKey counter) delta
      · rw [growth_incrBy haccepts, MachineInt.toInt_eq_toNat_iff, and_iff_left haccepts]
      · rw [growth_incrBy_refused haccepts]
        have hpositive : delta.toUInt64.toNat ≠ 0 := fun hzero =>
          hne (congrArg UInt64.toInt64 (UInt64.toNat_inj.mp hzero : delta.toUInt64 = 0))
        exact iff_of_false (by omega) fun h => haccepts h.2
  | expire key seconds =>
      exact iff_of_true (hstill (fun counter => growth_expire hc key) fun _ => rfl) trivial
  | _ =>
      refine iff_of_true (hstill (fun counter => growth_frame ?_) (moves_of_durable hc)) trivial
      rw [StatsCmd.writes_of_durable hc]
      exact nofun

/-- A step posts what the flush task moves exactly when it loses nothing. -/
theorem posts_iff_lossless {s : LocalPool ι} [DecidableEq ι]
    (hprogs : ∀ i, LocalProg.Issues (LocalCmd.OfProg i) (s.progs i)) (e : Option ι × StatsRead) :
    Pool.PostsMoved execLocal LocalCmd.moves LocalCounters.underway none s e ↔ Lossless s e := by
  unfold Pool.PostsMoved Lossless
  refine forall_congr' fun c => imp_congr_right fun hnext => ?_
  have hc : LocalCmd.OfProg e.1 c := (hprogs e.1).of_next hnext
  rcases e with ⟨_ | i, found⟩
  · rw [if_pos rfl]
    cases c with
    | fetchAdd counter => exact hc.elim
    | swap counter => exact iff_of_true (swap_keeps s.store found counter) trivial
    | redis c => exact redis_keeps_iff hc s.store found
  · rw [if_neg (Option.some_ne_none i), add_zero]
    cases c with
    | fetchAdd counter => exact fetchAdd_keeps_iff s.store found counter
    | swap counter => exact hc.elim
    | redis c => exact hc.elim

end steps

section pools

variable {ι : Type} [DecidableEq ι]

/-- **Local statistics are conserved** in every state reached exactly when no step loses a count. -/
theorem conserved_iff_lossless (rounds : ℕ) (calls : ι → LocalCall)
    (schedule : List (Option ι × StatsRead)) :
    (∀ front, front <+: schedule → Conserved (Pool.run execLocal front (localPool rounds calls))) ↔
      Pool.Meets execLocal Lossless schedule (localPool rounds calls) := by
  have hstart : Pool.Balanced LocalCmd.moves (fun _ => 0) LocalCounters.underway none
      (localPool rounds calls) := flushLoop_carries rounds
  have hissues : ∀ i, LocalProg.Issues (LocalCmd.OfProg i) ((localPool rounds calls).progs i) := by
    rintro (_ | i)
    · exact flushLoop_issues rounds
    · exact LocalCall.prog_issues i (calls i)
  simp only [conserved_iff_balanced]
  rw [Pool.balanced_iff_meets LocalCmd.reply_nonempty hstart]
  exact Pool.meets_iff_meets
    (J := fun s => ∀ i, LocalProg.Issues (LocalCmd.OfProg i) (s.progs i))
    (fun s e hs _ => Pool.ensures_step hs e fun _ => trivial)
    (fun s e hs _ => posts_iff_lossless hs e) hissues (Pool.meets_true schedule)

end pools

/-! ### An outage -/

def redisUp : StatsRead := ⟨⟨fun _ => none, fun _ => none⟩, { clock := .ofSeconds 0 }⟩

def redisDown : StatsRead := { redisUp with tick := { redisUp.tick with fault := some "connection refused" } }

/-- A log is counted and taken, and Redis does not answer. -/
def lostCount : List (Option Unit × StatsRead) :=
  [(some (), redisUp), (none, redisUp), (none, redisUp), (none, redisUp), (none, redisUp), (none, redisDown)]

/-- The count is gone. -/
theorem outage_loses_count :
    ¬ ∀ (rounds : ℕ) (calls : Unit → LocalCall) (schedule : List (Option Unit × StatsRead)),
      Conserved (Pool.run execLocal schedule (localPool rounds calls)) := by
  intro h
  obtain ⟨carried, hcarries, hall⟩ := h 1 (fun _ => .incrLog) lostCount
  have hended : (Pool.run execLocal lostCount (localPool 1 fun _ => .incrLog)).progs none = .ret () := rfl
  rw [hended] at hcarries
  obtain rfl : 0 = carried := hcarries
  have hlost : (Pool.run execLocal lostCount (localPool 1 fun _ => .incrLog)).store.underway .totalLogs = 1 :=
    by decide +kernel
  have hlogs := hall .totalLogs
  unfold LocalCounters.underway at hlost
  rw [Pi.zero_apply] at hlogs
  omega

end MiniSiem
