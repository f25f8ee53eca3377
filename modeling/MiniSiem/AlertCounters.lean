import MiniSiem.CounterPrograms
import MiniSiem.Lib.Outcomes
import MiniSiem.Lib.Runs

/-! # The alert counters of a tenant

The counters that the alert worker keeps for the dashboard of a tenant (`spawn_alert_worker` in
`alerting/worker.rs`).  Each of them expires a day after the alert that has started it.

* **Machine.**  The worker processes one alert after the other, command by command; time passes between
  the commands, and none of them fails.
* **One alert.**  `countAlert_yields`: if the critical and the active alerts are within the total, and
  expire no later, the same holds after the next alert, as long as a counter of them is only
  started when the total lives as long.
* **Runs.**  `alertCounters_consistent`: in such a run the counters are consistent whenever the worker is
  idle, however long it waits. -/

namespace MiniSiem

open Atomic

/-- The statistics that the worker sends to the dashboards and stores, if it knows all of them. -/
def reportStats (tenantId : String) (ta aa : Except CounterFailure UInt32) : StatsProg (Option StatsRow) :=
  (Counters.getCounter (statsKey tenantId .totalLogs)).bind fun tl =>
    match ta.toOption, aa.toOption, tl.toOption.join with
    | some ta, some aa, some tl =>
        (Counters.getCounter (statsKey tenantId .criticalAlerts)).bind fun ca =>
          let row : StatsRow := ⟨tl.toUInt64.toInt64, ta.toUInt64.toInt64, aa.toUInt64.toInt64,
            (ca.toOption.join.getD 0).toUInt64.toInt64⟩
          .call (.upsertStats tenantId row) fun _ => .ret (some row)
    | _, _, _ => .ret none

/-- What the worker does with the counters of the tenant of an alert. -/
def countAlert (alert : Alert) : StatsProg (Option StatsRow) :=
  (Counters.incrementCounter (statsKey alert.tenantId .totalAlerts) 86400).bind fun ta =>
    (Counters.incrementCounter (statsKey alert.tenantId .activeAlerts) 86400).bind fun aa =>
      if alert.severity = .critical then
        (Counters.incrementCounter (statsKey alert.tenantId .criticalAlerts) 86400).bind fun _ =>
          reportStats alert.tenantId ta aa
      else reportStats alert.tenantId ta aa

/-- The command has failed. -/
def StatsCmd.failed : (c : StatsCmd) → c.Reply → Bool
  | .incr _, reply => !reply.isOk
  | .incrBy _ _, reply => !reply.isOk
  | .expire _ _, reply => !reply.isOk
  | .get _, reply => !reply.isOk
  | .set _ _, reply => !reply.isOk
  | .allowFixedWindow _ _, reply => !reply.isOk
  | .selectStats _, reply => !reply.isOk
  | .upsertStats _ _, reply => !reply.isOk
  | .l1Get _, _ | .l1Insert _ _, _ | .l1Remove _, _ | .now, _ | .spawnRefresh _, _ => false

/-- The worker with the tenant of the alert it has received last. -/
structure CountingWorker where
  store : StatsStore
  clock : DateTime
  tenantId : String
  current : StatsProg (Option StatsRow)

inductive CountingEvent where
  | receive (alert : Alert)
  | command (tick : Tick)

namespace CountingWorker

/-- Between two alerts. -/
def idle (s : CountingWorker) : Bool := s.current.finished

def step (s : CountingWorker) : CountingEvent → Option CountingWorker
  | .receive alert =>
      if s.idle then some { s with tenantId := alert.tenantId, current := countAlert alert } else none
  | .command tick =>
      match s.current with
      | .ret _ => none
      | .call c k =>
          let (reply, store) := execStats tick c s.store
          if s.clock.1 ≤ tick.clock.1 ∧ c.failed reply = false then
            some { s with store, clock := tick.clock, current := k reply }
          else none

end CountingWorker

/-- An absent counter counts as zero. -/
def RedisCache.countOrZero (c : RedisCache) (now : DateTime) (key : String) : ℤ := (c.count now key).getD 0

/-- The critical and the active alerts are among all alerts. -/
def AlertCountersConsistent (tenantId : String) (c : RedisCache) (now : DateTime) : Prop :=
  c.countOrZero now (statsKey tenantId .criticalAlerts) ≤ c.countOrZero now (statsKey tenantId .totalAlerts) ∧
    c.countOrZero now (statsKey tenantId .activeAlerts) ≤ c.countOrZero now (statsKey tenantId .totalAlerts)

/-- The expiry that the command sets for the critical or the active alerts is not after that of all
alerts. -/
def StatsCmd.outlived (tenantId : String) (c : RedisCache) (now : DateTime) : StatsCmd → Bool
  | expire key seconds =>
      if key = statsKey tenantId .criticalAlerts ∨ key = statsKey tenantId .activeAlerts then
        (c.live now (statsKey tenantId .totalAlerts)).any fun total =>
          total.expireAt.all fun deadline => now.millis + seconds.toInt * 1000 ≤ deadline
      else true
  | _ => true

/-- At this step no counter is given a longer life than the total of its tenant. -/
def StepOutlived (s : CountingWorker) : CountingEvent → Prop
  | .receive _ => True
  | .command tick => ∀ c ∈ s.current.next, c.outlived s.tenantId s.store.cache tick.clock = true

instance (s : CountingWorker) (e : CountingEvent) : Decidable (StepOutlived s e) :=
  match e with
  | .receive _ => isTrue trivial
  | .command tick => inferInstanceAs (Decidable (∀ c ∈ s.current.next,
      c.outlived s.tenantId s.store.cache tick.clock = true))

/-! ### Counters at a moment -/

/-- The store at a moment; a later moment has the same store. -/
structure Moment where
  store : StatsStore
  clock : DateTime

instance : Preorder Moment where
  le w w' := w'.store = w.store ∧ w.clock ≤ w'.clock
  le_refl w := ⟨rfl, le_rfl⟩
  le_trans _ _ _ h h' := ⟨h'.1.trans h.1, h.2.trans h'.2⟩

namespace Moment

def entry (w : Moment) (key : String) : Option RedisEntry := w.store.cache.keys key

def live (w : Moment) (key : String) : Option RedisEntry := w.store.cache.live w.clock key

end Moment

/-- The counter is below the total by `slack` at least, and expires no later, within a day. -/
def Under (key total : String) (slack : ℤ) (w : Moment) : Prop :=
  ∀ e, w.live key = some e → ∃ n deadline, e = ⟨.int n, some deadline⟩ ∧
    deadline ≤ w.clock.millis + 86400000 ∧
    ∃ t m, w.live total = some t ∧ t.value = .int m ∧ n + slack ≤ m ∧ ∀ d ∈ t.expireAt, deadline ≤ d

/-- The total, if there is one, is a positive number. -/
def Positive (total : String) (w : Moment) : Prop :=
  ∀ t, w.entry total = some t → ∃ m, t.value = .int m ∧ 1 ≤ m

/-- The counters of a part of the alerts. -/
def StatsCounter.IsPart (counter : StatsCounter) : Prop :=
  counter = .criticalAlerts ∨ counter = .activeAlerts

/-- What holds for a tenant: every part of its alerts is under the total. -/
structure Tally (tenantId : String) (slack : StatsCounter → ℤ) (w : Moment) : Prop where
  positive : Positive (statsKey tenantId .totalAlerts) w
  under : ∀ counter : StatsCounter, counter.IsPart →
    Under (statsKey tenantId counter) (statsKey tenantId .totalAlerts) (slack counter) w

theorem statsKey_ne {tenantId : String} {counter counter' : StatsCounter} (h : counter ≠ counter') :
    statsKey tenantId counter ≠ statsKey tenantId counter' := fun he => h (statsKey_inj.mp he).2

theorem StatsCounter.IsPart.statsKey_ne {counter : StatsCounter} (h : counter.IsPart) (tenantId : String) :
    statsKey tenantId counter ≠ statsKey tenantId .totalAlerts := by
  refine MiniSiem.statsKey_ne ?_
  rintro rfl
  rcases h with hc | hc <;> cases hc

/-! ### Time passes -/

section time

variable {key total : String} {slack : ℤ} {w w' : Moment}

theorem Moment.live_eq_some {e : RedisEntry} :
    w.live key = some e ↔ w.entry key = some e ∧ ∀ d ∈ e.expireAt, w.clock.millis ≤ d :=
  live_eq_some_iff

theorem Moment.entry_later (hle : w ≤ w') : w'.entry key = w.entry key := by
  unfold Moment.entry
  rw [hle.1]

theorem DateTime.millis_mono {t u : DateTime} (h : t ≤ u) : t.millis ≤ u.millis :=
  Int.ediv_le_ediv (by norm_num) h

/-- What is alive later was alive before. -/
theorem Moment.live_of_later (hle : w ≤ w') {e : RedisEntry} (h : w'.live key = some e) :
    w.live key = some e := by
  obtain ⟨hentry, halive⟩ := live_eq_some.mp h
  rw [entry_later hle] at hentry
  exact live_eq_some.mpr ⟨hentry, fun d hd => (DateTime.millis_mono hle.2).trans (halive d hd)⟩

theorem Under.mono (h : Under key total slack w) (hle : w ≤ w') : Under key total slack w' := by
  intro e he
  obtain ⟨n, deadline, rfl, hday, t, m, ht, hvalue, hslack, hlonger⟩ := h e (Moment.live_of_later hle he)
  have halive : w'.clock.millis ≤ deadline := (Moment.live_eq_some.mp he).2 deadline rfl
  have hclock := DateTime.millis_mono hle.2
  refine ⟨n, deadline, rfl, by omega, t, m, ?_, hvalue, hslack, hlonger⟩
  rw [Moment.live_eq_some, Moment.entry_later hle]
  exact ⟨(Moment.live_eq_some.mp ht).1, fun d hd => halive.trans (hlonger d hd)⟩

theorem Under.weaken {slack' : ℤ} (h : Under key total slack w) (hle : slack' ≤ slack) :
    Under key total slack' w := by
  intro e he
  obtain ⟨n, deadline, heq, hday, t, m, ht, hvalue, hslack, hlonger⟩ := h e he
  exact ⟨n, deadline, heq, hday, t, m, ht, hvalue, by omega, hlonger⟩

theorem Positive.mono (h : Positive total w) (hle : w ≤ w') : Positive total w' := by
  intro t ht
  exact h t (Moment.entry_later hle ▸ ht)

theorem Tally.mono {tenantId : String} {slack : StatsCounter → ℤ} (h : Tally tenantId slack w)
    (hle : w ≤ w') : Tally tenantId slack w' :=
  ⟨h.positive.mono hle, fun counter hpart => (h.under counter hpart).mono hle⟩

theorem Tally.weaken {tenantId : String} {slack slack' : StatsCounter → ℤ} (h : Tally tenantId slack w)
    (hle : ∀ counter : StatsCounter, counter.IsPart → slack' counter ≤ slack counter) :
    Tally tenantId slack' w :=
  ⟨h.positive, fun counter hpart => (h.under counter hpart).weaken (hle counter hpart)⟩

/-- The number of a counter that is under the total. -/
theorem Under.count_le (h : Under key total 0 w) (hpositive : Positive total w) :
    w.store.cache.countOrZero w.clock key ≤ w.store.cache.countOrZero w.clock total := by
  unfold RedisCache.countOrZero RedisCache.count
  cases hkey : w.store.cache.live w.clock key with
  | none =>
      cases htotal : w.store.cache.live w.clock total with
      | none => exact le_rfl
      | some t =>
          obtain ⟨m, hvalue, hone⟩ := hpositive t (live_eq_some_iff.mp htotal).1
          simp only [Option.bind_some, hvalue, RedisValue.number, Option.bind_none, Option.getD_none,
            Option.getD_some]
          omega
  | some e =>
      obtain ⟨n, deadline, rfl, -, t, m, ht, hvalue, hslack, -⟩ := h e hkey
      have htotal : w.store.cache.live w.clock total = some t := ht
      simp only [htotal, Option.bind_some, hvalue, RedisValue.number, Option.getD_some]
      omega

theorem Tally.consistent {tenantId : String} (h : Tally tenantId 0 w) :
    AlertCountersConsistent tenantId w.store.cache w.clock :=
  ⟨(h.under .criticalAlerts (Or.inl rfl)).count_le h.positive,
    (h.under .activeAlerts (Or.inr rfl)).count_le h.positive⟩

end time

/-! ### One command -/

/-- What a command that does not fail replies and leaves; no counter is given a longer life than the
total of the tenant. -/
structure CountingReply (tenantId : String) (w : Moment) (c : StatsCmd) (reply : c.Reply) (w' : Moment) :
    Prop where
  clock : w'.clock = w.clock
  succeeded : c.failed reply = false
  outlived : c.outlived tenantId w.store.cache w.clock = true
  effect : ∃ tick : Tick, tick.clock = w.clock ∧ execStats tick c w.store = (reply, w'.store)

section command

variable {tenantId key total : String} {w w' : Moment} {c : StatsCmd} {reply : c.Reply}

theorem CountingReply.entry_eq (h : CountingReply tenantId w c reply w') (hwrites : c.writes ≠ some key) :
    w'.entry key = w.entry key := by
  obtain ⟨tick, -, heffect⟩ := h.effect
  have hframe : (execStats tick c w.store).2.cache.keys key = w.store.cache.keys key :=
    execStats_frame hwrites
  rw [heffect] at hframe
  exact hframe

theorem CountingReply.live_eq (h : CountingReply tenantId w c reply w') (hwrites : c.writes ≠ some key) :
    w'.live key = w.live key := by
  unfold Moment.live
  rw [h.clock]
  exact live_congr (h.entry_eq hwrites)

/-- A command on other keys. -/
theorem CountingReply.under {slack : ℤ} (h : CountingReply tenantId w c reply w')
    (hkey : c.writes ≠ some key) (htotal : c.writes ≠ some total) (hunder : Under key total slack w) :
    Under key total slack w' := by
  unfold Under
  rw [h.live_eq hkey, h.live_eq htotal, h.clock]
  exact hunder

theorem CountingReply.positive (h : CountingReply tenantId w c reply w')
    (htotal : c.writes ≠ some total) (hpositive : Positive total w) : Positive total w' := by
  unfold Positive
  rw [h.entry_eq htotal]
  exact hpositive

theorem CountingReply.tally {slack : StatsCounter → ℤ} {tenantId' : String}
    (h : CountingReply tenantId w c reply w')
    (hwrites : ∀ counter, c.writes ≠ some (statsKey tenantId' counter)) (htally : Tally tenantId' slack w) :
    Tally tenantId' slack w' :=
  ⟨h.positive (hwrites _) htally.positive,
    fun counter hpart => h.under (hwrites _) (hwrites _) (htally.under counter hpart)⟩

theorem CountingReply.incr {reply : Except CounterFailure ℤ}
    (h : CountingReply tenantId w (.incr key) reply w') :
    ∃ n d, reply = .ok n ∧ w'.entry key = some ⟨.int n, d⟩ ∧
      (w.live key = none ∧ n = 1 ∨ w.live key = some ⟨.int (n - 1), d⟩) := by
  obtain ⟨tick, hclock, heffect⟩ := h.effect
  cases reply with
  | error e => cases h.succeeded
  | ok n =>
      obtain ⟨hreply, hstore⟩ := attemptRedis_eq_ok heffect
      unfold Moment.entry Moment.live
      rw [hstore, ← hclock]
      obtain ⟨d, hcache, hbefore⟩ := RedisCache.incr_eq_ok (Prod.ext hreply rfl)
      refine ⟨n, d, rfl, ?_, hbefore.imp (fun h => ⟨h.1, h.2.1⟩) id⟩
      exact (congrArg (·.keys key) hcache).trans (Function.update_self _ _ _)

theorem CountingReply.expire {reply : Except CounterFailure Unit}
    (h : CountingReply tenantId w (.expire key (86400 : UInt64).toInt64) reply w') :
    reply = .ok () ∧ w'.entry key =
      (w.live key).map fun e => { e with expireAt := some (w.clock.millis + 86400000) } := by
  obtain ⟨tick, hclock, heffect⟩ := h.effect
  cases reply with
  | error e => cases h.succeeded
  | ok r =>
      obtain ⟨-, hstore⟩ := attemptRedis_eq_ok heffect
      refine ⟨rfl, ?_⟩
      unfold Moment.entry Moment.live
      rw [hstore, ← hclock]
      exact Function.update_self _ _ _

/-- The total, counted up. -/
theorem CountingReply.incr_total {reply : Except CounterFailure ℤ}
    (h : CountingReply tenantId w (.incr total) reply w') (hpositive : Positive total w) :
    (∃ n, reply = .ok n) ∧ Positive total w' ∧
      ∀ key, key ≠ total → Under key total 0 w → Under key total 1 w' := by
  obtain ⟨n, d, rfl, hentry, hbefore⟩ := h.incr
  refine ⟨⟨n, rfl⟩, ?_, ?_⟩
  · intro t ht
    obtain rfl := Option.some.inj (hentry.symm.trans ht)
    refine ⟨n, rfl, ?_⟩
    rcases hbefore with ⟨-, rfl⟩ | hlive
    · exact le_rfl
    · obtain ⟨m, hvalue, hone⟩ := hpositive _ (Moment.live_eq_some.mp hlive).1
      have hm : n - 1 = m := RedisValue.int.inj hvalue
      omega
  · intro key hne hunder e he
    rw [h.live_eq (by simpa [StatsCmd.writes] using hne.symm)] at he
    obtain ⟨k, deadline, rfl, hday, t, m, ht, hvalue, hslack, hlonger⟩ := hunder e he
    rcases hbefore with ⟨hnone, -⟩ | hlive
    · rw [hnone] at ht
      cases ht
    · obtain rfl := Option.some.inj (hlive.symm.trans ht)
      have hm : n - 1 = m := RedisValue.int.inj hvalue
      refine ⟨k, deadline, rfl, by rw [h.clock]; exact hday, ⟨.int n, d⟩, n, ?_, rfl, by omega, hlonger⟩
      rw [Moment.live_eq_some, h.clock]
      exact ⟨hentry, (Moment.live_eq_some.mp hlive).2⟩

/-- The total, given another day. -/
theorem CountingReply.expire_total {reply : Except CounterFailure Unit} {slack : ℤ}
    (h : CountingReply tenantId w (.expire total (86400 : UInt64).toInt64) reply w') (hne : key ≠ total)
    (hunder : Under key total slack w) : Under key total slack w' := by
  obtain ⟨rfl, hentry⟩ := h.expire
  intro e he
  rw [h.live_eq (by simpa [StatsCmd.writes] using hne.symm)] at he
  obtain ⟨k, deadline, rfl, hday, t, m, ht, hvalue, hslack, -⟩ := hunder e he
  rw [ht] at hentry
  refine ⟨k, deadline, rfl, by rw [h.clock]; exact hday, ⟨t.value, some (w.clock.millis + 86400000)⟩,
    m, ?_, hvalue, hslack, ?_⟩
  · rw [Moment.live_eq_some, h.clock]
    refine ⟨hentry, fun d hd => ?_⟩
    obtain rfl := Option.some.inj hd
    omega
  · intro d hd
    obtain rfl := Option.some.inj hd
    exact hday

theorem CountingReply.expire_positive {reply : Except CounterFailure Unit}
    (h : CountingReply tenantId w (.expire total (86400 : UInt64).toInt64) reply w')
    (hpositive : Positive total w) : Positive total w' := by
  intro t ht
  rw [h.expire.2] at ht
  obtain ⟨e, he, rfl⟩ := Option.map_eq_some_iff.mp ht
  exact hpositive e (Moment.live_eq_some.mp he).1

/-- The counter has been counted up and is not above the total. -/
def Pending (key total : String) (n : ℤ) (w : Moment) : Prop :=
  ∃ d, w.entry key = some ⟨.int n, d⟩ ∧ ∀ t, w.entry total = some t → ∃ m, t.value = .int m ∧ n ≤ m

theorem Pending.mono {n : ℤ} (h : Pending key total n w) (hle : w ≤ w') : Pending key total n w' := by
  unfold Pending
  rw [Moment.entry_later hle, Moment.entry_later hle]
  exact h

/-- A counter below the total, counted up; one that stays at another number than one keeps its
expiry. -/
theorem CountingReply.incr_under {reply : Except CounterFailure ℤ}
    (h : CountingReply tenantId w (.incr key) reply w') (hne : key ≠ total)
    (hpositive : Positive total w) (hunder : Under key total 1 w) :
    ∃ n, reply = .ok n ∧ Pending key total n w' ∧ (UInt32.ofInt n ≠ 1 → Under key total 0 w') := by
  have htotal : (StatsCmd.incr key).writes ≠ some total := by simpa [StatsCmd.writes] using hne
  obtain ⟨n, d, rfl, hentry, ⟨hnone, rfl⟩ | hlive⟩ := h.incr
  · refine ⟨1, rfl, ⟨d, hentry, fun t ht => ?_⟩, fun hone => absurd rfl hone⟩
    rw [h.entry_eq htotal] at ht
    exact hpositive t ht
  · obtain ⟨k, deadline, heq, hday, t, m, ht, hvalue, hslack, hlonger⟩ := hunder _ hlive
    obtain ⟨rfl, rfl⟩ : d = some deadline ∧ k = n - 1 := by
      cases heq
      exact ⟨rfl, rfl⟩
    refine ⟨n, rfl, ⟨_, hentry, fun t' ht' => ⟨m, ?_, by omega⟩⟩, fun _ e he => ?_⟩
    · rw [h.entry_eq htotal, (Moment.live_eq_some.mp ht).1] at ht'
      obtain rfl := Option.some.inj ht'
      exact hvalue
    · obtain rfl := Option.some.inj (hentry.symm.trans (Moment.live_eq_some.mp he).1)
      refine ⟨n, deadline, rfl, by rw [h.clock]; exact hday, t, m, ?_, hvalue, by omega, hlonger⟩
      rw [h.live_eq htotal]
      exact ht

/-- A counter that is given a day, like the total that outlives it. -/
theorem CountingReply.expire_under {reply : Except CounterFailure Unit} {n : ℤ} {counter : StatsCounter}
    (h : CountingReply tenantId w (.expire (statsKey tenantId counter) (86400 : UInt64).toInt64) reply w')
    (hpart : counter.IsPart)
    (hpending : Pending (statsKey tenantId counter) (statsKey tenantId .totalAlerts) n w) :
    Under (statsKey tenantId counter) (statsKey tenantId .totalAlerts) 0 w' := by
  have hne := hpart.statsKey_ne tenantId
  have houtlived := h.outlived
  unfold StatsCmd.outlived at houtlived
  dsimp only at houtlived
  rw [if_pos (by rcases hpart with rfl | rfl <;> simp), Option.any_eq_true] at houtlived
  obtain ⟨t, ht, hall⟩ := houtlived
  obtain ⟨d, hentry, hvalues⟩ := hpending
  obtain ⟨m, hvalue, hle⟩ := hvalues t (live_eq_some_iff.mp ht).1
  intro e he
  have he' := (Moment.live_eq_some.mp he).1
  rw [h.expire.2] at he'
  obtain ⟨e', hbefore, rfl⟩ := Option.map_eq_some_iff.mp he'
  obtain rfl := Option.some.inj (hentry.symm.trans (Moment.live_eq_some.mp hbefore).1)
  refine ⟨n, w.clock.millis + 86400000, rfl, by rw [h.clock], t, m, ?_, hvalue, by omega, ?_⟩
  · rw [h.live_eq (by simpa [StatsCmd.writes] using hne)]
    exact ht
  · intro deadline hdeadline
    rw [Option.all_eq_true] at hall
    exact of_decide_eq_true (hall deadline hdeadline)

end command

/-! ### One alert -/

/-- The command writes no counter of the tenant. -/
def SparesCounters (tenantId : String) (c : StatsCmd) : Prop := ∀ counter, c.writes ≠ some (statsKey tenantId counter)

theorem spares_of_writes_none {tenantId : String} {c : StatsCmd} (h : c.writes = none) :
    SparesCounters tenantId c := by
  intro counter
  rw [h]
  exact (Option.some_ne_none _).symm

theorem spares_of_durable {tenantId : String} (c : StatsCmd) (h : c.durable = false) :
    SparesCounters tenantId c := spares_of_writes_none (StatsCmd.writes_of_durable h)

section programs

variable {tenantId : String} {slack slack' : StatsCounter → ℤ} {w : Moment}

/-- A program that leaves the counters of the tenant alone. -/
theorem tally_yields {α : Type} {tenantId' : String} {p : StatsProg α}
    (hp : OnlyIssues (SparesCounters tenantId') p) (h : Tally tenantId' slack w) :
    p.Yields (CountingReply tenantId) (fun w _ => Tally tenantId' slack w) w := by
  induction p generalizing w with
  | ret a => exact h
  | call c k ih =>
      refine Prog.yields_call fun w' hle r w'' hr => ?_
      obtain ⟨hc, hk⟩ := hp () le_rfl
      exact ih r (hk r trivial) (hr.tally hc (h.mono hle))

/-- `increment_counter` with a day of expiry: `Mid` is what `INCR` leaves, and what `EXPIRE` starts
from. -/
theorem incrementCounter_yields {key : String} (Mid : ℤ → Moment → Prop)
    (hMid : ∀ n w w', w ≤ w' → Mid n w → Mid n w')
    (hincr : ∀ w', w ≤ w' → ∀ r w'', CountingReply tenantId w' (.incr key) r w'' →
      ∃ n, r = .ok n ∧ Mid n w'' ∧ (UInt32.ofInt n ≠ 1 → Tally tenantId slack w''))
    (hexpire : ∀ n w' r w'', Mid n w' →
      CountingReply tenantId w' (.expire key (86400 : UInt64).toInt64) r w'' → Tally tenantId slack w'') :
    (Counters.incrementCounter key 86400).Yields (CountingReply tenantId)
      (fun w _ => Tally tenantId slack w) w := by
  have hlast : ∀ (value : UInt64) (result : Except CounterFailure UInt32) {w : Moment},
      Tally tenantId slack w → (Counters.refreshL1 key value 1 result).Yields (CountingReply tenantId)
        (fun w _ => Tally tenantId slack w) w :=
    fun value result _ h =>
      tally_yields (refreshL1_onlyIssues spares_of_durable key value 1 result) h
  refine Prog.yields_call fun w₁ hle r w₂ hr => ?_
  obtain ⟨n, rfl, hmid, hkept⟩ := hincr w₁ hle r w₂ hr
  dsimp only
  by_cases hone : UInt32.ofInt n = 1
  · rw [if_pos hone]
    refine Prog.yields_call fun w₃ hle' r w₄ hr' => ?_
    obtain ⟨rfl, -⟩ := hr'.expire
    exact hlast _ _ (hexpire n w₃ _ w₄ (hMid n w₂ w₃ hle' hmid) hr')
  · rw [if_neg hone]
    exact hlast _ _ (hkept hone)

/-- The total is counted first. -/
theorem totalAlerts_yields (h : Tally tenantId 0 w) :
    (Counters.incrementCounter (statsKey tenantId .totalAlerts) 86400).Yields (CountingReply tenantId)
      (fun w _ => Tally tenantId 1 w) w := by
  refine incrementCounter_yields (fun _ w => Tally tenantId 1 w) (fun _ _ _ hle hw => hw.mono hle)
    (fun w' hle r w'' hr => ?_) fun n w' r w'' hmid hr => ?_
  · have hbefore := h.mono hle
    obtain ⟨⟨n, hn⟩, hpositive, hunder⟩ := hr.incr_total hbefore.positive
    have htally : Tally tenantId 1 w'' := ⟨hpositive, fun counter hpart =>
      hunder _ (hpart.statsKey_ne tenantId) (hbefore.under counter hpart)⟩
    exact ⟨n, hn, htally, fun _ => htally⟩
  · exact ⟨hr.expire_positive hmid.positive, fun counter hpart =>
      hr.expire_total (hpart.statsKey_ne tenantId) (hmid.under counter hpart)⟩

/-- Every part but one is under the total. -/
structure TallyBut (counter : StatsCounter) (tenantId : String) (slack : StatsCounter → ℤ) (w : Moment) :
    Prop where
  positive : Positive (statsKey tenantId .totalAlerts) w
  under : ∀ other : StatsCounter, other.IsPart → other ≠ counter →
    Under (statsKey tenantId other) (statsKey tenantId .totalAlerts) (slack other) w

theorem TallyBut.mono {counter : StatsCounter} {w' : Moment} (h : TallyBut counter tenantId slack w)
    (hle : w ≤ w') : TallyBut counter tenantId slack w' :=
  ⟨h.positive.mono hle, fun other hother hne => (h.under other hother hne).mono hle⟩

/-- A command on the counter of one part. -/
theorem CountingReply.tallyBut {counter : StatsCounter} {w' : Moment} {c : StatsCmd} {r : c.Reply}
    (hr : CountingReply tenantId w c r w') (hpart : counter.IsPart)
    (hwrites : c.writes = some (statsKey tenantId counter)) (h : TallyBut counter tenantId slack w) :
    TallyBut counter tenantId slack w' := by
  have hkey : ∀ other, other ≠ counter → c.writes ≠ some (statsKey tenantId other) := by
    intro other hne
    rw [hwrites]
    exact fun he => statsKey_ne hne.symm (Option.some.inj he)
  have htotal : c.writes ≠ some (statsKey tenantId .totalAlerts) := by
    rw [hwrites]
    exact fun he => hpart.statsKey_ne tenantId (Option.some.inj he)
  exact ⟨hr.positive htotal h.positive,
    fun other hother hne => hr.under (hkey other hne) htotal (h.under other hother hne)⟩

theorem TallyBut.complete {counter : StatsCounter} (h : TallyBut counter tenantId slack w)
    (hunder : Under (statsKey tenantId counter) (statsKey tenantId .totalAlerts) 0 w) :
    Tally tenantId (Function.update slack counter 0) w := by
  refine ⟨h.positive, fun other hother => ?_⟩
  by_cases hsame : other = counter
  · subst hsame
    rw [Function.update_self]
    exact hunder
  · rw [Function.update_of_ne hsame]
    exact h.under other hother hsame

/-- A part is counted when it is below the total. -/
theorem partAlerts_yields {counter : StatsCounter} (hpart : counter.IsPart) (hslack : slack counter = 1)
    (h : Tally tenantId slack w) :
    (Counters.incrementCounter (statsKey tenantId counter) 86400).Yields (CountingReply tenantId)
      (fun w _ => Tally tenantId (Function.update slack counter 0) w) w := by
  refine incrementCounter_yields
    (fun n w => TallyBut counter tenantId slack w ∧
      Pending (statsKey tenantId counter) (statsKey tenantId .totalAlerts) n w)
    (fun n _ _ hle hmid => ⟨hmid.1.mono hle, hmid.2.mono hle⟩)
    (fun w' hle r w'' hr => ?_) fun n w' r w'' hmid hr => ?_
  · have hbefore := h.mono hle
    have hunder := hbefore.under counter hpart
    rw [hslack] at hunder
    obtain ⟨n, hn, hpending, hkept⟩ :=
      hr.incr_under (hpart.statsKey_ne tenantId) hbefore.positive hunder
    have hbut : TallyBut counter tenantId slack w'' :=
      hr.tallyBut hpart rfl ⟨hbefore.positive, fun other hother _ => hbefore.under other hother⟩
    exact ⟨n, hn, ⟨hbut, hpending⟩, fun hone => hbut.complete (hkept hone)⟩
  · exact (hr.tallyBut hpart rfl hmid.1).complete (hr.expire_under hpart hmid.2)

theorem reportStats_spares (tenantId' : String) (ta aa : Except CounterFailure UInt32) :
    OnlyIssues (SparesCounters tenantId) (reportStats tenantId' ta aa) := by
  refine (getCounter_onlyIssues spares_of_durable _).bind fun _ _ tl => ?_
  split
  · exact (getCounter_onlyIssues spares_of_durable _).bind fun _ _ _ =>
      fun _ _ => ⟨spares_of_writes_none rfl, fun _ _ => trivial⟩
  · trivial

/-- The alert of another tenant. -/
theorem countAlert_spares {alert : Alert} (h : tenantId ≠ alert.tenantId) :
    OnlyIssues (SparesCounters tenantId) (countAlert alert) := by
  have hkey : ∀ counter counter', some (statsKey alert.tenantId counter) ≠ some (statsKey tenantId counter') :=
    fun counter counter' he => h (statsKey_inj.mp (Option.some.inj he)).1.symm
  have hincrement : ∀ counter, OnlyIssues (SparesCounters tenantId)
      (Counters.incrementCounter (statsKey alert.tenantId counter) 86400) := fun counter =>
    incrementCounter_onlyIssues spares_of_durable (hkey counter) (hkey counter)
  have hreport : ∀ ta aa, OnlyIssues (SparesCounters tenantId) (reportStats alert.tenantId ta aa) :=
    reportStats_spares alert.tenantId
  refine (hincrement _).bind fun _ _ ta => (hincrement _).bind fun _ _ aa => ?_
  split_ifs
  · exact (hincrement _).bind fun _ _ _ => hreport ta aa
  · exact hreport ta aa

/-- An alert keeps every part under the total. -/
theorem countAlert_yields {alert : Alert} {tenantId' : String} (h : Tally tenantId' 0 w) :
    (countAlert alert).Yields (CountingReply alert.tenantId) (fun w _ => Tally tenantId' 0 w) w := by
  by_cases htenant : tenantId' = alert.tenantId
  · subst htenant
    have hreport : ∀ ta aa {w : Moment}, Tally alert.tenantId 0 w →
        (reportStats alert.tenantId ta aa).Yields (CountingReply alert.tenantId)
          (fun w _ => Tally alert.tenantId 0 w) w := fun ta aa _ h =>
      tally_yields (reportStats_spares alert.tenantId ta aa) h
    refine (totalAlerts_yields h).bind fun w₁ ta h₁ => ?_
    refine (partAlerts_yields (Or.inr rfl) rfl h₁).bind fun w₂ aa h₂ => ?_
    split_ifs
    · refine (partAlerts_yields (Or.inl rfl) ?_ h₂).bind fun w₃ _ h₃ => hreport ta aa (h₃.weaken ?_)
      · rfl
      · intro counter hpart
        rcases hpart with rfl | rfl
        · exact le_rfl
        · exact le_rfl
    · refine hreport ta aa (h₂.weaken fun counter hpart => ?_)
      rcases hpart with rfl | rfl
      · exact zero_le_one
      · exact le_rfl
  · exact tally_yields (countAlert_spares htenant) h

end programs

/-! ### Runs -/

/-- What holds throughout a run, for every tenant: what is left of the alert ends with the parts under
the total. -/
def Counting (s : CountingWorker) : Prop :=
  ∀ tenantId, s.current.Yields (CountingReply s.tenantId) (fun w _ => Tally tenantId 0 w) ⟨s.store, s.clock⟩

theorem CountingWorker.step_receive {s s' : CountingWorker} {alert : Alert}
    (h : s.step (.receive alert) = some s') :
    s.idle = true ∧ s' = { s with tenantId := alert.tenantId, current := countAlert alert } := by
  unfold CountingWorker.step at h
  dsimp only at h
  split_ifs at h with hidle
  exact ⟨hidle, (Option.some.inj h).symm⟩

theorem CountingWorker.step_command {s s' : CountingWorker} {tick : Tick}
    (h : s.step (.command tick) = some s') :
    ∃ c k, s.current = .call c k ∧ s.clock ≤ tick.clock ∧
      c.failed (execStats tick c s.store).1 = false ∧
      s' = { s with
        store := (execStats tick c s.store).2
        clock := tick.clock
        current := k (execStats tick c s.store).1 } := by
  unfold CountingWorker.step at h
  dsimp only at h
  cases hcurrent : s.current with
  | ret a =>
      rw [hcurrent] at h
      cases h
  | call c k =>
      rw [hcurrent] at h
      dsimp only at h
      split_ifs at h with hok
      exact ⟨c, k, rfl, hok.1, hok.2, (Option.some.inj h).symm⟩

/-- Between two alerts every part is under the total. -/
theorem Counting.tally {s : CountingWorker} (h : Counting s) (hidle : s.idle = true) (tenantId : String) :
    Tally tenantId 0 ⟨s.store, s.clock⟩ := by
  have hcurrent := h tenantId
  unfold CountingWorker.idle at hidle
  cases hprog : s.current with
  | ret a =>
      rw [hprog] at hcurrent
      exact hcurrent
  | call c k =>
      rw [hprog] at hidle
      cases hidle

theorem counting_step {s s' : CountingWorker} {e : CountingEvent} (h : Counting s) (hok : StepOutlived s e)
    (hstep : s.step e = some s') : Counting s' := by
  intro tenantId
  cases e with
  | receive alert =>
      obtain ⟨hidle, rfl⟩ := CountingWorker.step_receive hstep
      exact countAlert_yields (h.tally hidle tenantId)
  | command tick =>
      obtain ⟨c, k, hprog, hclock, hsucceeded, rfl⟩ := CountingWorker.step_command hstep
      have hcurrent := h tenantId
      rw [hprog] at hcurrent
      have hlived : c.outlived s.tenantId s.store.cache tick.clock = true :=
        hok c (by rw [hprog]; rfl)
      have hlater : (⟨s.store, s.clock⟩ : Moment) ≤ ⟨s.store, tick.clock⟩ := ⟨rfl, hclock⟩
      exact hcurrent ⟨s.store, tick.clock⟩ hlater _ ⟨_, tick.clock⟩
        ⟨rfl, hsucceeded, hlived, tick, rfl, rfl⟩

/-- **The counters of a tenant stay consistent.** -/
theorem alertCounters_consistent {es : List CountingEvent} {s s' : CountingWorker} (hidle : s.idle = true)
    (habsent : ∀ tenantId counter, s.store.cache.keys (statsKey tenantId counter) = none)
    (hok : Runs.Meets CountingWorker.step StepOutlived es s)
    (hrun : Runs.run CountingWorker.step es s = some s') (hidle' : s'.idle = true) {now : DateTime}
    (hnow : s'.clock ≤ now) (tenantId : String) :
    AlertCountersConsistent tenantId s'.store.cache now := by
  have hstart : Counting s := by
    intro tenantId
    have htally : Tally tenantId 0 ⟨s.store, s.clock⟩ := by
      refine ⟨fun t ht => ?_, fun counter _ e he => ?_⟩
      · rw [Moment.entry, habsent] at ht
        cases ht
      · have hentry := (Moment.live_eq_some.mp he).1
        rw [Moment.entry, habsent] at hentry
        cases hentry
    cases hprog : s.current with
    | ret a => exact htally
    | call c k =>
        rw [CountingWorker.idle, hprog] at hidle
        cases hidle
  have hcounting := hok.run_invariant (fun s e s' h hok hstep => counting_step h hok hstep) hstart hrun
  have hlater : (⟨s'.store, s'.clock⟩ : Moment) ≤ ⟨s'.store, now⟩ := ⟨rfl, hnow⟩
  exact ((hcounting.tally hidle' tenantId).mono hlater).consistent

/-- A worker of a new system. -/
def newWorker : CountingWorker :=
  ⟨⟨⟨fun _ => none, fun _ => none⟩, fun _ => none⟩, .ofSeconds 0, "", .ret none⟩

def countedAlert (severity : AlertSeverity) : Alert :=
  Alert.new "a1" (.ofSeconds 0) "t1" "r1" "rule" severity "" "10.0.0.1" []

/-- Commands at a second. -/
def commandsAt (second : ℕ) (h : Nat.ble second 8210266876799 = true := by exact Eq.refl true)
    (commands : ℕ) : List CountingEvent :=
  List.replicate commands (.command { clock := .ofSeconds second h })

/-- All three counters start in the same second. -/
def criticalThenHigh : List CountingEvent :=
  .receive (countedAlert .critical) :: commandsAt 0 rfl 14 ++
    .receive (countedAlert .high) :: commandsAt 60 rfl 8

theorem criticalThenHigh_consistent :
    ∃ s', Runs.run CountingWorker.step criticalThenHigh newWorker = some s' ∧
      AlertCountersConsistent "t1" s'.store.cache (.ofSeconds 86400) := by
  have hok : Runs.Meets CountingWorker.step StepOutlived criticalThenHigh newWorker := by decide +kernel
  have hend : (Runs.run CountingWorker.step criticalThenHigh newWorker).map (fun s => (s.idle, s.clock)) =
      some (true, .ofSeconds 60) := by decide +kernel
  obtain ⟨s', hrun, hs'⟩ := Option.map_eq_some_iff.mp hend
  obtain ⟨hidle, hclock⟩ := Prod.mk.inj hs'
  have hnow : s'.clock ≤ .ofSeconds 86400 := by
    rw [hclock]
    decide
  exact ⟨s', hrun, alertCounters_consistent rfl (fun _ _ => rfl) hok hrun hidle hnow "t1"⟩

/-- A second passes before the active alerts are counted. -/
def slowAlert : List CountingEvent :=
  .receive (countedAlert .high) :: commandsAt 0 rfl 4 ++ commandsAt 1 rfl 6

/-- A day later the total has expired, the active alerts have not. -/
theorem slowAlert_not_consistent :
    ¬ ∀ (es : List CountingEvent) (s s' : CountingWorker), s.idle = true →
      (∀ tenantId counter, s.store.cache.keys (statsKey tenantId counter) = none) →
      Runs.run CountingWorker.step es s = some s' → s'.idle = true → ∀ now, s'.clock ≤ now →
      ∀ tenantId, AlertCountersConsistent tenantId s'.store.cache now := by
  intro h
  have hend : (Runs.run CountingWorker.step slowAlert newWorker).map (fun s => (s.idle, s.clock,
      s.store.cache.countOrZero (.ofSeconds 86401) (statsKey "t1" .activeAlerts),
      s.store.cache.countOrZero (.ofSeconds 86401) (statsKey "t1" .totalAlerts))) =
      some (true, .ofSeconds 1, 1, 0) := by decide +kernel
  obtain ⟨s', hrun, hs'⟩ := Option.map_eq_some_iff.mp hend
  simp only [Prod.mk.injEq] at hs'
  obtain ⟨hidle, hclock, hactive, htotal⟩ := hs'
  have hnow : s'.clock ≤ .ofSeconds 86401 := by
    rw [hclock]
    decide
  have hle := (h slowAlert newWorker s' rfl (fun _ _ => rfl) hrun hidle _ hnow "t1").2
  rw [hactive, htotal] at hle
  exact absurd hle (by decide)

end MiniSiem
