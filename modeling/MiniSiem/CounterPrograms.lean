import MiniSiem.Database
import MiniSiem.RedisCounters
import MiniSiem.TenantKeys

/-! # The counters as programs of atomic commands

`increment_counter`, `incr_by`, `get_counter`, `set_counter` and `refresh_key` of `db/redis.rs` and the
rows of `system_stats` (`db/postgres.rs`), command by command.

* **Store.**  The Redis keyspace with the L1 entries of the process, and the stored rows by tenant.
* **Commands.**  Every command is atomic; a `Tick` fixes its time and whether it fails.  A failed command
  changes nothing.  A background refresh is a program of its own, so that starting one is a command
  without effect.
* **Counters.**  `count` is the number a key holds, unless it has expired.  `incrementCounter_run` to
  `refreshKey_run`: alone and at one moment, the programs are the functions of `RedisCache`. -/

namespace MiniSiem

open Atomic

/-- A row of `system_stats`. -/
structure StatsRow where
  totalLogs : Int64
  totalAlerts : Int64
  activeAlerts : Int64
  criticalAlerts : Int64
deriving DecidableEq

/-- What `get_stats` returns without a row. -/
def StatsRow.zero : StatsRow := ⟨0, 0, 0, 0⟩

def StatsRow.column (row : StatsRow) : StatsCounter → Int64
  | .totalLogs => row.totalLogs
  | .totalAlerts => row.totalAlerts
  | .activeAlerts => row.activeAlerts
  | .criticalAlerts => row.criticalAlerts

structure StatsStore where
  cache : RedisCache
  stats : String → Option StatsRow

/-- The snapshot of a tenant. -/
def StatsStore.snapshot (s : StatsStore) (tenantId : String) : StatsRow := (s.stats tenantId).getD .zero

inductive CounterFailure where
  | redis (e : RedisError)
  | notParsed
  | unavailable (message : String)
deriving DecidableEq

namespace RedisValue

/-- The text of a value as an unsigned number below the bound. -/
def parse (bound : ℤ) : RedisValue → Option ℤ
  | int n => if 0 ≤ n ∧ n < bound then some n else none
  | other => none

theorem parse_bounds {bound n : ℤ} {value : RedisValue} (h : value.parse bound = some n) :
    0 ≤ n ∧ n < bound := by
  cases value with
  | other => cases h
  | int m =>
      unfold parse at h
      dsimp only at h
      split_ifs at h with hbounds
      obtain rfl := Option.some.inj h
      exact hbounds

def number : RedisValue → Option ℤ
  | int n => some n
  | other => none

end RedisValue

namespace RedisCache

/-- `EXPIRE key seconds` on a key that may have expired. -/
def expireLive (c : RedisCache) (now : DateTime) (key : String) (seconds : Int64) : RedisCache :=
  let entry := if seconds.toInt ≤ 0 then none
    else (c.live now key).map fun e => { e with expireAt := some (now.millis + seconds.toInt * 1000) }
  { c with keys := Function.update c.keys key entry }

/-- `SET key value`. -/
def set (c : RedisCache) (key : String) (value : UInt64) : RedisCache :=
  { c with keys := Function.update c.keys key (some ⟨.int value.toNat, none⟩) }

def l1Insert (c : RedisCache) (key : String) (entry : L1Entry) : RedisCache :=
  { c with l1 := Function.update c.l1 key (some entry) }

def l1Remove (c : RedisCache) (key : String) : RedisCache :=
  { c with l1 := Function.update c.l1 key none }

/-- The number that a key holds. -/
def count (c : RedisCache) (now : DateTime) (key : String) : Option ℤ :=
  (c.live now key).bind fun e => e.value.number

end RedisCache

theorem live_eq_some_iff {c : RedisCache} {now : DateTime} {key : String} {e : RedisEntry} :
    c.live now key = some e ↔ c.keys key = some e ∧ ∀ deadline ∈ e.expireAt, now.millis ≤ deadline := by
  unfold RedisCache.live
  rw [Option.filter_eq_some_iff]
  refine and_congr_right fun _ => ?_
  cases e.expireAt with
  | none => simp
  | some deadline => simp

theorem live_congr {c c' : RedisCache} {now : DateTime} {key : String} (h : c'.keys key = c.keys key) :
    c'.live now key = c.live now key := by
  unfold RedisCache.live
  rw [h]

theorem statsKey_inj {tenantId tenantId' : String} {counter counter' : StatsCounter} :
    statsKey tenantId counter = statsKey tenantId' counter' ↔
      tenantId = tenantId' ∧ counter = counter' := by
  constructor
  · intro h
    have hkeys : (TenantKey.stats counter).text tenantId = (TenantKey.stats counter').text tenantId' := h
    obtain ⟨htenant, htail⟩ := List.append_inj' (TenantKey.text_eq_text.mp hkeys) rfl
    refine ⟨words_inj.mp htenant, ?_⟩
    have htext : counter.text.toList = counter'.text.toList := by simpa [TenantKey.tail] using htail
    revert htext
    cases counter <;> cases counter' <;> decide
  · rintro ⟨rfl, rfl⟩
    rfl

/-! ### Commands -/

inductive StatsCmd where
  | incr (key : String)
  | incrBy (key : String) (delta : Int64)
  | expire (key : String) (seconds : Int64)
  | get (key : String)
  | set (key : String) (value : UInt64)
  | l1Get (key : String)
  | l1Insert (key : String) (entry : L1Entry)
  | l1Remove (key : String)
  | now
  | spawnRefresh (key : String)
  | allowFixedWindow (tenantId resource : String)
  | selectStats (tenantId : String)
  | upsertStats (tenantId : String) (row : StatsRow)
deriving DecidableEq

abbrev StatsCmd.Reply : StatsCmd → Type
  | incr _ => Except CounterFailure ℤ
  | incrBy _ _ => Except CounterFailure ℤ
  | expire _ _ => Except CounterFailure Unit
  | get _ => Except CounterFailure (Option RedisValue)
  | set _ _ => Except CounterFailure Unit
  | l1Get _ => Option L1Entry
  | l1Insert _ _ => Unit
  | l1Remove _ => Unit
  | now => DateTime
  | spawnRefresh _ => Unit
  | allowFixedWindow _ _ => Except String Bool
  | selectStats _ => Except String (Option StatsRow)
  | upsertStats _ _ => Except String Unit

/-- The reply and the cache after a command to Redis, unless it fails. -/
def Tick.attemptRedis {β : Type} (tick : Tick) (s : StatsStore) (result : Except RedisError β × RedisCache) :
    Except CounterFailure β × StatsStore :=
  match tick.fault with
  | some e => (.error (.unavailable e), s)
  | none => (result.1.mapError .redis, { s with cache := result.2 })

/-- The effect of a command. -/
def execStats (tick : Tick) : (c : StatsCmd) → StatsStore → c.Reply × StatsStore
  | .incr key, s => tick.attemptRedis s (s.cache.incr tick.clock key)
  | .incrBy key delta, s => tick.attemptRedis s (s.cache.incrby tick.clock key delta.toInt)
  | .expire key seconds, s => tick.attemptRedis s (.ok (), s.cache.expireLive tick.clock key seconds)
  | .get key, s => tick.attemptRedis s (.ok ((s.cache.live tick.clock key).map (·.value)), s.cache)
  | .set key value, s => tick.attemptRedis s (.ok (), s.cache.set key value)
  | .l1Get key, s => (s.cache.l1 key, s)
  | .l1Insert key entry, s => ((), { s with cache := s.cache.l1Insert key entry })
  | .l1Remove key, s => ((), { s with cache := s.cache.l1Remove key })
  | .now, s => (tick.clock, s)
  | .spawnRefresh _, s => ((), s)
  | .allowFixedWindow _ _, s =>
      (match tick.fault with
        | some e => .error e
        | none => .ok tick.withinLimit, s)
  | .selectStats tenantId, s =>
      (match tick.fault with
        | some e => .error e
        | none => .ok (s.stats tenantId), s)
  | .upsertStats tenantId row, s =>
      match tick.fault with
      | some e => (.error e, s)
      | none => (.ok (), { s with stats := Function.update s.stats tenantId (some row) })

/-- The key of Redis that a command may change. -/
def StatsCmd.writes : StatsCmd → Option String
  | incr key | incrBy key _ | expire key _ | set key _ => some key
  | _ => none

/-- A command that may change Redis or the database. -/
def StatsCmd.durable : StatsCmd → Bool
  | incr _ | incrBy _ _ | expire _ _ | set _ _ | upsertStats _ _ => true
  | _ => false

theorem StatsCmd.writes_of_durable {c : StatsCmd} (h : c.durable = false) : c.writes = none := by
  cases c with
  | incr _ | incrBy _ _ | expire _ _ | set _ _ => cases h
  | _ => rfl

theorem attemptRedis_keys {β : Type} {tick : Tick} {s : StatsStore} {key : String}
    {result : Except RedisError β × RedisCache} (h : result.2.keys key = s.cache.keys key) :
    (tick.attemptRedis s result).2.cache.keys key = s.cache.keys key := by
  unfold Tick.attemptRedis
  cases tick.fault with
  | none => exact h
  | some e => rfl

theorem attemptRedis_cache {β : Type} {tick : Tick} {s : StatsStore}
    {result : Except RedisError β × RedisCache} :
    (tick.attemptRedis s result).2.cache = if tick.fault = none then result.2 else s.cache := by
  unfold Tick.attemptRedis
  cases tick.fault <;> rfl

theorem execStats_set (tick : Tick) (s : StatsStore) (key : String) (value : UInt64) :
    (execStats tick (.set key value) s).2.cache =
      if tick.fault = none then s.cache.set key value else s.cache := attemptRedis_cache

theorem execStats_expire (tick : Tick) (s : StatsStore) (key : String) (seconds : Int64) :
    (execStats tick (.expire key seconds) s).2.cache =
      if tick.fault = none then s.cache.expireLive tick.clock key seconds else s.cache := attemptRedis_cache

/-- A command to Redis that has not failed. -/
theorem attemptRedis_eq_ok {β : Type} {tick : Tick} {s s' : StatsStore}
    {result : Except RedisError β × RedisCache} {r : β} (h : tick.attemptRedis s result = (.ok r, s')) :
    result.1 = .ok r ∧ s' = { s with cache := result.2 } := by
  unfold Tick.attemptRedis at h
  cases hfault : tick.fault with
  | some e =>
      rw [hfault] at h
      cases congrArg Prod.fst h
  | none =>
      rw [hfault] at h
      obtain ⟨hreply, hstore⟩ := Prod.mk.inj h
      refine ⟨?_, hstore.symm⟩
      cases hresult : result.1 with
      | error e =>
          rw [hresult] at hreply
          cases hreply
      | ok r' =>
          rw [hresult] at hreply
          cases hreply
          rfl

/-- Every other key keeps its entry. -/
theorem execStats_frame {tick : Tick} {c : StatsCmd} {s : StatsStore} {key : String}
    (h : c.writes ≠ some key) : (execStats tick c s).2.cache.keys key = s.cache.keys key := by
  have hne : ∀ k, some k ≠ some key → key ≠ k := fun k hk he => hk (by rw [he])
  cases c with
  | incr k => exact attemptRedis_keys (s.cache.incr_frame tick.clock (hne k h))
  | incrBy k delta => exact attemptRedis_keys (incrby_same (hne k h) s.cache delta.toInt).1
  | expire k seconds => exact attemptRedis_keys (Function.update_of_ne (hne k h) _ _)
  | get k => exact attemptRedis_keys rfl
  | set k value => exact attemptRedis_keys (Function.update_of_ne (hne k h) _ _)
  | upsertStats tenantId row =>
      unfold execStats
      cases tick.fault <;> rfl
  | _ => rfl

/-- Only an `upsertStats` changes the rows. -/
theorem execStats_stats {tick : Tick} {c : StatsCmd} {s : StatsStore}
    (h : ∀ tenantId row, c ≠ .upsertStats tenantId row) : (execStats tick c s).2.stats = s.stats := by
  have hattempt : ∀ {β : Type} (result : Except RedisError β × RedisCache),
      (tick.attemptRedis s result).2.stats = s.stats := by
    intro β result
    unfold Tick.attemptRedis
    cases tick.fault <;> rfl
  cases c with
  | upsertStats tenantId row => exact absurd rfl (h tenantId row)
  | incr _ | incrBy _ _ | expire _ _ | get _ | set _ _ => exact hattempt _
  | _ => rfl

abbrev StatsProg := Prog StatsCmd StatsCmd.Reply

/-! ### The programs of the cache -/

namespace Counters

/-- What the operations end with: the L1 entry is the one of this moment. -/
def refreshL1 {α : Type} (key : String) (value : UInt64) (hits : UInt64) (result : α) : StatsProg α :=
  .call .now fun now => .call (.l1Insert key ⟨value, now.timestamp, hits⟩) fun _ => .ret result

/-- `increment_counter`. -/
def incrementCounter (key : String) (expirySeconds : UInt64) :
    StatsProg (Except CounterFailure UInt32) :=
  .call (.incr key) fun
    | .error e => .ret (.error e)
    | .ok n =>
        let count := UInt32.ofInt n
        if count = 1 then
          .call (.expire key expirySeconds.toInt64) fun
            | .error e => .ret (.error e)
            | .ok _ => refreshL1 key count.toUInt64 1 (.ok count)
        else refreshL1 key count.toUInt64 1 (.ok count)

/-- `incr_by`. -/
def incrBy (key : String) (delta expirySeconds : UInt64) : StatsProg (Except CounterFailure UInt32) :=
  .call (.incrBy key delta.toInt64) fun
    | .error e => .ret (.error e)
    | .ok n =>
        .call (.expire key expirySeconds.toInt64) fun
          | .error e => .ret (.error e)
          | .ok _ => refreshL1 key (UInt64.ofInt n) 1 (.ok (if n < 0 then 0 else UInt32.ofInt n))

/-- The value of an L1 entry, and a background refresh of a stale one. -/
def answerL1 (key : String) (v : L1Entry) (now : DateTime) :
    StatsProg (Except CounterFailure (Option UInt32)) :=
  if now.timestamp - v.ts > 30 then
    .call (.spawnRefresh key) fun _ => .ret (.ok (some v.value.toUInt32))
  else .ret (.ok (some v.value.toUInt32))

/-- `get_counter`. -/
def getCounter (key : String) : StatsProg (Except CounterFailure (Option UInt32)) :=
  .call (.l1Get key) fun
    | some v =>
        let hits := if v.hits = 18446744073709551615 then v.hits else v.hits + 1
        .call (.l1Insert key { v with hits }) fun _ => .call .now fun now => answerL1 key v now
    | none =>
        .call (.get key) fun
          | .error e => .ret (.error e)
          | .ok none => .ret (.ok none)
          | .ok (some value) =>
              match value.parse 4294967296 with
              | none => .ret (.error .notParsed)
              | some n => refreshL1 key (UInt64.ofInt n) 1 (.ok (some (UInt32.ofInt n)))

/-- `set_counter`. -/
def setCounter (key : String) (value : UInt64) (expirySeconds : Option UInt64) :
    StatsProg (Except CounterFailure Unit) :=
  .call (.set key value) fun
    | .error e => .ret (.error e)
    | .ok _ =>
        match expirySeconds with
        | none => refreshL1 key value 1 (.ok ())
        | some exp =>
            .call (.expire key exp.toInt64) fun
              | .error e => .ret (.error e)
              | .ok _ => refreshL1 key value 1 (.ok ())

/-- `refresh_key`. -/
def refreshKey (key : String) : StatsProg (Except CounterFailure Unit) :=
  .call (.get key) fun
    | .error e => .ret (.error e)
    | .ok none => .ret (.ok ())
    | .ok (some value) =>
        match value.parse 18446744073709551616 with
        | none => .ret (.error .notParsed)
        | some n =>
            .call .now fun now => .call (.l1Get key) fun entry =>
              .call (.l1Insert key ⟨UInt64.ofInt n, now.timestamp, (entry.map (·.hits)).getD 1⟩) fun _ =>
                .ret (.ok ())

/-- What `start_l1_maintenance` is to do with one key: it removes an entry older than `maxAgeSecs`.  In the
program the removal blocks, since the guard of the entry is held. -/
def evictCold (maxAgeSecs : UInt64) (key : String) : StatsProg Unit :=
  .call .now fun now => .call (.l1Get key) fun
    | none => .ret ()
    | some v =>
        if now.timestamp - v.ts > maxAgeSecs.toInt64.toInt then .call (.l1Remove key) fun _ => .ret ()
        else .ret ()

end Counters

/-! ### The commands of the programs -/

/-- Whatever the replies, every command of the program is such a command. -/
abbrev OnlyIssues {α : Type} (Q : StatsCmd → Prop) (p : StatsProg α) : Prop :=
  p.Ensures (fun _ _ _ => True) (fun _ c => Q c) ()

section commands

variable {Q : StatsCmd → Prop} (hQ : ∀ c : StatsCmd, c.durable = false → Q c)
include hQ

theorem refreshL1_onlyIssues {α : Type} (key : String) (value hits : UInt64) (result : α) :
    OnlyIssues Q (Counters.refreshL1 key value hits result) :=
  fun _ _ => ⟨hQ _ rfl, fun _ _ => fun _ _ => ⟨hQ _ rfl, fun _ _ => trivial⟩⟩

theorem answerL1_onlyIssues (key : String) (v : L1Entry) (now : DateTime) :
    OnlyIssues Q (Counters.answerL1 key v now) := by
  unfold Counters.answerL1
  split_ifs
  · exact fun _ _ => ⟨hQ _ rfl, fun _ _ => trivial⟩
  · trivial

theorem getCounter_onlyIssues (key : String) : OnlyIssues Q (Counters.getCounter key) := by
  refine fun _ _ => ⟨hQ _ rfl, fun r _ => ?_⟩
  cases r with
  | some v =>
      refine fun _ _ => ⟨hQ _ rfl, fun _ _ => fun _ _ => ⟨hQ _ rfl, fun now _ => ?_⟩⟩
      exact answerL1_onlyIssues hQ key v now
  | none =>
      refine fun _ _ => ⟨hQ _ rfl, fun r _ => ?_⟩
      rcases r with e | _ | value
      · trivial
      · trivial
      · dsimp only
        cases value.parse 4294967296 with
        | none => trivial
        | some n => exact refreshL1_onlyIssues hQ _ _ _ _

theorem incrementCounter_onlyIssues {key : String} {expirySeconds : UInt64} (hincr : Q (.incr key))
    (hexpire : Q (.expire key expirySeconds.toInt64)) :
    OnlyIssues Q (Counters.incrementCounter key expirySeconds) := by
  refine fun _ _ => ⟨hincr, fun r _ => ?_⟩
  cases r with
  | error e => trivial
  | ok n =>
      dsimp only
      split_ifs
      · refine fun _ _ => ⟨hexpire, fun r _ => ?_⟩
        cases r with
        | error e => trivial
        | ok _ => exact refreshL1_onlyIssues hQ _ _ _ _
      · exact refreshL1_onlyIssues hQ _ _ _ _

theorem incrBy_onlyIssues {key : String} {delta expirySeconds : UInt64}
    (hincr : Q (.incrBy key delta.toInt64)) (hexpire : Q (.expire key expirySeconds.toInt64)) :
    OnlyIssues Q (Counters.incrBy key delta expirySeconds) := by
  refine fun _ _ => ⟨hincr, fun r _ => ?_⟩
  cases r with
  | error e => trivial
  | ok n =>
      refine fun _ _ => ⟨hexpire, fun r _ => ?_⟩
      cases r with
      | error e => trivial
      | ok _ => exact refreshL1_onlyIssues hQ _ _ _ _

theorem setCounter_onlyIssues {key : String} {value expirySeconds : UInt64} (hset : Q (.set key value))
    (hexpire : Q (.expire key expirySeconds.toInt64)) :
    OnlyIssues Q (Counters.setCounter key value (some expirySeconds)) := by
  refine fun _ _ => ⟨hset, fun r _ => ?_⟩
  cases r with
  | error e => trivial
  | ok _ =>
      refine fun _ _ => ⟨hexpire, fun r _ => ?_⟩
      cases r with
      | error e => trivial
      | ok _ => exact refreshL1_onlyIssues hQ _ _ _ _

theorem refreshKey_onlyIssues (key : String) : OnlyIssues Q (Counters.refreshKey key) := by
  refine fun _ _ => ⟨hQ _ rfl, fun r _ => ?_⟩
  rcases r with e | _ | value
  · trivial
  · trivial
  · dsimp only
    cases value.parse 18446744073709551616 with
    | none => trivial
    | some n =>
        exact fun _ _ => ⟨hQ _ rfl, fun _ _ => fun _ _ => ⟨hQ _ rfl, fun _ _ => fun _ _ =>
          ⟨hQ _ rfl, fun _ _ => trivial⟩⟩⟩

theorem evictCold_onlyIssues (maxAgeSecs : UInt64) (key : String) :
    OnlyIssues Q (Counters.evictCold maxAgeSecs key) := by
  refine fun _ _ => ⟨hQ _ rfl, fun now _ => fun _ _ => ⟨hQ _ rfl, fun entry _ => ?_⟩⟩
  cases entry with
  | none => trivial
  | some v =>
      dsimp only
      split_ifs
      · exact fun _ _ => ⟨hQ _ rfl, fun _ _ => trivial⟩
      · trivial

end commands

/-! ### The programs at one moment -/

section moment

variable {tick : Tick} (hfault : tick.fault = none) (s : StatsStore) (key : String)
include hfault

theorem attemptRedis_ok {β : Type} (result : Except RedisError β × RedisCache) :
    tick.attemptRedis s result = (result.1.mapError .redis, { s with cache := result.2 }) := by
  unfold Tick.attemptRedis
  rw [hfault]

omit hfault in
theorem answerL1_run (v : L1Entry) (now : DateTime) :
    (Counters.answerL1 key v now).run (execStats tick) s = (.ok (some v.value.toUInt32), s) := by
  unfold Counters.answerL1
  split_ifs <;> rfl

theorem getCounter_run :
    ((Counters.getCounter key).run (execStats tick) s).1.toOption =
        (s.cache.getCounter tick.clock key).1.toOption ∧
      ((Counters.getCounter key).run (execStats tick) s).2 =
        { s with cache := (s.cache.getCounter tick.clock key).2 } := by
  unfold Counters.getCounter RedisCache.getCounter
  rw [Prog.run_call]
  cases hl1 : s.cache.l1 key with
  | some v =>
      simp only [execStats, hl1, Prog.run_call, answerL1_run]
      exact ⟨rfl, rfl⟩
  | none =>
      simp only [execStats, hl1, Prog.run_call, attemptRedis_ok hfault]
      rcases s.cache.live tick.clock key with _ | ⟨n | _, deadline⟩
      · exact ⟨rfl, rfl⟩
      · simp only [Option.map_some, Except.mapError, RedisValue.parse]
        by_cases hrange : 0 ≤ n ∧ n < 4294967296
        · rw [if_pos hrange, if_pos hrange]
          exact ⟨rfl, rfl⟩
        · rw [if_neg hrange, if_neg hrange]
          exact ⟨rfl, rfl⟩
      · exact ⟨rfl, rfl⟩

omit hfault in
/-- A number that is counted on, or starts without an expiry, has not expired. -/
theorem live_counted {c : RedisCache} {now : DateTime} {n : ℤ} {expireAt : Option ℤ}
    (h : expireAt = none ∨ ∃ m, c.live now key = some ⟨.int m, expireAt⟩) :
    let c' : RedisCache := { c with keys := Function.update c.keys key (some ⟨.int n, expireAt⟩) }
    ∃ e, c'.keys key = some e ∧ c'.live now key = some e := by
  have hkey := Function.update_self key (some (⟨.int n, expireAt⟩ : RedisEntry)) c.keys
  refine ⟨_, hkey, live_eq_some_iff.mpr ⟨hkey, ?_⟩⟩
  rcases h with rfl | ⟨m, hlive⟩
  · exact fun _ hd => nomatch hd
  · exact (live_eq_some_iff.mp hlive).2

omit hfault in
/-- What an increment leaves has not expired. -/
theorem live_incrby {c c' : RedisCache} {now : DateTime} {delta n : ℤ}
    (h : c.incrby now key delta = (.ok n, c')) : ∃ e, c'.keys key = some e ∧ c'.live now key = some e := by
  obtain ⟨expireAt, rfl, hfound⟩ := RedisCache.incrby_eq_ok h
  exact live_counted key (hfound.imp (·.2.2) fun hlive => ⟨_, hlive⟩)

omit hfault in
theorem live_incr {c c' : RedisCache} {now : DateTime} {n : ℤ} (h : c.incr now key = (.ok n, c')) :
    ∃ e, c'.keys key = some e ∧ c'.live now key = some e := by
  rw [RedisCache.incr_eq_incrby] at h
  exact live_incrby key h

omit hfault in
/-- The expiry of a key that has not expired. -/
theorem expireLive_of_live {c : RedisCache} {now : DateTime} {e : RedisEntry} (hkey : c.keys key = some e)
    (hlive : c.live now key = some e) (seconds : Int64) :
    c.expireLive now key seconds = c.expire now key seconds := by
  unfold RedisCache.expireLive RedisCache.expire
  rw [hkey, hlive]

theorem incrementCounter_run (expirySeconds : UInt64) :
    (Counters.incrementCounter key expirySeconds).run (execStats tick) s =
      ((s.cache.incrementCounter tick.clock key expirySeconds).1.mapError .redis,
        { s with cache := (s.cache.incrementCounter tick.clock key expirySeconds).2 }) := by
  unfold Counters.incrementCounter RedisCache.incrementCounter
  simp only [Prog.run_call, execStats, attemptRedis_ok hfault]
  rcases hr : s.cache.incr tick.clock key with ⟨_ | n, c₁⟩
  · rfl
  · simp only [Except.mapError]
    by_cases hone : UInt32.ofInt n = 1
    · rw [if_pos hone, if_pos hone]
      obtain ⟨e, hkey, hlive⟩ := live_incr key hr
      simp only [Prog.run_call, execStats, attemptRedis_ok hfault, expireLive_of_live key hkey hlive]
      rfl
    · rw [if_neg hone, if_neg hone]
      rfl

theorem incrBy_run (delta expirySeconds : UInt64) :
    (Counters.incrBy key delta expirySeconds).run (execStats tick) s =
      ((s.cache.incrBy tick.clock key delta expirySeconds).1.mapError .redis,
        { s with cache := (s.cache.incrBy tick.clock key delta expirySeconds).2 }) := by
  unfold Counters.incrBy RedisCache.incrBy
  simp only [Prog.run_call, execStats, attemptRedis_ok hfault]
  rcases hr : s.cache.incrby tick.clock key delta.toInt64.toInt with ⟨_ | n, c₁⟩
  · rfl
  · obtain ⟨e, hkey, hlive⟩ := live_incrby key hr
    simp only [Except.mapError, Prog.run_call, execStats, attemptRedis_ok hfault,
      expireLive_of_live key hkey hlive]
    rfl

theorem refreshKey_run :
    ((Counters.refreshKey key).run (execStats tick) s).2 =
      { s with cache := s.cache.refreshKey tick.clock key } := by
  unfold Counters.refreshKey RedisCache.refreshKey
  simp only [Prog.run_call, execStats, attemptRedis_ok hfault]
  rcases s.cache.live tick.clock key with _ | ⟨n | _, deadline⟩
  · rfl
  · simp only [Option.map_some, Except.mapError, RedisValue.parse]
    by_cases hrange : 0 ≤ n ∧ n < 18446744073709551616
    · rw [if_pos hrange, if_pos hrange]
      rfl
    · rw [if_neg hrange, if_neg hrange]
      rfl
  · rfl

end moment

end MiniSiem
