import MiniSiem.CounterPrograms
import MiniSiem.Lib.Runs

/-! # The stored totals

The `stats_sync` task and `final_stats_checkpoint` of `main.rs`: a cycle reads four counters from Redis
and writes them over the row of the empty tenant in `system_stats`.

* **Cycle.**  The rest of the system changes the cache at any time, so each read finds a cache of its own;
  what it returns is what the L1 entry or Redis holds at that moment (`read_eq`).  A read that fails or
  finds nothing counts as zero.  A cycle that the shutdown stops before its write has no effect.
* **Runs.**  `totals_kept_iff`: the totals are never replaced by smaller ones exactly when, in every cycle
  that is written, both are found no smaller than stored, or not found when nothing above zero is. -/

namespace MiniSiem

open Atomic

def syncKey (counter : StatsCounter) : String := "siem:stats:" ++ counter.text

inductive SyncCmd
  | getCounter (counter : StatsCounter)
  | saveStats (tenantId : String) (row : StatsRow)

abbrev SyncCmd.Reply : SyncCmd → Type
  | getCounter _ => Except CounterFailure (Option UInt32)
  | saveStats _ _ => Except String Unit

abbrev SyncProg := Prog SyncCmd SyncCmd.Reply

/-- `.ok().flatten().map(|v| v as i64).unwrap_or(0)`. -/
def orZero (reply : Except CounterFailure (Option UInt32)) : Int64 :=
  (reply.toOption.join.map fun v => v.toUInt64.toInt64).getD 0

/-- The four counters, written over the row. -/
def saveCounters : SyncProg (Except String Unit) :=
  .call (.getCounter .totalLogs) fun totalLogs => .call (.getCounter .totalAlerts) fun totalAlerts =>
    .call (.getCounter .activeAlerts) fun activeAlerts =>
      .call (.getCounter .criticalAlerts) fun criticalAlerts =>
        .call (.saveStats "" ⟨orZero totalLogs, orZero totalAlerts, orZero activeAlerts,
          orZero criticalAlerts⟩) .ret

/-- A cycle of `stats_sync`. -/
def syncStats : SyncProg (Except String Unit) := saveCounters

/-- `final_stats_checkpoint`. -/
def finalStatsCheckpoint : SyncProg (Except String Unit) := saveCounters

/-! ### Cycles -/

/-- The cache that a read finds, and whether Redis answers. -/
structure StatsRead where
  cache : RedisCache
  tick : Tick

structure SyncCycle where
  reads : StatsCounter → StatsRead
  save : Tick

inductive SyncEvent
  | sync (cycle : SyncCycle)
  | checkpoint (cycle : SyncCycle)

abbrev StatsTable := String → Option StatsRow

/-- The effect of a command on the stored rows. -/
def SyncCycle.exec (cycle : SyncCycle) : (c : SyncCmd) → StatsTable → c.Reply × StatsTable
  | .getCounter counter, rows =>
      let read := cycle.reads counter
      (((Counters.getCounter (syncKey counter)).run (execStats read.tick) ⟨read.cache, rows⟩).1, rows)
  | .saveStats tenantId row, rows =>
      let (reply, store) := execStats cycle.save (.upsertStats tenantId row) ⟨⟨fun _ => none, fun _ => none⟩, rows⟩
      (reply, store.stats)

namespace SyncEvent

def cycle : SyncEvent → SyncCycle
  | sync c | checkpoint c => c

def prog : SyncEvent → SyncProg (Except String Unit)
  | sync _ => syncStats
  | checkpoint _ => finalStatsCheckpoint

/-- The rows after the event. -/
def exec (e : SyncEvent) (rows : StatsTable) : StatsTable := (e.prog.run e.cycle.exec rows).2

end SyncEvent

def syncStep (rows : StatsTable) (e : SyncEvent) : Option StatsTable := some (e.exec rows)

/-- The stored totals are still stored, and no smaller. -/
def TotalsKept (rows rows' : StatsTable) : Prop :=
  ∀ tenantId, ∀ row ∈ rows tenantId, ∃ row' ∈ rows' tenantId,
    row.totalLogs ≤ row'.totalLogs ∧ row.totalAlerts ≤ row'.totalAlerts

/-- The number that a read finds: in the L1 cache, as far as a `u32` holds it, or else in Redis, if it
answers and holds a `u32`. -/
def StatsRead.held (read : StatsRead) (key : String) : Option ℤ :=
  match read.cache.l1 key with
  | some entry => some (entry.value.toNat % 4294967296)
  | none => if read.tick.fault.isSome then none
      else (read.cache.live read.tick.clock key).bind fun e => e.value.parse 4294967296

/-- The counter is found no smaller than stored; or it is not found, and nothing above zero is stored. -/
def SyncCycle.Covers (cycle : SyncCycle) (row : StatsRow) (counter : StatsCounter) : Prop :=
  match (cycle.reads counter).held (syncKey counter) with
  | some n => (row.column counter).toInt ≤ n
  | none => (row.column counter).toInt ≤ 0

/-- A cycle that is written covers both stored totals. -/
def CoversStored (rows : StatsTable) (e : SyncEvent) : Prop :=
  e.cycle.save.fault = none → ∀ row ∈ rows "",
    e.cycle.Covers row .totalLogs ∧ e.cycle.Covers row .totalAlerts

/-! ### One cycle -/

section cycle

variable {rows : StatsTable}

theorem toInt_of_u32 (v : UInt32) : v.toUInt64.toInt64.toInt = v.toNat := by
  have hsize : v.toNat < 4294967296 := v.toNat_lt
  have hnat : v.toUInt64.toBitVec.toNat = v.toNat := v.toNat_toUInt64
  show v.toUInt64.toBitVec.toInt = v.toNat
  rw [BitVec.toInt_eq_toNat_of_lt (by rw [hnat]; omega), hnat]

/-- What a read returns. -/
theorem read_eq (cycle : SyncCycle) (counter : StatsCounter) (rows : StatsTable) :
    (orZero (cycle.exec (.getCounter counter) rows).1).toInt =
      ((cycle.reads counter).held (syncKey counter)).getD 0 := by
  unfold SyncCycle.exec StatsRead.held orZero Counters.getCounter
  dsimp only
  rw [Prog.run_call]
  cases hl1 : (cycle.reads counter).cache.l1 (syncKey counter) with
  | some v =>
      simp only [execStats, hl1, Prog.run_call, answerL1_run]
      show v.value.toUInt32.toUInt64.toInt64.toInt = _
      rw [toInt_of_u32, UInt64.toNat_toUInt32]
      rfl
  | none =>
      simp only [execStats, hl1, Prog.run_call]
      cases hfault : (cycle.reads counter).tick.fault with
      | some e =>
          unfold Tick.attemptRedis
          rw [hfault]
          rfl
      | none =>
          rw [attemptRedis_ok hfault]
          cases (cycle.reads counter).cache.live (cycle.reads counter).tick.clock (syncKey counter) with
          | none => rfl
          | some e =>
              simp only [Option.map_some, Except.mapError, Option.bind_some]
              cases hparse : e.value.parse 4294967296 with
              | none => rfl
              | some n =>
                  obtain ⟨hzero, hsize⟩ := RedisValue.parse_bounds hparse
                  show (UInt32.ofInt n).toUInt64.toInt64.toInt = n
                  rw [toInt_of_u32]
                  unfold UInt32.ofInt
                  rw [UInt32.toNat_ofNat']
                  omega

/-- The rows after an event. -/
theorem exec_eq (e : SyncEvent) (rows : StatsTable) :
    e.exec rows = if e.cycle.save.fault = none then
        Function.update rows "" (some ⟨orZero (e.cycle.exec (.getCounter .totalLogs) rows).1,
          orZero (e.cycle.exec (.getCounter .totalAlerts) rows).1,
          orZero (e.cycle.exec (.getCounter .activeAlerts) rows).1,
          orZero (e.cycle.exec (.getCounter .criticalAlerts) rows).1⟩)
      else rows := by
  have hprog : e.prog = saveCounters := by cases e <;> rfl
  unfold SyncEvent.exec
  rw [hprog]
  show ((execStats e.cycle.save (.upsertStats "" _) _).2).stats = _
  unfold execStats
  cases e.cycle.save.fault with
  | none => rfl
  | some e => rfl

/-- A counter that is covered is not replaced by less. -/
theorem covers_iff (cycle : SyncCycle) (row : StatsRow) (counter : StatsCounter) (rows : StatsTable) :
    row.column counter ≤ orZero (cycle.exec (.getCounter counter) rows).1 ↔ cycle.Covers row counter := by
  rw [Int64.le_iff_toInt_le, read_eq]
  unfold SyncCycle.Covers
  cases (cycle.reads counter).held (syncKey counter) with
  | none => exact Iff.rfl
  | some n => exact Iff.rfl

theorem totalsKept_iff (rows : StatsTable) (e : SyncEvent) :
    TotalsKept rows (e.exec rows) ↔ CoversStored rows e := by
  have hrefl : ∀ (rows' : StatsTable) (tenantId : String), rows' tenantId = rows tenantId →
      ∀ row ∈ rows tenantId, ∃ row' ∈ rows' tenantId,
        row.totalLogs ≤ row'.totalLogs ∧ row.totalAlerts ≤ row'.totalAlerts := by
    intro rows' tenantId hsame row hrow
    exact ⟨row, hsame ▸ hrow, Int64.le_refl _, Int64.le_refl _⟩
  unfold TotalsKept CoversStored
  rw [exec_eq]
  by_cases hsaved : e.cycle.save.fault = none
  · rw [if_pos hsaved]
    constructor
    · intro h _ row hrow
      obtain ⟨row', hrow', hlogs, halerts⟩ := h "" row hrow
      rw [Function.update_self] at hrow'
      obtain rfl := Option.some.inj hrow'
      exact ⟨(covers_iff e.cycle row .totalLogs rows).mp hlogs,
        (covers_iff e.cycle row .totalAlerts rows).mp halerts⟩
    · intro h tenantId
      by_cases htenant : tenantId = ""
      · subst htenant
        rw [Function.update_self]
        intro row hrow
        obtain ⟨hlogs, halerts⟩ := h hsaved row hrow
        exact ⟨_, rfl, (covers_iff e.cycle row .totalLogs rows).mpr hlogs,
          (covers_iff e.cycle row .totalAlerts rows).mpr halerts⟩
      · exact hrefl _ tenantId (Function.update_of_ne htenant _ _)
  · rw [if_neg hsaved]
    exact iff_of_true (fun tenantId => hrefl rows tenantId rfl) fun hfault => absurd hfault hsaved

end cycle

/-- **The stored totals.** -/
theorem totals_kept_iff (rows : StatsTable) (es : List SyncEvent) :
    Runs.Meets syncStep (fun rows e => TotalsKept rows (e.exec rows)) es rows ↔
      Runs.Meets syncStep CoversStored es rows := by
  have hsame : (fun rows (e : SyncEvent) => TotalsKept rows (e.exec rows)) = CoversStored := by
    funext rows e
    exact propext (totalsKept_iff rows e)
  rw [hsame]

/-! ### An outage -/

def tenLogs : StatsTable := fun tenantId => if tenantId = "" then some ⟨10, 2, 1, 0⟩ else none

/-- Redis does not answer, the L1 entries are gone, and the database is up. -/
def outageCycle : SyncCycle where
  reads := fun _ =>
    ⟨⟨fun _ => none, fun _ => none⟩, { clock := .ofSeconds 0, fault := some "connection refused" }⟩
  save := { clock := .ofSeconds 0 }

/-- The cycle replaces the totals by zero. -/
theorem outage_erases_totals :
    ¬ ∀ (rows : StatsTable) (es : List SyncEvent),
      Runs.Meets syncStep (fun rows e => TotalsKept rows (e.exec rows)) es rows := by
  intro h
  have hkept : TotalsKept tenLogs ((SyncEvent.sync outageCycle).exec tenLogs) :=
    (h tenLogs [.sync outageCycle]).1
  have hafter : (SyncEvent.sync outageCycle).exec tenLogs "" = some ⟨0, 0, 0, 0⟩ := by decide +kernel
  obtain ⟨row, hrow, hlogs, -⟩ := hkept "" ⟨10, 2, 1, 0⟩ rfl
  rw [hafter] at hrow
  obtain rfl := Option.some.inj hrow
  exact absurd hlogs (by decide)

end MiniSiem
