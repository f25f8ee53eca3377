import MiniSiem.CounterPrograms

/-! # Reading the dashboard

`get_stats` of `api/handlers/dashboard.rs`, while the counters of the tenants grow.

* **Request.**  The counters of the tenant of the claims; as soon as one of the four is not found, all
  four are set to the stored snapshot, which is zero for a tenant without a row.
* **Pool.**  Any number of requests, increments, background refreshes and evictions, command by
  command; the stored rows stay as they are.
* **Counts.**  `requests_lower_no_count_iff`: no request lowers a count exactly when, each time a request
  is about to set one, the counter is absent or not above the snapshot. -/

namespace MiniSiem

open Atomic

inductive StatsBody
  | text (s : String)
  | json (value : Json)

structure StatsResponse where
  status : ℕ
  body : StatsBody

namespace Dashboard

def respond (status : ℕ) (body : Json) : StatsProg StatsResponse := .ret ⟨status, .json body⟩

def statsJson (tenantId : String) (row : StatsRow) : Json :=
  let column (n : Int64) : Json := .num (Number.ofInt n.toInt)
  .obj [("active_alerts", column row.activeAlerts), ("critical_alerts", column row.criticalAlerts),
    ("tenant_id", .str tenantId), ("total_alerts", column row.totalAlerts),
    ("total_logs", column row.totalLogs)]

/-- `get_counter` of one of the four, as an `i64`. -/
def readCounter (tenantId : String) (counter : StatsCounter) : StatsProg (Option Int64) :=
  (Counters.getCounter (statsKey tenantId counter)).bind fun reply =>
    .ret (reply.toOption.join.map fun v => v.toUInt64.toInt64)

/-- A counter is set to its column of the snapshot; the result is ignored. -/
def seed (tenantId : String) (row : StatsRow) (counter : StatsCounter) : StatsProg Unit :=
  (Counters.setCounter (statsKey tenantId counter) (row.column counter).toUInt64 (some 86400)).bind
    fun _ => .ret ()

/-- The stored snapshot, and the counters set to it. -/
def fallback (tenantId : String) : StatsProg StatsResponse :=
  .call (.selectStats tenantId) fun
    | .error e => respond 500 (.obj [("error", .str ("failed to load stats: " ++ e))])
    | .ok stored =>
        let row := stored.getD .zero
        (seed tenantId row .totalLogs).bind fun _ => (seed tenantId row .totalAlerts).bind fun _ =>
          (seed tenantId row .activeAlerts).bind fun _ => (seed tenantId row .criticalAlerts).bind fun _ =>
            respond 200 (statsJson tenantId row)

/-- The counters, if all four are found. -/
def stats (tenantId : String) : StatsProg StatsResponse :=
  (readCounter tenantId .totalLogs).bind fun totalLogs =>
    (readCounter tenantId .totalAlerts).bind fun totalAlerts =>
      (readCounter tenantId .activeAlerts).bind fun activeAlerts =>
        (readCounter tenantId .criticalAlerts).bind fun criticalAlerts =>
          match totalLogs, totalAlerts, activeAlerts, criticalAlerts with
          | some totalLogs, some totalAlerts, some activeAlerts, some criticalAlerts =>
              respond 200 (statsJson tenantId ⟨totalLogs, totalAlerts, activeAlerts, criticalAlerts⟩)
          | _, _, _, _ => fallback tenantId

/-- `get_stats`. -/
def getStats (claims : Option Claims) : StatsProg StatsResponse :=
  match claims with
  | none => .ret ⟨401, .text "missing auth"⟩
  | some claims =>
      if !(claims.roles.contains "analyst" || claims.roles.contains "admin") then
        respond 403 (.obj [("error", .str "insufficient role")])
      else .call (.allowFixedWindow claims.tenantId "api_requests") fun
        | .ok true => stats claims.tenantId
        | .ok false => respond 429 (.obj
            [("error", .str "tenant quota exceeded"), ("resource", .str "api_requests")])
        | .error e => respond 500 (.obj [("error", .str ("quota check failed: " ++ e))])

end Dashboard

/-- What runs beside each other: a request, an increment of the ingest handlers or of the alert worker,
and what the cache does in the background. -/
inductive StatsTask
  | request (claims : Option Claims)
  | increment (tenantId : String) (counter : StatsCounter)
  | incrBy (tenantId : String) (counter : StatsCounter) (delta : UInt64)
  | refresh (key : String)
  | evict (maxAgeSecs : UInt64) (key : String)

def StatsTask.prog : StatsTask → StatsProg (Option StatsResponse)
  | request claims => (Dashboard.getStats claims).bind fun response => .ret (some response)
  | increment tenantId counter =>
      (Counters.incrementCounter (statsKey tenantId counter) 86400).bind fun _ => .ret none
  | incrBy tenantId counter delta =>
      (Counters.incrBy (statsKey tenantId counter) delta 86400).bind fun _ => .ret none
  | refresh key => (Counters.refreshKey key).bind fun _ => .ret none
  | evict maxAgeSecs key => (Counters.evictCold maxAgeSecs key).bind fun _ => .ret none

/-- The tenant of the claims of a request. -/
def StatsTask.requestTenant : StatsTask → Option String
  | request claims => claims.map (·.tenantId)
  | _ => none

def StatsTask.isRequest : StatsTask → Bool
  | request _ => true
  | _ => false

abbrev StatsPool (ι : Type) := Pool ι StatsCmd StatsCmd.Reply (Option StatsResponse) StatsStore

/-- The tasks, none of them started. -/
def statsPool {ι : Type} (tasks : ι → StatsTask) (store : StatsStore) : StatsPool ι :=
  ⟨fun i => (tasks i).prog, store⟩

/-- A count that is there is still there, and no lower. -/
def CountKept (c c' : RedisCache) (now : DateTime) (key : String) : Prop :=
  ∀ n ∈ c.count now key, ∃ n' ∈ c'.count now key, n ≤ n'

section steps

variable {ι : Type} [DecidableEq ι]

/-- A step of a request lowers no counter of any tenant. -/
def RequestLowersNone (tasks : ι → StatsTask) (s : StatsPool ι) (e : ι × Tick) : Prop :=
  (tasks e.1).isRequest = true → ∀ tenantId counter,
    CountKept s.store.cache (Pool.step execStats s e).store.cache e.2.clock (statsKey tenantId counter)

/-- A counter that a request is about to set is absent, or not above the stored snapshot. -/
def SeedsFromBelow (tasks : ι → StatsTask) (s : StatsPool ι) (e : ι × Tick) : Prop :=
  ∀ tenantId ∈ (tasks e.1).requestTenant, e.2.fault = none → ∀ c ∈ (s.progs e.1).next,
    ∀ counter value, c = .set (statsKey tenantId counter) value →
      ∀ n ∈ s.store.cache.count e.2.clock (statsKey tenantId counter),
        n ≤ (((s.store.snapshot tenantId).column counter).toUInt64.toNat : ℤ)

end steps

/-! ### What a request sets -/

/-- A read of the rows returns what is stored. -/
def RowReply (stats : String → Option StatsRow) (_ : Unit) : (c : StatsCmd) → c.Reply → Prop
  | .selectStats tenantId, reply => ∀ row, reply = .ok row → row = stats tenantId
  | _, _ => True

/-- A command that sets a counter to the snapshot, or leaves all of them alone. -/
def SetsSnapshot (stats : String → Option StatsRow) (tenantId : String) (c : StatsCmd) : Prop :=
  c.durable = false ∨ ∃ counter,
    c = .set (statsKey tenantId counter) (((stats tenantId).getD .zero).column counter).toUInt64 ∨
      c = .expire (statsKey tenantId counter) (86400 : UInt64).toInt64

/-- The commands of a task. -/
def StatsTask.Issues (stats : String → Option StatsRow) (task : StatsTask) (c : StatsCmd) : Prop :=
  (∀ tenantId row, c ≠ .upsertStats tenantId row) ∧
    (task.isRequest = true → ∃ tenantId, task.requestTenant = some tenantId ∧ SetsSnapshot stats tenantId c)

section commands

variable {stats : String → Option StatsRow} {tenantId : String}

theorem OnlyIssues.ensures {α : Type} {Q : StatsCmd → Prop} {p : StatsProg α} (h : OnlyIssues Q p) :
    p.Ensures (RowReply stats) (fun _ c => Q c) () :=
  h.of_replies fun _ _ _ _ => trivial

theorem seed_sets (counter : StatsCounter) :
    OnlyIssues (SetsSnapshot stats tenantId)
      (Dashboard.seed tenantId ((stats tenantId).getD .zero) counter) :=
  (setCounter_onlyIssues (fun _ => Or.inl) (Or.inr ⟨counter, Or.inl rfl⟩)
    (Or.inr ⟨counter, Or.inr rfl⟩)).bind fun _ _ _ => trivial

theorem fallback_sets :
    (Dashboard.fallback tenantId).Ensures (RowReply stats) (fun _ c => SetsSnapshot stats tenantId c) () := by
  refine fun _ _ => ⟨Or.inl rfl, fun r hr => ?_⟩
  cases r with
  | error e => trivial
  | ok stored =>
      obtain rfl := hr stored rfl
      have hseed : ∀ counter, (Dashboard.seed tenantId ((stats tenantId).getD .zero) counter).Ensures
          (RowReply stats) (fun _ c => SetsSnapshot stats tenantId c) () := fun counter =>
        (seed_sets counter).ensures
      exact (hseed _).bind fun _ _ _ => (hseed _).bind fun _ _ _ => (hseed _).bind fun _ _ _ =>
        (hseed _).bind fun _ _ _ => trivial

theorem readCounter_sets (counter : StatsCounter) :
    (Dashboard.readCounter tenantId counter).Ensures (RowReply stats)
      (fun _ c => SetsSnapshot stats tenantId c) () :=
  (getCounter_onlyIssues (fun _ => Or.inl) _).ensures.bind fun _ _ _ => trivial

theorem stats_sets :
    (Dashboard.stats tenantId).Ensures (RowReply stats) (fun _ c => SetsSnapshot stats tenantId c) () := by
  refine (readCounter_sets _).bind fun _ _ _ => (readCounter_sets _).bind fun _ _ _ =>
    (readCounter_sets _).bind fun _ _ _ => (readCounter_sets _).bind fun _ _ _ => ?_
  split
  · trivial
  · exact fallback_sets

theorem getStats_sets (claims : Claims) :
    (Dashboard.getStats (some claims)).Ensures (RowReply stats)
      (fun _ c => SetsSnapshot stats claims.tenantId c) () := by
  unfold Dashboard.getStats
  dsimp only
  split_ifs
  · trivial
  · refine fun _ _ => ⟨Or.inl rfl, fun r _ => ?_⟩
    rcases r with e | _ | _
    · trivial
    · trivial
    · exact stats_sets

theorem setsSnapshot_ne_upsert {c : StatsCmd} (h : SetsSnapshot stats tenantId c) (tenantId' : String)
    (row : StatsRow) : c ≠ .upsertStats tenantId' row := by
  rintro rfl
  obtain h | ⟨counter, h | h⟩ := h <;> cases h

theorem task_issues (task : StatsTask) :
    task.prog.Ensures (RowReply stats) (fun _ c => task.Issues stats c) () := by
  have hother : ∀ {α : Type} {p : StatsProg α}, task.isRequest = false →
      OnlyIssues (fun c => ∀ tenantId row, c ≠ .upsertStats tenantId row) p →
      (p.bind fun _ => (.ret none : StatsProg (Option StatsResponse))).Ensures (RowReply stats)
        (fun _ c => task.Issues stats c) () := by
    intro α p htask hp
    refine Prog.Ensures.bind ?_ fun _ _ _ => trivial
    refine hp.ensures.imp fun _ c hc => ⟨hc, fun hrequest => ?_⟩
    rw [htask] at hrequest
    cases hrequest
  have hkept : ∀ c : StatsCmd, c.durable = false → ∀ tenantId row, c ≠ .upsertStats tenantId row := by
    rintro c hc tenantId row rfl
    cases hc
  cases task with
  | request claims =>
      cases claims with
      | none => trivial
      | some claims =>
          refine Prog.Ensures.bind ?_ fun _ _ _ => trivial
          exact (getStats_sets claims).imp fun _ c hc =>
            ⟨setsSnapshot_ne_upsert hc, fun _ => ⟨claims.tenantId, rfl, hc⟩⟩
  | increment tenantId counter =>
      exact hother rfl (incrementCounter_onlyIssues hkept (by simp) (by simp))
  | incrBy tenantId counter delta =>
      exact hother rfl (incrBy_onlyIssues hkept (by simp) (by simp))
  | refresh key => exact hother rfl (refreshKey_onlyIssues hkept key)
  | evict maxAgeSecs key => exact hother rfl (evictCold_onlyIssues hkept maxAgeSecs key)

end commands

/-! ### Counts after a step -/

section counts

variable {c c' : RedisCache} {now : DateTime} {key : String}

theorem countKept_of_keys (h : c'.keys key = c.keys key) : CountKept c c' now key := by
  intro n hn
  refine ⟨n, ?_, le_rfl⟩
  unfold RedisCache.count at hn ⊢
  rw [live_congr h]
  exact hn

/-- Another day of life keeps the count. -/
theorem countKept_expire : CountKept c (c.expireLive now key (86400 : UInt64).toInt64) now key := by
  intro n hn
  obtain ⟨e, he, hnumber⟩ := Option.bind_eq_some_iff.mp hn
  have hkey : (c.expireLive now key (86400 : UInt64).toInt64).keys key =
      some { e with expireAt := some (now.millis + 86400 * 1000) } := by
    unfold RedisCache.expireLive
    rw [he]
    exact Function.update_self _ _ _
  have hlive : (c.expireLive now key (86400 : UInt64).toInt64).live now key =
      some { e with expireAt := some (now.millis + 86400 * 1000) } := by
    refine live_eq_some_iff.mpr ⟨hkey, fun deadline hdeadline => ?_⟩
    obtain rfl := Option.some.inj hdeadline
    omega
  exact ⟨n, Option.bind_eq_some_iff.mpr ⟨_, hlive, hnumber⟩, le_rfl⟩

theorem count_set (value : UInt64) : (c.set key value).count now key = some (value.toNat : ℤ) := by
  have hkey : (c.set key value).keys key = some ⟨.int value.toNat, none⟩ := Function.update_self _ _ _
  have hlive : (c.set key value).live now key = some ⟨.int value.toNat, none⟩ :=
    live_eq_some_iff.mpr ⟨hkey, fun deadline hdeadline => by cases hdeadline⟩
  exact Option.bind_eq_some_iff.mpr ⟨_, hlive, rfl⟩

theorem countKept_set {value : UInt64} :
    CountKept c (c.set key value) now key ↔ ∀ n ∈ c.count now key, n ≤ (value.toNat : ℤ) := by
  refine forall₂_congr fun n _ => ?_
  rw [count_set]
  simp

end counts

/-! ### Runs -/

section runs

variable {ι : Type} [DecidableEq ι] {tasks : ι → StatsTask} {stats : String → Option StatsRow}

/-- What holds throughout a run: the rows are those of the start, and what is left of the tasks. -/
structure Reading (tasks : ι → StatsTask) (stats : String → Option StatsRow) (s : StatsPool ι) : Prop where
  rows : s.store.stats = stats
  issues : ∀ i, (s.progs i).Ensures (RowReply stats) (fun _ c => (tasks i).Issues stats c) ()

theorem rowReply_exec {s : StatsStore} (h : s.stats = stats) (tick : Tick) (c : StatsCmd) :
    RowReply stats () c (execStats tick c s).1 := by
  cases c with
  | selectStats tenantId =>
      unfold RowReply execStats
      dsimp only
      intro row hrow
      cases hfault : tick.fault with
      | none =>
          rw [hfault] at hrow
          rw [← Except.ok.inj hrow, h]
      | some e =>
          rw [hfault] at hrow
          cases hrow
  | _ => trivial

theorem reading_step {s : StatsPool ι} (h : Reading tasks stats s) (e : ι × Tick) :
    Reading tasks stats (Pool.step execStats s e) := by
  refine ⟨?_, Pool.ensures_step h.issues e fun c => rowReply_exec h.rows e.2 c⟩
  cases hnext : (s.progs e.1).next with
  | none =>
      rw [Pool.step_finished hnext]
      exact h.rows
  | some c =>
      rw [Pool.step_store hnext, execStats_stats ((h.issues e.1).of_next hnext).1]
      exact h.rows

/-- A `SET` of a request. -/
theorem setLowersNone_iff {s : StatsStore} {tick : Tick} {tenantId : String} {counter : StatsCounter} :
    (∀ tenantId' counter', CountKept s.cache (execStats tick
        (.set (statsKey tenantId counter) ((s.snapshot tenantId).column counter).toUInt64) s).2.cache
        tick.clock (statsKey tenantId' counter')) ↔
      (tick.fault = none → ∀ n ∈ s.cache.count tick.clock (statsKey tenantId counter),
        n ≤ (((s.snapshot tenantId).column counter).toUInt64.toNat : ℤ)) := by
  constructor
  · intro h hfault
    have hkept := h tenantId counter
    rw [execStats_set, if_pos hfault] at hkept
    exact countKept_set.mp hkept
  · intro h tenantId' counter'
    by_cases hkey : statsKey tenantId counter = statsKey tenantId' counter'
    · rw [← hkey, execStats_set]
      split_ifs with hfault
      · exact countKept_set.mpr (h hfault)
      · exact countKept_of_keys rfl
    · exact countKept_of_keys (execStats_frame fun hwrites => hkey (Option.some.inj hwrites))

/-- An `EXPIRE` of a request. -/
theorem expireLowersNone {s : StatsStore} {tick : Tick} {tenantId : String} {counter : StatsCounter}
    (tenantId' : String) (counter' : StatsCounter) :
    CountKept s.cache (execStats tick
      (.expire (statsKey tenantId counter) (86400 : UInt64).toInt64) s).2.cache tick.clock
      (statsKey tenantId' counter') := by
  by_cases hkey : statsKey tenantId counter = statsKey tenantId' counter'
  · rw [← hkey, execStats_expire]
    split_ifs
    · exact countKept_expire
    · exact countKept_of_keys rfl
  · exact countKept_of_keys (execStats_frame fun hwrites => hkey (Option.some.inj hwrites))

/-- A step of a request lowers a count exactly when it sets a counter that is above the snapshot. -/
theorem requestLowersNone_iff {s : StatsPool ι} (h : Reading tasks stats s) (e : ι × Tick) :
    RequestLowersNone tasks s e ↔ SeedsFromBelow tasks s e := by
  unfold RequestLowersNone SeedsFromBelow
  cases hnext : (s.progs e.1).next with
  | none =>
      rw [Pool.step_finished hnext]
      exact iff_of_true (fun _ _ _ => countKept_of_keys rfl) fun _ _ _ c hc => by cases hc
  | some c =>
      rw [Pool.step_store hnext]
      cases hrequest : (tasks e.1).isRequest with
      | false =>
          refine iff_of_true (fun htrue => by cases htrue) fun tenantId htenant => ?_
          cases htask : tasks e.1 with
          | request claims =>
              rw [htask] at hrequest
              cases hrequest
          | _ =>
              rw [htask] at htenant
              cases htenant
      | true =>
          obtain ⟨-, hsets⟩ := (h.issues e.1).of_next hnext
          obtain ⟨tenantId, htenant, hsets⟩ := hsets hrequest
          rw [htenant]
          have hsnapshot : ∀ counter, (((stats tenantId).getD .zero).column counter) =
              (s.store.snapshot tenantId).column counter := by
            intro counter
            rw [← h.rows]
            rfl
          simp only [Option.mem_def, Option.some.injEq, forall_eq']
          obtain hdurable | ⟨counter, rfl | rfl⟩ := hsets
          · refine iff_of_true (fun _ tenantId' counter' => countKept_of_keys (execStats_frame ?_)) ?_
            · rw [StatsCmd.writes_of_durable hdurable]
              exact (Option.some_ne_none _).symm
            · rintro _ _ _ rfl
              cases hdurable
          · rw [hsnapshot]
            constructor
            · intro hlowers hfault counter' value hset
              obtain ⟨hkey, rfl⟩ := StatsCmd.set.inj hset
              obtain ⟨-, rfl⟩ := statsKey_inj.mp hkey
              exact setLowersNone_iff.mp (hlowers trivial) hfault
            · exact fun hle _ => setLowersNone_iff.mpr fun hfault => hle hfault counter _ rfl
          · refine iff_of_true (fun _ => expireLowersNone) ?_
            rintro _ _ _ hset
            cases hset

/-- **Reading the dashboard.** -/
theorem requests_lower_no_count_iff (tasks : ι → StatsTask) (store : StatsStore)
    (schedule : List (ι × Tick)) :
    Pool.Meets execStats (RequestLowersNone tasks) schedule (statsPool tasks store) ↔
      Pool.Meets execStats (SeedsFromBelow tasks) schedule (statsPool tasks store) :=
  Pool.meets_iff_meets (J := Reading tasks store.stats) (fun _ e h _ => reading_step h e)
    (fun _ e h _ => requestLowersNone_iff h e) ⟨rfl, fun i => task_issues (tasks i)⟩
    (Pool.meets_true schedule)

end runs

/-! ### A tenant without a critical alert -/

def dashboardClaims : Claims := ⟨"u1", "t1", "a@b", ["analyst"], none⟩

/-- Five logs, and nothing else. -/
def fiveLogs : StatsStore where
  cache :=
    { keys := fun key => if key = statsKey "t1" .totalLogs then some ⟨.int 5, none⟩ else none
      l1 := fun _ => none }
  stats := fun _ => none

def firstRequest (_ : Unit) : StatsTask := .request (some dashboardClaims)

/-- The request up to its first `SET`. -/
def readsOfRequest : List (Unit × Tick) := List.replicate 12 ((), { clock := .ofSeconds 0 })

/-- The request finds no critical alerts, and sets the five logs to zero. -/
theorem firstRequest_lowers :
    ¬ ∀ (tasks : Unit → StatsTask) (store : StatsStore) (schedule : List (Unit × Tick)),
      Pool.Meets execStats (RequestLowersNone tasks) schedule (statsPool tasks store) := by
  intro h
  let setTick : Unit × Tick := ((), { clock := .ofSeconds 0 })
  have hstep := Pool.Meets.at_step readsOfRequest setTick []
    (h firstRequest fiveLogs (readsOfRequest ++ [setTick]))
  have hbefore : (Pool.run execStats readsOfRequest (statsPool firstRequest fiveLogs)).store.cache.count
      (.ofSeconds 0) (statsKey "t1" .totalLogs) = some 5 := by decide +kernel
  have hafter : (Pool.step execStats (Pool.run execStats readsOfRequest (statsPool firstRequest fiveLogs))
      ((), { clock := .ofSeconds 0 })).store.cache.count (.ofSeconds 0) (statsKey "t1" .totalLogs) =
      some 0 := by decide +kernel
  obtain ⟨n, hn, hle⟩ := hstep rfl "t1" .totalLogs 5 hbefore
  rw [hafter] at hn
  obtain rfl := Option.some.inj hn
  exact absurd hle (by decide)

end MiniSiem
