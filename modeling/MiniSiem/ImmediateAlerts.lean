import MiniSiem.AlertCases
import MiniSiem.AlertCounters
import MiniSiem.AlertEvidence

/-! # Immediate processing of an alert

What `process_log` does with an alert when Kafka is unavailable, `handle_alert` of `alerting/manager.rs`,
beside what the alert worker and a flush of the batcher do with an alert that comes from Kafka.

* **Stores.**  The tables with the alerts and the cases, the counters in Redis, and the response actions
  that are started.  The message to Slack is left out.
* **Elsewhere.**  `handle_alert` is also a writer of the alerts table and a program that notifies; both do
  what `handleAlert` says (`handleAlert_written`, `handleAlert_notified`).
* **Paths.**  `handleAlert` inserts a row and starts the actions.  `viaKafka` starts the actions, opens a
  case for a Critical or High alert, counts the alert, and flushes it.
* **Store by store.**  `immediate_storeByStore`: the actions are the same, the rows are if the alert is not
  merged into an open one, the cases are if none is opened, and the counters never are.
* **Paths apart.**  `immediate_differs`: so the two paths never leave the same. -/

namespace MiniSiem

open Atomic

/-! ### The response engine -/

/-- The policies by tenant and rule, and by tenant and severity. -/
structure ResponseEngine (Action : Type) where
  rulePolicies : String × String → Option (List Action)
  severityPolicies : String × AlertSeverity → Option (List Action)

namespace ResponseEngine

variable {Action : Type} (engine : ResponseEngine Action) (alert : Alert)

/-- `collect_actions`. -/
def collectActions : List Action :=
  (match engine.rulePolicies (alert.tenantId, alert.ruleId) with
    | some actions => actions
    | none => (engine.rulePolicies ("*", alert.ruleId)).getD []) ++
  (engine.severityPolicies (alert.tenantId, alert.severity)).getD [] ++
  (engine.severityPolicies ("*", alert.severity)).getD []

/-- `preview_actions`. -/
def previewActions (name : Action → String) : List String := (engine.collectActions alert).map name

/-- The actions that `handle_alert` of the engine starts. -/
def handleAlert : List Action := engine.collectActions alert

end ResponseEngine

/-! ### The two paths -/

structure AlertStores where
  backend : Backend
  stats : StatsStore

namespace AlertStores

def alerts (s : AlertStores) : AlertsTable := s.backend.db.alerts

def cases (s : AlertStores) : List CaseRecord := s.backend.data.cases

def withAlerts (s : AlertStores) (t : AlertsTable) : AlertStores :=
  { s with backend := { s.backend with db := { s.backend.db with alerts := t } } }

end AlertStores

structure AlertOutcome (Action : Type) where
  stores : AlertStores
  started : List Action

/-- What the commands of the Kafka path meet: the orders of a flush, a tick for every command on the
tables, and the moment at which the alert is counted. -/
structure AlertPathEnv where
  batch : BatchEnv
  ticks : ℕ → Tick
  now : DateTime

/-- Each command takes the next tick. -/
def execInTurn (ticks : ℕ → Tick) (c : BackendCmd) (s : ℕ × Backend) : c.Reply × (ℕ × Backend) :=
  let (reply, b) := execBackend (ticks s.1) c s.2
  (reply, s.1 + 1, b)

section paths

variable {Action : Type} (engine : ResponseEngine Action) (name : Action → String) (env : AlertPathEnv)
  (s : AlertStores) (alert : Alert)

/-- `handle_alert` of `alerting/manager.rs`, and whether it succeeds. -/
def handleAlert (fault : Bool) : AlertOutcome Action × Bool :=
  match s.alerts.createAlert fault alert with
  | none => (⟨s, []⟩, false)
  | some t => (⟨s.withAlerts t, engine.handleAlert alert⟩, true)

/-- The case of the alert, if it opens one. -/
def caseOfAlert : Except CaseFailure Unit × Backend :=
  if alert.opensCase then
    let (result, _, b) :=
      (openCase (fun a => engine.previewActions a name) alert).run (execInTurn env.ticks) (0, s.backend)
    (result, b)
  else (.ok (), s.backend)

/-- What the alert worker leaves; the channel to the batcher has room. -/
def processAlert : AlertStores where
  backend := (caseOfAlert engine name env s alert).2
  stats := ((countAlert alert).run (execStats { clock := env.now }) s.stats).2

/-- The alert worker, and a flush of the batcher. -/
def viaKafka : AlertOutcome Action :=
  let worked := processAlert engine name env s alert
  ⟨worked.withAlerts (flushBatch env.batch .none worked.alerts [alert]).1.table, engine.handleAlert alert⟩

/-- All commands of the Kafka path succeed. -/
structure KafkaPathSucceeds : Prop where
  opened : (caseOfAlert engine name env s alert).1 = .ok ()
  counted : (countAlert alert).succeeds (execStats { clock := env.now }) StatsCmd.failed s.stats = true
  flushed : FlushSucceeds env.batch .none (processAlert engine name env s alert).alerts [alert]

end paths

/-! ### Equal up to identifiers and times -/

/-- The rows differ in the identifier and the times only. -/
def AlertRow.Alike (r r' : AlertRow) : Prop :=
  { r' with
    id := r.id
    firstSeen := r.firstSeen
    lastSeen := r.lastSeen
    createdAt := r.createdAt
    updatedAt := r.updatedAt } = r

/-- The cases differ in the identifiers and the times only. -/
def CaseRecord.Alike (c c' : CaseRecord) : Prop :=
  { c' with
    id := c.id
    playbookId := c.playbookId
    slaDueAt := c.slaDueAt
    escalationAt := c.escalationAt
    escalatedAt := c.escalatedAt
    resolvedAt := c.resolvedAt
    createdAt := c.createdAt
    updatedAt := c.updatedAt } = c

/-- The alert counters of every tenant are the same at the moment. -/
def SameCounters (now : DateTime) (s s' : AlertStores) : Prop :=
  ∀ tenantId counter, counter ≠ .totalLogs →
    s.stats.cache.count now (statsKey tenantId counter) =
      s'.stats.cache.count now (statsKey tenantId counter)

structure SameEffects {Action : Type} (now : DateTime) (x y : AlertOutcome Action) : Prop where
  alerts : List.Forall₂ AlertRow.Alike x.stores.alerts.rows y.stores.alerts.rows
  cases : List.Forall₂ CaseRecord.Alike x.stores.cases y.stores.cases
  counters : SameCounters now x.stores y.stores
  actions : ∀ action, action ∈ x.started ↔ action ∈ y.started

theorem AlertRow.Alike.refl (r : AlertRow) : r.Alike r := rfl

theorem CaseRecord.Alike.refl (c : CaseRecord) : c.Alike c := rfl

/-! ### The case of an alert -/

section opening

variable {ticks : ℕ → Tick} {alert : Alert} {n : ℕ} {b : Backend}

/-- What every command keeps, whatever its tick, a program keeps. -/
theorem run_keeps {α : Type} {Q : BackendCmd → Prop} {J : Backend → Prop}
    (hJ : ∀ c tick b, Q c → J b → J (execBackend tick c b).2) {p : BackendProg α} (hp : Issues Q p)
    (hb : J b) : J (p.run (execInTurn ticks) (n, b)).2.2 :=
  Prog.Ensures.run_invariant (J := fun s : ℕ × Backend => J s.2) (fun _ _ => trivial)
    (fun c s hc hs => hJ c (ticks s.1) s.2 hc hs) hp hb

theorem sideCommand_cases {c : BackendCmd} (h : SideCommand alert c) (tick : Tick) (b : Backend) :
    (execBackend tick c b).2.data.cases = b.data.cases := by
  obtain hsame | ⟨dc, reply, data, rfl, -, hrun, hdata⟩ := execBackend_data tick b c
  · rw [hsame]
  · have htable : dc.table ≠ some .cases := by
      cases dc with
      | insertCase record => exact h.elim
      | updateCase l tenantId id columns => exact h.elim
      | _ => exact fun h => by cases h
    rw [hdata]
    exact DataCmd.run_frame (t := .cases) hrun htable

theorem run_side {α : Type} {p : BackendProg α} (hp : Issues (SideCommand alert) p) :
    (p.run (execInTurn ticks) (n, b)).2.2.data.cases = b.data.cases :=
  run_keeps (J := fun b' => b'.data.cases = b.data.cases)
    (fun _ tick b' hc hb' => (sideCommand_cases hc tick b').trans hb') hp rfl

/-- The number of cases does not go down, and a case that is inserted adds to it. -/
def CasesGrow (w : ℕ) : (c : BackendCmd) → c.Reply → ℕ → Prop
  | .data (.insertCase _), reply, w' => w ≤ w' ∧ (reply.isOk = true → w < w')
  | _, _, w' => w ≤ w'

theorem casesGrow_le {w w' : ℕ} {c : BackendCmd} {reply : c.Reply} (h : CasesGrow w c reply w') :
    w ≤ w' := by
  unfold CasesGrow at h
  split at h
  · exact h.1
  · exact h

theorem casesGrow_exec (tick : Tick) (c : BackendCmd) (b : Backend) :
    CasesGrow b.data.cases.length c (execBackend tick c b).1
      (execBackend tick c b).2.data.cases.length := by
  cases c with
  | db c => exact le_rfl
  | getAlert tenantId id =>
      unfold execBackend
      cases tick.fault <;> exact le_rfl
  | data dc =>
      obtain ⟨e, hexec⟩ | ⟨reply, data, -, hrun, hexec⟩ := execBackend_cases tick b dc
      · rw [hexec]
        cases dc with
        | insertCase record => exact ⟨le_rfl, fun h => by cases h⟩
        | _ => exact le_rfl
      · rw [hexec]
        by_cases htable : dc.table = some .cases
        · cases dc with
          | insertCase record =>
              obtain ⟨_, _, -, rfl⟩ := TenantData.insertCase_ok hrun
              have hgrows : b.data.cases.length < (b.data.cases ++ [record.stored]).length := by simp
              exact ⟨hgrows.le, fun _ => hgrows⟩
          | updateCase l tenantId id columns =>
              obtain ⟨_, _, _, -, -, rfl⟩ := TenantData.updateCase_ok hrun
              exact (KeyedList.length_updateKey ..).ge
          | _ => cases htable
        · have hcases : data.cases = b.data.cases := DataCmd.run_frame (t := .cases) hrun htable
          have hlength : b.data.cases.length ≤ data.cases.length := by rw [hcases]
          cases dc with
          | insertCase record => exact absurd rfl htable
          | _ => exact hlength

/-- A case is inserted, unless the program fails. -/
def AddsCase {α : Type} (w₀ w : ℕ) (result : Except CaseFailure α) : Prop := result.isOk = true → w₀ < w

section yields

variable {w w₀ : ℕ} (hle : w₀ ≤ w)
include hle

theorem later_yields {α : Type} (p : BackendProg α) : p.Yields CasesGrow (fun w' _ => w₀ ≤ w') w :=
  Prog.yields_later (fun _ _ _ _ => casesGrow_le) hle

theorem insertCaseOfAlert_adds {new : NewCase} (playbook : Option CasePlaybook) :
    (insertCaseOfAlert alert new playbook).Yields CasesGrow (AddsCase w₀) w := by
  refine Prog.yields_call fun w₁ h₁ now w₂ h₂ => Prog.yields_call fun w₃ h₃ caseId w₄ h₄ => ?_
  have h₂' : w₁ ≤ w₂ := h₂
  have h₄' : w₃ ≤ w₄ := h₄
  have hlater : w₀ ≤ w₄ := by omega
  split
  · refine Prog.yields_call fun w₅ h₅ inserted w₆ h₆ => ?_
    cases inserted with
    | error e => exact Prog.yields_ret fun h => by cases h
    | ok record =>
        have hinserted : w₅ < w₆ := h₆.2 rfl
        refine Prog.yields_call fun w₇ h₇ linked w₈ h₈ => ?_
        have h₈' : w₇ ≤ w₈ := h₈
        cases linked with
        | error e => exact Prog.yields_ret fun h => by cases h
        | ok u =>
            have hadded : w₀ + 1 ≤ w₈ := by omega
            refine (later_yields hadded _).bind fun w₉ _ h₉ => Prog.yields_ret fun _ => ?_
            exact h₉
  · exact Prog.yields_ret fun h => by cases h

/-- `create_case_from_alert` of an alert without a case. -/
theorem newCase_adds {new : NewCase} (playbookId : Option Uuid) :
    ((ensureDefaultCasePlaybooks alert.tenantId).bind fun
      | .error e => .ret (.error (.error e))
      | .ok () =>
          (choosePlaybook alert.tenantId playbookId).bind fun
            | .error e => .ret (.error (.error e))
            | .ok playbook => insertCaseOfAlert alert new playbook).Yields CasesGrow (AddsCase w₀) w := by
  refine (later_yields hle _).bind fun w₁ ensured h₁ => ?_
  cases ensured with
  | error e => exact Prog.yields_ret fun h => by cases h
  | ok u =>
      refine (later_yields h₁ _).bind fun w₂ chosen h₂ => ?_
      cases chosen with
      | error e => exact Prog.yields_ret fun h => by cases h
      | ok playbook => exact insertCaseOfAlert_adds h₂ playbook

end yields

/-- The lookup of the case fails, or finds what the tables have. -/
theorem lookup_reply (tick : Tick) :
    (∃ e, (execBackend tick (.data (.getCaseByAlertId alert.tenantId alert.id)) b).1 = .error e) ∨
      (execBackend tick (.data (.getCaseByAlertId alert.tenantId alert.id)) b).1 =
        .ok (b.data.getCaseByAlertId alert.tenantId alert.id) := by
  obtain ⟨e, hexec⟩ | ⟨reply, data, -, hrun, hexec⟩ :=
    execBackend_cases tick b (.getCaseByAlertId alert.tenantId alert.id)
  · exact .inl ⟨e, by rw [hexec]⟩
  · obtain ⟨rfl, -⟩ := Prod.mk.inj (Except.ok.inj hrun)
    exact .inr (by rw [hexec])

theorem lookup_cases (tick : Tick) :
    (execBackend tick (.data (.getCaseByAlertId alert.tenantId alert.id)) b).2.data.cases =
      b.data.cases := by
  have hside : SideCommand alert (.data (.getCaseByAlertId alert.tenantId alert.id)) := ⟨rfl, rfl⟩
  exact sideCommand_cases hside tick b

/-- The worker goes on with the case that it has got, if it has got one. -/
theorem openCase_eq_bind (previewActions : Alert → List String) (alert : Alert) :
    ∃ respond, openCase previewActions alert = (createCaseFromAlert alert {} none).bind respond ∧
      (∀ result, Issues (SideCommand alert) (respond result)) ∧
      ∀ failure, respond (.error failure) = .ret (.error failure) := by
  refine ⟨_, rfl, fun result => ?_, fun failure => rfl⟩
  cases result with
  | error failure => trivial
  | ok record =>
      dsimp only
      split_ifs
      · trivial
      · exact (recordCaseEvent_issues trivial (fun _ => trivial) _ _ _ _ _ _ _).bind fun _ => trivial

theorem openCase_found (previewActions : Alert → List String)
    (h : (b.data.getCaseByAlertId alert.tenantId alert.id).isSome = true) :
    ((openCase previewActions alert).run (execInTurn ticks) (n, b)).2.2.data.cases = b.data.cases := by
  obtain ⟨existing, hexisting⟩ := Option.isSome_iff_exists.mp h
  obtain ⟨respond, hopen, hrespond, -⟩ := openCase_eq_bind previewActions alert
  rw [hopen, Prog.run_bind]
  refine (run_side (hrespond _)).trans ?_
  unfold createCaseFromAlert
  rw [Prog.run_call]
  obtain ⟨e, hreply⟩ | hreply := @lookup_reply alert b (ticks n)
  · simp only [execInTurn, hreply, Prog.run_ret, lookup_cases]
  · simp only [execInTurn, hreply, hexisting, Prog.run_ret, lookup_cases]

/-- A program alone that adds a case unless it fails. -/
theorem run_adds {α : Type} {w₀ : ℕ} {p : BackendProg (Except CaseFailure α)}
    (hp : p.Yields CasesGrow (AddsCase w₀) b.data.cases.length)
    (hok : (p.run (execInTurn ticks) (n, b)).1.isOk = true) :
    w₀ < (p.run (execInTurn ticks) (n, b)).2.2.data.cases.length :=
  @Prog.Yields.run _ ℕ _ (ℕ × Backend) _ _ CasesGrow (AddsCase w₀) (execInTurn ticks)
    (fun s => s.2.data.cases.length) (fun c s => casesGrow_exec (ticks s.1) c s.2) p (n, b) hp hok

theorem openCase_new (previewActions : Alert → List String)
    (h : b.data.getCaseByAlertId alert.tenantId alert.id = none)
    (hok : ((openCase previewActions alert).run (execInTurn ticks) (n, b)).1 = .ok ()) :
    b.data.cases.length <
      ((openCase previewActions alert).run (execInTurn ticks) (n, b)).2.2.data.cases.length := by
  obtain ⟨respond, hopen, -, herror⟩ := openCase_eq_bind previewActions alert
  rw [hopen] at hok ⊢
  unfold createCaseFromAlert at hok ⊢
  rw [Prog.call_bind, Prog.run_call] at hok ⊢
  obtain ⟨e, hreply⟩ | hreply := @lookup_reply alert b (ticks n)
  · simp only [execInTurn, hreply, Prog.ret_bind, herror, Prog.run_ret] at hok
    cases hok
  · have hbefore : b.data.cases.length ≤
        (execBackend (ticks n) (.data (.getCaseByAlertId alert.tenantId alert.id))
          b).2.data.cases.length := by
      rw [lookup_cases]
    rw [h] at hreply
    simp only [execInTurn, hreply] at hok ⊢
    refine run_adds ?_ (by rw [hok]; rfl)
    refine (newCase_adds hbefore none).bind fun w result hresult => ?_
    cases result with
    | error failure =>
        rw [herror]
        exact Prog.yields_ret fun h => by cases h
    | ok record =>
        have hadded : b.data.cases.length + 1 ≤ w := hresult rfl
        refine Prog.Yields.imp ?_ (later_yields hadded _)
        exact fun _ _ hlater _ => hlater

end opening

/-! ### The counters -/

section counters

variable {c c' : RedisCache} {now : DateTime} {key : String} {n : ℤ}

/-- `INCR` leaves another number, which lives on. -/
theorem incr_count (h : c.incr now key = (.ok n, c')) :
    (∃ e, c'.keys key = some e ∧ c'.live now key = some e ∧ e.value = .int n) ∧
      c.count now key ≠ some n := by
  obtain ⟨e, hkey, hlive⟩ := live_incr key h
  obtain ⟨expireAt, rfl, hbefore⟩ := RedisCache.incr_eq_ok h
  have hentry : (⟨.int n, expireAt⟩ : RedisEntry) = e :=
    Option.some.inj ((Function.update_self key _ c.keys).symm.trans hkey)
  refine ⟨⟨e, hkey, hlive, by rw [← hentry]⟩, ?_⟩
  unfold RedisCache.count
  rcases hbefore with ⟨hnone, -, -⟩ | hbefore
  · rw [hnone]
    exact fun h => nomatch h
  · rw [hbefore]
    intro h
    have hsame : n - 1 = n := Option.some.inj h
    omega

/-- A counter that is incremented has another number at that moment. -/
theorem incrementCounter_count (hok : (c.incr now key).1.isOk = true) :
    (c.incrementCounter now key 86400).2.count now key ≠ c.count now key := by
  obtain ⟨⟨e | n, c'⟩, hincr⟩ : ∃ r, c.incr now key = r := ⟨_, rfl⟩
  · rw [hincr] at hok
    cases hok
  · obtain ⟨⟨e, hkey, hlive, hvalue⟩, hother⟩ := incr_count hincr
    suffices hafter : (c.incrementCounter now key 86400).2.count now key = some n by
      rw [hafter]
      exact hother.symm
    unfold RedisCache.incrementCounter
    rw [hincr]
    dsimp only
    unfold RedisCache.count
    split_ifs
    · -- the first increment sets the expiry, a day from now
      have hexpiry : (c'.expire now key (86400 : UInt64).toInt64).keys key =
          some { e with expireAt := some (now.millis + 86400000) } := by
        unfold RedisCache.expire
        rw [hkey]
        exact Function.update_self ..
      have hlives : (c'.expire now key (86400 : UInt64).toInt64).live now key =
          some { e with expireAt := some (now.millis + 86400000) } := by
        refine live_eq_some_iff.mpr ⟨hexpiry, fun deadline hdeadline => ?_⟩
        obtain rfl := Option.some.inj hdeadline
        omega
      show ((c'.expire now key (86400 : UInt64).toInt64).live now key).bind _ = _
      rw [hlives, Option.bind_some, hvalue]
      rfl
    · show (c'.live now key).bind _ = _
      rw [hlive, Option.bind_some, hvalue]
      rfl

end counters

section counting

variable {alert : Alert} {s : StatsStore} {now : DateTime}

/-- What follows the count of an alert leaves the total alone. -/
theorem afterTotal_onlyIssues (ta : Except CounterFailure UInt32) :
    OnlyIssues (fun c => c.writes ≠ some (statsKey alert.tenantId .totalAlerts))
      ((Counters.incrementCounter (statsKey alert.tenantId .activeAlerts) 86400).bind fun aa =>
        if alert.severity = .critical then
          (Counters.incrementCounter (statsKey alert.tenantId .criticalAlerts) 86400).bind fun _ =>
            reportStats alert.tenantId ta aa
        else reportStats alert.tenantId ta aa) := by
  have hincrement : ∀ counter : StatsCounter, counter.IsPart →
      OnlyIssues (fun c => c.writes ≠ some (statsKey alert.tenantId .totalAlerts))
        (Counters.incrementCounter (statsKey alert.tenantId counter) 86400) := by
    intro counter hpart
    have hkey : some (statsKey alert.tenantId counter) ≠ some (statsKey alert.tenantId .totalAlerts) :=
      fun h => hpart.statsKey_ne alert.tenantId (Option.some.inj h)
    refine incrementCounter_onlyIssues (fun c hc => ?_) hkey hkey
    rw [StatsCmd.writes_of_durable hc]
    exact (Option.some_ne_none _).symm
  have hreport : ∀ aa, OnlyIssues (fun c => c.writes ≠ some (statsKey alert.tenantId .totalAlerts))
      (reportStats alert.tenantId ta aa) := fun aa =>
    (reportStats_spares alert.tenantId ta aa).imp fun _ _ hspares => hspares .totalAlerts
  refine (hincrement .activeAlerts (.inr rfl)).bind fun _ _ aa => ?_
  split_ifs
  · exact (hincrement .criticalAlerts (.inl rfl)).bind fun _ _ _ => hreport aa
  · exact hreport aa

theorem run_keys {α : Type} {tick : Tick} {key : String} {p : StatsProg α}
    (hp : OnlyIssues (fun c => c.writes ≠ some key) p) :
    (p.run (execStats tick) s).2.cache.keys key = s.cache.keys key := by
  have hframe : ∀ (c : StatsCmd) (s' : StatsStore), c.writes ≠ some key →
      s'.cache.keys key = s.cache.keys key →
      (execStats tick c s').2.cache.keys key = s.cache.keys key :=
    fun c s' hc hs => (execStats_frame hc).trans hs
  exact Prog.Ensures.run_invariant (J := fun s' : StatsStore => s'.cache.keys key = s.cache.keys key)
    (fun _ _ => trivial) hframe hp rfl

theorem incr_of_succeeds (hok : (countAlert alert).succeeds (execStats { clock := now })
      StatsCmd.failed s = true) :
    (s.cache.incr now (statsKey alert.tenantId .totalAlerts)).1.isOk = true := by
  obtain ⟨hfirst, -⟩ := Bool.and_eq_true_iff.mp hok
  have hexec : (execStats { clock := now } (.incr (statsKey alert.tenantId .totalAlerts)) s).1.isOk =
      true := by
    simpa [StatsCmd.failed] using hfirst
  have hreply : (Tick.attemptRedis { clock := now } s
      (s.cache.incr now (statsKey alert.tenantId .totalAlerts))).1.isOk = true := hexec
  rw [attemptRedis_ok rfl] at hreply
  cases hincr : (s.cache.incr now (statsKey alert.tenantId .totalAlerts)).1 with
  | error e =>
      rw [hincr] at hreply
      cases hreply
  | ok n => rfl

theorem countAlert_count (hok : (countAlert alert).succeeds (execStats { clock := now })
      StatsCmd.failed s = true) :
    ((countAlert alert).run (execStats { clock := now }) s).2.cache.count now
        (statsKey alert.tenantId .totalAlerts) ≠
      s.cache.count now (statsKey alert.tenantId .totalAlerts) := by
  have hcounted := incrementCounter_count (incr_of_succeeds hok)
  have hfault : ({ clock := now } : Tick).fault = none := rfl
  unfold countAlert
  rw [Prog.run_bind, incrementCounter_run hfault]
  unfold RedisCache.count at hcounted ⊢
  rw [live_congr (run_keys (afterTotal_onlyIssues _))]
  exact hcounted

end counting

/-! ### Store by store -/

section stores

variable {Action : Type} {engine : ResponseEngine Action} {name : Action → String} {env : AlertPathEnv}
  {s : AlertStores} {alert : Alert} {fault : Bool}

/-- What a successful `handle_alert` leaves. -/
theorem handleAlert_ok (h : (handleAlert engine s alert fault).2 = true) :
    ∃ t, s.alerts.createAlert fault alert = some t ∧
      (handleAlert engine s alert fault).1 = ⟨s.withAlerts t, engine.handleAlert alert⟩ := by
  unfold handleAlert at h ⊢
  cases hcreate : s.alerts.createAlert fault alert with
  | none =>
      rw [hcreate] at h
      cases h
  | some t => exact ⟨t, rfl, rfl⟩

/-- The writer of the alerts table leaves the same table. -/
theorem handleAlert_written (order : RowOrder) :
    (AlertWriter.handleAlert alert).prog.run (execAlert ⟨fault, order⟩) s.alerts =
      ((handleAlert engine s alert fault).2, (handleAlert engine s alert fault).1.stores.alerts) := by
  have hwritten : (AlertWriter.handleAlert alert).prog.run (execAlert ⟨fault, order⟩) s.alerts =
      written s.alerts (s.alerts.createAlert fault alert) := rfl
  rw [hwritten]
  unfold handleAlert
  cases s.alerts.createAlert fault alert <;> rfl

/-- The program that notifies leaves the same table, and tells Slack exactly if the alert is stored. -/
theorem handleAlert_notified {env : NotifyEnv} {store : NotifyStore}
    (h : env.others store.alerts = s.alerts) :
    ((NotifyM.handleAlert alert).run (NotifyStore.exec env) store).2 =
      let (left, stored) := handleAlert engine s alert env.fault
      { store with
        alerts := left.stores.alerts
        slackCalls := if stored then store.slackCalls ++ [⟨alert.id, alert⟩] else store.slackCalls } := by
  unfold NotifyM.handleAlert NotifyM.single handleAlert
  rw [Prog.call_bind, Prog.run_call]
  dsimp only [NotifyStore.exec, Prog.ret_bind]
  rw [h]
  cases s.alerts.createAlert env.fault alert <;> rfl

/-- The response actions that are started are the same. -/
theorem started_same (h : (handleAlert engine s alert fault).2 = true) :
    (handleAlert engine s alert fault).1.started = (viaKafka engine name env s alert).started := by
  obtain ⟨t, -, hleft⟩ := handleAlert_ok h
  rw [hleft]
  rfl

theorem processAlert_alerts : (processAlert engine name env s alert).alerts = s.alerts := by
  unfold processAlert AlertStores.alerts caseOfAlert
  split_ifs
  · exact run_keeps (J := fun b => b.db.alerts = s.backend.db.alerts)
      (fun c tick b hc hb => (exec_opensOnly hc tick b).1.trans hb) (openCase_opensOnly _ alert) rfl
  · rfl

theorem viaKafka_cases : (viaKafka engine name env s alert).stores.cases =
    (caseOfAlert engine name env s alert).2.data.cases := rfl

/-- The rows are the same if the address has no open row with the key of the alert. -/
theorem rows_alike_iff (h : (handleAlert engine s alert fault).2 = true)
    (hkafka : KafkaPathSucceeds engine name env s alert) :
    List.Forall₂ AlertRow.Alike (handleAlert engine s alert fault).1.stores.alerts.rows
        (viaKafka engine name env s alert).stores.alerts.rows ↔
      openBatch env.batch s.alerts alert = none := by
  obtain ⟨t, hcreate, hleft⟩ := handleAlert_ok h
  have hinserted : (handleAlert engine s alert fault).1.stores.alerts.rows =
      s.alerts.rows ++ [AlertRow.ofAlert alert] := by
    rw [hleft]
    exact (AlertsTable.createAlertsBatch_eq_some.mp hcreate).2.2
  have hflushed : (viaKafka engine name env s alert).stores.alerts.rows = _ :=
    single_flush_rows env.batch hkafka.flushed
  rw [processAlert_alerts] at hflushed
  rw [hinserted, hflushed]
  cases hopen : openBatch env.batch s.alerts alert with
  | none =>
      exact iff_of_true (List.forall₂_same.mpr fun r _ => AlertRow.Alike.refl r) rfl
  | some r =>
      -- the flush merges the alert into a row, so there is one row less
      refine iff_of_false (fun halike => ?_) (Option.some_ne_none r)
      have hlength := halike.length_eq
      rw [List.length_append, KeyedList.length_updateKey, List.length_singleton] at hlength
      omega

/-- The cases are the same if the alert opens none, or has one already. -/
theorem cases_alike_iff (h : (handleAlert engine s alert fault).2 = true)
    (hkafka : KafkaPathSucceeds engine name env s alert) :
    List.Forall₂ CaseRecord.Alike (handleAlert engine s alert fault).1.stores.cases
        (viaKafka engine name env s alert).stores.cases ↔
      alert.opensCase = false ∨
        (s.backend.data.getCaseByAlertId alert.tenantId alert.id).isSome = true := by
  obtain ⟨t, -, hleft⟩ := handleAlert_ok h
  have hkept : (handleAlert engine s alert fault).1.stores.cases = s.backend.data.cases := by
    rw [hleft]
    rfl
  have hopened := hkafka.opened
  rw [hkept, viaKafka_cases]
  unfold caseOfAlert at hopened ⊢
  cases hopens : alert.opensCase with
  | false =>
      refine iff_of_true ?_ (.inl rfl)
      exact List.forall₂_same.mpr fun c _ => CaseRecord.Alike.refl c
  | true =>
      rw [hopens, if_pos rfl] at hopened
      rw [if_pos rfl, or_iff_right (Bool.noConfusion : ¬ true = false)]
      cases hfound : s.backend.data.getCaseByAlertId alert.tenantId alert.id with
      | some existing =>
          refine iff_of_true ?_ rfl
          dsimp only
          rw [openCase_found _ (by rw [hfound]; rfl)]
          exact List.forall₂_same.mpr fun c _ => CaseRecord.Alike.refl c
      | none =>
          refine iff_of_false (fun halike => ?_) (Bool.noConfusion : ¬ false = true)
          exact (openCase_new _ hfound hopened).ne halike.length_eq

/-- The alert is counted on the way through Kafka only. -/
theorem counters_differ (h : (handleAlert engine s alert fault).2 = true)
    (hkafka : KafkaPathSucceeds engine name env s alert) :
    ¬ SameCounters env.now (handleAlert engine s alert fault).1.stores
      (viaKafka engine name env s alert).stores := by
  obtain ⟨t, -, hleft⟩ := handleAlert_ok h
  intro hsame
  have htotal := hsame alert.tenantId .totalAlerts (by decide)
  rw [hleft] at htotal
  exact countAlert_count hkafka.counted htotal.symm

/-- **Store by store**, what is the same after the two paths. -/
theorem immediate_storeByStore (h : (handleAlert engine s alert fault).2 = true)
    (hkafka : KafkaPathSucceeds engine name env s alert) :
    (List.Forall₂ AlertRow.Alike (handleAlert engine s alert fault).1.stores.alerts.rows
        (viaKafka engine name env s alert).stores.alerts.rows ↔
      openBatch env.batch s.alerts alert = none) ∧
    (List.Forall₂ CaseRecord.Alike (handleAlert engine s alert fault).1.stores.cases
        (viaKafka engine name env s alert).stores.cases ↔
      alert.opensCase = false ∨
        (s.backend.data.getCaseByAlertId alert.tenantId alert.id).isSome = true) ∧
    ¬ SameCounters env.now (handleAlert engine s alert fault).1.stores
      (viaKafka engine name env s alert).stores ∧
    (handleAlert engine s alert fault).1.started = (viaKafka engine name env s alert).started :=
  ⟨rows_alike_iff h hkafka, cases_alike_iff h hkafka, counters_differ h hkafka, started_same h⟩

/-- **Immediate processing never leaves what the Kafka path leaves.** -/
theorem immediate_differs (h : (handleAlert engine s alert fault).2 = true)
    (hkafka : KafkaPathSucceeds engine name env s alert) :
    ¬ SameEffects env.now (handleAlert engine s alert fault).1 (viaKafka engine name env s alert) :=
  fun hsame => counters_differ h hkafka hsame.counters

end stores

/-! ### A High alert -/

/-- Critical alerts of every tenant are posted to a hook, High ones are reported. -/
def hookEngine : ResponseEngine String where
  rulePolicies := fun _ => none
  severityPolicies := fun
    | ("*", .critical) => some ["Critical Slack Hook"]
    | ("*", .high) => some ["High Report"]
    | _ => none

def emptyStores : AlertStores := ⟨emptyBackend, ⟨⟨fun _ => none, fun _ => none⟩, fun _ => none⟩⟩

/-- Identifiers are numbered. -/
def plainPath : AlertPathEnv where
  batch := .plain
  ticks := fun n => { clock := .ofSeconds 1767225600, uuid := n.repr }
  now := .ofSeconds 1767225600

theorem severeAlert_succeeds :
    (handleAlert hookEngine emptyStores (severeAlert "a1") false).2 = true ∧
      KafkaPathSucceeds hookEngine id plainPath emptyStores (severeAlert "a1") := by
  have htable : (processAlert hookEngine id plainPath emptyStores (severeAlert "a1")).alerts =
      emptyStores.alerts := processAlert_alerts
  refine ⟨by decide +kernel, rfl, by decide +kernel, ?_⟩
  rw [htable]
  have hvisited : visitedTenants .plain [severeAlert "a1"] =
      [⟨"t1", TenantAlerts.add BatchEnv.plain.fingerprint ∅ (severeAlert "a1")⟩] := rfl
  constructor
  · show ∀ g ∈ visitedTenants .plain _, _
    rw [hvisited]
    intro g hg
    rw [List.mem_singleton.mp hg]
    decide +kernel
  · show InsertsOk .plain .none _ (visitedTenants .plain _)
    rw [hvisited]
    constructor
    · intro g hg _
      rw [List.mem_singleton.mp hg]
      exact ⟨rfl, by decide +kernel⟩
    · decide +kernel
  · show ∀ g ∈ visitedTenants .plain _, _
    rw [hvisited]
    intro g hg _
    rw [List.mem_singleton.mp hg]
    exact ⟨rfl, by decide +kernel⟩

theorem severeAlert_differs :
    ¬ SameEffects plainPath.now (handleAlert hookEngine emptyStores (severeAlert "a1") false).1
      (viaKafka hookEngine id plainPath emptyStores (severeAlert "a1")) :=
  immediate_differs severeAlert_succeeds.1 severeAlert_succeeds.2

theorem severeAlert_storeByStore :
    (List.Forall₂ AlertRow.Alike
        (handleAlert hookEngine emptyStores (severeAlert "a1") false).1.stores.alerts.rows
        (viaKafka hookEngine id plainPath emptyStores (severeAlert "a1")).stores.alerts.rows ↔
      openBatch plainPath.batch emptyStores.alerts (severeAlert "a1") = none) ∧
    (List.Forall₂ CaseRecord.Alike
        (handleAlert hookEngine emptyStores (severeAlert "a1") false).1.stores.cases
        (viaKafka hookEngine id plainPath emptyStores (severeAlert "a1")).stores.cases ↔
      (severeAlert "a1").opensCase = false ∨
        (emptyStores.backend.data.getCaseByAlertId "t1" "a1").isSome = true) ∧
    ¬ SameCounters plainPath.now (handleAlert hookEngine emptyStores (severeAlert "a1") false).1.stores
      (viaKafka hookEngine id plainPath emptyStores (severeAlert "a1")).stores ∧
    (handleAlert hookEngine emptyStores (severeAlert "a1") false).1.started =
      (viaKafka hookEngine id plainPath emptyStores (severeAlert "a1")).started :=
  immediate_storeByStore severeAlert_succeeds.1 severeAlert_succeeds.2

/-- Immediate processing neither opens the case of the alert nor counts it. -/
theorem severeAlert_left_out :
    ∃ x y : AlertOutcome String,
      (handleAlert hookEngine emptyStores (severeAlert "a1") false) = (x, true) ∧
      KafkaPathSucceeds hookEngine id plainPath emptyStores (severeAlert "a1") ∧
      viaKafka hookEngine id plainPath emptyStores (severeAlert "a1") = y ∧
      x.stores.cases = [] ∧ y.stores.cases.map (·.primaryAlertId) = ["a1"] ∧
      x.stores.stats.cache.count plainPath.now (statsKey "t1" .totalAlerts) = none ∧
      y.stores.stats.cache.count plainPath.now (statsKey "t1" .totalAlerts) = some 1 ∧
      ¬ SameEffects plainPath.now x y := by
  have hopened : (viaKafka hookEngine id plainPath emptyStores
      (severeAlert "a1")).stores.cases.map (·.primaryAlertId) = ["a1"] := by decide +kernel
  have hcounted : (viaKafka hookEngine id plainPath emptyStores
      (severeAlert "a1")).stores.stats.cache.count plainPath.now (statsKey "t1" .totalAlerts) =
        some 1 := by decide +kernel
  refine ⟨(handleAlert hookEngine emptyStores (severeAlert "a1") false).1, _,
    Prod.ext rfl severeAlert_succeeds.1, severeAlert_succeeds.2, rfl, by rfl, hopened, by rfl, hcounted,
    fun hsame => ?_⟩
  have hnone : ([] : List CaseRecord).length = (viaKafka hookEngine id plainPath emptyStores
      (severeAlert "a1")).stores.cases.length := hsame.cases.length_eq
  have hone := congrArg List.length hopened
  rw [List.length_map, ← hnone] at hone
  cases hone

end MiniSiem
