import MiniSiem.AlertFallback
import MiniSiem.CaseSweep
import MiniSiem.Lib.Merging
import MiniSiem.Lib.Runs

/-! # Cases and the alerts they point at

The alert worker opens a case for the identifier of an alert; the batcher decides later whether a row
with that identifier is inserted.  `alerting/worker.rs` and `alerting/db_batcher.rs` with every database
command as a step of its own, in any order of the two tasks.

* **Worker.**  An alert is offered to `db_tx`, or saved at once if `try_send` fails; then a Critical or
  High one runs `create_case_from_alert`, one command at a time.
* **Batcher.**  A flush drains the buffer and visits one tenant after the other: the lookup of the open
  alerts, the insert of the new ones, the upsert of the known ones.
* **Identifiers.**  An alert that opens a case keeps its identifier unless it is merged into another
  alert of the buffer, into an open row of its key, or by the fallback into an open row of its
  address (`KeepsIds`).  `cases_backed`: in a run that keeps them, every case points at a row. -/

namespace MiniSiem

open Atomic.Prog

/-- Critical and High. -/
def Alert.opensCase (a : Alert) : Bool := a.severity = .critical || a.severity = .high

/-- The tenant and the identifier. -/
def Alert.ref (a : Alert) : String × Uuid := (a.tenantId, a.id)

def AlertRow.ref (r : AlertRow) : String × Uuid := (r.tenantId, r.id)

/-- The alert a case is about. -/
def CaseRecord.alertRef (c : CaseRecord) : String × Uuid := (c.tenantId, c.primaryAlertId)

def AlertsTable.refs (t : AlertsTable) : List (String × Uuid) := t.rows.map AlertRow.ref

/-! ### The two tasks -/

/-- What a flush does next. -/
inductive FlushPhase
  | visiting (rest : List TenantEntry)
  | creating (creates updates : List Alert) (rest : List TenantEntry)
  | updating (updates : List Alert) (rest : List TenantEntry)

/-- `stopping`: the flush is the one at shutdown. -/
inductive BatcherPhase
  | collecting
  | flushing (env : BatchEnv) (stopping : Bool) (phase : FlushPhase)
  | ended

def BatcherPhase.isFlushing : BatcherPhase → Bool
  | .flushing _ _ _ => true
  | _ => false

/-- `saving`: the open alert to update, or nothing if the alert is to be inserted. -/
inductive CaseWorkerPhase
  | idle
  | offering (alert : Alert)
  | searching (alert : Alert)
  | saving (alert : Alert) (existing : Option Alert)
  | opening (alert : Alert) (rest : BackendProg (Except CaseFailure Unit))
  | ended

structure CaseSystem where
  backend : Backend
  dbChannel : List Alert
  buffer : List Alert
  batcher : BatcherPhase
  worker : CaseWorkerPhase

/-- A step of one of the tasks; `fault` makes its command fail. -/
inductive CaseSystemEvent
  | receive (alert : Alert)
  | offer
  | search (order : RowOrder) (fault : Bool)
  | save (fault : Bool)
  | openCase (tick : Tick)
  | closeCase
  | stopWorker
  | collect (env : BatchEnv)
  | tick (env : BatchEnv)
  | stopBatcher (env : BatchEnv)
  | command (fault : Bool)

/-- Every command of the kind fails, or none. -/
def FlushFaults.all (fault : Bool) : FlushFaults := ⟨fun _ => fault, fun _ => fault, fun _ => fault⟩

/-- What the worker does with an alert that opens a case. -/
def openCase (previewActions : Alert → List String) (alert : Alert) :
    BackendProg (Except CaseFailure Unit) :=
  (createCaseFromAlert alert {} none).bind fun
    | .error failure => .ret (.error failure)
    | .ok record =>
        if (previewActions alert).isEmpty then .ret (.ok ())
        else (recordCaseEvent alert.tenantId record.id "response.plan_created"
            "Automated responder actions launched" none none
            (.obj [("actions", .arr ((previewActions alert).map .str)),
              ("alert_id", .str alert.id)])).bind fun _ => .ret (.ok ())

namespace CaseSystem

def start (b : Backend) : CaseSystem := ⟨b, [], [], .collecting, .idle⟩

section transitions

variable (capacity batchSize : ℕ) (previewActions : Alert → List String) (s : CaseSystem)

def table : AlertsTable := s.backend.db.alerts

def withTable (t : AlertsTable) : CaseSystem :=
  { s with backend := { s.backend with db := { s.backend.db with alerts := t } } }

/-- The worker after the alert has been offered or saved. -/
def handled (alert : Alert) : CaseWorkerPhase :=
  if alert.opensCase then .opening alert (MiniSiem.openCase previewActions alert) else .idle

/-- The batcher after a flush. -/
def afterFlush (stopping : Bool) : BatcherPhase := if stopping then .ended else .collecting

/-- The buffer is drained. -/
def startFlush (env : BatchEnv) (stopping : Bool) : CaseSystem :=
  if s.buffer.isEmpty then { s with batcher := afterFlush stopping }
  else { s with
    buffer := []
    batcher := .flushing env stopping (.visiting (visitedTenants env s.buffer)) }

/-- The next command of a flush. -/
def flushCommand (env : BatchEnv) (stopping fault : Bool) : FlushPhase → CaseSystem
  | .visiting [] => { s with batcher := afterFlush stopping }
  | .visiting (g :: rest) =>
      let existing := existingAlerts env (.all fault) s.table g.1 g.2
      { s with
        batcher := .flushing env stopping
          (.creating (toCreate env existing g.2) (toUpdate env existing g.2) rest) }
  | .creating creates updates rest =>
      match s.table.createAlertsBatch fault creates with
      | none => { s with batcher := afterFlush stopping }
      | some t => { s.withTable t with batcher := .flushing env stopping (.updating updates rest) }
  | .updating updates rest =>
      { s.withTable ((s.table.upsertAlertsBatch fault updates).getD s.table) with
        batcher := .flushing env stopping (.visiting rest) }

/-- What the fallback saves: the first open alert of the address, counting the new one, or that one. -/
def fallbackFor (order : RowOrder) (fault : Bool) (alert : Alert) : Option Alert :=
  match s.table.getOpenAlertsByIp order fault alert.tenantId alert.sourceIp with
  | some (existing :: _) =>
      some { existing with
        lastSeen := alert.lastSeen
        eventsCount := existing.eventsCount + alert.eventsCount }
  | _ => none

/-- The command that saves the alert. -/
def saveAlert (fault : Bool) (alert : Alert) : Option Alert → Option AlertsTable
  | some existing => s.table.updateAlert fault existing
  | none => s.table.createAlert fault alert

def step : CaseSystemEvent → Option CaseSystem
  | .receive alert =>
      match s.worker with
      | .idle => some { s with worker := .offering alert }
      | _ => none
  | .offer =>
      match s.worker, s.batcher with
      | .offering alert, .ended => some { s with worker := .searching alert }
      | .offering alert, _ =>
          if s.dbChannel.length < capacity then
            some { s with
              dbChannel := s.dbChannel ++ [alert]
              worker := handled previewActions alert }
          else some { s with worker := .searching alert }
      | _, _ => none
  | .search order fault =>
      match s.worker with
      | .searching alert => some { s with worker := .saving alert (s.fallbackFor order fault alert) }
      | _ => none
  | .save fault =>
      match s.worker with
      | .saving alert existing =>
          some { s.withTable ((s.saveAlert fault alert existing).getD s.table) with
            worker := handled previewActions alert }
      | _ => none
  | .openCase tick =>
      match s.worker with
      | .opening alert (.call c k) =>
          some { s with
            backend := (execBackend tick c s.backend).2
            worker := .opening alert (k (execBackend tick c s.backend).1) }
      | _ => none
  | .closeCase =>
      match s.worker with
      | .opening _ (.ret (.error .panicked)) => some { s with worker := .ended }
      | .opening _ (.ret _) => some { s with worker := .idle }
      | _ => none
  | .stopWorker =>
      match s.worker with
      | .idle => some { s with worker := .ended }
      | _ => none
  | .collect env =>
      match s.batcher, s.dbChannel with
      | .collecting, alert :: dbChannel =>
          let s := { s with dbChannel, buffer := s.buffer ++ [alert] }
          some (if batchSize ≤ s.buffer.length then s.startFlush env false else s)
      | _, _ => none
  | .tick env =>
      match s.batcher with
      | .collecting => some (s.startFlush env false)
      | _ => none
  | .stopBatcher env =>
      match s.batcher with
      | .collecting => some (s.startFlush env true)
      | _ => none
  | .command fault =>
      match s.batcher with
      | .flushing env stopping phase => some (s.flushCommand env stopping fault phase)
      | _ => none

/-- The command of the step on the alerts table, if it issues one, succeeds. -/
def succeeds : CaseSystemEvent → Bool
  | .search order fault =>
      match s.worker with
      | .searching alert =>
          (s.table.getOpenAlertsByIp order fault alert.tenantId alert.sourceIp).isSome
      | _ => true
  | .save fault =>
      match s.worker with
      | .saving alert existing => (s.saveAlert fault alert existing).isSome
      | _ => true
  | .command fault =>
      match s.batcher with
      | .flushing env _ (.visiting (g :: _)) =>
          (s.table.getOpenAlertsByIps env.rowOrder fault g.1
            (g.2.entries.map fun e => e.2.sourceIp)).isSome
      | .flushing _ _ (.creating creates _ _) => (s.table.createAlertsBatch fault creates).isSome
      | .flushing _ _ (.updating updates _) => (s.table.upsertAlertsBatch fault updates).isSome
      | _ => true
  | _ => true

/-- Each alert of the buffer that opens a case has a row already, or is the first with its key. -/
def FirstOfKeys (env : BatchEnv) (t : AlertsTable) (buffer : List Alert) : Prop :=
  ∀ a ∈ buffer, a.opensCase = true → a.ref ∈ t.refs ∨
    ((buffer.find? fun f => alertDedupKey env.fingerprint f = alertDedupKey env.fingerprint a).any
      fun f => f.id = a.id && f.opensCase) = true

/-- The address of an alert that opens a case has no open row when the worker falls back. -/
def SearchKeeps (t : AlertsTable) : CaseWorkerPhase → Prop
  | .searching alert =>
      alert.opensCase = true → alert.ref ∈ t.refs ∨ (openRows t alert).isEmpty = true
  | _ => True

/-- The key of an alert that opens a case has no open row when a flush looks the tenant up. -/
def VisitKeeps (t : AlertsTable) : BatcherPhase → Prop
  | .flushing env _ (.visiting (g :: _)) =>
      ∀ e ∈ g.2.entries, e.2.opensCase = true → e.2.ref ∈ t.refs ∨
        ∀ r ∈ t.rows, r.isOpen = true → alertDedupKey env.fingerprint r.intoAlert ≠ e.1
  | _ => True

/-- No alert that opens a case loses its identifier, unless it has a row already: it is not merged in
the buffer, nor into a row by a flush, nor into a row by the fallback. -/
def KeepsIds : CaseSystemEvent → Prop
  | .search _ _ => SearchKeeps s.table s.worker
  | .collect env =>
      batchSize ≤ s.buffer.length + 1 → FirstOfKeys env s.table (s.buffer ++ s.dbChannel.take 1)
  | .tick env => FirstOfKeys env s.table s.buffer
  | .stopBatcher env => FirstOfKeys env s.table s.buffer
  | .command _ => VisitKeeps s.table s.batcher
  | _ => True

/-- Nothing is on its way to the table. -/
structure Flushed : Prop where
  channel : s.dbChannel = []
  buffer : s.buffer = []
  batcher : s.batcher.isFlushing = false

instance : Decidable s.Flushed :=
  decidable_of_iff (s.dbChannel = [] ∧ s.buffer = [] ∧ s.batcher.isFlushing = false)
    ⟨fun h => ⟨h.1, h.2.1, h.2.2⟩, fun h => ⟨h.channel, h.buffer, h.batcher⟩⟩

instance instDecidableFirstOfKeys (env : BatchEnv) (t : AlertsTable) (buffer : List Alert) :
    Decidable (FirstOfKeys env t buffer) :=
  inferInstanceAs (Decidable (∀ a ∈ buffer, a.opensCase = true → a.ref ∈ t.refs ∨
    ((buffer.find? fun f => alertDedupKey env.fingerprint f = alertDedupKey env.fingerprint a).any
      fun f => f.id = a.id && f.opensCase) = true))

instance instDecidableSearchKeeps (t : AlertsTable) :
    (phase : CaseWorkerPhase) → Decidable (SearchKeeps t phase)
  | .searching alert => inferInstanceAs (Decidable
      (alert.opensCase = true → alert.ref ∈ t.refs ∨ (openRows t alert).isEmpty = true))
  | .idle => isTrue trivial
  | .offering _ => isTrue trivial
  | .saving _ _ => isTrue trivial
  | .opening _ _ => isTrue trivial
  | .ended => isTrue trivial

instance instDecidableVisitKeeps (t : AlertsTable) :
    (phase : BatcherPhase) → Decidable (VisitKeeps t phase)
  | .flushing env _ (.visiting (g :: _)) => inferInstanceAs (Decidable
      (∀ e ∈ g.2.entries, e.2.opensCase = true → e.2.ref ∈ t.refs ∨
        ∀ r ∈ t.rows, r.isOpen = true → alertDedupKey env.fingerprint r.intoAlert ≠ e.1))
  | .flushing _ _ (.visiting []) => isTrue trivial
  | .flushing _ _ (.creating _ _ _) => isTrue trivial
  | .flushing _ _ (.updating _ _) => isTrue trivial
  | .collecting => isTrue trivial
  | .ended => isTrue trivial

instance instDecidableKeepsIds : (e : CaseSystemEvent) → Decidable (s.KeepsIds batchSize e)
  | .search _ _ => instDecidableSearchKeeps s.table s.worker
  | .collect env => inferInstanceAs (Decidable
      (batchSize ≤ s.buffer.length + 1 → FirstOfKeys env s.table (s.buffer ++ s.dbChannel.take 1)))
  | .tick env => instDecidableFirstOfKeys env s.table s.buffer
  | .stopBatcher env => instDecidableFirstOfKeys env s.table s.buffer
  | .command _ => instDecidableVisitKeeps s.table s.batcher
  | .receive _ => isTrue trivial
  | .offer => isTrue trivial
  | .save _ => isTrue trivial
  | .openCase _ => isTrue trivial
  | .closeCase => isTrue trivial
  | .stopWorker => isTrue trivial

end transitions

end CaseSystem

/-! ### The groups of a buffer -/

section groups

variable (fp : String → UInt64)

/-- Merging keeps the identifier and the severity of the first alert. -/
def SameCase (g f : Alert) : Prop := g.ref = f.ref ∧ g.severity = f.severity

/-- The group of a key has the identifier and the severity of the first alert with the key. -/
theorem group_first (buffer : List Alert) (key : AlertDedupKey) {f : Alert}
    (hf : buffer.find? (fun f => alertDedupKey fp f = key) = some f) :
    ∃ g, (byTenant fp buffer).group key = some g ∧ SameCase g f := by
  have hhead : (keyed fp buffer key).head? = some f := List.head?_filter.trans hf
  obtain ⟨as, has⟩ := List.head?_eq_some_iff.mp hhead
  rw [group_byTenant, has]
  exact ⟨_, rfl, Merging.foldl_keep mergeAlert Alert.ref (fun _ _ => rfl) f as,
    Merging.foldl_keep mergeAlert Alert.severity (fun _ _ => rfl) f as⟩

/-- The alerts of the parts that a flush has still to visit. -/
def partAlerts (parts : List TenantEntry) : List Alert :=
  parts.flatMap fun g => g.2.entries.map fun e => e.2

theorem group_visited {env : BatchEnv} {buffer : List Alert} {key : AlertDedupKey} {g : Alert}
    (h : (byTenant env.fingerprint buffer).group key = some g) :
    g ∈ partAlerts (visitedTenants env buffer) := by
  obtain ⟨alerts, hl, hlookup⟩ := Option.bind_eq_some_iff.mp h
  refine List.mem_flatMap.mpr ⟨⟨key.tenantId, alerts⟩, ?_, ?_⟩
  · unfold visitedTenants
    exact (env.tenantOrder.perm _).mem_iff.mpr (AList.mem_lookup_iff.mp hl)
  · exact List.mem_map.mpr ⟨⟨key, g⟩, AList.mem_lookup_iff.mp hlookup, rfl⟩

end groups

/-! ### Identifiers in the table -/

namespace AlertsTable

variable {fault : Bool} {alerts : List Alert} {t t' : AlertsTable}

theorem refs_create (h : t.createAlertsBatch fault alerts = some t') :
    t'.refs = t.refs ++ alerts.map Alert.ref := by
  have hrows := (createAlertsBatch_eq_some.mp h).2.2
  unfold refs
  rw [hrows, List.map_append, List.map_map]
  rfl

theorem refs_modify (p : AlertRow → Bool) (f : AlertRow → AlertRow) (hf : ∀ r, (f r).id = r.id)
    (href : ∀ r, (f r).ref = r.ref) : (t.modify p f hf).refs = t.refs := by
  unfold refs modify
  simp only [List.map_map]
  refine List.map_congr_left fun r _ => ?_
  simp only [Function.comp_apply]
  split_ifs
  · exact href r
  · rfl

theorem refs_update {a : Alert} (h : t.updateAlert fault a = some t') : t'.refs = t.refs := by
  unfold updateAlert at h
  split_ifs at h
  rw [← Option.some.inj h]
  exact refs_modify _ _ _ fun r => rfl

theorem refs_upsertAlert {a : Alert} (h : t.upsertAlert a = some t') : t.refs ⊆ t'.refs := by
  unfold upsertAlert at h
  split_ifs at h
  · rw [← Option.some.inj h]
    have hrefs := refs_modify (t := t) (isRowOf a) (conflictRow a) (fun _ => rfl) fun _ => rfl
    intro r hr
    rw [hrefs]
    exact hr
  · rw [← Option.some.inj h]
    unfold refs insert
    simp

theorem refs_upsert (h : t.upsertAlertsBatch fault alerts = some t') : t.refs ⊆ t'.refs := by
  have hfold : ∀ (as : List Alert) (u u' : AlertsTable), as.foldlM upsertAlert u = some u' →
      u.refs ⊆ u'.refs := by
    intro as
    induction as with
    | nil =>
        intro u u' hu
        rw [Option.some.inj hu]
        exact fun r hr => hr
    | cons a as ih =>
        intro u u' hu
        rw [List.foldlM_cons] at hu
        obtain ⟨v, hv, hrest⟩ := Option.bind_eq_some_iff.mp hu
        exact fun r hr => ih v u' hrest (refs_upsertAlert hv hr)
  unfold upsertAlertsBatch at h
  split_ifs at h
  · rw [Option.some.inj h]
    exact fun r hr => hr
  · exact hfold alerts t t' h

end AlertsTable

/-! ### The commands that open a case -/

/-- The command inserts no case but one of the alert, and changes no case and no alert. -/
def OpensOnly (alert : Alert) : BackendCmd → Prop
  | .data (.insertCase r) => r.alertRef = alert.ref
  | .data (.updateCase _ _ _ _) => False
  | .data _ => True
  | .db .now => True
  | .db .newV4 => True
  | _ => False

section opening

variable {alert : Alert}

theorem recordCaseEvent_opensOnly (tenantId : String) (caseId : Uuid) (eventType message : String)
    (actorUserId actorEmail : Option String) (metadata : Json) :
    Issues (OpensOnly alert)
      (recordCaseEvent tenantId caseId eventType message actorUserId actorEmail metadata) :=
  recordCaseEvent_issues trivial (fun _ => trivial) _ _ _ _ _ _ _

theorem createCaseFromAlert_opensOnly (new : NewCase) (playbookId : Option Uuid) :
    Issues (OpensOnly alert) (createCaseFromAlert alert new playbookId) := by
  refine (createCaseFromAlert_issues playbookId).imp fun _ c hc => ?_
  cases c with
  | getAlert tenantId id => exact hc
  | db c =>
      cases c with
      | now => trivial
      | newV4 => trivial
      | _ => exact hc
  | data c =>
      cases c with
      | insertCase r =>
          obtain ⟨id, playbook, now, slaDueAt, escalationAt, rfl⟩ := hc
          rfl
      | updateCase _ _ _ _ => exact hc
      | _ => trivial

theorem openCase_opensOnly (previewActions : Alert → List String) (alert : Alert) :
    Issues (OpensOnly alert) (openCase previewActions alert) := by
  refine (createCaseFromAlert_opensOnly _ _).bind fun result => ?_
  cases result with
  | error failure => trivial
  | ok record =>
      dsimp only
      split_ifs
      · trivial
      · exact (recordCaseEvent_opensOnly _ _ _ _ _ _ _).bind fun _ => trivial

/-- What such a command does to the alerts and the cases. -/
theorem exec_opensOnly {c : BackendCmd} (h : OpensOnly alert c) (tick : Tick) (b : Backend) :
    (execBackend tick c b).2.db.alerts = b.db.alerts ∧
      ∀ r ∈ (execBackend tick c b).2.data.cases, r ∈ b.data.cases ∨ r.alertRef = alert.ref := by
  cases c with
  | getAlert tenantId id => exact h.elim
  | db c =>
      cases c with
      | now => exact ⟨rfl, fun r hr => Or.inl hr⟩
      | newV4 => exact ⟨rfl, fun r hr => Or.inl hr⟩
      | _ => exact h.elim
  | data dc =>
      rcases execBackend_cases tick b dc with ⟨e, hexec⟩ | ⟨reply, data, -, hrun, hexec⟩
      · rw [hexec]
        exact ⟨rfl, fun r hr => Or.inl hr⟩
      · rw [hexec]
        refine ⟨rfl, fun r hr => ?_⟩
        by_cases htable : dc.table = some .cases
        · cases dc with
          | insertCase record =>
              obtain ⟨_, _, -, rfl⟩ := TenantData.insertCase_ok hrun
              rcases List.mem_append.mp hr with hr | hr
              · exact Or.inl hr
              · rw [List.mem_singleton.mp hr]
                exact Or.inr h
          | updateCase loaded tenantId id columns => exact h.elim
          | _ => cases htable
        · have hcases : data.cases = b.data.cases := DataCmd.run_frame (t := .cases) hrun htable
          exact Or.inl (hcases ▸ hr)

end opening

/-! ### What is on its way to the table -/

/-- The alerts that a flush has still to look up or to insert. -/
def FlushPhase.carried : FlushPhase → List Alert
  | .visiting rest => partAlerts rest
  | .creating creates _ rest => creates ++ partAlerts rest
  | .updating _ rest => partAlerts rest

def BatcherPhase.carried : BatcherPhase → List Alert
  | .flushing _ _ phase => phase.carried
  | _ => []

namespace CaseSystem

section pending

variable (s : CaseSystem)

def pending : List Alert := s.dbChannel ++ s.buffer ++ s.batcher.carried

/-- The identifier is in the table or on its way to it with an alert that opens a case. -/
def Backed (ref : String × Uuid) : Prop :=
  ref ∈ s.table.refs ∨ ∃ a ∈ s.pending, a.opensCase = true ∧ a.ref = ref

/-- What the worker may rely on. -/
def WorkerSound : CaseWorkerPhase → Prop
  | .saving alert (some _) => alert.opensCase = true → alert.ref ∈ s.table.refs
  | .opening alert rest => s.Backed alert.ref ∧ Issues (OpensOnly alert) rest
  | _ => True

/-- Every case that was not there at the start is backed. -/
structure Sound (initial : List CaseRecord) : Prop where
  cases : ∀ c ∈ s.backend.data.cases, c ∈ initial ∨ s.Backed c.alertRef
  worker : s.WorkerSound s.worker

end pending

/-- What a step of the batcher keeps: the cases, the worker, and what is backed. -/
structure Extends (s s' : CaseSystem) : Prop where
  refs : s.table.refs ⊆ s'.table.refs
  backed : ∀ ref, s.Backed ref → s'.Backed ref
  data : s'.backend.data = s.backend.data

variable {batchSize : ℕ} {s s' : CaseSystem} {initial : List CaseRecord}

theorem WorkerSound.extends (h : s.Extends s') {phase : CaseWorkerPhase} (hs : s.WorkerSound phase) :
    s'.WorkerSound phase := by
  cases phase with
  | saving alert existing =>
      cases existing with
      | none => trivial
      | some existing => exact fun hopens => h.refs (hs hopens)
  | opening alert rest => exact ⟨h.backed _ hs.1, hs.2⟩
  | _ => trivial

/-- A step that extends the state and leaves a sound worker. -/
theorem Sound.extends (hs : s.Sound initial) (h : s.Extends s') (hworker : s'.WorkerSound s'.worker) :
    s'.Sound initial := by
  refine ⟨fun c hc => ?_, hworker⟩
  rw [h.data] at hc
  exact (hs.cases c hc).imp_right (h.backed _)

theorem extends_of_pending (hrefs : s.table.refs ⊆ s'.table.refs)
    (hdata : s'.backend.data = s.backend.data)
    (hpending : ∀ a ∈ s.pending, a.opensCase = true → s'.Backed a.ref) : s.Extends s' := by
  refine ⟨hrefs, fun ref hbacked => ?_, hdata⟩
  rcases hbacked with hstored | ⟨a, ha, hopens, rfl⟩
  · exact Or.inl (hrefs hstored)
  · exact hpending a ha hopens

theorem extends_of_subset (hrefs : s.table.refs ⊆ s'.table.refs)
    (hdata : s'.backend.data = s.backend.data) (hpending : s.pending ⊆ s'.pending) : s.Extends s' :=
  extends_of_pending hrefs hdata fun a ha hopens => Or.inr ⟨a, hpending ha, hopens, rfl⟩

theorem backed_of_mem {a : Alert} (ha : a ∈ s.pending) (hopens : a.opensCase = true) :
    s.Backed a.ref :=
  Or.inr ⟨a, ha, hopens, rfl⟩

/-! ### The batcher -/

@[simp] theorem afterFlush_carried (stopping : Bool) : (afterFlush stopping).carried = [] := by
  cases stopping <;> rfl

/-- Draining a buffer in which the alerts that open a case are the first of their keys. -/
theorem startFlush_extends (env : BatchEnv) (stopping : Bool) (hbatcher : s.batcher = .collecting)
    (hfirst : FirstOfKeys env s.table s.buffer) : s.Extends (s.startFlush env stopping) := by
  unfold startFlush
  split_ifs with hempty
  · refine extends_of_subset (List.Subset.refl _) rfl fun a ha => ?_
    unfold pending at ha ⊢
    rw [hbatcher] at ha
    rwa [afterFlush_carried]
  · refine extends_of_pending (List.Subset.refl _) rfl fun a ha hopens => ?_
    unfold pending at ha
    rw [hbatcher] at ha
    simp only [BatcherPhase.carried, List.append_nil, List.mem_append] at ha
    rcases ha with ha | ha
    · refine backed_of_mem ?_ hopens
      unfold pending
      simp [ha]
    · rcases hfirst a ha hopens with hstored | hany
      · exact Or.inl hstored
      · obtain ⟨f, hfind, hf⟩ := (Option.any_eq_true _ _).mp hany
        obtain ⟨hid, hfopens⟩ := Bool.and_eq_true_iff.mp hf
        have hkey := List.find?_some hfind
        have htenant : f.tenantId = a.tenantId := congrArg AlertDedupKey.tenantId (of_decide_eq_true hkey)
        have hrefs : f.ref = a.ref := Prod.ext htenant (of_decide_eq_true hid)
        obtain ⟨g, hg, href, hseverity⟩ := group_first env.fingerprint s.buffer _ hfind
        have hgopens : g.opensCase = true := by
          unfold Alert.opensCase at hfopens ⊢
          rw [hseverity]
          exact hfopens
        have hvisited : g ∈ partAlerts (visitedTenants env s.buffer) := group_visited hg
        refine Or.inr ⟨g, ?_, hgopens, href.trans hrefs⟩
        unfold pending
        simp [BatcherPhase.carried, FlushPhase.carried, hvisited]

/-- A row of the alert's tenant and identifier that is stored, or that the next insert brings. -/
theorem visit_backed {env : BatchEnv} {stopping : Bool} {g : TenantEntry} {rest : List TenantEntry}
    (hbatcher : s.batcher = .flushing env stopping (.visiting (g :: rest))) (fault : Bool)
    (hkeeps : s.KeepsIds batchSize (.command fault)) {e : Sigma fun _ : AlertDedupKey => Alert}
    (he : e ∈ g.2.entries) (hopens : e.2.opensCase = true) :
    e.2.ref ∈ s.table.refs ∨
      e.2 ∈ toCreate env (existingAlerts env (.all fault) s.table g.1 g.2) g.2 := by
  unfold KeepsIds at hkeeps
  rw [hbatcher] at hkeeps
  refine (hkeeps e he hopens).imp_right fun hnone => ?_
  -- the lookup returns open rows only, and none of them has the key
  have hfor : existingFor env (existingAlerts env (.all fault) s.table g.1 g.2) e.1 = none := by
    refine List.find?_eq_none.mpr fun old hold hkey => ?_
    obtain ⟨r, hr, -, hropen, rfl⟩ := mem_existingAlerts env (.all fault) hold
    exact hnone r hr hropen (of_decide_eq_true hkey)
  unfold toCreate
  refine List.mem_filterMap.mpr ⟨e, (env.keyOrder.perm _).mem_iff.mpr he, ?_⟩
  rw [hfor]

theorem flushCommand_extends {env : BatchEnv} {stopping fault : Bool} {phase : FlushPhase}
    (hbatcher : s.batcher = .flushing env stopping phase) (hsucceeds : s.succeeds (.command fault) = true)
    (hkeeps : s.KeepsIds batchSize (.command fault)) :
    s.Extends (s.flushCommand env stopping fault phase) := by
  have hpending : s.pending = s.dbChannel ++ s.buffer ++ phase.carried := by
    unfold pending
    rw [hbatcher]
    rfl
  unfold succeeds at hsucceeds
  dsimp only at hsucceeds
  rw [hbatcher] at hsucceeds
  rcases phase with (_ | ⟨g, rest⟩) | ⟨creates, updates, rest⟩ | ⟨updates, rest⟩
  · refine extends_of_subset (List.Subset.refl _) rfl ?_
    rw [hpending]
    unfold flushCommand pending
    simp [FlushPhase.carried, partAlerts]
  · refine extends_of_pending (List.Subset.refl _) rfl fun a ha hopens => ?_
    rw [hpending] at ha
    rcases List.mem_append.mp ha with ha | ha
    · refine Or.inr ⟨a, ?_, hopens, rfl⟩
      exact List.mem_append_left _ ha
    · have hsplit : a ∈ g.2.entries.map (fun e => e.2) ∨ a ∈ partAlerts rest := by
        simpa [FlushPhase.carried, partAlerts] using ha
      rcases hsplit with ha | ha
      · obtain ⟨e, he, rfl⟩ := List.mem_map.mp ha
        refine (visit_backed hbatcher fault hkeeps he hopens).imp_right fun hcreate => ?_
        refine ⟨e.2, List.mem_append_right _ ?_, hopens, rfl⟩
        exact List.mem_append_left _ hcreate
      · refine Or.inr ⟨a, List.mem_append_right _ ?_, hopens, rfl⟩
        exact List.mem_append_right _ ha
  · obtain ⟨t, ht⟩ := Option.isSome_iff_exists.mp hsucceeds
    have hrefs := AlertsTable.refs_create ht
    unfold flushCommand
    dsimp only
    rw [ht]
    refine extends_of_pending (fun r hr => ?_) rfl fun a ha hopens => ?_
    · show r ∈ t.refs
      rw [hrefs]
      exact List.mem_append_left _ hr
    · rw [hpending] at ha
      simp only [FlushPhase.carried, List.mem_append] at ha
      rcases ha with ha | ha | ha
      · exact Or.inr ⟨a, List.mem_append_left _ (List.mem_append.mpr ha), hopens, rfl⟩
      · left
        show a.ref ∈ t.refs
        rw [hrefs]
        exact List.mem_append_right _ (List.mem_map_of_mem ha)
      · exact Or.inr ⟨a, List.mem_append_right _ ha, hopens, rfl⟩
  · obtain ⟨t, ht⟩ := Option.isSome_iff_exists.mp hsucceeds
    unfold flushCommand
    dsimp only
    rw [ht]
    refine extends_of_subset (AlertsTable.refs_upsert ht) rfl ?_
    rw [hpending]
    exact List.Subset.refl _

theorem flushCommand_worker (env : BatchEnv) (stopping fault : Bool) (phase : FlushPhase) :
    (s.flushCommand env stopping fault phase).worker = s.worker := by
  rcases phase with (_ | ⟨g, rest⟩) | ⟨creates, updates, rest⟩ | ⟨updates, rest⟩
  · rfl
  · rfl
  · unfold flushCommand
    dsimp only
    split <;> rfl
  · rfl

theorem startFlush_worker (env : BatchEnv) (stopping : Bool) :
    (s.startFlush env stopping).worker = s.worker := by
  unfold startFlush
  split_ifs <;> rfl

/-! ### The worker -/

/-- A worker that goes on with a backed alert. -/
theorem handled_sound {previewActions : Alert → List String} {alert : Alert}
    (h : alert.opensCase = true → s.Backed alert.ref) :
    s.WorkerSound (handled previewActions alert) := by
  unfold handled
  split_ifs with hopens
  · exact ⟨h hopens, openCase_opensOnly previewActions alert⟩
  · trivial

/-- The alert is saved, or its row was there before. -/
theorem save_backed {fault : Bool} {alert : Alert} {existing : Option Alert} {t : AlertsTable}
    (hsave : s.saveAlert fault alert existing = some t) (hworker : s.WorkerSound (.saving alert existing)) :
    s.table.refs ⊆ t.refs ∧ (alert.opensCase = true → alert.ref ∈ t.refs) := by
  cases existing with
  | none =>
      have hrefs := @AlertsTable.refs_create fault [alert] s.table t hsave
      rw [hrefs]
      exact ⟨fun r hr => List.mem_append_left _ hr, fun _ => by simp⟩
  | some existing =>
      have hrefs : t.refs = s.table.refs := AlertsTable.refs_update hsave
      rw [hrefs]
      exact ⟨List.Subset.refl _, hworker⟩

/-- The fallback finds no open row for an alert that has none and opens a case. -/
theorem fallbackFor_sound {order : RowOrder} {fault : Bool} {alert : Alert}
    (h : alert.opensCase = true → alert.ref ∈ s.table.refs ∨ (openRows s.table alert).isEmpty = true) :
    s.WorkerSound (.saving alert (s.fallbackFor order fault alert)) := by
  cases hfound : s.fallbackFor order fault alert with
  | none => trivial
  | some existing =>
      refine fun hopens => (h hopens).resolve_right fun hempty => ?_
      unfold fallbackFor at hfound
      split at hfound
      · rename_i first others hopen
        unfold AlertsTable.getOpenAlertsByIp at hopen
        have hrows : (s.table.rows.filter fun r => r.tenantId = alert.tenantId &&
            r.sourceIp = alert.sourceIp && r.isOpen) = [] := List.isEmpty_iff.mp hempty
        have harranged : order.arrange ([] : List AlertRow) = [] := List.perm_nil.mp (order.perm [])
        rw [hrows, harranged] at hopen
        split_ifs at hopen
        cases hopen
      · cases hfound

/-! ### A flush without interruption -/

section alone

variable (capacity : ℕ) (previewActions : Alert → List String)

/-- The commands of a flush between which the worker does nothing leave the table of `flush_batch`. -/
theorem flush_alone (env : BatchEnv) (faults : FlushFaults) (stopping : Bool) (parts : List TenantEntry)
    (s : CaseSystem) (hbatcher : s.batcher = .flushing env stopping (.visiting parts)) :
    ∃ commands : List Bool,
      Runs.run (step capacity batchSize previewActions) (commands.map .command) s =
        some { s.withTable (flushTenants env faults parts s.table).table with
          batcher := afterFlush stopping } := by
  induction parts generalizing s with
  | nil =>
      refine ⟨[false], Runs.run_cons.mpr ⟨_, ?_, rfl⟩⟩
      unfold step
      dsimp only
      rw [hbatcher]
      rfl
  | cons g rest ih =>
      have hvisit : s.step capacity batchSize previewActions (.command (faults.lookup g.1)) =
          some { s with batcher := .flushing env stopping (.creating
            (toCreate env (existingAlerts env faults s.table g.1 g.2) g.2)
            (toUpdate env (existingAlerts env faults s.table g.1 g.2) g.2) rest) } := by
        unfold step
        dsimp only
        rw [hbatcher]
        rfl
      obtain ⟨tenantId, alerts⟩ := g
      rw [flushTenants]
      cases hcreate : s.table.createAlertsBatch (faults.create tenantId)
          (toCreate env (existingAlerts env faults s.table tenantId alerts) alerts) with
      | none =>
          refine ⟨[faults.lookup tenantId, faults.create tenantId], Runs.run_cons.mpr ⟨_, hvisit, ?_⟩⟩
          refine Runs.run_cons.mpr ⟨_, ?_, rfl⟩
          unfold step flushCommand
          dsimp only [table] at hcreate ⊢
          rw [hcreate]
          rfl
      | some t =>
          obtain ⟨commands, hrest⟩ := ih
            { s.withTable ((t.upsertAlertsBatch (faults.update tenantId)
              (toUpdate env (existingAlerts env faults s.table tenantId alerts) alerts)).getD t) with
              batcher := .flushing env stopping (.visiting rest) } rfl
          refine ⟨faults.lookup tenantId :: faults.create tenantId :: faults.update tenantId :: commands,
            Runs.run_cons.mpr ⟨_, hvisit, ?_⟩⟩
          refine Runs.run_cons.mpr ⟨{ s.withTable t with batcher := .flushing env stopping (.updating
            (toUpdate env (existingAlerts env faults s.table tenantId alerts) alerts) rest) }, ?_, ?_⟩
          · unfold step flushCommand
            dsimp only [table] at hcreate ⊢
            rw [hcreate]
            rfl
          · refine Runs.run_cons.mpr ⟨_, rfl, ?_⟩
            refine hrest.trans ?_
            dsimp only
            cases hupsert : t.upsertAlertsBatch (faults.update tenantId)
                (toUpdate env (existingAlerts env faults s.table tenantId alerts) alerts) with
            | none => rfl
            | some t' => rfl

end alone

/-! ### Steps and runs -/

variable {capacity : ℕ} {previewActions : Alert → List String} {e : CaseSystemEvent}

theorem startFlush_sound (hs : s.Sound initial) (env : BatchEnv) (stopping : Bool)
    (hbatcher : s.batcher = .collecting) (hfirst : FirstOfKeys env s.table s.buffer) :
    (s.startFlush env stopping).Sound initial := by
  have hextends := startFlush_extends env stopping hbatcher hfirst
  refine hs.extends hextends ?_
  rw [startFlush_worker]
  exact hs.worker.extends hextends

/-- The batcher receives an alert. -/
theorem collect_extends {alert : Alert} {dbChannel : List Alert} (hchannel : s.dbChannel = alert :: dbChannel) :
    s.Extends { s with dbChannel, buffer := s.buffer ++ [alert] } := by
  refine extends_of_subset (List.Subset.refl _) rfl fun a ha => ?_
  unfold pending at ha ⊢
  rw [hchannel] at ha
  simp only [List.mem_append, List.mem_cons, List.not_mem_nil, or_false] at ha ⊢
  tauto

/-- The worker's own steps: the table grows, what is backed stays backed, no case is opened. -/
theorem Sound.worker_step (hs : s.Sound initial) {phase : CaseWorkerPhase} (hextends : s.Extends s')
    (hphase : s'.worker = phase) (hworker : s'.WorkerSound phase) : s'.Sound initial := by
  refine hs.extends hextends ?_
  rw [hphase]
  exact hworker

/-- The batcher has room for the alert of the worker. -/
theorem Sound.offered (hs : s.Sound initial) (alert : Alert) :
    Sound { s with
      dbChannel := s.dbChannel ++ [alert]
      worker := handled previewActions alert } initial := by
  have hextends : s.Extends { s with
      dbChannel := s.dbChannel ++ [alert]
      worker := handled previewActions alert } := by
    refine extends_of_subset (List.Subset.refl _) rfl fun a ha => ?_
    unfold pending at ha ⊢
    simp only [List.mem_append, List.mem_cons, List.not_mem_nil, or_false] at ha ⊢
    tauto
  refine hs.worker_step hextends rfl (handled_sound fun hopens => backed_of_mem ?_ hopens)
  unfold pending
  simp

/-- A command that opens a case for an alert that is backed. -/
theorem Sound.opened (hs : s.Sound initial) {alert : Alert} {c : BackendCmd}
    {k : c.Reply → BackendProg (Except CaseFailure Unit)} (hworker : s.worker = .opening alert (.call c k))
    (tick : Tick) :
    Sound { s with
      backend := (execBackend tick c s.backend).2
      worker := .opening alert (k (execBackend tick c s.backend).1) } initial := by
  have hsound := hs.worker
  rw [hworker] at hsound
  obtain ⟨hbacked, hissues⟩ := hsound
  obtain ⟨honly, hrest⟩ := hissues () le_rfl
  obtain ⟨halerts, hcases⟩ := exec_opensOnly honly tick s.backend
  have hback : ∀ worker ref, s.Backed ref →
      Backed { s with backend := (execBackend tick c s.backend).2, worker } ref := by
    intro worker ref hb
    unfold Backed table at hb ⊢
    dsimp only
    rw [halerts]
    exact hb
  refine ⟨fun r hr => ?_, hback _ _ hbacked, hrest _ trivial⟩
  rcases hcases r hr with hold | href
  · exact (hs.cases r hold).imp_right (hback _ _)
  · rw [href]
    exact Or.inr (hback _ _ hbacked)

theorem sound_of_step (hs : s.Sound initial)
    (hok : s.succeeds e = true ∧ s.KeepsIds batchSize e)
    (h : s.step capacity batchSize previewActions e = some s') : s'.Sound initial := by
  obtain ⟨hsucceeds, hkeeps⟩ := hok
  have hsame : ∀ worker, s.Extends { s with worker } := fun worker =>
    extends_of_subset (List.Subset.refl _) rfl (List.Subset.refl _)
  unfold step at h
  cases e with
  | receive alert =>
      dsimp only at h
      split at h
      · rw [← Option.some.inj h]
        exact hs.worker_step (hsame _) rfl trivial
      · cases h
  | offer =>
      dsimp only at h
      split at h
      · rw [← Option.some.inj h]
        exact hs.worker_step (hsame _) rfl trivial
      · rename_i alert _ _
        split at h
        · rw [← Option.some.inj h]
          exact hs.offered alert
        · rw [← Option.some.inj h]
          exact hs.worker_step (hsame _) rfl trivial
      · cases h
  | search order fault =>
      dsimp only at h
      split at h
      · rename_i alert hworker
        unfold KeepsIds at hkeeps
        rw [hworker] at hkeeps
        rw [← Option.some.inj h]
        exact hs.worker_step (hsame _) rfl ((fallbackFor_sound hkeeps).extends (hsame _))
      · cases h
  | save fault =>
      dsimp only at h
      split at h
      · rename_i alert existing hworker
        unfold succeeds at hsucceeds
        dsimp only at hsucceeds
        rw [hworker] at hsucceeds
        obtain ⟨t, ht⟩ := Option.isSome_iff_exists.mp hsucceeds
        obtain ⟨hrefs, hsaved⟩ := save_backed ht (hworker ▸ hs.worker)
        rw [ht] at h
        rw [← Option.some.inj h]
        refine hs.worker_step (extends_of_subset hrefs rfl (List.Subset.refl _)) rfl ?_
        exact handled_sound fun hopens => Or.inl (hsaved hopens)
      · cases h
  | openCase tick =>
      dsimp only at h
      split at h
      · rename_i hworker
        rw [← Option.some.inj h]
        exact hs.opened hworker tick
      · cases h
  | closeCase =>
      dsimp only at h
      split at h
      · rw [← Option.some.inj h]
        exact hs.worker_step (hsame _) rfl trivial
      · rw [← Option.some.inj h]
        exact hs.worker_step (hsame _) rfl trivial
      · cases h
  | stopWorker =>
      dsimp only at h
      split at h
      · rw [← Option.some.inj h]
        exact hs.worker_step (hsame _) rfl trivial
      · cases h
  | collect env =>
      dsimp only at h
      split at h
      · rename_i alert dbChannel hbatcher hchannel
        have hextends := collect_extends hchannel
        have hcollected : Sound { s with dbChannel, buffer := s.buffer ++ [alert] } initial :=
          hs.extends hextends (hs.worker.extends hextends)
        split at h
        · rename_i hfull
          rw [← Option.some.inj h]
          refine startFlush_sound hcollected env false hbatcher ?_
          have hfirst := hkeeps (by simpa using hfull)
          rw [hchannel] at hfirst
          exact hfirst
        · rw [← Option.some.inj h]
          exact hcollected
      · cases h
  | tick env =>
      dsimp only at h
      split at h
      · rename_i hbatcher
        rw [← Option.some.inj h]
        exact startFlush_sound hs env false hbatcher hkeeps
      · cases h
  | stopBatcher env =>
      dsimp only at h
      split at h
      · rename_i hbatcher
        rw [← Option.some.inj h]
        exact startFlush_sound hs env true hbatcher hkeeps
      · cases h
  | command fault =>
      dsimp only at h
      split at h
      · rename_i env stopping phase hbatcher
        have hextends := flushCommand_extends hbatcher hsucceeds hkeeps
        rw [← Option.some.inj h]
        refine hs.extends hextends ?_
        rw [flushCommand_worker]
        exact hs.worker.extends hextends
      · cases h

theorem sound_start (b : Backend) : (start b).Sound b.data.cases :=
  ⟨fun _ hc => Or.inl hc, trivial⟩

theorem Flushed.pending_eq_nil (h : s.Flushed) : s.pending = [] := by
  have hcarried : s.batcher.carried = [] := by
    cases hb : s.batcher with
    | flushing env stopping phase =>
        have hbusy := h.batcher
        rw [hb] at hbusy
        cases hbusy
    | _ => rfl
  unfold pending
  rw [h.channel, h.buffer, hcarried]
  rfl

/-- **Every case points at a stored alert** after a run of the two tasks, from any tables, in which the
commands on the alerts succeed and no alert that opens a case loses its identifier, once the channel and
the buffer have been flushed. -/
theorem cases_backed {b : Backend} {events : List CaseSystemEvent}
    (hrun : Runs.run (step capacity batchSize previewActions) events (start b) = some s)
    (hsucceeds : Runs.Meets (step capacity batchSize previewActions) (fun t e => t.succeeds e = true)
      events (start b))
    (hkeeps : Runs.Meets (step capacity batchSize previewActions) (fun t => t.KeepsIds batchSize)
      events (start b))
    (hflushed : s.Flushed) :
    ∀ c ∈ s.backend.data.cases, c ∉ b.data.cases →
      ∃ r ∈ s.backend.db.alerts.rows, r.id = c.primaryAlertId ∧ r.tenantId = c.tenantId := by
  intro c hc hnew
  have hsound := Runs.Meets.run_invariant (J := fun t => Sound t b.data.cases)
    (fun t e t' ht hok hstep => sound_of_step ht hok hstep) (sound_start b)
    (Runs.meets_and.mpr ⟨hsucceeds, hkeeps⟩) hrun
  have hstored : c.alertRef ∈ s.table.refs := by
    rcases (hsound.cases c hc).resolve_left hnew with hstored | ⟨a, ha, -⟩
    · exact hstored
    · rw [hflushed.pending_eq_nil] at ha
      exact (List.not_mem_nil ha).elim
  obtain ⟨r, hr, href⟩ := List.mem_map.mp hstored
  obtain ⟨htenant, hid⟩ := Prod.mk.inj href
  exact ⟨r, hr, hid, htenant⟩

end CaseSystem

/-! ### Two alerts of one key -/

def severeAlert (id : Uuid) : Alert :=
  .new id (.ofSeconds 0) "t1" "r1" "rule" .high "port scan" "10.0.0.1" []

def emptyBackend : Backend := ⟨emptyDatabase, emptyData⟩

/-- The worker offers an alert and opens its case; `commands` is how many commands that takes. -/
def opening (id : Uuid) (tick : Tick) (commands : ℕ) : List CaseSystemEvent :=
  [.receive (severeAlert id), .offer] ++ List.replicate commands (.openCase tick) ++ [.closeCase]

/-- The batcher receives the alerts and flushes them. -/
def flushing (alerts : ℕ) : List CaseSystemEvent :=
  List.replicate alerts (.collect .plain) ++ [.tick .plain] ++ List.replicate 4 (.command false)

/-- One alert. -/
def singleAlert : List CaseSystemEvent := opening "a1" firstTick 17 ++ flushing 1

/-- Two alerts of one key in one buffer. -/
def mergedAlerts : List CaseSystemEvent :=
  opening "a1" firstTick 17 ++ opening "a2" secondTick 14 ++ flushing 2

/-- The run of the worker and the batcher on empty tables. -/
def caseRun (events : List CaseSystemEvent) : Option CaseSystem :=
  Runs.run (CaseSystem.step 1000 100 fun _ => []) events (.start emptyBackend)

theorem singleAlert_backed : ∃ s, caseRun singleAlert = some s ∧ ∃ c ∈ s.backend.data.cases,
    ∃ r ∈ s.backend.db.alerts.rows, r.id = c.primaryAlertId ∧ r.tenantId = c.tenantId := by
  have hopened : ((caseRun singleAlert).any fun s =>
      decide (s.Flushed ∧ ∃ c ∈ s.backend.data.cases, c.primaryAlertId = "a1")) = true := by
    decide +kernel
  obtain ⟨s, hs, hrun⟩ := (Option.any_eq_true _ _).mp hopened
  obtain ⟨hflushed, c, hc, -⟩ := of_decide_eq_true hrun
  exact ⟨s, hs, c, hc, CaseSystem.cases_backed hs (by decide +kernel) (by decide +kernel) hflushed c hc
    List.not_mem_nil⟩

/-- The second alert is merged into the first one, and its case points at no row. -/
theorem mergedAlerts_not_backed :
    ¬ ∀ (capacity batchSize : ℕ) (previewActions : Alert → List String) (b : Backend)
      (events : List CaseSystemEvent) (s : CaseSystem),
      Runs.run (CaseSystem.step capacity batchSize previewActions) events (.start b) = some s →
      Runs.Meets (CaseSystem.step capacity batchSize previewActions) (fun t e => t.succeeds e = true)
        events (.start b) → s.Flushed →
      ∀ c ∈ s.backend.data.cases, c ∉ b.data.cases →
        ∃ r ∈ s.backend.db.alerts.rows, r.id = c.primaryAlertId ∧ r.tenantId = c.tenantId := by
  intro h
  have hlost : ((caseRun mergedAlerts).any fun s => decide (s.Flushed ∧
      ∃ c ∈ s.backend.data.cases, ∀ r ∈ s.backend.db.alerts.rows, r.id ≠ c.primaryAlertId)) = true := by
    decide +kernel
  obtain ⟨s, hs, hrun⟩ := (Option.any_eq_true _ _).mp hlost
  obtain ⟨hflushed, c, hc, hrows⟩ := of_decide_eq_true hrun
  obtain ⟨r, hr, hid, -⟩ := h 1000 100 (fun _ => []) emptyBackend mergedAlerts s hs
    (by decide +kernel) hflushed c hc List.not_mem_nil
  exact hrows r hr hid

end MiniSiem
