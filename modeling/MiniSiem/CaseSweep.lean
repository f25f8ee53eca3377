import MiniSiem.StorePrograms

/-! # Sweeps and finished cases

Sweeps of `escalate_overdue_cases` (the task `case_sla_sweep` of `main.rs`) beside calls of
`update_case`, any number of each, command by command on the tables.

* **Selection.**  A sweep selects the overdue cases once.  `HasSelected` says of a running sweep that
  it has selected a case and not written it yet.
* **Kept.**  `FinishedCasesKept`: a step of a sweep leaves the status of every case that is stored as
  RESOLVED, FALSEPOSITIVE, CLOSED or MITIGATED.
* **Condition.**  `finished_cases_kept`: so does every step of a run in which no update finishes a
  case that a sweep has selected. -/

namespace MiniSiem

inductive CaseTask
  | sweep (order : OverdueOrder)
  | update (tenantId : String) (caseId : Uuid) (changes : CaseUpdate)

def CaseTask.isSweep : CaseTask → Bool
  | sweep _ => true
  | update _ _ _ => false

def CaseTask.prog : CaseTask → BackendProg Unit
  | sweep order => (escalateOverdueCases order).bind fun _ => .ret ()
  | update tenantId caseId changes => (updateCase tenantId caseId changes).bind fun _ => .ret ()

/-- Any number of tasks, none of them started. -/
def casePool {ι : Type} (tasks : ι → CaseTask) (b : Backend) : BackendPool ι Unit :=
  ⟨fun i => (tasks i).prog, b⟩

/-- The texts of the finished statuses. -/
def finishedTexts : List String := ["RESOLVED", "FALSEPOSITIVE", "CLOSED", "MITIGATED"]

/-- The case is stored as finished. -/
def TenantData.CaseFinished (d : TenantData) (key : String × Uuid) : Prop :=
  ∃ c, d.getCaseById key.1 key.2 = some c ∧ c.status ∈ finishedTexts

namespace BackendCmd

def SelectsOverdue : BackendCmd → Prop
  | data (.overdueCases _) => True
  | _ => False

def UpdatesCase (key : String × Uuid) : BackendCmd → Prop
  | data (.updateCase _ tenantId id _) => (tenantId, id) = key
  | _ => False

/-- The command sets the case to a finished status. -/
def FinishesCase (key : String × Uuid) : BackendCmd → Prop
  | data (.updateCase _ tenantId id columns) => (tenantId, id) = key ∧ columns.status ∈ finishedTexts
  | _ => False

end BackendCmd

/-- The program may still write the case without another selection. -/
def HasSelected (p : BackendProg Unit) (key : String × Uuid) : Prop :=
  p.CanIssue BackendCmd.SelectsOverdue (BackendCmd.UpdatesCase key)

section conditions

variable {ι : Type} [DecidableEq ι] (tasks : ι → CaseTask)

/-- A step of a sweep leaves the status of every finished case. -/
def FinishedCasesKept (s : BackendPool ι Unit) (e : ι × Tick) : Prop :=
  (tasks e.1).isSweep = true → ∀ tenantId id c,
    s.store.data.getCaseById tenantId id = some c → c.status ∈ finishedTexts →
      ∃ c', (Atomic.Pool.step execBackend s e).store.data.getCaseById tenantId id = some c' ∧
        c'.status = c.status

/-- The step does not finish a case that a sweep has selected. -/
def NoFinishOfSelected (s : BackendPool ι Unit) (e : ι × Tick) : Prop :=
  ∀ c, (s.progs e.1).next = some c → e.2.fault = none → ∀ key, c.FinishesCase key →
    ∀ i, (tasks i).isSweep = true → ¬ HasSelected (s.progs i) key

end conditions

/-! ### What the tasks issue -/

/-- The commands of `update_case`. -/
def UpdateCommand : BackendCmd → Prop
  | .db .now | .db .newV4 => True
  | .data (.getCaseById _ _) | .data (.updateCase _ _ _ _) | .data (.insertCaseEvent _) => True
  | _ => False

/-- The commands of `escalate_overdue_cases`. -/
def CaseCommand (c : BackendCmd) : Prop := UpdateCommand c ∨ c.SelectsOverdue

theorem escalateCases_issues (records : List CaseRecord) (escalated : ℕ) :
    Issues UpdateCommand (escalateCases records escalated) := by
  induction records generalizing escalated with
  | nil => trivial
  | cons record records ih =>
      refine (updateCase_issues _ trivial trivial trivial (fun _ _ => trivial) fun _ => trivial).bind ?_
      intro result
      cases result with
      | error e => trivial
      | ok updated => exact ih _

theorem prog_issues (task : CaseTask) : Issues CaseCommand task.prog := by
  cases task with
  | sweep order =>
      refine Issues.bind (p := escalateOverdueCases order) ?_ fun _ => trivial
      refine issues_andThen (Or.inr trivial) fun records => ?_
      exact (escalateCases_issues records 0).imp fun _ _ => Or.inl
  | update tenantId caseId changes =>
      refine Issues.bind (p := updateCase tenantId caseId changes) ?_ fun _ => trivial
      exact updateCase_issues changes (Or.inl trivial) (Or.inl trivial) (Or.inl trivial)
        (fun _ _ => Or.inl trivial) fun _ => Or.inl trivial

/-! ### What a sweep has selected -/

theorem not_selectsOverdue {c : BackendCmd} (h : UpdateCommand c) : ¬ c.SelectsOverdue := by
  intro hselects
  cases c with
  | data c =>
      cases c with
      | overdueCases order => exact h
      | _ => exact hselects
  | _ => exact hselects

/-- The loop writes the listed cases only. -/
theorem hasSelected_escalateCases {records : List CaseRecord} {escalated : ℕ} {key : String × Uuid}
    (h : (escalateCases records escalated).CanIssue BackendCmd.SelectsOverdue
      (BackendCmd.UpdatesCase key)) : ∃ record ∈ records, record.key = key := by
  induction records generalizing escalated with
  | nil => exact h.elim
  | cons record records ih =>
      rcases Atomic.Prog.CanIssue.of_bind h with hfirst | ⟨result, hrest⟩
      · refine ⟨record, List.mem_cons_self, ?_⟩
        by_contra hkey
        have hother : Issues (fun c => ¬ c.UpdatesCase key)
            (updateCase record.tenantId record.id { status := some .escalated }) :=
          updateCase_issues _ id id id (fun _ _ => hkey) fun _ => id
        exact Atomic.Prog.not_canIssue_of_ensures hother hfirst
      · cases result with
        | error e => exact hrest.elim
        | ok updated =>
            obtain ⟨found, hfound, hkey⟩ := ih hrest
            exact ⟨found, List.mem_cons_of_mem _ hfound, hkey⟩

/-- A selected case is not finished. -/
theorem not_caseFinished_of_overdue {d : TenantData} {now : DateTime} {record : CaseRecord}
    (h : record ∈ d.overdueCases now) : ¬ d.CaseFinished record.key := by
  rintro ⟨c, hc, hfinished⟩
  obtain ⟨hmem, hselected⟩ := List.mem_filter.mp h
  have hsame : c = record := by
    have hkey : c.key = record.key := KeyedList.key_of_lookup hc
    exact List.inj_on_of_nodup_map d.cases_id (KeyedList.mem_of_lookup hc) hmem
      (Prod.mk.inj hkey).2
  subst hsame
  have hopen : c.status ∈ ["NEW", "INVESTIGATING", "AWAITINGCUSTOMER"] := by
    rw [Bool.and_eq_true, Bool.and_eq_true] at hselected
    exact List.contains_iff_mem.mp hselected.1.1
  have hdisjoint : ∀ s ∈ ["NEW", "INVESTIGATING", "AWAITINGCUSTOMER"], s ∉ finishedTexts := by
    decide
  exact hdisjoint c.status hopen hfinished

/-- After its first command a sweep has selected no finished case, and it selects no more. -/
theorem sweep_started (order : OverdueOrder) (tick : Tick) (b : Backend) :
    let after := Atomic.Prog.step (execBackend tick) (CaseTask.sweep order).prog b
    Issues UpdateCommand after.1 ∧
      ∀ key, HasSelected after.1 key → ¬ after.2.data.CaseFinished key := by
  unfold CaseTask.prog escalateOverdueCases andThen
  dsimp only
  rw [Atomic.Prog.call_bind, Atomic.Prog.step_call]
  cases hfault : tick.fault with
  | some e =>
      rw [execBackend_failed hfault]
      exact ⟨trivial, fun key h => (Atomic.Prog.not_canIssue_ret () h).elim⟩
  | none =>
      rw [execBackend_ok hfault rfl]
      refine ⟨Issues.bind (escalateCases_issues _ 0) fun _ => trivial, fun key h => ?_⟩
      rcases Atomic.Prog.CanIssue.of_bind h with hloop | ⟨_, hend⟩
      · obtain ⟨record, hrecord, rfl⟩ := hasSelected_escalateCases hloop
        exact not_caseFinished_of_overdue ((order.perm _).mem_iff.mp hrecord)
      · exact hend.elim

/-! ### Runs -/

section runs

variable {ι : Type} [DecidableEq ι] {tasks : ι → CaseTask}

/-- A sweep has not started, or every case it has selected and not written is not finished. -/
structure SweepsFresh (tasks : ι → CaseTask) (s : BackendPool ι Unit) : Prop where
  issues : ∀ i, Issues CaseCommand (s.progs i)
  fresh : ∀ i, (tasks i).isSweep = true → s.progs i = (tasks i).prog ∨
    Issues UpdateCommand (s.progs i) ∧
      ∀ key, HasSelected (s.progs i) key → ¬ s.store.data.CaseFinished key

theorem not_insertCase_of_caseCommand {c : BackendCmd} (h : CaseCommand c) (r : CaseRecord) :
    c ≠ .data (.insertCase r) := by
  rintro rfl
  rcases h with h | h <;> exact h

/-- A case that is finished after a command was so before, or the command has finished it. -/
theorem caseFinished_exec {tick : Tick} {b : Backend} {c : BackendCmd} (hc : CaseCommand c)
    {key : String × Uuid} (h : (execBackend tick c b).2.data.CaseFinished key) :
    b.data.CaseFinished key ∨ tick.fault = none ∧ c.FinishesCase key := by
  obtain ⟨row, hrow, hfinished⟩ := h
  rcases getCaseById_exec tick b (not_insertCase_of_caseCommand hc) key.1 key.2
    with hsame | ⟨loaded, columns, rfl, hfault, hnew⟩
  · rw [hsame] at hrow
    exact Or.inl ⟨row, hrow, hfinished⟩
  · rw [hnew, Option.map_eq_some_iff] at hrow
    obtain ⟨old, hold, rfl⟩ := hrow
    exact Or.inr ⟨hfault, rfl, hfinished⟩

theorem SweepsFresh.step {s : BackendPool ι Unit} {e : ι × Tick} (h : SweepsFresh tasks s)
    (hfree : NoFinishOfSelected tasks s e) :
    SweepsFresh tasks (Atomic.Pool.step execBackend s e) := by
  cases hnext : (s.progs e.1).next with
  | none =>
      rw [Atomic.Pool.step_finished hnext]
      exact h
  | some c =>
      have hcmd : CaseCommand c := (h.issues e.1).of_next hnext
      -- what a sweep had selected stays unfinished
      have hkept : ∀ i, (tasks i).isSweep = true →
          (∀ key, HasSelected (s.progs i) key → ¬ s.store.data.CaseFinished key) →
          ∀ key, HasSelected (s.progs i) key →
            ¬ (Atomic.Pool.step execBackend s e).store.data.CaseFinished key := by
        intro i hi hbefore key hkey hafter
        rw [Atomic.Pool.step_store hnext] at hafter
        rcases caseFinished_exec hcmd hafter with hold | ⟨hfault, hfinishes⟩
        · exact hbefore key hkey hold
        · exact hfree c hnext hfault key hfinishes i hi hkey
      refine ⟨Atomic.Pool.ensures_step h.issues e fun _ => trivial, fun i hi => ?_⟩
      by_cases hie : i = e.1
      · subst hie
        rw [Atomic.Pool.step_progs_self]
        right
        rcases h.fresh e.1 hi with hstart | ⟨hissues, hfresh⟩
        · rw [hstart, Atomic.Pool.step_store_eq, hstart]
          cases htask : tasks e.1 with
          | update tenantId caseId changes =>
              rw [htask] at hi
              cases hi
          | sweep order => exact sweep_started order e.2 s.store
        · refine ⟨hissues.step fun _ => trivial, fun key hkey => ?_⟩
          refine hkept e.1 hi hfresh key (hkey.of_step fun c' hc' => ?_)
          exact not_selectsOverdue (hissues.of_next hc')
      · rw [Atomic.Pool.step_progs_of_ne hie]
        rcases h.fresh i hi with hstart | ⟨hissues, hfresh⟩
        · exact Or.inl hstart
        · exact Or.inr ⟨hissues, hkept i hi hfresh⟩

/-- At a step of a sweep that has selected no finished case, every finished case keeps its status. -/
theorem SweepsFresh.kept {s : BackendPool ι Unit} {e : ι × Tick} (h : SweepsFresh tasks s) :
    FinishedCasesKept tasks s e := by
  intro hi tenantId id c hc hfinished
  cases hnext : (s.progs e.1).next with
  | none =>
      rw [Atomic.Pool.step_finished hnext]
      exact ⟨c, hc, rfl⟩
  | some cmd =>
      have hcmd : CaseCommand cmd := (h.issues e.1).of_next hnext
      rw [Atomic.Pool.step_store hnext]
      rcases getCaseById_exec e.2 s.store (not_insertCase_of_caseCommand hcmd)
        tenantId id with hsame | ⟨loaded, columns, rfl, -, -⟩
      · exact ⟨c, hsame.trans hc, rfl⟩
      · exfalso
        rcases h.fresh e.1 hi with hstart | ⟨-, hfresh⟩
        · rw [hstart] at hnext
          cases htask : tasks e.1 with
          | update tenantId' caseId changes =>
              rw [htask] at hi
              cases hi
          | sweep order =>
              rw [htask] at hnext
              cases hnext
        · exact hfresh (tenantId, id) (Atomic.Prog.canIssue_of_next hnext (fun h => h) rfl)
            ⟨c, hc, hfinished⟩

/-- **When sweeps leave finished cases alone**: in every run of any number of sweeps and updates in
which no update finishes a case that a sweep has selected and not yet written. -/
theorem finished_cases_kept (tasks : ι → CaseTask) (b : Backend) (schedule : List (ι × Tick))
    (hfree : Atomic.Pool.Meets execBackend (NoFinishOfSelected tasks) schedule (casePool tasks b)) :
    Atomic.Pool.Meets execBackend (FinishedCasesKept tasks) schedule (casePool tasks b) := by
  refine Atomic.Pool.Meets.of_invariant (SweepsFresh tasks) (fun s e h => h.step)
    (fun s e h _ => h.kept) ?_ hfree
  exact ⟨fun i => prog_issues (tasks i), fun i _ => Or.inl rfl⟩

end runs

/-! ### A sweep and an analyst -/

/-- One order of a sweep: equal times stay in the order of the rows. -/
def OverdueOrder.earliestFirst : OverdueOrder where
  arrange := List.insertionSort fun c d =>
    (c.escalationAt.map (·.1)).getD 0 ≤ (d.escalationAt.map (·.1)).getD 0
  perm := List.perm_insertionSort _
  sorted := fun cases => by
    have : Std.Total fun c d : CaseRecord =>
        (c.escalationAt.map (·.1)).getD 0 ≤ (d.escalationAt.map (·.1)).getD 0 :=
      ⟨fun c d => le_total _ _⟩
    have : IsTrans CaseRecord fun c d =>
        (c.escalationAt.map (·.1)).getD 0 ≤ (d.escalationAt.map (·.1)).getD 0 :=
      ⟨fun c d e hcd hde => le_trans hcd hde⟩
    exact List.pairwise_insertionSort _ cases

theorem emptyNames_nodup : ([] : List (String × String)).Nodup := List.nodup_nil

def emptyData : TenantData where
  rules := []
  playbooks := []
  cases := []
  links := []
  timeline := []
  costPolicies := []
  costCache := fun _ => none
  rules_id := List.nodup_nil
  rules_name := emptyNames_nodup
  playbooks_id := List.nodup_nil
  cases_id := List.nodup_nil
  cases_alert := List.nodup_nil
  links_key := List.nodup_nil
  links_alert := List.nodup_nil
  timeline_id := List.nodup_nil
  costPolicies_tenant := List.nodup_nil

/-- A new case of a tenant, overdue from the first second on. -/
def overdueCase (id alertId : Uuid) : CaseRecord where
  id := id
  tenantId := "t1"
  primaryAlertId := alertId
  title := "Port Scan Detection on 10.0.0.9"
  summary := ""
  severity := "HIGH"
  status := "NEW"
  ownerUserId := none
  ownerEmail := none
  playbookId := none
  slaDueAt := some (.ofSeconds 0)
  escalationAt := some (.ofSeconds 1)
  escalatedAt := none
  resolvedAt := none
  outcome := none
  postmortemSummary := none
  createdAt := .ofSeconds 0
  updatedAt := .ofSeconds 0

def twoOverdueCases : Backend where
  db := emptyDatabase
  data :=
    { emptyData with
      cases := [overdueCase "c1" "a1", overdueCase "c2" "a2"]
      cases_id := by decide
      cases_alert := by decide }

/-- A sweep, and an analyst who resolves the second case. -/
def sweepAndAnalyst : Bool → CaseTask
  | true => .sweep .earliestFirst
  | false => .update "t1" "c2" { status := some .resolved }

/-- The analyst is done before the sweep selects. -/
def resolveThenSweep : List (Bool × Tick) :=
  List.replicate 3 (false, firstTick) ++ List.replicate 4 (true, secondTick)

/-- The analyst resolves the case between the selection and its escalation. -/
def resolveWithinSweep : List (Bool × Tick) :=
  (true, firstTick) :: (List.replicate 3 (false, firstTick) ++ List.replicate 8 (true, secondTick))

theorem noFinish_of_not_started {ι : Type} {tasks : ι → CaseTask} {s : BackendPool ι Unit}
    {e : ι × Tick} (h : ∀ i, (tasks i).isSweep = true → s.progs i = (tasks i).prog) :
    NoFinishOfSelected tasks s e := by
  intro c _ _ key _ i hi hselected
  rw [h i hi] at hselected
  cases htask : tasks i with
  | update tenantId caseId changes =>
      rw [htask] at hi
      cases hi
  | sweep order =>
      rw [htask] at hselected
      exact hselected.1 trivial

theorem noFinish_of_next {ι : Type} {tasks : ι → CaseTask} {s : BackendPool ι Unit} {e : ι × Tick}
    {c : BackendCmd} (hnext : (s.progs e.1).next = some c) (h : ∀ key, ¬ c.FinishesCase key) :
    NoFinishOfSelected tasks s e := by
  intro c' hnext' _ key hfinishes
  obtain rfl := Option.some.inj (hnext.symm.trans hnext')
  exact absurd hfinishes (h key)

theorem resolveThenSweep_kept :
    Atomic.Pool.Meets execBackend (FinishedCasesKept sweepAndAnalyst) resolveThenSweep
      (casePool sweepAndAnalyst twoOverdueCases) := by
  have hnotStarted : ∀ s : BackendPool Bool Unit, s.progs true = (sweepAndAnalyst true).prog →
      ∀ e, NoFinishOfSelected sweepAndAnalyst s e := by
    intro s hs e
    refine noFinish_of_not_started fun i hi => ?_
    cases i with
    | false => cases hi
    | true => exact hs
  refine finished_cases_kept sweepAndAnalyst twoOverdueCases resolveThenSweep ?_
  refine ⟨hnotStarted _ rfl _, hnotStarted _ rfl _, hnotStarted _ rfl _, hnotStarted _ rfl _, ?_⟩
  -- the sweep reads the case, stamps it and writes it as escalated
  refine ⟨noFinish_of_next rfl fun _ => id, noFinish_of_next rfl fun _ => id,
    noFinish_of_next rfl fun _ h => ?_, trivial⟩
  exact absurd h.2 (by decide)

/-- A sweep escalates a case that the analyst has resolved after the sweep selected it. -/
theorem resolveWithinSweep_not_kept :
    ¬ ∀ (tasks : Bool → CaseTask) (b : Backend) (schedule : List (Bool × Tick)),
      Atomic.Pool.Meets execBackend (FinishedCasesKept tasks) schedule (casePool tasks b) := by
  intro h
  have hlast := Atomic.Pool.Meets.at_step (resolveWithinSweep.take 11) (true, secondTick) []
    (h sweepAndAnalyst twoOverdueCases resolveWithinSweep)
  have hbefore : ((Atomic.Pool.run execBackend (resolveWithinSweep.take 11)
      (casePool sweepAndAnalyst twoOverdueCases)).store.data.getCaseById "t1" "c2").map (·.status) =
        some "RESOLVED" := by
    decide +kernel
  have hafter : ((Atomic.Pool.run execBackend resolveWithinSweep
      (casePool sweepAndAnalyst twoOverdueCases)).store.data.getCaseById "t1" "c2").map (·.status) =
        some "ESCALATED" := by
    decide +kernel
  obtain ⟨c, hc, hresolved⟩ := Option.map_eq_some_iff.mp hbefore
  obtain ⟨c', hc', hsame⟩ := hlast rfl "t1" "c2" c hc (by rw [hresolved]; decide)
  rw [show resolveWithinSweep = resolveWithinSweep.take 11 ++ [(true, secondTick)] from rfl,
    Atomic.Pool.run_append, Atomic.Pool.run_cons, Atomic.Pool.run_nil, hc', Option.map_some, hsame,
    hresolved] at hafter
  exact absurd hafter (by decide)

end MiniSiem
