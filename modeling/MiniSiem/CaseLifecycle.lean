import MiniSiem.AlertCases
import MiniSiem.Handlers

/-! # The timestamps of a case

The calls of `create_case_from_alert`, the requests that create a case, update it or run a playbook
(`api/handlers/cases.rs`), and the sweep, any number of each, command by command on the tables.

* **Consistent.**  `resolved_at` is set when the status is a finished one, and only then; an escalated
  case has `escalated_at`.
* **Writes.**  Every row that is inserted is consistent; a row that is written has the times its status
  asks for, and otherwise those that were read (`StampsCase`).
* **Runs.**  `cases_consistent_iff`: the cases are consistent in every state of a run exactly when no
  write takes a case that was read with `resolved_at` back to an unfinished status. -/

namespace MiniSiem

open Atomic

/-- The timestamps match the status. -/
structure CaseRecord.Consistent (c : CaseRecord) : Prop where
  resolved : c.resolvedAt.isSome = true ↔ c.status ∈ finishedTexts
  escalated : c.status = "ESCALATED" → c.escalatedAt.isSome = true

/-- Whatever works on cases. -/
inductive CaseWork
  | create (alert : Alert) (new : NewCase) (playbookId : Option Uuid)
  | createRequest (claims : Option Claims) (body : CreateCaseRequest)
  | updateRequest (claims : Option Claims) (caseId : Uuid) (body : UpdateCaseRequest)
  | runPlaybook (claims : Option Claims) (caseId : Uuid) (playbookId : Option Uuid)
  | sweep (order : OverdueOrder)

section work

variable (crypto : AuditCrypto) (signingKey : String)

def CaseWork.prog : CaseWork → BackendProg Unit
  | create alert new playbookId => (createCaseFromAlert alert new playbookId).bind fun _ => .ret ()
  | createRequest claims body => (Api.createCase crypto signingKey claims body).bind fun _ => .ret ()
  | updateRequest claims caseId body =>
      (Api.updateCase crypto signingKey claims caseId body).bind fun _ => .ret ()
  | runPlaybook claims caseId playbookId =>
      (Api.runPlaybook crypto signingKey claims caseId playbookId).bind fun _ => .ret ()
  | sweep order => (escalateOverdueCases order).bind fun _ => .ret ()

/-- Any number of them, none started. -/
def caseWorkPool {ι : Type} (works : ι → CaseWork) (b : Backend) : BackendPool ι Unit :=
  ⟨fun i => (works i).prog crypto signingKey, b⟩

end work

def CasesConsistent {ι : Type} (s : BackendPool ι Unit) : Prop :=
  ∀ c ∈ s.store.data.cases, c.Consistent

/-- The command takes effect and takes a case that was read with `resolved_at` to an unfinished status. -/
def BackendCmd.reopens (tick : Tick) (b : Backend) : BackendCmd → Bool
  | data (.updateCase loaded tenantId id columns) =>
      tick.fault.isNone && columns.storable && (b.data.getCaseById tenantId id).isSome &&
        loaded.resolvedAt.isSome && columns.status ∉ finishedTexts
  | _ => false

/-- The step reopens no case. -/
def NoReopening {ι : Type} (s : BackendPool ι Unit) (e : ι × Tick) : Prop :=
  ∀ c ∈ (s.progs e.1).next, c.reopens e.2 s.store = false

instance {ι : Type} (s : BackendPool ι Unit) (e : ι × Tick) : Decidable (NoReopening s e) :=
  inferInstanceAs (Decidable (∀ c ∈ (s.progs e.1).next, c.reopens e.2 s.store = false))

/-! ### What the work writes -/

/-- A new row is consistent, and a row that is written has the times its status asks for. -/
def StampsCase : BackendCmd → Prop
  | .data (.insertCase record) => record.stored.Consistent
  | .data (.updateCase loaded _ _ columns) =>
      (columns.status = "ESCALATED" → columns.escalatedAt.isSome = true) ∧
        (columns.resolvedAt.isSome = true ↔
          columns.status ∈ finishedTexts ∨ loaded.resolvedAt.isSome = true)
  | _ => True

theorem CaseStatus.toString_mem_finishedTexts (status : CaseStatus) :
    status.toString ∈ finishedTexts ↔ status.finished = true := by
  cases status <;> decide

theorem CaseStatus.toString_eq_escalated (status : CaseStatus) :
    status.toString = "ESCALATED" ↔ status = .escalated := by
  cases status <;> decide

theorem stampTime_ensures {α : Type} {Q : BackendCmd → Prop} (hnow : Q (.db .now)) {isNow : Bool}
    {time : Option DateTime} {k : Option DateTime → BackendProg α}
    (hk : ∀ t, (t.isSome = true ↔ isNow = true ∨ time.isSome = true) → Issues Q (k t)) :
    Issues Q (stampTime isNow time k) := by
  unfold stampTime
  split_ifs with hstamp
  · rw [Bool.and_eq_true] at hstamp
    exact issues_call hnow fun now => hk (some now) (iff_of_true rfl (Or.inl hstamp.1))
  · refine hk time ⟨Or.inr, fun h => h.elim (fun hisNow => ?_) id⟩
    rw [hisNow, Bool.true_and, Option.isNone_iff_eq_none] at hstamp
    exact Option.isSome_iff_ne_none.mpr hstamp

theorem updateCase_stamps (tenantId : String) (caseId : Uuid) (update : CaseUpdate) :
    Issues StampsCase (updateCase tenantId caseId update) := by
  refine issues_andThen trivial fun found => ?_
  cases found with
  | none => trivial
  | some existing =>
      refine stampTime_ensures trivial fun escalatedAt hescalated => ?_
      refine stampTime_ensures trivial fun resolvedAt hresolved => ?_
      refine issues_andThen ⟨fun hstatus => ?_, ?_⟩ fun record => ?_
      · refine hescalated.mpr (Or.inl (decide_eq_true ?_))
        exact (CaseStatus.toString_eq_escalated _).mp hstatus
      · show resolvedAt.isSome = true ↔ (update.nextStatus existing).toString ∈ finishedTexts ∨ _
        rw [CaseStatus.toString_mem_finishedTexts]
        exact hresolved
      · exact (recordCaseChanges_issues trivial (fun _ => trivial) _ _ _ _ _).bind fun _ => trivial

theorem escalateCases_stamps (records : List CaseRecord) (escalated : ℕ) :
    Issues StampsCase (escalateCases records escalated) := by
  induction records generalizing escalated with
  | nil => trivial
  | cons record records ih =>
      refine (updateCase_stamps _ _ _).bind fun result => ?_
      cases result with
      | error e => trivial
      | ok updated => exact ih _

/-- A program of the database issues commands of the database. -/
theorem liftDb_issues {α : Type} {Q : BackendCmd → Prop} (hdb : ∀ c, Q (.db c)) (p : DbProg α) :
    Issues Q (liftDb p) := by
  induction p with
  | ret a => trivial
  | call c k ih => exact issues_call (hdb c) ih

theorem unaudited_stamps (record : DbProg (Except String Unit)) {k : Handler}
    (hk : Issues StampsCase k) : Issues StampsCase (unaudited record k) :=
  (liftDb_issues (fun _ => trivial) record).bind fun _ => hk

theorem asAnalyst_stamps {claims : Option Claims} {k : Claims → Handler}
    (hk : ∀ claims, Issues StampsCase (k claims)) : Issues StampsCase (asAnalyst claims k) := by
  unfold asAnalyst withClaims
  cases claims with
  | none => trivial
  | some claims =>
      dsimp only
      split_ifs
      · refine (liftDb_issues (fun _ => trivial) _).bind fun result => ?_
        cases result with
        | finished => exact hk claims
        | response r => trivial
        | panicked => trivial
      · trivial

theorem recordCaseEvent_stamps (tenantId : String) (caseId : Uuid) (eventType message : String)
    (actorUserId actorEmail : Option String) (metadata : Json) :
    Issues StampsCase
      (recordCaseEvent tenantId caseId eventType message actorUserId actorEmail metadata) :=
  recordCaseEvent_issues trivial (fun _ => trivial) _ _ _ _ _ _ _

theorem newCase_consistent (new : NewCase) (alert : Alert) (id : Uuid) (playbook : Option CasePlaybook)
    (now slaDueAt escalationAt : DateTime) :
    (new.record alert id playbook now slaDueAt escalationAt).stored.Consistent := by
  refine ⟨iff_of_false Bool.false_ne_true ?_, ?_⟩
  · show "NEW" ∉ finishedTexts
    decide
  · show "NEW" = "ESCALATED" → _
    intro h
    exact absurd h (by decide)

theorem createCaseFromAlert_stamps (alert : Alert) (new : NewCase) (playbookId : Option Uuid) :
    Issues StampsCase (createCaseFromAlert alert new playbookId) := by
  refine (createCaseFromAlert_issues playbookId).imp fun _ c hc => ?_
  cases c with
  | data c =>
      cases c with
      | insertCase r =>
          obtain ⟨id, playbook, now, slaDueAt, escalationAt, rfl⟩ := hc
          exact newCase_consistent new alert id playbook now slaDueAt escalationAt
      | updateCase _ _ _ _ => exact hc.elim
      | _ => trivial
  | _ => trivial

theorem recordSteps_stamps (claims : Claims) (caseId : Uuid) (steps : List Json) :
    Issues StampsCase (recordSteps claims caseId steps) := by
  induction steps with
  | nil => trivial
  | cons step steps ih => exact (recordCaseEvent_stamps _ _ _ _ _ _ _).bind fun _ => ih

theorem caseWork_stamps (crypto : AuditCrypto) (signingKey : String) (work : CaseWork) :
    Issues StampsCase (work.prog crypto signingKey) := by
  cases work with
  | create alert new playbookId =>
      exact (createCaseFromAlert_stamps alert new playbookId).bind fun _ => trivial
  | createRequest claims body =>
      refine Issues.bind (asAnalyst_stamps fun claims => issues_call trivial fun found => ?_) fun _ => trivial
      rcases found with e | _ | alert
      · trivial
      · trivial
      · refine (createCaseFromAlert_stamps _ _ _).bind fun result => ?_
        rcases result with (message | _) | record
        · trivial
        · trivial
        · exact unaudited_stamps _ trivial
  | updateRequest claims caseId body =>
      refine Issues.bind (asAnalyst_stamps fun claims => ?_) fun _ => trivial
      refine (updateCase_stamps _ _ _).bind fun result => ?_
      cases result with
      | error e =>
          dsimp only
          split_ifs <;> trivial
      | ok record => exact unaudited_stamps _ trivial
  | runPlaybook claims caseId playbookId =>
      refine Issues.bind (asAnalyst_stamps fun claims => issues_call trivial fun found => ?_) fun _ => trivial
      rcases found with e | _ | record
      · trivial
      · trivial
      · dsimp only
        cases playbookId <|> record.playbookId with
        | none => trivial
        | some id =>
            refine issues_call trivial fun chosen => ?_
            rcases chosen with e | _ | playbook
            · trivial
            · trivial
            · refine (updateCase_stamps _ _ _).bind fun _ => ?_
              refine (recordCaseEvent_stamps _ _ _ _ _ _ _).bind fun _ => ?_
              exact (recordSteps_stamps _ _ _).bind fun _ => unaudited_stamps _ trivial
  | sweep order =>
      refine Issues.bind (issues_andThen trivial fun records => ?_) fun _ => trivial
      exact escalateCases_stamps records 0

/-! ### Writes -/

section writes

variable {loaded : CaseRecord} {tenantId : String} {id : Uuid} {columns : CaseColumns}

/-- A written row is consistent unless it was read with `resolved_at` and has an unfinished status. -/
theorem consistent_write_iff (h : StampsCase (.data (.updateCase loaded tenantId id columns)))
    (now : DateTime) (row : CaseRecord) :
    (columns.write now row).Consistent ↔
      (loaded.resolvedAt.isSome = true → columns.status ∈ finishedTexts) := by
  have hresolved : (columns.write now row).resolvedAt.isSome = columns.resolvedAt.isSome :=
    Option.isSome_map
  have hescalated : (columns.write now row).escalatedAt.isSome = columns.escalatedAt.isSome :=
    Option.isSome_map
  constructor
  · intro hconsistent hloaded
    refine hconsistent.resolved.mp ?_
    rw [hresolved]
    exact h.2.mpr (Or.inr hloaded)
  · intro hkeeps
    refine ⟨?_, fun hstatus => ?_⟩
    · rw [hresolved, h.2]
      exact ⟨fun hor => hor.elim (fun hfinished => hfinished) hkeeps, Or.inl⟩
    · rw [hescalated]
      exact h.1 hstatus

/-- The cases after an `UPDATE`: those of before, unless it takes effect. -/
theorem updateCase_exec (tick : Tick) (b : Backend) :
    (execBackend tick (.data (.updateCase loaded tenantId id columns)) b).2.data.cases =
      if tick.fault = none ∧ columns.storable = true ∧
        (b.data.getCaseById tenantId id).isSome = true then
        b.data.casesUpdated tick.clock tenantId id columns
      else b.data.cases := by
  rcases execBackend_data tick b (.data (.updateCase loaded tenantId id columns)) with
    hsame | ⟨dc, reply, data, hdc, hfault, hrun, hdata⟩
  · rw [hsame]
    split_ifs with htakes
    · obtain ⟨hfault, hstorable, hsome⟩ := htakes
      obtain ⟨row, hrow⟩ := Option.isSome_iff_exists.mp hsome
      -- an update that takes effect and changes nothing
      have hrun : ∃ data, (DataCmd.updateCase loaded tenantId id columns).run tick.clock tick.uuid b.data =
          .ok (columns.write tick.clock row, data) ∧
            data.cases = b.data.casesUpdated tick.clock tenantId id columns := by
        unfold DataCmd.run TenantData.updateCase
        dsimp only
        rw [if_neg (by rw [hstorable]; decide), hrow]
        exact ⟨_, rfl, rfl⟩
      obtain ⟨data, hrun, hcases⟩ := hrun
      rw [execBackend_ok hfault hrun] at hsame
      rw [← hcases, ← hsame]
    · rfl
  · cases hdc
    rw [hdata]
    have hstorable : columns.storable = true := by
      by_contra hno
      unfold DataCmd.run TenantData.updateCase at hrun
      dsimp only at hrun
      rw [if_pos (by simpa using hno)] at hrun
      cases hrun
    obtain ⟨row, -, -, hrow, -, rfl⟩ := TenantData.updateCase_ok hrun
    rw [if_pos ⟨hfault, hstorable, Option.isSome_iff_exists.mpr ⟨row, hrow⟩⟩]

/-- The rows after an update: that of the case is written, the others stay. -/
theorem forall_casesUpdated {P : CaseRecord → Prop} {d : TenantData} {now : DateTime} {row : CaseRecord}
    (hrow : d.getCaseById tenantId id = some row) (h : ∀ c ∈ d.cases, P c) :
    (∀ c ∈ d.casesUpdated now tenantId id columns, P c) ↔ P (columns.write now row) := by
  have hkey := KeyedList.key_of_lookup hrow
  have hmem := KeyedList.mem_of_lookup hrow
  unfold TenantData.casesUpdated KeyedList.updateKey
  constructor
  · intro hall
    refine hall _ (List.mem_map.mpr ⟨row, hmem, ?_⟩)
    rw [if_pos hkey]
  · intro hwritten c hc
    obtain ⟨old, hold, rfl⟩ := List.mem_map.mp hc
    split_ifs with hsame
    · rw [List.inj_on_of_nodup_map d.cases_id hold hmem (congrArg Prod.snd (hsame.trans hkey.symm))]
      exact hwritten
    · exact h old hold

end writes

/-! ### Runs -/

section runs

variable {ι : Type} [DecidableEq ι]

/-- A command that writes no case leaves the cases consistent. -/
theorem casesConsistent_exec {tick : Tick} {b : Backend} {c : BackendCmd} (hstamps : StampsCase c)
    (hne : ∀ loaded tenantId id columns, c ≠ .data (.updateCase loaded tenantId id columns))
    (h : ∀ r ∈ b.data.cases, r.Consistent) :
    ∀ r ∈ (execBackend tick c b).2.data.cases, r.Consistent := by
  rcases execBackend_data tick b c with hsame | ⟨dc, reply, data, rfl, -, hrun, hdata⟩
  · rw [hsame]
    exact h
  · rw [hdata]
    by_cases htable : dc.table = some .cases
    · cases dc with
      | insertCase record =>
          obtain ⟨-, -, -, rfl⟩ := TenantData.insertCase_ok hrun
          intro r hr
          rcases List.mem_append.mp hr with hold | hnew
          · exact h r hold
          · rw [List.mem_singleton.mp hnew]
            exact hstamps
      | updateCase loaded tenantId id columns => exact absurd rfl (hne loaded tenantId id columns)
      | _ => cases htable
    · have hcases : data.cases = b.data.cases := DataCmd.run_frame hrun (t := .cases) htable
      rw [hcases]
      exact h

/-- A step keeps the cases consistent exactly when it does not reopen one. -/
theorem casesConsistent_step {s : BackendPool ι Unit} {e : ι × Tick}
    (hstamps : ∀ i, Issues StampsCase (s.progs i)) (h : CasesConsistent s) :
    CasesConsistent (Pool.step execBackend s e) ↔ NoReopening s e := by
  cases hnext : (s.progs e.1).next with
  | none =>
      rw [Pool.step_finished hnext]
      refine iff_of_true h fun c hc => ?_
      cases hnext.symm.trans hc
  | some c =>
      have hstamp := (hstamps e.1).of_next hnext
      have hreopening : NoReopening s e ↔ c.reopens e.2 s.store = false :=
        ⟨fun hno => hno c hnext, fun hno c' hc' => Option.some.inj (hnext.symm.trans hc') ▸ hno⟩
      rw [hreopening]
      unfold CasesConsistent
      rw [Pool.step_store hnext]
      by_cases hwrite : ∃ loaded tenantId id columns, c = .data (.updateCase loaded tenantId id columns)
      · obtain ⟨loaded, tenantId, id, columns, rfl⟩ := hwrite
        rw [updateCase_exec]
        unfold BackendCmd.reopens
        split_ifs with htakes
        · obtain ⟨hfault, hstorable, hsome⟩ := htakes
          obtain ⟨row, hrow⟩ := Option.isSome_iff_exists.mp hsome
          rw [forall_casesUpdated hrow h, consistent_write_iff hstamp]
          simp [hfault, hstorable, hsome]
        · refine iff_of_true h (Bool.eq_false_iff.mpr fun hreopens => htakes ?_)
          simp only [Bool.and_eq_true, Option.isNone_iff_eq_none] at hreopens
          exact ⟨hreopens.1.1.1.1, hreopens.1.1.1.2, hreopens.1.1.2⟩
      · refine iff_of_true (casesConsistent_exec hstamp (fun l t i k heq => hwrite ⟨l, t, i, k, heq⟩) h) ?_
        unfold BackendCmd.reopens
        split
        · rename_i loaded tenantId id columns
          exact absurd ⟨loaded, tenantId, id, columns, rfl⟩ hwrite
        · rfl

/-- **When timestamps match the status.** -/
theorem cases_consistent_iff (crypto : AuditCrypto) (signingKey : String) (works : ι → CaseWork)
    {b : Backend} (hstart : ∀ c ∈ b.data.cases, c.Consistent) (schedule : List (ι × Tick)) :
    (∀ front, front <+: schedule →
      CasesConsistent (Pool.run execBackend front (caseWorkPool crypto signingKey works b))) ↔
      Pool.Meets execBackend NoReopening schedule (caseWorkPool crypto signingKey works b) := by
  refine Pool.holds_iff_meets (J := fun s => ∀ i, Issues StampsCase (s.progs i)) (fun front _ => ?_)
    (fun s e hstamps _ h => casesConsistent_step hstamps h) hstart
  refine Pool.run_invariant (J := fun s => ∀ i, Issues StampsCase (s.progs i)) (fun s e hstamps => ?_)
    (fun i => caseWork_stamps crypto signingKey (works i)) front
  exact Pool.ensures_step hstamps e fun _ => trivial

end runs

/-! ### A case that is resolved and taken up again -/

def analyst : Claims := ⟨"analyst", "t1", "analyst@t1", ["analyst"], none⟩

/-- The sweep, and an analyst who resolves the first case. -/
def sweepAndResolve : Bool → CaseWork
  | true => .sweep .earliestFirst
  | false => .updateRequest (some analyst) "c1" { status := some .resolved }

/-- An analyst who resolves the case, and one who investigates it again. -/
def resolveAndReopen : Bool → CaseWork
  | true => .updateRequest (some analyst) "c1" { status := some .resolved }
  | false => .updateRequest (some analyst) "c1" { status := some .investigating }

/-- One after the other. -/
def trueThenFalse : List (Bool × Tick) :=
  List.replicate 20 (true, firstTick) ++ List.replicate 20 (false, secondTick)

theorem twoOverdueCases_consistent : ∀ c ∈ twoOverdueCases.data.cases, c.Consistent := by
  have hnew : ∀ id alertId, (overdueCase id alertId).Consistent := by
    intro id alertId
    refine ⟨iff_of_false Bool.false_ne_true (show "NEW" ∉ finishedTexts by decide), fun hstatus => ?_⟩
    exact absurd hstatus (show "NEW" ≠ "ESCALATED" by decide)
  intro c hc
  rcases List.mem_pair.mp hc with rfl | rfl
  · exact hnew _ _
  · exact hnew _ _

theorem sweepThenResolve_consistent :
    CasesConsistent (Pool.run execBackend trueThenFalse
      (caseWorkPool sampleCrypto "key" sweepAndResolve twoOverdueCases)) := by
  have hsteps : Pool.Meets execBackend NoReopening trueThenFalse
      (caseWorkPool sampleCrypto "key" sweepAndResolve twoOverdueCases) := by decide +kernel
  exact (cases_consistent_iff sampleCrypto "key" sweepAndResolve twoOverdueCases_consistent
    trueThenFalse).mpr hsteps trueThenFalse List.prefix_rfl

/-- The case that is investigated again keeps its `resolved_at`. -/
theorem resolveThenReopen_not_consistent :
    ¬ ∀ (crypto : AuditCrypto) (signingKey : String) (works : Bool → CaseWork) (b : Backend)
      (schedule : List (Bool × Tick)), (∀ c ∈ b.data.cases, c.Consistent) →
      CasesConsistent (Pool.run execBackend schedule (caseWorkPool crypto signingKey works b)) := by
  intro h
  have hconsistent := h sampleCrypto "key" resolveAndReopen twoOverdueCases trueThenFalse
    twoOverdueCases_consistent
  have hreopened : ∃ c ∈ (Pool.run execBackend trueThenFalse
      (caseWorkPool sampleCrypto "key" resolveAndReopen twoOverdueCases)).store.data.cases,
      c.resolvedAt.isSome = true ∧ c.status ∉ finishedTexts := by decide +kernel
  obtain ⟨c, hc, hresolved, hunfinished⟩ := hreopened
  exact hunfinished ((hconsistent c hc).resolved.mp hresolved)

end MiniSiem
