import MiniSiem.AuditTrail
import MiniSiem.TenantTables

/-! # Functions of several statements

The functions of `db/postgres.rs` that issue more than one statement on rules and cases: `update_rule`,
`create_case_from_alert`, `update_case` and `escalate_overdue_cases`, as programs over the commands
of the backend.

* **Errors.**  `andThen` is the operator `?` after a command.  A timeline event of `update_case` and
  `create_case_from_alert` is recorded with `let _ =`: its failure is ignored.
* **Panics.**  Adding the minutes of a playbook to the clock may leave the range of `chrono`; this is
  the outcome `panicked` of `create_case_from_alert`. -/

namespace MiniSiem

variable {α : Type}

/-- `c.await?` followed by `k`. -/
def andThen (c : DataCmd) (k : c.Out → BackendProg (Except String α)) :
    BackendProg (Except String α) :=
  .call (.data c) fun
    | .error e => .ret (.error e)
    | .ok reply => k reply

/-- `record_case_event`. -/
def recordCaseEvent (tenantId : String) (caseId : Uuid) (eventType message : String)
    (actorUserId actorEmail : Option String) (metadata : Json) : BackendProg (Except String Unit) :=
  .call (.db .newV4) fun id =>
    andThen (.insertCaseEvent
      ⟨id, caseId, tenantId, eventType, message, actorUserId, actorEmail, metadata⟩) fun _ =>
        .ret (.ok ())

/-! ### Updating a rule -/

structure RuleUpdate where
  name : Option String := none
  description : Option String := none
  severity : Option String := none
  threshold : Option Int32 := none
  windowSeconds : Option Int32 := none
  condition : Option Json := none
  isEnabled : Option Bool := none

/-- The columns `update_rule` writes. -/
def RuleUpdate.columns (update : RuleUpdate) (existing : StoredRule) : RuleColumns where
  name := update.name.getD existing.name
  description := update.description <|> existing.description
  severity := update.severity.getD existing.severity
  threshold := update.threshold <|> existing.threshold
  windowSeconds := update.windowSeconds <|> existing.windowSeconds
  condition := update.condition <|> existing.condition
  isEnabled := update.isEnabled.getD existing.isEnabled

/-- `update_rule`. -/
def updateRule (tenantId : String) (id : Uuid) (update : RuleUpdate) :
    BackendProg (Except String StoredRule) :=
  andThen (.getRuleById tenantId id) fun
    | none => .ret (.error "Rule not found")
    | some existing =>
        andThen (.updateRule existing tenantId id (update.columns existing)) fun record =>
          .ret (.ok record)

/-- What the handler `toggle_rule` does to the rule, if there is one. -/
def toggleStoredRule (tenantId : String) (id : Uuid) :
    BackendProg (Except String (Option StoredRule)) :=
  andThen (.getRuleById tenantId id) fun
    | none => .ret (.ok none)
    | some rule =>
        (updateRule tenantId id { isEnabled := some (!rule.isEnabled) }).bind fun result =>
          .ret (result.map some)

/-! ### Updating a case -/

/-- RESOLVED, FALSEPOSITIVE, CLOSED and MITIGATED. -/
def CaseStatus.finished : CaseStatus → Bool
  | .resolved | .falsePositive | .closed | .mitigated => true
  | .new | .investigating | .awaitingCustomer | .escalated => false

/-- The fields a call of `update_case` asks to change. -/
structure CaseUpdate where
  status : Option CaseStatus := none
  ownerUserId : Option (Option String) := none
  ownerEmail : Option (Option String) := none
  outcome : Option (Option String) := none
  postmortemSummary : Option (Option String) := none

/-- The status the case gets. -/
def CaseUpdate.nextStatus (update : CaseUpdate) (existing : CaseRecord) : CaseStatus :=
  update.status.getD ((CaseStatus.fromStr existing.status).getD .new)

/-- The time of a change, which is read from the clock if the change is now and the first. -/
def stampTime (isNow : Bool) (time : Option DateTime) (k : Option DateTime → BackendProg α) :
    BackendProg α :=
  if isNow && time.isNone then .call (.db .now) fun now => k (some now) else k time

/-- The columns a call of `update_case` writes. -/
def CaseUpdate.columns (update : CaseUpdate) (existing : CaseRecord)
    (escalatedAt resolvedAt : Option DateTime) : CaseColumns where
  status := (update.nextStatus existing).toString
  ownerUserId := update.ownerUserId.getD existing.ownerUserId
  ownerEmail := update.ownerEmail.getD existing.ownerEmail
  outcome := update.outcome.getD existing.outcome
  postmortemSummary := update.postmortemSummary.getD existing.postmortemSummary
  escalatedAt := escalatedAt
  resolvedAt := resolvedAt

/-- The timeline events of an update; their failures are ignored. -/
def recordCaseChanges (tenantId : String) (caseId : Uuid) (existing record : CaseRecord)
    (columns : CaseColumns) : BackendProg Unit :=
  let statusChange : BackendProg (Except String Unit) :=
    if existing.status ≠ record.status then
      recordCaseEvent tenantId caseId "case.status_changed"
        ("Case status changed from " ++ existing.status ++ " to " ++ record.status)
        columns.ownerUserId columns.ownerEmail
        (.obj [("from", .str existing.status), ("to", .str record.status)])
    else .ret (.ok ())
  let ownerChange : BackendProg (Except String Unit) :=
    if existing.ownerUserId ≠ record.ownerUserId ∨ existing.ownerEmail ≠ record.ownerEmail then
      recordCaseEvent tenantId caseId "case.owner_changed" "Case ownership updated"
        columns.ownerUserId columns.ownerEmail
        (.obj [("owner_email", optionalText record.ownerEmail),
          ("owner_user_id", optionalText record.ownerUserId)])
    else .ret (.ok ())
  statusChange.bind fun _ => ownerChange.bind fun _ => .ret ()

/-- `update_case`. -/
def updateCase (tenantId : String) (caseId : Uuid) (update : CaseUpdate) :
    BackendProg (Except String CaseRecord) :=
  andThen (.getCaseById tenantId caseId) fun
    | none => .ret (.error "case not found")
    | some existing =>
        stampTime (update.nextStatus existing = .escalated) existing.escalatedAt fun escalatedAt =>
          stampTime (update.nextStatus existing).finished existing.resolvedAt fun resolvedAt =>
            let columns := update.columns existing escalatedAt resolvedAt
            andThen (.updateCase existing tenantId caseId columns) fun record =>
              (recordCaseChanges tenantId caseId existing record columns).bind fun _ =>
                .ret (.ok record)

/-! ### The sweep -/

/-- The loop of the sweep; an error ends it. -/
def escalateCases : List CaseRecord → ℕ → BackendProg (Except String ℕ)
  | [], escalated => .ret (.ok escalated)
  | record :: records, escalated =>
      (updateCase record.tenantId record.id { status := some .escalated }).bind fun
        | .error e => .ret (.error e)
        | .ok updated =>
            escalateCases records (if updated.status = "ESCALATED" then escalated + 1 else escalated)

/-- `escalate_overdue_cases`. -/
def escalateOverdueCases (order : OverdueOrder) : BackendProg (Except String ℕ) :=
  andThen (.overdueCases order) fun records => escalateCases records 0

/-! ### Creating a case -/

/-- The steps of the default playbook. -/
def defaultSteps : Json :=
  .arr
    [.obj [("action_type", .str "assign"), ("automated", .bool false),
        ("description", .str "Assign the case to the on-call responder or analyst"),
        ("details", .str "Review the alert, then set ownership"), ("title", .str "Confirm owner")],
      .obj [("action_type", .str "containment"), ("automated", .bool false),
        ("description", .str "Block or isolate the suspicious source until verified"),
        ("details", .str "Use firewall, EDR, or account controls"), ("title", .str "Contain source")],
      .obj [("action_type", .str "collect"), ("automated", .bool true),
        ("description", .str "Attach logs, screenshots, and notes to the timeline"),
        ("details", .str "Use the case timeline for evidence preservation"),
        ("title", .str "Capture evidence")]]

/-- `ensure_default_case_playbooks`. -/
def ensureDefaultCasePlaybooks (tenantId : String) : BackendProg (Except String Unit) :=
  andThen (.countPlaybooks tenantId) fun existing =>
    if existing > 0 then .ret (.ok ())
    else .call (.db .newV4) fun playbookId => .call (.db .now) fun now =>
      andThen (.insertPlaybook
        { id := playbookId
          tenantId := tenantId
          name := "Default incident response"
          description :=
            "Triaged case path that links alert, ownership, escalation, and postmortem evidence."
          severity := "HIGH"
          slaMinutes := 60
          escalateAfterMinutes := 120
          steps := defaultSteps
          isEnabled := true
          createdAt := now
          updatedAt := now }) fun _ => .ret (.ok ())

/-- `list_case_playbooks`. -/
def listCasePlaybooks (tenantId : String) : BackendProg (Except String (List CasePlaybook)) :=
  (ensureDefaultCasePlaybooks tenantId).bind fun
    | .error e => .ret (.error e)
    | .ok () => andThen (.listPlaybooks tenantId) fun playbooks => .ret (.ok playbooks)

/-- The playbook of a new case: the given one, or the first enabled one. -/
def choosePlaybook (tenantId : String) :
    Option Uuid → BackendProg (Except String (Option CasePlaybook))
  | some id => andThen (.getCasePlaybook tenantId id) fun playbook => .ret (.ok playbook)
  | none =>
      (listCasePlaybooks tenantId).bind fun
        | .error e => .ret (.error e)
        | .ok playbooks => .ret (.ok (playbooks.find? (·.isEnabled)))

/-- `now + Duration::minutes(minutes.max(1))`, which panics out of range. -/
def DateTime.addMinutes (now : DateTime) (minutes : Int32) : Option DateTime :=
  let t := now.1 + max 1 minutes.toInt * 60 * 1000000000
  if h : minSeconds * 1000000000 ≤ t ∧ t < (maxSeconds + 1) * 1000000000 then some ⟨t, h⟩ else none

inductive CaseFailure
  | error (message : String)
  | panicked

/-- What a call of `create_case_from_alert` gives besides the alert and the playbook. -/
structure NewCase where
  ownerUserId : Option String := none
  ownerEmail : Option String := none
  title : Option String := none
  summary : Option String := none

/-- The case of an alert. -/
def NewCase.record (new : NewCase) (alert : Alert) (id : Uuid) (playbook : Option CasePlaybook)
    (now slaDueAt escalationAt : DateTime) : CaseRecord where
  id := id
  tenantId := alert.tenantId
  primaryAlertId := alert.id
  title := new.title.getD (alert.ruleName ++ " on " ++ alert.sourceIp)
  summary := new.summary.getD alert.description
  severity := alert.severity.toString
  status := CaseStatus.new.toString
  ownerUserId := new.ownerUserId
  ownerEmail := new.ownerEmail
  playbookId := playbook.map (·.id)
  slaDueAt := some slaDueAt
  escalationAt := some escalationAt
  escalatedAt := none
  resolvedAt := none
  outcome := none
  postmortemSummary := none
  createdAt := now
  updatedAt := now

/-- The timeline events of a new case; their failures are ignored. -/
def recordNewCase (alert : Alert) (new : NewCase) (caseId : Uuid) (playbook : Option CasePlaybook) :
    BackendProg Unit :=
  (recordCaseEvent alert.tenantId caseId "case.created" "Case created from incoming alert"
    new.ownerUserId new.ownerEmail
    (.obj [("alert_id", .str alert.id), ("playbook_id", optionalText (playbook.map (·.id))),
      ("severity", .str alert.severity.toString)])).bind fun _ =>
  (recordCaseEvent alert.tenantId caseId "alert.linked" "Primary alert linked to case" none none
    (.obj [("alert_id", .str alert.id), ("rule_id", .str alert.ruleId),
      ("source_ip", .str alert.sourceIp)])).bind fun _ =>
  match playbook with
  | some playbook =>
      (recordCaseEvent alert.tenantId caseId "playbook.assigned"
        ("Playbook '" ++ playbook.name ++ "' assigned to case") none none
        (.obj [("playbook_id", .str playbook.id), ("playbook_name", .str playbook.name),
          ("steps", playbook.steps)])).bind fun _ => .ret ()
  | none => .ret ()

/-- The part of `create_case_from_alert` after the choice of the playbook. -/
def insertCaseOfAlert (alert : Alert) (new : NewCase) (playbook : Option CasePlaybook) :
    BackendProg (Except CaseFailure CaseRecord) :=
  .call (.db .now) fun now => .call (.db .newV4) fun caseId =>
    match now.addMinutes ((playbook.map (·.slaMinutes)).getD 60),
        now.addMinutes ((playbook.map (·.escalateAfterMinutes)).getD 120) with
    | some slaDueAt, some escalationAt =>
        .call (.data (.insertCase (new.record alert caseId playbook now slaDueAt escalationAt))) fun
          | .error e => .ret (.error (.error e))
          | .ok record =>
              .call (.data (.insertLink caseId alert.id alert.tenantId)) fun
                | .error e => .ret (.error (.error e))
                | .ok () =>
                    (recordNewCase alert new caseId playbook).bind fun _ => .ret (.ok record)
    | _, _ => .ret (.error .panicked)

/-- `create_case_from_alert`. -/
def createCaseFromAlert (alert : Alert) (new : NewCase) (playbookId : Option Uuid) :
    BackendProg (Except CaseFailure CaseRecord) :=
  .call (.data (.getCaseByAlertId alert.tenantId alert.id)) fun
    | .error e => .ret (.error (.error e))
    | .ok (some existing) => .ret (.ok existing)
    | .ok none =>
        (ensureDefaultCasePlaybooks alert.tenantId).bind fun
          | .error e => .ret (.error (.error e))
          | .ok () =>
              (choosePlaybook alert.tenantId playbookId).bind fun
                | .error e => .ret (.error (.error e))
                | .ok playbook => insertCaseOfAlert alert new playbook

/-! ### What the programs issue -/

/-- Every command a program can issue is one of these. -/
abbrev Issues {α : Type} (Q : BackendCmd → Prop) (p : BackendProg α) : Prop :=
  p.Ensures (fun _ _ _ => True) (fun _ => Q) ()

theorem issues_call {α : Type} {Q : BackendCmd → Prop} {c : BackendCmd}
    {k : c.Reply → BackendProg α} (hc : Q c) (hk : ∀ r, Issues Q (k r)) :
    Issues Q (Atomic.Prog.call c k) :=
  fun _ _ => ⟨hc, fun r _ => hk r⟩

theorem issues_andThen {α : Type} {Q : BackendCmd → Prop} {c : DataCmd}
    {k : c.Out → BackendProg (Except String α)} (hc : Q (.data c)) (hk : ∀ r, Issues Q (k r)) :
    Issues Q (andThen c k) :=
  issues_call hc fun reply => by
    cases reply with
    | error e => trivial
    | ok r => exact hk r

theorem Issues.bind {α β : Type} {Q : BackendCmd → Prop} {p : BackendProg α}
    {f : α → BackendProg β} (hp : Issues Q p) (hf : ∀ a, Issues Q (f a)) : Issues Q (p.bind f) :=
  Atomic.Prog.Ensures.bind hp fun _ _ => hf

theorem recordCaseEvent_issues {Q : BackendCmd → Prop} (hnew : Q (.db .newV4))
    (hinsert : ∀ e, Q (.data (.insertCaseEvent e))) (tenantId : String) (caseId : Uuid)
    (eventType message : String) (actorUserId actorEmail : Option String) (metadata : Json) :
    Issues Q (recordCaseEvent tenantId caseId eventType message actorUserId actorEmail metadata) :=
  issues_call hnew fun _ => issues_andThen (hinsert _) fun _ => trivial

theorem stampTime_issues {α : Type} {Q : BackendCmd → Prop} (hnow : Q (.db .now)) {isNow : Bool}
    {time : Option DateTime} {k : Option DateTime → BackendProg α} (hk : ∀ t, Issues Q (k t)) :
    Issues Q (stampTime isNow time k) := by
  unfold stampTime
  split_ifs
  · exact issues_call hnow fun now => hk (some now)
  · exact hk time

theorem recordCaseChanges_issues {Q : BackendCmd → Prop} (hnew : Q (.db .newV4))
    (hinsert : ∀ e, Q (.data (.insertCaseEvent e))) (tenantId : String) (caseId : Uuid)
    (existing record : CaseRecord) (columns : CaseColumns) :
    Issues Q (recordCaseChanges tenantId caseId existing record columns) := by
  unfold recordCaseChanges
  refine Issues.bind ?_ fun _ => Issues.bind ?_ fun _ => trivial
  · split_ifs
    · exact recordCaseEvent_issues hnew hinsert _ _ _ _ _ _ _
    · trivial
  · split_ifs
    · exact recordCaseEvent_issues hnew hinsert _ _ _ _ _ _ _
    · trivial

/-- A call of `update_case` reads and writes one case. -/
theorem updateCase_issues {Q : BackendCmd → Prop} {tenantId : String} {caseId : Uuid}
    (update : CaseUpdate) (hnow : Q (.db .now)) (hnew : Q (.db .newV4))
    (hget : Q (.data (.getCaseById tenantId caseId)))
    (hupdate : ∀ l columns, Q (.data (.updateCase l tenantId caseId columns)))
    (hinsert : ∀ e, Q (.data (.insertCaseEvent e))) :
    Issues Q (updateCase tenantId caseId update) := by
  refine issues_andThen hget fun found => ?_
  cases found with
  | none => trivial
  | some existing =>
      refine stampTime_issues hnow fun _ => stampTime_issues hnow fun _ => ?_
      refine issues_andThen (hupdate _ _) fun record => ?_
      exact (recordCaseChanges_issues hnew hinsert _ _ _ _ _).bind fun _ => trivial

/-- The commands of `create_case_from_alert` beside the two that insert the case and its link. -/
def SideCommand (alert : Alert) : BackendCmd → Prop
  | .db .now | .db .newV4 => True
  | .data (.getCaseByAlertId tenantId alertId) => tenantId = alert.tenantId ∧ alertId = alert.id
  | .data (.countPlaybooks _) | .data (.insertPlaybook _) | .data (.listPlaybooks _) => True
  | .data (.getCasePlaybook _ _) | .data (.insertCaseEvent _) => True
  | _ => False

/-- The commands of `create_case_from_alert`. -/
def OpeningCommand (alert : Alert) (new : NewCase) : BackendCmd → Prop
  | .data (.insertCase record) => ∃ id playbook now slaDueAt escalationAt,
      record = new.record alert id playbook now slaDueAt escalationAt
  | .data (.insertLink _ alertId tenantId) => alertId = alert.id ∧ tenantId = alert.tenantId
  | c => SideCommand alert c

section opening

variable {alert : Alert} {new : NewCase}

theorem SideCommand.opening {c : BackendCmd} (h : SideCommand alert c) : OpeningCommand alert new c := by
  cases c with
  | data c =>
      cases c with
      | insertCase record => exact h.elim
      | insertLink _ _ _ => exact h.elim
      | _ => exact h
  | _ => exact h

theorem ensureDefaultCasePlaybooks_issues (tenantId : String) :
    Issues (SideCommand alert) (ensureDefaultCasePlaybooks tenantId) := by
  refine issues_andThen trivial fun existing => ?_
  split_ifs
  · trivial
  · exact issues_call trivial fun _ => issues_call trivial fun _ =>
      issues_andThen trivial fun _ => trivial

theorem choosePlaybook_issues (tenantId : String) (playbookId : Option Uuid) :
    Issues (SideCommand alert) (choosePlaybook tenantId playbookId) := by
  cases playbookId with
  | some id => exact issues_andThen trivial fun _ => trivial
  | none =>
      refine Issues.bind ?_ fun result => ?_
      · refine (ensureDefaultCasePlaybooks_issues tenantId).bind fun result => ?_
        cases result with
        | error e => trivial
        | ok u => exact issues_andThen trivial fun _ => trivial
      · cases result <;> trivial

theorem recordNewCase_issues (caseId : Uuid) (playbook : Option CasePlaybook) :
    Issues (SideCommand alert) (recordNewCase alert new caseId playbook) := by
  refine (recordCaseEvent_issues trivial (fun _ => trivial) _ _ _ _ _ _ _).bind fun _ => ?_
  refine (recordCaseEvent_issues trivial (fun _ => trivial) _ _ _ _ _ _ _).bind fun _ => ?_
  cases playbook with
  | none => trivial
  | some playbook =>
      exact (recordCaseEvent_issues trivial (fun _ => trivial) _ _ _ _ _ _ _).bind fun _ => trivial

theorem insertCaseOfAlert_issues (playbook : Option CasePlaybook) :
    Issues (OpeningCommand alert new) (insertCaseOfAlert alert new playbook) := by
  refine issues_call trivial fun now => issues_call trivial fun caseId => ?_
  split
  · refine issues_call ⟨_, _, _, _, _, rfl⟩ fun inserted => ?_
    cases inserted with
    | error e => trivial
    | ok record =>
        refine issues_call ⟨rfl, rfl⟩ fun linked => ?_
        cases linked with
        | error e => trivial
        | ok u =>
            refine Issues.bind ?_ fun _ => trivial
            exact (recordNewCase_issues caseId playbook).imp fun _ _ => SideCommand.opening
  · trivial

theorem createCaseFromAlert_issues (playbookId : Option Uuid) :
    Issues (OpeningCommand alert new) (createCaseFromAlert alert new playbookId) := by
  have hlookup : SideCommand alert (.data (.getCaseByAlertId alert.tenantId alert.id)) := ⟨rfl, rfl⟩
  refine issues_call hlookup.opening fun found => ?_
  rcases found with e | _ | existing
  · trivial
  · refine Issues.bind ((ensureDefaultCasePlaybooks_issues _).imp fun _ _ => SideCommand.opening)
      fun ensured => ?_
    cases ensured with
    | error e => trivial
    | ok u =>
        refine Issues.bind ((choosePlaybook_issues _ _).imp fun _ _ => SideCommand.opening)
          fun chosen => ?_
        cases chosen with
        | error e => trivial
        | ok playbook => exact insertCaseOfAlert_issues playbook
  · trivial

end opening

end MiniSiem
