import MiniSiem.Database
import MiniSiem.PackFormat

/-! # The tables the handlers write for a tenant

The detection rules, the cases with their playbooks, alert links and timeline, the cost policies, and
the Redis keys that cache the cost policies (`db/postgres.rs`, `costs.rs`).

* **Rows.**  The primary keys and unique indexes are fields of `TenantData`; a statement that would
  break one of them, a foreign key or the type of a column fails and changes nothing.
* **Commands.**  `Backend` is these tables beside the `Database`.  Its commands are those of the
  database, those of the tables, and the lookup of an alert; each is atomic and executed at a `Tick`.
* **Effects.**  `execBackend_rows`: a command changes no other table than its own. -/

namespace MiniSiem

/-! ### Rows -/

/-- A row of `detection_rules` with its two times. -/
structure StoredRule extends DetectionRule where
  createdAt : DateTime
  updatedAt : DateTime

inductive CaseStatus where
  | new
  | investigating
  | awaitingCustomer
  | mitigated
  | resolved
  | falsePositive
  | escalated
  | closed
deriving DecidableEq

/-- `Display` of a case status. -/
def CaseStatus.toString : CaseStatus → String
  | .new => "NEW"
  | .investigating => "INVESTIGATING"
  | .awaitingCustomer => "AWAITINGCUSTOMER"
  | .mitigated => "MITIGATED"
  | .resolved => "RESOLVED"
  | .falsePositive => "FALSEPOSITIVE"
  | .escalated => "ESCALATED"
  | .closed => "CLOSED"

/-- `FromStr` of a case status. -/
def CaseStatus.fromStr (s : String) : Option CaseStatus :=
  match Text.toUppercase s with
  | "NEW" => some .new
  | "INVESTIGATING" => some .investigating
  | "AWAITINGCUSTOMER" => some .awaitingCustomer
  | "MITIGATED" => some .mitigated
  | "RESOLVED" => some .resolved
  | "FALSEPOSITIVE" => some .falsePositive
  | "ESCALATED" => some .escalated
  | "CLOSED" => some .closed
  | _ => none

structure CaseRecord where
  id : Uuid
  tenantId : String
  primaryAlertId : Uuid
  title : String
  summary : String
  severity : String
  status : String
  ownerUserId : Option String
  ownerEmail : Option String
  playbookId : Option Uuid
  slaDueAt : Option DateTime
  escalationAt : Option DateTime
  escalatedAt : Option DateTime
  resolvedAt : Option DateTime
  outcome : Option String
  postmortemSummary : Option String
  createdAt : DateTime
  updatedAt : DateTime

structure CasePlaybook where
  id : Uuid
  tenantId : String
  name : String
  description : String
  severity : String
  slaMinutes : Int32
  escalateAfterMinutes : Int32
  steps : Json
  isEnabled : Bool
  createdAt : DateTime
  updatedAt : DateTime

structure CaseAlertLink where
  caseId : Uuid
  alertId : Uuid
  tenantId : String
  createdAt : DateTime

/-- What is bound for a timeline event; the database adds its time. -/
structure CaseEvent where
  id : Uuid
  caseId : Uuid
  tenantId : String
  eventType : String
  message : String
  actorUserId : Option String
  actorEmail : Option String
  metadata : Json

structure CaseTimelineEvent extends CaseEvent where
  createdAt : DateTime

structure TenantDataCostPolicy where
  tenantId : String
  dailyIngestBytesBudget : Int64
  hotStorageBytesBudget : Int64
  warmStorageBytesBudget : Int64
  coldStorageBytesBudget : Int64
  samplingEnabled : Bool
  lowValueSamplingPercent : Int32
  highValueSamplingPercent : Int32
  dropLowValueWhenOverBudget : Bool
  schemaDropRules : Json
  sourceBudgets : Json
  integrationBudgets : Json
  teamBudgets : Json
  updatedAt : DateTime

def TenantDataCostPolicy.defaultForTenant (now : DateTime) (tenantId : String) :
    TenantDataCostPolicy where
  tenantId := tenantId
  dailyIngestBytesBudget := 25000000000
  hotStorageBytesBudget := 10000000000
  warmStorageBytesBudget := 10000000000
  coldStorageBytesBudget := 5000000000
  samplingEnabled := true
  lowValueSamplingPercent := 25
  highValueSamplingPercent := 100
  dropLowValueWhenOverBudget := true
  schemaDropRules := .arr
    [.obj [("field", .str "event_type"), ("op", .str "in"),
        ("value", .arr [.str "heartbeat", .str "metrics", .str "debug"])],
      .obj [("field", .str "severity"), ("op", .str "=="), ("value", .str "DEBUG")],
      .obj [("field", .str "message"), ("op", .str "contains"), ("value", .str "health check")]]
  sourceBudgets := .obj []
  integrationBudgets := .obj []
  teamBudgets := .obj []
  updatedAt := now

/-- A text in Redis, and the time it expires at, in nanoseconds, if it has one. -/
structure CachedText where
  text : String
  expiresAt : Option ℤ

/-! ### The tables -/

structure TenantData where
  rules : List StoredRule
  playbooks : List CasePlaybook
  cases : List CaseRecord
  links : List CaseAlertLink
  timeline : List CaseTimelineEvent
  costPolicies : List TenantDataCostPolicy
  costCache : String → Option CachedText
  rules_id : (rules.map (·.id)).Nodup
  rules_name : (rules.map fun r => (r.tenantId, r.name)).Nodup
  playbooks_id : (playbooks.map (·.id)).Nodup
  cases_id : (cases.map (·.id)).Nodup
  cases_alert : (cases.map fun c => (c.tenantId, c.primaryAlertId)).Nodup
  links_key : (links.map fun l => (l.caseId, l.alertId)).Nodup
  links_alert : (links.map fun l => (l.tenantId, l.alertId)).Nodup
  timeline_id : (timeline.map (·.id)).Nodup
  costPolicies_tenant : (costPolicies.map (·.tenantId)).Nodup

inductive Table
  | rules
  | playbooks
  | cases
  | links
  | timeline
  | costPolicies
  | costCache

abbrev Table.Rows : Table → Type
  | rules => List StoredRule
  | playbooks => List CasePlaybook
  | cases => List CaseRecord
  | links => List CaseAlertLink
  | timeline => List CaseTimelineEvent
  | costPolicies => List TenantDataCostPolicy
  | costCache => String → Option CachedText

def Table.rows : (t : Table) → TenantData → t.Rows
  | rules, d => d.rules
  | playbooks, d => d.playbooks
  | cases, d => d.cases
  | links, d => d.links
  | timeline, d => d.timeline
  | costPolicies, d => d.costPolicies
  | costCache, d => d.costCache

def StoredRule.key (r : StoredRule) : String × Uuid := (r.tenantId, r.id)

def CaseRecord.key (c : CaseRecord) : String × Uuid := (c.tenantId, c.id)

def CasePlaybook.key (p : CasePlaybook) : String × Uuid := (p.tenantId, p.id)

/-- The columns an update of a rule writes, besides its time. -/
structure RuleColumns where
  name : String
  description : Option String
  severity : String
  threshold : Option Int32
  windowSeconds : Option Int32
  condition : Option Json
  isEnabled : Bool

def RuleColumns.storable (c : RuleColumns) : Bool :=
  (c.name :: c.severity :: c.description.toList).all nulFree && c.condition.all Json.nulFree

def RuleColumns.write (c : RuleColumns) (now : DateTime) (r : StoredRule) : StoredRule :=
  { r with
    name := c.name
    description := c.description
    severity := c.severity
    threshold := c.threshold
    windowSeconds := c.windowSeconds
    condition := c.condition
    isEnabled := c.isEnabled
    updatedAt := DateTime.stored now }

/-- The columns an update of a case writes, besides its time. -/
structure CaseColumns where
  status : String
  ownerUserId : Option String
  ownerEmail : Option String
  outcome : Option String
  postmortemSummary : Option String
  escalatedAt : Option DateTime
  resolvedAt : Option DateTime

def CaseColumns.storable (c : CaseColumns) : Bool :=
  (c.status :: (c.ownerUserId.toList ++ c.ownerEmail.toList ++ c.outcome.toList ++
    c.postmortemSummary.toList)).all nulFree &&
  (c.escalatedAt.toList ++ c.resolvedAt.toList).all DateTime.storable

def CaseColumns.write (c : CaseColumns) (now : DateTime) (r : CaseRecord) : CaseRecord :=
  { r with
    status := c.status
    ownerUserId := c.ownerUserId
    ownerEmail := c.ownerEmail
    outcome := c.outcome
    postmortemSummary := c.postmortemSummary
    escalatedAt := c.escalatedAt.map DateTime.stored
    resolvedAt := c.resolvedAt.map DateTime.stored
    updatedAt := DateTime.stored now }

def RuleCreate.storable (r : RuleCreate) : Bool :=
  ([r.tenantId, r.name, r.ruleType, r.severity] ++ r.description.toList).all nulFree &&
  r.condition.all Json.nulFree

/-- The row of a new rule. -/
def RuleCreate.storedRow (r : RuleCreate) (now : DateTime) (id : Uuid) : StoredRule :=
  { r.row id with
    createdAt := DateTime.stored now
    updatedAt := DateTime.stored now }

def CasePlaybook.storable (p : CasePlaybook) : Bool :=
  [p.tenantId, p.name, p.description, p.severity].all nulFree && p.steps.nulFree &&
  [p.createdAt, p.updatedAt].all DateTime.storable

def CasePlaybook.stored (p : CasePlaybook) : CasePlaybook :=
  { p with
    createdAt := DateTime.stored p.createdAt
    updatedAt := DateTime.stored p.updatedAt }

def CaseRecord.storable (c : CaseRecord) : Bool :=
  ([c.tenantId, c.title, c.summary, c.severity, c.status] ++ c.ownerUserId.toList ++
    c.ownerEmail.toList).all nulFree &&
  (c.slaDueAt.toList ++ c.escalationAt.toList ++ [c.createdAt, c.updatedAt]).all DateTime.storable

def CaseRecord.stored (c : CaseRecord) : CaseRecord :=
  { c with
    slaDueAt := c.slaDueAt.map DateTime.stored
    escalationAt := c.escalationAt.map DateTime.stored
    createdAt := DateTime.stored c.createdAt
    updatedAt := DateTime.stored c.updatedAt }

def CaseEvent.storable (e : CaseEvent) : Bool :=
  ([e.tenantId, e.eventType, e.message] ++ e.actorUserId.toList ++ e.actorEmail.toList).all nulFree &&
  e.metadata.nulFree

def TenantDataCostPolicy.storable (p : TenantDataCostPolicy) : Bool :=
  nulFree p.tenantId &&
  [p.schemaDropRules, p.sourceBudgets, p.integrationBudgets, p.teamBudgets].all Json.nulFree

def TenantDataCostPolicy.stored (p : TenantDataCostPolicy) (now : DateTime) : TenantDataCostPolicy :=
  { p with updatedAt := DateTime.stored now }

/-! ### Statements -/

def noRows : String := "no rows returned by a query that expected to return at least one row"

def invalidValue : String := "invalid value"

def duplicateKey : String := "duplicate key value violates unique constraint"

def foreignKey : String := "insert violates foreign key constraint"

/-- `ORDER BY escalation_at ASC`: some order of the selected cases, the earliest first. -/
structure OverdueOrder where
  arrange : List CaseRecord → List CaseRecord
  perm : ∀ cases, (arrange cases).Perm cases
  sorted : ∀ cases, (arrange cases).Pairwise fun c d =>
    (c.escalationAt.map (·.1)).getD 0 ≤ (d.escalationAt.map (·.1)).getD 0

namespace TenantData

variable (d : TenantData) (now : DateTime)

/-- `get_all_rules`: of every tenant for the empty name. -/
def getAllRules (tenantId : String) : List StoredRule :=
  if tenantId = "" then d.rules else d.rules.filter fun r => r.tenantId = tenantId

/-- `get_rule_by_id`. -/
def getRuleById (tenantId : String) (id : Uuid) : Option StoredRule :=
  KeyedList.lookup StoredRule.key (tenantId, id) d.rules

/-- The insert of `create_rule`, with the identifier the database generates. -/
def createRule (id : Uuid) (rule : RuleCreate) : Except String (StoredRule × TenantData) :=
  let rules := d.rules ++ [rule.storedRow now id]
  if !rule.storable then .error invalidValue
  else if h : (rules.map (·.id)).Nodup ∧ (rules.map fun r => (r.tenantId, r.name)).Nodup then
    .ok (rule.storedRow now id, { d with rules, rules_id := h.1, rules_name := h.2 })
  else .error duplicateKey

/-- The rules after the update of one of them. -/
def rulesUpdated (tenantId : String) (id : Uuid) (columns : RuleColumns) : List StoredRule :=
  KeyedList.updateKey StoredRule.key (tenantId, id) (columns.write now) d.rules

theorem rulesUpdated_id (tenantId : String) (id : Uuid) (columns : RuleColumns) :
    (d.rulesUpdated now tenantId id columns).map (·.id) = d.rules.map (·.id) :=
  KeyedList.map_updateKey StoredRule.key (tenantId, id) (columns.write now) d.rules fun _ => rfl

theorem lookup_rulesUpdated (tenantId : String) (id : Uuid) (columns : RuleColumns)
    (key : String × Uuid) :
    KeyedList.lookup StoredRule.key key (d.rulesUpdated now tenantId id columns) =
      if key = (tenantId, id) then (d.getRuleById tenantId id).map (columns.write now)
      else d.getRuleById key.1 key.2 :=
  KeyedList.lookup_updateKey_of_keeps StoredRule.key (f := columns.write now) (fun _ => rfl) (tenantId, id)
    key d.rules

/-- The update of `update_rule`. -/
def updateRule (tenantId : String) (id : Uuid) (columns : RuleColumns) :
    Except String (StoredRule × TenantData) :=
  if !columns.storable then .error invalidValue
  else match d.getRuleById tenantId id with
    | none => .error noRows
    | some row =>
        if h : ((d.rulesUpdated now tenantId id columns).map fun r => (r.tenantId, r.name)).Nodup then
          .ok (columns.write now row,
            { d with
              rules := d.rulesUpdated now tenantId id columns
              rules_id := by rw [rulesUpdated_id]; exact d.rules_id
              rules_name := h })
        else .error duplicateKey

/-- `delete_rule`. -/
def deleteRule (tenantId : String) (id : Uuid) : TenantData :=
  { d with
    rules := d.rules.filter fun r => !(r.key = (tenantId, id))
    rules_id := d.rules_id.sublist (List.filter_sublist.map _)
    rules_name := d.rules_name.sublist (List.filter_sublist.map _) }

/-- `SELECT COUNT(*) FROM case_playbooks`. -/
def countPlaybooks (tenantId : String) : ℕ := (d.playbooks.filter fun p => p.tenantId = tenantId).length

def insertPlaybook (p : CasePlaybook) : Except String (Unit × TenantData) :=
  let playbooks := d.playbooks ++ [p.stored]
  if !p.storable then .error invalidValue
  else if h : (playbooks.map (·.id)).Nodup then .ok ((), { d with playbooks, playbooks_id := h })
  else .error duplicateKey

/-- The playbooks of a tenant: the enabled ones first, then by time. -/
def listPlaybooks (tenantId : String) : List CasePlaybook :=
  (d.playbooks.filter fun p => p.tenantId = tenantId).insertionSort fun p q =>
    p.isEnabled ∧ ¬ q.isEnabled ∨ p.isEnabled = q.isEnabled ∧ p.createdAt.1 ≤ q.createdAt.1

/-- `get_case_playbook`. -/
def getCasePlaybook (tenantId : String) (id : Uuid) : Option CasePlaybook :=
  KeyedList.lookup CasePlaybook.key (tenantId, id) d.playbooks

/-- `get_case_by_id`. -/
def getCaseById (tenantId : String) (id : Uuid) : Option CaseRecord :=
  KeyedList.lookup CaseRecord.key (tenantId, id) d.cases

/-- `get_case_by_alert_id`: the oldest case of the alert or linked to it. -/
def getCaseByAlertId (tenantId : String) (alertId : Uuid) : Option CaseRecord :=
  ((d.cases.filter fun c => c.tenantId = tenantId && (c.primaryAlertId = alertId ||
      d.links.any fun l => l.caseId = c.id && l.tenantId = c.tenantId && l.alertId = alertId)).insertionSort
    fun c e => c.createdAt.1 ≤ e.createdAt.1).head?

def insertCase (c : CaseRecord) : Except String (CaseRecord × TenantData) :=
  let cases := d.cases ++ [c.stored]
  if !c.storable then .error invalidValue
  else if !c.playbookId.all (fun id => d.playbooks.any fun p => p.id = id) then .error foreignKey
  else if h : (cases.map (·.id)).Nodup ∧
      (cases.map fun c => (c.tenantId, c.primaryAlertId)).Nodup then
    .ok (c.stored, { d with cases, cases_id := h.1, cases_alert := h.2 })
  else .error duplicateKey

/-- The cases after the update of one of them. -/
def casesUpdated (tenantId : String) (id : Uuid) (columns : CaseColumns) : List CaseRecord :=
  KeyedList.updateKey CaseRecord.key (tenantId, id) (columns.write now) d.cases

theorem casesUpdated_id (tenantId : String) (id : Uuid) (columns : CaseColumns) :
    (d.casesUpdated now tenantId id columns).map (·.id) = d.cases.map (·.id) :=
  KeyedList.map_updateKey CaseRecord.key (tenantId, id) (columns.write now) d.cases fun _ => rfl

theorem casesUpdated_alert (tenantId : String) (id : Uuid) (columns : CaseColumns) :
    (d.casesUpdated now tenantId id columns).map (fun c => (c.tenantId, c.primaryAlertId)) =
      d.cases.map fun c => (c.tenantId, c.primaryAlertId) :=
  KeyedList.map_updateKey CaseRecord.key (tenantId, id) (columns.write now) d.cases fun _ => rfl

theorem lookup_casesUpdated (tenantId : String) (id : Uuid) (columns : CaseColumns)
    (key : String × Uuid) :
    KeyedList.lookup CaseRecord.key key (d.casesUpdated now tenantId id columns) =
      if key = (tenantId, id) then (d.getCaseById tenantId id).map (columns.write now)
      else d.getCaseById key.1 key.2 :=
  KeyedList.lookup_updateKey_of_keeps CaseRecord.key (f := columns.write now) (fun _ => rfl) (tenantId, id)
    key d.cases

/-- The update of `update_case`. -/
def updateCase (tenantId : String) (id : Uuid) (columns : CaseColumns) :
    Except String (CaseRecord × TenantData) :=
  if !columns.storable then .error invalidValue
  else match d.getCaseById tenantId id with
    | none => .error noRows
    | some row =>
        .ok (columns.write now row,
          { d with
            cases := d.casesUpdated now tenantId id columns
            cases_id := by rw [casesUpdated_id]; exact d.cases_id
            cases_alert := by rw [casesUpdated_alert]; exact d.cases_alert })

/-- `ON CONFLICT (case_id, alert_id) DO NOTHING`. -/
def insertLink (caseId alertId : Uuid) (tenantId : String) : Except String (Unit × TenantData) :=
  let links := d.links ++ [⟨caseId, alertId, tenantId, DateTime.stored now⟩]
  if !nulFree tenantId then .error invalidValue
  else if d.links.any (fun l => l.caseId = caseId && l.alertId = alertId) then .ok ((), d)
  else if !d.cases.any (fun c => c.id = caseId) then .error foreignKey
  else if h : (links.map fun l => (l.caseId, l.alertId)).Nodup ∧
      (links.map fun l => (l.tenantId, l.alertId)).Nodup then
    .ok ((), { d with links, links_key := h.1, links_alert := h.2 })
  else .error duplicateKey

/-- The insert of `record_case_event`. -/
def insertCaseEvent (e : CaseEvent) : Except String (Unit × TenantData) :=
  let timeline := d.timeline ++ [⟨e, DateTime.stored now⟩]
  if !e.storable then .error invalidValue
  else if !d.cases.any (fun c => c.id = e.caseId) then .error foreignKey
  else if h : (timeline.map (·.id)).Nodup then .ok ((), { d with timeline, timeline_id := h })
  else .error duplicateKey

/-- The cases `escalate_overdue_cases` selects. -/
def overdueCases : List CaseRecord :=
  d.cases.filter fun c =>
    ["NEW", "INVESTIGATING", "AWAITINGCUSTOMER"].contains c.status &&
    c.escalationAt.any (fun t => t.1 ≤ (DateTime.stored now).1) && c.status != "ESCALATED"

/-- `get_tenant_data_cost_policy`. -/
def getTenantDataCostPolicy (tenantId : String) : TenantDataCostPolicy :=
  (KeyedList.lookup TenantDataCostPolicy.tenantId tenantId d.costPolicies).getD
    (.defaultForTenant now tenantId)

/-- `upsert_tenant_data_cost_policy`. -/
def upsertTenantDataCostPolicy (p : TenantDataCostPolicy) :
    Except String (TenantDataCostPolicy × TenantData) :=
  if !p.storable then .error invalidValue
  else .ok (p.stored now,
    { d with
      costPolicies := KeyedList.upsert TenantDataCostPolicy.tenantId (p.stored now) d.costPolicies
      costPolicies_tenant :=
        KeyedList.nodup_upsert TenantDataCostPolicy.tenantId d.costPolicies_tenant _ })

/-- `GET`. -/
def getString (key : String) : Option String :=
  (d.costCache key).bind fun c => if c.expiresAt.all (now.1 < ·) then some c.text else none

/-- `SET`. -/
def setString (key text : String) : TenantData :=
  { d with costCache := Function.update d.costCache key (some ⟨text, none⟩) }

/-- `EXPIRE`. -/
def expire (key : String) (seconds : ℕ) : TenantData :=
  { d with
    costCache := Function.update d.costCache key
      ((d.getString now key).map fun text => ⟨text, some (now.1 + seconds * 1000000000)⟩) }

/-! ### Successful statements -/

variable {d now}

theorem createRule_ok {id : Uuid} {rule : RuleCreate} {reply : StoredRule} {data : TenantData}
    (h : d.createRule now id rule = .ok (reply, data)) :
    ∃ hid hname, data =
      { d with
        rules := d.rules ++ [rule.storedRow now id]
        rules_id := hid
        rules_name := hname } := by
  unfold createRule at h
  dsimp only at h
  split_ifs at h with _ hkeys
  exact ⟨hkeys.1, hkeys.2, (Prod.mk.inj (Except.ok.inj h)).2.symm⟩

theorem updateRule_ok {tenantId : String} {id : Uuid} {columns : RuleColumns} {reply : StoredRule}
    {data : TenantData} (h : d.updateRule now tenantId id columns = .ok (reply, data)) :
    ∃ row hid hname, d.getRuleById tenantId id = some row ∧ reply = columns.write now row ∧
      data =
        { d with
          rules := d.rulesUpdated now tenantId id columns
          rules_id := hid
          rules_name := hname } := by
  unfold updateRule at h
  cases hrow : d.getRuleById tenantId id with
  | none =>
      rw [hrow] at h
      split_ifs at h
  | some row =>
      rw [hrow] at h
      dsimp only at h
      split_ifs at h with _ hname
      obtain ⟨rfl, rfl⟩ := Prod.mk.inj (Except.ok.inj h)
      exact ⟨row, _, hname, rfl, rfl, rfl⟩

theorem insertPlaybook_ok {p : CasePlaybook} {data : TenantData}
    (h : d.insertPlaybook p = .ok ((), data)) :
    ∃ hid, data = { d with playbooks := d.playbooks ++ [p.stored], playbooks_id := hid } := by
  unfold insertPlaybook at h
  dsimp only at h
  split_ifs at h with _ hid
  exact ⟨hid, (Prod.mk.inj (Except.ok.inj h)).2.symm⟩

theorem insertCase_ok {c reply : CaseRecord} {data : TenantData}
    (h : d.insertCase c = .ok (reply, data)) :
    ∃ hid halert, reply = c.stored ∧
      data = { d with cases := d.cases ++ [c.stored], cases_id := hid, cases_alert := halert } := by
  unfold insertCase at h
  dsimp only at h
  split_ifs at h with _ _ hkeys
  obtain ⟨rfl, rfl⟩ := Prod.mk.inj (Except.ok.inj h)
  exact ⟨hkeys.1, hkeys.2, rfl, rfl⟩

theorem updateCase_ok {tenantId : String} {id : Uuid} {columns : CaseColumns} {reply : CaseRecord}
    {data : TenantData} (h : d.updateCase now tenantId id columns = .ok (reply, data)) :
    ∃ row hid halert, d.getCaseById tenantId id = some row ∧ reply = columns.write now row ∧
      data =
        { d with
          cases := d.casesUpdated now tenantId id columns
          cases_id := hid
          cases_alert := halert } := by
  unfold updateCase at h
  split_ifs at h
  cases hrow : d.getCaseById tenantId id with
  | none =>
      rw [hrow] at h
      cases h
  | some row =>
      rw [hrow] at h
      obtain ⟨rfl, rfl⟩ := Prod.mk.inj (Except.ok.inj h)
      exact ⟨row, _, _, rfl, rfl, rfl⟩

theorem insertLink_ok {caseId alertId : Uuid} {tenantId : String} {data : TenantData}
    (h : d.insertLink now caseId alertId tenantId = .ok ((), data)) :
    data = d ∨ ∃ hkey halert, data =
      { d with
        links := d.links ++ [⟨caseId, alertId, tenantId, DateTime.stored now⟩]
        links_key := hkey
        links_alert := halert } := by
  unfold insertLink at h
  dsimp only at h
  split_ifs at h with _ _ _ hkeys
  · exact Or.inl (Prod.mk.inj (Except.ok.inj h)).2.symm
  · exact Or.inr ⟨hkeys.1, hkeys.2, (Prod.mk.inj (Except.ok.inj h)).2.symm⟩

theorem insertCaseEvent_ok {e : CaseEvent} {data : TenantData}
    (h : d.insertCaseEvent now e = .ok ((), data)) :
    ∃ hid, data =
      { d with timeline := d.timeline ++ [⟨e, DateTime.stored now⟩], timeline_id := hid } := by
  unfold insertCaseEvent at h
  dsimp only at h
  split_ifs at h with _ _ hid
  exact ⟨hid, (Prod.mk.inj (Except.ok.inj h)).2.symm⟩

theorem upsertTenantDataCostPolicy_ok {p reply : TenantDataCostPolicy} {data : TenantData}
    (h : d.upsertTenantDataCostPolicy now p = .ok (reply, data)) :
    ∃ hkey, reply = p.stored now ∧ data =
      { d with
        costPolicies := KeyedList.upsert TenantDataCostPolicy.tenantId (p.stored now) d.costPolicies
        costPolicies_tenant := hkey } := by
  unfold upsertTenantDataCostPolicy at h
  split_ifs at h
  obtain ⟨rfl, rfl⟩ := Prod.mk.inj (Except.ok.inj h)
  exact ⟨_, rfl, rfl⟩

end TenantData

/-! ### Commands -/

/-- An update also carries the row it has changed. -/
inductive DataCmd
  | getAllRules (tenantId : String)
  | getRuleById (tenantId : String) (id : Uuid)
  | createRule (rule : RuleCreate)
  | updateRule (loaded : StoredRule) (tenantId : String) (id : Uuid) (columns : RuleColumns)
  | deleteRule (tenantId : String) (id : Uuid)
  | countPlaybooks (tenantId : String)
  | insertPlaybook (playbook : CasePlaybook)
  | listPlaybooks (tenantId : String)
  | getCasePlaybook (tenantId : String) (id : Uuid)
  | getCaseById (tenantId : String) (id : Uuid)
  | getCaseByAlertId (tenantId : String) (alertId : Uuid)
  | insertCase (record : CaseRecord)
  | updateCase (loaded : CaseRecord) (tenantId : String) (id : Uuid) (columns : CaseColumns)
  | insertLink (caseId alertId : Uuid) (tenantId : String)
  | insertCaseEvent (event : CaseEvent)
  | overdueCases (order : OverdueOrder)
  | getTenantDataCostPolicy (tenantId : String)
  | upsertTenantDataCostPolicy (policy : TenantDataCostPolicy)
  | getString (key : String)
  | setString (key text : String)
  | expire (key : String) (seconds : ℕ)

namespace DataCmd

/-- What a successful command returns. -/
abbrev Out : DataCmd → Type
  | getAllRules _ => List StoredRule
  | getRuleById _ _ => Option StoredRule
  | createRule _ => StoredRule
  | updateRule _ _ _ _ => StoredRule
  | deleteRule _ _ => Unit
  | countPlaybooks _ => ℕ
  | insertPlaybook _ => Unit
  | listPlaybooks _ => List CasePlaybook
  | getCasePlaybook _ _ => Option CasePlaybook
  | getCaseById _ _ => Option CaseRecord
  | getCaseByAlertId _ _ => Option CaseRecord
  | insertCase _ => CaseRecord
  | updateCase _ _ _ _ => CaseRecord
  | insertLink _ _ _ => Unit
  | insertCaseEvent _ => Unit
  | overdueCases _ => List CaseRecord
  | getTenantDataCostPolicy _ => TenantDataCostPolicy
  | upsertTenantDataCostPolicy _ => TenantDataCostPolicy
  | getString _ => Option String
  | setString _ _ => Unit
  | expire _ _ => Unit

/-- The result of a command at a time; `uuid` is the identifier the database generates. -/
def run (now : DateTime) (uuid : Uuid) (d : TenantData) :
    (c : DataCmd) → Except String (c.Out × TenantData)
  | getAllRules tenantId => .ok (d.getAllRules tenantId, d)
  | getRuleById tenantId id => .ok (d.getRuleById tenantId id, d)
  | createRule rule => d.createRule now uuid rule
  | updateRule _ tenantId id columns => d.updateRule now tenantId id columns
  | deleteRule tenantId id => .ok ((), d.deleteRule tenantId id)
  | countPlaybooks tenantId => .ok (d.countPlaybooks tenantId, d)
  | insertPlaybook playbook => d.insertPlaybook playbook
  | listPlaybooks tenantId => .ok (d.listPlaybooks tenantId, d)
  | getCasePlaybook tenantId id => .ok (d.getCasePlaybook tenantId id, d)
  | getCaseById tenantId id => .ok (d.getCaseById tenantId id, d)
  | getCaseByAlertId tenantId alertId => .ok (d.getCaseByAlertId tenantId alertId, d)
  | insertCase record => d.insertCase record
  | updateCase _ tenantId id columns => d.updateCase now tenantId id columns
  | insertLink caseId alertId tenantId => d.insertLink now caseId alertId tenantId
  | insertCaseEvent event => d.insertCaseEvent now event
  | overdueCases order => .ok (order.arrange (d.overdueCases now), d)
  | getTenantDataCostPolicy tenantId => .ok (d.getTenantDataCostPolicy now tenantId, d)
  | upsertTenantDataCostPolicy policy => d.upsertTenantDataCostPolicy now policy
  | getString key => .ok (d.getString now key, d)
  | setString key text => .ok ((), d.setString key text)
  | expire key seconds => .ok ((), d.expire now key seconds)

/-- The table a command may change. -/
def table : DataCmd → Option Table
  | createRule _ | updateRule _ _ _ _ | deleteRule _ _ => some .rules
  | insertPlaybook _ => some .playbooks
  | insertCase _ | updateCase _ _ _ _ => some .cases
  | insertLink _ _ _ => some .links
  | insertCaseEvent _ => some .timeline
  | upsertTenantDataCostPolicy _ => some .costPolicies
  | setString _ _ | expire _ _ => some .costCache
  | _ => none

end DataCmd

/-- The database and the tables of the tenants. -/
structure Backend where
  db : Database
  data : TenantData

inductive BackendCmd
  | db (c : DbCmd)
  | data (c : DataCmd)
  | getAlert (tenantId : String) (id : Uuid)

abbrev BackendCmd.Reply : BackendCmd → Type
  | db c => c.Reply
  | data c => Except String c.Out
  | getAlert _ _ => Except String (Option Alert)

/-- `get_alert`. -/
def Database.getAlert (db : Database) (tenantId : String) (id : Uuid) : Option Alert :=
  (KeyedList.lookup (fun r : AlertRow => (r.tenantId, r.id)) (tenantId, id) db.alerts.rows).map
    (·.intoAlert)

/-- A command, executed at a tick.  A failed one changes nothing. -/
def execBackend (tick : Tick) : (c : BackendCmd) → Backend → c.Reply × Backend
  | .db c, b => ((execDb tick c b.db).1, { b with db := (execDb tick c b.db).2 })
  | .data c, b =>
      match tick.fault, c.run tick.clock tick.uuid b.data with
      | some e, _ => (.error e, { b with db := b.db.atTime tick.clock })
      | none, .error e => (.error e, { b with db := b.db.atTime tick.clock })
      | none, .ok (reply, data) => (.ok reply, ⟨b.db.atTime tick.clock, data⟩)
  | .getAlert tenantId id, b =>
      match tick.fault with
      | some e => (.error e, { b with db := b.db.atTime tick.clock })
      | none => (.ok (b.db.getAlert tenantId id), { b with db := b.db.atTime tick.clock })

abbrev BackendProg (α : Type) := Atomic.Prog BackendCmd BackendCmd.Reply α

abbrev BackendPool (ι α : Type) := Atomic.Pool ι BackendCmd BackendCmd.Reply α Backend

/-! ### What the commands change -/

section effects

variable {tick : Tick} {b : Backend}

theorem execBackend_failed {e : String} (h : tick.fault = some e) (dc : DataCmd) :
    execBackend tick (.data dc) b = (.error e, { b with db := b.db.atTime tick.clock }) := by
  unfold execBackend
  rw [h]

theorem execBackend_ok {dc : DataCmd} {reply : dc.Out} {data : TenantData} (h : tick.fault = none)
    (hrun : dc.run tick.clock tick.uuid b.data = .ok (reply, data)) :
    execBackend tick (.data dc) b = (.ok reply, ⟨b.db.atTime tick.clock, data⟩) := by
  unfold execBackend
  dsimp only
  rw [h, hrun]

/-- A command of the tables fails and changes nothing, or leaves the tables of its result. -/
theorem execBackend_cases (tick : Tick) (b : Backend) (dc : DataCmd) :
    (∃ e, execBackend tick (.data dc) b = (.error e, { b with db := b.db.atTime tick.clock })) ∨
      ∃ reply data, tick.fault = none ∧ dc.run tick.clock tick.uuid b.data = .ok (reply, data) ∧
        execBackend tick (.data dc) b = (.ok reply, ⟨b.db.atTime tick.clock, data⟩) := by
  cases hfault : tick.fault with
  | some e => exact Or.inl ⟨e, execBackend_failed hfault dc⟩
  | none =>
      cases hrun : dc.run tick.clock tick.uuid b.data with
      | ok r => exact Or.inr ⟨r.1, r.2, rfl, rfl, execBackend_ok hfault hrun⟩
      | error e =>
          refine Or.inl ⟨e, ?_⟩
          unfold execBackend
          dsimp only
          rw [hfault, hrun]

/-- Only a command of the tables that succeeds changes them. -/
theorem execBackend_data (tick : Tick) (b : Backend) (c : BackendCmd) :
    (execBackend tick c b).2.data = b.data ∨
      ∃ dc reply data, c = .data dc ∧ tick.fault = none ∧
        dc.run tick.clock tick.uuid b.data = .ok (reply, data) ∧
        (execBackend tick c b).2.data = data := by
  cases c with
  | db c => exact Or.inl rfl
  | getAlert tenantId id =>
      left
      unfold execBackend
      cases tick.fault <;> rfl
  | data dc =>
      rcases execBackend_cases tick b dc with ⟨e, hexec⟩ | ⟨reply, data, hfault, hrun, hexec⟩
      · rw [hexec]
        exact Or.inl rfl
      · rw [hexec]
        exact Or.inr ⟨dc, reply, data, rfl, hfault, hrun, rfl⟩

/-- The tables a successful command leaves. -/
theorem data_of_ok {β : Type} {reply reply' : β} {d data : TenantData}
    (h : Except.ok (ε := String) (reply, d) = .ok (reply', data)) : data = d :=
  (Prod.mk.inj (Except.ok.inj h)).2.symm

/-- A command changes no other table than its own. -/
theorem DataCmd.run_frame {now : DateTime} {uuid : Uuid} {d data : TenantData} {c : DataCmd}
    {reply : c.Out} (h : c.run now uuid d = .ok (reply, data)) {t : Table} (ht : c.table ≠ some t) :
    t.rows data = t.rows d := by
  cases c with
  | createRule rule =>
      obtain ⟨_, _, rfl⟩ := TenantData.createRule_ok h
      cases t <;> first | rfl | exact absurd rfl ht
  | updateRule l tenantId id columns =>
      obtain ⟨_, _, _, -, -, rfl⟩ := TenantData.updateRule_ok h
      cases t <;> first | rfl | exact absurd rfl ht
  | insertPlaybook p =>
      obtain ⟨_, rfl⟩ := TenantData.insertPlaybook_ok h
      cases t <;> first | rfl | exact absurd rfl ht
  | insertCase r =>
      obtain ⟨_, _, -, rfl⟩ := TenantData.insertCase_ok h
      cases t <;> first | rfl | exact absurd rfl ht
  | updateCase l tenantId id columns =>
      obtain ⟨_, _, _, -, -, rfl⟩ := TenantData.updateCase_ok h
      cases t <;> first | rfl | exact absurd rfl ht
  | insertLink caseId alertId tenantId =>
      obtain rfl | ⟨_, _, rfl⟩ := TenantData.insertLink_ok h
      · rfl
      · cases t <;> first | rfl | exact absurd rfl ht
  | insertCaseEvent e =>
      obtain ⟨_, rfl⟩ := TenantData.insertCaseEvent_ok h
      cases t <;> first | rfl | exact absurd rfl ht
  | upsertTenantDataCostPolicy p =>
      obtain ⟨_, -, rfl⟩ := TenantData.upsertTenantDataCostPolicy_ok h
      cases t <;> first | rfl | exact absurd rfl ht
  | deleteRule tenantId id =>
      rw [data_of_ok h]
      cases t <;> first | rfl | exact absurd rfl ht
  | setString key text =>
      rw [data_of_ok h]
      cases t <;> first | rfl | exact absurd rfl ht
  | expire key seconds =>
      rw [data_of_ok h]
      cases t <;> first | rfl | exact absurd rfl ht
  | _ => rw [data_of_ok h]

/-- The table a command of the backend may change. -/
def BackendCmd.table : BackendCmd → Option Table
  | data c => c.table
  | _ => none

/-- The other tables stay. -/
theorem execBackend_rows {c : BackendCmd} {t : Table} (h : c.table ≠ some t) :
    t.rows (execBackend tick c b).2.data = t.rows b.data := by
  rcases execBackend_data tick b c with hsame | ⟨dc, reply, data, rfl, -, hrun, hdata⟩
  · rw [hsame]
  · rw [hdata]
    exact DataCmd.run_frame hrun h

/-- The row of a case after a command that inserts none: as it was, or updated. -/
theorem getCaseById_exec (tick : Tick) (b : Backend) {c : BackendCmd}
    (hinsert : ∀ r, c ≠ .data (.insertCase r)) (tenantId : String) (id : Uuid) :
    (execBackend tick c b).2.data.getCaseById tenantId id = b.data.getCaseById tenantId id ∨
      ∃ loaded columns, c = .data (.updateCase loaded tenantId id columns) ∧ tick.fault = none ∧
        (execBackend tick c b).2.data.getCaseById tenantId id =
          (b.data.getCaseById tenantId id).map (columns.write tick.clock) := by
  rcases execBackend_data tick b c with hsame | ⟨dc, reply, data, rfl, hfault, hrun, hdata⟩
  · rw [hsame]
    exact Or.inl rfl
  · rw [hdata]
    by_cases htable : dc.table = some .cases
    · cases dc with
      | insertCase r => exact absurd rfl (hinsert r)
      | updateCase loaded tenantId' id' columns =>
          obtain ⟨_, _, _, -, -, rfl⟩ := TenantData.updateCase_ok hrun
          have hlookup := b.data.lookup_casesUpdated tick.clock tenantId' id' columns (tenantId, id)
          by_cases hkey : (tenantId, id) = (tenantId', id')
          · obtain ⟨rfl, rfl⟩ := Prod.mk.inj hkey
            rw [if_pos rfl] at hlookup
            exact Or.inr ⟨loaded, columns, rfl, hfault, hlookup⟩
          · rw [if_neg hkey] at hlookup
            exact Or.inl hlookup
      | _ => cases htable
    · have hcases : data.cases = b.data.cases := DataCmd.run_frame hrun (t := .cases) htable
      unfold TenantData.getCaseById
      rw [hcases]
      exact Or.inl rfl

end effects

end MiniSiem
