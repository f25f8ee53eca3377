import MiniSiem.AlertBatcher
import MiniSiem.LegalHold
import MiniSiem.PackFormat
import MiniSiem.StorePrograms

/-! # The mutating handlers

The handlers of `api/handlers` that change rules, detection packs, cases, the cost policy or the
compliance policy of a tenant, as programs over the commands of the backend.

* **Requests.**  `Mutation` has one constructor for each handler with its path, query and body.  The
  claims are those the middleware has attached, if any; a request that `actix` does not decode
  reaches no handler.
* **Responses.**  A body is the value that the handler gives to `json`.
* **Audit.**  The handlers of rules and compliance return the error of a failed audit write, the other
  ones ignore it (`audited`, `unaudited`).
* **Cost policy.**  `load_tenant_cost_policy` and `save_tenant_cost_policy` keep the policy of a tenant
  as JSON text in Redis for 900 seconds; the serialisation is a parameter. -/

namespace MiniSiem

/-! ### Responses -/

/-- What `pack_summary` says of a pack: each template with the rule that has its name. -/
structure PackSummary where
  slug : String
  vertical : String
  name : String
  rules : List (PackRuleTemplate × Option Uuid)
  installed : Bool
  installedRuleCount : ℕ
  totalRuleCount : ℕ

structure CaseDetail where
  caseRecord : CaseRecord
  alerts : List Uuid
  timeline : List CaseTimelineEvent
  playbook : Option CasePlaybook

structure TenantCostDimensionUsage where
  dimension : String
  key : String
  bytes : UInt64
  logs : UInt64
  sampled : UInt64
  dropped : UInt64

structure TenantCostDashboard where
  tenantId : String
  policy : TenantDataCostPolicy
  usageBytesToday : UInt64
  usageLogsToday : UInt64
  sampledLogsToday : UInt64
  droppedLogsToday : UInt64
  tenantBudgetPressure : ℚ
  hotStoragePressure : ℚ
  warmStoragePressure : ℚ
  coldStoragePressure : ℚ
  topSources : List TenantCostDimensionUsage
  topIntegrations : List TenantCostDimensionUsage
  topTeams : List TenantCostDimensionUsage

inductive Body
  | empty
  | json (value : Json)
  | rule (rule : StoredRule)
  | rules (rules : List StoredRule)
  | pack (summary : PackSummary)
  | packs (summaries : List PackSummary)
  | case (record : CaseRecord)
  | cases (records : List CaseRecord)
  | caseDetail (detail : CaseDetail)
  | playbooks (playbooks : List CasePlaybook)
  | costPolicy (policy : TenantDataCostPolicy)
  | dashboard (dashboard : TenantCostDashboard)

structure ApiResponse where
  status : ℕ
  body : Body

/-- `panicked`: the task of the request panics and no response is sent. -/
inductive ApiResult
  | response (r : ApiResponse)
  | panicked

abbrev Handler := BackendProg ApiResult

def reply (status : ℕ) (body : Body) : Handler := .ret (.response ⟨status, body⟩)

def replyError (status : ℕ) (message : String) : Handler := reply status (.json (errorBody message))

/-- A program of the database as one of the backend. -/
def liftDb {α : Type} : DbProg α → BackendProg α
  | .ret a => .ret a
  | .call c k => .call (.db c) fun r => liftDb (k r)

/-- A task of the compliance handlers as a handler. -/
def liftTask (task : Task) : Handler :=
  (liftDb task).bind fun
    | .response r => .ret (.response ⟨r.status, (r.body.map Body.json).getD .empty⟩)
    | .finished => reply 200 .empty
    | .panicked => .ret .panicked

/-- The handler goes on within the quota of the tenant. -/
def withinQuota (claims : Claims) (resource : String) (k : Handler) : Handler :=
  (liftDb (enforceTenantFixedWindow claims.tenantId resource (.ret .finished))).bind fun
    | .finished => k
    | .response r => .ret (.response ⟨r.status, (r.body.map Body.json).getD .empty⟩)
    | .panicked => .ret .panicked

/-- What every handler begins with: the claims of the request, if the middleware has attached any. -/
def withClaims (claims : Option Claims) (k : Claims → Handler) : Handler :=
  match claims with
  | some claims => k claims
  | none => reply 401 .empty

/-- The body of `require_pack_roles`, `require_case_roles` and `require_cost_roles`. -/
def Claims.analystOrAdmin (claims : Claims) : Bool :=
  claims.roles.contains "analyst" || claims.roles.contains "admin"

/-- What the handlers of packs, cases and the cost policy begin with. -/
def asAnalyst (claims : Option Claims) (k : Claims → Handler) : Handler :=
  withClaims claims fun claims =>
    if claims.analystOrAdmin then withinQuota claims "rule_mutations" (k claims)
    else replyError 403 "insufficient role"

/-- What the handlers of rules begin with. -/
def asMember (claims : Option Claims) (k : Claims → Handler) : Handler :=
  withClaims claims fun claims => withinQuota claims "rule_mutations" (k claims)

/-- The audit write must succeed. -/
def audited (record : DbProg (Except String Unit)) (k : Handler) : Handler :=
  (liftDb record).bind fun
    | .error e => replyError 500 e
    | .ok () => k

/-- `let _ =`: the audit write is tried. -/
def unaudited (record : DbProg (Except String Unit)) (k : Handler) : Handler :=
  (liftDb record).bind fun _ => k

def databaseError (e : String) : Handler := replyError 500 ("Database error: " ++ e)

/-! ### Packs -/

structure CuratedPack extends PackTemplate where
  vertical : String
  name : String

/-- The packs with their titles. -/
def curatedPackList : List CuratedPack :=
  List.zipWith (fun pack title => ⟨pack, title, title ++ " Pack"⟩) curatedPacks
    ["Cloud IAM Abuse", "Endpoint Ransomware Precursors", "Insider Risk"]

/-- `pack_summary`. -/
def packSummary (pack : CuratedPack) (installedRules : List StoredRule) : PackSummary :=
  let rules := pack.rules.map fun template =>
    (template, (installedRules.find? fun rule => rule.name == template.name).map (·.id))
  let count := rules.countP fun r => r.2.isSome
  { slug := pack.slug
    vertical := pack.vertical
    name := pack.name
    rules := rules
    installed := count == pack.rules.length
    installedRuleCount := count
    totalRuleCount := pack.rules.length }

/-- The loop of `ensure_pack_rules`: a template is created unless a rule had its name before. -/
def createPackRules (tenantId : String) (existing : List StoredRule) :
    List PackRuleTemplate → BackendProg (Except String Unit)
  | [] => .ret (.ok ())
  | template :: templates =>
      if existing.any fun rule => rule.name == template.name then
        createPackRules tenantId existing templates
      else .call (.data (.createRule (template.ruleCreate tenantId))) fun
        | .error e => .ret (.error ("failed to install pack rule '" ++ template.name ++ "': " ++ e))
        | .ok _ => createPackRules tenantId existing templates

/-- `ensure_pack_rules`; an error is the message of its response. -/
def installPackRules (tenantId : String) (pack : CuratedPack) :
    BackendProg (Except String (List StoredRule)) :=
  .call (.data (.getAllRules tenantId)) fun
    | .error e => .ret (.error ("failed to load rules: " ++ e))
    | .ok existing =>
        (createPackRules tenantId existing pack.rules).bind fun
          | .error message => .ret (.error message)
          | .ok () => .call (.data (.getAllRules tenantId)) fun
            | .error e => .ret (.error ("failed to refresh rules: " ++ e))
            | .ok rules => .ret (.ok rules)

/-! ### The cost policy -/

/-- `serde_json` on cost policies. -/
structure PolicyCodec where
  toString : TenantDataCostPolicy → Except String String
  fromStr : String → Option TenantDataCostPolicy

def policyCacheKey (tenantId : String) : String := "siem:tenant:" ++ tenantId ++ ":cost:policy"

/-- `set_string` with an expiry, its result ignored. -/
def cachePolicy (key text : String) {α : Type} (k : BackendProg α) : BackendProg α :=
  .call (.data (.setString key text)) fun
    | .error _ => k
    | .ok () => .call (.data (.expire key 900)) fun _ => k

section cost

variable (codec : PolicyCodec)

/-- The part of `load_tenant_cost_policy` without a readable text in Redis. -/
def loadStoredPolicy (tenantId : String) : BackendProg (Except String TenantDataCostPolicy) :=
  andThen (.getTenantDataCostPolicy tenantId) fun policy =>
    match codec.toString policy with
    | .error e => .ret (.error e)
    | .ok text => cachePolicy (policyCacheKey tenantId) text (.ret (.ok policy))

/-- `load_tenant_cost_policy`. -/
def loadTenantCostPolicy (tenantId : String) : BackendProg (Except String TenantDataCostPolicy) :=
  andThen (.getString (policyCacheKey tenantId)) fun
    | none => loadStoredPolicy codec tenantId
    | some raw =>
        match codec.fromStr raw with
        | some policy => .ret (.ok policy)
        | none => loadStoredPolicy codec tenantId

/-- `save_tenant_cost_policy`. -/
def saveTenantCostPolicy (policy : TenantDataCostPolicy) :
    BackendProg (Except String TenantDataCostPolicy) :=
  andThen (.upsertTenantDataCostPolicy policy) fun record =>
    match codec.toString record with
    | .error e => .ret (.error e)
    | .ok text => cachePolicy (policyCacheKey record.tenantId) text (.ret (.ok record))

end cost

structure TenantDataCostPolicyUpdate where
  dailyIngestBytesBudget : Option Int64 := none
  hotStorageBytesBudget : Option Int64 := none
  warmStorageBytesBudget : Option Int64 := none
  coldStorageBytesBudget : Option Int64 := none
  samplingEnabled : Option Bool := none
  lowValueSamplingPercent : Option Int32 := none
  highValueSamplingPercent : Option Int32 := none
  dropLowValueWhenOverBudget : Option Bool := none
  schemaDropRules : Option Json := none
  sourceBudgets : Option Json := none
  integrationBudgets : Option Json := none
  teamBudgets : Option Json := none

/-- The policy with the fields that the request gives. -/
def TenantDataCostPolicyUpdate.apply (body : TenantDataCostPolicyUpdate)
    (policy : TenantDataCostPolicy) : TenantDataCostPolicy :=
  { policy with
    dailyIngestBytesBudget := body.dailyIngestBytesBudget.getD policy.dailyIngestBytesBudget
    hotStorageBytesBudget := body.hotStorageBytesBudget.getD policy.hotStorageBytesBudget
    warmStorageBytesBudget := body.warmStorageBytesBudget.getD policy.warmStorageBytesBudget
    coldStorageBytesBudget := body.coldStorageBytesBudget.getD policy.coldStorageBytesBudget
    samplingEnabled := body.samplingEnabled.getD policy.samplingEnabled
    lowValueSamplingPercent := body.lowValueSamplingPercent.getD policy.lowValueSamplingPercent
    highValueSamplingPercent := body.highValueSamplingPercent.getD policy.highValueSamplingPercent
    dropLowValueWhenOverBudget :=
      body.dropLowValueWhenOverBudget.getD policy.dropLowValueWhenOverBudget
    schemaDropRules := body.schemaDropRules.getD policy.schemaDropRules
    sourceBudgets := body.sourceBudgets.getD policy.sourceBudgets
    integrationBudgets := body.integrationBudgets.getD policy.integrationBudgets
    teamBudgets := body.teamBudgets.getD policy.teamBudgets }

/-! ### Bodies of the case handlers -/

structure CreateCaseRequest where
  alertId : Uuid
  ownerUserId : Option String := none
  ownerEmail : Option String := none
  title : Option String := none
  summary : Option String := none

structure UpdateCaseRequest where
  status : Option CaseStatus := none
  ownerUserId : Option String := none
  ownerEmail : Option String := none
  outcome : Option String := none
  postmortemSummary : Option String := none

/-- The call of `update_case` for a request: every field but the status is set. -/
def UpdateCaseRequest.update (body : UpdateCaseRequest) : CaseUpdate where
  status := body.status
  ownerUserId := some body.ownerUserId
  ownerEmail := some body.ownerEmail
  outcome := some body.outcome
  postmortemSummary := some body.postmortemSummary

structure AddCaseEventRequest where
  eventType : String
  message : String
  metadata : Option Json := none

def trim (s : String) : String := String.ofList (trimChars s.toList)

/-- What `run_playbook` reads of a step. -/
structure PlaybookStep where
  title : String
  actionType : String
  description : String
  automated : Bool

def PlaybookStep.ofJson (step : Json) : PlaybookStep :=
  let text (key default : String) := ((step.get key).bind Json.asStr).getD default
  { title := text "title" "Unnamed step"
    actionType := text "action_type" "manual"
    description := text "description" (text "title" "Unnamed step")
    automated := match step.get "automated" with
      | some (.bool b) => b
      | _ => false }

/-- The timeline events of the steps of a playbook; their failures are ignored. -/
def recordSteps (claims : Claims) (caseId : Uuid) : List Json → BackendProg Unit
  | [] => .ret ()
  | value :: values =>
      let step := PlaybookStep.ofJson value
      (recordCaseEvent claims.tenantId caseId
        (if step.automated then "playbook.step.automated" else "playbook.step.manual") step.title
        (some claims.sub) (some claims.email)
        (.obj [("action_type", .str step.actionType), ("automated", .bool step.automated),
          ("description", .str step.description), ("title", .str step.title)])).bind fun _ =>
        recordSteps claims caseId values

/-! ### The handlers -/

namespace Api

section handlers

variable (crypto : AuditCrypto) (signingKey : String) (toRfc3339 : DateTime → String)
  (codec : PolicyCodec) (claims : Option Claims)

def createRule (body : RuleCreate) : Handler :=
  asMember claims fun claims =>
    .call (.data (.createRule { body with tenantId := claims.tenantId })) fun
      | .error e => databaseError e
      | .ok rule =>
          audited (recordRuleAudit crypto signingKey claims "rule.create" (some rule.id)
            (.obj [("name", .str rule.name), ("rule_type", .str rule.ruleType),
              ("severity", .str rule.severity)]))
            (reply 201 (.rule rule))

def updateRule (id : Uuid) (body : RuleUpdate) : Handler :=
  asMember claims fun claims =>
    (MiniSiem.updateRule claims.tenantId id body).bind fun
      | .error e => databaseError e
      | .ok rule =>
          audited (recordRuleAudit crypto signingKey claims "rule.update" (some rule.id)
            (.obj [("enabled", .bool rule.isEnabled), ("name", .str rule.name),
              ("severity", .str rule.severity)]))
            (reply 200 (.rule rule))

def deleteRule (id : Uuid) : Handler :=
  asMember claims fun claims =>
    .call (.data (.deleteRule claims.tenantId id)) fun
      | .error e => databaseError e
      | .ok () =>
          audited (recordRuleAudit crypto signingKey claims "rule.delete" (some id)
            (.obj [("deleted", .bool true)]))
            (reply 204 .empty)

def toggleRule (id : Uuid) : Handler :=
  asMember claims fun claims =>
    (toggleStoredRule claims.tenantId id).bind fun
      | .error e => databaseError e
      | .ok none => reply 404 .empty
      | .ok (some updated) =>
          audited (recordRuleAudit crypto signingKey claims "rule.toggle" (some updated.id)
            (.obj [("enabled", .bool updated.isEnabled)]))
            (reply 200 (.rule updated))

def installDetectionPack (slug : String) : Handler :=
  asAnalyst claims fun claims =>
    match curatedPackList.find? fun pack => pack.slug == slug with
    | none => replyError 404 "detection pack not found"
    | some pack =>
        (installPackRules claims.tenantId pack).bind fun
          | .error message => replyError 500 message
          | .ok rules =>
              unaudited (recordPackAudit crypto signingKey claims "detection_pack.install"
                (some pack.slug)
                (.obj [("name", .str pack.name), ("rule_count", .num (.posInt pack.rules.length)),
                  ("vertical", .str pack.vertical)]))
                (reply 200 (.pack (packSummary pack rules)))

def createCase (body : CreateCaseRequest) : Handler :=
  asAnalyst claims fun claims =>
    .call (.getAlert claims.tenantId body.alertId) fun
      | .error e => replyError 500 ("failed to load alert: " ++ e)
      | .ok none => replyError 404 "alert not found"
      | .ok (some alert) =>
          (createCaseFromAlert alert ⟨body.ownerUserId, body.ownerEmail, body.title, body.summary⟩
            none).bind fun
            | .error .panicked => .ret .panicked
            | .error (.error e) => replyError 500 ("failed to create case: " ++ e)
            | .ok record =>
                unaudited (recordCaseAudit crypto signingKey claims "case.create" (some record.id)
                  (.obj [("alert_id", .str alert.id), ("severity", .str alert.severity.toString)]))
                  (reply 201 (.case record))

def updateCase (caseId : Uuid) (body : UpdateCaseRequest) : Handler :=
  asAnalyst claims fun claims =>
    (MiniSiem.updateCase claims.tenantId caseId body.update).bind fun
      | .error e =>
          if Text.contains e "case not found" then replyError 404 "case not found"
          else replyError 500 ("failed to update case: " ++ e)
      | .ok record =>
          unaudited (recordCaseAudit crypto signingKey claims "case.update" (some record.id)
            (.obj [("outcome", optionalText record.outcome),
              ("owner_email", optionalText record.ownerEmail),
              ("owner_user_id", optionalText record.ownerUserId), ("status", .str record.status)]))
            (reply 200 (.case record))

def addTimelineEvent (caseId : Uuid) (body : AddCaseEventRequest) : Handler :=
  asAnalyst claims fun claims =>
    if (trim body.eventType).isEmpty || (trim body.message).isEmpty then
      replyError 400 "event_type and message are required"
    else .call (.data (.getCaseById claims.tenantId caseId)) fun
      | .error e => replyError 500 ("failed to load case: " ++ e)
      | .ok none => replyError 404 "case not found"
      | .ok (some record) =>
          (recordCaseEvent claims.tenantId record.id (trim body.eventType) body.message
            (some claims.sub) (some claims.email) (body.metadata.getD (.obj []))).bind fun
            | .error e => replyError 500 ("failed to add timeline event: " ++ e)
            | .ok () =>
                unaudited (recordCaseAudit crypto signingKey claims "case.timeline_event"
                  (some record.id)
                  (.obj [("event_type", .str (trim body.eventType)), ("message", .str body.message)]))
                  (reply 201 (.json (.obj [("status", .str "ok")])))

/-- The part of `run_playbook` after the case and the playbook have been found. -/
def startPlaybook (claims : Claims) (record : CaseRecord) (playbook : CasePlaybook) : Handler :=
  (MiniSiem.updateCase claims.tenantId record.id { status := some .investigating }).bind fun _ =>
  (recordCaseEvent claims.tenantId record.id "playbook.started"
    ("Playbook '" ++ playbook.name ++ "' started") (some claims.sub) (some claims.email)
    (.obj [("playbook_id", .str playbook.id), ("playbook_name", .str playbook.name)])).bind fun _ =>
  (recordSteps claims record.id (match playbook.steps with
    | .arr steps => steps
    | _ => [])).bind fun _ =>
  unaudited (recordCaseAudit crypto signingKey claims "case.playbook_run" (some record.id)
    (.obj [("playbook_id", .str playbook.id), ("playbook_name", .str playbook.name)]))
    (reply 200 (.json (.obj [("playbook", .str playbook.name), ("status", .str "ok")])))

def runPlaybook (caseId : Uuid) (playbookId : Option Uuid) : Handler :=
  asAnalyst claims fun claims =>
    .call (.data (.getCaseById claims.tenantId caseId)) fun
      | .error e => replyError 500 ("failed to load case: " ++ e)
      | .ok none => replyError 404 "case not found"
      | .ok (some record) =>
          match playbookId <|> record.playbookId with
          | none => replyError 400 "case has no playbook"
          | some id => .call (.data (.getCasePlaybook claims.tenantId id)) fun
            | .error e => replyError 500 ("failed to load playbook: " ++ e)
            | .ok none => replyError 404 "playbook not found"
            | .ok (some playbook) => startPlaybook crypto signingKey claims record playbook

def updateCostPolicy (body : TenantDataCostPolicyUpdate) : Handler :=
  asAnalyst claims fun claims =>
    (loadTenantCostPolicy codec claims.tenantId).bind fun
      | .error e => replyError 500 ("failed to load cost policy: " ++ e)
      | .ok policy =>
          (saveTenantCostPolicy codec (body.apply policy)).bind fun
            | .error e => replyError 500 ("failed to save cost policy: " ++ e)
            | .ok saved =>
                unaudited (recordCostAudit crypto signingKey claims "data_cost.policy_update"
                  (some saved.tenantId)
                  (.obj [("daily_ingest_bytes_budget",
                      .num (.ofInt saved.dailyIngestBytesBudget.toInt)),
                    ("sampling_enabled", .bool saved.samplingEnabled)]))
                  (reply 200 (.costPolicy saved))

end handlers

end Api

/-! ### Requests -/

/-- A request to a handler that changes something, with its path, query and body. -/
inductive Mutation
  | createRule (body : RuleCreate)
  | updateRule (id : Uuid) (body : RuleUpdate)
  | deleteRule (id : Uuid)
  | toggleRule (id : Uuid)
  | installDetectionPack (slug : String)
  | createCase (body : CreateCaseRequest)
  | updateCase (caseId : Uuid) (body : UpdateCaseRequest)
  | addTimelineEvent (caseId : Uuid) (body : AddCaseEventRequest)
  | runPlaybook (caseId : Uuid) (playbookId : Option Uuid)
  | updateCostPolicy (body : TenantDataCostPolicyUpdate)
  | updatePolicy (tenantId : Option String) (body : CompliancePolicyRequest)
  | recordKeyRotation (tenantId : Option String)

/-- The handler of a request. -/
def Mutation.handler (crypto : AuditCrypto) (signingKey : String) (toRfc3339 : DateTime → String)
    (codec : PolicyCodec) (claims : Option Claims) : Mutation → Handler
  | createRule body => Api.createRule crypto signingKey claims body
  | updateRule id body => Api.updateRule crypto signingKey claims id body
  | deleteRule id => Api.deleteRule crypto signingKey claims id
  | toggleRule id => Api.toggleRule crypto signingKey claims id
  | installDetectionPack slug => Api.installDetectionPack crypto signingKey claims slug
  | createCase body => Api.createCase crypto signingKey claims body
  | updateCase caseId body => Api.updateCase crypto signingKey claims caseId body
  | addTimelineEvent caseId body => Api.addTimelineEvent crypto signingKey claims caseId body
  | runPlaybook caseId playbookId => Api.runPlaybook crypto signingKey claims caseId playbookId
  | updateCostPolicy body => Api.updateCostPolicy crypto signingKey codec claims body
  | updatePolicy tenantId body =>
      liftTask (MiniSiem.updatePolicy crypto signingKey toRfc3339 ⟨claims, tenantId⟩ body)
  | recordKeyRotation tenantId =>
      liftTask (MiniSiem.recordKeyRotation crypto signingKey toRfc3339 ⟨claims, tenantId⟩)

end MiniSiem
