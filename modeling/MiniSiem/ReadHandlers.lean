import MiniSiem.CostUsage
import MiniSiem.Handlers

/-! # The reading handlers, and all requests

The `GET` handlers of rules, detection packs, cases, the cost policy and compliance.

* **Commands.**  `ApiCmd` adds to the commands of the backend the queries that only these handlers issue.
  The users and the usage counters are not changed by any of the handlers; what a query of
  them returns is given by the environment (`ApiTick`).
* **Writes.**  A reading handler may still write: the list of playbooks adds the default one, the cost
  policy is cached, and the access review and the evidence bundle are audited.
* **Requests.**  `ApiRequest` is any request to the handlers of these five groups. -/

namespace MiniSiem

structure AccessReviewUser where
  id : Uuid
  tenantId : String
  email : String
  role : String

structure ApiTick extends Tick where
  users : List AccessReviewUser := []
  counter : Option UInt32 := none
  ranked : List (String × ℚ) := []

/-! ### Queries -/

inductive ApiCmd
  | backend (c : BackendCmd)
  | listCases (tenantId : String)
  | listCaseAlertIds (tenantId : String) (caseId : Uuid)
  | listCaseTimeline (tenantId : String) (caseId : Uuid)
  | listUsersByTenant (tenantId : String)
  | listAuditEventsSince (tenantId : String) (since : DateTime)
  | getCounter (key : String)
  | zrevrangeWithscores (key : String) (start stop : ℤ)

abbrev ApiCmd.Reply : ApiCmd → Type
  | backend c => c.Reply
  | listCases _ => Except String (List CaseRecord)
  | listCaseAlertIds _ _ => Except String (List Uuid)
  | listCaseTimeline _ _ => Except String (List CaseTimelineEvent)
  | listUsersByTenant _ => Except String (List AccessReviewUser)
  | listAuditEventsSince _ _ => Except String (List AuditEvent)
  | getCounter _ => Except String (Option UInt32)
  | zrevrangeWithscores _ _ _ => Except String (List (String × ℚ))

namespace TenantData

variable (d : TenantData) (tenantId : String)

/-- `list_cases`: the newest first. -/
def listCases : List CaseRecord :=
  (d.cases.filter fun c => c.tenantId = tenantId).insertionSort fun c e => e.createdAt.1 ≤ c.createdAt.1

/-- `list_case_alert_ids`. -/
def listCaseAlertIds (caseId : Uuid) : List Uuid :=
  ((d.links.filter fun l => l.tenantId = tenantId && l.caseId = caseId).insertionSort
    fun l m => l.createdAt.1 ≤ m.createdAt.1).map (·.alertId)

/-- `list_case_timeline`. -/
def listCaseTimeline (caseId : Uuid) : List CaseTimelineEvent :=
  (d.timeline.filter fun e => e.tenantId = tenantId && e.caseId = caseId).insertionSort
    fun e f => e.createdAt.1 ≤ f.createdAt.1

end TenantData

/-- `list_audit_events_since`: the newest first. -/
def Database.listAuditEventsSince (db : Database) (tenantId : String) (since : DateTime) :
    List AuditEvent :=
  ((db.trail tenantId).filter fun e => (DateTime.stored since).1 ≤ e.createdAt.1).reverse

/-- A query leaves the store as it is. -/
def ApiTick.query {β : Type} (tick : ApiTick) (b : Backend) (result : β) :
    Except String β × Backend :=
  (match tick.fault with
    | some e => .error e
    | none => .ok result,
    { b with db := b.db.atTime tick.clock })

def execApi (tick : ApiTick) : (c : ApiCmd) → Backend → c.Reply × Backend
  | .backend c, b => execBackend tick.toTick c b
  | .listCases tenantId, b => tick.query b (b.data.listCases tenantId)
  | .listCaseAlertIds tenantId caseId, b => tick.query b (b.data.listCaseAlertIds tenantId caseId)
  | .listCaseTimeline tenantId caseId, b => tick.query b (b.data.listCaseTimeline tenantId caseId)
  | .listUsersByTenant tenantId, b => tick.query b (tick.users.filter fun u => u.tenantId = tenantId)
  | .listAuditEventsSince tenantId since, b =>
      tick.query b (b.db.listAuditEventsSince tenantId since)
  | .getCounter _, b => tick.query b tick.counter
  | .zrevrangeWithscores _ _ _, b => tick.query b tick.ranked

abbrev ApiProg (α : Type) := Atomic.Prog ApiCmd ApiCmd.Reply α

abbrev ApiPool (ι : Type) := Atomic.Pool ι ApiCmd ApiCmd.Reply ApiResult Backend

/-- A program of the backend as one of the API. -/
def liftBackend {α : Type} : BackendProg α → ApiProg α
  | .ret a => .ret a
  | .call c k => .call (.backend c) fun r => liftBackend (k r)

/-! ### What the handlers begin with -/

abbrev ReadHandler := ApiProg ApiResult

def answer (status : ℕ) (body : Body) : ReadHandler := .ret (.response ⟨status, body⟩)

def answerError (status : ℕ) (message : String) : ReadHandler :=
  answer status (.json (errorBody message))

/-- The handler goes on within the quota of the tenant. -/
def readWithinQuota (claims : Claims) (resource : String) (k : ReadHandler) : ReadHandler :=
  (liftBackend (liftDb (enforceTenantFixedWindow claims.tenantId resource (.ret .finished)))).bind fun
    | .finished => k
    | .response r => .ret (.response ⟨r.status, (r.body.map Body.json).getD .empty⟩)
    | .panicked => .ret .panicked

def readWithClaims (claims : Option Claims) (k : Claims → ReadHandler) : ReadHandler :=
  match claims with
  | some claims => k claims
  | none => answer 401 .empty

def readAsAnalyst (claims : Option Claims) (k : Claims → ReadHandler) : ReadHandler :=
  readWithClaims claims fun claims =>
    if claims.analystOrAdmin then k claims else answerError 403 "insufficient role"

/-- What the reading handlers of compliance begin with. -/
def readAsAdmin (claims : Option Claims) (resource : String) (k : Claims → ReadHandler) :
    ReadHandler :=
  readWithClaims claims fun claims =>
    if claims.roles.contains "admin" then readWithinQuota claims resource (k claims)
    else answerError 403 "admin role required"

/-- The audit write must succeed. -/
def readAudited (record : DbProg (Except String Unit)) (k : ReadHandler) : ReadHandler :=
  (liftBackend (liftDb record)).bind fun
    | .error e => answerError 500 e
    | .ok () => k

/-! ### The dashboard -/

/-- A counter, its key built from the clock; `none` is no value. -/
def readCounter {α : Type} (key : DateTime → String)
    (k : Except String (Option UInt32) → ApiProg α) : ApiProg α :=
  .call (.backend (.db .now)) fun now => .call (.getCounter (key now)) k

/-- `unwrap_or(0) as u64` of a counter. -/
def counterValue (value : Option UInt32) : UInt64 := (value.getD 0).toUInt64

/-- A counter of today, whose error ends the dashboard. -/
def usageToday (key : DateTime → String) (k : UInt64 → ApiProg (Except String TenantCostDashboard)) :
    ApiProg (Except String TenantCostDashboard) :=
  readCounter key fun
    | .error e => .ret (.error e)
    | .ok value => k (counterValue value)

/-- The ten greatest of a ranking, none if the query fails. -/
def topRanked {α : Type} (tenantId dimension : String)
    (k : List TenantCostDimensionUsage → ApiProg α) : ApiProg α :=
  .call (.backend (.db .now)) fun now =>
    .call (.zrevrangeWithscores (rankKey tenantId now dimension) 0 9) fun result =>
      let values : List (String × ℚ) := match result with
        | .error _ => []
        | .ok values => values
      k (values.map fun (key, bytes) =>
        { dimension, key
          bytes := UInt64.ofNat (min (max bytes 0).floor.toNat (2 ^ 64 - 1))
          logs := 0
          sampled := 0
          dropped := 0 })

/-- `get_counter(…).await.ok().flatten().unwrap_or(0)`. -/
def counterOrZero (result : Except String (Option UInt32)) : UInt64 :=
  match result with
  | .error _ => 0
  | .ok value => counterValue value

/-- `enrich_dimension_rows`. -/
def enrichDimensionRows (tenantId dimension : String) :
    List TenantCostDimensionUsage → ApiProg (List TenantCostDimensionUsage)
  | [] => .ret []
  | row :: rows =>
      readCounter (fun now => dimensionLogsKey tenantId now dimension row.key) fun logs =>
      readCounter (fun now => dimensionSampledKey tenantId now dimension row.key) fun sampled =>
      readCounter (fun now => dimensionDroppedKey tenantId now dimension row.key) fun dropped =>
        (enrichDimensionRows tenantId dimension rows).bind fun rows =>
          .ret ({ row with
            logs := counterOrZero logs
            sampled := counterOrZero sampled
            dropped := counterOrZero dropped } :: rows)

/-- `build_cost_dashboard`. -/
def buildCostDashboard (codec : PolicyCodec) (tenantId : String) :
    ApiProg (Except String TenantCostDashboard) :=
  (liftBackend (loadTenantCostPolicy codec tenantId)).bind fun
    | .error e => .ret (.error e)
    | .ok policy =>
        usageToday (usageBytesKey tenantId) fun usageBytesToday =>
        usageToday (usageLogsKey tenantId) fun usageLogsToday =>
        usageToday (usageSampledKey tenantId) fun sampledLogsToday =>
        usageToday (usageDroppedKey tenantId) fun droppedLogsToday =>
        topRanked tenantId "source" fun topSources =>
        topRanked tenantId "integration" fun topIntegrations =>
        topRanked tenantId "team" fun topTeams =>
        (enrichDimensionRows tenantId "source" topSources).bind fun topSources =>
        (enrichDimensionRows tenantId "integration" topIntegrations).bind fun topIntegrations =>
        (enrichDimensionRows tenantId "team" topTeams).bind fun topTeams =>
          .ret (.ok
            { tenantId, policy, usageBytesToday, usageLogsToday, sampledLogsToday, droppedLogsToday
              tenantBudgetPressure := currentPressure usageBytesToday policy.dailyIngestBytesBudget
              hotStoragePressure := currentPressure usageBytesToday policy.hotStorageBytesBudget
              warmStoragePressure := currentPressure usageBytesToday policy.warmStorageBytesBudget
              coldStoragePressure := currentPressure usageBytesToday policy.coldStorageBytesBudget
              topSources, topIntegrations, topTeams })

/-! ### Access reviews -/

def jsonCount (n : ℕ) : Json := .num (.posInt n)

/-- `access_review_summary`. -/
def accessReviewSummary (users : List AccessReviewUser) (auditEvents : List AuditEvent) : Json :=
  .obj [("admin_count", jsonCount (users.countP fun u => u.role = "admin")),
    ("analyst_count", jsonCount (users.countP fun u => u.role = "analyst")),
    ("recent_admin_actions", jsonCount (auditEvents.countP fun e => e.actorRoles.contains "admin")),
    ("user_count", jsonCount users.length),
    ("users", .arr (users.map fun u =>
      .obj [("email", .str u.email), ("id", .str u.id), ("role", .str u.role),
        ("tenant_id", .str u.tenantId)]))]

/-- `Utc::now() - Duration::days(days)`, which panics out of range. -/
def DateTime.minusDays (now : DateTime) (days : ℕ) : Option DateTime :=
  let t := now.1 - days * 86400 * 1000000000
  if h : minSeconds * 1000000000 ≤ t ∧ t < (maxSeconds + 1) * 1000000000 then some ⟨t, h⟩ else none

/-- The users of a tenant and its audit events of some days. -/
def readAccess (tenantId : String) (days : ℕ)
    (k : List AccessReviewUser → List AuditEvent → ReadHandler) : ReadHandler :=
  .call (.listUsersByTenant tenantId) fun
    | .error e => answerError 500 ("failed to load users: " ++ e)
    | .ok users => .call (.backend (.db .now)) fun now =>
      match now.minusDays days with
      | none => .ret .panicked
      | some since => .call (.listAuditEventsSince tenantId since) fun
        | .error e => answerError 500 ("failed to load audit events: " ++ e)
        | .ok auditEvents => k users auditEvents

section evidence

variable (toRfc3339 : DateTime → String)

/-- The audit summary of a bundle. -/
def auditSummary (auditEvents : List AuditEvent) : Json :=
  .obj [("event_count", jsonCount auditEvents.length),
    ("recent_actions", .arr ((auditEvents.take 10).map fun e =>
      .obj [("action", .str e.action), ("actor_email", .str e.actorEmail),
        ("created_at", .str (toRfc3339 e.createdAt))])),
    ("window_days", jsonCount 30)]

/-- The retention summary of a bundle. -/
def retentionSummary (p : TenantCompliancePolicy) : Json :=
  .obj [("evidence_export_enabled", .bool p.evidenceExportEnabled),
    ("key_rotation_interval_days", .num (.ofInt p.keyRotationIntervalDays.toInt)),
    ("last_key_rotation_at", optionalText (p.lastKeyRotationAt.map toRfc3339)),
    ("legal_hold", .bool p.legalHold),
    ("legal_hold_reason", optionalText p.legalHoldReason),
    ("legal_hold_until", optionalText (p.legalHoldUntil.map toRfc3339)),
    ("retention_days", .num (.ofInt p.retentionDays.toInt))]

/-- `ComplianceEvidenceBundle` as JSON. -/
def evidenceBundleJson (tenantId : String) (generatedAt : DateTime) (p : TenantCompliancePolicy)
    (users : List AccessReviewUser) (auditEvents : List AuditEvent) : Json :=
  .obj [("tenant_id", .str tenantId), ("generated_at", .str (toRfc3339 generatedAt)),
    ("policy", policyJson toRfc3339 p), ("access_review", accessReviewSummary users auditEvents),
    ("audit_summary", auditSummary toRfc3339 auditEvents),
    ("retention_summary", retentionSummary toRfc3339 p)]

end evidence

/-! ### The handlers -/

namespace Api

section handlers

variable (crypto : AuditCrypto) (signingKey : String) (toRfc3339 : DateTime → String)
  (codec : PolicyCodec) (claims : Option Claims)

def listRules : ReadHandler :=
  readWithClaims claims fun claims => readWithinQuota claims "api_requests" <|
    .call (.backend (.data (.getAllRules claims.tenantId))) fun
      | .error e => answerError 500 ("Database error: " ++ e)
      | .ok rules => answer 200 (.rules rules)

def getRule (id : Uuid) : ReadHandler :=
  readWithClaims claims fun claims => readWithinQuota claims "api_requests" <|
    .call (.backend (.data (.getRuleById claims.tenantId id))) fun
      | .error e => answerError 500 ("Database error: " ++ e)
      | .ok none => answer 404 .empty
      | .ok (some rule) => answer 200 (.rule rule)

def listDetectionPacks : ReadHandler :=
  readAsAnalyst claims fun claims => readWithinQuota claims "api_requests" <|
    .call (.backend (.data (.getAllRules claims.tenantId))) fun
      | .error e => answerError 500 ("failed to load rules: " ++ e)
      | .ok rules => answer 200 (.packs (curatedPackList.map fun pack => packSummary pack rules))

def getDetectionPack (slug : String) : ReadHandler :=
  readAsAnalyst claims fun claims =>
    match curatedPackList.find? fun pack => pack.slug == slug with
    | none => answerError 404 "detection pack not found"
    | some pack => .call (.backend (.data (.getAllRules claims.tenantId))) fun
      | .error e => answerError 500 ("failed to load rules: " ++ e)
      | .ok rules => answer 200 (.pack (packSummary pack rules))

def listCases : ReadHandler :=
  readAsAnalyst claims fun claims => readWithinQuota claims "api_requests" <|
    .call (.listCases claims.tenantId) fun
      | .error e => answerError 500 ("failed to list cases: " ++ e)
      | .ok records => answer 200 (.cases records)

/-- The part of `get_case_detail` after the case has been found. -/
def caseDetail (tenantId : String) (caseId : Uuid) (record : CaseRecord) :
    ApiProg (Except String CaseDetail) :=
  .call (.listCaseAlertIds tenantId caseId) fun
    | .error e => .ret (.error e)
    | .ok alerts => .call (.listCaseTimeline tenantId caseId) fun
      | .error e => .ret (.error e)
      | .ok timeline =>
          match record.playbookId with
          | none => .ret (.ok ⟨record, alerts, timeline, none⟩)
          | some id => .call (.backend (.data (.getCasePlaybook tenantId id))) fun
            | .error e => .ret (.error e)
            | .ok playbook => .ret (.ok ⟨record, alerts, timeline, playbook⟩)

def getCase (caseId : Uuid) : ReadHandler :=
  readAsAnalyst claims fun claims => readWithinQuota claims "api_requests" <|
    .call (.backend (.data (.getCaseById claims.tenantId caseId))) fun
      | .error e => answerError 500 ("failed to load case: " ++ e)
      | .ok none => answerError 404 "case not found"
      | .ok (some record) => (caseDetail claims.tenantId caseId record).bind fun
        | .error e => answerError 500 ("failed to load case: " ++ e)
        | .ok detail => answer 200 (.caseDetail detail)

def listPlaybooks : ReadHandler :=
  readAsAnalyst claims fun claims =>
    (liftBackend (listCasePlaybooks claims.tenantId)).bind fun
      | .error e => answerError 500 ("failed to list playbooks: " ++ e)
      | .ok playbooks => answer 200 (.playbooks playbooks)

def getCostPolicy : ReadHandler :=
  readAsAnalyst claims fun claims =>
    (liftBackend (loadTenantCostPolicy codec claims.tenantId)).bind fun
      | .error e => answerError 500 ("failed to load cost policy: " ++ e)
      | .ok policy => answer 200 (.costPolicy policy)

def getCostDashboard : ReadHandler :=
  readAsAnalyst claims fun claims => readWithinQuota claims "api_requests" <|
    (buildCostDashboard codec claims.tenantId).bind fun
      | .error e => answerError 500 ("failed to build cost dashboard: " ++ e)
      | .ok dashboard => answer 200 (.dashboard dashboard)

def getPolicy (tenantId : Option String) : ReadHandler :=
  readAsAdmin claims "api_requests" fun claims =>
    .call (.backend (.db (.getTenantCompliancePolicy (tenantId.getD claims.tenantId)))) fun
      | .error e => answerError 500 ("failed to load policy: " ++ e)
      | .ok policy => answer 200 (.json (policyJson toRfc3339 policy))

def accessReview (tenantId : Option String) : ReadHandler :=
  readAsAdmin claims "audit_queries" fun claims =>
    let target := tenantId.getD claims.tenantId
    readAccess target 90 fun users auditEvents =>
      readAudited (recordComplianceAudit crypto signingKey claims "compliance.access_review.view"
        (some target) (.obj [("user_count", jsonCount users.length)]))
        (answer 200 (.json (accessReviewSummary users auditEvents)))

def evidenceBundle (tenantId : Option String) : ReadHandler :=
  readAsAdmin claims "audit_queries" fun claims =>
    let target := tenantId.getD claims.tenantId
    .call (.backend (.db (.getTenantCompliancePolicy target))) fun
      | .error e => answerError 500 ("failed to load policy: " ++ e)
      | .ok policy => readAccess target 30 fun users auditEvents =>
          readAudited (recordComplianceAudit crypto signingKey claims "compliance.evidence.export"
            (some target) (.obj [("event_count", jsonCount auditEvents.length)]))
            (.call (.backend (.db .now)) fun generatedAt =>
              answer 200 (.json
                (evidenceBundleJson toRfc3339 target generatedAt policy users auditEvents)))

end handlers

end Api

/-! ### Requests -/

/-- A request to a handler of the five groups, with its path, query and body. -/
inductive ApiCall
  | mutate (m : Mutation)
  | listRules
  | getRule (id : Uuid)
  | listDetectionPacks
  | getDetectionPack (slug : String)
  | listCases
  | getCase (caseId : Uuid)
  | listPlaybooks
  | getCostPolicy
  | getCostDashboard
  | getPolicy (tenantId : Option String)
  | accessReview (tenantId : Option String)
  | evidenceBundle (tenantId : Option String)

/-- The claims are those the middleware has attached, if any. -/
structure ApiRequest where
  claims : Option Claims
  call : ApiCall

def ApiRequest.prog (crypto : AuditCrypto) (signingKey : String) (toRfc3339 : DateTime → String)
    (codec : PolicyCodec) (req : ApiRequest) : ApiProg ApiResult :=
  match req.call with
  | .mutate m => liftBackend (m.handler crypto signingKey toRfc3339 codec req.claims)
  | .listRules => Api.listRules req.claims
  | .getRule id => Api.getRule req.claims id
  | .listDetectionPacks => Api.listDetectionPacks req.claims
  | .getDetectionPack slug => Api.getDetectionPack req.claims slug
  | .listCases => Api.listCases req.claims
  | .getCase caseId => Api.getCase req.claims caseId
  | .listPlaybooks => Api.listPlaybooks req.claims
  | .getCostPolicy => Api.getCostPolicy codec req.claims
  | .getCostDashboard => Api.getCostDashboard codec req.claims
  | .getPolicy tenantId => Api.getPolicy toRfc3339 req.claims tenantId
  | .accessReview tenantId => Api.accessReview crypto signingKey req.claims tenantId
  | .evidenceBundle tenantId => Api.evidenceBundle crypto signingKey toRfc3339 req.claims tenantId

end MiniSiem
