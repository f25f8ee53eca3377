import MiniSiem.Lib.Interference
import MiniSiem.TenantIsolation

/-! # Who may write what

The role checks of the handlers, read as a table of permissions.

* **Table.**  `Claims.mayWrite`: any claims write rules, the other tables of a tenant are written by an
  analyst or an admin.  The compliance policies are written by an admin (`Claims.Grants`).
* **Programs.**  `ApiRequest.prog_granted`: every command a request issues is granted to its claims.
* **Runs.**  `roles_bound_requests`: whatever the requests and the order of their commands, nothing changes
  that none of the requesters may write.
* **Converse.**  `writes_iff`: what the table grants, a request can do. -/

namespace MiniSiem

/-! ### The table of permissions -/

/-- No handler of rules asks for a role. -/
def Claims.mayWrite (who : Claims) : Table → Bool
  | .rules => true
  | .playbooks | .cases | .links | .timeline | .costPolicies | .costCache => who.analystOrAdmin

/-- The event says who the claims are of. -/
structure AuditEvent.Names (e : AuditEvent) (who : Claims) : Prop where
  tenantId : e.tenantId = who.tenantId
  actorUserId : e.actorUserId = who.sub
  actorEmail : e.actorEmail = who.email
  actorRoles : e.actorRoles = who.roles
  requestId : e.requestId = who.jti

/-- The commands of the database that are granted to claims; nobody purges. -/
def Claims.GrantsDb (who : Claims) : DbCmd → Prop
  | .insertAuditEvent e => e.Names who
  | .upsertTenantCompliancePolicy _ _ => who.roles.contains "admin" = true
  | .purgeAuditEventsBefore _ _ | .purgeAlertsBefore _ _ | .deleteByQuery _ _ => False
  | _ => True

def Claims.Grants (who : Claims) : BackendCmd → Prop
  | .db c => who.GrantsDb c
  | .data c => ∀ t, c.table = some t → who.mayWrite t = true
  | .getAlert _ _ => True

/-- The same of a request, which may be without claims. -/
def Granted (claims : Option Claims) (c : BackendCmd) : Prop := ∃ who, claims = some who ∧ who.Grants c

section table

variable {who : Claims} {claims : Option Claims} {c : BackendCmd}

theorem Claims.mayWrite_of_analyst (h : who.analystOrAdmin = true) (t : Table) :
    who.mayWrite t = true := by
  cases t <;> first | rfl | exact h

/-- An analyst or an admin is granted every command of the tables. -/
theorem Claims.grants_data (h : who.analystOrAdmin = true) (c : DataCmd) : who.Grants (.data c) :=
  fun t _ => Claims.mayWrite_of_analyst h t

/-- Anybody is granted what changes no table. -/
theorem Claims.grants_read {c : DataCmd} (h : c.table = none) : who.Grants (.data c) := by
  intro t ht
  rw [h] at ht
  cases ht

/-- Anybody is granted what changes the rules. -/
theorem Claims.grants_rules {c : DataCmd} (h : c.table = some .rules) : who.Grants (.data c) := by
  intro t ht
  rw [h] at ht
  obtain rfl := Option.some.inj ht
  rfl

theorem Granted.mayWrite (h : Granted claims c) {t : Table} (ht : c.table = some t) :
    ∃ who, claims = some who ∧ who.mayWrite t = true := by
  obtain ⟨who, hwho, hgrants⟩ := h
  cases c with
  | data c => exact ⟨who, hwho, hgrants t ht⟩
  | db c => cases ht
  | getAlert tenantId id => cases ht

end table

/-! ### The programs of the backend -/

section programs

variable {α : Type} {who : Claims}

theorem liftDb_grants {p : DbProg α}
    (h : p.Ensures (fun _ _ _ => True) (fun _ => who.GrantsDb) ()) : Issues who.Grants (liftDb p) := by
  induction p with
  | ret a => trivial
  | call c k ih =>
      obtain ⟨hc, hk⟩ := h () le_rfl
      exact issues_call hc fun r => ih r (hk r trivial)

/-- The event that is inserted names the claims of the call. -/
theorem recordAudit_grants (crypto : AuditCrypto) (signingKey : String) (c : AuditCall) :
    (recordAudit crypto signingKey c).Ensures (fun _ _ _ => True) (fun _ => c.claims.GrantsDb) () := by
  unfold recordAudit
  refine fun _ _ => ⟨trivial, fun found _ => ?_⟩
  cases found with
  | error e => trivial
  | ok previousHash =>
      dsimp only
      cases hashAuditPayload crypto previousHash (auditPayload c.claims c.action c.resourceType
          c.resourceId c.targetTenantId c.metadata) with
      | error e => trivial
      | ok eventHash =>
          dsimp only
          cases crypto.hmacBase64 signingKey eventHash with
          | error e => trivial
          | ok signature =>
              refine fun _ _ => ⟨trivial, fun id _ => fun _ _ => ⟨trivial, fun createdAt _ => ?_⟩⟩
              refine fun _ _ => ⟨⟨rfl, rfl, rfl, rfl, rfl⟩, fun written _ => ?_⟩
              cases written <;> trivial

theorem audited_grants {crypto : AuditCrypto} {signingKey : String} {c : AuditCall}
    (hc : c.claims = who) {k : Handler} (hk : Issues who.Grants k) :
    Issues who.Grants (audited (recordAudit crypto signingKey c) k) := by
  subst hc
  refine (liftDb_grants (recordAudit_grants crypto signingKey c)).bind fun recorded => ?_
  cases recorded with
  | error e => trivial
  | ok _ => exact hk

theorem unaudited_grants {crypto : AuditCrypto} {signingKey : String} {c : AuditCall}
    (hc : c.claims = who) {k : Handler} (hk : Issues who.Grants k) :
    Issues who.Grants (unaudited (recordAudit crypto signingKey c) k) := by
  subst hc
  exact (liftDb_grants (recordAudit_grants crypto signingKey c)).bind fun _ => hk

theorem withinQuota_grants {claims : Claims} {resource : String} {k : Handler}
    (hk : Issues who.Grants k) : Issues who.Grants (withinQuota claims resource k) := by
  refine Issues.bind (issues_call trivial fun r => ?_) fun checked => ?_
  · rcases r with e | allowed
    · trivial
    · cases allowed <;> trivial
  · cases checked with
    | finished => exact hk
    | response r => trivial
    | panicked => trivial

theorem asMember_granted {claims : Option Claims} {k : Claims → Handler}
    (hk : ∀ who, Issues who.Grants (k who)) : Issues (Granted claims) (asMember claims k) := by
  cases claims with
  | none => trivial
  | some who => exact (withinQuota_grants (hk who)).imp fun _ _ h => ⟨who, rfl, h⟩

theorem asAnalyst_granted {claims : Option Claims} {k : Claims → Handler}
    (hk : ∀ who, who.analystOrAdmin = true → Issues who.Grants (k who)) :
    Issues (Granted claims) (asAnalyst claims k) := by
  cases claims with
  | none => trivial
  | some who =>
      unfold asAnalyst withClaims
      dsimp only
      split_ifs with hrole
      · exact (withinQuota_grants (hk who hrole)).imp fun _ _ h => ⟨who, rfl, h⟩
      · trivial

/-! #### Rules -/

theorem updateRule_grants (tenantId : String) (id : Uuid) (update : RuleUpdate) :
    Issues who.Grants (updateRule tenantId id update) := by
  refine issues_andThen (Claims.grants_read rfl) fun found => ?_
  cases found with
  | none => trivial
  | some existing => exact issues_andThen (Claims.grants_rules rfl) fun _ => trivial

theorem toggleStoredRule_grants (tenantId : String) (id : Uuid) :
    Issues who.Grants (toggleStoredRule tenantId id) := by
  refine issues_andThen (Claims.grants_read rfl) fun found => ?_
  cases found with
  | none => trivial
  | some rule => exact (updateRule_grants _ _ _).bind fun _ => trivial

theorem createPackRules_grants (tenantId : String) (existing : List StoredRule)
    (templates : List PackRuleTemplate) :
    Issues who.Grants (createPackRules tenantId existing templates) := by
  induction templates with
  | nil => trivial
  | cons template templates ih =>
      unfold createPackRules
      split_ifs
      · exact ih
      · refine issues_call (Claims.grants_rules rfl) fun created => ?_
        cases created with
        | error e => trivial
        | ok _ => exact ih

theorem installPackRules_grants (tenantId : String) (pack : CuratedPack) :
    Issues who.Grants (installPackRules tenantId pack) := by
  refine issues_call (Claims.grants_read rfl) fun existing => ?_
  cases existing with
  | error e => trivial
  | ok existing =>
      refine (createPackRules_grants _ _ _).bind fun created => ?_
      cases created with
      | error message => trivial
      | ok _ =>
          refine issues_call (Claims.grants_read rfl) fun rules => ?_
          cases rules <;> trivial

/-! #### Cases and the cost policy -/

variable (hrole : who.analystOrAdmin = true)
include hrole

theorem recordCaseEvent_grants (tenantId : String) (caseId : Uuid) (eventType message : String)
    (actorUserId actorEmail : Option String) (metadata : Json) :
    Issues who.Grants
      (recordCaseEvent tenantId caseId eventType message actorUserId actorEmail metadata) :=
  recordCaseEvent_issues trivial (fun _ => Claims.grants_data hrole _) _ _ _ _ _ _ _

theorem updateCase_grants (tenantId : String) (caseId : Uuid) (update : CaseUpdate) :
    Issues who.Grants (updateCase tenantId caseId update) :=
  updateCase_issues update trivial trivial (Claims.grants_data hrole _)
    (fun _ _ => Claims.grants_data hrole _) fun _ => Claims.grants_data hrole _

theorem recordSteps_grants (claims : Claims) (caseId : Uuid) (steps : List Json) :
    Issues who.Grants (recordSteps claims caseId steps) := by
  induction steps with
  | nil => trivial
  | cons step steps ih => exact (recordCaseEvent_grants hrole _ _ _ _ _ _ _).bind fun _ => ih

/-- The commands of `create_case_from_alert`. -/
theorem grants_of_side {alert : Alert} {c : BackendCmd} (h : SideCommand alert c) : who.Grants c := by
  cases c with
  | db c =>
      cases c with
      | insertAuditEvent e => exact h.elim
      | upsertTenantCompliancePolicy l p => exact h.elim
      | purgeAuditEventsBefore p cutoff => exact h.elim
      | purgeAlertsBefore p cutoff => exact h.elim
      | deleteByQuery p cutoff => exact h.elim
      | _ => trivial
  | data c => exact Claims.grants_data hrole c
  | getAlert tenantId id => trivial

theorem grants_of_opening {alert : Alert} {new : NewCase} {c : BackendCmd}
    (h : OpeningCommand alert new c) : who.Grants c := by
  cases c with
  | data c => exact Claims.grants_data hrole c
  | db c => exact grants_of_side hrole h
  | getAlert tenantId id => trivial

theorem createCaseFromAlert_grants (alert : Alert) (new : NewCase) (playbookId : Option Uuid) :
    Issues who.Grants (createCaseFromAlert alert new playbookId) :=
  (createCaseFromAlert_issues playbookId).imp fun _ _ => grants_of_opening hrole

theorem listCasePlaybooks_grants (tenantId : String) :
    Issues who.Grants (listCasePlaybooks tenantId) := by
  refine Issues.bind ?_ fun ensured => ?_
  · refine issues_andThen (Claims.grants_data hrole _) fun existing => ?_
    split_ifs
    · trivial
    · exact issues_call trivial fun _ => issues_call trivial fun _ =>
        issues_andThen (Claims.grants_data hrole _) fun _ => trivial
  · cases ensured with
    | error e => trivial
    | ok _ => exact issues_andThen (Claims.grants_data hrole _) fun _ => trivial

theorem cachePolicy_grants (key text : String) {k : BackendProg α} (hk : Issues who.Grants k) :
    Issues who.Grants (cachePolicy key text k) := by
  refine issues_call (Claims.grants_data hrole _) fun stored => ?_
  cases stored with
  | error e => exact hk
  | ok _ => exact issues_call (Claims.grants_data hrole _) fun _ => hk

theorem loadTenantCostPolicy_grants (codec : PolicyCodec) (tenantId : String) :
    Issues who.Grants (loadTenantCostPolicy codec tenantId) := by
  have hstored : Issues who.Grants (loadStoredPolicy codec tenantId) := by
    refine issues_andThen (Claims.grants_data hrole _) fun policy => ?_
    cases codec.toString policy with
    | error e => trivial
    | ok text => exact cachePolicy_grants hrole _ _ trivial
  refine issues_andThen (Claims.grants_data hrole _) fun cached => ?_
  cases cached with
  | none => exact hstored
  | some raw =>
      dsimp only
      cases codec.fromStr raw with
      | none => exact hstored
      | some policy => trivial

theorem saveTenantCostPolicy_grants (codec : PolicyCodec) (policy : TenantDataCostPolicy) :
    Issues who.Grants (saveTenantCostPolicy codec policy) := by
  refine issues_andThen (Claims.grants_data hrole _) fun record => ?_
  cases codec.toString record with
  | error e => trivial
  | ok text => exact cachePolicy_grants hrole _ _ trivial

end programs

/-! ### The compliance requests -/

section compliance

variable (crypto : AuditCrypto) (signingKey : String) (toRfc3339 : DateTime → String)
  {claims : Option Claims} {tenantId : Option String}

/-- A program of the database is granted to the claims of its request. -/
abbrev DbGranted (claims : Option Claims) {α : Type} (p : DbProg α) : Prop :=
  p.Ensures (fun _ _ _ => True) (fun _ c => ∃ who, claims = some who ∧ who.GrantsDb c) ()

theorem liftTask_granted {task : Task} (h : DbGranted claims task) :
    Issues (Granted claims) (liftTask task) := by
  refine Issues.bind ?_ fun result => ?_
  · induction task with
    | ret a => trivial
    | call c k ih =>
        obtain ⟨hc, hk⟩ := h () le_rfl
        exact issues_call hc fun r => ih r (hk r trivial)
  · cases result <;> trivial

/-- Only an admin gets as far as the policy. -/
theorem loadPolicy_granted {k : Claims → TenantCompliancePolicy → Task}
    (hk : ∀ who policy, who.roles.contains "admin" = true → DbGranted (some who) (k who policy)) :
    DbGranted claims (loadPolicy ⟨claims, tenantId⟩ k) := by
  unfold loadPolicy
  cases claims with
  | none => trivial
  | some who =>
      dsimp only
      split_ifs with hadmin
      · trivial
      · rw [Bool.not_eq_true', Bool.not_eq_false] at hadmin
        refine fun _ _ => ⟨⟨who, rfl, trivial⟩, fun allowed _ => ?_⟩
        rcases allowed with e | allowed
        · trivial
        cases allowed with
        | false => trivial
        | true =>
            refine fun _ _ => ⟨⟨who, rfl, trivial⟩, fun loaded _ => ?_⟩
            cases loaded with
            | error e => trivial
            | ok policy => exact hk who policy hadmin

theorem savePolicy_granted {who : Claims} (hadmin : who.roles.contains "admin" = true)
    (action targetTenantId : String) (loaded policy : TenantCompliancePolicy) :
    DbGranted (some who)
      (savePolicy crypto signingKey toRfc3339 who action targetTenantId loaded policy) := by
  refine fun _ _ => ⟨⟨who, rfl, hadmin⟩, fun saved _ => ?_⟩
  cases saved with
  | error e => trivial
  | ok record =>
      refine Atomic.Prog.Ensures.bind ?_ fun _ _ result => ?_
      · exact (recordAudit_grants crypto signingKey _).imp fun _ _ h => ⟨who, rfl, h⟩
      · cases result <;> trivial

theorem updatePolicy_granted (body : CompliancePolicyRequest) :
    DbGranted claims (updatePolicy crypto signingKey toRfc3339 ⟨claims, tenantId⟩ body) :=
  loadPolicy_granted fun who _ hadmin => fun _ _ => ⟨⟨who, rfl, trivial⟩, fun _ _ =>
    savePolicy_granted crypto signingKey toRfc3339 hadmin _ _ _ _⟩

theorem recordKeyRotation_granted :
    DbGranted claims (recordKeyRotation crypto signingKey toRfc3339 ⟨claims, tenantId⟩) :=
  loadPolicy_granted fun who _ hadmin => fun _ _ => ⟨⟨who, rfl, trivial⟩, fun _ _ => fun _ _ =>
    ⟨⟨who, rfl, trivial⟩, fun _ _ => savePolicy_granted crypto signingKey toRfc3339 hadmin _ _ _ _⟩⟩

end compliance

/-! ### The handlers -/

section handlers

variable (crypto : AuditCrypto) (signingKey : String) (toRfc3339 : DateTime → String)

theorem startPlaybook_grants {who : Claims} (hrole : who.analystOrAdmin = true) (record : CaseRecord)
    (playbook : CasePlaybook) :
    Issues who.Grants (Api.startPlaybook crypto signingKey who record playbook) :=
  (updateCase_grants hrole _ _ _).bind fun _ =>
    (recordCaseEvent_grants hrole _ _ _ _ _ _ _).bind fun _ =>
      (recordSteps_grants hrole _ _ _).bind fun _ => unaudited_grants rfl trivial

theorem handler_granted (codec : PolicyCodec) (claims : Option Claims) (m : Mutation) :
    Issues (Granted claims) (m.handler crypto signingKey toRfc3339 codec claims) := by
  cases m with
  | createRule body =>
      refine asMember_granted fun who => issues_call (Claims.grants_rules rfl) fun created => ?_
      cases created with
      | error e => trivial
      | ok rule => exact audited_grants rfl trivial
  | updateRule id body =>
      refine asMember_granted fun who => (updateRule_grants _ _ _).bind fun updated => ?_
      cases updated with
      | error e => trivial
      | ok rule => exact audited_grants rfl trivial
  | deleteRule id =>
      refine asMember_granted fun who => issues_call (Claims.grants_rules rfl) fun deleted => ?_
      cases deleted with
      | error e => trivial
      | ok _ => exact audited_grants rfl trivial
  | toggleRule id =>
      refine asMember_granted fun who => (toggleStoredRule_grants _ _).bind fun toggled => ?_
      rcases toggled with e | updated
      · trivial
      cases updated with
      | none => trivial
      | some rule => exact audited_grants rfl trivial
  | installDetectionPack slug =>
      refine asAnalyst_granted fun who _ => ?_
      split
      · trivial
      · refine (installPackRules_grants _ _).bind fun installed => ?_
        cases installed with
        | error message => trivial
        | ok rules => exact unaudited_grants rfl trivial
  | createCase body =>
      refine asAnalyst_granted fun who hrole => issues_call trivial fun found => ?_
      rcases found with e | found
      · trivial
      cases found with
      | none => trivial
      | some alert =>
          refine (createCaseFromAlert_grants hrole _ _ _).bind fun created => ?_
          rcases created with failure | record
          · cases failure <;> trivial
          · exact unaudited_grants rfl trivial
  | updateCase caseId body =>
      refine asAnalyst_granted fun who hrole => (updateCase_grants hrole _ _ _).bind fun updated => ?_
      cases updated with
      | error e =>
          dsimp only
          split_ifs <;> trivial
      | ok record => exact unaudited_grants rfl trivial
  | addTimelineEvent caseId body =>
      refine asAnalyst_granted fun who hrole => ?_
      split_ifs
      · trivial
      · refine issues_call (Claims.grants_data hrole _) fun found => ?_
        rcases found with e | found
        · trivial
        cases found with
        | none => trivial
        | some record =>
            refine (recordCaseEvent_grants hrole _ _ _ _ _ _ _).bind fun recorded => ?_
            cases recorded with
            | error e => trivial
            | ok _ => exact unaudited_grants rfl trivial
  | runPlaybook caseId playbookId =>
      refine asAnalyst_granted fun who hrole => issues_call (Claims.grants_data hrole _) fun found => ?_
      rcases found with e | found
      · trivial
      cases found with
      | none => trivial
      | some record =>
          dsimp only
          split
          · trivial
          · refine issues_call (Claims.grants_data hrole _) fun loaded => ?_
            rcases loaded with e | loaded
            · trivial
            cases loaded with
            | none => trivial
            | some playbook => exact startPlaybook_grants crypto signingKey hrole record playbook
  | updateCostPolicy body =>
      refine asAnalyst_granted fun who hrole =>
        (loadTenantCostPolicy_grants hrole codec _).bind fun loaded => ?_
      cases loaded with
      | error e => trivial
      | ok policy =>
          refine (saveTenantCostPolicy_grants hrole codec _).bind fun saved => ?_
          cases saved with
          | error e => trivial
          | ok record => exact unaudited_grants rfl trivial
  | updatePolicy tenantId body =>
      exact liftTask_granted (updatePolicy_granted crypto signingKey toRfc3339 body)
  | recordKeyRotation tenantId =>
      exact liftTask_granted (recordKeyRotation_granted crypto signingKey toRfc3339)

end handlers

/-! ### The reading handlers -/

section reading

variable {α β : Type} {who : Claims} {claims : Option Claims}

/-- What only reads is granted to anybody. -/
def ApiGrants (grants : BackendCmd → Prop) : ApiCmd → Prop
  | .backend c => grants c
  | _ => True

abbrev ApiIssues (grants : BackendCmd → Prop) (p : ApiProg α) : Prop :=
  p.Ensures (fun _ _ _ => True) (fun _ => ApiGrants grants) ()

variable {grants : BackendCmd → Prop}

theorem apiIssues_call {c : ApiCmd} {k : c.Reply → ApiProg α} (hc : ApiGrants grants c)
    (hk : ∀ r, ApiIssues grants (k r)) : ApiIssues grants (Atomic.Prog.call c k) :=
  fun _ _ => ⟨hc, fun r _ => hk r⟩

theorem ApiIssues.bind {p : ApiProg α} {f : α → ApiProg β} (hp : ApiIssues grants p)
    (hf : ∀ a, ApiIssues grants (f a)) : ApiIssues grants (p.bind f) :=
  Atomic.Prog.Ensures.bind hp fun _ _ => hf

theorem liftBackend_issues {p : BackendProg α} (h : Issues grants p) :
    ApiIssues grants (liftBackend p) := by
  induction p with
  | ret a => trivial
  | call c k ih =>
      obtain ⟨hc, hk⟩ := h () le_rfl
      exact apiIssues_call hc fun r => ih r (hk r trivial)

theorem ApiIssues.granted {p : ApiProg α} (h : ApiIssues who.Grants p) :
    ApiIssues (Granted (some who)) p := by
  refine h.imp fun _ c hc => ?_
  cases c with
  | backend c => exact ⟨who, rfl, hc⟩
  | _ => trivial

theorem readWithinQuota_grants {claims : Claims} {resource : String} {k : ReadHandler}
    (hk : ApiIssues who.Grants k) : ApiIssues who.Grants (readWithinQuota claims resource k) := by
  refine ApiIssues.bind (liftBackend_issues (issues_call trivial fun r => ?_)) fun checked => ?_
  · rcases r with e | allowed
    · trivial
    · cases allowed <;> trivial
  · cases checked with
    | finished => exact hk
    | response r => trivial
    | panicked => trivial

theorem readAudited_grants {crypto : AuditCrypto} {signingKey : String} {c : AuditCall}
    (hc : c.claims = who) {k : ReadHandler} (hk : ApiIssues who.Grants k) :
    ApiIssues who.Grants (readAudited (recordAudit crypto signingKey c) k) := by
  subst hc
  refine (liftBackend_issues (liftDb_grants (recordAudit_grants crypto signingKey c))).bind
    fun recorded => ?_
  cases recorded with
  | error e => trivial
  | ok _ => exact hk

theorem readCounter_grants {key : DateTime → String} {k : Except String (Option UInt32) → ApiProg α}
    (hk : ∀ r, ApiIssues who.Grants (k r)) : ApiIssues who.Grants (readCounter key k) :=
  apiIssues_call trivial fun _ => apiIssues_call trivial hk

theorem usageToday_grants {key : DateTime → String}
    {k : UInt64 → ApiProg (Except String TenantCostDashboard)}
    (hk : ∀ n, ApiIssues who.Grants (k n)) : ApiIssues who.Grants (usageToday key k) := by
  refine readCounter_grants fun r => ?_
  cases r with
  | error e => trivial
  | ok value => exact hk _

theorem topRanked_grants {tenantId dimension : String}
    {k : List TenantCostDimensionUsage → ApiProg α} (hk : ∀ rows, ApiIssues who.Grants (k rows)) :
    ApiIssues who.Grants (topRanked tenantId dimension k) :=
  apiIssues_call trivial fun _ => apiIssues_call trivial fun _ => hk _

theorem enrichDimensionRows_grants (tenantId dimension : String)
    (rows : List TenantCostDimensionUsage) :
    ApiIssues who.Grants (enrichDimensionRows tenantId dimension rows) := by
  induction rows with
  | nil => trivial
  | cons row rows ih =>
      exact readCounter_grants fun _ => readCounter_grants fun _ => readCounter_grants fun _ =>
        ih.bind fun _ => trivial

theorem buildCostDashboard_grants (hrole : who.analystOrAdmin = true) (codec : PolicyCodec)
    (tenantId : String) : ApiIssues who.Grants (buildCostDashboard codec tenantId) := by
  refine (liftBackend_issues (loadTenantCostPolicy_grants hrole codec tenantId)).bind fun loaded => ?_
  cases loaded with
  | error e => trivial
  | ok policy =>
      refine usageToday_grants fun _ => usageToday_grants fun _ => usageToday_grants fun _ =>
        usageToday_grants fun _ => topRanked_grants fun _ => topRanked_grants fun _ =>
        topRanked_grants fun _ => ?_
      exact (enrichDimensionRows_grants _ _ _).bind fun _ => (enrichDimensionRows_grants _ _ _).bind
        fun _ => (enrichDimensionRows_grants _ _ _).bind fun _ => trivial

theorem readAccess_grants {tenantId : String} {days : ℕ}
    {k : List AccessReviewUser → List AuditEvent → ReadHandler}
    (hk : ∀ users auditEvents, ApiIssues who.Grants (k users auditEvents)) :
    ApiIssues who.Grants (readAccess tenantId days k) := by
  refine apiIssues_call trivial fun users => ?_
  cases users with
  | error e => trivial
  | ok users =>
      refine apiIssues_call trivial fun now => ?_
      split
      · trivial
      · refine apiIssues_call trivial fun auditEvents => ?_
        cases auditEvents with
        | error e => trivial
        | ok auditEvents => exact hk users auditEvents

theorem readWithClaims_granted {k : Claims → ReadHandler} (hk : ∀ who, ApiIssues who.Grants (k who)) :
    ApiIssues (Granted claims) (readWithClaims claims k) := by
  cases claims with
  | none => trivial
  | some who => exact (hk who).granted

theorem readAsAnalyst_granted {k : Claims → ReadHandler}
    (hk : ∀ who, who.analystOrAdmin = true → ApiIssues who.Grants (k who)) :
    ApiIssues (Granted claims) (readAsAnalyst claims k) := by
  refine readWithClaims_granted fun who => ?_
  split_ifs with hrole
  · exact hk who hrole
  · trivial

theorem readAsAdmin_granted {resource : String} {k : Claims → ReadHandler}
    (hk : ∀ who, ApiIssues who.Grants (k who)) :
    ApiIssues (Granted claims) (readAsAdmin claims resource k) := by
  refine readWithClaims_granted fun who => ?_
  split_ifs
  · exact readWithinQuota_grants (hk who)
  · trivial

/-- The rules are read by anybody. -/
theorem readRules_grants {tenantId : String} {k : Except String (List StoredRule) → ReadHandler}
    (hk : ∀ r, ApiIssues who.Grants (k r)) :
    ApiIssues who.Grants (Atomic.Prog.call (.backend (.data (.getAllRules tenantId))) k) :=
  apiIssues_call (Claims.grants_read rfl) hk

end reading

/-! ### Requests -/

theorem ApiRequest.prog_granted (crypto : AuditCrypto) (signingKey : String)
    (toRfc3339 : DateTime → String) (codec : PolicyCodec) (req : ApiRequest) :
    ApiIssues (Granted req.claims) (req.prog crypto signingKey toRfc3339 codec) := by
  obtain ⟨claims, call⟩ := req
  cases call with
  | mutate m => exact liftBackend_issues (handler_granted crypto signingKey toRfc3339 codec claims m)
  | listRules =>
      refine readWithClaims_granted fun who => readWithinQuota_grants (readRules_grants fun rules => ?_)
      cases rules <;> trivial
  | getRule id =>
      refine readWithClaims_granted fun who => readWithinQuota_grants ?_
      refine apiIssues_call (Claims.grants_read rfl) fun found => ?_
      rcases found with e | found
      · trivial
      · cases found <;> trivial
  | listDetectionPacks =>
      refine readAsAnalyst_granted fun who _ =>
        readWithinQuota_grants (readRules_grants fun rules => ?_)
      cases rules <;> trivial
  | getDetectionPack slug =>
      refine readAsAnalyst_granted fun who _ => ?_
      split
      · trivial
      · refine readRules_grants fun rules => ?_
        cases rules <;> trivial
  | listCases =>
      refine readAsAnalyst_granted fun who _ => readWithinQuota_grants ?_
      refine apiIssues_call trivial fun records => ?_
      cases records <;> trivial
  | getCase caseId =>
      refine readAsAnalyst_granted fun who hrole => readWithinQuota_grants ?_
      refine apiIssues_call (Claims.grants_data hrole _) fun found => ?_
      rcases found with e | found
      · trivial
      cases found with
      | none => trivial
      | some record =>
          refine ApiIssues.bind (apiIssues_call trivial fun alerts => ?_) fun detail => ?_
          · rcases alerts with e | alerts
            · trivial
            refine apiIssues_call trivial fun timeline => ?_
            rcases timeline with e | timeline
            · trivial
            dsimp only
            split
            · trivial
            · refine apiIssues_call (Claims.grants_data hrole _) fun playbook => ?_
              cases playbook <;> trivial
          · cases detail <;> trivial
  | listPlaybooks =>
      refine readAsAnalyst_granted fun who hrole =>
        (liftBackend_issues (listCasePlaybooks_grants hrole _)).bind fun playbooks => ?_
      cases playbooks <;> trivial
  | getCostPolicy =>
      refine readAsAnalyst_granted fun who hrole =>
        (liftBackend_issues (loadTenantCostPolicy_grants hrole codec _)).bind fun policy => ?_
      cases policy <;> trivial
  | getCostDashboard =>
      refine readAsAnalyst_granted fun who hrole => readWithinQuota_grants ?_
      refine (buildCostDashboard_grants hrole codec _).bind fun dashboard => ?_
      cases dashboard <;> trivial
  | getPolicy tenantId =>
      refine readAsAdmin_granted fun who => apiIssues_call trivial fun policy => ?_
      cases policy <;> trivial
  | accessReview tenantId =>
      exact readAsAdmin_granted fun who => readAccess_grants fun _ _ => readAudited_grants rfl trivial
  | evidenceBundle tenantId =>
      refine readAsAdmin_granted fun who => apiIssues_call trivial fun policy => ?_
      cases policy with
      | error e => trivial
      | ok policy =>
          exact readAccess_grants fun _ _ =>
            readAudited_grants rfl (apiIssues_call trivial fun _ => trivial)

/-! ### What granted commands leave -/

section frames

variable {who : Claims} {claims : Option Claims}

theorem AuditEvent.Names.stored {e : AuditEvent} (h : e.Names who) : e.stored.Names who :=
  ⟨h.tenantId, h.actorUserId, h.actorEmail, h.actorRoles, h.requestId⟩

/-- What holds of the database and of a successful result holds after the attempt. -/
theorem Tick.attempt_keeps {P : Database → Prop} {tick : Tick} {db : Database} {β : Type}
    {result : Except String (β × Database)} (htime : ∀ d now, P d → P (d.atTime now)) (hdb : P db)
    (hok : ∀ reply d, result = .ok (reply, d) → P d) : P (tick.attempt db result).2 := by
  rcases Tick.attempt_cases tick db result with hexec | ⟨reply, d, -, hresult, hexec⟩
  · rw [hexec]
    exact htime db _ hdb
  · rw [hexec]
    exact htime d _ (hok reply d hresult)

/-- A granted command leaves the alerts, and adds to the audit events only one that names its claims. -/
theorem Claims.GrantsDb.exec {c : DbCmd} (h : who.GrantsDb c) (tick : Tick) (db : Database) :
    (execDb tick c db).2.alerts = db.alerts ∧
      ∀ e ∈ (execDb tick c db).2.auditEvents, e ∈ db.auditEvents ∨ e.Names who := by
  let P (d : Database) : Prop :=
    d.alerts = db.alerts ∧ ∀ e ∈ d.auditEvents, e ∈ db.auditEvents ∨ e.Names who
  have htime : ∀ d now, P d → P (d.atTime now) := fun _ _ hd => hd
  have hdb : P db := ⟨rfl, fun e he => Or.inl he⟩
  have hread : ∀ {β : Type} (reply : β), P (tick.attempt db (.ok (reply, db))).2 := by
    intro β reply
    rw [Tick.attempt_read]
    exact hdb
  cases c with
  | purgeAuditEventsBefore policy cutoff => exact h.elim
  | purgeAlertsBefore policy cutoff => exact h.elim
  | deleteByQuery policy cutoff => exact h.elim
  | insertAuditEvent event =>
      refine Tick.attempt_keeps htime hdb fun reply d hok => ?_
      unfold Database.insertAuditEvent at hok
      split_ifs at hok
      obtain ⟨-, rfl⟩ := Prod.mk.inj (Except.ok.inj hok)
      refine ⟨rfl, fun e he => ?_⟩
      rcases List.mem_cons.mp he with rfl | he
      · exact Or.inr h.stored
      · exact Or.inl he
  | upsertTenantCompliancePolicy loaded policy =>
      refine Tick.attempt_keeps htime hdb fun reply d hok => ?_
      unfold Database.upsertTenantCompliancePolicy at hok
      split_ifs at hok
      obtain ⟨-, rfl⟩ := Prod.mk.inj (Except.ok.inj hok)
      exact hdb
  | now => exact hdb
  | newV4 => exact hdb
  | elasticClient => exact hdb
  | allowFixedWindow tenantId resource => exact hread _
  | latestAuditHash tenantId => exact hread _
  | getTenantCompliancePolicy tenantId => exact hread _
  | listTenantCompliancePolicies => exact hread _

/-- A command other than one of the database leaves it but for its clock. -/
theorem execBackend_db_of_not_db {c : BackendCmd} (h : ∀ dc, c ≠ .db dc) (tick : Tick) (b : Backend) :
    (execBackend tick c b).2.db = b.db.atTime tick.clock := by
  cases c with
  | db dc => exact absurd rfl (h dc)
  | data dc =>
      rcases execBackend_cases tick b dc with ⟨e, hexec⟩ | ⟨reply, data, -, -, hexec⟩ <;> rw [hexec]
  | getAlert tenantId id =>
      unfold execBackend
      cases tick.fault <;> rfl

/-- The same of a command of the API. -/
theorem Granted.exec_db {c : ApiCmd} (h : ApiGrants (Granted claims) c) (tick : ApiTick) (b : Backend) :
    (execApi tick c b).2.db.alerts = b.db.alerts ∧
      ∀ e ∈ (execApi tick c b).2.db.auditEvents,
        e ∈ b.db.auditEvents ∨ ∃ who, claims = some who ∧ e.Names who := by
  cases c with
  | backend c =>
      obtain ⟨who, rfl, hgrants⟩ := h
      by_cases hdb : ∃ dc, c = .db dc
      · obtain ⟨dc, rfl⟩ := hdb
        obtain ⟨halerts, hevents⟩ := Claims.GrantsDb.exec hgrants tick.toTick b.db
        exact ⟨halerts, fun e he => (hevents e he).imp_right fun hnames => ⟨who, rfl, hnames⟩⟩
      · have hsame : (execApi tick (.backend c) b).2.db = b.db.atTime tick.clock :=
          execBackend_db_of_not_db (fun dc heq => hdb ⟨dc, heq⟩) tick.toTick b
        rw [hsame]
        exact ⟨rfl, fun e he => Or.inl he⟩
  | _ => exact ⟨rfl, fun e he => Or.inl he⟩

/-- A table that the claims may not write stays. -/
theorem Granted.exec_rows {c : ApiCmd} (h : ApiGrants (Granted claims) c) {t : Table}
    (ht : ∀ who, claims = some who → who.mayWrite t = false) (tick : ApiTick) (b : Backend) :
    t.rows (execApi tick c b).2.data = t.rows b.data := by
  cases c with
  | backend c =>
      refine execBackend_rows (c := c) fun htable => ?_
      obtain ⟨who, hwho, hmay⟩ := Granted.mayWrite h htable
      rw [ht who hwho] at hmay
      cases hmay
  | _ => rfl

/-- The compliance policies stay unless an admin asks. -/
theorem Granted.exec_policies {c : ApiCmd} (h : ApiGrants (Granted claims) c)
    (hadmin : ∀ who, claims = some who → who.roles.contains "admin" = false) (tick : ApiTick)
    (b : Backend) : (execApi tick c b).2.db.policies = b.db.policies := by
  cases c with
  | backend c =>
      by_cases hdb : ∃ dc, c = .db dc
      · obtain ⟨dc, rfl⟩ := hdb
        show (execDb tick.toTick dc b.db).2.policies = b.db.policies
        refine execDb_policies fun l p heq => ?_
        subst heq
        obtain ⟨who, hwho, hgrants⟩ := h
        have hnot := hadmin who hwho
        rw [show who.roles.contains "admin" = true from hgrants] at hnot
        cases hnot
      · have hsame : (execApi tick (.backend c) b).2.db = b.db.atTime tick.clock :=
          execBackend_db_of_not_db (fun dc heq => hdb ⟨dc, heq⟩) tick.toTick b
        rw [hsame, Database.atTime_policies]
  | _ => rfl

end frames

/-! ### Runs -/

/-- What of a tenant takes a role to write: its cases, and its cost policy with the copy in Redis. -/
def TenantData.guardedOf (d : TenantData) (tenantId : String) :
    List CaseRecord × Option TenantDataCostPolicy × Option CachedText :=
  ((d.viewOf tenantId).cases, (d.viewOf tenantId).costPolicy, (d.viewOf tenantId).cachedCostPolicy)

section runs

variable {ι : Type} [DecidableEq ι] {codec : PolicyCodec} (crypto : AuditCrypto) (signingKey : String)
  (toRfc3339 : DateTime → String) (reqs : ι → ApiRequest) (b : Backend) (schedule : List (ι × ApiTick))

/-- What every granted command keeps, a run of the requests keeps. -/
theorem granted_run {J : Backend → Prop} (hb : J b)
    (hkeep : ∀ i c tick s, ApiGrants (Granted (reqs i).claims) c → J s → J (execApi tick c s).2) :
    J (Atomic.Pool.run execApi schedule
      (apiPool crypto signingKey toRfc3339 codec reqs b)).store := by
  refine (Atomic.Pool.ensures_run (R := fun _ _ => True)
    (Q := fun c => ∃ i, ApiGrants (Granted (reqs i).claims) c) (fun _ _ _ _ => trivial)
    (fun tick c s hs ⟨i, hi⟩ => hkeep i c tick s hi hs) hb (fun i => ?_) schedule).1
  exact ((reqs i).prog_granted crypto signingKey toRfc3339 codec).imp fun _ _ hc => ⟨i, hc⟩

/-- The command keeps what is guarded of the tenant, and a cache of own policies. -/
def KeepsGuarded (codec : PolicyCodec) (t : String) (c : ApiCmd) : Prop :=
  ∀ tick b, CostCacheOwn codec b.data → (execApi tick c b).2.data.guardedOf t = b.data.guardedOf t ∧
    CostCacheOwn codec (execApi tick c b).2.data

theorem keepsGuarded_of_spares {t : String} {administers : Prop} {c : ApiCmd}
    (h : ApiSpares codec t administers c) : KeepsGuarded codec t c := by
  intro tick b hcache
  refine ⟨?_, costCacheOwn_execApi h hcache⟩
  unfold TenantData.guardedOf
  rw [viewOf_execApi h]

/-- A member without a role writes no table that is guarded. -/
theorem keepsGuarded_of_granted {t : String} {who : Claims} (hrole : who.analystOrAdmin = false)
    {c : ApiCmd} (h : ApiGrants (Granted (some who)) c) : KeepsGuarded codec t c := by
  intro tick b hcache
  have hsame : ∀ table, (∀ w : Claims, w.mayWrite table = w.analystOrAdmin) →
      table.rows (execApi tick c b).2.data = table.rows b.data := by
    refine fun table htable => Granted.exec_rows h (fun w hw => ?_) tick b
    obtain rfl := Option.some.inj hw
    rw [htable, hrole]
  have hcases : (execApi tick c b).2.data.cases = b.data.cases := hsame .cases fun _ => rfl
  have hpolicies : (execApi tick c b).2.data.costPolicies = b.data.costPolicies :=
    hsame .costPolicies fun _ => rfl
  have hcached : (execApi tick c b).2.data.costCache = b.data.costCache := hsame .costCache fun _ => rfl
  unfold TenantData.guardedOf TenantData.viewOf CostCacheOwn
  rw [hcases, hpolicies, hcached]
  exact ⟨rfl, hcache⟩

theorem guardedOf_run (hcodec : codec.KeepsTenant) (hcache : CostCacheOwn codec b.data) {t : String}
    (hroles : ∀ i who, (reqs i).claims = some who → who.tenantId = t → who.analystOrAdmin = false) :
    (Atomic.Pool.run execApi schedule
      (apiPool crypto signingKey toRfc3339 codec reqs b)).store.data.guardedOf t =
        b.data.guardedOf t := by
  have hstart : b.data.guardedOf t = b.data.guardedOf t ∧ CostCacheOwn codec b.data := ⟨rfl, hcache⟩
  refine (Atomic.Pool.ensures_run (J := fun s => s.data.guardedOf t = b.data.guardedOf t ∧
    CostCacheOwn codec s.data) (R := ApiReplyOwn codec) (Q := KeepsGuarded codec t)
    (fun tick c s hs => apiReplyOwn_exec hs.2 c) (fun tick c s hs hc => ?_)
    (s := apiPool crypto signingKey toRfc3339 codec reqs b) hstart (fun i => ?_) schedule).1.1
  · obtain ⟨hguarded, hown⟩ := hc tick s hs.2
    exact ⟨hguarded.trans hs.1, hown⟩
  · by_cases hforeign : ForeignTo t (reqs i).claims
    · exact ((reqs i).prog_spared crypto signingKey toRfc3339 hcodec hforeign).imp
        fun _ _ => keepsGuarded_of_spares
    · unfold ForeignTo at hforeign
      push Not at hforeign
      obtain ⟨who, hwho, hmember⟩ := hforeign
      have hgranted := (reqs i).prog_granted crypto signingKey toRfc3339 codec
      rw [hwho] at hgranted
      exact Atomic.Prog.Ensures.of_replies (fun _ _ _ _ => trivial)
        (hgranted.imp fun _ _ => keepsGuarded_of_granted (hroles i who hwho hmember))

/-- **Roles bound requests**: any number of them, in any order of their commands, leave every table that
none of the requesters may write, the compliance policies unless one of them is an admin, the cases and
the cost policy of a tenant unless one of its own analysts or admins is among them, and the alerts; an
audit event they add names one of them. -/
theorem roles_bound_requests (hcodec : codec.KeepsTenant) (hcache : CostCacheOwn codec b.data) :
    let after := (Atomic.Pool.run execApi schedule
      (apiPool crypto signingKey toRfc3339 codec reqs b)).store
    (∀ table : Table, (∀ i who, (reqs i).claims = some who → who.mayWrite table = false) →
        table.rows after.data = table.rows b.data) ∧
      ((∀ i who, (reqs i).claims = some who → who.roles.contains "admin" = false) →
        after.db.policies = b.db.policies) ∧
      (∀ t, (∀ i who, (reqs i).claims = some who → who.tenantId = t → who.analystOrAdmin = false) →
        after.data.guardedOf t = b.data.guardedOf t) ∧
      after.db.alerts = b.db.alerts ∧
      ∀ e ∈ after.db.auditEvents,
        e ∈ b.db.auditEvents ∨ ∃ i who, (reqs i).claims = some who ∧ e.Names who := by
  refine ⟨fun table hmay => ?_, fun hadmin => ?_, fun t hroles => ?_, ?_, ?_⟩
  · exact granted_run crypto signingKey toRfc3339 reqs b schedule
      (J := fun s => table.rows s.data = table.rows b.data) rfl
      fun i c tick s hc hs => (Granted.exec_rows hc (hmay i) tick s).trans hs
  · exact granted_run crypto signingKey toRfc3339 reqs b schedule
      (J := fun s => s.db.policies = b.db.policies) rfl
      fun i c tick s hc hs => (Granted.exec_policies hc (hadmin i) tick s).trans hs
  · exact guardedOf_run crypto signingKey toRfc3339 reqs b schedule hcodec hcache hroles
  · exact granted_run crypto signingKey toRfc3339 reqs b schedule
      (J := fun s => s.db.alerts = b.db.alerts) rfl
      fun i c tick s hc hs => (Granted.exec_db hc tick s).1.trans hs
  · refine granted_run crypto signingKey toRfc3339 reqs b schedule
      (J := fun s => ∀ e ∈ s.db.auditEvents,
        e ∈ b.db.auditEvents ∨ ∃ i who, (reqs i).claims = some who ∧ e.Names who)
      (fun e he => Or.inl he) fun i c tick s hc hs e he => ?_
    rcases (Granted.exec_db hc tick s).2 e he with he | ⟨who, hwho, hnames⟩
    · exact hs e he
    · exact Or.inr ⟨i, who, hwho, hnames⟩

end runs

/-! ### A member without a role, and an analyst of another tenant -/

/-- A member of `t1` without a role deletes a rule; an analyst of `t2` resolves a case of `t1`. -/
def memberAndStranger : Bool → ApiRequest
  | true => ⟨some ⟨"u1", "t1", "a@b.c", [], none⟩, .mutate (.deleteRule "r1")⟩
  | false => ⟨ofT2 "analyst", .mutate (.updateCase "c1" { status := some .resolved })⟩

theorem memberAndStranger_bounded :
    let after := (Atomic.Pool.run execApi foreignSchedule
      (apiPool sampleCrypto "key" (fun _ => "") noCodec memberAndStranger twoOverdueCases)).store
    (∀ table : Table, (∀ i who, (memberAndStranger i).claims = some who → who.mayWrite table = false) →
        table.rows after.data = table.rows twoOverdueCases.data) ∧
      ((∀ i who, (memberAndStranger i).claims = some who → who.roles.contains "admin" = false) →
        after.db.policies = twoOverdueCases.db.policies) ∧
      (∀ t, (∀ i who, (memberAndStranger i).claims = some who → who.tenantId = t →
          who.analystOrAdmin = false) →
        after.data.guardedOf t = twoOverdueCases.data.guardedOf t) ∧
      after.db.alerts = twoOverdueCases.db.alerts ∧
      ∀ e ∈ after.db.auditEvents, e ∈ twoOverdueCases.db.auditEvents ∨
        ∃ i who, (memberAndStranger i).claims = some who ∧ e.Names who := by
  refine roles_bound_requests sampleCrypto "key" (fun _ => "") memberAndStranger twoOverdueCases
    foreignSchedule ?_ ?_
  · rintro p text h
    cases h
  · rintro tenantId cached h
    cases h

/-! ### What a request can do -/

section converse

variable (crypto : AuditCrypto) (signingKey : String) (toRfc3339 : DateTime → String)
  (codec : PolicyCodec)

/-- What a request alone leaves after some of its commands. -/
def alone (who : Claims) (call : ApiCall) (ticks : List ApiTick) (b : Backend) : Backend :=
  (Atomic.Pool.run execApi (ticks.map fun tick => ((), tick))
    (apiPool crypto signingKey toRfc3339 codec (fun _ => ⟨some who, call⟩) b)).store

/-- Some request with the claims changes `f` of some backend. -/
def CanChange {β : Type} (who : Claims) (f : Backend → β) : Prop :=
  ∃ call ticks b, f (alone crypto signingKey toRfc3339 codec who call ticks b) ≠ f b

/-- The pool of one program after its next command. -/
theorem run_single_call {c : ApiCmd} {k : c.Reply → ApiProg ApiResult} (b : Backend) (tick : ApiTick)
    (es : List (Unit × ApiTick)) :
    Atomic.Pool.run execApi (((), tick) :: es) ⟨fun _ => Atomic.Prog.call c k, b⟩ =
      Atomic.Pool.run execApi es ⟨fun _ => k (execApi tick c b).1, (execApi tick c b).2⟩ := rfl

/-- The rule of a tenant is deleted by any of its members. -/
theorem deleteRule_alone (who : Claims) (b : Backend) {r : StoredRule} (hown : r.tenantId = who.tenantId) :
    r ∉ (alone crypto signingKey toRfc3339 codec who (.mutate (.deleteRule r.id)) [apiTick, apiTick]
      b).data.rules := by
  have hrules : (alone crypto signingKey toRfc3339 codec who (.mutate (.deleteRule r.id))
      [apiTick, apiTick] b).data.rules =
        b.data.rules.filter fun row => !(row.key = (who.tenantId, r.id)) := rfl
  rw [hrules, List.mem_filter]
  rintro ⟨-, hkept⟩
  rw [show r.key = (who.tenantId, r.id) from Prod.ext hown rfl] at hkept
  simp at hkept

/-- One case of the tenant. -/
def caseOf (tenantId : String) : Backend where
  db := emptyDatabase
  data :=
    { emptyData with
      cases := [{ overdueCase "c1" "a1" with tenantId := tenantId }]
      cases_id := List.nodup_singleton _
      cases_alert := List.nodup_singleton _ }

theorem getCaseById_caseOf (tenantId : String) : (caseOf tenantId).data.getCaseById tenantId "c1" =
    some { overdueCase "c1" "a1" with tenantId := tenantId } := by
  simp [TenantData.getCaseById, caseOf, KeyedList.lookup, CaseRecord.key, overdueCase]

/-- The update of a case that is there. -/
theorem run_updateCase (d : TenantData) (now : DateTime) (uuid : Uuid) (loaded : CaseRecord)
    {tenantId : String} {id : Uuid} {columns : CaseColumns} (hstorable : columns.storable = true)
    {row : CaseRecord} (hrow : d.getCaseById tenantId id = some row) :
    ∃ data, (DataCmd.updateCase loaded tenantId id columns).run now uuid d =
        .ok (columns.write now row, data) ∧
      data.cases = d.casesUpdated now tenantId id columns := by
  show ∃ data, d.updateCase now tenantId id columns = _ ∧ _
  unfold TenantData.updateCase
  rw [hstorable, hrow]
  exact ⟨_, rfl, rfl⟩

/-- The outcome of the case that is written. -/
def benign : UpdateCaseRequest := { status := some .new, outcome := some "benign" }

/-- An analyst writes the outcome of a case. -/
theorem updateCase_alone (who : Claims) (hrole : who.analystOrAdmin = true) :
    (alone crypto signingKey toRfc3339 codec who (.mutate (.updateCase "c1" benign))
      [apiTick, apiTick, apiTick] (caseOf who.tenantId)).data.cases.map (·.outcome) = [some "benign"] := by
  let loaded : CaseRecord := { overdueCase "c1" "a1" with tenantId := who.tenantId }
  let columns := benign.update.columns loaded none none
  unfold alone apiPool ApiRequest.prog
  dsimp only [Mutation.handler, Api.updateCase, asAnalyst, withClaims]
  rw [if_pos hrole]
  -- within the quota
  let b : Backend := { caseOf who.tenantId with db := emptyDatabase.atTime apiTick.clock }
  show (Atomic.Pool.run execApi [((), apiTick), ((), apiTick)] ⟨fun _ =>
    Atomic.Prog.call (.backend (.data (.getCaseById who.tenantId "c1"))) _, b⟩).store.data.cases.map
      (·.outcome) = _
  have hread : execApi apiTick (.backend (.data (.getCaseById who.tenantId "c1"))) b =
      (.ok (some loaded), b) :=
    Prod.ext (congrArg Except.ok (getCaseById_caseOf who.tenantId)) rfl
  rw [run_single_call, hread]
  show (execApi apiTick (.backend (.data (.updateCase loaded who.tenantId "c1" columns))) b).2.data.cases.map
    (·.outcome) = _
  have hstorable : columns.storable = true := rfl
  obtain ⟨data, hrun, hcases⟩ := run_updateCase b.data apiTick.clock apiTick.uuid loaded hstorable
    (getCaseById_caseOf who.tenantId)
  show (execBackend apiTick.toTick (.data (.updateCase loaded who.tenantId "c1" columns)) b).2.data.cases.map
    (·.outcome) = _
  rw [execBackend_ok (b := b) (show apiTick.toTick.fault = none from rfl) hrun, hcases]
  simp [TenantData.casesUpdated, KeyedList.updateKey, b, caseOf, CaseRecord.key, overdueCase,
    CaseColumns.write, columns, CaseUpdate.columns, UpdateCaseRequest.update, benign]

theorem recordKeyRotation_alone (who : Claims) (hadmin : who.roles.contains "admin" = true) :
    (alone crypto signingKey toRfc3339 codec who (.mutate (.recordKeyRotation (some "t1")))
      (List.replicate 5 apiTick) twoOverdueCases).db.policies.length = 1 := by
  unfold alone apiPool ApiRequest.prog
  dsimp only [Mutation.handler, recordKeyRotation, loadPolicy]
  rw [hadmin]
  rfl

/-- The converse of `roles_bound_requests` for the rules, the cases and the compliance policies: what the
table of permissions grants, a request can do. -/
theorem writes_iff (who : Claims) :
    (∀ (b : Backend), ∀ r ∈ b.data.rules, r.tenantId = who.tenantId → ∃ call ticks,
        r ∉ (alone crypto signingKey toRfc3339 codec who call ticks b).data.rules) ∧
      (CanChange crypto signingKey toRfc3339 codec who (fun b => b.data.cases) ↔
        who.analystOrAdmin = true) ∧
      (CanChange crypto signingKey toRfc3339 codec who (fun b => b.db.policies) ↔
        who.roles.contains "admin" = true) := by
  refine ⟨fun b r _ hown => ⟨_, _, deleteRule_alone crypto signingKey toRfc3339 codec who b hown⟩,
    ⟨fun hchange => ?_, fun hrole => ?_⟩, ⟨fun hchange => ?_, fun hadmin => ?_⟩⟩
  · by_contra hrole
    obtain ⟨call, ticks, b, hdiff⟩ := hchange
    refine hdiff (granted_run crypto signingKey toRfc3339 _ b _
      (J := fun s => s.data.cases = b.data.cases) rfl fun i c tick s hc hs => ?_)
    refine (Granted.exec_rows (t := .cases) hc (fun w hw => ?_) tick s).trans hs
    obtain rfl := Option.some.inj hw
    exact Bool.eq_false_of_not_eq_true hrole
  · refine ⟨.mutate (.updateCase "c1" benign), [apiTick, apiTick, apiTick], caseOf who.tenantId,
      fun hsame => ?_⟩
    have hcases := updateCase_alone crypto signingKey toRfc3339 codec who hrole
    have hbefore := congrArg (List.map fun c : CaseRecord => c.outcome) hsame
    rw [hcases] at hbefore
    cases hbefore
  · by_contra hadmin
    obtain ⟨call, ticks, b, hdiff⟩ := hchange
    refine hdiff (granted_run crypto signingKey toRfc3339 _ b _
      (J := fun s => s.db.policies = b.db.policies) rfl fun i c tick s hc hs => ?_)
    refine (Granted.exec_policies hc (fun w hw => ?_) tick s).trans hs
    obtain rfl := Option.some.inj hw
    exact Bool.eq_false_of_not_eq_true hadmin
  · refine ⟨.mutate (.recordKeyRotation (some "t1")), List.replicate 5 apiTick, twoOverdueCases,
      fun hsame => ?_⟩
    have hlength := recordKeyRotation_alone crypto signingKey toRfc3339 codec who hadmin
    have hbefore := congrArg List.length hsame
    rw [hlength] at hbefore
    cases hbefore

end converse

end MiniSiem
