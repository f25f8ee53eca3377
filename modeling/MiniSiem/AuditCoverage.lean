import MiniSiem.CaseSweep
import MiniSiem.Handlers
import MiniSiem.Lib.Obligations

/-! # What the audit trail covers

Whether a change that a handler has stored is in the audit trail when the handler returns, whatever the
replies of the database and of Redis.

* **Events.**  A command with its reply stores a change (`stores`), stores an audit event of an action
  (`audits`), or fails in a way that the handlers do not ignore (`fails`).
* **Audit writes.**  The lookup, the hash, the signature and the insert of an audit write are the last
  thing a handler does; `Total` says of the code outside the repository that hashing and signing do not
  fail.
* **Coverage.**  `Mutation.audited_iff`: a change is covered exactly when no command fails after it. -/

namespace MiniSiem

open Atomic.Prog Atomic.Prog.Duty

/-! ### Events -/

/-- The commands that change a rule, a case with its timeline, or a policy.  The default playbooks of a
tenant, which reading the playbooks inserts as well, are not part of a request's change. -/
def BackendCmd.changes : BackendCmd → Bool
  | .data (.createRule _) => true
  | .data (.updateRule _ _ _ _) => true
  | .data (.deleteRule _ _) => true
  | .data (.insertCase _) => true
  | .data (.updateCase _ _ _ _) => true
  | .data (.insertLink _ _ _) => true
  | .data (.insertCaseEvent _) => true
  | .data (.upsertTenantDataCostPolicy _) => true
  | .db (.upsertTenantCompliancePolicy _ _) => true
  | _ => false

/-- The commands whose failure the handlers ignore. -/
def BackendCmd.ignored : BackendCmd → Bool
  | .data (.insertCaseEvent _) => true
  | .data (.setString _ _) => true
  | .data (.expire _ _) => true
  | _ => false

abbrev BackendEvent := Event BackendCmd BackendCmd.Reply

namespace BackendEvent

def failed : BackendEvent → Bool
  | ⟨.data _, .error _⟩ => true
  | ⟨.getAlert _ _, .error _⟩ => true
  | ⟨.db (.allowFixedWindow _ _), .error _⟩ => true
  | ⟨.db (.latestAuditHash _), .error _⟩ => true
  | ⟨.db (.insertAuditEvent _), .error _⟩ => true
  | ⟨.db (.getTenantCompliancePolicy _), .error _⟩ => true
  | ⟨.db (.upsertTenantCompliancePolicy _ _), .error _⟩ => true
  | _ => false

def stores (e : BackendEvent) : Bool := e.1.changes && !e.failed

def fails (e : BackendEvent) : Bool := e.failed && !e.1.ignored

/-- An audit event of the action is stored. -/
def audits (action : String) : BackendEvent → Bool
  | ⟨.db (.insertAuditEvent event), .ok _⟩ => event.action == action
  | _ => false

end BackendEvent

/-- A stored change has to be followed by an audit event of the action. -/
def auditDuty (action : String) : Duty BackendEvent where
  incurs e := e.stores = true
  discharges e := e.audits action = true
  fails e := e.fails = true

instance (action : String) : DecidablePred (auditDuty action).incurs :=
  fun e => inferInstanceAs (Decidable (e.stores = true))

instance (action : String) : DecidablePred (auditDuty action).discharges :=
  fun e => inferInstanceAs (Decidable (e.audits action = true))

instance (action : String) : DecidablePred (auditDuty action).fails :=
  fun e => inferInstanceAs (Decidable (e.fails = true))

/-! ### Rules for the commands of the tables -/

section rules

variable {action : String} {α β : Type}

/-- The program stores no change and no audit event. -/
abbrev Reads (action : String) (p : BackendProg α) : Prop :=
  Emits (fun e => ¬ (auditDuty action).incurs e ∧ ¬ (auditDuty action).discharges e) p

/-- The program stores no audit event and its failures are ignored. -/
abbrev Tolerated (action : String) (p : BackendProg α) : Prop :=
  Emits (fun e => ¬ (auditDuty action).discharges e ∧ ¬ (auditDuty action).fails e) p

theorem data_not_audits (c : DataCmd) (r : BackendCmd.Reply (.data c)) :
    ¬ (auditDuty action).discharges ⟨.data c, r⟩ :=
  fun h => Bool.false_ne_true h

theorem data_ok_not_fails {c : DataCmd} (reply : c.Out) :
    ¬ (auditDuty action).fails ⟨.data c, .ok reply⟩ :=
  fun h => Bool.false_ne_true h

theorem data_error_not_stores {c : DataCmd} (e : String) :
    ¬ (auditDuty action).incurs ⟨.data c, .error e⟩ := by
  show ¬ (_ && false) = true
  rw [Bool.and_false]
  exact Bool.false_ne_true

theorem reads_data {c : DataCmd} {k : Except String c.Out → BackendProg α}
    (h : BackendCmd.changes (.data c) = false) (hk : ∀ r, Reads action (k r)) :
    Reads action (.call (.data c) k) := by
  refine emits_call (fun r => ⟨?_, data_not_audits c r⟩) hk
  show ¬ (BackendCmd.changes (.data c) && _) = true
  rw [h]
  exact Bool.false_ne_true

theorem honest_read {c : DataCmd} {k : Except String c.Out → BackendProg α}
    (h : BackendCmd.changes (.data c) = false) (hk : ∀ r, Honest (auditDuty action) (k r)) :
    Honest (auditDuty action) (.call (.data c) k) :=
  honest_bind (reads_data h emits_ret) hk

/-- After a command that may store a change. -/
theorem honest_write {c : DataCmd} {k : Except String c.Out → BackendProg α}
    (h : BackendCmd.changes (.data c) = true) (herror : ∀ e, Honest (auditDuty action) (k (.error e)))
    (hok : ∀ r, Settles (auditDuty action) (k (.ok r))) :
    Honest (auditDuty action) (.call (.data c) k) := by
  refine honest_call (data_not_audits c) (fun r hr => ?_) fun r hr => ?_
  · cases r with
    | error e => exact herror e
    | ok reply =>
        refine absurd ?_ hr
        show (BackendCmd.changes (.data c) && true) = true
        rw [h]
        rfl
  · cases r with
    | error e => exact absurd hr (data_error_not_stores e)
    | ok reply => exact ⟨data_ok_not_fails reply, hok reply⟩

theorem tolerated_data {c : DataCmd} {k : Except String c.Out → BackendProg α}
    (h : BackendCmd.ignored (.data c) = true) (hk : ∀ r, Tolerated action (k r)) :
    Tolerated action (.call (.data c) k) := by
  refine emits_call (fun r => ⟨data_not_audits c r, ?_⟩) hk
  show ¬ (_ && !BackendCmd.ignored (.data c)) = true
  rw [h, Bool.not_true, Bool.and_false]
  exact Bool.false_ne_true

theorem settles_ignored {c : DataCmd} {k : Except String c.Out → BackendProg α}
    (h : BackendCmd.ignored (.data c) = true) (hk : ∀ r, Settles (auditDuty action) (k r)) :
    Settles (auditDuty action) (.call (.data c) k) :=
  settles_bind (tolerated_data h emits_ret) hk

/-- `?` before the rest of a handler. -/
theorem andThen_bind (c : DataCmd) (k : c.Out → BackendProg (Except String α))
    (f : Except String α → BackendProg β) :
    (andThen c k).bind f =
      .call (.data c) fun r => match r with
        | .error e => f (.error e)
        | .ok reply => (k reply).bind f := by
  unfold andThen
  rw [call_bind]
  congr 1
  funext r
  cases r <;> rfl

end rules

/-! ### Audit writes -/

/-- Every payload can be serialised, and a key of any length signs. -/
structure AuditCrypto.Total (crypto : AuditCrypto) : Prop where
  toVec_ok : ∀ payload, ∃ body, crypto.toVec payload = .ok body
  hmac_ok : ∀ signingKey hash, ∃ signature, crypto.hmacBase64 signingKey hash = .ok signature

theorem liftDb_bind {α β : Type} (p : DbProg α) (f : α → DbProg β) :
    liftDb (p.bind f) = (liftDb p).bind fun a => liftDb (f a) := by
  induction p with
  | ret a => rfl
  | call c k ih =>
      show Atomic.Prog.call _ _ = Atomic.Prog.call _ _
      congr 1
      funext r
      exact ih r

section auditWrites

variable {crypto : AuditCrypto} (hcrypto : crypto.Total) (signingKey : String)

include hcrypto in
/-- The audit write of an action settles it, if it is the last thing of the handler. -/
theorem recordAudit_settles {α : Type} {call : AuditCall} {f : Except String Unit → BackendProg α}
    (hf : ∀ result, ∃ a, f result = .ret a) :
    Settles (auditDuty call.action) ((liftDb (recordAudit crypto signingKey call)).bind f) := by
  have hsilent : ∀ result, Emits (fun e => ¬ (auditDuty call.action).discharges e) (f result) := by
    intro result
    obtain ⟨a, ha⟩ := hf result
    rw [ha]
    exact emits_ret a
  refine settles_call (fun _ => Bool.false_ne_true) (fun reply hreply => ?_) fun reply hreply => ?_
  · cases reply with
    | error e => exact absurd rfl hreply
    | ok previousHash =>
        obtain ⟨body, hbody⟩ := hcrypto.toVec_ok (auditPayload call.claims call.action
          call.resourceType call.resourceId call.targetTenantId call.metadata)
        obtain ⟨signature, hsign⟩ := hcrypto.hmac_ok signingKey
          (crypto.sha256Hex (previousHash.getD "" ++ body))
        have hhash : hashAuditPayload crypto previousHash (auditPayload call.claims call.action
            call.resourceType call.resourceId call.targetTenantId call.metadata) =
            .ok (crypto.sha256Hex (previousHash.getD "" ++ body)) := by
          unfold hashAuditPayload
          rw [hbody]
          rfl
        dsimp only
        rw [hhash]
        dsimp only
        rw [hsign]
        refine settles_call (fun _ => Bool.false_ne_true) (fun id _ => ?_)
          fun id h => absurd h Bool.false_ne_true
        refine settles_call (fun _ => Bool.false_ne_true) (fun createdAt _ => ?_)
          fun createdAt h => absurd h Bool.false_ne_true
        refine settles_last (fun reply => ?_) fun reply => ?_
        · cases reply with
          | error e => exact iff_of_false Bool.false_ne_true (fun h => h rfl)
          | ok reply => exact iff_of_true (beq_self_eq_true call.action) Bool.false_ne_true
        · cases reply with
          | error e => exact hf _
          | ok reply => exact hf _
  · cases reply with
    | error e => exact hsilent _
    | ok previousHash => exact absurd hreply Bool.false_ne_true

/-- It stores no change. -/
theorem recordAudit_honest {α : Type} {action : String} {call : AuditCall}
    {f : Except String Unit → BackendProg α} (hf : ∀ result, ∃ a, f result = .ret a) :
    Honest (auditDuty action) ((liftDb (recordAudit crypto signingKey call)).bind f) := by
  refine honest_of_emits (emits_bind ?_ fun result => ?_)
  · refine emits_call (fun _ => Bool.false_ne_true) fun reply => ?_
    cases reply with
    | error e => exact emits_ret _
    | ok previousHash =>
        dsimp only
        split
        · exact emits_ret _
        · split
          · exact emits_ret _
          · refine emits_call (fun _ => Bool.false_ne_true) fun id => ?_
            refine emits_call (fun _ => Bool.false_ne_true) fun createdAt => ?_
            refine emits_call (fun _ => Bool.false_ne_true) fun reply => ?_
            cases reply <;> exact emits_ret _
  · obtain ⟨a, ha⟩ := hf result
    rw [ha]
    exact emits_ret a

include hcrypto

theorem audited_settles {call : AuditCall} {status : ℕ} {body : Body} :
    Settles (auditDuty call.action)
      (audited (recordAudit crypto signingKey call) (reply status body)) :=
  recordAudit_settles hcrypto signingKey fun result => by cases result <;> exact ⟨_, rfl⟩

theorem unaudited_settles {call : AuditCall} {status : ℕ} {body : Body} :
    Settles (auditDuty call.action)
      (unaudited (recordAudit crypto signingKey call) (reply status body)) :=
  recordAudit_settles hcrypto signingKey fun _ => ⟨_, rfl⟩

omit hcrypto

theorem unaudited_honest {action : String} {call : AuditCall} {status : ℕ} {body : Body} :
    Honest (auditDuty action) (unaudited (recordAudit crypto signingKey call) (reply status body)) :=
  recordAudit_honest signingKey fun _ => ⟨_, rfl⟩

end auditWrites

/-! ### What the handlers begin with -/

section beginnings

variable {action : String}

theorem reply_honest (status : ℕ) (body : Body) : Honest (auditDuty action) (reply status body) :=
  honest_ret _

theorem withinQuota_honest {claims : Claims} {resource : String} {k : Handler}
    (hk : Honest (auditDuty action) k) : Honest (auditDuty action) (withinQuota claims resource k) := by
  refine honest_call (fun _ => Bool.false_ne_true) (fun r _ => ?_)
    fun r h => absurd h Bool.false_ne_true
  rcases r with e | _ | _
  · exact honest_ret _
  · exact honest_ret _
  · exact hk

theorem asMember_honest {claims : Option Claims} {k : Claims → Handler}
    (hk : ∀ claims, Honest (auditDuty action) (k claims)) :
    Honest (auditDuty action) (asMember claims k) := by
  cases claims with
  | none => exact reply_honest _ _
  | some claims => exact withinQuota_honest (hk claims)

theorem asAnalyst_honest {claims : Option Claims} {k : Claims → Handler}
    (hk : ∀ claims, Honest (auditDuty action) (k claims)) :
    Honest (auditDuty action) (asAnalyst claims k) := by
  cases claims with
  | none => exact reply_honest _ _
  | some claims =>
      show Honest _ (if claims.analystOrAdmin then _ else _)
      split_ifs
      · exact withinQuota_honest (hk claims)
      · exact reply_honest _ _

end beginnings

/-! ### Programs of the tables -/

section programs

variable {action : String} {f : Except String CaseRecord → Handler}

theorem recordCaseEvent_tolerated (tenantId : String) (caseId : Uuid) (eventType message : String)
    (actorUserId actorEmail : Option String) (metadata : Json) :
    Tolerated action
      (recordCaseEvent tenantId caseId eventType message actorUserId actorEmail metadata) := by
  refine emits_call (fun _ => ⟨Bool.false_ne_true, Bool.false_ne_true⟩) fun id => ?_
  refine tolerated_data rfl fun reply => ?_
  cases reply <;> exact emits_ret _

theorem recordCaseChanges_tolerated (tenantId : String) (caseId : Uuid) (existing record : CaseRecord)
    (columns : CaseColumns) :
    Tolerated action (recordCaseChanges tenantId caseId existing record columns) := by
  unfold recordCaseChanges
  refine emits_bind ?_ fun _ => emits_bind ?_ fun _ => emits_ret _
  · split_ifs
    · exact recordCaseEvent_tolerated _ _ _ _ _ _ _
    · exact emits_ret _
  · split_ifs
    · exact recordCaseEvent_tolerated _ _ _ _ _ _ _
    · exact emits_ret _

theorem recordSteps_tolerated (claims : Claims) (caseId : Uuid) (steps : List Json) :
    Tolerated action (recordSteps claims caseId steps) := by
  induction steps with
  | nil => exact emits_ret _
  | cons step steps ih => exact emits_bind (recordCaseEvent_tolerated _ _ _ _ _ _ _) fun _ => ih

theorem recordNewCase_tolerated (alert : Alert) (new : NewCase) (caseId : Uuid)
    (playbook : Option CasePlaybook) : Tolerated action (recordNewCase alert new caseId playbook) := by
  refine emits_bind (recordCaseEvent_tolerated _ _ _ _ _ _ _) fun _ => ?_
  refine emits_bind (recordCaseEvent_tolerated _ _ _ _ _ _ _) fun _ => ?_
  cases playbook with
  | none => exact emits_ret _
  | some playbook => exact emits_bind (recordCaseEvent_tolerated _ _ _ _ _ _ _) fun _ => emits_ret _

theorem stampTime_bind_honest {α : Type} {isNow : Bool} {time : Option DateTime}
    {k : Option DateTime → BackendProg α} {g : α → Handler}
    (hk : ∀ t, Honest (auditDuty action) ((k t).bind g)) :
    Honest (auditDuty action) ((stampTime isNow time k).bind g) := by
  unfold stampTime
  split_ifs
  · exact honest_call (fun _ => Bool.false_ne_true) (fun now _ => hk (some now))
      fun now h => absurd h Bool.false_ne_true
  · exact hk time

/-- `update_case`: what follows settles the obligation if the row has been written. -/
theorem updateCase_honest {tenantId : String} {caseId : Uuid} {update : CaseUpdate}
    (hf : ∀ result, Honest (auditDuty action) (f result))
    (hs : ∀ record, Settles (auditDuty action) (f (.ok record))) :
    Honest (auditDuty action) ((updateCase tenantId caseId update).bind f) := by
  unfold updateCase
  rw [andThen_bind]
  refine honest_read rfl fun found => ?_
  rcases found with e | _ | existing
  · exact hf _
  · exact hf _
  · refine stampTime_bind_honest fun escalatedAt => stampTime_bind_honest fun resolvedAt => ?_
    dsimp only
    rw [andThen_bind]
    refine honest_write rfl (fun e => hf _) fun record => ?_
    dsimp only
    rw [bind_assoc]
    exact settles_bind (recordCaseChanges_tolerated _ _ _ _ _) fun _ => hs record

theorem ensureDefaultCasePlaybooks_reads (tenantId : String) :
    Reads action (ensureDefaultCasePlaybooks tenantId) := by
  refine reads_data rfl fun reply => ?_
  cases reply with
  | error e => exact emits_ret _
  | ok existing =>
      dsimp only
      split_ifs
      · exact emits_ret _
      · refine emits_call (fun _ => ⟨Bool.false_ne_true, Bool.false_ne_true⟩) fun playbookId => ?_
        refine emits_call (fun _ => ⟨Bool.false_ne_true, Bool.false_ne_true⟩) fun now => ?_
        refine reads_data rfl fun reply => ?_
        cases reply <;> exact emits_ret _

theorem choosePlaybook_reads (tenantId : String) (playbookId : Option Uuid) :
    Reads action (choosePlaybook tenantId playbookId) := by
  cases playbookId with
  | some id =>
      refine reads_data rfl fun reply => ?_
      cases reply <;> exact emits_ret _
  | none =>
      refine emits_bind (emits_bind (ensureDefaultCasePlaybooks_reads tenantId) fun result => ?_)
        fun result => ?_
      · cases result with
        | error e => exact emits_ret _
        | ok u =>
            refine reads_data rfl fun reply => ?_
            cases reply <;> exact emits_ret _
      · cases result <;> exact emits_ret _

/-- `create_case_from_alert`: what follows settles the obligation if the case has been inserted. -/
theorem createCaseFromAlert_honest {alert : Alert} {new : NewCase} {playbookId : Option Uuid}
    {g : Except CaseFailure CaseRecord → Handler}
    (hg : ∀ result, Honest (auditDuty action) (g result))
    (hfailed : ∀ failure, Emits (fun e => ¬ (auditDuty action).discharges e) (g (.error failure)))
    (hs : ∀ record, Settles (auditDuty action) (g (.ok record))) :
    Honest (auditDuty action) ((createCaseFromAlert alert new playbookId).bind g) := by
  refine honest_read rfl fun found => ?_
  rcases found with e | _ | existing
  · exact hg _
  · rw [bind_assoc]
    refine honest_bind (ensureDefaultCasePlaybooks_reads _) fun ensured => ?_
    cases ensured with
    | error e => exact hg _
    | ok u =>
        dsimp only
        rw [bind_assoc]
        refine honest_bind (choosePlaybook_reads _ _) fun chosen => ?_
        cases chosen with
        | error e => exact hg _
        | ok playbook =>
            refine honest_call (fun _ => Bool.false_ne_true) (fun now _ => ?_)
              fun now h => absurd h Bool.false_ne_true
            refine honest_call (fun _ => Bool.false_ne_true) (fun caseId _ => ?_)
              fun caseId h => absurd h Bool.false_ne_true
            split
            · refine honest_write rfl (fun e => hg _) fun record => ?_
              -- the case is stored: a failure of the link loses it
              refine settles_call (data_not_audits _) (fun reply hreply => ?_) fun reply hreply => ?_
              · cases reply with
                | error e => exact absurd rfl hreply
                | ok u =>
                    dsimp only
                    rw [bind_assoc]
                    exact settles_bind (recordNewCase_tolerated _ _ _ _) fun _ => hs record
              · cases reply with
                | error e => exact hfailed _
                | ok u => exact absurd hreply Bool.false_ne_true
            · exact hg _
  · exact hg _

/-- `record_case_event` as the change itself. -/
theorem recordCaseEvent_honest {tenantId : String} {caseId : Uuid} {eventType message : String}
    {actorUserId actorEmail : Option String} {metadata : Json} {g : Except String Unit → Handler}
    (hg : ∀ result, Honest (auditDuty action) (g result))
    (hs : Settles (auditDuty action) (g (.ok ()))) :
    Honest (auditDuty action)
      ((recordCaseEvent tenantId caseId eventType message actorUserId actorEmail metadata).bind g) := by
  refine honest_call (fun _ => Bool.false_ne_true) (fun id _ => ?_)
    fun id h => absurd h Bool.false_ne_true
  rw [andThen_bind]
  exact honest_write rfl (fun e => hg _) fun _ => hs

theorem updateRule_honest {tenantId : String} {id : Uuid} {update : RuleUpdate}
    {g : Except String StoredRule → Handler} (hg : ∀ e, Honest (auditDuty action) (g (.error e)))
    (hs : ∀ rule, Settles (auditDuty action) (g (.ok rule))) :
    Honest (auditDuty action) ((updateRule tenantId id update).bind g) := by
  unfold updateRule
  rw [andThen_bind]
  refine honest_read rfl fun found => ?_
  rcases found with e | _ | existing
  · exact hg _
  · exact hg _
  · dsimp only
    rw [andThen_bind]
    exact honest_write rfl (fun e => hg _) hs

theorem cachePolicy_reads {α : Type} {key text : String} {k : BackendProg α} (hk : Reads action k) :
    Reads action (cachePolicy key text k) := by
  refine reads_data rfl fun reply => ?_
  cases reply with
  | error e => exact hk
  | ok u => exact reads_data rfl fun _ => hk

theorem loadStoredPolicy_reads (codec : PolicyCodec) (tenantId : String) :
    Reads action (loadStoredPolicy codec tenantId) := by
  refine reads_data rfl fun reply => ?_
  cases reply with
  | error e => exact emits_ret _
  | ok policy =>
      dsimp only
      split
      · exact emits_ret _
      · exact cachePolicy_reads (emits_ret _)

theorem loadTenantCostPolicy_reads (codec : PolicyCodec) (tenantId : String) :
    Reads action (loadTenantCostPolicy codec tenantId) := by
  refine reads_data rfl fun reply => ?_
  rcases reply with e | _ | raw
  · exact emits_ret _
  · exact loadStoredPolicy_reads codec tenantId
  · dsimp only
    split
    · exact emits_ret _
    · exact loadStoredPolicy_reads codec tenantId

/-- Every policy can be serialised. -/
def PolicyCodec.Total (codec : PolicyCodec) : Prop :=
  ∀ policy, ∃ text, codec.toString policy = .ok text

theorem saveTenantCostPolicy_honest {codec : PolicyCodec} (hcodec : codec.Total)
    {policy : TenantDataCostPolicy} {g : Except String TenantDataCostPolicy → Handler}
    (hg : ∀ e, Honest (auditDuty action) (g (.error e)))
    (hs : ∀ saved, Settles (auditDuty action) (g (.ok saved))) :
    Honest (auditDuty action) ((saveTenantCostPolicy codec policy).bind g) := by
  unfold saveTenantCostPolicy
  rw [andThen_bind]
  refine honest_write rfl (fun e => hg _) fun record => ?_
  obtain ⟨text, htext⟩ := hcodec record
  dsimp only
  rw [htext]
  refine settles_ignored rfl fun reply => ?_
  cases reply with
  | error e => exact hs record
  | ok u => exact settles_ignored rfl fun _ => hs record

/-- The rules of a pack: a rule that is not created ends the loop. -/
theorem createPackRules_settles {tenantId : String} {existing : List StoredRule}
    {g : Except String Unit → Handler} (hs : Settles (auditDuty action) (g (.ok ())))
    (hfailed : ∀ message, Emits (fun e => ¬ (auditDuty action).discharges e) (g (.error message)))
    (templates : List PackRuleTemplate) :
    Settles (auditDuty action) ((createPackRules tenantId existing templates).bind g) := by
  induction templates with
  | nil => exact hs
  | cons template templates ih =>
      unfold createPackRules
      split_ifs
      · exact ih
      · refine settles_call (data_not_audits _) (fun reply hreply => ?_) fun reply hreply => ?_
        · cases reply with
          | error e => exact absurd rfl hreply
          | ok rule => exact ih
        · cases reply with
          | error e => exact hfailed _
          | ok rule => exact absurd hreply Bool.false_ne_true

theorem createPackRules_honest {tenantId : String} {existing : List StoredRule}
    {g : Except String Unit → Handler} (hg : ∀ result, Honest (auditDuty action) (g result))
    (hs : Settles (auditDuty action) (g (.ok ())))
    (hfailed : ∀ message, Emits (fun e => ¬ (auditDuty action).discharges e) (g (.error message)))
    (templates : List PackRuleTemplate) :
    Honest (auditDuty action) ((createPackRules tenantId existing templates).bind g) := by
  induction templates with
  | nil => exact hg _
  | cons template templates ih =>
      unfold createPackRules
      split_ifs
      · exact ih
      · refine honest_write rfl (fun e => hg _) fun rule => ?_
        exact createPackRules_settles hs hfailed templates

end programs

/-! ### The handlers -/

/-- The action under which a handler records its change. -/
def Mutation.action : Mutation → String
  | createRule _ => "rule.create"
  | updateRule _ _ => "rule.update"
  | deleteRule _ => "rule.delete"
  | toggleRule _ => "rule.toggle"
  | installDetectionPack _ => "detection_pack.install"
  | createCase _ => "case.create"
  | updateCase _ _ => "case.update"
  | addTimelineEvent _ _ => "case.timeline_event"
  | runPlaybook _ _ => "case.playbook_run"
  | updateCostPolicy _ => "data_cost.policy_update"
  | updatePolicy _ _ => "compliance.policy.update"
  | recordKeyRotation _ => "compliance.key_rotation.record"

namespace Api

section handlers

variable {crypto : AuditCrypto} (hcrypto : crypto.Total) (signingKey : String) (claims : Option Claims)

include hcrypto

theorem createRule_honest (body : RuleCreate) :
    Honest (auditDuty "rule.create") (createRule crypto signingKey claims body) :=
  asMember_honest fun _ => honest_write rfl (fun _ => reply_honest _ _) fun _ =>
    audited_settles hcrypto signingKey

theorem updateRule_honest (id : Uuid) (body : RuleUpdate) :
    Honest (auditDuty "rule.update") (updateRule crypto signingKey claims id body) :=
  asMember_honest fun _ => MiniSiem.updateRule_honest (fun _ => reply_honest _ _) fun _ =>
    audited_settles hcrypto signingKey

theorem deleteRule_honest (id : Uuid) :
    Honest (auditDuty "rule.delete") (deleteRule crypto signingKey claims id) :=
  asMember_honest fun _ => honest_write rfl (fun _ => reply_honest _ _) fun _ =>
    audited_settles hcrypto signingKey

theorem toggleRule_honest (id : Uuid) :
    Honest (auditDuty "rule.toggle") (toggleRule crypto signingKey claims id) := by
  refine asMember_honest fun claims => ?_
  unfold toggleStoredRule
  rw [andThen_bind]
  refine honest_read rfl fun found => ?_
  rcases found with e | _ | rule
  · exact reply_honest _ _
  · exact reply_honest _ _
  · dsimp only
    rw [bind_assoc]
    exact MiniSiem.updateRule_honest (fun _ => reply_honest _ _) fun _ =>
      audited_settles hcrypto signingKey

theorem installDetectionPack_honest (slug : String) :
    Honest (auditDuty "detection_pack.install")
      (installDetectionPack crypto signingKey claims slug) := by
  refine asAnalyst_honest fun claims => ?_
  split
  · exact reply_honest _ _
  · refine honest_read rfl fun loaded => ?_
    cases loaded with
    | error e => exact reply_honest _ _
    | ok existing =>
        dsimp only
        rw [bind_assoc]
        refine createPackRules_honest (fun result => ?_) ?_ (fun message => emits_ret _) _
        · cases result with
          | error message => exact reply_honest _ _
          | ok u =>
              refine honest_read rfl fun refreshed => ?_
              cases refreshed with
              | error e => exact reply_honest _ _
              | ok rules => exact unaudited_honest signingKey
        · -- all rules are stored: the refresh and the audit write must succeed
          refine settles_call (data_not_audits _) (fun reply hreply => ?_) fun reply hreply => ?_
          · cases reply with
            | error e => exact absurd rfl hreply
            | ok rules => exact unaudited_settles hcrypto signingKey
          · cases reply with
            | error e => exact emits_ret _
            | ok rules => exact absurd hreply Bool.false_ne_true

theorem createCase_honest (body : CreateCaseRequest) :
    Honest (auditDuty "case.create") (createCase crypto signingKey claims body) := by
  refine asAnalyst_honest fun claims => ?_
  refine honest_call (fun _ => Bool.false_ne_true) (fun loaded _ => ?_)
    fun loaded h => absurd h Bool.false_ne_true
  rcases loaded with e | _ | alert
  · exact reply_honest _ _
  · exact reply_honest _ _
  · refine createCaseFromAlert_honest (fun result => ?_) (fun failure => ?_) fun record =>
      unaudited_settles hcrypto signingKey
    · rcases result with (e | _) | record
      · exact reply_honest _ _
      · exact honest_ret _
      · exact unaudited_honest signingKey
    · cases failure <;> exact emits_ret _

theorem updateCase_honest (caseId : Uuid) (body : UpdateCaseRequest) :
    Honest (auditDuty "case.update") (updateCase crypto signingKey claims caseId body) := by
  refine asAnalyst_honest fun claims => MiniSiem.updateCase_honest (fun result => ?_) fun record =>
    unaudited_settles hcrypto signingKey
  cases result with
  | error e =>
      dsimp only
      split_ifs <;> exact reply_honest _ _
  | ok record => exact unaudited_honest signingKey

theorem addTimelineEvent_honest (caseId : Uuid) (body : AddCaseEventRequest) :
    Honest (auditDuty "case.timeline_event")
      (addTimelineEvent crypto signingKey claims caseId body) := by
  refine asAnalyst_honest fun claims => ?_
  split_ifs
  · exact reply_honest _ _
  · refine honest_read rfl fun found => ?_
    rcases found with e | _ | record
    · exact reply_honest _ _
    · exact reply_honest _ _
    · refine recordCaseEvent_honest (fun result => ?_) (unaudited_settles hcrypto signingKey)
      cases result with
      | error e => exact reply_honest _ _
      | ok u => exact unaudited_honest signingKey

/-- The update of the case, and the events of the timeline, may all fail and the run goes on. -/
theorem startPlaybook_honest (claims : Claims) (record : CaseRecord) (playbook : CasePlaybook) :
    Honest (auditDuty "case.playbook_run")
      (startPlaybook crypto signingKey claims record playbook) := by
  have hsettles : Settles (auditDuty "case.playbook_run")
      (unaudited (recordCaseAudit crypto signingKey claims "case.playbook_run" (some record.id)
        (.obj [("playbook_id", .str playbook.id), ("playbook_name", .str playbook.name)]))
        (reply 200 (.json (.obj [("playbook", .str playbook.name), ("status", .str "ok")])))) :=
    unaudited_settles hcrypto signingKey
  have hsteps (steps : List Json) :
      Tolerated "case.playbook_run" (recordSteps claims record.id steps) :=
    recordSteps_tolerated claims record.id steps
  refine MiniSiem.updateCase_honest (fun _ => ?_) fun _ => ?_
  · refine honest_bind_settles (recordCaseEvent_tolerated _ _ _ _ _ _ _) (fun _ => ?_) fun _ => ?_
    · exact honest_bind_settles (hsteps _) (fun _ => unaudited_honest signingKey) fun _ => hsettles
    · exact settles_bind (hsteps _) fun _ => hsettles
  · refine settles_bind (recordCaseEvent_tolerated _ _ _ _ _ _ _) fun _ => ?_
    exact settles_bind (hsteps _) fun _ => hsettles

theorem runPlaybook_honest (caseId : Uuid) (playbookId : Option Uuid) :
    Honest (auditDuty "case.playbook_run")
      (runPlaybook crypto signingKey claims caseId playbookId) := by
  refine asAnalyst_honest fun claims => honest_read rfl fun found => ?_
  rcases found with e | _ | record
  · exact reply_honest _ _
  · exact reply_honest _ _
  · dsimp only
    split
    · exact reply_honest _ _
    · refine honest_read rfl fun loaded => ?_
      rcases loaded with e | _ | playbook
      · exact reply_honest _ _
      · exact reply_honest _ _
      · exact startPlaybook_honest hcrypto signingKey claims record playbook

theorem updateCostPolicy_honest {codec : PolicyCodec} (hcodec : codec.Total)
    (body : TenantDataCostPolicyUpdate) :
    Honest (auditDuty "data_cost.policy_update")
      (updateCostPolicy crypto signingKey codec claims body) := by
  refine asAnalyst_honest fun claims => honest_bind (loadTenantCostPolicy_reads _ _) fun loaded => ?_
  cases loaded with
  | error e => exact reply_honest _ _
  | ok policy =>
      exact saveTenantCostPolicy_honest hcodec (fun _ => reply_honest _ _) fun saved =>
        unaudited_settles hcrypto signingKey

end handlers

end Api

/-! ### The compliance handlers -/

section compliance

variable {action : String}

theorem liftTask_response_honest (r : HttpResponse) :
    Honest (auditDuty action) (liftTask (.ret (.response r))) :=
  honest_ret _

/-- A request that stores a policy after the policy of the tenant has been loaded. -/
theorem loadPolicy_honest {req : HttpRequest} {k : Claims → TenantCompliancePolicy → Task}
    (hk : ∀ claims policy, Honest (auditDuty action) (liftTask (k claims policy))) :
    Honest (auditDuty action) (liftTask (loadPolicy req k)) := by
  unfold loadPolicy
  split
  · exact liftTask_response_honest _
  · split_ifs
    · exact liftTask_response_honest _
    · refine honest_call (fun _ => Bool.false_ne_true) (fun quota _ => ?_)
        fun quota h => absurd h Bool.false_ne_true
      rcases quota with e | _ | _
      · exact liftTask_response_honest _
      · exact liftTask_response_honest _
      · refine honest_call (fun _ => Bool.false_ne_true) (fun loaded _ => ?_)
          fun loaded h => absurd h Bool.false_ne_true
        cases loaded with
        | error e => exact liftTask_response_honest _
        | ok policy => exact hk _ policy

theorem savePolicy_honest {crypto : AuditCrypto} (hcrypto : crypto.Total) (signingKey : String)
    (toRfc3339 : DateTime → String) (claims : Claims) (targetTenantId : String)
    (loaded policy : TenantCompliancePolicy) :
    Honest (auditDuty action) (liftTask
      (savePolicy crypto signingKey toRfc3339 claims action targetTenantId loaded policy)) := by
  refine honest_call (fun _ => Bool.false_ne_true) (fun saved hsaved => ?_) fun saved hsaved => ?_
  · cases saved with
    | error e => exact liftTask_response_honest _
    | ok record => exact absurd rfl hsaved
  · cases saved with
    | error e => exact absurd hsaved Bool.false_ne_true
    | ok record =>
        refine ⟨Bool.false_ne_true, ?_⟩
        dsimp only
        unfold recordComplianceAudit
        rw [liftDb_bind, bind_assoc]
        refine recordAudit_settles hcrypto signingKey fun result => ?_
        cases result <;> exact ⟨_, rfl⟩

theorem now_honest {k : DateTime → Task} (hk : ∀ now, Honest (auditDuty action) (liftTask (k now))) :
    Honest (auditDuty action) (liftTask (.call .now k)) :=
  honest_call (fun _ => Bool.false_ne_true) (fun now _ => hk now)
    fun _ h => absurd h Bool.false_ne_true

end compliance

/-! ### Coverage -/

theorem Mutation.handler_honest {crypto : AuditCrypto} (hcrypto : crypto.Total) (signingKey : String)
    (toRfc3339 : DateTime → String) {codec : PolicyCodec} (hcodec : codec.Total)
    (claims : Option Claims) (m : Mutation) :
    Honest (auditDuty m.action) (m.handler crypto signingKey toRfc3339 codec claims) := by
  cases m with
  | createRule body => exact Api.createRule_honest hcrypto signingKey claims body
  | updateRule id body => exact Api.updateRule_honest hcrypto signingKey claims id body
  | deleteRule id => exact Api.deleteRule_honest hcrypto signingKey claims id
  | toggleRule id => exact Api.toggleRule_honest hcrypto signingKey claims id
  | installDetectionPack slug => exact Api.installDetectionPack_honest hcrypto signingKey claims slug
  | createCase body => exact Api.createCase_honest hcrypto signingKey claims body
  | updateCase caseId body => exact Api.updateCase_honest hcrypto signingKey claims caseId body
  | addTimelineEvent caseId body =>
      exact Api.addTimelineEvent_honest hcrypto signingKey claims caseId body
  | runPlaybook caseId playbookId =>
      exact Api.runPlaybook_honest hcrypto signingKey claims caseId playbookId
  | updateCostPolicy body => exact Api.updateCostPolicy_honest hcrypto signingKey claims hcodec body
  | updatePolicy tenantId body =>
      exact loadPolicy_honest fun _ _ => now_honest fun _ =>
        savePolicy_honest hcrypto signingKey toRfc3339 _ _ _ _
  | recordKeyRotation tenantId =>
      exact loadPolicy_honest fun _ _ => now_honest fun _ => now_honest fun _ =>
        savePolicy_honest hcrypto signingKey toRfc3339 _ _ _ _

/-- Whatever the replies, a change that a handler has stored is in the audit trail exactly when no
command fails after it, the timeline events and the texts in Redis apart. -/
theorem Mutation.audited_iff {crypto : AuditCrypto} (hcrypto : crypto.Total) (signingKey : String)
    (toRfc3339 : DateTime → String) {codec : PolicyCodec} (hcodec : codec.Total)
    (claims : Option Claims) (m : Mutation) {events : List BackendEvent} {result : ApiResult}
    (h : Trace (m.handler crypto signingKey toRfc3339 codec claims) events result) :
    (auditDuty m.action).Kept events ↔ (auditDuty m.action).Unfailing events :=
  m.handler_honest hcrypto signingKey toRfc3339 hcodec claims events result h

/-! ### A rule of a tenant -/

theorem sampleCrypto_total : sampleCrypto.Total :=
  ⟨fun _ => ⟨_, rfl⟩, fun _ hash => ⟨hash, rfl⟩⟩

/-- Texts that no policy is read from. -/
def sampleCodec : PolicyCodec := ⟨fun policy => .ok policy.tenantId, fun _ => none⟩

theorem sampleCodec_total : sampleCodec.Total := fun policy => ⟨policy.tenantId, rfl⟩

def ruleCreated : Mutation :=
  .createRule
    { tenantId := "t1", name := "r1", description := none, ruleType := "threshold"
      severity := "high", threshold := some 5, windowSeconds := some 60, condition := none }

/-- The handler alone on empty tables; the fault hits the insert of the audit event. -/
def execAudited (fault : Option String) (c : BackendCmd) (b : Backend) : c.Reply × Backend :=
  execBackend (match c with
    | .db (.insertAuditEvent _) => { firstTick with fault := fault }
    | _ => firstTick) c b

def createdEvents (fault : Option String) : List BackendEvent :=
  record (execAudited fault)
    (ruleCreated.handler sampleCrypto "key" (fun _ => "") sampleCodec (some ruleDeleted.claims))
    ⟨emptyDatabase, emptyData⟩

theorem createdRule_audited :
    (∃ e ∈ createdEvents none, (auditDuty "rule.create").incurs e) ∧
      (auditDuty "rule.create").Kept (createdEvents none) :=
  ⟨by decide +kernel, (Mutation.audited_iff sampleCrypto_total "key" (fun _ => "") sampleCodec_total
    (some ruleDeleted.claims) ruleCreated (trace_record _ _ _)).mpr (by decide +kernel)⟩

/-- A rule is stored and its audit event is not. -/
theorem createdRule_not_audited :
    ¬ ∀ (crypto : AuditCrypto) (signingKey : String) (toRfc3339 : DateTime → String)
      (codec : PolicyCodec) (claims : Option Claims) (m : Mutation) (events : List BackendEvent)
      (result : ApiResult), crypto.Total → codec.Total →
        Trace (m.handler crypto signingKey toRfc3339 codec claims) events result →
          (auditDuty m.action).Kept events := by
  intro h
  have hkept := h sampleCrypto "key" (fun _ => "") sampleCodec (some ruleDeleted.claims) ruleCreated
    (createdEvents (some "connection reset")) _ sampleCrypto_total sampleCodec_total
    (trace_record _ _ _)
  exact absurd hkept (by decide +kernel)

end MiniSiem
