import MiniSiem.CaseSweep
import MiniSiem.LegalHold
import MiniSiem.Lib.RowUpdates

/-! # Concurrent updates of one row

The functions that change some fields of a row: `update_case`, `update_rule` with `toggle_rule`, and
the two handlers that write a compliance policy.  Each reads the row, computes all columns from what
it has read, and writes them back without a version check.

* **Fields.**  `CaseField`, `RuleField` and `PolicyField` are the fields that a call can ask to change;
  a status counts as `update_case` reads it back, a time as its column returns it.
* **Calls.**  `call` says which fields a request changes and which values it gives them.
* **Result.**  `disjoint_updates_kept_iff`: the row keeps the values of two calls on different fields
  exactly when every write was computed from a row with the stored values in the other call's
  fields. -/

namespace MiniSiem

open RowUpdate

/-! ### Cases -/

inductive CaseField
  | status
  | ownerUserId
  | ownerEmail
  | outcome
  | postmortemSummary

abbrev CaseField.Value : CaseField → Type
  | status => CaseStatus
  | ownerUserId => Option String
  | ownerEmail => Option String
  | outcome => Option String
  | postmortemSummary => Option String

/-- The status as `update_case` reads it. -/
def CaseRecord.caseStatus (c : CaseRecord) : CaseStatus := (CaseStatus.fromStr c.status).getD .new

def CaseField.get (c : CaseRecord) : (f : CaseField) → f.Value
  | status => c.caseStatus
  | ownerUserId => c.ownerUserId
  | ownerEmail => c.ownerEmail
  | outcome => c.outcome
  | postmortemSummary => c.postmortemSummary

/-- The same of the columns an update writes. -/
def CaseColumns.get (c : CaseColumns) : (f : CaseField) → f.Value
  | .status => (CaseStatus.fromStr c.status).getD .new
  | .ownerUserId => c.ownerUserId
  | .ownerEmail => c.ownerEmail
  | .outcome => c.outcome
  | .postmortemSummary => c.postmortemSummary

/-- The value a call asks for, if it asks for one. -/
def CaseUpdate.value (update : CaseUpdate) : (f : CaseField) → Option f.Value
  | .status => update.status
  | .ownerUserId => update.ownerUserId
  | .ownerEmail => update.ownerEmail
  | .outcome => update.outcome
  | .postmortemSummary => update.postmortemSummary

def CaseUpdate.call (update : CaseUpdate) : Call fun f : CaseField => Option f.Value :=
  .ofValues fun f => (update.value f).map some

/-- The row of one case. -/
def caseAccess (key : String × Uuid) :
    Access execBackend fun f : CaseField => Option f.Value where
  field b f := (b.data.getCaseById key.1 key.2).map fun c => f.get c
  allowed
    | .data (.insertCase _) => False
    | _ => True
  possible _ _ := True
  reads
    | .data (.getCaseById tenantId id), .ok (some c) =>
        if (tenantId, id) = key then some fun f => some (f.get c) else none
    | _, _ => none
  writes
    | .data (.updateCase loaded tenantId id columns), .ok _ =>
        if (tenantId, id) = key then
          some (fun f => some (f.get loaded), fun f => some (columns.get f))
        else none
    | _, _ => none
  of_possible _ _ _ := trivial
  of_reads e c b r h := by
    cases c with
    | data dc =>
        cases dc with
        | getCaseById tenantId id =>
            rcases execBackend_cases e b (.getCaseById tenantId id) with
              ⟨err, hexec⟩ | ⟨reply, data, -, hrun, hexec⟩
            · rw [hexec] at h
              cases h
            · rw [hexec] at h
              obtain ⟨rfl, -⟩ := Prod.mk.inj (Except.ok.inj hrun)
              cases hfound : b.data.getCaseById tenantId id with
              | none =>
                  rw [hfound] at h
                  cases h
              | some c =>
                  rw [hfound] at h
                  dsimp only at h
                  split_ifs at h with hkey
                  subst hkey
                  rw [← Option.some.inj h, hfound]
                  rfl
        | _ => cases h
    | _ => cases h
  of_writes e c b l w h := by
    cases c with
    | data dc =>
        cases dc with
        | updateCase loaded tenantId id columns =>
            rcases execBackend_cases e b (.updateCase loaded tenantId id columns) with
              ⟨err, hexec⟩ | ⟨reply, data, -, hrun, hexec⟩
            · rw [hexec] at h
              cases h
            · rw [hexec] at h ⊢
              dsimp only at h
              split_ifs at h with hkey
              subst hkey
              obtain ⟨row, _, _, hrow, rfl, rfl⟩ := TenantData.updateCase_ok hrun
              rw [← (Prod.mk.inj (Option.some.inj h)).2]
              show (fun f => (KeyedList.lookup CaseRecord.key (tenantId, id) _).map _) = _
              rw [TenantData.lookup_casesUpdated, if_pos rfl, hrow]
              funext f
              cases f <;> rfl
        | _ => cases h
    | _ => cases h
  of_not_writes e c b hallowed h := by
    have hinsert : ∀ r, c ≠ .data (.insertCase r) := by
      rintro r rfl
      exact hallowed
    rcases getCaseById_exec e b hinsert key.1 key.2 with hsame | ⟨loaded, columns, rfl, -, hnew⟩
    · rw [hsame]
    · rcases execBackend_cases e b (.updateCase loaded key.1 key.2 columns) with
        ⟨err, hexec⟩ | ⟨reply, data, -, -, hexec⟩
      · rw [hexec]
      · rw [hexec] at h
        dsimp only at h
        rw [if_pos rfl] at h
        cases h

/-- Every printed status is read back. -/
theorem CaseStatus.fromStr_toString (st : CaseStatus) : CaseStatus.fromStr st.toString = some st := by
  cases st <;> decide +kernel

section cases

variable {tenantId : String} {id : Uuid}

theorem neutral_case_now : Neutral (caseAccess (tenantId, id)) (.db .now) :=
  ⟨trivial, fun _ => ⟨rfl, rfl⟩⟩

theorem neutral_case_newV4 : Neutral (caseAccess (tenantId, id)) (.db .newV4) :=
  ⟨trivial, fun _ => ⟨rfl, rfl⟩⟩

theorem neutral_case_event (e : CaseEvent) :
    Neutral (caseAccess (tenantId, id)) (.data (.insertCaseEvent e)) :=
  ⟨trivial, fun _ => ⟨rfl, rfl⟩⟩

theorem follows_stampTime {α : Type} {ok : α → Prop} {call : Call fun f : CaseField => Option f.Value}
    {phase : Phase fun f : CaseField => Option f.Value} {isNow : Bool} {time : Option DateTime}
    {k : Option DateTime → BackendProg α}
    (h : ∀ t, Follows (caseAccess (tenantId, id)) ok call phase (k t)) :
    Follows (caseAccess (tenantId, id)) ok call phase (stampTime isNow time k) := by
  unfold stampTime
  split_ifs
  · exact follows_call_of_neutral neutral_case_now fun now => h (some now)
  · exact h time

/-- A column is the value asked for, or the one read. -/
theorem CaseUpdate.columns_get (update : CaseUpdate) (existing : CaseRecord)
    (escalatedAt resolvedAt : Option DateTime) (f : CaseField) :
    (update.columns existing escalatedAt resolvedAt).get f =
      (update.value f).getD (f.get existing) := by
  cases f with
  | status =>
      show (CaseStatus.fromStr (update.nextStatus existing).toString).getD .new = _
      rw [CaseStatus.fromStr_toString, Option.getD_some]
      rfl
  | _ => rfl

theorem CaseUpdate.edits (update : CaseUpdate) (existing : CaseRecord)
    (escalatedAt resolvedAt : Option DateTime) :
    update.call.Edits (fun f => some (f.get existing))
      (fun f => some ((update.columns existing escalatedAt resolvedAt).get f)) := by
  refine Call.edits_ofValues fun f => ?_
  rw [update.columns_get]
  cases update.value f <;> rfl

/-- `ok` of a result. -/
def Succeeded {α : Type} (result : Except String α) : Prop := ∃ a, result = .ok a

theorem follows_updateCase (update : CaseUpdate) :
    Follows (caseAccess (tenantId, id)) Succeeded update.call .start (updateCase tenantId id update) := by
  refine ⟨trivial, fun reply _ => ?_⟩
  rcases reply with e | found
  · refine .of_neither rfl rfl ?_
    rintro ⟨_, h⟩
    cases h
  cases found with
  | none =>
      refine .of_neither rfl rfl ?_
      rintro ⟨_, h⟩
      cases h
  | some existing =>
      refine .of_read rfl (if_pos rfl) (fun h => by cases h) ?_
      refine follows_stampTime fun escalatedAt => follows_stampTime fun resolvedAt => ?_
      refine ⟨trivial, fun reply _ => ?_⟩
      rcases reply with e | record
      · refine .of_neither rfl rfl ?_
        rintro ⟨_, h⟩
        cases h
      · refine .of_write (if_pos rfl) rfl (update.edits existing escalatedAt resolvedAt) ?_
        refine follows_bind_of_neutral ?_ fun _ _ => rfl
        exact recordCaseChanges_issues neutral_case_newV4 neutral_case_event _ _ _ _ _

end cases

/-! ### Rules -/

inductive RuleField
  | name
  | description
  | severity
  | threshold
  | windowSeconds
  | condition
  | isEnabled

abbrev RuleField.Value : RuleField → Type
  | name => String
  | description => Option String
  | severity => String
  | threshold => Option Int32
  | windowSeconds => Option Int32
  | condition => Option Json
  | isEnabled => Bool

def RuleField.get (r : StoredRule) : (f : RuleField) → f.Value
  | name => r.name
  | description => r.description
  | severity => r.severity
  | threshold => r.threshold
  | windowSeconds => r.windowSeconds
  | condition => r.condition
  | isEnabled => r.isEnabled

def RuleColumns.get (c : RuleColumns) : (f : RuleField) → f.Value
  | .name => c.name
  | .description => c.description
  | .severity => c.severity
  | .threshold => c.threshold
  | .windowSeconds => c.windowSeconds
  | .condition => c.condition
  | .isEnabled => c.isEnabled

/-- The value a call asks for.  It cannot ask for a nullable column to become null. -/
def RuleUpdate.value (update : RuleUpdate) : (f : RuleField) → Option f.Value
  | .name => update.name
  | .description => update.description.map some
  | .severity => update.severity
  | .threshold => update.threshold.map some
  | .windowSeconds => update.windowSeconds.map some
  | .condition => update.condition.map some
  | .isEnabled => update.isEnabled

inductive RuleCall
  | update (changes : RuleUpdate)
  | toggle

def RuleCall.prog (tenantId : String) (id : Uuid) :
    RuleCall → BackendProg (Except String (Option StoredRule))
  | update changes => (updateRule tenantId id changes).bind fun result => .ret (result.map some)
  | toggle => toggleStoredRule tenantId id

/-- A toggle changes the flag; the value it stores is the opposite of the one it has read first. -/
def RuleCall.call : RuleCall → Call fun f : RuleField => Option f.Value
  | update changes => .ofValues fun f => (changes.value f).map some
  | toggle =>
      { fields := fun f => match f with
          | .isEnabled => true
          | _ => false
        values := fun _ => True }

/-- The row of one rule. -/
def ruleAccess (key : String × Uuid) :
    Access execBackend fun f : RuleField => Option f.Value where
  field b f := (b.data.getRuleById key.1 key.2).map fun r => f.get r
  allowed
    | .data (.createRule _) | .data (.deleteRule _ _) => False
    | _ => True
  possible _ _ := True
  reads
    | .data (.getRuleById tenantId id), .ok (some r) =>
        if (tenantId, id) = key then some fun f => some (f.get r) else none
    | _, _ => none
  writes
    | .data (.updateRule loaded tenantId id columns), .ok _ =>
        if (tenantId, id) = key then
          some (fun f => some (f.get loaded), fun f => some (columns.get f))
        else none
    | _, _ => none
  of_possible _ _ _ := trivial
  of_reads e c b r h := by
    cases c with
    | data dc =>
        cases dc with
        | getRuleById tenantId id =>
            rcases execBackend_cases e b (.getRuleById tenantId id) with
              ⟨err, hexec⟩ | ⟨reply, data, -, hrun, hexec⟩
            · rw [hexec] at h
              cases h
            · rw [hexec] at h
              obtain ⟨rfl, -⟩ := Prod.mk.inj (Except.ok.inj hrun)
              cases hfound : b.data.getRuleById tenantId id with
              | none =>
                  rw [hfound] at h
                  cases h
              | some found =>
                  rw [hfound] at h
                  dsimp only at h
                  split_ifs at h with hkey
                  subst hkey
                  rw [← Option.some.inj h, hfound]
                  rfl
        | _ => cases h
    | _ => cases h
  of_writes e c b l w h := by
    cases c with
    | data dc =>
        cases dc with
        | updateRule loaded tenantId id columns =>
            rcases execBackend_cases e b (.updateRule loaded tenantId id columns) with
              ⟨err, hexec⟩ | ⟨reply, data, -, hrun, hexec⟩
            · rw [hexec] at h
              cases h
            · rw [hexec] at h ⊢
              dsimp only at h
              split_ifs at h with hkey
              subst hkey
              obtain ⟨row, _, _, hrow, rfl, rfl⟩ := TenantData.updateRule_ok hrun
              rw [← (Prod.mk.inj (Option.some.inj h)).2]
              show (fun f => (KeyedList.lookup StoredRule.key (tenantId, id) _).map _) = _
              rw [TenantData.lookup_rulesUpdated, if_pos rfl, hrow]
              funext f
              cases f <;> rfl
        | _ => cases h
    | _ => cases h
  of_not_writes e c b hallowed h := by
    by_cases htable : c.table = some .rules
    · cases c with
      | data dc =>
          cases dc with
          | createRule r => exact hallowed.elim
          | deleteRule tenantId id => exact hallowed.elim
          | updateRule loaded tenantId id columns =>
              rcases execBackend_cases e b (.updateRule loaded tenantId id columns) with
                ⟨err, hexec⟩ | ⟨reply, data, -, hrun, hexec⟩
              · rw [hexec]
              · rw [hexec] at h ⊢
                dsimp only at h
                split_ifs at h with hkey
                obtain ⟨_, _, _, -, -, rfl⟩ := TenantData.updateRule_ok hrun
                show (fun f => (KeyedList.lookup StoredRule.key key _).map _) = _
                rw [TenantData.lookup_rulesUpdated, if_neg (Ne.symm hkey)]
          | _ => cases htable
      | _ => cases htable
    · have hrules : (execBackend e c b).2.data.rules = b.data.rules :=
        execBackend_rows (t := .rules) htable
      unfold TenantData.getRuleById
      rw [hrules]

theorem optionOr_eq_getD {α : Type} (given old : Option α) :
    (given <|> old) = (given.map some).getD old := by
  cases given <;> rfl

theorem RuleUpdate.columns_get (update : RuleUpdate) (existing : StoredRule) (f : RuleField) :
    (update.columns existing).get f = (update.value f).getD (f.get existing) := by
  cases f with
  | description => exact optionOr_eq_getD update.description existing.description
  | threshold => exact optionOr_eq_getD update.threshold existing.threshold
  | windowSeconds => exact optionOr_eq_getD update.windowSeconds existing.windowSeconds
  | condition => exact optionOr_eq_getD update.condition existing.condition
  | _ => rfl

section rules

variable {tenantId : String} {id : Uuid}

/-- The row was found and updated. -/
def UpdatedRule (result : Except String (Option StoredRule)) : Prop := ∃ r, result = .ok (some r)

/-- The update of a rule, whatever has been read before. -/
theorem follows_updateRule {call : Call fun f : RuleField => Option f.Value}
    {phase : Phase fun f : RuleField => Option f.Value} (hphase : phase ≠ .stored)
    {changes : RuleUpdate}
    (hedits : ∀ existing, call.Edits (fun f => some (f.get existing))
      (fun f => some ((changes.columns existing).get f))) :
    Follows (ruleAccess (tenantId, id)) UpdatedRule call phase
      ((updateRule tenantId id changes).bind fun result => .ret (result.map some)) := by
  have hfails : ∀ e : String, UpdatedRule (.error e) → phase = .stored := by
    rintro e ⟨_, h⟩
    cases h
  refine ⟨trivial, fun reply _ => ?_⟩
  rcases reply with e | found
  · exact .of_neither rfl rfl (hfails _)
  cases found with
  | none => exact .of_neither rfl rfl (hfails _)
  | some existing =>
      refine .of_read rfl (if_pos rfl) hphase ?_
      refine ⟨trivial, fun reply _ => ?_⟩
      rcases reply with e | record
      · refine .of_neither rfl rfl ?_
        rintro ⟨_, h⟩
        cases h
      · exact .of_write (if_pos rfl) rfl (hedits existing) fun _ => rfl

theorem follows_ruleCall (c : RuleCall) :
    Follows (ruleAccess (tenantId, id)) UpdatedRule c.call .start (c.prog tenantId id) := by
  cases c with
  | update changes =>
      refine follows_updateRule (fun h => by cases h) fun existing => ?_
      refine Call.edits_ofValues fun f => ?_
      rw [changes.columns_get]
      cases changes.value f <;> rfl
  | toggle =>
      refine ⟨trivial, fun reply _ => ?_⟩
      rcases reply with e | found
      · refine .of_neither rfl rfl ?_
        rintro ⟨_, h⟩
        cases h
      cases found with
      | none =>
          refine .of_neither rfl rfl ?_
          rintro ⟨_, h⟩
          cases h
      | some rule =>
          refine .of_read rfl (if_pos rfl) (fun h => by cases h) ?_
          refine follows_updateRule (fun h => by cases h) fun existing => ⟨fun f hf => ?_, trivial⟩
          cases f with
          | isEnabled => exact absurd rfl hf
          | _ => rfl

end rules

/-! ### Compliance policies -/

inductive PolicyField
  | retentionDays
  | legalHold
  | legalHoldReason
  | legalHoldUntil
  | accessReviewIntervalDays
  | keyRotationIntervalDays
  | lastKeyRotationAt
  | evidenceExportEnabled

abbrev PolicyField.Value : PolicyField → Type
  | retentionDays => Int32
  | legalHold => Bool
  | legalHoldReason => Option String
  | legalHoldUntil => Option DateTime
  | accessReviewIntervalDays => Int32
  | keyRotationIntervalDays => Int32
  | lastKeyRotationAt => Option DateTime
  | evidenceExportEnabled => Bool

def PolicyField.get (p : TenantCompliancePolicy) : (f : PolicyField) → f.Value
  | retentionDays => p.retentionDays
  | legalHold => p.legalHold
  | legalHoldReason => p.legalHoldReason
  | legalHoldUntil => p.legalHoldUntil.map DateTime.stored
  | accessReviewIntervalDays => p.accessReviewIntervalDays
  | keyRotationIntervalDays => p.keyRotationIntervalDays
  | lastKeyRotationAt => p.lastKeyRotationAt.map DateTime.stored
  | evidenceExportEnabled => p.evidenceExportEnabled

/-- The value an update asks for, if it asks for one. -/
def CompliancePolicyRequest.value (body : CompliancePolicyRequest) :
    (f : PolicyField) → Option f.Value
  | .retentionDays => body.retentionDays.map (max · 1)
  | .legalHold => body.legalHold
  | .legalHoldReason => body.legalHoldReason.map some
  | .legalHoldUntil => body.legalHoldUntil.map fun t => some (DateTime.stored t)
  | .accessReviewIntervalDays => body.accessReviewIntervalDays.map (max · 1)
  | .keyRotationIntervalDays => body.keyRotationIntervalDays.map (max · 1)
  | .lastKeyRotationAt => none
  | .evidenceExportEnabled => body.evidenceExportEnabled

inductive PolicyCall
  | update (body : CompliancePolicyRequest)
  | rotation

/-- A rotation sets the time of the last rotation to some time. -/
def PolicyCall.call : PolicyCall → Call PolicyField.Value
  | update body => .ofValues body.value
  | rotation =>
      { fields := fun f => match f with
          | .lastKeyRotationAt => true
          | _ => false
        values := fun w => (w .lastKeyRotationAt).isSome }

theorem DateTime.stored_stored (t : DateTime) : DateTime.stored (DateTime.stored t) = DateTime.stored t := by
  unfold DateTime.stored
  rw [PgTime.encode_val]

theorem PolicyField.get_stored (p : TenantCompliancePolicy) (now : DateTime) (f : PolicyField) :
    f.get (p.stored now) = f.get p := by
  have htwice : ∀ t : Option DateTime,
      (t.map DateTime.stored).map DateTime.stored = t.map DateTime.stored := by
    intro t
    cases t with
    | none => rfl
    | some t => exact congrArg some (DateTime.stored_stored t)
  cases f with
  | legalHoldUntil => exact htwice p.legalHoldUntil
  | lastKeyRotationAt => exact htwice p.lastKeyRotationAt
  | _ => rfl

theorem PolicyField.get_default (t now : DateTime) (tenantId : String) (f : PolicyField) :
    f.get (.defaultForTenant t tenantId) = f.get (.defaultForTenant now tenantId) := by
  cases f <;> rfl

/-- An upsert succeeds exactly when it is not made to fail and its policy can be stored. -/
theorem upsertPolicy_ok_iff {e : Tick} {db : Database} {loaded policy : TenantCompliancePolicy} :
    (∃ record, (execDb e (.upsertTenantCompliancePolicy loaded policy) db).1 = .ok record) ↔
      e.fault = none ∧ policy.storable = true := by
  show (∃ record, (e.attempt db (db.upsertTenantCompliancePolicy e.clock policy)).1 = .ok record) ↔ _
  unfold Tick.attempt Database.upsertTenantCompliancePolicy
  cases e.fault with
  | some err =>
      refine iff_of_false ?_ fun h => Option.some_ne_none err h.1
      rintro ⟨_, h⟩
      cases h
  | none =>
      cases policy.storable with
      | false =>
          refine iff_of_false ?_ fun h => Bool.false_ne_true h.2
          rintro ⟨_, h⟩
          cases h
      | true => exact iff_of_true ⟨_, rfl⟩ ⟨rfl, rfl⟩

/-- The policy of one tenant, the default one before any is stored. -/
def policyAccess (tenantId : String) : Access execDb PolicyField.Value where
  field db f := f.get ((db.policy? tenantId).getD (.defaultForTenant (.ofSeconds 0) tenantId))
  allowed _ := True
  possible
    | .getTenantCompliancePolicy tenantId', .ok p => p.tenantId = tenantId'
    | _, _ => True
  reads
    | .getTenantCompliancePolicy tenantId', .ok p =>
        if tenantId' = tenantId then some fun f => f.get p else none
    | _, _ => none
  writes
    | .upsertTenantCompliancePolicy loaded policy, .ok _ =>
        if policy.tenantId = tenantId then some (fun f => f.get loaded, fun f => f.get policy)
        else none
    | _, _ => none
  of_possible e c db := by
    cases c with
    | getTenantCompliancePolicy tenantId' =>
        rcases getPolicy_exec e db tenantId' with ⟨err, hexec⟩ | hexec
        · rw [hexec]
          trivial
        · rw [hexec]
          exact db.getTenantCompliancePolicy_tenantId e.clock tenantId'
    | _ => trivial
  of_reads e c db r h := by
    cases c with
    | getTenantCompliancePolicy tenantId' =>
        rcases getPolicy_exec e db tenantId' with ⟨err, hexec⟩ | hexec
        · rw [hexec] at h
          cases h
        · rw [hexec] at h
          dsimp only at h
          split_ifs at h with hkey
          subst hkey
          rw [← Option.some.inj h]
          funext f
          unfold Database.getTenantCompliancePolicy
          cases db.policy? tenantId' with
          | none => exact PolicyField.get_default _ _ _ f
          | some p => rfl
    | _ => cases h
  of_writes e c db l w h := by
    cases c with
    | upsertTenantCompliancePolicy loaded policy =>
        cases hreply : (execDb e (.upsertTenantCompliancePolicy loaded policy) db).1 with
        | error err =>
            rw [hreply] at h
            cases h
        | ok record =>
            rw [hreply] at h
            dsimp only at h
            split_ifs at h with hkey
            obtain ⟨hfault, hstorable⟩ := upsertPolicy_ok_iff.mp ⟨record, hreply⟩
            rw [← (Prod.mk.inj (Option.some.inj h)).2]
            funext f
            rw [policy?_upsert, if_pos ⟨hfault, hstorable, hkey.symm⟩]
            exact f.get_stored policy e.clock
    | _ => cases h
  of_not_writes e c db _ h := by
    have hpolicy : (execDb e c db).2.policy? tenantId = db.policy? tenantId := by
      by_cases hc : ∃ l p, c = .upsertTenantCompliancePolicy l p
      · obtain ⟨loaded, policy, rfl⟩ := hc
        rw [policy?_upsert]
        refine if_neg ?_
        rintro ⟨hfault, hstorable, hkey⟩
        have hok : ∃ record, (execDb e (.upsertTenantCompliancePolicy loaded policy) db).1 = .ok record :=
          upsertPolicy_ok_iff.mpr ⟨hfault, hstorable⟩
        obtain ⟨record, hexec⟩ := hok
        rw [hexec] at h
        dsimp only at h
        rw [if_pos hkey.symm] at h
        cases h
      · exact policy?_of_not_upsert (fun l p heq => hc ⟨l, p, heq⟩) tenantId
    rw [hpolicy]

section policies

variable (crypto : AuditCrypto) (signingKey : String) (toRfc3339 : DateTime → String)

def PolicyCall.prog (req : HttpRequest) : PolicyCall → Task
  | update body => updatePolicy crypto signingKey toRfc3339 req body
  | rotation => recordKeyRotation crypto signingKey toRfc3339 req

/-- The response is the saved policy. -/
def SavedPolicy (result : TaskResult) : Prop := ∃ body, result = .response ⟨200, body⟩

variable {tenantId : String}

theorem neutral_policy_now : Neutral (policyAccess tenantId) .now :=
  ⟨trivial, fun _ => ⟨rfl, rfl⟩⟩

theorem not_savedPolicy_respond {status : ℕ} (h : status ≠ 200) (body : Option Json) :
    ¬ SavedPolicy (.response ⟨status, body⟩) := by
  rintro ⟨_, heq⟩
  injection heq with hresponse
  exact h (congrArg HttpResponse.status hresponse)

theorem follows_respond {call : Call PolicyField.Value} {phase : Phase PolicyField.Value}
    {status : ℕ} (h : status ≠ 200) (body : Json) :
    Follows (policyAccess tenantId) SavedPolicy call phase (respond status body) :=
  fun hsaved => (not_savedPolicy_respond h _ hsaved).elim

theorem follows_loadPolicy {call : Call PolicyField.Value} {req : HttpRequest}
    (htarget : req.target = some tenantId) {k : Claims → TenantCompliancePolicy → Task}
    (h : ∀ claims policy, policy.tenantId = tenantId →
      Follows (policyAccess tenantId) SavedPolicy call (.loaded fun f => f.get policy)
        (k claims policy)) :
    Follows (policyAccess tenantId) SavedPolicy call .start (loadPolicy req k) := by
  unfold HttpRequest.target at htarget
  unfold loadPolicy
  cases hclaims : req.claims with
  | none =>
      rw [hclaims] at htarget
      cases htarget
  | some claims =>
      rw [hclaims] at htarget
      obtain rfl : req.tenantId.getD claims.tenantId = tenantId := Option.some.inj htarget
      dsimp only
      split_ifs
      · exact follows_respond (by decide) _
      · refine follows_call_of_neutral ⟨trivial, fun _ => ⟨rfl, rfl⟩⟩ fun allowed => ?_
        rcases allowed with e | allowed
        · exact follows_respond (by decide) _
        cases allowed with
        | false => exact follows_respond (by decide) _
        | true =>
            refine ⟨trivial, fun reply hpossible => ?_⟩
            rcases reply with e | policy
            · exact .of_neither rfl rfl (follows_respond (by decide) _)
            · exact .of_read rfl (if_pos rfl) (fun h => by cases h) (h claims policy hpossible)

theorem follows_savePolicy {call : Call PolicyField.Value} {claims : Claims}
    {action targetTenantId : String} {loaded policy : TenantCompliancePolicy}
    (htenant : policy.tenantId = tenantId)
    (hedits : call.Edits (fun f => f.get loaded) (fun f => f.get policy)) :
    Follows (policyAccess tenantId) SavedPolicy call (.loaded fun f => f.get loaded)
      (savePolicy crypto signingKey toRfc3339 claims action targetTenantId loaded policy) := by
  refine ⟨trivial, fun reply _ => ?_⟩
  rcases reply with e | record
  · exact .of_neither rfl rfl (follows_respond (by decide) _)
  · refine .of_write (if_pos htenant) rfl hedits (follows_bind_of_neutral ?_ fun result => ?_)
    · refine Atomic.Prog.Ensures.imp ?_ (recordAudit_ensures crypto signingKey _ _ ())
      intro _ c hc
      cases c with
      | latestAuditHash | newV4 | now | insertAuditEvent => exact ⟨trivial, fun _ => ⟨rfl, rfl⟩⟩
      | _ => exact False.elim hc
    · cases result with
      | error e => exact follows_respond (by decide) _
      | ok _ => exact fun _ => rfl

/-- A field of an updated policy is the value asked for, or the one read. -/
theorem CompliancePolicyRequest.apply_get (body : CompliancePolicyRequest)
    (policy : TenantCompliancePolicy) (updatedAt : DateTime) (f : PolicyField) :
    f.get { body.apply policy with updatedAt } = (body.value f).getD (f.get policy) := by
  cases f with
  | legalHoldReason => exact optionOr_eq_getD body.legalHoldReason policy.legalHoldReason
  | legalHoldUntil =>
      show (body.legalHoldUntil <|> policy.legalHoldUntil).map _ =
        (body.legalHoldUntil.map _).getD (policy.legalHoldUntil.map _)
      cases body.legalHoldUntil <;> rfl
  | _ => rfl

theorem follows_policyCall {req : HttpRequest} (htarget : req.target = some tenantId)
    (c : PolicyCall) :
    Follows (policyAccess tenantId) SavedPolicy c.call .start
      (c.prog crypto signingKey toRfc3339 req) := by
  cases c with
  | update body =>
      refine follows_loadPolicy htarget fun claims policy htenant => ?_
      refine follows_call_of_neutral neutral_policy_now fun updatedAt => ?_
      refine follows_savePolicy crypto signingKey toRfc3339 htenant ?_
      exact Call.edits_ofValues fun f => body.apply_get policy updatedAt f
  | rotation =>
      refine follows_loadPolicy htarget fun claims policy htenant => ?_
      refine follows_call_of_neutral neutral_policy_now fun rotatedAt => ?_
      refine follows_call_of_neutral neutral_policy_now fun updatedAt => ?_
      refine follows_savePolicy crypto signingKey toRfc3339 htenant ⟨fun f hf => ?_, rfl⟩
      cases f with
      | lastKeyRotationAt => exact absurd rfl hf
      | _ => rfl

end policies

/-! ### Two calls on one row -/

def casePair (tenantId : String) (id : Uuid) (updates : Bool → CaseUpdate) (b : Backend) :
    BackendPool Bool (Except String CaseRecord) :=
  ⟨fun i => updateCase tenantId id (updates i), b⟩

def rulePair (tenantId : String) (id : Uuid) (calls : Bool → RuleCall) (b : Backend) :
    BackendPool Bool (Except String (Option StoredRule)) :=
  ⟨fun i => (calls i).prog tenantId id, b⟩

def policyPair (crypto : AuditCrypto) (signingKey : String) (toRfc3339 : DateTime → String)
    (reqs : Bool → HttpRequest) (calls : Bool → PolicyCall) (db : Database) : DbPool Bool TaskResult :=
  ⟨fun i => (calls i).prog crypto signingKey toRfc3339 (reqs i), db⟩

/-- **When two updates of different fields are both kept**, for each of the three updaters: after two
calls on one row that have both succeeded, exactly when every write was computed from a row with the
stored values in the fields of the other call. -/
theorem disjoint_updates_kept_iff (tenantId : String) (schedule : List (Bool × Tick)) :
    (∀ (id : Uuid) (updates : Bool → CaseUpdate) (b : Backend),
        (∀ f, ¬ ((updates true).call.fields f ∧ (updates false).call.fields f)) →
        (∀ i, ((Atomic.Pool.run execBackend schedule (casePair tenantId id updates b)).progs
          i).Returned Succeeded) →
        (Kept (caseAccess (tenantId, id)) (fun i => (updates i).call) schedule
            (casePair tenantId id updates b) ↔
          Atomic.Pool.Meets execBackend
            (WritesFresh (caseAccess (tenantId, id)) fun i => (updates i).call) schedule
            (casePair tenantId id updates b))) ∧
      (∀ (id : Uuid) (calls : Bool → RuleCall) (b : Backend),
        (∀ f, ¬ ((calls true).call.fields f ∧ (calls false).call.fields f)) →
        (∀ i, ((Atomic.Pool.run execBackend schedule (rulePair tenantId id calls b)).progs
          i).Returned UpdatedRule) →
        (Kept (ruleAccess (tenantId, id)) (fun i => (calls i).call) schedule
            (rulePair tenantId id calls b) ↔
          Atomic.Pool.Meets execBackend
            (WritesFresh (ruleAccess (tenantId, id)) fun i => (calls i).call) schedule
            (rulePair tenantId id calls b))) ∧
      ∀ (crypto : AuditCrypto) (signingKey : String) (toRfc3339 : DateTime → String)
        (reqs : Bool → HttpRequest) (calls : Bool → PolicyCall) (db : Database),
        (∀ i, (reqs i).target = some tenantId) →
        (∀ f, ¬ ((calls true).call.fields f ∧ (calls false).call.fields f)) →
        (∀ i, ((Atomic.Pool.run execDb schedule
          (policyPair crypto signingKey toRfc3339 reqs calls db)).progs i).Returned SavedPolicy) →
        (Kept (policyAccess tenantId) (fun i => (calls i).call) schedule
            (policyPair crypto signingKey toRfc3339 reqs calls db) ↔
          Atomic.Pool.Meets execDb (WritesFresh (policyAccess tenantId) fun i => (calls i).call)
            schedule (policyPair crypto signingKey toRfc3339 reqs calls db)) := by
  refine ⟨?cases, ?rules, ?policies⟩
  case cases =>
    intro id updates b hdisjoint hend
    exact kept_iff_fresh hdisjoint (fun i => follows_updateCase (updates i)) hend
  case rules =>
    intro id calls b hdisjoint hend
    exact kept_iff_fresh hdisjoint (fun i => follows_ruleCall (calls i)) hend
  case policies =>
    intro crypto signingKey toRfc3339 reqs calls db htarget hdisjoint hend
    exact kept_iff_fresh hdisjoint
      (fun i => follows_policyCall crypto signingKey toRfc3339 (htarget i) (calls i)) hend

/-! ### Two analysts -/

section decidable

instance {α : Type} : DecidablePred (Succeeded (α := α)) := fun result =>
  match result with
  | .ok a => isTrue ⟨a, rfl⟩
  | .error _ => isFalse (by rintro ⟨_, h⟩; cases h)

instance : DecidablePred UpdatedRule := fun result =>
  match result with
  | .ok (some r) => isTrue ⟨r, rfl⟩
  | .ok none => isFalse (by rintro ⟨_, h⟩; cases h)
  | .error _ => isFalse (by rintro ⟨_, h⟩; cases h)

instance : DecidablePred SavedPolicy := fun result =>
  match result with
  | .response ⟨status, body⟩ =>
      if h : status = 200 then isTrue ⟨body, by rw [h]⟩
      else isFalse (not_savedPolicy_respond h body)
  | .finished => isFalse (by rintro ⟨_, h⟩; cases h)
  | .panicked => isFalse (by rintro ⟨_, h⟩; cases h)

end decidable

/-- One resolves the case, the other takes it over. -/
def resolveAndOwn : Bool → CaseUpdate
  | true => { status := some .resolved }
  | false => { ownerUserId := some "u2" }

/-- One changes the severity, the other toggles the rule. -/
def rateAndToggle : Bool → RuleCall
  | true => .update { severity := some "LOW" }
  | false => .toggle

/-- One sets a hold, the other records a rotation. -/
def holdAndRotate : Bool → PolicyCall
  | true => .update { legalHold := some true }
  | false => .rotation

def portScanRule : Backend where
  db := emptyDatabase
  data :=
    { emptyData with
      rules := [{ id := "r1", tenantId := "t1", name := "Port Scan", description := none,
                  ruleType := "THRESHOLD", severity := "HIGH", threshold := none,
                  windowSeconds := none, condition := none, isEnabled := true,
                  createdAt := .ofSeconds 0, updatedAt := .ofSeconds 0 }]
      rules_id := List.nodup_singleton _
      rules_name := List.nodup_singleton _ }

def firstUpdate : List (Bool × Tick) := List.replicate 8 (true, firstTick)

def secondUpdate : List (Bool × Tick) := List.replicate 9 (false, secondTick)

/-- The second call starts after the first has ended. -/
def updateAfterUpdate : List (Bool × Tick) := firstUpdate ++ secondUpdate

/-- The first call runs between the `n`-th and the next command of the second. -/
def updateWithinUpdate (n : ℕ) : List (Bool × Tick) :=
  List.replicate n (false, secondTick) ++ updateAfterUpdate

abbrev resolvedAndOwned : BackendPool Bool (Except String CaseRecord) :=
  casePair "t1" "c2" resolveAndOwn twoOverdueCases

abbrev ratedAndToggled : BackendPool Bool (Except String (Option StoredRule)) :=
  rulePair "t1" "r1" rateAndToggle portScanRule

abbrev heldAndRotated : DbPool Bool TaskResult :=
  policyPair sampleCrypto "key" (fun _ => "") (fun _ => adminOfT1) holdAndRotate databaseOfT1

theorem resolveAndOwn_disjoint (f : CaseField) :
    ¬ ((resolveAndOwn true).call.fields f ∧ (resolveAndOwn false).call.fields f) := by
  cases f <;> decide

theorem rateAndToggle_disjoint (f : RuleField) :
    ¬ ((rateAndToggle true).call.fields f ∧ (rateAndToggle false).call.fields f) := by
  cases f <;> decide

theorem holdAndRotate_disjoint (f : PolicyField) :
    ¬ ((holdAndRotate true).call.fields f ∧ (holdAndRotate false).call.fields f) := by
  cases f <;> decide

theorem updateAfterUpdate_kept :
    Kept (caseAccess ("t1", "c2")) (fun i => (resolveAndOwn i).call) updateAfterUpdate
        resolvedAndOwned ∧
      Kept (ruleAccess ("t1", "r1")) (fun i => (rateAndToggle i).call) updateAfterUpdate
        ratedAndToggled ∧
      Kept (policyAccess "t1") (fun i => (holdAndRotate i).call) updateAfterUpdate
        heldAndRotated := by
  have hfirst : ∀ e ∈ firstUpdate, e.1 = true := fun e he => by
    rw [List.eq_of_mem_replicate he]
  have hsecond : ∀ e ∈ secondUpdate, e.1 = !true := fun e he => by
    rw [List.eq_of_mem_replicate he]
    rfl
  obtain ⟨hcases, hrules, hpolicies⟩ := disjoint_updates_kept_iff "t1" updateAfterUpdate
  refine ⟨?cases, ?rules, ?policies⟩
  case cases =>
    refine (hcases "c2" resolveAndOwn twoOverdueCases resolveAndOwn_disjoint
      (by decide +kernel)).mpr ?_
    exact fresh_of_serial hfirst hsecond fun i => follows_updateCase (resolveAndOwn i)
  case rules =>
    refine (hrules "r1" rateAndToggle portScanRule rateAndToggle_disjoint
      (by decide +kernel)).mpr ?_
    exact fresh_of_serial hfirst hsecond fun i => follows_ruleCall (rateAndToggle i)
  case policies =>
    refine (hpolicies sampleCrypto "key" (fun _ => "") (fun _ => adminOfT1) holdAndRotate
      databaseOfT1 (fun _ => rfl) holdAndRotate_disjoint (by decide +kernel)).mpr ?_
    exact fresh_of_serial hfirst hsecond fun i =>
      follows_policyCall sampleCrypto "key" (fun _ => "") rfl (holdAndRotate i)

/-- A call that has read before the other one writes puts the old values back. -/
theorem updateWithinUpdate_not_kept :
    (¬ ∀ (tenantId : String) (id : Uuid) (updates : Bool → CaseUpdate) (b : Backend)
        (schedule : List (Bool × Tick)),
        (∀ f, ¬ ((updates true).call.fields f ∧ (updates false).call.fields f)) →
        (∀ i, ((Atomic.Pool.run execBackend schedule (casePair tenantId id updates b)).progs
          i).Returned Succeeded) →
        Kept (caseAccess (tenantId, id)) (fun i => (updates i).call) schedule
          (casePair tenantId id updates b)) ∧
      (¬ ∀ (tenantId : String) (id : Uuid) (calls : Bool → RuleCall) (b : Backend)
        (schedule : List (Bool × Tick)),
        (∀ f, ¬ ((calls true).call.fields f ∧ (calls false).call.fields f)) →
        (∀ i, ((Atomic.Pool.run execBackend schedule (rulePair tenantId id calls b)).progs
          i).Returned UpdatedRule) →
        Kept (ruleAccess (tenantId, id)) (fun i => (calls i).call) schedule
          (rulePair tenantId id calls b)) ∧
      ¬ ∀ (crypto : AuditCrypto) (signingKey : String) (toRfc3339 : DateTime → String)
        (tenantId : String) (reqs : Bool → HttpRequest) (calls : Bool → PolicyCall) (db : Database)
        (schedule : List (Bool × Tick)),
        (∀ i, (reqs i).target = some tenantId) →
        (∀ f, ¬ ((calls true).call.fields f ∧ (calls false).call.fields f)) →
        (∀ i, ((Atomic.Pool.run execDb schedule
          (policyPair crypto signingKey toRfc3339 reqs calls db)).progs i).Returned SavedPolicy) →
        Kept (policyAccess tenantId) (fun i => (calls i).call) schedule
          (policyPair crypto signingKey toRfc3339 reqs calls db) := by
  refine ⟨?cases, ?rules, ?policies⟩
  case cases =>
    intro h
    obtain ⟨w, -, hvalues, hfinal⟩ := h "t1" "c2" resolveAndOwn twoOverdueCases
      (updateWithinUpdate 1) resolveAndOwn_disjoint (by decide +kernel) true
    have hkept := (hfinal .status rfl).trans (hvalues .status (some .resolved) rfl)
    revert hkept
    decide +kernel
  case rules =>
    intro h
    obtain ⟨w, -, hvalues, hfinal⟩ := h "t1" "r1" rateAndToggle portScanRule
      (updateWithinUpdate 2) rateAndToggle_disjoint (by decide +kernel) true
    have hkept := (hfinal .severity rfl).trans (hvalues .severity (some "LOW") rfl)
    revert hkept
    decide +kernel
  case policies =>
    intro h
    obtain ⟨w, -, hvalues, hfinal⟩ := h sampleCrypto "key" (fun _ => "") "t1" (fun _ => adminOfT1)
      holdAndRotate databaseOfT1 (updateWithinUpdate 2) (fun _ => rfl) holdAndRotate_disjoint
      (by decide +kernel) true
    have hkept := (hfinal .legalHold rfl).trans (hvalues .legalHold true rfl)
    revert hkept
    decide +kernel

end MiniSiem
