import MiniSiem.AuditTrail

/-! # Legal hold

`run_tenant_retention_cycle` (`main.rs`) and the two handlers that write a compliance policy,
`update_policy` and `record_key_rotation` (`api/handlers/compliance.rs`).

* **Tasks.**  A task is one cycle or one request.  Any number of them run as a pool on the database;
  the cycle loads all policies once, a request loads the one it writes.
* **Claims of a request.**  They are those the middleware has attached, if any.  The quota is a
  command whose answer the environment gives.
* **Protection.**  `Protected` is the meaning of a legal hold for one step: no purge under an active
  hold, and no hold that disappears unless an update sets it to false.
* **Staleness.**  `legal_hold_protected_iff`: on a clock that does not go back every step is protected
  exactly when no purge and no write meets a hold that its task has not loaded. -/

namespace MiniSiem

/-! ### The retention cycle -/

structure HttpResponse where
  status : ℕ
  body : Option Json

inductive TaskResult
  | finished
  | panicked
  | response (r : HttpResponse)

abbrev Task := DbProg TaskResult

namespace TenantCompliancePolicy

variable (p : TenantCompliancePolicy)

/-- The hold is set and has no end or a later one. -/
def holdActive (now : DateTime) : Bool :=
  p.legalHold &&
    match p.legalHoldUntil with
    | some end_ => now.1 < end_.1
    | none => true

/-- The cycle's check; it reads the clock only for a hold with an end. -/
def checkHold : DbProg Bool :=
  if p.legalHold then
    match p.legalHoldUntil with
    | some end_ => .call .now fun now => .ret (now.1 < end_.1)
    | none => .ret true
  else .ret false

/-- `Utc::now() - Duration::days(…)`, which panics out of range. -/
def cutoff (now : DateTime) : Option DateTime :=
  let t := now.1 - max 1 p.retentionDays.toInt * 86400 * 1000000000
  if h : minSeconds * 1000000000 ≤ t ∧ t < (maxSeconds + 1) * 1000000000 then some ⟨t, h⟩ else none

end TenantCompliancePolicy

/-- The body of the loop.  A failed purge is only logged. -/
def retainTenants : List TenantCompliancePolicy → Task
  | [] => .ret .finished
  | policy :: policies =>
      policy.checkHold.bind fun holdActive =>
        if holdActive then retainTenants policies
        else .call .now fun now =>
          match policy.cutoff now with
          | none => .ret .panicked
          | some cutoff =>
              .call (.purgeAuditEventsBefore policy cutoff) fun _ =>
                .call (.purgeAlertsBefore policy cutoff) fun _ =>
                  .call .elasticClient fun
                    | true => .call (.deleteByQuery policy cutoff) fun _ => retainTenants policies
                    | false => retainTenants policies

def runTenantRetentionCycle : Task :=
  .call .listTenantCompliancePolicies fun
    | .error _ => .ret .finished
    | .ok policies => retainTenants policies

/-! ### The requests -/

structure CompliancePolicyRequest where
  retentionDays : Option Int32 := none
  legalHold : Option Bool := none
  legalHoldReason : Option String := none
  legalHoldUntil : Option DateTime := none
  accessReviewIntervalDays : Option Int32 := none
  keyRotationIntervalDays : Option Int32 := none
  evidenceExportEnabled : Option Bool := none

/-- The policy with the fields that the request gives. -/
def CompliancePolicyRequest.apply (body : CompliancePolicyRequest) (policy : TenantCompliancePolicy) :
    TenantCompliancePolicy :=
  { policy with
    retentionDays := (body.retentionDays.map (max · 1)).getD policy.retentionDays
    legalHold := body.legalHold.getD policy.legalHold
    legalHoldReason := body.legalHoldReason <|> policy.legalHoldReason
    legalHoldUntil := body.legalHoldUntil <|> policy.legalHoldUntil
    accessReviewIntervalDays :=
      (body.accessReviewIntervalDays.map (max · 1)).getD policy.accessReviewIntervalDays
    keyRotationIntervalDays :=
      (body.keyRotationIntervalDays.map (max · 1)).getD policy.keyRotationIntervalDays
    evidenceExportEnabled := body.evidenceExportEnabled.getD policy.evidenceExportEnabled }

/-- The claims attached to a request, and the tenant of its query. -/
structure HttpRequest where
  claims : Option Claims
  tenantId : Option String

def errorBody (message : String) : Json := .obj [("error", .str message)]

def respond (status : ℕ) (body : Json) : Task := .ret (.response ⟨status, some body⟩)

/-- `enforce_tenant_fixed_window`. -/
def enforceTenantFixedWindow (tenantId resource : String) (k : Task) : Task :=
  .call (.allowFixedWindow tenantId resource) fun
    | .ok true => k
    | .ok false =>
        respond 429 (.obj [("error", .str "tenant quota exceeded"), ("resource", .str resource)])
    | .error e => respond 500 (errorBody ("quota check failed: " ++ e))

/-- What both requests begin with: the role, the quota, the tenant and its policy. -/
def loadPolicy (req : HttpRequest) (k : Claims → TenantCompliancePolicy → Task) : Task :=
  match req.claims with
  | none => .ret (.response ⟨401, none⟩)
  | some claims =>
      if !claims.roles.contains "admin" then respond 403 (errorBody "admin role required")
      else enforceTenantFixedWindow claims.tenantId "rule_mutations"
        (.call (.getTenantCompliancePolicy (req.tenantId.getD claims.tenantId)) fun
          | .error e => respond 500 (errorBody ("failed to load policy: " ++ e))
          | .ok policy => k claims policy)

section requests

variable (crypto : AuditCrypto) (signingKey : String) (toRfc3339 : DateTime → String)

/-- A policy as JSON, its times in RFC 3339. -/
def policyJson (p : TenantCompliancePolicy) : Json :=
  let time (t : Option DateTime) := optionalText (t.map toRfc3339)
  let days (n : Int32) := Json.num (.ofInt n.toInt)
  .obj [("access_review_interval_days", days p.accessReviewIntervalDays),
    ("evidence_export_enabled", .bool p.evidenceExportEnabled),
    ("key_rotation_interval_days", days p.keyRotationIntervalDays),
    ("last_key_rotation_at", time p.lastKeyRotationAt),
    ("legal_hold", .bool p.legalHold),
    ("legal_hold_reason", optionalText p.legalHoldReason),
    ("legal_hold_until", time p.legalHoldUntil),
    ("retention_days", days p.retentionDays),
    ("tenant_id", .str p.tenantId),
    ("updated_at", time (some p.updatedAt))]

/-- What both requests end with: the write, the audit event and the answer. -/
def savePolicy (claims : Claims) (action targetTenantId : String)
    (loaded policy : TenantCompliancePolicy) : Task :=
  .call (.upsertTenantCompliancePolicy loaded policy) fun
    | .error e => respond 500 (errorBody ("failed to save policy: " ++ e))
    | .ok record =>
        (recordComplianceAudit crypto signingKey claims action (some targetTenantId)
          (.obj [("policy", policyJson toRfc3339 record)])).bind fun
            | .error e => respond 500 (errorBody e)
            | .ok () => respond 200 (policyJson toRfc3339 record)

def updatePolicy (req : HttpRequest) (body : CompliancePolicyRequest) : Task :=
  loadPolicy req fun claims policy =>
    .call .now fun updatedAt =>
      savePolicy crypto signingKey toRfc3339 claims "compliance.policy.update"
        (req.tenantId.getD claims.tenantId) policy { body.apply policy with updatedAt }

def recordKeyRotation (req : HttpRequest) : Task :=
  loadPolicy req fun claims policy =>
    .call .now fun rotatedAt => .call .now fun updatedAt =>
      savePolicy crypto signingKey toRfc3339 claims "compliance.key_rotation.record"
        (req.tenantId.getD claims.tenantId) policy
        { policy with lastKeyRotationAt := some rotatedAt, updatedAt }

/-! ### Tasks -/

inductive TaskKind
  | retention
  | update (req : HttpRequest) (body : CompliancePolicyRequest)
  | rotation (req : HttpRequest)

def TaskKind.prog : TaskKind → Task
  | retention => runTenantRetentionCycle
  | update req body => updatePolicy crypto signingKey toRfc3339 req body
  | rotation req => recordKeyRotation crypto signingKey toRfc3339 req

/-- Any number of tasks, none of them started, on a database. -/
def taskPool {ι : Type} (tasks : ι → TaskKind) (db : Database) : DbPool ι TaskResult :=
  ⟨fun i => (tasks i).prog crypto signingKey toRfc3339, db⟩

end requests

/-- The tenant whose policy the request is about. -/
def HttpRequest.target (req : HttpRequest) : Option String :=
  req.claims.map fun claims => req.tenantId.getD claims.tenantId

/-- What the task sets the tenant's `legal_hold` to. -/
def TaskKind.setsLegalHold (tenantId : String) : TaskKind → Option Bool
  | update req body => if req.target = some tenantId then body.legalHold else none
  | _ => none

/-! ### Stored holds -/

namespace Database

variable (db : Database)

/-- `legal_hold` of the stored policy of a tenant. -/
def legalHold (tenantId : String) : Bool := (db.policy? tenantId).any (·.legalHold)

/-- The stored policy of the tenant has an active hold. -/
def holdActive (tenantId : String) (now : DateTime) : Bool :=
  (db.policy? tenantId).any (·.holdActive now)

end Database

/-- The policy a purge is issued for. -/
def DbCmd.purged : DbCmd → Option TenantCompliancePolicy
  | purgeAuditEventsBefore policy _ => some policy
  | purgeAlertsBefore policy _ => some policy
  | deleteByQuery policy _ => some policy
  | _ => none

section protection

variable {ι : Type} [DecidableEq ι] (tasks : ι → TaskKind)

/-- The step does not purge a tenant under an active hold. -/
def NoPurgeUnderHold (s : DbPool ι TaskResult) (e : ι × Tick) : Prop :=
  ∀ c, (s.progs e.1).next = some c → ∀ policy, c.purged = some policy →
    s.store.holdActive policy.tenantId e.2.clock = false

/-- A hold disappears at the step only if its task is an update that sets it to false. -/
def HoldKept (s : DbPool ι TaskResult) (e : ι × Tick) : Prop :=
  ∀ tenantId, s.store.legalHold tenantId = true →
    (Atomic.Pool.step execDb s e).store.legalHold tenantId = false →
      (tasks e.1).setsLegalHold tenantId = some false

structure Protected (s : DbPool ι TaskResult) (e : ι × Tick) : Prop where
  purge : NoPurgeUnderHold s e
  kept : HoldKept tasks s e

/-- A hold that a command meets in the database is one its task has loaded: an active hold, for a
purge; a hold, for a write that is executed and does not set it. -/
def HoldLoaded (task : TaskKind) (db : Database) (tick : Tick) : DbCmd → Prop
  | .purgeAuditEventsBefore loaded _ | .purgeAlertsBefore loaded _ | .deleteByQuery loaded _ =>
      db.holdActive loaded.tenantId tick.clock = true → loaded.holdActive tick.clock = true
  | .upsertTenantCompliancePolicy loaded policy =>
      task.setsLegalHold policy.tenantId = none → tick.fault = none → policy.storable = true →
        db.legalHold policy.tenantId = true → loaded.legalHold = true
  | _ => True

instance (task : TaskKind) (db : Database) (tick : Tick) : (c : DbCmd) →
    Decidable (HoldLoaded task db tick c)
  | .purgeAuditEventsBefore _ _ => inferInstanceAs (Decidable (_ → _))
  | .purgeAlertsBefore _ _ => inferInstanceAs (Decidable (_ → _))
  | .deleteByQuery _ _ => inferInstanceAs (Decidable (_ → _))
  | .upsertTenantCompliancePolicy _ _ => inferInstanceAs (Decidable (_ → _ → _ → _ → _))
  | .now | .newV4 | .allowFixedWindow _ _ | .elasticClient | .latestAuditHash _
  | .insertAuditEvent _ | .getTenantCompliancePolicy _ | .listTenantCompliancePolicies =>
      inferInstanceAs (Decidable True)

/-- No command of the step meets a hold that its task has not loaded. -/
def NoStaleHold (s : DbPool ι TaskResult) (e : ι × Tick) : Prop :=
  match (s.progs e.1).next with
  | some c => HoldLoaded (tasks e.1) s.store e.2 c
  | none => True

instance (s : DbPool ι TaskResult) (e : ι × Tick) : Decidable (NoStaleHold tasks s e) :=
  match h : (s.progs e.1).next with
  | some c => decidable_of_iff (HoldLoaded (tasks e.1) s.store e.2 c) (by unfold NoStaleHold; rw [h])
  | none => isTrue (by unfold NoStaleHold; rw [h]; trivial)

/-- The clock does not go back. -/
def ClockForward (s : DbPool ι TaskResult) (e : ι × Tick) : Prop := s.store.clock.1 ≤ e.2.clock.1

instance (s : DbPool ι TaskResult) (e : ι × Tick) : Decidable (ClockForward s e) :=
  inferInstanceAs (Decidable (_ ≤ _))

end protection

/-! ### What the tasks issue -/

/-- What is known of a reply at a time. -/
def ReplyAt (now : DateTime) : (c : DbCmd) → c.Reply → Prop
  | .now, reply => reply = now
  | .getTenantCompliancePolicy tenantId, .ok policy => policy.tenantId = tenantId
  | _, _ => True

/-- The commands of a task at a time: a purge is for a policy without an active hold, and a write
leaves `legal_hold` as it was loaded unless the task sets it. -/
def TaskCommand (task : TaskKind) (now : DateTime) : DbCmd → Prop
  | .purgeAuditEventsBefore policy _ | .purgeAlertsBefore policy _ | .deleteByQuery policy _ =>
      policy.holdActive now = false
  | .upsertTenantCompliancePolicy loaded policy =>
      policy.legalHold = (task.setsLegalHold policy.tenantId).getD loaded.legalHold
  | _ => True

/-- A hold that is over stays over. -/
theorem TenantCompliancePolicy.holdActive_later {p : TenantCompliancePolicy} {now later : DateTime}
    (hle : now ≤ later) (h : p.holdActive now = false) : p.holdActive later = false := by
  unfold holdActive at h ⊢
  cases hhold : p.legalHold with
  | false => rfl
  | true =>
      rw [hhold, Bool.true_and] at h
      rw [Bool.true_and]
      cases hend : p.legalHoldUntil with
      | none =>
          rw [hend] at h
          cases h
      | some end_ =>
          rw [hend] at h
          have hover := of_decide_eq_false h
          have hval : now.1 ≤ later.1 := hle
          exact decide_eq_false (by omega)

section issued

variable (task : TaskKind)

/-- After the check the policy has no active hold, unless it says so. -/
theorem checkHold_ensures {p : TenantCompliancePolicy} {k : Bool → Task} {now : DateTime}
    (hactive : ∀ w, now ≤ w → (k true).Ensures ReplyAt (TaskCommand task) w)
    (hfree : ∀ w, now ≤ w → p.holdActive w = false → (k false).Ensures ReplyAt (TaskCommand task) w) :
    (p.checkHold.bind k).Ensures ReplyAt (TaskCommand task) now := by
  unfold TenantCompliancePolicy.checkHold
  cases hhold : p.legalHold with
  | false =>
      refine hfree now le_rfl ?_
      unfold TenantCompliancePolicy.holdActive
      rw [hhold, Bool.false_and]
  | true =>
      rw [if_pos rfl]
      cases hend : p.legalHoldUntil with
      | none => exact hactive now le_rfl
      | some end_ =>
          intro w hle
          refine ⟨trivial, fun reply hreply => ?_⟩
          obtain rfl : reply = w := hreply
          show (k (decide (reply.1 < end_.1))).Ensures _ _ _
          cases hlater : decide (reply.1 < end_.1) with
          | true => exact hactive reply hle
          | false =>
              refine hfree reply hle ?_
              unfold TenantCompliancePolicy.holdActive
              rw [hhold, hend, Bool.true_and]
              exact hlater

theorem retainTenants_ensures (policies : List TenantCompliancePolicy) (now : DateTime) :
    (retainTenants policies).Ensures ReplyAt (TaskCommand task) now := by
  induction policies generalizing now with
  | nil => trivial
  | cons policy policies ih =>
      refine checkHold_ensures task (fun w _ => ih w) fun w _ hfree => ?_
      refine fun w₁ h₁ => ⟨trivial, fun clock _ => ?_⟩
      show Atomic.Prog.Ensures _ _ _ (match policy.cutoff clock with
        | none => _
        | some cutoff => _)
      cases policy.cutoff clock with
      | none => trivial
      | some cutoff =>
          refine fun w₂ h₂ => ⟨?_, fun _ _ => fun w₃ h₃ => ⟨?_, fun _ _ => fun w₄ h₄ => ?_⟩⟩
          · exact TenantCompliancePolicy.holdActive_later (h₁.trans h₂) hfree
          · exact TenantCompliancePolicy.holdActive_later ((h₁.trans h₂).trans h₃) hfree
          · refine ⟨trivial, fun connected _ => ?_⟩
            cases connected with
            | true =>
                refine fun w₅ h₅ => ⟨?_, fun _ _ => ih w₅⟩
                exact TenantCompliancePolicy.holdActive_later
                  (((h₁.trans h₂).trans h₃).trans (h₄.trans h₅)) hfree
            | false => exact ih w₄

theorem runTenantRetentionCycle_ensures (now : DateTime) :
    runTenantRetentionCycle.Ensures ReplyAt (TaskCommand task) now := by
  refine fun w _ => ⟨trivial, fun reply _ => ?_⟩
  cases reply with
  | error e => trivial
  | ok policies => exact retainTenants_ensures task policies w

variable {task}

theorem loadPolicy_ensures {req : HttpRequest} {k : Claims → TenantCompliancePolicy → Task}
    {now : DateTime}
    (h : ∀ w claims policy, req.target = some policy.tenantId →
      (k claims policy).Ensures ReplyAt (TaskCommand task) w) :
    (loadPolicy req k).Ensures ReplyAt (TaskCommand task) now := by
  unfold loadPolicy
  cases hclaims : req.claims with
  | none => trivial
  | some claims =>
      dsimp only
      split_ifs with hadmin
      · trivial
      · refine fun w₁ _ => ⟨trivial, fun allowed _ => ?_⟩
        rcases allowed with e | allowed
        · trivial
        cases allowed with
        | false => trivial
        | true =>
            refine fun w₂ _ => ⟨trivial, fun loaded hloaded => ?_⟩
            rcases loaded with e | policy
            · trivial
            · refine h w₂ claims policy ?_
              have htenant : policy.tenantId = req.tenantId.getD claims.tenantId := hloaded
              rw [htenant]
              unfold HttpRequest.target
              rw [hclaims, Option.map_some]

variable (crypto : AuditCrypto) (signingKey : String) (toRfc3339 : DateTime → String)

theorem savePolicy_ensures {claims : Claims} {action targetTenantId : String}
    {loaded policy : TenantCompliancePolicy} {now : DateTime}
    (h : policy.legalHold = (task.setsLegalHold policy.tenantId).getD loaded.legalHold) :
    (savePolicy crypto signingKey toRfc3339 claims action targetTenantId loaded policy).Ensures
      ReplyAt (TaskCommand task) now := by
  refine fun w _ => ⟨h, fun record _ => ?_⟩
  cases record with
  | error e => trivial
  | ok record =>
      refine Atomic.Prog.Ensures.bind ?_ fun w' _ result => ?_
      · refine Atomic.Prog.Ensures.imp ?_ (recordAudit_ensures crypto signingKey _ ReplyAt w)
        intro _ c hc
        cases c with
        | latestAuditHash | newV4 | now | insertAuditEvent => trivial
        | _ => exact False.elim hc
      · cases result <;> trivial

theorem prog_ensures (task : TaskKind) (now : DateTime) :
    (task.prog crypto signingKey toRfc3339).Ensures ReplyAt (TaskCommand task) now := by
  cases task with
  | retention => exact runTenantRetentionCycle_ensures _ now
  | update req body =>
      refine loadPolicy_ensures fun w claims policy htarget => fun w' _ => ⟨trivial, fun _ _ => ?_⟩
      apply savePolicy_ensures
      show body.legalHold.getD policy.legalHold =
        (if req.target = some policy.tenantId then body.legalHold else none).getD policy.legalHold
      rw [if_pos htarget]
  | rotation req =>
      refine loadPolicy_ensures fun w claims policy _ => ?_
      refine fun w₁ _ => ⟨trivial, fun _ _ => fun w₂ _ => ⟨trivial, fun _ _ => ?_⟩⟩
      exact savePolicy_ensures crypto signingKey toRfc3339 rfl

end issued

/-! ### Protection over a run -/

/-- What an upsert does to the stored policy of a tenant. -/
theorem policy?_upsert (tick : Tick) (db : Database) (loaded policy : TenantCompliancePolicy)
    (tenantId : String) :
    (execDb tick (.upsertTenantCompliancePolicy loaded policy) db).2.policy? tenantId =
      if tick.fault = none ∧ policy.storable = true ∧ tenantId = policy.tenantId then
        some (policy.stored tick.clock)
      else db.policy? tenantId := by
  show (tick.attempt db (db.upsertTenantCompliancePolicy tick.clock policy)).2.policy? tenantId = _
  cases hfault : tick.fault with
  | some e =>
      rw [if_neg fun h => Option.some_ne_none e h.1]
      unfold Tick.attempt
      rw [hfault]
      rfl
  | none =>
      cases hstorable : policy.storable with
      | false =>
          have hrefused : db.upsertTenantCompliancePolicy tick.clock policy = .error "invalid value" := by
            unfold Database.upsertTenantCompliancePolicy
            rw [hstorable]
            rfl
          rw [if_neg fun h => Bool.false_ne_true h.2.1, hrefused]
          unfold Tick.attempt
          rw [hfault]
          rfl
      | true =>
          simp only [true_and]
          unfold Tick.attempt Database.upsertTenantCompliancePolicy
          rw [hfault, hstorable]
          exact KeyedList.lookup_upsert TenantCompliancePolicy.tenantId (policy.stored tick.clock)
            tenantId db.policies

theorem policy?_of_not_upsert {tick : Tick} {db : Database} {c : DbCmd}
    (h : ∀ l p, c ≠ .upsertTenantCompliancePolicy l p) (tenantId : String) :
    (execDb tick c db).2.policy? tenantId = db.policy? tenantId := by
  unfold Database.policy?
  rw [execDb_policies h]

section runs

variable {ι : Type} [DecidableEq ι] {tasks : ι → TaskKind}

/-- Every task issues what it may issue from now on. -/
def TasksEnsured (tasks : ι → TaskKind) (s : DbPool ι TaskResult) : Prop :=
  ∀ i, (s.progs i).Ensures ReplyAt (TaskCommand (tasks i)) s.store.clock

theorem TasksEnsured.step {s : DbPool ι TaskResult} {e : ι × Tick} (h : TasksEnsured tasks s)
    (hclock : ClockForward s e) : TasksEnsured tasks (Atomic.Pool.step execDb s e) := by
  cases hnext : (s.progs e.1).next with
  | none =>
      rw [Atomic.Pool.step_finished hnext]
      exact h
  | some c =>
      have hreply : ∀ c, ReplyAt e.2.clock c (execDb e.2 c s.store).1 := by
        intro c
        cases c with
        | now => rfl
        | getTenantCompliancePolicy tenantId =>
            rcases getPolicy_exec e.2 s.store tenantId with ⟨err, hexec⟩ | hexec
            · rw [hexec]
              trivial
            · rw [hexec]
              exact s.store.getTenantCompliancePolicy_tenantId e.2.clock tenantId
        | _ => trivial
      intro i
      rw [Atomic.Pool.step_store hnext, execDb_clock]
      exact Atomic.Pool.ensures_step (fun i => (h i).mono hclock) e hreply i

/-! ### One command of a task -/

section command

variable {s : DbPool ι TaskResult} {e : ι × Tick} {c : DbCmd}

/-- A command that is not an upsert keeps every hold. -/
theorem holdKept_of_not_upsert (hnext : (s.progs e.1).next = some c)
    (hc : ∀ l p, c ≠ .upsertTenantCompliancePolicy l p) : HoldKept tasks s e := by
  intro tenantId hbefore hafter
  rw [Atomic.Pool.step_store hnext] at hafter
  unfold Database.legalHold at hbefore hafter
  rw [policy?_of_not_upsert hc, hbefore] at hafter
  cases hafter

omit [DecidableEq ι] in
theorem noPurgeUnderHold_of_not_purged (hnext : (s.progs e.1).next = some c)
    (hc : c.purged = none) : NoPurgeUnderHold s e := by
  intro c' hnext' policy hpolicy
  rw [hnext] at hnext'
  obtain rfl := Option.some.inj hnext'
  rw [hc] at hpolicy
  cases hpolicy

/-- A purge of a policy that its task has loaded without an active hold. -/
theorem purge_protected_iff (hnext : (s.progs e.1).next = some c)
    (hc : ∀ l p, c ≠ .upsertTenantCompliancePolicy l p) {loaded : TenantCompliancePolicy}
    (hloaded : c.purged = some loaded) (hfree : loaded.holdActive e.2.clock = false) :
    (s.store.holdActive loaded.tenantId e.2.clock = true → loaded.holdActive e.2.clock = true) ↔
      Protected tasks s e := by
  rw [hfree]
  constructor
  · intro hnone
    refine ⟨fun c' hnext' policy hpolicy => ?_, holdKept_of_not_upsert hnext hc⟩
    rw [hnext] at hnext'
    obtain rfl := Option.some.inj hnext'
    obtain rfl := Option.some.inj (hloaded.symm.trans hpolicy)
    exact Bool.eq_false_iff.mpr fun hactive => Bool.false_ne_true (hnone hactive)
  · intro hprotected hactive
    rw [hprotected.purge c hnext loaded hloaded] at hactive
    exact hactive

/-- What an upsert does to the hold of a tenant. -/
theorem legalHold_upsert {loaded policy : TenantCompliancePolicy}
    (hnext : (s.progs e.1).next = some (.upsertTenantCompliancePolicy loaded policy))
    (tenantId : String) :
    (Atomic.Pool.step execDb s e).store.legalHold tenantId =
      if e.2.fault = none ∧ policy.storable = true ∧ tenantId = policy.tenantId then
        policy.legalHold else s.store.legalHold tenantId := by
  rw [Atomic.Pool.step_store hnext]
  unfold Database.legalHold
  rw [policy?_upsert]
  split_ifs <;> rfl

theorem upsert_protected_iff {loaded policy : TenantCompliancePolicy}
    (hnext : (s.progs e.1).next = some (.upsertTenantCompliancePolicy loaded policy))
    (hwritten : policy.legalHold =
      ((tasks e.1).setsLegalHold policy.tenantId).getD loaded.legalHold) :
    HoldLoaded (tasks e.1) s.store e.2 (.upsertTenantCompliancePolicy loaded policy) ↔
      Protected tasks s e := by
  constructor
  · intro hloaded
    refine ⟨noPurgeUnderHold_of_not_purged hnext rfl, fun tenantId hbefore hlost => ?_⟩
    rw [legalHold_upsert hnext] at hlost
    split_ifs at hlost with hexecuted
    · obtain ⟨hfault, hstorable, rfl⟩ := hexecuted
      rw [hwritten] at hlost
      cases hsets : (tasks e.1).setsLegalHold policy.tenantId with
      | none =>
          rw [hsets, Option.getD_none, hloaded hsets hfault hstorable hbefore] at hlost
          cases hlost
      | some b =>
          rw [hsets, Option.getD_some] at hlost
          rw [hlost]
    · rw [hbefore] at hlost
      cases hlost
  · intro hprotected hsets hfault hstorable hbefore
    by_contra hloaded
    have hlost : (Atomic.Pool.step execDb s e).store.legalHold policy.tenantId = false := by
      rw [legalHold_upsert hnext, if_pos ⟨hfault, hstorable, rfl⟩, hwritten, hsets,
        Option.getD_none]
      exact Bool.eq_false_iff.mpr hloaded
    rw [hprotected.kept policy.tenantId hbefore hlost] at hsets
    cases hsets

end command

/-- At a step the hold of the database is protected exactly when the task has loaded it. -/
theorem noStaleHold_iff_protected {s : DbPool ι TaskResult} {e : ι × Tick}
    (h : TasksEnsured tasks s) (hclock : ClockForward s e) :
    NoStaleHold tasks s e ↔ Protected tasks s e := by
  unfold NoStaleHold
  cases hnext : (s.progs e.1).next with
  | none =>
      refine iff_of_true trivial ⟨fun c hc => ?_, fun tenantId hbefore hafter => ?_⟩
      · rw [hnext] at hc
        cases hc
      · rw [Atomic.Pool.step_finished hnext, hbefore] at hafter
        cases hafter
  | some c =>
      dsimp only
      have hcmd : TaskCommand (tasks e.1) e.2.clock c := ((h e.1).mono hclock).of_next hnext
      cases c with
      | purgeAuditEventsBefore loaded cutoff =>
          exact purge_protected_iff hnext (fun l p heq => by cases heq) rfl hcmd
      | purgeAlertsBefore loaded cutoff =>
          exact purge_protected_iff hnext (fun l p heq => by cases heq) rfl hcmd
      | deleteByQuery loaded cutoff =>
          exact purge_protected_iff hnext (fun l p heq => by cases heq) rfl hcmd
      | upsertTenantCompliancePolicy loaded policy => exact upsert_protected_iff hnext hcmd
      | _ =>
          exact iff_of_true trivial ⟨noPurgeUnderHold_of_not_purged hnext rfl,
            holdKept_of_not_upsert hnext fun l p heq => by cases heq⟩

variable (crypto : AuditCrypto) (signingKey : String) (toRfc3339 : DateTime → String)

/-- **When a legal hold protects**: in a run of any number of tasks on a clock that does not go
back, exactly when no purge and no write meets a hold that its task has not loaded. -/
theorem legal_hold_protected_iff (tasks : ι → TaskKind) (db : Database)
    (schedule : List (ι × Tick))
    (hclock : Atomic.Pool.Meets execDb ClockForward schedule
      (taskPool crypto signingKey toRfc3339 tasks db)) :
    Atomic.Pool.Meets execDb (NoStaleHold tasks) schedule
        (taskPool crypto signingKey toRfc3339 tasks db) ↔
      Atomic.Pool.Meets execDb (Protected tasks) schedule
        (taskPool crypto signingKey toRfc3339 tasks db) := by
  refine Atomic.Pool.meets_iff_meets (J := TasksEnsured tasks) (fun s e h => h.step)
    (fun s e h => noStaleHold_iff_protected h) ?_ hclock
  exact fun i => prog_ensures crypto signingKey toRfc3339 (tasks i) db.clock

end runs

/-! ### A stale cycle and a stale rotation -/

def adminOfT1 : HttpRequest where
  claims := some ⟨"u1", "t1", "a@b.c", ["admin"], none⟩
  tenantId := none

/-- Task 0 is a cycle, task 1 an update that stores a hold, every other one records a rotation. -/
def holdTasks : ℕ → TaskKind
  | 0 => .retention
  | 1 => .update adminOfT1 { legalHold := some true }
  | _ => .rotation adminOfT1

/-- A database with the default policy of a tenant. -/
def databaseOfT1 : Database :=
  { emptyDatabase with
    policies := [.defaultForTenant (.ofSeconds 0) "t1"]
    policies_nodup := List.nodup_singleton _ }

/-- The update completes before the cycle starts. -/
def updateThenCycle : List (ℕ × Tick) :=
  List.replicate 8 (1, firstTick) ++ List.replicate 2 (0, secondTick)

/-- The update completes between the list and the first purge of the cycle. -/
def updateWithinCycle : List (ℕ × Tick) :=
  (0, firstTick) :: (List.replicate 8 (1, firstTick) ++ List.replicate 2 (0, secondTick))

/-- The update completes between the read and the write of a rotation. -/
def updateWithinRotation : List (ℕ × Tick) :=
  List.replicate 2 (2, firstTick) ++ (List.replicate 8 (1, firstTick) ++
    List.replicate 3 (2, secondTick))

/-- An update, then a cycle. -/
theorem updateThenCycle_protected :
    Atomic.Pool.Meets execDb (Protected holdTasks) updateThenCycle
      (taskPool sampleCrypto "key" (fun _ => "") holdTasks databaseOfT1) := by
  have hclock : Atomic.Pool.Meets execDb ClockForward updateThenCycle
      (taskPool sampleCrypto "key" (fun _ => "") holdTasks databaseOfT1) := by
    decide +kernel
  have hloaded : Atomic.Pool.Meets execDb (NoStaleHold holdTasks) updateThenCycle
      (taskPool sampleCrypto "key" (fun _ => "") holdTasks databaseOfT1) := by
    decide +kernel
  exact (legal_hold_protected_iff sampleCrypto "key" (fun _ => "") holdTasks databaseOfT1
    updateThenCycle hclock).mp hloaded

/-- A cycle purges under a hold stored after its list, and a rotation removes a hold stored after its
read. -/
theorem updateWithin_not_protected :
    (¬ ∀ (crypto : AuditCrypto) (signingKey : String) (toRfc3339 : DateTime → String)
        (tasks : ℕ → TaskKind) (db : Database) (schedule : List (ℕ × Tick)),
        Atomic.Pool.Meets execDb ClockForward schedule
          (taskPool crypto signingKey toRfc3339 tasks db) →
        Atomic.Pool.Meets execDb NoPurgeUnderHold schedule
          (taskPool crypto signingKey toRfc3339 tasks db)) ∧
      ¬ ∀ (crypto : AuditCrypto) (signingKey : String) (toRfc3339 : DateTime → String)
        (tasks : ℕ → TaskKind) (db : Database) (schedule : List (ℕ × Tick)),
        Atomic.Pool.Meets execDb ClockForward schedule
          (taskPool crypto signingKey toRfc3339 tasks db) →
        Atomic.Pool.Meets execDb (HoldKept tasks) schedule
          (taskPool crypto signingKey toRfc3339 tasks db) := by
  constructor
  · intro h
    have hrun := h sampleCrypto "key" (fun _ => "") holdTasks databaseOfT1 updateWithinCycle
      (by decide +kernel)
    -- the last step of the schedule is the first purge
    have hlast := Atomic.Pool.Meets.at_step (updateWithinCycle.take 10) (0, secondTick) [] hrun
    have hpurge := hlast _ rfl _ rfl
    revert hpurge
    decide +kernel
  · intro h
    have hrun := h sampleCrypto "key" (fun _ => "") holdTasks databaseOfT1 updateWithinRotation
      (by decide +kernel)
    -- the last step of the schedule is the write of the rotation
    have hlast := Atomic.Pool.Meets.at_step (updateWithinRotation.take 12) (2, secondTick) [] hrun
    have hsets := hlast "t1" (by decide +kernel) (by decide +kernel)
    revert hsets
    decide +kernel

end MiniSiem
