import MiniSiem.AlertsTable
import MiniSiem.Lib.KeyedList
import MiniSiem.Lib.Pool

/-! # The database as a store of atomic commands

The audit events, the compliance policies and the alerts, with the commands that the audit
handlers, the compliance handlers and the retention task issue on them (`db/postgres.rs`).

* **Commands.**  Every command is atomic.  Reading the clock, generating an identifier, the quota
  check and the look at the search client are commands as well, so that a program of the
  backend is a `Prog` over `DbCmd`.
* **Environment.**  A `Tick` fixes what the code does not decide: the time, the identifier, whether
  the command fails, the quota, and whether a search client is connected.  A failed command
  changes nothing.
* **Search index.**  It is an external service: `delete_by_query` is a command without an effect on
  the database. -/

namespace MiniSiem

structure AuditEvent where
  id : Uuid
  tenantId : String
  actorUserId : String
  actorEmail : String
  actorRoles : List String
  action : String
  resourceType : String
  resourceId : Option String
  targetTenantId : Option String
  requestId : Option String
  metadata : Json
  previousHash : Option String
  eventHash : String
  signature : String
  createdAt : DateTime

structure TenantCompliancePolicy where
  tenantId : String
  retentionDays : Int32
  legalHold : Bool
  legalHoldReason : Option String
  legalHoldUntil : Option DateTime
  accessReviewIntervalDays : Int32
  keyRotationIntervalDays : Int32
  lastKeyRotationAt : Option DateTime
  evidenceExportEnabled : Bool
  updatedAt : DateTime

def TenantCompliancePolicy.defaultForTenant (now : DateTime) (tenantId : String) :
    TenantCompliancePolicy where
  tenantId := tenantId
  retentionDays := 365
  legalHold := false
  legalHoldReason := none
  legalHoldUntil := none
  accessReviewIntervalDays := 90
  keyRotationIntervalDays := 90
  lastKeyRotationAt := none
  evidenceExportEnabled := true
  updatedAt := now

/-! ### What the columns hold -/

/-- A time as a `TIMESTAMPTZ` column returns it. -/
def DateTime.stored (t : DateTime) : DateTime := (PgTime.encode t).1

def DateTime.storable (t : DateTime) : Bool := minPgTime ≤ t.stored.1

def AuditEvent.stored (e : AuditEvent) : AuditEvent :=
  { e with createdAt := DateTime.stored e.createdAt }

def AuditEvent.storable (e : AuditEvent) : Bool :=
  ([e.tenantId, e.actorUserId, e.actorEmail, e.action, e.resourceType, e.eventHash,
    e.signature] ++ e.actorRoles ++ e.resourceId.toList ++ e.targetTenantId.toList ++
    e.requestId.toList ++ e.previousHash.toList).all nulFree &&
  e.metadata.nulFree && DateTime.storable e.createdAt

def TenantCompliancePolicy.stored (p : TenantCompliancePolicy) (now : DateTime) :
    TenantCompliancePolicy :=
  { p with
    legalHoldUntil := p.legalHoldUntil.map DateTime.stored
    lastKeyRotationAt := p.lastKeyRotationAt.map DateTime.stored
    updatedAt := DateTime.stored now }

def TenantCompliancePolicy.storable (p : TenantCompliancePolicy) : Bool :=
  (p.tenantId :: p.legalHoldReason.toList).all nulFree &&
  (p.legalHoldUntil.toList ++ p.lastKeyRotationAt.toList).all DateTime.storable

/-! ### The tables -/

structure Database where
  clock : DateTime
  auditEvents : List AuditEvent
  policies : List TenantCompliancePolicy
  alerts : AlertsTable
  auditEvents_nodup : (auditEvents.map (·.id)).Nodup
  policies_nodup : (policies.map (·.tenantId)).Nodup

/-- `ORDER BY created_at, id`. -/
def AuditEvent.le (e f : AuditEvent) : Prop :=
  e.createdAt.1 < f.createdAt.1 ∨ e.createdAt.1 = f.createdAt.1 ∧ e.id ≤ f.id

instance : DecidableRel AuditEvent.le := fun e f =>
  inferInstanceAs (Decidable (e.createdAt.1 < f.createdAt.1 ∨
    e.createdAt.1 = f.createdAt.1 ∧ e.id ≤ f.id))

namespace Database

variable (db : Database)

/-- The database when the clock shows `now`. -/
def atTime (now : DateTime) : Database := { db with clock := now }

/-- The audit events of a tenant in the order of time and identifier. -/
def trail (tenantId : String) : List AuditEvent :=
  (db.auditEvents.filter fun e => e.tenantId = tenantId).insertionSort AuditEvent.le

/-- `latest_audit_hash`. -/
def latestAuditHash (tenantId : String) : Option String :=
  (db.trail tenantId).getLast?.map (·.eventHash)

/-- `insert_audit_event`. -/
def insertAuditEvent (e : AuditEvent) : Except String (Unit × Database) :=
  if !e.storable then .error "invalid value"
  else if h : e.id ∈ db.auditEvents.map (·.id) then .error "duplicate key"
  else .ok ((), { db with
    auditEvents := e.stored :: db.auditEvents
    auditEvents_nodup := List.nodup_cons.mpr ⟨h, db.auditEvents_nodup⟩ })

/-- The stored policy of a tenant. -/
def policy? (tenantId : String) : Option TenantCompliancePolicy :=
  KeyedList.lookup TenantCompliancePolicy.tenantId tenantId db.policies

/-- `get_tenant_compliance_policy`. -/
def getTenantCompliancePolicy (now : DateTime) (tenantId : String) : TenantCompliancePolicy :=
  (db.policy? tenantId).getD (.defaultForTenant now tenantId)

/-- `upsert_tenant_compliance_policy`. -/
def upsertTenantCompliancePolicy (now : DateTime) (p : TenantCompliancePolicy) :
    Except String (TenantCompliancePolicy × Database) :=
  if !p.storable then .error "invalid value"
  else .ok (p.stored now, { db with
    policies := KeyedList.upsert TenantCompliancePolicy.tenantId (p.stored now) db.policies
    policies_nodup := KeyedList.nodup_upsert TenantCompliancePolicy.tenantId db.policies_nodup _ })

/-- `list_tenant_compliance_policies`. -/
def listTenantCompliancePolicies : List TenantCompliancePolicy :=
  db.policies.insertionSort fun p q => p.tenantId ≤ q.tenantId

/-- `purge_audit_events_before`. -/
def purgeAuditEventsBefore (tenantId : String) (cutoff : DateTime) : Database :=
  { db with
    auditEvents := db.auditEvents.filter fun e =>
      !(e.tenantId = tenantId && e.createdAt.1 < (DateTime.stored cutoff).1)
    auditEvents_nodup := db.auditEvents_nodup.sublist (List.filter_sublist.map _) }

/-- `purge_alerts_before`. -/
def purgeAlertsBefore (tenantId : String) (cutoff : DateTime) : Database :=
  { db with
    alerts :=
      { rows := db.alerts.rows.filter fun r =>
          !(r.tenantId = tenantId && r.createdAt.1.1 < (DateTime.stored cutoff).1)
        id_nodup := db.alerts.id_nodup.sublist (List.filter_sublist.map _) } }

end Database

/-! ### Commands -/

/-- A purge carries the policy it is issued for, an upsert also the policy it has changed; the first
only uses the tenant of its policy, the second ignores what was loaded. -/
inductive DbCmd
  | now
  | newV4
  | allowFixedWindow (tenantId resource : String)
  | elasticClient
  | latestAuditHash (tenantId : String)
  | insertAuditEvent (event : AuditEvent)
  | getTenantCompliancePolicy (tenantId : String)
  | upsertTenantCompliancePolicy (loaded policy : TenantCompliancePolicy)
  | listTenantCompliancePolicies
  | purgeAuditEventsBefore (policy : TenantCompliancePolicy) (cutoff : DateTime)
  | purgeAlertsBefore (policy : TenantCompliancePolicy) (cutoff : DateTime)
  | deleteByQuery (policy : TenantCompliancePolicy) (cutoff : DateTime)

abbrev DbCmd.Reply : DbCmd → Type
  | now => DateTime
  | newV4 => Uuid
  | allowFixedWindow _ _ => Except String Bool
  | elasticClient => Bool
  | latestAuditHash _ => Except String (Option String)
  | insertAuditEvent _ => Except String Unit
  | getTenantCompliancePolicy _ => Except String TenantCompliancePolicy
  | upsertTenantCompliancePolicy _ _ => Except String TenantCompliancePolicy
  | listTenantCompliancePolicies => Except String (List TenantCompliancePolicy)
  | purgeAuditEventsBefore _ _ => Except String Unit
  | purgeAlertsBefore _ _ => Except String Unit
  | deleteByQuery _ _ => Except String Unit

/-- What happens outside the code at a step. -/
structure Tick where
  clock : DateTime
  uuid : Uuid := ""
  fault : Option String := none
  withinLimit : Bool := true
  elastic : Bool := false

/-- The reply of a command and the database it leaves, unless it fails. -/
def Tick.attempt {β : Type} (tick : Tick) (db : Database) (result : Except String (β × Database)) :
    Except String β × Database :=
  match tick.fault, result with
  | some e, _ => (.error e, db.atTime tick.clock)
  | none, .error e => (.error e, db.atTime tick.clock)
  | none, .ok (reply, db') => (.ok reply, db'.atTime tick.clock)

/-- A command, executed at a tick. -/
def execDb (tick : Tick) : (c : DbCmd) → Database → c.Reply × Database
  | .now, db => (tick.clock, db.atTime tick.clock)
  | .newV4, db => (tick.uuid, db.atTime tick.clock)
  | .allowFixedWindow _ _, db => tick.attempt db (.ok (tick.withinLimit, db))
  | .elasticClient, db => (tick.elastic, db.atTime tick.clock)
  | .latestAuditHash tenantId, db => tick.attempt db (.ok (db.latestAuditHash tenantId, db))
  | .insertAuditEvent event, db => tick.attempt db (db.insertAuditEvent event)
  | .getTenantCompliancePolicy tenantId, db =>
      tick.attempt db (.ok (db.getTenantCompliancePolicy tick.clock tenantId, db))
  | .upsertTenantCompliancePolicy _ policy, db =>
      tick.attempt db (db.upsertTenantCompliancePolicy tick.clock policy)
  | .listTenantCompliancePolicies, db => tick.attempt db (.ok (db.listTenantCompliancePolicies, db))
  | .purgeAuditEventsBefore policy cutoff, db =>
      tick.attempt db (.ok ((), db.purgeAuditEventsBefore policy.tenantId cutoff))
  | .purgeAlertsBefore policy cutoff, db =>
      tick.attempt db (.ok ((), db.purgeAlertsBefore policy.tenantId cutoff))
  | .deleteByQuery _ _, db => tick.attempt db (.ok ((), db))

abbrev DbProg (α : Type) := Atomic.Prog DbCmd DbCmd.Reply α

abbrev DbPool (ι α : Type) := Atomic.Pool ι DbCmd DbCmd.Reply α Database

/-! ### What the commands leave alone -/

section effects

variable {tick : Tick} {db : Database}

@[simp] theorem Database.atTime_auditEvents (now : DateTime) :
    (db.atTime now).auditEvents = db.auditEvents := rfl

@[simp] theorem Database.atTime_policies (now : DateTime) :
    (db.atTime now).policies = db.policies := rfl

@[simp] theorem Database.atTime_clock (now : DateTime) : (db.atTime now).clock = now := rfl

/-- A command that only reads. -/
@[simp] theorem Tick.attempt_read {β : Type} (reply : β) :
    (tick.attempt db (.ok (reply, db))).2 = db.atTime tick.clock := by
  unfold Tick.attempt
  cases tick.fault <;> rfl

/-- A command leaves the database it had, or the one of its result. -/
theorem Tick.attempt_cases {β : Type} (tick : Tick) (db : Database)
    (result : Except String (β × Database)) :
    (tick.attempt db result).2 = db.atTime tick.clock ∨
      ∃ reply db', tick.fault = none ∧ result = .ok (reply, db') ∧
        (tick.attempt db result).2 = db'.atTime tick.clock := by
  unfold Tick.attempt
  cases tick.fault with
  | some e => exact Or.inl rfl
  | none =>
      cases result with
      | error e => exact Or.inl rfl
      | ok r => exact Or.inr ⟨r.1, r.2, rfl, rfl, rfl⟩

/-- Every command is executed at the time of its tick. -/
theorem execDb_clock (c : DbCmd) : (execDb tick c db).2.clock = tick.clock := by
  have hattempt : ∀ {β : Type} (result : Except String (β × Database)),
      (tick.attempt db result).2.clock = tick.clock := by
    intro β result
    rcases Tick.attempt_cases tick db result with h | ⟨reply, db', -, -, h⟩
    · rw [h, Database.atTime_clock]
    · rw [h, Database.atTime_clock]
  cases c <;> first | rfl | exact hattempt _

/-- Only an upsert changes the policies. -/
theorem execDb_policies {c : DbCmd} (h : ∀ l p, c ≠ .upsertTenantCompliancePolicy l p) :
    (execDb tick c db).2.policies = db.policies := by
  have hattempt : ∀ {β : Type} (result : Except String (β × Database)),
      (∀ reply db', result = .ok (reply, db') → db'.policies = db.policies) →
      (tick.attempt db result).2.policies = db.policies := by
    intro β result hsame
    rcases Tick.attempt_cases tick db result with h | ⟨reply, db', -, hok, h⟩
    · rw [h, Database.atTime_policies]
    · rw [h, Database.atTime_policies]
      exact hsame reply db' hok
  have hok : ∀ {β : Type} (reply : β) (db' : Database), db'.policies = db.policies →
      (tick.attempt db (.ok (reply, db'))).2.policies = db.policies := by
    intro β reply db' hsame
    refine hattempt _ fun r d heq => ?_
    obtain ⟨rfl, rfl⟩ := Prod.mk.inj (Except.ok.inj heq)
    exact hsame
  cases c with
  | upsertTenantCompliancePolicy l p => exact absurd rfl (h l p)
  | insertAuditEvent e =>
      refine hattempt _ fun reply db' heq => ?_
      unfold Database.insertAuditEvent at heq
      split_ifs at heq
      obtain ⟨-, rfl⟩ := Prod.mk.inj (Except.ok.inj heq)
      rfl
  | _ => first | rfl | exact hok _ _ rfl

end effects

theorem Database.getTenantCompliancePolicy_tenantId (db : Database) (now : DateTime)
    (tenantId : String) : (db.getTenantCompliancePolicy now tenantId).tenantId = tenantId := by
  unfold getTenantCompliancePolicy
  cases hpolicy : db.policy? tenantId with
  | none => rfl
  | some policy => exact KeyedList.key_of_lookup hpolicy

theorem getPolicy_exec (e : Tick) (db : Database) (tenantId : String) :
    (∃ err, (execDb e (.getTenantCompliancePolicy tenantId) db).1 = .error err) ∨
      (execDb e (.getTenantCompliancePolicy tenantId) db).1 =
        .ok (db.getTenantCompliancePolicy e.clock tenantId) := by
  unfold execDb Tick.attempt
  cases e.fault with
  | some err => exact Or.inl ⟨err, rfl⟩
  | none => exact Or.inr rfl

end MiniSiem
