import MiniSiem.CaseLifecycle
import MiniSiem.IngestRequests
import MiniSiem.LostUpdates
import MiniSiem.Lib.Runs

/-! # Partial updates of a case

Requests `PATCH /cases/{case_id}`, any number one after the other, each command by command on the
tables and cut short anywhere.

* **Bodies.**  `UpdateCaseRequest.fromValue` is the derived `Deserialize`: a field that the body does
  not name is `None`, as is a `null`.
* **Columns.**  The handler passes the four texts on as `Some(..)`, which asks `update_case` to store them
  even if they are `None`; a status that is not given is stored as the one it is read as
  (`CaseField.omitted`).
* **Requests.**  A request replaces one row at most, computed from the stored one (`UpdatesOnce`).
  `unnamed_kept_iff`: the fields that the bodies do not name are kept exactly when every row that is
  replaced has in them already what is stored. -/

namespace MiniSiem

open Atomic

/-! ### Bodies -/

/-- The variants of `CaseStatus` in upper case. -/
def CaseStatus.ofVariant : String → Option CaseStatus
  | "NEW" => some .new
  | "INVESTIGATING" => some .investigating
  | "AWAITINGCUSTOMER" => some .awaitingCustomer
  | "MITIGATED" => some .mitigated
  | "RESOLVED" => some .resolved
  | "FALSEPOSITIVE" => some .falsePositive
  | "ESCALATED" => some .escalated
  | "CLOSED" => some .closed
  | _ => none

/-- A variant is its name, with nothing or `null` as its content. -/
def CaseStatus.fromValue (v : Json) : Option CaseStatus :=
  match v.variant with
  | some (name, none) => ofVariant name
  | some (name, some .null) => ofVariant name
  | _ => none

namespace UpdateCaseRequest

def fields : List String := ["status", "owner_user_id", "owner_email", "outcome", "postmortem_summary"]

/-- No field of an object is there twice; an array has all of them. -/
def complete : Json → Bool
  | .obj members => ((members.map Prod.fst).filter (· ∈ fields)).Nodup
  | .arr items => items.length = fields.length
  | _ => false

def fromValue (v : Json) : Option UpdateCaseRequest :=
  match v.structFields fields with
  | some [status, ownerUserId, ownerEmail, outcome, postmortemSummary] =>
      if complete v then do
        return {
          status := ← optionField CaseStatus.fromValue status
          ownerUserId := ← optionField Json.toStr ownerUserId
          ownerEmail := ← optionField Json.toStr ownerEmail
          outcome := ← optionField Json.toStr outcome
          postmortemSummary := ← optionField Json.toStr postmortemSummary }
      else none
  | _ => none

end UpdateCaseRequest

namespace CaseField

def key : CaseField → String
  | status => "status"
  | ownerUserId => "owner_user_id"
  | ownerEmail => "owner_email"
  | outcome => "outcome"
  | postmortemSummary => "postmortem_summary"

/-- The body has a value for the field, or `null`. -/
def named (body : Json) (f : CaseField) : Bool :=
  match body with
  | .obj members => (List.lookup f.key members).isSome
  | _ => true

/-- The column of the field. -/
def stored (row : CaseRecord) : CaseField → Option String
  | status => some row.status
  | ownerUserId => row.ownerUserId
  | ownerEmail => row.ownerEmail
  | outcome => row.outcome
  | postmortemSummary => row.postmortemSummary

/-- What a request that does not name the field stores in it. -/
def omitted (row : CaseRecord) : CaseField → Option String
  | status => some row.caseStatus.toString
  | _ => none

end CaseField

/-! ### Requests -/

/-- A request with the ticks of its commands. -/
structure CasePatch where
  claims : Option Claims
  caseId : Uuid
  body : Json
  ticks : List Tick

/-- The row an `UPDATE` replaces, if it takes effect. -/
def BackendCmd.replaced (tick : Tick) (b : Backend) : BackendCmd → Option CaseRecord
  | data (.updateCase _ tenantId id columns) =>
      if tick.fault.isNone && columns.storable then b.data.getCaseById tenantId id else none
  | _ => none

/-- The fields that the body does not name have the same values in both. -/
def UnnamedKept (body : Json) (d d' : TenantData) : Prop :=
  ∀ tenantId id row, d.getCaseById tenantId id = some row →
    ∃ row', d'.getCaseById tenantId id = some row' ∧
      ∀ f, CaseField.named body f = false → f.stored row' = f.stored row

/-- A row that the step replaces has in the fields that the body does not name what is stored. -/
def ReplacesAlike (body : Json) (s : BackendPool Unit Unit) (e : Unit × Tick) : Prop :=
  ∀ c ∈ (s.progs e.1).next, ∀ row ∈ c.replaced e.2 s.store, ∀ f, CaseField.named body f = false →
    f.omitted row = f.stored row

namespace CasePatch

variable (crypto : AuditCrypto) (signingKey : String)

def prog (p : CasePatch) : BackendProg Unit :=
  match UpdateCaseRequest.fromValue p.body with
  | some body => (Api.updateCase crypto signingKey p.claims p.caseId body).bind fun _ => .ret ()
  | none => .ret ()

/-- The request, not started. -/
def pool (p : CasePatch) (b : Backend) : BackendPool Unit Unit := ⟨fun _ => p.prog crypto signingKey, b⟩

def schedule (p : CasePatch) : List (Unit × Tick) := p.ticks.map fun tick => ((), tick)

/-- The tables after the request. -/
def step (b : Backend) (p : CasePatch) : Option Backend :=
  some (Pool.run execBackend p.schedule (p.pool crypto signingKey b)).store

/-- After the request the fields that its body does not name are as before, in every row. -/
def Keeps (b : Backend) (p : CasePatch) : Prop :=
  ∀ b' ∈ p.step crypto signingKey b, UnnamedKept p.body b.data b'.data

/-- No step of the request replaces a row with another value in a field its body does not name. -/
def Alike (b : Backend) (p : CasePatch) : Prop :=
  Pool.Meets execBackend (ReplacesAlike p.body) p.schedule (p.pool crypto signingKey b)

end CasePatch

/-! ### What a body asks for -/

/-- The fields of a decoded object, each from its member. -/
theorem UpdateCaseRequest.fromValue_obj {members : List (String × Json)} {body : UpdateCaseRequest}
    (h : fromValue (.obj members) = some body) :
    optionField CaseStatus.fromValue (members.lookup "status") = some body.status ∧
      optionField Json.toStr (members.lookup "owner_user_id") = some body.ownerUserId ∧
      optionField Json.toStr (members.lookup "owner_email") = some body.ownerEmail ∧
      optionField Json.toStr (members.lookup "outcome") = some body.outcome ∧
      optionField Json.toStr (members.lookup "postmortem_summary") = some body.postmortemSummary := by
  unfold fromValue Json.structFields fields at h
  simp only [List.map_cons, List.map_nil] at h
  split_ifs at h
  simp only [Option.bind_eq_bind, Option.bind_eq_some_iff] at h
  obtain ⟨status, hstatus, ownerUserId, huser, ownerEmail, hemail, outcome, houtcome, summary, hsummary,
    hbody⟩ := h
  cases hbody
  exact ⟨hstatus, huser, hemail, houtcome, hsummary⟩

theorem eq_none_of_missing {α : Type} {f : Json → Option α} {member : Option Json} {x : Option α}
    (h : optionField f member = some x) (hmissing : member = none) : x = none := by
  rw [hmissing] at h
  exact (Option.some.inj h).symm

/-- The row that an update writes, in a field that the body does not name. -/
theorem stored_of_unnamed {v : Json} {body : UpdateCaseRequest}
    (h : UpdateCaseRequest.fromValue v = some body) {f : CaseField} (hf : f.named v = false)
    (existing : CaseRecord) (escalatedAt resolvedAt : Option DateTime) (now : DateTime) :
    f.stored ((body.update.columns existing escalatedAt resolvedAt).write now existing) =
      f.omitted existing := by
  cases v with
  | obj members =>
      obtain ⟨hstatus, huser, hemail, houtcome, hsummary⟩ := UpdateCaseRequest.fromValue_obj h
      have hmissing : members.lookup f.key = none :=
        Option.not_isSome_iff_eq_none.mp (Bool.eq_false_iff.mp hf)
      cases f with
      | status =>
          have hnone : body.update.status = none := eq_none_of_missing hstatus hmissing
          show some (body.update.nextStatus existing).toString = _
          unfold CaseUpdate.nextStatus
          rw [hnone]
          rfl
      | ownerUserId => exact eq_none_of_missing huser hmissing
      | ownerEmail => exact eq_none_of_missing hemail hmissing
      | outcome => exact eq_none_of_missing houtcome hmissing
      | postmortemSummary => exact eq_none_of_missing hsummary hmissing
  | _ => cases hf

/-! ### What a request does -/

/-- A lookup of a case shows the stored row. -/
def Shows (d : TenantData) : (c : BackendCmd) → c.Reply → Prop
  | .data (.getCaseById tenantId id), reply =>
      ∀ found, reply = .ok found → found = d.getCaseById tenantId id
  | _, _ => True

/-- The command leaves the cases. -/
def LeavesCases (c : BackendCmd) : Prop := c.table ≠ some .cases

/-- The program replaces at most one row, once, with the columns that the update makes of it. -/
def UpdatesOnce {α : Type} (update : CaseUpdate) (d : TenantData) : BackendProg α → Prop
  | .ret _ => True
  | .call c k =>
      (LeavesCases c ∧ ∀ r, Shows d c r → UpdatesOnce update d (k r)) ∨
        ∃ existing tenantId id escalatedAt resolvedAt,
          c = .data (.updateCase existing tenantId id (update.columns existing escalatedAt resolvedAt)) ∧
            d.getCaseById tenantId id = some existing ∧ ∀ r, Issues LeavesCases (k r)

section programs

variable {α β : Type} {update : CaseUpdate} {d : TenantData}

theorem updatesOnce_call {c : BackendCmd} {k : c.Reply → BackendProg α} (hc : LeavesCases c)
    (hk : ∀ r, Shows d c r → UpdatesOnce update d (k r)) : UpdatesOnce update d (.call c k) :=
  Or.inl ⟨hc, hk⟩

theorem UpdatesOnce.of_issues {p : BackendProg α} (h : Issues LeavesCases p) : UpdatesOnce update d p := by
  induction p with
  | ret a => trivial
  | call c k ih =>
      obtain ⟨hc, hk⟩ := h () le_rfl
      exact updatesOnce_call hc fun r _ => ih r (hk r trivial)

/-- What comes before the update leaves the cases. -/
theorem updatesOnce_bind {p : BackendProg α} {f : α → BackendProg β} (hp : Issues LeavesCases p)
    (hf : ∀ a, UpdatesOnce update d (f a)) : UpdatesOnce update d (p.bind f) := by
  induction p with
  | ret a => exact hf a
  | call c k ih =>
      obtain ⟨hc, hk⟩ := hp () le_rfl
      exact updatesOnce_call hc fun r _ => ih r (hk r trivial)

/-- What comes after it does, too. -/
theorem UpdatesOnce.bind {p : BackendProg α} {f : α → BackendProg β} (hp : UpdatesOnce update d p)
    (hf : ∀ a, Issues LeavesCases (f a)) : UpdatesOnce update d (p.bind f) := by
  induction p with
  | ret a => exact .of_issues (hf a)
  | call c k ih =>
      rcases hp with ⟨hc, hk⟩ | ⟨existing, tenantId, id, escalatedAt, resolvedAt, hc, hrow, hk⟩
      · exact updatesOnce_call hc fun r hr => ih r (hk r hr)
      · exact Or.inr ⟨existing, tenantId, id, escalatedAt, resolvedAt, hc, hrow, fun r => (hk r).bind hf⟩

theorem stampTime_updatesOnce {isNow : Bool} {time : Option DateTime}
    {k : Option DateTime → BackendProg α} (hk : ∀ t, UpdatesOnce update d (k t)) :
    UpdatesOnce update d (stampTime isNow time k) := by
  unfold stampTime
  split_ifs
  · exact updatesOnce_call (fun h => by cases h) fun now _ => hk (some now)
  · exact hk time

theorem updateCase_updatesOnce (tenantId : String) (caseId : Uuid) :
    UpdatesOnce update d (updateCase tenantId caseId update) := by
  refine updatesOnce_call (fun h => by cases h) fun reply hreply => ?_
  rcases reply with e | found
  · trivial
  · have hfound := hreply found rfl
    cases found with
    | none => trivial
    | some existing =>
        refine stampTime_updatesOnce fun escalatedAt => stampTime_updatesOnce fun resolvedAt => ?_
        refine Or.inr ⟨existing, tenantId, caseId, escalatedAt, resolvedAt, rfl, hfound.symm, fun r => ?_⟩
        cases r with
        | error e => trivial
        | ok record =>
            have hchanges := recordCaseChanges_issues (Q := LeavesCases) (fun h => by cases h)
              (fun _ h => by cases h) tenantId caseId existing record
            exact (hchanges _).bind fun _ => trivial

theorem Api.updateCase_updatesOnce (crypto : AuditCrypto) (signingKey : String) (claims : Option Claims)
    (caseId : Uuid) (body : UpdateCaseRequest) :
    UpdatesOnce body.update d (Api.updateCase crypto signingKey claims caseId body) := by
  have hdb : ∀ c : DbCmd, LeavesCases (.db c) := fun c h => by cases h
  unfold Api.updateCase asAnalyst withClaims
  cases claims with
  | none => trivial
  | some claims =>
      dsimp only
      split_ifs
      · refine updatesOnce_bind (liftDb_issues hdb _) fun result => ?_
        cases result with
        | finished =>
            refine (MiniSiem.updateCase_updatesOnce claims.tenantId caseId).bind fun result => ?_
            cases result with
            | error e =>
                dsimp only
                split_ifs <;> trivial
            | ok record => exact (liftDb_issues hdb _).bind fun _ => trivial
        | response r => trivial
        | panicked => trivial
      · trivial

end programs

/-! ### What a request keeps -/

theorem shows_exec (tick : Tick) (b : Backend) (c : BackendCmd) : Shows b.data c (execBackend tick c b).1 := by
  cases c with
  | data dc =>
      cases dc with
      | getCaseById tenantId id =>
          intro found hfound
          rcases execBackend_cases tick b (.getCaseById tenantId id) with
            ⟨e, hexec⟩ | ⟨reply, data, -, hrun, hexec⟩
          · rw [hexec] at hfound
            cases hfound
          · rw [hexec] at hfound
            obtain ⟨rfl, -⟩ := Prod.mk.inj (Except.ok.inj hrun)
            exact (Except.ok.inj hfound).symm
      | _ => trivial
  | _ => trivial

theorem getCaseById_congr {d d' : TenantData} (h : d'.cases = d.cases) (tenantId : String) (id : Uuid) :
    d'.getCaseById tenantId id = d.getCaseById tenantId id :=
  congrArg (KeyedList.lookup CaseRecord.key (tenantId, id)) h

/-- Only the cases count. -/
theorem unnamedKept_congr {body : Json} {d₁ d₂ d₁' d₂' : TenantData} (h : d₁.cases = d₂.cases)
    (h' : d₁'.cases = d₂'.cases) : UnnamedKept body d₁ d₁' ↔ UnnamedKept body d₂ d₂' := by
  unfold UnnamedKept
  simp only [getCaseById_congr h, getCaseById_congr h']

theorem unnamedKept_of_cases {body : Json} {d d' : TenantData} (h : d'.cases = d.cases) :
    UnnamedKept body d d' := by
  intro tenantId id row hrow
  exact ⟨row, (getCaseById_congr h tenantId id).trans hrow, fun f _ => rfl⟩

theorem UnnamedKept.stored_eq {body : Json} {d d' : TenantData} (h : UnnamedKept body d d') {f : CaseField}
    (hf : f.named body = false) (tenantId : String) (id : Uuid) {v : Option String}
    (hv : (d.getCaseById tenantId id).map (fun row => f.stored row) = some v) :
    (d'.getCaseById tenantId id).map (fun row => f.stored row) = some v := by
  obtain ⟨row, hrow, rfl⟩ := Option.map_eq_some_iff.mp hv
  obtain ⟨row', hrow', hsame⟩ := h tenantId id row hrow
  rw [hrow', Option.map_some, hsame f hf]

theorem updatesOnce_congr {α : Type} {update : CaseUpdate} {d d' : TenantData} (h : d'.cases = d.cases)
    {p : BackendProg α} (hp : UpdatesOnce update d p) : UpdatesOnce update d' p := by
  induction p with
  | ret a => trivial
  | call c k ih =>
      rcases hp with ⟨hc, hk⟩ | ⟨existing, tenantId, id, escalatedAt, resolvedAt, hc, hrow, hk⟩
      · refine updatesOnce_call hc fun r hr => ih r (hk r ?_)
        unfold Shows at hr ⊢
        simpa only [getCaseById_congr h] using hr
      · exact Or.inr ⟨existing, tenantId, id, escalatedAt, resolvedAt, hc,
          (getCaseById_congr h tenantId id).trans hrow, hk⟩

section requests

variable {body : Json} {s : BackendPool Unit Unit}

theorem not_replaced {tick : Tick} {b : Backend} {c : BackendCmd} (hc : LeavesCases c) :
    c.replaced tick b = none := by
  cases c with
  | data dc =>
      cases dc with
      | updateCase existing tenantId id columns => exact absurd rfl hc
      | _ => rfl
  | _ => rfl

theorem replacesAlike_of_leaves {e : Unit × Tick} (h : ∀ c ∈ (s.progs e.1).next, LeavesCases c) :
    ReplacesAlike body s e := by
  intro c hc row hrow
  rw [not_replaced (h c hc)] at hrow
  cases hrow

theorem leavesCases_step (h : ∀ i, Issues LeavesCases (s.progs i)) (e : Unit × Tick) :
    (Pool.step execBackend s e).store.data.cases = s.store.data.cases := by
  cases hnext : (s.progs e.1).next with
  | none => rw [Pool.step_finished hnext]
  | some c =>
      rw [Pool.step_store hnext]
      exact execBackend_rows (t := .cases) ((h e.1).of_next hnext)

/-- Once the row is written the cases stay. -/
theorem leavesCases_run (h : ∀ i, Issues LeavesCases (s.progs i)) (body : Json)
    (es : List (Unit × Tick)) :
    (Pool.run execBackend es s).store.data.cases = s.store.data.cases ∧
      Pool.Meets execBackend (ReplacesAlike body) es s := by
  induction es generalizing s with
  | nil => exact ⟨rfl, trivial⟩
  | cons e es ih =>
      obtain ⟨hcases, hmeets⟩ := ih (Pool.ensures_step h e fun _ => trivial)
      rw [leavesCases_step h] at hcases
      exact ⟨hcases, replacesAlike_of_leaves fun c hc => (h e.1).of_next hc, hmeets⟩

/-- An update of one row keeps what the body does not name exactly when it does so in this row. -/
theorem unnamedKept_casesUpdated_iff {d d' : TenantData} {now : DateTime} {tenantId : String} {id : Uuid}
    {columns : CaseColumns} {existing : CaseRecord} (hrow : d.getCaseById tenantId id = some existing)
    (hcases : d'.cases = d.casesUpdated now tenantId id columns) :
    UnnamedKept body d d' ↔
      ∀ f, CaseField.named body f = false → f.stored (columns.write now existing) = f.stored existing := by
  have hlookup := d.lookup_casesUpdated now tenantId id columns
  rw [← hcases] at hlookup
  constructor
  · intro hkept f hf
    obtain ⟨row', hrow', hsame⟩ := hkept tenantId id existing hrow
    have hwritten := hlookup (tenantId, id)
    rw [if_pos rfl, hrow] at hwritten
    obtain rfl := Option.some.inj (hrow'.symm.trans hwritten)
    exact hsame f hf
  · intro hsame tenantId' id' row hrow'
    have hwritten := hlookup (tenantId', id')
    by_cases hkey : (tenantId', id') = (tenantId, id)
    · rw [if_pos hkey, hrow] at hwritten
      obtain ⟨rfl, rfl⟩ := Prod.mk.inj hkey
      obtain rfl := Option.some.inj (hrow.symm.trans hrow')
      exact ⟨_, hwritten, hsame⟩
    · rw [if_neg hkey] at hwritten
      exact ⟨row, hwritten.trans hrow', fun f _ => rfl⟩

/-- The step that replaces the row. -/
theorem unnamedKept_write_iff {request : UpdateCaseRequest}
    (hrequest : UpdateCaseRequest.fromValue body = some request) {existing : CaseRecord}
    {tenantId : String} {id : Uuid} {escalatedAt resolvedAt : Option DateTime} {tick : Tick} {b : Backend}
    (hrow : b.data.getCaseById tenantId id = some existing) {c : BackendCmd}
    (hc : c = .data (.updateCase existing tenantId id
      (request.update.columns existing escalatedAt resolvedAt))) :
    UnnamedKept body b.data (execBackend tick c b).2.data ↔
      ∀ row ∈ c.replaced tick b, ∀ f, CaseField.named body f = false → f.omitted row = f.stored row := by
  obtain ⟨columns, hcolumns⟩ : ∃ columns, columns = request.update.columns existing escalatedAt resolvedAt :=
    ⟨_, rfl⟩
  rw [← hcolumns] at hc
  subst hc
  have hcases : (execBackend tick (.data (.updateCase existing tenantId id columns)) b).2.data.cases = _ :=
    updateCase_exec tick b
  unfold BackendCmd.replaced
  dsimp only
  by_cases htakes : tick.fault = none ∧ columns.storable = true
  · obtain ⟨hfault, hstorable⟩ := htakes
    rw [if_pos ⟨hfault, hstorable, by rw [hrow]; rfl⟩] at hcases
    rw [if_pos (by rw [hfault, hstorable]; rfl), hrow, unnamedKept_casesUpdated_iff hrow hcases, hcolumns]
    constructor
    · intro hsame row hmem f hf
      obtain rfl := Option.some.inj hmem
      rw [← hsame f hf, stored_of_unnamed hrequest hf]
    · intro halike f hf
      rw [stored_of_unnamed hrequest hf]
      exact halike existing rfl f hf
  · rw [if_neg fun h => htakes ⟨h.1, h.2.1⟩] at hcases
    rw [if_neg fun h => htakes ?_]
    · exact iff_of_true (unnamedKept_of_cases hcases) fun row hmem => by cases hmem
    · rw [Bool.and_eq_true, Option.isNone_iff_eq_none] at h
      exact h

/-- A run that begins with this step. -/
theorem unnamedKept_written_iff {request : UpdateCaseRequest}
    (hrequest : UpdateCaseRequest.fromValue body = some request) {existing : CaseRecord}
    {tenantId : String} {id : Uuid} {escalatedAt resolvedAt : Option DateTime} {e : Unit × Tick}
    (hrow : s.store.data.getCaseById tenantId id = some existing) {c : BackendCmd}
    (hc : c = .data (.updateCase existing tenantId id
      (request.update.columns existing escalatedAt resolvedAt)))
    (hnext : (s.progs e.1).next = some c)
    (hafter : ∀ i, Issues LeavesCases ((Pool.step execBackend s e).progs i)) (es : List (Unit × Tick)) :
    UnnamedKept body s.store.data (Pool.run execBackend (e :: es) s).store.data ↔
      Pool.Meets execBackend (ReplacesAlike body) (e :: es) s := by
  obtain ⟨hcases, hmeets⟩ := leavesCases_run hafter body es
  have halike : ReplacesAlike body s e ↔ ∀ row ∈ c.replaced e.2 s.store,
      ∀ f, CaseField.named body f = false → f.omitted row = f.stored row := by
    constructor
    · exact fun h => h c hnext
    · intro h c' hc'
      obtain rfl := Option.some.inj (hnext.symm.trans hc')
      exact h
  rw [Pool.run_cons, unnamedKept_congr rfl hcases, Pool.step_store hnext,
    unnamedKept_write_iff hrequest hrow hc, ← halike]
  exact (and_iff_left hmeets).symm

/-- A program that updates once keeps what the body does not name exactly when its step does. -/
theorem unnamedKept_run_iff {request : UpdateCaseRequest}
    (hrequest : UpdateCaseRequest.fromValue body = some request)
    (h : ∀ i, UpdatesOnce request.update s.store.data (s.progs i)) (es : List (Unit × Tick)) :
    UnnamedKept body s.store.data (Pool.run execBackend es s).store.data ↔
      Pool.Meets execBackend (ReplacesAlike body) es s := by
  induction es generalizing s with
  | nil => exact iff_of_true (unnamedKept_of_cases rfl) trivial
  | cons e es ih =>
      have hself := h e.1
      cases hp : s.progs e.1 with
      | ret a =>
          have hnext : (s.progs e.1).next = none := by rw [hp]; rfl
          show _ ↔ ReplacesAlike body s e ∧
            Pool.Meets execBackend (ReplacesAlike body) es (Pool.step execBackend s e)
          rw [Pool.run_cons, Pool.step_finished hnext, ih h]
          refine (and_iff_right (replacesAlike_of_leaves fun c hc => ?_)).symm
          cases hnext.symm.trans hc
      | call c k =>
          have hnext : (s.progs e.1).next = some c := by rw [hp]; rfl
          have hprog : ∀ i, (Pool.step execBackend s e).progs i = k (execBackend e.2 c s.store).1 := by
            intro i
            rw [show i = e.1 from rfl, Pool.step_progs_self, hp]
            rfl
          rw [hp] at hself
          rcases hself with ⟨hc, hk⟩ | ⟨existing, tenantId, id, escalatedAt, resolvedAt, hc, hrow, hk⟩
          · have hcases : (Pool.step execBackend s e).store.data.cases = s.store.data.cases := by
              rw [Pool.step_store hnext]
              exact execBackend_rows (t := .cases) hc
            have hrest : ∀ i, UpdatesOnce request.update (Pool.step execBackend s e).store.data
                ((Pool.step execBackend s e).progs i) := by
              intro i
              rw [hprog]
              exact updatesOnce_congr hcases (hk _ (shows_exec e.2 s.store c))
            rw [Pool.run_cons, ← unnamedKept_congr hcases rfl, ih hrest]
            refine (and_iff_right (replacesAlike_of_leaves fun c' hc' => ?_)).symm
            obtain rfl := Option.some.inj (hnext.symm.trans hc')
            exact hc
          · refine unnamedKept_written_iff hrequest hrow hc hnext (fun i => ?_) es
            rw [hprog]
            exact hk _

end requests

/-! ### Runs -/

section runs

variable (crypto : AuditCrypto) (signingKey : String)

theorem CasePatch.keeps_iff (b : Backend) (p : CasePatch) :
    p.Keeps crypto signingKey b ↔ p.Alike crypto signingKey b := by
  have hafter : p.Keeps crypto signingKey b ↔
      UnnamedKept p.body b.data (Pool.run execBackend p.schedule (p.pool crypto signingKey b)).store.data :=
    ⟨fun h => h _ rfl, fun h b' hb' => Option.some.inj hb' ▸ h⟩
  rw [hafter]
  cases hbody : UpdateCaseRequest.fromValue p.body with
  | none =>
      have hprog : p.prog crypto signingKey = .ret () := by
        unfold CasePatch.prog
        rw [hbody]
      have hleaves : ∀ i, Issues LeavesCases ((p.pool crypto signingKey b).progs i) := fun i => by
        show Issues LeavesCases (p.prog crypto signingKey)
        rw [hprog]
        trivial
      obtain ⟨hcases, hmeets⟩ := leavesCases_run hleaves p.body p.schedule
      exact iff_of_true (unnamedKept_of_cases hcases) hmeets
  | some request =>
      refine unnamedKept_run_iff (s := p.pool crypto signingKey b) hbody (fun i => ?_) p.schedule
      have hprog : p.prog crypto signingKey =
          (Api.updateCase crypto signingKey p.claims p.caseId request).bind fun _ => .ret () := by
        unfold CasePatch.prog
        rw [hbody]
      show UpdatesOnce request.update b.data (p.prog crypto signingKey)
      rw [hprog]
      exact (Api.updateCase_updatesOnce crypto signingKey p.claims p.caseId request).bind fun _ => trivial

/-- **A request changes only what it names**, as long as every row it replaces has in the other fields
what it stores there: `NULL`, and a status that is printed as it is read. -/
theorem unnamed_kept_iff (requests : List CasePatch) (b : Backend) :
    Runs.Meets (CasePatch.step crypto signingKey) (CasePatch.Keeps crypto signingKey) requests b ↔
      Runs.Meets (CasePatch.step crypto signingKey) (CasePatch.Alike crypto signingKey) requests b :=
  Runs.meets_iff_meets (J := fun _ => True) (fun b p _ _ => p.keeps_iff crypto signingKey b)
    (fun _ _ _ _ _ _ _ => trivial) trivial

end runs

/-! ### A case that is assigned and resolved -/

/-- An analyst takes the case, and resolves it with a body that names the status alone. -/
def assignThenResolve : List CasePatch :=
  [⟨some analyst, "c1", .obj [("owner_email", .str "analyst@t1")], List.replicate 20 firstTick⟩,
    ⟨some analyst, "c1", .obj [("status", .str "RESOLVED")], List.replicate 20 secondTick⟩]

/-- The resolved case has no owner any more. -/
theorem assignThenResolve_not_kept :
    ¬ ∀ (crypto : AuditCrypto) (signingKey : String) (requests : List CasePatch) (b : Backend),
      Runs.Meets (CasePatch.step crypto signingKey) (CasePatch.Keeps crypto signingKey) requests b := by
  intro h
  obtain ⟨-, hresolve, -⟩ := h sampleCrypto "key" assignThenResolve twoOverdueCases
  have howner := (hresolve _ rfl).stored_eq (f := .ownerEmail) (by decide) "t1" "c1"
    (v := some "analyst@t1") (by decide +kernel)
  exact absurd howner (by decide +kernel)

end MiniSiem
