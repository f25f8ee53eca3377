import MiniSiem.CaseSweep
import MiniSiem.ReadHandlers

/-! # Requests of other tenants

What the requests of other tenants do to the data of a tenant.

* **View.**  `TenantView` is what a tenant has: its rules, its cases, its cost policy with the copy in
  Redis, and its compliance policy.
* **Commands.**  `Spares` says that a command does not touch the data of a tenant and caches no cost policy
  under the key of another one; every program of a foreign request issues only such commands.
* **Administration.**  An admin may name any tenant in the query of a request that writes a compliance
  policy; such a request is the one exception.
* **Result.**  `foreign_requests_spare`: any number of requests, in any order of their commands. -/

namespace MiniSiem

/-! ### The data of a tenant -/

structure TenantView where
  rules : List StoredRule
  cases : List CaseRecord
  costPolicy : Option TenantDataCostPolicy
  cachedCostPolicy : Option CachedText

/-- The rules, the cases and the cost policy of a tenant. -/
def TenantData.viewOf (d : TenantData) (tenantId : String) : TenantView where
  rules := d.rules.filter fun r => r.tenantId = tenantId
  cases := d.cases.filter fun c => c.tenantId = tenantId
  costPolicy := KeyedList.lookup TenantDataCostPolicy.tenantId tenantId d.costPolicies
  cachedCostPolicy := d.costCache (policyCacheKey tenantId)

theorem policyCacheKey_inj {t u : String} (h : policyCacheKey t = policyCacheKey u) : t = u := by
  unfold policyCacheKey at h
  have hchars := congrArg String.toList h
  simp only [String.toList_append] at hchars
  exact String.toList_inj.mp (List.append_cancel_left (List.append_cancel_right hchars))

section spares

variable (codec : PolicyCodec)

/-- A cached text is a policy of the tenant whose key it has. -/
def CostCacheOwn (d : TenantData) : Prop :=
  ∀ tenantId cached, d.costCache (policyCacheKey tenantId) = some cached →
    ∀ p, codec.fromStr cached.text = some p → p.tenantId = tenantId

/-- The tenant a reply is about. -/
def OwnReply : (c : BackendCmd) → c.Reply → Prop
  | .data (.getString key), .ok (some text) =>
      ∀ tenantId, key = policyCacheKey tenantId → ∀ p, codec.fromStr text = some p → p.tenantId = tenantId
  | .data (.getTenantDataCostPolicy tenantId), .ok p => p.tenantId = tenantId
  | .data (.upsertTenantDataCostPolicy policy), .ok p => p.tenantId = policy.tenantId
  | .db (.getTenantCompliancePolicy tenantId), .ok p => p.tenantId = tenantId
  | .getAlert tenantId _, .ok (some alert) => alert.tenantId = tenantId
  | _, _ => True

/-- The command does not touch the data of tenant `t`, its compliance policy only if `administers`, and
caches only a policy of another tenant under that tenant's key. -/
def Spares (t : String) (administers : Prop) : BackendCmd → Prop
  | .data (.createRule rule) => rule.tenantId ≠ t
  | .data (.updateRule _ tenantId _ _) | .data (.deleteRule tenantId _)
  | .data (.updateCase _ tenantId _ _) => tenantId ≠ t
  | .data (.insertCase record) => record.tenantId ≠ t
  | .data (.upsertTenantDataCostPolicy policy) => policy.tenantId ≠ t
  | .data (.setString key text) =>
      ∃ tenantId, tenantId ≠ t ∧ key = policyCacheKey tenantId ∧
        ∀ p, codec.fromStr text = some p → p.tenantId = tenantId
  | .data (.expire key _) => ∃ tenantId, tenantId ≠ t ∧ key = policyCacheKey tenantId
  | .db (.upsertTenantCompliancePolicy _ policy) => policy.tenantId = t → administers
  | _ => True

variable {codec} {t : String} {administers : Prop} {tick : Tick} {b : Backend}

/-- The rows of a tenant are as before. -/
theorem viewOf_of_rows {d d' : TenantData} (hrules : (d'.viewOf t).rules = (d.viewOf t).rules)
    (hcases : (d'.viewOf t).cases = (d.viewOf t).cases)
    (hpolicy : (d'.viewOf t).costPolicy = (d.viewOf t).costPolicy)
    (hcached : (d'.viewOf t).cachedCostPolicy = (d.viewOf t).cachedCostPolicy) :
    d'.viewOf t = d.viewOf t := by
  cases hview : d'.viewOf t
  cases hview' : d.viewOf t
  rw [hview, hview'] at hrules hcases hpolicy hcached
  dsimp only at hrules hcases hpolicy hcached
  rw [hrules, hcases, hpolicy, hcached]

/-- The update of a Redis key of another tenant. -/
theorem costCache_update_of_ne {d : TenantData} {u : String} (hu : u ≠ t) (value : Option CachedText) :
    Function.update d.costCache (policyCacheKey u) value (policyCacheKey t) =
      d.costCache (policyCacheKey t) :=
  Function.update_of_ne (fun h => hu (policyCacheKey_inj h).symm) _ _

/-- A new row of another tenant. -/
theorem filter_append_of_ne {Row : Type} (tenantId : Row → String) (row : Row)
    (h : tenantId row ≠ t) (rows : List Row) :
    (rows ++ [row]).filter (fun r => tenantId r = t) = rows.filter fun r => tenantId r = t := by
  rw [List.filter_append, List.filter_cons_of_neg (by rw [decide_eq_false h]; decide),
    List.filter_nil, List.append_nil]

theorem getString_eq_some {d : TenantData} {now : DateTime} {key text : String}
    (h : d.getString now key = some text) : ∃ cached, d.costCache key = some cached ∧ cached.text = text := by
  unfold TenantData.getString at h
  obtain ⟨cached, hcached, hlive⟩ := Option.bind_eq_some_iff.mp h
  split_ifs at hlive
  exact ⟨cached, hcached, Option.some.inj hlive⟩

theorem viewOf_run {now : DateTime} {uuid : Uuid} {d data : TenantData} {c : DataCmd} {reply : c.Out}
    (hspares : Spares codec t administers (.data c)) (h : c.run now uuid d = .ok (reply, data)) :
    data.viewOf t = d.viewOf t := by
  cases c with
  | createRule rule =>
      obtain ⟨_, _, rfl⟩ := TenantData.createRule_ok h
      refine viewOf_of_rows ?_ rfl rfl rfl
      exact filter_append_of_ne (fun r : StoredRule => r.tenantId) (rule.storedRow now uuid) hspares d.rules
  | updateRule l tenantId id columns =>
      obtain ⟨_, _, _, -, -, rfl⟩ := TenantData.updateRule_ok h
      refine viewOf_of_rows ?_ rfl rfl rfl
      refine KeyedList.filter_updateKey StoredRule.key fun r hr => ?_
      have hforeign : r.tenantId ≠ t := fun heq => hspares ((Prod.mk.inj hr).1.symm.trans heq)
      exact ⟨decide_eq_false hforeign, decide_eq_false hforeign⟩
  | deleteRule tenantId id =>
      obtain rfl := data_of_ok h
      refine viewOf_of_rows ?_ rfl rfl rfl
      show (d.rules.filter _).filter _ = d.rules.filter _
      rw [List.filter_filter]
      refine List.filter_congr fun r _ => ?_
      by_cases hown : r.tenantId = t
      · have hkept : r.key ≠ (tenantId, id) := fun heq =>
          hspares ((Prod.mk.inj heq).1.symm.trans hown)
        rw [decide_eq_false hkept, Bool.not_false, Bool.and_true]
      · rw [decide_eq_false hown, Bool.false_and]
  | insertCase r =>
      obtain ⟨_, _, -, rfl⟩ := TenantData.insertCase_ok h
      refine viewOf_of_rows rfl ?_ rfl rfl
      exact filter_append_of_ne CaseRecord.tenantId r.stored hspares d.cases
  | updateCase l tenantId id columns =>
      obtain ⟨_, _, _, -, -, rfl⟩ := TenantData.updateCase_ok h
      refine viewOf_of_rows rfl ?_ rfl rfl
      refine KeyedList.filter_updateKey CaseRecord.key fun c hc => ?_
      have hforeign : c.tenantId ≠ t := fun heq => hspares ((Prod.mk.inj hc).1.symm.trans heq)
      exact ⟨decide_eq_false hforeign, decide_eq_false hforeign⟩
  | upsertTenantDataCostPolicy p =>
      obtain ⟨_, -, rfl⟩ := TenantData.upsertTenantDataCostPolicy_ok h
      refine viewOf_of_rows rfl rfl ?_ rfl
      show KeyedList.lookup _ _ (KeyedList.upsert _ _ _) = _
      rw [KeyedList.lookup_upsert]
      exact if_neg (Ne.symm hspares)
  | setString key text =>
      obtain rfl := data_of_ok h
      obtain ⟨u, hu, rfl, -⟩ := hspares
      exact viewOf_of_rows rfl rfl rfl (costCache_update_of_ne hu _)
  | expire key seconds =>
      obtain rfl := data_of_ok h
      obtain ⟨u, hu, rfl⟩ := hspares
      exact viewOf_of_rows rfl rfl rfl (costCache_update_of_ne hu _)
  | insertPlaybook p =>
      obtain ⟨_, rfl⟩ := TenantData.insertPlaybook_ok h
      rfl
  | insertLink caseId alertId tenantId =>
      obtain rfl | ⟨_, _, rfl⟩ := TenantData.insertLink_ok h <;> rfl
  | insertCaseEvent e =>
      obtain ⟨_, rfl⟩ := TenantData.insertCaseEvent_ok h
      rfl
  | _ => rw [data_of_ok h]

/-- A command that spares a tenant leaves its view. -/
theorem viewOf_exec {c : BackendCmd} (hspares : Spares codec t administers c) :
    (execBackend tick c b).2.data.viewOf t = b.data.viewOf t := by
  rcases execBackend_data tick b c with hsame | ⟨dc, reply, data, rfl, -, hrun, hdata⟩
  · rw [hsame]
  · rw [hdata]
    exact viewOf_run hspares hrun

/-- The compliance policy of a tenant changes only if the command may administer it. -/
theorem policy?_exec {c : BackendCmd} (hspares : Spares codec t administers c)
    (hadministers : ¬ administers) :
    (execBackend tick c b).2.db.policy? t = b.db.policy? t := by
  have hdata : ∀ dc, (execBackend tick (.data dc) b).2.db.policy? t = b.db.policy? t := by
    intro dc
    rcases execBackend_cases tick b dc with ⟨e, hexec⟩ | ⟨reply, data, -, -, hexec⟩
    · rw [hexec]
      rfl
    · rw [hexec]
      rfl
  cases c with
  | data dc => exact hdata dc
  | getAlert tenantId id =>
      unfold execBackend
      cases tick.fault <;> rfl
  | db c =>
      show (execDb tick c b.db).2.policy? t = b.db.policy? t
      by_cases hc : ∃ l p, c = .upsertTenantCompliancePolicy l p
      · obtain ⟨loaded, policy, rfl⟩ := hc
        rw [policy?_upsert]
        exact if_neg fun h => hadministers (hspares h.2.2.symm)
      · exact policy?_of_not_upsert (fun l p heq => hc ⟨l, p, heq⟩) t

/-- The cache stays one of own policies. -/
theorem costCacheOwn_exec {c : BackendCmd} (hspares : Spares codec t administers c)
    (h : CostCacheOwn codec b.data) : CostCacheOwn codec (execBackend tick c b).2.data := by
  by_cases htable : c.table = some .costCache
  · rcases execBackend_data tick b c with hsame | ⟨dc, reply, data, rfl, -, hrun, hdata⟩
    · rw [hsame]
      exact h
    · rw [hdata]
      cases dc with
      | setString key text =>
          obtain rfl := data_of_ok hrun
          obtain ⟨u, -, rfl, hown⟩ := hspares
          intro tenantId cached hcached
          by_cases hu : tenantId = u
          · subst hu
            rw [show (TenantData.setString b.data (policyCacheKey tenantId) text).costCache
              (policyCacheKey tenantId) = _ from Function.update_self _ _ _] at hcached
            obtain rfl := Option.some.inj hcached
            exact hown
          · rw [show (TenantData.setString b.data (policyCacheKey u) text).costCache
              (policyCacheKey tenantId) = _ from costCache_update_of_ne (Ne.symm hu) _] at hcached
            exact h tenantId cached hcached
      | expire key seconds =>
          obtain rfl := data_of_ok hrun
          obtain ⟨u, -, rfl⟩ := hspares
          intro tenantId cached hcached
          by_cases hu : tenantId = u
          · subst hu
            rw [show (TenantData.expire b.data tick.clock (policyCacheKey tenantId) seconds).costCache
              (policyCacheKey tenantId) = _ from Function.update_self _ _ _,
              Option.map_eq_some_iff] at hcached
            obtain ⟨text, htext, rfl⟩ := hcached
            obtain ⟨old, hold, rfl⟩ := getString_eq_some htext
            exact h tenantId old hold
          · rw [show (TenantData.expire b.data tick.clock (policyCacheKey u) seconds).costCache
              (policyCacheKey tenantId) = _ from costCache_update_of_ne (Ne.symm hu) _] at hcached
            exact h tenantId cached hcached
      | _ => cases htable
  · have hsame : (execBackend tick c b).2.data.costCache = b.data.costCache :=
      execBackend_rows (t := .costCache) htable
    unfold CostCacheOwn
    rw [hsame]
    exact h

theorem TenantData.getTenantDataCostPolicy_tenantId (d : TenantData) (now : DateTime)
    (tenantId : String) : (d.getTenantDataCostPolicy now tenantId).tenantId = tenantId := by
  unfold getTenantDataCostPolicy
  cases hpolicy : KeyedList.lookup TenantDataCostPolicy.tenantId tenantId d.costPolicies with
  | none => rfl
  | some policy => exact KeyedList.key_of_lookup hpolicy

theorem getAlert_tenantId {db : Database} {tenantId : String} {id : Uuid} {alert : Alert}
    (h : db.getAlert tenantId id = some alert) : alert.tenantId = tenantId := by
  obtain ⟨row, hrow, rfl⟩ := Option.map_eq_some_iff.mp h
  exact congrArg Prod.fst (KeyedList.key_of_lookup hrow)

theorem ownReply_exec (h : CostCacheOwn codec b.data) (c : BackendCmd) :
    OwnReply codec c (execBackend tick c b).1 := by
  cases c with
  | db c =>
      cases c with
      | getTenantCompliancePolicy tenantId =>
          have hreply : ∀ r, (execDb tick (.getTenantCompliancePolicy tenantId) b.db).1 = r →
              OwnReply codec (.db (.getTenantCompliancePolicy tenantId)) r := by
            rintro r rfl
            rcases getPolicy_exec tick b.db tenantId with ⟨e, hexec⟩ | hexec
            · rw [hexec]
              trivial
            · rw [hexec]
              exact b.db.getTenantCompliancePolicy_tenantId tick.clock tenantId
          exact hreply _ rfl
      | _ => trivial
  | getAlert tenantId id =>
      unfold execBackend
      cases tick.fault with
      | some e => trivial
      | none =>
          dsimp only
          cases hfound : b.db.getAlert tenantId id with
          | none => trivial
          | some alert => exact getAlert_tenantId hfound
  | data dc =>
      rcases execBackend_cases tick b dc with ⟨e, hexec⟩ | ⟨reply, data, -, hrun, hexec⟩
      · rw [hexec]
        cases dc <;> trivial
      · rw [hexec]
        cases dc with
        | getString key =>
            obtain ⟨rfl, -⟩ := Prod.mk.inj (Except.ok.inj hrun)
            cases htext : b.data.getString tick.clock key with
            | none => trivial
            | some text =>
                obtain ⟨cached, hcached, rfl⟩ := getString_eq_some htext
                rintro tenantId rfl
                exact h tenantId cached hcached
        | getTenantDataCostPolicy tenantId =>
            obtain ⟨rfl, -⟩ := Prod.mk.inj (Except.ok.inj hrun)
            exact b.data.getTenantDataCostPolicy_tenantId tick.clock tenantId
        | upsertTenantDataCostPolicy p =>
            obtain ⟨_, rfl, -⟩ := TenantData.upsertTenantDataCostPolicy_ok hrun
            rfl
        | _ => trivial

end spares

/-! ### The programs of the backend -/

/-- What the serialisation of a cost policy keeps. -/
def PolicyCodec.KeepsTenant (codec : PolicyCodec) : Prop :=
  ∀ p text, codec.toString p = .ok text → ∀ q, codec.fromStr text = some q → q.tenantId = p.tenantId

section programs

variable {codec : PolicyCodec} {t : String} {administers : Prop} {α : Type}

/-- As long as the replies are about their tenants, the program issues only commands that spare `t`. -/
abbrev Spared (codec : PolicyCodec) (t : String) (administers : Prop) {α : Type}
    (p : BackendProg α) : Prop :=
  p.Ensures (fun _ => OwnReply codec) (fun _ => Spares codec t administers) ()

theorem spared_call {c : BackendCmd} {k : c.Reply → BackendProg α} (hc : Spares codec t administers c)
    (hk : ∀ r, OwnReply codec c r → Spared codec t administers (k r)) :
    Spared codec t administers (Atomic.Prog.call c k) :=
  fun _ _ => ⟨hc, hk⟩

theorem Spared.bind {β : Type} {p : BackendProg α} {f : α → BackendProg β}
    (hp : Spared codec t administers p) (hf : ∀ a, Spared codec t administers (f a)) :
    Spared codec t administers (p.bind f) :=
  Atomic.Prog.Ensures.bind hp fun _ _ => hf

theorem spared_of_issues {p : BackendProg α} (h : Issues (Spares codec t administers) p) :
    Spared codec t administers p :=
  Atomic.Prog.Ensures.of_replies (fun _ _ _ _ => trivial) h

theorem liftDb_spared {p : DbProg α}
    (h : p.Ensures (fun _ c r => OwnReply codec (.db c) r)
      (fun _ c => Spares codec t administers (.db c)) ()) :
    Spared codec t administers (liftDb p) := by
  induction p with
  | ret a => trivial
  | call c k ih =>
      obtain ⟨hc, hk⟩ := h () le_rfl
      exact spared_call hc fun r hr => ih r (hk r hr)

theorem recordAudit_spared {crypto : AuditCrypto} {signingKey : String} (c : AuditCall) :
    Spared codec t administers (liftDb (recordAudit crypto signingKey c)) := by
  refine liftDb_spared (Atomic.Prog.Ensures.imp ?_ (recordAudit_ensures crypto signingKey c _ ()))
  intro _ c hc
  cases c with
  | upsertTenantCompliancePolicy l p => exact False.elim hc
  | _ => trivial

theorem audited_spared {crypto : AuditCrypto} {signingKey : String} (c : AuditCall) {k : Handler}
    (hk : Spared codec t administers k) :
    Spared codec t administers (audited (recordAudit crypto signingKey c) k) :=
  (recordAudit_spared c).bind fun
    | .error _ => trivial
    | .ok () => hk

theorem unaudited_spared {crypto : AuditCrypto} {signingKey : String} (c : AuditCall) {k : Handler}
    (hk : Spared codec t administers k) :
    Spared codec t administers (unaudited (recordAudit crypto signingKey c) k) :=
  (recordAudit_spared c).bind fun _ => hk

theorem quota_spared (tenantId resource : String) :
    Spared codec t administers (liftDb (enforceTenantFixedWindow tenantId resource (.ret .finished))) :=
  spared_call trivial fun r _ => by
    rcases r with e | allowed
    · trivial
    · cases allowed <;> trivial

theorem withinQuota_spared {claims : Claims} {resource : String} {k : Handler}
    (hk : Spared codec t administers k) :
    Spared codec t administers (withinQuota claims resource k) :=
  (quota_spared _ _).bind fun
    | .finished => hk
    | .response _ => trivial
    | .panicked => trivial

/-- A request is not one of the tenant. -/
def ForeignTo (t : String) (claims : Option Claims) : Prop :=
  ∀ c, claims = some c → c.tenantId ≠ t

theorem asMember_spared {claims : Option Claims} (hclaims : ForeignTo t claims)
    {k : Claims → Handler} (hk : ∀ c, c.tenantId ≠ t → Spared codec t administers (k c)) :
    Spared codec t administers (asMember claims k) := by
  cases claims with
  | none => trivial
  | some c => exact withinQuota_spared (hk c (hclaims c rfl))

theorem asAnalyst_spared {claims : Option Claims} (hclaims : ForeignTo t claims)
    {k : Claims → Handler} (hk : ∀ c, c.tenantId ≠ t → Spared codec t administers (k c)) :
    Spared codec t administers (asAnalyst claims k) := by
  cases claims with
  | none => trivial
  | some c =>
      unfold asAnalyst withClaims
      dsimp only
      split_ifs
      · exact withinQuota_spared (hk c (hclaims c rfl))
      · trivial

variable {u : String} (hu : u ≠ t)
include hu

theorem updateRule_spared (id : Uuid) (update : RuleUpdate) :
    Spared codec t administers (updateRule u id update) := by
  refine spared_of_issues (issues_andThen trivial fun found => ?_)
  cases found with
  | none => trivial
  | some existing => exact issues_andThen hu fun _ => trivial

theorem toggleStoredRule_spared (id : Uuid) :
    Spared codec t administers (toggleStoredRule u id) := by
  refine spared_call trivial fun found _ => ?_
  rcases found with e | found
  · trivial
  cases found with
  | none => trivial
  | some rule => exact (updateRule_spared hu id _).bind fun _ => trivial

theorem createPackRules_spared (existing : List StoredRule) (templates : List PackRuleTemplate) :
    Spared codec t administers (createPackRules u existing templates) := by
  induction templates with
  | nil => trivial
  | cons template templates ih =>
      unfold createPackRules
      split_ifs
      · exact ih
      · refine spared_call hu fun created _ => ?_
        cases created with
        | error e => trivial
        | ok _ => exact ih

theorem installPackRules_spared (pack : CuratedPack) :
    Spared codec t administers (installPackRules u pack) := by
  refine spared_call trivial fun existing _ => ?_
  cases existing with
  | error e => trivial
  | ok existing =>
      refine (createPackRules_spared hu existing pack.rules).bind fun created => ?_
      cases created with
      | error message => trivial
      | ok _ =>
          refine spared_call trivial fun rules _ => ?_
          cases rules <;> trivial

theorem updateCase_spared (caseId : Uuid) (update : CaseUpdate) :
    Spared codec t administers (updateCase u caseId update) :=
  spared_of_issues (updateCase_issues update trivial trivial trivial (fun _ _ => hu) fun _ => trivial)

omit hu in
theorem recordCaseEvent_spared (tenantId : String) (caseId : Uuid) (eventType message : String)
    (actorUserId actorEmail : Option String) (metadata : Json) :
    Spared codec t administers
      (recordCaseEvent tenantId caseId eventType message actorUserId actorEmail metadata) :=
  spared_of_issues (recordCaseEvent_issues trivial (fun _ => trivial) _ _ _ _ _ _ _)

omit hu in
theorem recordSteps_spared (claims : Claims) (caseId : Uuid) (steps : List Json) :
    Spared codec t administers (recordSteps claims caseId steps) := by
  induction steps with
  | nil => trivial
  | cons step steps ih => exact (recordCaseEvent_spared _ _ _ _ _ _ _).bind fun _ => ih

omit hu in
theorem ensureDefaultCasePlaybooks_spared (tenantId : String) :
    Spared codec t administers (ensureDefaultCasePlaybooks tenantId) := by
  refine spared_of_issues (issues_andThen trivial fun existing => ?_)
  split_ifs
  · trivial
  · exact issues_call trivial fun _ => issues_call trivial fun _ => issues_andThen trivial fun _ => trivial

omit hu in
theorem listCasePlaybooks_spared (tenantId : String) :
    Spared codec t administers (listCasePlaybooks tenantId) := by
  refine (ensureDefaultCasePlaybooks_spared tenantId).bind fun ensured => ?_
  cases ensured with
  | error e => trivial
  | ok _ => exact spared_of_issues (issues_andThen trivial fun _ => trivial)

omit hu in
theorem choosePlaybook_spared (tenantId : String) (playbookId : Option Uuid) :
    Spared codec t administers (choosePlaybook tenantId playbookId) := by
  cases playbookId with
  | some id => exact spared_of_issues (issues_andThen trivial fun _ => trivial)
  | none =>
      refine (listCasePlaybooks_spared tenantId).bind fun playbooks => ?_
      cases playbooks <;> trivial

omit hu in
theorem recordNewCase_spared (alert : Alert) (new : NewCase) (caseId : Uuid)
    (playbook : Option CasePlaybook) :
    Spared codec t administers (recordNewCase alert new caseId playbook) := by
  refine (recordCaseEvent_spared _ _ _ _ _ _ _).bind fun _ =>
    (recordCaseEvent_spared _ _ _ _ _ _ _).bind fun _ => ?_
  cases playbook with
  | none => trivial
  | some playbook => exact (recordCaseEvent_spared _ _ _ _ _ _ _).bind fun _ => trivial

omit hu in
theorem insertCaseOfAlert_spared {alert : Alert} (halert : alert.tenantId ≠ t) (new : NewCase)
    (playbook : Option CasePlaybook) :
    Spared codec t administers (insertCaseOfAlert alert new playbook) := by
  refine spared_call trivial fun now _ => spared_call trivial fun caseId _ => ?_
  split
  · refine spared_call halert fun inserted _ => ?_
    cases inserted with
    | error e => trivial
    | ok record =>
        refine spared_call trivial fun linked _ => ?_
        cases linked with
        | error e => trivial
        | ok _ => exact (recordNewCase_spared _ _ _ _).bind fun _ => trivial
  · trivial

omit hu in
theorem createCaseFromAlert_spared {alert : Alert} (halert : alert.tenantId ≠ t) (new : NewCase)
    (playbookId : Option Uuid) :
    Spared codec t administers (createCaseFromAlert alert new playbookId) := by
  refine spared_call trivial fun found _ => ?_
  rcases found with e | found
  · trivial
  cases found with
  | some existing => trivial
  | none =>
      refine (ensureDefaultCasePlaybooks_spared _).bind fun ensured => ?_
      cases ensured with
      | error e => trivial
      | ok _ =>
          refine (choosePlaybook_spared _ _).bind fun playbook => ?_
          cases playbook with
          | error e => trivial
          | ok playbook => exact insertCaseOfAlert_spared halert new playbook

theorem cachePolicy_spared (hcodec : codec.KeepsTenant) {p : TenantDataCostPolicy}
    (hp : p.tenantId = u) {text : String} (htext : codec.toString p = .ok text) {k : BackendProg α}
    (hk : Spared codec t administers k) :
    Spared codec t administers (cachePolicy (policyCacheKey u) text k) := by
  refine spared_call ⟨u, hu, rfl, fun q hq => ?_⟩ fun stored _ => ?_
  · rw [hcodec p text htext q hq, hp]
  · cases stored with
    | error e => exact hk
    | ok _ => exact spared_call ⟨u, hu, rfl⟩ fun _ _ => hk

omit hu in
theorem cachePolicy_bind {β : Type} (key text : String) (k : BackendProg α) (f : α → BackendProg β) :
    (cachePolicy key text k).bind f = cachePolicy key text (k.bind f) := by
  unfold cachePolicy
  rw [Atomic.Prog.call_bind]
  congr 1
  funext stored
  cases stored <;> rfl

/-- The policy a load returns is one of the tenant. -/
theorem loadStoredPolicy_spared (hcodec : codec.KeepsTenant)
    {k : Except String TenantDataCostPolicy → BackendProg α}
    (herror : ∀ e, Spared codec t administers (k (.error e)))
    (hok : ∀ p, p.tenantId = u → Spared codec t administers (k (.ok p))) :
    Spared codec t administers ((loadStoredPolicy codec u).bind k) := by
  refine spared_call trivial fun loaded hloaded => ?_
  cases loaded with
  | error e => exact herror e
  | ok policy =>
      dsimp only
      cases htext : codec.toString policy with
      | error e => exact herror e
      | ok text =>
          dsimp only
          rw [cachePolicy_bind]
          exact cachePolicy_spared hu hcodec hloaded htext (hok policy hloaded)

theorem loadTenantCostPolicy_spared (hcodec : codec.KeepsTenant)
    {k : Except String TenantDataCostPolicy → BackendProg α}
    (herror : ∀ e, Spared codec t administers (k (.error e)))
    (hok : ∀ p, p.tenantId = u → Spared codec t administers (k (.ok p))) :
    Spared codec t administers ((loadTenantCostPolicy codec u).bind k) := by
  refine spared_call trivial fun cached hcached => ?_
  rcases cached with e | cached
  · exact herror e
  cases cached with
  | none => exact loadStoredPolicy_spared hu hcodec herror hok
  | some raw =>
      dsimp only
      cases hraw : codec.fromStr raw with
      | none => exact loadStoredPolicy_spared hu hcodec herror hok
      | some policy => exact hok policy (hcached u rfl policy hraw)

theorem saveTenantCostPolicy_spared (hcodec : codec.KeepsTenant) {p : TenantDataCostPolicy}
    (hp : p.tenantId = u) : Spared codec t administers (saveTenantCostPolicy codec p) := by
  refine spared_call (by rw [← hp] at hu; exact hu) fun saved hsaved => ?_
  cases saved with
  | error e => trivial
  | ok record =>
      have hrecord : record.tenantId = u := hsaved.trans hp
      dsimp only
      cases htext : codec.toString record with
      | error e => trivial
      | ok text =>
          rw [hrecord]
          exact cachePolicy_spared hu hcodec hrecord htext trivial

end programs

/-! ### The compliance requests -/

/-- The request administers the compliance policy of the tenant from another one. -/
def Administers (t : String) (claims : Option Claims) (tenantId : Option String) : Prop :=
  ∃ c, claims = some c ∧ c.roles.contains "admin" ∧ tenantId = some t

section compliance

variable {codec : PolicyCodec} {t : String} {administers : Prop}

/-- The same of a program of the database. -/
abbrev DbSpared (codec : PolicyCodec) (t : String) (administers : Prop) {α : Type} (p : DbProg α) :
    Prop :=
  p.Ensures (fun _ c r => OwnReply codec (.db c) r) (fun _ c => Spares codec t administers (.db c)) ()

theorem liftTask_spared {task : Task} (h : DbSpared codec t administers task) :
    Spared codec t administers (liftTask task) :=
  (liftDb_spared h).bind fun
    | .finished => trivial
    | .response _ => trivial
    | .panicked => trivial

theorem dbSpared_call {α : Type} {c : DbCmd} {k : c.Reply → DbProg α}
    (hc : Spares codec t administers (.db c))
    (hk : ∀ r, OwnReply codec (.db c) r → DbSpared codec t administers (k r)) :
    DbSpared codec t administers (Atomic.Prog.call c k) :=
  fun _ _ => ⟨hc, hk⟩

variable {claims : Option Claims} {tenantId : Option String} (hclaims : ForeignTo t claims)
  (hadministers : Administers t claims tenantId → administers)
include hclaims hadministers

/-- A loaded policy is one of the tenant only if the request administers it. -/
theorem loadPolicy_spared {k : Claims → TenantCompliancePolicy → Task}
    (hk : ∀ c policy, (policy.tenantId = t → administers) → DbSpared codec t administers (k c policy)) :
    DbSpared codec t administers (loadPolicy ⟨claims, tenantId⟩ k) := by
  unfold loadPolicy
  cases hsome : claims with
  | none => trivial
  | some c =>
      dsimp only
      split_ifs with hadmin
      · trivial
      · refine dbSpared_call trivial fun allowed _ => ?_
        rcases allowed with e | allowed
        · trivial
        cases allowed with
        | false => trivial
        | true =>
            refine dbSpared_call trivial fun loaded hloaded => ?_
            rcases loaded with e | policy
            · trivial
            · refine hk c policy fun hpolicy => hadministers ⟨c, hsome, ?_, ?_⟩
              · rw [Bool.not_eq_true', Bool.not_eq_false] at hadmin
                exact hadmin
              · have htarget : tenantId.getD c.tenantId = t := hloaded.symm.trans hpolicy
                cases tenantId with
                | none => exact absurd htarget (hclaims c hsome)
                | some target => rw [Option.getD_some] at htarget; rw [htarget]

omit hclaims hadministers
variable (crypto : AuditCrypto) (signingKey : String) (toRfc3339 : DateTime → String)

theorem savePolicy_spared {c : Claims} {action targetTenantId : String}
    {loaded policy : TenantCompliancePolicy} (hpolicy : policy.tenantId = t → administers) :
    DbSpared codec t administers
      (savePolicy crypto signingKey toRfc3339 c action targetTenantId loaded policy) := by
  refine dbSpared_call hpolicy fun saved _ => ?_
  cases saved with
  | error e => trivial
  | ok record =>
      refine Atomic.Prog.Ensures.bind ?_ fun _ _ result => ?_
      · refine Atomic.Prog.Ensures.imp ?_ (recordAudit_ensures crypto signingKey _ _ ())
        intro _ c hc
        cases c with
        | upsertTenantCompliancePolicy l p => exact False.elim hc
        | _ => trivial
      · cases result <;> trivial

include hclaims hadministers

theorem updatePolicy_spared (body : CompliancePolicyRequest) :
    DbSpared codec t administers
      (updatePolicy crypto signingKey toRfc3339 ⟨claims, tenantId⟩ body) :=
  loadPolicy_spared hclaims hadministers fun _ _ hpolicy =>
    dbSpared_call trivial fun _ _ => savePolicy_spared crypto signingKey toRfc3339 hpolicy

theorem recordKeyRotation_spared :
    DbSpared codec t administers (recordKeyRotation crypto signingKey toRfc3339 ⟨claims, tenantId⟩) :=
  loadPolicy_spared hclaims hadministers fun _ _ hpolicy =>
    dbSpared_call trivial fun _ _ => dbSpared_call trivial fun _ _ =>
      savePolicy_spared crypto signingKey toRfc3339 hpolicy

end compliance

/-! ### The handlers -/

section handlers

variable {codec : PolicyCodec} {t : String} {administers : Prop} {claims : Option Claims}
  (crypto : AuditCrypto) (signingKey : String) (toRfc3339 : DateTime → String)

theorem startPlaybook_spared {c : Claims} (hc : c.tenantId ≠ t) (record : CaseRecord)
    (playbook : CasePlaybook) :
    Spared codec t administers (Api.startPlaybook crypto signingKey c record playbook) :=
  (updateCase_spared hc _ _).bind fun _ => (recordCaseEvent_spared _ _ _ _ _ _ _).bind fun _ =>
    (recordSteps_spared _ _ _).bind fun _ => unaudited_spared _ trivial

/-- The tenant that the query of a request to compliance names. -/
def Mutation.queryTenant : Mutation → Option String
  | updatePolicy tenantId _ => tenantId
  | recordKeyRotation tenantId => tenantId
  | _ => none

theorem handler_spared (hcodec : codec.KeepsTenant) (hclaims : ForeignTo t claims) (m : Mutation)
    (hadministers : Administers t claims m.queryTenant → administers) :
    Spared codec t administers (m.handler crypto signingKey toRfc3339 codec claims) := by
  cases m with
  | createRule body =>
      refine asMember_spared hclaims fun c hc => spared_call hc fun created _ => ?_
      cases created with
      | error e => trivial
      | ok rule => exact audited_spared _ trivial
  | updateRule id body =>
      refine asMember_spared hclaims fun c hc => (updateRule_spared hc _ _).bind fun updated => ?_
      cases updated with
      | error e => trivial
      | ok rule => exact audited_spared _ trivial
  | deleteRule id =>
      refine asMember_spared hclaims fun c hc => spared_call hc fun deleted _ => ?_
      cases deleted with
      | error e => trivial
      | ok _ => exact audited_spared _ trivial
  | toggleRule id =>
      refine asMember_spared hclaims fun c hc => (toggleStoredRule_spared hc _).bind fun toggled => ?_
      rcases toggled with e | updated
      · trivial
      cases updated with
      | none => trivial
      | some rule => exact audited_spared _ trivial
  | installDetectionPack slug =>
      refine asAnalyst_spared hclaims fun c hc => ?_
      split
      · trivial
      · refine (installPackRules_spared hc _).bind fun installed => ?_
        cases installed with
        | error message => trivial
        | ok rules => exact unaudited_spared _ trivial
  | createCase body =>
      refine asAnalyst_spared hclaims fun c hc => spared_call trivial fun found hfound => ?_
      rcases found with e | found
      · trivial
      cases found with
      | none => trivial
      | some alert =>
          have halert : alert.tenantId ≠ t := fun heq => hc (hfound.symm.trans heq)
          refine (createCaseFromAlert_spared halert _ _).bind fun created => ?_
          rcases created with failure | record
          · cases failure <;> trivial
          · exact unaudited_spared _ trivial
  | updateCase caseId body =>
      refine asAnalyst_spared hclaims fun c hc => (updateCase_spared hc _ _).bind fun updated => ?_
      cases updated with
      | error e =>
          dsimp only
          split_ifs <;> trivial
      | ok record => exact unaudited_spared _ trivial
  | addTimelineEvent caseId body =>
      unfold Mutation.handler Api.addTimelineEvent
      refine asAnalyst_spared hclaims fun c hc => ?_
      generalize ((trim body.eventType).isEmpty || (trim body.message).isEmpty) = blank
      cases blank with
      | true => trivial
      | false =>
          refine spared_call trivial fun found _ => ?_
          rcases found with e | found
          · trivial
          cases found with
          | none => trivial
          | some record =>
              dsimp only
              refine (recordCaseEvent_spared _ _ _ _ _ _ _).bind fun recorded => ?_
              cases recorded with
              | error e => trivial
              | ok _ => exact unaudited_spared _ trivial
  | runPlaybook caseId playbookId =>
      refine asAnalyst_spared hclaims fun c hc => spared_call trivial fun found _ => ?_
      rcases found with e | found
      · trivial
      cases found with
      | none => trivial
      | some record =>
          dsimp only
          split
          · trivial
          · refine spared_call trivial fun loaded _ => ?_
            rcases loaded with e | loaded
            · trivial
            cases loaded with
            | none => trivial
            | some playbook => exact startPlaybook_spared crypto signingKey hc record playbook
  | updateCostPolicy body =>
      refine asAnalyst_spared hclaims fun c hc =>
        loadTenantCostPolicy_spared hc hcodec (fun _ => trivial) fun policy hpolicy => ?_
      refine (saveTenantCostPolicy_spared hc hcodec (p := body.apply policy) hpolicy).bind fun saved => ?_
      cases saved with
      | error e => trivial
      | ok record => exact unaudited_spared _ trivial
  | updatePolicy tenantId body =>
      exact liftTask_spared (updatePolicy_spared hclaims hadministers crypto signingKey toRfc3339 body)
  | recordKeyRotation tenantId =>
      exact liftTask_spared (recordKeyRotation_spared hclaims hadministers crypto signingKey toRfc3339)

end handlers

/-! ### The reading handlers -/

section reading

variable {codec : PolicyCodec} {t : String} {administers : Prop} {α : Type}

def ApiReplyOwn (codec : PolicyCodec) : (c : ApiCmd) → c.Reply → Prop
  | .backend c, r => OwnReply codec c r
  | _, _ => True

def ApiSpares (codec : PolicyCodec) (t : String) (administers : Prop) : ApiCmd → Prop
  | .backend c => Spares codec t administers c
  | _ => True

/-- The same of a program of the API. -/
abbrev ApiSpared (codec : PolicyCodec) (t : String) (administers : Prop) {α : Type}
    (p : ApiProg α) : Prop :=
  p.Ensures (fun _ => ApiReplyOwn codec) (fun _ => ApiSpares codec t administers) ()

theorem apiSpared_call {c : ApiCmd} {k : c.Reply → ApiProg α} (hc : ApiSpares codec t administers c)
    (hk : ∀ r, ApiReplyOwn codec c r → ApiSpared codec t administers (k r)) :
    ApiSpared codec t administers (Atomic.Prog.call c k) :=
  fun _ _ => ⟨hc, hk⟩

theorem ApiSpared.bind {β : Type} {p : ApiProg α} {f : α → ApiProg β}
    (hp : ApiSpared codec t administers p) (hf : ∀ a, ApiSpared codec t administers (f a)) :
    ApiSpared codec t administers (p.bind f) :=
  Atomic.Prog.Ensures.bind hp fun _ _ => hf

theorem liftBackend_spared {p : BackendProg α} (h : Spared codec t administers p) :
    ApiSpared codec t administers (liftBackend p) := by
  induction p with
  | ret a => trivial
  | call c k ih =>
      obtain ⟨hc, hk⟩ := h () le_rfl
      exact apiSpared_call hc fun r hr => ih r (hk r hr)

theorem readWithinQuota_spared {claims : Claims} {resource : String} {k : ReadHandler}
    (hk : ApiSpared codec t administers k) :
    ApiSpared codec t administers (readWithinQuota claims resource k) :=
  (liftBackend_spared (quota_spared _ _)).bind fun
    | .finished => hk
    | .response _ => trivial
    | .panicked => trivial

theorem readAudited_spared {crypto : AuditCrypto} {signingKey : String} (c : AuditCall)
    {k : ReadHandler} (hk : ApiSpared codec t administers k) :
    ApiSpared codec t administers (readAudited (recordAudit crypto signingKey c) k) :=
  (liftBackend_spared (recordAudit_spared c)).bind fun
    | .error _ => trivial
    | .ok () => hk

theorem readCounter_spared {key : DateTime → String} {k : Except String (Option UInt32) → ApiProg α}
    (hk : ∀ r, ApiSpared codec t administers (k r)) :
    ApiSpared codec t administers (readCounter key k) :=
  apiSpared_call trivial fun _ _ => apiSpared_call trivial fun r _ => hk r

theorem usageToday_spared {key : DateTime → String}
    {k : UInt64 → ApiProg (Except String TenantCostDashboard)}
    (hk : ∀ n, ApiSpared codec t administers (k n)) :
    ApiSpared codec t administers (usageToday key k) :=
  readCounter_spared fun
    | .error _ => trivial
    | .ok _ => hk _

theorem topRanked_spared {tenantId dimension : String}
    {k : List TenantCostDimensionUsage → ApiProg α} (hk : ∀ rows, ApiSpared codec t administers (k rows)) :
    ApiSpared codec t administers (topRanked tenantId dimension k) :=
  apiSpared_call trivial fun _ _ => apiSpared_call trivial fun _ _ => hk _

theorem enrichDimensionRows_spared (tenantId dimension : String)
    (rows : List TenantCostDimensionUsage) :
    ApiSpared codec t administers (enrichDimensionRows tenantId dimension rows) := by
  induction rows with
  | nil => trivial
  | cons row rows ih =>
      exact readCounter_spared fun _ => readCounter_spared fun _ => readCounter_spared fun _ =>
        ih.bind fun _ => trivial

theorem loadTenantCostPolicy_alone_spared (hcodec : codec.KeepsTenant) {u : String} (hu : u ≠ t) :
    Spared codec t administers (loadTenantCostPolicy codec u) := by
  have hload : Spared codec t administers
      ((loadTenantCostPolicy codec u).bind fun result => .ret result) :=
    loadTenantCostPolicy_spared hu hcodec (fun _ => trivial) fun _ _ => trivial
  rw [Atomic.Prog.bind_ret] at hload
  exact hload

theorem buildCostDashboard_spared (hcodec : codec.KeepsTenant) {u : String} (hu : u ≠ t) :
    ApiSpared codec t administers (buildCostDashboard codec u) := by
  refine (liftBackend_spared (loadTenantCostPolicy_alone_spared hcodec hu)).bind fun loaded => ?_
  cases loaded with
  | error e => trivial
  | ok policy =>
      refine usageToday_spared fun _ => usageToday_spared fun _ => usageToday_spared fun _ =>
        usageToday_spared fun _ => topRanked_spared fun _ => topRanked_spared fun _ =>
        topRanked_spared fun _ => ?_
      exact (enrichDimensionRows_spared _ _ _).bind fun _ => (enrichDimensionRows_spared _ _ _).bind
        fun _ => (enrichDimensionRows_spared _ _ _).bind fun _ => trivial

theorem readAccess_spared {tenantId : String} {days : ℕ}
    {k : List AccessReviewUser → List AuditEvent → ReadHandler}
    (hk : ∀ users auditEvents, ApiSpared codec t administers (k users auditEvents)) :
    ApiSpared codec t administers (readAccess tenantId days k) := by
  refine apiSpared_call trivial fun users _ => ?_
  cases users with
  | error e => trivial
  | ok users =>
      refine apiSpared_call trivial fun now _ => ?_
      split
      · trivial
      · refine apiSpared_call trivial fun auditEvents _ => ?_
        cases auditEvents with
        | error e => trivial
        | ok auditEvents => exact hk users auditEvents

variable {claims : Option Claims} (hclaims : ForeignTo t claims)
include hclaims

theorem readWithClaims_spared {k : Claims → ReadHandler}
    (hk : ∀ c, c.tenantId ≠ t → ApiSpared codec t administers (k c)) :
    ApiSpared codec t administers (readWithClaims claims k) := by
  cases claims with
  | none => trivial
  | some c => exact hk c (hclaims c rfl)

theorem readAsAnalyst_spared {k : Claims → ReadHandler}
    (hk : ∀ c, c.tenantId ≠ t → ApiSpared codec t administers (k c)) :
    ApiSpared codec t administers (readAsAnalyst claims k) := by
  refine readWithClaims_spared hclaims fun c hc => ?_
  split_ifs
  · exact hk c hc
  · trivial

theorem readAsAdmin_spared {resource : String} {k : Claims → ReadHandler}
    (hk : ∀ c, ApiSpared codec t administers (k c)) :
    ApiSpared codec t administers (readAsAdmin claims resource k) := by
  refine readWithClaims_spared hclaims fun c _ => ?_
  split_ifs
  · exact readWithinQuota_spared (hk c)
  · trivial

end reading

/-! ### Requests -/

namespace ApiRequest

/-- The request administers the compliance policy of the tenant from another one. -/
def administers (t : String) (req : ApiRequest) : Prop :=
  match req.call with
  | .mutate m => Administers t req.claims m.queryTenant
  | _ => False

variable (crypto : AuditCrypto) (signingKey : String) (toRfc3339 : DateTime → String)
  {codec : PolicyCodec} {t : String}

theorem prog_spared (hcodec : codec.KeepsTenant) {req : ApiRequest}
    (hclaims : ForeignTo t req.claims) :
    ApiSpared codec t (req.administers t) (req.prog crypto signingKey toRfc3339 codec) := by
  obtain ⟨claims, call⟩ := req
  cases call with
  | mutate m =>
      exact liftBackend_spared
        (handler_spared crypto signingKey toRfc3339 hcodec hclaims m fun h => h)
  | listRules =>
      refine readWithClaims_spared hclaims fun c _ => readWithinQuota_spared ?_
      refine apiSpared_call trivial fun rules _ => ?_
      cases rules <;> trivial
  | getRule id =>
      refine readWithClaims_spared hclaims fun c _ => readWithinQuota_spared ?_
      refine apiSpared_call trivial fun found _ => ?_
      rcases found with e | found
      · trivial
      · cases found <;> trivial
  | listDetectionPacks =>
      refine readAsAnalyst_spared hclaims fun c _ => readWithinQuota_spared ?_
      refine apiSpared_call trivial fun rules _ => ?_
      cases rules <;> trivial
  | getDetectionPack slug =>
      refine readAsAnalyst_spared hclaims fun c _ => ?_
      split
      · trivial
      · refine apiSpared_call trivial fun rules _ => ?_
        cases rules <;> trivial
  | listCases =>
      refine readAsAnalyst_spared hclaims fun c _ => readWithinQuota_spared ?_
      refine apiSpared_call trivial fun records _ => ?_
      cases records <;> trivial
  | getCase caseId =>
      refine readAsAnalyst_spared hclaims fun c _ => readWithinQuota_spared ?_
      refine apiSpared_call trivial fun found _ => ?_
      rcases found with e | found
      · trivial
      cases found with
      | none => trivial
      | some record =>
          refine ApiSpared.bind (apiSpared_call trivial fun alerts _ => ?_) fun detail => ?_
          · rcases alerts with e | alerts
            · trivial
            refine apiSpared_call trivial fun timeline _ => ?_
            rcases timeline with e | timeline
            · trivial
            dsimp only
            split
            · trivial
            · refine apiSpared_call trivial fun playbook _ => ?_
              cases playbook <;> trivial
          · cases detail <;> trivial
  | listPlaybooks =>
      refine readAsAnalyst_spared hclaims fun c _ =>
        (liftBackend_spared (listCasePlaybooks_spared _)).bind fun playbooks => ?_
      cases playbooks <;> trivial
  | getCostPolicy =>
      refine readAsAnalyst_spared hclaims fun c hc =>
        (liftBackend_spared (loadTenantCostPolicy_alone_spared hcodec hc)).bind fun policy => ?_
      cases policy <;> trivial
  | getCostDashboard =>
      refine readAsAnalyst_spared hclaims fun c hc => readWithinQuota_spared ?_
      refine (buildCostDashboard_spared hcodec hc).bind fun dashboard => ?_
      cases dashboard <;> trivial
  | getPolicy tenantId =>
      refine readAsAdmin_spared hclaims fun c => apiSpared_call trivial fun policy _ => ?_
      cases policy <;> trivial
  | accessReview tenantId =>
      exact readAsAdmin_spared hclaims fun c => readAccess_spared fun _ _ => readAudited_spared _ trivial
  | evidenceBundle tenantId =>
      refine readAsAdmin_spared hclaims fun c => apiSpared_call trivial fun policy _ => ?_
      cases policy with
      | error e => trivial
      | ok policy =>
          exact readAccess_spared fun _ _ => readAudited_spared _ (apiSpared_call trivial fun _ _ => trivial)

end ApiRequest

/-! ### Runs -/

section runs

variable {ι : Type} [DecidableEq ι] {codec : PolicyCodec} {t : String} {tick : ApiTick} {b : Backend}

theorem viewOf_execApi {c : ApiCmd} {administers : Prop} (hspares : ApiSpares codec t administers c) :
    (execApi tick c b).2.data.viewOf t = b.data.viewOf t := by
  cases c with
  | backend bc => exact viewOf_exec hspares
  | _ => rfl

theorem policy?_execApi {c : ApiCmd} {administers : Prop} (hspares : ApiSpares codec t administers c)
    (hadministers : ¬ administers) :
    (execApi tick c b).2.db.policy? t = b.db.policy? t := by
  cases c with
  | backend bc => exact policy?_exec hspares hadministers
  | _ => rfl

theorem costCacheOwn_execApi {c : ApiCmd} {administers : Prop}
    (hspares : ApiSpares codec t administers c) (h : CostCacheOwn codec b.data) :
    CostCacheOwn codec (execApi tick c b).2.data := by
  cases c with
  | backend bc => exact costCacheOwn_exec hspares h
  | _ => exact h

theorem apiReplyOwn_exec (h : CostCacheOwn codec b.data) (c : ApiCmd) :
    ApiReplyOwn codec c (execApi tick c b).1 := by
  cases c with
  | backend bc => exact ownReply_exec h bc
  | _ => trivial

/-- Any number of requests, none of them started, on a backend. -/
def apiPool (crypto : AuditCrypto) (signingKey : String) (toRfc3339 : DateTime → String)
    (codec : PolicyCodec) (reqs : ι → ApiRequest) (b : Backend) : ApiPool ι :=
  ⟨fun i => (reqs i).prog crypto signingKey toRfc3339 codec, b⟩

/-- Every request issues only what spares the tenant, and the cache has only own policies. -/
structure Sparing (codec : PolicyCodec) (t : String) (reqs : ι → ApiRequest) (s : ApiPool ι) : Prop where
  spared : ∀ i, ApiSpared codec t ((reqs i).administers t) (s.progs i)
  cache : CostCacheOwn codec s.store.data

variable {reqs : ι → ApiRequest} {s : ApiPool ι} {e : ι × ApiTick}

theorem Sparing.step (h : Sparing codec t reqs s) :
    Sparing codec t reqs (Atomic.Pool.step execApi s e) := by
  refine ⟨Atomic.Pool.ensures_step h.spared e fun c => apiReplyOwn_exec h.cache c, ?_⟩
  cases hnext : (s.progs e.1).next with
  | none =>
      rw [Atomic.Pool.step_finished hnext]
      exact h.cache
  | some c =>
      rw [Atomic.Pool.step_store hnext]
      exact costCacheOwn_execApi ((h.spared e.1).of_next hnext) h.cache

theorem Sparing.viewOf_step (h : Sparing codec t reqs s) :
    (Atomic.Pool.step execApi s e).store.data.viewOf t = s.store.data.viewOf t := by
  cases hnext : (s.progs e.1).next with
  | none => rw [Atomic.Pool.step_finished hnext]
  | some c =>
      rw [Atomic.Pool.step_store hnext]
      exact viewOf_execApi ((h.spared e.1).of_next hnext)

theorem Sparing.policy?_step (h : Sparing codec t reqs s) (he : ¬ (reqs e.1).administers t) :
    (Atomic.Pool.step execApi s e).store.db.policy? t = s.store.db.policy? t := by
  cases hnext : (s.progs e.1).next with
  | none => rw [Atomic.Pool.step_finished hnext]
  | some c =>
      rw [Atomic.Pool.step_store hnext]
      exact policy?_execApi ((h.spared e.1).of_next hnext) he

theorem Sparing.viewOf_run (h : Sparing codec t reqs s) (es : List (ι × ApiTick)) :
    (Atomic.Pool.run execApi es s).store.data.viewOf t = s.store.data.viewOf t := by
  induction es generalizing s with
  | nil => rfl
  | cons e es ih => rw [Atomic.Pool.run_cons, ih h.step, h.viewOf_step]

theorem Sparing.policy?_run (h : Sparing codec t reqs s) {es : List (ι × ApiTick)}
    (hes : ∀ e ∈ es, ¬ (reqs e.1).administers t) :
    (Atomic.Pool.run execApi es s).store.db.policy? t = s.store.db.policy? t := by
  induction es generalizing s with
  | nil => rfl
  | cons e es ih =>
      obtain ⟨he, hes⟩ := List.forall_mem_cons.mp hes
      rw [Atomic.Pool.run_cons, ih h.step hes, h.policy?_step he]

variable (crypto : AuditCrypto) (signingKey : String) (toRfc3339 : DateTime → String)

/-- **Requests of other tenants**: any number of them, in any order of their commands, leave the rules,
the cases and the cost policy of a tenant as they are, and its compliance policy unless an admin
names the tenant in the query of a request that writes it. -/
theorem foreign_requests_spare (hcodec : codec.KeepsTenant) (t : String) (reqs : ι → ApiRequest)
    (hforeign : ∀ i, ForeignTo t (reqs i).claims) (b : Backend) (hcache : CostCacheOwn codec b.data)
    (schedule : List (ι × ApiTick)) :
    let after := (Atomic.Pool.run execApi schedule
      (apiPool crypto signingKey toRfc3339 codec reqs b)).store
    after.data.viewOf t = b.data.viewOf t ∧
      ((∀ e ∈ schedule, ¬ (reqs e.1).administers t) → after.db.policy? t = b.db.policy? t) := by
  have hstart : Sparing codec t reqs (apiPool crypto signingKey toRfc3339 codec reqs b) :=
    ⟨fun i => (reqs i).prog_spared crypto signingKey toRfc3339 hcodec (hforeign i), hcache⟩
  exact ⟨hstart.viewOf_run schedule, hstart.policy?_run⟩

end runs

/-! ### An analyst and an admin of another tenant -/

def ofT2 (role : String) : Option Claims := some ⟨"u2", "t2", "c@d.e", [role], none⟩

/-- An analyst of `t2` resolves a case of `t1`, and an admin of `t2` records a rotation of `t2`. -/
def foreignRequests : Bool → ApiRequest
  | true => ⟨ofT2 "analyst", .mutate (.updateCase "c1" { status := some .resolved })⟩
  | false => ⟨ofT2 "admin", .mutate (.recordKeyRotation none)⟩

/-- An admin of `t2` records a rotation of `t1`. -/
def administering : Unit → ApiRequest := fun _ =>
  ⟨ofT2 "admin", .mutate (.recordKeyRotation (some "t1"))⟩

/-- A serialisation that is not used by these requests. -/
def noCodec : PolicyCodec := ⟨fun _ => .error "", fun _ => none⟩

def apiTick : ApiTick := { firstTick with }

def foreignSchedule : List (Bool × ApiTick) :=
  List.replicate 8 (true, apiTick) ++ List.replicate 8 (false, apiTick)

theorem foreignRequests_spare :
    let after := (Atomic.Pool.run execApi foreignSchedule
      (apiPool sampleCrypto "key" (fun _ => "") noCodec foreignRequests twoOverdueCases)).store
    after.data.viewOf "t1" = twoOverdueCases.data.viewOf "t1" ∧
      ((∀ e ∈ foreignSchedule, ¬ (foreignRequests e.1).administers "t1") →
        after.db.policy? "t1" = twoOverdueCases.db.policy? "t1") := by
  refine foreign_requests_spare sampleCrypto "key" (fun _ => "") ?_ "t1" foreignRequests ?_
    twoOverdueCases ?_ foreignSchedule
  · rintro p text h
    cases h
  · intro i c hc
    have hother : c.tenantId = "t2" := by
      cases i <;> exact congrArg Claims.tenantId (Option.some.inj hc).symm
    rw [hother]
    decide
  · rintro tenantId cached h
    cases h

/-- The compliance policy of `t1` is written by an admin of `t2`. -/
theorem administering_not_spares :
    ¬ ∀ (reqs : Unit → ApiRequest) (b : Backend) (schedule : List (Unit × ApiTick)),
      (∀ i, ForeignTo "t1" (reqs i).claims) → CostCacheOwn noCodec b.data →
      (Atomic.Pool.run execApi schedule
        (apiPool sampleCrypto "key" (fun _ => "") noCodec reqs b)).store.db.policy? "t1" =
          b.db.policy? "t1" := by
  intro h
  have hsame := h administering twoOverdueCases (List.replicate 5 ((), apiTick))
    (fun i c hc => by
      have hother : c.tenantId = "t2" := congrArg Claims.tenantId (Option.some.inj hc).symm
      rw [hother]
      decide)
    (fun tenantId cached hcached => by cases hcached)
  have hrotated := congrArg (fun p => p.map fun q => q.lastKeyRotationAt.isSome) hsame
  revert hrotated
  decide +kernel

end MiniSiem
