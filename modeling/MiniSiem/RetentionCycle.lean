import MiniSiem.LegalHold
import MiniSiem.Lib.Guarantees

/-! # What a retention cycle leaves

The audit events and the alerts after `run_tenant_retention_cycle` (`main.rs`), against the policy that
`get_tenant_compliance_policy` returns for their tenant.

* **Runs.**  `Faultless`: the cycle runs alone, no command fails, and the clock does not go back.
* **Retention.**  `RetainedBy`: of the rows of a tenant exactly those are left which its policy keeps at a
  time, compared in microseconds as the columns hold them.
* **Tenants without a policy.**  The cycle goes through the stored policies, while a tenant without one is
  answered the default.  `retention_respected_iff`: what the policies say is done exactly when no such
  tenant has rows that the default does not keep. -/

namespace MiniSiem

open Atomic

/-! ### What a policy keeps -/

/-- The time is not older than the policy's days. -/
def TenantCompliancePolicy.retains (p : TenantCompliancePolicy) (now createdAt : DateTime) : Bool :=
  match p.cutoff now with
  | some cutoff => (DateTime.stored cutoff).1 ≤ createdAt.1
  | none => true

/-- The rows of a tenant that are left are those with a time that is kept. -/
structure RowsKept (before after : Database) (tenantId : String) (keep : DateTime → Prop) : Prop where
  auditEvents : ∀ e : AuditEvent, e.tenantId = tenantId →
    (e ∈ after.auditEvents ↔ e ∈ before.auditEvents ∧ keep e.createdAt)
  alerts : ∀ r : AlertRow, r.tenantId = tenantId →
    (r ∈ after.alerts.rows ↔ r ∈ before.alerts.rows ∧ keep r.createdAt.1)

/-- A hold that is active keeps every row; without one the row has to be young enough. -/
def TenantCompliancePolicy.Keeps (p : TenantCompliancePolicy) (now createdAt : DateTime) : Prop :=
  p.holdActive now = true ∨ p.retains now createdAt = true

/-- The rows of the tenant are kept by the policy that a request would be answered. -/
def RetainedBy (before after : Database) (tenantId : String) (now : DateTime) : Prop :=
  RowsKept before after tenantId ((before.getTenantCompliancePolicy now tenantId).Keeps now)

/-- For every tenant there is a time of the cycle at which its policy keeps the rows that are left. -/
def RetentionRespected (before after : Database) : Prop :=
  ∀ tenantId, ∃ now, before.clock ≤ now ∧ now ≤ after.clock ∧ RetainedBy before after tenantId now

/-- The default policy keeps the rows of each tenant that has stored none. -/
def DefaultSuffices (db : Database) : Prop :=
  ∀ tenantId, db.policy? tenantId = none →
    (∀ e ∈ db.auditEvents, e.tenantId = tenantId →
      (TenantCompliancePolicy.defaultForTenant db.clock tenantId).retains db.clock e.createdAt = true) ∧
    ∀ r ∈ db.alerts.rows, r.tenantId = tenantId →
      (TenantCompliancePolicy.defaultForTenant db.clock tenantId).retains db.clock r.createdAt.1 = true

/-- A command is executed and does not fail. -/
def Faultless (s : Database) (c : DbCmd) (r : c.Reply) (s' : Database) : Prop :=
  ∃ tick : Tick, tick.fault = none ∧ s.clock ≤ tick.clock ∧ r = (execDb tick c s).1 ∧
    s' = (execDb tick c s).2

/-! ### Rows -/

section rows

variable {s s₁ s₂ : Database} {tenantId : String} {keep keep' : DateTime → Prop}

theorem RowsKept.congr (h : RowsKept s s₁ tenantId keep) (hkeep : ∀ t, keep t ↔ keep' t) :
    RowsKept s s₁ tenantId keep' := by
  obtain rfl : keep = keep' := funext fun t => propext (hkeep t)
  exact h

theorem RowsKept.trans (h : RowsKept s s₁ tenantId keep) (h' : RowsKept s₁ s₂ tenantId keep') :
    RowsKept s s₂ tenantId fun t => keep t ∧ keep' t := by
  refine ⟨fun e he => ?_, fun r hr => ?_⟩
  · rw [h'.auditEvents e he, h.auditEvents e he, and_assoc]
  · rw [h'.alerts r hr, h.alerts r hr, and_assoc]

/-- No row has changed. -/
structure SameRows (s s' : Database) : Prop where
  auditEvents : s'.auditEvents = s.auditEvents
  alerts : s'.alerts.rows = s.alerts.rows

theorem SameRows.trans (h : SameRows s s₁) (h' : SameRows s₁ s₂) : SameRows s s₂ :=
  ⟨h'.auditEvents.trans h.auditEvents, h'.alerts.trans h.alerts⟩

theorem SameRows.kept (h : SameRows s s₁) (tenantId : String) :
    RowsKept s s₁ tenantId fun _ => True := by
  refine ⟨fun e _ => ?_, fun r _ => ?_⟩
  · rw [h.auditEvents, and_true]
  · rw [h.alerts, and_true]

/-- Both purges of a tenant. -/
theorem purge_kept {policyTenant : String} {cutoff : DateTime} {c₁ c₂ : DateTime} (tenantId : String) :
    RowsKept s ((((s.purgeAuditEventsBefore policyTenant cutoff).atTime c₁).purgeAlertsBefore
        policyTenant cutoff).atTime c₂) tenantId
      fun t => tenantId = policyTenant → (DateTime.stored cutoff).1 ≤ t.1 := by
  refine ⟨fun e he => ?_, fun r hr => ?_⟩
  · show e ∈ s.auditEvents.filter _ ↔ _
    rw [List.mem_filter, ← he]
    simp [imp_iff_not_or]
  · show r ∈ s.alerts.rows.filter _ ↔ _
    rw [List.mem_filter, ← hr]
    simp [imp_iff_not_or]

end rows

/-! ### Commands that do not fail -/

section commands

variable {s s' : Database}

theorem attempt_of_unfailing {β : Type} {tick : Tick} (h : tick.fault = none) (reply : β) :
    tick.attempt s (.ok (reply, s')) = (.ok reply, s'.atTime tick.clock) := by
  unfold Tick.attempt
  rw [h]

theorem faultless_now {r : DateTime} (h : Faultless s .now r s') :
    s.clock ≤ r ∧ s'.clock = r ∧ SameRows s s' := by
  obtain ⟨tick, -, hclock, rfl, rfl⟩ := h
  exact ⟨hclock, rfl, rfl, rfl⟩

theorem faultless_list {r : Except String (List TenantCompliancePolicy)}
    (h : Faultless s .listTenantCompliancePolicies r s') :
    r = .ok s.listTenantCompliancePolicies ∧ s.clock ≤ s'.clock ∧ SameRows s s' := by
  obtain ⟨tick, hfault, hclock, rfl, rfl⟩ := h
  have hexec : execDb tick .listTenantCompliancePolicies s =
      (.ok s.listTenantCompliancePolicies, s.atTime tick.clock) := attempt_of_unfailing hfault _
  rw [hexec]
  exact ⟨rfl, hclock, rfl, rfl⟩

theorem faultless_purgeAudit {policy : TenantCompliancePolicy} {cutoff : DateTime}
    {r : Except String Unit} (h : Faultless s (.purgeAuditEventsBefore policy cutoff) r s') :
    ∃ now, s.clock ≤ now ∧ s' = (s.purgeAuditEventsBefore policy.tenantId cutoff).atTime now := by
  obtain ⟨tick, hfault, hclock, -, rfl⟩ := h
  exact ⟨tick.clock, hclock, congrArg Prod.snd (attempt_of_unfailing hfault ())⟩

theorem faultless_purgeAlerts {policy : TenantCompliancePolicy} {cutoff : DateTime}
    {r : Except String Unit} (h : Faultless s (.purgeAlertsBefore policy cutoff) r s') :
    ∃ now, s.clock ≤ now ∧ s' = (s.purgeAlertsBefore policy.tenantId cutoff).atTime now := by
  obtain ⟨tick, hfault, hclock, -, rfl⟩ := h
  exact ⟨tick.clock, hclock, congrArg Prod.snd (attempt_of_unfailing hfault ())⟩

theorem faultless_elasticClient {r : Bool} (h : Faultless s .elasticClient r s') :
    s.clock ≤ s'.clock ∧ SameRows s s' := by
  obtain ⟨tick, -, hclock, -, rfl⟩ := h
  exact ⟨hclock, rfl, rfl⟩

theorem faultless_deleteByQuery {policy : TenantCompliancePolicy} {cutoff : DateTime}
    {r : Except String Unit} (h : Faultless s (.deleteByQuery policy cutoff) r s') :
    s.clock ≤ s'.clock ∧ SameRows s s' := by
  obtain ⟨tick, hfault, hclock, -, rfl⟩ := h
  have hexec : (execDb tick (.deleteByQuery policy cutoff) s).2 = s.atTime tick.clock :=
    congrArg Prod.snd (attempt_of_unfailing hfault ())
  rw [hexec]
  exact ⟨hclock, rfl, rfl⟩

end commands

/-! ### The loop -/

/-- The check of the hold says whether it is active at some time of the check. -/
theorem checkHold_guarantees (p : TenantCompliancePolicy) (s : Database) :
    p.checkHold.Guarantees Faultless (fun _ _ => True)
      (fun s' active => SameRows s s' ∧ ∃ now, s.clock ≤ now ∧ now ≤ s'.clock ∧
        p.holdActive now = active) s := by
  have hsame : SameRows s s := ⟨rfl, rfl⟩
  unfold TenantCompliancePolicy.checkHold
  cases hhold : p.legalHold with
  | false =>
      refine ⟨hsame, s.clock, le_rfl, le_rfl, ?_⟩
      unfold TenantCompliancePolicy.holdActive
      rw [hhold, Bool.false_and]
  | true =>
      rw [if_pos rfl]
      cases huntil : p.legalHoldUntil with
      | none =>
          refine ⟨hsame, s.clock, le_rfl, le_rfl, ?_⟩
          unfold TenantCompliancePolicy.holdActive
          rw [hhold, huntil, Bool.true_and]
      | some end_ =>
          intro now s' hnow
          obtain ⟨hle, rfl, hrows⟩ := faultless_now hnow
          refine ⟨trivial, hrows, s'.clock, hle, le_rfl, ?_⟩
          unfold TenantCompliancePolicy.holdActive
          rw [hhold, huntil, Bool.true_and]

/-- What the loop has done when it is finished: the rows of a tenant with a policy are those that it keeps
at a time of the loop, and those of the others are left alone. -/
def LoopDone (policies : List TenantCompliancePolicy) (s s' : Database) : Prop :=
  s.clock ≤ s'.clock ∧
  (∀ p ∈ policies, ∃ now, s.clock ≤ now ∧ now ≤ s'.clock ∧ RowsKept s s' p.tenantId (p.Keeps now)) ∧
  ∀ tenantId, (∀ p ∈ policies, p.tenantId ≠ tenantId) → RowsKept s s' tenantId fun _ => True

/-- One policy before the others. -/
theorem LoopDone.cons {policy : TenantCompliancePolicy} {policies : List TenantCompliancePolicy}
    {s s₁ s' : Database} (hnodup : ((policy :: policies).map (·.tenantId)).Nodup)
    (hpolicy : ∃ now, s.clock ≤ now ∧ now ≤ s₁.clock ∧ RowsKept s s₁ policy.tenantId (policy.Keeps now))
    (hothers : ∀ tenantId, policy.tenantId ≠ tenantId → RowsKept s s₁ tenantId fun _ => True)
    (h : LoopDone policies s₁ s') : LoopDone (policy :: policies) s s' := by
  obtain ⟨now, hbefore, hafter, hkept⟩ := hpolicy
  obtain ⟨hclock, hdone, hrest⟩ := h
  obtain ⟨hnew, -⟩ := List.nodup_cons.mp hnodup
  have hapart : ∀ p ∈ policies, p.tenantId ≠ policy.tenantId := fun p hp heq =>
    hnew (List.mem_map.mpr ⟨p, hp, heq⟩)
  have hle : s.clock ≤ s₁.clock := hbefore.trans hafter
  refine ⟨hle.trans hclock, ?_, ?_⟩
  · intro p hp
    rcases List.mem_cons.mp hp with rfl | hp
    · refine ⟨now, hbefore, hafter.trans hclock, ?_⟩
      exact (hkept.trans (hrest _ hapart)).congr fun t => Iff.of_eq (and_true _)
    · obtain ⟨now', hbefore', hafter', hkept'⟩ := hdone p hp
      refine ⟨now', hle.trans hbefore', hafter', ?_⟩
      exact ((hothers _ (hapart p hp).symm).trans hkept').congr fun t => Iff.of_eq (true_and _)
  · intro tenantId hnone
    have hfirst := hothers tenantId (hnone policy List.mem_cons_self)
    have hlater := hrest tenantId fun p hp => hnone p (List.mem_cons_of_mem _ hp)
    exact (hfirst.trans hlater).congr fun t => Iff.of_eq (and_true _)

/-- A policy without an active hold, both purges of which have been executed, before the others. -/
theorem LoopDone.purged {policy : TenantCompliancePolicy} {policies : List TenantCompliancePolicy}
    {s s₁ s₂ s' : Database} {cutoff c₁ c₂ : DateTime}
    (hnodup : ((policy :: policies).map (·.tenantId)).Nodup) (hrows : SameRows s s₁)
    (hbefore : s.clock ≤ s₁.clock) (hfree : policy.holdActive s₁.clock = false)
    (hcutoff : policy.cutoff s₁.clock = some cutoff)
    (hpurged : SameRows ((((s₁.purgeAuditEventsBefore policy.tenantId cutoff).atTime c₁).purgeAlertsBefore
      policy.tenantId cutoff).atTime c₂) s₂) (hafter : s₁.clock ≤ s₂.clock)
    (h : LoopDone policies s₂ s') : LoopDone (policy :: policies) s s' := by
  have hkept : ∀ tenantId, RowsKept s s₂ tenantId fun t =>
      tenantId = policy.tenantId → (DateTime.stored cutoff).1 ≤ t.1 := fun tenantId =>
    (((hrows.kept tenantId).trans (purge_kept tenantId)).trans (hpurged.kept tenantId)).congr
      fun t => by rw [and_true, true_and]
  refine LoopDone.cons hnodup ⟨s₁.clock, hbefore, hafter, ?_⟩ ?_ h
  · refine (hkept policy.tenantId).congr fun t => ?_
    unfold TenantCompliancePolicy.Keeps TenantCompliancePolicy.retains
    rw [hfree, hcutoff]
    simp
  · intro tenantId hne
    exact (hkept tenantId).congr fun t => iff_of_true (fun heq => absurd heq.symm hne) trivial

theorem retainTenants_guarantees {policies : List TenantCompliancePolicy}
    (hnodup : (policies.map (·.tenantId)).Nodup) (s : Database) :
    (retainTenants policies).Guarantees Faultless (fun _ _ => True)
      (fun s' result => result = .finished → LoopDone policies s s') s := by
  induction policies generalizing s with
  | nil =>
      exact fun _ => ⟨le_rfl, fun p hp => (List.not_mem_nil hp).elim,
        fun tenantId _ => SameRows.kept ⟨rfl, rfl⟩ tenantId⟩
  | cons policy policies ih =>
      have hrest := (List.nodup_cons.mp hnodup).2
      refine Prog.Guarantees.bind (checkHold_guarantees policy s) fun s₁ active hchecked => ?_
      obtain ⟨hrows, now, hbefore, hafter, hactive⟩ := hchecked
      cases active with
      | true =>
          refine (ih hrest s₁).imp fun s' result hdone hresult => ?_
          refine LoopDone.cons hnodup ⟨now, hbefore, hafter, ?_⟩ (fun t _ => hrows.kept t)
            (hdone hresult)
          exact (hrows.kept _).congr fun t => iff_of_true trivial (Or.inl hactive)
      | false =>
          intro now₁ s₂ hnow
          obtain ⟨hle, rfl, hrows₂⟩ := faultless_now hnow
          refine ⟨trivial, ?_⟩
          have hfree : policy.holdActive s₂.clock = false :=
            TenantCompliancePolicy.holdActive_later (hafter.trans hle) hactive
          dsimp only
          cases hcutoff : policy.cutoff s₂.clock with
          | none => exact fun hpanicked => by cases hpanicked
          | some cutoff =>
              refine Prog.guarantees_call fun r₁ s₃ hpurge => ⟨trivial, ?_⟩
              refine Prog.guarantees_call fun r₂ s₄ hpurge' => ⟨trivial, ?_⟩
              refine Prog.guarantees_call fun connected s₅ hconnected => ⟨trivial, ?_⟩
              obtain ⟨c₁, hc₁, rfl⟩ := faultless_purgeAudit hpurge
              obtain ⟨c₂, hc₂, rfl⟩ := faultless_purgeAlerts hpurge'
              obtain ⟨hclock₅, hrows₅⟩ := faultless_elasticClient hconnected
              have hbefore₂ := (hbefore.trans hafter).trans hle
              have hafter₅ := hc₁.trans (hc₂.trans hclock₅)
              cases connected with
              | true =>
                  refine Prog.guarantees_call fun r₃ s₆ hdelete => ⟨trivial, ?_⟩
                  obtain ⟨hclock₆, hrows₆⟩ := faultless_deleteByQuery hdelete
                  refine (ih hrest s₆).imp fun s' result hdone hresult => ?_
                  exact LoopDone.purged hnodup (hrows.trans hrows₂) hbefore₂ hfree hcutoff
                    (hrows₅.trans hrows₆) (hafter₅.trans hclock₆) (hdone hresult)
              | false =>
                  refine (ih hrest s₅).imp fun s' result hdone hresult => ?_
                  exact LoopDone.purged hnodup (hrows.trans hrows₂) hbefore₂ hfree hcutoff hrows₅ hafter₅
                    (hdone hresult)

/-! ### The cycle -/

/-- What is kept later is kept now. -/
theorem TenantCompliancePolicy.retains_earlier {p : TenantCompliancePolicy}
    {now later createdAt : DateTime} (hle : now ≤ later) (h : p.retains later createdAt = true) :
    p.retains now createdAt = true := by
  unfold retains at h ⊢
  cases hnow : p.cutoff now with
  | none => rfl
  | some first =>
      have hval : now.1 ≤ later.1 := hle
      obtain ⟨hlater₁, hlater₂⟩ := later.2
      have hlater : ∃ second, p.cutoff later = some second ∧ first ≤ second := by
        unfold cutoff at hnow ⊢
        simp only at hnow ⊢
        split_ifs at hnow with hrange
        cases hnow
        have hrange' : minSeconds * 1000000000 ≤
              later.1 - max 1 p.retentionDays.toInt * 86400 * 1000000000 ∧
            later.1 - max 1 p.retentionDays.toInt * 86400 * 1000000000 <
              (maxSeconds + 1) * 1000000000 := by
          constructor
          · omega
          · omega
        rw [dif_pos hrange']
        refine ⟨_, rfl, ?_⟩
        show now.1 - _ ≤ later.1 - _
        omega
      obtain ⟨second, hsecond, hmono⟩ := hlater
      rw [hsecond] at h
      have hstored : (DateTime.stored first).1 ≤ (DateTime.stored second).1 :=
        PgTime.encode_mono hmono
      exact decide_eq_true (hstored.trans (of_decide_eq_true h))

section cycle

variable {db after : Database} {tenantId : String}

theorem cycle_guarantees (db : Database) :
    runTenantRetentionCycle.Guarantees Faultless (fun _ _ => True)
      (fun s' result => result = .finished → LoopDone db.listTenantCompliancePolicies db s') db := by
  intro reply s₁ hlist
  obtain ⟨rfl, hclock, hrows⟩ := faultless_list hlist
  refine ⟨trivial, ?_⟩
  have hnodup : (db.listTenantCompliancePolicies.map (·.tenantId)).Nodup :=
    ((List.perm_insertionSort _ _).map _).nodup_iff.mpr db.policies_nodup
  refine (retainTenants_guarantees hnodup s₁).imp fun s' result hdone hresult => ?_
  obtain ⟨hle, hpolicies, hothers⟩ := hdone hresult
  refine ⟨hclock.trans hle, fun p hp => ?_, fun t ht => ?_⟩
  · obtain ⟨now, hbefore, hafter, hkept⟩ := hpolicies p hp
    exact ⟨now, hclock.trans hbefore, hafter,
      ((hrows.kept _).trans hkept).congr fun t => Iff.of_eq (true_and _)⟩
  · exact ((hrows.kept t).trans (hothers t ht)).congr fun t => Iff.of_eq (and_true _)

theorem mem_list_of_policy? {p : TenantCompliancePolicy} (h : db.policy? tenantId = some p) :
    p ∈ db.listTenantCompliancePolicies ∧ p.tenantId = tenantId :=
  ⟨(List.mem_insertionSort _).mpr (KeyedList.mem_of_lookup h), KeyedList.key_of_lookup h⟩

theorem tenantId_ne_of_policy?_eq_none (h : db.policy? tenantId = none) :
    ∀ p ∈ db.listTenantCompliancePolicies, p.tenantId ≠ tenantId := by
  intro p hp heq
  have hmem := (List.mem_insertionSort _).mp hp
  have hne := List.find?_eq_none.mp h p hmem
  exact hne (decide_eq_true heq)

/-- **When retention does what the policies say**: after a cycle that runs alone and in which nothing
fails, exactly when the default keeps all rows of the tenants without a stored policy. -/
theorem retention_respected_iff {stores : List Database}
    (h : runTenantRetentionCycle.Plays Faultless db stores .finished after) :
    RetentionRespected db after ↔ DefaultSuffices db := by
  obtain ⟨hclock, hpolicies, hothers⟩ := ((cycle_guarantees db).plays h).2 rfl
  have hdefault : ∀ now t, db.policy? t = none →
      db.getTenantCompliancePolicy now t = .defaultForTenant now t := by
    intro now t hnone
    unfold Database.getTenantCompliancePolicy
    rw [hnone, Option.getD_none]
  constructor
  · intro hrespected tenantId hnone
    obtain ⟨now, hbefore, -, hretained⟩ := hrespected tenantId
    have hall := hothers tenantId (tenantId_ne_of_policy?_eq_none hnone)
    unfold RetainedBy at hretained
    rw [hdefault now tenantId hnone] at hretained
    have hyoung : ∀ t, (TenantCompliancePolicy.defaultForTenant now tenantId).Keeps now t →
        (TenantCompliancePolicy.defaultForTenant db.clock tenantId).retains db.clock t = true := by
      rintro t (hheld | hyoung)
      · cases hheld
      · exact TenantCompliancePolicy.retains_earlier hbefore hyoung
    refine ⟨fun e he htenant => ?_, fun r hr htenant => ?_⟩
    · have hleft := (hall.auditEvents e htenant).mpr ⟨he, trivial⟩
      exact hyoung _ ((hretained.auditEvents e htenant).mp hleft).2
    · have hleft := (hall.alerts r htenant).mpr ⟨hr, trivial⟩
      exact hyoung _ ((hretained.alerts r htenant).mp hleft).2
  · intro hsuffices tenantId
    cases hpolicy : db.policy? tenantId with
    | some p =>
        obtain ⟨hmem, rfl⟩ := mem_list_of_policy? hpolicy
        obtain ⟨now, hbefore, hafter, hkept⟩ := hpolicies p hmem
        refine ⟨now, hbefore, hafter, ?_⟩
        unfold RetainedBy Database.getTenantCompliancePolicy
        rw [hpolicy, Option.getD_some]
        exact hkept
    | none =>
        have hall := hothers tenantId (tenantId_ne_of_policy?_eq_none hpolicy)
        obtain ⟨hevents, halerts⟩ := hsuffices tenantId hpolicy
        refine ⟨db.clock, le_rfl, hclock, ?_⟩
        unfold RetainedBy
        rw [hdefault db.clock tenantId hpolicy]
        refine ⟨fun e he => ?_, fun r hr => ?_⟩
        · rw [hall.auditEvents e he]
          exact and_congr_right fun hmem => iff_of_true trivial (Or.inr (hevents e hmem he))
        · rw [hall.alerts r hr]
          exact and_congr_right fun hmem => iff_of_true trivial (Or.inr (halerts r hmem hr))

end cycle

/-! ### A tenant that never saved a policy -/

/-- An audit event of the epoch. -/
def epochEvent : AuditEvent where
  id := "9a1b7a54-3f0e-4d0c-8e53-0b7b6b0f4c77"
  tenantId := "t1"
  actorUserId := "u1"
  actorEmail := "a@b.c"
  actorRoles := ["admin"]
  action := "rule.delete"
  resourceType := "rule"
  resourceId := none
  targetTenantId := none
  requestId := none
  metadata := .null
  previousHash := none
  eventHash := "h1"
  signature := "s1"
  createdAt := .ofSeconds 0

/-- Two years later. -/
def twoYearsLater (policies : List TenantCompliancePolicy)
    (h : (policies.map (·.tenantId)).Nodup) : Database :=
  { emptyDatabase with
    clock := .ofSeconds 63072000
    auditEvents := [epochEvent]
    auditEvents_nodup := List.nodup_singleton _
    policies := policies
    policies_nodup := h }

def laterTick : Tick := { clock := .ofSeconds 63072000 }

/-- The default policy is stored: the cycle purges the event. -/
theorem storedDefault_respected : ∃ stores after,
    runTenantRetentionCycle.Plays Faultless
      (twoYearsLater [.defaultForTenant (.ofSeconds 0) "t1"] (List.nodup_singleton _)) stores .finished
      after ∧
    (RetentionRespected
        (twoYearsLater [.defaultForTenant (.ofSeconds 0) "t1"] (List.nodup_singleton _)) after ↔
      DefaultSuffices
        (twoYearsLater [.defaultForTenant (.ofSeconds 0) "t1"] (List.nodup_singleton _))) := by
  have hplays : ∃ stores after, runTenantRetentionCycle.Plays Faultless
      (twoYearsLater [.defaultForTenant (.ofSeconds 0) "t1"] (List.nodup_singleton _)) stores .finished
      after :=
    ⟨_, _, .call ⟨laterTick, rfl, le_rfl, rfl, rfl⟩ <| .call ⟨laterTick, rfl, le_rfl, rfl, rfl⟩ <|
      .call ⟨laterTick, rfl, le_rfl, rfl, rfl⟩ <| .call ⟨laterTick, rfl, le_rfl, rfl, rfl⟩ <|
      .call ⟨laterTick, rfl, le_rfl, rfl, rfl⟩ <| .ret _ _⟩
  obtain ⟨stores, after, hplays⟩ := hplays
  exact ⟨stores, after, hplays, retention_respected_iff hplays⟩

/-- No policy is stored: the cycle leaves an event that is older than the default's days. -/
theorem neverSaved_not_purged : ¬ ∀ (db after : Database) (stores : List Database),
    runTenantRetentionCycle.Plays Faultless db stores .finished after →
      RetentionRespected db after := by
  intro h
  have hplays : runTenantRetentionCycle.Plays Faultless (twoYearsLater [] List.nodup_nil)
      [twoYearsLater [] List.nodup_nil] .finished (twoYearsLater [] List.nodup_nil) :=
    .call ⟨laterTick, rfl, le_rfl, rfl, rfl⟩ (.ret _ _)
  obtain ⟨now, hbefore, hafter, hretained⟩ := h _ _ _ hplays "t1"
  obtain rfl := le_antisymm hafter hbefore
  have hkept := ((hretained.auditEvents epochEvent rfl).mp List.mem_cons_self).2
  rcases hkept with hheld | hyoung
  · cases hheld
  · revert hyoung
    decide +kernel

end MiniSiem
