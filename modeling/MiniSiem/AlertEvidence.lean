import MiniSiem.AlertLoss
import MiniSiem.AlertFallback
import MiniSiem.Lib.Interference
import MiniSiem.RaisedAlerts

/-! # The evidence in the alerts table

Everything that writes to `alerts`, statement by statement: `flush_batch` of the batcher, the path of the
alert worker when the channel to it is full, `handle_alert`, and the purge of the retention task.

* **Programs.**  `AlertWriter.prog`; alone and without faults a flush and the path of the worker do what
  `flushBatch` and `fallback` say (`flushBatchProg_run`, `writeAtOnceProg_run`).
* **Values.**  An alert that a program holds and a row of the table are `Justified`: their events are evidence
  for their rule, tenant and address.  Merging keeps that, since the key of the deduplication has all three.
* **Evidence.**  `evidence_justified`: whatever the order of the statements and whichever of them fail, each
  row shows only logs of its tenant and address for which its rule raises an alert.  `alerts_stay_open`: no
  row is ever closed, and the counter of active alerts is never decremented. -/

namespace MiniSiem

open Atomic

inductive AlertCmd
  | getOpenAlertsByIps (tenantId : String) (ips : List String)
  | getOpenAlertsByIp (tenantId sourceIp : String)
  | createAlertsBatch (alerts : List Alert)
  | upsertAlertsBatch (alerts : List Alert)
  | previousStatus (id : Uuid)
  | updateAlert (alert : Alert)
  | decrementActive
  | purgeAlertsBefore (tenantId : String) (cutoff : PgTime)

abbrev AlertCmd.Reply : AlertCmd → Type
  | .getOpenAlertsByIps _ _ | .getOpenAlertsByIp _ _ => Option (List Alert)
  | .previousStatus _ => Option (Option String)
  | .createAlertsBatch _ | .upsertAlertsBatch _ | .updateAlert _ | .purgeAlertsBefore _ _ => Bool
  | .decrementActive => Unit

/-- A failure of the database, and the order of rows with equal `last_seen`. -/
structure AlertEnv where
  fault : Bool
  rowOrder : RowOrder

/-- `DELETE FROM alerts WHERE tenant_id = $1 AND created_at < $2`. -/
def AlertsTable.purgeAlertsBefore (t : AlertsTable) (tenantId : String) (cutoff : PgTime) : AlertsTable where
  rows := t.rows.filter fun r => !(r.tenantId = tenantId && r.createdAt.1.1 < cutoff.1.1)
  id_nodup := (List.filter_sublist.map _).nodup t.id_nodup

/-- Whether a statement succeeded, and the table after it. -/
def written (t : AlertsTable) : Option AlertsTable → Bool × AlertsTable
  | some t' => (true, t')
  | none => (false, t)

/-- A statement with its effect. -/
def execAlert (env : AlertEnv) : (c : AlertCmd) → AlertsTable → c.Reply × AlertsTable
  | .getOpenAlertsByIps tenantId ips, t => (t.getOpenAlertsByIps env.rowOrder env.fault tenantId ips, t)
  | .getOpenAlertsByIp tenantId sourceIp, t =>
      (t.getOpenAlertsByIp env.rowOrder env.fault tenantId sourceIp, t)
  | .createAlertsBatch alerts, t => written t (t.createAlertsBatch env.fault alerts)
  | .upsertAlertsBatch alerts, t => written t (t.upsertAlertsBatch env.fault alerts)
  | .previousStatus id, t =>
      (if env.fault then none else some ((t.rows.find? fun r => r.id = id).map (·.status)), t)
  | .updateAlert alert, t => written t (t.updateAlert env.fault alert)
  | .decrementActive, t => ((), t)
  | .purgeAlertsBefore tenantId cutoff, t =>
      if env.fault then (false, t) else (true, t.purgeAlertsBefore tenantId cutoff)

abbrev AlertProg (α : Type) := Prog AlertCmd AlertCmd.Reply α

/-! ### The writers -/

/-- The statements of a tenant's part; a failed upsert is only logged. -/
def storePart (creates updates : List Alert) (rest : AlertProg Bool) : AlertProg Bool :=
  .call (.createAlertsBatch creates) fun created =>
    if created then .call (.upsertAlertsBatch updates) fun _ => rest else .ret false

/-- The loop of `flush_batch` over the tenants. -/
def flushTenantsProg (env : BatchEnv) : List TenantEntry → AlertProg Bool
  | [] => .ret true
  | ⟨tenantId, alerts⟩ :: rest =>
      .call (.getOpenAlertsByIps tenantId (alerts.entries.map fun e => e.2.sourceIp)) fun found =>
        let existing := found.getD []
        storePart (toCreate env existing alerts) (toUpdate env existing alerts) (flushTenantsProg env rest)

def flushBatchProg (env : BatchEnv) (buffer : List Alert) : AlertProg Bool :=
  flushTenantsProg env (visitedTenants env buffer)

/-- `"NEW" | "INVESTIGATING"`. -/
def activeStatus (status : String) : Bool := status == "NEW" || status == "INVESTIGATING"

/-- `update_alert` with its counter. -/
def updateAlertProg (alert : Alert) : AlertProg Bool :=
  .call (.previousStatus alert.id) fun status =>
    match status with
    | none => .ret false
    | some status => .call (.updateAlert alert) fun updated =>
        if updated then
          if (status.map activeStatus).getD false && !activeStatus alert.status.toString then
            .call .decrementActive fun _ => .ret true
          else .ret true
        else .ret false

/-- The alert worker when the channel to the batcher is full. -/
def writeAtOnceProg (alert : Alert) : AlertProg Bool :=
  .call (.getOpenAlertsByIp alert.tenantId alert.sourceIp) fun found =>
    match found with
    | some (existing :: _) => updateAlertProg { existing with
        lastSeen := alert.lastSeen
        eventsCount := existing.eventsCount + alert.eventsCount }
    | some [] => .call (.createAlertsBatch [alert]) .ret
    | none => .call (.createAlertsBatch [alert]) fun _ => .ret false

inductive AlertWriter
  | flushBatch (env : BatchEnv) (buffer : List Alert)
  | writeAtOnce (alert : Alert)
  | handleAlert (alert : Alert)
  | purgeAlerts (tenantId : String) (cutoff : PgTime)

namespace AlertWriter

def prog : AlertWriter → AlertProg Bool
  | flushBatch env buffer => flushBatchProg env buffer
  | writeAtOnce alert => writeAtOnceProg alert
  | handleAlert alert => .call (.createAlertsBatch [alert]) .ret
  | purgeAlerts tenantId cutoff => .call (.purgeAlertsBefore tenantId cutoff) .ret

/-- The alerts it is given. -/
def alerts : AlertWriter → List Alert
  | flushBatch _ buffer => buffer
  | writeAtOnce alert | handleAlert alert => [alert]
  | purgeAlerts _ _ => []

end AlertWriter

/-! ### Alone -/

section alone

variable {env : BatchEnv} (t : AlertsTable)

/-- The environment of a flush whose statements all reach the database. -/
def BatchEnv.reachable (env : BatchEnv) : AlertEnv := ⟨false, env.rowOrder⟩

theorem storePart_run (e : AlertEnv) (creates updates : List Alert) (rest : AlertProg Bool) :
    (storePart creates updates rest).run (execAlert e) t =
      match t.createAlertsBatch e.fault creates with
      | none => (false, t)
      | some t₁ => rest.run (execAlert e) ((t₁.upsertAlertsBatch e.fault updates).getD t₁) := by
  unfold storePart
  rw [Prog.run, execAlert]
  cases t.createAlertsBatch e.fault creates with
  | none => rfl
  | some t₁ =>
      show Prog.run (execAlert e) (.call (.upsertAlertsBatch updates) fun _ => rest) t₁ = _
      rw [Prog.run, execAlert]
      dsimp only
      cases t₁.upsertAlertsBatch e.fault updates <;> rfl

theorem flushTenantsProg_run (gs : List TenantEntry) :
    (flushTenantsProg env gs).run (execAlert env.reachable) t =
      ((flushTenants env .none gs t).ok, (flushTenants env .none gs t).table) := by
  induction gs generalizing t with
  | nil => rfl
  | cons g rest ih =>
      obtain ⟨tenantId, alerts⟩ := g
      have hexisting : (t.getOpenAlertsByIps env.rowOrder false tenantId
            (alerts.entries.map fun e => e.2.sourceIp)).getD [] =
          existingAlerts env .none t tenantId alerts := rfl
      have hfaults : FlushFaults.none.create tenantId = false ∧ FlushFaults.none.update tenantId = false :=
        ⟨rfl, rfl⟩
      rw [flushTenantsProg, Prog.run, execAlert, flushTenants, hfaults.1, hfaults.2]
      dsimp only [BatchEnv.reachable]
      rw [hexisting]
      generalize existingAlerts env .none t tenantId alerts = existing
      refine (storePart_run t env.reachable _ _ _).trans ?_
      dsimp only [BatchEnv.reachable]
      cases t.createAlertsBatch false (toCreate env existing alerts) with
      | none => rfl
      | some t₁ =>
          dsimp only
          cases t₁.upsertAlertsBatch false (toUpdate env existing alerts) with
          | none => exact ih t₁
          | some t₂ => exact ih t₂

/-- **A flush alone** is `flush_batch`. -/
theorem flushBatchProg_run (buffer : List Alert) :
    (flushBatchProg env buffer).run (execAlert env.reachable) t =
      ((flushBatch env .none t buffer).1.ok, (flushBatch env .none t buffer).1.table) := by
  rw [flushBatch_outcome]
  exact flushTenantsProg_run t _

/-- **The path of the worker alone** is `fallback`. -/
theorem writeAtOnceProg_run (order : RowOrder) (a : Alert) :
    (writeAtOnceProg a).run (execAlert ⟨false, order⟩) t =
      ((fallback order ⟨false, false, false⟩ t a).2, (fallback order ⟨false, false, false⟩ t a).1) := by
  unfold writeAtOnceProg fallback
  rw [Prog.run, execAlert]
  dsimp only
  cases t.getOpenAlertsByIp order false a.tenantId a.sourceIp with
  | none =>
      dsimp only
      rw [Prog.run, execAlert]
      unfold AlertsTable.createAlert
      cases t.createAlertsBatch false [a] <;> rfl
  | some found =>
      cases found with
      | nil =>
          dsimp only
          rw [Prog.run, execAlert]
          unfold AlertsTable.createAlert
          cases t.createAlertsBatch false [a] <;> rfl
      | cons existing _ =>
          dsimp only
          unfold updateAlertProg
          rw [Prog.run, execAlert]
          dsimp only
          rw [if_neg Bool.false_ne_true, Prog.run, execAlert]
          dsimp only
          cases t.updateAlert false _ with
          | none => rfl
          | some t' =>
              show Prog.run _ (if _ = true then .call AlertCmd.decrementActive fun _ => .ret true
                else .ret true) t' = (true, t')
              split_ifs <;> rfl

end alone

/-! ### Justified values -/

section justified

-- what an identifier stands for (a tenant, a rule and an address), and which logs are evidence for it
variable (subject : Uuid → String × String × String) (evidence : String → String → String → Log → Prop)

/-- An alert that is about its subject and shows nothing but evidence. -/
structure Alert.Justified (a : Alert) : Prop where
  subject : subject a.id = (a.tenantId, a.ruleId, a.sourceIp)
  events_ne : a.events ≠ []
  evidence : ∀ e ∈ a.events, evidence a.tenantId a.ruleId a.sourceIp e
  status : a.status = .new

structure AlertRow.Justified (r : AlertRow) : Prop where
  subject : subject r.id = (r.tenantId, r.ruleId, r.sourceIp)
  evidence : ∃ es, r.events = some es ∧ es ≠ [] ∧ ∀ e ∈ es, evidence r.tenantId r.ruleId r.sourceIp e
  status : r.status = "NEW"

/-- The alerts of a statement are justified, and the counter is not decremented. -/
def AlertCmd.Sound : AlertCmd → Prop
  | .createAlertsBatch alerts | .upsertAlertsBatch alerts => ∀ a ∈ alerts, a.Justified subject evidence
  | .updateAlert alert => alert.status = .new
  | .decrementActive => False
  | _ => True

/-- The alerts that a lookup finds are justified. -/
def AlertCmd.SoundReply : (c : AlertCmd) → c.Reply → Prop
  | .getOpenAlertsByIps _ _, found | .getOpenAlertsByIp _ _, found =>
      ∀ alerts, found = some alerts → ∀ a ∈ alerts, a.Justified subject evidence
  | _, _ => True

variable {subject evidence} {a b : Alert} {r : AlertRow}

theorem Alert.Justified.mergeAlert {fp : String → UInt64} (ha : a.Justified subject evidence)
    (hb : b.Justified subject evidence) (hkey : alertDedupKey fp a = alertDedupKey fp b) :
    (mergeAlert a b).Justified subject evidence where
  subject := ha.subject
  events_ne := by
    show a.events ++ b.events ≠ []
    exact List.append_ne_nil_of_left_ne_nil ha.events_ne _
  evidence e he := by
    unfold alertDedupKey at hkey
    simp only [AlertDedupKey.mk.injEq] at hkey
    obtain ⟨htenant, hrule, hip, -, -⟩ := hkey
    rcases List.mem_append.mp (show e ∈ a.events ++ b.events from he) with he | he
    · exact ha.evidence e he
    · show evidence a.tenantId a.ruleId a.sourceIp e
      rw [htenant, hrule, hip]
      exact hb.evidence e he
  status := ha.status

theorem Alert.Justified.ofAlert (ha : a.Justified subject evidence) :
    (AlertRow.ofAlert a).Justified subject evidence where
  subject := ha.subject
  evidence := ⟨a.events, rfl, ha.events_ne, ha.evidence⟩
  status := by
    show a.status.toString = "NEW"
    rw [ha.status]
    rfl

theorem AlertRow.Justified.intoAlert (hr : r.Justified subject evidence) :
    r.intoAlert.Justified subject evidence := by
  obtain ⟨es, hevents, hne, hevidence⟩ := hr.evidence
  have hes : r.intoAlert.events = es := by
    show r.events.getD [] = es
    rw [hevents]
    rfl
  refine ⟨hr.subject, hes ▸ hne, fun e he => hevidence e (hes ▸ he), ?_⟩
  show (AlertStatus.fromStr r.status).getD .new = .new
  rw [hr.status]
  decide

theorem AlertRow.Justified.conflictRow (hr : r.Justified subject evidence) (ha : a.Justified subject evidence)
    (hrow : AlertsTable.isRowOf a r = true) : (AlertsTable.conflictRow a r).Justified subject evidence := by
  have hid : r.id = a.id := of_decide_eq_true (Bool.and_eq_true_iff.mp hrow).2
  have hsame : (r.tenantId, r.ruleId, r.sourceIp) = (a.tenantId, a.ruleId, a.sourceIp) := by
    rw [← hr.subject, hid, ha.subject]
  obtain ⟨htenant, hrule, hip⟩ : r.tenantId = a.tenantId ∧ r.ruleId = a.ruleId ∧ r.sourceIp = a.sourceIp := by
    simpa using hsame
  refine ⟨hr.subject, ⟨a.events, rfl, ha.events_ne, fun e he => ?_⟩, ?_⟩
  · show evidence r.tenantId r.ruleId r.sourceIp e
    rw [htenant, hrule, hip]
    exact ha.evidence e he
  · show a.status.toString = "NEW"
    rw [ha.status]
    rfl

theorem AlertRow.Justified.updatedRow (hr : r.Justified subject evidence) (hstatus : a.status = .new) :
    (AlertsTable.updatedRow a r).Justified subject evidence where
  subject := hr.subject
  evidence := hr.evidence
  status := by
    show a.status.toString = "NEW"
    rw [hstatus]
    rfl

/-! ### What a flush writes -/

theorem mergeAll_justified {fp : String → UInt64} {as : List Alert} {m : Alert}
    (has : ∀ b ∈ as, b.Justified subject evidence) {key : AlertDedupKey}
    (hkey : ∀ b ∈ as, alertDedupKey fp b = key) (hm : mergeAll as = some m) :
    m.Justified subject evidence ∧ alertDedupKey fp m = key := by
  induction as using List.reverseRecOn generalizing m with
  | nil => cases hm
  | append_singleton as b ih =>
      have hb := has b (by simp)
      have hbkey := hkey b (by simp)
      rw [mergeAll_concat] at hm
      cases hall : mergeAll as with
      | none =>
          rw [hall] at hm
          obtain rfl := Option.some.inj hm
          exact ⟨hb, hbkey⟩
      | some existing =>
          rw [hall] at hm
          obtain rfl := Option.some.inj hm
          obtain ⟨hexisting, hexistingKey⟩ := ih (fun c hc => has c (by simp [hc]))
            (fun c hc => hkey c (by simp [hc])) hall
          have hsame := hexistingKey.trans hbkey.symm
          exact ⟨hexisting.mergeAlert hb hsame, (alertDedupKey_mergeAlert fp hsame).trans hexistingKey⟩

/-- The entries that a flush visits hold justified alerts under their keys. -/
theorem visited_justified {env : BatchEnv} {buffer : List Alert}
    (hbuffer : ∀ b ∈ buffer, b.Justified subject evidence) {g : TenantEntry}
    (hg : g ∈ visitedTenants env buffer) {key : AlertDedupKey} {m : Alert} (he : ⟨key, m⟩ ∈ g.2.entries) :
    m.Justified subject evidence ∧ alertDedupKey env.fingerprint m = key := by
  have hkeyed := visitedTenants_wellKeyed env buffer g hg ⟨key, m⟩ he
  have hentry : (byTenant env.fingerprint buffer).lookup key.tenantId = some g.2 := by
    rw [hkeyed.2]
    exact AList.mem_lookup_iff.mpr ((env.tenantOrder.perm _).mem_iff.mp hg)
  have hgroup : (byTenant env.fingerprint buffer).group key = some m := by
    unfold ByTenant.group
    rw [hentry]
    exact AList.mem_lookup_iff.mpr he
  rw [group_byTenant] at hgroup
  exact mergeAll_justified (fun b hb => hbuffer b (List.mem_filter.mp hb).1)
    (fun b hb => of_decide_eq_true (List.mem_filter.mp hb).2) hgroup

section part

variable {env : BatchEnv} {alerts : TenantAlerts} {existing : List Alert}
  (halerts : ∀ key m, ⟨key, m⟩ ∈ alerts.entries →
    m.Justified subject evidence ∧ alertDedupKey env.fingerprint m = key)
include halerts

theorem toCreate_justified (ha : a ∈ toCreate env existing alerts) : a.Justified subject evidence := by
  obtain ⟨⟨key, m⟩, he, hsome⟩ := List.mem_filterMap.mp ha
  split at hsome
  · cases hsome
  · obtain rfl := Option.some.inj hsome
    exact (halerts key m ((env.keyOrder.perm _).mem_iff.mp he)).1

theorem toUpdate_justified (hexisting : ∀ b ∈ existing, b.Justified subject evidence)
    (ha : a ∈ toUpdate env existing alerts) : a.Justified subject evidence := by
  obtain ⟨⟨key, m⟩, he, hsome⟩ := List.mem_filterMap.mp ha
  obtain ⟨old, hold, rfl⟩ := Option.map_eq_some_iff.mp hsome
  obtain ⟨hmem, hkey⟩ := existingFor_eq_some env hold
  obtain ⟨hm, hmkey⟩ := halerts key m ((env.keyOrder.perm _).mem_iff.mp he)
  exact (hexisting old hmem).mergeAlert hm (hkey.trans hmkey.symm)

end part

/-! ### The statements keep the rows justified -/

section table

variable {t t' : AlertsTable} {alerts : List Alert}

/-- Every row is justified. -/
abbrev AlertsTable.Justified (subject : Uuid → String × String × String)
    (evidence : String → String → String → Log → Prop) (t : AlertsTable) : Prop :=
  ∀ r ∈ t.rows, r.Justified subject evidence

theorem AlertsTable.Justified.insert (ht : t.Justified subject evidence)
    (halerts : ∀ b ∈ alerts, b.Justified subject evidence) (h : t.FreshIds alerts) :
    (t.insert alerts h).Justified subject evidence := by
  intro r hr
  rcases List.mem_append.mp hr with hr | hr
  · exact ht r hr
  · obtain ⟨b, hb, rfl⟩ := List.mem_map.mp hr
    exact (halerts b hb).ofAlert

theorem AlertsTable.Justified.createAlertsBatch {fault : Bool} (ht : t.Justified subject evidence)
    (halerts : ∀ b ∈ alerts, b.Justified subject evidence) (h : t.createAlertsBatch fault alerts = some t') :
    t'.Justified subject evidence := by
  unfold AlertsTable.createAlertsBatch at h
  split_ifs at h with hempty hfails hfresh
  · exact Option.some.inj h ▸ ht
  · exact Option.some.inj h ▸ ht.insert halerts hfresh

theorem AlertsTable.Justified.upsertAlert (ht : t.Justified subject evidence)
    (ha : a.Justified subject evidence) (h : t.upsertAlert a = some t') : t'.Justified subject evidence := by
  unfold AlertsTable.upsertAlert at h
  split_ifs at h with hrow hfresh
  · obtain rfl := Option.some.inj h
    intro r hr
    obtain ⟨r₀, hr₀, rfl⟩ := List.mem_map.mp hr
    split_ifs with hown
    · exact (ht r₀ hr₀).conflictRow ha hown
    · exact ht r₀ hr₀
  · exact Option.some.inj h ▸ ht.insert (fun b hb => List.mem_singleton.mp hb ▸ ha) hfresh

theorem AlertsTable.Justified.upsertAlertsBatch {fault : Bool} (ht : t.Justified subject evidence)
    (halerts : ∀ b ∈ alerts, b.Justified subject evidence) (h : t.upsertAlertsBatch fault alerts = some t') :
    t'.Justified subject evidence := by
  unfold AlertsTable.upsertAlertsBatch at h
  split_ifs at h
  · exact Option.some.inj h ▸ ht
  · clear * - ht halerts h
    induction alerts generalizing t with
    | nil => exact Option.some.inj h ▸ ht
    | cons b bs ih =>
        obtain ⟨hb, hbs⟩ := List.forall_mem_cons.mp halerts
        obtain ⟨t₁, hfirst, hrest⟩ := Option.bind_eq_some_iff.mp h
        exact ih (ht.upsertAlert hb hfirst) hbs hrest

theorem AlertsTable.Justified.updateAlert {fault : Bool} (ht : t.Justified subject evidence)
    (hstatus : a.status = .new) (h : t.updateAlert fault a = some t') : t'.Justified subject evidence := by
  unfold AlertsTable.updateAlert at h
  split_ifs at h
  obtain rfl := Option.some.inj h
  intro r hr
  obtain ⟨r₀, hr₀, rfl⟩ := List.mem_map.mp hr
  split_ifs
  · exact (ht r₀ hr₀).updatedRow hstatus
  · exact ht r₀ hr₀

theorem written_justified {result : Option AlertsTable} (ht : t.Justified subject evidence)
    (h : ∀ t', result = some t' → t'.Justified subject evidence) :
    (written t result).2.Justified subject evidence := by
  cases result with
  | none => exact ht
  | some t' => exact h t' rfl

theorem execAlert_justified (e : AlertEnv) (c : AlertCmd) (ht : t.Justified subject evidence)
    (hc : c.Sound subject evidence) : (execAlert e c t).2.Justified subject evidence := by
  cases c with
  | getOpenAlertsByIps | getOpenAlertsByIp | previousStatus | decrementActive => exact ht
  | createAlertsBatch => exact written_justified ht fun t' h => ht.createAlertsBatch hc h
  | upsertAlertsBatch => exact written_justified ht fun t' h => ht.upsertAlertsBatch hc h
  | updateAlert => exact written_justified ht fun t' h => ht.updateAlert hc h
  | purgeAlertsBefore =>
      rw [execAlert]
      split_ifs
      · exact ht
      · exact fun r hr => ht r (List.mem_filter.mp hr).1

theorem execAlert_soundReply (e : AlertEnv) (c : AlertCmd) (ht : t.Justified subject evidence) :
    c.SoundReply subject evidence (execAlert e c t).1 := by
  cases c with
  | getOpenAlertsByIps tenantId ips =>
      intro alerts hfound a ha
      change t.getOpenAlertsByIps e.rowOrder e.fault tenantId ips = some alerts at hfound
      unfold AlertsTable.getOpenAlertsByIps at hfound
      split_ifs at hfound
      · rw [← Option.some.inj hfound] at ha
        cases ha
      · rw [← Option.some.inj hfound] at ha
        obtain ⟨r, hr, rfl⟩ := List.mem_map.mp ha
        exact (ht r (List.mem_filter.mp ((e.rowOrder.perm _).mem_iff.mp hr)).1).intoAlert
  | getOpenAlertsByIp tenantId sourceIp =>
      intro alerts hfound a ha
      change t.getOpenAlertsByIp e.rowOrder e.fault tenantId sourceIp = some alerts at hfound
      unfold AlertsTable.getOpenAlertsByIp at hfound
      split_ifs at hfound
      rw [← Option.some.inj hfound] at ha
      obtain ⟨r, hr, rfl⟩ := List.mem_map.mp ha
      exact (ht r (List.mem_filter.mp ((e.rowOrder.perm _).mem_iff.mp (List.mem_of_mem_take hr))).1).intoAlert
  | _ => trivial

end table

/-! ### The writers only pass on justified alerts -/

/-- With justified replies, a program issues sound statements only. -/
abbrev PassesOn (subject : Uuid → String × String × String) (evidence : String → String → String → Log → Prop)
    (p : AlertProg Bool) : Prop :=
  p.Ensures (fun (_ : Unit) => AlertCmd.SoundReply subject evidence)
    (fun _ => AlertCmd.Sound subject evidence) ()

theorem passesOn_create (ha : a.Justified subject evidence) (k : Bool → Bool) :
    PassesOn subject evidence (.call (.createAlertsBatch [a]) fun created => .ret (k created)) :=
  fun _ _ => ⟨fun _ hb => List.mem_singleton.mp hb ▸ ha, fun _ _ => trivial⟩

theorem passesOn_flushTenants {env : BatchEnv} {gs : List TenantEntry}
    (hgs : ∀ g ∈ gs, ∀ key m, ⟨key, m⟩ ∈ g.2.entries →
      m.Justified subject evidence ∧ alertDedupKey env.fingerprint m = key) :
    PassesOn subject evidence (flushTenantsProg env gs) := by
  induction gs with
  | nil => exact trivial
  | cons g rest ih =>
      obtain ⟨tenantId, alerts⟩ := g
      obtain ⟨hg, hrest⟩ := List.forall_mem_cons.mp hgs
      intro _ _
      refine ⟨trivial, fun found hfound _ _ => ⟨fun a ha => toCreate_justified hg ha, fun created _ => ?_⟩⟩
      cases created with
      | false => exact trivial
      | true =>
          refine fun _ _ => ⟨fun a ha => toUpdate_justified hg (fun b hb => ?_) ha, fun _ _ => ih hrest⟩
          cases found with
          | none => cases hb
          | some existing => exact hfound existing rfl b hb

theorem passesOn_updateAlert (hstatus : a.status = .new) :
    PassesOn subject evidence (updateAlertProg a) := by
  intro _ _
  refine ⟨trivial, fun status _ => ?_⟩
  cases status with
  | none => exact trivial
  | some status =>
      refine fun _ _ => ⟨hstatus, fun updated _ => ?_⟩
      cases updated with
      | false => exact trivial
      | true =>
          -- the new status is active, so the counter stays
          have hactive : activeStatus a.status.toString = true := by
            rw [hstatus]
            decide
          dsimp only
          rw [if_pos rfl, if_neg (by simp [hactive])]
          exact trivial

theorem passesOn_prog {writer : AlertWriter} (halerts : ∀ b ∈ writer.alerts, b.Justified subject evidence) :
    PassesOn subject evidence writer.prog := by
  cases writer with
  | flushBatch env buffer =>
      exact passesOn_flushTenants fun g hg key m he => visited_justified halerts hg he
  | writeAtOnce b =>
      have hb := halerts b (List.mem_singleton_self b)
      refine fun _ _ => ⟨trivial, fun found hfound => ?_⟩
      cases found with
      | none => exact passesOn_create hb fun _ => false
      | some found =>
          cases found with
          | nil => exact passesOn_create hb id
          | cons existing _ =>
              exact passesOn_updateAlert (hfound _ rfl existing List.mem_cons_self).status
  | handleAlert b => exact passesOn_create (halerts b (List.mem_singleton_self b)) id
  | purgeAlerts => exact fun _ _ => ⟨trivial, fun _ _ => trivial⟩

end justified

/-! ### The whole system -/

/-- The log was processed, is of the tenant and the address, and a rule of the tenant with this identifier
raises an alert for it. -/
def EvidenceFor (tables : Set RulesTable) (logs : Set Log) (tenantId ruleId sourceIp : String) (e : Log) :
    Prop :=
  e ∈ logs ∧ e.tenantId = tenantId ∧ e.sourceIp = sourceIp ∧
    ∃ t ∈ tables, ∃ r ∈ tenantRules t e, r.id = ruleId ∧ r.MayRaise e

/-- The alert is raised by `process_log` for one of the logs, with the rules of one of the tables. -/
def RaisedFrom (tables : Set RulesTable) (logs : Set Log) (a : Alert) : Prop :=
  ∃ t ∈ tables, ∃ log ∈ logs, ∃ eval stats, EvaluatesLog log eval ∧
    a ∈ (processLog (reloadRules t.getEnabledRules) eval stats log).2

/-- The writers of the alerts, at the start of the table. -/
def alertPool {ι : Type} (writers : ι → AlertWriter) : Pool ι AlertCmd AlertCmd.Reply Bool AlertsTable :=
  ⟨fun i => (writers i).prog, emptyAlerts⟩

section system

variable {ι : Type} {tables : Set RulesTable} {logs : Set Log} {writers : ι → AlertWriter}

theorem RaisedFrom.justified {subject : Uuid → String × String × String} {a : Alert}
    (h : RaisedFrom tables logs a) (hsubject : subject a.id = (a.tenantId, a.ruleId, a.sourceIp)) :
    a.Justified subject (EvidenceFor tables logs) := by
  obtain ⟨t, ht, log, hlog, eval, stats, heval, ha⟩ := h
  obtain ⟨r, hr, hraises, hof⟩ := processLog_isOf heval ha
  refine ⟨hsubject, by simp [hof.events], fun e he => ?_, hof.status⟩
  rw [hof.events] at he
  obtain rfl := List.mem_singleton.mp he
  exact ⟨hlog, hof.tenantId.symm, hof.sourceIp.symm, t, ht, r, hr, hof.ruleId.symm, hraises⟩

variable (hraised : ∀ i, ∀ a ∈ (writers i).alerts, RaisedFrom tables logs a)
  (hids : ∀ i j, ∀ a ∈ (writers i).alerts, ∀ b ∈ (writers j).alerts, a.id = b.id →
    a.tenantId = b.tenantId ∧ a.ruleId = b.ruleId ∧ a.sourceIp = b.sourceIp)
include hids

/-- An identifier is given to one alert only, so it stands for a subject. -/
theorem exists_subject : ∃ subject : Uuid → String × String × String,
    ∀ i, ∀ a ∈ (writers i).alerts, subject a.id = (a.tenantId, a.ruleId, a.sourceIp) := by
  classical
  refine ⟨fun id => if h : ∃ i, ∃ a ∈ (writers i).alerts, a.id = id then
    (h.choose_spec.choose.tenantId, h.choose_spec.choose.ruleId, h.choose_spec.choose.sourceIp)
    else ("", "", ""), fun i a ha => ?_⟩
  have hex : ∃ j, ∃ b ∈ (writers j).alerts, b.id = a.id := ⟨i, a, ha, rfl⟩
  dsimp only
  rw [dif_pos hex]
  obtain ⟨hmem, hid⟩ := hex.choose_spec.choose_spec
  obtain ⟨htenant, hrule, hip⟩ := hids _ i _ hmem a ha hid
  rw [htenant, hrule, hip]

variable [DecidableEq ι]
include hraised

theorem alertPool_run (schedule : List (ι × AlertEnv)) : ∃ subject : Uuid → String × String × String,
    (Pool.run execAlert schedule (alertPool writers)).store.Justified subject (EvidenceFor tables logs) ∧
      ∀ i, PassesOn subject (EvidenceFor tables logs)
        ((Pool.run execAlert schedule (alertPool writers)).progs i) := by
  obtain ⟨subject, hsubject⟩ := exists_subject hids
  have hpass : ∀ i, PassesOn subject (EvidenceFor tables logs) ((alertPool writers).progs i) := fun i =>
    passesOn_prog fun a ha => (hraised i a ha).justified (hsubject i a ha)
  exact ⟨subject, Pool.ensures_run (J := AlertsTable.Justified subject (EvidenceFor tables logs))
    (fun e c _ h => execAlert_soundReply e c h) (fun e c _ h hc => execAlert_justified e c h hc)
    (fun r hr => by cases hr) hpass schedule⟩

/-- **No alert is ever closed**: every row stays as new as it was written, and no writer comes to decrement
the counter of active alerts. -/
theorem alerts_stay_open (schedule : List (ι × AlertEnv)) :
    (∀ r ∈ (Pool.run execAlert schedule (alertPool writers)).store.rows, r.status = "NEW") ∧
      ∀ i, ((Pool.run execAlert schedule (alertPool writers)).progs i).next ≠ some .decrementActive := by
  obtain ⟨subject, hrows, hprogs⟩ := alertPool_run hraised hids schedule
  exact ⟨fun r hr => (hrows r hr).status, fun i hnext => (hprogs i).of_next hnext⟩

end system

/-! ### Failed logins from a host that is listed -/

/-- The results of the rules when the domain is found. -/
def hostLoginResults (id : Uuid) (now : DateTime) : CompiledRule → Except RuleError (Option Alert) := fun r =>
  (r.evaluate ⟨fun _ => [1], fun _ => false⟩ (fun _ => 0) id now hostLoginLog
    ⟨⟨fun _ => none, fun _ => none⟩, fun _ => none⟩).1

/-- The alerts of the log: its two tags raise one each. -/
def hostLoginAlerts (id : Uuid) (now : DateTime) : List Alert :=
  (processLog (reloadRules hostLoginTable.getEnabledRules) (hostLoginResults id now) ⟨0, 0, 0, 0⟩
    hostLoginLog).2

/-- Three flushes, the path of the worker, and a purge of what is older than a minute. -/
def hostLoginWriters : Fin 5 → AlertWriter
  | 0 => .flushBatch .plain (hostLoginAlerts "a0" (.ofSeconds 0))
  | 1 => .flushBatch .plain (hostLoginAlerts "a1" (.ofSeconds 100))
  | 2 => .flushBatch .plain (hostLoginAlerts "a2" (.ofSeconds 101))
  | 3 =>
      match hostLoginAlerts "a3" (.ofSeconds 102) with
      | a :: _ => .writeAtOnce a
      | [] => .flushBatch .plain []
  | 4 => .purgeAlerts "t1" (PgTime.encode (.ofSeconds 60))

/-- The second row is inserted, the first one purged, and the other alerts are merged into the second. -/
def hostLoginSchedule : List (Fin 5 × AlertEnv) :=
  [0, 0, 0, 1, 1, 4, 1, 2, 2, 2, 3, 3, 3].map fun i => (i, ⟨false, .newestFirst⟩)

theorem hostLoginAlerts_raised {id : Uuid} {now : DateTime} {a : Alert} (ha : a ∈ hostLoginAlerts id now) :
    RaisedFrom {hostLoginTable} {hostLoginLog} a :=
  ⟨hostLoginTable, rfl, hostLoginLog, rfl, hostLoginResults id now, ⟨0, 0, 0, 0⟩,
    fun _ => ⟨_, _, _, _, _, rfl⟩, ha⟩

theorem hostLogin_raised : ∀ i, ∀ a ∈ (hostLoginWriters i).alerts,
    RaisedFrom {hostLoginTable} {hostLoginLog} a := by
  intro i a ha
  match i with
  | 0 | 1 | 2 => exact hostLoginAlerts_raised ha
  | 3 =>
      unfold hostLoginWriters at ha
      cases halerts : hostLoginAlerts "a3" (.ofSeconds 102) with
      | nil =>
          rw [halerts] at ha
          cases ha
      | cons b rest =>
          rw [halerts] at ha
          have hmem : a ∈ hostLoginAlerts "a3" (.ofSeconds 102) := by
            rw [halerts, List.mem_singleton.mp ha]
            exact List.mem_cons_self
          exact hostLoginAlerts_raised hmem
  | 4 => cases ha

theorem hostLogin_ids : ∀ i j, ∀ a ∈ (hostLoginWriters i).alerts, ∀ b ∈ (hostLoginWriters j).alerts,
    a.id = b.id → a.tenantId = b.tenantId ∧ a.ruleId = b.ruleId ∧ a.sourceIp = b.sourceIp := by
  have hrules : ∀ r ∈ tenantRules hostLoginTable hostLoginLog, r.id = "r1" := by decide
  have hof : ∀ i, ∀ a ∈ (hostLoginWriters i).alerts, a.IsOf "r1" hostLoginLog := by
    intro i a ha
    obtain ⟨t, rfl, log, rfl, eval, stats, heval, hmem⟩ := hostLogin_raised i a ha
    obtain ⟨r, hr, -, hof⟩ := processLog_isOf heval hmem
    exact hrules r hr ▸ hof
  intro i j a ha b hb _
  rw [(hof i a ha).tenantId, (hof j b hb).tenantId, (hof i a ha).ruleId, (hof j b hb).ruleId,
    (hof i a ha).sourceIp, (hof j b hb).sourceIp]
  exact ⟨rfl, rfl, rfl⟩

theorem hostLogin_staysOpen :
    (∀ r ∈ (Pool.run execAlert hostLoginSchedule (alertPool hostLoginWriters)).store.rows, r.status = "NEW") ∧
      ∀ i, ((Pool.run execAlert hostLoginSchedule (alertPool hostLoginWriters)).progs i).next ≠
        some .decrementActive :=
  alerts_stay_open hostLogin_raised hostLogin_ids hostLoginSchedule

end MiniSiem
