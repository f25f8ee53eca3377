import MiniSiem.AlertBatcher

/-! # What a flush of the alert batcher stores

Which alerts of a buffer `flush_batch` stores, for every pattern of failing commands.

* **Groups.**  Every alert of the buffer is part of the group of its tenant and key, and a group
  has the tenant and the key of its alerts (`byTenant_wellKeyed`, `exists_group`).
* **Commands.**  `createAlertsBatch_eq_some` and `upsertAlertsBatch_eq` say when the two
  statements succeed and what they leave; neither changes a row of another tenant.
* **Order.**  `flush_created_iff` and `flush_updated_iff`: a tenant's part is stored when no
  tenant visited up to it has a failing insert.
* **Loss.**  `flush_keeps_alerts_iff` describes the flushes after which no alert is lost. -/

namespace MiniSiem

/-! ### Groups -/

/-- Every entry holds an alert with the key of the entry and the tenant of the map. -/
def WellKeyed (fp : String → UInt64) (tenantId : String) (alerts : TenantAlerts) : Prop :=
  ∀ e ∈ alerts.entries, alertDedupKey fp e.2 = e.1 ∧ e.1.tenantId = tenantId

section groups

variable (fp : String → UInt64)

theorem later_bucket {t u : DateTime}
    (h : t.timestamp / max alertDedupWindowSeconds 1 = u.timestamp / max alertDedupWindowSeconds 1) :
    (t.later u).timestamp / max alertDedupWindowSeconds 1 =
      t.timestamp / max alertDedupWindowSeconds 1 := by
  unfold DateTime.later
  split_ifs
  · exact h.symm
  · rfl

/-- Merging alerts with one key keeps the key. -/
theorem alertDedupKey_mergeAlert {existing incoming : Alert}
    (h : alertDedupKey fp existing = alertDedupKey fp incoming) :
    alertDedupKey fp (mergeAlert existing incoming) = alertDedupKey fp existing := by
  unfold alertDedupKey at h ⊢
  simp only [AlertDedupKey.mk.injEq] at h ⊢
  obtain ⟨-, -, -, hprint, hbucket⟩ := h
  refine ⟨rfl, rfl, rfl, ?_, later_bucket hbucket⟩
  unfold mergeAlert
  dsimp only
  split_ifs
  · exact hprint.symm
  · rfl

theorem WellKeyed.add {tenantId : String} {alerts : TenantAlerts} (h : WellKeyed fp tenantId alerts)
    {a : Alert} (ha : a.tenantId = tenantId) : WellKeyed fp tenantId (alerts.add fp a) := by
  intro e he
  unfold TenantAlerts.add at he
  rw [AList.entries_insert] at he
  rcases List.mem_cons.mp he with rfl | he
  · refine ⟨?_, ha⟩
    dsimp only
    cases hl : alerts.lookup (alertDedupKey fp a) with
    | none => rfl
    | some existing =>
        have hkey := (h _ (AList.mem_lookup_iff.mp hl)).1
        exact (alertDedupKey_mergeAlert fp hkey).trans hkey
  · exact h e ((List.kerase_sublist _ _).subset he)

/-- The tenants' maps are well keyed. -/
def ByTenant.WellKeyed (m : ByTenant) : Prop :=
  ∀ g ∈ m.entries, MiniSiem.WellKeyed fp g.1 g.2

theorem ByTenant.WellKeyed.add {m : ByTenant} (h : m.WellKeyed fp) (a : Alert) :
    (m.add fp a).WellKeyed fp := by
  intro g hg
  unfold ByTenant.add at hg
  rw [AList.entries_insert] at hg
  rcases List.mem_cons.mp hg with rfl | hg
  · refine MiniSiem.WellKeyed.add fp ?_ rfl
    cases hl : m.lookup a.tenantId with
    | none => exact fun e he => (List.not_mem_nil he).elim
    | some alerts => exact h _ (AList.mem_lookup_iff.mp hl)
  · exact h g ((List.kerase_sublist _ _).subset hg)

theorem byTenant_wellKeyed (buffer : List Alert) : (byTenant fp buffer).WellKeyed fp := by
  have key : ∀ (as : List Alert) (m : ByTenant), m.WellKeyed fp →
      (as.foldl (ByTenant.add fp) m).WellKeyed fp := by
    intro as
    induction as with
    | nil => exact fun m h => h
    | cons a as ih => exact fun m h => ih _ (h.add fp a)
  exact key buffer ∅ fun g hg => (List.not_mem_nil hg).elim

/-- The merged alert of a tenant and key. -/
def ByTenant.group (m : ByTenant) (key : AlertDedupKey) : Option Alert :=
  (m.lookup key.tenantId).bind fun alerts => alerts.lookup key

theorem ByTenant.group_add (m : ByTenant) (a : Alert) (key : AlertDedupKey) :
    (m.add fp a).group key = if key = alertDedupKey fp a then
      some (match m.group key with
        | some existing => mergeAlert existing a
        | none => a) else m.group key := by
  unfold ByTenant.group ByTenant.add
  by_cases ht : key.tenantId = a.tenantId
  · rw [ht, AList.lookup_insert, Option.bind_some]
    unfold TenantAlerts.add
    split_ifs with hk
    · rw [hk, AList.lookup_insert]
      cases m.lookup a.tenantId <;> rfl
    · rw [AList.lookup_insert_ne hk]
      cases m.lookup a.tenantId <;> rfl
  · have hk : key ≠ alertDedupKey fp a := by
      rintro rfl
      exact ht rfl
    rw [AList.lookup_insert_ne ht, if_neg hk]

/-- The alerts of a buffer with a key, in their order. -/
def keyed (buffer : List Alert) (key : AlertDedupKey) : List Alert :=
  buffer.filter fun a => alertDedupKey fp a = key

theorem keyed_concat (buffer : List Alert) (a : Alert) (key : AlertDedupKey) :
    keyed fp (buffer ++ [a]) key =
      keyed fp buffer key ++ if key = alertDedupKey fp a then [a] else [] := by
  unfold keyed
  rw [List.filter_append]
  congr 1
  split_ifs with hk
  · exact List.filter_eq_self.mpr fun b hb => by
      rw [List.mem_singleton.mp hb]
      exact decide_eq_true hk.symm
  · refine List.filter_eq_nil_iff.mpr fun b hb h => hk ?_
    rw [List.mem_singleton.mp hb] at h
    exact (of_decide_eq_true h).symm

/-- The alerts merged one after another. -/
def mergeAll : List Alert → Option Alert
  | [] => none
  | a :: as => some (as.foldl mergeAlert a)

theorem mergeAll_concat (as : List Alert) (a : Alert) : mergeAll (as ++ [a]) =
    some (match mergeAll as with
      | some existing => mergeAlert existing a
      | none => a) := by
  cases as with
  | nil => rfl
  | cons b as =>
      show some ((as ++ [a]).foldl mergeAlert b) = some (mergeAlert (as.foldl mergeAlert b) a)
      rw [List.foldl_append]
      rfl

/-- The group of a key is what its alerts are merged to. -/
theorem group_byTenant (buffer : List Alert) (key : AlertDedupKey) :
    (byTenant fp buffer).group key = mergeAll (keyed fp buffer key) := by
  induction buffer using List.reverseRecOn with
  | nil => rfl
  | append_singleton buffer a ih =>
      have hadd : byTenant fp (buffer ++ [a]) = (byTenant fp buffer).add fp a := by
        unfold byTenant
        rw [List.foldl_append]
        rfl
      rw [hadd, ByTenant.group_add, ih, keyed_concat]
      split_ifs
      · rw [mergeAll_concat]
      · rw [List.append_nil]

end groups

/-! ### The two statements -/

namespace AlertsTable

/-- The rows of a tenant. -/
def ofTenant (t : AlertsTable) (tenantId : String) : List AlertRow :=
  t.rows.filter fun r => r.tenantId = tenantId

theorem createAlertsBatch_eq_some {fault : Bool} {alerts : List Alert} {t t' : AlertsTable} :
    t.createAlertsBatch fault alerts = some t' ↔
      (alerts ≠ [] → fault = false ∧ statementFits alerts = true) ∧ t.FreshIds alerts ∧
      t'.rows = t.rows ++ alerts.map AlertRow.ofAlert := by
  unfold createAlertsBatch
  cases alerts with
  | nil =>
      have hfresh : t.FreshIds [] := by
        unfold FreshIds
        rw [List.map_nil, List.append_nil]
        exact t.id_nodup
      simp only [List.isEmpty_nil, if_true, Option.some.injEq, List.map_nil, List.append_nil]
      refine ⟨fun h => ⟨fun hne => absurd rfl hne, hfresh, by rw [h]⟩, fun h => ?_⟩
      obtain ⟨rows, hnodup⟩ := t
      obtain ⟨rows', hnodup'⟩ := t'
      obtain ⟨-, -, rfl⟩ := h
      rfl
  | cons a as =>
      simp only [List.isEmpty_cons, Bool.false_eq_true, if_false]
      by_cases hbad : (fault || !statementFits (a :: as)) = true
      · rw [if_pos hbad]
        constructor
        · intro h
          cases h
        · rintro ⟨hok, -⟩
          obtain ⟨hf, hs⟩ := hok (List.cons_ne_nil _ _)
          rw [hf, hs] at hbad
          cases hbad
      · rw [if_neg hbad]
        have hgood : fault = false ∧ statementFits (a :: as) = true := by simpa using hbad
        by_cases hfresh : t.FreshIds (a :: as)
        · rw [dif_pos hfresh, Option.some.injEq]
          constructor
          · intro h
            refine ⟨fun _ => hgood, hfresh, ?_⟩
            rw [← h]
            rfl
          · rintro ⟨-, -, h⟩
            obtain ⟨rows', hnodup'⟩ := t'
            obtain rfl : rows' = _ := h
            rfl
        · rw [dif_neg hfresh]
          exact ⟨fun h => absurd h.symm (Option.some_ne_none _), fun h => absurd h.2.1 hfresh⟩

/-- The row with the updates of a statement: that of the alert with its tenant and identifier. -/
def upsertedRow (alerts : List Alert) (r : AlertRow) : AlertRow :=
  match alerts.find? fun a => isRowOf a r with
  | some a => conflictRow a r
  | none => r

/-- Upserting alerts that have a row each updates these rows. -/
theorem foldlM_upsertAlert {alerts : List Alert} {t : AlertsTable}
    (hrows : ∀ a ∈ alerts, t.rows.any (isRowOf a) = true) (hids : (alerts.map (·.id)).Nodup) :
    ∃ t', alerts.foldlM upsertAlert t = some t' ∧ t'.rows = t.rows.map (upsertedRow alerts) := by
  induction alerts generalizing t with
  | nil =>
      refine ⟨t, rfl, ?_⟩
      have hid : upsertedRow [] = id := rfl
      rw [hid, List.map_id]
  | cons a as ih =>
      rw [List.map_cons, List.nodup_cons] at hids
      have hup : t.upsertAlert a = some (t.modify (isRowOf a) (conflictRow a) fun _ => rfl) := by
        unfold upsertAlert
        rw [if_pos (hrows a List.mem_cons_self)]
      have hrows' : ∀ b ∈ as,
          (t.modify (isRowOf a) (conflictRow a) fun _ => rfl).rows.any (isRowOf b) = true := by
        intro b hb
        obtain ⟨r, hr, hrow⟩ := List.any_eq_true.mp (hrows b (List.mem_cons_of_mem _ hb))
        refine List.any_eq_true.mpr ⟨_, List.mem_map_of_mem hr, ?_⟩
        split_ifs
        · exact hrow
        · exact hrow
      obtain ⟨t', hfold, hrows''⟩ := ih hrows' hids.2
      refine ⟨t', ?_, ?_⟩
      · rw [List.foldlM_cons, hup]
        exact hfold
      · rw [hrows'']
        unfold modify
        rw [List.map_map]
        refine List.map_congr_left fun r _ => ?_
        unfold upsertedRow
        rw [Function.comp_apply, List.find?_cons]
        by_cases hra : isRowOf a r = true
        · -- no later alert of the statement has the identifier of `a`
          have hnone : as.find? (fun b => isRowOf b (conflictRow a r)) = none := by
            refine List.find?_eq_none.mpr fun b hb hrow => hids.1 ?_
            have hia : r.id = a.id := of_decide_eq_true (Bool.and_eq_true_iff.mp hra).2
            have hib : r.id = b.id := of_decide_eq_true (Bool.and_eq_true_iff.mp hrow).2
            rw [← hia, hib]
            exact List.mem_map_of_mem hb
          rw [if_pos hra, hnone, hra]
        · rw [if_neg hra]
          simp only [Bool.not_eq_true] at hra
          rw [hra]

/-- The upsert of alerts that have a row each. -/
theorem upsertAlertsBatch_of_ok {fault : Bool} {alerts : List Alert} {t : AlertsTable}
    (hrows : ∀ a ∈ alerts, t.rows.any (isRowOf a) = true) (hids : (alerts.map (·.id)).Nodup)
    (hok : alerts ≠ [] → fault = false ∧ statementFits alerts = true) :
    ∃ t', t.upsertAlertsBatch fault alerts = some t' ∧
      t'.rows = t.rows.map (upsertedRow alerts) := by
  unfold upsertAlertsBatch
  cases alerts with
  | nil =>
      refine ⟨t, rfl, ?_⟩
      have hid : upsertedRow [] = id := rfl
      rw [hid, List.map_id]
  | cons a as =>
      obtain ⟨hfault, hfits⟩ := hok (List.cons_ne_nil _ _)
      simp only [List.isEmpty_cons, Bool.false_eq_true, if_false]
      rw [if_neg (by rw [hfault, hfits]; simpa using hids)]
      exact foldlM_upsertAlert hrows hids

theorem upsertAlertsBatch_of_not {fault : Bool} {alerts : List Alert} {t : AlertsTable}
    (hok : ¬ (alerts ≠ [] → fault = false ∧ statementFits alerts = true)) :
    t.upsertAlertsBatch fault alerts = none := by
  obtain ⟨hne, hbad⟩ := Classical.not_imp.mp hok
  unfold upsertAlertsBatch
  rw [if_neg (by rwa [List.isEmpty_iff]), if_pos]
  cases fault with
  | true => rfl
  | false =>
      have hfits : statementFits alerts = false := by
        rw [← Bool.not_eq_true]
        exact fun h => hbad ⟨rfl, h⟩
      rw [hfits]
      rfl

end AlertsTable

/-! ### One tenant's part -/

section tenant

variable (env : BatchEnv) (faults : FlushFaults)

namespace AlertsTable

theorem openRows_eq (t : AlertsTable) (tenantId : String) (ips : List String) :
    (t.rows.filter fun r => r.tenantId = tenantId && ips.contains r.sourceIp && r.isOpen) =
      (t.ofTenant tenantId).filter fun r => ips.contains r.sourceIp && r.isOpen := by
  unfold ofTenant
  rw [List.filter_filter]
  refine List.filter_congr fun r _ => ?_
  rw [Bool.and_assoc, Bool.and_comm]

end AlertsTable

theorem existingAlerts_congr {t t' : AlertsTable} {tenantId : String}
    (h : t'.ofTenant tenantId = t.ofTenant tenantId) (alerts : TenantAlerts) :
    existingAlerts env faults t' tenantId alerts = existingAlerts env faults t tenantId alerts := by
  unfold existingAlerts AlertsTable.getOpenAlertsByIps
  rw [AlertsTable.openRows_eq, AlertsTable.openRows_eq, h]

/-- A lookup returns open alerts of the tenant. -/
theorem mem_existingAlerts {t : AlertsTable} {tenantId : String} {alerts : TenantAlerts} {old : Alert}
    (h : old ∈ existingAlerts env faults t tenantId alerts) :
    ∃ r ∈ t.rows, r.tenantId = tenantId ∧ r.isOpen = true ∧ r.intoAlert = old := by
  unfold existingAlerts AlertsTable.getOpenAlertsByIps at h
  split_ifs at h
  · exact (List.not_mem_nil h).elim
  · exact (List.not_mem_nil h).elim
  · obtain ⟨r, hr, hold⟩ := List.mem_map.mp h
    rw [(env.rowOrder.perm _).mem_iff, List.mem_filter] at hr
    simp only [Bool.and_eq_true, decide_eq_true_eq] at hr
    exact ⟨r, hr.1, hr.2.1.1, hr.2.2, hold⟩

theorem existingFor_eq_some {existing : List Alert} {key : AlertDedupKey} {old : Alert}
    (h : existingFor env existing key = some old) :
    old ∈ existing ∧ alertDedupKey env.fingerprint old = key := by
  refine ⟨List.mem_of_find?_eq_some h, ?_⟩
  have hkey := List.find?_some h
  exact of_decide_eq_true hkey

/-- The new alerts of a tenant: those of a key for which the lookup finds no open alert. -/
def newAlerts (t : AlertsTable) (g : TenantEntry) : List Alert :=
  toCreate env (existingAlerts env faults t g.1 g.2) g.2

/-- The open alerts of a tenant with the alerts of the buffer merged into them. -/
def knownAlerts (t : AlertsTable) (g : TenantEntry) : List Alert :=
  toUpdate env (existingAlerts env faults t g.1 g.2) g.2

theorem newAlerts_congr {t t' : AlertsTable} {g : TenantEntry}
    (h : t'.ofTenant g.1 = t.ofTenant g.1) :
    newAlerts env faults t' g = newAlerts env faults t g := by
  unfold newAlerts
  rw [existingAlerts_congr env faults h]

theorem knownAlerts_congr {t t' : AlertsTable} {g : TenantEntry}
    (h : t'.ofTenant g.1 = t.ofTenant g.1) :
    knownAlerts env faults t' g = knownAlerts env faults t g := by
  unfold knownAlerts
  rw [existingAlerts_congr env faults h]

theorem mem_newAlerts {t : AlertsTable} {g : TenantEntry} {a : Alert} :
    a ∈ newAlerts env faults t g ↔ ∃ key, ⟨key, a⟩ ∈ g.2.entries ∧
      existingFor env (existingAlerts env faults t g.1 g.2) key = none := by
  unfold newAlerts toCreate
  rw [List.mem_filterMap]
  constructor
  · rintro ⟨⟨key, b⟩, he, hb⟩
    rw [(env.keyOrder.perm _).mem_iff] at he
    cases hold : existingFor env (existingAlerts env faults t g.1 g.2) key with
    | none =>
        simp only [hold, Option.some.injEq] at hb
        exact ⟨key, hb ▸ he, hold⟩
    | some old =>
        simp only [hold] at hb
        cases hb
  · rintro ⟨key, he, hold⟩
    refine ⟨⟨key, a⟩, (env.keyOrder.perm _).mem_iff.mpr he, ?_⟩
    simp only [hold]

theorem mem_knownAlerts {t : AlertsTable} {g : TenantEntry} {a : Alert} :
    a ∈ knownAlerts env faults t g ↔ ∃ key b old, ⟨key, b⟩ ∈ g.2.entries ∧
      existingFor env (existingAlerts env faults t g.1 g.2) key = some old ∧
      mergeAlert old b = a := by
  unfold knownAlerts toUpdate
  rw [List.mem_filterMap]
  constructor
  · rintro ⟨⟨key, b⟩, he, hb⟩
    rw [(env.keyOrder.perm _).mem_iff] at he
    obtain ⟨old, hold, hmerge⟩ := Option.map_eq_some_iff.mp hb
    exact ⟨key, b, old, he, hold, hmerge⟩
  · rintro ⟨key, b, old, he, hold, hmerge⟩
    exact ⟨⟨key, b⟩, (env.keyOrder.perm _).mem_iff.mpr he,
      Option.map_eq_some_iff.mpr ⟨old, hold, hmerge⟩⟩

theorem newAlerts_tenantId {t : AlertsTable} {g : TenantEntry}
    (hg : WellKeyed env.fingerprint g.1 g.2) {a : Alert} (ha : a ∈ newAlerts env faults t g) :
    a.tenantId = g.1 := by
  obtain ⟨key, he, -⟩ := (mem_newAlerts env faults).mp ha
  obtain ⟨hkey, htenant⟩ := hg _ he
  rw [← htenant, ← hkey]
  rfl

/-- A known alert has the identifier of a row of its tenant. -/
theorem knownAlerts_row {t : AlertsTable} {g : TenantEntry} {a : Alert}
    (ha : a ∈ knownAlerts env faults t g) :
    ∃ r ∈ t.rows, r.isOpen = true ∧ AlertsTable.isRowOf a r = true ∧ a.tenantId = g.1 := by
  obtain ⟨key, b, old, -, hold, rfl⟩ := (mem_knownAlerts env faults).mp ha
  obtain ⟨r, hr, htenant, hopen, rfl⟩ :=
    mem_existingAlerts env faults (existingFor_eq_some env hold).1
  refine ⟨r, hr, hopen, ?_, htenant⟩
  unfold AlertsTable.isRowOf
  rw [Bool.and_eq_true]
  exact ⟨decide_eq_true rfl, decide_eq_true rfl⟩

/-- No row is updated twice. -/
theorem knownAlerts_ids (t : AlertsTable) (g : TenantEntry) :
    ((knownAlerts env faults t g).map (·.id)).Nodup := by
  have hkeys : (env.keyOrder.arrange g.2.entries).Pairwise fun e e' => e.1 ≠ e'.1 :=
    ((List.perm_nodupKeys (env.keyOrder.perm _)).mpr g.2.nodupKeys).pairwise_ne
  unfold knownAlerts toUpdate
  unfold List.Nodup
  rw [List.pairwise_map, List.pairwise_filterMap]
  refine hkeys.imp fun {e e'} hne a ha a' ha' hid => hne ?_
  obtain ⟨old, hold, rfl⟩ := Option.map_eq_some_iff.mp ha
  obtain ⟨old', hold', rfl⟩ := Option.map_eq_some_iff.mp ha'
  obtain ⟨hmem, hkey⟩ := existingFor_eq_some env hold
  obtain ⟨hmem', hkey'⟩ := existingFor_eq_some env hold'
  obtain ⟨r, hr, -, -, rfl⟩ := mem_existingAlerts env faults hmem
  obtain ⟨r', hr', -, -, rfl⟩ := mem_existingAlerts env faults hmem'
  -- the identifier is a key of the table
  have hrow : r = r' := List.inj_on_of_nodup_map t.id_nodup hr hr' hid
  rw [← hkey, ← hkey', hrow]

end tenant

/-! ### The tenants in order -/

namespace AlertsTable

@[simp] theorem upsertedRow_id (alerts : List Alert) (r : AlertRow) :
    (upsertedRow alerts r).id = r.id := by
  unfold upsertedRow
  split <;> rfl

@[simp] theorem upsertedRow_tenantId (alerts : List Alert) (r : AlertRow) :
    (upsertedRow alerts r).tenantId = r.tenantId := by
  unfold upsertedRow
  split <;> rfl

theorem upsertedRow_of_not {alerts : List Alert} {r : AlertRow}
    (h : ∀ a ∈ alerts, isRowOf a r = false) : upsertedRow alerts r = r := by
  have hnone : (alerts.find? fun a => isRowOf a r) = none := by
    rw [List.find?_eq_none]
    intro a ha hrow
    rw [h a ha] at hrow
    cases hrow
  unfold upsertedRow
  rw [hnone]

theorem freshIds_append {t t' : AlertsTable} {as bs : List Alert}
    (h : t'.rows.map (·.id) = t.rows.map (·.id) ++ as.map (·.id)) :
    t.FreshIds (as ++ bs) ↔ t.FreshIds as ∧ t'.FreshIds bs := by
  unfold FreshIds
  rw [h, List.map_append, List.append_assoc, ← List.append_assoc]
  constructor
  · intro hnodup
    exact ⟨hnodup.of_append_left, hnodup⟩
  · intro hnodup
    exact hnodup.2

end AlertsTable

section order

variable (env : BatchEnv) (faults : FlushFaults)

/-- The insert of every one of these tenants succeeds. -/
structure InsertsOk (t : AlertsTable) (gs : List TenantEntry) : Prop where
  sent : ∀ g ∈ gs, newAlerts env faults t g ≠ [] →
    faults.create g.1 = false ∧ statementFits (newAlerts env faults t g) = true
  fresh : t.FreshIds (gs.flatMap (newAlerts env faults t))

/-- The upsert of the tenant succeeds. -/
def UpsertOk (t : AlertsTable) (g : TenantEntry) : Prop :=
  faults.update g.1 = false ∧ statementFits (knownAlerts env faults t g) = true

/-- The known alerts of a tenant, if its upsert succeeds. -/
def storedUpdates (t : AlertsTable) (g : TenantEntry) : List Alert :=
  if faults.update g.1 = false ∧ statementFits (knownAlerts env faults t g) = true then
    knownAlerts env faults t g
  else []

theorem mem_storedUpdates {t : AlertsTable} {g : TenantEntry} {a : Alert} :
    a ∈ storedUpdates env faults t g ↔
      UpsertOk env faults t g ∧ a ∈ knownAlerts env faults t g := by
  unfold storedUpdates
  split_ifs with h
  · exact ⟨fun ha => ⟨h, ha⟩, fun ha => ha.2⟩
  · exact ⟨fun ha => (List.not_mem_nil ha).elim, fun ha => absurd ha.1 h⟩

/-- The table after the two statements of a tenant. -/
def PartRows (t : AlertsTable) (g : TenantEntry) (t' : AlertsTable) : Prop :=
  t'.rows = (t.rows ++ (newAlerts env faults t g).map AlertRow.ofAlert).map
    (AlertsTable.upsertedRow (storedUpdates env faults t g))

theorem flushTenants_failed {t : AlertsTable} {g : TenantEntry} (rest : List TenantEntry)
    (h : ¬ InsertsOk env faults t [g]) :
    flushTenants env faults (g :: rest) t = ⟨t, [], [], false⟩ := by
  obtain ⟨tenantId, alerts⟩ := g
  have hnone : t.createAlertsBatch (faults.create tenantId)
      (newAlerts env faults t ⟨tenantId, alerts⟩) = none := by
    rw [Option.eq_none_iff_forall_ne_some]
    intro t' hsome
    obtain ⟨hsent, hfresh, -⟩ := AlertsTable.createAlertsBatch_eq_some.mp hsome
    refine h ⟨?_, ?_⟩
    · intro g' hg'
      rw [List.mem_singleton.mp hg']
      exact hsent
    · rw [List.flatMap_singleton]
      exact hfresh
  unfold newAlerts at hnone
  rw [flushTenants]
  dsimp only at hnone ⊢
  rw [hnone]

theorem flushTenants_stored {t : AlertsTable} {g : TenantEntry} (rest : List TenantEntry)
    (h : InsertsOk env faults t [g]) :
    ∃ t', PartRows env faults t g t' ∧
      flushTenants env faults (g :: rest) t =
        ⟨(flushTenants env faults rest t').table,
          newAlerts env faults t g ++ (flushTenants env faults rest t').created,
          storedUpdates env faults t g ++ (flushTenants env faults rest t').updated,
          (flushTenants env faults rest t').ok⟩ := by
  have hfresh : t.FreshIds (newAlerts env faults t g) := by
    have hall := h.fresh
    rw [List.flatMap_singleton] at hall
    exact hall
  obtain ⟨t₁, hcreate, hrows₁⟩ : ∃ t₁,
      t.createAlertsBatch (faults.create g.1) (newAlerts env faults t g) = some t₁ ∧
      t₁.rows = t.rows ++ (newAlerts env faults t g).map AlertRow.ofAlert :=
    ⟨t.insert _ hfresh,
      AlertsTable.createAlertsBatch_eq_some.mpr ⟨h.sent g List.mem_cons_self, hfresh, rfl⟩, rfl⟩
  have hrows : ∀ a ∈ knownAlerts env faults t g, t₁.rows.any (AlertsTable.isRowOf a) = true := by
    intro a ha
    obtain ⟨r, hr, -, hrow, -⟩ := knownAlerts_row env faults ha
    rw [hrows₁]
    exact List.any_eq_true.mpr ⟨r, List.mem_append_left _ hr, hrow⟩
  have htable : ∃ t', PartRows env faults t g t' ∧
      (t₁.upsertAlertsBatch (faults.update g.1) (knownAlerts env faults t g) = some t' ∧
          storedUpdates env faults t g = knownAlerts env faults t g ∨
        t₁.upsertAlertsBatch (faults.update g.1) (knownAlerts env faults t g) = none ∧
          t' = t₁ ∧ storedUpdates env faults t g = []) := by
    unfold PartRows
    by_cases hok : knownAlerts env faults t g ≠ [] → UpsertOk env faults t g
    · have hstored : storedUpdates env faults t g = knownAlerts env faults t g := by
        unfold storedUpdates
        split_ifs with hup
        · rfl
        · by_contra hne
          exact hup (hok fun h => hne h.symm)
      obtain ⟨t', hsome, hrows'⟩ :=
        AlertsTable.upsertAlertsBatch_of_ok hrows (knownAlerts_ids env faults t g) hok
      refine ⟨t', ?_, Or.inl ⟨hsome, hstored⟩⟩
      rw [hstored, hrows', hrows₁]
    · have hstored : storedUpdates env faults t g = [] := if_neg fun hup => hok fun _ => hup
      refine ⟨t₁, ?_, Or.inr ⟨AlertsTable.upsertAlertsBatch_of_not hok, rfl, hstored⟩⟩
      rw [hstored, hrows₁]
      exact (List.map_id _).symm
  obtain ⟨t', hpart, hcases⟩ := htable
  refine ⟨t', hpart, ?_⟩
  obtain ⟨tenantId, alerts⟩ := g
  rw [flushTenants]
  unfold newAlerts at hcreate
  unfold knownAlerts at hcases
  dsimp only at hcreate hcases ⊢
  rw [hcreate]
  dsimp only
  rcases hcases with ⟨hsome, hstored⟩ | ⟨hnone, rfl, hstored⟩
  · rw [hsome, hstored]
    rfl
  · rw [hnone, hstored]
    rfl

/-! ### What the statements of one tenant leave to the others -/

theorem newAlerts_filter {t : AlertsTable} {g : TenantEntry}
    (hg : WellKeyed env.fingerprint g.1 g.2) (tenantId : String) :
    ((newAlerts env faults t g).filter fun a => a.tenantId = tenantId) =
      if g.1 = tenantId then newAlerts env faults t g else [] := by
  split_ifs with h
  · rw [List.filter_eq_self]
    intro a ha
    exact decide_eq_true ((newAlerts_tenantId env faults hg ha).trans h)
  · rw [List.filter_eq_nil_iff]
    intro a ha
    rw [newAlerts_tenantId env faults hg ha]
    simpa using h

theorem storedUpdates_filter (t : AlertsTable) (g : TenantEntry) (tenantId : String) :
    ((storedUpdates env faults t g).filter fun a => a.tenantId = tenantId) =
      if g.1 = tenantId then storedUpdates env faults t g else [] := by
  have htenant : ∀ a ∈ storedUpdates env faults t g, a.tenantId = g.1 := by
    intro a ha
    obtain ⟨-, -, -, -, h⟩ := knownAlerts_row env faults ((mem_storedUpdates env faults).mp ha).2
    exact h
  split_ifs with h
  · rw [List.filter_eq_self]
    intro a ha
    exact decide_eq_true ((htenant a ha).trans h)
  · rw [List.filter_eq_nil_iff]
    intro a ha
    rw [htenant a ha]
    simpa using h

theorem PartRows.ids {t t' : AlertsTable} {g : TenantEntry} (h : PartRows env faults t g t') :
    t'.rows.map (·.id) = t.rows.map (·.id) ++ (newAlerts env faults t g).map (·.id) := by
  unfold PartRows at h
  rw [h, List.map_map]
  have hid : (fun r : AlertRow => r.id) ∘
      AlertsTable.upsertedRow (storedUpdates env faults t g) = fun r => r.id := by
    funext r
    simp
  rw [hid, List.map_append, List.map_map]
  rfl

theorem PartRows.ofTenant {t t' : AlertsTable} {g : TenantEntry} (h : PartRows env faults t g t')
    (tenantId : String) :
    t'.ofTenant tenantId = (t.ofTenant tenantId ++ ((newAlerts env faults t g).filter fun a =>
      a.tenantId = tenantId).map AlertRow.ofAlert).map
        (AlertsTable.upsertedRow (storedUpdates env faults t g)) := by
  unfold PartRows at h
  have htenant : (fun r : AlertRow => decide (r.tenantId = tenantId)) ∘
      AlertsTable.upsertedRow (storedUpdates env faults t g) =
        fun r => decide (r.tenantId = tenantId) := by
    funext r
    simp
  unfold AlertsTable.ofTenant
  rw [h, List.filter_map, htenant, List.filter_append, List.filter_map]
  rfl

/-- The rows of another tenant stay. -/
theorem PartRows.ofTenant_other {t t' : AlertsTable} {g : TenantEntry}
    (h : PartRows env faults t g t') (hg : WellKeyed env.fingerprint g.1 g.2) {tenantId : String}
    (hne : g.1 ≠ tenantId) : t'.ofTenant tenantId = t.ofTenant tenantId := by
  rw [h.ofTenant, newAlerts_filter env faults hg, if_neg hne, List.map_nil, List.append_nil]
  refine (List.map_congr_left fun r hr => ?_).trans (List.map_id _)
  refine AlertsTable.upsertedRow_of_not fun a ha => ?_
  obtain ⟨-, -, -, -, htenant⟩ :=
    knownAlerts_row env faults ((mem_storedUpdates env faults).mp ha).2
  have hr' : r.tenantId = tenantId := of_decide_eq_true (List.mem_filter.mp hr).2
  unfold AlertsTable.isRowOf
  rw [htenant, hr', decide_eq_false (Ne.symm hne), Bool.false_and]

/-- The rows of the tenant. -/
theorem PartRows.ofTenant_own {t t' : AlertsTable} {g : TenantEntry}
    (h : PartRows env faults t g t') (hg : WellKeyed env.fingerprint g.1 g.2) :
    t'.ofTenant g.1 = (t.ofTenant g.1 ++ (newAlerts env faults t g).map AlertRow.ofAlert).map
      (AlertsTable.upsertedRow (storedUpdates env faults t g)) := by
  rw [h.ofTenant, newAlerts_filter env faults hg, if_pos rfl]

theorem InsertsOk.head {t : AlertsTable} {g : TenantEntry} {gs : List TenantEntry}
    (h : InsertsOk env faults t (g :: gs)) : InsertsOk env faults t [g] := by
  refine ⟨fun g' hg' => ?_, ?_⟩
  · rw [List.mem_singleton.mp hg']
    exact h.sent g List.mem_cons_self
  · have hfresh := h.fresh
    unfold AlertsTable.FreshIds at hfresh ⊢
    rw [List.flatMap_cons, List.map_append, ← List.append_assoc] at hfresh
    rw [List.flatMap_singleton]
    exact hfresh.of_append_left

/-- The identifiers of new alerts are in no row. -/
theorem InsertsOk.id_ne {t : AlertsTable} {gs : List TenantEntry} (h : InsertsOk env faults t gs)
    {g : TenantEntry} (hg : g ∈ gs) {a : Alert} (ha : a ∈ newAlerts env faults t g) {r : AlertRow}
    (hr : r ∈ t.rows) : r.id ≠ a.id := by
  have hfresh := h.fresh
  unfold AlertsTable.FreshIds at hfresh
  rw [List.nodup_append] at hfresh
  exact hfresh.2.2 _ (List.mem_map_of_mem hr) _
    (List.mem_map_of_mem (List.mem_flatMap.mpr ⟨g, hg, ha⟩))

/-- After the first tenant the condition for the others is the same. -/
theorem insertsOk_cons {t t' : AlertsTable} {g : TenantEntry} {gs : List TenantEntry}
    (hpart : PartRows env faults t g t') (hg : WellKeyed env.fingerprint g.1 g.2)
    (hne : ∀ g' ∈ gs, g.1 ≠ g'.1) :
    InsertsOk env faults t (g :: gs) ↔ InsertsOk env faults t [g] ∧ InsertsOk env faults t' gs := by
  have hsame : ∀ g' ∈ gs, newAlerts env faults t' g' = newAlerts env faults t g' := fun g' hg' =>
    newAlerts_congr env faults (hpart.ofTenant_other env faults hg (hne g' hg'))
  have hflat : gs.flatMap (newAlerts env faults t') = gs.flatMap (newAlerts env faults t) :=
    List.flatMap_congr fun g' hg' => hsame g' hg'
  have hfresh : t.FreshIds (newAlerts env faults t g ++ gs.flatMap (newAlerts env faults t)) ↔
      t.FreshIds (newAlerts env faults t g) ∧ t'.FreshIds (gs.flatMap (newAlerts env faults t)) :=
    AlertsTable.freshIds_append (hpart.ids env faults)
  constructor
  · intro h
    refine ⟨h.head env faults, fun g' hg' => ?_, ?_⟩
    · rw [hsame g' hg']
      exact h.sent g' (List.mem_cons_of_mem _ hg')
    · rw [hflat]
      exact (hfresh.mp h.fresh).2
  · rintro ⟨hhead, htail⟩
    refine ⟨fun g' hg' => ?_, ?_⟩
    · rcases List.mem_cons.mp hg' with rfl | hg'
      · exact hhead.sent g' List.mem_cons_self
      · rw [← hsame g' hg']
        exact htail.sent g' hg'
    · have hown := hhead.fresh
      rw [List.flatMap_singleton] at hown
      have hrest := htail.fresh
      rw [hflat] at hrest
      exact hfresh.mpr ⟨hown, hrest⟩

/-! ### The whole flush -/

/-- The tenants of a buffer in the order of the flush. -/
def visitedTenants (buffer : List Alert) : List TenantEntry :=
  env.tenantOrder.arrange (byTenant env.fingerprint buffer).entries

theorem visitedTenants_wellKeyed (buffer : List Alert) :
    ∀ g ∈ visitedTenants env buffer, WellKeyed env.fingerprint g.1 g.2 := fun g hg =>
  byTenant_wellKeyed env.fingerprint buffer g ((env.tenantOrder.perm _).mem_iff.mp hg)

theorem visitedTenants_nodupKeys (buffer : List Alert) : (visitedTenants env buffer).NodupKeys :=
  (List.perm_nodupKeys (env.tenantOrder.perm _)).mpr (byTenant env.fingerprint buffer).nodupKeys

@[simp] theorem visitedTenants_nil : visitedTenants env [] = [] :=
  List.perm_nil.mp (env.tenantOrder.perm _)

theorem flushBatch_outcome (t : AlertsTable) (buffer : List Alert) :
    (flushBatch env faults t buffer).1 = flushTenants env faults (visitedTenants env buffer) t := by
  unfold flushBatch
  split_ifs with hempty
  · rw [List.isEmpty_iff.mp hempty, visitedTenants_nil]
    rfl
  · rfl

/-- The tenants up to and including one. -/
def upTo (tenantId : String) : List TenantEntry → List TenantEntry
  | [] => []
  | g :: gs => if g.1 = tenantId then [g] else g :: upTo tenantId gs

theorem mem_upTo {tenantId : String} {gs : List TenantEntry} {g : TenantEntry}
    (h : g ∈ upTo tenantId gs) : g ∈ gs := by
  induction gs with
  | nil => exact h
  | cons g' gs ih =>
      unfold upTo at h
      split_ifs at h
      · rw [List.mem_singleton.mp h]
        exact List.mem_cons_self
      · rcases List.mem_cons.mp h with rfl | h
        · exact List.mem_cons_self
        · exact List.mem_cons_of_mem _ (ih h)

theorem upTo_prefix (tenantId : String) (gs : List TenantEntry) : upTo tenantId gs <+: gs := by
  induction gs with
  | nil => exact List.prefix_rfl
  | cons g gs ih =>
      unfold upTo
      split_ifs
      · exact ⟨gs, rfl⟩
      · exact (List.prefix_cons_inj g).mpr ih

/-- If all inserts succeed, those of the first tenants do. -/
theorem InsertsOk.upTo {t : AlertsTable} {gs : List TenantEntry} (h : InsertsOk env faults t gs)
    (tenantId : String) : InsertsOk env faults t (upTo tenantId gs) := by
  refine ⟨fun g hg => h.sent g (mem_upTo hg), ?_⟩
  have hfresh := h.fresh
  obtain ⟨rest, hgs⟩ := upTo_prefix tenantId gs
  unfold AlertsTable.FreshIds at hfresh ⊢
  rw [← hgs, List.flatMap_append, List.map_append, ← List.append_assoc] at hfresh
  exact hfresh.of_append_left

/-- The flush has stored nothing of a tenant. -/
structure Untouched (t : AlertsTable) (tenantId : String) (out : FlushOutcome) : Prop where
  created : (out.created.filter fun a => a.tenantId = tenantId) = []
  updated : (out.updated.filter fun a => a.tenantId = tenantId) = []
  rows : out.table.ofTenant tenantId = t.ofTenant tenantId

/-- The flush has stored a tenant's part of the buffer. -/
structure PartStored (t : AlertsTable) (g : TenantEntry) (out : FlushOutcome) : Prop where
  created : (out.created.filter fun a => a.tenantId = g.1) = newAlerts env faults t g
  updated : (out.updated.filter fun a => a.tenantId = g.1) = storedUpdates env faults t g
  rows : out.table.ofTenant g.1 = (t.ofTenant g.1 ++
    (newAlerts env faults t g).map AlertRow.ofAlert).map
      (AlertsTable.upsertedRow (storedUpdates env faults t g))

theorem flushTenants_other {gs : List TenantEntry}
    (hwell : ∀ g ∈ gs, WellKeyed env.fingerprint g.1 g.2) {tenantId : String}
    (hne : ∀ g ∈ gs, g.1 ≠ tenantId) (t : AlertsTable) :
    Untouched t tenantId (flushTenants env faults gs t) := by
  induction gs generalizing t with
  | nil => exact ⟨rfl, rfl, rfl⟩
  | cons g gs ih =>
      have hg := hwell g List.mem_cons_self
      have hg' := hne g List.mem_cons_self
      by_cases hins : InsertsOk env faults t [g]
      · obtain ⟨t', hpart, hout⟩ := flushTenants_stored env faults gs hins
        have hrest := ih (fun g' h => hwell g' (List.mem_cons_of_mem _ h))
          (fun g' h => hne g' (List.mem_cons_of_mem _ h)) t'
        rw [hout]
        refine ⟨?_, ?_, ?_⟩
        · rw [List.filter_append, newAlerts_filter env faults hg, if_neg hg', hrest.created]
          rfl
        · rw [List.filter_append, storedUpdates_filter, if_neg hg', hrest.updated]
          rfl
        · exact hrest.rows.trans (hpart.ofTenant_other env faults hg hg')
      · rw [flushTenants_failed env faults gs hins]
        exact ⟨rfl, rfl, rfl⟩

/-- **What a flush does for a tenant**: its part of the buffer is stored exactly when the inserts
succeed up to it; otherwise nothing of it is. -/
theorem flushTenants_own {gs : List TenantEntry}
    (hwell : ∀ g ∈ gs, WellKeyed env.fingerprint g.1 g.2) (hkeys : gs.NodupKeys)
    {g : TenantEntry} (hg : g ∈ gs) (t : AlertsTable) :
    (InsertsOk env faults t (upTo g.1 gs) →
      PartStored env faults t g (flushTenants env faults gs t)) ∧
    (¬ InsertsOk env faults t (upTo g.1 gs) →
      Untouched t g.1 (flushTenants env faults gs t)) := by
  induction gs generalizing t with
  | nil => exact (List.not_mem_nil hg).elim
  | cons g' gs ih =>
      have hwell' := hwell g' List.mem_cons_self
      have hrest := fun g'' h => hwell g'' (List.mem_cons_of_mem g' h)
      have hne : ∀ g'' ∈ gs, g'.1 ≠ g''.1 := by
        intro g'' h heq
        exact List.notMem_keys_of_nodupKeys_cons hkeys (heq ▸ List.mem_keys_of_mem h)
      by_cases hins : InsertsOk env faults t [g']
      · obtain ⟨t', hpart, hout⟩ := flushTenants_stored env faults gs hins
        rw [hout]
        rcases List.mem_cons.mp hg with rfl | hg
        · have hother := flushTenants_other env faults hrest (fun g'' h => (hne g'' h).symm) t'
          have hup : upTo g.1 (g :: gs) = [g] := if_pos rfl
          rw [hup]
          refine ⟨fun _ => ⟨?_, ?_, ?_⟩, fun hno => absurd hins hno⟩
          · rw [List.filter_append, newAlerts_filter env faults hwell', if_pos rfl, hother.created,
              List.append_nil]
          · rw [List.filter_append, storedUpdates_filter, if_pos rfl, hother.updated,
              List.append_nil]
          · exact hother.rows.trans (hpart.ofTenant_own env faults hwell')
        · have hne' := hne g hg
          have hup : upTo g.1 (g' :: gs) = g' :: upTo g.1 gs := if_neg hne'
          have hrows := hpart.ofTenant_other env faults hwell' hne'
          have hiff : InsertsOk env faults t (g' :: upTo g.1 gs) ↔
              InsertsOk env faults t [g'] ∧ InsertsOk env faults t' (upTo g.1 gs) :=
            insertsOk_cons env faults hpart hwell' fun g'' h => hne g'' (mem_upTo h)
          obtain ⟨hstored, huntouched⟩ := ih hrest (List.nodupKeys_of_nodupKeys_cons hkeys) hg t'
          rw [hup, hiff]
          constructor
          · rintro ⟨-, hok⟩
            have hown := hstored hok
            have hupd : storedUpdates env faults t' g = storedUpdates env faults t g := by
              unfold storedUpdates
              rw [knownAlerts_congr env faults hrows]
            refine ⟨?_, ?_, ?_⟩
            · rw [List.filter_append, newAlerts_filter env faults hwell', if_neg hne', hown.created,
                newAlerts_congr env faults hrows]
              rfl
            · rw [List.filter_append, storedUpdates_filter, if_neg hne', hown.updated, hupd]
              rfl
            · rw [← hupd, ← hrows, ← newAlerts_congr env faults hrows]
              exact hown.rows
          · intro hno
            have hown := huntouched fun hok => hno ⟨hins, hok⟩
            refine ⟨?_, ?_, hown.rows.trans hrows⟩
            · rw [List.filter_append, newAlerts_filter env faults hwell', if_neg hne', hown.created]
              rfl
            · rw [List.filter_append, storedUpdates_filter, if_neg hne', hown.updated]
              rfl
      · rw [flushTenants_failed env faults gs hins]
        refine ⟨fun hok => absurd ?_ hins, fun _ => ⟨rfl, rfl, rfl⟩⟩
        unfold upTo at hok
        split_ifs at hok
        · exact hok
        · exact hok.head env faults

end order

end MiniSiem
