import MiniSiem.AlertFallback
import MiniSiem.AlertLoss
import MiniSiem.Lib.Merging

/-! # What a successful flush makes of the table

A flush of the alert batcher all of whose commands succeed, on a table with at most one open row for each
deduplication key.

* **Merging.**  `mergeAlert` is associative, so it does not matter that the alerts of a buffer are merged
  with each other before they are merged into a row (`foldl_mergeAlert_assoc`).
* **Rows.**  `mem_flush_rows`: each row is updated by the alerts of its key if it is open
  (`flushedRow`), and each key without an open row gets a new one. -/

namespace MiniSiem

/-- The key of the alert that a row is read as. -/
def AlertRow.dedupKey (fp : String → UInt64) (r : AlertRow) : AlertDedupKey := alertDedupKey fp r.intoAlert

/-- At most one open row for each key. -/
def AlertsTable.OneOpen (fp : String → UInt64) (t : AlertsTable) : Prop :=
  ∀ r ∈ t.rows, ∀ s ∈ t.rows, r.isOpen = true → s.isOpen = true → r.dedupKey fp = s.dedupKey fp → r = s

/-- One row is the only open one. -/
theorem AlertsTable.oneOpen_singleton {fp : String → UInt64} (t : AlertsTable) {r : AlertRow}
    (h : t.rows = [r]) : t.OneOpen fp := by
  intro r hr s hs _ _ _
  rw [h] at hr hs
  exact (List.mem_singleton.mp hr).trans (List.mem_singleton.mp hs).symm

/-- The open row of a key. -/
def AlertsTable.openRow (fp : String → UInt64) (t : AlertsTable) (key : AlertDedupKey) : Option AlertRow :=
  t.rows.find? fun r => r.isOpen && r.dedupKey fp = key

/-- The row with the alerts of its key merged into it, if it is open. -/
def flushedRow (fp : String → UInt64) (buffer : List Alert) (r : AlertRow) : AlertRow :=
  if r.isOpen ∧ keyed fp buffer (r.dedupKey fp) ≠ [] then
    AlertsTable.conflictRow ((keyed fp buffer (r.dedupKey fp)).foldl mergeAlert r.intoAlert) r
  else r

/-! ### Merging -/

section merging

variable {a b c : Alert} {as : List Alert}

theorem DateTime.later_eq_max (t u : DateTime) : t.later u = max t u := (max_def t u).symm

theorem DateTime.earlier_eq_min (t u : DateTime) : t.earlier u = min t u := (min_def t u).symm

theorem mergeAlert_eq : mergeAlert a b =
    { a with
      firstSeen := min a.firstSeen b.firstSeen
      lastSeen := max a.lastSeen b.lastSeen
      eventsCount := a.eventsCount + b.eventsCount
      events := a.events ++ b.events
      description := if a.lastSeen ≤ b.lastSeen then b.description else a.description } := by
  have hlater : max a.lastSeen b.lastSeen ≤ b.lastSeen ↔ a.lastSeen ≤ b.lastSeen :=
    max_le_iff.trans (and_iff_left le_rfl)
  unfold mergeAlert
  rw [DateTime.later_eq_max, DateTime.earlier_eq_min]
  simp only [Subtype.coe_le_coe, hlater]

theorem mergeAlert_firstSeen : (mergeAlert a b).firstSeen = min a.firstSeen b.firstSeen := by
  rw [mergeAlert_eq]

theorem mergeAlert_lastSeen : (mergeAlert a b).lastSeen = max a.lastSeen b.lastSeen := by
  rw [mergeAlert_eq]

theorem mergeAlert_description : (mergeAlert a b).description =
    if a.lastSeen ≤ b.lastSeen then b.description else a.description := by
  rw [mergeAlert_eq]

theorem mergeAlert_assoc : mergeAlert (mergeAlert a b) c = mergeAlert a (mergeAlert b c) := by
  have hdescription : (if max a.lastSeen b.lastSeen ≤ c.lastSeen then c.description
      else if a.lastSeen ≤ b.lastSeen then b.description else a.description) =
      if a.lastSeen ≤ max b.lastSeen c.lastSeen then
        if b.lastSeen ≤ c.lastSeen then c.description else b.description
      else a.description := by
    simp only [max_le_iff, le_max_iff]
    by_cases hab : a.lastSeen ≤ b.lastSeen <;> by_cases hbc : b.lastSeen ≤ c.lastSeen <;>
      by_cases hac : a.lastSeen ≤ c.lastSeen
    · simp [hab, hbc, hac]
    · exact absurd (hab.trans hbc) hac
    · simp [hab, hbc]
    · simp [hab, hbc]
    · simp [hbc, hac]
    · simp [hab, hac]
    · exact absurd (hac.trans (le_of_not_ge hbc)) hab
    · simp [hab, hac]
  rw [mergeAlert_eq, mergeAlert_eq, mergeAlert_eq, mergeAlert_eq]
  simp only [hdescription, min_assoc, max_assoc, UInt64.add_assoc, List.append_assoc]

instance : Std.Associative mergeAlert := ⟨fun _ _ _ => mergeAlert_assoc⟩

/-- Merging into a value what a list is merged to. -/
theorem foldl_mergeAlert {m : Alert} (h : mergeAll as = some m) (a : Alert) :
    as.foldl mergeAlert a = mergeAlert a m := by
  cases as with
  | nil => cases h
  | cons b bs =>
      obtain rfl := Option.some.inj h
      exact List.foldl_assoc

/-- Alerts of one key are merged to an alert of this key. -/
theorem dedupKey_foldl (fp : String → UInt64)
    (h : ∀ b ∈ as, alertDedupKey fp b = alertDedupKey fp a) :
    alertDedupKey fp (as.foldl mergeAlert a) = alertDedupKey fp a := by
  induction as generalizing a with
  | nil => rfl
  | cons b bs ih =>
      obtain ⟨hb, hbs⟩ := List.forall_mem_cons.mp h
      have hmerged := alertDedupKey_mergeAlert fp hb.symm
      exact (ih fun c hc => (hbs c hc).trans hmerged.symm).trans hmerged

end merging

/-! ### Lookups -/

section rows

variable (env : BatchEnv) (faults : FlushFaults) {t : AlertsTable} {buffer : List Alert}

theorem AlertsTable.openRow_eq_some {fp : String → UInt64} {key : AlertDedupKey} {r : AlertRow}
    (h : t.openRow fp key = some r) : r ∈ t.rows ∧ r.isOpen = true ∧ r.dedupKey fp = key := by
  have hfound := List.find?_some h
  rw [Bool.and_eq_true, decide_eq_true_iff] at hfound
  exact ⟨List.mem_of_find?_eq_some h, hfound⟩

theorem AlertsTable.openRow_eq_none {fp : String → UInt64} {key : AlertDedupKey} :
    t.openRow fp key = none ↔ ∀ r ∈ t.rows, r.isOpen = true → r.dedupKey fp ≠ key := by
  unfold openRow
  rw [List.find?_eq_none]
  refine forall₂_congr fun r _ => ?_
  rw [Bool.and_eq_true, decide_eq_true_iff, not_and]

theorem AlertsTable.OneOpen.openRow {fp : String → UInt64} (hone : t.OneOpen fp) {r : AlertRow}
    (hr : r ∈ t.rows) (hopen : r.isOpen = true) : t.openRow fp (r.dedupKey fp) = some r := by
  cases h : t.openRow fp (r.dedupKey fp) with
  | none => exact absurd rfl (openRow_eq_none.mp h r hr hopen)
  | some s =>
      obtain ⟨hs, hsopen, hkey⟩ := openRow_eq_some h
      rw [hone s hs r hr hsopen hopen hkey]

/-- A lookup that succeeds returns the open rows of the addresses. -/
theorem intoAlert_mem_existingAlerts {tenantId : String} {alerts : TenantAlerts}
    (hlookup : (t.getOpenAlertsByIps env.rowOrder (faults.lookup tenantId) tenantId
      (alerts.entries.map fun e => e.2.sourceIp)).isSome = true) {r : AlertRow} (hr : r ∈ t.rows)
    (htenant : r.tenantId = tenantId) (hopen : r.isOpen = true)
    (hip : r.sourceIp ∈ alerts.entries.map fun e => e.2.sourceIp) :
    r.intoAlert ∈ existingAlerts env faults t tenantId alerts := by
  unfold existingAlerts
  unfold AlertsTable.getOpenAlertsByIps at hlookup ⊢
  split_ifs at hlookup ⊢ with hempty
  · rw [List.isEmpty_iff.mp hempty] at hip
    exact (List.not_mem_nil hip).elim
  · cases hlookup
  · refine List.mem_map_of_mem ((env.rowOrder.perm _).mem_iff.mpr (List.mem_filter.mpr ⟨hr, ?_⟩))
    rw [Bool.and_eq_true, Bool.and_eq_true, decide_eq_true_iff, List.contains_iff_mem]
    exact ⟨⟨htenant, hip⟩, hopen⟩

/-- For a key of the buffer a lookup finds the open row. -/
theorem existingFor_eq (hone : t.OneOpen env.fingerprint) {g : TenantEntry}
    (hg : WellKeyed env.fingerprint g.1 g.2)
    (hlookup : (t.getOpenAlertsByIps env.rowOrder (faults.lookup g.1) g.1
      (g.2.entries.map fun e => e.2.sourceIp)).isSome = true) {key : AlertDedupKey} {m : Alert}
    (he : ⟨key, m⟩ ∈ g.2.entries) :
    existingFor env (existingAlerts env faults t g.1 g.2) key =
      (t.openRow env.fingerprint key).map AlertRow.intoAlert := by
  have hfound : ∀ old, existingFor env (existingAlerts env faults t g.1 g.2) key = some old →
      ∃ r, t.openRow env.fingerprint key = some r ∧ r.intoAlert = old := by
    intro old hold
    obtain ⟨hmem, hkey⟩ := existingFor_eq_some env hold
    obtain ⟨r, hr, -, hopen, rfl⟩ := mem_existingAlerts env faults hmem
    exact ⟨r, hkey ▸ hone.openRow hr hopen, rfl⟩
  cases hrow : t.openRow env.fingerprint key with
  | none =>
      rw [Option.map_none, Option.eq_none_iff_forall_ne_some]
      intro old hold
      obtain ⟨r, hr, -⟩ := hfound old hold
      rw [hrow] at hr
      cases hr
  | some r =>
      obtain ⟨hr, hopen, hkey⟩ := AlertsTable.openRow_eq_some hrow
      obtain ⟨hmkey, htenant⟩ := hg _ he
      have hmem : r.intoAlert ∈ existingAlerts env faults t g.1 g.2 := by
        refine intoAlert_mem_existingAlerts env faults hlookup hr ?_ hopen ?_
        · rw [← htenant, ← hkey]
          rfl
        · have hip : r.sourceIp = m.sourceIp := by
            have hentity := congrArg AlertDedupKey.entity (hkey.trans hmkey.symm)
            exact hentity
          rw [hip]
          exact List.mem_map.mpr ⟨_, he, rfl⟩
      obtain ⟨old, hold⟩ : ∃ old,
          existingFor env (existingAlerts env faults t g.1 g.2) key = some old := by
        rw [← Option.isSome_iff_exists]
        unfold existingFor
        rw [List.find?_isSome]
        exact ⟨_, hmem, decide_eq_true hkey⟩
      obtain ⟨s, hs, hinto⟩ := hfound old hold
      rw [hrow] at hs
      rw [hold, ← hinto, ← Option.some.inj hs]
      rfl

/-- What a tenant's part of the buffer holds. -/
theorem mem_visited_entries {g : TenantEntry} (hg : g ∈ visitedTenants env buffer) {key : AlertDedupKey}
    {m : Alert} : ⟨key, m⟩ ∈ g.2.entries ↔
      key.tenantId = g.1 ∧ mergeAll (keyed env.fingerprint buffer key) = some m := by
  have hlookup : (byTenant env.fingerprint buffer).lookup g.1 = some g.2 :=
    AList.mem_lookup_iff.mpr ((env.tenantOrder.perm _).mem_iff.mp hg)
  have hgroup : key.tenantId = g.1 →
      mergeAll (keyed env.fingerprint buffer key) = g.2.lookup key := by
    intro htenant
    rw [← group_byTenant]
    unfold ByTenant.group
    rw [htenant, hlookup, Option.bind_some]
  constructor
  · intro he
    have htenant := (visitedTenants_wellKeyed env buffer g hg _ he).2
    exact ⟨htenant, (hgroup htenant).trans (AList.mem_lookup_iff.mpr he)⟩
  · rintro ⟨htenant, hm⟩
    exact AList.mem_lookup_iff.mp ((hgroup htenant).symm.trans hm)

/-- The tenant of a key with alerts is visited. -/
theorem exists_visited {key : AlertDedupKey} {m : Alert}
    (h : mergeAll (keyed env.fingerprint buffer key) = some m) :
    ∃ g ∈ visitedTenants env buffer, g.1 = key.tenantId := by
  rw [← group_byTenant] at h
  obtain ⟨alerts, hlookup, -⟩ := Option.bind_eq_some_iff.mp h
  exact ⟨⟨key.tenantId, alerts⟩, (env.tenantOrder.perm _).mem_iff.mpr (AList.mem_lookup_iff.mp hlookup), rfl⟩

theorem mergeAll_eq_some {as : List Alert} (h : as ≠ []) : ∃ m, mergeAll as = some m := by
  cases as with
  | nil => exact absurd rfl h
  | cons a as => exact ⟨_, rfl⟩

theorem ne_nil_of_mergeAll {as : List Alert} {m : Alert} (h : mergeAll as = some m) : as ≠ [] := by
  rintro rfl
  cases h

/-! ### Rows -/

section success

variable (hone : t.OneOpen env.fingerprint) (hflush : FlushSucceeds env faults t buffer)
  {g : TenantEntry} (hg : g ∈ visitedTenants env buffer)

include hflush hg

theorem storedUpdates_eq : storedUpdates env faults t g = knownAlerts env faults t g := by
  unfold storedUpdates
  split_ifs with hok
  · rfl
  · by_contra hne
    exact hok (hflush.upserts g hg fun h => hne h.symm)

include hone

theorem existingFor_visited {key : AlertDedupKey} {m : Alert} (he : ⟨key, m⟩ ∈ g.2.entries) :
    existingFor env (existingAlerts env faults t g.1 g.2) key =
      (t.openRow env.fingerprint key).map AlertRow.intoAlert :=
  existingFor_eq env faults hone (visitedTenants_wellKeyed env buffer g hg) (hflush.lookups g hg) he

/-- The keys without an open row get new ones. -/
theorem mem_newAlerts_iff {m : Alert} : m ∈ newAlerts env faults t g ↔ ∃ key : AlertDedupKey,
    key.tenantId = g.1 ∧ t.openRow env.fingerprint key = none ∧
      mergeAll (keyed env.fingerprint buffer key) = some m := by
  rw [mem_newAlerts]
  refine exists_congr fun key => ?_
  constructor
  · rintro ⟨he, hnone⟩
    rw [existingFor_visited env faults hone hflush hg he] at hnone
    obtain ⟨htenant, hm⟩ := (mem_visited_entries env hg).mp he
    exact ⟨htenant, Option.map_eq_none_iff.mp hnone, hm⟩
  · rintro ⟨htenant, hnone, hm⟩
    have he := (mem_visited_entries env hg).mpr ⟨htenant, hm⟩
    rw [existingFor_visited env faults hone hflush hg he, hnone]
    exact ⟨he, rfl⟩

/-- The open rows are updated by the alerts of their keys. -/
theorem upsertedRow_eq {r : AlertRow} (hr : r ∈ t.rows) (htenant : r.tenantId = g.1) :
    AlertsTable.upsertedRow (storedUpdates env faults t g) r = flushedRow env.fingerprint buffer r := by
  rw [storedUpdates_eq env faults hflush hg]
  unfold flushedRow
  split_ifs with hmerged
  · obtain ⟨hopen, hne⟩ := hmerged
    obtain ⟨m, hm⟩ := mergeAll_eq_some hne
    have he := (mem_visited_entries env hg).mpr ⟨htenant, hm⟩
    have hold := existingFor_visited env faults hone hflush hg he
    rw [hone.openRow hr hopen] at hold
    have hknown : mergeAlert r.intoAlert m ∈ knownAlerts env faults t g :=
      (mem_knownAlerts env faults).mpr ⟨_, m, _, he, hold, rfl⟩
    have hrow : AlertsTable.isRowOf (mergeAlert r.intoAlert m) r = true := by
      unfold AlertsTable.isRowOf
      rw [Bool.and_eq_true]
      exact ⟨decide_eq_true rfl, decide_eq_true rfl⟩
    rw [AlertsTable.upsertedRow_of_mem (knownAlerts_ids env faults t g) hknown hrow,
      foldl_mergeAlert hm]
  · refine AlertsTable.upsertedRow_of_not fun u hu => Bool.eq_false_iff.mpr fun hrow => hmerged ?_
    obtain ⟨key, b, old, he, hold, rfl⟩ := (mem_knownAlerts env faults).mp hu
    rw [existingFor_visited env faults hone hflush hg he] at hold
    obtain ⟨s, hs, rfl⟩ := Option.map_eq_some_iff.mp hold
    obtain ⟨hsmem, hsopen, hskey⟩ := AlertsTable.openRow_eq_some hs
    have hid : r.id = s.id := of_decide_eq_true (Bool.and_eq_true_iff.mp hrow).2
    have hrs : r = s := List.inj_on_of_nodup_map t.id_nodup hr hsmem hid
    subst hrs
    rw [hskey]
    exact ⟨hsopen, ne_nil_of_mergeAll ((mem_visited_entries env hg).mp he).2⟩

/-- The rows of a visited tenant. -/
theorem ofTenant_visited : (flushBatch env faults t buffer).1.table.ofTenant g.1 =
    (t.ofTenant g.1).map (flushedRow env.fingerprint buffer) ++
      (newAlerts env faults t g).map AlertRow.ofAlert := by
  have hstored := (flushTenants_own env faults (visitedTenants_wellKeyed env buffer)
    (visitedTenants_nodupKeys env buffer) hg t).1 (hflush.inserts.upTo env faults g.1)
  rw [flushBatch_outcome, hstored.rows, List.map_append]
  congr 1
  · refine List.map_congr_left fun r hr => ?_
    obtain ⟨hr, htenant⟩ := List.mem_filter.mp hr
    exact upsertedRow_eq env faults hone hflush hg hr (of_decide_eq_true htenant)
  · rw [List.map_map]
    refine List.map_congr_left fun m hm => ?_
    exact AlertsTable.upsertedRow_of_not fun u hu =>
      isRowOf_ofAlert_eq_false env faults t hflush.inserts hg hm hu

end success

/-- **The rows after a successful flush**: those there were, merged with the alerts of their keys, and a
new one for each key without an open row. -/
theorem mem_flush_rows (hone : t.OneOpen env.fingerprint) (hflush : FlushSucceeds env faults t buffer)
    {r' : AlertRow} : r' ∈ (flushBatch env faults t buffer).1.table.rows ↔
      (∃ r ∈ t.rows, flushedRow env.fingerprint buffer r = r') ∨
      ∃ key m, t.openRow env.fingerprint key = none ∧
        mergeAll (keyed env.fingerprint buffer key) = some m ∧ AlertRow.ofAlert m = r' := by
  have hmem : ∀ (t' : AlertsTable) (r : AlertRow), r ∈ t'.rows ↔ r ∈ t'.ofTenant r.tenantId :=
    fun t' r => ⟨fun h => List.mem_filter.mpr ⟨h, decide_eq_true rfl⟩, List.mem_of_mem_filter⟩
  have hkept : ∀ r, (flushedRow env.fingerprint buffer r).tenantId = r.tenantId := by
    intro r
    unfold flushedRow
    split_ifs <;> rfl
  have hother : ∀ {r : AlertRow}, (¬ ∃ g ∈ visitedTenants env buffer, g.1 = r.tenantId) →
      (flushBatch env faults t buffer).1.table.ofTenant r.tenantId = t.ofTenant r.tenantId ∧
        flushedRow env.fingerprint buffer r = r := by
    intro r hno
    constructor
    · rw [flushBatch_outcome]
      exact (flushTenants_other env faults (visitedTenants_wellKeyed env buffer)
        (fun g hg htenant => hno ⟨g, hg, htenant⟩) t).rows
    · refine if_neg fun ⟨_, hne⟩ => ?_
      obtain ⟨m, hm⟩ := mergeAll_eq_some hne
      exact hno (exists_visited env hm)
  constructor
  · intro h
    rw [hmem] at h
    by_cases hv : ∃ g ∈ visitedTenants env buffer, g.1 = r'.tenantId
    · obtain ⟨g, hg, htenant⟩ := hv
      rw [← htenant, ofTenant_visited env faults hone hflush hg] at h
      rcases List.mem_append.mp h with h | h
      · obtain ⟨r, hr, rfl⟩ := List.mem_map.mp h
        exact Or.inl ⟨r, List.mem_of_mem_filter hr, rfl⟩
      · obtain ⟨m, hm, rfl⟩ := List.mem_map.mp h
        obtain ⟨key, -, hnone, hmerge⟩ := (mem_newAlerts_iff env faults hone hflush hg).mp hm
        exact Or.inr ⟨key, m, hnone, hmerge, rfl⟩
    · obtain ⟨hrows, hsame⟩ := hother hv
      rw [hrows] at h
      exact Or.inl ⟨r', List.mem_of_mem_filter h, hsame⟩
  · rintro (⟨r, hr, rfl⟩ | ⟨key, m, hnone, hm, rfl⟩)
    · rw [hmem, hkept]
      have hr' := (hmem t r).mp hr
      by_cases hv : ∃ g ∈ visitedTenants env buffer, g.1 = r.tenantId
      · obtain ⟨g, hg, htenant⟩ := hv
        rw [← htenant, ofTenant_visited env faults hone hflush hg, htenant]
        exact List.mem_append_left _ (List.mem_map_of_mem hr')
      · obtain ⟨hrows, hsame⟩ := hother hv
        rw [hrows, hsame]
        exact hr'
    · obtain ⟨g, hg, htenant⟩ := exists_visited env hm
      have hnew : m ∈ newAlerts env faults t g :=
        (mem_newAlerts_iff env faults hone hflush hg).mpr ⟨key, htenant.symm, hnone, hm⟩
      have hmtenant := newAlerts_tenantId env faults (visitedTenants_wellKeyed env buffer g hg) hnew
      rw [hmem]
      change _ ∈ AlertsTable.ofTenant _ m.tenantId
      rw [hmtenant, ofTenant_visited env faults hone hflush hg]
      exact List.mem_append_right _ (List.mem_map_of_mem hnew)

end rows

end MiniSiem
