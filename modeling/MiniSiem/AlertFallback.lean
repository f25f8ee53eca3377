import MiniSiem.AlertFlush
import MiniSiem.Lib.KeyedList

/-! # The fallback of the alert worker

When the channel to the batcher is full, `alerting/worker.rs` writes the alert itself: into the
first open alert of the address, whatever its rule, or as a new row.

* **Rows.**  `openFallback` is the row the fallback updates, `openBatch` the one a flush of the
  single alert merges into; `single_flush_rows` and `fallback_rows` give the two tables.
* **Agreement.**  `fallback_eq_flush_iff`: the tables are equal exactly when the address has no open
  row, or both paths update one row in the same way, or neither changes anything. -/

namespace MiniSiem

structure FallbackFaults where
  lookup : Bool
  create : Bool
  update : Bool

/-- The table a command leaves, and whether it succeeded. -/
def commandResult (t : AlertsTable) : Option AlertsTable → AlertsTable × Bool
  | some t' => (t', true)
  | none => (t, false)

/-- The fallback: the table and whether every command succeeded. -/
def fallback (order : RowOrder) (faults : FallbackFaults) (t : AlertsTable) (alert : Alert) :
    AlertsTable × Bool :=
  match t.getOpenAlertsByIp order faults.lookup alert.tenantId alert.sourceIp with
  | some (existing :: _) =>
      let existing := { existing with
        lastSeen := alert.lastSeen
        eventsCount := existing.eventsCount + alert.eventsCount }
      commandResult t (t.updateAlert faults.update existing)
  | some [] => commandResult t (t.createAlert faults.create alert)
  | none => ((commandResult t (t.createAlert faults.create alert)).1, false)

/-- Every command of the flush succeeds. -/
structure FlushSucceeds (env : BatchEnv) (faults : FlushFaults) (t : AlertsTable)
    (buffer : List Alert) : Prop where
  lookups : ∀ g ∈ visitedTenants env buffer,
    (t.getOpenAlertsByIps env.rowOrder (faults.lookup g.1) g.1
      (g.2.entries.map fun e => e.2.sourceIp)).isSome = true
  inserts : InsertsOk env faults t (visitedTenants env buffer)
  upserts : ∀ g ∈ visitedTenants env buffer,
    knownAlerts env faults t g ≠ [] → UpsertOk env faults t g

section agreement

variable (env : BatchEnv) (order : RowOrder) (t : AlertsTable) (a : Alert)

/-- The open rows of the alert's address. -/
def openRows : List AlertRow :=
  t.rows.filter fun r => r.tenantId = a.tenantId && r.sourceIp = a.sourceIp && r.isOpen

/-- The row the fallback updates: the most recent open one of the address. -/
def openFallback : Option AlertRow := (order.arrange (openRows t a)).head?

/-- The row a flush merges the alert into: the most recent open one with its key. -/
def openBatch : Option AlertRow :=
  (env.rowOrder.arrange (openRows t a)).find? fun r =>
    alertDedupKey env.fingerprint r.intoAlert = alertDedupKey env.fingerprint a

/-- The alert brings nothing that only one of the two paths writes, and both paths update the row
alike, or leave their rows as they are. -/
def PathsAgree : Prop :=
  openRows t a = [] ∨
  ∃ r s, openFallback order t a = some r ∧ openBatch env t a = some s ∧
    a.events = [] ∧ s.events.isSome = true ∧
    (r = s ∧ s.lastSeen ≤ PgTime.encode a.lastSeen ∨
      r ≠ s ∧ a.countColumn = 0 ∧
        r.lastSeen = PgTime.encode a.lastSeen ∧ r.updatedAt = PgTime.encode a.lastSeen ∧
        s.lastSeen = PgTime.encode a.lastSeen ∧ s.updatedAt = PgTime.encode a.lastSeen)

variable {order t a}

/-! ### The two tables -/

theorem mem_openRows {r : AlertRow} :
    r ∈ openRows t a ↔
      r ∈ t.rows ∧ r.tenantId = a.tenantId ∧ r.sourceIp = a.sourceIp ∧ r.isOpen = true := by
  unfold openRows
  rw [List.mem_filter]
  simp only [Bool.and_eq_true, decide_eq_true_eq, and_assoc]

theorem openFallback_eq_some {r : AlertRow} (h : openFallback order t a = some r) :
    r ∈ openRows t a :=
  (order.perm _).mem_iff.mp (List.mem_of_mem_head? h)

/-- The row of the fallback is as recent as any open one of the address. -/
theorem openFallback_recent {r s : AlertRow} (h : openFallback order t a = some r)
    (hs : s ∈ openRows t a) : s.lastSeen ≤ r.lastSeen := by
  obtain ⟨rest, hrest⟩ := List.head?_eq_some_iff.mp h
  have hsorted := order.sorted (openRows t a)
  have hmem := (order.perm _).mem_iff.mpr hs
  rw [hrest] at hsorted hmem
  rcases List.mem_cons.mp hmem with rfl | hmem
  · exact le_rfl
  · exact List.rel_of_pairwise_cons hsorted hmem

theorem openBatch_eq_some {s : AlertRow} (h : openBatch env t a = some s) : s ∈ openRows t a :=
  (env.rowOrder.perm _).mem_iff.mp (List.mem_of_find?_eq_some h)

/-- The alert the fallback writes into a row. -/
def fallbackAlert (r : AlertRow) (a : Alert) : Alert :=
  { r.intoAlert with
    lastSeen := a.lastSeen
    eventsCount := r.intoAlert.eventsCount + a.eventsCount }

/-- The table a successful fallback leaves. -/
theorem fallback_rows {faults : FallbackFaults} (h : (fallback order faults t a).2 = true) :
    (fallback order faults t a).1.rows = match openFallback order t a with
      | some r =>
          KeyedList.updateKey AlertRow.id r.id (AlertsTable.updatedRow (fallbackAlert r a)) t.rows
      | none => t.rows ++ [AlertRow.ofAlert a] := by
  have hlookup : t.getOpenAlertsByIp order faults.lookup a.tenantId a.sourceIp = none ∨
      t.getOpenAlertsByIp order faults.lookup a.tenantId a.sourceIp =
        some (((order.arrange (openRows t a)).take 10).map AlertRow.intoAlert) := by
    unfold AlertsTable.getOpenAlertsByIp
    split_ifs
    · exact Or.inl rfl
    · exact Or.inr rfl
  unfold fallback openFallback at *
  rcases hlookup with hlookup | hlookup
  · rw [hlookup] at h
    cases h
  · rw [hlookup] at h ⊢
    cases hrows : order.arrange (openRows t a) with
    | nil =>
        rw [hrows] at h
        simp only [List.take_nil, List.map_nil, List.head?_nil] at h ⊢
        cases hc : t.createAlert faults.create a with
        | none =>
            rw [hc] at h
            cases h
        | some t' => exact (AlertsTable.createAlertsBatch_eq_some.mp hc).2.2
    | cons r rest =>
        rw [hrows] at h
        simp only [List.take_succ_cons, List.map_cons, List.head?_cons] at h ⊢
        unfold AlertsTable.updateAlert at h ⊢
        split_ifs at h ⊢
        · cases h
        · unfold commandResult AlertsTable.modify KeyedList.updateKey
          dsimp only
          simp only [decide_eq_true_eq]
          rfl

theorem existingFor_single {faults : FlushFaults} {alerts : TenantAlerts}
    (halerts : alerts.entries = [⟨alertDedupKey env.fingerprint a, a⟩])
    (h : (t.getOpenAlertsByIps env.rowOrder (faults.lookup a.tenantId) a.tenantId
      (alerts.entries.map fun e => e.2.sourceIp)).isSome = true) :
    existingFor env (existingAlerts env faults t a.tenantId alerts)
        (alertDedupKey env.fingerprint a) = (openBatch env t a).map AlertRow.intoAlert := by
  have hrows : (t.rows.filter fun r =>
      r.tenantId = a.tenantId && [a.sourceIp].contains r.sourceIp && r.isOpen) = openRows t a := by
    unfold openRows
    refine List.filter_congr fun r _ => ?_
    rw [List.contains_cons, List.contains_nil, Bool.or_false]
    rfl
  unfold existingAlerts existingFor openBatch
  unfold AlertsTable.getOpenAlertsByIps at h ⊢
  rw [halerts] at h ⊢
  simp only [List.map_cons, List.map_nil, List.isEmpty_cons, Bool.false_eq_true, if_false] at h ⊢
  split_ifs at h ⊢
  · cases h
  · rw [hrows, Option.getD_some, List.find?_map]
    rfl

/-- The table a successful flush of the single alert leaves. -/
theorem single_flush_rows {faults : FlushFaults} (h : FlushSucceeds env faults t [a]) :
    (flushBatch env faults t [a]).1.table.rows = match openBatch env t a with
      | some s => KeyedList.updateKey AlertRow.id s.id
          (AlertsTable.conflictRow (mergeAlert s.intoAlert a)) t.rows
      | none => t.rows ++ [AlertRow.ofAlert a] := by
  obtain ⟨alerts, halerts, hentries⟩ : ∃ alerts : TenantAlerts,
      alerts.entries = [⟨alertDedupKey env.fingerprint a, a⟩] ∧
      (byTenant env.fingerprint [a]).entries = [⟨a.tenantId, alerts⟩] :=
    ⟨TenantAlerts.add env.fingerprint ∅ a, rfl, rfl⟩
  have hvisited : visitedTenants env [a] = [⟨a.tenantId, alerts⟩] := by
    unfold visitedTenants
    rw [hentries]
    exact List.perm_singleton.mp (env.tenantOrder.perm _)
  have harranged : env.keyOrder.arrange alerts.entries =
      [⟨alertDedupKey env.fingerprint a, a⟩] := by
    rw [halerts]
    exact List.perm_singleton.mp (env.keyOrder.perm _)
  obtain ⟨hlookups, hinserts, hupserts⟩ := h
  rw [hvisited] at hlookups hinserts hupserts
  have hfound := existingFor_single env halerts (hlookups _ List.mem_cons_self)
  have hnew : newAlerts env faults t ⟨a.tenantId, alerts⟩ =
      if (openBatch env t a).isSome then [] else [a] := by
    unfold newAlerts toCreate
    rw [harranged]
    cases hopen : openBatch env t a with
    | none => simp [hfound, hopen]
    | some s => simp [hfound, hopen]
  have hknown : knownAlerts env faults t ⟨a.tenantId, alerts⟩ =
      ((openBatch env t a).map fun s => mergeAlert s.intoAlert a).toList := by
    unfold knownAlerts toUpdate
    rw [harranged]
    cases hopen : openBatch env t a with
    | none => simp [hfound, hopen]
    | some s => simp [hfound, hopen]
  obtain ⟨t', hpart, hout⟩ := flushTenants_stored env faults [] hinserts
  have htable : (flushBatch env faults t [a]).1.table = t' := by
    rw [flushBatch_outcome, hvisited, hout]
    rfl
  unfold PartRows at hpart
  rw [htable, hpart, hnew]
  cases hopen : openBatch env t a with
  | none =>
      have hstored : storedUpdates env faults t ⟨a.tenantId, alerts⟩ = [] := by
        rw [hopen] at hknown
        unfold storedUpdates
        rw [hknown]
        exact ite_self _
      rw [hstored]
      exact List.map_id _
  | some s =>
      have hs := (mem_openRows.mp (openBatch_eq_some env hopen)).1
      rw [hopen, Option.map_some, Option.toList_some] at hknown
      have hstored : storedUpdates env faults t ⟨a.tenantId, alerts⟩ =
          [mergeAlert s.intoAlert a] := by
        have hok := hupserts _ List.mem_cons_self (by rw [hknown]; exact List.cons_ne_nil _ _)
        unfold UpsertOk at hok
        rw [← hknown]
        exact if_pos hok
      rw [hstored]
      simp only [Option.isSome_some, if_true, List.map_nil, List.append_nil]
      unfold KeyedList.updateKey
      refine List.map_congr_left fun r hr => ?_
      have hrow : AlertsTable.isRowOf (mergeAlert s.intoAlert a) r = decide (r.id = s.id) := by
        unfold AlertsTable.isRowOf
        by_cases hid : r.id = s.id
        · obtain rfl := List.inj_on_of_nodup_map t.id_nodup hr hs hid
          show (decide (r.tenantId = r.tenantId) && decide (r.id = r.id)) = decide (r.id = r.id)
          simp only [decide_true, Bool.and_self]
        · have hne : decide (r.id = (mergeAlert s.intoAlert a).id) = false := decide_eq_false hid
          rw [hne, Bool.and_false, decide_eq_false hid]
      unfold AlertsTable.upsertedRow
      rw [List.find?_cons, hrow]
      by_cases hid : r.id = s.id
      · simp only [hid, decide_true, if_true]
      · simp only [hid, decide_false, if_false, List.find?_nil]

/-! ### Comparing the updates -/

theorem Alert.countColumn_add (c : Int32) (a b : Alert)
    (h : b.eventsCount = c.toInt64.toUInt64 + a.eventsCount) :
    b.countColumn = c + a.countColumn := by
  unfold Alert.countColumn
  rw [h]
  apply Int32.toBitVec_inj.mp
  have hwidth : BitVec.setWidth 32 (BitVec.signExtend 64 c.toBitVec) = c.toBitVec := by
    apply BitVec.eq_of_getLsbD_eq
    intro i hi
    simp [BitVec.getLsbD_signExtend, hi]
    omega
  simpa using hwidth

theorem PgTime.encode_later (p : PgTime) (u : DateTime) :
    PgTime.encode (p.1.later u) = max p (PgTime.encode u) := by
  unfold DateTime.later
  split_ifs with h
  · have hle : PgTime.encode p.1 ≤ PgTime.encode u := PgTime.encode_mono h
    rw [PgTime.encode_val] at hle
    rw [max_eq_right hle]
  · have hle : PgTime.encode u ≤ PgTime.encode p.1 := PgTime.encode_mono (le_of_lt (not_le.mp h))
    rw [PgTime.encode_val] at hle
    rw [PgTime.encode_val, max_eq_left hle]

/-- The status of an open row is read and written back. -/
theorem AlertRow.status_intoAlert {r : AlertRow} (h : r.isOpen = true) :
    r.intoAlert.status.toString = r.status := by
  unfold AlertRow.isOpen at h
  simp only [Bool.or_eq_true, beq_iff_eq] at h
  unfold AlertRow.intoAlert
  dsimp only
  rcases h with h | h
  · rw [h]
    rfl
  · rw [h]
    rfl

/-- Appending the alert's events changes nothing. -/
theorem events_append_iff (stored : Option (List Log)) (events : List Log) :
    some (stored.getD [] ++ events) = stored ↔ events = [] ∧ stored.isSome = true := by
  cases stored with
  | none => simp
  | some es => simp

theorem updatedRow_eq_conflictRow_iff {r : AlertRow} :
    AlertsTable.updatedRow (fallbackAlert r a) r =
        AlertsTable.conflictRow (mergeAlert r.intoAlert a) r ↔
      a.events = [] ∧ r.events.isSome = true ∧ r.lastSeen ≤ PgTime.encode a.lastSeen := by
  have htime : PgTime.encode (mergeAlert r.intoAlert a).lastSeen =
      max r.lastSeen (PgTime.encode a.lastSeen) := PgTime.encode_later _ _
  have hevents : (mergeAlert r.intoAlert a).events = r.events.getD [] ++ a.events := rfl
  unfold AlertsTable.updatedRow AlertsTable.conflictRow
  rw [htime, hevents]
  constructor
  · intro h
    have hlast : PgTime.encode a.lastSeen = max r.lastSeen (PgTime.encode a.lastSeen) :=
      congrArg AlertRow.lastSeen h
    have hstored := (events_append_iff r.events a.events).mp (congrArg AlertRow.events h).symm
    exact ⟨hstored.1, hstored.2, max_eq_right_iff.mp hlast.symm⟩
  · rintro ⟨hnil, hsome, hle⟩
    rw [max_eq_right hle, (events_append_iff r.events a.events).mpr ⟨hnil, hsome⟩]
    rfl

theorem AlertRow.update_eq_self_iff (r : AlertRow) (lastSeen : PgTime) (status : String)
    (eventsCount : Int32) (events : Option (List Log)) (updatedAt : PgTime) :
    { r with lastSeen, status, eventsCount, events, updatedAt } = r ↔
      lastSeen = r.lastSeen ∧ status = r.status ∧ eventsCount = r.eventsCount ∧
        events = r.events ∧ updatedAt = r.updatedAt := by
  obtain ⟨⟩ := r
  simp only [AlertRow.mk.injEq, true_and]
  tauto

/-- The fallback leaves a row as it is when the alert counts nothing and the row has its time. -/
theorem updatedRow_eq_self_iff {r : AlertRow} (hopen : r.isOpen = true) :
    AlertsTable.updatedRow (fallbackAlert r a) r = r ↔
      a.countColumn = 0 ∧ r.lastSeen = PgTime.encode a.lastSeen ∧
        r.updatedAt = PgTime.encode a.lastSeen := by
  have hcount : (fallbackAlert r a).countColumn = r.eventsCount + a.countColumn :=
    Alert.countColumn_add _ _ _ rfl
  have hstatus : (fallbackAlert r a).status.toString = r.status := r.status_intoAlert hopen
  have htime : (fallbackAlert r a).lastSeen = a.lastSeen := rfl
  unfold AlertsTable.updatedRow
  rw [hcount, hstatus, htime, AlertRow.update_eq_self_iff]
  constructor
  · rintro ⟨hlast, -, hzero, -, hupdated⟩
    exact ⟨by simpa using hzero, hlast.symm, hupdated.symm⟩
  · rintro ⟨hzero, hlast, hupdated⟩
    refine ⟨hlast.symm, rfl, ?_, rfl, hupdated.symm⟩
    rw [hzero, Int32.add_zero]

/-- A flush leaves a row as it is when the alert brings nothing and the row is as recent. -/
theorem conflictRow_eq_self_iff {s : AlertRow} (hopen : s.isOpen = true) :
    AlertsTable.conflictRow (mergeAlert s.intoAlert a) s = s ↔
      a.events = [] ∧ s.events.isSome = true ∧ a.countColumn = 0 ∧
        PgTime.encode a.lastSeen ≤ s.lastSeen ∧ s.updatedAt = s.lastSeen := by
  have hcount : (mergeAlert s.intoAlert a).countColumn = s.eventsCount + a.countColumn :=
    Alert.countColumn_add _ _ _ rfl
  have hstatus : (mergeAlert s.intoAlert a).status.toString = s.status := s.status_intoAlert hopen
  have htime : PgTime.encode (mergeAlert s.intoAlert a).lastSeen =
      max s.lastSeen (PgTime.encode a.lastSeen) := PgTime.encode_later _ _
  have hevents : (mergeAlert s.intoAlert a).events = s.events.getD [] ++ a.events := rfl
  unfold AlertsTable.conflictRow
  rw [hcount, hstatus, htime, hevents, AlertRow.update_eq_self_iff, events_append_iff]
  constructor
  · rintro ⟨hlast, -, hzero, ⟨hnil, hsome⟩, hupdated⟩
    rw [hlast] at hupdated
    exact ⟨hnil, hsome, by simpa using hzero, max_eq_left_iff.mp hlast, hupdated.symm⟩
  · rintro ⟨hnil, hsome, hzero, hle, hupdated⟩
    rw [max_eq_left hle, hzero, Int32.add_zero]
    exact ⟨rfl, rfl, rfl, ⟨hnil, hsome⟩, hupdated.symm⟩

/-- **When the fallback and a flush agree**, for orders of rows with equal times that may differ. -/
theorem fallback_eq_flush_iff {fallbackFaults : FallbackFaults} {faults : FlushFaults}
    (hfallback : (fallback order fallbackFaults t a).2 = true)
    (hflush : FlushSucceeds env faults t [a]) :
    (fallback order fallbackFaults t a).1 = (flushBatch env faults t [a]).1.table ↔
      PathsAgree env order t a := by
  have hext : ∀ t₁ t₂ : AlertsTable, t₁ = t₂ ↔ t₁.rows = t₂.rows := by
    rintro ⟨rows₁, hnodup₁⟩ ⟨rows₂, hnodup₂⟩
    exact AlertsTable.mk.injEq .. ▸ Iff.rfl
  rw [hext, fallback_rows hfallback, single_flush_rows env hflush]
  unfold PathsAgree
  cases hr : openFallback order t a with
  | none =>
      have hnone : openRows t a = [] := by
        have hempty : order.arrange (openRows t a) = [] := List.head?_eq_none_iff.mp hr
        have hperm := order.perm (openRows t a)
        rw [hempty] at hperm
        exact List.nil_perm.mp hperm
      have hs : openBatch env t a = none := by
        cases hs : openBatch env t a with
        | none => rfl
        | some s =>
            have hmem := openBatch_eq_some env hs
            rw [hnone] at hmem
            exact (List.not_mem_nil hmem).elim
      rw [hs]
      exact ⟨fun _ => Or.inl hnone, fun _ => rfl⟩
  | some r =>
      have hmem := openFallback_eq_some hr
      obtain ⟨hrt, -, -, hropen⟩ := mem_openRows.mp hmem
      have hne : openRows t a ≠ [] := List.ne_nil_of_mem hmem
      rw [or_iff_right hne]
      cases hs : openBatch env t a with
      | none =>
          dsimp only
          constructor
          · intro heq
            have hlength := congrArg List.length heq
            rw [KeyedList.length_updateKey, List.length_append, List.length_singleton] at hlength
            omega
          · rintro ⟨r', s, -, hcontra, -⟩
            cases hcontra
      | some s =>
          have hsmem := openBatch_eq_some env hs
          obtain ⟨hst, -, -, hsopen⟩ := mem_openRows.mp hsmem
          have hrecent : s.lastSeen ≤ r.lastSeen := openFallback_recent hr hsmem
          dsimp only
          rw [KeyedList.updateKey_eq_iff t.id_nodup hrt hst]
          constructor
          · intro h
            refine ⟨r, s, rfl, rfl, ?_⟩
            rcases h with ⟨rfl, hsame⟩ | ⟨hrs, hrself, hsself⟩
            · obtain ⟨hnil, hsome, hle⟩ := updatedRow_eq_conflictRow_iff.mp hsame
              exact ⟨hnil, hsome, Or.inl ⟨rfl, hle⟩⟩
            · obtain ⟨hzero, hlast, hupdated⟩ := (updatedRow_eq_self_iff hropen).mp hrself
              obtain ⟨hnil, hsome, -, hle, hsupdated⟩ := (conflictRow_eq_self_iff hsopen).mp hsself
              have hslast : s.lastSeen = PgTime.encode a.lastSeen :=
                le_antisymm (hrecent.trans_eq hlast) hle
              exact ⟨hnil, hsome,
                Or.inr ⟨hrs, hzero, hlast, hupdated, hslast, hsupdated.trans hslast⟩⟩
          · rintro ⟨r', s', hr', hs', hnil, hsome, h⟩
            obtain rfl := Option.some.inj hr'
            obtain rfl := Option.some.inj hs'
            rcases h with ⟨rfl, hle⟩ | ⟨hrs, hzero, hlast, hupdated, hslast, hsupdated⟩
            · exact Or.inl ⟨rfl, updatedRow_eq_conflictRow_iff.mpr ⟨hnil, hsome, hle⟩⟩
            · refine Or.inr ⟨hrs, (updatedRow_eq_self_iff hropen).mpr ⟨hzero, hlast, hupdated⟩, ?_⟩
              exact (conflictRow_eq_self_iff hsopen).mpr
                ⟨hnil, hsome, hzero, hslast.ge, hsupdated.trans hslast.symm⟩

end agreement

/-! ### One open row -/

def portScan (id ruleId : String) : Alert :=
  .new id (.ofSeconds 0) "t1" ruleId "rule" .low "port scan" "10.0.0.1" []

/-- One open alert of rule `r1`. -/
def onePortScan : AlertsTable := ⟨[AlertRow.ofAlert (portScan "a1" "r1")], List.nodup_singleton _⟩

def FallbackFaults.none : FallbackFaults := ⟨false, false, false⟩

/-- A flush for one tenant whose statements fit. -/
theorem oneTenant_flushSucceeds {t : AlertsTable} {buffer : List Alert} {g : TenantEntry}
    (hvisited : visitedTenants .plain buffer = [g])
    (hlookup : (t.getOpenAlertsByIps .newestFirst false g.1
      (g.2.entries.map fun e => e.2.sourceIp)).isSome = true)
    (hstatements : statementFits (newAlerts .plain .none t g) = true ∧
      t.FreshIds (newAlerts .plain .none t g) ∧ statementFits (knownAlerts .plain .none t g) = true) :
    FlushSucceeds .plain .none t buffer := by
  obtain ⟨hsent, hfresh, hknown⟩ := hstatements
  constructor
  · rw [hvisited]
    intro g' hg
    rw [List.mem_singleton.mp hg]
    exact hlookup
  · rw [hvisited]
    constructor
    · intro g' hg _
      rw [List.mem_singleton.mp hg]
      exact ⟨rfl, hsent⟩
    · rw [List.flatMap_singleton]
      exact hfresh
  · rw [hvisited]
    intro g' hg _
    rw [List.mem_singleton.mp hg]
    exact ⟨rfl, hknown⟩

theorem onePortScan_flushSucceeds (ruleId : String) (h : ruleId = "r1" ∨ ruleId = "r2") :
    FlushSucceeds .plain .none onePortScan [portScan "a2" ruleId] := by
  rcases h with rfl | rfl
  · exact oneTenant_flushSucceeds rfl (by decide) (by decide)
  · exact oneTenant_flushSucceeds rfl (by decide) (by decide)

/-- A repeated alert of the rule: both paths count it in the row. -/
theorem repeatedPortScan_agrees :
    (fallback .newestFirst .none onePortScan (portScan "a2" "r1")).1 =
      (flushBatch .plain .none onePortScan [portScan "a2" "r1"]).1.table :=
  (fallback_eq_flush_iff .plain (by decide) (onePortScan_flushSucceeds "r1" (Or.inl rfl))).mpr
    (Or.inr ⟨_, _, rfl, rfl, rfl, rfl, Or.inl ⟨rfl, by decide⟩⟩)

/-- An alert of another rule: the fallback counts it in the row of `r1`, a flush adds a row. -/
theorem otherRule_disagrees :
    ¬ ∀ (env : BatchEnv) (order : RowOrder) (fallbackFaults : FallbackFaults)
      (faults : FlushFaults) (t : AlertsTable) (a : Alert),
      (fallback order fallbackFaults t a).2 = true → FlushSucceeds env faults t [a] →
      (fallback order fallbackFaults t a).1 = (flushBatch env faults t [a]).1.table := by
  intro h
  have heq := h .plain .newestFirst .none .none onePortScan (portScan "a2" "r2") (by decide)
    (onePortScan_flushSucceeds "r2" (Or.inr rfl))
  have hlength : (fallback .newestFirst .none onePortScan (portScan "a2" "r2")).1.rows.length =
      (flushBatch .plain .none onePortScan [portScan "a2" "r2"]).1.table.rows.length := by
    rw [heq]
  exact absurd hlength (by decide)

end MiniSiem
