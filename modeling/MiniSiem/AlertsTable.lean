import MiniSiem.Types
import Mathlib.Data.List.Sort

/-! # The alerts table and its commands

The table `alerts` of the migrations and the statements of `db/postgres.rs` on it.

* **Columns.**  A timestamp has microseconds: `PgTime.encode` is what the driver binds for a
  `DateTime<Utc>`, truncated towards the first of January 2000.  A status or a severity is the
  text of the column; `events` is the list of logs its JSON decodes to, or nothing.
* **Constraints.**  The primary key is `id`; with it the unique index on tenant and id holds, so
  it needs no field of its own.  A value is `storable` when it fits its column: lengths of the
  `VARCHAR` columns, no NUL character in a text or JSON value, and a date within the range of a
  `TIMESTAMPTZ`.  A statement binds at most 65535 parameters, 14 for each alert.
* **Commands.**  A command that fails (`fault`, or a constraint) changes nothing and returns
  nothing. -/

namespace MiniSiem

/-- A `TIMESTAMPTZ`: whole microseconds. -/
abbrev PgTime := {t : DateTime // t.1 % 1000 = 0}

/-- The first of January 2000, in nanoseconds. -/
def pgEpoch : ℤ := 946684800000000000

/-- Whole microseconds of a duration in nanoseconds, rounded towards zero. -/
def numMicroseconds (d : ℤ) : ℤ := if 0 ≤ d then d / 1000 else -(-d / 1000)

/-- The microseconds since `pgEpoch` that are bound for a time. -/
def PgTime.encode (t : DateTime) : PgTime :=
  ⟨⟨pgEpoch + numMicroseconds (t.1 - pgEpoch) * 1000, by
    obtain ⟨t, h₁, h₂⟩ := t
    unfold numMicroseconds pgEpoch minSeconds maxSeconds at *
    simp only
    split_ifs <;> omega⟩, by
    unfold pgEpoch
    simp only
    omega⟩

theorem PgTime.encode_val (t : PgTime) : PgTime.encode t.1 = t := by
  obtain ⟨⟨t, ht⟩, hmicro⟩ := t
  apply Subtype.ext
  apply Subtype.ext
  show pgEpoch + numMicroseconds (t - pgEpoch) * 1000 = t
  simp only at hmicro
  unfold numMicroseconds pgEpoch
  split_ifs <;> omega

theorem PgTime.encode_mono {t u : DateTime} (h : t ≤ u) :
    PgTime.encode t ≤ PgTime.encode u := by
  have hval : t.1 ≤ u.1 := h
  show pgEpoch + numMicroseconds (t.1 - pgEpoch) * 1000 ≤
    pgEpoch + numMicroseconds (u.1 - pgEpoch) * 1000
  unfold numMicroseconds pgEpoch
  split_ifs <;> omega

structure AlertRow where
  id : Uuid
  tenantId : String
  ruleId : String
  ruleName : String
  severity : String
  description : String
  sourceIp : String
  events : Option (List Log)
  firstSeen : PgTime
  lastSeen : PgTime
  status : String
  eventsCount : Int32
  createdAt : PgTime
  updatedAt : PgTime

/-- `status IN ('NEW', 'INVESTIGATING')`. -/
def AlertRow.isOpen (r : AlertRow) : Bool := r.status == "NEW" || r.status == "INVESTIGATING"

/-- `DbAlert::into_alert`. -/
def AlertRow.intoAlert (r : AlertRow) : Alert where
  id := r.id
  tenantId := r.tenantId
  ruleId := r.ruleId
  ruleName := r.ruleName
  severity := (AlertSeverity.fromStr r.severity).getD .info
  description := r.description
  sourceIp := r.sourceIp
  events := r.events.getD []
  firstSeen := r.firstSeen.1
  lastSeen := r.lastSeen.1
  status := (AlertStatus.fromStr r.status).getD .new
  eventsCount := r.eventsCount.toInt64.toUInt64

/-- `events_count as i32`. -/
def Alert.countColumn (a : Alert) : Int32 := a.eventsCount.toUInt32.toInt32

/-- The row an `INSERT` binds for an alert. -/
def AlertRow.ofAlert (a : Alert) : AlertRow where
  id := a.id
  tenantId := a.tenantId
  ruleId := a.ruleId
  ruleName := a.ruleName
  severity := a.severity.toString
  description := a.description
  sourceIp := a.sourceIp
  events := some a.events
  firstSeen := PgTime.encode a.firstSeen
  lastSeen := PgTime.encode a.lastSeen
  status := a.status.toString
  eventsCount := a.countColumn
  createdAt := PgTime.encode a.firstSeen
  updatedAt := PgTime.encode a.lastSeen

structure AlertsTable where
  rows : List AlertRow
  id_nodup : (rows.map (·.id)).Nodup

/-! ### What fits the columns -/

/-- No byte of the text is zero. -/
def nulFree (s : String) : Bool := !s.toByteArray.data.toList.contains 0

mutual
def Json.nulFree : Json → Bool
  | .str s => MiniSiem.nulFree s
  | .arr items => Json.nulFreeItems items
  | .obj fields => Json.nulFreeFields fields
  | _ => true

def Json.nulFreeItems : List Json → Bool
  | [] => true
  | v :: vs => Json.nulFree v && Json.nulFreeItems vs

def Json.nulFreeFields : List (String × Json) → Bool
  | [] => true
  | (k, v) :: fs => MiniSiem.nulFree k && Json.nulFree v && Json.nulFreeFields fs
end

/-- The texts of a log, as they appear in its JSON. -/
def Log.nulFree (log : Log) : Bool :=
  [log.tenantId, log.eventType, log.sourceIp, log.targetUser.getD "", log.service.getD "",
    log.message].all MiniSiem.nulFree && log.metadata.nulFree

/-- The earliest `TIMESTAMPTZ`, in nanoseconds since the Unix epoch. -/
def minPgTime : ℤ := -210866803200000000000

def Alert.storable (a : Alert) : Bool :=
  a.ruleId.length ≤ 255 && a.ruleName.length ≤ 255 && a.sourceIp.length ≤ 45 &&
  [a.tenantId, a.ruleId, a.ruleName, a.description, a.sourceIp].all nulFree &&
  a.events.all Log.nulFree &&
  minPgTime ≤ (PgTime.encode a.firstSeen).1.1 && minPgTime ≤ (PgTime.encode a.lastSeen).1.1

/-- The statement can be sent and no column refuses a value. -/
def statementFits (alerts : List Alert) : Bool :=
  alerts.length * 14 ≤ 65535 && alerts.all Alert.storable

/-- No identifier is twice in the statement or already in the table. -/
def AlertsTable.FreshIds (t : AlertsTable) (alerts : List Alert) : Prop :=
  (t.rows.map (·.id) ++ alerts.map (·.id)).Nodup

instance (t : AlertsTable) (alerts : List Alert) : Decidable (t.FreshIds alerts) :=
  inferInstanceAs (Decidable (List.Nodup _))

namespace AlertsTable

/-- The table with a row for each alert. -/
def insert (t : AlertsTable) (alerts : List Alert) (h : t.FreshIds alerts) : AlertsTable where
  rows := t.rows ++ alerts.map AlertRow.ofAlert
  id_nodup := by
    rw [List.map_append, List.map_map]
    exact h

/-- The table with `f` applied to the rows that satisfy `p`. -/
def modify (t : AlertsTable) (p : AlertRow → Bool) (f : AlertRow → AlertRow)
    (hf : ∀ r, (f r).id = r.id) : AlertsTable where
  rows := t.rows.map fun r => if p r then f r else r
  id_nodup := by
    have hid : (t.rows.map fun r => if p r then f r else r).map (·.id) = t.rows.map (·.id) := by
      rw [List.map_map]
      refine List.map_congr_left fun r _ => ?_
      simp only [Function.comp_apply]
      split_ifs
      · exact hf r
      · rfl
    rw [hid]
    exact t.id_nodup

/-- `create_alerts_batch`. -/
def createAlertsBatch (fault : Bool) (alerts : List Alert) (t : AlertsTable) :
    Option AlertsTable :=
  if alerts.isEmpty then some t
  else if fault || !statementFits alerts then none
  else if h : t.FreshIds alerts then some (t.insert alerts h) else none

/-- `create_alert`. -/
def createAlert (fault : Bool) (a : Alert) (t : AlertsTable) : Option AlertsTable :=
  t.createAlertsBatch fault [a]

/-- The row with the tenant and the identifier of the alert. -/
def isRowOf (a : Alert) (r : AlertRow) : Bool := r.tenantId = a.tenantId && r.id = a.id

/-- `ON CONFLICT (tenant_id, id) DO UPDATE SET …`. -/
def conflictRow (a : Alert) (r : AlertRow) : AlertRow :=
  { r with
    lastSeen := PgTime.encode a.lastSeen
    status := a.status.toString
    eventsCount := a.countColumn
    events := some a.events
    updatedAt := PgTime.encode a.lastSeen }

/-- One row of the upsert: the row of the same tenant and identifier is updated; an identifier of
another tenant violates the primary key. -/
def upsertAlert (t : AlertsTable) (a : Alert) : Option AlertsTable :=
  if t.rows.any (isRowOf a) then some (t.modify (isRowOf a) (conflictRow a) fun _ => rfl)
  else if h : t.FreshIds [a] then some (t.insert [a] h) else none

/-- `upsert_alerts_batch`. -/
def upsertAlertsBatch (fault : Bool) (alerts : List Alert) (t : AlertsTable) :
    Option AlertsTable :=
  if alerts.isEmpty then some t
  else if fault || !statementFits alerts || !(alerts.map (·.id)).Nodup then none
  else alerts.foldlM upsertAlert t

/-- `UPDATE alerts SET …`. -/
def updatedRow (a : Alert) (r : AlertRow) : AlertRow :=
  { r with
    lastSeen := PgTime.encode a.lastSeen
    status := a.status.toString
    eventsCount := a.countColumn
    updatedAt := PgTime.encode a.lastSeen }

/-- `update_alert`, without the statistics counter it may decrement. -/
def updateAlert (fault : Bool) (a : Alert) (t : AlertsTable) : Option AlertsTable :=
  if fault || !decide (minPgTime ≤ (PgTime.encode a.lastSeen).1.1) then none
  else some (t.modify (fun r => r.id = a.id) (updatedRow a) fun _ => rfl)

end AlertsTable

/-! ### Lookups -/

/-- `ORDER BY last_seen DESC`: some order of the selected rows, the newest first. -/
structure RowOrder where
  arrange : List AlertRow → List AlertRow
  perm : ∀ rows, (arrange rows).Perm rows
  sorted : ∀ rows, (arrange rows).Pairwise fun r s => s.lastSeen ≤ r.lastSeen

/-- One such order: equal times stay in the order of the rows. -/
def RowOrder.newestFirst : RowOrder where
  arrange := List.insertionSort fun r s => s.lastSeen.1.1 ≤ r.lastSeen.1.1
  perm := List.perm_insertionSort _
  sorted := fun rows => by
    have : Std.Total fun r s : AlertRow => s.lastSeen.1.1 ≤ r.lastSeen.1.1 :=
      ⟨fun r s => le_total _ _⟩
    have : IsTrans AlertRow fun r s => s.lastSeen.1.1 ≤ r.lastSeen.1.1 :=
      ⟨fun r s u hrs hsu => le_trans hsu hrs⟩
    exact List.pairwise_insertionSort _ rows

namespace AlertsTable

variable (order : RowOrder) (fault : Bool) (t : AlertsTable)

/-- `get_open_alerts_by_ips`. -/
def getOpenAlertsByIps (tenantId : String) (ips : List String) : Option (List Alert) :=
  if ips.isEmpty then some []
  else if fault || !((tenantId :: ips).all nulFree) then none
  else some ((order.arrange (t.rows.filter fun r =>
    r.tenantId = tenantId && ips.contains r.sourceIp && r.isOpen)).map AlertRow.intoAlert)

/-- `get_open_alerts_by_ip`. -/
def getOpenAlertsByIp (tenantId sourceIp : String) : Option (List Alert) :=
  if fault || !([tenantId, sourceIp].all nulFree) then none
  else some (((order.arrange (t.rows.filter fun r =>
    r.tenantId = tenantId && r.sourceIp = sourceIp && r.isOpen)).take 10).map AlertRow.intoAlert)

end AlertsTable

end MiniSiem
