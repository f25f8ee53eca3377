import MiniSiem.AlertsTable
import MiniSiem.Normalization
import Mathlib.Data.List.AList

/-! # The alert batcher

`flush_batch` of `alerting/db_batcher.rs` over the alerts table.

* **Deduplication.**  Alerts with the same key (tenant, rule, address, fingerprint of the
  normalized description, minute of the last occurrence) are merged: `byTenant` is the nested
  hash map of the source, `mergeAlert` its merge.  The fingerprint is a 64-bit hash whose
  algorithm the standard library leaves open, so it is a parameter.
* **Order.**  A hash map is iterated in any order of its entries (`MapOrder`), a query returns
  rows with equal `last_seen` in any order (`RowOrder`).
* **Flush.**  The buffer is drained first.  For one tenant after another the open alerts of the
  addresses are looked up, new keys are inserted in one statement and known keys are upserted in
  another.  A failed lookup counts as an empty one, a failed insert ends the flush, a failed
  upsert is dropped. -/

namespace MiniSiem

/-- The characters of a normalized text, given whether the last one was a blank or a digit run. -/
def normalizeChars (previousWasSpace inDigitRun : Bool) : List Char → List Char
  | [] => []
  | ch :: chars =>
      if isAsciiDigit ch then
        if inDigitRun then normalizeChars false true chars else '#' :: normalizeChars false true chars
      else
        let mapped := ch.toLower
        if isWhitespace mapped then
          if previousWasSpace then normalizeChars true false chars
          else ' ' :: normalizeChars true false chars
        else mapped :: normalizeChars false false chars

/-- `str::trim`. -/
def trimChars (s : List Char) : List Char :=
  ((s.dropWhile isWhitespace).reverse.dropWhile isWhitespace).reverse

def normalizeFingerprint (input : String) : String :=
  String.ofList (trimChars (normalizeChars false false input.toList))

structure AlertDedupKey where
  tenantId : String
  ruleId : String
  entity : String
  normalizedFingerprint : UInt64
  windowBucket : ℤ
deriving DecidableEq

def alertDedupWindowSeconds : ℤ := 60

def dedupWindowBucket (alert : Alert) : ℤ := alert.lastSeen.timestamp / max alertDedupWindowSeconds 1

def alertDedupKey (fingerprint : String → UInt64) (alert : Alert) : AlertDedupKey where
  tenantId := alert.tenantId
  ruleId := alert.ruleId
  entity := alert.sourceIp
  normalizedFingerprint := fingerprint (normalizeFingerprint alert.description)
  windowBucket := dedupWindowBucket alert

def mergeAlert (existing incoming : Alert) : Alert :=
  let lastSeen := existing.lastSeen.later incoming.lastSeen
  { existing with
    firstSeen := existing.firstSeen.earlier incoming.firstSeen
    lastSeen := lastSeen
    eventsCount := existing.eventsCount + incoming.eventsCount
    events := existing.events ++ incoming.events
    description := if lastSeen.1 ≤ incoming.lastSeen.1 then incoming.description
      else existing.description }

/-! ### The buffer by tenant and key -/

abbrev TenantAlerts := AList fun _ : AlertDedupKey => Alert

abbrev ByTenant := AList fun _ : String => TenantAlerts

/-- A tenant with its part of the buffer. -/
abbrev TenantEntry := Sigma fun _ : String => TenantAlerts

/-- `entry(key).and_modify(merge).or_insert(alert)`. -/
def TenantAlerts.add (fp : String → UInt64) (m : TenantAlerts) (alert : Alert) : TenantAlerts :=
  m.insert (alertDedupKey fp alert) (match m.lookup (alertDedupKey fp alert) with
    | some existing => mergeAlert existing alert
    | none => alert)

def ByTenant.add (fp : String → UInt64) (m : ByTenant) (alert : Alert) : ByTenant :=
  m.insert alert.tenantId (TenantAlerts.add fp ((m.lookup alert.tenantId).getD ∅) alert)

/-- `by_tenant`, from the drained buffer. -/
def byTenant (fp : String → UInt64) (buffer : List Alert) : ByTenant :=
  buffer.foldl (ByTenant.add fp) ∅

/-! ### Flush -/

/-- The order in which a hash map yields its entries. -/
structure MapOrder (α : Type) where
  arrange : List α → List α
  perm : ∀ entries, (arrange entries).Perm entries

def MapOrder.asStored (α : Type) : MapOrder α := ⟨fun entries => entries, fun _ => .refl _⟩

/-- What the code leaves open: the hash, the iteration order of the two maps and the order of
rows with equal `last_seen`. -/
structure BatchEnv where
  fingerprint : String → UInt64
  tenantOrder : MapOrder TenantEntry
  keyOrder : MapOrder (Sigma fun _ : AlertDedupKey => Alert)
  rowOrder : RowOrder

def BatchEnv.plain : BatchEnv := ⟨fun _ => 0, .asStored _, .asStored _, .newestFirst⟩

/-- Which commands fail for a tenant, whatever they are asked to do. -/
structure FlushFaults where
  lookup : String → Bool
  create : String → Bool
  update : String → Bool

def FlushFaults.none : FlushFaults := ⟨fun _ => false, fun _ => false, fun _ => false⟩

section flush

variable (env : BatchEnv) (faults : FlushFaults)

/-- `get_open_alerts_by_ips(…).await.unwrap_or_default()` for a tenant's part of the buffer. -/
def existingAlerts (t : AlertsTable) (tenantId : String) (alerts : TenantAlerts) : List Alert :=
  (t.getOpenAlertsByIps env.rowOrder (faults.lookup tenantId) tenantId
    (alerts.entries.map fun e => e.2.sourceIp)).getD []

/-- `existing_map.remove(key)`: the first existing alert with the key.  No key is asked for twice. -/
def existingFor (existing : List Alert) (key : AlertDedupKey) : Option Alert :=
  existing.find? fun e => alertDedupKey env.fingerprint e = key

/-- The alerts of a tenant without an existing one. -/
def toCreate (existing : List Alert) (alerts : TenantAlerts) : List Alert :=
  (env.keyOrder.arrange alerts.entries).filterMap fun e =>
    match existingFor env existing e.1 with
    | some _ => none
    | none => some e.2

/-- The existing alerts of a tenant, each with the alert of its key merged into it. -/
def toUpdate (existing : List Alert) (alerts : TenantAlerts) : List Alert :=
  (env.keyOrder.arrange alerts.entries).filterMap fun e =>
    (existingFor env existing e.1).map fun old => mergeAlert old e.2

/-- What a flush leaves: the table, the alerts of its successful statements, and whether it
returned `Ok`. -/
structure FlushOutcome where
  table : AlertsTable
  created : List Alert
  updated : List Alert
  ok : Bool

/-- The tenants in iteration order. -/
def flushTenants : List TenantEntry → AlertsTable → FlushOutcome
  | [], t => ⟨t, [], [], true⟩
  | ⟨tenantId, alerts⟩ :: rest, t =>
      let existing := existingAlerts env faults t tenantId alerts
      let creates := toCreate env existing alerts
      let updates := toUpdate env existing alerts
      match t.createAlertsBatch (faults.create tenantId) creates with
      | none => ⟨t, [], [], false⟩
      | some t₁ =>
          match t₁.upsertAlertsBatch (faults.update tenantId) updates with
          | none =>
              let out := flushTenants rest t₁
              { out with created := creates ++ out.created }
          | some t₂ =>
              let out := flushTenants rest t₂
              { out with created := creates ++ out.created, updated := updates ++ out.updated }

/-- `flush_batch`: the outcome and the buffer it leaves. -/
def flushBatch (t : AlertsTable) (buffer : List Alert) : FlushOutcome × List Alert :=
  if buffer.isEmpty then (⟨t, [], [], true⟩, buffer)
  else (flushTenants env faults
    (env.tenantOrder.arrange (byTenant env.fingerprint buffer).entries) t, [])

end flush

end MiniSiem
