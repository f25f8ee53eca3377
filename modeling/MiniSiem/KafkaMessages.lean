import MiniSiem.IngestRequests

/-! # Messages of the Kafka topics

The payloads of `siem-logs` and `siem-alerts`, decoded with the derived `Deserialize` instances of
`Log` and `Alert`.

* **Formats.**  The parser of JSON text and the text formats of UUIDs and times belong to other
  packages; they are the fields of `TextFormats`.
* **Fields.**  Every field is required, but `target_user` and `service` may be missing. -/

namespace MiniSiem

structure TextFormats where
  parseJson : List UInt8 → Option Json
  parseUuid : String → Option Uuid
  parseDateTime : String → Option DateTime

def AlertSeverity.fromValue (v : Json) : Option AlertSeverity :=
  match v.variant with
  | some ("CRITICAL", none) => some .critical
  | some ("HIGH", none) => some .high
  | some ("MEDIUM", none) => some .medium
  | some ("LOW", none) => some .low
  | some ("INFO", none) => some .info
  | _ => none

def AlertStatus.fromValue (v : Json) : Option AlertStatus :=
  match v.variant with
  | some ("NEW", none) => some .new
  | some ("INVESTIGATING", none) => some .investigating
  | some ("RESOLVED", none) => some .resolved
  | some ("FALSEPOSITIVE", none) => some .falsePositive
  | _ => none

section decoding

variable (formats : TextFormats)

def uuidFromValue (v : Json) : Option Uuid := v.toStr.bind formats.parseUuid

def Log.fromValue (v : Json) : Option Log :=
  match v.structFields ["id", "tenant_id", "timestamp", "event_type", "source_ip", "target_user",
      "service", "message", "severity", "metadata", "received_at"] with
  | some [id, tenantId, timestamp, eventType, sourceIp, targetUser, service, message, severity,
      metadata, receivedAt] => do
      return {
        id := ← required (uuidFromValue formats) id
        tenantId := ← required Json.toStr tenantId
        timestamp := ← required (dateTimeFromValue formats.parseDateTime) timestamp
        eventType := ← required Json.toStr eventType
        sourceIp := ← required Json.toStr sourceIp
        targetUser := ← optionField Json.toStr targetUser
        service := ← optionField Json.toStr service
        message := ← required Json.toStr message
        severity := ← required LogSeverity.fromValue severity
        metadata := ← required some metadata
        receivedAt := ← required (dateTimeFromValue formats.parseDateTime) receivedAt }
  | _ => none

def Alert.fromValue (v : Json) : Option Alert :=
  match v.structFields ["id", "tenant_id", "rule_id", "rule_name", "severity", "description",
      "source_ip", "events", "first_seen", "last_seen", "status", "events_count"] with
  | some [id, tenantId, ruleId, ruleName, severity, description, sourceIp, events, firstSeen,
      lastSeen, status, eventsCount] => do
      return {
        id := ← required (uuidFromValue formats) id
        tenantId := ← required Json.toStr tenantId
        ruleId := ← required Json.toStr ruleId
        ruleName := ← required Json.toStr ruleName
        severity := ← required AlertSeverity.fromValue severity
        description := ← required Json.toStr description
        sourceIp := ← required Json.toStr sourceIp
        events := ← required (Json.toVec (Log.fromValue formats)) events
        firstSeen := ← required (dateTimeFromValue formats.parseDateTime) firstSeen
        lastSeen := ← required (dateTimeFromValue formats.parseDateTime) lastSeen
        status := ← required AlertStatus.fromValue status
        eventsCount := ← required Json.toU64 eventsCount }
  | _ => none

/-- The log of a payload, if there is a payload and it is a log. -/
def logOfPayload (payload : Option (List UInt8)) : Option Log :=
  payload.bind fun bytes => (formats.parseJson bytes).bind (Log.fromValue formats)

def alertOfPayload (payload : Option (List UInt8)) : Option Alert :=
  payload.bind fun bytes => (formats.parseJson bytes).bind (Alert.fromValue formats)

theorem alertOfPayload_of_parse {formats : TextFormats} {bytes : List UInt8} {j : Json}
    (h : formats.parseJson bytes = some j) :
    alertOfPayload formats (some bytes) = Alert.fromValue formats j := by
  simp only [alertOfPayload, Option.bind_some, h]

end decoding

end MiniSiem
