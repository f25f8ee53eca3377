import MiniSiem.Rules

/-! # Requests of the ingest endpoints

`IngestLogRequest` and `BatchIngestRequest` of `api/handlers/logs.rs` with their derived
`Deserialize` instances.

* **Fields.**  `event_type`, `source_ip` and `message` are required; an `Option` field may be missing
  or `null`; unknown keys are ignored.
* **Times.**  The text format of a `DateTime<Utc>` is that of `chrono`, a parameter. -/

namespace MiniSiem

structure IngestLogRequest where
  eventType : String
  sourceIp : String
  targetUser : Option String
  service : Option String
  message : String
  severity : Option LogSeverity
  timestamp : Option DateTime
  metadata : Option Json

structure BatchIngestRequest where
  logs : List IngestLogRequest

/-- A field of an `Option` type. -/
def optionField {α : Type} (f : Json → Option α) : Option Json → Option (Option α)
  | none => some none
  | some .null => some none
  | some v => (f v).map some

/-- The variants of `LogSeverity` in upper case. -/
def LogSeverity.fromValue (v : Json) : Option LogSeverity :=
  match v.variant with
  | some ("CRITICAL", none) => some .critical
  | some ("HIGH", none) => some .high
  | some ("MEDIUM", none) => some .medium
  | some ("LOW", none) => some .low
  | some ("INFO", none) => some .info
  | some ("DEBUG", none) => some .debug
  | _ => none

section decoding

variable (parseDateTime : String → Option DateTime)

def dateTimeFromValue (v : Json) : Option DateTime := v.toStr.bind parseDateTime

def IngestLogRequest.fields : List String :=
  ["event_type", "source_ip", "target_user", "service", "message", "severity", "timestamp", "metadata"]

def IngestLogRequest.fromValue (v : Json) : Option IngestLogRequest :=
  match v.structFields fields with
  | some [eventType, sourceIp, targetUser, service, message, severity, timestamp, metadata] => do
      return {
        eventType := ← required Json.toStr eventType
        sourceIp := ← required Json.toStr sourceIp
        targetUser := ← optionField Json.toStr targetUser
        service := ← optionField Json.toStr service
        message := ← required Json.toStr message
        severity := ← optionField LogSeverity.fromValue severity
        timestamp := ← optionField (dateTimeFromValue parseDateTime) timestamp
        metadata := ← optionField some metadata }
  | _ => none

def BatchIngestRequest.fromValue (v : Json) : Option BatchIngestRequest :=
  match v.structFields ["logs"] with
  | some [logs] => do
      return { logs := ← required (Json.toVec (IngestLogRequest.fromValue parseDateTime)) logs }
  | _ => none

example : (IngestLogRequest.fromValue (fun _ => none) (.obj [("event_type", .str "login"),
    ("source_ip", .str "10.0.0.7"), ("message", .str "ok"), ("source", .str "file")])).isSome := rfl

/-! ### What a decoded request has -/

variable {parseDateTime}

/-- An object is decoded only if it has the required keys. -/
theorem IngestLogRequest.required_of_fromValue {fields : List (String × Json)} {r : IngestLogRequest}
    (h : IngestLogRequest.fromValue parseDateTime (.obj fields) = some r) {key : String}
    (hkey : key ∈ ["event_type", "source_ip", "message"]) : key ∈ fields.map Prod.fst := by
  have hlookup : List.lookup key fields ≠ none := by
    intro hnone
    unfold fromValue IngestLogRequest.fields at h
    simp only [List.mem_cons, List.not_mem_nil, or_false] at hkey
    rcases hkey with rfl | rfl | rfl <;>
      simp [Json.structFields, required, hnone] at h
  by_contra hmissing
  apply hlookup
  rw [List.lookup_eq_none_iff]
  intro p hp
  rw [bne_iff_ne]
  rintro rfl
  exact hmissing (List.mem_map_of_mem hp)

/-- A batch is decoded only if each of its logs is. -/
theorem BatchIngestRequest.fromValue_logs {items : List Json} {r : BatchIngestRequest}
    (h : BatchIngestRequest.fromValue parseDateTime (.obj [("logs", .arr items)]) = some r) :
    items.mapM (IngestLogRequest.fromValue parseDateTime) = some r.logs := by
  unfold fromValue at h
  simp only [Json.structFields, List.map_cons, List.map_nil, List.lookup_cons_self, required,
    Json.toVec, Option.bind_some] at h
  obtain ⟨logs, hlogs, hr⟩ := Option.bind_eq_some_iff.mp h
  obtain rfl := Option.some.inj hr
  exact hlogs

end decoding

end MiniSiem
