import MiniSiem.CostUsage
import MiniSiem.IngestRequests

/-! # The logs of the agent

`Log`, its constructors and `Batch.ToJSON` of the agent (`agent/models/log.go`), and what the
backend makes of the body that the shipper posts.

* **Strings.**  A Go string is a list of bytes; `encoding/json` writes it with every invalid byte
  replaced by U+FFFD.
* **Objects.**  A field with `omitempty` is left out when it is empty; the keys of a map are sorted.
* **Decoding.**  The body has no `event_type` and no `source_ip`, which `IngestLogRequest` requires, so
  no batch with a log is decoded (`batches_never_decode`). -/

namespace MiniSiem

/-- The bytes of a Go string. -/
abbrev GoString := List UInt8

namespace GoString

/-- The characters of at most `n` runes, decoded one after the other. -/
def runes : ℕ → GoString → List Char
  | 0, _ => []
  | _, [] => []
  | n + 1, b :: bs =>
      match ByteArray.utf8DecodeChar? ⟨⟨b :: bs⟩⟩ 0 with
      | some c => c :: runes n ((b :: bs).drop c.utf8Size)
      | none => Char.ofNat 0xFFFD :: runes n bs

/-- The string as `encoding/json` writes it. -/
def text (s : GoString) : String := String.ofList (runes s.length s)

/-- A text without a character outside of ASCII. -/
def ofString (s : String) : GoString := s.toList.map fun c => UInt8.ofNat c.toNat

end GoString

/-- A Go map from strings to strings. -/
abbrev StringMap := {entries : List (GoString × GoString) // (entries.map Prod.fst).Nodup}

structure AgentLog where
  timestamp : GoString
  source : GoString
  host : GoString
  file : GoString
  message : GoString
  sourceType : GoString
  tags : StringMap

/-- `Format(time.RFC3339)` of a time in UTC. -/
def rfc3339 (now : DateTime) : String :=
  let (year, month, day) := civilFromDays now.day
  let years := (if year < 0 then "-" else "") ++ pad 4 year.natAbs
  let seconds := (now.timestamp % 86400).toNat
  years ++ "-" ++ pad 2 month ++ "-" ++ pad 2 day ++ "T" ++ pad 2 (seconds / 3600) ++ ":" ++
    pad 2 (seconds / 60 % 60) ++ ":" ++ pad 2 (seconds % 60) ++ "Z"

def newFileLog (now : DateTime) (filePath message : GoString) (tags : StringMap) : AgentLog where
  timestamp := .ofString (rfc3339 now)
  source := .ofString "file"
  host := []
  file := filePath
  message := message
  sourceType := .ofString "file"
  tags := tags

def newSyslogLog (now : DateTime) (host message : GoString) : AgentLog where
  timestamp := .ofString (rfc3339 now)
  source := .ofString "syslog"
  host := host
  file := []
  message := message
  sourceType := .ofString "syslog"
  tags := ⟨[], List.nodup_nil⟩

namespace AgentLog

/-- A field with `omitempty`. -/
def omitEmpty (key : String) (s : GoString) : List (String × Json) :=
  if s.isEmpty then [] else [(key, .str s.text)]

def tagsJson (tags : StringMap) : Json :=
  .obj ((tags.1.insertionSort fun s t => s.1 ≤ t.1).map fun (k, v) => (k.text, .str v.text))

def toJson (l : AgentLog) : Json :=
  .obj ([("timestamp", .str l.timestamp.text), ("source", .str l.source.text)] ++
    omitEmpty "host" l.host ++ omitEmpty "file" l.file ++
    [("message", .str l.message.text), ("source_type", .str l.sourceType.text)] ++
    if l.tags.1.isEmpty then [] else [("tags", tagsJson l.tags)])

end AgentLog

/-- `Batch.ToJSON`. -/
def batchToJson (logs : List AgentLog) : Json := .obj [("logs", .arr (logs.map AgentLog.toJson))]

/-- What a collector hands to the constructors. -/
inductive Collected
  | file (now : DateTime) (filePath message : GoString) (tags : StringMap)
  | syslog (now : DateTime) (host message : GoString)

def Collected.log : Collected → AgentLog
  | file now filePath message tags => newFileLog now filePath message tags
  | syslog now host message => newSyslogLog now host message

/-! ### The two sides -/

/-- The posted body is decoded into the logs of the batch, in order, with their messages and times. -/
def SameFormat (parseDateTime : String → Option DateTime) (logs : List AgentLog) : Prop :=
  ∃ request, BatchIngestRequest.fromValue parseDateTime (batchToJson logs) = some request ∧
    request.logs.map (·.message) = logs.map (·.message.text) ∧
    request.logs.map (·.timestamp) = logs.map (fun l => parseDateTime l.timestamp.text) ∧
    ∀ r ∈ request.logs, r.timestamp.isSome

/-- The keys of a log of the agent. -/
theorem AgentLog.keys_of_toJson (l : AgentLog) :
    ∃ fields, l.toJson = .obj fields ∧ ∀ key ∈ fields.map Prod.fst,
      key ∈ ["timestamp", "source", "host", "file", "message", "source_type", "tags"] := by
  refine ⟨_, rfl, ?_⟩
  intro key hkey
  unfold omitEmpty at hkey
  split_ifs at hkey <;> simp at hkey ⊢ <;> tauto

theorem AgentLog.fromValue_toJson (parseDateTime : String → Option DateTime) (l : AgentLog) :
    IngestLogRequest.fromValue parseDateTime l.toJson = none := by
  obtain ⟨fields, hfields, hkeys⟩ := l.keys_of_toJson
  rw [Option.eq_none_iff_forall_ne_some]
  intro r hr
  rw [hfields] at hr
  have hmem := hkeys _ (IngestLogRequest.required_of_fromValue hr
    (show "event_type" ∈ ["event_type", "source_ip", "message"] by decide))
  exact absurd hmem (by decide)

theorem batch_not_decoded (parseDateTime : String → Option DateTime) (l : AgentLog)
    (logs : List AgentLog) :
    BatchIngestRequest.fromValue parseDateTime (batchToJson (l :: logs)) = none := by
  rw [Option.eq_none_iff_forall_ne_some]
  intro request hrequest
  have hlogs := BatchIngestRequest.fromValue_logs hrequest
  rw [List.map_cons, List.mapM_cons, AgentLog.fromValue_toJson] at hlogs
  cases hlogs

/-- **The agent and the backend never agree**: no batch with a log is decoded. -/
theorem batches_never_decode (parseDateTime : String → Option DateTime) (collected : List Collected)
    (hne : collected ≠ []) : ¬ SameFormat parseDateTime (collected.map Collected.log) := by
  rintro ⟨request, hrequest, -⟩
  obtain ⟨first, rest, rfl⟩ := List.exists_cons_of_ne_nil hne
  rw [List.map_cons, batch_not_decoded] at hrequest
  cases hrequest

/-- A time of day at midnight, as `chrono` reads it. -/
def parseUtc (s : String) : Option DateTime :=
  if s = "2026-01-01T00:00:00Z" then some (.ofSeconds 1767225600) else none

def sshdPacket : Collected :=
  .syslog (.ofSeconds 1767225600) (.ofString "10.0.0.7") (.ofString "Accepted password for root")

theorem sshdBatch_not_decoded : ¬ SameFormat parseUtc ([sshdPacket].map Collected.log) :=
  batches_never_decode parseUtc [sshdPacket] (by simp)

/-- A line of a file, without tags. -/
theorem fileLine_not_decoded :
    ¬ SameFormat parseUtc [newFileLog (.ofSeconds 1767225600) (.ofString "/var/log/auth.log")
      (.ofString "session opened") ⟨[], List.nodup_nil⟩] := by
  rintro ⟨request, hrequest, -⟩
  rw [batch_not_decoded] at hrequest
  cases hrequest

end MiniSiem
