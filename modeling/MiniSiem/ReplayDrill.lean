import MiniSiem.KafkaMessages

/-! # The replay drill

The drill reads logs of the search index and sends them once more through Kafka into the same index:
`reliability::replay_recent_logs`, `KafkaQueue::send_log`, the decoding of `consume_logs` and
`ElasticClient::bulk_index`.

* **Texts.**  `Log.toValue` is the derived `Serialize` of a log; `Log.fromValue_toValue` says that it is
  decoded as the log.  The writers of JSON text, UUIDs and times belong to other packages.
* **Documents.**  The index maps identifiers to documents.  An `index` action replaces the document with
  its identifier (`bulkIndex_apply`).
* **Evidence.**  The drill keeps the identifier of a log and changes its metadata and its time.
  `unaltered_iff`: each document keeps its fields exactly when the last replayed log with its identifier
  has the same fields already.  `replayedDocument_altered` is a drill on one document. -/

namespace MiniSiem

/-! ### Serialization -/

/-- JSON text, and UUIDs and times as `Serialize` and `to_rfc3339` write them. -/
structure TextWriters where
  renderJson : Json → List UInt8
  renderUuid : Uuid → String
  renderDateTime : DateTime → String
  toRfc3339 : DateTime → String

def optionToValue : Option String → Json
  | none => .null
  | some s => .str s

section encoding

variable (writers : TextWriters)

def Log.toFields (log : Log) : List (String × Json) :=
  [("id", .str (writers.renderUuid log.id)), ("tenant_id", .str log.tenantId),
    ("timestamp", .str (writers.renderDateTime log.timestamp)), ("event_type", .str log.eventType),
    ("source_ip", .str log.sourceIp), ("target_user", optionToValue log.targetUser),
    ("service", optionToValue log.service), ("message", .str log.message),
    ("severity", .str log.severity.toString), ("metadata", log.metadata),
    ("received_at", .str (writers.renderDateTime log.receivedAt))]

/-- `serde_json::to_value`. -/
def Log.toValue (log : Log) : Json := .obj (log.toFields writers)

/-- The payload and the key of a message. -/
structure LogRecord where
  key : String
  payload : List UInt8

/-- The record that `send_log` hands to the producer. -/
def sendLog (log : Log) : LogRecord :=
  ⟨writers.renderUuid log.id, writers.renderJson (log.toValue writers)⟩

/-- What was written for the log is read as it was. -/
structure TextWriters.Readable (formats : TextFormats) (log : Log) : Prop where
  json : formats.parseJson (writers.renderJson (log.toValue writers)) = some (log.toValue writers)
  id : formats.parseUuid (writers.renderUuid log.id) = some log.id
  timestamp : formats.parseDateTime (writers.renderDateTime log.timestamp) = some log.timestamp
  receivedAt : formats.parseDateTime (writers.renderDateTime log.receivedAt) = some log.receivedAt

variable {writers} {formats : TextFormats} {log : Log}

theorem LogSeverity.fromValue_toString (s : LogSeverity) :
    LogSeverity.fromValue (.str s.toString) = some s := by
  cases s <;> rfl

theorem optionField_toValue (s : Option String) :
    optionField Json.toStr (some (optionToValue s)) = some s := by
  cases s <;> rfl

/-- The round trip of a log. -/
theorem Log.fromValue_toValue (h : writers.Readable formats log) :
    Log.fromValue formats (log.toValue writers) = some log := by
  have hid : uuidFromValue formats (.str (writers.renderUuid log.id)) = some log.id := h.id
  have htimestamp : dateTimeFromValue formats.parseDateTime
      (.str (writers.renderDateTime log.timestamp)) = some log.timestamp := h.timestamp
  have hreceived : dateTimeFromValue formats.parseDateTime
      (.str (writers.renderDateTime log.receivedAt)) = some log.receivedAt := h.receivedAt
  have hseverity := LogSeverity.fromValue_toString log.severity
  have htext : ∀ s, optionField Json.asStr (some (optionToValue s)) = some s := optionField_toValue
  have hfields : (log.toValue writers).structFields ["id", "tenant_id", "timestamp", "event_type",
      "source_ip", "target_user", "service", "message", "severity", "metadata", "received_at"] =
      some ((log.toFields writers).map fun field => some field.2) := rfl
  unfold Log.fromValue
  rw [hfields]
  simp only [Log.toFields, List.map_cons, List.map_nil, required, Option.bind_some, Json.toStr,
    Json.asStr, hid, htimestamp, hreceived, hseverity, htext]
  rfl

theorem logOfPayload_sendLog (h : writers.Readable formats log) :
    logOfPayload formats (some (sendLog writers log).payload) = some log := by
  unfold logOfPayload sendLog
  rw [Option.bind_some, h.json, Option.bind_some, Log.fromValue_toValue h]

end encoding

/-! ### The index -/

/-- The documents of the index by their identifiers. -/
abbrev ElasticIndex := String → Option Json

namespace Json

/-- The two values have the same value at each key. -/
def SameFields (d d' : Json) : Prop := ∀ key, d.get key = d'.get key

end Json

section index

variable (writers : TextWriters)

/-- The document of a log in the payload of `bulk_index`. -/
def document (log : Log) : Json :=
  .obj (log.toFields writers ++ [("@timestamp", .str (writers.toRfc3339 log.timestamp))])

/-- The actions of a successful `bulk_index`, one after the other. -/
def ElasticIndex.bulkIndex (index : ElasticIndex) (logs : List Log) : ElasticIndex :=
  logs.foldl (fun index log =>
    Function.update index (writers.renderUuid log.id) (some (document writers log))) index

/-- The logs with the identifier. -/
def withKey (key : String) (logs : List Log) : List Log :=
  logs.filter fun log => writers.renderUuid log.id = key

variable {writers}

/-- A document is that of the last log with its identifier, if there is one. -/
theorem bulkIndex_apply (index : ElasticIndex) (logs : List Log) (key : String) :
    index.bulkIndex writers logs key =
      (((withKey writers key logs).getLast?.map (document writers)).or (index key)) := by
  induction logs using List.reverseRecOn with
  | nil => rfl
  | append_singleton logs log ih =>
      unfold ElasticIndex.bulkIndex withKey at ih ⊢
      rw [List.foldl_append, List.filter_append]
      by_cases hkey : writers.renderUuid log.id = key
      · subst hkey
        simp
      · rw [List.filter_cons_of_neg (by simpa using hkey), List.filter_nil, List.append_nil, ← ih]
        exact Function.update_of_ne (Ne.symm hkey) _ _

end index

/-! ### The drill -/

/-- What the drill finds outside: the client, the answers to a search, and the clock at its start and at
each of its hits. -/
structure DrillEnv where
  formats : TextFormats
  writers : TextWriters
  connected : Bool
  search : ElasticIndex → Json → ℕ → Option Json
  started : DateTime
  now : ℕ → DateTime

section drill

variable (env : DrillEnv) (index : ElasticIndex) (tenantId : String) (limit : ℕ)

/-- `response.pointer("/hits/hits")` as an array. -/
def hitsOf (response : Json) : List Json :=
  match (response.get "hits").bind fun hits => hits.get "hits" with
  | some (.arr hits) => hits
  | _ => []

/-- The log of a hit, if there is one. -/
def decodeHit (hit : Json) : Option Log := (hit.get "_source").bind (Log.fromValue env.formats)

/-- The metadata that the drill gives to a log. -/
def drillMetadata (log : Log) : Json :=
  .obj [("drill", .str "replay"), ("original_id", .str (env.writers.renderUuid log.id)),
    ("replayed_at", .str (env.writers.toRfc3339 env.started))]

def markReplayed (log : Log) (now : DateTime) : Log :=
  { log with metadata := drillMetadata env log, receivedAt := now }

/-- The hits of the search. -/
def searchHits : List Json :=
  if env.connected then
    match env.search index (.obj [("term", .obj [("tenant_id", .str tenantId)])]) (max limit 1) with
    | some response => hitsOf response
    | none => []
  else []

/-- The logs that `replay_recent_logs` sends. -/
def replayRecentLogs : List Log :=
  (searchHits env index tenantId limit).zipIdx.filterMap fun (hit, n) =>
    (decodeHit env hit).map fun log => markReplayed env log (env.now n)

/-- The logs that the hits decode to, with the number of the hit. -/
def decodedHits : List (Log × ℕ) :=
  (searchHits env index tenantId limit).zipIdx.filterMap fun (hit, n) =>
    (decodeHit env hit).map fun log => (log, n)

/-- The document has the metadata of this very drill, the time of this hit, and else the fields of the
decoded log. -/
structure Resent (d : Json) (log : Log) (n : ℕ) : Prop where
  metadata : d.get "metadata" = some (drillMetadata env log)
  receivedAt : d.get "received_at" = some (.str (env.writers.renderDateTime (env.now n)))
  others : ∀ key, key ≠ "metadata" → key ≠ "received_at" →
    d.get key = (document env.writers log).get key

/-- The records arrive in the order of their partitions: those with one key as they were sent. -/
def InKeyOrder (sent arrived : List LogRecord) : Prop :=
  ∀ key, arrived.filter (fun m => m.key = key) = sent.filter fun m => m.key = key

/-- The logs that `consume_logs` decodes. -/
def consumed (arrived : List LogRecord) : List Log :=
  arrived.filterMap fun m => logOfPayload env.formats (some m.payload)

/-- Each document of the index has the fields that it had before. -/
def Unaltered (index index' : ElasticIndex) : Prop :=
  ∀ key d, index key = some d → ∃ d', index' key = some d' ∧ d'.SameFields d

variable {env} {index} {tenantId} {limit} {sent : List Log} {arrived : List LogRecord}

/-- With each key the logs arrive as they were sent. -/
theorem withKey_consumed (hreadable : ∀ log ∈ sent, env.writers.Readable env.formats log)
    (harrived : InKeyOrder (sent.map (sendLog env.writers)) arrived) (key : String) :
    withKey env.writers key (consumed env arrived) = withKey env.writers key sent := by
  have hmem : ∀ m ∈ arrived, ∃ log ∈ sent, sendLog env.writers log = m := by
    intro m hm
    have hfilter : m ∈ arrived.filter fun m' => m'.key = m.key :=
      List.mem_filter.mpr ⟨hm, decide_eq_true rfl⟩
    rw [harrived m.key] at hfilter
    exact List.mem_map.mp (List.mem_filter.mp hfilter).1
  have hdecode : ∀ log ∈ sent, logOfPayload env.formats (some (sendLog env.writers log).payload) = some log :=
    fun log hlog => logOfPayload_sendLog (hreadable log hlog)
  calc withKey env.writers key (consumed env arrived)
      = (arrived.filter fun m => m.key = key).filterMap
          fun m => logOfPayload env.formats (some m.payload) := by
        unfold withKey consumed
        rw [List.filter_filterMap, List.filterMap_filter]
        refine List.filterMap_congr fun m hm => ?_
        obtain ⟨log, hlog, rfl⟩ := hmem m hm
        rw [hdecode log hlog, Option.filter_some]
        rfl
    _ = withKey env.writers key sent := by
        unfold withKey
        rw [harrived key, List.filterMap_filter, List.filterMap_map, ← List.filterMap_eq_filter]
        refine List.filterMap_congr fun log hlog => ?_
        dsimp only [Function.comp_apply]
        rw [hdecode log hlog]
        rfl

theorem sameFields_iff {d : Json} {log : Log} {n : ℕ} :
    (document env.writers (markReplayed env log (env.now n))).SameFields d ↔ Resent env d log n := by
  have hother : ∀ key, key ≠ "metadata" → key ≠ "received_at" →
      (document env.writers (markReplayed env log (env.now n))).get key =
        (document env.writers log).get key := by
    intro key hmetadata hreceived
    simp only [document, Json.get, Log.toFields, List.cons_append, List.nil_append, List.lookup_cons,
      beq_false_of_ne hmetadata, beq_false_of_ne hreceived]
    rfl
  constructor
  · intro h
    exact ⟨(h "metadata").symm, (h "received_at").symm, fun key hmetadata hreceived =>
      (h key).symm.trans (hother key hmetadata hreceived)⟩
  · intro h key
    by_cases hmetadata : key = "metadata"
    · rw [hmetadata, h.metadata]
      rfl
    · by_cases hreceived : key = "received_at"
      · rw [hreceived, h.receivedAt]
        rfl
      · rw [hother key hmetadata hreceived, h.others key hmetadata hreceived]

theorem replayRecentLogs_eq : replayRecentLogs env index tenantId limit =
    (decodedHits env index tenantId limit).map fun hit => markReplayed env hit.1 (env.now hit.2) := by
  unfold replayRecentLogs decodedHits
  rw [List.map_filterMap]
  refine List.filterMap_congr fun hit _ => ?_
  rw [Option.map_map]
  rfl

/-- The last log that is replayed with the identifier is that of the last hit with it. -/
theorem withKey_replayRecentLogs (key : String) :
    (withKey env.writers key (replayRecentLogs env index tenantId limit)).getLast? =
      ((decodedHits env index tenantId limit).filter fun hit =>
        env.writers.renderUuid hit.1.id = key).getLast?.map
          fun hit => markReplayed env hit.1 (env.now hit.2) := by
  unfold withKey
  rw [replayRecentLogs_eq, List.filter_map, List.getLast?_map]
  rfl

/-- **Evidence.**  The documents are unaltered exactly when for each of them the last hit that decodes to
a log with its identifier was re-sent by this very drill before. -/
theorem unaltered_iff
    (hreadable : ∀ log ∈ replayRecentLogs env index tenantId limit, env.writers.Readable env.formats log)
    (harrived : InKeyOrder ((replayRecentLogs env index tenantId limit).map (sendLog env.writers))
      arrived) :
    Unaltered index (index.bulkIndex env.writers (consumed env arrived)) ↔
      ∀ key d, index key = some d → ∀ log n, ((decodedHits env index tenantId limit).filter fun hit =>
        env.writers.renderUuid hit.1.id = key).getLast? = some (log, n) → Resent env d log n := by
  unfold Unaltered
  refine forall₃_congr fun key d hd => ?_
  rw [bulkIndex_apply, withKey_consumed hreadable harrived, withKey_replayRecentLogs, hd]
  cases ((decodedHits env index tenantId limit).filter fun hit =>
      env.writers.renderUuid hit.1.id = key).getLast? with
  | none => exact ⟨fun _ log n hlog => (Option.some_ne_none _ hlog.symm).elim, fun _ => ⟨d, rfl, fun _ => rfl⟩⟩
  | some last =>
      constructor
      · rintro ⟨d', hd', hsame⟩ log n hlog
        cases hlog
        cases hd'
        exact sameFields_iff.mp hsame
      · exact fun hsame => ⟨_, rfl, sameFields_iff.mpr (hsame last.1 last.2 rfl)⟩

end drill

/-! ### A drill on one document -/

def evidenceLog : Log where
  id := "7d0a8a3e-3b7f-4a53-9a55-6f0f3a1c9b10"
  tenantId := "acme"
  timestamp := .ofSeconds 1767225600
  eventType := "login_failed"
  sourceIp := "10.0.0.7"
  targetUser := none
  service := none
  message := "Failed password"
  severity := .high
  metadata := .null
  receivedAt := .ofSeconds 1767225600

/-- The log in the topic, after a drill one day later. -/
def replayedText : String :=
  "\x7b\"id\":\"7d0a8a3e-3b7f-4a53-9a55-6f0f3a1c9b10\",\"tenant_id\":\"acme\"," ++
  "\"timestamp\":\"2026-01-01T00:00:00Z\",\"event_type\":\"login_failed\"," ++
  "\"source_ip\":\"10.0.0.7\",\"target_user\":null,\"service\":null," ++
  "\"message\":\"Failed password\",\"severity\":\"HIGH\",\"metadata\":\x7b\"drill\":\"replay\"," ++
  "\"original_id\":\"7d0a8a3e-3b7f-4a53-9a55-6f0f3a1c9b10\"," ++
  "\"replayed_at\":\"2026-01-02T00:00:00+00:00\"\x7d,\"received_at\":\"2026-01-02T00:00:00Z\"\x7d"

def sampleWriters : TextWriters where
  renderJson := fun _ => replayedText.toUTF8.toList
  renderUuid := id
  renderDateTime := fun t =>
    if t = .ofSeconds 1767225600 then "2026-01-01T00:00:00Z" else "2026-01-02T00:00:00Z"
  toRfc3339 := fun t =>
    if t = .ofSeconds 1767225600 then "2026-01-01T00:00:00+00:00" else "2026-01-02T00:00:00+00:00"

def replayedLog : Log :=
  { evidenceLog with
    metadata := .obj [("drill", .str "replay"),
      ("original_id", .str "7d0a8a3e-3b7f-4a53-9a55-6f0f3a1c9b10"),
      ("replayed_at", .str "2026-01-02T00:00:00+00:00")]
    receivedAt := .ofSeconds 1767312000 }

/-- The search finds the log. -/
def dayLater : DrillEnv where
  formats :=
    { parseJson := fun bytes =>
        if bytes = replayedText.toUTF8.toList then some (replayedLog.toValue sampleWriters) else none
      parseUuid := some
      parseDateTime := fun s =>
        if s = "2026-01-01T00:00:00Z" then some (.ofSeconds 1767225600)
        else if s = "2026-01-02T00:00:00Z" then some (.ofSeconds 1767312000)
        else none }
  writers := sampleWriters
  connected := true
  search := fun _ _ _ => some (.obj [("hits", .obj [("hits", .arr [.obj [("_id", .str evidenceLog.id),
    ("_source", document sampleWriters evidenceLog)]])])])
  started := .ofSeconds 1767312000
  now := fun _ => .ofSeconds 1767312000

theorem dayLater_replays (index : ElasticIndex) :
    decodedHits dayLater index "acme" 25 = [(evidenceLog, 0)] := by
  rfl

theorem dayLater_sends (index : ElasticIndex) :
    replayRecentLogs dayLater index "acme" 25 = [replayedLog] := by
  rw [replayRecentLogs_eq, dayLater_replays]
  rfl

theorem replayedLog_readable : sampleWriters.Readable dayLater.formats replayedLog :=
  ⟨if_pos rfl, rfl, by rfl, by rfl⟩

theorem dayLater_readable (index : ElasticIndex) :
    ∀ log ∈ replayRecentLogs dayLater index "acme" 25, sampleWriters.Readable dayLater.formats log := by
  intro log hlog
  rw [dayLater_sends, List.mem_singleton] at hlog
  rw [hlog]
  exact replayedLog_readable

/-- An index without the log, which the search still finds, keeps its documents. -/
theorem otherDocument_unaltered :
    let index : ElasticIndex := fun key => if key = "other" then some .null else none
    Unaltered index (index.bulkIndex sampleWriters
      (consumed dayLater [sendLog sampleWriters replayedLog])) := by
  intro index
  refine (unaltered_iff (dayLater_readable index) ?_).mpr ?_
  · rw [dayLater_sends]
    exact fun key => rfl
  · intro key d hd log n hlast
    obtain ⟨rfl, -⟩ := Option.ite_none_right_eq_some.mp hd
    rw [dayLater_replays] at hlast
    cases hlast

/-- A drill on the document of the log changes its metadata and its time. -/
theorem replayedDocument_altered : ¬ ∀ (env : DrillEnv) (index : ElasticIndex) (tenantId : String)
    (limit : ℕ) (arrived : List LogRecord),
    (∀ log ∈ replayRecentLogs env index tenantId limit, env.writers.Readable env.formats log) →
    InKeyOrder ((replayRecentLogs env index tenantId limit).map (sendLog env.writers)) arrived →
    Unaltered index (index.bulkIndex env.writers (consumed env arrived)) := by
  intro h
  let index : ElasticIndex := fun key =>
    if key = evidenceLog.id then some (document sampleWriters evidenceLog) else none
  have hpayload : logOfPayload dayLater.formats (some (sendLog sampleWriters replayedLog).payload) =
      some replayedLog := logOfPayload_sendLog replayedLog_readable
  have hconsumed : consumed dayLater [sendLog sampleWriters replayedLog] = [replayedLog] :=
    List.filterMap_cons_some hpayload
  obtain ⟨d, hd, hsame⟩ := h dayLater index "acme" 25 [sendLog sampleWriters replayedLog]
    (dayLater_readable index) (by rw [dayLater_sends]; exact fun key => rfl) evidenceLog.id _ (if_pos rfl)
  rw [hconsumed] at hd
  obtain rfl := Option.some.inj hd
  have hmetadata := hsame "metadata"
  cases hmetadata

end MiniSiem
