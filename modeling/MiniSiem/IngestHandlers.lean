import MiniSiem.CostControl

/-! # The ingest endpoints

`ingest_log` and `ingest_batch` of `api/handlers/logs.rs`.

* **Order.**  The handlers charge a log to the tenant before they put it on the ingest queue, and
  `ingest_batch` does so log by log; it answers 503 at the first log that the queue does not take.
* **Responses.**  A status below 400 is 202.  A log that the cost controller does not keep is answered
  with the action of its decision. -/

namespace MiniSiem

structure IngestLogResponse where
  id : Uuid
  status : String
  acceptedAt : DateTime
  costAction : Option String
  costReason : Option String

inductive IngestBody
  | text (s : String)
  | json (value : Json)
  | log (response : IngestLogResponse)
  | batch (responses : List IngestLogResponse)

structure IngestResponse where
  status : ℕ
  body : IngestBody

namespace Ingest

/-- The log of a request. -/
def logOf (tenantId : String) (id : Uuid) (now : DateTime) (req : IngestLogRequest) : Log where
  id := id
  tenantId := tenantId
  timestamp := req.timestamp.getD now
  eventType := req.eventType
  sourceIp := req.sourceIp
  targetUser := req.targetUser
  service := req.service
  message := req.message
  severity := req.severity.getD .info
  metadata := req.metadata.getD .null
  receivedAt := now

def entry (id : Uuid) (now : DateTime) (decision : CostDecision) (status : String) :
    IngestLogResponse where
  id := id
  status := status
  acceptedAt := now
  costAction := some decision.action
  costReason := some decision.reason

def respond (status : ℕ) (body : IngestBody) : IngestProg IngestResponse := .ret ⟨status, body⟩

/-- `enforce_tenant_fixed_window` for the resource `ingest_events`. -/
def withinQuota (eventsPerMinute : UInt64) (tenantId : String) (cost : ℕ)
    (k : IngestProg IngestResponse) : IngestProg IngestResponse :=
  .call (.allowFixedWindow ("siem:tenant:" ++ tenantId ++ ":quota:ingest_events") 60
      eventsPerMinute.toUInt32 (UInt32.ofNat cost)) fun
    | .ok true => k
    | .ok false => respond 429 (.json (.obj
        [("error", .str "tenant quota exceeded"), ("resource", .str "ingest_events")]))
    | .error e => respond 500 (.json (errorBody ("quota check failed: " ++ e)))

/-- `enqueue_ingest_log`. -/
def enqueueIngestLog (log : Log) : IngestProg (Except IngestResponse Unit) :=
  .call (.send log) fun
    | .sent => .ret (.ok ())
    | .closed => .ret (.error ⟨503, .text "ingest unavailable"⟩)
    | .timedOut => .ret (.error ⟨503, .text "ingest backlog"⟩)

/-- `set_string` with an expiry, its result ignored. -/
def setString (key text : String) : IngestProg Unit :=
  .call (.backend (.data (.setString key text))) fun
    | .error _ => .ret ()
    | .ok () => .call (.expire key 300) fun _ => .ret ()

/-- The heartbeats of the agent and of the ingest path. -/
def heartbeats : IngestProg Unit :=
  .call .now fun now =>
    (setString "siem:health:agent_last_seen" (toString now.timestamp)).bind fun _ =>
      setString "siem:health:ingest_last_seen" (toString now.timestamp)

def totalLogsKey (tenantId : String) : String := "siem:tenant:" ++ tenantId ++ ":stats:total_logs"

section handlers

variable (std : CostText) (codec : PolicyCodec) (eventsPerMinute : UInt64)

/-- `ingest_log`. -/
def ingestLog (claims : Option Claims) (req : IngestLogRequest) : IngestProg IngestResponse :=
  match claims with
  | none => respond 401 (.text "missing auth")
  | some claims => .call .newV4 fun logId => .call .now fun now =>
      withinQuota eventsPerMinute claims.tenantId 1
        ((decideAndRecord std codec claims.tenantId req).bind fun decision =>
          if decision.keep then
            (enqueueIngestLog (logOf claims.tenantId logId now req)).bind fun
              | .error response => .ret response
              | .ok () =>
                  heartbeats.bind fun _ =>
                    (CounterCommand.incrementCounter (totalLogsKey claims.tenantId) 86400).issue.bind
                      fun _ => respond 202 (.log (entry logId now decision "accepted"))
          else respond 202 (.log (entry logId now decision decision.action)))

/-- A log of a batch. -/
def ingestItem (tenantId : String) (now : DateTime) (req : IngestLogRequest) :
    IngestProg (Except IngestResponse IngestLogResponse) :=
  .call .newV4 fun logId =>
    (decideAndRecord std codec tenantId req).bind fun decision =>
      if decision.keep then
        (enqueueIngestLog (logOf tenantId logId now req)).bind fun
          | .error response => .ret (.error response)
          | .ok () => .ret (.ok (entry logId now decision "accepted"))
      else .ret (.ok (entry logId now decision decision.action))

def ingestItems (tenantId : String) (now : DateTime) :
    List IngestLogRequest → IngestProg (Except IngestResponse (List IngestLogResponse))
  | [] => .ret (.ok [])
  | req :: reqs => (ingestItem std codec tenantId now req).bind fun
      | .error response => .ret (.error response)
      | .ok response => (ingestItems tenantId now reqs).bind fun
          | .error response => .ret (.error response)
          | .ok responses => .ret (.ok (response :: responses))

/-- The end of a batch that the queue has taken. -/
def finishBatch (tenantId : String) (responses : List IngestLogResponse) :
    IngestProg IngestResponse :=
  heartbeats.bind fun _ =>
    if responses = [] then respond 202 (.batch responses)
    else
      (CounterCommand.incrBy (totalLogsKey tenantId) (UInt64.ofNat responses.length) 86400).issue.bind
        fun _ => respond 202 (.batch responses)

/-- `ingest_batch`. -/
def ingestBatch (claims : Option Claims) (req : BatchIngestRequest) : IngestProg IngestResponse :=
  match claims with
  | none => respond 401 (.text "missing auth")
  | some claims =>
      withinQuota eventsPerMinute claims.tenantId (max req.logs.length 1)
        (.call .now fun now => (ingestItems std codec claims.tenantId now req.logs).bind fun
          | .error response => .ret response
          | .ok responses => finishBatch claims.tenantId responses)

end handlers

end Ingest

end MiniSiem
