import MiniSiem.CostUsage
import MiniSiem.Handlers
import MiniSiem.IngestRequests
import MiniSiem.Lib.Traces

/-! # The cost controller

`evaluate_cost_decision` and `record_cost_usage` of `costs.rs` as programs.

* **Decision.**  What the controller decides of a log from the policy and the pressure is a function
  (`costDecision`).  Lower-casing, the default hasher, the text of a JSON value and that of a number
  with two digits are parameters.
* **Commands.**  Each command of Redis is atomic; `incr_by` and `increment_counter` issue up to two, and
  the results of all of them are ignored.
* **Dates.**  The keys of one call have one date. -/

namespace MiniSiem

/-- What the controller uses of the standard library and of `serde_json`. -/
structure CostText where
  toLowercase : String → String
  hash : String → UInt64
  jsonText : Json → String
  fixed2 : ℚ → String

/-! ### Keys of a log -/

namespace IngestLogRequest

variable (log : IngestLogRequest)

def severityOrInfo : LogSeverity := log.severity.getD .info

def classifySource : String := if log.sourceIp.isEmpty then "unknown" else log.sourceIp

def classifyIntegration : String :=
  (log.service.filter fun v => !(trim v).isEmpty).getD log.eventType

def classifyTeam : String :=
  let field (metadata : Json) (key : String) : Option String := (metadata.get key).bind Json.asStr
  (log.metadata.bind fun metadata =>
    field metadata "team" <|> field metadata "team_id" <|> field metadata "owner_team").getD "unassigned"

section text

variable (std : CostText)

def estimatedCostBytes : UInt64 :=
  UInt64.ofNat (log.eventType.utf8ByteSize + log.sourceIp.utf8ByteSize + log.message.utf8ByteSize +
    (log.targetUser.map String.utf8ByteSize).getD 0 + (log.service.map String.utf8ByteSize).getD 0 +
    (log.metadata.map fun metadata => (std.jsonText metadata).utf8ByteSize).getD 0)

def isLowValueEvent : Bool :=
  let eventType := std.toLowercase log.eventType
  let message := std.toLowercase log.message
  log.severityOrInfo = .debug || log.severityOrInfo = .info ||
    Text.contains eventType "heartbeat" || Text.contains eventType "metrics" ||
    Text.contains eventType "debug" || Text.contains eventType "health" ||
    Text.contains message "health check" || Text.contains message "keepalive"

/-! ### Schema rules -/

def isSevere : Bool := log.severityOrInfo = .high || log.severityOrInfo = .critical

/-- The value is the string. -/
def equalsString (value : Option Json) (s : String) : Bool := value.bind Json.asStr = some s

/-- The value is an array with the string. -/
def includesString (value : Option Json) (s : String) : Bool :=
  match value with
  | some (.arr items) => (items.filterMap Json.asStr).any (· = s)
  | _ => false

/-- A schema rule matches the log. -/
def matchesSchemaRule (field op : String) (value : Option Json) : Bool :=
  match field, op with
  | "event_type", "==" => equalsString value log.eventType
  | "event_type", "in" => includesString value log.eventType
  | "severity", "==" => equalsString value log.severityOrInfo.toString
  | "severity", "in" => includesString value log.severityOrInfo.toString
  | "message", "contains" =>
      ((value.bind Json.asStr).map fun needle =>
        Text.contains (std.toLowercase log.message) (std.toLowercase needle)).getD false
  | "service", "==" =>
      ((value.bind Json.asStr).map fun expected => log.service == some expected).getD false
  | _, _ => false

def schemaDropReason (policy : TenantDataCostPolicy) : Option String :=
  match policy.schemaDropRules with
  | .arr rules => rules.findSome? fun rule =>
      let field := ((rule.get "field").bind Json.asStr).getD ""
      let op := ((rule.get "op").bind Json.asStr).getD ""
      if log.matchesSchemaRule std field op (rule.get "value") then
        some ("schema rule matched " ++ field ++ " " ++ op)
      else none
  | _ => none

end text

end IngestLogRequest

/-! ### The decision -/

/-- `clamp(1, 100)`. -/
def clampPercent (n : Int32) : Int32 := if n < 1 then 1 else if 100 < n then 100 else n

section decision

variable (std : CostText) (policy : TenantDataCostPolicy) (tenantId : String) (log : IngestLogRequest)

/-- The bucket of a log among one hundred. -/
def samplingBucket : Int32 :=
  let hashSeed := tenantId ++ ":" ++ log.sourceIp ++ ":" ++ log.eventType ++ ":" ++ log.message
  Int32.ofNat (std.hash hashSeed % 100).toNat + 1

/-- The budget of a key, that of the tenant if it has none. -/
def dimensionBudget (budgets : Json) (key : String) : Int64 :=
  ((budgets.get key).bind Json.toI64).getD policy.dailyIngestBytesBudget

def keptDecision : CostDecision where
  action := "keep"
  keep := true
  sampled := false
  dropped := false
  sampleRatePercent := clampPercent policy.highValueSamplingPercent
  reason := "kept"
  estimatedBytes := log.estimatedCostBytes std
  sourceKey := log.classifySource
  integrationKey := log.classifyIntegration
  teamKey := log.classifyTeam

/-- The decision after the schema rules. -/
def schemaDecision : CostDecision :=
  match log.schemaDropReason std policy with
  | some schemaReason =>
      if policy.dropLowValueWhenOverBudget || log.isLowValueEvent std then
        { keptDecision std policy log with
          action := "dropped"
          keep := false
          dropped := true
          reason := schemaReason
          sampleRatePercent := 0 }
      else keptDecision std policy log
  | none => keptDecision std policy log

/-- The sampling rate of a log that is kept so far. -/
def sampleRate (pressure : ℚ) (decision : CostDecision) : Int32 :=
  if log.isSevere then clampPercent policy.highValueSamplingPercent
  else if log.isLowValueEvent std || 1 ≤ pressure then clampPercent policy.lowValueSamplingPercent
  else decision.sampleRatePercent

/-- The decision after the sampling of a log that is kept so far. -/
def samplingDecision (pressure : ℚ) (decision : CostDecision) : CostDecision :=
  let rate := sampleRate std policy log pressure decision
  if policy.samplingEnabled && rate < samplingBucket std tenantId log &&
      (log.isLowValueEvent std || 1 ≤ pressure) then
    { decision with
      action := "sampled"
      keep := false
      sampled := true
      sampleRatePercent := rate
      reason := "sampled at " ++ toString rate.toInt ++ "% due to pressure " ++ std.fixed2 pressure }
  else { decision with sampleRatePercent := rate }

/-- The decision of `evaluate_cost_decision` at a pressure. -/
def costDecision (pressure : ℚ) : CostDecision :=
  let decision := schemaDecision std policy log
  let decision :=
    if decision.keep then samplingDecision std policy tenantId log pressure decision else decision
  if !decision.keep && !decision.sampled && !decision.dropped then
    { decision with reason := "dropped by cost controller" }
  else decision

end decision

/-- What the handlers fall back to when the controller fails. -/
def unavailableDecision (log : IngestLogRequest) : CostDecision where
  action := "keep"
  keep := true
  sampled := false
  dropped := false
  sampleRatePercent := 100
  reason := "cost controller unavailable"
  estimatedBytes := 0
  sourceKey := log.sourceIp
  integrationKey := log.service.getD log.eventType
  teamKey := "unassigned"

/-! ### Commands -/

/-- `ingest_tx.send` under the timeout of 25 milliseconds. -/
inductive SendReply
  | sent
  | closed
  | timedOut
deriving DecidableEq

inductive IngestCmd
  | backend (c : BackendCmd)
  | now
  | newV4
  | allowFixedWindow (key : String) (windowSeconds : UInt64) (limit cost : UInt32)
  | getCounter (key : String)
  | incr (key : String) (delta : Int64)
  | expire (key : String) (seconds : Int64)
  | zincrby (key member : String) (increment : ℕ)
  | send (log : Log)

abbrev IngestCmd.Reply : IngestCmd → Type
  | backend c => c.Reply
  | now => DateTime
  | newV4 => Uuid
  | allowFixedWindow _ _ _ _ => Except String Bool
  | getCounter _ => Except String (Option UInt32)
  | incr _ _ => Except String ℤ
  | expire _ _ => Except String Unit
  | zincrby _ _ _ => Except String Unit
  | send _ => SendReply

abbrev IngestProg (α : Type) := Atomic.Prog IngestCmd IngestCmd.Reply α

abbrev IngestEvent := Atomic.Prog.Event IngestCmd IngestCmd.Reply

/-- A program of the backend as one of the ingest handlers. -/
def liftIngest {α : Type} : BackendProg α → IngestProg α
  | .ret a => .ret a
  | .call c k => .call (.backend c) fun r => liftIngest (k r)

/-! ### Reading and recording the usage -/

section programs

variable (std : CostText) (codec : PolicyCodec) (tenantId : String)

/-- A usage counter as `evaluate_cost_decision` reads it. -/
def readUsage {α : Type} (key : String) (k : UInt64 → IngestProg (Except String α)) :
    IngestProg (Except String α) :=
  .call (.getCounter key) fun
    | .error e => .ret (.error e)
    | .ok count => k (count.getD 0).toUInt64

/-- `evaluate_cost_decision`. -/
def evaluateCostDecision (log : IngestLogRequest) : IngestProg (Except String CostDecision) :=
  (liftIngest (loadTenantCostPolicy codec tenantId)).bind fun
    | .error e => .ret (.error e)
    | .ok policy => .call .now fun now =>
        let source := log.classifySource
        let integration := log.classifyIntegration
        let team := log.classifyTeam
        readUsage (usageBytesKey tenantId now) fun total =>
          readUsage (dimensionBytesKey tenantId now "source" source) fun ofSource =>
            readUsage (dimensionBytesKey tenantId now "integration" integration) fun ofIntegration =>
              readUsage (dimensionBytesKey tenantId now "team" team) fun ofTeam =>
                let pressure :=
                  max (max (max (currentPressure total policy.dailyIngestBytesBudget)
                    (currentPressure ofSource (dimensionBudget policy policy.sourceBudgets source)))
                    (currentPressure ofIntegration
                      (dimensionBudget policy policy.integrationBudgets integration)))
                    (currentPressure ofTeam (dimensionBudget policy policy.teamBudgets team))
                .ret (.ok (costDecision std policy tenantId log pressure))

/-- A command of `record_cost_usage`, its result ignored. -/
def CounterCommand.issue : CounterCommand → IngestProg Unit
  | incrBy key delta expirySeconds => .call (.incr key delta.toInt64) fun
      | .error _ => .ret ()
      | .ok _ => .call (.expire key expirySeconds.toInt64) fun _ => .ret ()
  | incrementCounter key expirySeconds => .call (.incr key 1) fun
      | .error _ => .ret ()
      | .ok n =>
          if UInt32.ofInt n = 1 then .call (.expire key expirySeconds.toInt64) fun _ => .ret ()
          else .ret ()
  | zincrby key member increment => .call (.zincrby key member increment) fun _ => .ret ()

def issueAll : List CounterCommand → IngestProg Unit
  | [] => .ret ()
  | c :: cs => c.issue.bind fun _ => issueAll cs

/-- `record_cost_usage`. -/
def recordUsage (decision : CostDecision) : IngestProg Unit :=
  .call .now fun now =>
    issueAll (.incrBy (usageBytesKey tenantId now) decision.estimatedBytes 86400 ::
      dimensionCommands tenantId now decision)

/-- What a handler does with a log before it looks at the decision. -/
def decideAndRecord (log : IngestLogRequest) : IngestProg CostDecision :=
  (evaluateCostDecision std codec tenantId log).bind fun result =>
    let decision := match result with
      | .ok decision => decision
      | .error _ => unavailableDecision log
    (recordUsage tenantId decision).bind fun _ => .ret decision

end programs

end MiniSiem
