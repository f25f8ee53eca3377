import MiniSiem.Evaluator

/-! # Detection rules: database rows and compiled rules

The rows of `detection_rules`, the decoding of their `condition` column and the compiled
rules of `detection/rules`.

* **Decoding.** `RuleCondition.fromValue` and `CorrelationDefinition.fromValue` are
  `serde_json::from_value` for the derived `Deserialize` instances: an enum is externally
  tagged (an object with exactly one key, or a bare string for a variant without content)
  with the variant names in snake case; a struct ignores unknown keys and takes its
  `#[serde(default)]` fields from their default functions.
* **Compiled rules.** Each kind keeps the fields its `new` stores; `logTypes` lists the tags a
  rule is indexed under. -/

namespace MiniSiem

/-- A row of `detection_rules`. -/
structure DetectionRule where
  id : Uuid
  tenantId : String
  name : String
  description : Option String
  ruleType : String
  severity : String
  threshold : Option Int32
  windowSeconds : Option Int32
  condition : Option Json
  isEnabled : Bool

/-! ### Decoding conditions -/

namespace RuleCondition

/-- The content of the struct variant `Field`. -/
def fieldFromFields (fields : List (String × Json)) : Option RuleCondition := do
  let f ← (← List.lookup "field" fields).toStr
  let op ← (← List.lookup "op" fields).toStr
  let value ← List.lookup "value" fields
  return .field f op value

mutual
/-- `serde_json::from_value::<RuleCondition>`. -/
def fromValue : Json → Option RuleCondition
  | .obj [(tag, content)] =>
      if tag = "all" then
        match content with
        | .arr items => (fromItems items).map .all
        | _ => none
      else if tag = "any" then
        match content with
        | .arr items => (fromItems items).map .any
        | _ => none
      else if tag = "not" then (fromValue content).map .not
      else if tag = "field" then
        match content with
        | .obj fields => fieldFromFields fields
        | _ => none
      else none
  | _ => none

/-- The elements of a `Vec<RuleCondition>`. -/
def fromItems : List Json → Option (List RuleCondition)
  | [] => some []
  | v :: vs =>
      match fromValue v, fromItems vs with
      | some c, some cs => some (c :: cs)
      | _, _ => none
end

end RuleCondition

inductive CorrelationEvictionPolicy where
  | oldestFirst
  | dropNewest
deriving DecidableEq, Repr

/-- A unit variant: a bare string, or the only key of an object with content `null`. -/
def CorrelationEvictionPolicy.fromValue (v : Json) : Option CorrelationEvictionPolicy :=
  match v.variant with
  | some ("oldest_first", none) => some oldestFirst
  | some ("drop_newest", none) => some dropNewest
  | some ("oldest_first", some .null) => some oldestFirst
  | some ("drop_newest", some .null) => some dropNewest
  | _ => none

structure CorrelationStage where
  name : String
  condition : RuleCondition
  minCount : UInt32

structure CorrelationDefinition where
  windowSeconds : UInt64
  version : UInt64
  maxActiveGroups : UInt64
  watermarkLatenessSeconds : Int64
  stateTtlSeconds : UInt64
  evictionPolicy : CorrelationEvictionPolicy
  groupBy : List String
  stages : List CorrelationStage

def defaultVersion : UInt64 := 1
def defaultMaxActiveGroups : UInt64 := 4096
def defaultWatermarkLatenessSeconds : Int64 := 30
def defaultStateTtlSeconds : UInt64 := 900

/-- A field that must be present. -/
def required {α : Type} (f : Json → Option α) (v : Option Json) : Option α := v.bind f

/-- A field with `#[serde(default)]`: a missing one takes the default, a malformed one fails. -/
def defaulted {α : Type} (d : α) (f : Json → Option α) : Option Json → Option α
  | none => some d
  | some v => f v

def CorrelationStage.fromValue (v : Json) : Option CorrelationStage :=
  match v.structFields ["name", "condition", "min_count"] with
  | some [name, condition, minCount] => do
      return {
        name := ← required Json.toStr name
        condition := ← required RuleCondition.fromValue condition
        minCount := ← required Json.toU32 minCount }
  | _ => none

/-- `serde_json::from_value::<CorrelationDefinition>`. -/
def CorrelationDefinition.fromValue (v : Json) : Option CorrelationDefinition :=
  match v.structFields ["window_seconds", "version", "max_active_groups",
      "watermark_lateness_seconds", "state_ttl_seconds", "eviction_policy", "group_by", "stages"] with
  | some [window, version, maxGroups, lateness, ttl, policy, groupBy, stages] => do
      return {
        windowSeconds := ← required Json.toU64 window
        version := ← defaulted defaultVersion Json.toU64 version
        maxActiveGroups := ← defaulted defaultMaxActiveGroups Json.toU64 maxGroups
        watermarkLatenessSeconds := ← defaulted defaultWatermarkLatenessSeconds Json.toI64 lateness
        stateTtlSeconds := ← defaulted defaultStateTtlSeconds Json.toU64 ttl
        evictionPolicy := ← defaulted .oldestFirst CorrelationEvictionPolicy.fromValue policy
        groupBy := ← required (Json.toVec Json.toStr) groupBy
        stages := ← required (Json.toVec CorrelationStage.fromValue) stages }
  | _ => none

/-! ### Compiled rules -/

structure BruteForceRule where
  tenantId : String
  name : String
  id : String
  threshold : UInt32
  windowSeconds : Int64
deriving DecidableEq

structure PortScanRule where
  tenantId : String
  id : String
  name : String
  portThreshold : UInt32
  windowSeconds : Int64

structure MalwareDetectionRule where
  tenantId : String
  id : String
  name : String

structure GenericRule where
  tenantId : String
  id : String
  name : String
  severity : AlertSeverity
  condition : RuleCondition

structure CorrelationRule where
  tenantId : String
  id : String
  name : String
  severity : AlertSeverity
  definition : CorrelationDefinition

/-- The severity text of a row, as `GenericRule::new` and `CorrelationRule::new` read it. -/
def ruleSeverity (severity : String) : AlertSeverity :=
  match Text.toUppercase severity with
  | "CRITICAL" => .critical
  | "HIGH" => .high
  | "MEDIUM" => .medium
  | "LOW" => .low
  | _ => .info

def GenericRule.new (tenantId id name severity : String) (condition : RuleCondition) :
    GenericRule :=
  { tenantId, id, name, severity := ruleSeverity severity, condition }

def CorrelationRule.new (tenantId id name severity : String)
    (definition : CorrelationDefinition) : CorrelationRule :=
  { tenantId, id, name, severity := ruleSeverity severity, definition }

inductive CompiledRule where
  | bruteForce (r : BruteForceRule)
  | portScan (r : PortScanRule)
  | malware (r : MalwareDetectionRule)
  | generic (r : GenericRule)
  | correlation (r : CorrelationRule)

namespace CompiledRule

def id : CompiledRule → String
  | bruteForce r => r.id
  | portScan r => r.id
  | malware r => r.id
  | generic r => r.id
  | correlation r => r.id

def tenantId : CompiledRule → String
  | bruteForce r => r.tenantId
  | portScan r => r.tenantId
  | malware r => r.tenantId
  | generic r => r.tenantId
  | correlation r => r.tenantId

/-- The tags a rule is indexed under. -/
def logTypes : CompiledRule → List LogTag
  | bruteForce _ => [.auth]
  | portScan _ => [.network]
  | malware _ => [.malware, .network, .auth]
  | generic _ => [.auth, .network, .malware]
  | correlation _ => [.auth, .network, .malware]

end CompiledRule

end MiniSiem
