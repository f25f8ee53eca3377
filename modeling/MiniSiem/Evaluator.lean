import MiniSiem.Normalization

/-! # Rule conditions and their evaluation

`RuleCondition` of `detection/evaluator.rs` with its evaluation on a log.  A condition is a
boolean tree over `Field` leaves; a leaf reads a value from the normalized log, from the log
itself or from its metadata, and compares it with the value of the rule by its operator. -/

namespace MiniSiem

inductive RuleCondition where
  | all (conditions : List RuleCondition)
  | any (conditions : List RuleCondition)
  | not (condition : RuleCondition)
  | field (field op : String) (value : Json)

/-- `compare_json_values`: numbers as doubles, strings by code point. -/
def compareJsonValues (a b : Json) : Option Ordering :=
  match a.asF64, b.asF64 with
  | some x, some y => some (compare x y)
  | _, _ =>
      match a.asStr, b.asStr with
      | some x, some y => some (compare x y)
      | _, _ => none

/-- An optional string as a value. -/
def optionStr (s : Option String) : Json := s.elim .null .str

namespace RuleCondition

/-- The value of a log that a leaf compares. -/
def logValue (log : Log) (field : String) : Json :=
  let ecs := normalizeLog log
  match field with
  | "user.name" => optionStr ecs.userName
  | "source.ip" => optionStr ecs.sourceIp
  | "event.outcome" => optionStr ecs.eventOutcome
  | "log.level" => optionStr ecs.logLevel
  | "event_type" => .str log.eventType
  | "source_ip" => .str log.sourceIp
  | "target_user" => optionStr log.targetUser
  | "service" => optionStr log.service
  | "message" => .str log.message
  | "severity" => .str log.severity.toString
  | _ => (log.metadata.get field).getD .null

/-- A string test that is false unless both values are strings. -/
def onStrings (test : String → String → Bool) (a b : Json) : Bool :=
  match a.asStr, b.asStr with
  | some x, some y => test x y
  | _, _ => false

/-- The operator of a leaf. -/
def applyOp (op : String) (logValue value : Json) : Bool :=
  match op with
  | "==" | "eq" => logValue.beq value
  | "!=" | "ne" => !logValue.beq value
  | "contains" => onStrings Text.contains logValue value
  | "startswith" => onStrings Text.startsWith logValue value
  | "endswith" => onStrings Text.endsWith logValue value
  | ">" | "gt" => compareJsonValues logValue value == some .gt
  | "<" | "lt" => compareJsonValues logValue value == some .lt
  | ">=" | "ge" =>
      compareJsonValues logValue value == some .gt || compareJsonValues logValue value == some .eq
  | "<=" | "le" =>
      compareJsonValues logValue value == some .lt || compareJsonValues logValue value == some .eq
  | _ => false

mutual
/-- `RuleCondition::evaluate`. -/
def evaluate (log : Log) : RuleCondition → Bool
  | all conditions => evaluateAll log conditions
  | any conditions => evaluateAny log conditions
  | not condition => !evaluate log condition
  | field f op value => applyOp op (logValue log f) value

/-- `conditions.iter().all(|c| c.evaluate(log))`. -/
def evaluateAll (log : Log) : List RuleCondition → Bool
  | [] => true
  | c :: cs => evaluate log c && evaluateAll log cs

/-- `conditions.iter().any(|c| c.evaluate(log))`. -/
def evaluateAny (log : Log) : List RuleCondition → Bool
  | [] => false
  | c :: cs => evaluate log c || evaluateAny log cs
end

/-- Induction over a condition, through the lists inside it. -/
theorem induct {motive : RuleCondition → Prop}
    (all : ∀ cs, (∀ c ∈ cs, motive c) → motive (.all cs))
    (any : ∀ cs, (∀ c ∈ cs, motive c) → motive (.any cs))
    (not : ∀ c, motive c → motive (.not c))
    (field : ∀ f op v, motive (.field f op v)) : ∀ c, motive c
  | .all cs => all cs fun c _ => induct all any not field c
  | .any cs => any cs fun c _ => induct all any not field c
  | .not c => not c (induct all any not field c)
  | .field f op v => field f op v

theorem evaluateAll_eq (log : Log) (cs : List RuleCondition) :
    evaluateAll log cs = cs.all (evaluate log) := by
  induction cs with
  | nil => rfl
  | cons c cs ih => rw [evaluateAll, ih, List.all_cons]

theorem evaluateAny_eq (log : Log) (cs : List RuleCondition) :
    evaluateAny log cs = cs.any (evaluate log) := by
  induction cs with
  | nil => rfl
  | cons c cs ih => rw [evaluateAny, ih, List.any_cons]

/-! ### The boolean meaning of a condition -/

/-- What a condition says of a log: conjunction, disjunction, negation, and at a leaf the
comparison its operator names. -/
def Holds (log : Log) : RuleCondition → Prop
  | all cs => ∀ c, c ∈ cs → Holds log c
  | any cs => ∃ c, ∃ _ : c ∈ cs, Holds log c
  | not c => ¬ Holds log c
  | field f op v => applyOp op (logValue log f) v = true
termination_by c => sizeOf c

theorem evaluate_iff_holds (log : Log) (c : RuleCondition) :
    c.evaluate log = true ↔ c.Holds log := by
  induction c using induct with
  | all cs ih =>
      rw [evaluate, evaluateAll_eq, List.all_eq_true, Holds]
      exact forall₂_congr fun c hc => ih c hc
  | any cs ih =>
      rw [evaluate, evaluateAny_eq, List.any_eq_true, Holds]
      exact exists_congr fun c => by rw [exists_prop]; exact and_congr_right fun hc => ih c hc
  | not c ih =>
      rw [evaluate, Holds, ← ih]
      simp
  | field f op v => rw [evaluate, Holds]

end RuleCondition

end MiniSiem
