import MiniSiem.Evaluator

/-! # The comparison operators of a rule

The leaves of a condition compare by `==` of `serde_json` and by `compare_json_values`
(`detection/evaluator.rs`).

* **Laws.**  `ComparisonLaws` says that the six operators belong to one linear order.  They do exactly when
  the equality is the one of the ordering (`comparisonLaws_iff`).
* **The code.**  The ordering takes two numbers for equal when their doubles are, the equality only when
  they are one number (`SameWhenTied`, `evaluate_laws_iff`). -/

namespace MiniSiem

/-- The spellings of the six operators. -/
structure Operators where
  eq : String
  ne : String
  lt : String
  gt : String
  le : String
  ge : String

namespace Operators

def words : Operators := ⟨"eq", "ne", "lt", "gt", "le", "ge"⟩

def signs : Operators := ⟨"==", "!=", "<", ">", "<=", ">="⟩

end Operators

structure ComparisonLaws (holds : String → Prop) (ops : Operators) : Prop where
  ge_iff : holds ops.ge ↔ holds ops.gt ∨ holds ops.eq
  le_iff : holds ops.le ↔ holds ops.lt ∨ holds ops.eq
  exactly_one : holds ops.lt ∧ ¬holds ops.eq ∧ ¬holds ops.gt ∨ ¬holds ops.lt ∧ holds ops.eq ∧ ¬holds ops.gt ∨
    ¬holds ops.lt ∧ ¬holds ops.eq ∧ holds ops.gt
  ne_iff : holds ops.ne ↔ ¬holds ops.eq

/-- The orderings read one comparison, and `ne` is the negation of `eq`. -/
structure DecidedBy (holds : String → Prop) (ops : Operators) (c : Ordering) : Prop where
  lt : holds ops.lt ↔ c = .lt
  gt : holds ops.gt ↔ c = .gt
  le : holds ops.le ↔ c = .lt ∨ c = .eq
  ge : holds ops.ge ↔ c = .gt ∨ c = .eq
  ne : holds ops.ne ↔ ¬holds ops.eq

theorem comparisonLaws_iff {holds : String → Prop} {ops : Operators} {c : Ordering} (h : DecidedBy holds ops c) :
    ComparisonLaws holds ops ↔ (holds ops.eq ↔ c = .eq) := by
  constructor
  · intro hlaws
    have hone := hlaws.exactly_one
    have hge := hlaws.ge_iff
    rw [h.lt, h.gt] at hone
    rw [h.ge, h.gt] at hge
    cases c <;> simp_all
  · intro heq
    refine ⟨?_, ?_, ?_, h.ne⟩
    · rw [h.ge, h.gt, heq]
    · rw [h.le, h.lt, heq]
    · rw [h.lt, h.gt, heq]
      cases c <;> simp

namespace Json

/-- Both are numbers, or both are strings. -/
def Comparable : Json → Json → Prop
  | num _, num _ => True
  | str _, str _ => True
  | _, _ => False

/-- Two numbers with the same double are the same JSON number. -/
def SameWhenTied : Json → Json → Prop
  | num m, num n => m.asF64 = n.asF64 → m = n
  | _, _ => True

end Json

open RuleCondition

/-- What `compare_json_values` says of two numbers or two strings. -/
theorem compareJsonValues_of_comparable {a b : Json} (h : a.Comparable b) :
    ∃ c, compareJsonValues a b = some c ∧ ((a.beq b = true ↔ c = .eq) ↔ a.SameWhenTied b) := by
  cases a <;> cases b <;> simp only [Json.Comparable] at h
  case num m n =>
    refine ⟨compare m.asF64 n.asF64, rfl, ?_⟩
    rw [compare_eq_iff_eq, Json.beq, beq_iff_eq, Json.SameWhenTied]
    exact ⟨fun hiff => hiff.mpr, fun htied => ⟨congrArg Number.asF64, htied⟩⟩
  case str s t =>
    refine ⟨compare s t, rfl, ?_⟩
    rw [Std.LawfulEqCmp.compare_eq_iff_eq, Json.beq, beq_iff_eq]
    exact iff_of_true Iff.rfl trivial

theorem reads_evaluate {log : Log} {field : String} {value : Json} {c : Ordering} {ops : Operators}
    (hops : ops = .words ∨ ops = .signs) (hc : compareJsonValues (logValue log field) value = some c) :
    DecidedBy (fun op => evaluate log (.field field op value) = true) ops c := by
  rcases hops with rfl | rfl <;>
    constructor <;> simp [evaluate, applyOp, Operators.words, Operators.signs, hc]

/-- The operators of a leaf, by word or by sign, agree on two numbers or two strings exactly when these are
not two numbers with one double. -/
theorem evaluate_laws_iff (ops : Operators) (hops : ops = .words ∨ ops = .signs) (log : Log) (field : String)
    (value : Json) (hcomp : (logValue log field).Comparable value) :
    ComparisonLaws (fun op => evaluate log (.field field op value) = true) ops ↔
      (logValue log field).SameWhenTied value := by
  obtain ⟨c, hc, hiff⟩ := compareJsonValues_of_comparable hcomp
  rw [comparisonLaws_iff (reads_evaluate hops hc), ← hiff]
  rcases hops with rfl | rfl <;> rfl

/-- A log whose metadata counts bytes. -/
def bytesLog (bytes : Number) : Log :=
  { id := "l1", tenantId := "t1", timestamp := .ofSeconds 0, eventType := "transfer", sourceIp := "10.0.0.1",
    targetUser := none, service := none, message := "done", severity := .info,
    metadata := .obj [("bytes", .num bytes)], receivedAt := .ofSeconds 0 }

theorem bytes_compared :
    ComparisonLaws (fun op => evaluate (bytesLog (.posInt 5)) (.field "bytes" op (.num (.float 3))) = true)
      .words :=
  (evaluate_laws_iff .words (Or.inl rfl) (bytesLog (.posInt 5)) "bytes" (.num (.float 3)) trivial).mpr
    (by
      intro htied
      exact absurd htied (by decide))

/-- The integer 1 is at least and at most 1.0, and neither above nor below nor equal. -/
theorem bytes_not_compared :
    ¬∀ (log : Log) (field : String) (value : Json), (logValue log field).Comparable value →
      ComparisonLaws (fun op => evaluate log (.field field op value) = true) .words := by
  intro hlaws
  have hone := (hlaws (bytesLog (.posInt 1)) "bytes" (.num (.float 1)) trivial).exactly_one
  exact absurd hone (by decide +kernel)

end MiniSiem
