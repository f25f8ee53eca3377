import MiniSiem.CorrelationRuns
import MiniSiem.Lib.Pool

/-! # The calls of a correlation rule

Which calls `CorrelationRule::evaluate` makes, whatever the replies to them.

* **The index.**  `Indexing` are the calls that keep the index of the active groups and take states out.
* **The state.**  `evaluate_issues`: besides them an evaluation reads the state of its own group and
  stores the next one there.  What else is to hold of these calls is left to the caller (`Issues`). -/

namespace MiniSiem

open Atomic

namespace CorrelationRule

variable (r : CorrelationRule)

/-- The call keeps the index of the groups, or takes a state out. -/
def Indexing (own : String) : CacheCall StateText → Prop
  | .zcard key | .zpopmin key => key = r.activeIndexKey
  | .zrem key member | .zadd key member _ => key = r.activeIndexKey ∧ member = own
  | .expireKey key ttl => key = r.activeIndexKey ∧ ttl = r.stateTtlSeconds
  | .deleteKey _ => True
  | .getString _ | .setString _ _ _ => False

/-- Each call of the program is as `Q` has it, if the replies are as `R` has them. -/
abbrev Issues {α : Type} (R : (c : CacheCall StateText) → c.Reply → Prop) (Q : CacheCall StateText → Prop)
    (p : CacheM StateText α) : Prop :=
  p.Ensures (fun (_ : Unit) => R) (fun _ => Q) ()

section issues

variable {r} {α β : Type} {own : String} {alertId : Uuid} {log : Log}
  {R : (c : CacheCall StateText) → c.Reply → Prop} {Q : CacheCall StateText → Prop}

theorem issues_andThen {p : CacheM StateText α} {f : α → CacheM StateText β} (hp : Issues R Q p)
    (hf : ∀ a, Issues R Q (f a)) : Issues R Q (p.andThen f) := by
  refine Prog.Ensures.bind hp fun _ _ reply => ?_
  cases reply with
  | error e => trivial
  | ok a => exact hf a

theorem issues_single {c : CacheCall StateText} (h : Q c) : Issues R Q (CacheM.single c) :=
  fun _ _ => ⟨h, fun _ _ => trivial⟩

theorem issues_ignore {c : CacheCall StateText} (h : Q c) : Issues R Q (CacheM.single c).ignore :=
  fun _ _ => ⟨h, fun _ _ => trivial⟩

theorem evictIfNeeded_issues (hindex : ∀ c, r.Indexing own c → Q c) : Issues R Q (r.evictIfNeeded own) := by
  unfold evictIfNeeded
  refine issues_andThen (issues_single (hindex _ rfl)) fun count => ?_
  split_ifs
  · trivial
  · cases r.definition.evictionPolicy with
    | dropNewest => exact issues_andThen (issues_ignore (hindex _ ⟨rfl, rfl⟩)) fun _ => trivial
    | oldestFirst =>
        refine issues_andThen (issues_single (hindex _ rfl)) fun oldest => ?_
        cases oldest with
        | none => trivial
        | some oldestKey => exact issues_andThen (issues_ignore (hindex _ trivial)) fun _ => trivial

theorem applyStage_issues (hindex : ∀ c, r.Indexing own c → Q c) {state : CorrelationState}
    (hstore : ∀ next, r.matchStage log state = some next →
      Q (.setString own (.state next) (some r.stateTtlSeconds))) :
    Issues R Q (r.applyStage alertId own log state) := by
  unfold applyStage
  cases hmatch : r.matchStage log state with
  | none =>
      refine issues_andThen (issues_ignore (hindex _ trivial)) fun _ => ?_
      exact issues_andThen (issues_ignore (hindex _ ⟨rfl, rfl⟩)) fun _ => trivial
  | some next =>
      refine issues_andThen ?_ fun _ => trivial
      unfold persistState
      refine issues_andThen (issues_single (hstore next hmatch)) fun _ => ?_
      refine issues_andThen (issues_single (hindex _ ⟨rfl, rfl⟩)) fun _ => ?_
      exact issues_single (hindex _ ⟨rfl, rfl⟩)

/-- An evaluation reads the state of its group, keeps the index, and stores the state that the log leads to
from the one that it has read. -/
theorem evaluate_issues {fp : String → UInt64} (hown : own = r.stateKey fp (r.getGroupKey log))
    (hread : Q (.getString own)) (hindex : ∀ c, r.Indexing own c → Q c)
    (hstore : ∀ text next, R (.getString own) (.ok text) → r.react text log = some (some next) →
      Q (.setString own (.state next) (some r.stateTtlSeconds))) :
    Issues R Q (r.evaluate fp alertId log) := by
  subst hown
  unfold evaluate loadState
  dsimp only
  split_ifs
  · trivial
  · rw [CacheM.andThen_assoc, CacheM.single_andThen]
    refine fun _ _ => ⟨hread, fun reply hreply => ?_⟩
    cases reply with
    | error e => trivial
    | ok text =>
        rw [CacheM.resume_ok, CacheM.pure_andThen]
        have hnext := hstore text
        unfold react at hnext
        unfold evaluateFrom
        dsimp only at hnext ⊢
        split_ifs at hnext ⊢ with hlate hnew
        · trivial
        · refine issues_andThen (evictIfNeeded_issues hindex) fun allowed => ?_
          cases allowed with
          | true => exact applyStage_issues hindex fun next h => hnext next hreply (congrArg some h)
          | false => trivial
        · exact applyStage_issues hindex fun next h => hnext next hreply (congrArg some h)

end issues

end CorrelationRule

end MiniSiem
