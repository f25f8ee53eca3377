import MiniSiem.AlertNotifications
import MiniSiem.Lib.Outcomes
import MiniSiem.RuleSelection

/-! # What alerts are raised for

`evaluate` of every kind of rule makes its alerts in the same way: for the log it is called on, and for
nothing else.

* **Rules.**  `CompiledRule.evaluate_isOf`: an alert has the rule's identifier, the tenant and the address of
  the log, and the log as its only event.
* **The engine.**  `processLog_isOf`: `process_log` raises alerts of the rules that were loaded for the tenant
  of its log. -/

namespace MiniSiem

open Atomic

/-- The alert is one of a rule for a log. -/
structure Alert.IsOf (a : Alert) (ruleId : String) (log : Log) : Prop where
  tenantId : a.tenantId = log.tenantId
  ruleId : a.ruleId = ruleId
  sourceIp : a.sourceIp = log.sourceIp
  events : a.events = [log]
  eventsCount : a.eventsCount = 1
  status : a.status = .new

theorem Alert.new_isOf (id : Uuid) (now : DateTime) (ruleId ruleName : String) (severity : AlertSeverity)
    (description : String) (log : Log) :
    (Alert.new id now log.tenantId ruleId ruleName severity description log.sourceIp [log]).IsOf ruleId log :=
  ⟨rfl, rfl, rfl, rfl, rfl, rfl⟩

/-! ### The kinds of rules -/

theorem BruteForceRule.evaluate_isOf {r : BruteForceRule} {alertId : Uuid} {now : DateTime} {log : Log}
    {c : RedisCache} {a : Alert} (h : (r.evaluate alertId now log c).1 = .ok (some a)) : a.IsOf r.id log := by
  unfold evaluate at h
  split_ifs at h
  · cases h
  dsimp only at h
  rcases hcount : c.incrementCounter now log.sourceIp r.windowSeconds.toUInt64 with ⟨_ | count, c'⟩
  · rw [hcount] at h
    cases h
  · rw [hcount] at h
    dsimp only at h
    split_ifs at h
    · cases h
      exact Alert.new_isOf _ _ _ _ _ _ _
    · cases h

theorem MalwareDetectionRule.evaluate_isOf {r : MalwareDetectionRule} {matchers : MalwareMatchers}
    {alertId : Uuid} {now : DateTime} {log : Log} {c : RedisCache} {a : Alert}
    (h : r.evaluate matchers alertId now log c = .ok (some a)) : a.IsOf r.id log := by
  unfold evaluate at h
  cases hscore : c.getIpReputation now log.sourceIp with
  | error e =>
      rw [hscore] at h
      cases h
  | ok score =>
      rw [hscore] at h
      dsimp only at h
      split_ifs at h
      · cases h
      · cases h
        exact Alert.new_isOf _ _ _ _ _ _ _

theorem GenericRule.evaluate_isOf {r : GenericRule} {alertId : Uuid} {log : Log} {a : Alert}
    (h : r.evaluate alertId log = some a) : a.IsOf r.id log := by
  unfold evaluate at h
  split_ifs at h
  cases h
  exact ⟨rfl, rfl, rfl, rfl, rfl, rfl⟩

namespace CorrelationRule

variable (r : CorrelationRule) (alertId : Uuid) (log : Log)

/-- The results of an evaluation: an error, nothing, or the alert for the log. -/
def OwnAlert (result : Except CacheError (Option Alert)) : Prop :=
  ∀ a, result = .ok (some a) → a = r.alert alertId log

/-- A program that ends in such a result, whatever the cache answers. -/
abbrev Reacts (p : CacheM StateText (Option Alert)) : Prop :=
  p.Yields (fun (_ : Unit) _ _ _ => True) (fun _ => r.OwnAlert alertId log) ()

variable {r alertId log}

theorem reacts_none : r.Reacts alertId log (.pure none) := Prog.yields_ret fun a h => by cases h

theorem reacts_andThen {α : Type} (p : CacheM StateText α) {f : α → CacheM StateText (Option Alert)}
    (h : ∀ x, r.Reacts alertId log (f x)) : r.Reacts alertId log (p.andThen f) := by
  refine Prog.Yields.bind (Prog.yields_later (fun _ _ _ _ _ => le_rfl) le_rfl) fun _ result _ => ?_
  cases result with
  | error e => exact Prog.yields_ret fun a h => by cases h
  | ok x => exact h x

theorem applyStage_reacts (stateKey : String) (state : CorrelationState) :
    r.Reacts alertId log (r.applyStage alertId stateKey log state) := by
  unfold applyStage
  split
  · refine reacts_andThen _ fun _ => reacts_andThen _ fun _ => Prog.yields_ret fun a ha => ?_
    exact (Option.some.inj (Except.ok.inj ha)).symm
  · exact reacts_andThen _ fun _ => reacts_none

theorem evaluate_reacts (fingerprint : String → UInt64) :
    r.Reacts alertId log (r.evaluate fingerprint alertId log) := by
  unfold evaluate
  dsimp only
  split_ifs
  · exact reacts_none
  · refine reacts_andThen _ fun state => ?_
    unfold evaluateFrom
    dsimp only
    split_ifs
    · exact reacts_none
    · refine reacts_andThen _ fun allowed => ?_
      split_ifs
      · exact applyStage_reacts _ _
      · exact reacts_none
    · exact applyStage_reacts _ _

theorem evaluate_isOf {fingerprint : String → UInt64} {s : Cache StateText} {a : Alert}
    (h : ((r.evaluate fingerprint alertId log).run Cache.exec s).1 = .ok (some a)) : a.IsOf r.id log := by
  have hown : r.OwnAlert alertId log ((r.evaluate fingerprint alertId log).run Cache.exec s).1 :=
    @Prog.Yields.run _ Unit _ (Cache StateText) _ _ (fun _ _ _ _ => True) (fun _ => r.OwnAlert alertId log)
      Cache.exec (fun _ => ()) (fun _ _ => trivial) _ s (evaluate_reacts fingerprint)
  rw [hown a h]
  exact ⟨rfl, rfl, rfl, rfl, rfl, rfl⟩

end CorrelationRule

theorem eq_ok_of_mapError {ε ε' α : Type} {f : ε → ε'} {result : Except ε α} {a : α}
    (h : result.mapError f = .ok a) : result = .ok a := by
  cases result with
  | error e => cases h
  | ok b => exact congrArg Except.ok (Except.ok.inj h)

/-- **Every kind of rule raises its alerts for the log alone.** -/
theorem CompiledRule.evaluate_isOf {matchers : MalwareMatchers} {fingerprint : String → UInt64}
    {r : CompiledRule} {alertId : Uuid} {now : DateTime} {log : Log} {c : RuleCaches} {a : Alert}
    (h : (r.evaluate matchers fingerprint alertId now log c).1 = .ok (some a)) : a.IsOf r.id log := by
  cases r with
  | bruteForce r => exact BruteForceRule.evaluate_isOf (eq_ok_of_mapError h)
  | portScan r => cases h
  | malware r => exact MalwareDetectionRule.evaluate_isOf (eq_ok_of_mapError h)
  | generic r => exact GenericRule.evaluate_isOf (Except.ok.inj h)
  | correlation r => exact CorrelationRule.evaluate_isOf (eq_ok_of_mapError h)

/-! ### The engine -/

/-- Some evaluation of the log by the rule raises an alert. -/
def CompiledRule.MayRaise (r : CompiledRule) (log : Log) : Prop :=
  ∃ matchers fingerprint alertId now c alert,
    (r.evaluate matchers fingerprint alertId now log c).1 = .ok (some alert)

/-- What the evaluations of a log may come to: each rule has its own identifier, clock and caches. -/
def EvaluatesLog (log : Log) (eval : CompiledRule → Except RuleError (Option Alert)) : Prop :=
  ∀ r, ∃ matchers fingerprint alertId now c, eval r = (r.evaluate matchers fingerprint alertId now log c).1

/-- An alert of `process_log` is one of a rule that is loaded for the tenant of the log and raises it. -/
theorem processLog_isOf {t : RulesTable} {log : Log} {eval : CompiledRule → Except RuleError (Option Alert)}
    (heval : EvaluatesLog log eval) {stats : LocalStats} {a : Alert}
    (h : a ∈ (processLog (reloadRules t.getEnabledRules) eval stats log).2) :
    ∃ r ∈ tenantRules t log, r.MayRaise log ∧ a.IsOf r.id log := by
  rw [processLog_alerts] at h
  obtain ⟨result, hresult, hraised⟩ := List.mem_filterMap.mp h
  obtain ⟨r, hr, rfl⟩ := List.mem_map.mp hresult
  have hok : eval r = .ok (some a) := by
    split at hraised
    · rename_i alert halert
      rw [halert, Option.some.inj hraised]
    · cases hraised
    · cases hraised
  obtain ⟨matchers, fingerprint, alertId, now, c, heq⟩ := heval r
  rw [heq] at hok
  refine ⟨r, ?_, ⟨matchers, fingerprint, alertId, now, c, a, hok⟩, CompiledRule.evaluate_isOf hok⟩
  rw [candidateRules_eq_flatMap] at hr
  split_ifs at hr
  · exact (List.mem_filter.mp hr).1
  · obtain ⟨tag, -, hmem⟩ := List.mem_flatMap.mp hr
    exact (List.mem_filter.mp hmem).1

end MiniSiem
