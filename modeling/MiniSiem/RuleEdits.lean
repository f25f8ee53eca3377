import MiniSiem.CorrelationCalls
import MiniSiem.CaseSweep
import Mathlib.Logic.Relation

/-! # Correlation progress across rule edits

Rules are edited in the database, reloaded from time to time and evaluated on logs, and the progress of
the evaluations outlives all of this in the cache.

* **Provenance.**  In the model each cached text carries the matches behind it (`StageMatch`): a log and
  the definition a stage of which it matched.  An evaluation takes over the matches of the state it goes
  on with (`continues`) and adds its own (`counts`); the programs themselves see the texts alone
  (`Step.call_texts`).
* **Histories.**  `Step` is one update of a rule, one reload, the start of an evaluation under any of
  the indexes loaded so far, or one cache call of any evaluation under way, on a cache that fails and
  forgets.
* **Versions.**  `progress_of_one_version`: if no two rules of one namespace and of different definitions
  are evaluated, an alert comes from matches under its own definition alone.  The version in the namespace
  is part of the edited definition; `editedRule_leaks` is a history in which an edit leaves it as it
  is. -/

namespace MiniSiem

open Atomic MachineInt

/-- A log that matched a stage of a definition. -/
structure StageMatch where
  definition : CorrelationDefinition
  log : Log

/-- A text with the matches behind it. -/
abbrev TracedText := StateText × List StageMatch

namespace CorrelationRule

variable (r : CorrelationRule)

/-- The log goes on with the loaded state: it is of the group, and its window has not passed. -/
def continues (text : Option StateText) (log : Log) : Bool :=
  let eventTs := log.timestamp.timestamp
  match text with
  | some (.state state) =>
      state.groupKey == r.getGroupKey log && !r.windowPassed state.windowStartEventTs
        (if eventTs > state.maxEventTs then eventTs else state.maxEventTs)
  | _ => false

/-- The log matches the current stage of its group. -/
def counts (text : Option StateText) (log : Log) : Bool :=
  let groupKey := r.getGroupKey log
  let eventTs := log.timestamp.timestamp
  let state := r.enterWindow groupKey eventTs (stateOf text groupKey eventTs)
  match r.definition.stages[state.currentStageIdx]? with
  | some stage => stage.condition.evaluate log
  | none => false

end CorrelationRule

/-- An evaluation under way: the rule and the log, what is left of the program, the text it has read
and the matches behind the state it goes on with. -/
structure Evaluation where
  rule : CorrelationRule
  log : Log
  prog : CacheM StateText (Option Alert)
  text : Option StateText
  basis : List StageMatch

namespace Evaluation

def start (fp : String → UInt64) (rule : CorrelationRule) (alertId : Uuid) (log : Log) :
    Evaluation where
  rule := rule
  log := log
  prog := rule.evaluate fp alertId log
  text := none
  basis := []

/-- The matches behind the state the evaluation stores. -/
def matched (e : Evaluation) : List StageMatch :=
  e.basis ++ if e.rule.counts e.text e.log then [⟨e.rule.definition, e.log⟩] else []

/-- The call, with the matches beside the text it stores. -/
abbrev traced (e : Evaluation) (c : CacheCall StateText) : CacheCall TracedText :=
  c.map fun text => (text, e.matched)

/-- The reply as the program sees it. -/
def seen (e : Evaluation) (c : CacheCall StateText) : (e.traced c).Reply → c.Reply :=
  c.mapReply (fun text => (text, e.matched)) Prod.fst

/-- The evaluation has returned an alert. -/
def alerted (e : Evaluation) : Bool :=
  match e.prog with
  | .ret (.ok (some _)) => true
  | _ => false

/-- What the evaluation has read after the reply. -/
def reads (e : Evaluation) :
    (c : CacheCall StateText) → (e.traced c).Reply → Option StateText × List StageMatch
  | .getString _, .ok (some (text, matched)) =>
      (some text, if e.rule.continues (some text) e.log then matched else [])
  | .getString _, _ => (none, [])
  | .setString _ _ _, _ | .deleteKey _, _ | .expireKey _ _, _ | .zadd _ _ _, _ | .zcard _, _
  | .zpopmin _, _ | .zrem _ _, _ => (e.text, e.basis)

/-- The evaluation after the reply to its next call. -/
def resume (e : Evaluation) (c : CacheCall StateText)
    (k : c.Reply → CacheM StateText (Option Alert)) (reply : (e.traced c).Reply) : Evaluation where
  rule := e.rule
  log := e.log
  prog := k (e.seen c reply)
  text := (e.reads c reply).1
  basis := (e.reads c reply).2

end Evaluation

/-- The rules in the database and the indexes loaded from them, the evaluations ever started and the
cache. -/
structure RuleHistory where
  data : TenantData
  indexes : List RuleIndex
  evaluations : List Evaluation
  cache : Cache TracedText

namespace RuleHistory

variable (fp : String → UInt64)

/-- The cache as the programs see it. -/
def texts (w : RuleHistory) : Cache StateText := Cache.map Prod.fst w.cache

/-- `get_enabled_rules("")`. -/
def enabledRules (w : RuleHistory) : List DetectionRule :=
  (w.data.rules.filter (·.isEnabled)).map (·.toDetectionRule)

/-- One step of a history.  An `update_rule` writes its columns over the row `existing` that it has
read, now or earlier; an evaluation starts under an index that `process_log` has loaded, now or
earlier. -/
inductive Step : RuleHistory → RuleHistory → Prop where
  | update {w : RuleHistory} {row : StoredRule} {data : TenantData} (now : DateTime)
      (tenantId : String) (id : Uuid) (update : RuleUpdate) (existing : StoredRule)
      (h : w.data.updateRule now tenantId id (update.columns existing) = .ok (row, data)) :
      Step w { w with data }
  | reload (w : RuleHistory) : Step w { w with indexes := reloadRules w.enabledRules :: w.indexes }
  | start {w : RuleHistory} {idx : RuleIndex} {log : Log} {rule : CorrelationRule} (alertId : Uuid)
      (hidx : idx ∈ w.indexes) (hrule : .correlation rule ∈ candidateRules idx log) :
      Step w { w with evaluations := .start fp rule alertId log :: w.evaluations }
  | call {w : RuleHistory} {front back : List Evaluation} {e : Evaluation} {c : CacheCall StateText}
      {k : c.Reply → CacheM StateText (Option Alert)} {reply : (e.traced c).Reply}
      {cache : Cache TracedText} (hw : w.evaluations = front ++ e :: back) (hc : e.prog = .call c k)
      (h : (e.traced c).Answers w.cache reply cache) :
      Step w { w with evaluations := front ++ e.resume c k reply :: back, cache }

/-- Nothing loaded, evaluated or cached yet. -/
def initial (data : TenantData) : RuleHistory where
  data := data
  indexes := []
  evaluations := []
  cache := fun _ => none

/-- To the program a call on the traced cache is one on its texts. -/
theorem Step.call_texts {w : RuleHistory} {e : Evaluation} {c : CacheCall StateText}
    {reply : (e.traced c).Reply} {cache : Cache TracedText}
    (h : (e.traced c).Answers w.cache reply cache) :
    c.Answers w.texts (e.seen c reply) (Cache.map Prod.fst cache) :=
  CacheCall.Answers.map (fun _ => rfl) h

/-- No two rules that were evaluated share a namespace and differ in their definitions. -/
def Versioned (w : RuleHistory) : Prop :=
  ∀ e ∈ w.evaluations, ∀ e' ∈ w.evaluations, e.rule.namespace = e'.rule.namespace →
    e.rule.definition = e'.rule.definition

/-! ### What an evaluation stores -/

/-- The call reads and stores no other text than the one at the key `own`. -/
def UsesText (own : String) : CacheCall StateText → Prop
  | .getString key | .setString key _ _ => key = own
  | .deleteKey _ | .expireKey _ _ | .zadd _ _ _ | .zcard _ | .zpopmin _ | .zrem _ _ => True

/-- The program reads and stores no other text than the one at the key `own`. -/
abbrev OwnTexts {α : Type} (own : String) (p : CacheM StateText α) : Prop :=
  p.Ensures (fun (_ : Unit) _ _ => True) (fun _ => UsesText own) ()

theorem evaluate_ownTexts (r : CorrelationRule) (alertId : Uuid) (log : Log) :
    OwnTexts (r.stateKey fp (r.getGroupKey log)) (r.evaluate fp alertId log) := by
  refine CorrelationRule.evaluate_issues rfl rfl (fun c hc => ?_) fun _ _ _ _ => rfl
  cases c with
  | getString key => exact hc.elim
  | setString key text expiry => exact hc.elim
  | _ => trivial

/-! ### Provenance -/

/-- The rules that were evaluated. -/
def rules (w : RuleHistory) : List CorrelationRule := w.evaluations.map (·.rule)

/-- The log matched a stage of the rule's definition. -/
def Of (m : StageMatch) (r : CorrelationRule) : Prop :=
  m.definition = r.definition ∧ ∃ stage ∈ r.definition.stages, stage.condition.evaluate m.log = true

/-- Where the matches come from: those behind an evaluation from rules of its namespace, and those beside
a text from rules under whose keys it is stored. -/
structure Sourced (w : RuleHistory) : Prop where
  own : ∀ e ∈ w.evaluations, OwnTexts (e.rule.stateKey fp (e.rule.getGroupKey e.log)) e.prog
  basis : ∀ e ∈ w.evaluations, ∀ m ∈ e.basis, ∃ r ∈ w.rules,
    r.namespace = e.rule.namespace ∧ Of m r
  cached : ∀ key text matched, w.cache.getString key = .ok (some (text, matched)) → ∀ m ∈ matched,
    ∃ r ∈ w.rules, (∃ groupKey, key = r.stateKey fp groupKey) ∧ Of m r

section sourced

variable {fp} {w : RuleHistory} {e : Evaluation}

/-- After a step of one evaluation the others are as they were. -/
theorem mem_resumed {front back : List Evaluation} {next e' : Evaluation}
    (hevals : w.evaluations = front ++ e :: back) (he' : e' ∈ front ++ next :: back) :
    e' = next ∨ e' ∈ w.evaluations := by
  rw [hevals]
  rcases List.mem_append.mp he' with he' | he'
  · exact Or.inr (List.mem_append_left _ he')
  · rcases List.mem_cons.mp he' with rfl | he'
    · exact Or.inl rfl
    · exact Or.inr (List.mem_append_right _ (List.mem_cons_of_mem _ he'))

theorem of_counts {r : CorrelationRule} {text : Option StateText} {log : Log}
    (h : r.counts text log = true) : Of ⟨r.definition, log⟩ r := by
  unfold CorrelationRule.counts at h
  dsimp only at h
  split at h
  · rename_i stage hstage
    exact ⟨rfl, stage, List.mem_of_getElem? hstage, h⟩
  · cases h

/-- The matches an evaluation would store come from rules under whose key it stores them. -/
theorem Sourced.matched (hw : w.Sourced fp) (he : e ∈ w.evaluations) {m : StageMatch}
    (hm : m ∈ e.matched) : ∃ r ∈ w.rules,
      (∃ groupKey, e.rule.stateKey fp (e.rule.getGroupKey e.log) = r.stateKey fp groupKey) ∧
      Of m r := by
  unfold Evaluation.matched at hm
  rcases List.mem_append.mp hm with hm | hm
  · obtain ⟨r, hr, hname, hof⟩ := hw.basis e he m hm
    refine ⟨r, hr, ⟨e.rule.getGroupKey e.log, ?_⟩, hof⟩
    unfold CorrelationRule.stateKey
    rw [hname]
  · split_ifs at hm with hcounts
    · rw [List.mem_singleton.mp hm]
      exact ⟨e.rule, List.mem_map_of_mem he, ⟨_, rfl⟩, of_counts hcounts⟩
    · exact (List.not_mem_nil hm).elim

/-- What the evaluation has read comes from rules of its namespace. -/
theorem Sourced.reads (hw : w.Sourced fp) (he : e ∈ w.evaluations) {c : CacheCall StateText}
    (hc : UsesText (e.rule.stateKey fp (e.rule.getGroupKey e.log)) c) {reply : (e.traced c).Reply}
    {cache : Cache TracedText} (h : (e.traced c).Answers w.cache reply cache) {m : StageMatch}
    (hm : m ∈ (e.reads c reply).2) : ∃ r ∈ w.rules, r.namespace = e.rule.namespace ∧ Of m r := by
  cases c with
  | getString key =>
      cases reply with
      | error err => exact (List.not_mem_nil hm).elim
      | ok read =>
          cases read with
          | none => exact (List.not_mem_nil hm).elim
          | some entry =>
              obtain ⟨text, matched⟩ := entry
              have hm' : m ∈ matched := by
                unfold Evaluation.reads at hm
                dsimp only at hm
                split_ifs at hm
                · exact hm
                · exact (List.not_mem_nil hm).elim
              have hcached := (h.text h.getString).resolve_right fun hset => by
                obtain ⟨ttl, hset⟩ := hset
                cases hset
              obtain ⟨r, hr, ⟨groupKey, hkey⟩, hof⟩ := hw.cached key text matched hcached m hm'
              exact ⟨r, hr, CorrelationRule.namespace_of_stateKey (hkey.symm.trans hc), hof⟩
  | _ => exact hw.basis e he m hm

theorem Sourced.step {w' : RuleHistory} (hw : w.Sourced fp) (h : Step fp w w') : w'.Sourced fp := by
  cases h with
  | update => exact ⟨hw.own, hw.basis, hw.cached⟩
  | reload => exact ⟨hw.own, hw.basis, hw.cached⟩
  | start alertId hidx hrule =>
      rename_i idx log rule
      have hsub : ∀ r ∈ w.rules,
          r ∈ ({ w with evaluations := .start fp rule alertId log :: w.evaluations } : RuleHistory).rules :=
        fun r hr => List.mem_cons_of_mem _ hr
      refine ⟨fun e he => ?_, fun e he m hm => ?_, fun key text matched hkey m hm => ?_⟩
      · rcases List.mem_cons.mp he with rfl | he
        · exact evaluate_ownTexts fp rule alertId log
        · exact hw.own e he
      · rcases List.mem_cons.mp he with rfl | he
        · exact (List.not_mem_nil hm).elim
        · obtain ⟨r, hr, hof⟩ := hw.basis e he m hm
          exact ⟨r, hsub r hr, hof⟩
      · obtain ⟨r, hr, hof⟩ := hw.cached key text matched hkey m hm
        exact ⟨r, hsub r hr, hof⟩
  | call hevals hc h =>
      rename_i front back e c k reply cache
      have he : e ∈ w.evaluations := by
        rw [hevals]
        exact List.mem_append_right _ List.mem_cons_self
      have hprog := hw.own e he
      rw [hc] at hprog
      obtain ⟨huses, hrest⟩ := hprog () le_rfl
      have hrules : ({ w with evaluations := front ++ e.resume c k reply :: back, cache } :
          RuleHistory).rules = w.rules := by
        unfold rules
        rw [hevals, List.map_append, List.map_append, List.map_cons, List.map_cons]
        rfl
      refine ⟨fun e' he' => ?_, fun e' he' m hm => ?_, fun key text matched hkey m hm => ?_⟩
      · rcases mem_resumed hevals he' with rfl | he'
        · exact hrest _ trivial
        · exact hw.own e' he'
      · rw [hrules]
        rcases mem_resumed hevals he' with rfl | he'
        · exact hw.reads he huses h hm
        · exact hw.basis e' he' m hm
      · rw [hrules]
        rcases h.text hkey with hold | ⟨ttl, hset⟩
        · exact hw.cached key text matched hold m hm
        · cases c with
          | setString own value expiry =>
              cases hset
              obtain ⟨r, hr, ⟨groupKey, hown⟩, hof⟩ := hw.matched he hm
              exact ⟨r, hr, ⟨groupKey, Eq.trans huses hown⟩, hof⟩
          | _ => cases hset

theorem sourced_initial (data : TenantData) : (initial data).Sourced fp where
  own := fun _ he => (List.not_mem_nil he).elim
  basis := fun _ he => (List.not_mem_nil he).elim
  cached := fun _ _ _ h => by cases h

theorem sourced_of_run {data : TenantData}
    (h : Relation.ReflTransGen (Step fp) (initial data) w) : w.Sourced fp := by
  induction h with
  | refl => exact sourced_initial data
  | tail _ hstep ih => exact ih.step hstep

end sourced

/-- Every evaluation that has returned an alert has gone on with matches of stages of its own
definition. -/
def OwnProgress (w : RuleHistory) : Prop :=
  ∀ e ∈ w.evaluations, e.alerted = true → ∀ m ∈ e.basis, Of m e.rule

/-- **Correlation progress stays within one version**, in every history that evaluates no two rules of
one namespace and of different definitions. -/
theorem progress_of_one_version {data : TenantData} {w : RuleHistory}
    (h : Relation.ReflTransGen (Step fp) (initial data) w) (hversioned : w.Versioned) :
    w.OwnProgress := by
  intro e he _ m hm
  obtain ⟨r, hr, hname, hdef, hmatch⟩ := (sourced_of_run h).basis e he m hm
  obtain ⟨e', he', rfl⟩ := List.mem_map.mp hr
  have hsame := hversioned e' he' e he hname
  rw [hsame] at hdef hmatch
  exact ⟨hdef, hmatch⟩

/-! ### An edit that keeps the version -/

/-- The evaluation run to its end, on a cache that does not fail. -/
def finish (e : Evaluation) : CacheM StateText (Option Alert) → Option StateText → List StageMatch →
    Cache TracedText → Evaluation × Cache TracedText
  | .ret a, text, basis, s => ({ e with prog := .ret a, text, basis }, s)
  | .call c k, text, basis, s =>
      let e' : Evaluation := { e with prog := .call c k, text, basis }
      let out := Cache.exec (e'.traced c) s
      finish e (k (e'.seen c out.1)) (e'.reads c out.1).1 (e'.reads c out.1).2 out.2

theorem steps_finish (e : Evaluation) (back : List Evaluation)
    (p : CacheM StateText (Option Alert)) (text : Option StateText) (basis : List StageMatch)
    (s : Cache TracedText) {w : RuleHistory} (hcache : w.cache = s)
    (hw : w.evaluations = { e with prog := p, text, basis } :: back) :
    Relation.ReflTransGen (Step fp) w
      { w with
        evaluations := (finish e p text basis s).1 :: back
        cache := (finish e p text basis s).2 } := by
  induction p generalizing text basis s w with
  | ret a =>
      have hsame : w = { w with
          evaluations := (finish e (.ret a) text basis s).1 :: back
          cache := (finish e (.ret a) text basis s).2 } := by
        cases w
        simp only at hcache hw
        rw [hcache, hw]
        rfl
      exact hsame ▸ Relation.ReflTransGen.refl
  | call c k ih =>
      subst hcache
      have hstep : Step fp w _ :=
        @Step.call fp w [] back ⟨e.rule, e.log, .call c k, text, basis⟩ c k _ _ hw rfl
          (CacheCall.answers_exec _ _)
      refine .head hstep ?_
      exact ih _ _ _ _ rfl rfl

theorem finish_rule (e : Evaluation) (p : CacheM StateText (Option Alert)) (text : Option StateText)
    (basis : List StageMatch) (s : Cache TracedText) : (finish e p text basis s).1.rule = e.rule := by
  induction p generalizing text basis s with
  | ret a => rfl
  | call c k ih => exact ih _ _ _ _

/-- The history after one more evaluation. -/
def evaluated (w : RuleHistory) (rule : CorrelationRule) (alertId : Uuid) (log : Log) : RuleHistory :=
  let out := finish (.start fp rule alertId log) (rule.evaluate fp alertId log) none [] w.cache
  { w with evaluations := out.1 :: w.evaluations, cache := out.2 }

theorem evaluated_rules (w : RuleHistory) (rule : CorrelationRule) (alertId : Uuid) (log : Log) :
    (w.evaluated fp rule alertId log).rules = rule :: w.rules := by
  unfold evaluated rules
  rw [List.map_cons, finish_rule]
  rfl

theorem steps_evaluated {w : RuleHistory} {idx : RuleIndex} {rule : CorrelationRule} {log : Log}
    (alertId : Uuid) (hidx : idx ∈ w.indexes) (hrule : .correlation rule ∈ candidateRules idx log) :
    Relation.ReflTransGen (Step fp) w (w.evaluated fp rule alertId log) :=
  .head (.start alertId hidx hrule)
    (steps_finish fp (.start fp rule alertId log) w.evaluations _ none [] w.cache rfl rfl)

/-! ### A rule with two stages -/

def eventTypeIs (eventType : String) : Json :=
  .obj [("field", .obj [("field", .str "event_type"), ("op", .str "=="), ("value", .str eventType)])]

def stageJson (eventType : String) : Json :=
  .obj [("condition", eventTypeIs eventType), ("min_count", .num (.posInt 1)), ("name", .str eventType)]

/-- The condition of a rule with two stages. -/
def twoStages (first second : String) : Json :=
  .obj [("group_by", .arr [.str "source_ip"]), ("stages", .arr [stageJson first, stageJson second]),
    ("window_seconds", .num (.posInt 300))]

def twoStageRow (first second : String) : StoredRule where
  id := "r1"
  tenantId := "t1"
  name := "two stages"
  description := none
  ruleType := "correlation"
  severity := "HIGH"
  threshold := none
  windowSeconds := none
  condition := some (twoStages first second)
  isEnabled := true
  createdAt := .ofSeconds 0
  updatedAt := .ofSeconds 0

/-- A database with one rule. -/
def oneRule (row : StoredRule) : TenantData :=
  { emptyData with rules := [row], rules_id := List.nodup_singleton _, rules_name := List.nodup_singleton _ }

def stageOf (eventType : String) : CorrelationStage :=
  ⟨eventType, .field "event_type" "==" (.str eventType), 1⟩

def twoStageRule (first second : String) : CorrelationRule where
  tenantId := "t1"
  id := "r1"
  name := "two stages"
  severity := .high
  definition :=
    { windowSeconds := 300, version := 1, maxActiveGroups := 4096, watermarkLatenessSeconds := 30,
      stateTtlSeconds := 900, evictionPolicy := .oldestFirst, groupBy := ["source_ip"],
      stages := [stageOf first, stageOf second] }

/-- The first log matches the first stage, and the second log the second one. -/
def bothStages (w : RuleHistory) (before after : CorrelationRule) (change : RuleHistory → RuleHistory) :
    RuleHistory :=
  let first := (CorrelationRule.loginLog "login_failed" (.ofSeconds 0)).2
  let second := (CorrelationRule.loginLog "logout" (.ofSeconds 3)).2
  (change (w.evaluated (fun _ => 0) before "a1" first)).evaluated (fun _ => 0) after "a2" second

/-- A rule with two stages is loaded. -/
def loadedOnce : RuleHistory :=
  { initial (oneRule (twoStageRow "login_failed" "logout")) with
    indexes := [reloadRules [(twoStageRow "login_failed" "logout").toDetectionRule]] }

/-- The first stage of the rule is edited, and the rule reloaded. -/
def firstStageEdited (w : RuleHistory) : RuleHistory :=
  { w with
    data := oneRule (twoStageRow "port_scan" "logout")
    indexes := reloadRules [(twoStageRow "port_scan" "logout").toDetectionRule] :: w.indexes }

theorem compile_twoStageRow {first : String} (h : first = "login_failed" ∨ first = "port_scan") :
    compile (twoStageRow first "logout").toDetectionRule =
      some (.correlation (twoStageRule first "logout")) := by
  rcases h with rfl | rfl
  · rfl
  · rfl

/-- A reloaded correlation rule is evaluated on every log of its tenant. -/
theorem candidate_of_compile {row : StoredRule} {rule : CorrelationRule} {log : Log}
    (hcompile : compile row.toDetectionRule = some (.correlation rule))
    (htenant : rule.tenantId = log.tenantId) :
    .correlation rule ∈ candidateRules (reloadRules [row.toDetectionRule]) log := by
  have hindex : ∀ tag, reloadRules [row.toDetectionRule] tag = [.correlation rule] := by
    intro tag
    rw [reloadRules_apply, List.filterMap_cons, hcompile]
    cases tag <;> rfl
  unfold candidateRules
  refine List.mem_filter.mpr ⟨?_, beq_iff_eq.mpr htenant⟩
  split_ifs with hfound
  · rw [hindex]
    exact List.mem_cons_self
  · cases htags : inferTags log with
    | nil =>
        rw [htags] at hfound
        exact absurd rfl hfound
    | cons tag tags =>
        refine List.mem_flatMap.mpr ⟨tag, List.mem_cons_self, ?_⟩
        rw [hindex]
        exact List.mem_cons_self

/-- The reloaded rule is evaluated on the two logs. -/
theorem candidate_twoStageRule {first : String} (hfirst : first = "login_failed" ∨ first = "port_scan")
    {log : Log} (h : log = (CorrelationRule.loginLog "login_failed" (.ofSeconds 0)).2 ∨
      log = (CorrelationRule.loginLog "logout" (.ofSeconds 3)).2) :
    .correlation (twoStageRule first "logout") ∈
      candidateRules (reloadRules [(twoStageRow first "logout").toDetectionRule]) log := by
  refine candidate_of_compile (compile_twoStageRow hfirst) ?_
  rcases h with rfl | rfl
  · rfl
  · rfl

theorem steps_loadedOnce : Relation.ReflTransGen (Step fun _ => 0)
    (initial (oneRule (twoStageRow "login_failed" "logout"))) loadedOnce :=
  .single (.reload _)

theorem steps_firstStageEdited {w : RuleHistory}
    (h : w.data = oneRule (twoStageRow "login_failed" "logout")) :
    Relation.ReflTransGen (Step fun _ => 0) w w.firstStageEdited := by
  have hupdate : w.data.updateRule (.ofSeconds 0) "t1" "r1"
      (({ condition := some (twoStages "port_scan" "logout") } : RuleUpdate).columns
        (twoStageRow "login_failed" "logout")) =
      .ok (twoStageRow "port_scan" "logout", oneRule (twoStageRow "port_scan" "logout")) := by
    rw [h]
    rfl
  refine .head (.update (.ofSeconds 0) "t1" "r1" _ _ hupdate) (.single ?_)
  exact .reload _

/-- Without the edit the second log raises an alert that the first one is behind. -/
theorem loadedOnce_ownProgress : ∃ w, Relation.ReflTransGen (Step fun _ => 0)
      (initial (oneRule (twoStageRow "login_failed" "logout"))) w ∧
    (∃ e ∈ w.evaluations, e.alerted = true ∧ e.basis.length = 1) ∧
    w.OwnProgress := by
  let rule := twoStageRule "login_failed" "logout"
  have hrun : Relation.ReflTransGen (Step fun _ => 0)
      (initial (oneRule (twoStageRow "login_failed" "logout")))
      (loadedOnce.bothStages rule rule id) :=
    (steps_loadedOnce.trans (steps_evaluated _ "a1" List.mem_cons_self
      (candidate_twoStageRule (Or.inl rfl) (Or.inl rfl)))).trans
      (steps_evaluated _ "a2" List.mem_cons_self (candidate_twoStageRule (Or.inl rfl) (Or.inr rfl)))
  have hrules : (loadedOnce.bothStages rule rule id).rules = [rule, rule] := by
    unfold bothStages
    rw [evaluated_rules, id, evaluated_rules]
    rfl
  have hrule : ∀ e ∈ (loadedOnce.bothStages rule rule id).evaluations, e.rule = rule := by
    intro e he
    have hmem : e.rule ∈ (loadedOnce.bothStages rule rule id).rules := List.mem_map_of_mem he
    rw [hrules] at hmem
    rcases List.mem_cons.mp hmem with h | h
    · exact h
    · exact List.mem_singleton.mp h
  refine ⟨_, hrun, ⟨_, List.mem_cons_self, by decide +kernel, by decide +kernel⟩,
    progress_of_one_version _ hrun ?_⟩
  intro e he e' he' _
  rw [hrule e he, hrule e' he']

/-- An edit keeps the version: the first stage of the old definition counts for the new one. -/
theorem editedRule_leaks : ¬ ∀ (fp : String → UInt64) (data : TenantData) (w : RuleHistory),
    Relation.ReflTransGen (Step fp) (initial data) w → w.OwnProgress := by
  intro h
  have hrun : Relation.ReflTransGen (Step fun _ => 0)
      (initial (oneRule (twoStageRow "login_failed" "logout")))
      (loadedOnce.bothStages (twoStageRule "login_failed" "logout")
        (twoStageRule "port_scan" "logout") firstStageEdited) :=
    ((steps_loadedOnce.trans (steps_evaluated _ "a1" List.mem_cons_self
      (candidate_twoStageRule (Or.inl rfl) (Or.inl rfl)))).trans (steps_firstStageEdited rfl)).trans
      (steps_evaluated _ "a2" List.mem_cons_self (candidate_twoStageRule (Or.inr rfl) (Or.inr rfl)))
  obtain ⟨-, stage, hstage, hmatch⟩ := h _ _ _ hrun _ List.mem_cons_self (by decide +kernel)
    ⟨(twoStageRule "login_failed" "logout").definition,
      (CorrelationRule.loginLog "login_failed" (.ofSeconds 0)).2⟩ List.mem_cons_self
  rcases List.mem_cons.mp hstage with rfl | hstage
  · revert hmatch
    decide
  · rw [List.mem_singleton.mp hstage] at hmatch
    revert hmatch
    decide

end RuleHistory

end MiniSiem
