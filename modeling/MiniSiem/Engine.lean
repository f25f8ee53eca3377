import MiniSiem.Rules
import Mathlib.Data.List.Nodup

/-! # The rule index and the candidate rules of a log

`reload_rules` and `process_log` of `detection/engine.rs`.

* **Reload.** Every enabled row of `detection_rules` is compiled (`compile`) and pushed once
  under each tag of its kind; a row whose condition does not decode is skipped.  The rows come
  from a table whose primary key and tenant-scoped name index are fields of `RulesTable`.
* **Selection.** `inferTags` is the text heuristic of `process_log`; `candidateRules` collects
  the index entries of the inferred tags, falls back to the malware entry when nothing was
  found, and keeps the rules of the log's tenant.

`reloadRules_apply` describes an index entry as a filter of the compiled rows, from which the
multiplicity of a rule among the candidates is read off (`candidateRules_ids_nodup_iff`). -/

namespace MiniSiem

/-- The table `detection_rules` with its primary key and its unique index on tenant and name. -/
structure RulesTable where
  rows : List DetectionRule
  id_nodup : (rows.map (·.id)).Nodup
  name_nodup : (rows.map (fun r => (r.tenantId, r.name))).Nodup

/-- `get_enabled_rules("")`: the enabled rules of every tenant. -/
def RulesTable.getEnabledRules (t : RulesTable) : List DetectionRule := t.rows.filter (·.isEnabled)

/-- The compiled form of a row, when its type is known and its condition decodes. -/
def compile (dr : DetectionRule) : Option CompiledRule :=
  match dr.ruleType with
  | "brute_force" => some (.bruteForce
      { tenantId := dr.tenantId
        id := dr.id
        name := dr.name
        threshold := (dr.threshold.getD 5).toUInt32
        windowSeconds := (dr.windowSeconds.getD 300).toInt64 })
  | "port_scan" => some (.portScan
      { tenantId := dr.tenantId
        id := dr.id
        name := dr.name
        portThreshold := (dr.threshold.getD 20).toUInt32
        windowSeconds := (dr.windowSeconds.getD 60).toInt64 })
  | "malware" => some (.malware { tenantId := dr.tenantId, id := dr.id, name := dr.name })
  | "generic" =>
      (dr.condition.bind RuleCondition.fromValue).map
        (fun c => .generic (GenericRule.new dr.tenantId dr.id dr.name dr.severity c))
  | "correlation" =>
      (dr.condition.bind CorrelationDefinition.fromValue).map
        (fun d => .correlation (CorrelationRule.new dr.tenantId dr.id dr.name dr.severity d))
  | _ => none

/-- The rule table: the rules indexed under each tag, a missing entry being empty. -/
abbrev RuleIndex := LogTag → List CompiledRule

/-- `new_rules.entry(lt).or_default().push(compiled)`. -/
def RuleIndex.push (idx : RuleIndex) (r : CompiledRule) (lt : LogTag) : RuleIndex :=
  Function.update idx lt (idx lt ++ [r])

/-- A compiled rule pushed under each of its tags. -/
def RuleIndex.insert (idx : RuleIndex) (r : CompiledRule) : RuleIndex :=
  r.logTypes.foldl (fun idx lt => idx.push r lt) idx

/-- `reload_rules`, from the rows of `get_enabled_rules`. -/
def reloadRules (dbRules : List DetectionRule) : RuleIndex :=
  dbRules.foldl (fun idx dr => match compile dr with
    | some r => RuleIndex.insert idx r
    | none => idx) (fun _ => [])

/-! ### Selection -/

def authTag (log : Log) : Bool :=
  log.isFailedLogin || Text.contains log.eventType "auth" || Text.contains log.eventType "login"

def networkTag (log : Log) : Bool :=
  Text.contains log.eventType "network" || Text.contains log.eventType "port" ||
  Text.contains (log.service.getD "") "ssh"

def malwareTag (log : Log) : Bool :=
  Text.contains log.message "http" || Text.contains log.message "." ||
  Text.contains log.message "powershell" || Text.contains log.message "wget"

def inferTags (log : Log) : List LogTag :=
  (if authTag log then [.auth] else []) ++ (if networkTag log then [.network] else []) ++
  (if malwareTag log then [.malware] else [])

/-- The rules `process_log` evaluates for a log, with their multiplicity. -/
def candidateRules (idx : RuleIndex) (log : Log) : List CompiledRule :=
  let found := (inferTags log).flatMap idx
  let found := if found.isEmpty then idx .malware else found
  found.filter (fun r => r.tenantId == log.tenantId)

/-- The counters of `LocalStats`. -/
structure LocalStats where
  totalLogs : ℕ
  totalAlerts : ℕ
  activeAlerts : ℕ
  criticalAlerts : ℕ

def LocalStats.incrLog (s : LocalStats) : LocalStats := { s with totalLogs := s.totalLogs + 1 }

def LocalStats.incrAlert (s : LocalStats) (isCritical : Bool) : LocalStats :=
  { s with
    totalAlerts := s.totalAlerts + 1
    activeAlerts := s.activeAlerts + 1
    criticalAlerts := if isCritical then s.criticalAlerts + 1 else s.criticalAlerts }

/-- `process_log` up to the hand-over of its alerts: every candidate is evaluated (`eval` gives
the result of its evaluation), a failed evaluation raises nothing. -/
def processLog {ε : Type} (idx : RuleIndex) (eval : CompiledRule → Except ε (Option Alert))
    (stats : LocalStats) (log : Log) : LocalStats × List Alert :=
  (candidateRules idx log).foldl (fun acc r => match eval r with
    | .ok (some alert) =>
        (acc.1.incrAlert (alert.severity == .critical), acc.2 ++ [alert])
    | _ => acc) (stats.incrLog, [])

/-! ### The entries of the index -/

theorem RuleIndex.insert_apply (idx : RuleIndex) (r : CompiledRule) (tag : LogTag) :
    idx.insert r tag = idx tag ++ if tag ∈ r.logTypes then [r] else [] := by
  unfold RuleIndex.insert
  cases r <;> cases tag <;>
    simp [CompiledRule.logTypes, RuleIndex.push]

/-- An entry of the index holds the compiled rows that declare the tag, in row order. -/
theorem reloadRules_apply (dbRules : List DetectionRule) (tag : LogTag) :
    reloadRules dbRules tag = (dbRules.filterMap compile).filter (fun r => tag ∈ r.logTypes) := by
  have key : ∀ (rows : List DetectionRule) (idx : RuleIndex),
      rows.foldl (fun idx dr => match compile dr with
        | some r => RuleIndex.insert idx r
        | none => idx) idx tag =
      idx tag ++ (rows.filterMap compile).filter (fun r => tag ∈ r.logTypes) := by
    intro rows
    induction rows with
    | nil => intro idx; simp
    | cons dr rows ih =>
        intro idx
        rw [List.foldl_cons, ih, List.filterMap_cons]
        cases compile dr with
        | none => rfl
        | some r =>
            simp only [RuleIndex.insert_apply, List.filter_cons, List.append_assoc]
            by_cases h : tag ∈ r.logTypes <;> simp [h]
  simpa [reloadRules] using key dbRules (fun _ => [])

theorem compile_id {dr : DetectionRule} {r : CompiledRule} (h : compile dr = some r) :
    r.id = dr.id ∧ r.tenantId = dr.tenantId := by
  unfold compile at h
  split at h
  · cases h; exact ⟨rfl, rfl⟩
  · cases h; exact ⟨rfl, rfl⟩
  · cases h; exact ⟨rfl, rfl⟩
  · obtain ⟨c, -, rfl⟩ := Option.map_eq_some_iff.mp h; exact ⟨rfl, rfl⟩
  · obtain ⟨d, -, rfl⟩ := Option.map_eq_some_iff.mp h; exact ⟨rfl, rfl⟩
  · cases h

/-- Compiling keeps the identifiers of the rows, so they stay distinct. -/
theorem compiled_ids_nodup (t : RulesTable) :
    ((t.getEnabledRules.filterMap compile).map (·.id)).Nodup := by
  have hsub : List.Sublist ((t.getEnabledRules.filterMap compile).map (·.id))
      (t.getEnabledRules.map (·.id)) := by
    induction t.getEnabledRules with
    | nil => simp
    | cons dr rows ih =>
        rw [List.filterMap_cons]
        cases h : compile dr with
        | none => exact ih.trans (List.sublist_cons_self _ _)
        | some r =>
            simp only [List.map_cons, (compile_id h).1]
            exact ih.cons_cons _
  refine hsub.nodup ?_
  exact (List.filter_sublist.map _).nodup t.id_nodup

/-! ### Multiplicity of a candidate -/

/-- The kinds that are indexed under every tag. -/
def CompiledRule.broad : CompiledRule → Bool
  | bruteForce _ | portScan _ => false
  | malware _ | generic _ | correlation _ => true

/-- A row that compiles to a rule indexed under every tag. -/
def DetectionRule.declaresAllTags (dr : DetectionRule) : Bool :=
  dr.ruleType == "malware" ||
  (dr.ruleType == "generic" && (dr.condition.bind RuleCondition.fromValue).isSome) ||
  (dr.ruleType == "correlation" && (dr.condition.bind CorrelationDefinition.fromValue).isSome)

/-- At most one of the tag heuristics of `process_log` matches the log. -/
def AtMostOneTag (log : Log) : Prop :=
  ¬(authTag log ∧ networkTag log) ∧ ¬(authTag log ∧ malwareTag log) ∧
  ¬(networkTag log ∧ malwareTag log)

theorem declaresAllTags_iff (dr : DetectionRule) :
    dr.declaresAllTags = true ↔ ∃ r, compile dr = some r ∧ r.broad = true := by
  unfold DetectionRule.declaresAllTags compile
  split
  · next h => simp [h, CompiledRule.broad]
  · next h => simp [h, CompiledRule.broad]
  · next h => simp [h, CompiledRule.broad]
  · next h => cases hc : dr.condition.bind RuleCondition.fromValue <;> simp [h, CompiledRule.broad]
  · next h =>
      cases hc : dr.condition.bind CorrelationDefinition.fromValue <;>
        simp [h, CompiledRule.broad]
  · next h₁ h₂ h₃ => simp_all

theorem mem_two_logTypes_iff (r : CompiledRule) {s t : LogTag} (h : s ≠ t) :
    (s ∈ r.logTypes ∧ t ∈ r.logTypes) ↔ r.broad = true := by
  cases r <;> cases s <;> cases t <;> simp_all [CompiledRule.logTypes, CompiledRule.broad]

theorem inferTags_nodup (log : Log) : (inferTags log).Nodup := by
  unfold inferTags
  cases authTag log <;> cases networkTag log <;> cases malwareTag log <;> decide

theorem inferTags_pairwise_iff (log : Log) (P : Prop) :
    (inferTags log).Pairwise (fun _ _ => P) ↔ AtMostOneTag log ∨ P := by
  unfold inferTags AtMostOneTag
  cases authTag log <;> cases networkTag log <;> cases malwareTag log <;> simp

section candidates

variable (t : RulesTable) (log : Log)

/-- The compiled enabled rules of the log's tenant. -/
def tenantRules : List CompiledRule :=
  (t.getEnabledRules.filterMap compile).filter (fun r => r.tenantId == log.tenantId)

theorem tenantRules_ids_nodup : ((tenantRules t log).map (·.id)).Nodup :=
  (List.filter_sublist.map _).nodup (compiled_ids_nodup t)

/-- The candidates, as a filter of the tenant's compiled rules for each tag. -/
theorem candidateRules_eq : candidateRules (reloadRules t.getEnabledRules) log =
    if (inferTags log).flatMap (reloadRules t.getEnabledRules) = [] then
      (tenantRules t log).filter (fun r => LogTag.malware ∈ r.logTypes)
    else (inferTags log).flatMap (fun tag => (tenantRules t log).filter (fun r => tag ∈ r.logTypes)) := by
  have hfilter : ∀ tag, (reloadRules t.getEnabledRules tag).filter
      (fun r => r.tenantId == log.tenantId) =
      (tenantRules t log).filter (fun r => tag ∈ r.logTypes) := by
    intro tag
    rw [reloadRules_apply, tenantRules, List.filter_filter, List.filter_filter]
    exact List.filter_congr fun r _ => Bool.and_comm _ _
  unfold candidateRules
  simp only [List.isEmpty_iff]
  split_ifs with h
  · exact hfilter .malware
  · rw [List.filter_flatMap]
    exact List.flatMap_congr fun tag _ => hfilter tag

/-- Two rows of the tenant's index entries under different tags share an identifier exactly
when the tenant has a rule indexed under every tag. -/
theorem entries_disjoint_iff {s u : LogTag} (h : s ≠ u) :
    List.Disjoint (((tenantRules t log).filter (fun r => s ∈ r.logTypes)).map (·.id))
      (((tenantRules t log).filter (fun r => u ∈ r.logTypes)).map (·.id)) ↔
    ∀ r ∈ tenantRules t log, r.broad = false := by
  have hinj := List.inj_on_of_nodup_map (tenantRules_ids_nodup t log)
  constructor
  · intro hd r hr
    by_contra hb
    obtain ⟨hs, hu⟩ := (mem_two_logTypes_iff r h).mpr (by simpa using hb)
    exact hd (List.mem_map_of_mem (List.mem_filter.mpr ⟨hr, by simpa using hs⟩))
      (List.mem_map_of_mem (List.mem_filter.mpr ⟨hr, by simpa using hu⟩))
  · intro hb i hi hi'
    obtain ⟨r, hrs, rfl⟩ := List.mem_map.mp hi
    obtain ⟨r', hru, he⟩ := List.mem_map.mp hi'
    obtain ⟨hr, hs⟩ := List.mem_filter.mp hrs
    obtain ⟨hr', hu⟩ := List.mem_filter.mp hru
    have heq : r' = r := hinj hr' hr he
    subst heq
    have := (mem_two_logTypes_iff r' h).mp ⟨of_decide_eq_true hs, of_decide_eq_true hu⟩
    rw [hb r' hr] at this
    cases this

theorem tenantRules_narrow_iff : (∀ r ∈ tenantRules t log, r.broad = false) ↔
    ∀ dr ∈ t.getEnabledRules, dr.tenantId = log.tenantId → dr.declaresAllTags = false := by
  constructor
  · intro h dr hdr ht
    by_contra hb
    obtain ⟨r, hc, hr⟩ := (declaresAllTags_iff dr).mp (by simpa using hb)
    have hmem : r ∈ tenantRules t log := List.mem_filter.mpr
      ⟨List.mem_filterMap.mpr ⟨dr, hdr, hc⟩, by simp [(compile_id hc).2, ht]⟩
    rw [h r hmem] at hr
    cases hr
  · intro h r hr
    obtain ⟨hr, ht⟩ := List.mem_filter.mp hr
    obtain ⟨dr, hdr, hc⟩ := List.mem_filterMap.mp hr
    by_contra hb
    have := (declaresAllTags_iff dr).mpr ⟨r, hc, by simpa using hb⟩
    rw [h dr hdr (by rw [← (compile_id hc).2]; simpa using ht)] at this
    cases this

end candidates

/-- **No rule is evaluated twice for a log** exactly when at most one tag is inferred for it or
its tenant has no enabled rule that is indexed under every tag. -/
theorem candidateRules_ids_nodup_iff (t : RulesTable) (log : Log) :
    ((candidateRules (reloadRules t.getEnabledRules) log).map (·.id)).Nodup ↔
      AtMostOneTag log ∨
      ∀ dr ∈ t.getEnabledRules, dr.tenantId = log.tenantId → dr.declaresAllTags = false := by
  have hentry : ∀ tag : LogTag,
      (((tenantRules t log).filter (fun r => tag ∈ r.logTypes)).map (·.id)).Nodup :=
    fun tag => (List.filter_sublist.map _).nodup (tenantRules_ids_nodup t log)
  have hpair : ((inferTags log).flatMap (fun tag =>
      ((tenantRules t log).filter (fun r => tag ∈ r.logTypes)).map (·.id))).Nodup ↔
      AtMostOneTag log ∨ ∀ r ∈ tenantRules t log, r.broad = false := by
    rw [List.nodup_flatMap, ← inferTags_pairwise_iff]
    constructor
    · rintro ⟨-, hp⟩
      exact (List.Pairwise.and (inferTags_nodup log) hp).imp
        fun ⟨h, hd⟩ => (entries_disjoint_iff t log h).mp hd
    · intro hp
      refine ⟨fun tag _ => hentry tag, ?_⟩
      exact (List.Pairwise.and (inferTags_nodup log) hp).imp
        fun ⟨h, hb⟩ => (entries_disjoint_iff t log h).mpr hb
  rw [candidateRules_eq, ← tenantRules_narrow_iff]
  split_ifs with hempty
  · -- the fallback reads a single entry; nothing was found under the inferred tags
    refine iff_of_true (hentry .malware) ?_
    rw [← hpair]
    have hnil : (inferTags log).flatMap (fun tag =>
        ((tenantRules t log).filter (fun r => tag ∈ r.logTypes)).map (·.id)) = [] := by
      rw [List.flatMap_eq_nil_iff] at hempty ⊢
      intro tag htag
      have h := hempty tag htag
      rw [reloadRules_apply] at h
      rw [List.map_eq_nil_iff, tenantRules, List.filter_filter,
        List.filter_congr fun _ _ => Bool.and_comm _ _, ← List.filter_filter, h, List.filter_nil]
    rw [hnil]
    exact List.nodup_nil
  · rw [List.map_flatMap]
    exact hpair

/-- A malware rule and a log that is a failed login and mentions a host name. -/
def hostLoginTable : RulesTable where
  rows := [{ id := "r1", tenantId := "t1", name := "c2", description := none, ruleType := "malware",
             severity := "Critical", threshold := none, windowSeconds := none, condition := none,
             isEnabled := true }]
  id_nodup := by decide
  name_nodup := by decide

def hostLoginLog : Log :=
  { id := "l1", tenantId := "t1", timestamp := .ofSeconds 0, eventType := "login_failed",
    sourceIp := "10.0.0.1", targetUser := none, service := none,
    message := "login from evil.org", severity := .info, metadata := .null,
    receivedAt := .ofSeconds 0 }

theorem hostLogin_evaluated_twice :
    (candidateRules (reloadRules hostLoginTable.getEnabledRules) hostLoginLog).map (·.id) =
      ["r1", "r1"] ∧
    ¬((candidateRules (reloadRules hostLoginTable.getEnabledRules) hostLoginLog).map (·.id)).Nodup := by
  decide

end MiniSiem
