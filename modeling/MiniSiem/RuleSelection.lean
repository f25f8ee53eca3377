import MiniSiem.BruteForce
import MiniSiem.Correlation

/-! # Completeness of the rule selection

`evaluate` of every kind of rule (`detection/rules/*.rs`), and what `process_log` may leave out.

* **Caches.**  The counters and the states of the correlation rules are kept apart here; the malware
  rules read the reputation of an address from the counters.
* **Patterns.**  The matchers of the malware rules are external and are parameters: the indexes of the literals
  found in a message, in the order of their hash set, and whether one of the expressions matches.
* **Selection.**  A rule that raises an alert or changes a cache is indexed under a tag of the log
  (`broad_or_auth_of_mayAct`), and the fallback adds nothing when there are tags
  (`candidateRules_eq_flatMap`).  `candidateRules_complete` puts both together. -/

namespace MiniSiem

structure RuleCaches where
  counters : RedisCache
  states : Cache StateText

inductive RuleError
  | counter (e : RedisError)
  | cache (e : CacheError)

/-! ### Malware rules -/

def maliciousDomains : List String := ["malware.com", "evil.org", "c2-server.net", "ransomware.biz"]

def maliciousIps : List String := ["185.23.44.2", "45.33.22.11"]

def maliciousSimpleIocs : List String :=
  ["malware.com", "evil.org", "c2-server.net", "ransomware.biz", "powershell", "-enc", "certutil", "-urlcache",
    "wget", "curl", "cmd /c"]

/-- `MALICIOUS_SIMPLE_IOC_MATCHER` and `MALICIOUS_COMPLEX_PATTERNS`. -/
structure MalwareMatchers where
  simpleIocs : String → List ℕ
  complexPatterns : String → Bool

/-- `to_ascii_lowercase`. -/
def asciiLowercase (s : String) : String :=
  String.ofList (s.toList.map fun c => if 'A' ≤ c ∧ c ≤ 'Z' then Char.ofNat (c.toNat + 32) else c)

/-- `get_ip_reputation`: a `u8`. -/
def RedisCache.getIpReputation (c : RedisCache) (now : DateTime) (ip : String) :
    Except RedisError (Option UInt8) :=
  match c.live now ("reputation:" ++ ip) with
  | none => .ok none
  | some ⟨.int n, _⟩ => if 0 ≤ n ∧ n < 256 then .ok (some (UInt8.ofNat n.toNat)) else .error .notAnInteger
  | some ⟨.other, _⟩ => .error .notAnInteger

namespace MalwareDetectionRule

variable (matchers : MalwareMatchers)

def checkIp (ip : String) : Bool := ip ∈ maliciousIps

def findSimpleIocs (message : String) : List String :=
  (matchers.simpleIocs (asciiLowercase message)).filterMap (maliciousSimpleIocs[·]?)

/-- The reasons that the log itself gives. -/
def reasons (log : Log) : List String :=
  (if checkIp log.sourceIp then ["Known malicious IP: " ++ log.sourceIp] else []) ++
  ((findSimpleIocs matchers log.message).map fun ioc =>
    if ioc ∈ maliciousDomains then "Communication with malicious domain: " ++ ioc
    else "Suspicious IOC fragment detected: " ++ ioc) ++
  (if matchers.complexPatterns log.message then ["Suspicious command pattern detected"] else [])

/-- `MalwareDetectionRule::evaluate`. -/
def evaluate (r : MalwareDetectionRule) (alertId : Uuid) (now : DateTime) (log : Log) (c : RedisCache) :
    Except RedisError (Option Alert) :=
  match c.getIpReputation now log.sourceIp with
  | .error e => .error e
  | .ok score =>
      let reasons := reasons matchers log ++ match score with
        | some score =>
            if 80 ≤ score then ["High-risk IP (reputation score: " ++ score.toNat.repr ++ ")"] else []
        | none => []
      if reasons.isEmpty then .ok none
      else .ok (some (Alert.new alertId now log.tenantId r.id r.name .high
        ("Potential malware activity: " ++ ", ".intercalate reasons) log.sourceIp [log]))

end MalwareDetectionRule

/-! ### The other kinds -/

/-- `PortScanRule::evaluate`, a placeholder. -/
def PortScanRule.evaluate (_ : PortScanRule) (_ : Log) : Option Alert := none

/-- `GenericRule::evaluate`. -/
def GenericRule.evaluate (r : GenericRule) (alertId : Uuid) (log : Log) : Option Alert :=
  if r.condition.evaluate log then
    some
      { id := alertId
        tenantId := log.tenantId
        ruleId := r.id
        ruleName := r.name
        severity := r.severity
        description := "Rule triggered: " ++ r.name
        sourceIp := log.sourceIp
        events := [log]
        firstSeen := log.timestamp
        lastSeen := log.timestamp
        status := .new
        eventsCount := 1 }
  else none

namespace CompiledRule

/-- `CompiledRule::evaluate`. -/
def evaluate (matchers : MalwareMatchers) (fingerprint : String → UInt64) (r : CompiledRule) (alertId : Uuid)
    (now : DateTime) (log : Log) (c : RuleCaches) : Except RuleError (Option Alert) × RuleCaches :=
  match r with
  | bruteForce r =>
      let (result, counters) := r.evaluate alertId now log c.counters
      (result.mapError .counter, { c with counters })
  | portScan r => (.ok (r.evaluate log), c)
  | malware r => ((r.evaluate matchers alertId now log c.counters).mapError .counter, c)
  | generic r => (.ok (r.evaluate alertId log), c)
  | correlation r =>
      let (result, states) := (r.evaluate fingerprint alertId log).run Cache.exec c.states
      (result.mapError .cache, { c with states })

/-- Some evaluation of the log raises an alert or changes a cache. -/
def MayAct (r : CompiledRule) (log : Log) : Prop :=
  ∃ matchers fingerprint alertId now c,
    (∃ alert, (r.evaluate matchers fingerprint alertId now log c).1 = .ok (some alert)) ∨
      (r.evaluate matchers fingerprint alertId now log c).2 ≠ c

theorem mem_logTypes_of_broad {r : CompiledRule} (h : r.broad = true) (tag : LogTag) : tag ∈ r.logTypes := by
  cases r <;> cases tag <;> simp_all [broad, logTypes]

theorem broad_of_malware {r : CompiledRule} (h : LogTag.malware ∈ r.logTypes) : r.broad = true := by
  cases r <;> simp_all [broad, logTypes]

/-- Only a failed login makes a rule act that is not indexed under every tag. -/
theorem broad_or_auth_of_mayAct {r : CompiledRule} {log : Log} (h : r.MayAct log) :
    r.broad = true ∨ log.isFailedLogin = true ∧ LogTag.auth ∈ r.logTypes := by
  cases r with
  | malware r => exact Or.inl rfl
  | generic r => exact Or.inl rfl
  | correlation r => exact Or.inl rfl
  | portScan r =>
      obtain ⟨matchers, fingerprint, alertId, now, c, ⟨alert, halert⟩ | hchange⟩ := h
      · cases halert
      · exact absurd rfl hchange
  | bruteForce r =>
      refine Or.inr ⟨?_, List.mem_singleton.mpr rfl⟩
      by_contra hother
      have hnone : ∀ alertId now c, r.evaluate alertId now log c = (.ok none, c) := fun alertId now c =>
        if_pos (by simpa using hother)
      obtain ⟨matchers, fingerprint, alertId, now, c, ⟨alert, halert⟩ | hchange⟩ := h
      · unfold evaluate at halert
        dsimp only at halert
        rw [hnone] at halert
        cases halert
      · unfold evaluate at hchange
        dsimp only at hchange
        rw [hnone] at hchange
        exact hchange rfl

end CompiledRule

/-! ### The candidates -/

section candidates

variable (t : RulesTable) (log : Log)

/-- The fallback matters only to a log without tags. -/
theorem candidateRules_eq_flatMap : candidateRules (reloadRules t.getEnabledRules) log =
    if inferTags log = [] then (tenantRules t log).filter (fun r => LogTag.malware ∈ r.logTypes)
    else (inferTags log).flatMap (fun tag => (tenantRules t log).filter (fun r => tag ∈ r.logTypes)) := by
  rw [candidateRules_eq]
  by_cases htags : inferTags log = []
  · rw [if_pos htags, htags, List.flatMap_nil, if_pos rfl]
  · rw [if_neg htags]
    split_ifs with hnone
    · -- no tenant has a rule under the tags, so none has one under every tag
      obtain ⟨tag, htag⟩ := List.exists_mem_of_ne_nil _ htags
      have hempty : ∀ tag ∈ inferTags log, ∀ r ∈ tenantRules t log, tag ∉ r.logTypes := by
        intro tag htag r hr hmem
        have hindexed : r ∈ reloadRules t.getEnabledRules tag := by
          rw [reloadRules_apply]
          exact List.mem_filter.mpr ⟨(List.mem_filter.mp hr).1, decide_eq_true hmem⟩
        rw [List.flatMap_eq_nil_iff.mp hnone tag htag] at hindexed
        cases hindexed
      rw [List.flatMap_eq_nil_iff.mpr fun tag htag => List.filter_eq_nil_iff.mpr fun r hr =>
        by simpa using hempty tag htag r hr]
      refine List.filter_eq_nil_iff.mpr fun r hr hmalware => ?_
      have hbroad := CompiledRule.broad_of_malware (of_decide_eq_true hmalware)
      exact hempty tag htag r hr (CompiledRule.mem_logTypes_of_broad hbroad tag)
    · rfl

/-- A rule under every tag is found through any tag, or as a fallback. -/
theorem mem_candidateRules_of_broad {r : CompiledRule} (hr : r ∈ tenantRules t log) (hbroad : r.broad = true) :
    r ∈ candidateRules (reloadRules t.getEnabledRules) log := by
  have hall := CompiledRule.mem_logTypes_of_broad hbroad
  rw [candidateRules_eq_flatMap]
  split_ifs with htags
  · exact List.mem_filter.mpr ⟨hr, decide_eq_true (hall .malware)⟩
  · obtain ⟨tag, htag⟩ := List.exists_mem_of_ne_nil _ htags
    exact List.mem_flatMap.mpr ⟨tag, htag, List.mem_filter.mpr ⟨hr, decide_eq_true (hall tag)⟩⟩

theorem mem_candidateRules_of_auth {r : CompiledRule} (hr : r ∈ tenantRules t log)
    (hlogin : log.isFailedLogin = true) (hauth : LogTag.auth ∈ r.logTypes) :
    r ∈ candidateRules (reloadRules t.getEnabledRules) log := by
  have htag : LogTag.auth ∈ inferTags log := by
    unfold inferTags authTag
    rw [hlogin]
    exact List.mem_cons_self
  rw [candidateRules_eq_flatMap, if_neg (List.ne_nil_of_mem htag)]
  exact List.mem_flatMap.mpr ⟨.auth, htag, List.mem_filter.mpr ⟨hr, decide_eq_true hauth⟩⟩

theorem candidateRules_tenant {r : CompiledRule}
    (h : r ∈ candidateRules (reloadRules t.getEnabledRules) log) : r.tenantId = log.tenantId :=
  eq_of_beq (List.mem_filter.mp h).2

/-- The compiled rules of a tenant are those of its rows. -/
theorem tenantRules_eq_filterMap : tenantRules t log =
    (t.getEnabledRules.filter fun dr => dr.tenantId == log.tenantId).filterMap compile := by
  unfold tenantRules
  induction t.getEnabledRules with
  | nil => rfl
  | cons dr rows ih =>
      rw [List.filterMap_cons, List.filter_cons]
      cases hcompile : compile dr with
      | none =>
          split_ifs
          · rw [List.filterMap_cons, hcompile]
            exact ih
          · exact ih
      | some r =>
          dsimp only
          rw [List.filter_cons, (compile_id hcompile).2]
          split_ifs
          · rw [List.filterMap_cons, hcompile, ih]
          · exact ih

end candidates

/-- The enabled rows of the tenant, in the order of the table. -/
def RulesTable.enabledRulesOf (t : RulesTable) (tenantId : String) : List DetectionRule :=
  t.getEnabledRules.filter fun dr => dr.tenantId == tenantId

/-- **The selection is complete and local to the tenant**: it keeps every rule of the tenant that may act on
the log and no rule of another tenant, and the rules of the others do not change it. -/
theorem candidateRules_complete (t : RulesTable) (log : Log) :
    (∀ r ∈ tenantRules t log, r.MayAct log → r ∈ candidateRules (reloadRules t.getEnabledRules) log) ∧
    (∀ r ∈ candidateRules (reloadRules t.getEnabledRules) log, r.tenantId = log.tenantId) ∧
    ∀ t' : RulesTable, t'.enabledRulesOf log.tenantId = t.enabledRulesOf log.tenantId →
      candidateRules (reloadRules t'.getEnabledRules) log =
        candidateRules (reloadRules t.getEnabledRules) log := by
  refine ⟨fun r hr hact => ?_, fun r hr => candidateRules_tenant t log hr, fun t' hsame => ?_⟩
  · rcases CompiledRule.broad_or_auth_of_mayAct hact with hbroad | ⟨hlogin, hauth⟩
    · exact mem_candidateRules_of_broad t log hr hbroad
    · exact mem_candidateRules_of_auth t log hr hlogin hauth
  · have hrules : tenantRules t' log = tenantRules t log := by
      rw [tenantRules_eq_filterMap, tenantRules_eq_filterMap]
      exact congrArg (List.filterMap compile) hsame
    rw [candidateRules_eq_flatMap, candidateRules_eq_flatMap, hrules]

end MiniSiem
