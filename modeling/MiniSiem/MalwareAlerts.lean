import MiniSiem.IocMatcher
import MiniSiem.Lib.KeyedList
import MiniSiem.Lib.Regex
import MiniSiem.RaisedAlerts

/-! # When a malware rule raises an alert

The decision of `MalwareDetectionRule::evaluate` (`detection/rules/malware.rs`), and what `process_log` makes
of it.

* **Expressions.**  `MALICIOUS_COMPLEX_PATTERNS` as regular expressions, searched for in the message as it is.
  `matchesComplexPatterns_cases`: the first four need a literal of `MALICIOUS_SIMPLE_IOCS`, so that only the
  last one, a run of `cmd /c`, can matter.
* **Literals.**  The scan reports some literal whenever the lowercased message contains one
  (`findSimpleIocs_ne_nil_iff`), although it may miss some of them.
* **Alerts.**  `malware_alert_count`: a malware row in force raises one alert for each tag of the log, at
  least one, when there is an indicator, and none otherwise; when Redis does not answer there is none. -/

namespace MiniSiem

open Scanning

namespace MalwareDetectionRule

/-- `.*`: a dot does not stand for a line feed. -/
def anything : Regex Char := .star (.letter (· != '\n'))

def word (s : String) : Regex Char := .literal s.toList

def malwareOrEvil : Regex Char := .alt (word "malware") (word "evil")

/-- `MALICIOUS_COMPLEX_PATTERNS`. -/
def complexPatterns : List (Regex Char) :=
  [.seq (word "powershell") (.seq anything (word "-enc")),
    .seq (word "certutil") (.seq anything (word "-urlcache")),
    .seq (word "wget") (.seq anything malwareOrEvil),
    .seq (word "curl") (.seq anything malwareOrEvil),
    .seq (word "cmd") (.seq anything (.seq (word "/c") (.seq anything malwareOrEvil)))]

def matchesComplexPatterns (message : String) : Bool :=
  complexPatterns.any fun pattern => pattern.search message.toList

/-- A line of the message runs `cmd` with `/c` on something that is called `malware` or `evil`. -/
def RunsCommand (message : String) : Prop :=
  ∃ before options arguments after, ∃ name ∈ ["malware", "evil"],
    message.toList =
      before ++ "cmd".toList ++ options ++ "/c".toList ++ arguments ++ String.toList name ++ after ∧
    '\n' ∉ options ∧ '\n' ∉ arguments

end MalwareDetectionRule

/-- The automaton scans, and the expressions are searched for. -/
structure MalwareMatchers.Documented (matchers : MalwareMatchers) (findIter : String → List Match) : Prop
    extends matchers.Standard findIter where
  searches : ∀ message, matchers.complexPatterns message = MalwareDetectionRule.matchesComplexPatterns message

namespace MalwareDetectionRule

/-! ### Expressions -/

theorem mem_anything {w : List Char} : w ∈ anything.language ↔ '\n' ∉ w := by
  rw [anything, Regex.mem_star_letter]
  constructor
  · intro h hmem
    exact absurd (h _ hmem) (by decide)
  · intro h a ha
    exact bne_iff_ne.mpr fun heq => h (heq ▸ ha)

theorem mem_malwareOrEvil {w : List Char} :
    w ∈ malwareOrEvil.language ↔ ∃ name ∈ ["malware", "evil"], w = String.toList name := by
  simp [malwareOrEvil, word, Regex.mem_alt, Regex.mem_literal]

theorem search_cmd_iff (message : String) :
    (Regex.seq (word "cmd") (.seq anything (.seq (word "/c") (.seq anything malwareOrEvil)))).search
      message.toList = true ↔ RunsCommand message := by
  rw [Regex.search_iff]
  constructor
  · rintro ⟨u, hu, before, after, hinfix⟩
    obtain ⟨_, hcmd, _, hbehindCmd, rfl⟩ := Regex.mem_seq.mp hu
    obtain ⟨options, hoptions, _, hfromSlash, rfl⟩ := Regex.mem_seq.mp hbehindCmd
    obtain ⟨_, hslash, _, hbehindSlash, rfl⟩ := Regex.mem_seq.mp hfromSlash
    obtain ⟨arguments, harguments, _, hname, rfl⟩ := Regex.mem_seq.mp hbehindSlash
    obtain ⟨name, hmem, rfl⟩ := mem_malwareOrEvil.mp hname
    rw [word, Regex.mem_literal] at hcmd hslash
    subst hcmd hslash
    refine ⟨before, options, arguments, after, name, hmem, ?_, mem_anything.mp hoptions,
      mem_anything.mp harguments⟩
    rw [← hinfix]
    simp only [List.append_assoc]
  · rintro ⟨before, options, arguments, after, name, hmem, hmessage, hoptions, harguments⟩
    have hbehindSlash : arguments ++ String.toList name ∈ (Regex.seq anything malwareOrEvil).language :=
      Regex.mem_seq.mpr ⟨_, mem_anything.mpr harguments, _, mem_malwareOrEvil.mpr ⟨name, hmem, rfl⟩, rfl⟩
    have hfromSlash := Regex.mem_seq.mpr
      ⟨_, (Regex.mem_literal (w := "/c".toList)).mpr rfl, _, hbehindSlash, rfl⟩
    have hbehindCmd := Regex.mem_seq.mpr ⟨_, mem_anything.mpr hoptions, _, hfromSlash, rfl⟩
    refine ⟨_, Regex.mem_seq.mpr ⟨_, Regex.mem_literal.mpr rfl, _, hbehindCmd, rfl⟩, before, after, ?_⟩
    · rw [hmessage]
      simp only [List.append_assoc]

/-- A literal occurs in the lowercased message. -/
def HasLiteral (message : String) : Prop :=
  ∃ ioc ∈ maliciousSimpleIocs, Text.contains (asciiLowercase message) ioc = true

/-- A lowercase text that lies in the message lies in the lowercased message. -/
theorem contains_of_occurs {message : String} (ioc : String) (hmem : ioc ∈ maliciousSimpleIocs)
    (h : ioc.toList <:+: message.toList) : HasLiteral message := by
  have hlower : ∀ ioc ∈ maliciousSimpleIocs, (asciiLowercase ioc).toList = ioc.toList := by decide +kernel
  refine ⟨ioc, hmem, decide_eq_true ?_⟩
  rw [← hlower ioc hmem, asciiLowercase, asciiLowercase, String.toList_ofList, String.toList_ofList]
  exact h.map _

/-- An expression that starts with a literal finds nothing that the scan does not find. -/
theorem matchesComplexPatterns_cases {message : String} (h : matchesComplexPatterns message = true) :
    HasLiteral message ∨ RunsCommand message := by
  obtain ⟨pattern, hpattern, hsearch⟩ := List.any_eq_true.mp h
  simp only [complexPatterns, List.mem_cons, List.not_mem_nil, or_false] at hpattern
  rcases hpattern with rfl | rfl | rfl | rfl | rfl
  · exact Or.inl (contains_of_occurs "powershell" (by decide) (Regex.infix_of_search hsearch))
  · exact Or.inl (contains_of_occurs "certutil" (by decide) (Regex.infix_of_search hsearch))
  · exact Or.inl (contains_of_occurs "wget" (by decide) (Regex.infix_of_search hsearch))
  · exact Or.inl (contains_of_occurs "curl" (by decide) (Regex.infix_of_search hsearch))
  · exact Or.inr ((search_cmd_iff message).mp hsearch)

theorem matchesComplexPatterns_of_runsCommand {message : String} (h : RunsCommand message) :
    matchesComplexPatterns message = true :=
  List.any_eq_true.mpr ⟨_, by simp [complexPatterns], (search_cmd_iff message).mpr h⟩

/-! ### Literals -/

variable {matchers : MalwareMatchers} {findIter : String → List Match}

theorem findSimpleIocs_ne_nil_iff (hstd : matchers.Standard findIter) (message : String) :
    findSimpleIocs matchers message ≠ [] ↔ HasLiteral message := by
  have hscan := hstd.scans (asciiLowercase message)
  constructor
  · intro hne
    obtain ⟨ioc, hioc⟩ := List.exists_mem_of_ne_nil _ hne
    obtain ⟨i, hreported⟩ := (mem_findSimpleIocs hstd message ioc).mp hioc
    obtain ⟨hp, hprefix⟩ := hscan.prefix_of_reported hreported
    obtain ⟨ioc', hmem, heq⟩ := List.mem_map.mp hp
    exact ⟨ioc, String.toList_inj.mp heq ▸ hmem, (contains_iff_exists_start _ ioc).mpr ⟨i, hprefix⟩⟩
  · rintro ⟨ioc, hmem, hcontains⟩ hnil
    obtain ⟨i, hprefix⟩ := (contains_iff_exists_start _ ioc).mp hcontains
    obtain ⟨k, -, hocc⟩ := occurs_of_mem (List.mem_map_of_mem hmem) hprefix
    cases hmatches : findIter (asciiLowercase message) with
    | nil =>
        rw [hmatches] at hscan
        cases hscan with
        | done hnone => exact absurd (hnone _ hocc) (Nat.not_lt_zero _)
    | cons m ms =>
        -- the first match reports some literal, although not always this one
        have hm : m ∈ findIter (asciiLowercase message) := hmatches ▸ List.mem_cons_self
        obtain ⟨⟨p, hp, -, -⟩, -⟩ := hscan.occurs hm
        obtain ⟨found, -, rfl⟩ := List.mem_map.mp (List.mem_of_getElem? hp)
        have hfound := (mem_findSimpleIocs hstd message found).mpr ⟨m.start, m, hm, rfl, hp⟩
        rw [hnil] at hfound
        cases hfound

/-! ### Alerts -/

/-- What the log itself shows. -/
def Indicated (log : Log) : Prop :=
  log.sourceIp ∈ maliciousIps ∨ HasLiteral log.message ∨ RunsCommand log.message

/-- Redis answers, and the log or the reputation of its address calls for an alert. -/
def Alarming (log : Log) (reputation : Except RedisError (Option UInt8)) : Prop :=
  ∃ score, reputation = .ok score ∧ (Indicated log ∨ ∃ n, score = some n ∧ 80 ≤ n)

theorem reasons_ne_nil_iff (hdoc : matchers.Documented findIter) (log : Log) :
    reasons matchers log ≠ [] ↔ Indicated log := by
  have hiocs := findSimpleIocs_ne_nil_iff hdoc.toStandard log.message
  unfold reasons Indicated
  rw [hdoc.searches]
  simp only [ne_eq, List.append_eq_nil_iff, List.map_eq_nil_iff, not_and_or] at hiocs ⊢
  rw [hiocs, or_assoc]
  refine or_congr (by simp [checkIp]) ?_
  have hcomplex : (¬ (if matchesComplexPatterns log.message = true then
      ["Suspicious command pattern detected"] else []) = []) ↔ matchesComplexPatterns log.message = true := by
    split_ifs with h <;> simp [h]
  rw [hcomplex]
  constructor
  · rintro (h | h)
    · exact Or.inl h
    · exact matchesComplexPatterns_cases h
  · exact Or.imp_right matchesComplexPatterns_of_runsCommand

/-- The reason that the reputation gives. -/
def reputationReasons : Option UInt8 → List String
  | some score => if 80 ≤ score then ["High-risk IP (reputation score: " ++ score.toNat.repr ++ ")"] else []
  | none => []

theorem reputationReasons_ne_nil_iff (score : Option UInt8) :
    reputationReasons score ≠ [] ↔ ∃ n, score = some n ∧ 80 ≤ n := by
  cases score with
  | none => simp [reputationReasons]
  | some n =>
      rw [reputationReasons]
      split_ifs with h <;> simp [h]

theorem evaluate_of_reputation {r : MalwareDetectionRule} {alertId : Uuid} {now : DateTime} {log : Log}
    {c : RedisCache} {score : Option UInt8} (hscore : c.getIpReputation now log.sourceIp = .ok score) :
    r.evaluate matchers alertId now log c =
      if (reasons matchers log ++ reputationReasons score).isEmpty then .ok none
      else .ok (some (Alert.new alertId now log.tenantId r.id r.name .high ("Potential malware activity: " ++
        ", ".intercalate (reasons matchers log ++ reputationReasons score)) log.sourceIp [log])) := by
  unfold evaluate
  rw [hscore]
  cases score <;> rfl

/-- **When the rule raises an alert.** -/
theorem evaluate_alerts_iff (hdoc : matchers.Documented findIter) (r : MalwareDetectionRule) (alertId : Uuid)
    (now : DateTime) (log : Log) (c : RedisCache) :
    (∃ a, r.evaluate matchers alertId now log c = .ok (some a)) ↔
      Alarming log (c.getIpReputation now log.sourceIp) := by
  unfold Alarming
  cases hscore : c.getIpReputation now log.sourceIp with
  | error e => simp [evaluate, hscore]
  | ok score =>
      rw [evaluate_of_reputation hscore]
      simp only [Except.ok.injEq, exists_eq_left', ← reasons_ne_nil_iff hdoc log,
        ← reputationReasons_ne_nil_iff score]
      rw [← not_and_or, ← List.append_eq_nil_iff]
      generalize reasons matchers log ++ reputationReasons score = all
      cases all <;> simp

end MalwareDetectionRule

/-! ### The alerts of a malware row -/

section processed

variable {t : RulesTable} {log : Log} {dr : DetectionRule}

/-- The rule of a malware row. -/
def DetectionRule.malwareRule (dr : DetectionRule) : MalwareDetectionRule :=
  { tenantId := dr.tenantId, id := dr.id, name := dr.name }

variable (hdr : dr ∈ t.getEnabledRules) (htype : dr.ruleType = "malware")
  (htenant : dr.tenantId = log.tenantId)
include hdr htype htenant

theorem malwareRule_mem : CompiledRule.malware dr.malwareRule ∈ tenantRules t log := by
  have hcompile : compile dr = some (.malware dr.malwareRule) := by
    unfold compile
    rw [htype]
    rfl
  refine List.mem_filter.mpr ⟨List.mem_filterMap.mpr ⟨dr, hdr, hcompile⟩, ?_⟩
  exact beq_iff_eq.mpr htenant

/-- The row's rule is the only one with its identifier, under every tag. -/
theorem tenantRules_filter_id (tag : LogTag) :
    ((tenantRules t log).filter fun r => tag ∈ r.logTypes).filter (fun r => r.id = dr.id) =
      [.malware dr.malwareRule] := by
  have hmem := malwareRule_mem hdr htype htenant
  have htag : tag ∈ (CompiledRule.malware dr.malwareRule).logTypes :=
    CompiledRule.mem_logTypes_of_broad rfl tag
  have hnodup : (((tenantRules t log).filter fun r => tag ∈ r.logTypes).map (·.id)).Nodup :=
    (List.filter_sublist.map _).nodup (tenantRules_ids_nodup t log)
  exact KeyedList.filter_key_eq hnodup
    (List.mem_filter.mpr ⟨hmem, decide_eq_true htag⟩)

/-- It is a candidate once for each tag, or as the fallback. -/
theorem candidateRules_filter_id :
    (candidateRules (reloadRules t.getEnabledRules) log).filter (fun r => r.id = dr.id) =
      List.replicate (max 1 (inferTags log).length) (.malware dr.malwareRule) := by
  rw [candidateRules_eq_flatMap]
  split_ifs with htags
  · rw [tenantRules_filter_id hdr htype htenant, htags]
    rfl
  · rw [List.filter_flatMap, max_eq_right (List.length_pos_iff.mpr htags),
      List.flatMap_congr fun tag _ => tenantRules_filter_id hdr htype htenant tag]
    clear htags
    induction inferTags log with
    | nil => rfl
    | cons tag tags ih => rw [List.flatMap_cons, ih]; rfl

/-- The alerts with the row's identifier are those of its candidates. -/
theorem processLog_filter_ruleId {eval : CompiledRule → Except RuleError (Option Alert)}
    (heval : EvaluatesLog log eval) (stats : LocalStats) :
    (processLog (reloadRules t.getEnabledRules) eval stats log).2.filter (fun a => a.ruleId = dr.id) =
      alertsToProcess (List.replicate (max 1 (inferTags log).length) (eval (.malware dr.malwareRule))) := by
  rw [processLog_alerts, ← List.map_replicate, ← candidateRules_filter_id hdr htype htenant]
  unfold alertsToProcess
  rw [List.filterMap_map, List.filterMap_map, List.filter_filterMap, List.filterMap_filter]
  refine List.filterMap_congr fun r _ => ?_
  obtain ⟨matchers, fingerprint, alertId, now, c, heq⟩ := heval r
  rw [Function.comp_apply]
  cases hresult : eval r with
  | error e => split_ifs <;> simp
  | ok result =>
      cases result with
      | none => split_ifs <;> simp
      | some a =>
          rw [heq] at hresult
          rw [← (CompiledRule.evaluate_isOf hresult).ruleId]
          split_ifs with hid
          · simp [hid]
          · simpa using hid

/-- **The alerts of a malware row in force**: as many as the log has tags, but at least one, when Redis
answers and there is an indicator; else none.  Each rule has its own identifiers, clock and caches. -/
theorem malware_alert_count {matchers : MalwareMatchers} {findIter : String → List Match}
    (hdoc : matchers.Documented findIter) (fingerprint : String → UInt64) (alertIds : CompiledRule → Uuid)
    (now : CompiledRule → DateTime) (caches : CompiledRule → RuleCaches) (stats : LocalStats) :
    let rule := CompiledRule.malware dr.malwareRule
    let raised := (processLog (reloadRules t.getEnabledRules)
      (fun r => (r.evaluate matchers fingerprint (alertIds r) (now r) log (caches r)).1) stats log).2.filter
        fun a => a.ruleId = dr.id
    let reputation := (caches rule).counters.getIpReputation (now rule) log.sourceIp
    (MalwareDetectionRule.Alarming log reputation → raised.length = max 1 (inferTags log).length) ∧
      (¬ MalwareDetectionRule.Alarming log reputation → raised = []) := by
  intro rule raised reputation
  have hraised : raised = alertsToProcess (List.replicate (max 1 (inferTags log).length)
      (rule.evaluate matchers fingerprint (alertIds rule) (now rule) log (caches rule)).1) :=
    processLog_filter_ruleId hdr htype htenant (fun r => ⟨_, _, _, _, _, rfl⟩) stats
  have hevaluate : (rule.evaluate matchers fingerprint (alertIds rule) (now rule) log (caches rule)).1 =
      (dr.malwareRule.evaluate matchers (alertIds rule) (now rule) log (caches rule).counters).mapError
        RuleError.counter := rfl
  have halerts := MalwareDetectionRule.evaluate_alerts_iff hdoc dr.malwareRule (alertIds rule) (now rule) log
    (caches rule).counters
  rw [hraised, hevaluate]
  unfold alertsToProcess
  constructor
  · intro halarming
    obtain ⟨a, ha⟩ := halerts.mpr halarming
    rw [ha]
    simp [Except.mapError]
  · intro hquiet
    have hnone : ∀ a, dr.malwareRule.evaluate matchers (alertIds rule) (now rule) log (caches rule).counters ≠
        .ok (some a) := fun a ha => hquiet (halerts.mp ⟨a, ha⟩)
    cases hresult : dr.malwareRule.evaluate matchers (alertIds rule) (now rule) log
        (caches rule).counters with
    | error e => simp [Except.mapError]
    | ok result =>
        cases result with
        | none => simp [Except.mapError]
        | some a => exact absurd hresult (hnone a)

end processed

/-! ### A failed login from a host that is listed -/

/-- The message names `evil.org`, and the log has two tags. -/
theorem hostLogin_alertCount : ((processLog (reloadRules hostLoginTable.getEnabledRules)
    (fun r => (r.evaluate (scanningMatchers MalwareDetectionRule.matchesComplexPatterns) (fun _ => 0) "a1"
      (.ofSeconds 0) hostLoginLog ⟨⟨fun _ => none, fun _ => none⟩, fun _ => none⟩).1) ⟨0, 0, 0, 0⟩
    hostLoginLog).2.filter fun a => a.ruleId = "r1").length = 2 := by
  have hdoc : (scanningMatchers MalwareDetectionRule.matchesComplexPatterns).Documented
      fun s => scan iocPatterns s.toList := ⟨scanningMatchers_standard _, fun _ => rfl⟩
  have hmem : hostLoginTable.rows.head (List.cons_ne_nil _ _) ∈ hostLoginTable.getEnabledRules :=
    List.mem_cons_self
  have htenant : (hostLoginTable.rows.head (List.cons_ne_nil _ _)).tenantId = hostLoginLog.tenantId := rfl
  have hcount := (malware_alert_count hmem rfl htenant hdoc (fun _ => 0) (fun _ => "a1")
    (fun _ => .ofSeconds 0) (fun _ => ⟨⟨fun _ => none, fun _ => none⟩, fun _ => none⟩) ⟨0, 0, 0, 0⟩).1
  refine (hcount ⟨none, rfl, Or.inl (Or.inr (Or.inl ⟨"evil.org", by decide, by decide +kernel⟩))⟩).trans ?_
  decide

end MiniSiem
