import MiniSiem.Engine

/-! # The notation of the curated packs

The detection packs of `api/handlers/packs.rs`, their installation, and what the rule loader
makes of the conditions they carry.

The packs write a condition with flat leaves `{"field": …, "op": …, "value": …}` (`packJson`),
while `RuleCondition` is decoded as an externally tagged enum, whose leaf would be
`{"field": {"field": …, "op": …, "value": …}}`.  A flat leaf has three keys and does not decode,
so a tree in pack notation is read back exactly when it has no leaf (`fromValue_packJson`), and
no rule of a curated pack ever becomes active (`curatedPacks_not_compiled`). -/

namespace MiniSiem

/-- `RuleCreate`. -/
structure RuleCreate where
  tenantId : String
  name : String
  description : Option String
  ruleType : String
  severity : String
  threshold : Option Int32
  windowSeconds : Option Int32
  condition : Option Json

/-- The row inserted for `rule`, with the generated identifier `id`. -/
def RuleCreate.row (rule : RuleCreate) (id : Uuid) : DetectionRule where
  id := id
  tenantId := rule.tenantId
  name := rule.name
  description := rule.description
  ruleType := rule.ruleType
  severity := rule.severity
  threshold := rule.threshold
  windowSeconds := rule.windowSeconds
  condition := rule.condition
  isEnabled := true

/-- `PostgresDb::create_rule`: the insert fails on a conflict with one of the unique indexes. -/
def RulesTable.createRule (t : RulesTable) (id : Uuid) (rule : RuleCreate) : Option RulesTable :=
  if h : id ∉ t.rows.map (·.id) ∧
      (rule.tenantId, rule.name) ∉ t.rows.map (fun r => (r.tenantId, r.name)) then
    some
      { rows := t.rows ++ [rule.row id]
        id_nodup := by
          rw [List.map_append, List.nodup_append]
          refine ⟨t.id_nodup, by simp, ?_⟩
          rintro a ha b hb rfl
          rw [List.map_singleton, List.mem_singleton] at hb
          exact h.1 (by rw [hb] at ha; exact ha)
        name_nodup := by
          rw [List.map_append, List.nodup_append]
          refine ⟨t.name_nodup, by simp, ?_⟩
          rintro a ha b hb rfl
          rw [List.map_singleton, List.mem_singleton] at hb
          exact h.2 (by rw [hb] at ha; exact ha) }
  else none

theorem createRule_rows {t t' : RulesTable} {id : Uuid} {rule : RuleCreate}
    (h : t.createRule id rule = some t') : t'.rows = t.rows ++ [rule.row id] := by
  unfold RulesTable.createRule at h
  split_ifs at h
  obtain rfl := Option.some.inj h
  rfl

structure PackRuleTemplate where
  name : String
  description : String
  ruleType : String
  severity : String
  threshold : Option Int32
  windowSeconds : Option Int32
  condition : Json

structure PackTemplate where
  slug : String
  rules : List PackRuleTemplate

/-- The rule `ensure_pack_rules` creates from a template. -/
def PackRuleTemplate.ruleCreate (template : PackRuleTemplate) (tenantId : String) : RuleCreate where
  tenantId := tenantId
  name := template.name
  description := some template.description
  ruleType := template.ruleType
  severity := template.severity
  threshold := template.threshold
  windowSeconds := template.windowSeconds
  condition := some template.condition

/-! ### Pack notation -/

/-- A leaf as the packs write it. -/
def leaf (field op : String) (value : Json) : Json :=
  .obj [("field", .str field), ("op", .str op), ("value", value)]

/-- `curated_packs`. -/
def curatedPacks : List PackTemplate :=
  [ { slug := "cloud-iam-abuse"
      rules := [
        { name := "Cloud IAM - Privilege Escalation"
          description := "Detect role, policy, or group changes that can elevate cloud access."
          ruleType := "generic"
          severity := "HIGH"
          threshold := none
          windowSeconds := none
          condition := .obj [("any", .arr [
              leaf "message" "contains" (.str "AttachUserPolicy"),
              leaf "message" "contains" (.str "PutUserPolicy"),
              leaf "message" "contains" (.str "CreatePolicyVersion"),
              leaf "message" "contains" (.str "AddUserToGroup"),
              leaf "event_type" "==" (.str "iam_privilege_change")])] },
        { name := "Cloud IAM - Suspicious Console Login"
          description := "Detect successful cloud console logins without MFA or from unusual context."
          ruleType := "generic"
          severity := "MEDIUM"
          threshold := none
          windowSeconds := none
          condition := .obj [("all", .arr [
              leaf "event_type" "==" (.str "login_success"),
              leaf "message" "contains" (.str "ConsoleLogin"),
              leaf "mfa_used" "==" (.bool false)])] },
        { name := "Cloud IAM - New Access Key Issued"
          description := "Detect creation of new access keys that can extend attacker dwell time."
          ruleType := "generic"
          severity := "HIGH"
          threshold := none
          windowSeconds := none
          condition := .obj [("any", .arr [
              leaf "message" "contains" (.str "CreateAccessKey"),
              leaf "message" "contains" (.str "UpdateAccessKey"),
              leaf "event_type" "==" (.str "iam_access_key_created")])] }] },
    { slug := "endpoint-ransomware-precursors"
      rules := [
        { name := "Endpoint - Suspicious PowerShell Encoded Command"
          description := "Detect PowerShell execution using encoded or obfuscated commands."
          ruleType := "generic"
          severity := "HIGH"
          threshold := none
          windowSeconds := none
          condition := .obj [("any", .arr [
              leaf "message" "contains" (.str "powershell"),
              leaf "message" "contains" (.str "-enc"),
              leaf "message" "contains" (.str "-encodedcommand")])] },
        { name := "Endpoint - Shadow Copy Deletion"
          description := "Detect commands used to delete backups or shadow copies before encryption."
          ruleType := "generic"
          severity := "CRITICAL"
          threshold := none
          windowSeconds := none
          condition := .obj [("any", .arr [
              leaf "message" "contains" (.str "vssadmin delete shadows"),
              leaf "message" "contains" (.str "wmic shadowcopy delete"),
              leaf "message" "contains" (.str "bcdedit /set")])] },
        { name := "Endpoint - Mass File Rename Or Encryption Extension"
          description := "Detect bursty file rename activity or common ransomware file extensions."
          ruleType := "generic"
          severity := "CRITICAL"
          threshold := some 25
          windowSeconds := some 300
          condition := .obj [("any", .arr [
              leaf "message" "contains" (.str ".locked"),
              leaf "message" "contains" (.str ".encrypted"),
              leaf "message" "contains" (.str "file renamed"),
              leaf "event_type" "==" (.str "file_rename_burst")])] }] },
    { slug := "insider-risk"
      rules := [
        { name := "Insider - Large Data Exfiltration"
          description := "Detect unusually large transfers or downloads from sensitive sources."
          ruleType := "generic"
          severity := "HIGH"
          threshold := some 500
          windowSeconds := some 900
          condition := .obj [("any", .arr [
              leaf "event_type" "==" (.str "large_download"),
              leaf "message" "contains" (.str "rclone"),
              leaf "message" "contains" (.str "mega.nz"),
              leaf "bytes_out" ">=" (.num (.posInt 500000000))])] },
        { name := "Insider - Off Hours Privileged Access"
          description := "Detect privileged access outside normal working windows or shift hours."
          ruleType := "generic"
          severity := "MEDIUM"
          threshold := none
          windowSeconds := none
          condition := .obj [("all", .arr [
              leaf "event_type" "==" (.str "privileged_access"),
              leaf "off_hours" "==" (.bool true)])] },
        { name := "Insider - Archive Tool Staging"
          description := "Detect use of archive tools commonly used to stage exfiltration packages."
          ruleType := "generic"
          severity := "MEDIUM"
          threshold := none
          windowSeconds := none
          condition := .obj [("any", .arr [
              leaf "message" "contains" (.str "7z"),
              leaf "message" "contains" (.str "rar"),
              leaf "message" "contains" (.str "zip -r"),
              leaf "message" "contains" (.str "archive")])] }] } ]

namespace RuleCondition

mutual
/-- A condition tree in the notation of the packs. -/
def packJson : RuleCondition → Json
  | all conditions => .obj [("all", .arr (packItems conditions))]
  | any conditions => .obj [("any", .arr (packItems conditions))]
  | not condition => .obj [("not", packJson condition)]
  | field f op value => leaf f op value

def packItems : List RuleCondition → List Json
  | [] => []
  | c :: cs => packJson c :: packItems cs
end

mutual
/-- A tree without a `Field` leaf. -/
def leafFree : RuleCondition → Bool
  | all conditions => leafFreeItems conditions
  | any conditions => leafFreeItems conditions
  | not condition => leafFree condition
  | field _ _ _ => false

def leafFreeItems : List RuleCondition → Bool
  | [] => true
  | c :: cs => leafFree c && leafFreeItems cs
end

theorem fromItems_packItems (cs : List RuleCondition)
    (ih : ∀ c ∈ cs, fromValue (packJson c) = if c.leafFree then some c else none) :
    fromItems (packItems cs) = if leafFreeItems cs then some cs else none := by
  induction cs with
  | nil => rfl
  | cons c cs ihs =>
      have hc := ih c List.mem_cons_self
      have hcs := ihs fun d hd => ih d (List.mem_cons_of_mem c hd)
      rw [packItems, fromItems, hc, hcs, leafFreeItems]
      cases c.leafFree <;> cases leafFreeItems cs <;> rfl

theorem fromValue_not (v : Json) : fromValue (.obj [("not", v)]) = (fromValue v).map .not := by
  cases v <;> rfl

/-- A tree in pack notation decodes to itself when it has no leaf, and not at all otherwise. -/
theorem fromValue_packJson (c : RuleCondition) :
    fromValue (packJson c) = if c.leafFree then some c else none := by
  induction c using induct with
  | all cs ih =>
      rw [packJson, leafFree, fromValue, fromItems_packItems cs ih]
      cases leafFreeItems cs <;> rfl
  | any cs ih =>
      rw [packJson, leafFree, fromValue, fromItems_packItems cs ih]
      cases leafFreeItems cs <;> rfl
  | not c ih =>
      rw [packJson, leafFree, fromValue_not, ih]
      cases c.leafFree <;> rfl
  | field f op v => rfl

end RuleCondition

/-! ### Installed rules -/

/-- Some active rule of the index has the given identifier, and its condition is `tree`, which
it evaluates on every log to the tree's boolean meaning. -/
def ActiveAs (idx : RuleIndex) (id : Uuid) (tree : RuleCondition) : Prop :=
  ∃ tag g, CompiledRule.generic g ∈ idx tag ∧ g.id = id ∧ g.condition = tree ∧
    ∀ log, g.condition.evaluate log = true ↔ tree.Holds log

/-- The request that installs a tree, in pack notation, as a generic rule. -/
def genericRule (tenantId name severity : String) (description : Option String)
    (threshold windowSeconds : Option Int32) (tree : RuleCondition) : RuleCreate :=
  { tenantId, name, description, ruleType := "generic", severity, threshold, windowSeconds,
    condition := some tree.packJson }

theorem compile_generic {dr : DetectionRule} {g : GenericRule}
    (h : compile dr = some (.generic g)) :
    g.id = dr.id ∧ dr.condition.bind RuleCondition.fromValue = some g.condition := by
  unfold compile at h
  split at h
  · cases h
  · cases h
  · cases h
  · obtain ⟨c, hc, he⟩ := Option.map_eq_some_iff.mp h
    obtain rfl := CompiledRule.generic.inj he
    exact ⟨rfl, hc⟩
  · obtain ⟨d, -, he⟩ := Option.map_eq_some_iff.mp h
    cases he
  · cases h

/-- Every rule of the index is the compiled form of an enabled row. -/
theorem mem_reloadRules {dbRules : List DetectionRule} {tag : LogTag} {r : CompiledRule}
    (h : r ∈ reloadRules dbRules tag) : ∃ dr ∈ dbRules, compile dr = some r := by
  rw [reloadRules_apply, List.mem_filter, List.mem_filterMap] at h
  exact h.1

/-- **Format agreement**: a tree in pack notation, installed as a generic rule, is loaded as an
active rule with that condition exactly when the tree has no leaf. -/
theorem packTree_active_iff (t t' : RulesTable) (id : Uuid) (tenantId name severity : String)
    (description : Option String) (threshold windowSeconds : Option Int32) (tree : RuleCondition)
    (h : t.createRule id
      (genericRule tenantId name severity description threshold windowSeconds tree) = some t') :
    ActiveAs (reloadRules t'.getEnabledRules) id tree ↔ tree.leafFree = true := by
  have hrows := createRule_rows h
  constructor
  · rintro ⟨tag, g, hg, hid, hc, -⟩
    obtain ⟨dr, hdr, hcomp⟩ := mem_reloadRules hg
    obtain ⟨hgid, hdec⟩ := compile_generic hcomp
    -- the identifier is the primary key, so the rule comes from the installed row
    have hrow : dr = (genericRule tenantId name severity description threshold windowSeconds
        tree).row id := by
      refine List.inj_on_of_nodup_map t'.id_nodup (List.mem_filter.mp hdr).1 ?_ (hgid.symm.trans hid)
      rw [hrows]
      exact List.mem_append_right _ (List.mem_singleton.mpr rfl)
    rw [hrow, hc] at hdec
    have htree : RuleCondition.fromValue tree.packJson = some tree := hdec
    rw [RuleCondition.fromValue_packJson] at htree
    by_contra hleaf
    rw [if_neg hleaf] at htree
    cases htree
  · intro hleaf
    refine ⟨.auth, GenericRule.new tenantId id name severity tree, ?_, rfl, rfl,
      fun log => RuleCondition.evaluate_iff_holds log tree⟩
    rw [reloadRules_apply, List.mem_filter, List.mem_filterMap]
    refine ⟨⟨(genericRule tenantId name severity description threshold windowSeconds tree).row id,
      List.mem_filter.mpr ⟨?_, rfl⟩, ?_⟩, rfl⟩
    · rw [hrows]
      exact List.mem_append_right _ (List.mem_singleton.mpr rfl)
    · have htree := RuleCondition.fromValue_packJson tree
      rw [if_pos hleaf] at htree
      change Option.map _ (RuleCondition.fromValue tree.packJson) = _
      rw [htree]
      rfl

def noRules : RulesTable where
  rows := []
  id_nodup := List.nodup_nil
  name_nodup := List.nodup_nil

/-- The empty conjunction, whose pack notation is `{"all": []}`. -/
def installedEmpty : RulesTable where
  rows := [(genericRule "t1" "any log" "LOW" none none none (.all [])).row "r1"]
  id_nodup := by decide
  name_nodup := by decide

theorem packTree_active_empty :
    ActiveAs (reloadRules installedEmpty.getEnabledRules) "r1" (.all []) :=
  (packTree_active_iff noRules installedEmpty "r1" "t1" "any log" "LOW" none none none (.all [])
    rfl).mpr rfl

/-- A leaf of the first curated rule. -/
def attachPolicy : RuleCondition := .field "message" "contains" (.str "AttachUserPolicy")

def installedLeaf : RulesTable where
  rows := [(genericRule "t1" "policy" "HIGH" none none none attachPolicy).row "r1"]
  id_nodup := by decide
  name_nodup := by decide

theorem packLeaf_not_active :
    noRules.createRule "r1" (genericRule "t1" "policy" "HIGH" none none none attachPolicy) =
      some installedLeaf ∧
    ¬ActiveAs (reloadRules installedLeaf.getEnabledRules) "r1" attachPolicy := by
  refine ⟨rfl, ?_⟩
  rintro ⟨tag, g, hg, -⟩
  rw [reloadRules_apply] at hg
  exact absurd hg (by simp [installedLeaf, RulesTable.getEnabledRules, RuleCreate.row, genericRule,
    attachPolicy, compile, RuleCondition.packJson, leaf, RuleCondition.fromValue])

/-- No rule of a curated pack compiles, whatever tenant and identifier it is installed under. -/
theorem curatedPacks_not_compiled (tenantId : String) (id : Uuid) :
    ∀ pack ∈ curatedPacks, ∀ template ∈ pack.rules,
      compile ((template.ruleCreate tenantId).row id) = none := by
  simp only [curatedPacks, List.forall_mem_cons, List.not_mem_nil, false_implies, implies_true,
    and_true]
  refine ⟨⟨?_, ?_, ?_⟩, ⟨?_, ?_, ?_⟩, ?_, ?_, ?_⟩ <;> rfl

end MiniSiem
