import MiniSiem.IngestHandlers
import MiniSiem.Lib.Lines

/-! # The Redis keys of a tenant

The keys that the cost controller, the quota check and the statistics build for a tenant (`costs.rs`,
`api/tenant.rs`, `api/handlers/dashboard.rs`).

* **Lines.**  A key is a sequence of words between colons.  The tenant and the key of a dimension are
  arbitrary texts, of any number of words; every other part is one word.
* **Words.**  Two keys are the same text exactly when they have the same words (`text_eq_text`).
* **Two tenants.**  `namespaces_disjoint_iff`: two tenants have a key in common exactly when the name of
  one continues that of the other like the key of a dimension does. -/

namespace MiniSiem

inductive Dimension
  | source
  | integration
  | team
deriving DecidableEq

def Dimension.text : Dimension → String
  | source => "source"
  | integration => "integration"
  | team => "team"

inductive UsageCounter
  | bytes
  | logs
  | sampled
  | dropped
deriving DecidableEq

def UsageCounter.text : UsageCounter → String
  | bytes => "bytes"
  | logs => "logs"
  | sampled => "sampled"
  | dropped => "dropped"

inductive StatsCounter
  | totalLogs
  | totalAlerts
  | activeAlerts
  | criticalAlerts
deriving DecidableEq

def StatsCounter.text : StatsCounter → String
  | totalLogs => "total_logs"
  | totalAlerts => "total_alerts"
  | activeAlerts => "active_alerts"
  | criticalAlerts => "critical_alerts"

/-- What the handlers limit by a quota. -/
inductive QuotaResource
  | apiRequests
  | ruleMutations
  | auditQueries
  | ingestEvents
  | wsConnections
deriving DecidableEq

def QuotaResource.text : QuotaResource → String
  | apiRequests => "api_requests"
  | ruleMutations => "rule_mutations"
  | auditQueries => "audit_queries"
  | ingestEvents => "ingest_events"
  | wsConnections => "ws_connections"

def quotaKey (tenantId : String) (resource : QuotaResource) : String :=
  "siem:tenant:" ++ tenantId ++ ":quota:" ++ resource.text

def statsKey (tenantId : String) (counter : StatsCounter) : String :=
  "siem:tenant:" ++ tenantId ++ ":stats:" ++ counter.text

/-- The usage of the tenant on a day. -/
def usageKey (tenantId : String) (now : DateTime) : UsageCounter → String
  | .bytes => usageBytesKey tenantId now
  | .logs => usageLogsKey tenantId now
  | .sampled => usageSampledKey tenantId now
  | .dropped => usageDroppedKey tenantId now

/-- The usage of a key of a dimension on a day. -/
def dimensionKey (tenantId : String) (now : DateTime) (dimension : Dimension) (key : String) :
    UsageCounter → String
  | .bytes => dimensionBytesKey tenantId now dimension.text key
  | .logs => dimensionLogsKey tenantId now dimension.text key
  | .sampled => dimensionSampledKey tenantId now dimension.text key
  | .dropped => dimensionDroppedKey tenantId now dimension.text key

inductive TenantKey
  | policy
  | usage (now : DateTime) (counter : UsageCounter)
  | rank (now : DateTime) (d : Dimension)
  | dimension (now : DateTime) (d : Dimension) (key : String) (counter : UsageCounter)
  | quota (resource : QuotaResource)
  | stats (counter : StatsCounter)

namespace TenantKey

def text (tenantId : String) : TenantKey → String
  | policy => policyCacheKey tenantId
  | usage now counter => usageKey tenantId now counter
  | rank now d => rankKey tenantId now d.text
  | dimension now d key counter => dimensionKey tenantId now d key counter
  | quota resource => quotaKey tenantId resource
  | stats counter => statsKey tenantId counter

/-- What follows the tenant. -/
def suffix : TenantKey → String
  | policy => "cost" ++ ":" ++ "policy"
  | usage now counter => "cost" ++ ":" ++ (todayBucket now ++ ":" ++ counter.text)
  | rank now d => "cost" ++ ":" ++ (todayBucket now ++ ":" ++ (d.text ++ ":" ++ "rank"))
  | dimension now d key counter =>
      "cost" ++ ":" ++ (todayBucket now ++ ":" ++ (d.text ++ ":" ++ (key ++ ":" ++ counter.text)))
  | quota resource => "quota" ++ ":" ++ resource.text
  | stats counter => "stats" ++ ":" ++ counter.text

end TenantKey

/-- No key of one tenant is a key of the other. -/
def NamespacesDisjoint (tenantId tenantId' : String) : Prop :=
  ∀ key key' : TenantKey, key.text tenantId ≠ key'.text tenantId'

/-- The name is that of the other tenant, followed like the key of a dimension of its usage. -/
def ContinuesUsage (tenantId tenantId' : String) : Prop :=
  ∃ (now : DateTime) (dimension : Dimension),
    let base := tenantId ++ ":cost:" ++ todayBucket now ++ ":" ++ dimension.text
    tenantId' = base ∨ ∃ key, tenantId' = base ++ ":" ++ key

/-! ### Words -/

/-- The texts between the colons. -/
def words (s : String) : List (List Char) := s.toList.splitOn ':'

theorem words_inj {s t : String} : words s = words t ↔ s = t := by
  unfold words
  rw [Lines.words_inj, String.toList_inj]

theorem words_append (s t : String) : words (s ++ ":" ++ t) = words s ++ words t := by
  unfold words
  rw [String.toList_append, String.toList_append, List.append_assoc]
  exact List.splitOn_append_cons_self s.toList t.toList

theorem words_of_not_mem {s : String} (h : ':' ∉ s.toList) : words s = [s.toList] :=
  List.splitOn_eq_singleton h

theorem mem_pad {width n : ℕ} {c : Char} (h : c ∈ (pad width n).toList) : c.isDigit = true := by
  unfold pad at h
  rw [String.toList_ofList, List.leftpad, List.mem_append, List.mem_replicate] at h
  rcases h with ⟨-, rfl⟩ | h
  · rfl
  · exact Nat.isDigit_of_mem_toDigits (by norm_num) (by norm_num) h

/-- A date consists of digits and hyphens. -/
theorem mem_todayBucket {now : DateTime} {c : Char} (h : c ∈ (todayBucket now).toList) :
    c.isDigit = true ∨ c = '-' := by
  unfold todayBucket at h
  simp only [String.toList_append, List.mem_append] at h
  have hhyphen : ∀ {c : Char}, c ∈ "-".toList → c = '-' := fun hc => List.mem_singleton.mp hc
  rcases h with (((h | h) | h) | h) | h
  · split_ifs at h
    · rw [String.toList_append, List.mem_append] at h
      exact h.symm.imp mem_pad hhyphen
    · exact Or.inl (mem_pad h)
  · exact Or.inr (hhyphen h)
  · exact Or.inl (mem_pad h)
  · exact Or.inr (hhyphen h)
  · exact Or.inl (mem_pad h)

theorem words_todayBucket (now : DateTime) : words (todayBucket now) = [(todayBucket now).toList] := by
  refine words_of_not_mem fun h => ?_
  rcases mem_todayBucket h with hdigit | hhyphen
  · cases hdigit
  · cases hhyphen

/-- The words behind the tenant. -/
def TenantKey.tail : TenantKey → List (List Char)
  | policy => ["cost".toList, "policy".toList]
  | usage now counter => ["cost".toList, (todayBucket now).toList, counter.text.toList]
  | rank now d => ["cost".toList, (todayBucket now).toList, d.text.toList, "rank".toList]
  | dimension now d key counter =>
      ["cost".toList, (todayBucket now).toList, d.text.toList] ++ words key ++ [counter.text.toList]
  | quota resource => ["quota".toList, resource.text.toList]
  | stats counter => ["stats".toList, counter.text.toList]

theorem Dimension.words_text (d : Dimension) : words d.text = [d.text.toList] := by
  cases d <;> decide

theorem UsageCounter.words_text (counter : UsageCounter) :
    words counter.text = [counter.text.toList] := by
  cases counter <;> decide

namespace TenantKey

theorem text_eq (tenantId : String) (key : TenantKey) :
    key.text tenantId = "siem" ++ ":" ++ ("tenant" ++ ":" ++ (tenantId ++ ":" ++ key.suffix)) := by
  have hprefix : "siem:tenant:" = "siem" ++ ":" ++ ("tenant" ++ ":") := by decide
  have hpolicy : ":cost:policy" = ":" ++ ("cost" ++ ":" ++ "policy") := by decide
  have hcost : ":cost:" = ":" ++ ("cost" ++ ":") := by decide
  have hquota : ":quota:" = ":" ++ ("quota" ++ ":") := by decide
  have hstats : ":stats:" = ":" ++ ("stats" ++ ":") := by decide
  cases key with
  | policy =>
      simp only [text, suffix, policyCacheKey, hprefix, hpolicy, String.append_assoc]
  | usage now counter =>
      cases counter <;>
        simp only [text, suffix, usageKey, usageBytesKey, usageLogsKey, usageSampledKey,
          usageDroppedKey, costKey, costUsagePrefix, UsageCounter.text, hprefix, hcost,
          String.append_assoc]
  | rank now d =>
      have hrank : ":rank" = ":" ++ "rank" := by decide
      simp only [text, suffix, rankKey, costKey, costUsagePrefix, hprefix, hcost, hrank,
        String.append_assoc]
  | dimension now d key counter =>
      have hbytes : ":bytes" = ":" ++ "bytes" := by decide
      have hlogs : ":logs" = ":" ++ "logs" := by decide
      have hsampled : ":sampled" = ":" ++ "sampled" := by decide
      have hdropped : ":dropped" = ":" ++ "dropped" := by decide
      cases counter <;>
        simp only [text, suffix, dimensionKey, dimensionBytesKey, dimensionLogsKey,
          dimensionSampledKey, dimensionDroppedKey, costKey, costUsagePrefix, UsageCounter.text,
          hprefix, hcost, hbytes, hlogs, hsampled, hdropped, String.append_assoc]
  | quota resource =>
      simp only [text, suffix, quotaKey, hprefix, hquota, String.append_assoc]
  | stats counter =>
      simp only [text, suffix, statsKey, hprefix, hstats, String.append_assoc]

theorem words_suffix (key : TenantKey) : words key.suffix = key.tail := by
  have hcost : words "cost" = ["cost".toList] := by decide
  cases key with
  | policy => decide
  | usage now counter =>
      simp only [suffix, tail, words_append, hcost, words_todayBucket, counter.words_text]
      rfl
  | rank now d =>
      have hrank : words "rank" = ["rank".toList] := by decide
      simp only [suffix, tail, words_append, hcost, hrank, words_todayBucket, d.words_text]
      rfl
  | dimension now d key counter =>
      simp only [suffix, tail, words_append, hcost, words_todayBucket, d.words_text,
        counter.words_text]
      rfl
  | quota resource => cases resource <;> decide
  | stats counter => cases counter <;> decide

theorem words_text (tenantId : String) (key : TenantKey) :
    words (key.text tenantId) = ["siem".toList, "tenant".toList] ++ words tenantId ++ key.tail := by
  have hsiem : words "siem" = ["siem".toList] := by decide
  have htenant : words "tenant" = ["tenant".toList] := by decide
  rw [text_eq, words_append, words_append, words_append, words_suffix, hsiem, htenant]
  rfl

/-- Keys are equal when the words behind the prefix are. -/
theorem text_eq_text {tenantId tenantId' : String} {key key' : TenantKey} :
    key.text tenantId = key'.text tenantId' ↔
      words tenantId ++ key.tail = words tenantId' ++ key'.tail := by
  rw [← words_inj, words_text, words_text, List.append_assoc, List.append_assoc,
    List.append_right_inj]

end TenantKey

/-! ### Where one tail continues in another -/

/-- The first words behind a tenant. -/
def areas : List (List Char) := ["cost".toList, "quota".toList, "stats".toList]

theorem todayBucket_notMem_areas (now : DateTime) : (todayBucket now).toList ∉ areas := by
  intro h
  have hletter : ∃ c ∈ (todayBucket now).toList, c = 'o' ∨ c = 's' := by
    generalize (todayBucket now).toList = date at h ⊢
    simp only [areas, List.mem_cons, List.not_mem_nil, or_false] at h
    rcases h with rfl | rfl | rfl
    · exact ⟨'o', by decide, Or.inl rfl⟩
    · exact ⟨'o', by decide, Or.inl rfl⟩
    · exact ⟨'s', by decide, Or.inr rfl⟩
  obtain ⟨c, hc, rfl | rfl⟩ := hletter
  · rcases mem_todayBucket hc with hdigit | hhyphen
    · cases hdigit
    · cases hhyphen
  · rcases mem_todayBucket hc with hdigit | hhyphen
    · cases hdigit
    · cases hhyphen

theorem Dimension.text_notMem_areas (d : Dimension) : d.text.toList ∉ areas := by
  cases d <;> decide

namespace TenantKey

theorem tail_eq_cons (key : TenantKey) : ∃ w rest, key.tail = w :: rest ∧ w ∈ areas ∧ rest ≠ [] := by
  cases key with
  | policy => exact ⟨_, _, rfl, by decide, by decide⟩
  | quota resource => exact ⟨_, _, rfl, by decide, List.cons_ne_nil _ _⟩
  | stats counter => exact ⟨_, _, rfl, by decide, List.cons_ne_nil _ _⟩
  | _ => exact ⟨_, _, rfl, by decide, List.cons_ne_nil _ _⟩

/-- What a tail has before another one reaches into the key of a dimension. -/
theorem tail_continues {key key' : TenantKey} {ws : List (List Char)} (hne : ws ≠ [])
    (h : key.tail = ws ++ key'.tail) :
    ∃ (now : DateTime) (d : Dimension) (rest : List (List Char)), (∀ w ∈ rest, ':' ∉ w) ∧
      ws = ["cost".toList, (todayBucket now).toList, d.text.toList] ++ rest := by
  obtain ⟨w, tail, htail, harea, hlong⟩ := key'.tail_eq_cons
  have hlength := congrArg List.length h
  have hpos := List.length_pos_iff.mpr hne
  have htailpos := List.length_pos_iff.mpr hlong
  rw [htail] at h hlength
  rw [List.length_append, List.length_cons] at hlength
  -- the first word of the other tail is neither the date nor the dimension
  have hdate : ∀ now x, ws = [x] → key.tail.tail.head? = some (todayBucket now).toList → False := by
    rintro now x rfl hhead
    rw [h] at hhead
    exact todayBucket_notMem_areas now (Option.some.inj hhead ▸ harea)
  cases key with
  | policy =>
      rw [show (policy.tail).length = 2 from rfl] at hlength
      omega
  | quota resource =>
      rw [show (quota resource).tail.length = 2 from rfl] at hlength
      omega
  | stats counter =>
      rw [show (stats counter).tail.length = 2 from rfl] at hlength
      omega
  | usage now counter =>
      rw [show (usage now counter).tail.length = 3 from rfl] at hlength
      obtain ⟨x, rfl⟩ := List.length_eq_one_iff.mp (show ws.length = 1 by omega)
      exact (hdate now x rfl rfl).elim
  | rank now d =>
      rw [show (rank now d).tail.length = 4 from rfl] at hlength
      match ws, hpos with
      | [x], _ => exact (hdate now x rfl rfl).elim
      | [x, y], _ =>
          have hword : d.text.toList = w := (List.cons.inj (List.cons.inj (List.cons.inj h).2).2).1
          exact (d.text_notMem_areas (hword ▸ harea)).elim
      | x :: y :: z :: rest, _ =>
          simp only [List.length_cons] at hlength
          omega
  | dimension now d key counter =>
      match ws, hpos with
      | [x], _ => exact (hdate now x rfl rfl).elim
      | [x, y], _ =>
          have hword : d.text.toList = w := (List.cons.inj (List.cons.inj (List.cons.inj h).2).2).1
          exact (d.text_notMem_areas (hword ▸ harea)).elim
      | x :: y :: z :: rest, _ =>
          obtain ⟨hcost, hafterCost⟩ := List.cons.inj h
          obtain ⟨hday, hafterDay⟩ := List.cons.inj hafterCost
          obtain ⟨hdimension, hkey⟩ := List.cons.inj hafterDay
          refine ⟨now, d, rest, fun v hv => ?_, by rw [← hcost, ← hday, ← hdimension]; rfl⟩
          have hmem : v ∈ words key ++ [counter.text.toList] := by
            rw [show words key ++ [counter.text.toList] = rest ++ w :: tail from hkey]
            exact List.mem_append_left _ hv
          rcases List.mem_append.mp hmem with hmem | hmem
          · exact Lines.not_mem_of_mem_words hmem
          · rw [← counter.words_text] at hmem
            exact Lines.not_mem_of_mem_words hmem

end TenantKey

theorem words_dimension (tenantId : String) (now : DateTime) (d : Dimension) :
    words (tenantId ++ ":cost:" ++ todayBucket now ++ ":" ++ d.text) =
      words tenantId ++ ["cost".toList, (todayBucket now).toList, d.text.toList] := by
  have hcost : ":cost:" = ":" ++ ("cost" ++ ":") := by decide
  have hword : words "cost" = ["cost".toList] := by decide
  have hjoin : tenantId ++ ":cost:" ++ todayBucket now ++ ":" ++ d.text =
      tenantId ++ ":" ++ ("cost" ++ ":" ++ (todayBucket now ++ ":" ++ d.text)) := by
    simp only [hcost, String.append_assoc]
  rw [hjoin, words_append, words_append, words_append, hword, words_todayBucket, d.words_text]
  rfl

/-- A name whose words continue another one like the key of a dimension. -/
theorem continuesUsage_iff {tenantId tenantId' : String} :
    ContinuesUsage tenantId tenantId' ↔
      ∃ (now : DateTime) (d : Dimension) (rest : List (List Char)), (∀ w ∈ rest, ':' ∉ w) ∧
        words tenantId' = words tenantId ++
          (["cost".toList, (todayBucket now).toList, d.text.toList] ++ rest) := by
  constructor
  · rintro ⟨now, d, rfl | ⟨key, rfl⟩⟩
    · refine ⟨now, d, [], fun w hw => (List.not_mem_nil hw).elim, ?_⟩
      rw [words_dimension, List.append_nil]
    · refine ⟨now, d, words key, fun w hw => Lines.not_mem_of_mem_words hw, ?_⟩
      rw [words_append, words_dimension, List.append_assoc]
  · rintro ⟨now, d, rest, hrest, hwords⟩
    refine ⟨now, d, ?_⟩
    by_cases hnil : rest = []
    · left
      rw [hnil, List.append_nil, ← words_dimension] at hwords
      exact words_inj.mp hwords
    · right
      obtain ⟨key, hkey⟩ := Lines.exists_of_words hnil hrest
      refine ⟨String.ofList key, words_inj.mp ?_⟩
      have hkey' : words (String.ofList key) = rest := by
        unfold words
        rw [String.toList_ofList]
        exact hkey
      rw [words_append, words_dimension, hkey', hwords, List.append_assoc]

/-- A name that continues another one gives them a common key. -/
theorem ContinuesUsage.alias {tenantId tenantId' : String} (h : ContinuesUsage tenantId tenantId') :
    ∃ key key' : TenantKey, key.text tenantId = key'.text tenantId' := by
  obtain ⟨now, d, rest, hrest, hwords⟩ := continuesUsage_iff.mp h
  -- the usage of the second tenant lies in the usage of a key of the first
  have hne : rest ++ ["cost".toList, (todayBucket now).toList] ≠ [] :=
    List.append_ne_nil_of_right_ne_nil rest (List.cons_ne_nil _ _)
  obtain ⟨key, hkey⟩ := Lines.exists_of_words hne fun w hw => by
    rcases List.mem_append.mp hw with hw | hw
    · exact hrest w hw
    · rcases List.mem_cons.mp hw with rfl | hw
      · decide
      · rw [← words_todayBucket] at hw
        exact Lines.not_mem_of_mem_words hw
  have hkey' : words (String.ofList key) = rest ++ ["cost".toList, (todayBucket now).toList] := by
    unfold words
    rw [String.toList_ofList, hkey]
  refine ⟨.dimension now d (String.ofList key) .bytes, .usage now .bytes, ?_⟩
  rw [TenantKey.text_eq_text, hwords]
  simp only [TenantKey.tail, hkey', List.append_assoc, List.cons_append, List.nil_append]

/-- **When two tenants share no key**: exactly when neither name continues the other like the key of a
dimension. -/
theorem namespaces_disjoint_iff (tenantId tenantId' : String) :
    (tenantId ≠ tenantId' → NamespacesDisjoint tenantId tenantId') ↔
      ¬ ContinuesUsage tenantId tenantId' ∧ ¬ ContinuesUsage tenantId' tenantId := by
  have hne : ∀ {s t : String}, ContinuesUsage s t → s ≠ t := by
    rintro s t hst rfl
    obtain ⟨now, d, rest, -, hwords⟩ := continuesUsage_iff.mp hst
    have hlength := congrArg List.length hwords
    simp only [List.length_append, List.length_cons] at hlength
    omega
  have hcontinues : ∀ {s t : String} {key key' : TenantKey} {ws : List (List Char)}, s ≠ t →
      words t = words s ++ ws → key.tail = ws ++ key'.tail → ContinuesUsage s t := by
    intro s t key key' ws hst hname htail
    have hws : ws ≠ [] := by
      rintro rfl
      rw [List.append_nil] at hname
      exact hst (words_inj.mp hname.symm)
    obtain ⟨now, d, rest, hrest, rfl⟩ := TenantKey.tail_continues hws htail
    exact continuesUsage_iff.mpr ⟨now, d, rest, hrest, hname⟩
  constructor
  · intro hdisjoint
    constructor
    · intro h
      obtain ⟨key, key', heq⟩ := h.alias
      exact hdisjoint (hne h) key key' heq
    · intro h
      obtain ⟨key, key', heq⟩ := h.alias
      exact hdisjoint (hne h).symm key' key heq.symm
  · rintro ⟨hforward, hbackward⟩ hdiffer key key' heq
    rw [TenantKey.text_eq_text] at heq
    rcases List.append_eq_append_iff.mp heq with ⟨ws, hname, htail⟩ | ⟨ws, hname, htail⟩
    · exact hforward (hcontinues hdiffer hname htail)
    · exact hbackward (hcontinues hdiffer.symm hname htail)

/-- A tenant whose name lies in the usage of `acme` by the source `x`. -/
theorem crookedName_not_disjoint :
    ¬ ∀ tenantId tenantId' : String, tenantId ≠ "" → tenantId' ≠ "" → tenantId ≠ tenantId' →
      NamespacesDisjoint tenantId tenantId' := by
  intro h
  exact h "acme" "acme:cost:1970-01-01:source:x" (by decide) (by decide) (by decide)
    (.dimension (.ofSeconds 0) .source "x:cost:1970-01-01" .bytes) (.usage (.ofSeconds 0) .bytes)
    (by decide +kernel)

end MiniSiem
