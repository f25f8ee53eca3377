import MiniSiem.CaseSweep
import MiniSiem.Handlers
import MiniSiem.Lib.Racing

/-! # Installing detection packs at the same time

`ensure_pack_rules` loads the rules of the tenant, creates those templates of the pack whose names it has
not seen, and loads the rules again.  The unique index on the tenant and the name of a rule lets only one of
several installations create a template; the others end with an error.

* **Requests.**  A `PackRequest` is what `install_detection_pack` passes to `ensure_pack_rules`;
  `installPool` is any number of them, of any tenants and packs.
* **Refinement.**  Each command is a step of racing insertions into the set of rule names, or none
  (`Installing.of_step`).
* **Result.**  When the installations of a pack by a tenant have ended, one of them has succeeded and all the
  templates are there (`packs_installed`). -/

namespace MiniSiem

open Atomic

/-! ### Requests -/

/-- The tenant and the pack of an installation.  A tenant name comes from the table of the users. -/
structure PackRequest where
  tenantId : String
  pack : CuratedPack
  listed : pack ∈ curatedPackList
  stored : nulFree tenantId = true

def PackRequest.prog (r : PackRequest) : BackendProg (Except String (List StoredRule)) :=
  installPackRules r.tenantId r.pack

abbrev InstallPool (ι : Type) := BackendPool ι (Except String (List StoredRule))

/-- Any number of installations, none of them started. -/
def installPool {ι : Type} (requests : ι → PackRequest) (b : Backend) : InstallPool ι where
  progs i := (requests i).prog
  store := b

/-- The command does not fail by itself, and the database generates a new identifier. -/
def Generates {ι : Type} (s : InstallPool ι) (e : ι × Tick) : Prop :=
  e.2.fault = none ∧ e.2.uuid ∉ s.store.data.rules.map (·.id)

instance {ι : Type} (s : InstallPool ι) (e : ι × Tick) : Decidable (Generates s e) :=
  inferInstanceAs (Decidable (_ ∧ _))

/-- The same pack for the same tenant. -/
def PackRequest.SameAs (r r' : PackRequest) : Prop := r.tenantId = r'.tenantId ∧ r.pack.slug = r'.pack.slug

/-! ### Names -/

def PackRequest.key (r : PackRequest) (template : PackRuleTemplate) : String × String :=
  (r.tenantId, template.name)

/-- The keys of the templates in the unique index. -/
def PackRequest.keys (r : PackRequest) : List (String × String) := r.pack.rules.map r.key

/-- The unique index of the rules on tenant and name. -/
def ruleNames (d : TenantData) : Set (String × String) :=
  {k | ∃ rule ∈ d.rules, (rule.tenantId, rule.name) = k}

/-- The keys a tenant takes for present when it sees these rules. -/
def seenNames (tenantId : String) (existing : List StoredRule) : Set (String × String) :=
  {k | ∃ rule ∈ existing, (tenantId, rule.name) = k}

theorem curated_names_nodup : (curatedPackList.flatMap fun p => p.rules.map (·.name)).Nodup := by
  decide +kernel

theorem curated_slugs_nodup : (curatedPackList.map (·.slug)).Nodup := by decide +kernel

theorem curated_storable : (curatedPackList.all fun p => p.rules.all fun template =>
    (template.ruleCreate "").storable) = true := by decide +kernel

/-- Two curated packs with a name in common are one. -/
theorem curated_apart {p q : CuratedPack} (hp : p ∈ curatedPackList) (hq : q ∈ curatedPackList)
    {name : String} (hnp : name ∈ p.rules.map (·.name)) (hnq : name ∈ q.rules.map (·.name)) : p = q := by
  have hpairs := (List.nodup_flatMap.mp curated_names_nodup).2
  have : Std.Symm (Function.onFun List.Disjoint fun p : CuratedPack => p.rules.map (·.name)) :=
    ⟨fun _ _ h => h.symm⟩
  by_contra hne
  exact hpairs.forall hp hq hne hnp hnq

section keys

variable {r r' : PackRequest}

theorem PackRequest.keys_nodup (r : PackRequest) : r.keys.Nodup := by
  have hnames : (r.pack.rules.map (·.name)).Nodup := (List.nodup_flatMap.mp curated_names_nodup).1 _ r.listed
  refine List.Nodup.of_map Prod.snd ?_
  rw [keys, List.map_map]
  exact hnames

theorem PackRequest.keys_eq_of_mem {k : String × String} (h : k ∈ r.keys) (h' : k ∈ r'.keys) :
    r.keys = r'.keys := by
  obtain ⟨template, hin, rfl⟩ := List.mem_map.mp h
  obtain ⟨template', hin', hkey⟩ := List.mem_map.mp h'
  obtain ⟨htenant, hname⟩ := Prod.mk.inj hkey
  have hpack : r.pack = r'.pack := curated_apart r.listed r'.listed
    (List.mem_map_of_mem hin) (hname ▸ List.mem_map_of_mem hin')
  unfold keys key
  rw [hpack, htenant]

/-- Every curated pack has a template. -/
theorem PackRequest.keys_ne_nil (r : PackRequest) : r.keys ≠ [] := by
  have hall : (curatedPackList.all fun p => !p.rules.isEmpty) = true := by decide +kernel
  have hne := List.all_eq_true.mp hall r.pack r.listed
  intro hnil
  rw [List.map_eq_nil_iff.mp hnil] at hne
  exact nomatch hne

theorem PackRequest.SameAs.keys_eq (h : r.SameAs r') : r.keys = r'.keys := by
  have hpack : r.pack = r'.pack :=
    List.inj_on_of_nodup_map curated_slugs_nodup r.listed r'.listed h.2
  unfold keys key
  rw [hpack, h.1]

theorem PackRequest.sameAs_of_keys_eq (h : r.keys = r'.keys) : r.SameAs r' := by
  obtain ⟨k, hk⟩ := List.exists_mem_of_ne_nil _ r.keys_ne_nil
  have hk' : k ∈ r'.keys := h ▸ hk
  obtain ⟨template, hin, rfl⟩ := List.mem_map.mp hk
  obtain ⟨template', hin', hkey⟩ := List.mem_map.mp hk'
  obtain ⟨htenant, hname⟩ := Prod.mk.inj hkey
  have hpack : r.pack = r'.pack := curated_apart r.listed r'.listed
    (List.mem_map_of_mem hin) (hname ▸ List.mem_map_of_mem hin')
  exact ⟨htenant.symm, by rw [hpack]⟩

/-- What is bound for a template can be stored. -/
theorem PackRequest.storable (r : PackRequest) {template : PackRuleTemplate} (h : template ∈ r.pack.rules) :
    (template.ruleCreate r.tenantId).storable = true := by
  have hall := List.all_eq_true.mp (List.all_eq_true.mp curated_storable r.pack r.listed) template h
  have htenant := r.stored
  simp only [RuleCreate.storable, PackRuleTemplate.ruleCreate, List.cons_append, List.all_cons,
    Bool.and_eq_true] at hall ⊢
  exact ⟨⟨htenant, hall.1.2⟩, hall.2⟩

end keys

/-! ### The statements -/

section statements

variable {d : TenantData} {now : DateTime} {id : Uuid} {rule : RuleCreate}

/-- With a new identifier only the name of the rule can be refused. -/
theorem createRule_cases (hstorable : rule.storable = true) (hid : id ∉ d.rules.map (·.id)) :
    ((rule.tenantId, rule.name) ∈ ruleNames d ∧ d.createRule now id rule = .error duplicateKey) ∨
      ((rule.tenantId, rule.name) ∉ ruleNames d ∧
        ∃ d', d.createRule now id rule = .ok (rule.storedRow now id, d') ∧
          d'.rules = d.rules ++ [rule.storedRow now id]) := by
  have hids : ((d.rules ++ [rule.storedRow now id]).map (·.id)).Nodup := by
    rw [List.map_append, List.nodup_append]
    refine ⟨d.rules_id, by simp, ?_⟩
    rintro x hx y hy rfl
    obtain rfl : x = id := List.mem_singleton.mp hy
    exact hid hx
  by_cases hname : (rule.tenantId, rule.name) ∈ ruleNames d
  · left
    refine ⟨hname, ?_⟩
    have hdup : ¬ ((d.rules ++ [rule.storedRow now id]).map fun r => (r.tenantId, r.name)).Nodup := by
      obtain ⟨row, hrow, hkey⟩ := hname
      rw [List.map_append, List.nodup_append]
      rintro ⟨-, -, hne⟩
      exact hne _ (List.mem_map_of_mem hrow) _ (List.mem_singleton.mpr rfl) hkey
    exact (if_neg (by simp [hstorable])).trans (dif_neg fun h => hdup h.2)
  · right
    have hnames : ((d.rules ++ [rule.storedRow now id]).map fun r => (r.tenantId, r.name)).Nodup := by
      rw [List.map_append, List.nodup_append]
      refine ⟨d.rules_name, by simp, ?_⟩
      rintro x hx y hy rfl
      obtain ⟨row, hrow, hkey⟩ := List.mem_map.mp hx
      refine hname ⟨row, hrow, ?_⟩
      rw [hkey, List.mem_singleton.mp hy]
      rfl
    refine ⟨hname, _, (if_neg (by simp [hstorable])).trans (dif_pos ⟨hids, hnames⟩), rfl⟩

theorem mem_getAllRules {tenantId : String} {row : StoredRule} :
    row ∈ d.getAllRules tenantId ↔ row ∈ d.rules ∧ (tenantId = "" ∨ row.tenantId = tenantId) := by
  unfold TenantData.getAllRules
  split
  · rename_i hempty
    simp [hempty]
  · rename_i hne
    simp [hne]

/-- A rule of the tenant is seen by it. -/
theorem seen_of_ruleNames {tenantId name : String} (h : (tenantId, name) ∈ ruleNames d) :
    (tenantId, name) ∈ seenNames tenantId (d.getAllRules tenantId) := by
  obtain ⟨row, hrow, hkey⟩ := h
  obtain ⟨htenant, rfl⟩ := Prod.mk.inj hkey
  exact ⟨row, mem_getAllRules.mpr ⟨hrow, Or.inr htenant⟩, rfl⟩

end statements

/-! ### Where an installation is -/

/-- The end of `ensure_pack_rules`, after its loop. -/
def refreshPackRules (tenantId : String) : Except String Unit → BackendProg (Except String (List StoredRule))
  | .error message => .ret (.error message)
  | .ok () => .call (.data (.getAllRules tenantId)) fun
    | .error e => .ret (.error ("failed to refresh rules: " ++ e))
    | .ok rules => .ret (.ok rules)

theorem installPackRules_eq (tenantId : String) (pack : CuratedPack) :
    installPackRules tenantId pack = .call (.data (.getAllRules tenantId)) fun r =>
      match r with
      | .error e => .ret (.error ("failed to load rules: " ++ e))
      | .ok existing => (createPackRules tenantId existing pack.rules).bind (refreshPackRules tenantId) :=
  rfl

/-- The loop after the reply to the creation of a template. -/
def createdRule (tenantId : String) (existing : List StoredRule) (template : PackRuleTemplate)
    (tail : List PackRuleTemplate) : Except String StoredRule → BackendProg (Except String Unit)
  | .error e => .ret (.error ("failed to install pack rule '" ++ template.name ++ "': " ++ e))
  | .ok _ => createPackRules tenantId existing tail

/-- The loop passes over the templates whose name it has seen. -/
theorem createPackRules_cases (tenantId : String) (existing : List StoredRule) (r : PackRequest)
    (htenant : r.tenantId = tenantId) (rest : List PackRuleTemplate) :
    ((∀ k ∈ rest.map r.key, k ∈ seenNames tenantId existing) ∧
        createPackRules tenantId existing rest = .ret (.ok ())) ∨
      ∃ passed template tail, rest = passed ++ template :: tail ∧
        (∀ k ∈ passed.map r.key, k ∈ seenNames tenantId existing) ∧
        r.key template ∉ seenNames tenantId existing ∧
        createPackRules tenantId existing rest =
          .call (.data (.createRule (template.ruleCreate tenantId)))
            (createdRule tenantId existing template tail) := by
  subst htenant
  induction rest with
  | nil => exact Or.inl ⟨by simp, rfl⟩
  | cons template tail ih =>
      by_cases hseen : (existing.any fun rule => rule.name == template.name) = true
      · have hkey : r.key template ∈ seenNames r.tenantId existing := by
          obtain ⟨rule, hrule, hname⟩ := List.any_eq_true.mp hseen
          exact ⟨rule, hrule, congrArg (Prod.mk r.tenantId) (by simpa using hname)⟩
        have hskip : createPackRules r.tenantId existing (template :: tail) =
            createPackRules r.tenantId existing tail := by
          rw [createPackRules, if_pos hseen]
        rcases ih with ⟨hall, hret⟩ | ⟨passed, next, tail', hrest, hpassed, hnext, hcall⟩
        · left
          refine ⟨?_, hskip.trans hret⟩
          simpa [hkey] using hall
        · right
          refine ⟨template :: passed, next, tail', by rw [hrest]; rfl, ?_, hnext, hskip.trans hcall⟩
          simpa [hkey] using hpassed
      · right
        refine ⟨[], template, tail, rfl, by simp, ?_, ?_⟩
        · rintro ⟨rule, hrule, hkey⟩
          exact hseen (List.any_eq_true.mpr ⟨rule, hrule, by simpa using (Prod.mk.inj hkey).2⟩)
        · rw [createPackRules, if_neg hseen]
          congr 1
          funext reply
          cases reply <;> rfl

/-- Where the installation is, as a process that inserts its keys. -/
inductive InstallAt (r : PackRequest) :
    Racing.Phase (String × String) → BackendProg (Except String (List StoredRule)) → Prop
  | waiting : InstallAt r .waiting r.prog
  | creating (existing : List StoredRule) (rest : List PackRuleTemplate) (hrest : rest <:+ r.pack.rules) :
      InstallAt r (.adding (seenNames r.tenantId existing) (rest.map r.key))
        ((createPackRules r.tenantId existing rest).bind (refreshPackRules r.tenantId))
  | installed (seen : Set (String × String)) (rest : List (String × String)) (rules : List StoredRule)
      (hrest : ∀ k ∈ rest, k ∈ seen) (hrules : ∀ k ∈ r.keys, k ∈ seenNames r.tenantId rules) :
      InstallAt r (.adding seen rest) (.ret (.ok rules))
  | refused (seen : Set (String × String)) (rest : List (String × String)) (message : String) :
      InstallAt r (.blocked seen rest) (.ret (.error message))

/-- An installation that has ended. -/
theorem InstallAt.ended {r : PackRequest} {phase : Racing.Phase (String × String)}
    {p : BackendProg (Except String (List StoredRule))} (h : InstallAt r phase p) (hp : p.next = none) :
    (∃ seen rest rules, phase = .adding seen rest ∧ p = .ret (.ok rules) ∧ (∀ k ∈ rest, k ∈ seen) ∧
        ∀ k ∈ r.keys, k ∈ seenNames r.tenantId rules) ∨
      ∃ seen rest message, phase = .blocked seen rest ∧ p = .ret (.error message) := by
  cases h with
  | waiting => exact nomatch hp
  | creating existing rest hsuffix =>
      rcases createPackRules_cases r.tenantId existing r rfl rest with
        ⟨-, hret⟩ | ⟨_, _, _, -, -, -, hcall⟩
      · rw [hret] at hp
        exact nomatch hp
      · rw [hcall] at hp
        exact nomatch hp
  | installed seen rest rules hrest hrules => exact Or.inl ⟨seen, rest, rules, rfl, rfl, hrest, hrules⟩
  | refused seen rest message => exact Or.inr ⟨seen, rest, message, rfl, rfl⟩

/-- The installations as racing insertions. -/
structure Installing {ι : Type} (requests : ι → PackRequest) (b : Backend) (s : InstallPool ι)
    (a : Racing.State ι (String × String)) : Prop where
  shape : ∀ i, InstallAt (requests i) (a.phase i) (s.progs i)
  names : a.present = ruleNames s.store.data
  fair : Racing.Fair (fun i => (requests i).keys) (ruleNames b.data) a
  visible : ∀ i v, (a.phase i).view = some v →
    ∀ k ∈ v.1, k ∈ seenNames (requests i).tenantId (s.store.data.getAllRules (requests i).tenantId)

section steps

variable {ι : Type} [DecidableEq ι] {requests : ι → PackRequest} {b : Backend} {s : InstallPool ι}
  {a : Racing.State ι (String × String)} {e : ι × Tick}

/-- Names that a tenant sees remain to be seen while no rule is removed. -/
theorem seenNames_mono {tenantId : String} {d d' : TenantData} (h : d.rules ⊆ d'.rules) :
    seenNames tenantId (d.getAllRules tenantId) ⊆ seenNames tenantId (d'.getAllRules tenantId) := by
  rintro k ⟨rule, hrule, hkey⟩
  obtain ⟨hin, htenant⟩ := mem_getAllRules.mp hrule
  exact ⟨rule, mem_getAllRules.mpr ⟨h hin, htenant⟩, hkey⟩

/-- One installation moves on, and the rules grow. -/
theorem Installing.move (h : Installing requests b s a) {i : ι}
    {p : BackendProg (Except String (List StoredRule))} {b' : Backend} {a' : Racing.State ι (String × String)}
    (hothers : ∀ j, j ≠ i → a'.phase j = a.phase j) (hself : InstallAt (requests i) (a'.phase i) p)
    (hnames : a'.present = ruleNames b'.data)
    (hfair : Racing.Fair (fun i => (requests i).keys) (ruleNames b.data) a')
    (hgrow : s.store.data.rules ⊆ b'.data.rules)
    (hvisible : ∀ v, (a'.phase i).view = some v →
      ∀ k ∈ v.1, k ∈ seenNames (requests i).tenantId (b'.data.getAllRules (requests i).tenantId)) :
    Installing requests b ⟨Function.update s.progs i p, b'⟩ a' where
  shape j := by
    by_cases hj : j = i
    · subst hj
      simpa using hself
    · rw [hothers j hj]
      simpa [hj] using h.shape j
  names := hnames
  fair := hfair
  visible j v hv k hk := by
    by_cases hj : j = i
    · subst hj
      exact hvisible v hv k hk
    · rw [hothers j hj] at hv
      exact seenNames_mono hgrow (h.visible j v hv k hk)

/-- A command that changes no rule, after which the installation is in the same phase. -/
theorem Installing.stay (h : Installing requests b s a) {i : ι}
    {p : BackendProg (Except String (List StoredRule))} {b' : Backend} (hdata : b'.data = s.store.data)
    (hself : InstallAt (requests i) (a.phase i) p) :
    Installing requests b ⟨Function.update s.progs i p, b'⟩ a := by
  refine h.move (fun _ _ => rfl) hself (by rw [hdata]; exact h.names) h.fair
    (by rw [hdata]; exact List.Subset.refl _) fun v hv k hk => ?_
  rw [hdata]
  exact h.visible i v hv k hk

/-- The rules a command of the tables is answered with when it does not fail by itself. -/
theorem execBackend_getAllRules {tick : Tick} (hfault : tick.fault = none) (tenantId : String) (b : Backend) :
    execBackend tick (.data (.getAllRules tenantId)) b =
      (.ok (b.data.getAllRules tenantId), ⟨b.db.atTime tick.clock, b.data⟩) := by
  simp only [execBackend, hfault, DataCmd.run]

theorem execBackend_createRule {tick : Tick} (hfault : tick.fault = none) (rule : RuleCreate) (b : Backend) :
    execBackend tick (.data (.createRule rule)) b =
      match b.data.createRule tick.clock tick.uuid rule with
      | .error e => (.error e, { b with db := b.db.atTime tick.clock })
      | .ok (row, data) => (.ok row, ⟨b.db.atTime tick.clock, data⟩) := by
  simp only [execBackend, hfault, DataCmd.run]
  cases b.data.createRule tick.clock tick.uuid rule <;> rfl

theorem Installing.of_waiting (h : Installing requests b s a) (hok : Generates s e)
    (hphase : a.phase e.1 = .waiting) (hprog : s.progs e.1 = (requests e.1).prog) :
    ∃ a', Installing requests b (Pool.step execBackend s e) a' := by
  let existing := s.store.data.getAllRules (requests e.1).tenantId
  let a' := a.enter e.1 (.adding (seenNames (requests e.1).tenantId existing) (requests e.1).keys)
  have hstep : Racing.Step (fun i => (requests i).keys) a a' := by
    refine .start e.1 _ hphase fun k hk hin => ?_
    obtain ⟨template, -, rfl⟩ := List.mem_map.mp hk
    rw [h.names] at hin
    exact seen_of_ruleNames hin
  refine ⟨a', ?_⟩
  have hexec : Pool.step execBackend s e = ⟨Function.update s.progs e.1
      ((createPackRules (requests e.1).tenantId existing (requests e.1).pack.rules).bind
        (refreshPackRules (requests e.1).tenantId)), ⟨s.store.db.atTime e.2.clock, s.store.data⟩⟩ := by
    unfold Pool.step
    rw [hprog, PackRequest.prog, installPackRules_eq]
    simp only [Prog.step, execBackend_getAllRules hok.1]
    rfl
  rw [hexec]
  have hself : a'.phase e.1 = .adding (seenNames (requests e.1).tenantId existing) (requests e.1).keys :=
    Function.update_self _ _ _
  refine h.move (fun j hj => Function.update_of_ne hj _ _) ?_ h.names (h.fair.of_step hstep)
    (List.Subset.refl _) ?_
  · rw [hself]
    exact .creating existing _ List.suffix_rfl
  · rw [hself]
    rintro v hv k hk
    obtain rfl := Option.some.inj hv
    exact hk

/-- All templates were created or seen. -/
theorem Installing.of_refreshing (h : Installing requests b s a) (hok : Generates s e)
    {existing : List StoredRule} {rest : List PackRuleTemplate}
    (hphase : a.phase e.1 =
      .adding (seenNames (requests e.1).tenantId existing) (rest.map (requests e.1).key))
    (hseen : ∀ k ∈ rest.map (requests e.1).key, k ∈ seenNames (requests e.1).tenantId existing)
    (hprog : s.progs e.1 = refreshPackRules (requests e.1).tenantId (.ok ())) :
    Installing requests b (Pool.step execBackend s e) a := by
  let rules := s.store.data.getAllRules (requests e.1).tenantId
  have hexec : Pool.step execBackend s e = ⟨Function.update s.progs e.1 (.ret (.ok rules)),
      ⟨s.store.db.atTime e.2.clock, s.store.data⟩⟩ := by
    unfold Pool.step
    rw [hprog]
    simp only [refreshPackRules, Prog.step, execBackend_getAllRules hok.1]
    rfl
  rw [hexec]
  refine h.stay rfl ?_
  rw [hphase]
  refine .installed _ _ _ hseen fun k hk => ?_
  rcases h.fair.present_of_done hphase hseen k hk with hin | hin
  · exact h.visible e.1 _ (by rw [hphase]; rfl) k hin
  · obtain ⟨template, -, rfl⟩ := List.mem_map.mp hk
    rw [h.names] at hin
    exact seen_of_ruleNames hin

/-- The next template is created, or refused. -/
theorem Installing.of_creating (h : Installing requests b s a) (hok : Generates s e)
    {existing : List StoredRule} {rest passed tail : List PackRuleTemplate} {template : PackRuleTemplate}
    (hphase : a.phase e.1 =
      .adding (seenNames (requests e.1).tenantId existing) (rest.map (requests e.1).key))
    (hsuffix : rest <:+ (requests e.1).pack.rules) (hrest : rest = passed ++ template :: tail)
    (hpassed : ∀ k ∈ passed.map (requests e.1).key, k ∈ seenNames (requests e.1).tenantId existing)
    (hnew : (requests e.1).key template ∉ seenNames (requests e.1).tenantId existing)
    (hprog : s.progs e.1 = (Prog.call (.data (.createRule (template.ruleCreate (requests e.1).tenantId)))
      (createdRule (requests e.1).tenantId existing template tail)).bind
        (refreshPackRules (requests e.1).tenantId)) :
    ∃ a', Installing requests b (Pool.step execBackend s e) a' := by
  have htail : tail <:+ (requests e.1).pack.rules :=
    ((List.suffix_cons template tail).trans ⟨passed, hrest.symm⟩).trans hsuffix
  have hlisted : template ∈ (requests e.1).pack.rules := hsuffix.subset (by rw [hrest]; simp)
  have hphase' : a.phase e.1 = .adding (seenNames (requests e.1).tenantId existing)
      (passed.map (requests e.1).key ++ (requests e.1).key template :: tail.map (requests e.1).key) := by
    rw [hphase, hrest]
    simp
  have hview : ∀ k ∈ seenNames (requests e.1).tenantId existing,
      k ∈ seenNames (requests e.1).tenantId (s.store.data.getAllRules (requests e.1).tenantId) :=
    h.visible e.1 _ (by rw [hphase]; rfl)
  have hcases := @createRule_cases s.store.data e.2.clock e.2.uuid _ ((requests e.1).storable hlisted) hok.2
  rcases hcases with ⟨htaken, hcreate⟩ | ⟨hfree, data, hcreate, hrules⟩
  · refine ⟨a.enter e.1 (.blocked (seenNames (requests e.1).tenantId existing)
      ((requests e.1).key template :: tail.map (requests e.1).key)), ?_⟩
    have hexec : Pool.step execBackend s e = ⟨Function.update s.progs e.1
        (.ret (.error ("failed to install pack rule '" ++ template.name ++ "': " ++ duplicateKey))),
        ⟨s.store.db.atTime e.2.clock, s.store.data⟩⟩ := by
      unfold Pool.step
      rw [hprog]
      simp only [Prog.bind, Prog.step, execBackend_createRule hok.1, hcreate, createdRule, refreshPackRules]
    rw [hexec]
    refine h.move (fun j hj => Function.update_of_ne hj _ _) ?_ h.names
      (h.fair.of_step (.block e.1 _ _ _ _ hphase' hpassed hnew (by rw [h.names]; exact htaken)))
      (List.Subset.refl _) ?_
    · rw [show (a.enter e.1 _).phase e.1 = _ from Function.update_self _ _ _]
      exact .refused _ _ _
    · rw [show (a.enter e.1 _).phase e.1 = _ from Function.update_self _ _ _]
      rintro v hv
      obtain rfl := Option.some.inj hv
      exact hview
  · have hnames : insert ((requests e.1).key template) a.present = ruleNames data := by
      ext k
      rw [h.names]
      simp only [ruleNames, hrules, Set.mem_insert_iff, Set.mem_ofPred_eq, List.mem_append,
        List.mem_singleton]
      constructor
      · rintro (rfl | ⟨rule, hrule, hkey⟩)
        · exact ⟨_, Or.inr rfl, rfl⟩
        · exact ⟨rule, Or.inl hrule, hkey⟩
      · rintro ⟨rule, hrule | rfl, hkey⟩
        · exact Or.inr ⟨rule, hrule, hkey⟩
        · exact Or.inl hkey.symm
    have hgrow : s.store.data.rules ⊆ data.rules := by
      rw [hrules]
      exact List.subset_append_left _ _
    refine ⟨{ a with present := insert ((requests e.1).key template) a.present }.enter e.1
      (.adding (seenNames (requests e.1).tenantId existing) (tail.map (requests e.1).key)), ?_⟩
    have hexec : Pool.step execBackend s e = ⟨Function.update s.progs e.1
        ((createPackRules (requests e.1).tenantId existing tail).bind
          (refreshPackRules (requests e.1).tenantId)),
        ⟨s.store.db.atTime e.2.clock, data⟩⟩ := by
      unfold Pool.step
      rw [hprog]
      simp only [Prog.bind, Prog.step, execBackend_createRule hok.1, hcreate, createdRule]
    rw [hexec]
    refine h.move (fun j hj => Function.update_of_ne hj _ _) ?_ hnames
      (h.fair.of_step (.add e.1 _ _ _ _ hphase' hpassed hnew (by rw [h.names]; exact hfree))) hgrow ?_
    · rw [show (Racing.State.enter _ e.1 _).phase e.1 = _ from Function.update_self _ _ _]
      exact .creating existing tail htail
    · rw [show (Racing.State.enter _ e.1 _).phase e.1 = _ from Function.update_self _ _ _]
      rintro v hv k hk
      obtain rfl := Option.some.inj hv
      exact seenNames_mono hgrow (hview k hk)

/-- **Refinement**: a command of an installation is a step of the race, or none. -/
theorem Installing.of_step (h : Installing requests b s a) (hok : Generates s e) :
    ∃ a', Installing requests b (Pool.step execBackend s e) a' := by
  have hat := h.shape e.1
  generalize hphase : a.phase e.1 = phase at hat
  generalize hprog : s.progs e.1 = prog at hat
  cases hat with
  | waiting => exact h.of_waiting hok hphase hprog
  | creating existing rest hsuffix =>
      rcases createPackRules_cases (requests e.1).tenantId existing (requests e.1) rfl rest with
        ⟨hseen, hret⟩ | ⟨passed, template, tail, hrest, hpassed, hnew, hcall⟩
      · exact ⟨a, h.of_refreshing hok hphase hseen (by rw [hprog, hret]; rfl)⟩
      · exact h.of_creating hok hphase hsuffix hrest hpassed hnew (by rw [hprog, hcall])
  | installed => exact ⟨a, by rw [Pool.step_finished (by rw [hprog]; rfl)]; exact h⟩
  | refused => exact ⟨a, by rw [Pool.step_finished (by rw [hprog]; rfl)]; exact h⟩

end steps

theorem installing_start {ι : Type} (requests : ι → PackRequest) (b : Backend) :
    Installing requests b (installPool requests b) ⟨ruleNames b.data, fun _ => .waiting⟩ where
  shape _ := .waiting
  names := rfl
  fair := Racing.fair_start
  visible _ _ hv := nomatch hv

/-- The pack is installed as far as its summary says. -/
theorem installed_of_seen {r : PackRequest} {rules : List StoredRule}
    (h : ∀ k ∈ r.keys, k ∈ seenNames r.tenantId rules) : (packSummary r.pack rules).installed = true := by
  have hall : ∀ template ∈ r.pack.rules, (rules.find? fun rule => rule.name == template.name).isSome := by
    intro template hin
    obtain ⟨rule, hrule, hkey⟩ := h _ (List.mem_map_of_mem hin)
    rw [List.find?_isSome]
    exact ⟨rule, hrule, by simpa using (Prod.mk.inj hkey).2⟩
  simp only [packSummary, List.countP_map, beq_iff_eq, List.countP_eq_length]
  intro template hin
  simpa using hall template hin

/-- **Concurrent installations of a pack complete it**: in every interleaving of installations, in which no
command fails by itself, once those of a pack by a tenant have all ended one of them has succeeded, the
tenant sees a rule for every template, and an installation that has succeeded reports the pack as
installed.  The others have lost a race for a name. -/
theorem packs_installed {ι : Type} [DecidableEq ι] (requests : ι → PackRequest) (b : Backend)
    (schedule : List (ι × Tick))
    (hok : Pool.Meets execBackend Generates schedule (installPool requests b)) (i : ι)
    (hended : ∀ j, (requests j).SameAs (requests i) →
      ((Pool.run execBackend schedule (installPool requests b)).progs j).next = none) :
    (∃ j rules, (requests j).SameAs (requests i) ∧
        (Pool.run execBackend schedule (installPool requests b)).progs j = .ret (.ok rules)) ∧
      (∀ template ∈ (requests i).pack.rules,
        ∃ rule ∈ (Pool.run execBackend schedule (installPool requests b)).store.data.getAllRules
          (requests i).tenantId, rule.name = template.name) ∧
      ∀ j rules, (Pool.run execBackend schedule (installPool requests b)).progs j = .ret (.ok rules) →
        (packSummary (requests j).pack rules).installed = true := by
  obtain ⟨a, ha⟩ : ∃ a, Installing requests b (Pool.run execBackend schedule (installPool requests b)) a :=
    Pool.Meets.run_invariant (J := fun s => ∃ a, Installing requests b s a)
      (fun _ _ ⟨_, h⟩ hgen => h.of_step hgen) ⟨_, installing_start requests b⟩ hok
  generalize Pool.run execBackend schedule (installPool requests b) = s at ha hended
  obtain ⟨v, hv⟩ : ∃ v, (a.phase i).view = some v := by
    rcases (ha.shape i).ended (hended i ⟨rfl, rfl⟩) with ⟨_, _, _, hphase, -⟩ | ⟨_, _, _, hphase, -⟩ <;>
      exact ⟨_, by rw [hphase]; rfl⟩
  obtain ⟨j, seen, rest, hkeys, hphase⟩ := ha.fair.exists_unblocked (fun i => (requests i).keys_nodup)
    (fun _ _ _ => PackRequest.keys_eq_of_mem) hv
  have hsame : (requests j).SameAs (requests i) := PackRequest.sameAs_of_keys_eq hkeys
  obtain ⟨rules, hrules, hdone⟩ : ∃ rules, s.progs j = .ret (.ok rules) ∧ ∀ k ∈ rest, k ∈ seen := by
    rcases (ha.shape j).ended (hended j hsame) with ⟨_, _, rules, hp, hret, hrest, -⟩ | ⟨_, _, _, hp, -⟩
    · rw [hphase] at hp
      injection hp with hseen hrest'
      exact ⟨rules, hret, by rw [hseen, hrest']; exact hrest⟩
    · rw [hphase] at hp
      exact nomatch hp
  refine ⟨⟨j, rules, hsame, hrules⟩, fun template hin => ?_, fun j rules hret => ?_⟩
  · have hk : (requests i).key template ∈ (requests j).keys := by
      rw [hsame.keys_eq]
      exact List.mem_map_of_mem hin
    have hvisible : (requests i).key template ∈
        seenNames (requests j).tenantId (s.store.data.getAllRules (requests j).tenantId) := by
      rcases ha.fair.present_of_done hphase hdone _ hk with hseen | hpresent
      · exact ha.visible j _ (by rw [hphase]; rfl) _ hseen
      · rw [ha.names, PackRequest.key, ← hsame.1] at hpresent
        rw [PackRequest.key, ← hsame.1]
        exact seen_of_ruleNames hpresent
    obtain ⟨rule, hrule, hkey⟩ := hvisible
    rw [hsame.1] at hrule
    exact ⟨rule, hrule, (Prod.mk.inj hkey).2⟩
  · rcases (ha.shape j).ended (by rw [hret]; rfl) with ⟨_, _, _, -, hp, -, hseen⟩ | ⟨_, _, _, -, hp⟩
    · rw [hret] at hp
      injection hp with hp
      injection hp with hp
      exact installed_of_seen (hp ▸ hseen)
    · rw [hret] at hp
      exact nomatch hp

/-! ### Two installations -/

/-- The first pack, for one tenant. -/
def cloudPackRequest : PackRequest where
  tenantId := "acme"
  pack := curatedPackList[0]
  listed := List.getElem_mem _
  stored := by decide +kernel

/-- Both load the rules first; the second one then comes too late for the first template. -/
def twoInstalls : List (Bool × Tick) :=
  [(false, { clock := .ofSeconds 1 }), (true, { clock := .ofSeconds 1 }),
    (false, { clock := .ofSeconds 2, uuid := "r1" }), (true, { clock := .ofSeconds 2, uuid := "r2" }),
    (false, { clock := .ofSeconds 3, uuid := "r3" }), (false, { clock := .ofSeconds 3, uuid := "r4" }),
    (false, { clock := .ofSeconds 4 })]

def noTables : Backend := ⟨emptyDatabase, emptyData⟩

theorem twoInstalls_complete :
    ∃ rule ∈ (Pool.run execBackend twoInstalls
        (installPool (fun _ => cloudPackRequest) noTables)).store.data.getAllRules "acme",
      rule.name = "Cloud IAM - New Access Key Issued" := by
  have hended : ∀ j, ((Pool.run execBackend twoInstalls
      (installPool (fun _ => cloudPackRequest) noTables)).progs j).next = none := by decide +kernel
  have h := packs_installed (fun _ => cloudPackRequest) noTables twoInstalls (by decide +kernel) false
    fun j _ => hended j
  exact h.2.1 cloudPackRequest.pack.rules[2] (List.getElem_mem _)

end MiniSiem
