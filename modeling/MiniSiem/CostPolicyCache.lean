import MiniSiem.AuditCoverage

/-! # The cached cost policy

Calls of `load_tenant_cost_policy` and `save_tenant_cost_policy` (`costs.rs`) of one tenant, command by
command.

* **Calls.**  A call that reads or writes the row goes on to put what it got in the cache; the cache is
  not written otherwise (`CallAt`).
* **Coherence.**  A policy that the cache holds is that of the row, or the default if there is none.
* **Runs.**  `policyCache_coherent`: if no command leaves another policy in the cache, unless a call is
  still about to put one there, the cache is coherent whenever no call is in progress. -/

namespace MiniSiem

open Atomic

inductive CostPolicyCall
  | load
  | save (policy : TenantDataCostPolicy)

namespace CostPolicyCall

def prog (codec : PolicyCodec) (tenantId : String) :
    CostPolicyCall → BackendProg (Except String TenantDataCostPolicy)
  | load => loadTenantCostPolicy codec tenantId
  | save policy => saveTenantCostPolicy codec policy

/-- The call is of the tenant. -/
def Of (tenantId : String) : CostPolicyCall → Prop
  | load => True
  | save policy => policy.tenantId = tenantId

end CostPolicyCall

abbrev PolicyPool (ι : Type) := BackendPool ι (Except String TenantDataCostPolicy)

/-- The calls of a tenant, none of them started. -/
def costPolicyPool {ι : Type} (codec : PolicyCodec) (tenantId : String) (calls : ι → CostPolicyCall)
    (b : Backend) : PolicyPool ι :=
  ⟨fun i => (calls i).prog codec tenantId, b⟩

/-- The policy is that of the row of the tenant, or a default if it has none. -/
def TenantData.StoredPolicy (d : TenantData) (tenantId : String) (policy : TenantDataCostPolicy) : Prop :=
  let row := KeyedList.lookup TenantDataCostPolicy.tenantId tenantId d.costPolicies
  row = some policy ∨ row = none ∧ ∃ now, policy = .defaultForTenant now tenantId

section coherence

variable (codec : PolicyCodec) (tenantId : String)

/-- The policy of a text in the cache, if it is one, is the stored one. -/
def TextStored (d : TenantData) (text : String) : Prop :=
  ∀ policy, codec.fromStr text = some policy → d.StoredPolicy tenantId policy

/-- The policy in the cache, if there is one, is the stored one. -/
def CacheCoherent (now : DateTime) (d : TenantData) : Prop :=
  ∀ text, d.getString now (policyCacheKey tenantId) = some text → TextStored codec tenantId d text

/-- The call is still about to put a policy in the cache. -/
def WillCache (p : BackendProg (Except String TenantDataCostPolicy)) : Prop :=
  match p.next with
  | some (.data (.getTenantDataCostPolicy _)) => True
  | some (.data (.setString _ _)) => True
  | _ => False

/-- The call has started and has not ended. -/
def InProgress {ι : Type} (calls : ι → CostPolicyCall) (s : PolicyPool ι) (i : ι) : Prop :=
  s.progs i ≠ (calls i).prog codec tenantId ∧ (s.progs i).next ≠ none

/-- The policy that the next command puts in the cache, or leaves there because it fails, is the stored
one. -/
def LeavesStored (d : TenantData) (p : BackendProg (Except String TenantDataCostPolicy)) (tick : Tick) :
    Prop :=
  match p.next, tick.fault with
  | some (.data (.setString _ text)), none => TextStored codec tenantId d text
  | some (.data (.setString _ _)), some _ => CacheCoherent codec tenantId tick.clock d
  | some (.data (.getTenantDataCostPolicy _)), some _ => CacheCoherent codec tenantId tick.clock d
  | _, _ => True

/-- Unless another call is about to put a policy in the cache, the step leaves the stored one there. -/
def CachesStored {ι : Type} (s : PolicyPool ι) (e : ι × Tick) : Prop :=
  (∃ j, j ≠ e.1 ∧ WillCache (s.progs j)) ∨
    LeavesStored codec tenantId s.store.data (s.progs e.1) e.2

/-- The policy in the cache is the stored one, and so is the policy that a load returns from now on. -/
def PolicyServed (b : Backend) : Prop :=
  CacheCoherent codec tenantId b.db.clock b.data ∧
    ∀ tick : Tick, tick.fault = none → b.db.clock.1 ≤ tick.clock.1 →
      ∃ policy, b.data.StoredPolicy tenantId policy ∧
        ((loadTenantCostPolicy codec tenantId).run (execBackend tick) b).1 = .ok policy

end coherence

/-- The clock does not run back. -/
def ClockRuns {ι α : Type} (s : BackendPool ι α) (e : ι × Tick) : Prop :=
  s.store.db.clock.1 ≤ e.2.clock.1

instance {ι α : Type} (s : BackendPool ι α) (e : ι × Tick) : Decidable (ClockRuns s e) :=
  inferInstanceAs (Decidable (_ ≤ _))

/-! ### Calls -/

/-- Where a call can be. -/
inductive CallAt (codec : PolicyCodec) (tenantId : String) :
    BackendProg (Except String TenantDataCostPolicy) → Prop
  | load : CallAt codec tenantId (loadTenantCostPolicy codec tenantId)
  | save (policy : TenantDataCostPolicy) (h : policy.tenantId = tenantId) :
      CallAt codec tenantId (saveTenantCostPolicy codec policy)
  | select : CallAt codec tenantId (loadStoredPolicy codec tenantId)
  | set (text : String) (policy : TenantDataCostPolicy) :
      CallAt codec tenantId (cachePolicy (policyCacheKey tenantId) text (.ret (.ok policy)))
  | expire (policy : TenantDataCostPolicy) :
      CallAt codec tenantId
        (.call (.data (.expire (policyCacheKey tenantId) 900)) fun _ => .ret (.ok policy))
  | ended (result : Except String TenantDataCostPolicy) : CallAt codec tenantId (.ret result)

section calls

variable {codec : PolicyCodec} {tenantId : String} {tick : Tick} {b : Backend}

theorem CostPolicyCall.at_start {call : CostPolicyCall} (h : call.Of tenantId) :
    CallAt codec tenantId (call.prog codec tenantId) := by
  cases call with
  | load => exact .load
  | save policy => exact .save policy h

theorem not_willCache_start (call : CostPolicyCall) : ¬ WillCache (call.prog codec tenantId) := by
  cases call <;> exact id

theorem CacheCoherent.mono {now now' : DateTime} {d : TenantData}
    (h : CacheCoherent codec tenantId now d) (hle : now.1 ≤ now'.1) :
    CacheCoherent codec tenantId now' d := by
  intro text htext
  refine h text ?_
  obtain ⟨entry, hentry, hlive⟩ := Option.bind_eq_some_iff.mp htext
  refine Option.bind_eq_some_iff.mpr ⟨entry, hentry, ?_⟩
  cases hexpires : entry.expiresAt with
  | none =>
      rw [hexpires] at hlive
      exact hlive
  | some t =>
      rw [hexpires] at hlive
      simp only [Option.all_some, decide_eq_true_eq] at hlive ⊢
      split_ifs at hlive with hless
      rw [if_pos (hle.trans_lt hless)]
      exact hlive

theorem TenantData.getString_setString (d : TenantData) (now : DateTime) (key text : String) :
    (d.setString key text).getString now key = some text := by
  unfold getString setString
  dsimp only
  rw [Function.update_self]
  rfl

/-- The entry that expires later is the one that was there. -/
theorem TenantData.getString_of_expire {d : TenantData} {now : DateTime} {key text : String}
    {seconds : ℕ} (h : (d.expire now key seconds).getString now key = some text) :
    d.getString now key = some text := by
  unfold getString expire at h
  dsimp only at h
  rw [Function.update_self] at h
  obtain ⟨entry, hentry, hlive⟩ := Option.bind_eq_some_iff.mp h
  obtain ⟨old, hold, rfl⟩ := Option.map_eq_some_iff.mp hentry
  split_ifs at hlive
  exact hold.trans hlive

/-- What one step makes of a call: unless it is about to put a policy in the cache, the cache is
coherent. -/
theorem CallAt.step (hcodec : codec.Total) {p : BackendProg (Except String TenantDataCostPolicy)}
    (h : CallAt codec tenantId p) (hclock : b.db.clock.1 ≤ tick.clock.1) :
    CallAt codec tenantId (p.step (execBackend tick) b).1 ∧
      (LeavesStored codec tenantId b.data p tick →
        WillCache p ∨ CacheCoherent codec tenantId b.db.clock b.data →
        WillCache (p.step (execBackend tick) b).1 ∨
          CacheCoherent codec tenantId (p.step (execBackend tick) b).2.db.clock
            (p.step (execBackend tick) b).2.data) := by
  cases h with
  | load =>
      unfold loadTenantCostPolicy andThen
      rw [Prog.step_call]
      rcases execBackend_cases tick b (.getString (policyCacheKey tenantId)) with
        ⟨e, hexec⟩ | ⟨reply, data, -, hrun, hexec⟩
      · rw [hexec]
        exact ⟨.ended _, fun _ hbefore => Or.inr ((hbefore.resolve_left id).mono hclock)⟩
      · obtain rfl := data_of_ok hrun
        rw [hexec]
        have hend : ∀ result, CallAt codec tenantId (.ret result) := .ended
        have hselect : CallAt codec tenantId (loadStoredPolicy codec tenantId) := .select
        refine ⟨?_, fun _ hbefore => Or.inr ((hbefore.resolve_left id).mono hclock)⟩
        cases reply with
        | none => exact hselect
        | some raw =>
            dsimp only
            cases codec.fromStr raw with
            | some policy => exact hend _
            | none => exact hselect
  | save policy htenant =>
      unfold saveTenantCostPolicy andThen
      rw [Prog.step_call]
      rcases execBackend_cases tick b (.upsertTenantDataCostPolicy policy) with
        ⟨e, hexec⟩ | ⟨reply, data, -, hrun, hexec⟩
      · rw [hexec]
        exact ⟨.ended _, fun _ hbefore => Or.inr ((hbefore.resolve_left id).mono hclock)⟩
      · obtain ⟨-, rfl, -⟩ := TenantData.upsertTenantDataCostPolicy_ok hrun
        rw [hexec]
        dsimp only
        obtain ⟨text, htext⟩ := hcodec (policy.stored tick.clock)
        rw [htext, show (policy.stored tick.clock).tenantId = tenantId from htenant]
        exact ⟨.set text _, fun _ _ => Or.inl trivial⟩
  | select =>
      unfold loadStoredPolicy andThen
      rw [Prog.step_call]
      cases hfault : tick.fault with
      | some e =>
          rw [execBackend_failed hfault]
          refine ⟨.ended _, fun hleaves _ => Or.inr ?_⟩
          unfold LeavesStored at hleaves
          rw [hfault] at hleaves
          exact hleaves
      | none =>
          rw [execBackend_ok hfault rfl]
          dsimp only
          obtain ⟨text, htext⟩ := hcodec (b.data.getTenantDataCostPolicy tick.clock tenantId)
          rw [htext]
          exact ⟨.set text _, fun _ _ => Or.inl trivial⟩
  | set text policy =>
      unfold cachePolicy
      rw [Prog.step_call]
      cases hfault : tick.fault with
      | some e =>
          rw [execBackend_failed hfault]
          refine ⟨.ended _, fun hleaves _ => Or.inr ?_⟩
          unfold LeavesStored at hleaves
          rw [hfault] at hleaves
          exact hleaves
      | none =>
          rw [execBackend_ok hfault rfl]
          refine ⟨.expire policy, fun hleaves _ => Or.inr fun text' htext' => ?_⟩
          unfold LeavesStored at hleaves
          rw [hfault] at hleaves
          have hset := b.data.getString_setString tick.clock (policyCacheKey tenantId) text
          obtain rfl := Option.some.inj (hset.symm.trans htext')
          exact hleaves
  | expire policy =>
      rw [Prog.step_call]
      cases hfault : tick.fault with
      | some e =>
          rw [execBackend_failed hfault]
          exact ⟨.ended _, fun _ hbefore => Or.inr ((hbefore.resolve_left id).mono hclock)⟩
      | none =>
          rw [execBackend_ok hfault rfl]
          refine ⟨.ended _, fun _ hbefore => Or.inr fun text htext => ?_⟩
          exact (hbefore.resolve_left id).mono hclock text (TenantData.getString_of_expire htext)
  | ended result => exact ⟨.ended result, fun _ hbefore => Or.inr (hbefore.resolve_left id)⟩

end calls

/-! ### Runs -/

section runs

variable {ι : Type} [DecidableEq ι] {codec : PolicyCodec} {tenantId : String}

/-- The calls are where they can be, and the cache is coherent unless one of them is about to put a
policy there. -/
structure CoherentRun (codec : PolicyCodec) (tenantId : String) (calls : ι → CostPolicyCall)
    (s : PolicyPool ι) : Prop where
  at_call : ∀ i, CallAt codec tenantId (s.progs i)
  coherent : (∃ i, WillCache (s.progs i)) ∨
    CacheCoherent codec tenantId s.store.db.clock s.store.data

theorem CoherentRun.step {calls : ι → CostPolicyCall} (hcodec : codec.Total) {s : PolicyPool ι}
    {e : ι × Tick} (h : CoherentRun codec tenantId calls s) (hclock : ClockRuns s e)
    (hleaves : CachesStored codec tenantId s e) :
    CoherentRun codec tenantId calls (Pool.step execBackend s e) := by
  obtain ⟨hcall, hcoherent⟩ := (h.at_call e.1).step hcodec hclock
  refine ⟨fun i => ?_, ?_⟩
  · by_cases hi : i = e.1
    · subst hi
      rw [Pool.step_progs_self]
      exact hcall
    · rw [Pool.step_progs_of_ne hi]
      exact h.at_call i
  · by_cases hother : ∃ j, j ≠ e.1 ∧ WillCache (s.progs j)
    · obtain ⟨j, hj, hwill⟩ := hother
      refine Or.inl ⟨j, ?_⟩
      rw [Pool.step_progs_of_ne hj]
      exact hwill
    · have hbefore : WillCache (s.progs e.1) ∨
          CacheCoherent codec tenantId s.store.db.clock s.store.data := by
        rcases h.coherent with ⟨i, hi⟩ | hstored
        · by_cases hie : i = e.1
          · exact Or.inl (hie ▸ hi)
          · exact absurd ⟨i, hie, hi⟩ hother
        · exact Or.inr hstored
      rcases hcoherent (hleaves.resolve_left hother) hbefore with hwill | hstored
      · refine Or.inl ⟨e.1, ?_⟩
        rw [Pool.step_progs_self]
        exact hwill
      · exact Or.inr hstored

omit [DecidableEq ι] in
theorem CoherentRun.start (calls : ι → CostPolicyCall) (hof : ∀ i, (calls i).Of tenantId) {b : Backend}
    (h : CacheCoherent codec tenantId b.db.clock b.data) :
    CoherentRun codec tenantId calls (costPolicyPool codec tenantId calls b) :=
  ⟨fun i => CostPolicyCall.at_start (hof i), Or.inr h⟩

omit [DecidableEq ι] in
theorem CoherentRun.coherent_of_idle {calls : ι → CostPolicyCall} {s : PolicyPool ι}
    (h : CoherentRun codec tenantId calls s) (hidle : ∀ i, ¬ InProgress codec tenantId calls s i) :
    CacheCoherent codec tenantId s.store.db.clock s.store.data := by
  refine h.coherent.resolve_left ?_
  rintro ⟨i, hwill⟩
  refine hidle i ⟨fun hstart => ?_, fun hnone => ?_⟩
  · rw [hstart] at hwill
    exact not_willCache_start (calls i) hwill
  · unfold WillCache at hwill
    rw [hnone] at hwill
    exact hwill

theorem CoherentRun.run {calls : ι → CostPolicyCall} (hcodec : codec.Total) {s : PolicyPool ι}
    (h : CoherentRun codec tenantId calls s) {schedule : List (ι × Tick)}
    (hclock : Pool.Meets execBackend ClockRuns schedule s)
    (hstored : Pool.Meets execBackend (CachesStored codec tenantId) schedule s) :
    CoherentRun codec tenantId calls (Pool.run execBackend schedule s) := by
  induction schedule generalizing s with
  | nil => exact h
  | cons e schedule ih => exact ih (h.step hcodec hclock.1 hstored.1) hclock.2 hstored.2

/-- Whatever becomes of the cache, the call has its result. -/
theorem cachePolicy_run (key text : String) (result : Except String TenantDataCostPolicy) {tick : Tick}
    {b : Backend} : ((cachePolicy key text (.ret result)).run (execBackend tick) b).1 = result := by
  unfold cachePolicy
  rw [Prog.run]
  cases (execBackend tick (.data (.setString key text)) b).1 <;> rfl

/-- A load that nothing disturbs returns the stored policy. -/
theorem loadTenantCostPolicy_run (hcodec : codec.Total) {tick : Tick} {b : Backend}
    (h : CacheCoherent codec tenantId tick.clock b.data) (hfault : tick.fault = none) :
    ∃ policy, b.data.StoredPolicy tenantId policy ∧
      ((loadTenantCostPolicy codec tenantId).run (execBackend tick) b).1 = .ok policy := by
  have hrow : ∃ policy, b.data.StoredPolicy tenantId policy ∧
      ((loadStoredPolicy codec tenantId).run (execBackend tick) ⟨b.db.atTime tick.clock, b.data⟩).1 =
        .ok policy := by
    obtain ⟨text, htext⟩ := hcodec (b.data.getTenantDataCostPolicy tick.clock tenantId)
    refine ⟨b.data.getTenantDataCostPolicy tick.clock tenantId, ?_, ?_⟩
    · unfold TenantData.StoredPolicy TenantData.getTenantDataCostPolicy
      cases KeyedList.lookup TenantDataCostPolicy.tenantId tenantId b.data.costPolicies with
      | some policy => exact Or.inl rfl
      | none => exact Or.inr ⟨rfl, tick.clock, rfl⟩
    · unfold loadStoredPolicy andThen
      rw [Prog.run, execBackend_ok hfault rfl]
      dsimp only
      rw [htext]
      exact cachePolicy_run _ _ _
  unfold loadTenantCostPolicy andThen
  rw [Prog.run, execBackend_ok hfault rfl]
  dsimp only
  cases htext : b.data.getString tick.clock (policyCacheKey tenantId) with
  | none => exact hrow
  | some text =>
      dsimp only
      cases hpolicy : codec.fromStr text with
      | none => exact hrow
      | some policy => exact ⟨policy, h text htext policy hpolicy, rfl⟩

/-- **Coherence.** -/
theorem policyCache_coherent (hcodec : codec.Total) (calls : ι → CostPolicyCall)
    (hof : ∀ i, (calls i).Of tenantId) {b : Backend}
    (hstart : CacheCoherent codec tenantId b.db.clock b.data) {schedule : List (ι × Tick)}
    (hclock : Pool.Meets execBackend ClockRuns schedule (costPolicyPool codec tenantId calls b))
    (hstored : Pool.Meets execBackend (CachesStored codec tenantId) schedule
      (costPolicyPool codec tenantId calls b)) :
    ∀ front, front <+: schedule →
      (∀ i, ¬ InProgress codec tenantId calls
        (Pool.run execBackend front (costPolicyPool codec tenantId calls b)) i) →
      PolicyServed codec tenantId
        (Pool.run execBackend front (costPolicyPool codec tenantId calls b)).store := by
  rintro front ⟨back, rfl⟩ hidle
  have hrun := (CoherentRun.start calls hof hstart).run hcodec (Pool.meets_append front back |>.mp hclock).1
    (Pool.meets_append front back |>.mp hstored).1
  have hcoherent := hrun.coherent_of_idle hidle
  exact ⟨hcoherent, fun tick hfault hlater =>
    loadTenantCostPolicy_run hcodec (hcoherent.mono hlater) hfault⟩

end runs

/-! ### A load around a save -/

/-- A policy with a budget, last written at the epoch. -/
def budgetPolicy (bytes : Int64) : TenantDataCostPolicy :=
  { TenantDataCostPolicy.defaultForTenant (.ofSeconds 0) "acme" with
    dailyIngestBytesBudget := bytes
    schemaDropRules := .arr [] }

/-- Its text. -/
def budgetText (bytes : Int64) : String :=
  "\x7b\"tenant_id\":\"acme\",\"daily_ingest_bytes_budget\":" ++ toString bytes.toInt ++
    ",\"hot_storage_bytes_budget\":10000000000,\"warm_storage_bytes_budget\":10000000000," ++
    "\"cold_storage_bytes_budget\":5000000000,\"sampling_enabled\":true," ++
    "\"low_value_sampling_percent\":25,\"high_value_sampling_percent\":100," ++
    "\"drop_low_value_when_over_budget\":true,\"schema_drop_rules\":[],\"source_budgets\":\x7b\x7d," ++
    "\"integration_budgets\":\x7b\x7d,\"team_budgets\":\x7b\x7d," ++
    "\"updated_at\":\"1970-01-01T00:00:00Z\"\x7d"

/-- The codec on such policies with a budget of 10 or 5. -/
def budgetCodec : PolicyCodec where
  toString := fun policy => .ok (budgetText policy.dailyIngestBytesBudget)
  fromStr := fun raw =>
    ([10, 5] : List Int64).findSome? fun bytes =>
      if raw = budgetText bytes then some (budgetPolicy bytes) else none

/-- A row with a budget of 10, and an empty cache. -/
def tenBytes : Backend where
  db := emptyDatabase
  data := { emptyData with
    costPolicies := [budgetPolicy 10]
    costPolicies_tenant := List.nodup_singleton _ }

/-- A load, and a save of a budget of 5. -/
def loadAndSave : Bool → CostPolicyCall
  | false => .load
  | true => .save (budgetPolicy 5)

def epochTick : Tick := { clock := .ofSeconds 0 }

/-- The turns of the load and the save. -/
def turnsOf (turns : List Bool) : List (Bool × Tick) := turns.map fun i => (i, epochTick)

theorem tenBytes_coherent :
    CacheCoherent budgetCodec "acme" tenBytes.db.clock tenBytes.data := by
  intro text htext
  cases htext

theorem fromStr_budgetText :
    budgetCodec.fromStr (budgetText 10) = some (budgetPolicy 10) ∧
      budgetCodec.fromStr (budgetText 5) = some (budgetPolicy 5) := by
  have hne : budgetText 5 ≠ budgetText 10 := by decide +kernel
  unfold budgetCodec
  dsimp only [List.findSome?]
  rw [if_pos rfl, if_neg hne, if_pos rfl]
  exact ⟨rfl, rfl⟩

theorem loadAndSave_of (i : Bool) : (loadAndSave i).Of "acme" := by
  cases i with
  | false => trivial
  | true => rfl

theorem loadThenSave_served :
    PolicyServed budgetCodec "acme" (Pool.run execBackend
      (turnsOf [false, false, false, false, true, true, true])
      (costPolicyPool budgetCodec "acme" loadAndSave tenBytes)).store := by
  have hclock : Pool.Meets execBackend ClockRuns
      (turnsOf [false, false, false, false, true, true, true])
      (costPolicyPool budgetCodec "acme" loadAndSave tenBytes) := by decide +kernel
  refine policyCache_coherent (fun policy => ⟨_, rfl⟩) loadAndSave loadAndSave_of tenBytes_coherent hclock
    ⟨Or.inr trivial, Or.inr trivial, Or.inr fun policy hpolicy => Or.inl ?_, Or.inr trivial,
      Or.inr trivial, Or.inr fun policy hpolicy => Or.inl ?_, Or.inr trivial, trivial⟩ _ List.prefix_rfl ?_
  · rw [← fromStr_budgetText.1.symm.trans hpolicy]
    rfl
  · rw [← fromStr_budgetText.2.symm.trans hpolicy]
    rfl
  · rintro (_ | _) ⟨-, hnext⟩
    · exact hnext rfl
    · exact hnext rfl

/-- The load puts the old row in the cache after the save has put the new one there. -/
theorem loadAroundSave_not_served :
    ¬ ∀ (codec : PolicyCodec) (tenantId : String) (calls : Bool → CostPolicyCall) (b : Backend)
      (schedule : List (Bool × Tick)), codec.Total → (∀ i, (calls i).Of tenantId) →
      CacheCoherent codec tenantId b.db.clock b.data →
      Pool.Meets execBackend ClockRuns schedule (costPolicyPool codec tenantId calls b) →
      (∀ i, ¬ InProgress codec tenantId calls
        (Pool.run execBackend schedule (costPolicyPool codec tenantId calls b)) i) →
      PolicyServed codec tenantId
        (Pool.run execBackend schedule (costPolicyPool codec tenantId calls b)).store := by
  intro h
  obtain ⟨hcoherent, -⟩ := h budgetCodec "acme" loadAndSave tenBytes
    (turnsOf [false, false, true, true, true, false, false]) (fun policy => ⟨_, rfl⟩) loadAndSave_of
    tenBytes_coherent (by decide +kernel) (by
      rintro (_ | _) ⟨-, hnext⟩
      · exact hnext rfl
      · exact hnext rfl)
  rcases hcoherent (budgetText 10) (by decide +kernel) (budgetPolicy 10) fromStr_budgetText.1 with
    hrow | ⟨hnone, -⟩
  · exact absurd (congrArg (Option.map TenantDataCostPolicy.dailyIngestBytesBudget) hrow)
      (by decide +kernel)
  · exact absurd (congrArg Option.isSome hnone) (by decide +kernel)

end MiniSiem
