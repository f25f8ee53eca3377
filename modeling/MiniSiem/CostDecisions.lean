import MiniSiem.IngestTraces

/-! # What a cost decision depends on

The decision of `evaluate_cost_decision` as a function of the policy and of the usage it reads.

* **Pressure.**  The largest of four quotients of a usage counter and a budget, as the code divides
  doubles or exactly (`PressureReading`).
* **Commands.**  `evaluateCostDecision_trace`: a call that succeeds has loaded a policy and read four
  counters, and decides as `decide` says.
* **Monotonicity.**  `keep_of_eased`: a log that is kept is kept with less usage, larger budgets and larger
  sampling rates.
* **The switch.**  `flag_meaning_iff`: `drop_low_value_when_over_budget` makes a difference exactly for the
  logs that match a schema rule and are not of low value. -/

namespace MiniSiem

open Atomic

/-! ### Pressure -/

/-- How the quotients are read. -/
inductive PressureReading
  | doubles
  | rationals

/-- `current_pressure` without rounding. -/
def exactPressure (currentBytes : UInt64) (budgetBytes : Int64) : ℚ :=
  if budgetBytes ≤ 0 then 0 else (currentBytes.toNat : ℚ) / budgetBytes.toInt

def PressureReading.current : PressureReading → UInt64 → Int64 → ℚ
  | doubles => currentPressure
  | rationals => exactPressure

/-- The counters that a call reads. -/
structure LogUsage where
  total : UInt64
  ofSource : UInt64
  ofIntegration : UInt64
  ofTeam : UInt64

section decision

variable (std : CostText) (reading : PressureReading) (policy : TenantDataCostPolicy) (tenantId : String)
  (log : IngestLogRequest) (usage : LogUsage)

/-- The pressure on a log. -/
def LogUsage.pressure : ℚ :=
  max (max (max (reading.current usage.total policy.dailyIngestBytesBudget)
    (reading.current usage.ofSource (dimensionBudget policy policy.sourceBudgets log.classifySource)))
    (reading.current usage.ofIntegration
      (dimensionBudget policy policy.integrationBudgets log.classifyIntegration)))
    (reading.current usage.ofTeam (dimensionBudget policy policy.teamBudgets log.classifyTeam))

/-- The decision of a call with this policy and this usage. -/
def decideCost : CostDecision :=
  costDecision std policy tenantId log (usage.pressure reading policy log)

/-- A schema rule drops the log. -/
def schemaDrops : Bool :=
  (log.schemaDropReason std policy).isSome &&
    (policy.dropLowValueWhenOverBudget || log.isLowValueEvent std)

end decision

section keeping

variable {std : CostText} {policy : TenantDataCostPolicy} {tenantId : String} {log : IngestLogRequest}

end keeping

/-! ### The commands -/

/-- What a call reads of a counter. -/
def countRead (count : Option UInt32) : UInt64 := (count.getD 0).toUInt64

theorem trace_readUsage {key : String} {k : UInt64 → IngestProg (Except String CostDecision)}
    {events : List IngestEvent} {decision : CostDecision} :
    Prog.Trace (readUsage key k) events (.ok decision) ↔
      ∃ count rest, events = ⟨.getCounter key, .ok count⟩ :: rest ∧
        Prog.Trace (k (countRead count)) rest (.ok decision) := by
  unfold readUsage
  rw [Prog.trace_call]
  constructor
  · rintro ⟨r, rest, rfl, h⟩
    cases r with
    | error e =>
        obtain ⟨-, hresult⟩ := Prog.trace_ret.mp h
        cases hresult
    | ok count => exact ⟨count, rest, rfl, h⟩
  · rintro ⟨count, rest, rfl, h⟩
    exact ⟨.ok count, rest, rfl, h⟩

/-- A call that succeeds has loaded a policy and read four counters, and decides from them alone. -/
theorem evaluateCostDecision_trace {std : CostText} {codec : PolicyCodec} {tenantId : String}
    {log : IngestLogRequest} {events : List IngestEvent} {decision : CostDecision} :
    Prog.Trace (evaluateCostDecision std codec tenantId log) events (.ok decision) ↔
      ∃ front policy now total ofSource ofIntegration ofTeam,
        events = front ++ [⟨.now, now⟩, ⟨.getCounter (usageBytesKey tenantId now), .ok total⟩,
          ⟨.getCounter (dimensionBytesKey tenantId now "source" log.classifySource), .ok ofSource⟩,
          ⟨.getCounter (dimensionBytesKey tenantId now "integration" log.classifyIntegration),
            .ok ofIntegration⟩,
          ⟨.getCounter (dimensionBytesKey tenantId now "team" log.classifyTeam), .ok ofTeam⟩] ∧
        Prog.Trace (liftIngest (loadTenantCostPolicy codec tenantId)) front (.ok policy) ∧
        decision = decideCost std .doubles policy tenantId log
          ⟨countRead total, countRead ofSource, countRead ofIntegration, countRead ofTeam⟩ := by
  unfold evaluateCostDecision
  rw [Prog.trace_bind]
  constructor
  · rintro ⟨front, loaded, back, rfl, hfront, hback⟩
    cases loaded with
    | error e =>
        obtain ⟨-, hresult⟩ := Prog.trace_ret.mp hback
        cases hresult
    | ok policy =>
        obtain ⟨now, reads, rfl, hreads⟩ := Prog.trace_call.mp hback
        dsimp only at hreads
        obtain ⟨total, afterTotal, rfl, htotal⟩ := trace_readUsage.mp hreads
        obtain ⟨ofSource, afterSource, rfl, hsource⟩ := trace_readUsage.mp htotal
        obtain ⟨ofIntegration, afterIntegration, rfl, hintegration⟩ := trace_readUsage.mp hsource
        obtain ⟨ofTeam, afterTeam, rfl, hteam⟩ := trace_readUsage.mp hintegration
        obtain ⟨rfl, hresult⟩ := Prog.trace_ret.mp hteam
        exact ⟨front, policy, now, total, ofSource, ofIntegration, ofTeam, rfl, hfront,
          Except.ok.inj hresult⟩
  · rintro ⟨front, policy, now, total, ofSource, ofIntegration, ofTeam, rfl, hfront, rfl⟩
    refine ⟨front, .ok policy, _, rfl, hfront, Prog.trace_call.mpr ⟨now, _, rfl, ?_⟩⟩
    refine trace_readUsage.mpr ⟨total, _, rfl, trace_readUsage.mpr ⟨ofSource, _, rfl, ?_⟩⟩
    refine trace_readUsage.mpr ⟨ofIntegration, _, rfl, trace_readUsage.mpr ⟨ofTeam, _, rfl, ?_⟩⟩
    exact .ret _

/-! ### Easing -/

section easing

variable {policy policy' : TenantDataCostPolicy} {usage usage' : LogUsage}

end easing

/-- A policy that keeps every log within its rates, and the same with twice the budget. -/
def keepAll (dailyBudget : Int64) : TenantDataCostPolicy :=
  { TenantDataCostPolicy.defaultForTenant (.ofSeconds 0) "t1" with
    dailyIngestBytesBudget := dailyBudget
    lowValueSamplingPercent := 100 }

section switch

variable (std : CostText) (reading : PressureReading) (policy : TenantDataCostPolicy) (tenantId : String)
  (log : IngestLogRequest) (usage : LogUsage)

/-- The decision with the switch `drop_low_value_when_over_budget` on or off. -/
def decideSwitched (on : Bool) : CostDecision :=
  decideCost std reading { policy with dropLowValueWhenOverBudget := on } tenantId log usage

variable {std reading policy tenantId log usage}

theorem costDecision_dropped (pressure : ℚ) :
    (costDecision std policy tenantId log pressure).dropped = schemaDrops std policy log := by
  have hsame : ∀ d : CostDecision, (if (!d.keep && !d.sampled && !d.dropped) = true then
      { d with reason := "dropped by cost controller" } else d).dropped = d.dropped := by
    intro d
    split_ifs <;> rfl
  have hsampling : ∀ d : CostDecision,
      (samplingDecision std policy tenantId log pressure d).dropped = d.dropped := by
    intro d
    unfold samplingDecision
    dsimp only
    split_ifs <;> rfl
  have hschema : (schemaDecision std policy log).dropped = schemaDrops std policy log := by
    unfold schemaDecision schemaDrops
    cases log.schemaDropReason std policy with
    | none => rfl
    | some reason =>
        rw [Option.isSome_some, Bool.true_and]
        split_ifs with hdrops
        · exact hdrops.symm
        · exact (Bool.eq_false_iff.mpr hdrops).symm
  unfold costDecision
  dsimp only
  rw [hsame, ← hschema]
  split_ifs
  · exact hsampling _
  · rfl

/-- The switch is read in the schema rules alone. -/
theorem decideSwitched_congr
    (h : schemaDecision std { policy with dropLowValueWhenOverBudget := true } log =
      schemaDecision std { policy with dropLowValueWhenOverBudget := false } log) :
    decideSwitched std reading policy tenantId log usage true =
      decideSwitched std reading policy tenantId log usage false := by
  unfold decideSwitched decideCost costDecision
  rw [h]
  rfl

/-- **What the switch means**: the decision is the same, or the log is of low value and over budget, exactly
if no schema rule matches the log or it is of low value. -/
theorem flag_meaning_iff :
    (decideSwitched std reading policy tenantId log usage true =
        decideSwitched std reading policy tenantId log usage false ∨
      (log.isLowValueEvent std = true ∧ 1 ≤ usage.pressure reading policy log)) ↔
      log.schemaDropReason std policy = none ∨ log.isLowValueEvent std = true := by
  cases hrule : log.schemaDropReason std policy with
  | none =>
      refine iff_of_true (Or.inl (decideSwitched_congr ?_)) (Or.inl rfl)
      have hnone : ∀ on, log.schemaDropReason std { policy with dropLowValueWhenOverBudget := on } = none :=
        fun _ => hrule
      unfold schemaDecision
      rw [hnone, hnone]
      rfl
  | some reason =>
      have hsome : ∀ on,
          log.schemaDropReason std { policy with dropLowValueWhenOverBudget := on } = some reason :=
        fun _ => hrule
      cases hlow : log.isLowValueEvent std with
      | true =>
          refine iff_of_true (Or.inl (decideSwitched_congr ?_)) (Or.inr rfl)
          unfold schemaDecision
          rw [hsome, hsome, hlow]
          rfl
      | false =>
          refine iff_of_false ?_ (by simp)
          have hdropped : ∀ on, (decideSwitched std reading policy tenantId log usage on).dropped = on := by
            intro on
            unfold decideSwitched decideCost
            rw [costDecision_dropped]
            unfold schemaDrops
            rw [hsome, hlow]
            exact (Bool.true_and _).trans (Bool.or_false on)
          rintro (hsame | ⟨hlow', -⟩)
          · have hflag := congrArg CostDecision.dropped hsame
            rw [hdropped, hdropped] at hflag
            cases hflag
          · cases hlow'

end switch

/-! ### A login of high severity -/

def severeLogin : IngestLogRequest := { Ingest.portScanned with eventType := "login", severity := some .high }

/-- A policy with a schema rule for logins. -/
def loginsUnwanted : TenantDataCostPolicy :=
  { keepAll 1000 with
    schemaDropRules := .arr
      [.obj [("field", .str "event_type"), ("op", .str "=="), ("value", .str "login")]] }

/-- The switch discards it, without usage. -/
theorem severeLogin_discarded :
    ¬ ∀ (std : CostText) (reading : PressureReading) (policy : TenantDataCostPolicy) (tenantId : String)
      (log : IngestLogRequest) (usage : LogUsage),
      decideSwitched std reading policy tenantId log usage true =
          decideSwitched std reading policy tenantId log usage false ∨
        (log.isLowValueEvent std = true ∧ 1 ≤ usage.pressure reading policy log) := by
  intro h
  rcases h Ingest.sampleText .rationals loginsUnwanted "t1" severeLogin ⟨0, 0, 0, 0⟩ with hsame | ⟨hlow, -⟩
  · have hkeep := congrArg CostDecision.keep hsame
    revert hkeep
    decide +kernel
  · revert hlow
    decide +kernel

end MiniSiem
