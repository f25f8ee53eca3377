import MiniSiem.Correlation
import MiniSiem.Lib.Subsequence

/-! # The stages of a correlation rule and its window

What a sequence of `CorrelationRule::evaluate` calls on the logs of one group detects.

* **Pattern.**  The stages spell out a pattern of conditions, each repeated `min_count` times
  (`stagePattern`); a state is a suffix of it (`remaining`), and matching one log is one step
  of greedy matching (`matchStage_none`, `matchStage_some`).
* **One call.**  `evaluate_spec`: without eviction, a call on a log that is not older than the
  state raises an alert and clears the state, or stores the next state.
* **The window.**  The window of a state starts at the first event after the last reset, match
  or not.  `alert_within_span`: a match of all stages raises an alert between its first and its
  last log when the window in force at its first log covers its last one, as a window does that
  the first log opens.  `windowStartedEarlier_missed` is a match within the window that raises
  none. -/

namespace MiniSiem

open Atomic MachineInt Subsequence

/-- A log passes a condition. -/
def passes (c : RuleCondition) (log : Log) : Bool := c.evaluate log

/-- `min_count` matches of the first stage, then of the second one, and so on. -/
def stagePattern (stages : List CorrelationStage) : List RuleCondition :=
  stages.flatMap fun stage => List.replicate stage.minCount.toNat stage.condition

/-- The matches that are missing in the stage `idx` with `n` events, and after it. -/
def remaining (stages : List CorrelationStage) (idx n : ℕ) : List RuleCondition :=
  (stagePattern (stages.drop idx)).drop n

/-- A position in the stages: the current stage exists and is not complete. -/
def InStage (stages : List CorrelationStage) (idx n : ℕ) : Prop :=
  ∃ stage, stages[idx]? = some stage ∧ n < stage.minCount.toNat

section pattern

variable {stages : List CorrelationStage} {idx n : ℕ}

theorem stagePattern_drop {stage : CorrelationStage} (h : stages[idx]? = some stage) :
    stagePattern (stages.drop idx) =
      List.replicate stage.minCount.toNat stage.condition ++ stagePattern (stages.drop (idx + 1)) := by
  obtain ⟨hlt, hget⟩ := List.getElem?_eq_some_iff.mp h
  rw [List.drop_eq_getElem_cons hlt, hget]
  unfold stagePattern
  rw [List.flatMap_cons]

theorem remaining_suffix (stages : List CorrelationStage) (idx n : ℕ) :
    remaining stages idx n <:+ stagePattern stages := by
  have hdrop : stagePattern (stages.drop idx) <:+ stagePattern stages := by
    refine ⟨stagePattern (stages.take idx), ?_⟩
    unfold stagePattern
    rw [← List.flatMap_append, List.take_append_drop]
  exact (List.drop_suffix n _).trans hdrop

/-- The next missing match is one of the current stage. -/
theorem remaining_eq_cons {stage : CorrelationStage} (h : stages[idx]? = some stage)
    (hn : n < stage.minCount.toNat) :
    remaining stages idx n = stage.condition :: remaining stages idx (n + 1) := by
  have hlen : n < (stagePattern (stages.drop idx)).length := by
    rw [stagePattern_drop h, List.length_append, List.length_replicate]
    omega
  unfold remaining
  rw [List.drop_eq_getElem_cons hlen]
  congr 1
  have hrep : n < (List.replicate stage.minCount.toNat stage.condition).length := by
    rw [List.length_replicate]
    exact hn
  simp only [stagePattern_drop h, List.getElem_append_left hrep, List.getElem_replicate]

theorem remaining_next {stage : CorrelationStage} (h : stages[idx]? = some stage)
    (hn : n = stage.minCount.toNat) : remaining stages idx n = remaining stages (idx + 1) 0 := by
  unfold remaining
  rw [stagePattern_drop h, hn, List.drop_left' (by rw [List.length_replicate]), List.drop_zero]

theorem remaining_ne_nil (h : InStage stages idx n) : remaining stages idx n ≠ [] := by
  obtain ⟨stage, hs, hn⟩ := h
  rw [remaining_eq_cons hs hn]
  exact List.cons_ne_nil _ _

end pattern

namespace CorrelationRule

variable (r : CorrelationRule) (fp : String → UInt64)

/-- There is a stage, and every stage asks for a match. -/
structure Staged : Prop where
  nonempty : r.definition.stages ≠ []
  counted : ∀ stage ∈ r.definition.stages, 1 ≤ stage.minCount.toNat

/-- The state is at a stage that is not complete. -/
def AtStage (state : CorrelationState) : Prop :=
  InStage r.definition.stages state.currentStageIdx state.eventsInStage

/-- The matches the state still waits for. -/
def missing (state : CorrelationState) : List RuleCondition :=
  remaining r.definition.stages state.currentStageIdx state.eventsInStage

/-- One log, when every stage asks for at least one match: the state takes one greedy step, and
there is no state left exactly when nothing is missing. -/
theorem matchStage_spec (hr : r.Staged) (log : Log) {state : CorrelationState}
    (h : r.AtStage state) :
    match r.matchStage log state with
    | none => advance passes (r.missing state) log = []
    | some state' =>
        r.AtStage state' ∧ r.missing state' = advance passes (r.missing state) log ∧
        state'.groupKey = state.groupKey ∧
        state'.windowStartEventTs = state.windowStartEventTs ∧
        state'.maxEventTs = state.maxEventTs := by
  have hat := h
  obtain ⟨stage, hs, hn⟩ := h
  have hmissing : r.missing state = stage.condition ::
      remaining r.definition.stages state.currentStageIdx (state.eventsInStage + 1) :=
    remaining_eq_cons hs hn
  have hwrap : wrapU32 (state.eventsInStage + 1) = state.eventsInStage + 1 := by
    have hlt := stage.minCount.toNat_lt
    exact wrapU32_of_lt (by omega)
  unfold matchStage
  rw [hs, hmissing, advance]
  dsimp only [passes]
  by_cases hc : stage.condition.evaluate log = true
  · simp only [hc, if_true, hwrap]
    by_cases hdone : stage.minCount.toNat ≤ state.eventsInStage + 1
    · have hnext := remaining_next hs (show state.eventsInStage + 1 = stage.minCount.toNat by omega)
      rw [if_pos hdone, hnext]
      by_cases hlast : r.definition.stages.length ≤ state.currentStageIdx + 1
      · rw [if_pos hlast]
        dsimp only
        unfold remaining
        rw [List.drop_eq_nil_of_le hlast]
        rfl
      · rw [if_neg hlast]
        have hlt : state.currentStageIdx + 1 < r.definition.stages.length := by omega
        refine ⟨⟨_, List.getElem?_eq_getElem hlt, ?_⟩, rfl, rfl, rfl, rfl⟩
        have := hr.counted _ (List.getElem_mem hlt)
        simp only
        omega
    · rw [if_neg hdone]
      exact ⟨⟨stage, hs, by simp only; omega⟩, rfl, rfl, rfl, rfl⟩
  · simp only [hc, Bool.false_eq_true, if_false]
    exact ⟨hat, hmissing, trivial, trivial, trivial⟩

/-! ### One call -/

theorem run_persistState {stateKey : String} (hkey : stateKey ≠ r.activeIndexKey)
    (state : CorrelationState) {s : Cache StateText} (h : s.IsZset r.activeIndexKey) :
    ∃ s', (r.persistState stateKey state).run Cache.exec s = (.ok (), s') ∧
      s' stateKey = some ⟨.text (.state state), some r.stateTtlSeconds⟩ ∧
      s'.IsZset r.activeIndexKey := by
  have hindex : some r.activeIndexKey ≠ some stateKey := fun he => hkey (Option.some.inj he).symm
  let s₁ := (Cache.exec (.setString stateKey (.state state) (some r.stateTtlSeconds)) s).2
  have h₁ : s₁.IsZset r.activeIndexKey :=
    (Cache.isZset_congr (Function.update_of_ne (Ne.symm hkey) _ _)).mpr h
  have hset : Cache.exec (.setString stateKey (.state state) (some r.stateTtlSeconds)) s =
      (.ok (), s₁) := rfl
  let s₂ := (Cache.exec (.zadd r.activeIndexKey stateKey state.lastEventTs) s₁).2
  have h₂ : s₂.IsZset r.activeIndexKey := h₁.onZset _
  let s₃ := (Cache.exec (.expireKey r.activeIndexKey r.stateTtlSeconds) s₂).2
  have hzadd : Cache.exec (.zadd r.activeIndexKey stateKey state.lastEventTs) s₁ = (.ok (), s₂) := by
    obtain ⟨u, hu⟩ := h₁.onZset_reply fun z => ((), z.insert stateKey state.lastEventTs)
    exact Prod.ext hu rfl
  refine ⟨s₃, ?_, ?_, h₂.expireKey _⟩
  · unfold persistState
    rw [CacheM.run_single_andThen hset, CacheM.run_single_andThen hzadd]
    rfl
  · calc s₃ stateKey = s₂ stateKey := Cache.exec_frame _ _ hindex
      _ = s₁ stateKey := Cache.exec_frame _ _ hindex
      _ = some ⟨.text (.state state), some r.stateTtlSeconds⟩ := Function.update_self _ _ _

theorem run_applyStage (alertId : Uuid) {stateKey : String} (hkey : stateKey ≠ r.activeIndexKey)
    (log : Log) (state : CorrelationState) {s : Cache StateText}
    (h : s.IsZset r.activeIndexKey) :
    ∃ s', s'.IsZset r.activeIndexKey ∧
      match r.matchStage log state with
      | none => (r.applyStage alertId stateKey log state).run Cache.exec s =
          (.ok (some (r.alert alertId log)), s') ∧ s' stateKey = none
      | some state' => (r.applyStage alertId stateKey log state).run Cache.exec s = (.ok none, s') ∧
          s' stateKey = some ⟨.text (.state state'), some r.stateTtlSeconds⟩ := by
  have hindex : some r.activeIndexKey ≠ some stateKey := fun he => hkey (Option.some.inj he).symm
  unfold applyStage
  cases r.matchStage log state with
  | none =>
      let s₁ := (Cache.exec (.deleteKey stateKey) s).2
      have h₁ : s₁.IsZset r.activeIndexKey :=
        (Cache.isZset_congr (Function.update_of_ne (Ne.symm hkey) _ _)).mpr h
      refine ⟨(Cache.exec (.zrem r.activeIndexKey stateKey) s₁).2, h₁.onZset _, ?_, ?_⟩
      · dsimp only
        rw [CacheM.run_andThen_ok (CacheM.run_ignore _ _),
          CacheM.run_andThen_ok (CacheM.run_ignore _ _)]
        rfl
      · exact (Cache.exec_frame (.zrem r.activeIndexKey stateKey) s₁ hindex).trans
          (Function.update_self _ _ _)
  | some state' =>
      obtain ⟨s', hrun, hs', h'⟩ := r.run_persistState hkey state' h
      refine ⟨s', h', ?_, hs'⟩
      dsimp only
      rw [CacheM.run_andThen_ok hrun]
      rfl

/-- The group can be stored without removing or refusing one. -/
def hasRoom (s : Cache StateText) : Bool :=
  match s.zcard r.activeIndexKey with
  | .ok count => count < r.definition.maxActiveGroups.toNat
  | .error _ => true

theorem run_evictIfNeeded (stateKey : String) {s : Cache StateText}
    (h : s.IsZset r.activeIndexKey) (hroom : r.hasRoom s = true) :
    (r.evictIfNeeded stateKey).run Cache.exec s = (.ok true, s) := by
  obtain ⟨z, hz⟩ := h
  have hcard : s.zcard r.activeIndexKey = .ok z.1.members.length := by
    unfold Cache.zcard
    rw [hz]
    rfl
  have hlt : z.1.members.length < r.definition.maxActiveGroups.toNat := by
    unfold hasRoom at hroom
    rw [hcard] at hroom
    exact of_decide_eq_true hroom
  have hexec : Cache.exec (.zcard r.activeIndexKey) s = (.ok z.1.members.length, s) :=
    Prod.ext hcard rfl
  unfold evictIfNeeded
  rw [CacheM.run_single_andThen hexec, if_pos hlt]
  rfl

/-- The text at a key, if there is one. -/
def textAt (s : Cache StateText) (key : String) : Option StateText :=
  match s.getString key with
  | .ok text => text
  | .error _ => none

/-- The state a call on the log works with: the stored one, moved to the time of the log. -/
def pending (s : Cache StateText) (log : Log) : CorrelationState :=
  r.enterWindow (r.getGroupKey log) log.timestamp.timestamp
    (stateOf (textAt s (r.stateKey fp (r.getGroupKey log))) (r.getGroupKey log)
      log.timestamp.timestamp)

/-- The call does not evict or refuse a group: there is room, or it does not ask for it. -/
def noEviction (s : Cache StateText) (log : Log) : Bool :=
  !isNewGroup (r.pending fp s log) log.timestamp.timestamp || r.hasRoom s

/-- A call that is not late and does not evict matches the stage of the pending state. -/
theorem run_evaluate (alertId : Uuid) {log : Log} {s : Cache StateText}
    (hgroup : r.getGroupKey log ≠ "") (hindex : s.IsZset r.activeIndexKey)
    (htext : ∃ text, s.getString (r.stateKey fp (r.getGroupKey log)) = .ok text)
    (hlate : r.isStaleByWatermark (stateOf (textAt s (r.stateKey fp (r.getGroupKey log)))
      (r.getGroupKey log) log.timestamp.timestamp) log.timestamp.timestamp = false)
    (hroom : r.noEviction fp s log = true) :
    (r.evaluate fp alertId log).run Cache.exec s =
      (r.applyStage alertId (r.stateKey fp (r.getGroupKey log)) log (r.pending fp s log)).run
        Cache.exec s := by
  obtain ⟨text, htext⟩ := htext
  have hexec : Cache.exec (.getString (r.stateKey fp (r.getGroupKey log))) s = (.ok text, s) :=
    Prod.ext htext rfl
  have hat : textAt s (r.stateKey fp (r.getGroupKey log)) = text := by
    unfold textAt
    rw [htext]
  unfold noEviction pending at hroom
  unfold pending
  rw [hat] at hlate hroom ⊢
  unfold evaluate loadState
  dsimp only
  rw [if_neg hgroup, CacheM.andThen_assoc, CacheM.run_single_andThen hexec, CacheM.pure_andThen]
  unfold evaluateFrom
  dsimp only
  rw [if_neg (by rw [hlate]; exact Bool.false_ne_true)]
  split_ifs with hnew
  · rw [hnew, Bool.not_true, Bool.false_or] at hroom
    rw [CacheM.run_andThen_ok (r.run_evictIfNeeded _ hindex hroom), if_pos rfl]
  · rfl

/-! ### The window of a state -/

/-- `state` is a state of the group after events up to the time `t`. -/
structure Tracks (groupKey : String) (t : ℤ) (state : CorrelationState) : Prop where
  group : state.groupKey = groupKey
  atStage : r.AtStage state
  started : minSeconds ≤ state.windowStartEventTs
  ordered : state.windowStartEventTs ≤ state.maxEventTs
  past : state.maxEventTs ≤ t

/-- The distance from the window start to the watermark does not overflow. -/
theorem wrapI64_gap {windowStart t : ℤ} (h₁ : minSeconds ≤ windowStart) (h₂ : windowStart ≤ t)
    (h₃ : t ≤ maxSeconds) : wrapI64 (r.watermark t - windowStart) = r.watermark t - windowStart := by
  have hle := r.watermark_le (h₁.trans h₂)
  have hlate : r.lateness ≤ maxI64 := by
    have := r.definition.watermarkLatenessSeconds.toInt_lt
    unfold lateness maxI64
    omega
  have hlow : minI64 ≤ r.watermark t ∧ (r.watermark t = minI64 ∨ t - r.lateness ≤ r.watermark t) := by
    unfold watermark satSubI64 minI64 maxI64 minSeconds maxSeconds at *
    omega
  have hsat : r.watermark t = minI64 → t < 0 ∨ t - r.lateness ≤ r.watermark t := by
    unfold watermark satSubI64 minI64 maxI64 minSeconds maxSeconds at *
    omega
  apply wrapI64_of_range
  · unfold minI64 maxI64 at *
    omega
  · unfold minSeconds maxSeconds maxI64 at *
    omega

theorem windowPassed_iff {windowStart t : ℤ} (h₁ : minSeconds ≤ windowStart) (h₂ : windowStart ≤ t)
    (h₃ : t ≤ maxSeconds) : r.windowPassed windowStart t = true ↔
      wrapI64 r.definition.windowSeconds.toNat < r.watermark t - windowStart := by
  unfold windowPassed
  rw [r.wrapI64_gap h₁ h₂ h₃]
  exact decide_eq_true_iff

/-- A window that covers a later event covers an earlier one. -/
theorem windowPassed_mono {windowStart t u : ℤ} (h₁ : minSeconds ≤ windowStart)
    (h₂ : windowStart ≤ t) (htu : t ≤ u) (h₃ : u ≤ maxSeconds)
    (h : r.windowPassed windowStart u = false) : r.windowPassed windowStart t = false := by
  by_contra hpassed
  have ht := (r.windowPassed_iff h₁ h₂ (htu.trans h₃)).mp (by simpa using hpassed)
  have hmono : r.watermark t ≤ r.watermark u := satSubI64_mono_left _ htu
  have hu := (r.windowPassed_iff h₁ (h₂.trans htu) h₃).mpr (by omega)
  rw [h] at hu
  cases hu

/-- The state of an event that is not older than the state: the window restarts or goes on. -/
theorem enterWindow_eq {groupKey : String} {t : ℤ} {state : CorrelationState}
    (h : state.maxEventTs ≤ t) :
    r.enterWindow groupKey t state =
      if r.windowPassed state.windowStartEventTs t then resetState groupKey t
      else { state with maxEventTs := t, lastEventTs := t } := by
  have hmax : (if t > state.maxEventTs then t else state.maxEventTs) = t := by
    split_ifs <;> omega
  unfold enterWindow
  dsimp only
  rw [hmax]

theorem tracks_resetState (hr : r.Staged) (groupKey : String) {t : ℤ} (ht : minSeconds ≤ t) :
    r.Tracks groupKey t (resetState groupKey t) where
  group := rfl
  atStage := by
    have hlt := List.length_pos_iff.mpr hr.nonempty
    exact ⟨_, List.getElem?_eq_getElem hlt, hr.counted _ (List.getElem_mem hlt)⟩
  started := ht
  ordered := le_refl t
  past := le_refl t

theorem Tracks.enterWindow (hr : r.Staged) {groupKey : String} {t u : ℤ}
    {state : CorrelationState} (h : r.Tracks groupKey t state) (htu : t ≤ u) :
    r.Tracks groupKey u (r.enterWindow groupKey u state) := by
  have hu := h.past.trans htu
  rw [enterWindow_eq r hu]
  split_ifs
  · exact r.tracks_resetState hr groupKey ((h.started.trans h.ordered).trans hu)
  · exact ⟨h.group, h.atStage, h.started, h.ordered.trans hu, le_refl u⟩

/-! ### Runs over one group -/

section group

variable {r} {fp} {groupKey : String}

/-- The cache holds no state of the group, or one after events up to the time `t`. -/
structure GroupCache (r : CorrelationRule) (fp : String → UInt64) (groupKey : String) (t : ℤ)
    (s : Cache StateText) : Prop where
  index : s.IsZset r.activeIndexKey
  stored : s (r.stateKey fp groupKey) = none ∨ ∃ state ttl,
    s (r.stateKey fp groupKey) = some ⟨.text (.state state), ttl⟩ ∧ r.Tracks groupKey t state

theorem GroupCache.getString {t : ℤ} {s : Cache StateText} (h : GroupCache r fp groupKey t s) :
    ∃ text, s.getString (r.stateKey fp groupKey) = .ok text := by
  unfold Cache.getString
  rcases h.stored with hs | ⟨state, ttl, hs, -⟩
  · rw [hs]
    exact ⟨none, rfl⟩
  · rw [hs]
    exact ⟨some (.state state), rfl⟩

theorem textAt_stored {s : Cache StateText} {key : String} {state : CorrelationState}
    {ttl : Option ℕ} (h : s key = some ⟨.text (.state state), ttl⟩) :
    textAt s key = some (.state state) := by
  unfold textAt Cache.getString
  rw [h]

theorem textAt_absent {s : Cache StateText} {key : String} (h : s key = none) :
    textAt s key = none := by
  unfold textAt Cache.getString
  rw [h]

/-- The state a call on the group's log works with: a new one, or the stored one. -/
theorem GroupCache.stateOf {t : ℤ} {s : Cache StateText} (h : GroupCache r fp groupKey t s)
    (u : ℤ) :
    (textAt s (r.stateKey fp groupKey) = none ∧
      stateOf (textAt s (r.stateKey fp groupKey)) groupKey u = resetState groupKey u) ∨
    ∃ state, textAt s (r.stateKey fp groupKey) = some (.state state) ∧
      r.Tracks groupKey t state ∧
      stateOf (textAt s (r.stateKey fp groupKey)) groupKey u = state := by
  rcases h.stored with hs | ⟨state, ttl, hs, htracks⟩
  · refine Or.inl ⟨textAt_absent hs, ?_⟩
    rw [textAt_absent hs]
    rfl
  · refine Or.inr ⟨state, textAt_stored hs, htracks, ?_⟩
    rw [textAt_stored hs]
    exact if_pos htracks.group

/-- One call on a log of the group that is not older than the state: it matches the pending
state, and raises the alert or stores the next state. -/
theorem evaluate_spec (hr : r.Staged) (hne : groupKey ≠ "") (alertId : Uuid) {log : Log}
    (hlog : r.getGroupKey log = groupKey) {t : ℤ} {s : Cache StateText}
    (h : GroupCache r fp groupKey t s) (ht : t ≤ log.timestamp.timestamp)
    (hroom : r.noEviction fp s log = true) :
    r.Tracks groupKey log.timestamp.timestamp (r.pending fp s log) ∧
    ∃ s', GroupCache r fp groupKey log.timestamp.timestamp s' ∧
      match r.matchStage log (r.pending fp s log) with
      | none => (r.evaluate fp alertId log).run Cache.exec s =
          (.ok (some (r.alert alertId log)), s')
      | some state => (r.evaluate fp alertId log).run Cache.exec s = (.ok none, s') ∧
          s' (r.stateKey fp groupKey) = some ⟨.text (.state state), some r.stateTtlSeconds⟩ ∧
          r.Tracks groupKey log.timestamp.timestamp state := by
  subst hlog
  have hbounds := log.timestamp.timestamp_bounds
  have hstate := h.stateOf log.timestamp.timestamp
  have hpending : r.Tracks (r.getGroupKey log) log.timestamp.timestamp (r.pending fp s log) := by
    unfold pending
    rcases hstate with ⟨-, hs⟩ | ⟨state, -, htracks, hs⟩
    · rw [hs]
      exact (r.tracks_resetState hr _ hbounds.1).enterWindow r hr (le_refl _)
    · rw [hs]
      exact htracks.enterWindow r hr ht
  have hlate : r.isStaleByWatermark (CorrelationRule.stateOf
      (textAt s (r.stateKey fp (r.getGroupKey log))) (r.getGroupKey log) log.timestamp.timestamp)
      log.timestamp.timestamp = false := by
    rcases hstate with ⟨-, hs⟩ | ⟨state, -, htracks, hs⟩
    · rw [hs]
      exact r.resetState_not_stale _ _
    · rw [hs]
      exact r.not_stale (htracks.started.trans htracks.ordered) (htracks.past.trans ht)
  refine ⟨hpending, ?_⟩
  have hrun := r.run_evaluate fp alertId hne h.index h.getString hlate hroom
  obtain ⟨s', hindex, happly⟩ := r.run_applyStage alertId
    (r.stateKey_ne_activeIndexKey fp (r.getGroupKey log)) log (r.pending fp s log) h.index
  have hmatch := r.matchStage_spec hr log hpending.atStage
  refine ⟨s', ⟨hindex, ?_⟩, ?_⟩
  · cases hm : r.matchStage log (r.pending fp s log) with
    | none =>
        rw [hm] at happly
        exact Or.inl happly.2
    | some state =>
        rw [hm] at happly hmatch
        obtain ⟨hat, -, hgroup, hstart, hmax⟩ := hmatch
        refine Or.inr ⟨state, _, happly.2, ?_⟩
        exact ⟨hgroup.trans hpending.group, hat, hstart ▸ hpending.started,
          by rw [hstart, hmax]; exact hpending.ordered, hmax ▸ hpending.past⟩
  · cases hm : r.matchStage log (r.pending fp s log) with
    | none =>
        rw [hm] at happly
        exact hrun.trans happly.1
    | some state =>
        rw [hm] at happly hmatch
        obtain ⟨hat, -, hgroup, hstart, hmax⟩ := hmatch
        refine ⟨hrun.trans happly.1, happly.2, ?_⟩
        exact ⟨hgroup.trans hpending.group, hat, hstart ▸ hpending.started,
          by rw [hstart, hmax]; exact hpending.ordered, hmax ▸ hpending.past⟩

/-! ### A match of all stages -/

/-- Logs with the identifiers an alert on them would be given. -/
abbrev LogSeq := List (Uuid × Log)

/-- The cache after the logs were evaluated one after another. -/
def after (r : CorrelationRule) (fp : String → UInt64) : LogSeq → Cache StateText → Cache StateText
  | [], s => s
  | d :: ds, s => r.after fp ds ((r.evaluate fp d.1 d.2).run Cache.exec s).2

/-- What the evaluations of the logs, one after another, returned. -/
def replies (r : CorrelationRule) (fp : String → UInt64) :
    LogSeq → Cache StateText → List (Except CacheError (Option Alert))
  | [], _ => []
  | d :: ds, s =>
      let reply := (r.evaluate fp d.1 d.2).run Cache.exec s
      reply.1 :: r.replies fp ds reply.2

/-- No evaluation of the sequence evicts or refuses a group. -/
def noEvictions (r : CorrelationRule) (fp : String → UInt64) : LogSeq → Cache StateText → Bool
  | [], _ => true
  | d :: ds, s =>
      r.noEviction fp s d.2 && r.noEvictions fp ds ((r.evaluate fp d.1 d.2).run Cache.exec s).2

theorem noEvictions_append (ds es : LogSeq) (s : Cache StateText) :
    r.noEvictions fp (ds ++ es) s = (r.noEvictions fp ds s && r.noEvictions fp es (r.after fp ds s)) := by
  induction ds generalizing s with
  | nil => rfl
  | cons d ds ih => rw [List.cons_append, noEvictions, noEvictions, after, ih, Bool.and_assoc]

/-- A sequence of logs of the group in time order, after the time `t`. -/
structure GroupLogs (r : CorrelationRule) (groupKey : String) (t : ℤ) (ds : LogSeq) : Prop where
  group : ∀ d ∈ ds, r.getGroupKey d.2 = groupKey
  sorted : ds.Pairwise fun d e => d.2.timestamp ≤ e.2.timestamp
  started : ∀ d ∈ ds, t ≤ d.2.timestamp.timestamp

theorem GroupLogs.tail {t : ℤ} {d : Uuid × Log} {ds : LogSeq}
    (h : GroupLogs r groupKey t (d :: ds)) :
    GroupLogs r groupKey d.2.timestamp.timestamp ds where
  group := fun e he => h.group e (List.mem_cons_of_mem _ he)
  sorted := (List.pairwise_cons.mp h.sorted).2
  started := fun e he => DateTime.timestamp_mono ((List.pairwise_cons.mp h.sorted).1 e he)

theorem GroupLogs.append {t : ℤ} {ds es : LogSeq} (h : GroupLogs r groupKey t (ds ++ es)) :
    GroupLogs r groupKey t ds ∧ GroupLogs r groupKey t es := by
  obtain ⟨h₁, h₂, -⟩ := List.pairwise_append.mp h.sorted
  exact ⟨⟨fun d hd => h.group d (List.mem_append_left _ hd), h₁,
      fun d hd => h.started d (List.mem_append_left _ hd)⟩,
    ⟨fun d hd => h.group d (List.mem_append_right _ hd), h₂,
      fun d hd => h.started d (List.mem_append_right _ hd)⟩⟩

/-- No log of the sequence is newer than its last one. -/
theorem GroupLogs.le_last {t : ℤ} {ds : LogSeq} {last : Log} (h : GroupLogs r groupKey t ds)
    (hlast : (ds.map Prod.snd).getLast? = some last) :
    ∀ d ∈ ds, d.2.timestamp.timestamp ≤ last.timestamp.timestamp := by
  intro d hd
  rw [List.getLast?_map] at hlast
  obtain ⟨e, he, rfl⟩ := Option.map_eq_some_iff.mp hlast
  obtain ⟨front, rfl⟩ : ∃ front, ds = front ++ [e] := by
    obtain ⟨front, hfront⟩ := List.getLast?_eq_some_iff.mp he
    exact ⟨front, hfront⟩
  rcases List.mem_append.mp hd with hd | hd
  · exact DateTime.timestamp_mono
      ((List.pairwise_append.mp h.sorted).2.2 d hd e List.mem_cons_self)
  · rw [List.mem_singleton.mp hd]

/-- A run keeps the cache one of the group. -/
theorem after_groupCache (hr : r.Staged) (hne : groupKey ≠ "") {ds : LogSeq} {t u : ℤ}
    {s : Cache StateText} (h : GroupCache r fp groupKey t s) (hlogs : GroupLogs r groupKey t ds)
    (htu : t ≤ u) (hu : ∀ d ∈ ds, d.2.timestamp.timestamp ≤ u)
    (hroom : r.noEvictions fp ds s = true) :
    ∃ t', t' ≤ u ∧ GroupCache r fp groupKey t' (r.after fp ds s) := by
  induction ds generalizing s t with
  | nil => exact ⟨t, htu, h⟩
  | cons d ds ih =>
      obtain ⟨hroom₁, hroom₂⟩ := Bool.and_eq_true_iff.mp hroom
      obtain ⟨-, s', h', hmatch⟩ := evaluate_spec hr hne d.1
        (hlogs.group d List.mem_cons_self) h (hlogs.started d List.mem_cons_self) hroom₁
      have hs' : ((r.evaluate fp d.1 d.2).run Cache.exec s).2 = s' := by
        cases hm : r.matchStage d.2 (r.pending fp s d.2) with
        | none =>
            rw [hm] at hmatch
            rw [hmatch]
        | some state =>
            rw [hm] at hmatch
            rw [hmatch.1]
      rw [after, hs']
      rw [hs'] at hroom₂
      exact ih h' hlogs.tail (hu d List.mem_cons_self) (fun e he => hu e (List.mem_cons_of_mem _ he))
        hroom₂

/-- While the window of the stored state covers the logs, the state does not fall behind a match
they hold: an alert is raised before the match ends. -/
theorem alert_of_stored (hr : r.Staged) (hne : groupKey ≠ "") {ds : LogSeq} {t u : ℤ}
    {s : Cache StateText} {state : CorrelationState} {ttl : Option ℕ}
    (h : GroupCache r fp groupKey t s)
    (hstate : s (r.stateKey fp groupKey) = some ⟨.text (.state state), ttl⟩)
    (htracks : r.Tracks groupKey t state) (hlogs : GroupLogs r groupKey t ds)
    (hu : ∀ d ∈ ds, d.2.timestamp.timestamp ≤ u) (humax : u ≤ maxSeconds)
    (hwindow : r.windowPassed state.windowStartEventTs u = false)
    (hroom : r.noEvictions fp ds s = true)
    (hwithin : Within passes (r.missing state) (ds.map Prod.snd)) :
    ∃ alert, .ok (some alert) ∈ r.replies fp ds s := by
  induction ds generalizing s t state ttl with
  | nil => exact absurd (not_within_nil hwithin) (remaining_ne_nil htracks.atStage)
  | cons d ds ih =>
      obtain ⟨hroom₁, hroom₂⟩ := Bool.and_eq_true_iff.mp hroom
      have hlog := hlogs.group d List.mem_cons_self
      have ht := hlogs.started d List.mem_cons_self
      have hd := hu d List.mem_cons_self
      have hpast := htracks.past.trans ht
      have hcovers : r.windowPassed state.windowStartEventTs d.2.timestamp.timestamp = false :=
        r.windowPassed_mono htracks.started (htracks.ordered.trans hpast) hd humax hwindow
      have hpending : r.pending fp s d.2 = { state with
          maxEventTs := d.2.timestamp.timestamp, lastEventTs := d.2.timestamp.timestamp } := by
        unfold pending
        rw [hlog, textAt_stored hstate]
        unfold CorrelationRule.stateOf
        dsimp only
        rw [if_pos htracks.group, r.enterWindow_eq hpast, hcovers]
        rfl
      have hmissing : r.missing (r.pending fp s d.2) = r.missing state := by
        rw [hpending]
        rfl
      obtain ⟨htp, s', h', hmatch⟩ := evaluate_spec hr hne d.1 hlog h ht hroom₁
      have hstep := r.matchStage_spec hr d.2 htp.atStage
      rw [replies]
      cases hm : r.matchStage d.2 (r.pending fp s d.2) with
      | none =>
          rw [hm] at hmatch
          refine ⟨r.alert d.1 d.2, ?_⟩
          rw [hmatch]
          exact List.mem_cons_self
      | some next =>
          rw [hm] at hmatch hstep
          obtain ⟨hrun, hstored, hnext⟩ := hmatch
          obtain ⟨-, hadvance, -, hstart, -⟩ := hstep
          rw [hrun] at hroom₂ ⊢
          have hwin : r.windowPassed next.windowStartEventTs u = false := by
            rw [hstart, hpending]
            exact hwindow
          have hrest : Within passes (r.missing next) (ds.map Prod.snd) := by
            rw [hadvance, hmissing]
            exact within_advance hwithin
          obtain ⟨alert, hmem⟩ := ih h' hstored hnext hlogs.tail
            (fun e he => hu e (List.mem_cons_of_mem _ he)) hwin hroom₂ hrest
          exact ⟨alert, List.mem_cons_of_mem _ hmem⟩

/-- Logs of one group in time order, with a match of all stages: `seg` runs from the first log
of the match to the last one, and they lie within the window of the definition. -/
structure MultiStageMatch (r : CorrelationRule) (fp : String → UInt64) (groupKey : String)
    (s : Cache StateText) (pre seg post : LogSeq) (m : List Log) (first last : Log) : Prop where
  staged : r.Staged
  fresh : s (r.stateKey fp groupKey) = none
  index : s.IsZset r.activeIndexKey
  logs : GroupLogs r groupKey minSeconds (pre ++ seg ++ post)
  room : r.noEvictions fp (pre ++ seg ++ post) s = true
  spells : Spells passes (stagePattern r.definition.stages) m
  sublist : List.Sublist m (seg.map Prod.snd)
  first_eq : m.head? = some first ∧ (seg.map Prod.snd).head? = some first
  last_eq : m.getLast? = some last ∧ (seg.map Prod.snd).getLast? = some last
  within : last.timestamp.1 - first.timestamp.1 ≤ r.definition.windowSeconds.toNat * 1000000000

/-- The start of the window in force when the log is evaluated: the stored one, or the log itself
when there is none or it has passed. -/
def windowStartAt (r : CorrelationRule) (fp : String → UInt64) (groupKey : String)
    (s : Cache StateText) (log : Log) : ℤ :=
  match textAt s (r.stateKey fp groupKey) with
  | some (.state state) =>
      if r.windowPassed state.windowStartEventTs log.timestamp.timestamp then log.timestamp.timestamp
      else state.windowStartEventTs
  | _ => log.timestamp.timestamp

/-- The window in force at the first log of a match has not passed at its last one. -/
def windowCovers (r : CorrelationRule) (fp : String → UInt64) (groupKey : String)
    (s : Cache StateText) (first last : Log) : Bool :=
  !r.windowPassed (windowStartAt r fp groupKey s first) last.timestamp.timestamp

/-- The pending state at a log of the group has the window in force. -/
theorem pending_windowStart {t : ℤ} {s : Cache StateText} {log : Log}
    (h : GroupCache r fp groupKey t s) (hgroup : r.getGroupKey log = groupKey)
    (ht : t ≤ log.timestamp.timestamp) :
    (r.pending fp s log).windowStartEventTs = windowStartAt r fp groupKey s log := by
  unfold windowStartAt pending
  rw [hgroup]
  rcases h.stateOf log.timestamp.timestamp with ⟨htext, hs⟩ | ⟨state, htext, htracks, hs⟩
  · have hmax : (resetState groupKey log.timestamp.timestamp).maxEventTs ≤
        log.timestamp.timestamp := le_refl _
    rw [hs, htext, r.enterWindow_eq hmax]
    split_ifs
    · rfl
    · rfl
  · rw [hs, htext, r.enterWindow_eq (htracks.past.trans ht)]
    dsimp only
    split_ifs
    · rfl
    · rfl

/-- **No missed multi-stage attack** in a group with a key, when the window in force at the first
log of the match covers it. -/
theorem alert_within_span {s : Cache StateText} {pre seg post : LogSeq} {m : List Log}
    {first last : Log} (h : MultiStageMatch r fp groupKey s pre seg post m first last)
    (hne : groupKey ≠ "")
    (hcovers : windowCovers r fp groupKey (r.after fp pre s) first last = true) :
    ∃ alert, .ok (some alert) ∈ r.replies fp seg (r.after fp pre s) := by
  obtain ⟨hpreseg, -⟩ := h.logs.append
  obtain ⟨hpre, hseg⟩ := hpreseg.append
  have hr := h.staged
  have hroom := h.room
  rw [noEvictions_append, noEvictions_append, Bool.and_eq_true, Bool.and_eq_true] at hroom
  obtain ⟨⟨hroompre, hroomseg⟩, -⟩ := hroom
  obtain ⟨d, ds, rfl⟩ : ∃ d ds, seg = d :: ds := by
    cases seg with
    | nil => cases h.first_eq.2
    | cons d ds => exact ⟨d, ds, rfl⟩
  obtain rfl : d.2 = first := Option.some.inj h.first_eq.2
  -- the cache in which the first log of the match is evaluated
  have hstart : GroupCache r fp groupKey minSeconds s := ⟨h.index, Or.inl h.fresh⟩
  have hbefore : ∀ e ∈ pre, e.2.timestamp.timestamp ≤ d.2.timestamp.timestamp := fun e he =>
    DateTime.timestamp_mono
      ((List.pairwise_append.mp hpreseg.sorted).2.2 e he d List.mem_cons_self)
  obtain ⟨t, ht, hcache⟩ := after_groupCache hr hne hstart hpre
    d.2.timestamp.timestamp_bounds.1 hbefore hroompre
  have hupto : ∀ e ∈ d :: ds, e.2.timestamp.timestamp ≤ last.timestamp.timestamp :=
    hseg.le_last h.last_eq.2
  have hlog := hseg.group d List.mem_cons_self
  have hwindow : r.windowPassed (r.pending fp (r.after fp pre s) d.2).windowStartEventTs
      last.timestamp.timestamp = false := by
    rw [pending_windowStart hcache hlog ht]
    simpa [windowCovers] using hcovers
  obtain ⟨hroom₁, hroom₂⟩ := Bool.and_eq_true_iff.mp hroomseg
  obtain ⟨htp, s', h', hmatch⟩ := evaluate_spec hr hne d.1 hlog hcache ht hroom₁
  have hstep := r.matchStage_spec hr d.2 htp.atStage
  rw [replies]
  cases hm : r.matchStage d.2 (r.pending fp (r.after fp pre s) d.2) with
  | none =>
      rw [hm] at hmatch
      refine ⟨r.alert d.1 d.2, ?_⟩
      rw [hmatch]
      exact List.mem_cons_self
  | some state =>
      rw [hm] at hmatch hstep
      obtain ⟨hrun, hstored, htracks⟩ := hmatch
      obtain ⟨-, hadvance, -, hstartTs, -⟩ := hstep
      rw [hrun] at hroom₂ ⊢
      have hwithin : Within passes (r.missing state) (ds.map Prod.snd) := by
        rw [hadvance]
        exact within_advance ⟨_, m, remaining_suffix _ _ _, h.spells, h.sublist⟩
      obtain ⟨alert, hmem⟩ := alert_of_stored hr hne h' hstored htracks hseg.tail
        (fun e he => hupto e (List.mem_cons_of_mem _ he)) last.timestamp.timestamp_bounds.2
        (by rw [hstartTs]; exact hwindow) hroom₂ hwithin
      exact ⟨alert, List.mem_cons_of_mem _ hmem⟩

end group

/-- Two failed logins of one address within ten seconds. -/
def twoFailures : CorrelationRule where
  tenantId := "t1"
  id := "r1"
  name := "two failed logins"
  severity := .high
  definition :=
    { windowSeconds := 10, version := 1, maxActiveGroups := 4096, watermarkLatenessSeconds := 0,
      stateTtlSeconds := 900, evictionPolicy := .oldestFirst, groupBy := ["source_ip"],
      stages := [{ name := "failed", condition := .field "event_type" "==" (.str "login_failed"),
                   minCount := 2 }] }

def loginLog (eventType : String) (timestamp : DateTime) : Uuid × Log :=
  ("a1", { id := "l1", tenantId := "t1", timestamp, eventType, sourceIp := "10.0.0.1",
           targetUser := none, service := none, message := "", severity := .info,
           metadata := .null, receivedAt := timestamp })

def emptyCache : Cache StateText := fun _ => none

/-- A log at 0 s that is no match starts the window, which the second match passes. -/
theorem windowStartedEarlier_missed :
    ¬ ∀ (r : CorrelationRule) (fp : String → UInt64) (groupKey : String) (s : Cache StateText)
      (pre seg post : LogSeq) (m : List Log) (first last : Log), groupKey ≠ "" →
      MultiStageMatch r fp groupKey s pre seg post m first last →
      ∃ alert, .ok (some alert) ∈ r.replies fp seg (r.after fp pre s) := by
  intro h
  have hmatch : MultiStageMatch twoFailures (fun _ => 0) "10.0.0.1" emptyCache
      [loginLog "logout" (.ofSeconds 0)]
      [loginLog "login_failed" (.ofSeconds 9), loginLog "login_failed" (.ofSeconds 11)] []
      [(loginLog "login_failed" (.ofSeconds 9)).2, (loginLog "login_failed" (.ofSeconds 11)).2]
      (loginLog "login_failed" (.ofSeconds 9)).2 (loginLog "login_failed" (.ofSeconds 11)).2 :=
    { staged := ⟨by decide, by decide⟩
      fresh := rfl
      index := ⟨_, rfl⟩
      logs := ⟨by decide, by decide, by decide⟩
      room := rfl
      spells := .cons rfl (.cons rfl .nil)
      sublist := List.Sublist.refl _
      first_eq := ⟨rfl, rfl⟩
      last_eq := ⟨rfl, rfl⟩
      within := by decide }
  obtain ⟨alert, hmem⟩ := h _ _ _ _ _ _ _ _ _ _ (by decide) hmatch
  have hreplies : twoFailures.replies (fun _ => 0)
      [loginLog "login_failed" (.ofSeconds 9), loginLog "login_failed" (.ofSeconds 11)]
      (twoFailures.after (fun _ => 0) [loginLog "logout" (.ofSeconds 0)] emptyCache) =
      [.ok none, .ok none] := rfl
  rw [hreplies] at hmem
  simp at hmem

/-- The same logs two seconds closer. -/
theorem windowStartedEarlier_covered : ∃ alert, .ok (some alert) ∈ twoFailures.replies (fun _ => 0)
    [loginLog "login_failed" (.ofSeconds 7), loginLog "login_failed" (.ofSeconds 9)]
    (twoFailures.after (fun _ => 0) [loginLog "logout" (.ofSeconds 0)] emptyCache) := by
  have hmatch : MultiStageMatch twoFailures (fun _ => 0) "10.0.0.1" emptyCache
      [loginLog "logout" (.ofSeconds 0)]
      [loginLog "login_failed" (.ofSeconds 7), loginLog "login_failed" (.ofSeconds 9)] []
      [(loginLog "login_failed" (.ofSeconds 7)).2, (loginLog "login_failed" (.ofSeconds 9)).2]
      (loginLog "login_failed" (.ofSeconds 7)).2 (loginLog "login_failed" (.ofSeconds 9)).2 :=
    { staged := ⟨by decide, by decide⟩
      fresh := rfl
      index := ⟨_, rfl⟩
      logs := ⟨by decide, by decide, by decide⟩
      room := rfl
      spells := .cons rfl (.cons rfl .nil)
      sublist := List.Sublist.refl _
      first_eq := ⟨rfl, rfl⟩
      last_eq := ⟨rfl, rfl⟩
      within := by decide }
  exact alert_within_span hmatch (by decide) rfl

end CorrelationRule

end MiniSiem
