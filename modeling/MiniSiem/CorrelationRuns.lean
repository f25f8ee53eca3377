import MiniSiem.CacheFaults
import MiniSiem.CorrelationWindow

/-! # Runs of a correlation rule

Any sequence of `CorrelationRule::evaluate` calls, over logs of any groups in any order of their
timestamps, on a cache that fails and forgets.

* **One call.**  `react` is what a log does to the state of its group: nothing when it is late, an
  alert, or the next state.  `evaluate_plays`: a call reads the text of the group, then stores no
  other text than the next state, and reports no other alert than that of the reaction.
* **Runs.**  `Evaluations` are the plays of the calls one after another, with all stores in between.
* **The stored states.**  `StateOk` holds of every state in the cache, and the newest event time of a
  group never decreases while its state is stored (`states_ok`).
* **Soundness.**  `Justified`: the logs evaluated so far hold the matches that a state has counted.
  `alert_justified`: an alert comes with a match of all stages within the window and twice the
  lateness. -/

namespace MiniSiem

open Atomic MachineInt Subsequence

namespace CorrelationRule

variable (r : CorrelationRule) (fp : String → UInt64)

/-! ### One call -/

/-- What the log does to the text of its group: nothing when it is late, else an alert (`none`) or
the next state. -/
def react (text : Option StateText) (log : Log) : Option (Option CorrelationState) :=
  let groupKey := r.getGroupKey log
  let eventTs := log.timestamp.timestamp
  let state := stateOf text groupKey eventTs
  if r.isStaleByWatermark state eventTs then none
  else some (r.matchStage log (r.enterWindow groupKey eventTs state))

/-- One step of a call: the texts are kept or forgotten, and the own one, which is still the loaded
one, may become the next state. -/
def CallStep (own : String) (loaded : Option (CacheEntry StateText))
    (reaction : Option (Option CorrelationState)) (s s' : Cache StateText) : Prop :=
  ∀ key, key ≠ r.activeIndexKey → s' key = s key ∨ s' key = none ∨
    key = own ∧ (s own = loaded ∨ s own = none) ∧
      ∃ state ttl, reaction = some (some state) ∧ s' key = some ⟨.text (.state state), ttl⟩

/-- The call reports no other alert than that of the reaction. -/
def Reports (alertId : Uuid) (log : Log) (reaction : Option (Option CorrelationState))
    (reply : Except CacheError (Option Alert)) : Prop :=
  ∀ alert, reply = .ok (some alert) → reaction = some none ∧ alert = r.alert alertId log

section call

variable {r} {own : String} {loaded : Option (CacheEntry StateText)}
  {reaction : Option (Option CorrelationState)} {alertId : Uuid} {log : Log} {s : Cache StateText}

theorem callStep_of_keeps {s' : Cache StateText} (h : Cache.Keeps r.activeIndexKey s s') :
    r.CallStep own loaded reaction s s' :=
  fun key hkey => (h key hkey).imp_right Or.inl

theorem reports_error (e : CacheError) : r.Reports alertId log reaction (.error e) := by
  intro alert h
  cases h

theorem reports_none : r.Reports alertId log reaction (.ok none) := by
  intro alert h
  cases h

theorem loaded_of_keeps (hown : own ≠ r.activeIndexKey) (hs : s own = loaded ∨ s own = none)
    {s' : Cache StateText} (h : Cache.Keeps r.activeIndexKey s s') :
    s' own = loaded ∨ s' own = none := by
  rcases h own hown with hk | hk
  · rw [hk]
    exact hs
  · exact Or.inr hk

theorem persistState_guarantees (hown : own ≠ r.activeIndexKey)
    (hs : s own = loaded ∨ s own = none) {state : CorrelationState} :
    ((r.persistState own state).andThen fun _ => .pure none).Guarantees CacheCall.Answers
      (r.CallStep own loaded (some (some state)))
      (fun _ => r.Reports alertId log (some (some state))) s := by
  have hquiet : ∀ s', ((CacheM.zadd r.activeIndexKey own state.lastEventTs).andThen fun _ =>
      (CacheM.expireKey r.activeIndexKey r.stateTtlSeconds).andThen fun _ => CacheM.pure none).Guarantees
      CacheCall.Answers (r.CallStep own loaded (some (some state)))
      (fun _ => r.Reports alertId log (some (some state))) s' := by
    intro s'
    refine CacheM.guarantees_quiet (by exact rfl) (fun _ => callStep_of_keeps) (fun _ e _ => reports_error e)
      fun s₂ _ _ => ?_
    refine CacheM.guarantees_quiet (by exact rfl) (fun _ => callStep_of_keeps) (fun _ e _ => reports_error e)
      fun s₃ _ _ => ?_
    exact Prog.guarantees_ret reports_none
  unfold persistState
  simp only [CacheM.andThen_assoc]
  intro reply s' h
  refine ⟨fun key hkey => ?_, ?_⟩
  · by_cases hk : key = own
    · subst hk
      rcases h.setString with ⟨ttl, hset⟩ | hkept
      · exact Or.inr (Or.inr ⟨rfl, hs, state, ttl, rfl, hset⟩)
      · exact hkept.imp_right Or.inl
    · exact (h.frame fun he => hk (Option.some.inj he).symm).imp_right Or.inl
  · cases reply with
    | error e => exact reports_error e
    | ok u => exact hquiet s'

theorem applyStage_guarantees (hown : own ≠ r.activeIndexKey)
    (hs : s own = loaded ∨ s own = none) (state : CorrelationState) :
    (r.applyStage alertId own log state).Guarantees CacheCall.Answers
      (r.CallStep own loaded (some (r.matchStage log state)))
      (fun _ => r.Reports alertId log (some (r.matchStage log state))) s := by
  unfold applyStage
  cases r.matchStage log state with
  | none =>
      refine CacheM.guarantees_ignore (by exact trivial) (fun _ => callStep_of_keeps) fun s₁ _ => ?_
      refine CacheM.guarantees_ignore (by exact rfl) (fun _ => callStep_of_keeps) fun s₂ _ => ?_
      refine Prog.guarantees_ret fun alert halert => ⟨rfl, ?_⟩
      exact (Option.some.inj (Except.ok.inj halert)).symm
  | some next => exact persistState_guarantees hown hs

theorem evictIfNeeded_guarantees {β : Type} {Q : Cache StateText → Except CacheError β → Prop}
    (hown : own ≠ r.activeIndexKey) (hs : s own = loaded ∨ s own = none)
    {f : Bool → CacheM StateText β} (herror : ∀ s' e, Q s' (.error e))
    (hf : ∀ s' allowed, (s' own = loaded ∨ s' own = none) →
      (f allowed).Guarantees CacheCall.Answers (r.CallStep own loaded reaction) Q s') :
    ((r.evictIfNeeded own).andThen f).Guarantees CacheCall.Answers
      (r.CallStep own loaded reaction) Q s := by
  unfold evictIfNeeded
  rw [CacheM.andThen_assoc]
  refine CacheM.guarantees_quiet (by exact trivial) (fun _ => callStep_of_keeps) (fun s' e _ => herror s' e)
    fun s₁ count h₁ => ?_
  have hs₁ := loaded_of_keeps hown hs h₁
  split_ifs
  · exact hf s₁ true hs₁
  · cases r.definition.evictionPolicy with
    | dropNewest =>
        rw [CacheM.andThen_assoc]
        refine CacheM.guarantees_ignore (by exact rfl) (fun _ => callStep_of_keeps) fun s₂ h₂ => ?_
        exact hf s₂ false (loaded_of_keeps hown hs₁ h₂)
    | oldestFirst =>
        rw [CacheM.andThen_assoc]
        refine CacheM.guarantees_quiet (by exact rfl) (fun _ => callStep_of_keeps)
          (fun s' e _ => herror s' e) fun s₂ oldest h₂ => ?_
        have hs₂ := loaded_of_keeps hown hs₁ h₂
        cases oldest with
        | none => exact hf s₂ true hs₂
        | some oldestKey =>
            dsimp only
            rw [CacheM.andThen_assoc]
            refine CacheM.guarantees_ignore (by exact trivial) (fun _ => callStep_of_keeps) fun s₃ h₃ => ?_
            exact hf s₃ true (loaded_of_keeps hown hs₂ h₃)

theorem evaluateFrom_guarantees (hown : own ≠ r.activeIndexKey)
    (hs : s own = loaded ∨ s own = none) (text : Option StateText) :
    (r.evaluateFrom alertId own (r.getGroupKey log) log
      (stateOf text (r.getGroupKey log) log.timestamp.timestamp)).Guarantees CacheCall.Answers
      (r.CallStep own loaded (r.react text log))
      (fun _ => r.Reports alertId log (r.react text log)) s := by
  unfold evaluateFrom react
  dsimp only
  split_ifs with hlate hnew
  · exact Prog.guarantees_ret reports_none
  · refine evictIfNeeded_guarantees hown hs (fun _ e => reports_error e) fun s' allowed hs' => ?_
    cases allowed with
    | true => exact applyStage_guarantees hown hs' _
    | false => exact Prog.guarantees_ret reports_none
  · exact applyStage_guarantees hown hs _

end call

/-- **One call** on a group with a key: the first step reads, and the others store no text but the
next state. -/
theorem evaluate_plays {alertId : Uuid} {log : Log} {s s' : Cache StateText}
    {l : List (Cache StateText)} {reply : Except CacheError (Option Alert)}
    (hgroup : r.getGroupKey log ≠ "")
    (h : (r.evaluate fp alertId log).Plays CacheCall.Answers s l reply s') :
    ∃ s₁ l', l = s₁ :: l' ∧ Cache.Keeps r.activeIndexKey s s₁ ∧ ∃ reaction,
      (∀ next, reaction = some next → ∃ text,
        s₁.getString (r.stateKey fp (r.getGroupKey log)) = .ok text ∧ r.react text log = some next) ∧
      List.IsChain (r.CallStep (r.stateKey fp (r.getGroupKey log))
        (s₁ (r.stateKey fp (r.getGroupKey log))) reaction) (s₁ :: l') ∧
      r.Reports alertId log reaction reply := by
  have hown := r.stateKey_ne_activeIndexKey fp (r.getGroupKey log)
  unfold evaluate loadState at h
  dsimp only at h
  rw [if_neg hgroup, CacheM.andThen_assoc, CacheM.single_andThen] at h
  obtain ⟨read, s₁, l', hanswer, hk, rfl⟩ := Prog.plays_call.mp h
  refine ⟨s₁, l', rfl, hanswer.keeps trivial, ?_⟩
  cases read with
  | error e =>
      obtain ⟨rfl, rfl, rfl⟩ := Prog.plays_ret.mp hk
      exact ⟨none, fun next hnext => (by cases hnext), List.isChain_singleton _, reports_error e⟩
  | ok text =>
      rw [CacheM.resume_ok, CacheM.pure_andThen] at hk
      obtain ⟨hchain, hreports⟩ := (evaluateFrom_guarantees hown (Or.inl rfl) text).plays hk
      exact ⟨r.react text log, fun next hnext => ⟨text, hanswer.getString, hnext⟩, hchain, hreports⟩

/-- The calls on the logs, one after another, with the stores they leave behind. -/
inductive Evaluations : Cache StateText → LogSeq → List (Cache StateText) → Cache StateText → Prop where
  | nil (s : Cache StateText) : Evaluations s [] [] s
  | cons {s s₁ s' : Cache StateText} {d : Uuid × Log} {ds : LogSeq} {l l' : List (Cache StateText)}
      {reply : Except CacheError (Option Alert)}
      (h : (r.evaluate fp d.1 d.2).Plays CacheCall.Answers s l reply s₁)
      (hrest : Evaluations s₁ ds l' s') : Evaluations s (d :: ds) (l ++ l') s'

/-! ### The invariant of a state -/

/-- A stage without a count asks for one match. -/
def counted (stage : CorrelationStage) : CorrelationStage :=
  { stage with minCount := if stage.minCount = 0 then 1 else stage.minCount }

/-- The rule whose stages all ask for a match. -/
def countedRule : CorrelationRule :=
  { r with definition := { r.definition with stages := r.definition.stages.map counted } }

structure StateOk (state : CorrelationState) : Prop where
  stage : r.definition.stages = [] ∨ state.currentStageIdx < r.definition.stages.length
  events : ∀ stage, r.definition.stages[state.currentStageIdx]? = some stage →
    state.eventsInStage < max 1 stage.minCount.toNat
  windowStart : state.windowStartEventTs ≤ state.maxEventTs
  lastEvent : state.lastEventTs ≤ state.maxEventTs
  within : state.maxEventTs - r.lateness - state.windowStartEventTs ≤
    r.definition.windowSeconds.toNat

/-- A state with the times of logs. -/
structure Dated (state : CorrelationState) : Prop extends StateOk r state where
  started : minSeconds ≤ state.windowStartEventTs
  ended : state.maxEventTs ≤ maxSeconds

section invariant

variable {r} {state next : CorrelationState} {log : Log} {t : ℤ}

theorem counted_minCount (stage : CorrelationStage) :
    (counted stage).minCount.toNat = max 1 stage.minCount.toNat := by
  unfold counted
  dsimp only
  split_ifs with h
  · rw [h]
    rfl
  · have hne : stage.minCount.toNat ≠ 0 := fun h0 => h (UInt32.toNat_inj.mp h0)
    omega

theorem staged_countedRule (h : r.definition.stages ≠ []) : r.countedRule.Staged where
  nonempty := fun hnil => h (List.map_eq_nil_iff.mp hnil)
  counted := by
    intro stage hstage
    obtain ⟨stage', -, rfl⟩ := List.mem_map.mp hstage
    rw [counted_minCount]
    exact le_max_left _ _

theorem countedRule_stage (idx : ℕ) : r.countedRule.definition.stages[idx]? =
    r.definition.stages[idx]?.map counted := List.getElem?_map

theorem atStage_countedRule (h : r.definition.stages ≠ []) (hstate : r.StateOk state) :
    r.countedRule.AtStage state := by
  have hlt := hstate.stage.resolve_left h
  have hget := List.getElem?_eq_getElem hlt
  refine ⟨counted r.definition.stages[state.currentStageIdx], ?_, ?_⟩
  · rw [countedRule_stage, hget]
    rfl
  · rw [counted_minCount]
    exact hstate.events _ hget

/-- The count of a stage is reached as if it were at least one. -/
theorem matchStage_countedRule (hstate : r.StateOk state) :
    r.countedRule.matchStage log state = r.matchStage log state := by
  unfold matchStage
  rw [countedRule_stage]
  cases hs : r.definition.stages[state.currentStageIdx]? with
  | none => rfl
  | some stage =>
      have hevents := hstate.events stage hs
      have hwrap : wrapU32 (state.eventsInStage + 1) = state.eventsInStage + 1 := by
        have hlt := stage.minCount.toNat_lt
        exact wrapU32_of_lt (by omega)
      have hlength : r.countedRule.definition.stages.length = r.definition.stages.length :=
        List.length_map _
      have hcount : max 1 stage.minCount.toNat ≤ state.eventsInStage + 1 ↔
          stage.minCount.toNat ≤ state.eventsInStage + 1 := by omega
      dsimp only [Option.map_some]
      rw [hwrap, counted_minCount, hlength]
      simp only [hcount]
      rfl

/-- The window that has not passed covers the newest event, less the lateness. -/
theorem windowPassed_iff_of_fits (hW : r.definition.windowSeconds.toNat < 2 ^ 63) {ws m : ℤ}
    (h₁ : minSeconds ≤ ws) (h₂ : ws ≤ m) (h₃ : m ≤ maxSeconds) :
    r.windowPassed ws m = true ↔ r.definition.windowSeconds.toNat < m - r.lateness - ws := by
  have hlate : 0 ≤ r.lateness := le_max_right _ _
  rw [r.windowPassed_iff h₁ h₂ h₃, wrapI64_of_lt hW]
  unfold watermark satSubI64 minI64 maxI64
  unfold minSeconds at h₁
  unfold maxSeconds at h₃
  omega

theorem dated_resetState (groupKey : String) (h₁ : minSeconds ≤ t) (h₂ : t ≤ maxSeconds) :
    r.Dated (resetState groupKey t) where
  stage := by
    cases h : r.definition.stages with
    | nil => exact Or.inl rfl
    | cons stage stages => exact Or.inr (Nat.zero_lt_succ _)
  events := by
    intro stage _
    exact lt_of_lt_of_le Nat.zero_lt_one (le_max_left _ _)
  windowStart := le_refl t
  lastEvent := le_refl t
  within := by
    have hlate : 0 ≤ r.lateness := le_max_right _ _
    change t - r.lateness - t ≤ _
    omega
  started := h₁
  ended := h₂

/-- Moving the window never takes the newest event time back: it passes only by an event that is
newer than all before. -/
theorem Dated.enterWindow (hW : r.definition.windowSeconds.toNat < 2 ^ 63) (h : r.Dated state)
    (groupKey : String) (h₁ : minSeconds ≤ t) (h₂ : t ≤ maxSeconds) :
    r.Dated (r.enterWindow groupKey t state) ∧
      state.maxEventTs ≤ (r.enterWindow groupKey t state).maxEventTs ∧
      t ≤ (r.enterWindow groupKey t state).maxEventTs := by
  have hstart := h.windowStart
  have hwithin := h.within
  have hended := h.ended
  unfold CorrelationRule.enterWindow
  dsimp only
  split_ifs with hnew hpassed hpassed
  · exact ⟨dated_resetState groupKey h₁ h₂, by change _ ≤ t; omega, le_refl t⟩
  · have hcover : ¬ _ := fun hc => hpassed ((windowPassed_iff_of_fits hW h.started
      (by omega) h₂).mpr hc)
    refine ⟨⟨⟨h.stage, h.events, ?_, le_refl t, ?_⟩, h.started, h₂⟩, ?_, le_refl t⟩
    · change state.windowStartEventTs ≤ t
      omega
    · change t - r.lateness - state.windowStartEventTs ≤ _
      omega
    · change state.maxEventTs ≤ t
      omega
  · have := (windowPassed_iff_of_fits hW h.started h.windowStart h.ended).mp hpassed
    omega
  · have hle : t ≤ state.maxEventTs := by omega
    exact ⟨⟨⟨h.stage, h.events, h.windowStart, hle, h.within⟩, h.started, h.ended⟩, le_refl _, hle⟩

theorem matchStage_lastEventTs (h : r.matchStage log state = some next) :
    next.lastEventTs = state.lastEventTs ∨ next.lastEventTs = log.timestamp.timestamp := by
  obtain rfl | ⟨stage, -, ⟨-, rfl⟩ | rfl⟩ := matchStage_some h
  · exact Or.inl rfl
  · exact Or.inr rfl
  · exact Or.inr rfl

theorem Dated.matchStage (h : r.Dated state) (ht : log.timestamp.timestamp ≤ state.maxEventTs)
    (hnext : r.matchStage log state = some next) :
    r.Dated next ∧ next.maxEventTs = state.maxEventTs ∧ next.groupKey = state.groupKey := by
  by_cases hstages : r.definition.stages = []
  · rw [matchStage_of_nil hstages] at hnext
    obtain rfl := Option.some.inj hnext
    exact ⟨h, rfl, rfl⟩
  · have hspec := r.countedRule.matchStage_spec (staged_countedRule hstages) log
      (atStage_countedRule hstages h.toStateOk)
    rw [matchStage_countedRule h.toStateOk, hnext] at hspec
    obtain ⟨⟨stage, hget, hevents⟩, -, hgroup, hstart, hmax⟩ := hspec
    rw [countedRule_stage] at hget
    obtain ⟨stage', hget', rfl⟩ := Option.map_eq_some_iff.mp hget
    rw [counted_minCount] at hevents
    have hlast : next.lastEventTs = state.lastEventTs ∨ next.lastEventTs = log.timestamp.timestamp :=
      matchStage_lastEventTs hnext
    refine ⟨⟨⟨?_, ?_, ?_, ?_, ?_⟩, ?_, ?_⟩, hmax, hgroup⟩
    · exact Or.inr (List.getElem?_eq_some_iff.mp hget').1
    · intro stage hstage
      rw [hget'] at hstage
      obtain rfl := Option.some.inj hstage
      exact hevents
    · rw [hstart, hmax]
      exact h.windowStart
    · have := h.lastEvent
      rw [hmax]
      rcases hlast with hl | hl <;> omega
    · rw [hstart, hmax]
      exact h.within
    · rw [hstart]
      exact h.started
    · rw [hmax]
      exact h.ended

theorem dated_stateOf {text : Option StateText} (h : ∀ state, text = some (.state state) → r.Dated state)
    (groupKey : String) (time : DateTime) : r.Dated (stateOf text groupKey time.timestamp) := by
  have hreset := dated_resetState (r := r) groupKey time.timestamp_bounds.1 time.timestamp_bounds.2
  unfold stateOf
  cases text with
  | none => exact hreset
  | some text =>
      cases text with
      | other text => exact hreset
      | state state =>
          dsimp only
          split_ifs
          · exact h state rfl
          · exact hreset

theorem react_some {text : Option StateText} {reaction : Option CorrelationState}
    (h : r.react text log = some reaction) :
    r.isStaleByWatermark (stateOf text (r.getGroupKey log) log.timestamp.timestamp)
        log.timestamp.timestamp = false ∧
      r.matchStage log (r.enterWindow (r.getGroupKey log) log.timestamp.timestamp
        (stateOf text (r.getGroupKey log) log.timestamp.timestamp)) = reaction := by
  unfold react at h
  dsimp only at h
  split_ifs at h with hlate
  exact ⟨by simpa using hlate, Option.some.inj h⟩

/-- The next state of a group is not behind its stored one. -/
theorem react_dated (hW : r.definition.windowSeconds.toNat < 2 ^ 63) {text : Option StateText}
    (htext : ∀ state, text = some (.state state) → r.Dated state)
    (h : r.react text log = some (some next)) :
    r.Dated next ∧ next.groupKey = r.getGroupKey log ∧
      ∀ state, text = some (.state state) → state.groupKey = r.getGroupKey log →
        state.maxEventTs ≤ next.maxEventTs := by
  obtain ⟨-, hmatch⟩ := react_some h
  obtain ⟨hpending, hle, ht⟩ := (dated_stateOf htext (r.getGroupKey log) log.timestamp).enterWindow hW
    (r.getGroupKey log) log.timestamp.timestamp_bounds.1 log.timestamp.timestamp_bounds.2
  obtain ⟨hnext, hmax, hgroup⟩ := hpending.matchStage ht hmatch
  refine ⟨hnext, ?_, ?_⟩
  · rw [hgroup]
    exact r.enterWindow_groupKey (stateOf_groupKey _ _ _)
  · rintro state rfl hkey
    have hsame : stateOf (some (.state state)) (r.getGroupKey log) log.timestamp.timestamp = state :=
      if_pos hkey
    rw [hsame] at hle
    rw [hmax, hsame]
    exact hle

end invariant

/-! ### The states in the cache -/

/-- The key holds the text of the state. -/
def Stored (s : Cache StateText) (key : String) (state : CorrelationState) : Prop :=
  ∃ ttl, s key = some ⟨.text (.state state), ttl⟩

/-- Every stored state is as `P` has it. -/
def AllStored (P : String → CorrelationState → Prop) (s : Cache StateText) : Prop :=
  ∀ key, key ≠ r.activeIndexKey → ∀ state, Stored s key state → P key state

section stored

variable {r} {fp} {P P' : String → CorrelationState → Prop} {s s' : Cache StateText} {own : String}
  {loaded : Option (CacheEntry StateText)} {reaction : Option (Option CorrelationState)}
  {alertId : Uuid} {log : Log} {l : List (Cache StateText)}

theorem allStored_emptyCache : r.AllStored P emptyCache := by
  rintro key - state ⟨ttl, h⟩
  cases h

theorem AllStored.callStep (h : r.CallStep own loaded reaction s s') (hs : r.AllStored P s)
    (hnext : ∀ state, reaction = some (some state) → P own state) : r.AllStored P s' := by
  rintro key hkey state ⟨ttl, hstate⟩
  rcases h key hkey with hkept | hgone | ⟨hown, -, next, ttl', hreaction, hset⟩
  · exact hs key hkey state ⟨ttl, hkept ▸ hstate⟩
  · rw [hgone] at hstate
    cases hstate
  · rw [hset] at hstate
    cases hstate
    exact hown ▸ hnext _ hreaction

theorem stored_of_getString {key : String} {state : CorrelationState}
    (h : s.getString key = .ok (some (.state state))) : Stored s key state := by
  unfold Cache.getString at h
  split at h
  · cases h
  · rename_i text ttl hentry
    cases h
    exact ⟨ttl, hentry⟩
  · cases h

theorem getString_of_stored {key : String} {state : CorrelationState} (h : Stored s key state) :
    s.getString key = .ok (some (.state state)) := by
  obtain ⟨ttl, h⟩ := h
  unfold Cache.getString
  rw [h]

/-- What a call makes of the stored states: `P` before and `P'` after, if the reaction to a state
with `P` has `P'`; and an alert comes of the reaction to such a state. -/
theorem AllStored.plays (hP : ∀ key state, P key state → P' key state)
    (hreact : ∀ text next, (∀ state, text = some (.state state) →
        P (r.stateKey fp (r.getGroupKey log)) state) →
      r.react text log = some (some next) → P' (r.stateKey fp (r.getGroupKey log)) next)
    (hs : r.AllStored P s) {reply : Except CacheError (Option Alert)}
    (h : (r.evaluate fp alertId log).Plays CacheCall.Answers s l reply s') :
    (∀ t ∈ l, r.AllStored P' t) ∧ r.AllStored P' s' ∧ ∀ alert, reply = .ok (some alert) →
      alert = r.alert alertId log ∧ r.getGroupKey log ≠ "" ∧ ∃ text, (∀ state,
        text = some (.state state) → P (r.stateKey fp (r.getGroupKey log)) state) ∧
        r.react text log = some none := by
  by_cases hgroup : r.getGroupKey log = ""
  · unfold evaluate at h
    dsimp only at h
    rw [if_pos hgroup] at h
    obtain ⟨rfl, rfl, rfl⟩ := Prog.plays_ret.mp h
    refine ⟨fun t ht => (List.not_mem_nil ht).elim,
      fun key hkey state hstate => hP key state (hs key hkey state hstate), fun alert halert => ?_⟩
    cases halert
  · obtain ⟨s₁, l', rfl, hkeeps, reaction, hreaction, hchain, hreports⟩ := r.evaluate_plays fp hgroup h
    have hown := r.stateKey_ne_activeIndexKey fp (r.getGroupKey log)
    have hfirst : r.CallStep "" none none s s₁ := callStep_of_keeps hkeeps
    have hs₁ : r.AllStored P s₁ := hs.callStep hfirst nofun
    have hread : ∀ text, s₁.getString (r.stateKey fp (r.getGroupKey log)) = .ok text →
        ∀ state, text = some (.state state) → P (r.stateKey fp (r.getGroupKey log)) state := by
      rintro text hget state rfl
      exact hs₁ _ hown state (stored_of_getString hget)
    have hnext : ∀ state, reaction = some (some state) →
        P' (r.stateKey fp (r.getGroupKey log)) state := by
      intro state hstate
      obtain ⟨text, hget, hr⟩ := hreaction _ hstate
      exact hreact text state (hread text hget) hr
    have hs₁' : r.AllStored P' s₁ := fun key hkey state hstate => hP key state (hs₁ key hkey state hstate)
    have hall := forall_mem_of_isChain (J := r.AllStored P')
      (fun _ _ ht hstep => AllStored.callStep hstep ht hnext) hs₁' hchain
    have hend : s' ∈ s₁ :: l' := by
      have hlast := h.getLast?
      rw [List.getLast?_cons_cons] at hlast
      exact List.mem_of_getLast? hlast
    refine ⟨hall, hall s' hend, fun alert halert => ?_⟩
    obtain ⟨hr, rfl⟩ := hreports alert halert
    obtain ⟨text, hget, htext⟩ := hreaction none hr
    exact ⟨rfl, hgroup, text, hread text hget, htext⟩

end stored

/-! ### The invariant over runs -/

/-- No two groups of the logs share a fingerprint. -/
def NoCollision (ds : LogSeq) : Prop :=
  ∀ d ∈ ds, ∀ e ∈ ds, fp (r.getGroupKey d.2) = fp (r.getGroupKey e.2) →
    r.getGroupKey d.2 = r.getGroupKey e.2

/-- A group that has a state before and after has not seen its newest event time go back. -/
def Advances (s s' : Cache StateText) : Prop :=
  ∀ groupKey state state', Stored s (r.stateKey fp groupKey) state →
    Stored s' (r.stateKey fp groupKey) state' → state.maxEventTs ≤ state'.maxEventTs

/-- The state belongs to a group of the logs, under whose key it is stored. -/
def Owned (ds : LogSeq) (key : String) (state : CorrelationState) : Prop :=
  r.Dated state ∧ key = r.stateKey fp state.groupKey ∧
    ∃ d ∈ ds, state.groupKey = r.getGroupKey d.2

section invariant

variable {r} {fp} {ds : LogSeq} {s s' : Cache StateText} {l : List (Cache StateText)}

theorem advances_of_keeps (h : Cache.Keeps r.activeIndexKey s s') : r.Advances fp s s' := by
  rintro groupKey state state' ⟨ttl, hstate⟩ ⟨ttl', hstate'⟩
  rcases h _ (r.stateKey_ne_activeIndexKey fp groupKey) with hk | hk
  · rw [hk, hstate] at hstate'
    cases hstate'
    exact le_refl _
  · rw [hk] at hstate'
    cases hstate'

/-- A step that may store a state which is not behind the loaded one. -/
theorem advances_of_callStep {own : String} {loaded : Option (CacheEntry StateText)}
    {reaction : Option (Option CorrelationState)}
    (hnext : ∀ next state ttl, reaction = some (some next) →
      loaded = some ⟨.text (.state state), ttl⟩ → state.maxEventTs ≤ next.maxEventTs)
    (h : r.CallStep own loaded reaction s s') : r.Advances fp s s' := by
  rintro groupKey state state' ⟨ttl, hstate⟩ ⟨ttl', hstate'⟩
  rcases h _ (r.stateKey_ne_activeIndexKey fp groupKey) with hk | hk | ⟨hown, hloaded, next, _, hr, hset⟩
  · rw [hk, hstate] at hstate'
    cases hstate'
    exact le_refl _
  · rw [hk] at hstate'
    cases hstate'
  · rw [hset] at hstate'
    cases hstate'
    rw [← hown, hstate] at hloaded
    rcases hloaded with hl | hl
    · exact hnext _ state ttl hr hl.symm
    · cases hl

/-- One call keeps the invariant and takes no group back. -/
theorem evaluate_advances (hW : r.definition.windowSeconds.toNat < 2 ^ 63)
    (hfp : r.NoCollision fp ds) {d : Uuid × Log} (hd : d ∈ ds) (hs : r.AllStored (r.Owned fp ds) s)
    {reply : Except CacheError (Option Alert)}
    (h : (r.evaluate fp d.1 d.2).Plays CacheCall.Answers s l reply s') :
    (∀ t ∈ l, r.AllStored (r.Owned fp ds) t) ∧ r.AllStored (r.Owned fp ds) s' ∧
      List.IsChain (r.Advances fp) (s :: l) := by
  obtain ⟨hall, hend, -⟩ := hs.plays (fun _ _ h => h) (fun text next htext hnext => by
    obtain ⟨hdated, hgroup, -⟩ := react_dated hW (fun state hstate => (htext state hstate).1) hnext
    exact ⟨hdated, by rw [hgroup], d, hd, hgroup⟩) h
  refine ⟨hall, hend, ?_⟩
  by_cases hgroup : r.getGroupKey d.2 = ""
  · unfold evaluate at h
    dsimp only at h
    rw [if_pos hgroup] at h
    obtain ⟨rfl, -, -⟩ := Prog.plays_ret.mp h
    exact List.isChain_singleton _
  · obtain ⟨s₁, l', rfl, hkeeps, reaction, hreaction, hchain, -⟩ := r.evaluate_plays fp hgroup h
    refine List.isChain_cons_cons.mpr ⟨advances_of_keeps hkeeps, hchain.imp fun t t' => ?_⟩
    refine advances_of_callStep fun next state ttl hnext hloaded => ?_
    obtain ⟨text, hget, hreact⟩ := hreaction _ hnext
    have hstored : Stored s₁ (r.stateKey fp (r.getGroupKey d.2)) state := ⟨ttl, hloaded⟩
    obtain ⟨hdated, hkey, e, he, hgroup'⟩ :=
      hall s₁ List.mem_cons_self _ (r.stateKey_ne_activeIndexKey fp _) state hstored
    rw [getString_of_stored hstored] at hget
    obtain rfl := Except.ok.inj hget
    -- the stored state is one of this group, as no other group has its fingerprint
    have hsame : state.groupKey = r.getGroupKey d.2 := by
      rw [hgroup'] at hkey ⊢
      exact (hfp d hd e he (r.stateKey_inj.mp hkey)).symm
    refine (react_dated hW (fun state' h' => ?_) hreact).2.2 state rfl hsame
    cases h'
    exact hdated

theorem Evaluations.owned (hW : r.definition.windowSeconds.toNat < 2 ^ 63) {all : LogSeq}
    (hfp : r.NoCollision fp all) (hsub : ∀ d ∈ ds, d ∈ all) (hs : r.AllStored (r.Owned fp all) s)
    (h : r.Evaluations fp s ds l s') :
    (∀ t ∈ l, r.AllStored (r.Owned fp all) t) ∧ List.IsChain (r.Advances fp) (s :: l) := by
  induction h with
  | nil s => exact ⟨fun t ht => (List.not_mem_nil ht).elim, List.isChain_singleton _⟩
  | cons hplay _ ih =>
      obtain ⟨hd, hds⟩ := List.forall_mem_cons.mp hsub
      obtain ⟨hall, hend, hchain⟩ := evaluate_advances hW hfp hd hs hplay
      obtain ⟨hall', hchain'⟩ := ih hds hend
      refine ⟨fun t ht => ?_, isChain_append_last hchain hplay.getLast? hchain'⟩
      exact (List.mem_append.mp ht).elim (hall t) (hall' t)

/-- **Correlation state invariant.**  In every store of every run from the empty cache, the stored
states are as `StateOk` has them, and from one store to the next no state of a group is followed by
one with an older newest event. -/
theorem states_ok (hW : r.definition.windowSeconds.toNat < 2 ^ 63) (hfp : r.NoCollision fp ds)
    (h : r.Evaluations fp emptyCache ds l s') :
    (∀ s ∈ l, ∀ groupKey state, Stored s (r.stateKey fp groupKey) state → r.StateOk state) ∧
      List.IsChain (r.Advances fp) (emptyCache :: l) := by
  obtain ⟨hall, hchain⟩ := h.owned hW hfp (fun _ hd => hd) allStored_emptyCache
  refine ⟨fun s hs groupKey state hstate => ?_, hchain⟩
  exact (hall s hs _ (r.stateKey_ne_activeIndexKey fp groupKey) state hstate).1.toStateOk

end invariant

theorem evaluations_after (ds : LogSeq) (s : Cache StateText) :
    ∃ l, r.Evaluations fp s ds l (r.after fp ds s) := by
  induction ds generalizing s with
  | nil => exact ⟨[], .nil s⟩
  | cons d ds ih =>
      obtain ⟨l, hl⟩ := Prog.plays_run CacheCall.answers_exec (r.evaluate fp d.1 d.2) s
      obtain ⟨l', hl'⟩ := ih ((r.evaluate fp d.1 d.2).run Cache.exec s).2
      exact ⟨l ++ l', .cons hl hl'⟩

/-- A failed login and a logout three seconds later. -/
theorem twoFailures_states_ok : ∃ l, twoFailures.Evaluations (fun _ => 0) emptyCache
      [loginLog "login_failed" (.ofSeconds 0), loginLog "logout" (.ofSeconds 3)] l
      (twoFailures.after (fun _ => 0)
        [loginLog "login_failed" (.ofSeconds 0), loginLog "logout" (.ofSeconds 3)] emptyCache) ∧
    (∀ s ∈ l, ∀ groupKey state, Stored s (twoFailures.stateKey (fun _ => 0) groupKey) state →
      twoFailures.StateOk state) ∧
    List.IsChain (twoFailures.Advances fun _ => 0) (emptyCache :: l) := by
  obtain ⟨l, hl⟩ := twoFailures.evaluations_after (fun _ => 0)
    [loginLog "login_failed" (.ofSeconds 0), loginLog "logout" (.ofSeconds 3)] emptyCache
  exact ⟨l, hl, states_ok (by decide) (by unfold NoCollision; decide) hl⟩

end CorrelationRule

end MiniSiem
