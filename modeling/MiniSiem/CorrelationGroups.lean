import MiniSiem.CorrelationCalls
import MiniSiem.CorrelationEviction
import MiniSiem.CorrelationSerial
import MiniSiem.Lib.Lines
import MiniSiem.Lib.Outcomes

/-! # Groups that do not mix

Which logs share the stage progress of a correlation rule (`get_group_key`, `state_key` and `load_state` of
`detection/rules/correlation.rs`).

* **Group keys.**  The values of a log are joined with colons, which may occur in the values; two
  keys are equal exactly when the values, cut at their colons, are the same words
  (`getGroupKey_eq_iff`).
* **Progress.**  `Apart`: an evaluation neither reads the state that another log uses nor changes it.
  Besides its own state it touches the one that it takes out to make room (`run_evaluate_key`).
* **Exactness.**  `apart_iff`: for logs with different values, the evaluation is apart exactly when the words
  differ and the other state is not the one that has to go. -/

namespace MiniSiem

open Atomic

/-- The value of a log for an entry of `group_by`. -/
def groupValue (log : Log) (field : String) : String :=
  if field = "source_ip" then log.sourceIp
  else if field = "target_user" then log.targetUser.getD ""
  else if field = "event_type" then log.eventType
  else ""

namespace CorrelationRule

variable (r : CorrelationRule) (fp : String → UInt64)

/-- The tuple of the `group_by` values of a log. -/
def groupValues (log : Log) : List String := r.definition.groupBy.map (groupValue log)

/-- The values, cut at their colons. -/
def groupWords (log : Log) : List (List Char) :=
  (r.groupValues log).flatMap fun value => value.toList.splitOn ':'

/-- The evaluation of the log neither reads the state that the other log uses nor changes it.  A log
without a group key uses none. -/
def Apart (s : Cache StateText) (alertId : Uuid) (log other : Log) : Prop :=
  r.getGroupKey other ≠ "" →
    (∀ e ∈ (r.evaluate fp alertId log).record Cache.exec s,
      e.1 ≠ .getString (r.stateKey fp (r.getGroupKey other))) ∧
    ((r.evaluate fp alertId log).run Cache.exec s).2 (r.stateKey fp (r.getGroupKey other)) =
      s (r.stateKey fp (r.getGroupKey other))

/-- The log can read its own state, and what the key holds is what goes to make room for it. -/
def TakesOut (s : Cache StateText) (log : Log) (key : String) : Prop :=
  (∃ text, s.getString (r.stateKey fp (r.getGroupKey log)) = .ok text) ∧
    r.victim fp s log = some key ∧ s key ≠ none

/-! ### Group keys -/

section keys

variable {r} {log other : Log}

theorem getGroupKey_eq : r.getGroupKey log = ":".intercalate (r.groupValues log) := by
  unfold getGroupKey groupValues
  congr 1
  refine List.map_congr_left fun field _ => ?_
  unfold groupValue
  split
  · rfl
  · rfl
  · rfl
  · rename_i hip huser htype
    rw [if_neg hip, if_neg huser, if_neg htype]

/-- The words of the group key. -/
theorem words_getGroupKey (h : r.definition.groupBy ≠ []) :
    (r.getGroupKey log).toList.splitOn ':' = r.groupWords log := by
  rw [getGroupKey_eq, String.toList_intercalate]
  have hvalues : r.groupValues log ≠ [] := fun hnil =>
    h (List.map_eq_nil_iff.mp hnil)
  refine (Lines.words_intercalate fun hnil => hvalues (List.map_eq_nil_iff.mp hnil)).trans ?_
  rw [List.flatMap_map]
  rfl

/-- Two logs have one group key exactly when their values have the same words. -/
theorem getGroupKey_eq_iff :
    r.getGroupKey log = r.getGroupKey other ↔ r.groupWords log = r.groupWords other := by
  by_cases hgroup : r.definition.groupBy = []
  · have hvalues : ∀ log, r.groupValues log = [] := fun log => by
      unfold groupValues
      rw [hgroup]
      rfl
    refine iff_of_true ?_ ?_
    · rw [getGroupKey_eq, getGroupKey_eq, hvalues, hvalues]
    · unfold groupWords
      rw [hvalues, hvalues]
  · rw [← words_getGroupKey hgroup, ← words_getGroupKey hgroup, Lines.words_inj]
    exact String.toList_inj.symm

/-- Two logs without a group key have the same values. -/
theorem groupValues_of_empty (h : r.getGroupKey log = "") (h' : r.getGroupKey other = "") :
    r.groupValues log = r.groupValues other := by
  rw [getGroupKey_eq] at h h'
  unfold groupValues at *
  generalize r.definition.groupBy = fields at *
  rcases fields with _ | ⟨field, _ | ⟨next, rest⟩⟩
  · rfl
  · rw [List.map_singleton, String.intercalate_singleton] at h h'
    rw [List.map_singleton, List.map_singleton, h, h']
  · rw [List.map_cons, List.map_cons, String.intercalate_cons_cons] at h
    have hlist := congrArg String.toList h
    simp at hlist

end keys

/-! ### What an evaluation touches -/

section evaluations

variable {r} {fp} {s : Cache StateText} {alertId : Uuid} {log : Log} {key : String}

theorem single_keeps {c : CacheCall StateText} {v : Option (CacheEntry StateText)}
    (h : s key = v) (hc : c.writes ≠ some key) :
    (CacheM.single c).Always Cache.exec (fun m => m key = v) s :=
  CacheM.always_single h ((Cache.exec_frame c s hc).trans h)

/-- The stage leaves the keys of other groups alone. -/
theorem run_applyStage_key (own : String) (state : CorrelationState) (hkey : key ≠ r.activeIndexKey)
    (hown : key ≠ own) : ((r.applyStage alertId own log state).run Cache.exec s).2 key = s key := by
  have hindex : some r.activeIndexKey ≠ some key := fun he => hkey (Option.some.inj he).symm
  have hself : some own ≠ some key := fun he => hown (Option.some.inj he).symm
  suffices h : (r.applyStage alertId own log state).Always Cache.exec (fun m => m key = s key) s from h.2
  unfold applyStage
  cases r.matchStage log state with
  | none =>
      refine CacheM.always_andThen (CacheM.always_ignore (single_keeps rfl hself)) fun _ s h => ?_
      refine CacheM.always_andThen (CacheM.always_ignore (single_keeps h hindex)) fun _ s h => ?_
      exact Prog.always_ret h
  | some next =>
      refine CacheM.always_andThen ?_ fun _ s h => Prog.always_ret h
      unfold persistState
      refine CacheM.always_andThen (single_keeps rfl hself) fun _ s h => ?_
      refine CacheM.always_andThen (single_keeps h hindex) fun _ s h => ?_
      exact single_keeps h hindex

theorem run_andThen_key {α β : Type} {p : CacheM StateText α} {f : α → CacheM StateText β}
    (hf : ∀ a s', ((f a).run Cache.exec s').2 key = s' key) :
    ((p.andThen f).run Cache.exec s).2 key = (p.run Cache.exec s).2 key := by
  unfold CacheM.andThen
  rw [Prog.run_bind]
  cases (p.run Cache.exec s).1 with
  | error e => rfl
  | ok a => exact hf a _

/-- Making room takes out the first member of a full index. -/
theorem run_evictIfNeeded_key (own : String) (hkey : key ≠ r.activeIndexKey) :
    ((r.evictIfNeeded own).run Cache.exec s).2 key =
      if r.hasRoom s = false ∧ r.definition.evictionPolicy = .oldestFirst ∧
        (s.names r.activeIndexKey).head? = some key then none else s key := by
  unfold evictIfNeeded
  cases hcard : s.zcard r.activeIndexKey with
  | error e =>
      have hexec : Cache.exec (.zcard r.activeIndexKey) s = (.error e, s) := Prod.ext hcard rfl
      have hroom : r.hasRoom s = true := by
        unfold hasRoom
        rw [hcard]
      rw [CacheM.single_andThen, Prog.run_call, hexec, hroom, if_neg fun h => by cases h.1]
      rfl
  | ok count =>
      have hexec : Cache.exec (.zcard r.activeIndexKey) s = (.ok count, s) := Prod.ext hcard rfl
      have hroom : r.hasRoom s = decide (count < r.definition.maxActiveGroups.toNat) := by
        unfold hasRoom
        rw [hcard]
      rw [CacheM.run_single_andThen hexec, hroom]
      by_cases hlt : count < r.definition.maxActiveGroups.toNat
      · rw [if_pos hlt, if_neg fun h => of_decide_eq_false h.1 hlt]
        rfl
      · rw [if_neg hlt]
        cases r.definition.evictionPolicy with
        | dropNewest =>
            rw [if_neg fun h => by cases h.2.1]
            rw [run_andThen_key fun _ _ => rfl, CacheM.run_ignore]
            exact Cache.exec_frame _ _ fun he => hkey (Option.some.inj he).symm
        | oldestFirst =>
            have hzset : s.IsZset r.activeIndexKey := by
              unfold Cache.zcard at hcard
              cases hset : s.zsetAt r.activeIndexKey with
              | error e =>
                  rw [hset] at hcard
                  cases hcard
              | ok z => exact ⟨z, hset⟩
            obtain ⟨z, hz, hreply, -, -⟩ := Cache.onZset_spec hzset fun z =>
              (z.members.head?.map (fun m => (ofLex m).2), z.tail)
            have hpop : Cache.exec (.zpopmin r.activeIndexKey) s =
                (.ok (s.names r.activeIndexKey).head?, (Cache.exec (.zpopmin r.activeIndexKey) s).2) := by
              refine Prod.ext (hreply.trans ?_) rfl
              rw [← hz]
              unfold ZSet.names
              rw [List.head?_map]
            have hframe : (Cache.exec (.zpopmin r.activeIndexKey) s).2 key = s key :=
              Cache.exec_frame _ _ fun he => hkey (Option.some.inj he).symm
            rw [CacheM.run_single_andThen hpop]
            cases (s.names r.activeIndexKey).head? with
            | none =>
                rw [if_neg fun h => by cases h.2.2]
                exact hframe
            | some oldest =>
                rw [run_andThen_key fun _ _ => rfl, CacheM.run_ignore]
                show Function.update (Cache.exec (.zpopmin r.activeIndexKey) s).2 oldest none key = _
                by_cases holdest : oldest = key
                · rw [if_pos ⟨decide_eq_false hlt, rfl, by rw [holdest]⟩, holdest, Function.update_self]
                · rw [if_neg fun h => holdest (Option.some.inj h.2.2),
                    Function.update_of_ne (Ne.symm holdest)]
                  exact hframe

theorem victim_eq_some_iff : r.victim fp s log = some key ↔
    r.definition.evictionPolicy = .oldestFirst ∧ r.asksForRoom fp s log = true ∧
      (s.names r.activeIndexKey).head? = some key := by
  unfold victim
  cases r.definition.evictionPolicy with
  | dropNewest => simp
  | oldestFirst => cases r.asksForRoom fp s log <;> simp

/-- An evaluation changes what a key of another group holds exactly when it takes it out. -/
theorem run_evaluate_key (hkey : key ≠ r.activeIndexKey)
    (hown : key ≠ r.stateKey fp (r.getGroupKey log)) :
    ((r.evaluate fp alertId log).run Cache.exec s).2 key ≠ s key ↔ r.TakesOut fp s log key := by
  have hkept : ∀ {c : Cache StateText}, c key = s key → ¬ r.TakesOut fp s log key →
      (c key ≠ s key ↔ r.TakesOut fp s log key) := fun hc hno => iff_of_false (fun hne => hne hc) hno
  have hstage : ∀ (state : CorrelationState) (s' : Cache StateText),
      ((r.applyStage alertId (r.stateKey fp (r.getGroupKey log)) log state).run Cache.exec s').2 key =
        s' key := fun state _ => run_applyStage_key _ state hkey hown
  unfold evaluate loadState
  dsimp only
  split_ifs with hempty
  · refine hkept rfl fun ⟨_, hvictim, _⟩ => ?_
    exact (asksForRoom_iff.mp (victim_eq_some_iff.mp hvictim).2.1).1 hempty
  · rw [CacheM.andThen_assoc]
    cases hread : s.getString (r.stateKey fp (r.getGroupKey log)) with
    | error e =>
        have hexec : Cache.exec (.getString (r.stateKey fp (r.getGroupKey log))) s = (.error e, s) :=
          Prod.ext hread rfl
        rw [CacheM.single_andThen, Prog.run_call, hexec]
        refine hkept rfl fun ⟨⟨text, htext⟩, _⟩ => ?_
        rw [hread] at htext
        cases htext
    | ok text =>
        have hexec : Cache.exec (.getString (r.stateKey fp (r.getGroupKey log))) s = (.ok text, s) :=
          Prod.ext hread rfl
        have hat : textAt s (r.stateKey fp (r.getGroupKey log)) = text := by
          unfold textAt
          rw [hread]
        rw [CacheM.run_single_andThen hexec, CacheM.pure_andThen]
        have hasks := (asksForRoom_iff : r.asksForRoom fp s log = true ↔ _)
        unfold pending at hasks
        rw [hat] at hasks
        unfold evaluateFrom
        dsimp only
        split_ifs with hlate hnew
        · refine hkept rfl fun ⟨_, hvictim, _⟩ => ?_
          have hnot := (hasks.mp (victim_eq_some_iff.mp hvictim).2.1).2.1
          exact Bool.false_ne_true (hnot.symm.trans hlate)
        · rw [run_andThen_key fun allowed s' => ?_, run_evictIfNeeded_key _ hkey]
          · unfold TakesOut
            rw [victim_eq_some_iff, hasks]
            split_ifs with hfull
            · constructor
              · intro hne
                exact ⟨⟨text, hread⟩, ⟨hfull.2.1, ⟨hempty, Bool.eq_false_iff.mpr hlate, hnew, hfull.1⟩,
                  hfull.2.2⟩, Ne.symm hne⟩
              · exact fun h => Ne.symm h.2.2
            · refine iff_of_false (fun hne => hne rfl) fun ⟨_, ⟨hpolicy, hroom, hhead⟩, _⟩ => ?_
              exact hfull ⟨hroom.2.2.2, hpolicy, hhead⟩
          · split_ifs
            · exact hstage _ s'
            · rfl
        · refine hkept (hstage _ s) fun ⟨_, hvictim, _⟩ => ?_
          exact hnew (hasks.mp (victim_eq_some_iff.mp hvictim).2.1).2.2.1

/-! ### What an evaluation reads -/

/-- Whatever the replies, an evaluation reads the state of its own group only. -/
theorem emits_evaluate : Prog.Emits
    (fun e => ∀ key, e.1 = .getString key → key = r.stateKey fp (r.getGroupKey log))
    (r.evaluate fp alertId log) := by
  have h : Issues (fun _ _ => True) (fun c => ∀ key, c = .getString key →
      key = r.stateKey fp (r.getGroupKey log)) (r.evaluate fp alertId log) := by
    refine evaluate_issues rfl (fun key h => ?_) (fun c hc key h => ?_) fun _ _ _ _ => nofun
    · cases h
      rfl
    · subst h
      exact hc.elim
  exact h.emits

/-- The first call of a log with a group key reads the state of the group. -/
theorem getString_mem_record (h : r.getGroupKey log ≠ "") :
    ∃ e ∈ (r.evaluate fp alertId log).record Cache.exec s,
      e.1 = .getString (r.stateKey fp (r.getGroupKey log)) := by
  unfold evaluate loadState
  dsimp only
  rw [if_neg h, CacheM.andThen_assoc]
  exact ⟨_, List.mem_cons_self, rfl⟩

end evaluations

/-- **Groups that do not mix.**  For logs with different values, the evaluation of one is apart from the state
of the other exactly when the words of the values differ and the state of the other does not make room. -/
theorem apart_iff {r : CorrelationRule} {fp : String → UInt64} {s : Cache StateText} {alertId : Uuid}
    {log other : Log} (hvalues : r.groupValues log ≠ r.groupValues other)
    (hfp : fp (r.getGroupKey log) = fp (r.getGroupKey other) → r.getGroupKey log = r.getGroupKey other) :
    r.Apart fp s alertId log other ↔ r.groupWords log ≠ r.groupWords other ∧
      (r.getGroupKey other ≠ "" → ¬ r.TakesOut fp s log (r.stateKey fp (r.getGroupKey other))) := by
  have hindex := r.stateKey_ne_activeIndexKey fp (r.getGroupKey other)
  have hwords : r.groupWords log ≠ r.groupWords other →
      r.stateKey fp (r.getGroupKey other) ≠ r.stateKey fp (r.getGroupKey log) := fun hne hkey =>
    hne (getGroupKey_eq_iff.mp (hfp (r.stateKey_inj.mp hkey).symm))
  constructor
  · intro hapart
    have hne : r.groupWords log ≠ r.groupWords other := by
      intro hsame
      have hkey := getGroupKey_eq_iff.mpr hsame
      have hgroup : r.getGroupKey other ≠ "" := fun hempty =>
        hvalues (groupValues_of_empty (hkey.trans hempty) hempty)
      obtain ⟨e, he, hread⟩ := @getString_mem_record r fp s alertId log (hkey ▸ hgroup)
      rw [hkey] at hread
      exact (hapart hgroup).1 e he hread
    refine ⟨hne, fun hgroup htakes => ?_⟩
    exact (run_evaluate_key hindex (hwords hne)).mpr htakes (hapart hgroup).2
  · rintro ⟨hne, hroom⟩ hgroup
    refine ⟨fun e he hread => ?_, ?_⟩
    · have htrace := Prog.trace_record Cache.exec (r.evaluate fp alertId log) s
      exact hwords hne (emits_evaluate _ _ htrace e he _ hread)
    · by_contra hchange
      exact hroom hgroup ((run_evaluate_key hindex (hwords hne)).mp hchange)

/-- Two matches of one user on one address. -/
def byAddressAndUser : CorrelationRule :=
  { twoMatches with definition := { twoMatches.definition with groupBy := ["source_ip", "target_user"] } }

/-- A matching log of a user on an address. -/
def loginOf (sourceIp targetUser : String) : Log :=
  { matchLog (.ofSeconds 100) with sourceIp := sourceIp, targetUser := some targetUser }

/-- Users of two addresses have states of their own. -/
theorem twoUsers_apart : byAddressAndUser.Apart (fun key => UInt64.ofNat key.length) (fun _ => none) "a1"
    (loginOf "10.0.0.1" "bob") (loginOf "10.0.0.1" "alice") :=
  (apart_iff (by decide) (fun h => absurd h (by decide))).mpr
    ⟨by decide, fun _ htakes => htakes.2.2 rfl⟩

/-- The end of an address and the start of a user name are not told apart. -/
theorem splitAddress_mixes : ¬ ∀ (r : CorrelationRule) (fp : String → UInt64) (s : Cache StateText)
    (alertId : Uuid) (log other : Log), r.groupValues log ≠ r.groupValues other →
      (fp (r.getGroupKey log) = fp (r.getGroupKey other) → r.getGroupKey log = r.getGroupKey other) →
      r.Apart fp s alertId log other := by
  intro h
  have hgroup : byAddressAndUser.getGroupKey (loginOf "fe80::1" "2:bob") ≠ "" := by decide
  have hsame : byAddressAndUser.getGroupKey (loginOf "fe80::1" "2:bob") =
      byAddressAndUser.getGroupKey (loginOf "fe80::1:2" "bob") := by decide
  have hapart := h byAddressAndUser (fun _ => 0) (fun _ => none) "a1" (loginOf "fe80::1" "2:bob")
    (loginOf "fe80::1:2" "bob") (by decide) (fun _ => hsame)
  obtain ⟨e, he, hread⟩ := @getString_mem_record byAddressAndUser (fun _ => 0) (fun _ => none) "a1"
    (loginOf "fe80::1" "2:bob") hgroup
  rw [hsame] at hread
  exact (hapart (hsame ▸ hgroup)).1 e he hread

end CorrelationRule

end MiniSiem
