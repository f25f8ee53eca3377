import MiniSiem.CorrelationCap

/-! # Which logs cost a group its state

When a call of `CorrelationRule::evaluate` removes the state of another group or refuses its log, on a
cache with a clock that does not fail.

* **Pressure.**  `Fair`: the call does so only if the group of the log has no state and
  `max_active_groups` other groups have one.
* **What decides.**  The call looks at the index and at the times and counters of the state instead
  (`asksForRoom`): `fair_iff` says for which logs this comes to the same, as long as no log finds the
  state of another group under its key (`FindsOwn`).
* **Runs.**  `fair_run_iff` is the same for runs of calls; `repeatedLog_evicts` is a run in which a second
  log in the second of the first one evicts another group. -/

namespace MiniSiem

open Atomic MachineInt

namespace CorrelationRule

variable (r : CorrelationRule) (fp : String → UInt64)

/-- The cache has a state of the group. -/
def HasState (c : Cache StateText) (groupKey : String) : Prop :=
  ∃ state ttl, c (r.stateKey fp groupKey) = some ⟨.text (.state state), ttl⟩ ∧
    state.groupKey = groupKey

instance (c : Cache StateText) (groupKey : String) : Decidable (r.HasState fp c groupKey) :=
  decidable_of_iff ((match c (r.stateKey fp groupKey) with
    | some ⟨.text (.state state), _⟩ => state.groupKey == groupKey
    | _ => false) = true) <| by
  unfold HasState
  rcases c (r.stateKey fp groupKey) with _ | ⟨value, ttl⟩
  · simp
  · cases value with
    | zset z => simp
    | text text => cases text <;> simp

/-- The group of the log has no state, and `max_active_groups` other groups have one. -/
def Pressure (c : Cache StateText) (log : Log) : Prop :=
  ¬ r.HasState fp c (r.getGroupKey log) ∧
    ∃ others : Finset String, r.definition.maxActiveGroups.toNat ≤ others.card ∧
      ∀ groupKey ∈ others, groupKey ≠ r.getGroupKey log ∧ r.HasState fp c groupKey

/-- The call on the log asks for room for its group and gets none. -/
def Refuses (s : TimedCache StateText) (log : Log) : Prop :=
  let groupKey := r.getGroupKey log
  let eventTs := log.timestamp.timestamp
  let state := stateOf (textAt s.store (r.stateKey fp groupKey)) groupKey eventTs
  groupKey ≠ "" ∧ r.isStaleByWatermark state eventTs = false ∧
    isNewGroup (r.enterWindow groupKey eventTs state) eventTs = true ∧
    ((r.evictIfNeeded (r.stateKey fp groupKey)).run TimedCache.exec s).1 = .ok false

/-- The call on the log removes the state of another group. -/
def Evicts (s : TimedCache StateText) (alertId : Uuid) (log : Log) : Prop :=
  ∃ groupKey, groupKey ≠ r.getGroupKey log ∧ r.HasState fp s.store groupKey ∧
    ¬ r.HasState fp ((r.evaluate fp alertId log).run TimedCache.exec s).2.store groupKey

/-- The call refuses the log, or removes the state of another group, under pressure only. -/
def Fair (s : TimedCache StateText) (alertId : Uuid) (log : Log) : Prop :=
  r.Refuses fp s log ∨ r.Evicts fp s alertId log → r.Pressure fp s.store log

/-- The log finds no state of another group under the key of its own. -/
def FindsOwn (c : Cache StateText) (log : Log) : Prop :=
  ∀ state ttl, c (r.stateKey fp (r.getGroupKey log)) = some ⟨.text (.state state), ttl⟩ →
    state.groupKey = r.getGroupKey log

/-- A log that looks new while the index is full is of a group without a state, and each entry of the
index has one; or the entry that goes is its own, or has no state. -/
def RoomIsNeeded (c : Cache StateText) (log : Log) : Prop :=
  r.asksForRoom fp c log = true →
    c (r.stateKey fp (r.getGroupKey log)) = none ∧
        (∀ key ∈ c.names r.activeIndexKey, (c key).isSome) ∨
      ∃ first, r.victim fp c log = some first ∧
        (first = r.stateKey fp (r.getGroupKey log) ∨ c first = none)

section calls

variable {r} {fp} {groups : String → Prop} {s : TimedCache StateText} {log : Log}

theorem Kept.hasState {key : String} {state : CorrelationState} (h : r.Kept fp groups s key state) :
    r.HasState fp s.store state.groupKey := by
  refine ⟨state, some r.stateTtlSeconds, ?_, rfl⟩
  rw [← h.group.1]
  exact h.stored

theorem HasState.isSome {c : Cache StateText} {groupKey : String} (h : r.HasState fp c groupKey) :
    (c (r.stateKey fp groupKey)).isSome := by
  obtain ⟨state, ttl, hstored, -⟩ := h
  rw [hstored]
  rfl

/-- Two groups with states have different keys. -/
theorem HasState.inj {c : Cache StateText} {g g' : String} (h : r.HasState fp c g)
    (h' : r.HasState fp c g') (hkey : r.stateKey fp g = r.stateKey fp g') : g = g' := by
  obtain ⟨state, ttl, hstored, rfl⟩ := h
  obtain ⟨state', ttl', hstored', rfl⟩ := h'
  rw [hkey, hstored'] at hstored
  cases hstored
  rfl

/-- A group whose log finds its own state only has a state exactly when its key is stored. -/
theorem Indexed.hasState_iff (h : r.Indexed fp groups s) (hfinds : r.FindsOwn fp s.store log) :
    r.HasState fp s.store (r.getGroupKey log) ↔
      (s.store (r.stateKey fp (r.getGroupKey log))).isSome := by
  refine ⟨HasState.isSome, fun hsome => ?_⟩
  rcases h.states _ (r.stateKey_ne_activeIndexKey fp (r.getGroupKey log)) with hnone | ⟨state, hkept⟩
  · rw [hnone] at hsome
    cases hsome
  · exact ⟨state, _, hkept.stored, hfinds _ _ hkept.stored⟩

theorem asksForRoom_iff {c : Cache StateText} :
    r.asksForRoom fp c log = true ↔
      r.getGroupKey log ≠ "" ∧
      r.isStaleByWatermark (stateOf (textAt c (r.stateKey fp (r.getGroupKey log)))
        (r.getGroupKey log) log.timestamp.timestamp) log.timestamp.timestamp = false ∧
      isNewGroup (r.pending fp c log) log.timestamp.timestamp = true ∧ r.hasRoom c = false := by
  unfold asksForRoom
  simp only [Bool.and_eq_true, bne_iff_ne, Bool.not_eq_true', and_assoc]

/-- The answer of `evict_if_needed` is no exactly when the index is full and the newest goes. -/
theorem Indexed.evictIfNeeded_reply (h : r.Indexed fp groups s) (own : String) :
    ((r.evictIfNeeded own).run TimedCache.exec s).1 = .ok false ↔
      r.hasRoom s.store = false ∧ r.definition.evictionPolicy = .dropNewest := by
  have hzcard : (TimedCache.exec (.zcard r.activeIndexKey) s).1 =
      .ok (s.store.names r.activeIndexKey).length := Cache.zcard_of_isZset h.zset
  have hpop := (exec_zpopmin h.zset).1
  have hroom : r.hasRoom s.store = false ↔ ¬ (s.store.names r.activeIndexKey).length <
      r.definition.maxActiveGroups.toNat := by
    rw [← hasRoom_iff h.zset, Bool.not_eq_true]
  unfold evictIfNeeded
  rw [hroom, CacheM.zcard, CacheM.single_andThen, Prog.run_call, hzcard, CacheM.resume_ok]
  split_ifs with hlt
  · exact ⟨nofun, fun hfull => (hfull.1 hlt).elim⟩
  · cases hpolicy : r.definition.evictionPolicy with
    | dropNewest => exact ⟨fun _ => ⟨hlt, rfl⟩, fun _ => rfl⟩
    | oldestFirst =>
        dsimp only
        have hstore : (TimedCache.exec (.zcard r.activeIndexKey) s).2 = s := rfl
        rw [hstore, CacheM.zpopmin, CacheM.single_andThen, Prog.run_call, hpop, CacheM.resume_ok]
        cases (s.store.names r.activeIndexKey).head? with
        | none => exact ⟨nofun, nofun⟩
        | some first => exact ⟨nofun, nofun⟩

theorem Indexed.refuses_iff (h : r.Indexed fp groups s) :
    r.Refuses fp s log ↔
      r.asksForRoom fp s.store log = true ∧ r.definition.evictionPolicy = .dropNewest := by
  unfold Refuses
  rw [asksForRoom_iff]
  dsimp only
  rw [h.evictIfNeeded_reply]
  unfold pending
  tauto

theorem head?_of_victim {first : String} {c : Cache StateText}
    (h : r.victim fp c log = some first) :
    r.asksForRoom fp c log = true ∧ (c.names r.activeIndexKey).head? = some first := by
  unfold victim at h
  cases hpolicy : r.definition.evictionPolicy with
  | dropNewest =>
      rw [hpolicy] at h
      cases h
  | oldestFirst =>
      rw [hpolicy] at h
      dsimp only at h
      split_ifs at h with hasks
      exact ⟨hasks, h⟩

/-- A call that refuses no group with a state removes the state of another group exactly when its victim
has one. -/
theorem Indexed.evicts_iff (hmax : 1 ≤ r.definition.maxActiveGroups.toNat) {alertId : Uuid}
    (h : r.Indexed fp (fun _ => True) s) (hfinds : r.FindsOwn fp s.store log)
    (hrefuse : r.RefusesNoLive fp s.store log) :
    r.Evicts fp s alertId log ↔ ∃ first, r.victim fp s.store log = some first ∧
      first ≠ r.stateKey fp (r.getGroupKey log) ∧ (s.store first).isSome := by
  have hcall := evaluate_indexed hmax alertId trivial h hrefuse
  obtain ⟨-, hend, hspares⟩ := hcall.run (J := fun t => r.Capped fp t.store)
    TimedCache.answers_exec (fun _ _ hcapped => hcapped) h.capped
  constructor
  · rintro ⟨groupKey, hne, hstate, hgone⟩
    have hown : r.stateKey fp groupKey ≠ r.stateKey fp (r.getGroupKey log) := by
      intro hkey
      obtain ⟨state, ttl, hstored, rfl⟩ := hstate
      exact hne (hfinds state ttl (by rw [← hkey]; exact hstored))
    have hafter := hspares _ (r.stateKey_ne_activeIndexKey fp groupKey) hown
    refine ⟨r.stateKey fp groupKey, ?_, hown, hstate.isSome⟩
    by_contra hvictim
    rw [if_neg hvictim] at hafter
    obtain ⟨state, ttl, hstored, hgroup⟩ := hstate
    exact hgone ⟨state, ttl, hafter.trans hstored, hgroup⟩
  · rintro ⟨first, hvictim, hne, hsome⟩
    have hindex : first ≠ r.activeIndexKey :=
      h.names first (List.mem_of_mem_head? (head?_of_victim hvictim).2)
    rcases h.states first hindex with hnone | ⟨state, hkept⟩
    · rw [hnone] at hsome
      cases hsome
    · have hgone := hspares first hindex hne
      rw [if_pos hvictim, hkept.group.1] at hgone
      refine ⟨state.groupKey, fun hgroup => hne ?_, hkept.hasState, fun hafter => ?_⟩
      · rw [hkept.group.1, hgroup]
      · have hsome' := hafter.isSome
        rw [hgone] at hsome'
        cases hsome'

/-- The index is full, so the groups with states are enough exactly when each of its entries has one. -/
theorem Indexed.pressure_iff (h : r.Indexed fp groups s) (hfinds : r.FindsOwn fp s.store log)
    (hfull : r.hasRoom s.store = false) :
    r.Pressure fp s.store log ↔ s.store (r.stateKey fp (r.getGroupKey log)) = none ∧
      ∀ key ∈ s.store.names r.activeIndexKey, (s.store key).isSome := by
  have hlength : (s.store.names r.activeIndexKey).length = r.definition.maxActiveGroups.toNat := by
    refine le_antisymm h.cap (not_lt.mp fun hlt => ?_)
    rw [(hasRoom_iff h.zset).mpr hlt] at hfull
    cases hfull
  have hnodup := s.store.names_nodup r.activeIndexKey
  unfold Pressure
  rw [h.hasState_iff hfinds, Option.not_isSome_iff_eq_none]
  refine and_congr_right fun hown => ⟨?_, fun hall => ?_⟩
  · rintro ⟨others, hcard, hothers⟩ key hkey
    have hsub : others.image (r.stateKey fp) ⊆ (s.store.names r.activeIndexKey).toFinset := by
      intro name hname
      obtain ⟨groupKey, hgroup, rfl⟩ := Finset.mem_image.mp hname
      exact List.mem_toFinset.mpr (h.mem_names (r.stateKey_ne_activeIndexKey fp groupKey)
        (hothers groupKey hgroup).2.isSome)
    have hinj : (others.image (r.stateKey fp)).card = others.card :=
      Finset.card_image_of_injOn fun g hg g' hg' hkeys =>
        (hothers g hg).2.inj (hothers g' hg').2 hkeys
    have heq : others.image (r.stateKey fp) = (s.store.names r.activeIndexKey).toFinset := by
      refine Finset.eq_of_subset_of_card_le hsub ?_
      rw [hinj, List.toFinset_card_of_nodup hnodup, hlength]
      exact hcard
    have hmem := List.mem_toFinset.mpr hkey
    rw [← heq] at hmem
    obtain ⟨groupKey, hgroup, rfl⟩ := Finset.mem_image.mp hmem
    exact (hothers groupKey hgroup).2.isSome
  · have hgroup : ∀ key ∈ s.store.names r.activeIndexKey, ∃ groupKey,
        r.stateKey fp groupKey = key ∧ r.HasState fp s.store groupKey := by
      intro key hkey
      rcases h.states key (h.names key hkey) with hnone | ⟨state, hkept⟩
      · have hsome := hall key hkey
        rw [hnone] at hsome
        cases hsome
      · exact ⟨state.groupKey, hkept.group.1.symm, hkept.hasState⟩
    choose! groupOf hkey hstate using hgroup
    refine ⟨(s.store.names r.activeIndexKey).toFinset.image groupOf, ?_, fun groupKey hmem => ?_⟩
    · rw [Finset.card_image_of_injOn, List.toFinset_card_of_nodup hnodup, hlength]
      intro key hmem key' hmem' hgroups
      have hmem₁ := List.mem_toFinset.mp (Finset.mem_coe.mp hmem)
      have hmem₂ := List.mem_toFinset.mp (Finset.mem_coe.mp hmem')
      rw [← hkey key hmem₁, hgroups, hkey key' hmem₂]
    · obtain ⟨key, hname, rfl⟩ := Finset.mem_image.mp hmem
      have hin := List.mem_toFinset.mp hname
      refine ⟨fun hsame => ?_, hstate key hin⟩
      have hsome := hall key hin
      rw [← hkey key hin, hsame, hown] at hsome
      cases hsome

theorem RoomIsNeeded.refusesNoLive (h : r.RoomIsNeeded fp s.store log) :
    r.RefusesNoLive fp s.store log := by
  intro hpolicy hasks
  rcases h hasks with ⟨hnone, -⟩ | ⟨first, hvictim, -⟩
  · exact hnone
  · unfold victim at hvictim
    rw [hpolicy] at hvictim
    cases hvictim

/-- **One call** is fair exactly when the room it asks for is needed. -/
theorem Indexed.fair_iff (hmax : 1 ≤ r.definition.maxActiveGroups.toNat) {alertId : Uuid}
    (h : r.Indexed fp (fun _ => True) s) (hfinds : r.FindsOwn fp s.store log) :
    r.Fair fp s alertId log ↔ r.RoomIsNeeded fp s.store log := by
  have hpressure : r.asksForRoom fp s.store log = true → (r.Pressure fp s.store log ↔ _) :=
    fun hasks => h.pressure_iff hfinds (asksForRoom_iff.mp hasks).2.2.2
  unfold Fair RoomIsNeeded
  rw [h.refuses_iff]
  cases hpolicy : r.definition.evictionPolicy with
  | dropNewest =>
      have hvictim : r.victim fp s.store log = none := by
        unfold victim
        rw [hpolicy]
      rw [hvictim]
      constructor
      · intro hfair hasks
        exact Or.inl ((hpressure hasks).mp (hfair (Or.inl ⟨hasks, rfl⟩)))
      · intro hneeded hcost
        have hasks : r.asksForRoom fp s.store log = true := by
          rcases hcost with ⟨hasks, -⟩ | hevicts
          · exact hasks
          · by_contra hnot
            have hrefuse : r.RefusesNoLive fp s.store log := fun _ hasks => (hnot hasks).elim
            obtain ⟨first, hfirst, -⟩ := (h.evicts_iff hmax hfinds hrefuse).mp hevicts
            rw [hvictim] at hfirst
            cases hfirst
        rcases hneeded hasks with hfull | ⟨first, hfirst, -⟩
        · exact (hpressure hasks).mpr hfull
        · cases hfirst
  | oldestFirst =>
      have hrefuse : r.RefusesNoLive fp s.store log := by
        intro hnewest
        rw [hpolicy] at hnewest
        cases hnewest
      rw [h.evicts_iff hmax hfinds hrefuse]
      constructor
      · intro hfair hasks
        obtain ⟨first, hfirst⟩ : ∃ first, r.victim fp s.store log = some first := by
          have hnames : s.store.names r.activeIndexKey ≠ [] := by
            intro hnil
            have hroom := mt (hasRoom_iff h.zset).mpr
              (by rw [(asksForRoom_iff.mp hasks).2.2.2]; exact Bool.false_ne_true)
            rw [hnil] at hroom
            exact hroom (Nat.lt_of_lt_of_le Nat.zero_lt_one hmax)
          unfold victim
          rw [hpolicy]
          dsimp only
          rw [if_pos hasks]
          exact Option.isSome_iff_exists.mp (List.isSome_head?.mpr hnames)
        by_cases hown : first = r.stateKey fp (r.getGroupKey log)
        · exact Or.inr ⟨first, hfirst, Or.inl hown⟩
        · rcases hstored : s.store first with _ | e
          · exact Or.inr ⟨first, hfirst, Or.inr hstored⟩
          · refine Or.inl ((hpressure hasks).mp (hfair (Or.inr ⟨first, hfirst, hown, ?_⟩)))
            rw [hstored]
            rfl
      · rintro hneeded (⟨-, hnewest⟩ | ⟨first, hfirst, hown, hsome⟩)
        · cases hnewest
        · have hasks := (head?_of_victim hfirst).1
          rcases hneeded hasks with hfull | ⟨first', hfirst', hspared⟩
          · exact (hpressure hasks).mpr hfull
          · rw [hfirst] at hfirst'
            obtain rfl := Option.some.inj hfirst'
            rcases hspared with hsame | hnone
            · exact (hown hsame).elim
            · rw [hnone] at hsome
              cases hsome

end calls

/-! ### Runs -/

section runs

variable {r} {fp} {es : List TimedEvaluation}

/-- **Real pressure.**  In a run no log of which finds the state of another group under its key, every
call is fair exactly when every call needs the room it asks for. -/
theorem fair_run_iff (hmax : 1 ≤ r.definition.maxActiveGroups.toNat)
    (hfinds : Runs.Meets (r.callStep fp) (fun s e => r.FindsOwn fp (s.elapse e.wait).store e.log)
      es .empty) :
    Runs.Meets (r.callStep fp) (fun s e => r.Fair fp (s.elapse e.wait) e.alertId e.log) es .empty ↔
      Runs.Meets (r.callStep fp) (fun s e => r.RoomIsNeeded fp (s.elapse e.wait).store e.log)
        es .empty := by
  have hiff : Runs.Meets (r.callStep fp) (fun s e => r.FindsOwn fp (s.elapse e.wait).store e.log ∧
        r.Fair fp (s.elapse e.wait) e.alertId e.log) es .empty ↔
      Runs.Meets (r.callStep fp) (fun s e => r.FindsOwn fp (s.elapse e.wait).store e.log ∧
        r.RoomIsNeeded fp (s.elapse e.wait).store e.log) es .empty := by
    refine Runs.meets_iff_meets (J := r.Indexed fp fun _ => True) (fun s e _ hJ => ?_)
      (fun s e _ s' hJ hneeded hstep => ?_) indexed_empty
    · exact and_congr_right fun hfinds => (hJ.elapse e.wait).fair_iff hmax hfinds
    · exact (hJ.call hmax trivial hneeded.2.refusesNoLive).2 s' hstep
  rw [Runs.meets_and, Runs.meets_and] at hiff
  exact (and_iff_right hfinds).symm.trans (hiff.trans (and_iff_right hfinds))

end runs

/-- The second of two addresses takes the place of the first one. -/
theorem newAddress_fair : Runs.Meets ((fewAddresses 1 .oldestFirst).callStep addressFp)
    (fun s e => (fewAddresses 1 .oldestFirst).Fair addressFp (s.elapse e.wait) e.alertId e.log)
    [logoutOf "10.0.0.1" 0 (.ofSeconds 0), logoutOf "10.0.0.2" 5 (.ofSeconds 1)] .empty := by
  have hfinds : Runs.Meets ((fewAddresses 1 .oldestFirst).callStep addressFp)
      (fun s e => (fewAddresses 1 .oldestFirst).FindsOwn addressFp (s.elapse e.wait).store e.log)
      [logoutOf "10.0.0.1" 0 (.ofSeconds 0), logoutOf "10.0.0.2" 5 (.ofSeconds 1)] .empty :=
    ⟨fun _ _ hstored => (Option.some_ne_none _ hstored.symm).elim,
      fun _ _ hstored => (Option.some_ne_none _ hstored.symm).elim, trivial⟩
  refine (fair_run_iff (by decide) hfinds).mpr ⟨fun hasks => ?_, fun _ => ?_, trivial⟩
  · revert hasks
    decide +kernel
  · exact Or.inl ⟨rfl, by decide +kernel⟩

/-- The second log of an address, in the second of the first one, costs the other address its state. -/
theorem repeatedLog_evicts : ¬ ∀ (r : CorrelationRule) (fp : String → UInt64)
    (es : List TimedEvaluation), 1 ≤ r.definition.maxActiveGroups.toNat →
    Runs.Meets (r.callStep fp) (fun s e => r.Fair fp (s.elapse e.wait) e.alertId e.log) es .empty := by
  intro h
  let r := fewAddresses 2 .oldestFirst
  obtain ⟨-, -, hfair, -⟩ := h r addressFp
    [logoutOf "10.0.0.2" 0 (.ofSeconds 0), logoutOf "10.0.0.1" 5 (.ofSeconds 5),
      logoutOf "10.0.0.1" 0 (.ofSeconds 5)] (by decide)
  refine (hfair (Or.inr ⟨"10.0.0.2", ?_, ?_, ?_⟩)).1 ?_
  · decide
  · decide +kernel
  · decide +kernel
  · decide +kernel

end CorrelationRule

end MiniSiem
