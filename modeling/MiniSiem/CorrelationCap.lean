import MiniSiem.CacheClock
import MiniSiem.CorrelationWindow
import MiniSiem.Lib.Runs

/-! # The cap on the groups of a correlation rule

The states of the groups and the active index that is to mirror them, over calls of
`CorrelationRule::evaluate` on a cache with a clock that does not fail.

* **Room.**  `asksForRoom`: a log that looks like the first one of its group finds the index full.
* **The index.**  `Indexed`: every stored state is in the index, whose expiry is not before that of the
  state, and the index is within the cap.  In the middle of a call this holds of all groups but one
  (`Room`).
* **One call.**  `evaluate_indexed`: a call that refuses no group with a live state keeps the index a
  mirror, stays within the cap at every step, and removes one other state at most (`victim`).
* **The cap.**  `groups_bounded` is the bound for runs of such calls; `refusedGroup_unbounded` is a run
  that passes it. -/

namespace MiniSiem

open Atomic MachineInt

namespace CorrelationRule

variable (r : CorrelationRule) (fp : String → UInt64)

/-- The log looks like the first one of its group and finds the index full. -/
def asksForRoom (c : Cache StateText) (log : Log) : Bool :=
  let groupKey := r.getGroupKey log
  let eventTs := log.timestamp.timestamp
  let state := stateOf (textAt c (r.stateKey fp groupKey)) groupKey eventTs
  groupKey != "" && !r.isStaleByWatermark state eventTs && isNewGroup (r.pending fp c log) eventTs &&
    !r.hasRoom c

/-- The key that `evict_if_needed` takes out for the log. -/
def victim (c : Cache StateText) (log : Log) : Option String :=
  match r.definition.evictionPolicy with
  | .oldestFirst => if r.asksForRoom fp c log then (c.names r.activeIndexKey).head? else none
  | .dropNewest => none

/-- At most `max_active_groups` groups have a state. -/
def Capped (c : Cache StateText) : Prop :=
  ∀ keys : Finset String, (∀ key ∈ keys, ∃ groupKey, key = r.stateKey fp groupKey ∧ (c key).isSome) →
    keys.card ≤ r.definition.maxActiveGroups.toNat

/-- The call refuses no group that has a live state. -/
def RefusesNoLive (c : Cache StateText) (log : Log) : Prop :=
  r.definition.evictionPolicy = .dropNewest → r.asksForRoom fp c log = true →
    c (r.stateKey fp (r.getGroupKey log)) = none

/-! ### The index mirrors the states -/

section mirror

variable (groups : String → Prop)

/-- The key holds the state of its group, is in the index, and expires no later than the index. -/
structure Kept (s : TimedCache StateText) (key : String) (state : CorrelationState) : Prop where
  stored : s.store key = some ⟨.text (.state state), some r.stateTtlSeconds⟩
  group : key = r.stateKey fp state.groupKey ∧ groups state.groupKey
  indexed : key ∈ s.store.names r.activeIndexKey
  ttl : s.store.ttlAt r.activeIndexKey = some r.stateTtlSeconds
  since : s.since key ≤ s.since r.activeIndexKey

/-- The index is a sorted set of other keys, and was given its expiry before now. -/
structure IndexOk (s : TimedCache StateText) : Prop where
  zset : s.store.IsZset r.activeIndexKey
  names : ∀ name ∈ s.store.names r.activeIndexKey, name ≠ r.activeIndexKey
  past : s.since r.activeIndexKey ≤ s.now

/-- The index mirrors the states and is within the cap. -/
structure Indexed (s : TimedCache StateText) : Prop extends IndexOk r s where
  states : ∀ key, key ≠ r.activeIndexKey →
    s.store key = none ∨ ∃ state, r.Kept fp groups s key state
  cap : (s.store.names r.activeIndexKey).length ≤ r.definition.maxActiveGroups.toNat

/-- The index mirrors the states of the other groups, and has room for the one with the key `own`. -/
structure Room (own : String) (s : TimedCache StateText) : Prop extends IndexOk r s where
  others : ∀ key, key ≠ r.activeIndexKey → key ≠ own →
    s.store key = none ∨ ∃ state, r.Kept fp groups s key state
  stored : s.store own = none ∨ ∃ state,
    s.store own = some ⟨.text (.state state), some r.stateTtlSeconds⟩ ∧
    (own = r.stateKey fp state.groupKey ∧ groups state.groupKey) ∧ s.since own ≤ s.now
  room : ((s.store.names r.activeIndexKey).filter (· ≠ own)).length <
    r.definition.maxActiveGroups.toNat

/-- The other keys are as before, but for the victim. -/
def Spares (own : String) (victim : Option String) (s s' : TimedCache StateText) : Prop :=
  ∀ key, key ≠ r.activeIndexKey → key ≠ own →
    s'.store key = if victim = some key then none else s.store key

variable {r} {fp} {groups} {s s' : TimedCache StateText} {own : String}

theorem capped_of_names (names : List String)
    (hnames : names.length ≤ r.definition.maxActiveGroups.toNat) {c : Cache StateText}
    (h : ∀ key, key ≠ r.activeIndexKey → (c key).isSome → key ∈ names) : r.Capped fp c := by
  intro keys hkeys
  have hsub : keys ⊆ names.toFinset := by
    intro key hkey
    obtain ⟨groupKey, rfl, hsome⟩ := hkeys key hkey
    exact List.mem_toFinset.mpr (h _ (r.stateKey_ne_activeIndexKey fp groupKey) hsome)
  calc keys.card ≤ names.toFinset.card := Finset.card_le_card hsub
    _ ≤ names.length := names.toFinset_card_le
    _ ≤ r.definition.maxActiveGroups.toNat := hnames

theorem Indexed.mem_names (h : r.Indexed fp groups s) {key : String} (hkey : key ≠ r.activeIndexKey)
    (hsome : (s.store key).isSome) : key ∈ s.store.names r.activeIndexKey := by
  rcases h.states key hkey with hnone | ⟨state, hkept⟩
  · rw [hnone] at hsome
    cases hsome
  · exact hkept.indexed

theorem Indexed.capped (h : r.Indexed fp groups s) : r.Capped fp s.store :=
  capped_of_names _ h.cap fun _ => h.mem_names

theorem Room.capped (h : r.Room fp groups own s) : r.Capped fp s.store := by
  refine capped_of_names (own :: (s.store.names r.activeIndexKey).filter (· ≠ own)) h.room
    fun key hkey hsome => ?_
  by_cases hown : key = own
  · rw [hown]
    exact List.mem_cons_self
  · rcases h.others key hkey hown with hnone | ⟨state, hkept⟩
    · rw [hnone] at hsome
      cases hsome
    · refine List.mem_cons_of_mem _ (List.mem_filter.mpr ⟨hkept.indexed, ?_⟩)
      exact decide_eq_true hown

theorem length_le_filter_ne {names : List String} (h : names.Nodup) (name : String) :
    names.length ≤ (names.filter (· ≠ name)).length + 1 := by
  have hfilter : names.filter (· ≠ name) = names.erase name := by
    rw [h.erase_eq_filter]
    congr 1
    funext n
    by_cases hn : n = name <;> simp [hn]
  rw [hfilter, List.length_erase]
  split_ifs <;> omega

/-- The group of a key that the index has, or has room for. -/
theorem Indexed.room (h : r.Indexed fp groups s) (hown : own ≠ r.activeIndexKey)
    (hroom : own ∈ s.store.names r.activeIndexKey ∨
      (s.store.names r.activeIndexKey).length < r.definition.maxActiveGroups.toNat) :
    r.Room fp groups own s := by
  refine ⟨h.toIndexOk, fun key hkey _ => h.states key hkey, ?_, ?_⟩
  · rcases h.states own hown with hnone | ⟨state, hkept⟩
    · exact Or.inl hnone
    · exact Or.inr ⟨state, hkept.stored, hkept.group, hkept.since.trans h.past⟩
  · have hcap := h.cap
    rcases hroom with hmem | hlt
    · have hless : ((s.store.names r.activeIndexKey).filter (· ≠ own)).length <
          (s.store.names r.activeIndexKey).length :=
        List.length_filter_lt_length_iff_exists.mpr ⟨own, hmem, by simp⟩
      omega
    · exact lt_of_le_of_lt (List.length_filter_le _ _) hlt

/-- A state is kept while its key, its place in the index and the expiry of the index are. -/
theorem Kept.congr {key : String} {state : CorrelationState} (h : r.Kept fp groups s key state)
    (hkey : s'.store key = s.store key) (hsince : s'.since key = s.since key)
    (hnames : key ∈ s'.store.names r.activeIndexKey)
    (httl : s'.store.ttlAt r.activeIndexKey = some r.stateTtlSeconds)
    (hindex : s.since r.activeIndexKey ≤ s'.since r.activeIndexKey) :
    r.Kept fp groups s' key state :=
  ⟨hkey.trans h.stored, h.group, hnames, httl, by rw [hsince]; exact h.since.trans hindex⟩

/-! ### Time -/

theorem Indexed.elapse (h : r.Indexed fp groups s) (ms : ℕ) : r.Indexed fp groups (s.elapse ms) := by
  have hpast : (s.elapse ms).since r.activeIndexKey ≤ (s.elapse ms).now :=
    h.past.trans (Nat.le_add_right _ _)
  rcases hindex : (s.elapse ms).store r.activeIndexKey with _ | e
  · -- the index has expired, and the states with it
    have hnil : (s.elapse ms).store.names r.activeIndexKey = [] := by
      unfold Cache.names Cache.zsetAt
      rw [hindex]
      rfl
    have hzset : (s.elapse ms).store.IsZset r.activeIndexKey := by
      unfold Cache.IsZset Cache.zsetAt
      rw [hindex]
      exact ⟨_, rfl⟩
    refine ⟨⟨hzset, by rw [hnil]; exact fun _ hn => (List.not_mem_nil hn).elim, hpast⟩,
      fun key hkey => ?_, by rw [hnil]; exact Nat.zero_le _⟩
    rcases hstate : (s.elapse ms).store key with _ | e
    · exact Or.inl rfl
    · obtain ⟨hold, hlive⟩ := TimedCache.elapse_some hstate
      rcases h.states key hkey with hnone | ⟨state, hkept⟩
      · rw [hnone] at hold
        cases hold
      · rw [hkept.stored] at hold
        obtain rfl := Option.some.inj hold
        have hlt := hlive _ rfl
        have hsince := hkept.since
        have httl := hkept.ttl
        unfold Cache.ttlAt at httl
        obtain ⟨e, he, hettl⟩ := Option.bind_eq_some_iff.mp httl
        rw [TimedCache.elapse_of_lt he hettl (by omega)] at hindex
        cases hindex
  · obtain ⟨hold, -⟩ := TimedCache.elapse_some hindex
    have hsame : (s.elapse ms).store r.activeIndexKey = s.store r.activeIndexKey := hindex.trans hold.symm
    have hnames := Cache.names_congr hsame
    refine ⟨⟨(Cache.isZset_congr hsame).mpr h.zset, by rw [hnames]; exact h.names, hpast⟩,
      fun key hkey => ?_, by rw [hnames]; exact h.cap⟩
    rcases hstate : (s.elapse ms).store key with _ | e
    · exact Or.inl rfl
    · obtain ⟨hold, -⟩ := TimedCache.elapse_some hstate
      rcases h.states key hkey with hnone | ⟨state, hkept⟩
      · rw [hnone] at hold
        cases hold
      · refine Or.inr ⟨state, hkept.congr (hstate.trans hold.symm) rfl (by rw [hnames]; exact hkept.indexed)
          (by rw [Cache.ttlAt_congr hsame]; exact hkept.ttl) (le_refl _)⟩

/-! ### The commands of a call -/

/-- A state is kept by a call on the index that leaves its key in. -/
theorem Kept.onZset {α : Type} {key : String} {state : CorrelationState}
    (h : r.Kept fp groups s key state) (hindex : s.store.IsZset r.activeIndexKey)
    (hkey : key ≠ r.activeIndexKey) {f : ZSet → α × ZSet}
    (hmem : key ∈ (s.store.onZset r.activeIndexKey f).2.names r.activeIndexKey)
    (hstore : s'.store = (s.store.onZset r.activeIndexKey f).2) (hsince : s'.since = s.since) :
    r.Kept fp groups s' key state := by
  obtain ⟨z, -, -, hnames, httl⟩ := Cache.onZset_spec hindex f
  refine h.congr ?_ (by rw [hsince]) (by rw [hstore]; exact hmem) ?_ (by rw [hsince])
  · rw [hstore]
    exact s.store.onZset_frame f hkey
  · rw [hstore, httl, h.ttl]
    intro hnil
    rw [hnames, hnil] at hmem
    exact List.not_mem_nil hmem

theorem IndexOk.onZset {α : Type} (h : r.IndexOk s) {f : ZSet → α × ZSet}
    (hnames : ∀ name ∈ (s.store.onZset r.activeIndexKey f).2.names r.activeIndexKey,
      name ≠ r.activeIndexKey)
    (hstore : s'.store = (s.store.onZset r.activeIndexKey f).2) (hsince : s'.since = s.since)
    (hnow : s'.now = s.now) : r.IndexOk s' := by
  refine ⟨?_, ?_, ?_⟩
  · rw [hstore]
    exact h.zset.onZset f
  · rw [hstore]
    exact hnames
  · rw [hsince, hnow]
    exact h.past

theorem names_zadd (h : s.store.IsZset r.activeIndexKey) (own : String) (score : ℤ) :
    ((TimedCache.exec (.zadd r.activeIndexKey own score) s).2.store.names r.activeIndexKey).Perm
      (own :: (s.store.names r.activeIndexKey).filter (· ≠ own)) := by
  obtain ⟨z, hz, -, hnames, -⟩ := Cache.onZset_spec h fun z => ((), z.insert own score)
  have hperm := ZSet.names_insert_perm z own score
  rw [hz] at hperm
  rw [← hnames] at hperm
  exact hperm

theorem names_zrem (h : s.store.IsZset r.activeIndexKey) (own : String) :
    (TimedCache.exec (.zrem r.activeIndexKey own) s).2.store.names r.activeIndexKey =
      (s.store.names r.activeIndexKey).filter (· ≠ own) := by
  obtain ⟨z, hz, -, hnames, -⟩ := Cache.onZset_spec h fun z => ((), z.erase own)
  rw [← hz, ← ZSet.names_erase]
  exact hnames

theorem exec_zpopmin (h : s.store.IsZset r.activeIndexKey) :
    (TimedCache.exec (.zpopmin r.activeIndexKey) s).1 =
        .ok (s.store.names r.activeIndexKey).head? ∧
      (TimedCache.exec (.zpopmin r.activeIndexKey) s).2.store.names r.activeIndexKey =
        (s.store.names r.activeIndexKey).tail := by
  obtain ⟨z, hz, hreply, hnames, -⟩ := Cache.onZset_spec h fun z =>
    (z.members.head?.map (fun m => (ofLex m).2), z.tail)
  rw [← hz]
  refine ⟨hreply.trans ?_, hnames.trans z.names_tail⟩
  unfold ZSet.names
  rw [List.head?_map]

theorem Room.setString (h : r.Room fp groups own s) (hown : own ≠ r.activeIndexKey)
    {state : CorrelationState} (hstate : own = r.stateKey fp state.groupKey ∧ groups state.groupKey)
    (hs' : s' = (TimedCache.exec (.setString own (.state state) (some r.stateTtlSeconds)) s).2) :
    r.Room fp groups own s' ∧ s'.store own = some ⟨.text (.state state), some r.stateTtlSeconds⟩ ∧
      s'.since own ≤ s'.now := by
  subst hs'
  have hindex : Function.update s.store own
      (some ⟨.text (.state state), some r.stateTtlSeconds⟩) r.activeIndexKey =
      s.store r.activeIndexKey := Function.update_of_ne (Ne.symm hown) _ _
  have hnames := Cache.names_congr hindex
  have hself : Function.update s.store own
      (some ⟨.text (.state state), some r.stateTtlSeconds⟩) own =
      some ⟨.text (.state state), some r.stateTtlSeconds⟩ := Function.update_self _ _ _
  have hnow : Function.update s.since own s.now own ≤ s.now := by rw [Function.update_self]
  have hsince : Function.update s.since own s.now r.activeIndexKey = s.since r.activeIndexKey :=
    Function.update_of_ne (Ne.symm hown) _ _
  refine ⟨⟨⟨(Cache.isZset_congr hindex).mpr h.zset, ?_, ?_⟩, fun key hkey hne => ?_,
    Or.inr ⟨state, hself, hstate, hnow⟩, ?_⟩, hself, hnow⟩
  · change ∀ name ∈ Cache.names (Function.update s.store own _) _, _
    rw [hnames]
    exact h.names
  · change Function.update s.since own _ _ ≤ _
    rw [hsince]
    exact h.past
  · have hframe : Function.update s.store own
        (some ⟨.text (.state state), some r.stateTtlSeconds⟩) key = s.store key :=
      Function.update_of_ne hne _ _
    rcases h.others key hkey hne with hnone | ⟨st, hkept⟩
    · exact Or.inl (hframe.trans hnone)
    · refine Or.inr ⟨st, hkept.congr hframe (Function.update_of_ne hne _ _) ?_ ?_ (le_of_eq hsince.symm)⟩
      · change key ∈ Cache.names (Function.update s.store own _) _
        rw [hnames]
        exact hkept.indexed
      · change Cache.ttlAt (Function.update s.store own _) _ = _
        rw [Cache.ttlAt_congr hindex]
        exact hkept.ttl
  · change (List.filter _ (Cache.names (Function.update s.store own _) _)).length < _
    rw [hnames]
    exact h.room

theorem Room.zadd (h : r.Room fp groups own s) (hown : own ≠ r.activeIndexKey) (score : ℤ)
    (hs' : s' = (TimedCache.exec (.zadd r.activeIndexKey own score) s).2) :
    r.Room fp groups own s' ∧ own ∈ s'.store.names r.activeIndexKey := by
  subst hs'
  have hperm := names_zadd h.zset own score
  have hown' : (TimedCache.exec (.zadd r.activeIndexKey own score) s).2.store own = s.store own :=
    s.store.onZset_frame _ hown
  refine ⟨⟨h.onZset (fun name hname => ?_) rfl rfl rfl, fun key hkey hne => ?_, ?_, ?_⟩,
    hperm.mem_iff.mpr List.mem_cons_self⟩
  · rcases List.mem_cons.mp (hperm.mem_iff.mp hname) with rfl | hname
    · exact hown
    · exact h.names name (List.mem_filter.mp hname).1
  · rcases h.others key hkey hne with hnone | ⟨state, hkept⟩
    · exact Or.inl ((s.store.onZset_frame _ hkey).trans hnone)
    · refine Or.inr ⟨state, hkept.onZset h.zset hkey ?_ rfl rfl⟩
      refine hperm.mem_iff.mpr (List.mem_cons_of_mem _ (List.mem_filter.mpr ⟨hkept.indexed, ?_⟩))
      exact decide_eq_true hne
  · rw [hown']
    exact h.stored
  · have hlen := (hperm.filter (· ≠ own)).length_eq
    rw [List.filter_cons_of_neg (by simp), List.filter_filter] at hlen
    simp only [Bool.and_self] at hlen
    rw [hlen]
    exact h.room

/-- The expiry of the index starts anew after the state and its index entry were stored. -/
theorem Room.expireIndex (h : r.Room fp groups own s) (hown : own ≠ r.activeIndexKey)
    {state : CorrelationState} (hstate : own = r.stateKey fp state.groupKey ∧ groups state.groupKey)
    (hstored : s.store own = some ⟨.text (.state state), some r.stateTtlSeconds⟩)
    (hsince : s.since own ≤ s.now) (hmem : own ∈ s.store.names r.activeIndexKey)
    (hs' : s' = (TimedCache.exec (.expireKey r.activeIndexKey r.stateTtlSeconds) s).2) :
    r.Indexed fp groups s' := by
  subst hs'
  obtain ⟨hnames, httl⟩ := s.store.expireKey_spec r.activeIndexKey r.stateTtlSeconds
  have hne : s.store.names r.activeIndexKey ≠ [] := List.ne_nil_of_mem hmem
  have hframe : ∀ key, key ≠ r.activeIndexKey →
      (TimedCache.exec (.expireKey r.activeIndexKey r.stateTtlSeconds) s).2.store key = s.store key :=
    fun key hkey => Function.update_of_ne hkey _ _
  have hsame : ∀ key, key ≠ r.activeIndexKey →
      (TimedCache.exec (.expireKey r.activeIndexKey r.stateTtlSeconds) s).2.since key = s.since key :=
    fun key hkey => Function.update_of_ne hkey _ _
  have hnow : (TimedCache.exec (.expireKey r.activeIndexKey r.stateTtlSeconds) s).2.since
      r.activeIndexKey = s.now := Function.update_self _ _ _
  have hcap : (s.store.names r.activeIndexKey).length ≤ r.definition.maxActiveGroups.toNat :=
    (length_le_filter_ne (s.store.names_nodup _) own).trans h.room
  refine ⟨⟨h.zset.expireKey _, ?_, le_of_eq hnow⟩, fun key hkey => ?_, ?_⟩
  · change ∀ name ∈ Cache.names (Cache.exec _ s.store).2 _, _
    rw [hnames]
    exact h.names
  · by_cases hk : key = own
    · subst hk
      refine Or.inr ⟨state, (hframe key hkey).trans hstored, hstate, ?_, httl hne, ?_⟩
      · change key ∈ Cache.names (Cache.exec _ s.store).2 _
        rw [hnames]
        exact hmem
      · rw [hsame key hkey, hnow]
        exact hsince
    · rcases h.others key hkey hk with hnone | ⟨st, hkept⟩
      · exact Or.inl ((hframe key hkey).trans hnone)
      · refine Or.inr ⟨st, hkept.congr (hframe key hkey) (hsame key hkey) ?_ (httl hne) ?_⟩
        · change key ∈ Cache.names (Cache.exec _ s.store).2 _
          rw [hnames]
          exact hkept.indexed
        · rw [hnow]
          exact h.past
  · change (Cache.names (Cache.exec _ s.store).2 _).length ≤ _
    rw [hnames]
    exact hcap

theorem Room.deleteKey (h : r.Room fp groups own s) (hown : own ≠ r.activeIndexKey)
    (hs' : s' = (TimedCache.exec (.deleteKey own) s).2) :
    r.Room fp groups own s' ∧ s'.store own = none := by
  subst hs'
  have hnone : (TimedCache.exec (.deleteKey own) s).2.store own = none := Function.update_self _ _ _
  have hframe : ∀ key, key ≠ own →
      (TimedCache.exec (.deleteKey own) s).2.store key = s.store key :=
    fun key hkey => Function.update_of_ne hkey _ _
  have hindex := hframe r.activeIndexKey (Ne.symm hown)
  have hnames := Cache.names_congr hindex
  refine ⟨⟨⟨(Cache.isZset_congr hindex).mpr h.zset, by rw [hnames]; exact h.names, h.past⟩,
    fun key hkey hne => ?_, Or.inl hnone, by rw [hnames]; exact h.room⟩, hnone⟩
  rcases h.others key hkey hne with hgone | ⟨state, hkept⟩
  · exact Or.inl ((hframe key hne).trans hgone)
  · refine Or.inr ⟨state, hkept.congr (hframe key hne) rfl (by rw [hnames]; exact hkept.indexed) ?_ le_rfl⟩
    rw [Cache.ttlAt_congr hindex]
    exact hkept.ttl

/-- A key without a state is taken out of the index. -/
theorem IndexOk.zrem (h : r.IndexOk s) (hown : own ≠ r.activeIndexKey) (hnone : s.store own = none)
    (hothers : ∀ key, key ≠ r.activeIndexKey → key ≠ own →
      s.store key = none ∨ ∃ state, r.Kept fp groups s key state)
    (hcap : ((s.store.names r.activeIndexKey).filter (· ≠ own)).length ≤
      r.definition.maxActiveGroups.toNat)
    (hs' : s' = (TimedCache.exec (.zrem r.activeIndexKey own) s).2) : r.Indexed fp groups s' := by
  subst hs'
  have hnames := names_zrem h.zset own
  refine ⟨h.onZset (fun name hname => ?_) rfl rfl rfl, fun key hkey => ?_, by rw [hnames]; exact hcap⟩
  · have hmem : name ∈ (s.store.names r.activeIndexKey).filter (· ≠ own) := hnames ▸ hname
    exact h.names name (List.mem_filter.mp hmem).1
  · by_cases hk : key = own
    · rw [hk]
      exact Or.inl ((s.store.onZset_frame _ hown).trans hnone)
    · rcases hothers key hkey hk with hgone | ⟨state, hkept⟩
      · exact Or.inl ((s.store.onZset_frame _ hkey).trans hgone)
      · refine Or.inr ⟨state, hkept.onZset h.zset hkey ?_ rfl rfl⟩
        change key ∈ (TimedCache.exec (.zrem r.activeIndexKey own) s).2.store.names r.activeIndexKey
        rw [hnames]
        exact List.mem_filter.mpr ⟨hkept.indexed, decide_eq_true hk⟩

/-- The first entry leaves the index: its state is the only one that may be missing from it. -/
theorem Indexed.zpopmin (h : r.Indexed fp groups s) {first : String} {rest : List String}
    (hnames : s.store.names r.activeIndexKey = first :: rest)
    (hs' : s' = (TimedCache.exec (.zpopmin r.activeIndexKey) s).2) :
    r.Room fp groups first s' ∧ s'.store.names r.activeIndexKey = rest := by
  subst hs'
  have hrest : (TimedCache.exec (.zpopmin r.activeIndexKey) s).2.store.names r.activeIndexKey = rest := by
    rw [(exec_zpopmin h.zset).2, hnames]
    rfl
  have hmem : first ∈ s.store.names r.activeIndexKey := by
    rw [hnames]
    exact List.mem_cons_self
  have hfirst := h.names first hmem
  have hframe : ∀ key, key ≠ r.activeIndexKey →
      (TimedCache.exec (.zpopmin r.activeIndexKey) s).2.store key = s.store key :=
    fun key hkey => s.store.onZset_frame _ hkey
  refine ⟨⟨h.toIndexOk.onZset (fun name hname => ?_) rfl rfl rfl, fun key hkey hne => ?_, ?_, ?_⟩, hrest⟩
  · refine h.names name ?_
    rw [hnames]
    exact List.mem_cons_of_mem _ (hrest ▸ hname)
  · rcases h.states key hkey with hnone | ⟨state, hkept⟩
    · exact Or.inl ((hframe key hkey).trans hnone)
    · refine Or.inr ⟨state, hkept.onZset h.zset hkey ?_ rfl rfl⟩
      change key ∈ (TimedCache.exec (.zpopmin r.activeIndexKey) s).2.store.names r.activeIndexKey
      have hin := hkept.indexed
      rw [hnames] at hin
      rw [hrest]
      exact (List.mem_cons.mp hin).resolve_left hne
  · rw [hframe first hfirst]
    rcases h.states first hfirst with hnone | ⟨state, hkept⟩
    · exact Or.inl hnone
    · exact Or.inr ⟨state, hkept.stored, hkept.group, hkept.since.trans h.past⟩
  · have hcap := h.cap
    rw [hnames, List.length_cons] at hcap
    rw [hrest]
    exact lt_of_le_of_lt (List.length_filter_le _ _) hcap

/-- Without the state of the first entry there is room for any group. -/
theorem Room.change {first : String} (h : r.Room fp groups first s) (hnone : s.store first = none)
    (hcap : (s.store.names r.activeIndexKey).length < r.definition.maxActiveGroups.toNat)
    (hown : own ≠ r.activeIndexKey) : r.Room fp groups own s := by
  have hall : ∀ key, key ≠ r.activeIndexKey →
      s.store key = none ∨ ∃ state, r.Kept fp groups s key state := by
    intro key hkey
    by_cases hk : key = first
    · rw [hk]
      exact Or.inl hnone
    · exact h.others key hkey hk
  refine ⟨h.toIndexOk, fun key hkey _ => hall key hkey, ?_,
    lt_of_le_of_lt (List.length_filter_le _ _) hcap⟩
  rcases hall own hown with hgone | ⟨state, hkept⟩
  · exact Or.inl hgone
  · exact Or.inr ⟨state, hkept.stored, hkept.group, hkept.since.trans h.past⟩

/-! ### One call -/

theorem applyStage_indexed (alertId : Uuid) (log : Log) {state : CorrelationState}
    (hown : own ≠ r.activeIndexKey)
    (hstate : own = r.stateKey fp state.groupKey ∧ groups state.groupKey)
    (h : r.Room fp groups own s) :
    (r.applyStage alertId own log state).Guarantees TimedCache.Answers
      (fun _ s' => r.Capped fp s'.store)
      (fun s' _ => r.Indexed fp groups s' ∧ r.Spares own none s s') s := by
  unfold applyStage
  cases hmatch : r.matchStage log state with
  | none =>
      obtain ⟨h₁, hnone⟩ := h.deleteKey hown rfl
      have h₂ := h₁.toIndexOk.zrem hown hnone h₁.others (le_of_lt h₁.room) rfl
      refine TimedCache.guarantees_ignore h₁.capped ?_
      refine TimedCache.guarantees_ignore h₂.capped ?_
      refine Prog.guarantees_ret ⟨h₂, fun key hkey hne => ?_⟩
      exact (Cache.onZset_frame _ _ hkey).trans (Function.update_of_ne hne _ _)
  | some next =>
      have hnext : own = r.stateKey fp next.groupKey ∧ groups next.groupKey := by
        rw [matchStage_groupKey hmatch]
        exact hstate
      obtain ⟨h₁, hstored, hsince⟩ := h.setString hown hnext rfl
      obtain ⟨h₂, hmem⟩ := h₁.zadd hown next.lastEventTs rfl
      have hstored₂ := (Cache.onZset_frame _ (fun z => ((), z.insert own next.lastEventTs)) hown).trans
        hstored
      have h₃ := h₂.expireIndex hown hnext hstored₂ hsince hmem rfl
      have hzadd : (TimedCache.exec (.zadd r.activeIndexKey own next.lastEventTs)
          (TimedCache.exec (.setString own (.state next) (some r.stateTtlSeconds)) s).2).1 = .ok () := by
        obtain ⟨u, hu⟩ := h₁.zset.onZset_reply fun z => ((), z.insert own next.lastEventTs)
        exact hu
      unfold persistState
      simp only [CacheM.andThen_assoc]
      refine TimedCache.guarantees_exec rfl h₁.capped ?_
      refine TimedCache.guarantees_exec hzadd h₂.capped ?_
      refine TimedCache.guarantees_exec rfl h₃.capped ?_
      refine Prog.guarantees_ret ⟨h₃, fun key hkey hne => ?_⟩
      calc _ = _ := Function.update_of_ne hkey _ _
        _ = _ := Cache.onZset_frame _ _ hkey
        _ = s.store key := Function.update_of_ne hne _ _

theorem hasRoom_iff (h : s.store.IsZset r.activeIndexKey) : r.hasRoom s.store = true ↔
    (s.store.names r.activeIndexKey).length < r.definition.maxActiveGroups.toNat := by
  unfold hasRoom
  rw [Cache.zcard_of_isZset h]
  exact decide_eq_true_iff

/-- The key that makes room for the one with the key `own`. -/
theorem evictIfNeeded_indexed {β : Type} {Q : TimedCache StateText → Except CacheError β → Prop}
    {f : Bool → CacheM StateText β} (hmax : 1 ≤ r.definition.maxActiveGroups.toNat)
    (hown : own ≠ r.activeIndexKey) (h : r.Indexed fp groups s)
    (hrefuse : r.definition.evictionPolicy = .dropNewest → r.hasRoom s.store = false →
      s.store own = none)
    (hallowed : ∀ s' victim, victim = (if r.hasRoom s.store then none else
        match r.definition.evictionPolicy with
        | .oldestFirst => (s.store.names r.activeIndexKey).head?
        | .dropNewest => none) →
      r.Room fp groups own s' → r.Spares own victim s s' →
      (f true).Guarantees TimedCache.Answers (fun _ s' => r.Capped fp s'.store) Q s')
    (hrefused : ∀ s', r.definition.evictionPolicy = .dropNewest → r.Indexed fp groups s' →
      r.Spares own none s s' →
      (f false).Guarantees TimedCache.Answers (fun _ s' => r.Capped fp s'.store) Q s') :
    ((r.evictIfNeeded own).andThen f).Guarantees TimedCache.Answers
      (fun _ s' => r.Capped fp s'.store) Q s := by
  have hroom := hasRoom_iff h.zset
  unfold evictIfNeeded
  rw [CacheM.andThen_assoc]
  refine TimedCache.guarantees_exec (Cache.zcard_of_isZset h.zset) h.capped ?_
  change Prog.Guarantees _ _ _ s _
  split_ifs with hlt
  · refine hallowed s none ?_ (h.room hown (Or.inr hlt)) fun key _ _ => rfl
    rw [if_pos (hroom.mpr hlt)]
  · have hfull : r.hasRoom s.store = false := Bool.eq_false_iff.mpr fun hr => hlt (hroom.mp hr)
    rw [hfull] at hallowed
    cases hpolicy : r.definition.evictionPolicy with
    | dropNewest =>
        dsimp only
        rw [CacheM.andThen_assoc]
        have hcap := (List.length_filter_le (· ≠ own) _).trans h.cap
        have h' := h.toIndexOk.zrem hown (hrefuse hpolicy hfull) (fun key hkey _ => h.states key hkey)
          hcap rfl
        refine TimedCache.guarantees_ignore h'.capped ?_
        exact hrefused _ hpolicy h' fun key hkey _ => Cache.onZset_frame _ _ hkey
    | oldestFirst =>
        dsimp only
        rw [CacheM.andThen_assoc]
        rw [hpolicy] at hallowed
        obtain ⟨first, rest, hnames⟩ : ∃ first rest,
            s.store.names r.activeIndexKey = first :: rest := by
          cases hnames : s.store.names r.activeIndexKey with
          | nil =>
              rw [hnames] at hlt
              exact (hlt (by simp only [List.length_nil]; omega)).elim
          | cons first rest => exact ⟨first, rest, rfl⟩
        have hfirst : first ≠ r.activeIndexKey := h.names first (by rw [hnames]; exact List.mem_cons_self)
        have hreply := (exec_zpopmin h.zset).1
        obtain ⟨h₁, hrest⟩ := h.zpopmin hnames rfl
        obtain ⟨h₂, hnone⟩ := h₁.deleteKey hfirst rfl
        have hrest₂ := (Cache.names_congr (Function.update_of_ne (Ne.symm hfirst) none
          (TimedCache.exec (.zpopmin r.activeIndexKey) s).2.store)).trans hrest
        have hcap := h.cap
        rw [hnames, List.length_cons] at hcap
        have hless : ((TimedCache.exec (.deleteKey first)
            (TimedCache.exec (.zpopmin r.activeIndexKey) s).2).2.store.names r.activeIndexKey).length <
            r.definition.maxActiveGroups.toNat :=
          lt_of_le_of_lt (le_of_eq (congrArg List.length hrest₂)) (by omega)
        refine TimedCache.guarantees_exec hreply h₁.capped ?_
        rw [hnames]
        dsimp only [List.head?_cons]
        rw [CacheM.andThen_assoc]
        refine TimedCache.guarantees_ignore h₂.capped ?_
        refine hallowed _ (some first) (by rw [hnames]; rfl)
          (h₂.change hnone hless hown) fun key hkey _ => ?_
        by_cases hk : key = first
        · rw [if_pos (by rw [hk]), hk]
          exact hnone
        · rw [if_neg (fun he => hk (Option.some.inj he).symm)]
          exact (Function.update_of_ne hk _ _).trans (Cache.onZset_frame _ _ hkey)

theorem Indexed.getString (h : r.Indexed fp groups s) (hown : own ≠ r.activeIndexKey) :
    s.store.getString own = .ok (textAt s.store own) := by
  unfold textAt Cache.getString
  rcases h.states own hown with hnone | ⟨state, hkept⟩
  · rw [hnone]
  · rw [hkept.stored]

theorem isNewGroup_reset (groupKey : String) (t : ℤ) :
    isNewGroup (r.enterWindow groupKey t (resetState groupKey t)) t = true := by
  have hreset : r.enterWindow groupKey t (resetState groupKey t) = resetState groupKey t := by
    rw [r.enterWindow_eq (le_refl t)]
    split_ifs
    · rfl
    · rfl
  rw [hreset]
  unfold isNewGroup resetState
  simp

/-- A log that does not look like the first one of its group finds a state. -/
theorem isSome_of_not_new {log : Log} {c : Cache StateText}
    (h : isNewGroup (r.pending fp c log) log.timestamp.timestamp = false) :
    (c (r.stateKey fp (r.getGroupKey log))).isSome := by
  by_contra hnone
  rw [Option.not_isSome_iff_eq_none] at hnone
  have hnew := isNewGroup_reset (r := r) (r.getGroupKey log) log.timestamp.timestamp
  unfold pending at h
  rw [textAt_absent hnone] at h
  exact Bool.false_ne_true (h.symm.trans hnew)

theorem pending_groupKey (c : Cache StateText) (log : Log) :
    (r.pending fp c log).groupKey = r.getGroupKey log :=
  r.enterWindow_groupKey (stateOf_groupKey _ _ _)

/-- **One call** that refuses no group with a live state. -/
theorem evaluate_indexed (hmax : 1 ≤ r.definition.maxActiveGroups.toNat) (alertId : Uuid) {log : Log}
    (hgroups : groups (r.getGroupKey log)) (h : r.Indexed fp groups s)
    (hrefuse : r.RefusesNoLive fp s.store log) :
    (r.evaluate fp alertId log).Guarantees TimedCache.Answers (fun _ s' => r.Capped fp s'.store)
      (fun s' _ => r.Indexed fp groups s' ∧ r.Spares (r.stateKey fp (r.getGroupKey log))
        (r.victim fp s.store log) s s') s := by
  have hown := r.stateKey_ne_activeIndexKey fp (r.getGroupKey log)
  have hkey : r.stateKey fp (r.getGroupKey log) =
      r.stateKey fp (r.pending fp s.store log).groupKey ∧
      groups (r.pending fp s.store log).groupKey := by
    rw [pending_groupKey]
    exact ⟨rfl, hgroups⟩
  have hkeeps : r.asksForRoom fp s.store log = false →
      r.Spares (r.stateKey fp (r.getGroupKey log)) (r.victim fp s.store log) s s := by
    intro hasks key _ _
    have hnone : r.victim fp s.store log = none := by
      unfold victim
      rw [hasks]
      cases r.definition.evictionPolicy <;> rfl
    rw [hnone]
    rfl
  unfold evaluate loadState
  dsimp only
  split_ifs with hempty
  · refine Prog.guarantees_ret ⟨h, hkeeps ?_⟩
    unfold asksForRoom
    simp [hempty]
  · rw [CacheM.andThen_assoc]
    refine TimedCache.guarantees_exec (h.getString hown) h.capped ?_
    rw [CacheM.pure_andThen]
    change Prog.Guarantees _ _ _ s _
    unfold evaluateFrom
    dsimp only
    change Prog.Guarantees _ _ _ s (ite _ _ (ite (isNewGroup (r.pending fp s.store log) _ = true)
      (CacheM.andThen _ fun allowed => ite _ (r.applyStage _ _ log (r.pending fp s.store log)) _)
      (r.applyStage _ _ log (r.pending fp s.store log))))
    split_ifs with hlate hnew
    · refine Prog.guarantees_ret ⟨h, hkeeps ?_⟩
      unfold asksForRoom
      simp [hlate]
    · have hasks : r.asksForRoom fp s.store log = !r.hasRoom s.store := by
        unfold asksForRoom
        simp [hempty, hlate, hnew]
      refine evictIfNeeded_indexed hmax hown h (fun hpolicy hfull => hrefuse hpolicy ?_)
        (fun s' victim hvictim h' hspares => ?_) fun s' hpolicy h' hspares => ?_
      · rw [hasks, hfull]
        rfl
      · have hsame : victim = r.victim fp s.store log := by
          rw [hvictim]
          unfold CorrelationRule.victim
          rw [hasks]
          cases r.hasRoom s.store <;> cases r.definition.evictionPolicy <;> rfl
        refine (applyStage_indexed alertId log hown hkey h').imp ?_
        rintro s'' - ⟨h'', hspares'⟩
        refine ⟨h'', fun key hkey hne => ?_⟩
        rw [hspares' key hkey hne, ← hsame, ← hspares key hkey hne]
        rfl
      · refine Prog.guarantees_ret ⟨h', fun key hkey hne => ?_⟩
        have hnone : r.victim fp s.store log = none := by
          unfold victim
          rw [hpolicy]
        rw [hnone, ← hspares key hkey hne]
    · have hmem := h.mem_names hown (isSome_of_not_new (Bool.eq_false_iff.mpr hnew))
      refine (applyStage_indexed alertId log hown hkey (h.room hown (Or.inl hmem))).imp ?_
      rintro s' - ⟨h', hspares⟩
      refine ⟨h', fun key hkey hne => ?_⟩
      rw [hspares key hkey hne, ← hkeeps ?_ key hkey hne]
      · rfl
      · unfold asksForRoom
        simp [hnew]

theorem indexed_empty : r.Indexed fp groups .empty where
  zset := ⟨_, rfl⟩
  names := fun _ hn => (List.not_mem_nil hn).elim
  past := le_refl 0
  states := fun _ _ => Or.inl rfl
  cap := Nat.zero_le _

theorem Capped.elapse (h : r.Capped fp s.store) (ms : ℕ) : r.Capped fp (s.elapse ms).store := by
  intro keys hkeys
  refine h keys fun key hkey => ?_
  obtain ⟨groupKey, hgroup, hsome⟩ := hkeys key hkey
  obtain ⟨e, he⟩ := Option.isSome_iff_exists.mp hsome
  exact ⟨groupKey, hgroup, by rw [(TimedCache.elapse_some he).1]; rfl⟩

end mirror

/-! ### Runs -/

/-- A call of `evaluate`, so long after the one before. -/
structure TimedEvaluation where
  wait : ℕ
  alertId : Uuid
  log : Log

/-- The cache after a call. -/
def callStep (s : TimedCache StateText) (e : TimedEvaluation) : Option (TimedCache StateText) :=
  some ((r.evaluate fp e.alertId e.log).run TimedCache.exec (s.elapse e.wait)).2

/-- The caches a sequence of calls goes through, those in the middle of a call included. -/
def history (r : CorrelationRule) (fp : String → UInt64) :
    List TimedEvaluation → TimedCache StateText → List (TimedCache StateText)
  | [], s => [s]
  | e :: es, s =>
      s :: (r.evaluate fp e.alertId e.log).visited TimedCache.exec (s.elapse e.wait) ++
        r.history fp es ((r.evaluate fp e.alertId e.log).run TimedCache.exec (s.elapse e.wait)).2

section runs

variable {r} {fp} {s : TimedCache StateText} {e : TimedEvaluation} {es : List TimedEvaluation}
  {groups : String → Prop}

/-- The call keeps the bound at every step, and the index a mirror. -/
theorem Indexed.call (hmax : 1 ≤ r.definition.maxActiveGroups.toNat)
    (hgroups : groups (r.getGroupKey e.log)) (h : r.Indexed fp groups s)
    (hrefuse : r.RefusesNoLive fp (s.elapse e.wait).store e.log) :
    (∀ t ∈ (r.evaluate fp e.alertId e.log).visited TimedCache.exec (s.elapse e.wait),
        r.Capped fp t.store) ∧
      ∀ s', r.callStep fp s e = some s' → r.Indexed fp groups s' := by
  have hcall := evaluate_indexed hmax e.alertId hgroups (h.elapse e.wait) hrefuse
  obtain ⟨⟨hvisited, -⟩, hend, -⟩ := hcall.run (J := fun t => r.Capped fp t.store)
    TimedCache.answers_exec (fun _ _ hcapped => hcapped) (h.elapse e.wait).capped
  refine ⟨hvisited, fun s' hs' => ?_⟩
  obtain rfl := Option.some.inj hs'
  exact hend

theorem Indexed.history (hmax : 1 ≤ r.definition.maxActiveGroups.toNat)
    (h : r.Indexed fp (fun _ => True) s)
    (hok : Runs.Meets (r.callStep fp) (fun s e => r.RefusesNoLive fp (s.elapse e.wait).store e.log)
      es s) : ∀ t ∈ r.history fp es s, r.Capped fp t.store := by
  induction es generalizing s with
  | nil =>
      intro t ht
      rw [List.mem_singleton.mp ht]
      exact h.capped
  | cons e es ih =>
      obtain ⟨hrefuse, hrest⟩ := (Runs.meets_cons rfl).mp hok
      obtain ⟨hvisited, hnext⟩ := h.call hmax trivial hrefuse
      intro t ht
      rcases List.mem_append.mp ht with ht | ht
      · rcases List.mem_cons.mp ht with rfl | ht
        · exact h.capped
        · exact hvisited t ht
      · exact ih (hnext _ rfl) hrest t ht

end runs

/-- Two failed logins of one address, for so many addresses at a time. -/
def fewAddresses (maxActiveGroups : UInt64) (evictionPolicy : CorrelationEvictionPolicy) :
    CorrelationRule :=
  { twoFailures with definition := { twoFailures.definition with maxActiveGroups, evictionPolicy } }

/-- The fingerprints of the addresses of the runs below. -/
def addressFp (groupKey : String) : UInt64 :=
  if groupKey = "10.0.0.1" then 1 else if groupKey = "10.0.0.2" then 2 else 3

/-- A logout of the address, so long after the log before. -/
def logoutOf (sourceIp : String) (wait : ℕ) (timestamp : DateTime) : TimedEvaluation :=
  ⟨wait, "a1", { (loginLog "logout" timestamp).2 with sourceIp }⟩

end CorrelationRule

end MiniSiem
