import MiniSiem.AlertDedup

/-! # The order of arrival

Two flushes of the same alerts in different orders, on one table.

* **Merging.**  What a merge makes of the times, the events and the count does not depend on the order
  (`sameMerge_of_perm`); the identifier, the status and the description do.
* **Open keys.**  A new row has the status of the first alert of its key, so the keys that are open after a
  flush may depend on the order if a new key has open and closed alerts (`mixedStatuses_depend`).
* **Tables.**  `order_irrelevant`: otherwise the tables have the same open keys, and the rows of a key
  agree. -/

namespace MiniSiem

open Merging

/-- The alert is open. -/
def Alert.isOpen (a : Alert) : Bool := (AlertRow.ofAlert a).isOpen

/-- The alerts of a key without an open row are all open or all closed. -/
def UniformStatus (fp : String → UInt64) (t : AlertsTable) (buffer : List Alert) : Prop :=
  ∀ a ∈ buffer, ∀ b ∈ buffer, alertDedupKey fp a = alertDedupKey fp b →
    t.openRow fp (alertDedupKey fp a) = none → a.isOpen = b.isOpen

/-- The rows agree in all that a merge does not take from one of the alerts. -/
structure SameMerge (r s : AlertRow) : Prop where
  tenantId : r.tenantId = s.tenantId
  ruleId : r.ruleId = s.ruleId
  sourceIp : r.sourceIp = s.sourceIp
  firstSeen : r.firstSeen = s.firstSeen
  lastSeen : r.lastSeen = s.lastSeen
  eventsCount : r.eventsCount = s.eventsCount
  events : (r.intoAlert.events).Perm s.intoAlert.events

/-- The row of a key of the buffer: the open one, or the new one. -/
def WrittenRow (fp : String → UInt64) (t : AlertsTable) (buffer : List Alert) (r : AlertRow) : Prop :=
  (∃ a ∈ buffer, r.dedupKey fp = alertDedupKey fp a) ∧
    (r.isOpen = true ∨ r.id ∉ t.rows.map (·.id))

/-- The table has a row for each key of the buffer and the other rows of `t`. -/
structure WritesOnly (fp : String → UInt64) (t : AlertsTable) (buffer : List Alert) (t' : AlertsTable) :
    Prop where
  written : ∀ a ∈ buffer, ∃ r ∈ t'.rows, WrittenRow fp t buffer r ∧ r.dedupKey fp = alertDedupKey fp a
  rest : ∀ r ∈ t'.rows, WrittenRow fp t buffer r ∨ r ∈ t.rows
  kept : ∀ r ∈ t.rows, ¬ WrittenRow fp t buffer r → r ∈ t'.rows

/-- Some row of the key is open. -/
def AlertsTable.HasOpen (fp : String → UInt64) (t : AlertsTable) (key : AlertDedupKey) : Prop :=
  ∃ r ∈ t.rows, r.isOpen = true ∧ r.dedupKey fp = key

/-! ### Merging -/

section merging

variable {a b : Alert} {as bs : List Alert}

/-- What a merge makes of the times, the count and the events depends on the alerts alone. -/
structure SameTotals (m n : Alert) : Prop where
  firstSeen : m.firstSeen = n.firstSeen
  lastSeen : m.lastSeen = n.lastSeen
  eventsCount : m.eventsCount = n.eventsCount
  events : m.events.Perm n.events

theorem sameTotals_of_perm (h : (a :: as).Perm (b :: bs)) :
    SameTotals (as.foldl mergeAlert a) (bs.foldl mergeAlert b) := by
  have hmem : ∀ {f : Alert → DateTime}, {t | ∃ c ∈ a :: as, f c = t} = {t | ∃ c ∈ b :: bs, f c = t} := by
    intro f
    ext t
    exact exists_congr fun c => and_congr_left fun _ => h.mem_iff
  refine ⟨?_, ?_, ?_, ?_⟩
  · have hleast := isLeast_foldl (fun _ _ => mergeAlert_firstSeen) a as
    rw [hmem] at hleast
    exact hleast.unique (isLeast_foldl (fun _ _ => mergeAlert_firstSeen) b bs)
  · have hgreatest := isGreatest_foldl (fun _ _ => mergeAlert_lastSeen) a as
    rw [hmem] at hgreatest
    exact hgreatest.unique (isGreatest_foldl (fun _ _ => mergeAlert_lastSeen) b bs)
  · rw [foldl_sum mergeAlert Alert.eventsCount (fun _ _ => rfl),
      foldl_sum mergeAlert Alert.eventsCount (fun _ _ => rfl)]
    exact (h.map _).foldr_eq 0
  · rw [foldl_append mergeAlert Alert.events (fun _ _ => rfl),
      foldl_append mergeAlert Alert.events (fun _ _ => rfl)]
    exact h.flatMap_right _

theorem mergeAll_sameTotals {m n : Alert} (h : as.Perm bs) (hm : mergeAll as = some m)
    (hn : mergeAll bs = some n) : SameTotals m n := by
  cases as with
  | nil => cases hm
  | cons a as =>
      cases bs with
      | nil => cases hn
      | cons b bs =>
          obtain rfl := Option.some.inj hm
          obtain rfl := Option.some.inj hn
          exact sameTotals_of_perm h

end merging

/-! ### One flush -/

section flush

variable {fp : String → UInt64} {t : AlertsTable} {c : FlushCall} {key : AlertDedupKey} {r r' : AlertRow}
  {m : Alert}

/-- The status of a merged alert is that of the first one. -/
theorem exists_isOpen_of_mergeAll {as : List Alert} (h : mergeAll as = some m) :
    ∃ a ∈ as, m.isOpen = a.isOpen := by
  cases as with
  | nil => cases h
  | cons a as =>
      obtain rfl := Option.some.inj h
      have hstatus : (as.foldl mergeAlert a).status = a.status :=
        foldl_keep mergeAlert Alert.status (fun _ _ => rfl) a as
      refine ⟨a, List.mem_cons_self, ?_⟩
      unfold Alert.isOpen AlertRow.isOpen AlertRow.ofAlert
      dsimp only
      rw [hstatus]

namespace FlushCall.Succeeds

variable (h : c.Succeeds fp t) (hone : t.OneOpen fp)

include h hone

theorem mem_rows : r' ∈ (c.after t).rows ↔ (∃ r ∈ t.rows, flushedRow fp c.buffer r = r') ∨
    ∃ key m, t.openRow fp key = none ∧ mergeAll (keyed fp c.buffer key) = some m ∧
      AlertRow.ofAlert m = r' := by
  obtain ⟨rfl, hflush, -⟩ := h
  exact mem_flush_rows c.env c.faults hone hflush

/-- The identifier of a new row is new. -/
theorem id_new (hnone : t.openRow fp key = none) (hm : mergeAll (keyed fp c.buffer key) = some m) :
    m.id ∉ t.rows.map (·.id) := by
  obtain ⟨rfl, hflush, -⟩ := h
  obtain ⟨g, hg, htenant⟩ := exists_visited c.env hm
  have hnew : m ∈ newAlerts c.env c.faults t g :=
    (mem_newAlerts_iff c.env c.faults hone hflush hg).mpr ⟨key, htenant.symm, hnone, hm⟩
  intro hmem
  obtain ⟨r, hr, hid⟩ := List.mem_map.mp hmem
  exact hflush.inserts.id_ne c.env c.faults hg hnew hr hid

omit hone in
theorem micros_lastSeen : ∀ b ∈ c.buffer, WholeMicros b.lastSeen := fun b hb => (h.micros b hb).2

/-- The new row of a key. -/
theorem writtenRow_ofAlert (hnone : t.openRow fp key = none)
    (hm : mergeAll (keyed fp c.buffer key) = some m) : WrittenRow fp t c.buffer (AlertRow.ofAlert m) := by
  obtain ⟨a, ha, -⟩ := exists_isOpen_of_mergeAll hm
  obtain ⟨ha, hkey⟩ := mem_keyed.mp ha
  exact ⟨⟨a, ha, (dedupKey_ofAlert h.micros_lastSeen hm).trans hkey.symm⟩, Or.inr (h.id_new hone hnone hm)⟩

omit h hone in
/-- The open row of a key. -/
theorem writtenRow_of_open (hopen : r.isOpen = true) (hne : keyed fp c.buffer (r.dedupKey fp) ≠ []) :
    WrittenRow fp t c.buffer r := by
  obtain ⟨a, ha⟩ := List.exists_mem_of_ne_nil _ hne
  obtain ⟨ha, hkey⟩ := mem_keyed.mp ha
  exact ⟨⟨a, ha, hkey.symm⟩, Or.inl hopen⟩

omit hone in
theorem writtenRow_flushedRow (hopen : r.isOpen = true) (hne : keyed fp c.buffer (r.dedupKey fp) ≠ []) :
    WrittenRow fp t c.buffer (flushedRow fp c.buffer r) := by
  have hkey : (flushedRow fp c.buffer r).dedupKey fp = r.dedupKey fp := dedupKey_flushedRow h.micros_lastSeen
  refine writtenRow_of_open ?_ (hkey ▸ hne)
  unfold flushedRow
  rw [if_pos ⟨hopen, hne⟩]
  exact isOpen_conflictRow hopen

/-- A row of a key is the open one with the alerts merged into it, or the new one. -/
theorem written_cases (hr' : r' ∈ (c.after t).rows) (hwritten : WrittenRow fp t c.buffer r') :
    (∃ r ∈ t.rows, r.isOpen = true ∧ r' = AlertsTable.conflictRow
      ((keyed fp c.buffer (r.dedupKey fp)).foldl mergeAlert r.intoAlert) r) ∨
    ∃ key m, t.openRow fp key = none ∧ mergeAll (keyed fp c.buffer key) = some m ∧
      r' = AlertRow.ofAlert m := by
  rcases (h.mem_rows hone).mp hr' with ⟨r, hr, rfl⟩ | ⟨key, m, hnone, hm, rfl⟩
  · left
    refine ⟨r, hr, ?_⟩
    unfold flushedRow at hwritten ⊢
    split_ifs at hwritten ⊢ with hmerged
    · exact ⟨hmerged.1, rfl⟩
    · obtain ⟨⟨a, ha, hkey⟩, hopen | hnew⟩ := hwritten
      · exact absurd ⟨hopen, List.ne_nil_of_mem (mem_keyed.mpr ⟨ha, hkey.symm⟩)⟩ hmerged
      · exact absurd (List.mem_map_of_mem hr) hnew
  · exact Or.inr ⟨key, m, hnone, hm, rfl⟩

/-- Besides the rows of the keys nothing changes. -/
theorem writesOnly : WritesOnly fp t c.buffer (c.after t) where
  written := by
    intro a ha
    have hmem : a ∈ keyed fp c.buffer (alertDedupKey fp a) := mem_keyed.mpr ⟨ha, rfl⟩
    cases hopen : t.openRow fp (alertDedupKey fp a) with
    | none =>
        obtain ⟨m, hm⟩ := mergeAll_eq_some (List.ne_nil_of_mem hmem)
        exact ⟨_, (h.mem_rows hone).mpr (Or.inr ⟨_, m, hopen, hm, rfl⟩), h.writtenRow_ofAlert hone hopen hm,
          dedupKey_ofAlert h.micros_lastSeen hm⟩
    | some r =>
        obtain ⟨hr, hropen, hkey⟩ := AlertsTable.openRow_eq_some hopen
        rw [← hkey] at hmem ⊢
        exact ⟨_, (h.mem_rows hone).mpr (Or.inl ⟨r, hr, rfl⟩),
          h.writtenRow_flushedRow hropen (List.ne_nil_of_mem hmem), dedupKey_flushedRow h.micros_lastSeen⟩
  rest := by
    intro r' hr'
    rcases (h.mem_rows hone).mp hr' with ⟨r, hr, rfl⟩ | ⟨key, m, hnone, hm, rfl⟩
    · by_cases hmerged : r.isOpen = true ∧ keyed fp c.buffer (r.dedupKey fp) ≠ []
      · exact Or.inl (h.writtenRow_flushedRow hmerged.1 hmerged.2)
      · right
        unfold flushedRow
        rw [if_neg hmerged]
        exact hr
    · exact Or.inl (h.writtenRow_ofAlert hone hnone hm)
  kept := by
    intro r hr hnot
    refine (h.mem_rows hone).mpr (Or.inl ⟨r, hr, if_neg fun hmerged => hnot ?_⟩)
    exact writtenRow_of_open hmerged.1 hmerged.2

/-- The keys that are open after the flush. -/
theorem hasOpen_iff (hstatus : UniformStatus fp t c.buffer) : (c.after t).HasOpen fp key ↔
    t.HasOpen fp key ∨
      t.openRow fp key = none ∧ ∃ a ∈ c.buffer, alertDedupKey fp a = key ∧ a.isOpen = true := by
  constructor
  · rintro ⟨r', hr', hopen, hkey⟩
    rcases (h.mem_rows hone).mp hr' with ⟨r, hr, rfl⟩ | ⟨key', m, hnone, hm, rfl⟩
    · rw [dedupKey_flushedRow h.micros_lastSeen] at hkey
      exact Or.inl ⟨r, hr, isOpen_of_flushedRow hopen, hkey⟩
    · obtain rfl := (dedupKey_ofAlert h.micros_lastSeen hm).symm.trans hkey
      obtain ⟨a, ha, hsame⟩ := exists_isOpen_of_mergeAll hm
      obtain ⟨ha, hakey⟩ := mem_keyed.mp ha
      exact Or.inr ⟨hnone, a, ha, hakey, hsame.symm.trans hopen⟩
  · rintro (⟨r, hr, hopen, hkey⟩ | ⟨hnone, a, ha, hkey, hopen⟩)
    · refine ⟨_, (h.mem_rows hone).mpr (Or.inl ⟨r, hr, rfl⟩), ?_, ?_⟩
      · unfold flushedRow
        split_ifs
        · exact isOpen_conflictRow hopen
        · exact hopen
      · rw [dedupKey_flushedRow h.micros_lastSeen, hkey]
    · have hmem : a ∈ keyed fp c.buffer key := mem_keyed.mpr ⟨ha, hkey⟩
      obtain ⟨m, hm⟩ := mergeAll_eq_some (List.ne_nil_of_mem hmem)
      obtain ⟨b, hb, hsame⟩ := exists_isOpen_of_mergeAll hm
      obtain ⟨hb, hbkey⟩ := mem_keyed.mp hb
      refine ⟨_, (h.mem_rows hone).mpr (Or.inr ⟨key, m, hnone, hm, rfl⟩), ?_,
        dedupKey_ofAlert h.micros_lastSeen hm⟩
      have huniform := hstatus b hb a ha (hbkey.trans hkey.symm) (by rw [hbkey]; exact hnone)
      exact (hsame.trans huniform).trans hopen

end FlushCall.Succeeds

end flush

/-! ### Two orders -/

section orders

variable {fp : String → UInt64} {t : AlertsTable} {c d : FlushCall}

theorem sameMerge_conflictRow {m n : Alert} (h : SameTotals m n) (r : AlertRow) :
    SameMerge (AlertsTable.conflictRow m r) (AlertsTable.conflictRow n r) where
  tenantId := rfl
  ruleId := rfl
  sourceIp := rfl
  firstSeen := rfl
  lastSeen := congrArg PgTime.encode h.lastSeen
  eventsCount := congrArg (fun n : UInt64 => n.toUInt32.toInt32) h.eventsCount
  events := h.events

theorem sameMerge_ofAlert {m n : Alert} (h : SameTotals m n)
    (hkey : alertDedupKey fp m = alertDedupKey fp n) :
    SameMerge (AlertRow.ofAlert m) (AlertRow.ofAlert n) where
  tenantId := congrArg AlertDedupKey.tenantId hkey
  ruleId := congrArg AlertDedupKey.ruleId hkey
  sourceIp := congrArg AlertDedupKey.entity hkey
  firstSeen := congrArg PgTime.encode h.firstSeen
  lastSeen := congrArg PgTime.encode h.lastSeen
  eventsCount := congrArg (fun n : UInt64 => n.toUInt32.toInt32) h.eventsCount
  events := h.events

/-- The rows of a key agree. -/
theorem sameMerge_of_written (hone : t.OneOpen fp) (hperm : c.buffer.Perm d.buffer)
    (hc : c.Succeeds fp t) (hd : d.Succeeds fp t) {r s : AlertRow} (hr : r ∈ (c.after t).rows)
    (hs : s ∈ (d.after t).rows) (hrw : WrittenRow fp t c.buffer r) (hsw : WrittenRow fp t d.buffer s)
    (hkey : r.dedupKey fp = s.dedupKey fp) : SameMerge r s := by
  have hlists : ∀ key, (keyed fp c.buffer key).Perm (keyed fp d.buffer key) := fun key => hperm.filter _
  have hstays : ∀ {e : FlushCall} {r : AlertRow}, e.Succeeds fp t → (AlertsTable.conflictRow
      ((keyed fp e.buffer (r.dedupKey fp)).foldl mergeAlert r.intoAlert) r).dedupKey fp = r.dedupKey fp :=
    fun he => dedupKey_conflictRow (fun b hb => he.micros_lastSeen b (mem_keyed.mp hb).1)
      fun b hb => (mem_keyed.mp hb).2
  rcases hc.written_cases hone hr hrw with ⟨r₀, hr₀, hropen, rfl⟩ | ⟨key, m, hnone, hm, rfl⟩
  · rw [hstays hc] at hkey
    rcases hd.written_cases hone hs hsw with ⟨s₀, hs₀, hsopen, rfl⟩ | ⟨key, n, hnone, hn, rfl⟩
    · rw [hstays hd] at hkey
      rw [hone r₀ hr₀ s₀ hs₀ hropen hsopen hkey]
      exact sameMerge_conflictRow (sameTotals_of_perm ((hlists _).cons _)) s₀
    · rw [dedupKey_ofAlert hd.micros_lastSeen hn] at hkey
      exact absurd hkey (AlertsTable.openRow_eq_none.mp hnone r₀ hr₀ hropen)
  · rw [dedupKey_ofAlert hc.micros_lastSeen hm] at hkey
    rcases hd.written_cases hone hs hsw with ⟨s₀, hs₀, hsopen, rfl⟩ | ⟨key', n, -, hn, rfl⟩
    · rw [hstays hd] at hkey
      exact absurd hkey.symm (AlertsTable.openRow_eq_none.mp hnone s₀ hs₀ hsopen)
    · rw [dedupKey_ofAlert hd.micros_lastSeen hn] at hkey
      subst hkey
      have hsame : alertDedupKey fp m = alertDedupKey fp n :=
        (dedupKey_mergeAll hm).trans (dedupKey_mergeAll hn).symm
      exact sameMerge_ofAlert (mergeAll_sameTotals (hlists key) hm hn) hsame

/-- **The order of arrival does not matter**, if the alerts of a key without an open row are all open or all
closed. -/
theorem order_irrelevant (hone : t.OneOpen fp) (hperm : c.buffer.Perm d.buffer)
    (hstatus : UniformStatus fp t c.buffer) (hc : c.Succeeds fp t) (hd : d.Succeeds fp t) :
    (∀ key, (c.after t).HasOpen fp key ↔ (d.after t).HasOpen fp key) ∧
      (∀ r ∈ (c.after t).rows, ∀ s ∈ (d.after t).rows, WrittenRow fp t c.buffer r →
        WrittenRow fp t d.buffer s → r.dedupKey fp = s.dedupKey fp → SameMerge r s) ∧
      WritesOnly fp t c.buffer (c.after t) ∧ WritesOnly fp t d.buffer (d.after t) := by
  have hstatus' : UniformStatus fp t d.buffer := fun a ha b hb =>
    hstatus a (hperm.mem_iff.mpr ha) b (hperm.mem_iff.mpr hb)
  refine ⟨fun key => ?_, fun r hr s hs => sameMerge_of_written hone hperm hc hd hr hs,
    hc.writesOnly hone, hd.writesOnly hone⟩
  rw [hc.hasOpen_iff hone hstatus, hd.hasOpen_iff hone hstatus']
  refine or_congr_right (and_congr_right fun _ => exists_congr fun a => ?_)
  rw [hperm.mem_iff]

end orders

/-! ### Two alerts of one key -/

/-- A flush of two alerts of one key. -/
def twoScans (first second : Alert) : FlushCall := ⟨.plain, .none, [first, second]⟩

def resolvedScan : Alert := { portScan "a2" "r1" with status := .resolved }

theorem twoScans_succeeds {first second : Alert}
    (h : (first = portScan "a1" "r1" ∧ (second = portScan "a2" "r1" ∨ second = resolvedScan)) ∨
      (second = portScan "a1" "r1" ∧ (first = portScan "a2" "r1" ∨ first = resolvedScan))) :
    (twoScans first second).Succeeds (fun _ => 0) emptyAlerts := by
  have hmicros : WholeMicros (DateTime.ofSeconds 0) := by decide
  refine ⟨rfl, ?_, ?_⟩
  · rcases h with ⟨rfl, rfl | rfl⟩ | ⟨rfl, rfl | rfl⟩
    all_goals exact oneTenant_flushSucceeds rfl (by decide) (by decide)
  · intro a ha
    have hfirst : a.firstSeen = .ofSeconds 0 ∧ a.lastSeen = .ofSeconds 0 := by
      rcases h with ⟨rfl, rfl | rfl⟩ | ⟨rfl, rfl | rfl⟩
      all_goals
        rcases List.mem_cons.mp ha with rfl | ha
        · exact ⟨rfl, rfl⟩
        · rw [List.mem_singleton.mp ha]
          exact ⟨rfl, rfl⟩
    rw [hfirst.1, hfirst.2]
    exact ⟨hmicros, hmicros⟩

/-- Two open alerts open their key in either order. -/
theorem twoOpenScans_agree :
    ((twoScans (portScan "a1" "r1") (portScan "a2" "r1")).after emptyAlerts).HasOpen (fun _ => 0)
        (alertDedupKey (fun _ => 0) (portScan "a1" "r1")) ↔
      ((twoScans (portScan "a2" "r1") (portScan "a1" "r1")).after emptyAlerts).HasOpen (fun _ => 0)
        (alertDedupKey (fun _ => 0) (portScan "a1" "r1")) := by
  have hone : emptyAlerts.OneOpen (fun _ => 0) := fun r hr => (List.not_mem_nil hr).elim
  have hstatus : UniformStatus (fun _ => 0) emptyAlerts [portScan "a1" "r1", portScan "a2" "r1"] := by
    have hopen : ∀ a ∈ [portScan "a1" "r1", portScan "a2" "r1"], a.isOpen = true := by decide
    intro a ha b hb _ _
    rw [hopen a ha, hopen b hb]
  exact (order_irrelevant hone (.swap _ _ _) hstatus (twoScans_succeeds (Or.inl ⟨rfl, Or.inl rfl⟩))
    (twoScans_succeeds (Or.inr ⟨rfl, Or.inl rfl⟩))).1 _

/-- An open and a closed alert of a new key: the key is open if the open one comes first. -/
theorem mixedStatuses_depend : ¬ ∀ (fp : String → UInt64) (t : AlertsTable) (c d : FlushCall),
    t.OneOpen fp → c.buffer.Perm d.buffer → c.Succeeds fp t → d.Succeeds fp t →
      ∀ key, (c.after t).HasOpen fp key ↔ (d.after t).HasOpen fp key := by
  intro h
  have hiff := h (fun _ => 0) emptyAlerts (twoScans (portScan "a1" "r1") resolvedScan)
    (twoScans resolvedScan (portScan "a1" "r1")) (fun r hr => (List.not_mem_nil hr).elim) (.swap _ _ _)
    (twoScans_succeeds (Or.inl ⟨rfl, Or.inr rfl⟩)) (twoScans_succeeds (Or.inr ⟨rfl, Or.inr rfl⟩))
    (alertDedupKey (fun _ => 0) (portScan "a1" "r1"))
  obtain ⟨r, hr, hopen, -⟩ := hiff.mp ⟨_, List.mem_cons_self, by decide, rfl⟩
  have hclosed : ∀ r ∈ ((twoScans resolvedScan (portScan "a1" "r1")).after emptyAlerts).rows,
      r.isOpen = false := by decide
  rw [hclosed r hr] at hopen
  cases hopen

end MiniSiem
