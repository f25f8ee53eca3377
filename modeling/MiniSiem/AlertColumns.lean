import MiniSiem.AlertDedup
import Mathlib.Data.UInt

/-! # The columns of a merge

What the statements of a flush write of the alerts that were merged in memory.

* **Stored.**  `MergeStored`: the row of each key shows what the old open row and the alerts of the key, in
  the order of the buffer, are merged to.
* **Columns.**  An insert rounds the times to microseconds and cuts the count to 32 bits; the upsert moreover
  leaves `first_seen` and `description` as they are (`showsMerge_ofAlert`, `showsMerge_conflictRow`).
* **Exactness.**  `mergeStored_iff` says, in terms of the buffer and the old row, when nothing is lost;
  `earlierFirstSeen_lost` is an alert that arrives out of order. -/

namespace MiniSiem

open Merging

/-- The open row of the key as an alert, and the alerts of the key in the order of the buffer. -/
def mergeInputs (fp : String → UInt64) (t : AlertsTable) (buffer : List Alert) (key : AlertDedupKey) :
    List Alert :=
  ((t.openRow fp key).map AlertRow.intoAlert).toList ++ keyed fp buffer key

/-- The row shows the alert in the columns that a merge is about. -/
structure ShowsMerge (r : AlertRow) (m : Alert) : Prop where
  firstSeen : r.intoAlert.firstSeen = m.firstSeen
  lastSeen : r.intoAlert.lastSeen = m.lastSeen
  description : r.intoAlert.description = m.description
  events : r.intoAlert.events = m.events
  eventsCount : r.intoAlert.eventsCount = m.eventsCount

/-- The row of each key of the buffer shows what its alerts are merged to. -/
def MergeStored (fp : String → UInt64) (t : AlertsTable) (buffer : List Alert) (t' : AlertsTable) : Prop :=
  ∀ a ∈ buffer, ∀ m, mergeAll (mergeInputs fp t buffer (alertDedupKey fp a)) = some m →
    ∃ r ∈ t'.rows, r.id = m.id ∧ ShowsMerge r m

/-- The count is read back as it was. -/
def CountFits (n : UInt64) : Prop := n.toNat < 2 ^ 31 ∨ 2 ^ 64 - 2 ^ 31 ≤ n.toNat

instance (n : UInt64) : Decidable (CountFits n) := inferInstanceAs (Decidable (_ ∨ _))

/-- What an open row and the alerts of its key hold is not lost: the latest occurrence has whole
microseconds and the description of the row, no alert is older than the row, and the count fits.
Without an open row the earliest occurrence has whole microseconds as well. -/
structure NothingLost (old : Option AlertRow) (inputs : List Alert) : Prop where
  latest : ∀ w, Wins Alert.lastSeen inputs w →
    WholeMicros w.lastSeen ∧ ∀ r ∈ old, w.description = r.description
  earliest : ∀ b ∈ inputs, (∀ c ∈ inputs, b.firstSeen ≤ c.firstSeen) →
    WholeMicros b.firstSeen ∧ ∀ r ∈ old, r.firstSeen.1 ≤ b.firstSeen
  count : CountFits (inputs.map Alert.eventsCount).sum

/-! ### Columns -/

theorem WholeMicros.encode_iff {t : DateTime} : (PgTime.encode t).1 = t ↔ WholeMicros t := by
  constructor
  · intro h
    rw [← h]
    exact (PgTime.encode t).2
  · exact encode_of_micros

theorem countColumn_iff {m : Alert} :
    m.countColumn.toInt64.toUInt64 = m.eventsCount ↔ CountFits m.eventsCount := by
  generalize hn : m.eventsCount = n
  have hbits : m.countColumn.toInt64.toUInt64.toBitVec = (n.toBitVec.setWidth 32).signExtend 64 := by
    rw [← hn]
    rfl
  have hnat : n.toBitVec.toNat = n.toNat := rfl
  have hlt := n.toNat_lt
  unfold CountFits
  rw [← UInt64.toBitVec_inj, hbits, ← BitVec.toInt_inj, BitVec.toInt_signExtend, BitVec.toInt_setWidth,
    BitVec.toInt_eq_toNat_cond, hnat]
  simp only [Int.bmod_def]
  norm_num
  split_ifs <;> omega

section columns

variable {m : Alert} {r : AlertRow}

theorem showsMerge_ofAlert : ShowsMerge (AlertRow.ofAlert m) m ↔
    WholeMicros m.firstSeen ∧ WholeMicros m.lastSeen ∧ CountFits m.eventsCount := by
  rw [← WholeMicros.encode_iff, ← WholeMicros.encode_iff, ← countColumn_iff]
  constructor
  · intro h
    exact ⟨h.firstSeen, h.lastSeen, h.eventsCount⟩
  · rintro ⟨hfirst, hlast, hcount⟩
    exact ⟨hfirst, hlast, rfl, rfl, hcount⟩

theorem showsMerge_conflictRow : ShowsMerge (AlertsTable.conflictRow m r) m ↔
    r.firstSeen.1 = m.firstSeen ∧ WholeMicros m.lastSeen ∧ r.description = m.description ∧
      CountFits m.eventsCount := by
  rw [← WholeMicros.encode_iff, ← countColumn_iff]
  constructor
  · intro h
    exact ⟨h.firstSeen, h.lastSeen, h.description, h.eventsCount⟩
  · rintro ⟨hfirst, hlast, hdescription, hcount⟩
    exact ⟨hfirst, hlast, hdescription, rfl, hcount⟩

end columns

/-! ### Conditions on the inputs -/

section inputs

variable {a : Alert} {as : List Alert}

/-- The time and the description of the merged alert are those of the last of the latest alerts. -/
theorem forall_wins_iff (a : Alert) (as : List Alert) {p : DateTime → String → Prop} :
    (∀ w, Wins Alert.lastSeen (a :: as) w → p w.lastSeen w.description) ↔
      p (as.foldl mergeAlert a).lastSeen (as.foldl mergeAlert a).description := by
  obtain ⟨w, hw, htime, hdescription⟩ := foldl_wins (f := Alert.description)
    (fun _ _ => mergeAlert_lastSeen) (fun _ _ => mergeAlert_description) a as
  rw [htime, hdescription]
  constructor
  · exact fun h => h w hw
  · intro h w' hw'
    rw [hw'.unique hw]
    exact h

/-- The first occurrence of the merged alert is the earliest one. -/
theorem forall_earliest_iff (a : Alert) (as : List Alert) {p : DateTime → Prop} :
    (∀ b ∈ a :: as, (∀ c ∈ a :: as, b.firstSeen ≤ c.firstSeen) → p b.firstSeen) ↔
      p (as.foldl mergeAlert a).firstSeen := by
  obtain ⟨⟨b, hb, hfirst⟩, hlower⟩ := isLeast_foldl (fun _ _ => mergeAlert_firstSeen) a as
  have hleast : ∀ c ∈ a :: as, b.firstSeen ≤ c.firstSeen := by
    intro c hc
    rw [hfirst]
    exact hlower ⟨c, hc, rfl⟩
  rw [← hfirst]
  constructor
  · exact fun h => h b hb hleast
  · intro h c hc hcleast
    rw [le_antisymm (hcleast b hb) (hleast c hc)]
    exact h

theorem eventsCount_foldl : (as.foldl mergeAlert a).eventsCount =
    ((a :: as).map Alert.eventsCount).sum :=
  foldl_sum mergeAlert Alert.eventsCount (fun _ _ => rfl) a as

/-- Into no row: the insert stores the merged alert. -/
theorem nothingLost_none : NothingLost none (a :: as) ↔
    ShowsMerge (AlertRow.ofAlert (as.foldl mergeAlert a)) (as.foldl mergeAlert a) := by
  have hwins := forall_wins_iff a as (p := fun t _ => WholeMicros t)
  have hearly := forall_earliest_iff a as (p := WholeMicros)
  rw [showsMerge_ofAlert, eventsCount_foldl, ← hwins, ← hearly]
  constructor
  · rintro ⟨hlatest, hearliest, hcount⟩
    exact ⟨fun b hb h => (hearliest b hb h).1, fun w hw => (hlatest w hw).1, hcount⟩
  · rintro ⟨hearliest, hlatest, hcount⟩
    exact ⟨fun w hw => ⟨hlatest w hw, fun _ hr => by cases hr⟩,
      fun b hb h => ⟨hearliest b hb h, fun _ hr => by cases hr⟩, hcount⟩

/-- Into an open row: the upsert stores the merged alert. -/
theorem nothingLost_some {r : AlertRow} : NothingLost (some r) (r.intoAlert :: as) ↔
    ShowsMerge (AlertsTable.conflictRow (as.foldl mergeAlert r.intoAlert) r)
      (as.foldl mergeAlert r.intoAlert) := by
  have hwins := forall_wins_iff r.intoAlert as
    (p := fun t description => WholeMicros t ∧ description = r.description)
  have hearly := forall_earliest_iff r.intoAlert as
    (p := fun t => WholeMicros t ∧ r.firstSeen.1 ≤ t)
  have hfirst : r.firstSeen.1 = (as.foldl mergeAlert r.intoAlert).firstSeen ↔
      WholeMicros (as.foldl mergeAlert r.intoAlert).firstSeen ∧
        r.firstSeen.1 ≤ (as.foldl mergeAlert r.intoAlert).firstSeen := by
    have hle := (isLeast_foldl (fun _ _ => mergeAlert_firstSeen) r.intoAlert as).2
      ⟨r.intoAlert, List.mem_cons_self, rfl⟩
    constructor
    · intro h
      rw [← h]
      exact ⟨r.firstSeen.2, le_rfl⟩
    · exact fun h => le_antisymm h.2 hle
  rw [showsMerge_conflictRow, eventsCount_foldl, hfirst, ← hearly]
  constructor
  · rintro ⟨hlatest, hearliest, hcount⟩
    obtain ⟨hlast, hdescription⟩ := hwins.mp fun w hw =>
      ⟨(hlatest w hw).1, (hlatest w hw).2 r rfl⟩
    exact ⟨fun b hb h => ⟨(hearliest b hb h).1, (hearliest b hb h).2 r rfl⟩, hlast, hdescription.symm,
      hcount⟩
  · rintro ⟨hearliest, hlast, hdescription, hcount⟩
    refine ⟨fun w hw => ?_, fun b hb h => ?_, hcount⟩
    · obtain ⟨hmicros, hsame⟩ := hwins.mpr ⟨hlast, hdescription.symm⟩ w hw
      refine ⟨hmicros, fun r' hr' => ?_⟩
      rw [← Option.some.inj hr']
      exact hsame
    · obtain ⟨hmicros, hle⟩ := hearliest b hb h
      refine ⟨hmicros, fun r' hr' => ?_⟩
      rw [← Option.some.inj hr']
      exact hle

end inputs

/-! ### The flush -/

section flush

variable {env : BatchEnv} {faults : FlushFaults} {t : AlertsTable} {buffer : List Alert}

/-- An identifier is in one row only. -/
theorem exists_showsMerge_iff {t' : AlertsTable} {row : AlertRow} {m : Alert} {as : List Alert}
    (hrow : row ∈ t'.rows) (hid : row.id = m.id) (hm : mergeAll as = some m) :
    (∀ m', mergeAll as = some m' → ∃ r ∈ t'.rows, r.id = m'.id ∧ ShowsMerge r m') ↔ ShowsMerge row m := by
  constructor
  · intro h
    obtain ⟨r, hr, hrid, hshows⟩ := h m hm
    have hsame : r = row := List.inj_on_of_nodup_map t'.id_nodup hr hrow (hrid.trans hid.symm)
    exact hsame ▸ hshows
  · intro h m' hm'
    obtain rfl := Option.some.inj (hm.symm.trans hm')
    exact ⟨row, hrow, hid, h⟩

/-- **What is merged is what is stored**, exactly when no key of the buffer loses anything. -/
theorem mergeStored_iff (hone : t.OneOpen env.fingerprint) (hflush : FlushSucceeds env faults t buffer) :
    MergeStored env.fingerprint t buffer (flushBatch env faults t buffer).1.table ↔
      ∀ a ∈ buffer, NothingLost (t.openRow env.fingerprint (alertDedupKey env.fingerprint a))
        (mergeInputs env.fingerprint t buffer (alertDedupKey env.fingerprint a)) := by
  refine forall₂_congr fun a ha => ?_
  have hkeyed : a ∈ keyed env.fingerprint buffer (alertDedupKey env.fingerprint a) := mem_keyed.mpr ⟨ha, rfl⟩
  cases hopen : t.openRow env.fingerprint (alertDedupKey env.fingerprint a) with
  | none =>
      have hinputs : mergeInputs env.fingerprint t buffer (alertDedupKey env.fingerprint a) =
          keyed env.fingerprint buffer (alertDedupKey env.fingerprint a) := by
        unfold mergeInputs
        rw [hopen]
        rfl
      rw [hinputs]
      cases hlist : keyed env.fingerprint buffer (alertDedupKey env.fingerprint a) with
      | nil =>
          rw [hlist] at hkeyed
          exact (List.not_mem_nil hkeyed).elim
      | cons b bs =>
          have hrow := (mem_flush_rows env faults hone hflush).mpr
            (Or.inr ⟨_, _, hopen, (congrArg mergeAll hlist).trans rfl, rfl⟩)
          rw [nothingLost_none]
          exact exists_showsMerge_iff hrow rfl rfl
  | some r =>
      obtain ⟨hr, hropen, hkey⟩ := AlertsTable.openRow_eq_some hopen
      have hinputs : mergeInputs env.fingerprint t buffer (alertDedupKey env.fingerprint a) =
          r.intoAlert :: keyed env.fingerprint buffer (alertDedupKey env.fingerprint a) := by
        unfold mergeInputs
        rw [hopen]
        rfl
      have hflushed : flushedRow env.fingerprint buffer r = AlertsTable.conflictRow
          ((keyed env.fingerprint buffer (alertDedupKey env.fingerprint a)).foldl mergeAlert r.intoAlert) r := by
        unfold flushedRow
        rw [hkey, if_pos ⟨hropen, List.ne_nil_of_mem hkeyed⟩]
      have hrow := (mem_flush_rows env faults hone hflush).mpr (Or.inl ⟨r, hr, hflushed⟩)
      rw [hinputs, nothingLost_some]
      refine exists_showsMerge_iff hrow ?_ rfl
      exact (foldl_keep mergeAlert Alert.id (fun _ _ => rfl) r.intoAlert _).symm

end flush

/-! ### Alerts out of order -/

/-- A repeated alert that is no older and says the same is stored. -/
theorem repeatedPortScan_stored : MergeStored (fun _ => 0) onePortScan [portScan "a2" "r1"]
    (flushBatch .plain .none onePortScan [portScan "a2" "r1"]).1.table := by
  refine (mergeStored_iff (AlertsTable.oneOpen_singleton _ rfl)
    (onePortScan_flushSucceeds "r1" (Or.inl rfl))).mpr ?_
  intro a ha
  rw [List.mem_singleton.mp ha]
  exact nothingLost_some.mpr (showsMerge_conflictRow.mpr ⟨rfl, by decide, rfl, by decide⟩)

/-- One open alert, of half a minute later. -/
def laterPortScan : AlertsTable :=
  ⟨[AlertRow.ofAlert { portScan "a1" "r1" with firstSeen := .ofSeconds 30, lastSeen := .ofSeconds 30 }],
    List.nodup_singleton _⟩

/-- An alert that arrives late: the row keeps its first occurrence. -/
theorem earlierFirstSeen_lost : ¬ ∀ (env : BatchEnv) (faults : FlushFaults) (t : AlertsTable)
    (buffer : List Alert), t.OneOpen env.fingerprint → FlushSucceeds env faults t buffer →
      MergeStored env.fingerprint t buffer (flushBatch env faults t buffer).1.table := by
  intro h
  have hone : laterPortScan.OneOpen (fun _ => 0) := AlertsTable.oneOpen_singleton _ rfl
  have hflush : FlushSucceeds .plain .none laterPortScan [portScan "a2" "r1"] :=
    oneTenant_flushSucceeds rfl (by decide) (by decide)
  obtain ⟨r, hr, -, hshows⟩ := h .plain .none laterPortScan [portScan "a2" "r1"] hone hflush
    (portScan "a2" "r1") List.mem_cons_self _ rfl
  have hrows : (flushBatch .plain .none laterPortScan [portScan "a2" "r1"]).1.table.rows.map (·.firstSeen.1) =
      [.ofSeconds 30] := rfl
  have hmem := List.mem_map_of_mem (f := fun r : AlertRow => r.firstSeen.1) hr
  rw [hrows] at hmem
  have hfirst := hshows.firstSeen
  have hold : r.intoAlert.firstSeen = .ofSeconds 30 := List.mem_singleton.mp hmem
  rw [hold] at hfirst
  revert hfirst
  decide

end MiniSiem
