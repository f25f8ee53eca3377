import MiniSiem.Lib.OrderStatistics
import MiniSiem.Lib.Rounding
import Mathlib.Data.List.GetD

/-! # The status of the reliability objectives

The snapshot that `build_reliability_overview` computes (`reliability.rs`) from the samples it has read: the
latencies in milliseconds, and a one or a zero for each check of the services.  All of them are doubles,
and so is every intermediate result.

* **Percentiles.**  `percentile` reads a position of the sorted samples; it lies above a bound exactly when
  enough of the samples do (`lt_percentile_iff`).
* **Availability.**  The comparison of the rounded percentage is that of the counts (`observed_lt_iff`).
* **Status.**  What the three words stand for, in whole numbers (`snapshot_status`). -/

namespace MiniSiem

open Double OrderStatistics

/-! ### The snapshot -/

/-- `percentile`. -/
def percentile (values : List ℚ) (quantile : ℚ) : ℚ :=
  if values.isEmpty then 0
  else
    let sorted := values.insertionSort (· ≤ ·)
    let index := (roundAway (nearest (nearest (nearest sorted.length - 1) * max 0 (min quantile 1)))).toNat
    sorted.getD (min index (sorted.length - 1)) 0

structure ReliabilitySloSnapshot where
  ingestAvailabilityTargetPercent : ℚ
  ingestAvailabilityObservedPercent : ℚ
  detectionLatencyTargetP95Ms : ℚ
  detectionLatencyP95Ms : ℚ
  detectionLatencyP99Ms : ℚ
  alertDeliveryLatencyTargetP95Ms : ℚ
  alertDeliveryLatencyP95Ms : ℚ
  alertDeliveryLatencyP99Ms : ℚ
  sampleCount : ℕ
  status : String

/-- How many of the checks found every service up. -/
def upCount (samples : List ℚ) : ℕ := samples.countP fun value => 1 / 2 ≤ value

/-- `ingest_availability_observed_percent`. -/
def observedPercent (samples : List ℚ) : ℚ :=
  if samples.isEmpty then 0
  else nearest (nearest (nearest (upCount samples) / nearest samples.length) * 100)

/-- The snapshot of an overview, from the samples of the three keys. -/
def sloSnapshot (ingest detection alertDelivery : List ℚ) : ReliabilitySloSnapshot :=
  let observed := observedPercent ingest
  let detectionP95 := percentile detection (nearest (95 / 100))
  let alertDeliveryP95 := percentile alertDelivery (nearest (95 / 100))
  let status := "healthy"
  let status := if observed < 99 ∨ 2000 < detectionP95 ∨ 2000 < alertDeliveryP95 then "degraded" else status
  let status := if observed < 95 then "down" else status
  { ingestAvailabilityTargetPercent := nearest (999 / 10)
    ingestAvailabilityObservedPercent := observed
    detectionLatencyTargetP95Ms := 2000
    detectionLatencyP95Ms := detectionP95
    detectionLatencyP99Ms := percentile detection (nearest (99 / 100))
    alertDeliveryLatencyTargetP95Ms := 2000
    alertDeliveryLatencyP95Ms := alertDeliveryP95
    alertDeliveryLatencyP99Ms := percentile alertDelivery (nearest (99 / 100))
    sampleCount := max (max ingest.length detection.length) alertDelivery.length
    status := status }

/-! ### Percentiles -/

theorem nearest_pred {n : ℕ} (hpos : 0 < n) (hsmall : n ≤ 2 ^ 41) :
    nearest (nearest n - 1) = ((n - 1 : ℕ) : ℚ) := by
  have hpred : ((n : ℚ) - 1) = ((n - 1 : ℕ) : ℚ) := by
    rw [Nat.cast_sub hpos]
    simp
  rw [nearest_natCast (by omega), hpred, nearest_natCast (by omega)]

theorem nearest_p95 : nearest (95 / 100) = 8556839292003942 * 2 ^ (-53 : ℤ) := by
  have h := nearest_of_close (q := 95 / 100) (-1) 8556839292003942 (by norm_num) (by norm_num) (by norm_num)
    (by norm_num)
  simpa using h

/-- The position of the 95th percentile among so many samples, counted from zero. -/
theorem index_p95 {n : ℕ} (hpos : 0 < n) (hsmall : n ≤ 2 ^ 41) :
    (roundAway (nearest (nearest (nearest n - 1) * max 0 (min (nearest (95 / 100)) 1)))).toNat =
      (19 * (n - 1) + 10) / 20 := by
  have hclamp : max 0 (min (nearest (95 / 100)) 1) = nearest (95 / 100) := by
    rw [nearest_p95]
    norm_num
  rw [nearest_pred hpos hsmall, hclamp, roundAway_multiple (a := 19) (b := 20)]
  · simp only [Int.toNat_natCast]
    omega
  · norm_num
  · norm_num
  · norm_num
  · omega
  · rw [nearest_p95]
    norm_num
  · rw [nearest_p95]
    norm_num

/-- The 95th percentile lies above a bound exactly when all samples from its position on do. -/
theorem lt_percentile_iff (values : List ℚ) {t : ℚ} (ht : 0 ≤ t) (hsmall : values.length ≤ 2 ^ 41) :
    t < percentile values (nearest (95 / 100)) ↔
      values ≠ [] ∧ values.length ≤ above t values + (19 * (values.length - 1) + 10) / 20 := by
  cases hvalues : values with
  | nil => simp [percentile, ht]
  | cons v vs =>
      rw [← hvalues]
      have hne : values ≠ [] := by simp [hvalues]
      have hpos : 0 < values.length := List.length_pos_iff.mpr hne
      have hindex : (19 * (values.length - 1) + 10) / 20 ≤ values.length - 1 := by omega
      have hbound : (19 * (values.length - 1) + 10) / 20 < (values.insertionSort (· ≤ ·)).length := by
        rw [List.length_insertionSort]
        omega
      have hvalue : percentile values (nearest (95 / 100)) =
          (values.insertionSort (· ≤ ·))[(19 * (values.length - 1) + 10) / 20] := by
        simp only [percentile, List.isEmpty_iff, hne, if_false, List.length_insertionSort]
        rw [index_p95 hpos hsmall, Nat.min_eq_left hindex, List.getD_eq_getElem _ _ hbound]
      rw [hvalue, lt_sorted_iff, and_iff_right hne]

/-! ### Availability -/

theorem percent_99 : nearest (nearest ((99 : ℕ) / 100) * 100) = (99 : ℕ) := by
  have hfirst := nearest_of_close (q := 99 / 100) (-1) 8917127262193582 (by norm_num) (by norm_num)
    (by norm_num) (by norm_num)
  have hsecond := nearest_of_close (q := 8917127262193582 * 2 ^ (-53 : ℤ) * 100) 6 (99 * 2 ^ 46) (by norm_num)
    (by norm_num) (by norm_num) (by norm_num)
  norm_num at hfirst hsecond ⊢
  rw [hfirst]
  norm_num
  exact hsecond

theorem percent_95 : nearest (nearest ((95 : ℕ) / 100) * 100) = (95 : ℕ) := by
  have hfirst := nearest_p95
  have hsecond := nearest_of_close (q := 8556839292003942 * 2 ^ (-53 : ℤ) * 100) 6 (95 * 2 ^ 46) (by norm_num)
    (by norm_num) (by norm_num) (by norm_num)
  norm_num at hfirst hsecond ⊢
  rw [hfirst]
  norm_num
  exact hsecond

theorem observed_lt_iff (samples : List ℚ) (hsmall : samples.length ≤ 2 ^ 41) {bound : ℕ}
    (hbound : bound ≤ 100) (hpos : 0 < bound) (hexact : nearest (nearest (bound / 100) * 100) = bound) :
    observedPercent samples < bound ↔ samples = [] ∨ 100 * upCount samples < bound * samples.length := by
  cases hsamples : samples with
  | nil => simp [observedPercent, hpos]
  | cons v vs =>
      rw [← hsamples]
      have hne : samples ≠ [] := by simp [hsamples]
      have hup : upCount samples ≤ samples.length := List.countP_le_length
      have hlen : 0 < samples.length := List.length_pos_iff.mpr hne
      simp only [observedPercent, List.isEmpty_iff, hne, if_false, false_or]
      rw [nearest_natCast (by omega), nearest_natCast (by omega),
        percent_lt_iff hlen (by omega) hbound hexact]

/-! ### The status -/

/-- At least so many per cent of the checks found every service up. -/
def AvailableFor (percent : ℕ) (samples : List ℚ) : Prop :=
  samples ≠ [] ∧ percent * samples.length ≤ 100 * upCount samples

/-- The slowest samples from the 95th percentile on took more than two seconds. -/
def SlowTail (samples : List ℚ) : Prop :=
  samples ≠ [] ∧ samples.length ≤ above 2000 samples + (19 * (samples.length - 1) + 10) / 20

instance (percent : ℕ) (samples : List ℚ) : Decidable (AvailableFor percent samples) :=
  inferInstanceAs (Decidable (_ ∧ _))

instance (samples : List ℚ) : Decidable (SlowTail samples) := inferInstanceAs (Decidable (_ ∧ _))

theorem observed_lt_iff_not_availableFor (samples : List ℚ) (hsmall : samples.length ≤ 2 ^ 41) (bound : ℕ)
    (hbound : bound ≤ 100) (hpos : 0 < bound) (hexact : nearest (nearest (bound / 100) * 100) = bound) :
    observedPercent samples < bound ↔ ¬ AvailableFor bound samples := by
  rw [observed_lt_iff samples hsmall hbound hpos hexact, AvailableFor, not_and_or, not_not, not_le]

section status

variable (ingest detection alertDelivery : List ℚ) (hingest : ingest.length ≤ 2 ^ 41)
  (hdetection : detection.length ≤ 2 ^ 41) (halerts : alertDelivery.length ≤ 2 ^ 41)

include hingest hdetection halerts

/-- **The status in whole numbers**: down is less than 95 per cent of the checks, healthy is at least 99 per
cent and no slow tail, and everything else is degraded. -/
theorem snapshot_status :
    ((sloSnapshot ingest detection alertDelivery).status = "down" ↔ ¬ AvailableFor 95 ingest) ∧
    ((sloSnapshot ingest detection alertDelivery).status = "healthy" ↔
      AvailableFor 99 ingest ∧ ¬ SlowTail detection ∧ ¬ SlowTail alertDelivery) ∧
    ((sloSnapshot ingest detection alertDelivery).status = "degraded" ↔
      AvailableFor 95 ingest ∧
        (¬ AvailableFor 99 ingest ∨ SlowTail detection ∨ SlowTail alertDelivery)) := by
  have hlow : observedPercent ingest < 95 ↔ ¬ AvailableFor 95 ingest := by
    exact_mod_cast observed_lt_iff_not_availableFor ingest hingest 95 (by norm_num) (by norm_num)
      percent_95
  have hhigh : observedPercent ingest < 99 ↔ ¬ AvailableFor 99 ingest := by
    exact_mod_cast observed_lt_iff_not_availableFor ingest hingest 99 (by norm_num) (by norm_num)
      percent_99
  have hslow : ∀ samples : List ℚ, samples.length ≤ 2 ^ 41 →
      (2000 < percentile samples (nearest (95 / 100)) ↔ SlowTail samples) := fun samples h =>
    lt_percentile_iff samples (by norm_num) h
  -- whoever is up 99 per cent of the time is up 95 per cent of it
  have himp : AvailableFor 99 ingest → AvailableFor 95 ingest := by
    rintro ⟨hne, hcount⟩
    exact ⟨hne, by omega⟩
  simp only [sloSnapshot, hlow, hhigh, hslow detection hdetection, hslow alertDelivery halerts]
  by_cases h95 : AvailableFor 95 ingest
  · by_cases hdegraded : ¬ AvailableFor 99 ingest ∨ SlowTail detection ∨ SlowTail alertDelivery
    · have hnot : ¬ (AvailableFor 99 ingest ∧ ¬ SlowTail detection ∧ ¬ SlowTail alertDelivery) := by tauto
      simp [h95, hdegraded, hnot]
    · have hhealthy : AvailableFor 99 ingest ∧ ¬ SlowTail detection ∧ ¬ SlowTail alertDelivery := by tauto
      simp [h95, hhealthy]
  · have h99 : ¬ AvailableFor 99 ingest := fun h => h95 (himp h)
    simp [h95, h99]

end status

end MiniSiem
