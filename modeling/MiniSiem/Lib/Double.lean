import Mathlib.Data.Int.Log
import Mathlib.Tactic

/-! # Rounding to doubles

The nearest binary double of a rational number, ties to even, in the range of the normal numbers.

* **Integers.**  `roundHalfEven` is monotone and keeps the integers.
* **Doubles.**  `nearest` rounds to 53 significant bits; it is monotone (`nearest_mono`) and keeps
  the numbers that have as many bits (`nearest_of_bits`). -/

namespace Double

/-- The nearest integer, ties to even. -/
def roundHalfEven (q : ℚ) : ℤ :=
  if Int.fract q < 1 / 2 ∨ Int.fract q = 1 / 2 ∧ ⌊q⌋ % 2 = 0 then ⌊q⌋ else ⌊q⌋ + 1

/-- The unit in the last of 53 bits of a positive number. -/
def ulp (q : ℚ) : ℚ := 2 ^ (Int.log 2 q - 52)

/-- The nearest double of a positive number. -/
def nearest (q : ℚ) : ℚ := if q ≤ 0 then 0 else roundHalfEven (q / ulp q) * ulp q

/-! ### The nearest integer -/

theorem floor_le_roundHalfEven (q : ℚ) : ⌊q⌋ ≤ roundHalfEven q := by
  unfold roundHalfEven
  split_ifs <;> omega

theorem roundHalfEven_le (q : ℚ) : roundHalfEven q ≤ ⌊q⌋ + 1 := by
  unfold roundHalfEven
  split_ifs <;> omega

@[simp] theorem roundHalfEven_intCast (n : ℤ) : roundHalfEven n = n := by
  unfold roundHalfEven
  rw [Int.fract_intCast, Int.floor_intCast, if_pos (Or.inl (by norm_num))]

theorem roundHalfEven_mono {p q : ℚ} (h : p ≤ q) : roundHalfEven p ≤ roundHalfEven q := by
  rcases (Int.floor_le_floor h).lt_or_eq with hlt | heq
  · calc roundHalfEven p ≤ ⌊p⌋ + 1 := roundHalfEven_le p
      _ ≤ ⌊q⌋ := hlt
      _ ≤ roundHalfEven q := floor_le_roundHalfEven q
  · have hfract : Int.fract p ≤ Int.fract q := by
      unfold Int.fract
      rw [heq]
      linarith
    unfold roundHalfEven
    rw [heq]
    split_ifs with hp hq
    · exact le_rfl
    · omega
    · rename_i hq
      refine absurd ?_ hp
      rcases hq with hq | ⟨hq, heven⟩
      · exact Or.inl (lt_of_le_of_lt hfract hq)
      · rcases hfract.lt_or_eq with hless | hsame
        · exact Or.inl (hq ▸ hless)
        · exact Or.inr ⟨hsame.trans hq, heven⟩
    · exact le_rfl

/-! ### The nearest double -/

theorem ulp_pos (q : ℚ) : 0 < ulp q := by
  unfold ulp
  positivity

theorem pow_mul_ulp (q : ℚ) : (2 : ℚ) ^ 52 * ulp q = 2 ^ Int.log 2 q := by
  unfold ulp
  rw [← zpow_natCast, ← zpow_add₀ (by norm_num : (2 : ℚ) ≠ 0)]
  congr 1
  push_cast
  ring

theorem nearest_nonneg (q : ℚ) : 0 ≤ nearest q := by
  unfold nearest
  split_ifs with h
  · exact le_rfl
  · have hfloor : 0 ≤ ⌊q / ulp q⌋ := Int.floor_nonneg.mpr (div_nonneg (le_of_not_ge h) (ulp_pos q).le)
    have hround : (0 : ℚ) ≤ roundHalfEven (q / ulp q) := by
      exact_mod_cast hfloor.trans (floor_le_roundHalfEven _)
    exact mul_nonneg hround (ulp_pos q).le

/-- Rounding does not leave the binade. -/
theorem nearest_bounds {q : ℚ} (h : 0 < q) :
    (2 : ℚ) ^ Int.log 2 q ≤ nearest q ∧ nearest q ≤ 2 ^ (Int.log 2 q + 1) := by
  have hpos := ulp_pos q
  have hscale := pow_mul_ulp q
  have hlow : ((2 ^ 52 : ℤ) : ℚ) ≤ q / ulp q := by
    rw [le_div_iff₀ hpos, Int.cast_pow, Int.cast_ofNat, hscale]
    exact Int.zpow_log_le_self (by norm_num) h
  have hhigh : q / ulp q ≤ ((2 ^ 53 : ℤ) : ℚ) := by
    rw [div_le_iff₀ hpos]
    have hnext := Int.lt_zpow_succ_log_self (b := 2) (by norm_num) q
    push_cast at hnext ⊢
    rw [zpow_add₀ (by norm_num : (2 : ℚ) ≠ 0), ← hscale] at hnext
    linarith
  have hfirst := roundHalfEven_mono hlow
  have hlast := roundHalfEven_mono hhigh
  rw [roundHalfEven_intCast] at hfirst hlast
  have hfirst' : ((2 ^ 52 : ℤ) : ℚ) ≤ roundHalfEven (q / ulp q) := by exact_mod_cast hfirst
  have hlast' : (roundHalfEven (q / ulp q) : ℚ) ≤ ((2 ^ 53 : ℤ) : ℚ) := by exact_mod_cast hlast
  unfold nearest
  rw [if_neg (not_le.mpr h), zpow_add₀ (by norm_num : (2 : ℚ) ≠ 0), ← hscale]
  push_cast at hfirst' hlast'
  constructor
  · exact mul_le_mul_of_nonneg_right hfirst' hpos.le
  · nlinarith

theorem nearest_mono {p q : ℚ} (h : p ≤ q) : nearest p ≤ nearest q := by
  by_cases hp : p ≤ 0
  · unfold nearest
    rw [if_pos hp]
    exact nearest_nonneg q
  · have hp' : 0 < p := not_le.mp hp
    have hq' : 0 < q := hp'.trans_le h
    rcases (Int.log_mono_right hp' h : Int.log 2 p ≤ Int.log 2 q).lt_or_eq with hlt | heq
    · calc nearest p ≤ 2 ^ (Int.log 2 p + 1) := (nearest_bounds hp').2
        _ ≤ 2 ^ Int.log 2 q := zpow_le_zpow_right₀ (by norm_num) hlt
        _ ≤ nearest q := (nearest_bounds hq').1
    · have hulp : ulp p = ulp q := by
        unfold ulp
        rw [heq]
      unfold nearest
      rw [if_neg hp, if_neg (not_le.mpr hq'), hulp]
      have hround := roundHalfEven_mono (div_le_div_of_nonneg_right h (ulp_pos q).le)
      exact mul_le_mul_of_nonneg_right (by exact_mod_cast hround) (ulp_pos q).le

/-- A number of 53 bits is a double. -/
theorem nearest_of_bits {q : ℚ} (n : ℤ) (hq : 0 < q) (h : q = n * ulp q) : nearest q = q := by
  have hquot : q / ulp q = n := by
    rw [div_eq_iff (ulp_pos q).ne']
    exact h
  unfold nearest
  rw [if_neg (not_le.mpr hq), hquot, roundHalfEven_intCast, ← h]

@[simp] theorem nearest_one : nearest 1 = 1 := by
  refine nearest_of_bits (2 ^ 52) one_pos ?_
  rw [Int.cast_pow, Int.cast_ofNat, pow_mul_ulp, Int.log_one_right, zpow_zero]

/-- The greatest double below one. -/
theorem nearest_pred_one : nearest (1 - 2 ^ (-53 : ℤ)) = 1 - 2 ^ (-53 : ℤ) := by
  have hlog : Int.log 2 (1 - 2 ^ (-53 : ℤ) : ℚ) = -1 := by
    refine le_antisymm ?_ ?_
    · have hless := (Int.lt_zpow_iff_log_lt (b := 2) (x := 0) (by norm_num)
        (by norm_num : (0 : ℚ) < 1 - 2 ^ (-53 : ℤ))).mp (by norm_num)
      omega
    · exact (Int.zpow_le_iff_le_log (b := 2) (by norm_num)
        (by norm_num : (0 : ℚ) < 1 - 2 ^ (-53 : ℤ))).mp (by norm_num)
  refine nearest_of_bits (2 ^ 53 - 1) (by norm_num) ?_
  unfold ulp
  rw [hlog]
  norm_num

theorem one_le_nearest {q : ℚ} (h : 1 ≤ q) : 1 ≤ nearest q := nearest_one ▸ nearest_mono h

theorem nearest_lt_one {q : ℚ} (h : q ≤ 1 - 2 ^ (-53 : ℤ)) : nearest q < 1 := by
  calc nearest q ≤ nearest (1 - 2 ^ (-53 : ℤ)) := nearest_mono h
    _ = 1 - 2 ^ (-53 : ℤ) := nearest_pred_one
    _ < 1 := by norm_num

end Double
