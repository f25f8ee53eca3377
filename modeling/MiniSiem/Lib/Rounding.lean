import MiniSiem.Lib.Double

/-! # Arithmetic on doubles

How far rounding to a double moves a number, and what follows for integers and for rounded fractions.

* **Error.**  Rounding moves a number by at most its `2 ^ 53`rd part (`nearest_le`, `le_nearest`).
* **Exact values.**  `nearest_of_close` computes a double, and small integers are doubles (`nearest_natCast`).
* **Fractions.**  The rounded quotient of two small integers, scaled to a percentage and rounded again,
  compares with a bound as the quotient itself does (`percent_lt_iff`); a small multiple of a rounded
  fraction rounds to the integer to which the exact multiple does (`roundAway_multiple`). -/

namespace Double

/-- The nearest integer of a number that is not negative, ties upwards. -/
def roundAway (q : ℚ) : ℤ := ⌊q + 1 / 2⌋

/-! ### Error -/

theorem roundHalfEven_of_close {z : ℚ} {m : ℤ} (hlow : m - 1 / 2 < z) (hhigh : z < m + 1 / 2) :
    roundHalfEven z = m := by
  have hfract := Int.floor_add_fract z
  unfold roundHalfEven
  rcases lt_or_ge z m with hlt | hge
  · have hfloor : ⌊z⌋ = m - 1 := by
      rw [Int.floor_eq_iff]
      push_cast
      constructor <;> linarith
    rw [hfloor] at hfract ⊢
    push_cast at hfract
    rw [if_neg]
    · omega
    · rintro (h | ⟨h, -⟩) <;> linarith
  · have hfloor : ⌊z⌋ = m := by
      rw [Int.floor_eq_iff]
      constructor <;> linarith
    rw [hfloor] at hfract ⊢
    rw [if_pos (Or.inl (by linarith))]

theorem roundHalfEven_le_add (z : ℚ) : (roundHalfEven z : ℚ) ≤ z + 1 / 2 := by
  have hfract := Int.floor_add_fract z
  unfold roundHalfEven
  split_ifs with h
  · linarith [Int.floor_le z]
  · have hhalf : 1 / 2 ≤ Int.fract z := by
      by_contra hless
      exact h (Or.inl (not_le.mp hless))
    push_cast
    linarith

theorem sub_le_roundHalfEven (z : ℚ) : z - 1 / 2 ≤ roundHalfEven z := by
  have hfract := Int.floor_add_fract z
  unfold roundHalfEven
  split_ifs with h
  · rcases h with h | ⟨h, -⟩ <;> linarith
  · push_cast
    linarith [Int.fract_lt_one z]

theorem ulp_le {q : ℚ} (h : 0 < q) : 2 ^ 52 * ulp q ≤ q := by
  rw [pow_mul_ulp]
  exact Int.zpow_log_le_self (by norm_num) h

theorem nearest_eq {q : ℚ} (h : 0 < q) : nearest q = roundHalfEven (q / ulp q) * ulp q := by
  unfold nearest
  rw [if_neg (not_le.mpr h)]

/-- Rounding moves a number by half a unit at most. -/
theorem nearest_near {q : ℚ} (h : 0 < q) : q - ulp q / 2 ≤ nearest q ∧ nearest q ≤ q + ulp q / 2 := by
  have hpos := ulp_pos q
  have hscaled : q / ulp q * ulp q = q := div_mul_cancel₀ q hpos.ne'
  have habove := mul_le_mul_of_nonneg_right (roundHalfEven_le_add (q / ulp q)) hpos.le
  have hbelow := mul_le_mul_of_nonneg_right (sub_le_roundHalfEven (q / ulp q)) hpos.le
  rw [← nearest_eq h] at habove hbelow
  constructor <;> linarith

@[simp] theorem nearest_zero : nearest 0 = 0 := by simp [nearest]

theorem nearest_le {q : ℚ} (h : 0 ≤ q) : nearest q ≤ q * (1 + 1 / 2 ^ 53) := by
  rcases h.eq_or_lt with rfl | hpos
  · simp
  · have hnear := (nearest_near hpos).2
    have hulp := ulp_le hpos
    linarith

theorem le_nearest {q : ℚ} (h : 0 ≤ q) : q * (1 - 1 / 2 ^ 53) ≤ nearest q := by
  rcases h.eq_or_lt with rfl | hpos
  · simp
  · have hnear := (nearest_near hpos).1
    have hulp := ulp_le hpos
    linarith

/-! ### Exact values -/

theorem log_eq {q : ℚ} {e : ℤ} (hlow : (2 : ℚ) ^ e ≤ q) (hhigh : q < 2 ^ (e + 1)) : Int.log 2 q = e := by
  have hpos : 0 < q := lt_of_lt_of_le (by positivity) hlow
  have hge := (Int.zpow_le_iff_le_log (b := 2) (by norm_num) hpos).mp (by exact_mod_cast hlow)
  have hlt := (Int.lt_zpow_iff_log_lt (b := 2) (by norm_num) hpos).mp (by exact_mod_cast hhigh)
  omega

/-- A number less than half a unit away from one of 53 bits is rounded to that one. -/
theorem nearest_of_close {q : ℚ} (e m : ℤ) (hlow : (2 : ℚ) ^ e ≤ q) (hhigh : q < 2 ^ (e + 1))
    (hbelow : (m - 1 / 2) * 2 ^ (e - 52) < q) (habove : q < (m + 1 / 2) * 2 ^ (e - 52)) :
    nearest q = m * 2 ^ (e - 52) := by
  have hpos : 0 < q := lt_of_lt_of_le (by positivity) hlow
  have hulp : ulp q = 2 ^ (e - 52) := by
    unfold ulp
    rw [log_eq hlow hhigh]
  have hunit : (0 : ℚ) < 2 ^ (e - 52) := by positivity
  rw [nearest_eq hpos, hulp, roundHalfEven_of_close]
  · rwa [lt_div_iff₀ hunit]
  · rwa [div_lt_iff₀ hunit]

/-- The halves of integers are multiples of the unit of a small number. -/
theorem half_multiple {q : ℚ} (hq : 0 < q) (hsmall : q < 2 ^ 52) (k : ℤ) :
    ∃ m : ℤ, (k : ℚ) / 2 = m * ulp q := by
  have hlog : Int.log 2 q < 52 :=
    (Int.lt_zpow_iff_log_lt (b := 2) (by norm_num) hq).mp (by exact_mod_cast hsmall)
  obtain ⟨j, hj⟩ := Int.eq_ofNat_of_zero_le (by omega : 0 ≤ 51 - Int.log 2 q)
  refine ⟨k * 2 ^ j, ?_⟩
  have hpow : (2 : ℚ) ^ j * ulp q = 1 / 2 := by
    unfold ulp
    rw [← zpow_natCast, ← zpow_add₀ (by norm_num : (2 : ℚ) ≠ 0), ← hj]
    norm_num
  push_cast
  rw [mul_assoc, hpow]
  ring

theorem nearest_natCast {n : ℕ} (h : n < 2 ^ 52) : nearest n = n := by
  rcases n.eq_zero_or_pos with rfl | hpos
  · simp
  · have hpos' : (0 : ℚ) < n := by exact_mod_cast hpos
    obtain ⟨m, hm⟩ := half_multiple hpos' (by exact_mod_cast h) (2 * n)
    refine nearest_of_bits m hpos' ?_
    rw [← hm]
    push_cast
    ring

/-- A multiple of the unit that lies less than half a unit above a number is not lost. -/
theorem le_nearest_of_multiple {q v : ℚ} (hq : 0 < q) {m : ℤ} (hv : v = m * ulp q)
    (hclose : v - ulp q / 2 < q) : v ≤ nearest q := by
  have hpos := ulp_pos q
  have hscaled : (m : ℚ) - 1 / 2 < q / ulp q := by
    rw [lt_div_iff₀ hpos]
    linarith
  have hround : (m : ℚ) - 1 < roundHalfEven (q / ulp q) := by linarith [sub_le_roundHalfEven (q / ulp q)]
  have hint : m ≤ roundHalfEven (q / ulp q) := by
    have hless : m - 1 < roundHalfEven (q / ulp q) := by exact_mod_cast hround
    omega
  rw [nearest_eq hq, hv]
  exact mul_le_mul_of_nonneg_right (by exact_mod_cast hint) hpos.le

/-! ### Fractions -/

/-- Two roundings move a number by at most its `2 ^ 51`st part. -/
theorem nearest_mul_le {p r : ℚ} (hp : 0 ≤ p) (hr : 0 ≤ r) :
    nearest (nearest p * r) ≤ p * r * (1 + 1 / 2 ^ 51) := by
  have hfirst := nearest_le hp
  have hpr := mul_nonneg hp hr
  calc nearest (nearest p * r)
      ≤ nearest p * r * (1 + 1 / 2 ^ 53) := nearest_le (mul_nonneg (nearest_nonneg p) hr)
    _ ≤ p * (1 + 1 / 2 ^ 53) * r * (1 + 1 / 2 ^ 53) := by gcongr
    _ = p * r * (1 + 1 / 2 ^ 53) ^ 2 := by ring
    _ ≤ p * r * (1 + 1 / 2 ^ 51) := mul_le_mul_of_nonneg_left (by norm_num) hpr

/-- A quotient in per cent is below a bound exactly when the doubles say so. -/
theorem percent_lt_iff {part total bound : ℕ} (htotal : 0 < total) (hsmall : total ≤ 2 ^ 42)
    (hbound : bound ≤ 100) (hexact : nearest (nearest (bound / 100) * 100) = bound) :
    nearest (nearest (part / total) * 100) < bound ↔ 100 * part < bound * total := by
  have htotal' : (0 : ℚ) < total := by exact_mod_cast htotal
  constructor
  · intro hless
    by_contra hnot
    have hle : (bound : ℚ) * total ≤ 100 * part := by exact_mod_cast not_lt.mp hnot
    have hquotient : (bound : ℚ) / 100 ≤ part / total := by
      rw [div_le_div_iff₀ (by norm_num) htotal']
      linarith
    have hmono := nearest_mono
      (mul_le_mul_of_nonneg_right (nearest_mono hquotient) (by norm_num : (0 : ℚ) ≤ 100))
    rw [hexact] at hmono
    exact absurd hless (not_lt.mpr hmono)
  · intro hless
    have hstep : (100 : ℚ) * part + 1 ≤ bound * total := by exact_mod_cast hless
    have hquotient : (part : ℚ) / total * 100 ≤ bound - 1 / total := by
      rw [div_mul_eq_mul_div, div_le_iff₀ htotal', sub_mul, one_div_mul_cancel htotal'.ne']
      linarith
    have hgap : 1 / 2 ^ 42 ≤ 1 / (total : ℚ) := by
      exact one_div_le_one_div_of_le htotal' (by exact_mod_cast hsmall)
    have hround := nearest_mul_le (p := part / total) (r := 100) (by positivity) (by norm_num)
    have hbound' : (bound : ℚ) ≤ 100 := by exact_mod_cast hbound
    have herror : (part : ℚ) / total * 100 * (1 / 2 ^ 51) ≤ 100 * (1 / 2 ^ 51) := by
      refine mul_le_mul_of_nonneg_right ?_ (by norm_num)
      have hinv : 0 < 1 / (total : ℚ) := by positivity
      linarith
    have hfine : (100 : ℚ) * (1 / 2 ^ 51) < 1 / 2 ^ 42 := by norm_num
    linarith

/-- Half an odd number is not lost if a number lies barely below it. -/
theorem half_odd_le_nearest {q v : ℚ} {k : ℕ} (hk : 1 ≤ k) (hv : v = k - 1 / 2) (hsmall : v ≤ 2 ^ 41)
    (hlow : v * (1 - 1 / 2 ^ 54) < q) (hhigh : q < 2 ^ 52) : v ≤ nearest q := by
  have hhalf : (1 : ℚ) / 2 ≤ v := by
    have hk' : (1 : ℚ) ≤ k := by exact_mod_cast hk
    linarith only [hk', hv]
  have hquarter : (1 : ℚ) / 4 < q := by linarith only [hhalf, hlow]
  have hq : 0 < q := by linarith only [hquarter]
  obtain ⟨m, hm⟩ := half_multiple hq hhigh (2 * k - 1)
  refine le_nearest_of_multiple hq (m := m) ?_ ?_
  · rw [hv, ← hm]
    push_cast
    ring
  -- the next power of two above `q` is not below `v`, as both are multiples of one half
  have hnext : v ≤ 2 ^ 53 * ulp q := by
    have hlog : -2 ≤ Int.log 2 q :=
      (Int.zpow_le_iff_le_log (b := 2) (by norm_num) hq).mp (by norm_num; linarith only [hquarter])
    obtain ⟨j, hj⟩ := Int.eq_ofNat_of_zero_le (by omega : 0 ≤ Int.log 2 q + 2)
    have hpower : 2 * (2 ^ 53 * ulp q) = ((2 ^ j : ℕ) : ℚ) := by
      calc 2 * (2 ^ 53 * ulp q) = 2 ^ 2 * (2 ^ 52 * ulp q) := by ring
        _ = 2 ^ (2 : ℤ) * 2 ^ Int.log 2 q := by rw [pow_mul_ulp]; norm_num
        _ = 2 ^ (j : ℤ) := by rw [← zpow_add₀ (by norm_num : (2 : ℚ) ≠ 0), ← hj, add_comm]
        _ = ((2 ^ j : ℕ) : ℚ) := by push_cast; exact zpow_natCast 2 j
    have habove : q < 2 ^ 53 * ulp q := by
      have hsucc := Int.lt_zpow_succ_log_self (b := 2) (by norm_num) q
      rw [zpow_add₀ (by norm_num)] at hsucc
      push_cast at hsucc
      rw [← pow_mul_ulp] at hsucc
      linarith
    by_contra hnot
    have hless : ((2 ^ j : ℕ) : ℚ) < 2 * k - 1 := by linarith
    have hgap : 2 ^ j + 2 ≤ 2 * k := by
      have hless' : 2 ^ j + 1 < 2 * k := by
        have hcast : ((2 ^ j + 1 : ℕ) : ℚ) < (2 * k : ℕ) := by
          push_cast at hless ⊢
          linarith
        exact_mod_cast hcast
      omega
    have hgap' : ((2 ^ j : ℕ) : ℚ) + 2 ≤ 2 * k := by exact_mod_cast hgap
    linarith
  linarith

/-- A small multiple of a rounded fraction rounds as that of the fraction, if the fraction was hardly rounded
down. -/
theorem roundAway_multiple {a b x : ℕ} {d : ℚ} (hb : 0 < b) (hb' : b ≤ 2 ^ 8) (hab : a ≤ b) (hx : x ≤ 2 ^ 41)
    (hlow : (a / b : ℚ) * (1 - 1 / 2 ^ 54) < d) (hhigh : d ≤ (a / b : ℚ) * (1 + 1 / 2 ^ 53)) :
    roundAway (nearest (x * d)) = ((2 * a * x + b) / (2 * b) : ℕ) := by
  have hbpos : (0 : ℚ) < b := by exact_mod_cast hb
  have hinv : 1 / 2 ^ 9 ≤ 1 / (2 * b : ℚ) := by
    have hle : (2 * b : ℚ) ≤ 2 ^ 9 := by exact_mod_cast (by omega : 2 * b ≤ 2 ^ 9)
    exact one_div_le_one_div_of_le (by positivity) hle
  obtain ⟨k, hk⟩ : ∃ k, k = (2 * a * x + b) / (2 * b) := ⟨_, rfl⟩
  have hkle : 2 * b * k ≤ 2 * a * x + b := hk ▸ Nat.mul_div_le _ _
  have hklt : 2 * a * x + b + 1 ≤ 2 * b * (k + 1) := hk ▸ Nat.lt_mul_div_succ _ (by omega)
  obtain ⟨v, hv⟩ : ∃ v : ℚ, v = a / b * x := ⟨_, rfl⟩
  have hvb : 2 * b * v = 2 * a * x := by
    rw [hv]
    field_simp
  have hx' : (0 : ℚ) ≤ x := by positivity
  have hv0 : 0 ≤ v := by rw [hv]; positivity
  have hvx : v ≤ 2 ^ 41 := by
    have hfraction : (a / b : ℚ) ≤ 1 := by
      rw [div_le_one hbpos]
      exact_mod_cast hab
    calc v ≤ 1 * x := hv ▸ mul_le_mul_of_nonneg_right hfraction hx'
      _ ≤ 2 ^ 41 := by rw [one_mul]; exact_mod_cast hx
  have hqhigh : x * d ≤ v * (1 + 1 / 2 ^ 53) := by
    calc x * d ≤ x * (a / b * (1 + 1 / 2 ^ 53)) := mul_le_mul_of_nonneg_left hhigh hx'
      _ = v * (1 + 1 / 2 ^ 53) := by rw [hv]; ring
  have hqlow : v * (1 - 1 / 2 ^ 54) ≤ x * d := by
    calc v * (1 - 1 / 2 ^ 54) = x * (a / b * (1 - 1 / 2 ^ 54)) := by rw [hv]; ring
      _ ≤ x * d := mul_le_mul_of_nonneg_left hlow.le hx'
  have hq : 0 ≤ x * d := le_trans (mul_nonneg hv0 (by norm_num)) hqlow
  unfold roundAway
  rw [← hk, Int.floor_eq_iff]
  push_cast
  have hinv0 : (0 : ℚ) ≤ 1 / (2 * b) := by positivity
  have hhalf : (b : ℚ) * (1 / (2 * b)) = 1 / 2 := by field_simp
  have hscale : ∀ y : ℚ, y = 2 * b * y * (1 / (2 * b)) := by
    intro y
    field_simp
  constructor
  · rcases hkle.lt_or_eq with hless | htie
    · -- the multiple lies a fraction above the tie, which is more than the rounding takes away
      have hgap : (2 * b * k : ℚ) + 1 ≤ 2 * b * v + b := by
        rw [hvb]
        exact_mod_cast hless
      have hgap' : (k : ℚ) + 1 / (2 * b) ≤ v + 1 / 2 := by
        calc (k : ℚ) + 1 / (2 * b) = (2 * b * k + 1) * (1 / (2 * b)) := by
              rw [add_mul, ← hscale, one_mul]
          _ ≤ (2 * b * v + b) * (1 / (2 * b)) := mul_le_mul_of_nonneg_right hgap hinv0
          _ = v + 1 / 2 := by rw [add_mul, ← hscale, hhalf]
      have hround := le_nearest hq
      linarith only [hgap', hround, hinv, hvx, hqlow]
    · have hveq : v = k - 1 / 2 := by
        have htie' : (2 * b * k : ℚ) = 2 * b * v + b := by
          rw [hvb]
          exact_mod_cast htie
        have hcancel : (2 * b : ℚ) * (k - 1 / 2 - v) = 0 := by linarith only [htie']
        have hzero := (mul_eq_zero.mp hcancel).resolve_left (by positivity)
        linarith only [hzero]
      have hk1 : 1 ≤ k := by
        rcases k.eq_zero_or_pos with rfl | hpos
        · push_cast at hveq
          linarith only [hveq, hv0]
        · exact hpos
      have hxpos : (0 : ℚ) < x := by
        rcases hx'.lt_or_eq with hpos | hzero
        · exact hpos
        · rw [← hzero, mul_zero] at hv
          have hk1' : (1 : ℚ) ≤ k := by exact_mod_cast hk1
          linarith only [hv, hveq, hk1']
      have hstrict : v * (1 - 1 / 2 ^ 54) < x * d := by
        calc v * (1 - 1 / 2 ^ 54) = x * (a / b * (1 - 1 / 2 ^ 54)) := by rw [hv]; ring
          _ < x * d := mul_lt_mul_of_pos_left hlow hxpos
      have hle := half_odd_le_nearest hk1 hveq hvx hstrict (by linarith only [hqhigh, hvx])
      linarith only [hle, hveq]
  · have hgap : (2 * b * v : ℚ) + b + 1 ≤ 2 * b * (k + 1) := by
      rw [hvb]
      exact_mod_cast hklt
    have hgap' : v + 1 / 2 + 1 / (2 * b) ≤ k + 1 := by
      calc v + 1 / 2 + 1 / (2 * b) = (2 * b * v + b + 1) * (1 / (2 * b)) := by
            rw [add_mul, add_mul, ← hscale, hhalf, one_mul]
        _ ≤ 2 * b * (k + 1) * (1 / (2 * b)) := mul_le_mul_of_nonneg_right hgap hinv0
        _ = k + 1 := (hscale _).symm
    have hround := nearest_le hq
    linarith only [hgap', hround, hinv, hvx, hqhigh]

end Double
