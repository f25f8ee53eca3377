import Mathlib.Tactic

/-! # Machine integers as integers with explicit bounds

Values of fixed-width types are plain integers; the operations that can leave the range wrap or
saturate explicitly.  Arithmetic is that of an optimised build: overflow wraps. -/

namespace MachineInt

def minI64 : ℤ := -9223372036854775808
def maxI64 : ℤ := 9223372036854775807
def maxU64 : ℕ := 18446744073709551615

/-- The value of the low 64 bits in two's complement. -/
def wrapI64 (n : ℤ) : ℤ := Int.bmod n 18446744073709551616

/-- `saturating_sub` on `i64`. -/
def satSubI64 (a b : ℤ) : ℤ := max minI64 (min (a - b) maxI64)

/-- `saturating_add` on `u64`. -/
def satAddU64 (a b : ℕ) : ℕ := min (a + b) maxU64

/-- The low 32 bits. -/
def wrapU32 (n : ℕ) : ℕ := n % 4294967296

theorem wrapI64_of_range {n : ℤ} (h₁ : minI64 ≤ n) (h₂ : n ≤ maxI64) : wrapI64 n = n := by
  unfold wrapI64 minI64 maxI64 at *
  exact Int.bmod_eq_of_le (by omega) (by omega)

theorem wrapI64_of_lt {n : ℕ} (h : n < 2 ^ 63) : wrapI64 n = n := by
  apply wrapI64_of_range
  · unfold minI64
    omega
  · unfold maxI64
    omega

/-- A number in the upper half of the unsigned range turns negative. -/
theorem wrapI64_neg {n : ℕ} (h₁ : 2 ^ 63 ≤ n) (h₂ : n < 2 ^ 64) : wrapI64 n < 0 := by
  unfold wrapI64
  rw [Int.bmod_neg_iff (by omega) (by omega)]
  exact Or.inr (by omega)

theorem satSubI64_mono_left {a a' : ℤ} (b : ℤ) (h : a ≤ a') : satSubI64 a b ≤ satSubI64 a' b := by
  unfold satSubI64
  omega

theorem satSubI64_le {a b : ℤ} (hb : 0 ≤ b) (ha : minI64 ≤ a) : satSubI64 a b ≤ a := by
  unfold satSubI64 minI64 maxI64 at *
  omega

theorem wrapU32_of_lt {n : ℕ} (h : n < 4294967296) : wrapU32 n = n := Nat.mod_eq_of_lt h

theorem toNat_uint64_max (a b : UInt64) : (max a b).toNat = max a.toNat b.toNat := by
  show (if a ≤ b then b else a).toNat = max a.toNat b.toNat
  split_ifs with h
  · exact (max_eq_right (UInt64.le_iff_toNat_le.mp h)).symm
  · exact (max_eq_left (not_le.mp fun hle => h (UInt64.le_iff_toNat_le.mpr hle)).le).symm

theorem toNat_uint32_ofInt (n : ℤ) : ((UInt32.ofInt n).toNat : ℤ) = n % 4294967296 := by
  unfold UInt32.ofInt
  rw [UInt32.toNat_ofNat']
  omega

theorem toNat_uint64_ofInt (n : ℤ) : ((UInt64.ofInt n).toNat : ℤ) = n % 18446744073709551616 := by
  unfold UInt64.ofInt
  rw [UInt64.toNat_ofNat']
  omega

/-- An increment wraps at the largest number only. -/
theorem toNat_add_one_iff (n : UInt64) : (n + 1).toNat = n.toNat + 1 ↔ n ≠ 18446744073709551615 := by
  have hadd : (n + 1).toNat = (n.toNat + 1) % 18446744073709551616 := UInt64.toNat_add n 1
  have hlt : n.toNat < 18446744073709551616 := n.toNat_lt
  rw [hadd, Ne, ← UInt64.toNat_inj]
  show _ ↔ ¬ n.toNat = 18446744073709551615
  omega

theorem toInt_eq_toNat_iff (n : Int64) : n.toInt = n.toUInt64.toNat ↔ 0 ≤ n.toInt := by
  show n.toBitVec.toInt = (n.toBitVec.toNat : ℤ) ↔ 0 ≤ n.toBitVec.toInt
  have hlt := n.toBitVec.isLt
  rw [BitVec.toInt_eq_toNat_cond]
  split_ifs <;> omega

end MachineInt
