import Mathlib.Data.Nat.Size
import Mathlib.Tactic

/-! # JSON values

The `serde_json::Value` of the backend and the accessors the detection code uses on it.

* **Numbers.** A number is a non-negative integer (`PosInt`), a negative integer (`NegInt`)
  or a finite binary double (`Float`); a double is represented by the rational it denotes.
  Two numbers are equal only within one of the three cases, as in the derived equality of
  `serde_json`; `asF64` converts an integer to the nearest double, ties to even.
* **Objects.** An object is the key-ordered list of its fields (`serde_json::Map` is a
  `BTreeMap` in this build), each key at most once.
* **Decoding helpers.** `asVec`, `structFields` and the integer readers are the parts of
  `serde_json::from_value` that the derived `Deserialize` instances are made of. -/

namespace MiniSiem

/-- `serde_json::Number`. -/
inductive Number where
  | posInt (n : ℕ)
  | negInt (n : ℤ)
  | float (q : ℚ)
deriving DecidableEq, Repr

namespace Number

/-- The nearest double of a natural number: 53 significant bits, ties to even. -/
def roundNat (n : ℕ) : ℕ :=
  let e := Nat.size n - 53
  let q := n / 2 ^ e
  let r := n % 2 ^ e
  let half := 2 ^ e / 2
  if e = 0 then n
  else if half < r ∨ (r = half ∧ q % 2 = 1) then (q + 1) * 2 ^ e else q * 2 ^ e

theorem roundNat_of_lt {n : ℕ} (h : n < 2 ^ 53) : roundNat n = n := by
  have he : Nat.size n - 53 = 0 := Nat.sub_eq_zero_of_le (Nat.size_le.mpr h)
  unfold roundNat
  rw [he]
  rfl

theorem roundNat_of_le {n : ℕ} (h : n ≤ 2 ^ 53) : roundNat n = n := by
  rcases h.lt_or_eq with hlt | rfl
  · exact roundNat_of_lt hlt
  · decide

/-- Rounding does not cross a power of two. -/
theorem le_roundNat {k n : ℕ} (h : 2 ^ k ≤ n) : 2 ^ k ≤ roundNat n := by
  have hquot : 2 ^ k ≤ n / 2 ^ (Nat.size n - 53) * 2 ^ (Nat.size n - 53) := by
    have hpow : 0 < 2 ^ (Nat.size n - 53) := Nat.two_pow_pos _
    rcases le_total (Nat.size n - 53) k with hle | hle
    · obtain ⟨d, rfl⟩ := Nat.exists_eq_add_of_le' hle
      rw [pow_add] at h ⊢
      exact Nat.mul_le_mul_right _ ((Nat.le_div_iff_mul_le hpow).mpr h)
    · have hsize : Nat.size n - 53 < Nat.size n := by
        have hpos : 0 < Nat.size n := Nat.size_pos.mpr ((Nat.two_pow_pos k).trans_le h)
        omega
      have hone : 1 ≤ n / 2 ^ (Nat.size n - 53) :=
        (Nat.le_div_iff_mul_le hpow).mpr ((one_mul _).trans_le (Nat.lt_size.mp hsize))
      calc 2 ^ k ≤ 2 ^ (Nat.size n - 53) := Nat.pow_le_pow_right two_pos hle
        _ ≤ _ := Nat.le_mul_of_pos_left _ hone
  unfold roundNat
  dsimp only
  split_ifs
  · exact h
  · exact hquot.trans (Nat.mul_le_mul_right _ (Nat.le_succ _))
  · exact hquot

/-- `Number::as_f64`. -/
def asF64 : Number → ℚ
  | posInt n => roundNat n
  | negInt n => -(roundNat n.natAbs)
  | float q => q

/-- The number of a signed integer. -/
def ofInt (n : ℤ) : Number := if 0 ≤ n then posInt n.toNat else negInt n

/-- `Number` read as a `u64`. -/
def asU64 : Number → Option UInt64
  | posInt n => some (UInt64.ofNat n)
  | _ => none

/-- `Number` read as a `u32`. -/
def asU32 : Number → Option UInt32
  | posInt n => if n < 2 ^ 32 then some (UInt32.ofNat n) else none
  | _ => none

/-- `Number` read as an `i64`. -/
def asI64 : Number → Option Int64
  | posInt n => if n < 2 ^ 63 then some (Int64.ofNat n) else none
  | negInt n => some (Int64.ofInt n)
  | float _ => none

end Number

/-- `serde_json::Value`. -/
inductive Json where
  | null
  | bool (b : Bool)
  | num (n : Number)
  | str (s : String)
  | arr (items : List Json)
  | obj (fields : List (String × Json))

namespace Json

mutual
/-- The derived equality of `serde_json::Value`. -/
def beq : Json → Json → Bool
  | null, null => true
  | bool a, bool b => a == b
  | num a, num b => a == b
  | str a, str b => a == b
  | arr a, arr b => beqItems a b
  | obj a, obj b => beqFields a b
  | _, _ => false

def beqItems : List Json → List Json → Bool
  | [], [] => true
  | a :: as, b :: bs => beq a b && beqItems as bs
  | _, _ => false

def beqFields : List (String × Json) → List (String × Json) → Bool
  | [], [] => true
  | (k, a) :: as, (l, b) :: bs => k == l && beq a b && beqFields as bs
  | _, _ => false
end

mutual
theorem eq_of_beq : ∀ {a b : Json}, a.beq b = true → a = b
  | null, b, h => by cases b <;> simp_all [beq]
  | bool _, b, h => by cases b <;> simp_all [beq]
  | num _, b, h => by cases b <;> simp_all [beq]
  | str _, b, h => by cases b <;> simp_all [beq]
  | arr as, b, h => by
      cases b with
      | arr bs => exact congrArg arr (eq_of_beqItems h)
      | _ => cases h
  | obj as, b, h => by
      cases b with
      | obj bs => exact congrArg obj (eq_of_beqFields h)
      | _ => cases h

theorem eq_of_beqItems : ∀ {as bs : List Json}, beqItems as bs = true → as = bs
  | [], bs, h => by
      cases bs with
      | nil => rfl
      | cons b bs => cases h
  | a :: as, bs, h => by
      cases bs with
      | nil => cases h
      | cons b bs =>
          unfold beqItems at h
          obtain ⟨hhead, hrest⟩ := Bool.and_eq_true_iff.mp h
          rw [eq_of_beq hhead, eq_of_beqItems hrest]

theorem eq_of_beqFields : ∀ {as bs : List (String × Json)}, beqFields as bs = true → as = bs
  | [], bs, h => by
      cases bs with
      | nil => rfl
      | cons b bs => cases h
  | (k, a) :: as, bs, h => by
      cases bs with
      | nil => cases h
      | cons b bs =>
          obtain ⟨l, b⟩ := b
          unfold beqFields at h
          obtain ⟨hfield, hrest⟩ := Bool.and_eq_true_iff.mp h
          obtain ⟨hkey, hvalue⟩ := Bool.and_eq_true_iff.mp hfield
          rw [LawfulBEq.eq_of_beq hkey, eq_of_beq hvalue, eq_of_beqFields hrest]
end

/-- `Value::as_str`. -/
def asStr : Json → Option String
  | str s => some s
  | _ => none

/-- `Value::as_f64`. -/
def asF64 : Json → Option ℚ
  | num n => some n.asF64
  | _ => none

/-- `Value::get` with a string index. -/
def get (v : Json) (key : String) : Option Json :=
  match v with
  | obj fields => List.lookup key fields
  | _ => none

/-- A value decoded as a string. -/
def toStr : Json → Option String := asStr

/-- A value decoded as an unsigned integer of 64 bits. -/
def toU64 : Json → Option UInt64
  | num n => n.asU64
  | _ => none

/-- A value decoded as an unsigned integer of 32 bits. -/
def toU32 : Json → Option UInt32
  | num n => n.asU32
  | _ => none

/-- A value decoded as an `i64`. -/
def toI64 : Json → Option Int64
  | num n => n.asI64
  | _ => none

/-- A value decoded as a sequence, element by element. -/
def toVec {α : Type} (f : Json → Option α) : Json → Option (List α)
  | arr items => items.mapM f
  | _ => none

/-- The fields of a struct in declaration order: by name from an object (unknown keys are
ignored), by position from an array that is not longer than the struct. -/
def structFields (names : List String) : Json → Option (List (Option Json))
  | obj fields => some (names.map (fun k => List.lookup k fields))
  | arr items =>
      if items.length ≤ names.length then some ((List.range names.length).map (items[·]?)) else none
  | _ => none

/-- The variant name and content of an externally tagged enum: a bare string is a variant
without content, an object must have exactly one key. -/
def variant : Json → Option (String × Option Json)
  | str s => some (s, none)
  | obj [(k, v)] => some (k, some v)
  | _ => none

end Json

end MiniSiem
