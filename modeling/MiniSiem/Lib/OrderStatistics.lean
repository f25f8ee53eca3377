import Mathlib.Data.List.Sort
import Mathlib.Tactic

/-! # Order statistics

What the element at a position of a sorted list says about the whole list: it lies above a bound exactly when
all from that position on do, which is a matter of counting. -/

namespace OrderStatistics

variable {α : Type} [LinearOrder α]

/-- How many elements of a list lie above a bound. -/
def above (t : α) (l : List α) : ℕ := l.countP fun a => t < a

theorem above_cons (t a : α) (l : List α) :
    above t (a :: l) = above t l + if t < a then 1 else 0 := by
  simp [above, List.countP_cons]

theorem above_le_length (t : α) (l : List α) : above t l ≤ l.length := List.countP_le_length

theorem above_eq_length {t : α} {l : List α} (h : ∀ a ∈ l, t < a) : above t l = l.length := by
  simpa [above] using h

theorem above_perm {t : α} {l l' : List α} (h : l.Perm l') : above t l = above t l' := h.countP_eq _

theorem lt_getElem_iff {l : List α} (hsorted : l.Pairwise (· ≤ ·)) (t : α) {i : ℕ} (hi : i < l.length) :
    t < l[i] ↔ l.length ≤ above t l + i := by
  induction l generalizing i with
  | nil => simp at hi
  | cons a l ih =>
      obtain ⟨hfirst, hrest⟩ := List.pairwise_cons.mp hsorted
      by_cases ha : t < a
      · -- everything from the first element on lies above the bound
        have hall : ∀ b ∈ a :: l, t < b := by
          intro b hb
          rcases List.mem_cons.mp hb with rfl | hb
          · exact ha
          · exact ha.trans_le (hfirst b hb)
        have habove := above_eq_length hall
        constructor
        · omega
        · exact fun _ => hall _ (List.getElem_mem hi)
      · have habove : above t (a :: l) = above t l := by simp [above_cons, ha]
        have hle := above_le_length t l
        cases i with
        | zero =>
            simp only [List.getElem_cons_zero, List.length_cons, habove]
            constructor
            · exact fun h => absurd h ha
            · omega
        | succ i =>
            have hi' : i < l.length := by simpa using hi
            simp only [List.getElem_cons_succ, List.length_cons, habove]
            rw [ih hrest hi']
            omega

/-- The element at a position of the sorted list lies above a bound exactly when enough elements do. -/
theorem lt_sorted_iff (l : List α) (t : α) {i : ℕ} (hi : i < (l.insertionSort (· ≤ ·)).length) :
    t < (l.insertionSort (· ≤ ·))[i] ↔ l.length ≤ above t l + i := by
  rw [lt_getElem_iff (List.pairwise_insertionSort (· ≤ ·) l) t hi, List.length_insertionSort,
    above_perm (List.perm_insertionSort (· ≤ ·) l)]

end OrderStatistics
