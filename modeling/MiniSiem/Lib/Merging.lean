import Mathlib.Data.List.Basic
import Mathlib.Order.Bounds.Basic
import Mathlib.Order.MinMax

/-! # Folding a merge

Values are merged two at a time, and a list of them by a fold from the left.  What a component of
the result is depends on what the merge does to it.

* **Components.**  A component that is kept is that of the first value (`foldl_keep`); minima, maxima, sums and
  appended lists are those of the whole list (`isLeast_foldl`, `isGreatest_foldl`, `foldl_sum`,
  `foldl_append`), so they do not depend on its order.
* **The latest wins.**  `Wins time l a`: `a` is the last of the values with the latest time.  A component
  that is taken over from the second value unless its time is earlier is that of the winner
  (`foldl_wins`). -/

namespace Merging

variable {α β τ : Type} {op : α → α → α} {f : α → β}

theorem foldl_keep (op : α → α → α) (f : α → β) (hf : ∀ x y, f (op x y) = f x) (a : α) (l : List α) :
    f (l.foldl op a) = f a := by
  induction l generalizing a with
  | nil => rfl
  | cons b l ih => exact (ih (op a b)).trans (hf a b)

theorem foldl_sum {M : Type} [Add M] [Zero M] [hassoc : Std.Associative fun x y : M => x + y]
    [hzero : Std.LawfulIdentity (fun x y : M => x + y) 0] (op : α → α → α) (f : α → M)
    (hf : ∀ x y, f (op x y) = f x + f y) (a : α) (l : List α) :
    f (l.foldl op a) = ((a :: l).map f).sum := by
  induction l generalizing a with
  | nil => exact (hzero.right_id (f a)).symm
  | cons b l ih =>
      rw [List.foldl_cons, ih, List.map_cons, List.sum_cons, hf, List.map_cons, List.sum_cons,
        List.map_cons, List.sum_cons]
      exact hassoc.assoc _ _ _

theorem foldl_append (op : α → α → α) (f : α → List β) (hf : ∀ x y, f (op x y) = f x ++ f y) (a : α)
    (l : List α) : f (l.foldl op a) = (a :: l).flatMap f := by
  induction l generalizing a with
  | nil => exact (List.flatMap_singleton f a).symm
  | cons b l ih =>
      rw [List.foldl_cons, ih, List.flatMap_cons, hf, List.flatMap_cons, List.flatMap_cons,
        List.append_assoc]

section order

variable [LinearOrder τ] {time : α → τ}

theorem isLeast_foldl (hf : ∀ x y, time (op x y) = min (time x) (time y)) (a : α) (l : List α) :
    IsLeast {t | ∃ b ∈ a :: l, time b = t} (time (l.foldl op a)) := by
  induction l generalizing a with
  | nil =>
      refine ⟨⟨a, List.mem_cons_self, rfl⟩, ?_⟩
      rintro t ⟨b, hb, rfl⟩
      rw [List.mem_singleton.mp hb]
      rfl
  | cons b l ih =>
      obtain ⟨⟨c, hc, hleast⟩, hlower⟩ := ih (op a b)
      have hfirst := hlower ⟨op a b, List.mem_cons_self, rfl⟩
      rw [hf, le_min_iff] at hfirst
      rw [List.foldl_cons]
      refine ⟨?_, ?_⟩
      · rcases List.mem_cons.mp hc with rfl | hc
        · rw [hf] at hleast
          rcases min_choice (time a) (time b) with hmin | hmin
          · exact ⟨a, List.mem_cons_self, hmin.symm.trans hleast⟩
          · exact ⟨b, List.mem_cons_of_mem _ List.mem_cons_self, hmin.symm.trans hleast⟩
        · exact ⟨c, List.mem_cons_of_mem _ (List.mem_cons_of_mem _ hc), hleast⟩
      · rintro t ⟨d, hd, rfl⟩
        rcases List.mem_cons.mp hd with rfl | hd
        · exact hfirst.1
        · rcases List.mem_cons.mp hd with rfl | hd
          · exact hfirst.2
          · exact hlower ⟨d, List.mem_cons_of_mem _ hd, rfl⟩

theorem isGreatest_foldl (hf : ∀ x y, time (op x y) = max (time x) (time y)) (a : α) (l : List α) :
    IsGreatest {t | ∃ b ∈ a :: l, time b = t} (time (l.foldl op a)) :=
  isLeast_foldl (τ := τᵒᵈ) hf a l

/-- The last of the values with the latest time. -/
def Wins (time : α → τ) (l : List α) (a : α) : Prop :=
  ∃ front back, l = front ++ a :: back ∧ (∀ b ∈ front, time b ≤ time a) ∧ ∀ b ∈ back, time b < time a

theorem Wins.unique {l : List α} {a b : α} (ha : Wins time l a) (hb : Wins time l b) : a = b := by
  obtain ⟨front, back, rfl, hfront, hback⟩ := ha
  obtain ⟨front', back', hl, hfront', hback'⟩ := hb
  rcases List.append_eq_append_iff.mp hl with ⟨mid, rfl, hmid⟩ | ⟨mid, rfl, hmid⟩
  · cases mid with
    | nil => exact (List.cons.inj hmid).1
    | cons c mid =>
        obtain ⟨rfl, rfl⟩ := List.cons.inj hmid
        have hle := hfront' a (List.mem_append_right _ List.mem_cons_self)
        have hlt := hback b (List.mem_append_right _ List.mem_cons_self)
        exact absurd hle hlt.not_ge
  · cases mid with
    | nil => exact (List.cons.inj hmid).1.symm
    | cons c mid =>
        obtain ⟨rfl, rfl⟩ := List.cons.inj hmid
        have hle := hfront b (List.mem_append_right _ List.mem_cons_self)
        have hlt := hback' a (List.mem_append_right _ List.mem_cons_self)
        exact absurd hle hlt.not_ge

/-- The time and the component of the result are those of the winner. -/
theorem foldl_wins (ht : ∀ x y, time (op x y) = max (time x) (time y))
    (hf : ∀ x y, f (op x y) = if time x ≤ time y then f y else f x) (a : α) (l : List α) :
    ∃ w, Wins time (a :: l) w ∧ time (l.foldl op a) = time w ∧ f (l.foldl op a) = f w := by
  induction l generalizing a with
  | nil =>
      refine ⟨a, ⟨[], [], rfl, fun b hb => ?_, fun b hb => ?_⟩, rfl, rfl⟩
      · exact (List.not_mem_nil hb).elim
      · exact (List.not_mem_nil hb).elim
  | cons b l ih =>
      obtain ⟨w, ⟨front, back, hl, hfront, hback⟩, htime, hval⟩ := ih (op a b)
      rw [List.foldl_cons, htime, hval]
      cases front with
      | nil =>
          obtain ⟨rfl, rfl⟩ := List.cons.inj hl
          rw [ht] at hback
          rw [ht, hf]
          by_cases hab : time a ≤ time b
          · rw [max_eq_right hab] at hback ⊢
            refine ⟨b, ⟨[a], l, rfl, fun c hc => ?_, hback⟩, rfl, if_pos hab⟩
            rw [List.mem_singleton.mp hc]
            exact hab
          · have hba := lt_of_not_ge hab
            rw [max_eq_left hba.le] at hback ⊢
            refine ⟨a, ⟨[], b :: l, rfl, fun c hc => (List.not_mem_nil hc).elim, fun c hc => ?_⟩, rfl,
              if_neg hab⟩
            rcases List.mem_cons.mp hc with rfl | hc
            · exact hba
            · exact hback c hc
      | cons c front =>
          obtain ⟨rfl, rfl⟩ := List.cons.inj hl
          have hmax := hfront (op a b) List.mem_cons_self
          rw [ht, max_le_iff] at hmax
          refine ⟨w, ⟨a :: b :: front, back, rfl, fun d hd => ?_, hback⟩, rfl, rfl⟩
          rcases List.mem_cons.mp hd with rfl | hd
          · exact hmax.1
          · rcases List.mem_cons.mp hd with rfl | hd
            · exact hmax.2
            · exact hfront d (List.mem_cons_of_mem _ hd)

end order

end Merging
