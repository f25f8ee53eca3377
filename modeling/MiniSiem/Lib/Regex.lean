import Mathlib.Computability.Language

/-! # Regular expressions over classes of letters

`RegularExpression` of Mathlib is built from single letters; here a letter is any one that a test accepts, as
the expressions of pattern languages need it.

* **Meaning.**  `Regex.language`.
* **Search.**  `search` looks for a part of a text by derivatives; it finds one exactly when there is one
  (`search_iff`). -/

inductive Regex (α : Type) where
  | zero
  | one
  | letter (test : α → Bool)
  | alt (r s : Regex α)
  | seq (r s : Regex α)
  | star (r : Regex α)

namespace Regex

open scoped Computability

variable {α : Type}

def language : Regex α → Language α
  | zero => 0
  | one => 1
  | letter test => {w : List α | ∃ a, test a = true ∧ w = [a]}
  | alt r s => r.language + s.language
  | seq r s => r.language * s.language
  | star r => r.language∗

def nullable : Regex α → Bool
  | zero => false
  | one => true
  | letter _ => false
  | alt r s => r.nullable || s.nullable
  | seq r s => r.nullable && s.nullable
  | star _ => true

/-- What is left to match behind the letter `a`. -/
def deriv (a : α) : Regex α → Regex α
  | zero => zero
  | one => zero
  | letter test => if test a then one else zero
  | alt r s => alt (r.deriv a) (s.deriv a)
  | seq r s => if r.nullable then alt (seq (r.deriv a) s) (s.deriv a) else seq (r.deriv a) s
  | star r => seq (r.deriv a) (star r)

/-- Does the text start with a match? -/
def startsIn (r : Regex α) : List α → Bool
  | [] => r.nullable
  | a :: w => r.nullable || (r.deriv a).startsIn w

/-- Is there a match anywhere in the text? -/
def search (r : Regex α) : List α → Bool
  | [] => r.nullable
  | a :: w => r.startsIn (a :: w) || r.search w

/-! ### Languages letter by letter -/

section

variable {l m : Language α} {a : α} {w : List α}

theorem nil_mem_mul : [] ∈ l * m ↔ [] ∈ l ∧ [] ∈ m := by
  rw [Language.mem_mul]
  constructor
  · rintro ⟨u, hu, v, hv, huv⟩
    obtain ⟨rfl, rfl⟩ := List.append_eq_nil_iff.mp huv
    exact ⟨hu, hv⟩
  · rintro ⟨hl, hm⟩
    exact ⟨[], hl, [], hm, rfl⟩

theorem cons_mem_mul : a :: w ∈ l * m ↔
    (∃ u v, w = u ++ v ∧ a :: u ∈ l ∧ v ∈ m) ∨ ([] ∈ l ∧ a :: w ∈ m) := by
  rw [Language.mem_mul]
  constructor
  · rintro ⟨u, hu, v, hv, huv⟩
    cases u with
    | nil => exact Or.inr ⟨hu, huv ▸ hv⟩
    | cons b u =>
        obtain ⟨rfl, rfl⟩ := List.cons.inj huv
        exact Or.inl ⟨u, v, rfl, hu, hv⟩
  · rintro (⟨u, v, rfl, hu, hv⟩ | ⟨hnil, hw⟩)
    · exact ⟨a :: u, hu, v, hv, rfl⟩
    · exact ⟨[], hnil, a :: w, hw, rfl⟩

theorem cons_mem_kstar : a :: w ∈ l∗ ↔ ∃ u v, w = u ++ v ∧ a :: u ∈ l ∧ v ∈ l∗ := by
  constructor
  · intro h
    obtain ⟨parts, hflatten, hparts⟩ := Language.mem_kstar_iff_exists_nonempty.mp h
    cases parts with
    | nil => cases hflatten
    | cons part parts =>
        obtain ⟨hmem, hne⟩ := hparts part List.mem_cons_self
        obtain ⟨b, u, rfl⟩ := List.exists_cons_of_ne_nil hne
        obtain ⟨rfl, rfl⟩ := List.cons.inj hflatten
        exact ⟨u, parts.flatten, rfl, hmem,
          Language.join_mem_kstar fun part' h' => (hparts part' (List.mem_cons_of_mem _ h')).1⟩
  · rintro ⟨u, v, rfl, hu, hv⟩
    obtain ⟨parts, rfl, hparts⟩ := Language.mem_kstar.mp hv
    refine Language.mem_kstar.mpr ⟨(a :: u) :: parts, rfl, fun part hpart => ?_⟩
    rcases List.mem_cons.mp hpart with rfl | hpart
    · exact hu
    · exact hparts part hpart

end

/-! ### The search is correct -/

theorem nullable_iff (r : Regex α) : r.nullable = true ↔ [] ∈ r.language := by
  induction r with
  | zero => simp [nullable, language]
  | one => simp [nullable, language]
  | letter test =>
      refine iff_of_false Bool.false_ne_true ?_
      rintro ⟨a, -, h⟩
      cases h
  | alt r s ihr ihs => rw [nullable, Bool.or_eq_true, ihr, ihs, language, Language.mem_add]
  | seq r s ihr ihs => simp [nullable, language, nil_mem_mul, ihr, ihs]
  | star r ih => simp [nullable, language, Language.nil_mem_kstar]

theorem mem_deriv (r : Regex α) (a : α) (w : List α) : w ∈ (r.deriv a).language ↔ a :: w ∈ r.language := by
  induction r generalizing w with
  | zero => exact iff_of_false (Language.notMem_zero w) (Language.notMem_zero _)
  | one => exact iff_of_false (Language.notMem_zero w) (List.cons_ne_nil a w)
  | letter test =>
      unfold deriv
      split_ifs with htest
      · constructor
        · rintro rfl
          exact ⟨a, htest, rfl⟩
        · rintro ⟨b, -, h⟩
          exact (List.cons.inj h).2
      · refine iff_of_false (Language.notMem_zero w) ?_
        rintro ⟨b, hb, h⟩
        exact htest ((List.cons.inj h).1 ▸ hb)
  | alt r s ihr ihs => rw [deriv, language, language, Language.mem_add, Language.mem_add, ihr, ihs]
  | seq r s ihr ihs =>
      have hleft : w ∈ (r.deriv a).language * s.language ↔
          ∃ u v, w = u ++ v ∧ a :: u ∈ r.language ∧ v ∈ s.language := by
        rw [Language.mem_mul]
        constructor
        · rintro ⟨u, hu, v, hv, huv⟩
          exact ⟨u, v, huv.symm, (ihr u).mp hu, hv⟩
        · rintro ⟨u, v, huv, hu, hv⟩
          exact ⟨u, (ihr u).mpr hu, v, hv, huv.symm⟩
      have hnil := nullable_iff r
      unfold deriv
      rw [language, cons_mem_mul]
      split_ifs with hnullable
      · rw [language, Language.mem_add, language, hleft, ihs]
        exact or_congr_right (iff_and_self.mpr fun _ => hnil.mp hnullable)
      · rw [language, hleft]
        exact (or_iff_left fun h => hnullable (hnil.mpr h.1)).symm
  | star r ih =>
      rw [deriv, language, language, cons_mem_kstar, Language.mem_mul]
      constructor
      · rintro ⟨u, hu, v, hv, huv⟩
        exact ⟨u, v, huv.symm, (ih u).mp hu, hv⟩
      · rintro ⟨u, v, huv, hu, hv⟩
        exact ⟨u, (ih u).mpr hu, v, hv, huv.symm⟩

theorem startsIn_iff (r : Regex α) (w : List α) : r.startsIn w = true ↔ ∃ u ∈ r.language, u <+: w := by
  induction w generalizing r with
  | nil => simp [startsIn, nullable_iff]
  | cons a w ih =>
      rw [startsIn, Bool.or_eq_true, nullable_iff, ih]
      constructor
      · rintro (hnil | ⟨u, hu, hprefix⟩)
        · exact ⟨[], hnil, List.nil_prefix⟩
        · exact ⟨a :: u, (mem_deriv r a u).mp hu, List.cons_prefix_cons.mpr ⟨rfl, hprefix⟩⟩
      · rintro ⟨u, hu, hprefix⟩
        cases u with
        | nil => exact Or.inl hu
        | cons b u =>
            obtain ⟨rfl, htail⟩ := List.cons_prefix_cons.mp hprefix
            exact Or.inr ⟨u, (mem_deriv r b u).mpr hu, htail⟩

theorem search_iff (r : Regex α) (w : List α) : r.search w = true ↔ ∃ u ∈ r.language, u <:+: w := by
  induction w with
  | nil => simp [search, nullable_iff]
  | cons a w ih =>
      rw [search, Bool.or_eq_true, startsIn_iff, ih]
      simp only [List.infix_cons_iff, and_or_left, exists_or]

/-! ### Literals and repeated letters -/

/-- The expression of one word. -/
def literal [DecidableEq α] (w : List α) : Regex α := w.foldr (fun a r => seq (letter (· == a)) r) one

theorem mem_literal [DecidableEq α] {u w : List α} : u ∈ (literal w).language ↔ u = w := by
  induction w generalizing u with
  | nil => exact Language.mem_one u
  | cons a w ih =>
      rw [literal, List.foldr_cons, language, Language.mem_mul]
      constructor
      · rintro ⟨_, ⟨b, hb, rfl⟩, v, hv, rfl⟩
        rw [ih.mp hv, eq_of_beq hb]
        rfl
      · rintro rfl
        exact ⟨[a], ⟨a, beq_self_eq_true a, rfl⟩, w, ih.mpr rfl, rfl⟩

theorem mem_star_letter {test : α → Bool} {w : List α} :
    w ∈ (star (letter test)).language ↔ ∀ a ∈ w, test a = true := by
  induction w with
  | nil => exact iff_of_true (Language.nil_mem_kstar _) nofun
  | cons a w ih =>
      rw [language, cons_mem_kstar, List.forall_mem_cons, ← ih]
      constructor
      · rintro ⟨u, v, rfl, ⟨b, hb, hab⟩, hv⟩
        obtain ⟨rfl, rfl⟩ := List.cons.inj hab
        exact ⟨hb, hv⟩
      · rintro ⟨ha, hw⟩
        exact ⟨[], w, rfl, ⟨a, ha, rfl⟩, hw⟩

theorem mem_seq {r s : Regex α} {w : List α} :
    w ∈ (seq r s).language ↔ ∃ u ∈ r.language, ∃ v ∈ s.language, u ++ v = w := Language.mem_mul

theorem mem_alt {r s : Regex α} {w : List α} :
    w ∈ (alt r s).language ↔ w ∈ r.language ∨ w ∈ s.language := Language.mem_add _ _ _

/-- A match that starts with a word lies where the word does. -/
theorem infix_of_search [DecidableEq α] {u w : List α} {r : Regex α}
    (h : (seq (literal u) r).search w = true) : u <:+: w := by
  obtain ⟨_, hmem, hinfix⟩ := (search_iff _ w).mp h
  obtain ⟨u', hu, v, -, rfl⟩ := mem_seq.mp hmem
  rw [mem_literal.mp hu] at hinfix
  exact (List.prefix_append u v).isInfix.trans hinfix

end Regex
