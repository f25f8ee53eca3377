import Mathlib.Tactic

/-! # Lines of a stream

A stream is cut at a separator into the lines that are terminated and the rest behind the last
separator.

* **Incremental cutting.**  `split` starts with an unfinished line; cutting two parts one after the
  other is cutting the whole, when the rest of the first part is carried over (`split_append`).
* **Pieces.**  Every line and the rest is a piece of the stream without a separator
  (`infix_of_mem_split`, `not_mem_of_mem_split`), and the first line continues the unfinished one
  (`split_first`).
* **Words.**  With the rest counted as well the pieces are the words of the stream (`List.splitOn`): it
  is determined by them (`words_inj`), and every sequence of words without a separator is the one of
  some stream (`exists_of_words`). -/

namespace Lines

variable {α : Type} [DecidableEq α] (sep : α)

/-- The terminated lines and the rest of a stream behind the unfinished line `acc`. -/
def split : List α → List α → List (List α) × List α
  | acc, [] => ([], acc)
  | acc, x :: xs =>
      if x = sep then (acc :: (split [] xs).1, (split [] xs).2) else split (acc ++ [x]) xs

/-- The terminated lines of a stream. -/
def lines (s : List α) : List (List α) := (split sep [] s).1

/-- What follows the last separator. -/
def rest (s : List α) : List α := (split sep [] s).2

variable {sep}

theorem split_cons_sep (acc xs : List α) :
    split sep acc (sep :: xs) = (acc :: lines sep xs, rest sep xs) := if_pos rfl

theorem split_append (acc a b : List α) :
    split sep acc (a ++ b) =
      ((split sep acc a).1 ++ (split sep (split sep acc a).2 b).1,
        (split sep (split sep acc a).2 b).2) := by
  induction a generalizing acc with
  | nil => rfl
  | cons x a ih =>
      rw [List.cons_append, split, split]
      split_ifs
      · rw [ih]
        rfl
      · exact ih (acc ++ [x])

theorem lines_append (a b : List α) :
    lines sep (a ++ b) = lines sep a ++ (split sep (rest sep a) b).1 := by
  unfold lines rest
  rw [split_append]

theorem rest_append (a b : List α) : rest sep (a ++ b) = (split sep (rest sep a) b).2 := by
  unfold rest
  rw [split_append]

/-- Behind a whole number of lines the rest is that of the second part. -/
theorem rest_append_of_rest {a : List α} (h : rest sep a = []) (b : List α) :
    rest sep (a ++ b) = rest sep b := by
  rw [rest_append, h]
  rfl

theorem infix_of_mem_split {acc s piece : List α}
    (h : piece ∈ (split sep acc s).1 ++ [(split sep acc s).2]) : piece <:+: acc ++ s := by
  induction s generalizing acc with
  | nil =>
      rw [split, List.nil_append, List.mem_singleton] at h
      rw [h, List.append_nil]
  | cons x s ih =>
      rw [split] at h
      split_ifs at h with hx
      · rw [List.cons_append, List.mem_cons] at h
        rcases h with rfl | h
        · exact ⟨[], x :: s, rfl⟩
        · have hs : piece <:+: s := ih h
          exact hs.trans ((List.suffix_cons x s).trans (List.suffix_append acc _)).isInfix
      · have := ih h
        rwa [List.append_assoc] at this

theorem not_mem_of_mem_split {acc s piece : List α} (hacc : sep ∉ acc)
    (h : piece ∈ (split sep acc s).1 ++ [(split sep acc s).2]) : sep ∉ piece := by
  induction s generalizing acc with
  | nil =>
      rw [split, List.nil_append, List.mem_singleton] at h
      rwa [h]
  | cons x s ih =>
      rw [split] at h
      split_ifs at h with hx
      · rw [List.cons_append, List.mem_cons] at h
        rcases h with rfl | h
        · exact hacc
        · exact ih List.not_mem_nil h
      · refine ih ?_ h
        rw [List.mem_append, List.mem_singleton]
        rintro (hmem | rfl)
        · exact hacc hmem
        · exact hx rfl

/-- The first line that is terminated, if any, begins with the unfinished one. -/
theorem split_first (acc s : List α) :
    (split sep acc s).1 = [] ∨ ∃ more later, (split sep acc s).1 = (acc ++ more) :: later := by
  induction s generalizing acc with
  | nil => exact Or.inl rfl
  | cons x s ih =>
      rw [split]
      split_ifs
      · exact Or.inr ⟨[], _, by rw [List.append_nil]⟩
      · rcases ih (acc ++ [x]) with h | ⟨more, later, h⟩
        · exact Or.inl h
        · exact Or.inr ⟨x :: more, later, by rw [h, List.append_assoc]; rfl⟩

/-! ### Words -/

theorem words_inj {a b : List α} : a.splitOn sep = b.splitOn sep ↔ a = b := by
  constructor
  · intro h
    calc a = [sep].intercalate (a.splitOn sep) := (List.intercalate_splitOn sep).symm
      _ = [sep].intercalate (b.splitOn sep) := by rw [h]
      _ = b := List.intercalate_splitOn sep
  · exact congrArg _

/-- The words of joined parts are those of the parts. -/
theorem words_intercalate {ws : List (List α)} (hne : ws ≠ []) :
    ([sep].intercalate ws).splitOn sep = ws.flatMap (·.splitOn sep) := by
  induction ws with
  | nil => exact absurd rfl hne
  | cons w ws ih =>
      cases ws with
      | nil => rw [List.intercalate_singleton, List.flatMap_singleton]
      | cons w' ws =>
          rw [List.intercalate_cons_cons, List.flatMap_cons, ← ih (List.cons_ne_nil _ _),
            List.append_assoc]
          exact List.splitOn_append_cons_self w _

theorem not_mem_of_mem_words {a w : List α} (h : w ∈ a.splitOn sep) : sep ∉ w := by
  induction a generalizing w with
  | nil =>
      rw [List.splitOn_nil, List.mem_singleton] at h
      rw [h]
      exact List.not_mem_nil
  | cons x a ih =>
      obtain ⟨first, rest, hwords⟩ := List.exists_cons_of_ne_nil (List.splitOn_ne_nil sep a)
      rw [List.splitOn_cons_eq_if_modifyHead, hwords] at h
      split_ifs at h with hx
      · rcases List.mem_cons.mp h with rfl | h
        · exact List.not_mem_nil
        · exact ih (hwords ▸ h)
      · rcases List.mem_cons.mp h with rfl | h
        · intro hmem
          rcases List.mem_cons.mp hmem with heq | hmem
          · exact hx (beq_iff_eq.mpr heq.symm)
          · exact ih (hwords ▸ List.mem_cons_self) hmem
        · exact ih (hwords ▸ List.mem_cons_of_mem _ h)

theorem exists_of_words {ws : List (List α)} (hne : ws ≠ []) (h : ∀ w ∈ ws, sep ∉ w) :
    ∃ a : List α, a.splitOn sep = ws :=
  ⟨[sep].intercalate ws, List.splitOn_intercalate sep h hne⟩

end Lines
