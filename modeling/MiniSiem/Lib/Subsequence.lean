import Mathlib.Tactic
import Mathlib.Data.List.Forall2

/-! # Greedy matching of a pattern in a stream

A pattern is a list of tests that are to be passed in order, by not necessarily adjacent
events of a stream.  `advance` removes the first test when the event passes it.

`Within` says that the rest of a stream still holds a match of a pattern the machine is not
behind of; a machine that takes every event it can use keeps this (`within_advance`), so it has
matched its whole pattern by the end of the match (`not_within_nil`). -/

namespace Subsequence

variable {P E : Type} (test : P → E → Bool)

/-- The tests that are left after the event. -/
def advance : List P → E → List P
  | [], _ => []
  | p :: ps, e => if test p e then ps else p :: ps

/-- The events match the tests of the pattern one by one. -/
def Spells (pat : List P) (m : List E) : Prop := List.Forall₂ (fun p e => test p e = true) pat m

/-- The stream holds, in order, a match of a pattern that has the tests `left` at its end. -/
def Within (left : List P) (es : List E) : Prop :=
  ∃ pat m, left <:+ pat ∧ Spells test pat m ∧ List.Sublist m es

variable {test}

theorem advance_suffix (left : List P) (e : E) : advance test left e <:+ left := by
  cases left with
  | nil => exact List.suffix_refl []
  | cons p ps =>
      rw [advance]
      split_ifs
      · exact List.suffix_cons p ps
      · exact List.suffix_refl _

/-- One more test and an event that passes it. -/
theorem Spells.concat {pat : List P} {m : List E} (h : Spells test pat m) {p : P} {e : E}
    (hp : test p e = true) : Spells test (pat ++ [p]) (m ++ [e]) := by
  induction h with
  | nil => exact .cons hp .nil
  | cons hq _ ih => exact .cons hq ih

/-- One event: what was left can still be matched by the rest of the stream. -/
theorem within_advance {left : List P} {e : E} {es : List E} (h : Within test left (e :: es)) :
    Within test (advance test left e) es := by
  obtain ⟨pat, m, hsuf, hspell, hsub⟩ := h
  cases hsub with
  | cons _ hsub => exact ⟨pat, m, (advance_suffix left e).trans hsuf, hspell, hsub⟩
  | cons_cons _ hsub =>
      -- the event is the first one of the match
      cases hspell with
      | cons hp hspell =>
          rename_i m' p ps
          rcases List.suffix_cons_iff.mp hsuf with hleft | hleft
          · refine ⟨ps, m', ?_, hspell, hsub⟩
            rw [hleft, advance, if_pos hp]
          · exact ⟨ps, m', (advance_suffix left e).trans hleft, hspell, hsub⟩

/-- A machine with tests left has not seen the end of the match. -/
theorem not_within_nil {left : List P} (h : Within test left []) : left = [] := by
  obtain ⟨pat, m, hsuf, hspell, hsub⟩ := h
  rw [List.sublist_nil.mp hsub] at hspell
  cases hspell
  exact List.suffix_nil.mp hsuf

end Subsequence
