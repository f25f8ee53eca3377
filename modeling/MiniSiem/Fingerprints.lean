import MiniSiem.AlertBatcher
import Mathlib.Data.List.DropRight

/-! # Normalized descriptions

`normalize_fingerprint` of `alerting/db_batcher.rs` makes one pass over the characters with two flags, and
trims what it gets.

* **Squeezed texts.**  The pass leaves small letters, no digits and single blanks (`normalizeChars_squeezed`):
  after a blank it does not start with another one.
* **Normal form.**  A text of that shape with no blank at its ends is its own result, and every result is of
  that shape (`normalizeFingerprint_normalForm`).
* **Digits.**  What a run of digits leaves does not depend on the run (`normalizeChars_run`). -/

namespace MiniSiem

/-- No digit, no capital letter, no white space but single blanks. -/
structure Squeezed (s : List Char) : Prop where
  digits : ∀ c ∈ s, isAsciiDigit c = false
  capitals : ∀ c ∈ s, c.isUpper = false
  blanks : ∀ c ∈ s, isWhitespace c = true → c = ' '
  single : s.IsChain fun c d => c = ' ' → d ≠ ' '

/-- The shape of a fingerprint: squeezed, and no white space at the ends. -/
structure NormalText (s : List Char) : Prop extends Squeezed s where
  start : ∀ c ∈ s.head?, isWhitespace c = false
  ending : ∀ c ∈ s.getLast?, isWhitespace c = false

/-- A non-empty run of ASCII digits. -/
def IsDigitRun (run : String) : Prop := run.toList ≠ [] ∧ ∀ c ∈ run.toList, isAsciiDigit c = true

instance (run : String) : Decidable (IsDigitRun run) :=
  @instDecidableAnd _ _ _ (List.decidableBAll (fun c => isAsciiDigit c = true) run.toList)

/-! ### Characters -/

theorem toNat_toLower (c : Char) :
    c.toLower.toNat = if 65 ≤ c.toNat ∧ c.toNat ≤ 90 then c.toNat + 32 else c.toNat := by
  unfold Char.toLower
  have hrange : (c.val ≥ 'A'.val ∧ c.val ≤ 'Z'.val) ↔ 65 ≤ c.toNat ∧ c.toNat ≤ 90 := Iff.rfl
  by_cases h : c.val ≥ 'A'.val ∧ c.val ≤ 'Z'.val
  · rw [dif_pos h, if_pos (hrange.mp h)]
    have hle := (hrange.mp h).2
    show (c.val + ('a'.val - 'A'.val)).toNat = c.toNat + 32
    rw [UInt32.toNat_add]
    show (c.toNat + 32) % 2 ^ 32 = c.toNat + 32
    omega
  · rw [dif_neg h, if_neg (hrange.not.mp h)]

theorem isAsciiDigit_iff {c : Char} : isAsciiDigit c = true ↔ 48 ≤ c.toNat ∧ c.toNat ≤ 57 := by
  unfold isAsciiDigit
  rw [Bool.and_eq_true, decide_eq_true_iff, decide_eq_true_iff]
  exact Iff.rfl

theorem isUpper_iff {c : Char} : c.isUpper = true ↔ 65 ≤ c.toNat ∧ c.toNat ≤ 90 := by
  unfold Char.isUpper
  rw [decide_eq_true_iff]
  exact Iff.rfl

theorem isUpper_toLower (c : Char) : c.toLower.isUpper = false := by
  rw [Bool.eq_false_iff, Ne, isUpper_iff, toNat_toLower]
  split_ifs <;> omega

theorem isAsciiDigit_toLower {c : Char} (h : isAsciiDigit c = false) : isAsciiDigit c.toLower = false := by
  rw [Bool.eq_false_iff, Ne, isAsciiDigit_iff] at h ⊢
  rw [toNat_toLower]
  split_ifs <;> omega

theorem toLower_of_not_isUpper {c : Char} (h : c.isUpper = false) : c.toLower = c := by
  rw [Bool.eq_false_iff, Ne, isUpper_iff] at h
  refine Char.toNat_inj.mp ?_
  rw [toNat_toLower, if_neg h]

/-! ### The pass -/

theorem Squeezed.cons {c : Char} {s : List Char} (h : Squeezed s) (hdigit : isAsciiDigit c = false)
    (hcapital : c.isUpper = false) (hblank : isWhitespace c = true → c = ' ')
    (hhead : c = ' ' → ∀ d ∈ s.head?, d ≠ ' ') : Squeezed (c :: s) where
  digits := List.forall_mem_cons.mpr ⟨hdigit, h.digits⟩
  capitals := List.forall_mem_cons.mpr ⟨hcapital, h.capitals⟩
  blanks := List.forall_mem_cons.mpr ⟨hblank, h.blanks⟩
  single := List.isChain_cons.mpr ⟨fun d hd hc => hhead hc d hd, h.single⟩

theorem Squeezed.of_isInfix {s t : List Char} (h : Squeezed s) (ht : t <:+: s) : Squeezed t where
  digits c hc := h.digits c (ht.subset hc)
  capitals c hc := h.capitals c (ht.subset hc)
  blanks c hc := h.blanks c (ht.subset hc)
  single := List.IsChain.infix h.single ht

theorem squeezed_nil : Squeezed [] :=
  ⟨fun _ hc => (List.not_mem_nil hc).elim, fun _ hc => (List.not_mem_nil hc).elim,
    fun _ hc => (List.not_mem_nil hc).elim, .nil⟩

/-- Induction on the text, with the flags free.  They are never both set, so that a digit after a blank is
not dropped. -/
theorem normalizeChars_squeezed (previousWasSpace inDigitRun : Bool) (s : List Char)
    (hflags : previousWasSpace = true → inDigitRun = false) :
    Squeezed (normalizeChars previousWasSpace inDigitRun s) ∧
      (previousWasSpace = true → ∀ c ∈ (normalizeChars previousWasSpace inDigitRun s).head?, c ≠ ' ') := by
  induction s generalizing previousWasSpace inDigitRun with
  | nil => exact ⟨squeezed_nil, fun _ c hc => (Option.not_mem_none c hc).elim⟩
  | cons ch s ih =>
      rw [normalizeChars]
      by_cases hdigit : isAsciiDigit ch = true
      · rw [if_pos hdigit]
        have hrest : Squeezed (normalizeChars false true s) := (ih false true fun h => nomatch h).1
        cases inDigitRun with
        | true => exact ⟨hrest, fun h => nomatch hflags h⟩
        | false =>
            refine ⟨hrest.cons rfl rfl (fun h => nomatch h) (fun h => nomatch h), fun _ c hc => ?_⟩
            rw [← Option.some.inj hc]
            decide
      · rw [if_neg hdigit]
        dsimp only
        have hmapped := isAsciiDigit_toLower (Bool.eq_false_iff.mpr hdigit)
        by_cases hblank : isWhitespace ch.toLower = true
        · rw [if_pos hblank]
          obtain ⟨hrest, hhead⟩ := ih true false fun _ => rfl
          cases previousWasSpace with
          | true => exact ⟨hrest, hhead⟩
          | false => exact ⟨hrest.cons rfl rfl (fun _ => rfl) fun _ => hhead rfl, fun h => nomatch h⟩
        · rw [if_neg hblank]
          have hne : ch.toLower ≠ ' ' := fun heq => hblank (heq ▸ rfl)
          have hrest : Squeezed (normalizeChars false false s) := (ih false false fun h => nomatch h).1
          refine ⟨hrest.cons hmapped (isUpper_toLower ch) (fun h => absurd h hblank)
            (fun h => absurd h hne), fun _ c hc => ?_⟩
          rwa [← Option.some.inj hc]

/-- A squeezed text is left as it is, unless it goes on after a blank with another one. -/
theorem normalizeChars_of_squeezed (previousWasSpace inDigitRun : Bool) {s : List Char}
    (h : Squeezed s) (hhead : previousWasSpace = true → ∀ c ∈ s.head?, c ≠ ' ') :
    normalizeChars previousWasSpace inDigitRun s = s := by
  induction s generalizing previousWasSpace inDigitRun with
  | nil => rfl
  | cons ch s ih =>
      have hdigit := h.digits ch List.mem_cons_self
      have hlower := toLower_of_not_isUpper (h.capitals ch List.mem_cons_self)
      have hrest : Squeezed s := h.of_isInfix (List.suffix_cons ch s).isInfix
      rw [normalizeChars, if_neg (by rw [hdigit]; decide), hlower]
      dsimp only
      by_cases hblank : isWhitespace ch = true
      · obtain rfl := h.blanks ch List.mem_cons_self hblank
        have hspace : previousWasSpace = false := by
          cases previousWasSpace with
          | true => exact absurd rfl (hhead rfl ' ' rfl)
          | false => rfl
        rw [if_pos hblank, hspace]
        have hnext := (List.isChain_cons.mp h.single).1
        exact congrArg (List.cons ' ') (ih true false hrest fun _ c hc => hnext c hc rfl)
      · rw [if_neg hblank, ih false false hrest fun h => nomatch h]

/-! ### Trimming -/

theorem trimChars_isInfix (s : List Char) : trimChars s <:+: s :=
  (List.rdropWhile_prefix isWhitespace (s.dropWhile isWhitespace)).isInfix.trans
    (List.dropWhile_suffix isWhitespace).isInfix

theorem trimChars_normal {s : List Char} (h : Squeezed s) : NormalText (trimChars s) where
  toSqueezed := h.of_isInfix (trimChars_isInfix s)
  start := by
    intro c hc
    obtain ⟨rest, hrest⟩ := List.rdropWhile_prefix isWhitespace (s.dropWhile isWhitespace)
    have hhead : (s.dropWhile isWhitespace).head? = some c := by
      rw [← hrest]
      exact List.mem_head?_append_of_mem_head? hc
    have hstop := List.head?_dropWhile_not isWhitespace s
    rw [hhead] at hstop
    exact hstop
  ending := by
    intro c hc
    obtain ⟨hne, hlast⟩ := List.mem_getLast?_eq_getLast hc
    rw [hlast]
    exact Bool.eq_false_iff.mpr (List.rdropWhile_last_not isWhitespace (s.dropWhile isWhitespace) hne)

theorem trimChars_of_normal {s : List Char} (h : NormalText s) : trimChars s = s := by
  have hfront : s.dropWhile isWhitespace = s := by
    cases s with
    | nil => rfl
    | cons c s => exact List.dropWhile_cons_of_neg (by rw [h.start c rfl]; decide)
  show (s.dropWhile isWhitespace).rdropWhile isWhitespace = s
  rw [hfront]
  refine List.rdropWhile_eq_self_iff.mpr fun hne => ?_
  rw [h.ending _ (List.getLast?_eq_some_getLast hne)]
  decide

/-! ### Runs of digits -/

/-- Inside a run of digits the rest of the run leaves nothing. -/
theorem normalizeChars_inDigitRun {run : List Char} (hdigits : ∀ c ∈ run, isAsciiDigit c = true)
    (after : List Char) : normalizeChars false true (run ++ after) = normalizeChars false true after := by
  induction run with
  | nil => rfl
  | cons c run ih =>
      obtain ⟨hdigit, hrest⟩ := List.forall_mem_cons.mp hdigits
      rw [List.cons_append, normalizeChars, if_pos hdigit, if_pos rfl]
      exact ih hrest

/-- After a run of digits the pass goes on as after any other. -/
theorem normalizeChars_run (previousWasSpace inDigitRun : Bool) {run run' : List Char} (hrun : run ≠ [])
    (hrun' : run' ≠ []) (hdigits : ∀ c ∈ run, isAsciiDigit c = true)
    (hdigits' : ∀ c ∈ run', isAsciiDigit c = true) (before after : List Char) :
    normalizeChars previousWasSpace inDigitRun (before ++ (run ++ after)) =
      normalizeChars previousWasSpace inDigitRun (before ++ (run' ++ after)) := by
  induction before generalizing previousWasSpace inDigitRun with
  | nil =>
      have hfirst : ∀ {run : List Char}, run ≠ [] → (∀ c ∈ run, isAsciiDigit c = true) →
          normalizeChars previousWasSpace inDigitRun (run ++ after) =
            if inDigitRun then normalizeChars false true after
            else '#' :: normalizeChars false true after := by
        intro run hrun hdigits
        obtain ⟨c, run, rfl⟩ := List.exists_cons_of_ne_nil hrun
        obtain ⟨hdigit, hrest⟩ := List.forall_mem_cons.mp hdigits
        rw [List.cons_append, normalizeChars, if_pos hdigit, normalizeChars_inDigitRun hrest]
      exact (hfirst hrun hdigits).trans (hfirst hrun' hdigits').symm
  | cons c before ih => simp only [List.cons_append, normalizeChars, ih]

/-! ### The normal form -/

theorem normalizeFingerprint_normal (s : String) : NormalText (normalizeFingerprint s).toList := by
  unfold normalizeFingerprint
  rw [String.toList_ofList]
  exact trimChars_normal (normalizeChars_squeezed false false s.toList fun h => nomatch h).1

theorem normalizeFingerprint_of_normal {s : String} (h : NormalText s.toList) :
    normalizeFingerprint s = s := by
  unfold normalizeFingerprint
  rw [normalizeChars_of_squeezed false false h.toSqueezed (fun h => nomatch h), trimChars_of_normal h,
    String.ofList_toList]

/-- **`normalize_fingerprint` is a normal form**, whatever the text: a second pass changes nothing, the result
has the shape, a text of the shape is its own result, and each run of digits counts as any other. -/
theorem normalizeFingerprint_normalForm (s : String) :
    normalizeFingerprint (normalizeFingerprint s) = normalizeFingerprint s ∧
      NormalText (normalizeFingerprint s).toList ∧
      (NormalText s.toList → normalizeFingerprint s = s) ∧
      ∀ before run run' after, s = before ++ run ++ after → IsDigitRun run → IsDigitRun run' →
        normalizeFingerprint (before ++ run' ++ after) = normalizeFingerprint s := by
  refine ⟨normalizeFingerprint_of_normal (normalizeFingerprint_normal s), normalizeFingerprint_normal s,
    normalizeFingerprint_of_normal, ?_⟩
  rintro before run run' after rfl ⟨hrun, hdigits⟩ ⟨hrun', hdigits'⟩
  unfold normalizeFingerprint
  simp only [String.toList_append, List.append_assoc]
  rw [normalizeChars_run false false hrun' hrun hdigits' hdigits]

/-- Two descriptions of one attack. -/
theorem bruteForce_normalized :
    normalizeFingerprint "attack from 10.0.0.1: 12 failed" =
      normalizeFingerprint "attack from 10.0.0.1: 9 failed" :=
  (normalizeFingerprint_normalForm "attack from 10.0.0.1: 9 failed").2.2.2 "attack from 10.0.0.1: " "9" "12"
    " failed" (by decide +kernel) (by decide +kernel) (by decide +kernel)

end MiniSiem
