import MiniSiem.Lib.Scanning
import MiniSiem.RuleSelection

/-! # The literals of the malware rules

`find_simple_iocs` (`detection/rules/malware.rs`) collects the patterns of a non-overlapping scan of the
lowercased message.

* **The patterns.**  No literal lies inside another one (`apart_iocPatterns`), and two of them share at most
  the last character of the first (`overlap_iocPatterns`).
* **What is left out.**  An occurrence is not reported when one that is reported ends on its first character
  (`reported_of_c`, `reported_of_evil`).  `findSimpleIocs_exact_iff`: the result is the set of literals in the
  message exactly when each of them has a free occurrence. -/

namespace MiniSiem

open Scanning

/-- `MALICIOUS_SIMPLE_IOCS` as patterns of characters. -/
def iocPatterns : List (List Char) := maliciousSimpleIocs.map String.toList

/-- `MALICIOUS_SIMPLE_IOC_MATCHER.find_iter` scans the text, and the indexes of its matches are collected in
a hash set. -/
structure MalwareMatchers.Standard (matchers : MalwareMatchers) (findIter : String → List Match) : Prop where
  scans : ∀ s, Scan iocPatterns s.toList 0 (findIter s)
  collects : ∀ s k, k ∈ matchers.simpleIocs s ↔ ∃ m ∈ findIter s, m.pattern = k

theorem nil_notMem_iocPatterns : [] ∉ iocPatterns := by decide +kernel

/-- A matcher that scans as the automaton does. -/
def scanningMatchers (complexPatterns : String → Bool) : MalwareMatchers :=
  ⟨fun s => ((scan iocPatterns s.toList).map Match.pattern).dedup, complexPatterns⟩

theorem scanningMatchers_standard (complexPatterns : String → Bool) :
    (scanningMatchers complexPatterns).Standard fun s => scan iocPatterns s.toList where
  scans _ := scan_spec nil_notMem_iocPatterns
  collects _ _ := List.mem_dedup.trans List.mem_map

/-! ### Overlaps -/

theorem apart_iocPatterns : Apart iocPatterns := by
  unfold Apart
  decide +kernel

/-- Literals overlap in one character: a `c`, or the `e` of `evil.org`, or the `m` of `malware.com`. -/
theorem overlap_iocPatterns : ∀ p ∈ iocPatterns, ∀ q ∈ iocPatterns, ∀ k ∈ List.range q.length, 0 < k →
    (q.drop k <+: p ∨ p <+: q.drop k) → k + 1 = q.length ∧
      (p.head? = some 'c' ∧ (q = "-enc".toList ∨ q = "cmd /c".toList) ∨
        p = "evil.org".toList ∧ q = "-urlcache".toList ∨
        p = "malware.com".toList ∧ q = "malware.com".toList) := by
  decide +kernel

/-- What is reported over the start of an occurrence ends there. -/
theorem overlap_cases {text : List Char} {p q : List Char} {i j : ℕ} (hp : p ∈ iocPatterns)
    (hpre : p <+: text.drop i) (hq : q ∈ iocPatterns) (hqre : q <+: text.drop j) (hij : j < i)
    (hover : i < j + q.length) : i + 1 = j + q.length ∧
      (p.head? = some 'c' ∧ (q = "-enc".toList ∨ q = "cmd /c".toList) ∨
        p = "evil.org".toList ∧ q = "-urlcache".toList ∨
        p = "malware.com".toList ∧ q = "malware.com".toList) := by
  obtain ⟨hlen, hcases⟩ := overlap_iocPatterns p hp q hq (i - j) (List.mem_range.mpr (by omega)) (by omega)
    (comparable_of_overlap hpre hqre hij.le)
  exact ⟨by omega, hcases⟩

/-- Does a literal that is reported end on the `c` that follows a text?  The text is read backwards. -/
def takenC : List Char → Bool
  | 'n' :: 'e' :: '-' :: _ => true
  | '/' :: ' ' :: 'd' :: 'm' :: 'c' :: before => !takenC before
  | _ => false

/-- An occurrence of a literal behind `before` is left out. -/
def taken (ioc : String) (before : List Char) : Bool :=
  if ioc.toList.head? = some 'c' then takenC before.reverse
  else ioc == "evil.org" && decide ("-urlcach".toList <:+ before)

/-- Every literal that occurs in the text has an occurrence that is not left out. -/
def FreeOccurrences (text : String) : Prop :=
  ∀ ioc ∈ maliciousSimpleIocs, Text.contains text ioc = true →
    ∃ before after, text.toList = before ++ ioc.toList ++ after ∧ taken ioc before = false

theorem takenC_eq_true {before : List Char} (h : takenC before = true) :
    (∃ rest, before = 'n' :: 'e' :: '-' :: rest) ∨
      ∃ rest, before = '/' :: ' ' :: 'd' :: 'm' :: 'c' :: rest ∧ takenC rest = false := by
  unfold takenC at h
  split at h
  · rename_i rest
    exact Or.inl ⟨rest, rfl⟩
  · rename_i rest
    exact Or.inr ⟨rest, rfl, by simpa using h⟩
  · cases h

/-! ### What is reported -/

section

variable {text : List Char} {ms : List Match} {p : List Char} {i : ℕ}

/-- Literals that do not start with the last character of another one are always reported. -/
theorem reported_of_free (h : Scan iocPatterns text 0 ms) (hp : p ∈ iocPatterns) (hc : p.head? ≠ some 'c')
    (hevil : p ≠ "evil.org".toList) (hmalware : p ≠ "malware.com".toList) (hpre : p <+: text.drop i) :
    Reported iocPatterns ms p i := by
  refine (h.reported_iff apart_iocPatterns hp hpre).mpr fun q j hq hij => ?_
  by_contra hover
  obtain ⟨hqmem, hqre⟩ := h.prefix_of_reported hq
  rcases (overlap_cases hp hpre hqmem hqre hij (by omega)).2 with ⟨hp', -⟩ | ⟨hp', -⟩ | ⟨hp', -⟩
  · exact hc hp'
  · exact hevil hp'
  · exact hmalware hp'

theorem reported_of_c (h : Scan iocPatterns text 0 ms) (hp : p ∈ iocPatterns) (hc : p.head? = some 'c')
    (hpre : p <+: text.drop i) :
    Reported iocPatterns ms p i ↔ takenC (text.take i).reverse = false := by
  induction i using Nat.strongRecOn generalizing p with
  | ind i ih =>
  constructor
  · intro hrep
    rw [← Bool.not_eq_true]
    intro htaken
    rcases takenC_eq_true htaken with ⟨rest, hrest⟩ | ⟨rest, hrest, hfree⟩
    · have htake : text.take i = rest.reverse ++ ['-', 'e', 'n'] := by
        simpa using congrArg List.reverse hrest
      obtain ⟨hi, hq⟩ := prefix_of_take_eq hpre hc htake
      have henc : Reported iocPatterns ms "-enc".toList rest.reverse.length :=
        reported_of_free h (by decide) (by decide) (by decide) (by decide) hq
      have hle := h.not_covered hrep henc (by rw [hi]; exact Nat.lt_add_of_pos_right (by decide))
      rw [hi] at hle
      exact absurd (Nat.le_of_add_le_add_left hle) (by decide)
    · have htake : text.take i = rest.reverse ++ ['c', 'm', 'd', ' ', '/'] := by
        simpa using congrArg List.reverse hrest
      obtain ⟨hi, hq⟩ := prefix_of_take_eq hpre hc htake
      have hbefore : text.take rest.reverse.length = rest.reverse := by
        have := congrArg (List.take rest.reverse.length) htake
        rwa [List.take_left, List.take_take, min_eq_left (by omega)] at this
      have hlt : rest.reverse.length < i := by rw [hi]; exact Nat.lt_add_of_pos_right (by decide)
      have hcmd : Reported iocPatterns ms "cmd /c".toList rest.reverse.length :=
        (ih _ hlt (by decide) (by decide) hq).mpr (by rw [hbefore, List.reverse_reverse]; exact hfree)
      have hle := h.not_covered hrep hcmd hlt
      rw [hi] at hle
      exact absurd (Nat.le_of_add_le_add_left hle) (by decide)
  · intro hfree
    refine (h.reported_iff apart_iocPatterns hp hpre).mpr fun q j hq hij => ?_
    by_contra hover
    obtain ⟨hqmem, hqre⟩ := h.prefix_of_reported hq
    obtain ⟨hend, hcases⟩ := overlap_cases hp hpre hqmem hqre hij (by omega)
    have htake : text.take i = text.take j ++ q.take (q.length - 1) := by
      rw [← take_add_of_prefix hqre (Nat.sub_le _ _)]
      congr 1
      omega
    rcases hcases with ⟨-, rfl | rfl⟩ | ⟨rfl, -⟩ | ⟨rfl, -⟩
    · rw [htake] at hfree
      simp [takenC] at hfree
    · have hbefore := (ih j hij (by decide) (by decide) hqre).mp hq
      rw [htake] at hfree
      simp [takenC] at hfree
      simp [hbefore] at hfree
    · cases hc
    · cases hc

theorem reported_of_evil (h : Scan iocPatterns text 0 ms) (hpre : "evil.org".toList <+: text.drop i) :
    Reported iocPatterns ms "evil.org".toList i ↔ ¬ "-urlcach".toList <:+ text.take i := by
  constructor
  · rintro hrep ⟨before, hbefore⟩
    obtain ⟨hi, hq⟩ := prefix_of_take_eq hpre rfl hbefore.symm
    have hurl : Reported iocPatterns ms "-urlcache".toList before.length :=
      reported_of_free h (by decide) (by decide) (by decide) (by decide) hq
    have hle := h.not_covered hrep hurl (by rw [hi]; exact Nat.lt_add_of_pos_right (by decide))
    rw [hi] at hle
    exact absurd (Nat.le_of_add_le_add_left hle) (by decide)
  · intro hfree
    refine (h.reported_iff apart_iocPatterns (by decide) hpre).mpr fun q j hq hij => ?_
    by_contra hover
    obtain ⟨hqmem, hqre⟩ := h.prefix_of_reported hq
    obtain ⟨hend, hcases⟩ := overlap_cases (by decide) hpre hqmem hqre hij (by omega)
    rcases hcases with ⟨hc, -⟩ | ⟨-, rfl⟩ | ⟨he, -⟩
    · cases hc
    · refine hfree ⟨text.take j, ?_⟩
      have htake := take_add_of_prefix hqre (k := 8) (by decide)
      have hi : i = j + 8 := by simp at hend; omega
      rw [hi, htake]
      rfl
    · exact absurd he (by decide)

/-- The first occurrence of `malware.com` is reported. -/
theorem exists_reported_malware (h : Scan iocPatterns text 0 ms)
    (hocc : "malware.com".toList <+: text.drop i) :
    ∃ i, Reported iocPatterns ms "malware.com".toList i := by
  classical
  have hex : ∃ i, "malware.com".toList <+: text.drop i := ⟨i, hocc⟩
  have hpre := Nat.find_spec hex
  refine ⟨Nat.find hex, (h.reported_iff apart_iocPatterns (by decide) hpre).mpr fun q j hq hij => ?_⟩
  by_contra hover
  obtain ⟨hqmem, hqre⟩ := h.prefix_of_reported hq
  rcases (overlap_cases (by decide) hpre hqmem hqre hij (by omega)).2 with ⟨hc, -⟩ | ⟨he, -⟩ | ⟨-, rfl⟩
  · cases hc
  · exact absurd he (by decide)
  · exact Nat.find_min hex hij hqre

end

/-! ### The result -/

section

variable {matchers : MalwareMatchers} {findIter : String → List Match}

theorem mem_findSimpleIocs (hstd : matchers.Standard findIter) (message ioc : String) :
    ioc ∈ MalwareDetectionRule.findSimpleIocs matchers message ↔
      ∃ i, Reported iocPatterns (findIter (asciiLowercase message)) ioc.toList i := by
  simp only [MalwareDetectionRule.findSimpleIocs, List.mem_filterMap, hstd.collects, Reported, iocPatterns,
    List.getElem?_map, Option.map_eq_some_iff]
  constructor
  · rintro ⟨k, ⟨m, hm, rfl⟩, hk⟩
    exact ⟨m.start, m, hm, rfl, ioc, hk, rfl⟩
  · rintro ⟨i, m, hm, rfl, ioc', hk, heq⟩
    exact ⟨m.pattern, ⟨m, hm, rfl⟩, String.toList_inj.mp heq ▸ hk⟩

theorem contains_iff_exists_start (s p : String) :
    Text.contains s p = true ↔ ∃ i, p.toList <+: s.toList.drop i := by
  rw [Text.contains, decide_eq_true_eq]
  constructor
  · rintro ⟨before, after, h⟩
    exact ⟨before.length, after, by rw [← h, List.append_assoc, List.drop_left]⟩
  · rintro ⟨i, h⟩
    exact h.isInfix.trans (List.drop_suffix i s.toList).isInfix

theorem not_taken_of_reported {text : List Char} {ms : List Match} {ioc : String} {i : ℕ}
    (h : Scan iocPatterns text 0 ms) (hrep : Reported iocPatterns ms ioc.toList i) :
    taken ioc (text.take i) = false := by
  obtain ⟨hmem, hpre⟩ := h.prefix_of_reported hrep
  by_cases hc : ioc.toList.head? = some 'c'
  · rw [taken, if_pos hc]
    exact (reported_of_c h hmem hc hpre).mp hrep
  rw [taken, if_neg hc, Bool.and_eq_false_iff]
  by_cases hevil : ioc = "evil.org"
  · subst hevil
    exact Or.inr (decide_eq_false ((reported_of_evil h hpre).mp hrep))
  · exact Or.inl (beq_eq_false_iff_ne.mpr hevil)

theorem reported_of_not_taken {text : List Char} {ms : List Match} {ioc : String} {i : ℕ}
    (h : Scan iocPatterns text 0 ms) (hmem : ioc ∈ maliciousSimpleIocs) (hmalware : ioc ≠ "malware.com")
    (hpre : ioc.toList <+: text.drop i) (hfree : taken ioc (text.take i) = false) :
    Reported iocPatterns ms ioc.toList i := by
  have hp : ioc.toList ∈ iocPatterns := List.mem_map_of_mem hmem
  by_cases hc : ioc.toList.head? = some 'c'
  · rw [taken, if_pos hc] at hfree
    exact (reported_of_c h hp hc hpre).mpr hfree
  rw [taken, if_neg hc] at hfree
  by_cases hevil : ioc = "evil.org"
  · subst hevil
    rw [beq_self_eq_true, Bool.true_and] at hfree
    exact (reported_of_evil h hpre).mpr (of_decide_eq_false hfree)
  · exact reported_of_free h hp hc (fun heq => hevil (String.toList_inj.mp heq))
      (fun heq => hmalware (String.toList_inj.mp heq)) hpre

/-- The set of literals in the message is returned exactly when each of them has an occurrence that no
reported one runs into. -/
theorem findSimpleIocs_exact_iff (hstd : matchers.Standard findIter) (message : String) :
    (∀ ioc, ioc ∈ MalwareDetectionRule.findSimpleIocs matchers message ↔
        ioc ∈ maliciousSimpleIocs ∧ Text.contains (asciiLowercase message) ioc = true) ↔
      FreeOccurrences (asciiLowercase message) := by
  have hscan := hstd.scans (asciiLowercase message)
  constructor
  · intro hexact ioc hmem hcontains
    obtain ⟨i, hrep⟩ := (mem_findSimpleIocs hstd message ioc).mp ((hexact ioc).mpr ⟨hmem, hcontains⟩)
    obtain ⟨after, hafter⟩ := (hscan.prefix_of_reported hrep).2
    refine ⟨(asciiLowercase message).toList.take i, after, ?_, not_taken_of_reported hscan hrep⟩
    rw [List.append_assoc, hafter, List.take_append_drop]
  · intro hfree ioc
    rw [mem_findSimpleIocs hstd]
    constructor
    · rintro ⟨i, hrep⟩
      obtain ⟨hp, hpre⟩ := hscan.prefix_of_reported hrep
      obtain ⟨ioc', hmem, heq⟩ := List.mem_map.mp hp
      exact ⟨String.toList_inj.mp heq ▸ hmem, (contains_iff_exists_start _ ioc).mpr ⟨i, hpre⟩⟩
    · rintro ⟨hmem, hcontains⟩
      by_cases hmalware : ioc = "malware.com"
      · obtain ⟨i, hpre⟩ := (contains_iff_exists_start _ ioc).mp hcontains
        subst hmalware
        exact exists_reported_malware hscan hpre
      obtain ⟨before, after, htext, hnot⟩ := hfree ioc hmem hcontains
      rw [List.append_assoc] at htext
      refine ⟨before.length, reported_of_not_taken hscan hmem hmalware ⟨after, ?_⟩ ?_⟩
      · rw [htext, List.drop_left]
      · rwa [htext, List.take_left]

/-- In "CURL -o a.sh" the one literal is found. -/
theorem curl_found : FreeOccurrences (asciiLowercase "CURL -o a.sh") ∧ ∀ ioc,
    ioc ∈ MalwareDetectionRule.findSimpleIocs (scanningMatchers fun _ => false) "CURL -o a.sh" ↔
      ioc ∈ maliciousSimpleIocs ∧ Text.contains (asciiLowercase "CURL -o a.sh") ioc = true := by
  have hcurl : ∀ ioc ∈ maliciousSimpleIocs,
      Text.contains (asciiLowercase "CURL -o a.sh") ioc = true → ioc = "curl" := by decide +kernel
  have hfree : FreeOccurrences (asciiLowercase "CURL -o a.sh") := by
    intro ioc hmem hcontains
    rw [hcurl ioc hmem hcontains]
    exact ⟨[], " -o a.sh".toList, by decide +kernel, by decide +kernel⟩
  exact ⟨hfree, (findSimpleIocs_exact_iff (scanningMatchers_standard _) "CURL -o a.sh").mpr hfree⟩

/-- In "cmd /curl -o a.sh" the `c` belongs to the first literal, and the second one is missed. -/
theorem cmdCurl_missed :
    ¬∀ (matchers : MalwareMatchers) (findIter : String → List Match), matchers.Standard findIter →
      ∀ message ioc, ioc ∈ MalwareDetectionRule.findSimpleIocs matchers message ↔
        ioc ∈ maliciousSimpleIocs ∧ Text.contains (asciiLowercase message) ioc = true := by
  intro hexact
  have hcurl := (hexact _ _ (scanningMatchers_standard fun _ => false) "cmd /curl -o a.sh" "curl").mpr
    (by decide +kernel)
  exact absurd hcurl (by decide +kernel)

end

end MiniSiem
