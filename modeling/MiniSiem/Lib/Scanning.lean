import Mathlib.Tactic

/-! # Scanning a text for several patterns

A scan reports non-overlapping occurrences of patterns from left to right: the next one is, among those that
start behind the last one reported, one that ends first.

* **Runs.**  `Scan pats text lo ms`: the matches `ms` are those of a scan from position `lo`; `scan` computes
  one (`scan_spec`).
* **Reported positions.**  When no pattern lies inside another (`Apart`), an occurrence is left out exactly
  when a reported one that starts before it reaches over its start (`Scan.reported_iff`). -/

namespace Scanning

variable {α : Type}

structure Match where
  pattern : ℕ
  start : ℕ
  stop : ℕ
deriving DecidableEq

/-- `m` is an occurrence of one of the patterns. -/
def Occurs (pats : List (List α)) (text : List α) (m : Match) : Prop :=
  ∃ p, pats[m.pattern]? = some p ∧ p <+: text.drop m.start ∧ m.stop = m.start + p.length

/-- The matches `ms` are those of a scan from `lo` on. -/
inductive Scan (pats : List (List α)) (text : List α) : ℕ → List Match → Prop
  | done {lo : ℕ} (none : ∀ m, Occurs pats text m → m.start < lo) : Scan pats text lo []
  | report {lo : ℕ} {m : Match} {ms : List Match} (occurs : Occurs pats text m) (from_lo : lo ≤ m.start)
      (first : ∀ m', Occurs pats text m' → lo ≤ m'.start → m.stop ≤ m'.stop)
      (rest : Scan pats text m.stop ms) : Scan pats text lo (m :: ms)

/-- No pattern lies inside another one. -/
def Apart (pats : List (List α)) : Prop := ∀ p ∈ pats, ∀ q ∈ pats, p <:+: q → p = q

variable {pats : List (List α)} {text : List α} {lo : ℕ} {ms : List Match} {m m' : Match}

theorem Occurs.le (h : Occurs pats text m) : m.start ≤ m.stop := by
  obtain ⟨p, -, -, hstop⟩ := h
  omega

theorem Occurs.stop_le (hne : [] ∉ pats) (h : Occurs pats text m) :
    m.start < m.stop ∧ m.stop ≤ text.length := by
  obtain ⟨p, hp, hpre, hstop⟩ := h
  have hpos : 0 < p.length :=
    List.length_pos_iff.mpr fun hnil => hne (hnil ▸ List.mem_of_getElem? hp)
  have hle := hpre.length_le
  rw [List.length_drop] at hle
  omega

theorem occurs_of_mem {p : List α} {i : ℕ} (hp : p ∈ pats) (h : p <+: text.drop i) :
    ∃ k, pats[k]? = some p ∧ Occurs pats text ⟨k, i, i + p.length⟩ := by
  obtain ⟨k, hk⟩ := List.mem_iff_getElem?.mp hp
  exact ⟨k, hk, p, hk, h, rfl⟩

theorem Scan.occurs (h : Scan pats text lo ms) (hm : m ∈ ms) : Occurs pats text m ∧ lo ≤ m.start := by
  induction h with
  | done => cases hm
  | report hocc hlo _ _ ih =>
      rcases List.mem_cons.mp hm with rfl | hm
      · exact ⟨hocc, hlo⟩
      · have := hocc.le
        exact ⟨(ih hm).1, by have := (ih hm).2; omega⟩

/-- What is reported before another one ends before the other starts. -/
theorem Scan.stop_le_start (h : Scan pats text lo ms) (hm : m ∈ ms) (hm' : m' ∈ ms)
    (hlt : m.start < m'.start) : m.stop ≤ m'.start := by
  induction h with
  | done => cases hm
  | report hocc _ _ hrest ih =>
      rcases List.mem_cons.mp hm with rfl | hmem <;> rcases List.mem_cons.mp hm' with rfl | hmem'
      · exact absurd hlt (Nat.lt_irrefl _)
      · exact (hrest.occurs hmem').2
      · have hstop := (hrest.occurs hmem).2
        have hle := hocc.le
        omega
      · exact ih hmem hmem'

/-- What ends later and does not start later has the other inside of it. -/
theorem infix_of_within {p q : List α} {i j : ℕ} (hp : p <+: text.drop i) (hq : q <+: text.drop j)
    (hij : j ≤ i) (hend : i + p.length ≤ j + q.length) : p <:+: q := by
  have hdrop : q.drop (i - j) <+: text.drop i := by
    have := hq.drop (i - j)
    rwa [List.drop_drop, Nat.add_sub_cancel' hij] at this
  have hlen : p.length ≤ (q.drop (i - j)).length := by rw [List.length_drop]; omega
  exact (List.prefix_of_prefix_length_le hp hdrop hlen).isInfix.trans (List.drop_suffix _ _).isInfix

/-- An occurrence is reported, or a reported one that starts before it reaches over its start. -/
theorem Scan.reported_or_covered (h : Scan pats text lo ms) (hapart : Apart pats) (hocc : Occurs pats text m')
    (hlo : lo ≤ m'.start) :
    (∃ m ∈ ms, m.start = m'.start ∧ pats[m.pattern]? = pats[m'.pattern]?) ∨
      ∃ m ∈ ms, m.start < m'.start ∧ m'.start < m.stop := by
  induction h with
  | done hnone => exact absurd (hnone m' hocc) (by omega)
  | @report lo m ms hm hle hfirst _ ih =>
      have hstop := hfirst m' hocc hlo
      by_cases hafter : m.stop ≤ m'.start
      · rcases ih hafter with ⟨n, hn, h⟩ | ⟨n, hn, h⟩
        · exact Or.inl ⟨n, List.mem_cons_of_mem m hn, h⟩
        · exact Or.inr ⟨n, List.mem_cons_of_mem m hn, h⟩
      by_cases hbefore : m.start < m'.start
      · exact Or.inr ⟨m, List.mem_cons_self, hbefore, by omega⟩
      -- both start inside: the first to end lies inside the other one, so they are the same
      obtain ⟨p, hp, hpre, hpstop⟩ := hm
      obtain ⟨q, hq, hqre, hqstop⟩ := hocc
      have hpq : p = q := hapart p (List.mem_of_getElem? hp) q (List.mem_of_getElem? hq)
        (infix_of_within hpre hqre (by omega) (by omega))
      subst hpq
      exact Or.inl ⟨m, List.mem_cons_self, by omega, by rw [hp, hq]⟩

/-- `p` is reported at position `i`. -/
def Reported (pats : List (List α)) (ms : List Match) (p : List α) (i : ℕ) : Prop :=
  ∃ m ∈ ms, m.start = i ∧ pats[m.pattern]? = some p

theorem Scan.prefix_of_reported {p : List α} {i : ℕ} (h : Scan pats text lo ms)
    (hrep : Reported pats ms p i) : p ∈ pats ∧ p <+: text.drop i := by
  obtain ⟨m, hm, rfl, hpat⟩ := hrep
  obtain ⟨⟨q, hq, hpre, -⟩, -⟩ := h.occurs hm
  cases hpat.symm.trans hq
  exact ⟨List.mem_of_getElem? hpat, hpre⟩

/-- What is reported is not overlapped by what is reported before it. -/
theorem Scan.not_covered {p q : List α} {i j : ℕ} (h : Scan pats text lo ms) (hp : Reported pats ms p i)
    (hq : Reported pats ms q j) (hij : j < i) : j + q.length ≤ i := by
  obtain ⟨m, hm, rfl, hpat⟩ := hp
  obtain ⟨n, hn, rfl, hqat⟩ := hq
  obtain ⟨⟨q', hq', -, hstop⟩, -⟩ := h.occurs hn
  cases hqat.symm.trans hq'
  exact hstop ▸ h.stop_le_start hn hm hij

/-- An occurrence is reported exactly when no reported one that starts before it overlaps it. -/
theorem Scan.reported_iff {p : List α} {i : ℕ} (h : Scan pats text 0 ms) (hapart : Apart pats) (hp : p ∈ pats)
    (hpre : p <+: text.drop i) :
    Reported pats ms p i ↔ ∀ q j, Reported pats ms q j → j < i → j + q.length ≤ i := by
  refine ⟨fun hrep q j hq hij => h.not_covered hrep hq hij, fun hfree => ?_⟩
  obtain ⟨k, hk, hocc⟩ := occurs_of_mem hp hpre
  rcases h.reported_or_covered hapart hocc (Nat.zero_le _) with ⟨m, hm, hstart, hpat⟩ | ⟨m, hm, hlt, hover⟩
  · exact ⟨m, hm, hstart, hpat.trans hk⟩
  · obtain ⟨⟨q, hq, -, hstop⟩, -⟩ := h.occurs hm
    have := hfree q m.start ⟨m, hm, rfl, hq⟩ hlt
    simp only at hover
    omega

/-- Two occurrences that overlap agree on what they share. -/
theorem comparable_of_overlap {p q : List α} {i j : ℕ} (hp : p <+: text.drop i) (hq : q <+: text.drop j)
    (hij : j ≤ i) : q.drop (i - j) <+: p ∨ p <+: q.drop (i - j) := by
  have hdrop := hq.drop (i - j)
  rw [List.drop_drop, Nat.add_sub_cancel' hij] at hdrop
  exact List.prefix_or_prefix_of_prefix hdrop hp

/-! ### The text before an occurrence -/

theorem take_add_of_prefix {q : List α} {j k : ℕ} (hq : q <+: text.drop j) (hk : k ≤ q.length) :
    text.take (j + k) = text.take j ++ q.take k := by
  obtain ⟨r, hr⟩ := hq
  rw [List.take_add, ← hr, List.take_append_of_le_length hk]

/-- What stands before an occurrence and the first character of it are an occurrence as well. -/
theorem prefix_of_take_eq {p b w : List α} {c : α} {i : ℕ} (hp : p <+: text.drop i) (hc : p.head? = some c)
    (htake : text.take i = b ++ w) : i = b.length + w.length ∧ w ++ [c] <+: text.drop b.length := by
  obtain ⟨p', rfl⟩ := List.head?_eq_some_iff.mp hc
  obtain ⟨r, hr⟩ := hp
  have hlen : (text.take i).length = i := by
    have := congrArg List.length hr
    rw [List.length_append, List.length_cons, List.length_drop] at this
    rw [List.length_take]
    omega
  refine ⟨by rw [← hlen, htake, List.length_append], p' ++ r, ?_⟩
  rw [← List.take_append_drop i text, htake, ← hr, List.append_assoc b, List.drop_left]
  simp

/-! ### Computing a scan -/

variable [DecidableEq α]

/-- The occurrences from `lo` on that end at `stop`. -/
def matchesAt (pats : List (List α)) (text : List α) (lo stop : ℕ) : List Match :=
  pats.zipIdx.filterMap fun pk =>
    if lo + pk.1.length ≤ stop ∧ pk.1 <+: text.drop (stop - pk.1.length) then
      some ⟨pk.2, stop - pk.1.length, stop⟩
    else none

def nextMatch (pats : List (List α)) (text : List α) (lo : ℕ) : Option Match :=
  ((List.range (text.length + 1)).flatMap (matchesAt pats text lo)).head?

/-- At most `fuel` matches of the scan from `lo` on. -/
def scanFrom (pats : List (List α)) (text : List α) : ℕ → ℕ → List Match
  | 0, _ => []
  | fuel + 1, lo =>
      match nextMatch pats text lo with
      | none => []
      | some m => m :: scanFrom pats text fuel m.stop

def scan (pats : List (List α)) (text : List α) : List Match := scanFrom pats text (text.length + 1) 0

theorem mem_matchesAt {stop : ℕ} :
    m ∈ matchesAt pats text lo stop ↔ Occurs pats text m ∧ lo ≤ m.start ∧ m.stop = stop := by
  obtain ⟨k, start, stop'⟩ := m
  simp only [matchesAt, List.mem_filterMap, Prod.exists, List.mem_zipIdx_iff_getElem?,
    Option.ite_none_right_eq_some, Option.some.injEq, Match.mk.injEq, Occurs]
  constructor
  · rintro ⟨p, k', hk, ⟨hlen, hpre⟩, rfl, rfl, rfl⟩
    exact ⟨⟨p, hk, hpre, by omega⟩, by omega, rfl⟩
  · rintro ⟨⟨p, hk, hpre, rfl⟩, hlo, rfl⟩
    have hstart : start + p.length - p.length = start := by omega
    exact ⟨p, k, hk, ⟨by omega, by rwa [hstart]⟩, rfl, hstart, rfl⟩

/-- The next match is one that ends first. -/
theorem nextMatch_spec (hne : [] ∉ pats) (h : nextMatch pats text lo = some m) :
    Occurs pats text m ∧ lo ≤ m.start ∧ ∀ m', Occurs pats text m' → lo ≤ m'.start → m.stop ≤ m'.stop := by
  obtain ⟨rest, hrest⟩ := List.head?_eq_some_iff.mp h
  have hsorted : (m :: rest).Pairwise fun a b => a.stop ≤ b.stop := by
    rw [← hrest, List.pairwise_flatMap]
    refine ⟨fun e _ => List.pairwise_of_forall_mem_list fun a ha b hb => ?_, ?_⟩
    · exact ((mem_matchesAt.mp ha).2.2.trans (mem_matchesAt.mp hb).2.2.symm).le
    · refine (List.pairwise_le_range).imp fun hle a ha b hb => ?_
      rw [(mem_matchesAt.mp ha).2.2, (mem_matchesAt.mp hb).2.2]
      exact hle
  obtain ⟨e, -, hm⟩ := List.mem_flatMap.mp (hrest ▸ List.mem_cons_self : m ∈ List.flatMap _ _)
  obtain ⟨hocc, hlo, -⟩ := mem_matchesAt.mp hm
  refine ⟨hocc, hlo, fun m' hocc' hlo' => ?_⟩
  have hmem : m' ∈ m :: rest := by
    rw [← hrest]
    exact List.mem_flatMap.mpr ⟨m'.stop, by rw [List.mem_range]; have := (hocc'.stop_le hne).2; omega,
      mem_matchesAt.mpr ⟨hocc', hlo', rfl⟩⟩
  rcases List.mem_cons.mp hmem with rfl | hmem
  · exact le_rfl
  · exact List.rel_of_pairwise_cons hsorted hmem

theorem nextMatch_none (hne : [] ∉ pats) (h : nextMatch pats text lo = none) (hocc : Occurs pats text m) :
    m.start < lo := by
  by_contra hlo
  have hmem : m ∈ (List.range (text.length + 1)).flatMap (matchesAt pats text lo) :=
    List.mem_flatMap.mpr ⟨m.stop, by rw [List.mem_range]; have := (hocc.stop_le hne).2; omega,
      mem_matchesAt.mpr ⟨hocc, by omega, rfl⟩⟩
  rw [List.head?_eq_none_iff.mp h] at hmem
  cases hmem

theorem scanFrom_spec (hne : [] ∉ pats) (fuel lo : ℕ) (hfuel : text.length < lo + fuel) :
    Scan pats text lo (scanFrom pats text fuel lo) := by
  induction fuel generalizing lo with
  | zero => exact Scan.done fun m hocc => by have := hocc.stop_le hne; omega
  | succ fuel ih =>
      rw [scanFrom]
      split
      · rename_i hnone
        exact Scan.done fun m hocc => nextMatch_none hne hnone hocc
      · rename_i m hsome
        obtain ⟨hocc, hlo, hfirst⟩ := nextMatch_spec hne hsome
        have hpos := (hocc.stop_le hne).1
        exact Scan.report hocc hlo hfirst (ih m.stop (by omega))

theorem scan_spec (hne : [] ∉ pats) : Scan pats text 0 (scan pats text) :=
  scanFrom_spec hne _ _ (by omega)

end Scanning
