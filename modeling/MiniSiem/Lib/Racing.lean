import Mathlib.Data.Set.Insert
import Mathlib.Data.List.Infix
import Mathlib.Data.List.Nodup
import Mathlib.Logic.Function.Basic

/-! # Racing insertions

Many processes insert keys into one set, each the keys of its own list in their order.  A process looks at
the set once, when it starts, and passes over the keys it has seen there.  It gives up at the first
other key that is in the set by then, because someone else was faster.

* **Steps.**  `Step want s s'`: a process starts, inserts its next key, or gives up.
* **Invariant.**  `Fair want initial s`: what a process has gone past is in the set or was seen by it, and
  each new key of the set was inserted by a process that has gone past it (`Fair.of_step`).
* **Progress.**  If lists are equal or have no key in common, not all the processes of one list give up
  (`Fair.exists_unblocked`), so that all its keys are there when they are done. -/

namespace Racing

variable {ι κ : Type}

/-- `adding seen rest`: the keys seen at the start and those still to be inserted; `blocked seen rest`: the
first key of the rest was taken. -/
inductive Phase (κ : Type)
  | waiting
  | adding (seen : Set κ) (rest : List κ)
  | blocked (seen : Set κ) (rest : List κ)

structure State (ι κ : Type) where
  present : Set κ
  phase : ι → Phase κ

/-- Process `i` enters a phase. -/
def State.enter [DecidableEq ι] (s : State ι κ) (i : ι) (p : Phase κ) : State ι κ :=
  { s with phase := Function.update s.phase i p }

inductive Step [DecidableEq ι] (want : ι → List κ) (s : State ι κ) : State ι κ → Prop
  | start (i : ι) (seen : Set κ) (h : s.phase i = .waiting) (hseen : ∀ k ∈ want i, k ∈ s.present → k ∈ seen) :
      Step want s (s.enter i (.adding seen (want i)))
  | add (i : ι) (seen : Set κ) (passed : List κ) (k : κ) (rest : List κ)
      (h : s.phase i = .adding seen (passed ++ k :: rest)) (hpassed : ∀ k ∈ passed, k ∈ seen) (hk : k ∉ seen)
      (hnew : k ∉ s.present) :
      Step want s ({ s with present := insert k s.present }.enter i (.adding seen rest))
  | block (i : ι) (seen : Set κ) (passed : List κ) (k : κ) (rest : List κ)
      (h : s.phase i = .adding seen (passed ++ k :: rest)) (hpassed : ∀ k ∈ passed, k ∈ seen) (hk : k ∉ seen)
      (htaken : k ∈ s.present) :
      Step want s (s.enter i (.blocked seen (k :: rest)))

/-! ### What a process has gone past -/

namespace Phase

/-- What was seen and what is left, once started. -/
def view : Phase κ → Option (Set κ × List κ)
  | waiting => none
  | adding seen rest | blocked seen rest => some (seen, rest)

/-- A process with this list has gone past the key. -/
def Past (list : List κ) (k : κ) (p : Phase κ) : Prop :=
  ∃ v front, p.view = some v ∧ list = front ++ v.2 ∧ k ∈ front

/-- What is known of a process with this list. -/
structure Fits (initial present : Set κ) (list : List κ) (p : Phase κ) : Prop where
  rest : ∀ v, p.view = some v → ∃ front, list = front ++ v.2 ∧ ∀ k ∈ front, k ∈ v.1 ∨ k ∈ present
  seen : ∀ v, p.view = some v → ∀ k ∈ list, k ∈ initial → k ∈ v.1
  blocked : ∀ seen rest, p = .blocked seen rest → ∃ k tail, rest = k :: tail ∧ k ∉ seen ∧ k ∈ present

theorem Fits.mono {initial present present' : Set κ} {list : List κ} {p : Phase κ}
    (h : Fits initial present list p) (hle : present ⊆ present') : Fits initial present' list p where
  rest := by
    intro v hv
    obtain ⟨front, hfront, hpast⟩ := h.rest v hv
    exact ⟨front, hfront, fun k hk => (hpast k hk).imp_right (hle ·)⟩
  seen := h.seen
  blocked := by
    intro seen rest hp
    obtain ⟨k, tail, hrest, hk, hin⟩ := h.blocked seen rest hp
    exact ⟨k, tail, hrest, hk, hle hin⟩

theorem fits_waiting {initial present : Set κ} {list : List κ} : Fits initial present list .waiting where
  rest _ h := nomatch h
  seen _ h := nomatch h
  blocked _ _ h := nomatch h

end Phase

/-- Every process fits, and the new keys were inserted by a process that has gone past them. -/
structure Fair (want : ι → List κ) (initial : Set κ) (s : State ι κ) : Prop where
  fits : ∀ i, (s.phase i).Fits initial s.present (want i)
  grown : initial ⊆ s.present
  inserted : ∀ k ∈ s.present, k ∈ initial ∨ ∃ i, (s.phase i).Past (want i) k

section rules

variable {want : ι → List κ} {initial : Set κ} {s s' : State ι κ}

/-- Nobody has started. -/
theorem fair_start {present : Set κ} : Fair want present ⟨present, fun _ : ι => .waiting⟩ where
  fits _ := Phase.fits_waiting
  grown := subset_rfl
  inserted _ hk := Or.inl hk

/-- What a process goes past it stays past, and so the new phase may replace the old one. -/
theorem Fair.enter [DecidableEq ι] (h : Fair want initial s) {i : ι} {p : Phase κ} {present : Set κ}
    (hle : s.present ⊆ present) (hp : p.Fits initial present (want i))
    (hkeep : ∀ k, (s.phase i).Past (want i) k → p.Past (want i) k)
    (hnew : ∀ k ∈ present, k ∈ s.present ∨ p.Past (want i) k) :
    Fair want initial ({ s with present }.enter i p) where
  fits j := by
    by_cases hj : j = i
    · subst hj
      simpa [State.enter] using hp
    · simpa [State.enter, hj] using (h.fits j).mono hle
  grown := h.grown.trans hle
  inserted k hk := by
    have hself : ({ s with present }.enter i p).phase i = p := Function.update_self _ _ _
    rcases hnew k hk with hold | hpast
    · rcases h.inserted k hold with hinitial | ⟨j, hj⟩
      · exact Or.inl hinitial
      · right
        by_cases hji : j = i
        · subst hji
          exact ⟨j, by rw [hself]; exact hkeep k hj⟩
        · refine ⟨j, ?_⟩
          show ((Function.update s.phase i p) j).Past (want j) k
          rwa [Function.update_of_ne hji]
    · exact Or.inr ⟨i, by rw [hself]; exact hpast⟩

theorem Fair.of_step [DecidableEq ι] (h : Fair want initial s) (hstep : Step want s s') :
    Fair want initial s' := by
  cases hstep with
  | start i seen hwaiting hseen =>
      refine h.enter subset_rfl ⟨?_, ?_, fun _ _ he => nomatch he⟩ ?_ fun k hk => Or.inl hk
      · intro v hv
        obtain rfl := Option.some.inj hv
        exact ⟨[], rfl, by simp⟩
      · intro v hv k hk hinitial
        obtain rfl := Option.some.inj hv
        exact hseen k hk (h.grown hinitial)
      · rintro k ⟨v, front, hv, -⟩
        rw [hwaiting] at hv
        exact nomatch hv
  | add i seen passed k rest hi hpassed hk hnew =>
      obtain ⟨front, hfront, hpast⟩ := (h.fits i).rest _ (congrArg Phase.view hi)
      have hlist : want i = (front ++ passed ++ [k]) ++ rest := by simpa using hfront
      refine h.enter (Set.subset_insert k _) ⟨?_, ?_, fun _ _ he => nomatch he⟩ ?_ ?_
      · intro v hv
        obtain rfl := Option.some.inj hv
        refine ⟨front ++ passed ++ [k], hlist, fun x hx => ?_⟩
        rcases List.mem_append.mp hx with hx | hx
        · rcases List.mem_append.mp hx with hx | hx
          · exact (hpast x hx).imp_right (Set.mem_insert_of_mem k)
          · exact Or.inl (hpassed x hx)
        · exact Or.inr (by rw [List.mem_singleton.mp hx]; exact Set.mem_insert k _)
      · intro v hv
        obtain rfl := Option.some.inj hv
        exact (h.fits i).seen (seen, passed ++ k :: rest) (congrArg Phase.view hi)
      · rintro x ⟨v, front', hv, hv', hx⟩
        rw [hi] at hv
        obtain rfl := Option.some.inj hv
        have hsame : front' = front := List.append_cancel_right (hv'.symm.trans hfront)
        exact ⟨_, _, rfl, hlist, by simp [hsame ▸ hx]⟩
      · intro x hx
        rcases hx with rfl | hx
        · exact Or.inr ⟨_, _, rfl, hlist, by simp⟩
        · exact Or.inl hx
  | block i seen passed k rest hi hpassed hk htaken =>
      obtain ⟨front, hfront, hpast⟩ := (h.fits i).rest _ (congrArg Phase.view hi)
      have hlist : want i = (front ++ passed) ++ k :: rest := by simpa using hfront
      refine h.enter subset_rfl ⟨?_, ?_, ?_⟩ ?_ fun x hx => Or.inl hx
      · intro v hv
        obtain rfl := Option.some.inj hv
        refine ⟨front ++ passed, hlist, fun x hx => ?_⟩
        rcases List.mem_append.mp hx with hx | hx
        · exact hpast x hx
        · exact Or.inl (hpassed x hx)
      · intro v hv
        obtain rfl := Option.some.inj hv
        exact (h.fits i).seen (seen, passed ++ k :: rest) (congrArg Phase.view hi)
      · intro seen' rest' he
        injection he with hseen hrest
        exact ⟨k, rest, hrest.symm, hseen ▸ hk, htaken⟩
      · rintro x ⟨v, front', hv, hv', hx⟩
        rw [hi] at hv
        obtain rfl := Option.some.inj hv
        have hsame : front' = front := List.append_cancel_right (hv'.symm.trans hfront)
        exact ⟨_, _, rfl, hlist, by simp [hsame ▸ hx]⟩

/-- **Someone gets through**: of the processes with one list, not all that have started are blocked.  A key
that blocks one of them was inserted by another one, which is further. -/
theorem Fair.exists_unblocked (h : Fair want initial s) (hnodup : ∀ i, (want i).Nodup)
    (hapart : ∀ i j k, k ∈ want i → k ∈ want j → want i = want j) {i : ι} {v : Set κ × List κ}
    (hi : (s.phase i).view = some v) : ∃ j seen rest, want j = want i ∧ s.phase j = .adding seen rest := by
  -- the induction is on what is left to the process
  induction hn : v.2.length using Nat.strong_induction_on generalizing i v with
  | _ n ih =>
      cases hp : s.phase i with
      | waiting =>
          rw [hp] at hi
          exact nomatch hi
      | adding seen rest => exact ⟨i, seen, rest, rfl, hp⟩
      | blocked seen rest =>
          rw [hp] at hi
          obtain rfl := Option.some.inj hi
          obtain ⟨k, tail, hrest, hk, hin⟩ := (h.fits i).blocked seen rest hp
          obtain ⟨front, hfront, -⟩ := (h.fits i).rest (seen, rest) (by rw [hp]; rfl)
          have hwant : k ∈ want i := by rw [hfront, hrest]; simp
          have hlater : k ∉ initial := fun hinitial =>
            hk ((h.fits i).seen (seen, rest) (by rw [hp]; rfl) k hwant hinitial)
          obtain ⟨j, w, front', hj, hfront', hkj⟩ := (h.inserted k hin).resolve_left hlater
          have hwantj : k ∈ want j := by rw [hfront']; exact List.mem_append_left _ hkj
          have hsame : want j = want i := hapart j i k hwantj hwant
          have hless : w.2.length < n := by
            -- `k` stands before the rest of `j`, and at the head of the rest of `i`
            by_contra hmore
            have hsplit : front' ++ w.2 = front ++ k :: tail := by rw [← hfront', hsame, hfront, hrest]
            have hlen := congrArg List.length hsplit
            have hn' : n = tail.length + 1 := by rw [← hn, hrest]; rfl
            have hshort : front'.length ≤ front.length := by
              simp only [List.length_append, List.length_cons] at hlen
              omega
            have hpre : front' <+: front := List.prefix_of_prefix_length_le
              ⟨w.2, hsplit⟩ (List.prefix_append front _) hshort
            have hnd : (front ++ k :: tail).Nodup := by rw [← hrest, ← hfront]; exact hnodup i
            exact (List.nodup_append.mp hnd).2.2 k (hpre.subset hkj) k List.mem_cons_self rfl
          obtain ⟨j', seen', rest', hj', hphase⟩ := ih w.2.length hless hj rfl
          exact ⟨j', seen', rest', hj'.trans hsame, hphase⟩

/-- A process that is done has seen each of its keys, or the key is there. -/
theorem Fair.present_of_done (h : Fair want initial s) {i : ι} {seen : Set κ} {rest : List κ}
    (hi : s.phase i = .adding seen rest) (hdone : ∀ k ∈ rest, k ∈ seen) :
    ∀ k ∈ want i, k ∈ seen ∨ k ∈ s.present := by
  intro k hk
  obtain ⟨front, hfront, hpast⟩ := (h.fits i).rest (seen, rest) (by rw [hi]; rfl)
  rw [hfront] at hk
  rcases List.mem_append.mp hk with hk | hk
  · exact hpast k hk
  · exact Or.inl (hdone k hk)

end rules

end Racing
