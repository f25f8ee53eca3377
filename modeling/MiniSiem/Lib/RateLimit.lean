import Mathlib.Tactic

/-! # Admissions within windows of time

What a rate limiter has admitted, as a list of times or of times with costs.  Its steps come at
non-decreasing times (`foldl_clock`).

* **Counts.**  `AtMost`: no half-open interval of the length of the window holds more admissions than
  the limit; `atMost_append_iff` admits one more exactly when fewer than the limit are recent, and
  `AtMost.mul_length_le` bounds the admissions of any period.
* **Buckets.**  `Covers` bounds what a bucket holds from below; one that fills up once in each window
  has a token for each admission while no window holds more than the limit (`Covers.token`).
  `Spends` bounds what a bucket holds and has admitted from above (`Spends.count_le`).
* **Costs.**  `recent` are the admissions of the preceding window.  `chain` are those linked to the
  present by gaps that are shorter than the window; they contain the recent ones
  (`recent_chain`), and cost no more exactly when the others are free (`total_le_recent_iff`). -/

namespace RateLimit

section clock

variable {σ ε : Type} {step : σ → ε → σ} {time : ε → ℤ} {J : ℤ → σ → Prop}

/-- What every step keeps at its time holds after steps at non-decreasing times. -/
theorem foldl_clock (hstep : ∀ last s e, J last s → last ≤ time e → J (time e) (step s e))
    {es : List ε} {now : ℤ} (hsorted : (es.map time ++ [now]).Pairwise (· ≤ ·)) {s : σ}
    (hstart : ∀ last, J last s) : ∃ last ≤ now, J last (es.foldl step s) := by
  have hrun : ∀ (es : List ε) (s : σ) (last : ℤ), (es.map time ++ [now]).Pairwise (· ≤ ·) →
      (∀ t ∈ es.map time ++ [now], last ≤ t) → J last s → ∃ last ≤ now, J last (es.foldl step s) := by
    intro es
    induction es with
    | nil => exact fun s last _ hlast h => ⟨last, hlast now List.mem_cons_self, h⟩
    | cons e es ih =>
        intro s last hsorted hlast h
        obtain ⟨hfirst, hrest⟩ := List.pairwise_cons.mp hsorted
        exact ih _ (time e) hrest hfirst (hstep last s e h (hlast (time e) List.mem_cons_self))
  obtain ⟨first, hfirst⟩ := (es.map time ++ [now]).toFinset.bddBelow
  exact hrun es s first hsorted (fun t ht => hfirst (List.mem_toFinset.mpr ht)) (hstart first)

theorem foldl_sorted (hstep : ∀ last s e, J last s → last ≤ time e → J (time e) (step s e))
    {es : List ε} (hsorted : (es.map time).Pairwise (· ≤ ·)) {s : σ} (hstart : ∀ last, J last s) :
    ∃ last, J last (es.foldl step s) := by
  obtain ⟨now, hnow⟩ := (es.map time).toFinset.bddAbove
  have hsorted' : (es.map time ++ [now]).Pairwise (· ≤ ·) := by
    refine List.pairwise_append.mpr ⟨hsorted, List.pairwise_singleton _ _, fun t ht u hu => ?_⟩
    rw [List.mem_singleton.mp hu]
    exact hnow (List.mem_toFinset.mpr ht)
  obtain ⟨last, -, h⟩ := foldl_clock hstep hsorted' hstart
  exact ⟨last, h⟩

end clock

section counts

variable {window : ℤ} {limit : ℕ}

/-- The admissions within the interval of the window's length from `start` on. -/
def within (window start : ℤ) (times : List ℤ) : List ℤ :=
  times.filter fun t => start ≤ t ∧ t < start + window

/-- No interval of the window's length holds more admissions than the limit. -/
def AtMost (window : ℤ) (limit : ℕ) (times : List ℤ) : Prop :=
  ∀ start, (within window start times).length ≤ limit

theorem AtMost.nil : AtMost window limit [] := fun _ => Nat.zero_le _

theorem AtMost.append {times : List ℤ} {now : ℤ} (h : AtMost window limit times)
    (hroom : (times.filter fun t => now - window < t).length < limit) :
    AtMost window limit (times ++ [now]) := by
  intro start
  have hbefore := h start
  unfold within at hbefore ⊢
  rw [List.filter_append, List.length_append]
  by_cases hnow : start ≤ now ∧ now < start + window
  · -- every admission of the interval is recent
    have hrecent : (times.filter fun t => start ≤ t ∧ t < start + window).length ≤
        (times.filter fun t => now - window < t).length := by
      apply List.Sublist.length_le
      apply List.monotone_filter_right
      intro t ht
      simp only [decide_eq_true_eq] at ht ⊢
      omega
    rw [List.filter_cons_of_pos (by simpa using hnow), List.filter_nil, List.length_singleton]
    omega
  · rw [List.filter_cons_of_neg (by simpa using hnow), List.filter_nil, List.length_nil]
    exact hbefore

theorem AtMost.sublist {times fewer : List ℤ} (h : AtMost window limit times)
    (hsub : fewer.Sublist times) : AtMost window limit fewer := fun start =>
  (hsub.filter _).length_le.trans (h start)

theorem atMost_of_nonpos (h : window ≤ 0) (times : List ℤ) : AtMost window limit times := by
  intro start
  have hnone : within window start times = [] := by
    unfold within
    rw [List.filter_eq_nil_iff]
    intro t _ ht
    have hin := of_decide_eq_true ht
    omega
  rw [hnone]
  exact Nat.zero_le _

/-- The next admission has to find fewer than the limit among the recent ones. -/
theorem atMost_append_iff {times : List ℤ} {now : ℤ} (hwindow : 0 < window)
    (hle : ∀ t ∈ times, t ≤ now) :
    AtMost window limit (times ++ [now]) ↔
      AtMost window limit times ∧ (times.filter fun t => now - window < t).length < limit := by
  constructor
  · intro h
    refine ⟨h.sublist (List.sublist_append_left _ _), ?_⟩
    have hlast := h (now - window + 1)
    have hrecent : within window (now - window + 1) times =
        times.filter fun t => now - window < t := by
      refine List.filter_congr fun t ht => ?_
      have := hle t ht
      rw [decide_eq_decide]
      omega
    have hself : within window (now - window + 1) [now] = [now] :=
      List.filter_cons_of_pos (decide_eq_true ⟨by omega, by omega⟩)
    unfold within at hlast hrecent hself
    rw [List.filter_append, List.length_append, hrecent, hself, List.length_singleton] at hlast
    omega
  · rintro ⟨h, hroom⟩
    exact h.append hroom

theorem atMost_zero_iff {times : List ℤ} (hwindow : 0 < window) :
    AtMost window 0 times ↔ times = [] := by
  constructor
  · intro h
    rw [List.eq_nil_iff_forall_not_mem]
    intro t ht
    have hmem : t ∈ within window t times :=
      List.mem_filter.mpr ⟨ht, decide_eq_true ⟨le_rfl, by omega⟩⟩
    have hlength := List.length_pos_of_mem hmem
    have := h t
    omega
  · rintro rfl
    exact AtMost.nil

/-- Several windows in a row hold at most the limit each. -/
theorem AtMost.length_windows {times : List ℤ} (h : AtMost window limit times) (start : ℤ) (k : ℕ) :
    (times.filter fun t => start ≤ t ∧ t < start + k * window).length ≤ k * limit := by
  induction k with
  | zero =>
      rw [List.filter_eq_nil_iff.mpr]
      · exact Nat.zero_le _
      · intro t _ ht
        have hin := of_decide_eq_true ht
        push_cast at hin
        omega
  | succ k ih =>
      have hsplit := times.countP_eq_countP_filter_add
        (fun t => decide (start ≤ t ∧ t < start + (k + 1 : ℕ) * window))
        (fun t => decide (t < start + k * window))
      have hfront : (times.filter fun t => t < start + k * window).countP
          (fun t => start ≤ t ∧ t < start + (k + 1 : ℕ) * window) ≤
            (times.filter fun t => start ≤ t ∧ t < start + k * window).length := by
        rw [List.countP_filter, List.countP_eq_length_filter]
        apply List.Sublist.length_le
        apply List.monotone_filter_right
        intro t ht
        simp only [Bool.and_eq_true, decide_eq_true_eq] at ht ⊢
        exact ⟨ht.1.1, ht.2⟩
      have hback : (times.filter fun t => !decide (t < start + k * window)).countP
          (fun t => start ≤ t ∧ t < start + (k + 1 : ℕ) * window) ≤
            (within window (start + k * window) times).length := by
        rw [List.countP_filter, List.countP_eq_length_filter]
        apply List.Sublist.length_le
        apply List.monotone_filter_right
        intro t ht
        simp only [Bool.and_eq_true, decide_eq_true_eq, Bool.not_eq_true', decide_eq_false_iff_not]
          at ht ⊢
        obtain ⟨⟨-, hlt⟩, hge⟩ := ht
        push_cast at hlt
        exact ⟨by omega, by linarith⟩
      have hlast := h (start + k * window)
      rw [← List.countP_eq_length_filter, hsplit, Nat.succ_mul]
      omega

/-- Admissions between two times are at most the limit for each window begun. -/
theorem AtMost.mul_length_le {times : List ℤ} {first last : ℤ} (h : AtMost window limit times)
    (hwindow : 0 < window) (hle : first ≤ last) (htimes : ∀ t ∈ times, first ≤ t ∧ t ≤ last) :
    window * times.length ≤ limit * (last - first + window) := by
  have hquot : 0 ≤ (last - first) / window := Int.ediv_nonneg (by omega) hwindow.le
  obtain ⟨k, hk⟩ := Int.eq_ofNat_of_zero_le hquot
  have hbegun : window * (k + 1) ≤ last - first + window := by
    have := Int.mul_ediv_self_le (x := last - first) (k := window) hwindow.ne'
    rw [hk] at this
    linarith
  have hafter : last < first + (k + 1 : ℕ) * window := by
    have := Int.lt_mul_ediv_self_add (x := last - first) hwindow
    rw [hk] at this
    push_cast
    linarith
  have hall : (times.filter fun t => first ≤ t ∧ t < first + (k + 1 : ℕ) * window) = times := by
    rw [List.filter_eq_self]
    intro t ht
    have := htimes t ht
    exact decide_eq_true ⟨this.1, by omega⟩
  have hlength : (times.length : ℤ) ≤ (k + 1 : ℕ) * limit := by
    have := h.length_windows first (k + 1)
    rw [hall] at this
    exact_mod_cast this
  calc window * times.length
      ≤ window * ((k + 1 : ℕ) * limit) := mul_le_mul_of_nonneg_left hlength hwindow.le
    _ = limit * (window * (k + 1)) := by push_cast; ring
    _ ≤ limit * (last - first + window) := mul_le_mul_of_nonneg_left hbegun (Int.natCast_nonneg _)

end counts

section bucket

/-- A bucket is full, or it holds at least what has flowed in since it was full last, less one token
for each admission since. -/
def Covers (capacity rate : ℚ) (times : List ℤ) (now : ℤ) (tokens : ℚ) : Prop :=
  capacity ≤ tokens ∨ ∃ (front : List ℤ) (first : ℤ) (rest : List ℤ), times = front ++ first :: rest ∧
    capacity + rate * (now - first) - (rest.length + 1) ≤ tokens

variable {capacity rate tokens : ℚ} {times : List ℤ} {now : ℤ}

theorem Covers.full (times : List ℤ) (now : ℤ) (h : capacity ≤ tokens) :
    Covers capacity rate times now tokens := Or.inl h

/-- What flows in until later is either held or spills over. -/
theorem Covers.refill (h : Covers capacity rate times now tokens) {later : ℤ} {refilled : ℚ}
    (hrefill : capacity ≤ refilled ∨ tokens + rate * (later - now) ≤ refilled)
    (hrate : 0 ≤ rate) (hle : now ≤ later) : Covers capacity rate times later refilled := by
  have hflow : 0 ≤ rate * ((later : ℚ) - now) :=
    mul_nonneg hrate (sub_nonneg.mpr (by exact_mod_cast hle))
  rcases hrefill with hfull | hheld
  · exact Or.inl hfull
  · rcases h with hfull | ⟨front, first, rest, hsplit, htokens⟩
    · exact Or.inl (by linarith)
    · exact Or.inr ⟨front, first, rest, hsplit, by linarith⟩

/-- An admission takes a token. -/
theorem Covers.take (h : Covers capacity rate times now tokens) :
    Covers capacity rate (times ++ [now]) now (tokens - 1) := by
  rcases h with hfull | ⟨front, first, rest, hsplit, htokens⟩
  · refine Or.inr ⟨times, now, [], rfl, ?_⟩
    rw [sub_self, mul_zero, add_zero, List.length_nil, Nat.cast_zero, zero_add]
    linarith
  · refine Or.inr ⟨front, first, rest ++ [now], by rw [hsplit, List.append_assoc]; rfl, ?_⟩
    rw [List.length_append, List.length_singleton]
    push_cast
    linarith

/-- A bucket that fills up once in each window has a token for what comes in time. -/
theorem Covers.token {window : ℤ} {limit : ℕ} (hwindow : 0 < window) (hlimit : 0 < limit)
    (h : Covers limit ((limit : ℚ) / window) times now tokens)
    (hsorted : (times ++ [now]).Pairwise (· ≤ ·)) (hbound : AtMost window limit (times ++ [now])) :
    1 ≤ tokens := by
  rcases h with hfull | ⟨front, first, rest, rfl, htokens⟩
  · have hone : (1 : ℚ) ≤ limit := by exact_mod_cast hlimit
    exact hone.trans hfull
  · rw [List.append_assoc, List.cons_append] at hsorted hbound
    obtain ⟨-, hsorted, -⟩ := List.pairwise_append.mp hsorted
    obtain ⟨hfirst, hrest⟩ := List.pairwise_cons.mp hsorted
    obtain ⟨-, -, hlast⟩ := List.pairwise_append.mp hrest
    have hle : first ≤ now := hfirst now (List.mem_append_right _ List.mem_cons_self)
    have htimes : ∀ t ∈ first :: (rest ++ [now]), first ≤ t ∧ t ≤ now := by
      intro t ht
      rcases List.mem_cons.mp ht with rfl | ht
      · exact ⟨le_rfl, hle⟩
      · refine ⟨hfirst t ht, ?_⟩
        rcases List.mem_append.mp ht with ht | ht
        · exact hlast t ht now List.mem_cons_self
        · exact (List.mem_singleton.mp ht).le
    have hcount := (hbound.sublist (List.sublist_append_right front _)).mul_length_le hwindow hle htimes
    rw [List.length_cons, List.length_append, List.length_singleton] at hcount
    have hcount' : (window : ℚ) * (rest.length + 2) ≤ limit * (now - first + window) := by
      have : (window * ((rest.length + 1 + 1 : ℕ) : ℤ) : ℚ) ≤ limit * (now - first + window) := by
        exact_mod_cast hcount
      push_cast at this
      linarith
    have hpositive : (0 : ℚ) < window := by exact_mod_cast hwindow
    have hflow : (rest.length + 2 : ℚ) ≤ limit + (limit : ℚ) / window * (now - first) := by
      rw [← mul_le_mul_iff_right₀ hpositive]
      calc (window : ℚ) * (rest.length + 2) ≤ limit * (now - first + window) := hcount'
        _ = window * (limit + limit / window * (now - first)) := by field_simp; ring
    linarith

/-- Since `start` nothing was admitted, or the admissions and the tokens that are left come to no more than
the capacity and what has flowed in. -/
def Spends (capacity rate start : ℚ) (now last : ℤ) (tokens : ℚ) (n : ℕ) : Prop :=
  n = 0 ∨ n + max tokens 0 ≤ capacity + ((min last now : ℤ) - start) * rate

variable {start : ℚ} {last : ℤ} {n : ℕ}

theorem Spends.later (h : Spends capacity rate start now last tokens n) (hrate : 0 ≤ rate) {later : ℤ}
    (hle : now ≤ later) : Spends capacity rate start later last tokens n := by
  refine h.imp_right fun h => h.trans ?_
  have hmin : ((min last now : ℤ) : ℚ) ≤ (min last later : ℤ) := by
    exact_mod_cast min_le_min_left last hle
  gcongr

/-- A bucket that was filled at `last` and is filled again. -/
theorem Spends.refill (h : Spends capacity rate start now last tokens n) (hrate : 0 ≤ rate) {later : ℤ}
    (hlast : last ≤ later) {refilled : ℚ} (hrefill : refilled ≤ tokens + rate * (later - last)) :
    Spends capacity rate start later later refilled n := by
  refine h.imp_right fun h => ?_
  have hflow : 0 ≤ rate * ((later : ℚ) - last) :=
    mul_nonneg hrate (sub_nonneg.mpr (by exact_mod_cast hlast))
  have hheld : max refilled 0 ≤ max tokens 0 + rate * (later - last) :=
    max_le (hrefill.trans (by linarith [le_max_left tokens 0])) (by linarith [le_max_right tokens 0])
  have hmin : ((min last now : ℤ) : ℚ) ≤ last := by exact_mod_cast min_le_left last now
  have hscaled : ((min last now : ℤ) - start) * rate ≤ (last - start) * rate := by gcongr
  rw [min_self]
  linarith

/-- Tokens are taken away. -/
theorem Spends.fewer (h : Spends capacity rate start now last tokens n) {left : ℚ}
    (hleft : left ≤ max tokens 0) : Spends capacity rate start now last left n := by
  refine h.imp_right fun h => le_trans ?_ h
  linarith [max_le hleft (le_max_right tokens 0)]

/-- An admission after `start` takes a token. -/
theorem Spends.take (h : Spends capacity rate start now last tokens n) (hrate : 0 ≤ rate)
    (htoken : 1 ≤ tokens) (hfull : tokens ≤ capacity) (hafter : start ≤ now) (hlast : now ≤ last) :
    Spends capacity rate start now last (tokens - 1) (n + 1) := by
  right
  rw [min_eq_right hlast, max_eq_left (by linarith)]
  push_cast
  rcases h with rfl | h
  · have hflow : 0 ≤ ((now : ℚ) - start) * rate := mul_nonneg (by linarith) hrate
    push_cast
    linarith
  · rw [min_eq_right hlast, max_eq_left (by linarith)] at h
    linarith

/-- What was admitted until now came in, or was there at the start. -/
theorem Spends.count_le (h : Spends capacity rate start now last tokens n) (hrate : 0 ≤ rate)
    (hcapacity : 0 ≤ capacity) {finish : ℚ} (hle : start ≤ finish) (hnow : now ≤ finish) :
    n ≤ capacity + (finish - start) * rate := by
  rcases h with rfl | h
  · have hflow : 0 ≤ (finish - start) * rate := mul_nonneg (by linarith) hrate
    push_cast
    linarith
  · have hmin : ((min last now : ℤ) : ℚ) ≤ finish :=
      le_trans (by exact_mod_cast min_le_right last now) hnow
    have hscaled : ((min last now : ℤ) - start) * rate ≤ (finish - start) * rate := by gcongr
    linarith [le_max_right tokens 0]

end bucket

section costs

variable {window : ℤ}

def total (admitted : List (ℤ × ℕ)) : ℕ := (admitted.map (·.2)).sum

@[simp] theorem total_nil : total [] = 0 := rfl

@[simp] theorem total_cons (a : ℤ × ℕ) (as : List (ℤ × ℕ)) : total (a :: as) = a.2 + total as := rfl

theorem total_eq_zero_iff (admitted : List (ℤ × ℕ)) :
    total admitted = 0 ↔ ∀ a ∈ admitted, a.2 = 0 := by
  unfold total
  rw [List.sum_eq_zero_iff, List.forall_mem_map]

theorem total_filter_le (p : ℤ × ℕ → Bool) (admitted : List (ℤ × ℕ)) :
    total (admitted.filter p) ≤ total admitted :=
  (List.filter_sublist.map _).sum_le_sum fun _ _ => Nat.zero_le _

/-- The admissions of the window before `now`. -/
def recent (window now : ℤ) (admitted : List (ℤ × ℕ)) : List (ℤ × ℕ) :=
  admitted.filter fun a => now < a.1 + window

/-- The admissions that are linked to `now` by gaps shorter than the window, the newest first. -/
def chain (window : ℤ) : ℤ → List (ℤ × ℕ) → List (ℤ × ℕ)
  | _, [] => []
  | now, a :: as => if now < a.1 + window then a :: chain window a.1 as else []

/-- The newest admission comes first, and none is later than `now`. -/
def NewestFirst : ℤ → List (ℤ × ℕ) → Prop
  | _, [] => True
  | now, a :: as => a.1 ≤ now ∧ NewestFirst a.1 as

theorem NewestFirst.le {now : ℤ} {admitted : List (ℤ × ℕ)} (h : NewestFirst now admitted)
    {a : ℤ × ℕ} (ha : a ∈ admitted) : a.1 ≤ now := by
  induction admitted generalizing now with
  | nil => exact (List.not_mem_nil ha).elim
  | cons b as ih =>
      obtain ⟨hb, has⟩ := h
      rcases List.mem_cons.mp ha with rfl | ha
      · exact hb
      · exact (ih has ha).trans hb

theorem NewestFirst.later {now later : ℤ} {admitted : List (ℤ × ℕ)} (h : NewestFirst now admitted)
    (hle : now ≤ later) : NewestFirst later admitted := by
  cases admitted with
  | nil => trivial
  | cons a as => exact ⟨h.1.trans hle, h.2⟩

/-- Every recent admission is linked to the present. -/
theorem recent_chain (window : ℤ) {since now : ℤ} {admitted : List (ℤ × ℕ)} (h : NewestFirst since admitted)
    (hle : since ≤ now) :
    recent window now (chain window since admitted) = recent window now admitted := by
  induction admitted generalizing since with
  | nil => rfl
  | cons a as ih =>
      obtain ⟨ha, has⟩ := h
      have hrest := ih has (ha.trans hle)
      unfold recent at hrest ⊢
      unfold chain
      split_ifs with hgap
      · rw [List.filter_cons, List.filter_cons, hrest]
      · -- the newest one is not recent, so none is
        symm
        rw [List.filter_nil, List.filter_eq_nil_iff]
        intro b hb
        have hself : NewestFirst a.1 (a :: as) := ⟨le_rfl, has⟩
        have hb' : b.1 ≤ a.1 := hself.le hb
        rw [decide_eq_true_eq]
        omega

/-- What the admissions within the interval of the window's length from `start` on cost. -/
def costWithin (window start : ℤ) (admitted : List (ℤ × ℕ)) : ℕ :=
  total (admitted.filter fun a => start ≤ a.1 ∧ a.1 < start + window)

theorem total_filter_mono {p q : ℤ × ℕ → Bool} {admitted : List (ℤ × ℕ)}
    (h : ∀ a ∈ admitted, p a = true → q a = true) :
    total (admitted.filter p) ≤ total (admitted.filter q) := by
  have hsame : (admitted.filter q).filter p = admitted.filter p := by
    rw [List.filter_filter]
    refine List.filter_congr fun a ha => ?_
    cases hp : p a with
    | false => rfl
    | true => rw [h a ha hp]; rfl
  rw [← hsame]
  exact total_filter_le p _

/-- An admission that finds room for its cost beside the recent ones exceeds no interval. -/
theorem costWithin_cons_le {limit : ℕ} {a : ℤ × ℕ} {as : List (ℤ × ℕ)} (start : ℤ)
    (h : costWithin window start as ≤ limit)
    (hroom : total (recent window a.1 (a :: as)) ≤ limit) :
    costWithin window start (a :: as) ≤ limit := by
  unfold costWithin at h ⊢
  by_cases hin : start ≤ a.1 ∧ a.1 < start + window
  · -- what else is in the interval is recent
    refine (total_filter_mono fun b _ hb => ?_).trans hroom
    have hb' := of_decide_eq_true hb
    exact decide_eq_true (by omega)
  · rw [List.filter_cons_of_neg (by simpa using hin)]
    exact h

/-- The linked admissions cost as much as the recent ones exactly when those before are free. -/
theorem total_le_recent_iff (window now : ℤ) (admitted : List (ℤ × ℕ)) :
    total admitted ≤ total (recent window now admitted) ↔
      ∀ a ∈ admitted, 0 < a.2 → now < a.1 + window := by
  induction admitted with
  | nil => simp [recent]
  | cons a as ih =>
      have hle : total (recent window now as) ≤ total as := total_filter_le _ as
      unfold recent at *
      rw [List.forall_mem_cons, ← ih, List.filter_cons, total_cons]
      by_cases hrecent : now < a.1 + window
      · rw [if_pos (decide_eq_true hrecent), total_cons]
        constructor
        · intro h
          exact ⟨fun _ => hrecent, by omega⟩
        · rintro ⟨-, h⟩
          omega
      · rw [if_neg (by simpa using hrecent)]
        constructor
        · intro h
          exact ⟨fun hpos => by omega, by omega⟩
        · rintro ⟨hfree, h⟩
          have hzero : a.2 = 0 := by
            by_contra hne
            exact hrecent (hfree (Nat.pos_of_ne_zero hne))
          omega

end costs

end RateLimit
