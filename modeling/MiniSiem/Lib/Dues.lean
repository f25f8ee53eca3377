import MiniSiem.Lib.Pool

/-! # What programs still add to an account

A command adds a known amount to an account.  A program owes the sum of what its remaining commands
add, whatever the replies among the possible ones.

* **Dues.**  `Owes posts p n`: from here on the program adds `n`; a finished program owes nothing
  (`owes_ret`), and dues add up along a sequence of programs (`Owes.bind`).
* **Balance.**  While programs run beside each other, the account and what all of them owe stay the same
  in sum (`balance_step`, `balance_run`); when all have finished, the account holds the sum of the dues
  they began with (`balance_final`). -/

namespace Atomic

variable {ι Cmd Env α β σ : Type} {Reply : Cmd → Type}

namespace Prog

section owes

variable (possible : (c : Cmd) → Reply c → Prop) (posts : Cmd → ℤ)

/-- With possible replies only, the commands of the program add `n`. -/
def Owes : Prog Cmd Reply α → ℤ → Prop
  | ret _, n => n = 0
  | call c k, n => ∀ r, possible c r → (k r).Owes (n - posts c)

variable {possible posts}

theorem owes_ret (a : α) : (ret a : Prog Cmd Reply α).Owes possible posts 0 := rfl

theorem owes_call {c : Cmd} {k : Reply c → Prog Cmd Reply α} {n : ℤ}
    (h : ∀ r, possible c r → (k r).Owes possible posts n) :
    (call c k).Owes possible posts (posts c + n) := by
  intro r hr
  rw [add_sub_cancel_left]
  exact h r hr

theorem Owes.bind {p : Prog Cmd Reply α} {f : α → Prog Cmd Reply β} {n m : ℤ}
    (hp : p.Owes possible posts n) (hf : ∀ a, (f a).Owes possible posts m) :
    (p.bind f).Owes possible posts (n + m) := by
  induction p generalizing n with
  | ret a =>
      obtain rfl : n = 0 := hp
      rw [zero_add]
      exact hf a
  | call c k ih =>
      intro r hr
      rw [show n + m - posts c = n - posts c + m by ring]
      exact ih r (hp r hr)

/-- Where nothing is taken away, no program owes less than nothing. -/
theorem Owes.nonneg (hposts : ∀ c, 0 ≤ posts c) (hreply : ∀ c, ∃ r, possible c r)
    {p : Prog Cmd Reply α} {n : ℤ} (h : p.Owes possible posts n) : 0 ≤ n := by
  induction p generalizing n with
  | ret a => exact (show n = 0 from h).ge
  | call c k ih =>
      obtain ⟨r, hr⟩ := hreply c
      have hrest := ih r (h r hr)
      have hnow := hposts c
      omega

end owes

end Prog

namespace Pool

variable [DecidableEq ι] {exec : Env → (c : Cmd) → σ → Reply c × σ}
  {possible : (c : Cmd) → Reply c → Prop} {posts : Cmd → ℤ} {value : σ → ℤ}

/-- The program that moves gets a possible reply, and the account what the command adds. -/
def Posts (exec : Env → (c : Cmd) → σ → Reply c × σ) (possible : (c : Cmd) → Reply c → Prop)
    (posts : Cmd → ℤ) (value : σ → ℤ) (s : Pool ι Cmd Reply α σ) (e : ι × Env) : Prop :=
  ∀ c, (s.progs e.1).next = some c → possible c (exec e.2 c s.store).1 ∧
    value (exec e.2 c s.store).2 = value s.store + posts c

variable [Fintype ι]

/-- The account and the dues of all programs make up the total. -/
def Balance (possible : (c : Cmd) → Reply c → Prop) (posts : Cmd → ℤ) (value : σ → ℤ) (total : ℤ)
    (s : Pool ι Cmd Reply α σ) : Prop :=
  ∃ dues : ι → ℤ, (∀ i, (s.progs i).Owes possible posts (dues i)) ∧
    value s.store + ∑ i, dues i = total

theorem balance_step {total : ℤ} {s : Pool ι Cmd Reply α σ} {e : ι × Env}
    (h : Balance possible posts value total s) (hposts : Posts exec possible posts value s e) :
    Balance possible posts value total (step exec s e) := by
  obtain ⟨dues, howes, htotal⟩ := h
  cases hp : s.progs e.1 with
  | ret a =>
      have hnext : (s.progs e.1).next = none := by
        rw [hp]
        rfl
      rw [step_finished hnext]
      exact ⟨dues, howes, htotal⟩
  | call c k =>
      have hnext : (s.progs e.1).next = some c := by
        rw [hp]
        rfl
      obtain ⟨hreply, hvalue⟩ := hposts c hnext
      refine ⟨Function.update dues e.1 (dues e.1 - posts c), fun i => ?_, ?_⟩
      · by_cases hi : i = e.1
        · subst hi
          rw [step_progs_self, Function.update_self, hp, Prog.step_call]
          have hcall := howes e.1
          rw [hp] at hcall
          exact hcall _ hreply
        · rw [step_progs_of_ne hi, Function.update_of_ne hi]
          exact howes i
      · rw [step_store hnext, hvalue, Finset.sum_update_of_mem (Finset.mem_univ e.1)]
        rw [← Finset.add_sum_erase _ dues (Finset.mem_univ e.1)] at htotal
        rw [← htotal, Finset.erase_eq]
        ring

omit [DecidableEq ι] in
/-- Where nothing is taken away, the next command of a program does not lead beyond the total. -/
theorem Balance.posts_le {total : ℤ} {s : Pool ι Cmd Reply α σ}
    (h : Balance possible posts value total s) (hposts : ∀ c, 0 ≤ posts c)
    (hreply : ∀ c, ∃ r, possible c r) {i : ι} {c : Cmd} (hnext : (s.progs i).next = some c) :
    value s.store + posts c ≤ total := by
  obtain ⟨dues, howes, htotal⟩ := h
  have hdues : ∀ j, 0 ≤ dues j := fun j => (howes j).nonneg hposts hreply
  have hdue : posts c ≤ dues i := by
    have hi := howes i
    cases hp : s.progs i with
    | ret a =>
        rw [hp] at hnext
        cases hnext
    | call c' k =>
        rw [hp] at hnext hi
        obtain rfl := Option.some.inj hnext
        obtain ⟨r, hr⟩ := hreply c'
        have hrest := (hi r hr).nonneg hposts hreply
        omega
  have hsum := Finset.single_le_sum (fun j _ => hdues j) (Finset.mem_univ i)
  omega

/-- Every step of a run keeps the balance, as long as it posts what its command adds. -/
theorem balance_run {J : Pool ι Cmd Reply α σ → Prop} {ok : Pool ι Cmd Reply α σ → ι × Env → Prop}
    {total : ℤ} (hJ : ∀ s e, J s → ok s e → J (step exec s e))
    (hposts : ∀ s e, J s → ok s e → Balance possible posts value total s →
      Posts exec possible posts value s e)
    {es : List (ι × Env)} {s : Pool ι Cmd Reply α σ} (hs : J s) (hok : Meets exec ok es s)
    (h : Balance possible posts value total s) :
    J (run exec es s) ∧ Balance possible posts value total (run exec es s) := by
  induction es generalizing s with
  | nil => exact ⟨hs, h⟩
  | cons e es ih => exact ih (hJ s e hs hok.1) hok.2 (balance_step h (hposts s e hs hok.1 h))

omit [DecidableEq ι] in
/-- When all programs have finished, nothing is owed any more. -/
theorem balance_final {total : ℤ} {s : Pool ι Cmd Reply α σ}
    (h : Balance possible posts value total s) (hend : ∀ i, (s.progs i).next = none) :
    value s.store = total := by
  obtain ⟨dues, howes, htotal⟩ := h
  have hnone : ∀ i, dues i = 0 := by
    intro i
    have hi := howes i
    cases hp : s.progs i with
    | ret a =>
        rw [hp] at hi
        exact hi
    | call c k =>
        have hnext := hend i
        rw [hp] at hnext
        cases hnext
  rw [← htotal, Finset.sum_eq_zero fun i _ => hnone i, add_zero]

end Pool

end Atomic
