import MiniSiem.Lib.Pool

/-! # Commands that wait

A pool whose store does not allow every command at every moment, as a lock does: a program whose next
command is not allowed stays where it is, whenever its turn comes.

* **Steps.**  `tryStep` is a step of the pool if the command is allowed, and nothing otherwise.
* **Rules.**  `tryRun_invariant` is the rule of invariants.  `tryRun_waits`: a program waits forever if its
  command is not allowed as long as something holds of the store, and no command that the others issue
  ends that. -/

namespace Atomic

namespace Pool

variable {ι Cmd Env α σ : Type} {Reply : Cmd → Type} [DecidableEq ι]
  (exec : Env → (c : Cmd) → σ → Reply c × σ) (allows : σ → Cmd → Prop) [∀ s c, Decidable (allows s c)]

/-- Program `e.1` issues its next command, if that is allowed. -/
def tryStep (s : Pool ι Cmd Reply α σ) (e : ι × Env) : Pool ι Cmd Reply α σ :=
  match (s.progs e.1).next with
  | none => s
  | some c => if allows s.store c then step exec s e else s

def tryRun (schedule : List (ι × Env)) (s : Pool ι Cmd Reply α σ) : Pool ι Cmd Reply α σ :=
  schedule.foldl (tryStep exec allows) s

variable {exec allows} {s : Pool ι Cmd Reply α σ}

@[simp] theorem tryRun_nil : tryRun exec allows [] s = s := rfl

@[simp] theorem tryRun_cons (e : ι × Env) (es : List (ι × Env)) :
    tryRun exec allows (e :: es) s = tryRun exec allows es (tryStep exec allows s e) := rfl

variable (exec allows) in
/-- What a step does: nothing, or a command that is allowed. -/
theorem tryStep_cases (s : Pool ι Cmd Reply α σ) (e : ι × Env) :
    tryStep exec allows s e = s ∨
    ∃ c, (s.progs e.1).next = some c ∧ allows s.store c ∧ tryStep exec allows s e = step exec s e := by
  unfold tryStep
  cases hnext : (s.progs e.1).next with
  | none => exact Or.inl rfl
  | some c =>
      dsimp only
      split
      · rename_i hallowed
        exact Or.inr ⟨c, rfl, hallowed, rfl⟩
      · exact Or.inl rfl

theorem tryRun_invariant {J : Pool ι Cmd Reply α σ → Prop} (hstep : ∀ s e, J s → J (tryStep exec allows s e))
    (h : J s) (es : List (ι × Env)) : J (tryRun exec allows es s) := by
  induction es generalizing s with
  | nil => exact h
  | cons e es ih => exact ih (hstep s e h)

section waiting

variable {P : σ → Prop} {own : Cmd → Prop} {i : ι} {c : Cmd}

/-- A program waits, and the others issue their own commands. -/
structure Waits (P : σ → Prop) (own : Cmd → Prop) (i : ι) (c : Cmd) (s : Pool ι Cmd Reply α σ) : Prop where
  next : (s.progs i).next = some c
  holds : P s.store
  others : ∀ j, j ≠ i → (s.progs j).Ensures (fun (_ : Unit) _ _ => True) (fun _ c => own c) ()

variable (hblocked : ∀ s, P s → ¬ allows s c)
  (hkeep : ∀ e c s, P s → own c → allows s c → P (exec e c s).2)
include hblocked hkeep

theorem Waits.turn (h : Waits P own i c s) (e : ι × Env) : Waits P own i c (tryStep exec allows s e) ∧
    (tryStep exec allows s e).progs i = s.progs i := by
  rcases tryStep_cases exec allows s e with hsame | ⟨c', hnext, hallowed, hstep⟩
  · rw [hsame]
    exact ⟨h, rfl⟩
  · have hne : i ≠ e.1 := by
      rintro rfl
      obtain rfl := Option.some.inj (h.next.symm.trans hnext)
      exact hblocked s.store h.holds hallowed
    have hwaiting : (step exec s e).progs i = s.progs i := step_progs_of_ne hne
    rw [hstep]
    refine ⟨⟨by rw [hwaiting]; exact h.next, ?_, fun j hj => ?_⟩, hwaiting⟩
    · rw [step_store hnext]
      exact hkeep e.2 c' s.store h.holds ((h.others e.1 hne.symm).of_next hnext) hallowed
    · by_cases hje : j = e.1
      · subst hje
        rw [step_progs_self]
        exact (h.others e.1 hj).step fun _ => trivial
      · rw [step_progs_of_ne hje]
        exact h.others j hj

/-- The program waits forever. -/
theorem tryRun_waits (h : Waits P own i c s) (es : List (ι × Env)) :
    Waits P own i c (tryRun exec allows es s) ∧ (tryRun exec allows es s).progs i = s.progs i := by
  refine tryRun_invariant (J := fun s' => Waits P own i c s' ∧ s'.progs i = s.progs i) (fun s' e hs' => ?_)
    ⟨h, rfl⟩ es
  obtain ⟨hwaits, hsame⟩ := hs'.1.turn hblocked hkeep e
  exact ⟨hwaits, hsame.trans hs'.2⟩

end waiting

end Pool

end Atomic
