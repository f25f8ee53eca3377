import MiniSiem.Lib.Programs
import Mathlib.Order.CompletePartialOrder

/-! # Pools of programs on one store

Any number of programs run at the same time.  A schedule says, step by step, which program issues
its next command and what the environment is at that moment (a clock, a failure).

* **Commands of a program.**  `next` is the command a program issues next, and `ReturnsAfter` says after
  which replies it returns results of a kind.  `Ensures` is a property of every command it can ever
  issue, relative to a world that only moves forward (a clock) and to what is known of the
  replies; `CanIssue` says that it may still issue such a command.
* **Schedules.**  `Meets` says that every step of a schedule satisfies a condition in the pool
  before it.
* **Rules.**  `meets_iff_meets` compares two conditions on the steps under an invariant;
  `holds_iff_meets` characterises the schedules in which a property holds in every
  pool reached. -/

namespace Atomic

namespace Prog

variable {Cmd α σ : Type} {Reply : Cmd → Type}

/-- The program has ended, with such a result. -/
def Returned (ok : α → Prop) : Prog Cmd Reply α → Prop
  | ret a => ok a
  | call _ _ => False

instance (ok : α → Prop) [DecidablePred ok] : (p : Prog Cmd Reply α) → Decidable (p.Returned ok)
  | ret a => inferInstanceAs (Decidable (ok a))
  | call _ _ => inferInstanceAs (Decidable False)

/-- Every result of a kind is returned right after a reply of a kind. -/
def ReturnsAfter (good : α → Prop) (via : (c : Cmd) → Reply c → Prop) : Prog Cmd Reply α → Prop
  | ret _ => True
  | call c k => ∀ r, (∀ a, k r = ret a → good a → via c r) ∧ (k r).ReturnsAfter good via

theorem ReturnsAfter.step {good : α → Prop} {via : (c : Cmd) → Reply c → Prop} {p : Prog Cmd Reply α}
    (h : p.ReturnsAfter good via) (exec : (c : Cmd) → σ → Reply c × σ) (s : σ) :
    (p.step exec s).1.ReturnsAfter good via := by
  cases p with
  | ret a => exact trivial
  | call c k => exact (h (exec c s).1).2

theorem ReturnsAfter.of_returned {good : α → Prop} {via : (c : Cmd) → Reply c → Prop}
    {p : Prog Cmd Reply α} (h : p.ReturnsAfter good via) {exec : (c : Cmd) → σ → Reply c × σ} {s : σ}
    (hafter : (p.step exec s).1.Returned good) :
    p.Returned good ∨ ∃ c, p.next = some c ∧ via c (exec c s).1 := by
  cases p with
  | ret a => exact Or.inl hafter
  | call c k =>
      have hstep : (k (exec c s).1).Returned good := hafter
      cases hk : k (exec c s).1 with
      | ret a =>
          rw [hk] at hstep
          exact Or.inr ⟨c, rfl, (h _).1 a hk hstep⟩
      | call c' k' =>
          rw [hk] at hstep
          exact hstep.elim

theorem ReturnsAfter.map {β : Type} {good : β → Prop} {via : (c : Cmd) → Reply c → Prop} {f : α → β}
    {p : Prog Cmd Reply α} (h : p.ReturnsAfter (fun a => good (f a)) via) :
    (p.bind fun a => ret (f a)).ReturnsAfter good via := by
  induction p with
  | ret a => exact trivial
  | call c k ih =>
      intro r
      obtain ⟨hreturned, hrest⟩ := h r
      refine ⟨fun b hb hgood => ?_, ih r hrest⟩
      dsimp only at hb
      cases hk : k r with
      | ret a =>
          rw [hk] at hb
          cases hb
          exact hreturned a hk hgood
      | call c' k' =>
          rw [hk] at hb
          cases hb

section ensures

variable {W : Type} [Preorder W] {R : W → (c : Cmd) → Reply c → Prop} {Q : W → Cmd → Prop}

/-- From the world `w` on, every command the program issues satisfies `Q`, as long as the replies
satisfy `R`. -/
def Ensures (R : W → (c : Cmd) → Reply c → Prop) (Q : W → Cmd → Prop) : W → Prog Cmd Reply α → Prop
  | _, ret _ => True
  | w, call c k => ∀ w', w ≤ w' → Q w' c ∧ ∀ r, R w' c r → (k r).Ensures R Q w'

theorem Ensures.mono {p : Prog Cmd Reply α} {w w' : W} (h : p.Ensures R Q w) (hle : w ≤ w') :
    p.Ensures R Q w' := by
  cases p with
  | ret a => trivial
  | call c k => exact fun w'' hle' => h w'' (hle.trans hle')

theorem Ensures.imp {Q' : W → Cmd → Prop} (hQ : ∀ w c, Q w c → Q' w c) {p : Prog Cmd Reply α}
    {w : W} (h : p.Ensures R Q w) : p.Ensures R Q' w := by
  induction p generalizing w with
  | ret a => trivial
  | call c k ih =>
      intro w' hle
      obtain ⟨hc, hk⟩ := h w' hle
      exact ⟨hQ w' c hc, fun r hr => ih r (hk r hr)⟩

theorem Ensures.of_replies {R' : W → (c : Cmd) → Reply c → Prop} (hR : ∀ w c r, R' w c r → R w c r)
    {p : Prog Cmd Reply α} {w : W} (h : p.Ensures R Q w) : p.Ensures R' Q w := by
  induction p generalizing w with
  | ret a => trivial
  | call c k ih =>
      intro w' hle
      obtain ⟨hc, hk⟩ := h w' hle
      exact ⟨hc, fun r hr => ih r (hk r (hR w' c r hr))⟩

theorem Ensures.bind {β : Type} {p : Prog Cmd Reply α} {f : α → Prog Cmd Reply β} {w : W}
    (hp : p.Ensures R Q w) (hf : ∀ w', w ≤ w' → ∀ a, (f a).Ensures R Q w') :
    (p.bind f).Ensures R Q w := by
  induction p generalizing w with
  | ret a => exact hf w le_rfl a
  | call c k ih =>
      intro w' hle
      obtain ⟨hc, hk⟩ := hp w' hle
      exact ⟨hc, fun r hr => ih r (hk r hr) fun w'' hle' => hf w'' (hle.trans hle')⟩

theorem Ensures.of_next {p : Prog Cmd Reply α} {w : W} (h : p.Ensures R Q w) {c : Cmd}
    (hc : p.next = some c) : Q w c := by
  cases p with
  | ret a => cases hc
  | call c' k =>
      obtain rfl := Option.some.inj hc
      exact (h w le_rfl).1

theorem Ensures.step_next {p : Prog Cmd Reply α} {w : W} (h : p.Ensures R Q w)
    {exec : (c : Cmd) → σ → Reply c × σ} {s : σ} (hR : ∀ c, p.next = some c → R w c (exec c s).1) :
    (Prog.step exec p s).1.Ensures R Q w := by
  cases p with
  | ret a => exact h
  | call c k => exact (h w le_rfl).2 _ (hR c rfl)

theorem Ensures.step {p : Prog Cmd Reply α} {w : W} (h : p.Ensures R Q w)
    {exec : (c : Cmd) → σ → Reply c × σ} {s : σ} (hR : ∀ c, R w c (exec c s).1) :
    (Prog.step exec p s).1.Ensures R Q w := h.step_next fun c _ => hR c

end ensures

section possible

variable {stop Q : Cmd → Prop}

/-- With some replies, the program issues a command with `Q` before one with `stop`. -/
def CanIssue (stop Q : Cmd → Prop) : Prog Cmd Reply α → Prop
  | ret _ => False
  | call c k => ¬ stop c ∧ (Q c ∨ ∃ r, (k r).CanIssue stop Q)

theorem not_canIssue_ret (a : α) : ¬ (ret a : Prog Cmd Reply α).CanIssue stop Q := id

theorem CanIssue.of_bind {β : Type} {p : Prog Cmd Reply α} {f : α → Prog Cmd Reply β}
    (h : (p.bind f).CanIssue stop Q) : p.CanIssue stop Q ∨ ∃ a, (f a).CanIssue stop Q := by
  induction p with
  | ret a => exact Or.inr ⟨a, h⟩
  | call c k ih =>
      obtain ⟨hstop, hQ | ⟨r, hr⟩⟩ := h
      · exact Or.inl ⟨hstop, Or.inl hQ⟩
      · rcases ih r hr with hk | hf
        · exact Or.inl ⟨hstop, Or.inr ⟨r, hk⟩⟩
        · exact Or.inr hf

/-- What a program can issue after a step it could issue before, unless the step was a stop. -/
theorem CanIssue.of_step {p : Prog Cmd Reply α} {exec : (c : Cmd) → σ → Reply c × σ} {s : σ}
    (hstop : ∀ c, p.next = some c → ¬ stop c) (h : (Prog.step exec p s).1.CanIssue stop Q) :
    p.CanIssue stop Q := by
  cases p with
  | ret a => exact h
  | call c k => exact ⟨hstop c rfl, Or.inr ⟨_, h⟩⟩

/-- A program all of whose commands lack `Q` cannot issue one with `Q`. -/
theorem not_canIssue_of_ensures {p : Prog Cmd Reply α}
    (h : p.Ensures (fun _ _ _ => True) (fun _ c => ¬ Q c) ()) : ¬ p.CanIssue stop Q := by
  induction p with
  | ret a => exact id
  | call c k ih =>
      obtain ⟨hc, hk⟩ := h () le_rfl
      rintro ⟨-, hQ | ⟨r, hr⟩⟩
      · exact hc hQ
      · exact ih r (hk r trivial) hr

theorem canIssue_of_next {p : Prog Cmd Reply α} {c : Cmd} (hc : p.next = some c)
    (hstop : ¬ stop c) (hQ : Q c) : p.CanIssue stop Q := by
  cases p with
  | ret a => cases hc
  | call c' k =>
      obtain rfl := Option.some.inj hc
      exact ⟨hstop, Or.inl hQ⟩

end possible

end Prog

/-- The programs at some moment, with the store they share. -/
structure Pool (ι Cmd : Type) (Reply : Cmd → Type) (α σ : Type) where
  progs : ι → Prog Cmd Reply α
  store : σ

namespace Pool

variable {ι Cmd Env α σ : Type} {Reply : Cmd → Type} [DecidableEq ι]
  (exec : Env → (c : Cmd) → σ → Reply c × σ)

/-- Program `e.1` issues its next command in the environment `e.2`. -/
def step (s : Pool ι Cmd Reply α σ) (e : ι × Env) : Pool ι Cmd Reply α σ where
  progs := Function.update s.progs e.1 ((s.progs e.1).step (exec e.2) s.store).1
  store := ((s.progs e.1).step (exec e.2) s.store).2

def run (schedule : List (ι × Env)) (s : Pool ι Cmd Reply α σ) : Pool ι Cmd Reply α σ :=
  schedule.foldl (step exec) s

/-- Every step of the schedule satisfies `ok` in the pool before it. -/
def Meets (ok : Pool ι Cmd Reply α σ → ι × Env → Prop) :
    List (ι × Env) → Pool ι Cmd Reply α σ → Prop
  | [], _ => True
  | e :: es, s => ok s e ∧ Meets ok es (step exec s e)

instance instDecidableMeets (ok : Pool ι Cmd Reply α σ → ι × Env → Prop) [∀ s e, Decidable (ok s e)]
    (es : List (ι × Env)) (s : Pool ι Cmd Reply α σ) : Decidable (Meets exec ok es s) :=
  match es with
  | [] => isTrue trivial
  | e :: es => @instDecidableAnd _ _ _ (instDecidableMeets ok es (step exec s e))

variable {exec} {s : Pool ι Cmd Reply α σ}

@[simp] theorem run_nil : run exec [] s = s := rfl

@[simp] theorem run_cons (e : ι × Env) (es : List (ι × Env)) :
    run exec (e :: es) s = run exec es (step exec s e) := rfl

theorem run_append (front back : List (ι × Env)) :
    run exec (front ++ back) s = run exec back (run exec front s) := List.foldl_append

/-- A finished program does nothing. -/
theorem step_finished {e : ι × Env} (h : (s.progs e.1).next = none) : step exec s e = s := by
  unfold step
  cases hp : s.progs e.1 with
  | ret a =>
      have hsame : Function.update s.progs e.1 (.ret a) = s.progs := by
        rw [← hp, Function.update_eq_self]
      show Pool.mk (Function.update s.progs e.1 (.ret a)) s.store = s
      rw [hsame]
  | call c k =>
      rw [hp] at h
      cases h

theorem step_store {e : ι × Env} {c : Cmd} (h : (s.progs e.1).next = some c) :
    (step exec s e).store = (exec e.2 c s.store).2 := by
  unfold step
  cases hp : s.progs e.1 with
  | ret a =>
      rw [hp] at h
      cases h
  | call c' k =>
      rw [hp] at h
      obtain rfl := Option.some.inj h
      rfl

theorem step_store_eq (e : ι × Env) :
    (step exec s e).store = ((s.progs e.1).step (exec e.2) s.store).2 := rfl

theorem step_progs_self (e : ι × Env) :
    (step exec s e).progs e.1 = ((s.progs e.1).step (exec e.2) s.store).1 :=
  Function.update_self _ _ _

theorem step_progs_of_ne {e : ι × Env} {i : ι} (h : i ≠ e.1) :
    (step exec s e).progs i = s.progs i :=
  Function.update_of_ne h _ _

/-- A step that needs a predicate of one program not to hold of any before it can hold of it keeps
the predicate unique. -/
theorem unique_step {claims : ι → Prog Cmd Reply α → Prop} {e : ι × Env}
    (hunique : ∀ i j, claims i (s.progs i) → claims j (s.progs j) → i = j)
    (hnew : claims e.1 ((step exec s e).progs e.1) → claims e.1 (s.progs e.1) ∨
      ∀ j, ¬ claims j (s.progs j)) :
    ∀ i j, claims i ((step exec s e).progs i) → claims j ((step exec s e).progs j) → i = j := by
  have hbefore : ∀ i, i ≠ e.1 → claims i ((step exec s e).progs i) → claims i (s.progs i) := by
    intro i hi hclaim
    rwa [step_progs_of_ne hi] at hclaim
  intro i j hi hj
  by_cases hie : i = e.1
  · by_cases hje : j = e.1
    · rw [hie, hje]
    · subst hie
      rcases hnew hi with hclaimed | hnone
      · exact hunique e.1 j hclaimed (hbefore j hje hj)
      · exact absurd (hbefore j hje hj) (hnone j)
  · by_cases hje : j = e.1
    · subst hje
      rcases hnew hj with hclaimed | hnone
      · exact hunique i e.1 (hbefore i hie hi) hclaimed
      · exact absurd (hbefore i hie hi) (hnone i)
    · exact hunique i j (hbefore i hie hi) (hbefore j hje hj)

/-- What holds at the start and is kept by every step holds after every schedule. -/
theorem run_invariant {J : Pool ι Cmd Reply α σ → Prop} (hstep : ∀ s e, J s → J (step exec s e))
    (h : J s) (es : List (ι × Env)) : J (run exec es s) := by
  induction es generalizing s with
  | nil => exact h
  | cons e es ih => exact ih (hstep s e h)

/-- What the steps keep that satisfy `ok` holds after a schedule of such steps. -/
theorem Meets.run_invariant {J : Pool ι Cmd Reply α σ → Prop}
    {ok : Pool ι Cmd Reply α σ → ι × Env → Prop} (hstep : ∀ s e, J s → ok s e → J (step exec s e))
    (hJ : J s) {es : List (ι × Env)} (h : Meets exec ok es s) : J (run exec es s) := by
  induction es generalizing s with
  | nil => exact hJ
  | cons e es ih => exact ih (hstep s e hJ h.1) h.2

/-- A step keeps what the programs ensure. -/
theorem ensures_step {W : Type} [Preorder W] {R : W → (c : Cmd) → Reply c → Prop}
    {Q : ι → W → Cmd → Prop} {w : W} (h : ∀ i, (s.progs i).Ensures R (Q i) w) (e : ι × Env)
    (hR : ∀ c, R w c (exec e.2 c s.store).1) (i : ι) :
    ((step exec s e).progs i).Ensures R (Q i) w := by
  unfold step
  dsimp only
  by_cases hi : i = e.1
  · rw [hi, Function.update_self]
    exact (h e.1).step hR
  · rw [Function.update_of_ne hi]
    exact h i

theorem meets_true (es : List (ι × Env)) : Meets exec (fun _ _ => True) es s := by
  induction es generalizing s with
  | nil => trivial
  | cons e es ih => exact ⟨trivial, ih⟩

/-- In a schedule that meets `env`, two conditions that agree under an invariant are met together. -/
theorem meets_iff_meets {J : Pool ι Cmd Reply α σ → Prop}
    {env ok ok' : Pool ι Cmd Reply α σ → ι × Env → Prop}
    (hstep : ∀ s e, J s → env s e → J (step exec s e))
    (hiff : ∀ s e, J s → env s e → (ok s e ↔ ok' s e)) {es : List (ι × Env)} (hJ : J s)
    (henv : Meets exec env es s) : Meets exec ok es s ↔ Meets exec ok' es s := by
  induction es generalizing s with
  | nil => exact Iff.rfl
  | cons e es ih =>
      obtain ⟨hfirst, hrest⟩ := henv
      exact and_congr (hiff s e hJ hfirst) (ih (hstep s e hJ hfirst) hrest)

theorem meets_append {ok : Pool ι Cmd Reply α σ → ι × Env → Prop} (front back : List (ι × Env)) :
    Meets exec ok (front ++ back) s ↔
      Meets exec ok front s ∧ Meets exec ok back (run exec front s) := by
  induction front generalizing s with
  | nil => exact (and_iff_right trivial).symm
  | cons e front ih => exact (and_congr_right fun _ => ih).trans and_assoc.symm

/-- A program that no step is about. -/
theorem run_progs_of_forall_ne {i : ι} {es : List (ι × Env)} (h : ∀ e ∈ es, i ≠ e.1) :
    (run exec es s).progs i = s.progs i := by
  induction es generalizing s with
  | nil => rfl
  | cons e es ih =>
      obtain ⟨hfirst, hrest⟩ := List.forall_mem_cons.mp h
      rw [run_cons, ih hrest, step_progs_of_ne hfirst]

/-- What holds of every step of the list is one more condition that the schedule meets. -/
theorem Meets.and_forall {ok : Pool ι Cmd Reply α σ → ι × Env → Prop} {P : ι × Env → Prop}
    {es : List (ι × Env)} (h : Meets exec ok es s) (hP : ∀ e ∈ es, P e) :
    Meets exec (fun s e => ok s e ∧ P e) es s := by
  induction es generalizing s with
  | nil => trivial
  | cons e es ih =>
      obtain ⟨hfirst, hrest⟩ := List.forall_mem_cons.mp hP
      exact ⟨⟨h.1, hfirst⟩, ih h.2 hrest⟩

/-- In a schedule that meets `env`, a condition that follows from an invariant is met. -/
theorem Meets.of_invariant (J : Pool ι Cmd Reply α σ → Prop)
    {env ok : Pool ι Cmd Reply α σ → ι × Env → Prop}
    (hstep : ∀ s e, J s → env s e → J (step exec s e)) (hok : ∀ s e, J s → env s e → ok s e)
    {es : List (ι × Env)} (hJ : J s) (henv : Meets exec env es s) : Meets exec ok es s := by
  induction es generalizing s with
  | nil => trivial
  | cons e es ih =>
      obtain ⟨hfirst, hrest⟩ := henv
      exact ⟨hok s e hJ hfirst, ih (hstep s e hJ hfirst) hrest⟩

/-- What every step of a schedule meets is met by the step after any front of it. -/
theorem Meets.at_step {ok : Pool ι Cmd Reply α σ → ι × Env → Prop} (front : List (ι × Env))
    (e : ι × Env) (back : List (ι × Env)) (h : Meets exec ok (front ++ e :: back) s) :
    ok (run exec front s) e := by
  induction front generalizing s with
  | nil => exact h.1
  | cons f front ih => exact ih h.2

/-- A property that a step keeps exactly when it meets `ok` holds in every pool reached exactly
when every step meets `ok`. -/
theorem holds_iff_meets {J P : Pool ι Cmd Reply α σ → Prop}
    {ok : Pool ι Cmd Reply α σ → ι × Env → Prop} {es : List (ι × Env)}
    (hJ : ∀ front, front <+: es → J (run exec front s))
    (hstep : ∀ s e, J s → J (step exec s e) → P s → (P (step exec s e) ↔ ok s e)) (hP : P s) :
    (∀ front, front <+: es → P (run exec front s)) ↔ Meets exec ok es s := by
  induction es generalizing s with
  | nil =>
      constructor
      · exact fun _ => trivial
      · intro _ front hfront
        rw [List.prefix_nil.mp hfront]
        exact hP
  | cons e es ih =>
      have hJ₀ : J s := hJ [] List.nil_prefix
      have hJ₁ : J (step exec s e) := hJ [e] (by simp)
      have hiff := hstep s e hJ₀ hJ₁ hP
      have hJ' : ∀ front, front <+: es → J (run exec front (step exec s e)) := fun front hfront =>
        hJ (e :: front) (List.prefix_cons_inj e |>.mpr hfront)
      constructor
      · intro h
        have hP₁ : P (step exec s e) := h [e] (by simp)
        refine ⟨hiff.mp hP₁, (ih hJ' hP₁).mp fun front hfront => ?_⟩
        exact h (e :: front) (List.prefix_cons_inj e |>.mpr hfront)
      · rintro ⟨hok, hrest⟩ front hfront
        have hP₁ := hiff.mpr hok
        cases front with
        | nil => exact hP
        | cons e' front =>
            obtain ⟨rfl, htail⟩ := List.cons_prefix_cons.mp hfront
            exact (ih hJ' hP₁).mpr hrest front htail

end Pool

end Atomic
