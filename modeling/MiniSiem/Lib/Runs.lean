import Mathlib.Tactic

/-! # Runs of a machine

A machine is a partial step function on states and events; an event that is not possible in a state
has no successor there.

* **Runs.**  `run` takes the events one after the other; it has a result if each of them is possible.
* **Conditions.**  `Meets ok` says that every event of the list satisfies `ok` in the state before it.
* **Rules.**  An invariant of the steps holds after every run (`run_invariant`, `Meets.run_invariant`);
  a property that a step keeps exactly when it meets `ok` holds after a run exactly when every
  step of the run does (`holds_iff_meets`). -/

namespace Runs

variable {σ ε : Type} (step : σ → ε → Option σ)

/-- The state after the events. -/
def run : List ε → σ → Option σ
  | [], s => some s
  | e :: es, s =>
      match step s e with
      | some s' => run es s'
      | none => none

/-- Every event satisfies `ok` in the state before it. -/
def Meets (ok : σ → ε → Prop) : List ε → σ → Prop
  | [], _ => True
  | e :: es, s => ok s e ∧
      match step s e with
      | some s' => Meets ok es s'
      | none => True

instance instDecidableMeets (ok : σ → ε → Prop) [∀ s e, Decidable (ok s e)] :
    (es : List ε) → (s : σ) → Decidable (Meets step ok es s)
  | [], _ => isTrue trivial
  | e :: es, s =>
      @instDecidableAnd _ _ _ (match step s e with
        | some s' => instDecidableMeets ok es s'
        | none => isTrue trivial)

variable {step} {s s' : σ}

theorem run_cons {e : ε} {es : List ε} :
    run step (e :: es) s = some s' ↔ ∃ t, step s e = some t ∧ run step es t = some s' := by
  rw [run]
  cases step s e with
  | none => simp
  | some t => simp

theorem meets_cons {ok : σ → ε → Prop} {e : ε} {es : List ε} {t : σ} (h : step s e = some t) :
    Meets step ok (e :: es) s ↔ ok s e ∧ Meets step ok es t := by
  rw [Meets, h]

theorem run_append {front back : List ε} :
    run step (front ++ back) s = some s' ↔
      ∃ t, run step front s = some t ∧ run step back t = some s' := by
  induction front generalizing s with
  | nil => simp [run]
  | cons e front ih =>
      rw [List.cons_append, run_cons]
      constructor
      · rintro ⟨u, hu, hrun⟩
        obtain ⟨t, hfront, hback⟩ := ih.mp hrun
        exact ⟨t, run_cons.mpr ⟨u, hu, hfront⟩, hback⟩
      · rintro ⟨t, hfront, hback⟩
        obtain ⟨u, hu, hfront⟩ := run_cons.mp hfront
        exact ⟨u, hu, ih.mpr ⟨t, hfront, hback⟩⟩

theorem meets_append {ok : σ → ε → Prop} {front back : List ε} {t : σ}
    (h : run step front s = some t) :
    Meets step ok (front ++ back) s ↔ Meets step ok front s ∧ Meets step ok back t := by
  induction front generalizing s with
  | nil =>
      obtain rfl := Option.some.inj h
      exact (and_iff_right trivial).symm
  | cons e front ih =>
      obtain ⟨u, hu, hrun⟩ := run_cons.mp h
      rw [List.cons_append, meets_cons hu, meets_cons hu, ih hrun, and_assoc]

theorem meets_and {ok ok' : σ → ε → Prop} {es : List ε} :
    Meets step (fun s e => ok s e ∧ ok' s e) es s ↔ Meets step ok es s ∧ Meets step ok' es s := by
  induction es generalizing s with
  | nil => exact (and_self_iff).symm
  | cons e es ih =>
      unfold Meets
      cases step s e with
      | none => simp only [and_true]
      | some t =>
          simp only [ih]
          exact and_and_and_comm

/-- What every step of a run keeps holds after it. -/
theorem run_invariant {J : σ → Prop} (hstep : ∀ s e s', J s → step s e = some s' → J s')
    {es : List ε} (hJ : J s) (h : run step es s = some s') : J s' := by
  induction es generalizing s with
  | nil => exact Option.some.inj h ▸ hJ
  | cons e es ih =>
      obtain ⟨t, ht, hrun⟩ := run_cons.mp h
      exact ih (hstep s e t hJ ht) hrun

/-- What every step that meets `ok` keeps holds after a run of such steps. -/
theorem Meets.run_invariant {J : σ → Prop} {ok : σ → ε → Prop}
    (hstep : ∀ s e s', J s → ok s e → step s e = some s' → J s') {es : List ε} (hJ : J s)
    (hok : Meets step ok es s) (h : run step es s = some s') : J s' := by
  induction es generalizing s with
  | nil => exact Option.some.inj h ▸ hJ
  | cons e es ih =>
      obtain ⟨t, ht, hrun⟩ := run_cons.mp h
      rw [meets_cons ht] at hok
      exact ih (hstep s e t hJ hok.1 ht) hok.2 hrun

/-- A run whose steps keep an invariant meets what the invariant gives. -/
theorem Meets.of_invariant {J : σ → Prop} {ok good : σ → ε → Prop}
    (hstep : ∀ s e s', J s → ok s e → step s e = some s' → J s') (hgood : ∀ s e, J s → ok s e → good s e)
    {es : List ε} (hJ : J s) (hok : Meets step ok es s) : Meets step good es s := by
  induction es generalizing s with
  | nil => trivial
  | cons e es ih =>
      unfold Meets at hok ⊢
      refine ⟨hgood s e hJ hok.1, ?_⟩
      cases hnext : step s e with
      | none => trivial
      | some t =>
          rw [hnext] at hok
          exact ih (hstep s e t hJ hok.1 hnext) hok.2

/-- A run meets a condition if each of its events does in the state that the front has led to. -/
theorem meets_of_fronts {ok : σ → ε → Prop} {es : List ε} (h : run step es s = some s')
    (hok : ∀ front e back t u, es = front ++ e :: back → run step front s = some t →
      step t e = some u → ok t e) : Meets step ok es s := by
  induction es generalizing s with
  | nil => trivial
  | cons e es ih =>
      obtain ⟨t, ht, hrun⟩ := run_cons.mp h
      rw [meets_cons ht]
      refine ⟨hok [] e es s t rfl rfl ht, ih hrun ?_⟩
      intro front e' back u v hes hfront hstep
      exact hok (e :: front) e' back u v (by rw [hes, List.cons_append])
        (run_cons.mpr ⟨t, ht, hfront⟩) hstep

/-- A property that a step keeps exactly when it meets `ok`, and never regains, holds after a run
exactly when every step meets `ok`. -/
theorem holds_iff_meets {J P : σ → Prop} {ok : σ → ε → Prop}
    (hJ : ∀ s e s', J s → step s e = some s' → J s')
    (hP : ∀ s e s', J s → step s e = some s' → (P s' ↔ P s ∧ ok s e)) {es : List ε} (hs : J s)
    (h : run step es s = some s') : P s' ↔ P s ∧ Meets step ok es s := by
  induction es generalizing s with
  | nil =>
      obtain rfl := Option.some.inj h
      exact (and_iff_left trivial).symm
  | cons e es ih =>
      obtain ⟨t, ht, hrun⟩ := run_cons.mp h
      rw [meets_cons ht, ih (hJ s e t hs ht) hrun, hP s e t hs ht, and_assoc]

/-- Two conditions that agree under an invariant, which the steps that meet them keep, are met by the
same runs. -/
theorem meets_iff_meets {J : σ → Prop} {ok ok' : σ → ε → Prop} {es : List ε}
    (hiff : ∀ s, ∀ e ∈ es, J s → (ok s e ↔ ok' s e))
    (hstep : ∀ s, ∀ e ∈ es, ∀ s', J s → ok' s e → step s e = some s' → J s') (hs : J s) :
    Meets step ok es s ↔ Meets step ok' es s := by
  induction es generalizing s with
  | nil => exact Iff.rfl
  | cons e es ih =>
      obtain ⟨hiff₁, hiff₂⟩ := List.forall_mem_cons.mp fun e he s => hiff s e he
      obtain ⟨hstep₁, hstep₂⟩ := List.forall_mem_cons.mp fun e he s => hstep s e he
      unfold Meets
      rw [hiff₁ s hs]
      refine and_congr_right fun hok => ?_
      cases hnext : step s e with
      | none => exact Iff.rfl
      | some t =>
          exact ih (fun s e he => hiff₂ e he s) (fun s e he => hstep₂ e he s)
            (hstep₁ s t hs hok hnext)

/-- The same under a condition that every event of the run meets anyway. -/
theorem meets_iff_meets_within {J : σ → Prop} {fit ok ok' : σ → ε → Prop} {es : List ε}
    (hiff : ∀ s e, J s → fit s e → (ok s e ↔ ok' s e))
    (hstep : ∀ s e s', J s → fit s e → ok' s e → step s e = some s' → J s') (hs : J s)
    (hfit : Meets step fit es s) : Meets step ok es s ↔ Meets step ok' es s := by
  induction es generalizing s with
  | nil => exact Iff.rfl
  | cons e es ih =>
      unfold Meets at hfit ⊢
      rw [hiff s e hs hfit.1]
      refine and_congr_right fun hok => ?_
      cases hnext : step s e with
      | none => exact Iff.rfl
      | some t =>
          rw [hnext] at hfit
          exact ih (hstep s e t hs hfit.1 hok hnext) hfit.2

end Runs
