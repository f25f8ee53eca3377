import MiniSiem.Lib.Pool

/-! # Programs among others

Between two commands of a program the others may change the store, but a fair step only lets it grow (in a
preorder), and the steps of all programs keep an invariant.

* **One program.**  `Respects G Q s p`: from the store `s` on, whatever grows in between, each command is as
  `G` has it in the store it meets, and the program ends as `Q` has it.
* **Pools.**  `Pool.respects_run`: if each program of a pool respects its conditions, the invariant holds
  after every fair schedule, and what has ended has ended as `Q` has it.
* **Values.**  `Pool.ensures_run`: if the store only replies sound values and each program only passes on
  what is sound, the store stays as it should be, whatever the order of the steps. -/

namespace Atomic

variable {ι Cmd Env α β σ : Type} {Reply : Cmd → Type} [Preorder σ]

namespace Prog

variable (exec : Env → (c : Cmd) → σ → Reply c × σ) (fair : Env → σ → Prop) (J : σ → Prop)

def Respects (G : σ → Cmd → Prop) (Q : σ → α → Prop) : σ → Prog Cmd Reply α → Prop
  | s, ret a => Q s a
  | s, call c k => ∀ s', s ≤ s' → J s' → G s' c ∧
      ∀ e, fair e s' → (k (exec e c s').1).Respects G Q (exec e c s').2

variable {exec fair J} {G : σ → Cmd → Prop} {Q : σ → α → Prop} {s : σ}

theorem respects_call {c : Cmd} {k : Reply c → Prog Cmd Reply α}
    (h : ∀ s', s ≤ s' → J s' → G s' c ∧
      ∀ e, fair e s' → (k (exec e c s').1).Respects exec fair J G Q (exec e c s').2) :
    (call c k).Respects exec fair J G Q s := h

theorem Respects.mono (hQ : ∀ s s' a, s ≤ s' → Q s a → Q s' a) {p : Prog Cmd Reply α} {s' : σ}
    (h : p.Respects exec fair J G Q s) (hle : s ≤ s') : p.Respects exec fair J G Q s' := by
  cases p with
  | ret a => exact hQ s s' a hle h
  | call c k => exact fun s'' hle' => h s'' (hle.trans hle')

end Prog

namespace Pool

variable [DecidableEq ι] {exec : Env → (c : Cmd) → σ → Reply c × σ} {fair : Env → σ → Prop} {J : σ → Prop}
  {G : σ → Cmd → Prop} {Q : ι → σ → α → Prop} (hQ : ∀ i s s' a, s ≤ s' → Q i s a → Q i s' a)
  (hgrow : ∀ e c s, fair e s → J s → G s c → s ≤ (exec e c s).2)
  (hJ : ∀ e c s, fair e s → J s → G s c → J (exec e c s).2)
include hQ hgrow hJ

theorem respects_step {s : Pool ι Cmd Reply α σ} {e : ι × Env} (hfair : fair e.2 s.store) (hs : J s.store)
    (h : ∀ i, (s.progs i).Respects exec fair J G (Q i) s.store) :
    J (step exec s e).store ∧ ∀ i, ((step exec s e).progs i).Respects exec fair J G (Q i)
      (step exec s e).store := by
  cases hnext : s.progs e.1 with
  | ret a =>
      rw [step_finished (by rw [hnext]; rfl)]
      exact ⟨hs, h⟩
  | call c k =>
      have hcall := h e.1
      rw [hnext] at hcall
      obtain ⟨hG, hk⟩ := hcall s.store le_rfl hs
      have hstore : (step exec s e).store = (exec e.2 c s.store).2 := step_store (by rw [hnext]; rfl)
      refine ⟨hstore ▸ hJ e.2 c s.store hfair hs hG, fun i => ?_⟩
      by_cases hi : i = e.1
      · subst hi
        rw [step_progs_self, hnext, hstore]
        exact hk e.2 hfair
      · rw [step_progs_of_ne hi, hstore]
        exact (h i).mono (hQ i) (hgrow e.2 c s.store hfair hs hG)

theorem respects_run {s : Pool ι Cmd Reply α σ} {es : List (ι × Env)}
    (hfair : Meets exec (fun s e => fair e.2 s.store) es s) (hs : J s.store)
    (h : ∀ i, (s.progs i).Respects exec fair J G (Q i) s.store) :
    J (run exec es s).store ∧ ∀ i, ((run exec es s).progs i).Respects exec fair J G (Q i)
      (run exec es s).store := by
  induction es generalizing s with
  | nil => exact ⟨hs, h⟩
  | cons e es ih =>
      obtain ⟨hs', h'⟩ := respects_step hQ hgrow hJ hfair.1 hs h
      exact ih hfair.2 hs' h'

end Pool

omit [Preorder σ] in
/-- Programs that pass on what is sound keep what the store replies sound. -/
theorem Pool.ensures_run [DecidableEq ι] {exec : Env → (c : Cmd) → σ → Reply c × σ} {J : σ → Prop}
    {R : (c : Cmd) → Reply c → Prop} {Q : Cmd → Prop}
    (hreply : ∀ e c s, J s → R c (exec e c s).1) (hkeep : ∀ e c s, J s → Q c → J (exec e c s).2)
    {s : Pool ι Cmd Reply α σ} (hs : J s.store)
    (h : ∀ i, (s.progs i).Ensures (fun (_ : Unit) => R) (fun _ => Q) ()) (es : List (ι × Env)) :
    J (run exec es s).store ∧
      ∀ i, ((run exec es s).progs i).Ensures (fun (_ : Unit) => R) (fun _ => Q) () := by
  induction es generalizing s with
  | nil => exact ⟨hs, h⟩
  | cons e es ih =>
      refine ih ?_ (ensures_step h e fun c => hreply e.2 c s.store hs)
      cases hnext : s.progs e.1 with
      | ret a =>
          rw [step_finished (by rw [hnext]; rfl)]
          exact hs
      | call c k =>
          rw [step_store (c := c) (by rw [hnext]; rfl)]
          exact hkeep e.2 c s.store hs ((h e.1).of_next (by rw [hnext]; rfl))

end Atomic
