import MiniSiem.Lib.Pool
import MiniSiem.Lib.Traces

/-! # What a program comes to

A world is what is known for good: it only grows.  A reply may add to it.

* **Outcomes.**  `Yields R Q w p`: from the world `w` on, with replies as `R` has them, the program ends
  with a result as `Q` has it (`yields_ret`, `yields_call`, `Yields.bind`).  A world that grows
  keeps the outcome (`Yields.mono`).
* **Alone.**  `succeeds` says that no command fails when the program runs alone; what every command it
  issues keeps holds after it (`Ensures.run_invariant`), and so does its outcome (`Yields.run`).
* **Pools.**  `yields_run`: the outcome of one program of a pool, if its own replies are as `R` has them;
  the others only add to the world.  `yields_fronts`: its outcome from what its own steps are, at their
  places in the run. -/

namespace Atomic

variable {ι Cmd Env W α β σ : Type} {Reply : Cmd → Type} [Preorder W]

namespace Prog

variable {R : W → (c : Cmd) → Reply c → W → Prop} {Q : W → α → Prop}

def Yields (R : W → (c : Cmd) → Reply c → W → Prop) (Q : W → α → Prop) : W → Prog Cmd Reply α → Prop
  | w, ret a => Q w a
  | w, call c k => ∀ w', w ≤ w' → ∀ r w'', R w' c r w'' → (k r).Yields R Q w''

theorem yields_ret {w : W} {a : α} (h : Q w a) : (ret a : Prog Cmd Reply α).Yields R Q w := h

theorem yields_call {w : W} {c : Cmd} {k : Reply c → Prog Cmd Reply α}
    (h : ∀ w', w ≤ w' → ∀ r w'', R w' c r w'' → (k r).Yields R Q w'') : (call c k).Yields R Q w := h

theorem Yields.mono (hQ : ∀ w w' a, w ≤ w' → Q w a → Q w' a) {p : Prog Cmd Reply α} {w w' : W}
    (h : p.Yields R Q w) (hle : w ≤ w') : p.Yields R Q w' := by
  cases p with
  | ret a => exact hQ w w' a hle h
  | call c k => exact fun w'' hle' => h w'' (hle.trans hle')

theorem Yields.imp {Q' : W → α → Prop} (hQ : ∀ w a, Q w a → Q' w a) {p : Prog Cmd Reply α} {w : W}
    (h : p.Yields R Q w) : p.Yields R Q' w := by
  induction p generalizing w with
  | ret a => exact hQ w a h
  | call c k ih => exact fun w' hle r w'' hr => ih r (h w' hle r w'' hr)

theorem Yields.bind {Q' : W → β → Prop} {p : Prog Cmd Reply α} {f : α → Prog Cmd Reply β} {w : W}
    (hp : p.Yields R Q w) (hf : ∀ w' a, Q w' a → (f a).Yields R Q' w') :
    (p.bind f).Yields R Q' w := by
  induction p generalizing w with
  | ret a => exact hf w a hp
  | call c k ih => exact fun w' hle r w'' hr => ih r (hp w' hle r w'' hr)

/-- Whatever it does, a program ends in a later world. -/
theorem yields_later (hR : ∀ w c r w', R w c r w' → w ≤ w') {p : Prog Cmd Reply α} {w w₀ : W}
    (hle : w₀ ≤ w) : p.Yields R (fun w' _ => w₀ ≤ w') w := by
  induction p generalizing w with
  | ret a => exact hle
  | call c k ih => exact fun w' hle' r w'' hr => ih r ((hle.trans hle').trans (hR w' c r w'' hr))

theorem Yields.step {p : Prog Cmd Reply α} {w w' : W} (h : p.Yields R Q w)
    {exec : (c : Cmd) → σ → Reply c × σ} {s : σ}
    (hR : ∀ c, p.next = some c → R w c (exec c s).1 w') (hfinished : p.next = none → w' = w) :
    (Prog.step exec p s).1.Yields R Q w' := by
  cases p with
  | ret a =>
      rw [hfinished rfl]
      exact h
  | call c k => exact h w le_rfl _ w' (hR c rfl)

/-- What every command satisfies, each event of a trace does. -/
theorem Ensures.emits {Q : W → Cmd → Prop} {p : Prog Cmd Reply α} {w : W}
    (h : p.Ensures (fun _ _ _ => True) Q w) : Emits (fun e => Q w e.1) p := by
  induction p with
  | ret a => exact emits_ret a
  | call c k ih =>
      obtain ⟨hc, hk⟩ := h w le_rfl
      exact emits_call (fun _ => hc) fun r => ih r (hk r trivial)

/-! ### A program alone -/

section alone

variable (exec : (c : Cmd) → σ → Reply c × σ)

/-- No command fails when the program runs alone from `s`. -/
def succeeds (failed : (c : Cmd) → Reply c → Bool) : Prog Cmd Reply α → σ → Bool
  | ret _, _ => true
  | call c k, s => !failed c (exec c s).1 && succeeds failed (k (exec c s).1) (exec c s).2

variable {exec}

theorem Ensures.run_invariant {R : W → (c : Cmd) → Reply c → Prop} {Q : W → Cmd → Prop} {w : W}
    {J : σ → Prop} (hR : ∀ c r, R w c r) (hJ : ∀ c s, Q w c → J s → J (exec c s).2)
    {p : Prog Cmd Reply α} (hp : p.Ensures R Q w) {s : σ} (hs : J s) : J (p.run exec s).2 := by
  induction p generalizing s with
  | ret a => exact hs
  | call c k ih =>
      obtain ⟨hc, hk⟩ := hp w le_rfl
      exact ih _ (hk _ (hR c _)) (hJ c s hc hs)

/-- The outcome of a program alone. -/
theorem Yields.run {facts : σ → W} (hR : ∀ c s, R (facts s) c (exec c s).1 (facts (exec c s).2))
    {p : Prog Cmd Reply α} {s : σ} (h : p.Yields R Q (facts s)) :
    Q (facts (p.run exec s).2) (p.run exec s).1 := by
  induction p generalizing s with
  | ret a => exact h
  | call c k ih => exact ih _ (h _ le_rfl _ _ (hR c s))

end alone

end Prog

namespace Pool

variable [DecidableEq ι] {exec : Env → (c : Cmd) → σ → Reply c × σ}
  {R : W → (c : Cmd) → Reply c → W → Prop} {Q : W → α → Prop}
  {J : Pool ι Cmd Reply α σ → Prop} {ok : Pool ι Cmd Reply α σ → ι × Env → Prop} {i : ι}

/-- The outcome of a program all of whose own steps are fair. -/
theorem yields_run (facts : σ → W) (fair : Env → Prop) (hQ : ∀ w w' a, w ≤ w' → Q w a → Q w' a)
    (hJ : ∀ s e, J s → ok s e → J (step exec s e))
    (hgrow : ∀ s e, J s → ok s e → facts s.store ≤ facts (step exec s e).store)
    (hreply : ∀ s e, J s → ok s e → e.1 = i → fair e.2 → ∀ c, (s.progs e.1).next = some c →
      R (facts s.store) c (exec e.2 c s.store).1 (facts (exec e.2 c s.store).2))
    {es : List (ι × Env)} {s : Pool ι Cmd Reply α σ} (hs : J s) (hok : Meets exec ok es s)
    (hfair : ∀ e ∈ es, e.1 = i → fair e.2) (h : (s.progs i).Yields R Q (facts s.store)) :
    ((run exec es s).progs i).Yields R Q (facts (run exec es s).store) := by
  induction es generalizing s with
  | nil => exact h
  | cons e es ih =>
      obtain ⟨hfirst, hrest⟩ := List.forall_mem_cons.mp hfair
      refine ih (hJ s e hs hok.1) hok.2 hrest ?_
      by_cases hi : e.1 = i
      · subst hi
        rw [step_progs_self]
        refine h.step (fun c hc => ?_) fun hfinished => ?_
        · rw [step_store hc]
          exact hreply s e hs hok.1 rfl (hfirst rfl) c hc
        · rw [step_finished hfinished]
      · rw [step_progs_of_ne (Ne.symm hi)]
        exact h.mono hQ (hgrow s e hs hok.1)

omit [Preorder W] in
/-- The outcome of a program in a run, from what is known of its own steps; the world is their number in the
run. -/
theorem yields_fronts {R : ℕ → (c : Cmd) → Reply c → Prop} {Q : α → Prop} {s : Pool ι Cmd Reply α σ}
    (es : List (ι × Env))
    (hreply : ∀ front env, front ++ [(i, env)] <+: es → ∀ c, ((run exec front s).progs i).next = some c →
      R front.length c (exec env c (run exec front s).store).1)
    (h : (s.progs i).Yields (fun n c r n' => R n c r ∧ n < n') (fun _ => Q) 0) :
    ((run exec es s).progs i).Yields (fun n c r n' => R n c r ∧ n < n') (fun _ => Q) es.length := by
  induction es using List.reverseRecOn with
  | nil => exact h
  | append_singleton es e ih =>
      have hbefore := ih fun front env hfront => hreply front env (hfront.trans (List.prefix_append es [e]))
      have hlater : es.length ≤ (es ++ [e]).length := by simp
      rw [run_append, run_cons, run_nil]
      by_cases hi : e.1 = i
      · subst hi
        rw [step_progs_self]
        cases hnext : ((run exec es s).progs e.1).next with
        | none =>
            refine (hbefore.step (fun c hc => ?_) fun _ => rfl).mono (fun _ _ _ _ hq => hq) hlater
            exact nomatch hnext.symm.trans hc
        | some c =>
            refine hbefore.step (fun c hc => ⟨hreply es e.2 (List.prefix_refl _) c hc, ?_⟩) fun hnone => ?_
            · simp
            · exact nomatch hnone.symm.trans hnext
      · rw [step_progs_of_ne (Ne.symm hi)]
        exact hbefore.mono (fun _ _ _ _ hq => hq) hlater

end Pool

end Atomic
