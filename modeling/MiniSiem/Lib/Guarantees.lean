import MiniSiem.Lib.Programs

/-! # What the steps of a program guarantee

A store that changes by itself and a call that may fail make the answer to a call a relation:
`R s c r s'` says that from the store `s` on the call `c` may be answered with `r` and leave `s'`.

* **Plays.**  `Plays R p s l a s'`: the program may run from `s` to its result `a`, through the stores
  `l`, of which `s'` is the last one (`Plays.getLast?`).
* **Guarantees.**  `Guarantees R G Q s p`: whatever the answers, each step of the program is as `G` has
  it and it ends as `Q` has it; one rule for each constructor, for `bind` and for weaker conditions.
  `Guarantees.plays` turns it into a statement on all plays, `Guarantees.run` into one on the run alone. -/

namespace Atomic

namespace Prog

variable {Cmd α β σ : Type} {Reply : Cmd → Type}

/-- A run of the program: the stores it leaves behind, one for each call, its result and its last
store. -/
inductive Plays (R : σ → (c : Cmd) → Reply c → σ → Prop) :
    Prog Cmd Reply α → σ → List σ → α → σ → Prop where
  | ret (a : α) (s : σ) : Plays R (.ret a) s [] a s
  | call {c : Cmd} {k : Reply c → Prog Cmd Reply α} {s s₁ s' : σ} {r : Reply c} {l : List σ} {a : α}
      (hr : R s c r s₁) (hk : Plays R (k r) s₁ l a s') : Plays R (.call c k) s (s₁ :: l) a s'

variable {R : σ → (c : Cmd) → Reply c → σ → Prop}

theorem plays_ret {a b : α} {s s' : σ} {l : List σ} :
    (ret a : Prog Cmd Reply α).Plays R s l b s' ↔ l = [] ∧ b = a ∧ s' = s := by
  constructor
  · intro h
    cases h
    exact ⟨rfl, rfl, rfl⟩
  · rintro ⟨rfl, rfl, rfl⟩
    exact .ret _ _

theorem plays_call {c : Cmd} {k : Reply c → Prog Cmd Reply α} {s s' : σ} {l : List σ} {a : α} :
    (call c k).Plays R s l a s' ↔
      ∃ r s₁ l', R s c r s₁ ∧ (k r).Plays R s₁ l' a s' ∧ l = s₁ :: l' := by
  constructor
  · intro h
    cases h with
    | call hr hk => exact ⟨_, _, _, hr, hk, rfl⟩
  · rintro ⟨r, s₁, l', hr, hk, rfl⟩
    exact .call hr hk

/-- A play ends in the last store it leaves behind. -/
theorem Plays.getLast? {p : Prog Cmd Reply α} {s s' : σ} {l : List σ} {a : α}
    (h : p.Plays R s l a s') : (s :: l).getLast? = some s' := by
  induction h with
  | ret a s => rfl
  | call hr hk ih =>
      rw [List.getLast?_cons_cons]
      exact ih

/-- The play of a program alone, when every call is answered at once. -/
theorem plays_run {exec : (c : Cmd) → σ → Reply c × σ}
    (hR : ∀ s c, R s c (exec c s).1 (exec c s).2) (p : Prog Cmd Reply α) (s : σ) :
    ∃ l, p.Plays R s l (p.run exec s).1 (p.run exec s).2 := by
  induction p generalizing s with
  | ret a => exact ⟨[], .ret a s⟩
  | call c k ih =>
      obtain ⟨l, hl⟩ := ih (exec c s).1 (exec c s).2
      exact ⟨_, .call (hR s c) hl⟩

/-! ### Guarantees -/

section guarantees

variable {G : σ → σ → Prop} {Q : σ → α → Prop}

/-- Each step of the program is as `G` has it, and it ends as `Q` has it. -/
def Guarantees (R : σ → (c : Cmd) → Reply c → σ → Prop) (G : σ → σ → Prop) (Q : σ → α → Prop) :
    σ → Prog Cmd Reply α → Prop
  | s, ret a => Q s a
  | s, call c k => ∀ r s', R s c r s' → G s s' ∧ (k r).Guarantees R G Q s'

theorem guarantees_ret {s : σ} {a : α} (h : Q s a) :
    (ret a : Prog Cmd Reply α).Guarantees R G Q s := h

theorem guarantees_call {s : σ} {c : Cmd} {k : Reply c → Prog Cmd Reply α}
    (h : ∀ r s', R s c r s' → G s s' ∧ (k r).Guarantees R G Q s') :
    (call c k).Guarantees R G Q s := h

theorem Guarantees.imp {Q' : σ → α → Prop} (hQ : ∀ s a, Q s a → Q' s a) {p : Prog Cmd Reply α}
    {s : σ} (h : p.Guarantees R G Q s) : p.Guarantees R G Q' s := by
  induction p generalizing s with
  | ret a => exact hQ s a h
  | call c k ih =>
      intro r s' hr
      obtain ⟨hG, hk⟩ := h r s' hr
      exact ⟨hG, ih r hk⟩

theorem Guarantees.bind {Q' : σ → β → Prop} {p : Prog Cmd Reply α} {f : α → Prog Cmd Reply β}
    {s : σ} (hp : p.Guarantees R G Q s) (hf : ∀ s' a, Q s' a → (f a).Guarantees R G Q' s') :
    (p.bind f).Guarantees R G Q' s := by
  induction p generalizing s with
  | ret a => exact hf s a hp
  | call c k ih =>
      intro r s' hr
      obtain ⟨hG, hk⟩ := hp r s' hr
      exact ⟨hG, ih r hk⟩

/-- What a program guarantees holds of each of its plays. -/
theorem Guarantees.plays {p : Prog Cmd Reply α} {s s' : σ} {l : List σ} {a : α}
    (h : p.Guarantees R G Q s) (hp : p.Plays R s l a s') : List.IsChain G (s :: l) ∧ Q s' a := by
  induction hp with
  | ret a s => exact ⟨List.isChain_singleton s, h⟩
  | call hr hk ih =>
      obtain ⟨hG, hrest⟩ := h _ _ hr
      obtain ⟨hchain, hQ⟩ := ih hrest
      exact ⟨List.isChain_cons_cons.mpr ⟨hG, hchain⟩, hQ⟩

/-- What a program guarantees holds when it runs alone and every call is answered at once. -/
theorem Guarantees.run {exec : (c : Cmd) → σ → Reply c × σ} {J : σ → Prop}
    (hR : ∀ s c, R s c (exec c s).1 (exec c s).2) (hG : ∀ s s', G s s' → J s')
    {p : Prog Cmd Reply α} {s : σ} (hs : J s) (h : p.Guarantees R G Q s) :
    p.Always exec J s ∧ Q (p.run exec s).2 (p.run exec s).1 := by
  induction p generalizing s with
  | ret a => exact ⟨always_ret hs, h⟩
  | call c k ih =>
      obtain ⟨hstep, hk⟩ := h _ _ (hR s c)
      obtain ⟨halways, hend⟩ := ih _ (hG _ _ hstep) hk
      exact ⟨always_call hs halways, hend⟩

end guarantees

end Prog

/-- A chain goes on where it ended. -/
theorem isChain_append_last {σ : Type} {G : σ → σ → Prop} {s t : σ} {l l' : List σ}
    (h : List.IsChain G (s :: l)) (ht : (s :: l).getLast? = some t)
    (h' : List.IsChain G (t :: l')) : List.IsChain G (s :: (l ++ l')) := by
  induction l generalizing s with
  | nil =>
      obtain rfl := Option.some.inj ht
      exact h'
  | cons u l ih =>
      obtain ⟨hsu, hrest⟩ := List.isChain_cons_cons.mp h
      rw [List.getLast?_cons_cons] at ht
      exact List.isChain_cons_cons.mpr ⟨hsu, ih hrest ht⟩

/-- What one step keeps holds in every store of a chain of steps. -/
theorem forall_mem_of_isChain {σ : Type} {G : σ → σ → Prop} {J : σ → Prop}
    (hG : ∀ s s', J s → G s s' → J s') {s : σ} {l : List σ} (hs : J s)
    (h : List.IsChain G (s :: l)) : ∀ s' ∈ s :: l, J s' := by
  induction l generalizing s with
  | nil =>
      intro s' hs'
      rw [List.mem_singleton.mp hs']
      exact hs
  | cons t l ih =>
      obtain ⟨hst, hrest⟩ := List.isChain_cons_cons.mp h
      intro s' hs'
      rcases List.mem_cons.mp hs' with rfl | hs'
      · exact hs
      · exact ih (hG s t hs hst) hrest s' hs'

end Atomic
