import MiniSiem.Lib.Pool

/-! # What a program carries

A program takes amounts out of a store and gives them away again, one command at a time.  In between it
carries them.

* **Amounts.**  `moves c r` is what a command takes with this reply; what it gives away counts negative.
  `Carries moves held n p`: with `n` in hand, whatever the replies, the program ends with what its result
  holds.  What follows from the parts follows for a sequence (`Carries.bind`).
* **One amount.**  If every command has some reply, a program carries one amount only (`Carries.unique`).
* **Pools.**  `Balanced`: one program of a pool carries what an account of the store says.
  `balanced_iff_meets`: it does at all times exactly when every step posts to the account what it moves. -/

namespace Atomic

variable {ι Cmd Env α β σ M : Type} {Reply : Cmd → Type} [AddCommGroup M]

namespace Prog

variable {moves : (c : Cmd) → Reply c → M} {held : α → M} {held' : β → M} {n m : M}
  {p : Prog Cmd Reply α}

/-- With `n` in hand, the program ends with what its result holds. -/
def Carries (moves : (c : Cmd) → Reply c → M) (held : α → M) : M → Prog Cmd Reply α → Prop
  | n, ret a => held a = n
  | n, call c k => ∀ r, (k r).Carries moves held (n + moves c r)

theorem carries_ret {a : α} (h : held a = n) : (ret a : Prog Cmd Reply α).Carries moves held n := h

theorem carries_call {c : Cmd} {k : Reply c → Prog Cmd Reply α}
    (h : ∀ r, (k r).Carries moves held (n + moves c r)) : (call c k).Carries moves held n := h

/-- Whatever the first program holds at its end, the second one begins with. -/
theorem Carries.bind {f : α → Prog Cmd Reply β} (hp : p.Carries moves held n)
    (hf : ∀ a, (f a).Carries moves held' (held a)) : (p.bind f).Carries moves held' n := by
  induction p generalizing n with
  | ret a =>
      obtain rfl : held a = n := hp
      exact hf a
  | call c k ih => exact fun r => ih r (hp r)

/-- Commands that move nothing leave what is carried. -/
theorem carries_of_ensures (h : p.Ensures (fun _ _ _ => True) (fun _ c => ∀ r, moves c r = 0) ()) :
    p.Carries moves (fun _ => n) n := by
  induction p with
  | ret a => rfl
  | call c k ih =>
      intro r
      obtain ⟨hc, hk⟩ := h () le_rfl
      rw [hc r, add_zero]
      exact ih r (hk r trivial)

theorem Carries.unique (hreply : ∀ c, Nonempty (Reply c)) (hn : p.Carries moves held n)
    (hm : p.Carries moves held m) : n = m := by
  induction p generalizing n m with
  | ret a => exact hn.symm.trans hm
  | call c k ih =>
      obtain ⟨r⟩ := hreply c
      exact add_right_cancel (ih r (hn r) (hm r))

theorem Carries.step {c : Cmd} (h : p.Carries moves held n) (hnext : p.next = some c)
    (exec : (c : Cmd) → σ → Reply c × σ) (s : σ) :
    (p.step exec s).1.Carries moves held (n + moves c (exec c s).1) := by
  cases p with
  | ret a => cases hnext
  | call c' k =>
      obtain rfl := Option.some.inj hnext
      exact h _

end Prog

namespace Pool

variable [DecidableEq ι] (exec : Env → (c : Cmd) → σ → Reply c × σ) (moves : (c : Cmd) → Reply c → M)
  (held : α → M) (account : σ → M) (carrier : ι)

/-- One program carries what the account says. -/
def Balanced (s : Pool ι Cmd Reply α σ) : Prop := (s.progs carrier).Carries moves held (account s.store)

/-- The step posts to the account what the carrier moves by it. -/
def PostsMoved (s : Pool ι Cmd Reply α σ) (e : ι × Env) : Prop :=
  ∀ c, (s.progs e.1).next = some c → account (exec e.2 c s.store).2 =
    account s.store + if e.1 = carrier then moves c (exec e.2 c s.store).1 else 0

variable {exec moves held account carrier} {s : Pool ι Cmd Reply α σ}

theorem balanced_step_iff (hreply : ∀ c, Nonempty (Reply c)) (h : Balanced moves held account carrier s)
    (e : ι × Env) :
    Balanced moves held account carrier (step exec s e) ↔ PostsMoved exec moves account carrier s e := by
  cases hnext : (s.progs e.1).next with
  | none =>
      rw [step_finished hnext]
      exact iff_of_true h fun c hc => by
        rw [hnext] at hc
        cases hc
  | some c =>
      -- what the carrier carries after the step
      have hafter : ((step exec s e).progs carrier).Carries moves held
          (account s.store + if e.1 = carrier then moves c (exec e.2 c s.store).1 else 0) := by
        by_cases he : e.1 = carrier
        · rw [if_pos he, ← he, step_progs_self]
          refine Prog.Carries.step ?_ hnext (exec e.2) s.store
          rw [he]
          exact h
        · rw [if_neg he, add_zero, step_progs_of_ne (Ne.symm he)]
          exact h
      unfold Balanced PostsMoved
      rw [step_store hnext]
      constructor
      · intro hbalanced c' hc'
        rw [hnext] at hc'
        obtain rfl := Option.some.inj hc'
        exact hbalanced.unique hreply hafter
      · intro hposts
        rw [hposts c hnext]
        exact hafter

/-- **One program carries what the account says** at all times exactly when each step posts what it moves. -/
theorem balanced_iff_meets (hreply : ∀ c, Nonempty (Reply c)) (h : Balanced moves held account carrier s)
    (es : List (ι × Env)) :
    (∀ front, front <+: es → Balanced moves held account carrier (run exec front s)) ↔
      Meets exec (PostsMoved exec moves account carrier) es s :=
  holds_iff_meets (J := fun _ => True) (fun _ _ => trivial)
    (fun _ e _ _ hs => balanced_step_iff hreply hs e) h

end Pool

end Atomic
