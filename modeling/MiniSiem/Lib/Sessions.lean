import MiniSiem.Lib.Guarantees
import MiniSiem.Lib.Pool
import MiniSiem.Lib.Runs

/-! # Calls one after the other

A call runs its program alone, and each of its commands meets an environment of its own (a clock, a failure).
The environments are given as a list; a call that has used them up stops where it is.

* **One call.**  `runIn` executes a program in a list of environments, `Along` says that every command
  meets a condition and that the program comes to its end.  What a program guarantees under the condition
  is what such a run ends with (`Guarantees.along`); what each command keeps is kept by every run, also by one
  that stops early (`runIn_invariant`).
* **Sessions.**  `sessionStep` is the machine of the calls: each one moves an account of what was asked for
  and the store. -/

namespace Atomic

variable {Cmd : Type} {Reply : Cmd → Type} {α σ Env : Type}

namespace Prog

section execution

variable (exec : Env → (c : Cmd) → σ → Reply c × σ)

/-- The program runs, one environment for each command; there is no result if it stops early. -/
def runIn : List Env → Prog Cmd Reply α → σ → Option α × σ
  | _, ret a, s => (some a, s)
  | [], call _ _, s => (none, s)
  | e :: es, call c k, s => runIn es (k (exec e c s).1) (exec e c s).2

/-- Every command of the run meets `ok`, and the program comes to its end. -/
def Along (ok : Env → σ → Cmd → Prop) : List Env → Prog Cmd Reply α → σ → Prop
  | _, ret _, _ => True
  | [], call _ _, _ => False
  | e :: es, call c k, s => ok e s c ∧ Along ok es (k (exec e c s).1) (exec e c s).2

instance instDecidableAlong (ok : Env → σ → Cmd → Prop) [∀ e s c, Decidable (ok e s c)] :
    (es : List Env) → (p : Prog Cmd Reply α) → (s : σ) → Decidable (p.Along exec ok es s)
  | [], ret _, _ => isTrue trivial
  | _ :: _, ret _, _ => isTrue trivial
  | [], call _ _, _ => isFalse id
  | e :: es, call c k, s =>
      @instDecidableAnd _ _ _ (instDecidableAlong ok es (k (exec e c s).1) (exec e c s).2)

@[simp] theorem runIn_ret (es : List Env) (a : α) (s : σ) :
    runIn exec es (ret a : Prog Cmd Reply α) s = (some a, s) := by
  cases es <;> rfl

@[simp] theorem runIn_cons (e : Env) (es : List Env) (c : Cmd) (k : Reply c → Prog Cmd Reply α) (s : σ) :
    runIn exec (e :: es) (call c k) s = runIn exec es (k (exec e c s).1) (exec e c s).2 := rfl

end execution

variable {exec : Env → (c : Cmd) → σ → Reply c × σ} {ok : Env → σ → Cmd → Prop}
  {R : σ → (c : Cmd) → Reply c → σ → Prop} {G : σ → σ → Prop} {Q : σ → α → Prop}

theorem runIn_call_eq_some {c : Cmd} {k : Reply c → Prog Cmd Reply α} {es : List Env} {s : σ} {a : α}
    (h : ((call c k).runIn exec es s).1 = some a) :
    ∃ e rest, es = e :: rest ∧ ((k (exec e c s).1).runIn exec rest (exec e c s).2).1 = some a := by
  cases es with
  | nil => cases h
  | cons e rest => exact ⟨e, rest, rfl, h⟩

theorem Along.and {ok' : Env → σ → Cmd → Prop} {p : Prog Cmd Reply α} {es : List Env} {s : σ}
    (h : p.Along exec ok es s) (h' : p.Along exec ok' es s) :
    p.Along exec (fun e s c => ok e s c ∧ ok' e s c) es s := by
  induction p generalizing es s with
  | ret a => cases es <;> trivial
  | call c k ih =>
      cases es with
      | nil => exact h
      | cons e es => exact ⟨⟨h.1, h'.1⟩, ih _ h.2 h'.2⟩

/-- What a program guarantees holds at the end of a run whose commands meet the condition. -/
theorem Guarantees.along (hR : ∀ e s c, ok e s c → R s c (exec e c s).1 (exec e c s).2)
    {p : Prog Cmd Reply α} {es : List Env} {s : σ} (h : p.Guarantees R G Q s)
    (halong : p.Along exec ok es s) :
    ∃ a, (p.runIn exec es s).1 = some a ∧ Q (p.runIn exec es s).2 a := by
  induction p generalizing es s with
  | ret a =>
      rw [runIn_ret]
      exact ⟨a, rfl, h⟩
  | call c k ih =>
      cases es with
      | nil => exact halong.elim
      | cons e es => exact ih _ (h _ _ (hR e s c halong.1)).2 halong.2

/-- Commands of a kind keep a relation between the store and what is left of the environments. -/
theorem runIn_invariant {W : Type} [Preorder W] {K : W → Cmd → Prop} {J : List Env → σ → Prop}
    (hstep : ∀ e es s w c, K w c → J (e :: es) s → J es (exec e c s).2) {p : Prog Cmd Reply α} {w : W}
    (hp : p.Ensures (fun _ _ _ => True) K w) {es : List Env} {s : σ} (hJ : J es s) :
    ∃ rest, J rest (p.runIn exec es s).2 := by
  induction p generalizing es s w with
  | ret a =>
      rw [runIn_ret]
      exact ⟨es, hJ⟩
  | call c k ih =>
      obtain ⟨hc, hk⟩ := hp w le_rfl
      cases es with
      | nil => exact ⟨[], hJ⟩
      | cons e es => exact ih _ (hk _ trivial) (hstep e es s w c hc hJ)

end Prog

/-- The next call of a session. -/
def sessionStep {ι A : Type} (exec : Env → (c : Cmd) → σ → Reply c × σ) (prog : ι → Prog Cmd Reply α)
    (next : A → ι → A) (s : A × σ) (call : ι × List Env) : Option (A × σ) :=
  some (next s.1 call.1, ((prog call.1).runIn exec call.2 s.2).2)

end Atomic
