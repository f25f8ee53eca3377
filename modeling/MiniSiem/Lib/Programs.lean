import Mathlib.Tactic

/-! # Programs of atomic commands

A program issues one command at a time to a shared store and continues with the reply
(`Prog`).  A command is atomic; between two commands of a program anything may happen to the
store.

`run` executes a program alone, and `step` executes its next command.  `visited` lists the stores in which a
program that runs alone issues its commands, `accesses` what these commands do to them, and `Always` says that a
property holds in all of these stores and in the last one. -/

namespace Atomic

inductive Prog (Cmd : Type) (Reply : Cmd → Type) (α : Type) where
  | ret (a : α)
  | call (c : Cmd) (k : Reply c → Prog Cmd Reply α)

namespace Prog

variable {Cmd : Type} {Reply : Cmd → Type} {α β σ : Type}

def bind : Prog Cmd Reply α → (α → Prog Cmd Reply β) → Prog Cmd Reply β
  | ret a, f => f a
  | call c k, f => call c (fun r => (k r).bind f)

@[simp] theorem ret_bind (a : α) (f : α → Prog Cmd Reply β) : (ret a).bind f = f a := rfl

@[simp] theorem call_bind (c : Cmd) (k : Reply c → Prog Cmd Reply α) (f : α → Prog Cmd Reply β) :
    (call c k).bind f = call c (fun r => (k r).bind f) := rfl

theorem bind_ret (p : Prog Cmd Reply α) : (p.bind fun a => ret a) = p := by
  induction p with
  | ret a => rfl
  | call c k ih =>
      rw [call_bind]
      exact congrArg (call c) (funext ih)

theorem bind_assoc {γ : Type} (p : Prog Cmd Reply α) (f : α → Prog Cmd Reply β)
    (g : β → Prog Cmd Reply γ) : (p.bind f).bind g = p.bind (fun a => (f a).bind g) := by
  induction p with
  | ret a => rfl
  | call c k ih =>
      simp only [call_bind]
      congr 1
      funext reply
      exact ih reply

/-- The program has no further command to issue. -/
def finished : Prog Cmd Reply α → Bool
  | ret _ => true
  | call _ _ => false

@[simp] theorem finished_ret (a : α) : (ret a : Prog Cmd Reply α).finished = true := rfl

@[simp] theorem finished_call (c : Cmd) (k : Reply c → Prog Cmd Reply α) :
    (call c k).finished = false := rfl

/-- The command the program issues next. -/
def next : Prog Cmd Reply α → Option Cmd
  | ret _ => none
  | call c _ => some c

section execution

variable (exec : (c : Cmd) → σ → Reply c × σ)

/-- The next command of the program; a finished program does not move. -/
def step : Prog Cmd Reply α → σ → Prog Cmd Reply α × σ
  | ret a, s => (ret a, s)
  | call c k, s => (k (exec c s).1, (exec c s).2)

@[simp] theorem step_ret (a : α) (s : σ) :
    (ret a : Prog Cmd Reply α).step exec s = (ret a, s) := rfl

@[simp] theorem step_call (c : Cmd) (k : Reply c → Prog Cmd Reply α) (s : σ) :
    (call c k).step exec s = (k (exec c s).1, (exec c s).2) := rfl

def run : Prog Cmd Reply α → σ → α × σ
  | ret a, s => (a, s)
  | call c k, s => run (k (exec c s).1) (exec c s).2

/-- The stores in which the program issues its commands when it runs alone from `s`. -/
def visited : Prog Cmd Reply α → σ → List σ
  | ret _, _ => []
  | call c k, s => s :: visited (k (exec c s).1) (exec c s).2

@[simp] theorem run_ret (a : α) (s : σ) : run exec (ret a : Prog Cmd Reply α) s = (a, s) := rfl

@[simp] theorem run_call (c : Cmd) (k : Reply c → Prog Cmd Reply α) (s : σ) :
    run exec (call c k) s = run exec (k (exec c s).1) (exec c s).2 := rfl

@[simp] theorem visited_ret (a : α) (s : σ) : visited exec (ret a : Prog Cmd Reply α) s = [] := rfl

@[simp] theorem visited_call (c : Cmd) (k : Reply c → Prog Cmd Reply α) (s : σ) :
    visited exec (call c k) s = s :: visited exec (k (exec c s).1) (exec c s).2 := rfl

theorem run_bind (p : Prog Cmd Reply α) (f : α → Prog Cmd Reply β) (s : σ) :
    run exec (p.bind f) s = run exec (f (run exec p s).1) (run exec p s).2 := by
  induction p generalizing s with
  | ret a => rfl
  | call c k ih => exact ih _ _

theorem visited_bind (p : Prog Cmd Reply α) (f : α → Prog Cmd Reply β) (s : σ) :
    visited exec (p.bind f) s =
      visited exec p s ++ visited exec (f (run exec p s).1) (run exec p s).2 := by
  induction p generalizing s with
  | ret a => rfl
  | call c k ih => rw [call_bind, visited_call, visited_call, ih]; rfl

/-- `P` holds in every store the program visits and in the one it ends in. -/
def Always (P : σ → Prop) (p : Prog Cmd Reply α) (s : σ) : Prop :=
  (∀ m ∈ visited exec p s, P m) ∧ P (run exec p s).2

variable {exec} {P : σ → Prop}

theorem always_ret {a : α} {s : σ} (h : P s) : Always exec P (ret a : Prog Cmd Reply α) s :=
  ⟨fun _ hm => (List.not_mem_nil hm).elim, h⟩

theorem always_call {c : Cmd} {k : Reply c → Prog Cmd Reply α} {s : σ} (h : P s)
    (hk : Always exec P (k (exec c s).1) (exec c s).2) : Always exec P (call c k) s := by
  refine ⟨fun m hm => ?_, hk.2⟩
  rcases List.mem_cons.mp hm with rfl | hm
  · exact h
  · exact hk.1 m hm

theorem always_bind {p : Prog Cmd Reply α} {f : α → Prog Cmd Reply β} {s : σ}
    (hp : Always exec P p s) (hf : Always exec P (f (run exec p s).1) (run exec p s).2) :
    Always exec P (p.bind f) s := by
  refine ⟨fun m hm => ?_, by rw [run_bind]; exact hf.2⟩
  rw [visited_bind, List.mem_append] at hm
  exact hm.elim (hp.1 m) (hf.1 m)

end execution

end Prog

end Atomic
