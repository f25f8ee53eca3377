import MiniSiem.Lib.Programs

/-! # Traces of a program

What a program does when the replies to its commands may be anything: each trace lists the commands
with the replies they got, and ends with a result.

* **Composition.**  A trace of `p.bind f` is one of `p` followed by one of `f` (`trace_bind`).
* **Kinds of events and results.**  `Emits P p`: whatever the replies, each event of `p` satisfies `P`;
  `Returns Q p`: its result satisfies `Q`.
* **Prefixes.**  `Leads p events q`: after the events the rest of `p` is `q`.
* **Executions.**  The trace of an execution on a store is a trace (`trace_record`). -/

namespace Atomic.Prog

variable {Cmd : Type} {Reply : Cmd → Type} {α β σ : Type}

/-- A command with its reply. -/
abbrev Event (Cmd : Type) (Reply : Cmd → Type) := (c : Cmd) × Reply c

inductive Trace : Prog Cmd Reply α → List (Event Cmd Reply) → α → Prop
  | ret (a : α) : Trace (.ret a) [] a
  | call (c : Cmd) (k : Reply c → Prog Cmd Reply α) (r : Reply c) (rest : List (Event Cmd Reply))
      (a : α) (h : Trace (k r) rest a) : Trace (.call c k) (⟨c, r⟩ :: rest) a

theorem trace_ret {a b : α} {events : List (Event Cmd Reply)} :
    Trace (ret a) events b ↔ events = [] ∧ b = a := by
  constructor
  · rintro ⟨⟩
    exact ⟨rfl, rfl⟩
  · rintro ⟨rfl, rfl⟩
    exact .ret b

theorem trace_call {c : Cmd} {k : Reply c → Prog Cmd Reply α} {events : List (Event Cmd Reply)}
    {a : α} : Trace (call c k) events a ↔ ∃ r rest, events = ⟨c, r⟩ :: rest ∧ Trace (k r) rest a := by
  constructor
  · rintro (_ | ⟨_, _, r, rest, _, h⟩)
    exact ⟨r, rest, rfl, h⟩
  · rintro ⟨r, rest, rfl, h⟩
    exact .call c k r rest a h

theorem trace_bind {p : Prog Cmd Reply α} {f : α → Prog Cmd Reply β}
    {events : List (Event Cmd Reply)} {b : β} :
    Trace (p.bind f) events b ↔
      ∃ front a back, events = front ++ back ∧ Trace p front a ∧ Trace (f a) back b := by
  induction p generalizing events with
  | ret a =>
      rw [ret_bind]
      constructor
      · intro h
        exact ⟨[], a, events, rfl, .ret a, h⟩
      · rintro ⟨front, a', back, rfl, hfront, hback⟩
        obtain ⟨rfl, rfl⟩ := trace_ret.mp hfront
        exact hback
  | call c k ih =>
      rw [call_bind, trace_call]
      constructor
      · rintro ⟨r, rest, rfl, h⟩
        obtain ⟨front, a, back, rfl, hfront, hback⟩ := (ih r).mp h
        exact ⟨⟨c, r⟩ :: front, a, back, rfl, .call c k r front a hfront, hback⟩
      · rintro ⟨front, a, back, rfl, hfront, hback⟩
        obtain ⟨r, rest, rfl, hrest⟩ := trace_call.mp hfront
        exact ⟨r, rest ++ back, rfl, (ih r).mpr ⟨rest, a, back, rfl, hrest, hback⟩⟩

/-! ### What a program emits -/

/-- Each event of the program satisfies `P`. -/
def Emits (P : Event Cmd Reply → Prop) (p : Prog Cmd Reply α) : Prop :=
  ∀ events a, Trace p events a → ∀ e ∈ events, P e

section emits

variable {P : Event Cmd Reply → Prop}

theorem emits_ret (a : α) : Emits P (ret a : Prog Cmd Reply α) := by
  intro events b h e he
  obtain ⟨rfl, -⟩ := trace_ret.mp h
  cases he

theorem emits_call {c : Cmd} {k : Reply c → Prog Cmd Reply α} (hc : ∀ r, P ⟨c, r⟩)
    (hk : ∀ r, Emits P (k r)) : Emits P (call c k) := by
  intro events a h e he
  obtain ⟨r, rest, rfl, hrest⟩ := trace_call.mp h
  rcases List.mem_cons.mp he with rfl | he
  · exact hc r
  · exact hk r rest a hrest e he

theorem emits_bind {p : Prog Cmd Reply α} {f : α → Prog Cmd Reply β} (hp : Emits P p)
    (hf : ∀ a, Emits P (f a)) : Emits P (p.bind f) := by
  intro events b h e he
  obtain ⟨front, a, back, rfl, hfront, hback⟩ := trace_bind.mp h
  rcases List.mem_append.mp he with he | he
  · exact hp front a hfront e he
  · exact hf a back b hback e he

end emits

/-! ### What a program returns -/

/-- Each result of the program satisfies `Q`. -/
def Returns (Q : α → Prop) (p : Prog Cmd Reply α) : Prop := ∀ events a, Trace p events a → Q a

section returns

variable {Q : α → Prop}

theorem returns_ret {a : α} (h : Q a) : Returns Q (ret a : Prog Cmd Reply α) := by
  intro events b htrace
  obtain ⟨-, rfl⟩ := trace_ret.mp htrace
  exact h

theorem returns_call {c : Cmd} {k : Reply c → Prog Cmd Reply α} (hk : ∀ r, Returns Q (k r)) :
    Returns Q (call c k) := by
  intro events a htrace
  obtain ⟨r, rest, -, hrest⟩ := trace_call.mp htrace
  exact hk r rest a hrest

theorem returns_bind {p : Prog Cmd Reply β} {f : β → Prog Cmd Reply α} {R : β → Prop}
    (hp : Returns R p) (hf : ∀ b, R b → Returns Q (f b)) : Returns Q (p.bind f) := by
  intro events a htrace
  obtain ⟨front, b, back, -, hfront, hback⟩ := trace_bind.mp htrace
  exact hf b (hp front b hfront) back a hback

end returns

/-! ### Prefixes -/

inductive Leads : Prog Cmd Reply α → List (Event Cmd Reply) → Prog Cmd Reply α → Prop
  | refl (p : Prog Cmd Reply α) : Leads p [] p
  | call (c : Cmd) (k : Reply c → Prog Cmd Reply α) (r : Reply c) (rest : List (Event Cmd Reply))
      (q : Prog Cmd Reply α) (h : Leads (k r) rest q) : Leads (.call c k) (⟨c, r⟩ :: rest) q

/-- One more command. -/
theorem Leads.snoc {p : Prog Cmd Reply α} {events : List (Event Cmd Reply)} {c : Cmd}
    {k : Reply c → Prog Cmd Reply α} (h : Leads p events (.call c k)) (r : Reply c) :
    Leads p (events ++ [⟨c, r⟩]) (k r) := by
  generalize hq : Prog.call c k = q at h
  induction h with
  | refl p =>
      subst hq
      exact .call c k r [] (k r) (.refl (k r))
  | call c' k' r' rest q h ih => exact .call c' k' r' _ _ (ih hq)

theorem Leads.trace {p : Prog Cmd Reply α} {events : List (Event Cmd Reply)} {a : α}
    (h : Leads p events (.ret a)) : Trace p events a := by
  generalize hq : Prog.ret a = q at h
  induction h with
  | refl p =>
      subst hq
      exact .ret a
  | call c k r rest q h ih => exact .call c k r rest a (ih hq)

/-! ### Executions -/

section executions

variable (exec : (c : Cmd) → σ → Reply c × σ)

/-- The events of an execution. -/
def record : Prog Cmd Reply α → σ → List (Event Cmd Reply)
  | ret _, _ => []
  | call c k, s => ⟨c, (exec c s).1⟩ :: record (k (exec c s).1) (exec c s).2

theorem trace_record (p : Prog Cmd Reply α) (s : σ) :
    Trace p (record exec p s) (run exec p s).1 := by
  induction p generalizing s with
  | ret a => exact .ret a
  | call c k ih => exact .call c k _ _ _ (ih _ _)

end executions

end Atomic.Prog
