import MiniSiem.Lib.Pool

/-! # Two updates of one row

Two programs each read a row, compute a new one and write it back whole, beside each other on one
store.

* **Access.**  `Access` says which commands show the row and which replace it.
* **Calls.**  A `Call` has the fields it changes and what it makes of them.  `Follows` says that a
  program reads the row and then writes, at most once, what it has read last with these changes.
* **Result.**  `kept_iff_fresh`: after two calls that change different fields the row holds the
  changes of both exactly when every write was computed from a row with the stored values in
  the fields of the other call. -/

namespace RowUpdate

open Atomic

variable {Cmd Env α σ φ : Type} {Reply : Cmd → Type} {V : φ → Type}

/-- How the allowed commands act on one row, given by its fields, and which replies they can have.  A
write shows the row it was computed from and the row it has stored. -/
structure Access (exec : Env → (c : Cmd) → σ → Reply c × σ) (V : φ → Type) where
  field : σ → (f : φ) → V f
  allowed : Cmd → Prop
  possible : (c : Cmd) → Reply c → Prop
  reads : (c : Cmd) → Reply c → Option ((f : φ) → V f)
  writes : (c : Cmd) → Reply c → Option (((f : φ) → V f) × ((f : φ) → V f))
  of_possible : ∀ e c s, possible c (exec e c s).1
  of_reads : ∀ e c s r, reads c (exec e c s).1 = some r → r = field s
  of_writes : ∀ e c s l w, writes c (exec e c s).1 = some (l, w) → field (exec e c s).2 = w
  of_not_writes : ∀ e c s, allowed c → writes c (exec e c s).1 = none →
    field (exec e c s).2 = field s

/-- The fields a call changes, and what is asked of the row it stores. -/
structure Call (V : φ → Type) where
  fields : φ → Bool
  values : ((f : φ) → V f) → Prop

/-- The second row is the first with the changes of the call. -/
def Call.Edits (call : Call V) (l w : (f : φ) → V f) : Prop :=
  (∀ f, ¬ call.fields f → w f = l f) ∧ call.values w

/-- The call that gives some fields a value. -/
def Call.ofValues (value : (f : φ) → Option (V f)) : Call V where
  fields f := (value f).isSome
  values w := ∀ f v, value f = some v → w f = v

theorem Call.edits_ofValues {value : (f : φ) → Option (V f)} {l w : (f : φ) → V f}
    (h : ∀ f, w f = (value f).getD (l f)) : (Call.ofValues value).Edits l w := by
  constructor
  · intro f hf
    rw [h, Option.not_isSome_iff_eq_none.mp hf, Option.getD_none]
  · intro f v hv
    rw [h, hv, Option.getD_some]

inductive Phase (V : φ → Type)
  | start
  | loaded (r : (f : φ) → V f)
  | stored

variable {exec : Env → (c : Cmd) → σ → Reply c × σ} (A : Access exec V)

/-- `P` holds of the phase after the reply of a command, which writes only the row read last, with the
changes of the call, and only once. -/
def AfterReply (call : Call V) (P : Phase V → Prop) (phase : Phase V) (c : Cmd) (r : Reply c) : Prop :=
  match A.writes c r, A.reads c r with
  | some (l, w), _ => phase = .loaded l ∧ call.Edits l w ∧ P .stored
  | none, some row => phase ≠ .stored ∧ P (.loaded row)
  | none, none => P phase

/-- From the phase on, the program reads and writes the row as a call does, and it succeeds only after
a write. -/
def Follows (ok : α → Prop) (call : Call V) : Phase V → Prog Cmd Reply α → Prop
  | phase, .ret a => ok a → phase = .stored
  | phase, .call c k =>
      A.allowed c ∧ ∀ r, A.possible c r →
        AfterReply A call (fun phase' => Follows ok call phase' (k r)) phase c r

/-- The command neither shows the row nor writes it. -/
def Neutral (c : Cmd) : Prop := A.allowed c ∧ ∀ r, A.writes c r = none ∧ A.reads c r = none

/-- What the next step of the program at `e` writes. -/
def stepWrites (s : Pool Bool Cmd Reply α σ) (e : Bool × Env) :
    Option (((f : φ) → V f) × ((f : φ) → V f)) :=
  match s.progs e.1 with
  | .ret _ => none
  | .call c _ => A.writes c (exec e.2 c s.store).1

/-- Program `i` stores the row `w` at the step. -/
def Stores (i : Bool) (w : (f : φ) → V f) (s : Pool Bool Cmd Reply α σ) (e : Bool × Env) : Prop :=
  e.1 = i ∧ ∃ l, stepWrites A s e = some (l, w)

/-- Program `i` stores the row `w` at some step of the schedule. -/
def StoredBy (i : Bool) (w : (f : φ) → V f) :
    List (Bool × Env) → Pool Bool Cmd Reply α σ → Prop
  | [], _ => False
  | e :: es, s => Stores A i w s e ∨ StoredBy i w es (Pool.step exec s e)

variable (calls : Bool → Call V)

/-- A write is computed from a row with the stored values in the fields of the other call. -/
def WritesFresh (s : Pool Bool Cmd Reply α σ) (e : Bool × Env) : Prop :=
  ∀ l w, stepWrites A s e = some (l, w) → ∀ f, (calls (!e.1)).fields f → l f = A.field s.store f

/-- Each call has stored a row with its values, and the row holds them in the fields of the call. -/
def Kept (schedule : List (Bool × Env)) (s : Pool Bool Cmd Reply α σ) : Prop :=
  ∀ i, ∃ w, StoredBy A i w schedule s ∧ (calls i).values w ∧
    ∀ f, (calls i).fields f → A.field (Pool.run exec schedule s).store f = w f

section follows

variable {A} {ok : α → Prop} {call : Call V} {P : Phase V → Prop} {phase : Phase V} {c : Cmd}
  {r : Reply c}

theorem AfterReply.of_write {l w : (f : φ) → V f} (hwrites : A.writes c r = some (l, w))
    (hphase : phase = .loaded l) (hedits : call.Edits l w) (h : P .stored) :
    AfterReply A call P phase c r := by
  unfold AfterReply
  rw [hwrites]
  exact ⟨hphase, hedits, h⟩

theorem AfterReply.of_read {row : (f : φ) → V f} (hwrites : A.writes c r = none)
    (hreads : A.reads c r = some row) (hphase : phase ≠ .stored) (h : P (.loaded row)) :
    AfterReply A call P phase c r := by
  unfold AfterReply
  rw [hwrites, hreads]
  exact ⟨hphase, h⟩

theorem AfterReply.of_neither (hwrites : A.writes c r = none) (hreads : A.reads c r = none)
    (h : P phase) : AfterReply A call P phase c r := by
  unfold AfterReply
  rw [hwrites, hreads]
  exact h

theorem follows_call_of_neutral {k : Reply c → Prog Cmd Reply α} (hc : Neutral A c)
    (hk : ∀ r, Follows A ok call phase (k r)) : Follows A ok call phase (.call c k) :=
  ⟨hc.1, fun r _ => .of_neither (hc.2 r).1 (hc.2 r).2 (hk r)⟩

theorem follows_bind_of_neutral {β : Type} {p : Prog Cmd Reply β} {k : β → Prog Cmd Reply α}
    (hp : p.Ensures (fun _ _ _ => True) (fun _ => Neutral A) ())
    (hk : ∀ b, Follows A ok call phase (k b)) : Follows A ok call phase (p.bind k) := by
  induction p with
  | ret b => exact hk b
  | call c k' ih =>
      obtain ⟨hc, hrest⟩ := hp () le_rfl
      exact follows_call_of_neutral hc fun r => ih r (hrest r trivial)

end follows

section steps

variable {A calls} {ok : α → Prop} {s : Pool Bool Cmd Reply α σ} {e : Bool × Env}

/-- A step of a program that has not written the row. -/
theorem field_step {call : Call V} {phase : Phase V}
    (h : Follows A ok call phase (s.progs e.1)) (hwrites : stepWrites A s e = none) :
    A.field (Pool.step exec s e).store = A.field s.store := by
  rw [Pool.step_store_eq]
  unfold stepWrites at hwrites
  cases hp : s.progs e.1 with
  | ret a => rfl
  | call c k =>
      rw [hp] at h hwrites
      exact A.of_not_writes e.2 c s.store h.1 hwrites

theorem field_step_of_writes {l w : (f : φ) → V f} (h : stepWrites A s e = some (l, w)) :
    A.field (Pool.step exec s e).store = w := by
  rw [Pool.step_store_eq]
  unfold stepWrites at h
  cases hp : s.progs e.1 with
  | ret a =>
      rw [hp] at h
      cases h
  | call c k =>
      rw [hp] at h
      exact A.of_writes e.2 c s.store l w h

/-- A write is one of the row read last, and the last one. -/
theorem Follows.of_writes {call : Call V} {phase : Phase V} {l w : (f : φ) → V f}
    (h : Follows A ok call phase (s.progs e.1)) (hwrites : stepWrites A s e = some (l, w)) :
    phase = .loaded l ∧ call.Edits l w ∧
      Follows A ok call .stored ((Pool.step exec s e).progs e.1) := by
  rw [Pool.step_progs_self]
  unfold stepWrites at hwrites
  cases hp : s.progs e.1 with
  | ret a =>
      rw [hp] at hwrites
      cases hwrites
  | call c k =>
      rw [hp] at hwrites h
      have hreply := h.2 (exec e.2 c s.store).1 (A.of_possible e.2 c s.store)
      dsimp only at hwrites
      unfold AfterReply at hreply
      rw [hwrites] at hreply
      exact hreply

/-- After a step without a write the program is in the same phase, or has read the stored row. -/
theorem Follows.of_not_writes {call : Call V} {phase : Phase V}
    (h : Follows A ok call phase (s.progs e.1)) (hwrites : stepWrites A s e = none) :
    Follows A ok call phase ((Pool.step exec s e).progs e.1) ∨
      phase ≠ .stored ∧
        Follows A ok call (.loaded (A.field s.store)) ((Pool.step exec s e).progs e.1) := by
  rw [Pool.step_progs_self]
  unfold stepWrites at hwrites
  cases hp : s.progs e.1 with
  | ret a =>
      rw [hp] at h
      exact Or.inl h
  | call c k =>
      rw [hp] at hwrites h
      have hreply := h.2 (exec e.2 c s.store).1 (A.of_possible e.2 c s.store)
      dsimp only at hwrites
      unfold AfterReply at hreply
      rw [hwrites] at hreply
      cases hreads : A.reads c (exec e.2 c s.store).1 with
      | none =>
          rw [hreads] at hreply
          exact Or.inl hreply
      | some row =>
          rw [hreads] at hreply
          have hrow := A.of_reads e.2 c s.store row hreads
          rw [← hrow]
          exact Or.inr hreply

/-- A program that has written the row writes it no more. -/
theorem Follows.stepWrites_of_stored {call : Call V}
    (h : Follows A ok call .stored (s.progs e.1)) : stepWrites A s e = none := by
  cases hwrites : stepWrites A s e with
  | none => rfl
  | some p =>
      obtain ⟨hphase, -⟩ := h.of_writes (l := p.1) (w := p.2) hwrites
      cases hphase

theorem Follows.step_of_stored {call : Call V} {i : Bool}
    (h : Follows A ok call .stored (s.progs i)) :
    Follows A ok call .stored ((Pool.step exec s e).progs i) := by
  by_cases hi : i = e.1
  · subst hi
    rcases h.of_not_writes h.stepWrites_of_stored with hsame | ⟨hne, -⟩
    · exact hsame
    · exact absurd rfl hne
  · rw [Pool.step_progs_of_ne hi]
    exact h

end steps

section runs

variable {A calls} {ok : α → Prop} {es : List (Bool × Env)} {s : Pool Bool Cmd Reply α σ}

theorem writesFresh_of_not_writes {e : Bool × Env} (hwrites : stepWrites A s e = none) :
    WritesFresh A calls s e := by
  intro l w h
  rw [hwrites] at h
  cases h

theorem storedBy_cons_of_not_writes {e : Bool × Env} (hwrites : stepWrites A s e = none) {i : Bool}
    {w : (f : φ) → V f} :
    StoredBy A i w (e :: es) s ↔ StoredBy A i w es (Pool.step exec s e) := by
  refine or_iff_right ?_
  rintro ⟨-, l, h⟩
  rw [hwrites] at h
  cases h

theorem not_storedBy_of_stored {call : Call V} {i : Bool} {w : (f : φ) → V f}
    (h : Follows A ok call .stored (s.progs i)) :
    ¬ StoredBy A i w es s := by
  induction es generalizing s with
  | nil => exact id
  | cons e es ih =>
      rintro (⟨rfl, l, hwrites⟩ | hlater)
      · rw [h.stepWrites_of_stored] at hwrites
        cases hwrites
      · exact ih h.step_of_stored hlater

/-- After both writes nothing happens to the row. -/
theorem run_of_both_stored (es : List (Bool × Env)) (h : ∀ i, Follows A ok (calls i) .stored (s.progs i)) :
    Pool.Meets exec (WritesFresh A calls) es s ∧
      A.field (Pool.run exec es s).store = A.field s.store := by
  induction es generalizing s with
  | nil => exact ⟨trivial, rfl⟩
  | cons e es ih =>
      have hnone := (h e.1).stepWrites_of_stored
      obtain ⟨hmeets, hfield⟩ := ih fun i => (h i).step_of_stored
      refine ⟨⟨fun l w hwrites => ?_, hmeets⟩, ?_⟩
      · rw [hnone] at hwrites
        cases hwrites
      · rw [Pool.run_cons, hfield, field_step (h e.1) hnone]

/-- After the first write: the second one is computed from the stored values exactly when the fields
of the first call survive it. -/
theorem meets_iff_of_stored (hdisjoint : ∀ f, ¬ ((calls true).fields f ∧ (calls false).fields f))
    {i : Bool} {phase : Phase V} (hi : Follows A ok (calls i) .stored (s.progs i))
    (hother : Follows A ok (calls !i) phase (s.progs !i)) :
    Pool.Meets exec (WritesFresh A calls) es s ↔
      (∀ f, (calls i).fields f → A.field (Pool.run exec es s).store f = A.field s.store f) ∧
        ∀ w, StoredBy A (!i) w es s → ∀ f, (calls !i).fields f →
          A.field (Pool.run exec es s).store f = w f := by
  induction es generalizing s phase with
  | nil => exact iff_of_true trivial ⟨fun _ _ => rfl, fun _ h => h.elim⟩
  | cons e es ih =>
      rw [Pool.run_cons]
      cases hwrites : stepWrites A s e with
      | none =>
          have hother' : ∃ phase', Follows A ok (calls !i) phase'
              ((Pool.step exec s e).progs !i) := by
            by_cases he : (!i) = e.1
            · rw [he] at hother ⊢
              rcases hother.of_not_writes hwrites with hsame | ⟨-, hread⟩
              · exact ⟨_, hsame⟩
              · exact ⟨_, hread⟩
            · rw [Pool.step_progs_of_ne he]
              exact ⟨_, hother⟩
          obtain ⟨phase', hother'⟩ := hother'
          have hactor : ∃ phase, Follows A ok (calls e.1) phase (s.progs e.1) := by
            by_cases he : e.1 = i
            · rw [he]
              exact ⟨_, hi⟩
            · rw [Bool.eq_not.mpr he]
              exact ⟨_, hother⟩
          obtain ⟨_, hactor⟩ := hactor
          rw [← field_step hactor hwrites]
          simp only [storedBy_cons_of_not_writes hwrites]
          exact (and_iff_right (writesFresh_of_not_writes hwrites)).trans (ih hi.step_of_stored hother')
      | some p =>
          obtain ⟨l, w⟩ := p
          have he : e.1 = !i := by
            refine Bool.eq_not.mpr fun heq => ?_
            rw [← heq] at hi
            rw [hi.stepWrites_of_stored] at hwrites
            cases hwrites
          rw [← he] at hother
          obtain ⟨-, hedits, hdone⟩ := hother.of_writes hwrites
          have hboth : ∀ j, Follows A ok (calls j) .stored ((Pool.step exec s e).progs j) := by
            intro j
            by_cases hj : j = e.1
            · rw [hj]
              exact hdone
            · obtain rfl : j = i := by rw [Bool.eq_not.mpr hj, he, Bool.not_not]
              exact hi.step_of_stored
          obtain ⟨hmeets, hfield⟩ := run_of_both_stored es hboth
          have hkeeps : ∀ f, (calls i).fields f → w f = l f := by
            intro f hf
            refine hedits.1 f fun hf' => hdisjoint f ?_
            rw [he] at hf'
            cases i with
            | true => exact ⟨hf, hf'⟩
            | false => exact ⟨hf', hf⟩
          rw [hfield, field_step_of_writes hwrites]
          constructor
          · rintro ⟨hfresh, -⟩
            refine ⟨fun f hf => ?_, fun w' hw' f _ => ?_⟩
            · rw [hkeeps f hf]
              refine hfresh l w hwrites f ?_
              rw [he, Bool.not_not]
              exact hf
            · rcases hw' with ⟨-, l', hwrites'⟩ | hlater
              · rw [hwrites] at hwrites'
                rw [(Prod.mk.inj (Option.some.inj hwrites')).2]
              · exact absurd hlater (not_storedBy_of_stored (hboth _))
          · rintro ⟨hsurvive, -⟩
            refine ⟨fun l' w' hwrites' f hf => ?_, hmeets⟩
            rw [hwrites] at hwrites'
            rw [← (Prod.mk.inj (Option.some.inj hwrites')).1]
            rw [he, Bool.not_not] at hf
            rw [← hkeeps f hf]
            exact hsurvive f hf

/-- The row a program has read, if it has read one and not written yet, is the stored one. -/
def Phase.Current (row : (f : φ) → V f) : Phase V → Prop
  | start => True
  | loaded r => r = row
  | stored => False

/-- Before the first write. -/
theorem meets_iff_of_current (hdisjoint : ∀ f, ¬ ((calls true).fields f ∧ (calls false).fields f))
    {phases : Bool → Phase V} (h : ∀ i, Follows A ok (calls i) (phases i) (s.progs i))
    (hcurrent : ∀ i, (phases i).Current (A.field s.store)) :
    Pool.Meets exec (WritesFresh A calls) es s ↔
      ∀ i w, StoredBy A i w es s → ∀ f, (calls i).fields f →
        A.field (Pool.run exec es s).store f = w f := by
  induction es generalizing s phases with
  | nil => exact iff_of_true trivial fun _ _ h => h.elim
  | cons e es ih =>
      rw [Pool.run_cons]
      cases hwrites : stepWrites A s e with
      | none =>
          have hnext : ∀ i, ∃ phase : Phase V, phase.Current (A.field s.store) ∧
              Follows A ok (calls i) phase ((Pool.step exec s e).progs i) := by
            intro i
            by_cases hi : i = e.1
            · subst hi
              rcases (h e.1).of_not_writes hwrites with hsame | ⟨-, hread⟩
              · exact ⟨_, hcurrent e.1, hsame⟩
              · exact ⟨.loaded (A.field s.store), rfl, hread⟩
            · rw [Pool.step_progs_of_ne hi]
              exact ⟨_, hcurrent i, h i⟩
          choose phases' hcurrent' h' using hnext
          simp only [storedBy_cons_of_not_writes hwrites]
          refine (and_iff_right (writesFresh_of_not_writes hwrites)).trans (ih h' fun i => ?_)
          rw [field_step (h e.1) hwrites]
          exact hcurrent' i
      | some p =>
          obtain ⟨l, w⟩ := p
          obtain ⟨hphase, -, hdone⟩ := (h e.1).of_writes hwrites
          -- the first write is computed from the stored row
          have hl : l = A.field s.store := by
            have hcur := hcurrent e.1
            rw [hphase] at hcur
            exact hcur
          have hfirst : WritesFresh A calls s e := by
            intro l' w' hwrites' f _
            rw [hwrites] at hwrites'
            rw [← (Prod.mk.inj (Option.some.inj hwrites')).1, hl]
          have hother : Follows A ok (calls !e.1) (phases !e.1)
              ((Pool.step exec s e).progs !e.1) := by
            rw [Pool.step_progs_of_ne (Bool.not_ne_self e.1)]
            exact h _
          refine (and_iff_right hfirst).trans ((meets_iff_of_stored hdisjoint hdone hother).trans ?_)
          rw [field_step_of_writes hwrites]
          constructor
          · rintro ⟨hsurvive, hlast⟩ i w' (⟨rfl, l', hwrites'⟩ | hlater) f hf
            · rw [hwrites] at hwrites'
              rw [← (Prod.mk.inj (Option.some.inj hwrites')).2]
              exact hsurvive f hf
            · by_cases hi : i = e.1
              · rw [hi] at hlater
                exact absurd hlater (not_storedBy_of_stored hdone)
              · obtain rfl := Bool.eq_not.mpr hi
                exact hlast w' hlater f hf
          · intro hall
            exact ⟨fun f => hall e.1 w (Or.inl ⟨rfl, l, hwrites⟩) f,
              fun w' hw' => hall (!e.1) w' (Or.inr hw')⟩

/-- A program that has succeeded has stored a row with its values. -/
theorem exists_storedBy {call : Call V} {i : Bool} {phase : Phase V}
    (h : Follows A ok call phase (s.progs i)) (hphase : phase ≠ .stored)
    (hend : ((Pool.run exec es s).progs i).Returned ok) :
    ∃ w, StoredBy A i w es s ∧ call.values w := by
  induction es generalizing s phase with
  | nil =>
      rw [Pool.run_nil] at hend
      cases hp : s.progs i with
      | ret a =>
          rw [hp] at hend h
          exact absurd (h hend) hphase
      | call c k =>
          rw [hp] at hend
          exact hend.elim
  | cons e es ih =>
      rw [Pool.run_cons] at hend
      by_cases hi : i = e.1
      · subst hi
        cases hwrites : stepWrites A s e with
        | none =>
            rcases h.of_not_writes hwrites with hsame | ⟨-, hread⟩
            · obtain ⟨w, hw, hvalues⟩ := ih hsame hphase hend
              exact ⟨w, Or.inr hw, hvalues⟩
            · obtain ⟨w, hw, hvalues⟩ := ih hread (fun h => by cases h) hend
              exact ⟨w, Or.inr hw, hvalues⟩
        | some p =>
            obtain ⟨-, hedits, -⟩ := h.of_writes (l := p.1) (w := p.2) hwrites
            exact ⟨p.2, Or.inl ⟨rfl, p.1, hwrites⟩, hedits.2⟩
      · rw [← (Pool.step_progs_of_ne hi : (Pool.step exec s e).progs i = s.progs i)] at h
        obtain ⟨w, hw, hvalues⟩ := ih h hphase hend
        exact ⟨w, Or.inr hw, hvalues⟩

/-- It has stored one row only. -/
theorem storedBy_unique {call : Call V} {i : Bool} {phase : Phase V} {w w' : (f : φ) → V f}
    (h : Follows A ok call phase (s.progs i)) (hw : StoredBy A i w es s)
    (hw' : StoredBy A i w' es s) : w = w' := by
  induction es generalizing s phase with
  | nil => exact hw.elim
  | cons e es ih =>
      by_cases hi : i = e.1
      · subst hi
        cases hwrites : stepWrites A s e with
        | none =>
            rw [storedBy_cons_of_not_writes hwrites] at hw hw'
            rcases h.of_not_writes hwrites with hsame | ⟨-, hread⟩
            · exact ih hsame hw hw'
            · exact ih hread hw hw'
        | some p =>
            obtain ⟨-, -, hdone⟩ := h.of_writes (l := p.1) (w := p.2) hwrites
            have hnow : ∀ v, StoredBy A e.1 v (e :: es) s → v = p.2 := by
              rintro v (⟨-, l, hv⟩ | hlater)
              · rw [hwrites] at hv
                exact (congrArg Prod.snd (Option.some.inj hv)).symm
              · exact absurd hlater (not_storedBy_of_stored hdone)
            rw [hnow w hw, hnow w' hw']
      · rw [← (Pool.step_progs_of_ne hi : (Pool.step exec s e).progs i = s.progs i)] at h
        have hlater : ∀ v, StoredBy A i v (e :: es) s → StoredBy A i v es (Pool.step exec s e) := by
          rintro v (⟨heq, -⟩ | hlater)
          · exact absurd heq.symm hi
          · exact hlater
        exact ih h (hlater w hw) (hlater w' hw')

/-- Steps of one program only, which has read the stored row, or not read or not to write any more. -/
theorem fresh_of_alone {call : Call V} {i : Bool} {phase : Phase V}
    (halone : ∀ e ∈ es, e.1 = i) (h : Follows A ok call phase (s.progs i))
    (hcurrent : phase = .stored ∨ phase.Current (A.field s.store)) :
    Pool.Meets exec (WritesFresh A calls) es s := by
  induction es generalizing s phase with
  | nil => trivial
  | cons e es ih =>
      obtain ⟨rfl, halone⟩ := List.forall_mem_cons.mp halone
      cases hwrites : stepWrites A s e with
      | none =>
          refine ⟨writesFresh_of_not_writes hwrites, ?_⟩
          rcases h.of_not_writes hwrites with hsame | ⟨-, hread⟩
          · refine ih halone hsame ?_
            rw [field_step h hwrites]
            exact hcurrent
          · refine ih halone hread (Or.inr ?_)
            rw [field_step h hwrites]
            rfl
      | some p =>
          obtain ⟨l, w⟩ := p
          obtain ⟨rfl, -, hdone⟩ := h.of_writes hwrites
          refine ⟨fun l' w' hwrites' f _ => ?_, ih halone hdone (Or.inl rfl)⟩
          rw [hwrites] at hwrites'
          obtain rfl := (Prod.mk.inj (Option.some.inj hwrites')).1
          rcases hcurrent with hstored | hloaded
          · cases hstored
          · exact congrFun hloaded f

/-- One call after the other. -/
theorem fresh_of_serial {first second : List (Bool × Env)} {i : Bool}
    (hfirst : ∀ e ∈ first, e.1 = i) (hsecond : ∀ e ∈ second, e.1 = !i)
    (h : ∀ j, Follows A ok (calls j) .start (s.progs j)) :
    Pool.Meets exec (WritesFresh A calls) (first ++ second) s := by
  rw [Pool.meets_append]
  refine ⟨fresh_of_alone hfirst (h i) (Or.inr trivial), ?_⟩
  have hidle : (Pool.run exec first s).progs (!i) = s.progs (!i) :=
    Pool.run_progs_of_forall_ne fun e he heq => Bool.not_ne_self i (heq.trans (hfirst e he))
  have hstart := h !i
  rw [← hidle] at hstart
  exact fresh_of_alone hsecond hstart (Or.inr trivial)

/-- Two calls that change different fields, when both have succeeded. -/
theorem kept_iff_fresh (hdisjoint : ∀ f, ¬ ((calls true).fields f ∧ (calls false).fields f))
    (h : ∀ i, Follows A ok (calls i) .start (s.progs i))
    (hend : ∀ i, ((Pool.run exec es s).progs i).Returned ok) :
    Kept A calls es s ↔ Pool.Meets exec (WritesFresh A calls) es s := by
  rw [meets_iff_of_current hdisjoint h fun _ => trivial]
  constructor
  · intro hkept i w hw f hf
    obtain ⟨w', hw', -, hfield⟩ := hkept i
    rw [storedBy_unique (h i) hw hw']
    exact hfield f hf
  · intro hall i
    obtain ⟨w, hw, hvalues⟩ := exists_storedBy (h i) (fun h => by cases h) (hend i)
    exact ⟨w, hw, hvalues, hall i w hw⟩

end runs

end RowUpdate
