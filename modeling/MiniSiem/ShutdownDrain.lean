import Mathlib.Data.List.Infix
import Mathlib.Tactic.Common
import Mathlib.Tactic.Ring

/-! # Waiting for the background tasks

`TaskRegistry::drain` in `main.rs`: after the shutdown signal the tasks are awaited in the order of their
registration, all of them until one deadline; what is still running then is aborted and awaited.

* **Tasks.**  A `ManagedTask` is what its task would do if nobody aborted it: it ends by itself at some time,
  or never, and it reaches an `await` now and then, or no further one.  An abort takes effect at the next
  one, so a task that ends before is not cut short, and one that has blocked its thread is never over.
* **Reports.**  `drain_report`: what is logged of a task depends on the tasks before it, but no task that
  ends by the deadline is cut short, and when `drain` returns all tasks are over.
* **Time.**  `drain_returns`: `drain` returns by the deadline, unless tasks are late; they need to end or to
  reach an `await`, one after the other.
* **The registry of the program.**  Five of its tasks never end, and one of them is registered first or
  second: `drain` waits until the deadline and reports every task as aborted, or it waits forever for a task
  that is blocked and reports no task from there on (`mainRegistry_aborted`). -/

namespace MiniSiem

structure TaskEnd where
  time : ℕ
  panics : Bool

/-- A task of the registry, from the signal on.  Times are in nanoseconds. -/
structure ManagedTask where
  name : String
  ends : Option TaskEnd
  nextAwait : ℕ → Option ℕ
  le_nextAwait : ∀ t, ∀ u ∈ nextAwait t, t ≤ u

/-- What `drain` logs of a task. -/
inductive DrainMessage
  | shutDownCleanly
  | endedWithJoinError
  | abortedAfterDeadline
  | abortedAfterTimeout

/-- A task that has been awaited: when it ended, and whether the abort has cut it short. -/
structure Drained where
  name : String
  message : DrainMessage
  endedAt : ℕ
  cut : Bool

namespace ManagedTask

variable (task : ManagedTask)

/-- The task ends by itself by the time. -/
def EndsBy (t : ℕ) : Prop := ∃ e, task.ends = some e ∧ e.time ≤ t

/-- The task ends by itself before the time. -/
def EndsBefore (t : ℕ) : Prop := ∃ e, task.ends = some e ∧ e.time < t

/-- An abort at the time takes effect before the task ends by itself. -/
def CutFrom (t : ℕ) : Prop := ∃ u ∈ task.nextAwait t, ¬ task.EndsBy u

/-- Neither the task itself nor an abort at the time ends it. -/
def Stuck (t : ℕ) : Prop := task.ends = none ∧ task.nextAwait t = none

instance (t : ℕ) : Decidable (task.EndsBy t) :=
  match h : task.ends with
  | none => isFalse fun ⟨_, he, _⟩ => nomatch h.symm.trans he
  | some e => decidable_of_iff (e.time ≤ t) ⟨fun hle => ⟨e, h, hle⟩, fun ⟨e', he, hle⟩ => by
      obtain rfl := Option.some.inj (h.symm.trans he)
      exact hle⟩

/-- `abort`, and the task is awaited, which may take forever. -/
def abort (now : ℕ) (message : DrainMessage) : Option Drained :=
  match task.ends, task.nextAwait now with
  | some e, some u =>
      some (if e.time ≤ u then ⟨task.name, message, e.time, false⟩ else ⟨task.name, message, u, true⟩)
  | some e, none => some ⟨task.name, message, e.time, false⟩
  | none, some u => some ⟨task.name, message, u, true⟩
  | none, none => none

/-- One turn of the loop. -/
def drainOne (deadline now : ℕ) : Option Drained :=
  if deadline ≤ now then task.abort now .abortedAfterDeadline
  else
    match task.ends with
    | some e =>
        if e.time ≤ deadline then
          some ⟨task.name, if e.panics then .endedWithJoinError else .shutDownCleanly, e.time, false⟩
        else task.abort deadline .abortedAfterTimeout
    | none => task.abort deadline .abortedAfterTimeout

end ManagedTask

/-- `TaskRegistry::drain` from a time on: when it returns, and what it has logged. -/
def drain (deadline : ℕ) : ℕ → List ManagedTask → Option ℕ × List Drained
  | now, [] => (some now, [])
  | now, task :: tasks =>
      match task.drainOne deadline now with
      | some d =>
          let rest := drain deadline (max now d.endedAt) tasks
          (rest.1, d :: rest.2)
      | none => (none, [])

/-! ### One task -/

section one

variable {task : ManagedTask} {deadline now : ℕ} {message : DrainMessage} {d : Drained}

theorem endsBy_iff {e : TaskEnd} (he : task.ends = some e) {t : ℕ} : task.EndsBy t ↔ e.time ≤ t := by
  simp [ManagedTask.EndsBy, he]

theorem not_endsBy (he : task.ends = none) (t : ℕ) : ¬ task.EndsBy t := by
  simp [ManagedTask.EndsBy, he]

/-- What is known of a task that was aborted and has ended. -/
structure AbortedAt (task : ManagedTask) (now : ℕ) (message : DrainMessage) (d : Drained) : Prop where
  name : d.name = task.name
  message : d.message = message
  cut : d.cut = true ↔ task.CutFrom now
  over_of_endsBy : ∀ t, task.EndsBy t → d.endedAt ≤ t
  over_le : ∀ u ∈ task.nextAwait now, d.endedAt ≤ u
  le_over : ¬ task.EndsBefore now → now ≤ d.endedAt

theorem abort_spec (h : task.abort now message = some d) : AbortedAt task now message d := by
  have hawait := task.le_nextAwait now
  unfold ManagedTask.abort at h
  split at h
  · rename_i e u he hu
    obtain rfl := Option.some.inj h
    rw [hu] at hawait
    have hlate : ¬ task.EndsBefore now → now ≤ e.time := fun hn => not_lt.mp fun hlt => hn ⟨e, he, hlt⟩
    have hcut : task.CutFrom now ↔ ¬ e.time ≤ u := by simp [ManagedTask.CutFrom, hu, endsBy_iff he]
    split
    · rename_i hle
      refine ⟨rfl, rfl, ?_, fun t ht => (endsBy_iff he).mp ht, ?_, hlate⟩
      · simp [hcut, hle]
      · simpa [hu] using hle
    · rename_i hlt
      refine ⟨rfl, rfl, ?_, fun t ht => ?_, ?_, fun _ => hawait u rfl⟩
      · simpa [hcut] using hlt
      · exact (not_le.mp hlt).le.trans ((endsBy_iff he).mp ht)
      · simp [hu]
  · rename_i e he hu
    obtain rfl := Option.some.inj h
    refine ⟨rfl, rfl, ?_, fun t ht => (endsBy_iff he).mp ht, ?_, ?_⟩
    · simp [ManagedTask.CutFrom, hu]
    · simp [hu]
    · exact fun hn => not_lt.mp fun hlt => hn ⟨e, he, hlt⟩
  · rename_i u he hu
    obtain rfl := Option.some.inj h
    refine ⟨rfl, rfl, ?_, fun t ht => absurd ht (not_endsBy he t), ?_, fun _ => hawait u hu⟩
    · simp [ManagedTask.CutFrom, hu, not_endsBy he]
    · simp [hu]
  · exact nomatch h

theorem abort_eq_none : task.abort now message = none ↔ task.Stuck now := by
  unfold ManagedTask.abort ManagedTask.Stuck
  split <;> simp_all

/-- A task whose turn comes in time. -/
theorem drainOne_of_endsBy (hnow : now < deadline) {e : TaskEnd} (he : task.ends = some e)
    (hle : e.time ≤ deadline) : task.drainOne deadline now =
      some ⟨task.name, if e.panics then .endedWithJoinError else .shutDownCleanly, e.time, false⟩ := by
  rw [ManagedTask.drainOne, if_neg hnow.not_ge, he]
  exact if_pos hle

theorem drainOne_of_late (hnow : now < deadline) (hlate : ¬ task.EndsBy deadline) :
    task.drainOne deadline now = task.abort deadline .abortedAfterTimeout := by
  rw [ManagedTask.drainOne, if_neg hnow.not_ge]
  split
  · rename_i e he
    exact if_neg fun hle => hlate ⟨e, he, hle⟩
  · rfl

theorem drainOne_of_deadline (hnow : deadline ≤ now) :
    task.drainOne deadline now = task.abort now .abortedAfterDeadline := if_pos hnow

/-- What one turn does: the task ends in time, or it is aborted at its turn, at the deadline if that is
still to come. -/
theorem drainOne_cases (task : ManagedTask) (deadline now : ℕ) :
    (now < deadline ∧ ∃ e, task.ends = some e ∧ e.time ≤ deadline ∧ task.drainOne deadline now =
      some ⟨task.name, if e.panics then .endedWithJoinError else .shutDownCleanly, e.time, false⟩) ∨
    ((deadline ≤ now ∨ ¬ task.EndsBy deadline) ∧ ∃ message,
      (message = .abortedAfterTimeout ∨ message = .abortedAfterDeadline) ∧
      task.drainOne deadline now = task.abort (max deadline now) message) := by
  rcases le_or_gt deadline now with hnow | hnow
  · refine Or.inr ⟨Or.inl hnow, _, Or.inr rfl, ?_⟩
    rw [drainOne_of_deadline hnow, max_eq_right hnow]
  · by_cases h : task.EndsBy deadline
    · obtain ⟨e, he, hle⟩ := h
      exact Or.inl ⟨hnow, e, he, hle, drainOne_of_endsBy hnow he hle⟩
    · refine Or.inr ⟨Or.inr h, _, Or.inl rfl, ?_⟩
      rw [drainOne_of_late hnow h, max_eq_left hnow.le]

theorem drainOne_eq_none : task.drainOne deadline now = none ↔ task.Stuck (max deadline now) := by
  rcases drainOne_cases task deadline now with ⟨-, e, he, -, h⟩ | ⟨-, message, -, h⟩
  · rw [h]
    refine iff_of_false (by simp) fun hstuck => nomatch he.symm.trans hstuck.1
  · rw [h, abort_eq_none]

/-- What is known of a task after its turn. -/
structure TurnedAt (task : ManagedTask) (deadline now : ℕ) (d : Drained) : Prop where
  name : d.name = task.name
  clean : d.message = .shutDownCleanly ↔
    now < deadline ∧ ∃ e, task.ends = some e ∧ e.panics = false ∧ e.time ≤ deadline
  cut : d.cut = true ↔ task.CutFrom (max deadline now)
  over_of_endsBy : ∀ t, deadline ≤ t → task.EndsBy t → d.endedAt ≤ t
  over_le : ¬ task.EndsBy deadline → ∀ u ∈ task.nextAwait (max deadline now), d.endedAt ≤ u
  before_deadline : now < deadline → (max now d.endedAt < deadline ↔ task.EndsBefore deadline)
  aborted : (deadline ≤ now ∨ ¬ task.EndsBy deadline) →
    d.message = .abortedAfterTimeout ∨ d.message = .abortedAfterDeadline

theorem drainOne_spec (h : task.drainOne deadline now = some d) : TurnedAt task deadline now d := by
  rcases drainOne_cases task deadline now with ⟨hnow, e, he, hle, heq⟩ | ⟨hlate, message, hmessage, heq⟩
  · obtain rfl := Option.some.inj (heq.symm.trans h)
    have hends : task.EndsBy deadline := ⟨e, he, hle⟩
    refine ⟨rfl, ?_, ?_, fun t _ ht => (endsBy_iff he).mp ht, fun hn => absurd hends hn, fun _ => ?_, ?_⟩
    · cases hpanics : e.panics <;> simp [hnow, he, hpanics, hle]
    · refine iff_of_false (by simp) fun ⟨u, hu, hn⟩ => hn ((endsBy_iff he).mpr ?_)
      exact hle.trans ((le_max_left _ _).trans (task.le_nextAwait _ u hu))
    · simp [ManagedTask.EndsBefore, he, hnow]
    · exact fun hor => (hor.elim hnow.not_ge fun hn => hn hends).elim
  · obtain ⟨hname, rfl, hcut, hends, hover, hfrom⟩ := abort_spec (heq.symm.trans h)
    refine ⟨hname, ?_, hcut, fun t _ => hends t, fun _ => hover, fun hnow => ?_, fun _ => hmessage⟩
    · refine iff_of_false (fun hclean => ?_) fun ⟨hnow, e, he, _, hle⟩ => ?_
      · rw [hclean] at hmessage
        exact hmessage.elim nofun nofun
      · exact hlate.elim hnow.not_ge fun hn => hn ⟨e, he, hle⟩
    · have hbefore : ¬ task.EndsBefore deadline :=
        fun ⟨e, he, hlt⟩ => hlate.elim hnow.not_ge fun hn => hn ⟨e, he, hlt.le⟩
      rw [max_eq_left hnow.le] at hfrom
      exact iff_of_false (fun hlt => (hfrom hbefore).not_gt (max_lt_iff.mp hlt).2) hbefore

/-- A late task that ends or reaches an `await` within some time keeps the loop no longer than that beyond
the deadline, and a punctual one not at all. -/
theorem drainOne_over_le (now : ℕ) {lag : ℕ} (hlag : ¬ task.EndsBy deadline →
      ∀ t, task.EndsBy (t + lag) ∨ ∃ u ∈ task.nextAwait t, u ≤ t + lag) :
    ∃ d, task.drainOne deadline now = some d ∧
      d.endedAt ≤ max deadline now + if task.EndsBy deadline then 0 else lag := by
  obtain ⟨d, hd⟩ : ∃ d, task.drainOne deadline now = some d := by
    rw [← Option.ne_none_iff_exists']
    intro hnone
    obtain ⟨hends, hawait⟩ := drainOne_eq_none.mp hnone
    rcases hlag (not_endsBy hends _) (max deadline now) with h | ⟨u, hu, -⟩
    · exact not_endsBy hends _ h
    · exact nomatch hawait.symm.trans hu
  have hspec := drainOne_spec hd
  refine ⟨d, hd, ?_⟩
  split
  · rename_i h
    exact (hspec.over_of_endsBy deadline le_rfl h).trans (le_max_left _ _)
  · rename_i h
    rcases hlag h (max deadline now) with hends | ⟨u, hu, hle⟩
    · exact hspec.over_of_endsBy _ ((le_max_left _ _).trans (Nat.le_add_right _ _)) hends
    · exact (hspec.over_le h u hu).trans hle

end one

/-! ### The loop -/

section loop

variable {deadline now t : ℕ} {task : ManagedTask} {tasks front back : List ManagedTask} {d : Drained}

theorem drain_cons (h : task.drainOne deadline now = some d) : drain deadline now (task :: tasks) =
    ((drain deadline (max now d.endedAt) tasks).1, d :: (drain deadline (max now d.endedAt) tasks).2) := by
  rw [drain, h]

theorem drain_cons_stuck (h : task.drainOne deadline now = none) :
    drain deadline now (task :: tasks) = (none, []) := by
  rw [drain, h]

/-- `drain` returns from a registry when the turn of the first task ends and it returns from the others. -/
theorem drain_cons_returns : (drain deadline now (task :: tasks)).1 = some t ↔
    ∃ d, task.drainOne deadline now = some d ∧ (drain deadline (max now d.endedAt) tasks).1 = some t := by
  cases h : task.drainOne deadline now with
  | none => simp [drain_cons_stuck h]
  | some d => simp [drain_cons h]

theorem drain_append (h : (drain deadline now front).1 = some t) : drain deadline now (front ++ back) =
    ((drain deadline t back).1, (drain deadline now front).2 ++ (drain deadline t back).2) := by
  induction front generalizing now with
  | nil =>
      obtain rfl := Option.some.inj h
      rfl
  | cons task front ih =>
      obtain ⟨d, hd, hrest⟩ := drain_cons_returns.mp h
      rw [List.cons_append, drain_cons hd, ih hrest, drain_cons hd]
      rfl

/-- What comes after a task that `drain` waits for forever is not reached. -/
theorem drain_append_stuck (h : (drain deadline now front).1 = none) :
    drain deadline now (front ++ back) = drain deadline now front := by
  induction front generalizing now with
  | nil => exact nomatch h
  | cons task front ih =>
      rw [List.cons_append]
      cases hd : task.drainOne deadline now with
      | none => rw [drain_cons_stuck hd, drain_cons_stuck hd]
      | some d =>
          rw [drain_cons hd] at h
          rw [drain_cons hd, drain_cons hd, ih h]

/-- Each task is reported when `drain` returns, and not each one otherwise. -/
theorem drain_names : (∃ t, (drain deadline now tasks).1 = some t) ↔
    (drain deadline now tasks).2.map (·.name) = tasks.map (·.name) := by
  induction tasks generalizing now with
  | nil => simp [drain]
  | cons task tasks ih =>
      cases hd : task.drainOne deadline now with
      | none => simp [drain_cons_stuck hd]
      | some d => simp [drain_cons hd, ih, (drainOne_spec hd).name]

theorem drain_length_le : (drain deadline now tasks).2.length ≤ tasks.length := by
  induction tasks generalizing now with
  | nil => exact le_rfl
  | cons task tasks ih =>
      cases hd : task.drainOne deadline now with
      | none => simp [drain_cons_stuck hd]
      | some d => simpa [drain_cons hd] using ih

/-- The report on a task, at its place. -/
theorem drain_getElem? : (drain deadline now (front ++ task :: back)).2[front.length]? = some d ↔
    ∃ t, (drain deadline now front).1 = some t ∧ task.drainOne deadline t = some d := by
  cases h : (drain deadline now front).1 with
  | none =>
      rw [drain_append_stuck h, List.getElem?_eq_none]
      · simp
      · exact drain_length_le
  | some t =>
      have hlen : (drain deadline now front).2.length = front.length := by
        simpa using congrArg List.length (drain_names.mp ⟨t, h⟩)
      rw [drain_append h]
      dsimp only
      rw [List.getElem?_append_right hlen.le, hlen, Nat.sub_self]
      cases hd : task.drainOne deadline t with
      | none => simp [drain_cons_stuck hd, hd]
      | some d' => simp [drain_cons hd, hd]

theorem le_drain (h : (drain deadline now tasks).1 = some t) : now ≤ t := by
  induction tasks generalizing now with
  | nil => exact (Option.some.inj h).le
  | cons task tasks ih =>
      obtain ⟨d, -, hrest⟩ := drain_cons_returns.mp h
      exact (le_max_left _ _).trans (ih hrest)

/-- All tasks are over when the loop ends. -/
theorem over_le_drain (h : (drain deadline now tasks).1 = some t) (hd : d ∈ (drain deadline now tasks).2) :
    d.endedAt ≤ t := by
  induction tasks generalizing now with
  | nil => exact nomatch hd
  | cons task tasks ih =>
      obtain ⟨first, hfirst, hrest⟩ := drain_cons_returns.mp h
      rw [drain_cons hfirst] at hd
      rcases List.mem_cons.mp hd with rfl | hin
      · exact (le_max_right _ _).trans (le_drain hrest)
      · exact ih hrest hin

/-- The turn of a task comes before the deadline if the tasks before it end before the deadline. -/
theorem drain_before_deadline (hnow : now < deadline) :
    (∃ t, (drain deadline now tasks).1 = some t ∧ t < deadline) ↔
      ∀ task ∈ tasks, task.EndsBefore deadline := by
  induction tasks generalizing now with
  | nil => simpa [drain] using hnow
  | cons task tasks ih =>
      rw [List.forall_mem_cons]
      constructor
      · rintro ⟨t, ht, hlt⟩
        obtain ⟨d, hd, hrest⟩ := drain_cons_returns.mp ht
        have hfirst : max now d.endedAt < deadline := (le_drain hrest).trans_lt hlt
        exact ⟨((drainOne_spec hd).before_deadline hnow).mp hfirst, (ih hfirst).mp ⟨t, hrest, hlt⟩⟩
      · rintro ⟨⟨e, he, hlt⟩, hrest⟩
        have hd := drainOne_of_endsBy hnow he hlt.le
        have hfirst := ((drainOne_spec hd).before_deadline hnow).mpr ⟨e, he, hlt⟩
        obtain ⟨t, ht, hlt⟩ := (ih hfirst).mpr hrest
        exact ⟨t, drain_cons_returns.mpr ⟨_, hd, ht⟩, hlt⟩

/-- `drain` returns from tasks that end or reach another `await` whenever they are aborted. -/
theorem drain_returns_of_not_stuck (deadline now : ℕ) (h : ∀ task ∈ tasks, ∀ t, ¬ task.Stuck t) :
    ∃ t, (drain deadline now tasks).1 = some t := by
  induction tasks generalizing now with
  | nil => exact ⟨now, rfl⟩
  | cons task tasks ih =>
      obtain ⟨hfirst, hrest⟩ := List.forall_mem_cons.mp h
      obtain ⟨d, hd⟩ : ∃ d, task.drainOne deadline now = some d :=
        Option.ne_none_iff_exists'.mp fun hnone => hfirst _ (drainOne_eq_none.mp hnone)
      obtain ⟨t, ht⟩ := ih (max now d.endedAt) hrest
      exact ⟨t, drain_cons_returns.mpr ⟨d, hd, ht⟩⟩

theorem drain_le (now : ℕ) {lag : ℕ} (hlag : ∀ task ∈ tasks, ¬ task.EndsBy deadline →
      ∀ t, task.EndsBy (t + lag) ∨ ∃ u ∈ task.nextAwait t, u ≤ t + lag) :
    ∃ t, (drain deadline now tasks).1 = some t ∧
      t ≤ max deadline now + lag * tasks.countP fun task => !decide (task.EndsBy deadline) := by
  induction tasks generalizing now with
  | nil => simp [drain]
  | cons task tasks ih =>
      obtain ⟨hfirst, hrest⟩ := List.forall_mem_cons.mp hlag
      obtain ⟨d, hd, hone⟩ := drainOne_over_le now hfirst
      obtain ⟨t, ht, hloop⟩ := ih (max now d.endedAt) hrest
      refine ⟨t, drain_cons_returns.mpr ⟨d, hd, ht⟩, ?_⟩
      rw [List.countP_cons]
      by_cases h : task.EndsBy deadline
      · simp only [h, decide_true, Bool.not_true, if_true, Bool.false_eq_true, if_false, add_zero] at hone ⊢
        refine hloop.trans (Nat.add_le_add_right ?_ _)
        exact max_le (le_max_left _ _) (max_le (le_max_right _ _) hone)
      · simp only [h, decide_false, Bool.not_false, if_true, if_false] at hone ⊢
        have hmax : max deadline (max now d.endedAt) ≤ max deadline now + lag :=
          max_le ((le_max_left _ _).trans (Nat.le_add_right _ _))
            (max_le ((le_max_right _ _).trans (Nat.le_add_right _ _)) hone)
        refine (hloop.trans (Nat.add_le_add_right hmax _)).trans (le_of_eq ?_)
        ring

/-- After the deadline every task is aborted. -/
theorem drain_after_deadline (hnow : deadline ≤ now) (h : d ∈ (drain deadline now tasks).2) :
    d.message = .abortedAfterTimeout ∨ d.message = .abortedAfterDeadline := by
  induction tasks generalizing now with
  | nil => exact nomatch h
  | cons task tasks ih =>
      cases hd : task.drainOne deadline now with
      | none => exact nomatch (drain_cons_stuck hd) ▸ h
      | some first =>
          rw [drain_cons hd] at h
          rcases List.mem_cons.mp h with rfl | hin
          · exact (drainOne_spec hd).aborted (Or.inl hnow)
          · exact ih (hnow.trans (le_max_left _ _)) hin

/-- `drain` waits forever for a task that never ends and reaches no `await` any more. -/
theorem drain_blocked (now : ℕ) (front back : List ManagedTask) (hends : task.ends = none)
    (hawait : ∀ t, deadline ≤ t → task.nextAwait t = none) :
    (drain deadline now (front ++ task :: back)).1 = none ∧
      (drain deadline now (front ++ task :: back)).2 = (drain deadline now front).2 := by
  cases h : (drain deadline now front).1 with
  | none =>
      rw [drain_append_stuck h]
      exact ⟨h, rfl⟩
  | some t =>
      have hstuck : task.drainOne deadline t = none :=
        drainOne_eq_none.mpr ⟨hends, hawait _ (le_max_left _ _)⟩
      rw [drain_append h, drain_cons_stuck hstuck]
      exact ⟨rfl, List.append_nil _⟩

end loop

/-- **What becomes of a registered task**: it is reported as shut down cleanly exactly when it ends without a
panic by the deadline and every task registered before it ends before the deadline.  A report says whether it
was cut short, exactly when it would not end before the abort takes effect, at the deadline or at its later
turn, and when `drain` returns, it is over.  It is reported at its place exactly when `drain` gets to it and
it is not stuck, so for certain when no task up to it is stuck at any time. -/
theorem drain_report (start grace : ℕ) (front back : List ManagedTask) (task : ManagedTask) :
    ((∃ d, (drain (start + grace) start (front ++ task :: back)).2[front.length]? = some d ∧
        d.message = .shutDownCleanly) ↔
      0 < grace ∧ (∀ t ∈ front, t.EndsBefore (start + grace)) ∧
        ∃ e, task.ends = some e ∧ e.panics = false ∧ e.time ≤ start + grace) ∧
    (∀ d, (drain (start + grace) start (front ++ task :: back)).2[front.length]? = some d →
      d.name = task.name ∧
      (d.cut = true ↔ ∃ t ∈ (drain (start + grace) start front).1, task.CutFrom (max (start + grace) t)) ∧
      ∀ t ∈ (drain (start + grace) start (front ++ task :: back)).1, d.endedAt ≤ t) ∧
    ((∃ d, (drain (start + grace) start (front ++ task :: back)).2[front.length]? = some d) ↔
      ∃ t ∈ (drain (start + grace) start front).1, ¬ task.Stuck (max (start + grace) t)) ∧
    ((∀ other ∈ front ++ [task], ∀ t, ¬ other.Stuck t) →
      ∃ d, (drain (start + grace) start (front ++ task :: back)).2[front.length]? = some d) := by
  have hplace : (∃ d, (drain (start + grace) start (front ++ task :: back)).2[front.length]? = some d) ↔
      ∃ t ∈ (drain (start + grace) start front).1, ¬ task.Stuck (max (start + grace) t) := by
    simp only [drain_getElem?, ← drainOne_eq_none, ← ne_eq, Option.ne_none_iff_exists']
    exact exists_comm.trans (exists_congr fun t => exists_and_left)
  refine ⟨?_, fun d hd => ?_, hplace, fun h => ?_⟩
  · constructor
    · rintro ⟨d, hd, hclean⟩
      obtain ⟨t, ht, hone⟩ := drain_getElem?.mp hd
      obtain ⟨hlt, hends⟩ := (drainOne_spec hone).clean.mp hclean
      have hstart : start < start + grace := (le_drain ht).trans_lt hlt
      exact ⟨by omega, (drain_before_deadline hstart).mp ⟨t, ht, hlt⟩, hends⟩
    · rintro ⟨hgrace, hfront, e, he, hpanics, hle⟩
      have hstart : start < start + grace := by omega
      obtain ⟨t, ht, hlt⟩ := (drain_before_deadline hstart).mpr hfront
      have hone := drainOne_of_endsBy hlt he hle
      exact ⟨_, drain_getElem?.mpr ⟨t, ht, hone⟩,
        (drainOne_spec hone).clean.mpr ⟨hlt, e, he, hpanics, hle⟩⟩
  · obtain ⟨t, ht, hone⟩ := drain_getElem?.mp hd
    refine ⟨(drainOne_spec hone).name, ?_, fun u hu => over_le_drain hu (List.mem_of_getElem? hd)⟩
    rw [(drainOne_spec hone).cut, ht]
    simp
  · obtain ⟨t, ht⟩ := drain_returns_of_not_stuck (start + grace) start fun other hin =>
      h other (List.mem_append_left [task] hin)
    exact hplace.mpr ⟨t, ht, h task (by simp) _⟩

/-- **How long a shutdown takes**: a task that ends by the deadline costs nothing beyond it.  If each other
task ends or reaches another `await` within `lag` of any time, `drain` returns, at most one `lag` after the
deadline for each of them. -/
theorem drain_returns (start grace lag : ℕ) (tasks : List ManagedTask)
    (hlag : ∀ task ∈ tasks, ¬ task.EndsBy (start + grace) →
      ∀ t, task.EndsBy (t + lag) ∨ ∃ u ∈ task.nextAwait t, u ≤ t + lag) :
    ∃ t, (drain (start + grace) start tasks).1 = some t ∧ t ≤ start + grace +
      lag * tasks.countP fun task => !decide (task.EndsBy (start + grace)) := by
  have hmax : max (start + grace) start = start + grace := max_eq_left (by omega)
  have h := drain_le start hlag
  rwa [hmax] at h

/-- A task that never ends and one that has ended already. -/
def idleAndDone : List ManagedTask :=
  [⟨"l1_maintenance", none, fun t => some (t + 2), by simp⟩,
    ⟨"alert_worker", some ⟨0, false⟩, fun _ => none, by simp⟩]

theorem idleAndDone_returns : ∃ t, (drain (10 + 15) 10 idleAndDone).1 = some t ∧ t ≤ 10 + 15 + 2 * 1 := by
  refine drain_returns 10 15 2 idleAndDone fun task hin hlate t => ?_
  simp only [idleAndDone, List.mem_cons, List.not_mem_nil, or_false] at hin
  rcases hin with rfl | rfl
  · exact Or.inr ⟨t + 2, rfl, le_rfl⟩
  · exact absurd ⟨_, rfl, by decide⟩ hlate

/-! ### The registry of `main` -/

/-- The tasks in the order in which `main` registers them. -/
def mainTaskNames (jwks : Bool) (workers : ℕ) : List String :=
  (if jwks then ["jwks_refresh"] else []) ++ "l1_maintenance" :: (List.replicate workers "detection_worker" ++
    ["detection_dispatch", "detection_reload", "alert_handler", "kafka_consumer", "kafka_lag_metrics",
      "kafka_ingest", "elasticsearch_indexer", "reliability_sampler", "reliability_weekly_report",
      "elastic_reconnect", "db_batcher", "alert_worker", "stats_sync", "tenant_retention", "case_sla_sweep"])

/-- The tasks that loop without a branch for the signal. -/
def endlessTasks : List String :=
  ["jwks_refresh", "l1_maintenance", "kafka_lag_metrics", "elastic_reconnect", "stats_sync"]

/-- A registry of `main`. -/
structure MainRegistry where
  jwks : Bool
  workers : ℕ
  tasks : List ManagedTask
  names : tasks.map (·.name) = mainTaskNames jwks workers
  endless : ∀ task ∈ tasks, task.name ∈ endlessTasks → task.ends = none

/-- The first task never ends. -/
theorem MainRegistry.head (r : MainRegistry) : ∃ task rest, r.tasks = task :: rest ∧ task.ends = none := by
  have hnames := r.names
  cases htasks : r.tasks with
  | nil =>
      rw [htasks] at hnames
      cases hjwks : r.jwks <;> simp [mainTaskNames, hjwks] at hnames
  | cons task rest =>
      refine ⟨task, rest, rfl, r.endless task (by rw [htasks]; exact List.mem_cons_self) ?_⟩
      rw [htasks, List.map_cons] at hnames
      cases hjwks : r.jwks <;> simp [mainTaskNames, hjwks] at hnames <;> simp [hnames.1, endlessTasks]

/-- **A shutdown of the program waits until the deadline**, and never reports that a task has shut down: the
first registered task times out there, and every other one is aborted after the deadline, also if it has
long ended.  If no task is stuck when it is aborted, `drain` returns and reports every one.  If a task is
blocked for good, `drain` never returns, and reports neither that task nor a later one. -/
theorem mainRegistry_aborted (r : MainRegistry) (start grace : ℕ) :
    (∀ d ∈ (drain (start + grace) start r.tasks).2,
      d.message = .abortedAfterTimeout ∨ d.message = .abortedAfterDeadline) ∧
    (∀ t ∈ (drain (start + grace) start r.tasks).1, start + grace ≤ t) ∧
    ((∀ task ∈ r.tasks, ∀ t, ¬ task.Stuck t) →
      (∃ t, (drain (start + grace) start r.tasks).1 = some t) ∧
      (drain (start + grace) start r.tasks).2.map (·.name) = mainTaskNames r.jwks r.workers) ∧
    (∀ front task back, r.tasks = front ++ task :: back → task.ends = none →
      (∀ t, start + grace ≤ t → task.nextAwait t = none) →
      (drain (start + grace) start r.tasks).1 = none ∧
      (drain (start + grace) start r.tasks).2.length ≤ front.length) := by
  obtain ⟨first, rest, htasks, hends⟩ := r.head
  have hnever : ¬ first.EndsBy (start + grace) := not_endsBy hends _
  have hlate : ∀ d, first.drainOne (start + grace) start = some d → start + grace ≤ max start d.endedAt := by
    intro d hd
    by_contra hlt
    rcases Nat.eq_zero_or_pos grace with rfl | hgrace
    · exact hlt (le_max_left _ _)
    · obtain ⟨e, he, -⟩ := ((drainOne_spec hd).before_deadline (by omega)).mp (not_le.mp hlt)
      exact nomatch hends.symm.trans he
  refine ⟨fun d hd => ?_, fun t ht => ?_, fun h => ?_, fun front task back hsplit hblocked hawait => ?_⟩
  · rw [htasks] at hd
    cases hone : first.drainOne (start + grace) start with
    | none => exact nomatch (drain_cons_stuck hone) ▸ hd
    | some d' =>
        rw [drain_cons hone] at hd
        rcases List.mem_cons.mp hd with rfl | hin
        · exact (drainOne_spec hone).aborted (Or.inr hnever)
        · exact drain_after_deadline (hlate d' hone) hin
  · rw [htasks] at ht
    obtain ⟨d, hd, hrest⟩ := drain_cons_returns.mp ht
    exact (hlate d hd).trans (le_drain hrest)
  · have hreturns := drain_returns_of_not_stuck (start + grace) start h
    exact ⟨hreturns, (drain_names.mp hreturns).trans r.names⟩
  · obtain ⟨hnone, hreports⟩ := drain_blocked start front back hblocked hawait
    rw [hsplit, hreports]
    exact ⟨hnone, drain_length_le⟩

/-- Every task that has a branch for the signal ends at once; of the others some are blocked. -/
def promptRegistry (jwks : Bool) (workers : ℕ) (blocked : List String) : MainRegistry where
  jwks := jwks
  workers := workers
  tasks := (mainTaskNames jwks workers).map fun name =>
    ⟨name, if name ∈ endlessTasks then none else some ⟨0, false⟩,
      fun t => if name ∈ blocked then none else some t, by simp⟩
  names := by
    rw [List.map_map]
    exact List.map_id _
  endless := by
    intro task hin hname
    obtain ⟨name, -, rfl⟩ := List.mem_map.mp hin
    exact if_pos hname

/-- Without a blocked task every task is reported; with `l1_maintenance` blocked there is no report. -/
theorem promptRegistry_aborted :
    (drain (0 + 15) 0 (promptRegistry false 4 []).tasks).2.map (·.name) = mainTaskNames false 4 ∧
      (drain (0 + 15) 0 (promptRegistry false 4 ["l1_maintenance"]).tasks).1 = none ∧
      (drain (0 + 15) 0 (promptRegistry false 4 ["l1_maintenance"]).tasks).2.length ≤ 0 := by
  obtain ⟨-, -, hreports, -⟩ := mainRegistry_aborted (promptRegistry false 4 []) 0 15
  obtain ⟨-, -, -, hblocked⟩ := mainRegistry_aborted (promptRegistry false 4 ["l1_maintenance"]) 0 15
  refine ⟨(hreports fun task hin t hstuck => ?_).2, hblocked [] _ _ rfl rfl fun t _ => rfl⟩
  obtain ⟨name, -, rfl⟩ := List.mem_map.mp hin
  exact nomatch hstuck.2

example : (drain 15 0 (promptRegistry false 4 []).tasks).1 = some 15 := by decide +kernel

end MiniSiem
