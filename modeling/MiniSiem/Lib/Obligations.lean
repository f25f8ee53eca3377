import MiniSiem.Lib.Traces

/-! # Obligations of a program

Some events of a program incur an obligation, some discharge it, and some end the program early.

* **Event lists.**  An obligation is kept when nothing incurs it or something discharges it (`Kept`);
  a list is unfailing when nothing fails after it is incurred (`Unfailing`).
* **Settling.**  `Settles d p`: `p` discharges the obligation exactly when none of its commands fails.
* **Honesty.**  `Honest d p`: `p` keeps the obligation exactly when its events are unfailing.  An honest
  program goes on as a settling one once it has incurred the obligation (`honest_call`). -/

namespace Atomic.Prog

structure Duty (E : Type) where
  incurs : E → Prop
  discharges : E → Prop
  fails : E → Prop

namespace Duty

section lists

variable {E : Type} (d : Duty E)

def Kept (events : List E) : Prop := (∃ e ∈ events, d.incurs e) → ∃ e ∈ events, d.discharges e

/-- No event that fails comes after one that incurs the obligation. -/
def Unfailing (events : List E) : Prop := events.Pairwise fun c e => d.incurs c → ¬ d.fails e

instance (events : List E) [DecidablePred d.incurs] [DecidablePred d.discharges] :
    Decidable (d.Kept events) :=
  inferInstanceAs (Decidable ((∃ e ∈ events, d.incurs e) → ∃ e ∈ events, d.discharges e))

instance (events : List E) [DecidablePred d.incurs] [DecidablePred d.fails] :
    Decidable (d.Unfailing events) :=
  inferInstanceAs (Decidable (events.Pairwise fun c e => d.incurs c → ¬ d.fails e))

variable {d} {events front back : List E}

theorem unfailing_of_no_fails (h : ∀ e ∈ events, ¬ d.fails e) : d.Unfailing events :=
  List.pairwise_of_forall_mem_list fun _ _ e he _ => h e he

theorem kept_iff_of_no_incurs (h : ∀ e ∈ events, ¬ d.incurs e) : d.Kept events ↔ d.Unfailing events := by
  constructor
  · intro _
    exact List.pairwise_of_forall_mem_list fun c hc _ _ hincurs => absurd hincurs (h c hc)
  · rintro _ ⟨e, he, hincurs⟩
    exact absurd hincurs (h e he)

/-- Events that discharge nothing before a list. -/
theorem discharged_append (hfront : ∀ e ∈ front, ¬ d.discharges e) :
    (∃ e ∈ front ++ back, d.discharges e) ↔ ∃ e ∈ back, d.discharges e := by
  constructor
  · rintro ⟨e, he, hdischarges⟩
    rcases List.mem_append.mp he with he | he
    · exact absurd hdischarges (hfront e he)
    · exact ⟨e, he, hdischarges⟩
  · rintro ⟨e, he, hdischarges⟩
    exact ⟨e, List.mem_append_right front he, hdischarges⟩

/-- Events that neither incur nor discharge before a list. -/
theorem kept_append (hfront : ∀ e ∈ front, ¬ d.incurs e ∧ ¬ d.discharges e)
    (hback : d.Kept back ↔ d.Unfailing back) :
    d.Kept (front ++ back) ↔ d.Unfailing (front ++ back) := by
  have hkept : d.Kept (front ++ back) ↔ d.Kept back := by
    unfold Kept
    rw [discharged_append fun e he => (hfront e he).2]
    refine imp_congr_left ⟨?_, fun ⟨e, he, h⟩ => ⟨e, List.mem_append_right front he, h⟩⟩
    rintro ⟨e, he, hincurs⟩
    rcases List.mem_append.mp he with he | he
    · exact absurd hincurs (hfront e he).1
    · exact ⟨e, he, hincurs⟩
  have hunfailing : d.Unfailing (front ++ back) ↔ d.Unfailing back := by
    unfold Unfailing
    rw [List.pairwise_append]
    constructor
    · exact fun h => h.2.1
    · intro h
      refine ⟨?_, h, fun c hc _ _ hincurs => absurd hincurs (hfront c hc).1⟩
      exact List.pairwise_of_forall_mem_list fun c hc _ _ hincurs => absurd hincurs (hfront c hc).1
  rw [hkept, hunfailing, hback]

/-- Events that incur the obligation without a failure or a discharge before a list that settles it. -/
theorem kept_append_settled (hfront : ∀ e ∈ front, ¬ d.discharges e ∧ ¬ d.fails e)
    (hincurs : ∃ e ∈ front, d.incurs e)
    (hback : (∃ e ∈ back, d.discharges e) ↔ ∀ e ∈ back, ¬ d.fails e) :
    d.Kept (front ++ back) ↔ d.Unfailing (front ++ back) := by
  obtain ⟨c, hc, hincurs⟩ := hincurs
  have hkept : d.Kept (front ++ back) ↔ ∃ e ∈ back, d.discharges e := by
    unfold Kept
    rw [discharged_append fun e he => (hfront e he).1]
    exact ⟨fun h => h ⟨c, List.mem_append_left back hc, hincurs⟩, fun h _ => h⟩
  rw [hkept, hback]
  constructor
  · intro h
    refine unfailing_of_no_fails fun e he => ?_
    rcases List.mem_append.mp he with he | he
    · exact (hfront e he).2
    · exact h e he
  · intro h e he
    exact (List.pairwise_append.mp h).2.2 c hc e he hincurs

end lists

/-! ### Programs -/

variable {Cmd : Type} {Reply : Cmd → Type} {α β : Type} (d : Duty (Event Cmd Reply))

/-- The program discharges the obligation exactly when none of its commands fails. -/
def Settles (p : Prog Cmd Reply α) : Prop :=
  ∀ events a, Trace p events a → ((∃ e ∈ events, d.discharges e) ↔ ∀ e ∈ events, ¬ d.fails e)

/-- The program keeps the obligation exactly when nothing fails after it is incurred. -/
def Honest (p : Prog Cmd Reply α) : Prop :=
  ∀ events a, Trace p events a → (d.Kept events ↔ d.Unfailing events)

variable {d}

section rules

variable {p : Prog Cmd Reply α} {f : α → Prog Cmd Reply β} {c : Cmd} {k : Reply c → Prog Cmd Reply α}

theorem settles_call (hc : ∀ r, ¬ d.discharges ⟨c, r⟩) (hk : ∀ r, ¬ d.fails ⟨c, r⟩ → Settles d (k r))
    (hfailed : ∀ r, d.fails ⟨c, r⟩ → Emits (fun e => ¬ d.discharges e) (k r)) :
    Settles d (call c k) := by
  intro events a h
  obtain ⟨r, rest, rfl, hrest⟩ := trace_call.mp h
  rw [← List.singleton_append, discharged_append (by simpa using hc r)]
  by_cases hfails : d.fails ⟨c, r⟩
  · constructor
    · rintro ⟨e, he, hdischarges⟩
      exact absurd hdischarges (hfailed r hfails rest a hrest e he)
    · exact fun hall => absurd hfails (hall _ List.mem_cons_self)
  · rw [hk r hfails rest a hrest]
    simp [hfails]

/-- A last command that discharges the obligation unless it fails. -/
theorem settles_last (hc : ∀ r, d.discharges ⟨c, r⟩ ↔ ¬ d.fails ⟨c, r⟩) (hk : ∀ r, ∃ a, k r = ret a) :
    Settles d (call c k) := by
  intro events a h
  obtain ⟨r, rest, rfl, hrest⟩ := trace_call.mp h
  obtain ⟨b, hb⟩ := hk r
  rw [hb] at hrest
  obtain ⟨rfl, -⟩ := trace_ret.mp hrest
  simpa using hc r

/-- A program that neither discharges nor fails before one that settles. -/
theorem settles_bind (hp : Emits (fun e => ¬ d.discharges e ∧ ¬ d.fails e) p)
    (hf : ∀ a, Settles d (f a)) : Settles d (p.bind f) := by
  intro events b h
  obtain ⟨front, a, back, rfl, hfront, hback⟩ := trace_bind.mp h
  have hquiet := hp front a hfront
  rw [discharged_append fun e he => (hquiet e he).1, hf a back b hback]
  constructor
  · intro hall e he
    rcases List.mem_append.mp he with he | he
    · exact (hquiet e he).2
    · exact hall e he
  · exact fun hall e he => hall e (List.mem_append_right front he)

theorem honest_of_emits (hp : Emits (fun e => ¬ d.incurs e) p) : Honest d p :=
  fun events a h => kept_iff_of_no_incurs (hp events a h)

theorem honest_ret (a : α) : Honest d (ret a : Prog Cmd Reply α) := honest_of_emits (emits_ret a)

/-- After a command that incurs the obligation an honest program settles it. -/
theorem honest_call (hc : ∀ r, ¬ d.discharges ⟨c, r⟩) (hk : ∀ r, ¬ d.incurs ⟨c, r⟩ → Honest d (k r))
    (hincurs : ∀ r, d.incurs ⟨c, r⟩ → ¬ d.fails ⟨c, r⟩ ∧ Settles d (k r)) : Honest d (call c k) := by
  intro events a h
  obtain ⟨r, rest, rfl, hrest⟩ := trace_call.mp h
  rw [← List.singleton_append]
  by_cases hevent : d.incurs ⟨c, r⟩
  · refine kept_append_settled ?_ ⟨_, List.mem_cons_self, hevent⟩ ((hincurs r hevent).2 rest a hrest)
    simpa using ⟨hc r, (hincurs r hevent).1⟩
  · refine kept_append ?_ (hk r hevent rest a hrest)
    simpa using ⟨hevent, hc r⟩

/-- A program that neither incurs nor discharges before an honest one. -/
theorem honest_bind (hp : Emits (fun e => ¬ d.incurs e ∧ ¬ d.discharges e) p)
    (hf : ∀ a, Honest d (f a)) : Honest d (p.bind f) := by
  intro events b h
  obtain ⟨front, a, back, rfl, hfront, hback⟩ := trace_bind.mp h
  exact kept_append (hp front a hfront) (hf a back b hback)

/-- A program that neither discharges nor fails, and may incur, before one that settles in any case. -/
theorem honest_bind_settles (hp : Emits (fun e => ¬ d.discharges e ∧ ¬ d.fails e) p)
    (hf : ∀ a, Honest d (f a)) (hs : ∀ a, Settles d (f a)) : Honest d (p.bind f) := by
  intro events b h
  obtain ⟨front, a, back, rfl, hfront, hback⟩ := trace_bind.mp h
  have hquiet := hp front a hfront
  by_cases hincurs : ∃ e ∈ front, d.incurs e
  · exact kept_append_settled hquiet hincurs (hs a back b hback)
  · push Not at hincurs
    exact kept_append (fun e he => ⟨hincurs e he, (hquiet e he).1⟩) (hf a back b hback)

end rules

end Duty

end Atomic.Prog
