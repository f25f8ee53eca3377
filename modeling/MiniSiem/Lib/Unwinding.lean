import Mathlib.Tactic

/-! # Isolation of the events of one owner

A system executes a list of events on a shared state, every event with a reply.  The owner sees
the replies to its own events only.

The two unwinding conditions on an equivalence `sim` of states: an own event gives the same
reply in similar states and keeps them similar (`Consistent`), any other event stays in the
class of its state (`Respects`).  `ownReplies_eq_replies_filter`: the owner sees what it would
see if it were alone.  `filterMap_replies_thin` is for the events that the owner depends on, when this and
the equivalence are a matter of the events still to come. -/

namespace Unwinding

variable {E R σ : Type} (step : E → σ → R × σ)

/-- The replies to the events, executed in order. -/
def replies : List E → σ → List R
  | [], _ => []
  | e :: es, s => (step e s).1 :: replies es (step e s).2

/-- The replies to the own events of a run. -/
def ownReplies (own : E → Bool) : List E → σ → List R
  | [], _ => []
  | e :: es, s =>
      if own e then (step e s).1 :: ownReplies own es (step e s).2
      else ownReplies own es (step e s).2

/-- The event has the same reply in similar states and keeps them similar. -/
def Consistent (sim : σ → σ → Prop) (e : E) : Prop :=
  ∀ s s', sim s s' → (step e s).1 = (step e s').1 ∧ sim (step e s).2 (step e s').2

/-- The event cannot be told from no event. -/
def Respects (sim : σ → σ → Prop) (e : E) : Prop :=
  ∀ s s', sim s s' → sim (step e s).2 s'

theorem ownReplies_eq_replies_filter {sim : σ → σ → Prop} {own : E → Bool} {es : List E}
    (hown : ∀ e ∈ es, own e = true → Consistent step sim e)
    (hother : ∀ e ∈ es, own e = false → Respects step sim e) {s s' : σ} (h : sim s s') :
    ownReplies step own es s = replies step (es.filter own) s' := by
  induction es generalizing s s' with
  | nil => rfl
  | cons e es ih =>
      have hown' : ∀ e ∈ es, own e = true → Consistent step sim e :=
        fun d hd => hown d (List.mem_cons_of_mem _ hd)
      have hother' : ∀ e ∈ es, own e = false → Respects step sim e :=
        fun d hd => hother d (List.mem_cons_of_mem _ hd)
      rw [ownReplies, List.filter_cons]
      cases he : own e with
      | true =>
          obtain ⟨hreply, hsim⟩ := hown e List.mem_cons_self he s s' h
          simp only [if_true, replies]
          rw [hreply, ih hown' hother' hsim]
      | false =>
          have hsim := hother e List.mem_cons_self he s s' h
          simp only [Bool.false_eq_true, if_false]
          exact ih hown' hother' hsim

section thin

variable {β : Type} {keep : E → List E → Bool} {sim : List E → σ → σ → Prop} {seen : R → Option β}

/-- The events that are kept; whether one is depends on those still to come. -/
def thin (keep : E → List E → Bool) : List E → List E
  | [] => []
  | e :: es => if keep e es then e :: thin keep es else thin keep es

theorem thin_eq_filter (p : E → Bool) (es : List E) : thin (fun e _ => p e) es = es.filter p := by
  induction es with
  | nil => rfl
  | cons e es ih => rw [thin, List.filter_cons, ih]

/-- What is seen of the replies is the same without the events that are not kept, for an equivalence
that depends on the events still to come. -/
theorem filterMap_replies_thin
    (hkeep : ∀ e es s s', keep e es = true → sim (e :: es) s s' →
      (step e s).1 = (step e s').1 ∧ sim es (step e s).2 (step e s').2)
    (hdrop : ∀ e es s s', keep e es = false → sim (e :: es) s s' →
      seen (step e s).1 = none ∧ sim es (step e s).2 s')
    {es : List E} {s s' : σ} (h : sim es s s') :
    (replies step es s).filterMap seen = (replies step (thin keep es) s').filterMap seen := by
  induction es generalizing s s' with
  | nil => rfl
  | cons e es ih =>
      rw [replies, thin, List.filterMap_cons]
      cases he : keep e es with
      | true =>
          obtain ⟨hreply, hsim⟩ := hkeep e es s s' he h
          rw [if_pos rfl, replies, List.filterMap_cons, hreply, ih hsim]
      | false =>
          obtain ⟨hseen, hsim⟩ := hdrop e es s s' he h
          rw [hseen, if_neg Bool.false_ne_true]
          exact ih hsim

end thin

end Unwinding
