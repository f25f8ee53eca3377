import Mathlib.Tactic

/-! # Broadcast channels

A channel of bounded capacity that every reader reads from the position where it joined.  The channel keeps
the last values; a reader that asks for one that is gone is told how many it has missed and goes on with
the oldest one kept.

* **Readers.**  `Reader.turn` is what a reader does with one receive.  A reader remembers the positions and
  values it got, and how many it missed.
* **Accounts.**  `Follows` is kept by every send and every turn: what a reader got is in the order in which it
  was sent, without repetitions, and what it has passed without getting it was out of reach.  A reader
  that missed nothing got everything it has passed. -/

namespace Broadcast

inductive Reply (α : Type) where
  | value (a : α)
  | lagged (missed : ℕ)
  | waits

variable {α : Type} (capacity : ℕ)

/-- One receive at a position, and the position after it. -/
def recv (sent : List α) (next : ℕ) : Reply α × ℕ :=
  if next + capacity < sent.length then
    (.lagged (sent.length - capacity - next), sent.length - capacity)
  else
    match sent[next]? with
    | some a => (.value a, next + 1)
    | none => (.waits, next)

structure Reader (α : Type) where
  joined : ℕ
  next : ℕ
  got : List (ℕ × α) := []
  missed : ℕ := 0

/-- A reader that joins now. -/
def Reader.join (sent : List α) : Reader α := { joined := sent.length, next := sent.length }

def Reader.values (r : Reader α) : List α := r.got.map (·.2)

/-- The values the reader has passed, whether it got them or not. -/
def Reader.passed (r : Reader α) (sent : List α) : List α := (sent.drop r.joined).take (r.next - r.joined)

def Reader.turn (sent : List α) (r : Reader α) : Reader α :=
  match recv capacity sent r.next with
  | (.value a, next) => { r with next, got := r.got ++ [(r.next, a)] }
  | (.lagged missed, next) => { r with next, missed := r.missed + missed }
  | (.waits, _) => r

variable {capacity} {sent : List α} {r : Reader α} {next : ℕ}

theorem recv_cases (capacity : ℕ) (sent : List α) (next : ℕ) :
    (next + capacity < sent.length ∧
      recv capacity sent next = (.lagged (sent.length - capacity - next), sent.length - capacity)) ∨
    (sent.length ≤ next + capacity ∧
      ∃ a, sent[next]? = some a ∧ recv capacity sent next = (.value a, next + 1)) ∨
    (sent.length ≤ next ∧ recv capacity sent next = (.waits, next)) := by
  unfold recv
  by_cases hlag : next + capacity < sent.length
  · exact Or.inl ⟨hlag, if_pos hlag⟩
  · rw [if_neg hlag]
    cases hget : sent[next]? with
    | some a => exact Or.inr (Or.inl ⟨not_lt.mp hlag, a, rfl, rfl⟩)
    | none => exact Or.inr (Or.inr ⟨List.getElem?_eq_none_iff.mp hget, rfl⟩)

/-- What a reader has got and missed of the values sent. -/
structure Follows (capacity : ℕ) (sent : List α) (r : Reader α) : Prop where
  joined_le : r.joined ≤ r.next
  next_le : r.next ≤ sent.length
  got_sent : ∀ q ∈ r.got, r.joined ≤ q.1 ∧ q.1 < r.next ∧ sent[q.1]? = some q.2
  increasing : (r.got.map (·.1)).Pairwise (· < ·)
  accounted : r.got.length + r.missed = r.next - r.joined
  overtaken : ∀ p, r.joined ≤ p → p < r.next → p ∉ r.got.map (·.1) → p + capacity < sent.length
  sublist : r.values.Sublist (r.passed sent)
  complete : r.missed = 0 → r.values = r.passed sent

theorem follows_join (capacity : ℕ) (sent : List α) : Follows capacity sent (Reader.join sent) where
  joined_le := le_refl _
  next_le := le_refl _
  got_sent _ hq := nomatch hq
  increasing := List.Pairwise.nil
  accounted := (Nat.sub_self _).symm
  overtaken _ hjoined hnext := absurd hnext (not_lt.mpr hjoined)
  sublist := List.nil_sublist _
  complete _ := by simp [Reader.values, Reader.passed, Reader.join]

theorem Follows.passed_send (h : Follows capacity sent r) (a : α) :
    r.passed (sent ++ [a]) = r.passed sent := by
  have hnext := h.next_le
  unfold Reader.passed
  rw [List.drop_append_of_le_length (h.joined_le.trans hnext), List.take_append_of_le_length]
  rw [List.length_drop]
  omega

/-- More is sent. -/
theorem Follows.send (h : Follows capacity sent r) (a : α) : Follows capacity (sent ++ [a]) r where
  joined_le := h.joined_le
  next_le := h.next_le.trans (by simp)
  got_sent q hq := by
    obtain ⟨hjoined, hnext, hsent⟩ := h.got_sent q hq
    refine ⟨hjoined, hnext, ?_⟩
    rw [List.getElem?_append_left (hnext.trans_le h.next_le)]
    exact hsent
  increasing := h.increasing
  accounted := h.accounted
  overtaken p hjoined hnext hnot := (h.overtaken p hjoined hnext hnot).trans_le (by simp)
  sublist := by
    rw [h.passed_send a]
    exact h.sublist
  complete hmissed := by
    rw [h.passed_send a]
    exact h.complete hmissed

theorem Follows.turn (h : Follows capacity sent r) : Follows capacity sent (r.turn capacity sent) := by
  unfold Reader.turn
  rcases recv_cases capacity sent r.next with ⟨hlag, hrecv⟩ | ⟨-, a, hget, hrecv⟩ | ⟨-, hrecv⟩
  · rw [hrecv]
    have hjoined := h.joined_le
    have hnext := h.next_le
    have haccounted := h.accounted
    refine ⟨?_, ?_, fun q hq => ?_, h.increasing, ?_, fun p hp hlt hnot => ?_, ?_, fun hmissed => ?_⟩
    · show r.joined ≤ sent.length - capacity
      omega
    · show sent.length - capacity ≤ sent.length
      omega
    · obtain ⟨hq₁, hq₂, hsent⟩ := h.got_sent q hq
      exact ⟨hq₁, show q.1 < sent.length - capacity by omega, hsent⟩
    · show r.got.length + (r.missed + (sent.length - capacity - r.next)) = sent.length - capacity - r.joined
      omega
    · have hlt' : p < sent.length - capacity := hlt
      omega
    · have hmore : r.next - r.joined ≤ sent.length - capacity - r.joined := by omega
      exact h.sublist.trans (List.take_prefix_take_left hmore).sublist
    · have hmissed' : r.missed + (sent.length - capacity - r.next) = 0 := hmissed
      omega
  · rw [hrecv]
    have hlt : r.next < sent.length := (List.getElem?_eq_some_iff.mp hget).1
    have hjoined := h.joined_le
    have haccounted := h.accounted
    have hpassed : (sent.drop r.joined).take (r.next + 1 - r.joined) = r.passed sent ++ [a] := by
      have hnth : (sent.drop r.joined)[r.next - r.joined]? = some a := by
        rw [List.getElem?_drop, Nat.add_sub_cancel' hjoined]
        exact hget
      rw [show r.next + 1 - r.joined = r.next - r.joined + 1 by omega, List.take_add_one, hnth]
      rfl
    have hvalues : (r.got ++ [(r.next, a)]).map (·.2) = r.values ++ [a] := List.map_append
    refine ⟨hjoined.trans (Nat.le_succ _), hlt, fun q hq => ?_, ?_, ?_, fun p hp hlt' hnot => ?_, ?_,
      fun hmissed => ?_⟩
    · rcases List.mem_append.mp hq with hbefore | hnew
      · obtain ⟨hq₁, hq₂, hsent⟩ := h.got_sent q hbefore
        exact ⟨hq₁, hq₂.trans (Nat.lt_succ_self _), hsent⟩
      · rw [List.mem_singleton.mp hnew]
        exact ⟨hjoined, Nat.lt_succ_self _, hget⟩
    · show ((r.got ++ [(r.next, a)]).map (·.1)).Pairwise (· < ·)
      rw [List.map_append, List.pairwise_append]
      refine ⟨h.increasing, List.pairwise_singleton _ _, fun p hp q hq => ?_⟩
      obtain ⟨⟨p', b⟩, hgot, rfl⟩ := List.mem_map.mp hp
      obtain rfl := List.mem_singleton.mp hq
      exact (h.got_sent _ hgot).2.1
    · show (r.got ++ [(r.next, a)]).length + r.missed = r.next + 1 - r.joined
      rw [List.length_append, List.length_singleton]
      omega
    · have hnot' : p ∉ (r.got ++ [(r.next, a)]).map (·.1) := hnot
      rw [List.map_append, List.mem_append, not_or] at hnot'
      have hne : p ≠ r.next := by simpa using hnot'.2
      have hlt'' : p < r.next + 1 := hlt'
      exact h.overtaken p hp (by omega) hnot'.1
    · show ((r.got ++ [(r.next, a)]).map (·.2)).Sublist ((sent.drop r.joined).take (r.next + 1 - r.joined))
      rw [hvalues, hpassed]
      exact h.sublist.append (List.Sublist.refl _)
    · show (r.got ++ [(r.next, a)]).map (·.2) = (sent.drop r.joined).take (r.next + 1 - r.joined)
      rw [hvalues, hpassed, h.complete hmissed]
  · rw [hrecv]
    exact h

/-- A position within reach was got. -/
theorem Follows.got_of_kept (h : Follows capacity sent r) {p : ℕ} (hjoined : r.joined ≤ p)
    (hnext : p < r.next) (hkept : sent.length ≤ p + capacity) : p ∈ r.got.map (·.1) := by
  by_contra hnot
  exact absurd (h.overtaken p hjoined hnext hnot) (not_lt.mpr hkept)

end Broadcast
