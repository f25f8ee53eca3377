import MiniSiem.AgentShipper

/-! # When the agent delivers

Two properties of the runs of the agent and what each of them takes.

* **Waiting for itself.**  The shipper puts a failed batch back with a blocking `Push`, and only the
  shipper takes logs out.  It never waits on a full queue exactly when every failed batch fits into
  the room that is left and the collectors leave that room to it (`never_wedged_iff`).
* **Shutdown.**  Every log accepted from a collector is in the queue, held by the shipper, sent or
  given up (`Balanced`).  When `Start` returns nothing is left exactly when the queue is empty as the
  cancelled context is seen, the last batch does not fail and nothing is pushed meanwhile
  (`shutdown_accounts_iff`). -/

namespace MiniSiem

variable {batchSize : ℤ} {a a' : Agent}

/-! ### The queue under a step -/

theorem Agent.items_popped_le (a : Agent) (batchSize : ℤ) (batch : List AgentLog) :
    (a.popped batchSize batch).queue.items.length ≤ a.queue.items.length ∧
      (a.popped batchSize batch).queue.maxSize = a.queue.maxSize := by
  unfold popped Queue.pop
  cases hitems : a.queue.items with
  | nil => simp [hitems]
  | cons item items => simp

theorem Queue.tryPush_full {q : Queue} (h : q.full = true) (log : AgentLog) :
    q.tryPush log = (false, { q with dropped := q.dropped + 1 }) := if_pos h

theorem Queue.tryPush_room {q : Queue} (h : q.full = false) (log : AgentLog) :
    q.tryPush log = (true, { q with items := q.items ++ [log] }) :=
  if_neg (Bool.eq_false_iff.mp h)

theorem Queue.length_lt_of_room {q : Queue} (h : q.full = false) : q.items.length < q.maxSize := by
  simpa [Queue.full] using h

theorem Agent.queue_sendBatch (a : Agent) (batch : List AgentLog) (final : Bool)
    (outcome : SendOutcome) : (a.sendBatch batch final outcome).queue = a.queue := by
  cases hretried : outcome.retried with
  | true =>
      rw [a.sendBatch_retried batch final hretried, queue_retryBatch]
      rfl
  | false =>
      obtain ⟨b, hb, hqueue, -⟩ := a.sendBatch_settled batch final hretried
      rw [hb, queue_afterSend, hqueue]

def Agent.requeueing (a : Agent) : Bool :=
  match a.phase with
  | .requeueing _ _ => true
  | _ => false

/-- The shipper sends or puts back logs. -/
def Agent.busy (a : Agent) : Bool :=
  match a.phase with
  | .sending _ _ | .requeueing _ _ => true
  | _ => false

theorem Agent.held_of_phase {rest : List AgentLog} {final : Bool}
    (h : a.phase = .sending rest final ∨ a.phase = .requeueing rest final) : a.held = rest := by
  unfold held
  rcases h with h | h <;> rw [h]

theorem Agent.busy_of_phase {rest : List AgentLog} {final : Bool}
    (h : a.phase = .sending rest final ∨ a.phase = .requeueing rest final) : a.busy = true := by
  unfold busy
  rcases h with h | h <;> rw [h]

theorem Agent.phase_of_requeueing (h : a.requeueing = true) :
    ∃ rest final, a.phase = .requeueing rest final := by
  unfold requeueing at h
  split at h
  · exact ⟨_, _, by assumption⟩
  · cases h

theorem Agent.busy_afterSend (a : Agent) (final : Bool) : (a.afterSend final).busy = false := by
  cases final <;> rfl

theorem Agent.phase_retryBatch (a : Agent) {rest : List AgentLog} (final : Bool) (h : rest ≠ []) :
    (a.retryBatch rest final).phase = .requeueing rest final := by
  cases rest with
  | nil => exact absurd rfl h
  | cons log rest => rfl

/-- The queue holds no more than it may, and a busy shipper has logs. -/
structure Agent.Valid (a : Agent) : Prop where
  bounded : a.queue.items.length ≤ a.queue.maxSize
  busy : a.busy = true → a.held ≠ []

theorem Agent.Valid.start (maxSize : ℕ) : (Agent.start maxSize).Valid where
  bounded := Nat.zero_le _
  busy := fun h => by cases h

theorem Agent.busy_retryBatch (a : Agent) (rest : List AgentLog) (final : Bool)
    (h : (a.retryBatch rest final).busy = true) : (a.retryBatch rest final).held ≠ [] := by
  rw [held_retryBatch]
  cases rest with
  | nil =>
      rw [retryBatch, busy_afterSend] at h
      cases h
  | cons log rest => exact List.cons_ne_nil _ _

theorem Agent.Valid.step {e : AgentEvent} (hJ : a.Valid) (h : a.step batchSize e = some a') :
    a'.Valid := by
  have hbounded := hJ.bounded
  cases AgentStep.of_step h with
  | offered log hphase =>
      unfold Agent.offered
      cases hfull : a.queue.full with
      | true =>
          rw [Queue.tryPush_full hfull]
          exact ⟨hbounded, hJ.busy⟩
      | false =>
          rw [Queue.tryPush_room hfull]
          have := Queue.length_lt_of_room hfull
          refine ⟨?_, hJ.busy⟩
          simp only [List.length_append, List.length_singleton]
          omega
  | cancelled hphase => exact ⟨hbounded, hJ.busy⟩
  | returned hphase => exact ⟨hbounded, fun h => by cases h⟩
  | finishing batch hphase hne => exact ⟨hbounded, fun _ => hne⟩
  | idle hphase => exact hJ
  | flushing batch hphase hne => exact ⟨hbounded, fun _ => hne⟩
  | popped batch hphase =>
      obtain ⟨hlen, hmax⟩ := a.items_popped_le batchSize batch
      refine ⟨by omega, ?_⟩
      unfold popped
      cases a.queue.pop with
      | mk log queue =>
          cases log with
          | none => exact hJ.busy
          | some log =>
              intro _
              dsimp only [held]
              split_ifs <;> exact List.append_ne_nil_of_right_ne_nil _ (List.cons_ne_nil _ _)
  | responded batch final outcome hphase =>
      refine ⟨by rwa [a.queue_sendBatch], ?_⟩
      cases hretried : outcome.retried with
      | true =>
          rw [a.sendBatch_retried batch final hretried]
          exact (a.incrementFailed batch).busy_retryBatch batch final
      | false =>
          obtain ⟨b, hb, -⟩ := a.sendBatch_settled batch final hretried
          rw [hb, busy_afterSend]
          exact fun h => by cases h
  | pushed log rest final hphase hroom =>
      refine ⟨?_, busy_retryBatch _ rest final⟩
      rw [Agent.queue_retryBatch]
      have := Queue.length_lt_of_room hroom
      simp only [List.length_append, List.length_singleton]
      omega

/-! ### Waiting for itself -/

namespace Agent

/-- The shipper waits inside `Push` on a full queue. -/
def Wedged (a : Agent) : Prop := a.requeueing = true ∧ a.queue.full = true

instance (a : Agent) : Decidable a.Wedged := inferInstanceAs (Decidable (_ ∧ _))

/-- A failed batch fits into the queue, and the collectors leave the room that it still needs. -/
def RoomToRetry (a : Agent) : AgentEvent → Prop
  | .response outcome =>
      outcome.retried = true → a.queue.items.length + a.held.length ≤ a.queue.maxSize
  | .tryPush _ =>
      a.requeueing = true → a.queue.items.length + a.held.length < a.queue.maxSize
  | _ => True

instance (a : Agent) (e : AgentEvent) : Decidable (a.RoomToRetry e) := by
  cases e <;> unfold RoomToRetry <;> infer_instance

/-- The logs that are put back fit. -/
def Roomy (a : Agent) : Prop :=
  a.requeueing = true → a.queue.items.length + a.held.length ≤ a.queue.maxSize

theorem Roomy.not_wedged (hJ : a.Valid) (h : a.Roomy) : ¬ a.Wedged := by
  rintro ⟨hre, hfull⟩
  have hfit := h hre
  obtain ⟨rest, final, hphase⟩ := phase_of_requeueing hre
  have hlen := List.length_pos_iff.mpr (hJ.busy (busy_of_phase (Or.inr hphase)))
  have hmax : a.queue.maxSize ≤ a.queue.items.length := of_decide_eq_true hfull
  omega

theorem requeueing_afterSend (a : Agent) (final : Bool) :
    (a.afterSend final).requeueing = false := by cases final <;> rfl

theorem Roomy.of_phase (h : a.requeueing = false) : a.Roomy := by
  intro hre
  rw [h] at hre
  cases hre

theorem Roomy.step {e : AgentEvent} (hJ : a.Roomy) (hok : a.RoomToRetry e)
    (h : a.step batchSize e = some a') : a'.Roomy := by
  cases AgentStep.of_step h with
  | offered log hphase =>
      intro hre
      have hroom := hok hre
      unfold offered
      cases hfull : a.queue.full with
      | true =>
          rw [Queue.tryPush_full hfull]
          exact hroom.le
      | false =>
          rw [Queue.tryPush_room hfull]
          show (a.queue.items ++ [log]).length + a.held.length ≤ a.queue.maxSize
          rw [List.length_append, List.length_singleton]
          omega
  | cancelled hphase => exact hJ
  | returned hphase => exact .of_phase rfl
  | finishing batch hphase hne => exact .of_phase rfl
  | idle hphase => exact hJ
  | flushing batch hphase hne => exact .of_phase rfl
  | popped batch hphase =>
      refine .of_phase ?_
      unfold popped requeueing
      cases a.queue.pop with
      | mk log queue =>
          cases log with
          | none => simp only [hphase]
          | some log =>
              dsimp only
              split_ifs <;> rfl
  | responded batch final outcome hphase =>
      cases hretried : outcome.retried with
      | true =>
          intro _
          have hfit := hok hretried
          rw [a.sendBatch_retried batch final hretried, queue_retryBatch, held_retryBatch]
          rw [held_of_phase (Or.inl hphase)] at hfit
          exact hfit
      | false =>
          obtain ⟨b, hb, -⟩ := a.sendBatch_settled batch final hretried
          rw [hb]
          exact .of_phase (b.requeueing_afterSend final)
  | pushed log rest final hphase hroom =>
      intro _
      have hfit := hJ (by unfold requeueing; rw [hphase])
      rw [held_of_phase (Or.inr hphase), List.length_cons] at hfit
      rw [queue_retryBatch, held_retryBatch]
      show (a.queue.items ++ [log]).length + rest.length ≤ a.queue.maxSize
      rw [List.length_append, List.length_singleton]
      omega

/-- A batch that does not fit is put back until the queue is full. -/
theorem wedges_of_overfull {rest : List AgentLog} {final : Bool}
    (hphase : a.phase = .requeueing rest final) (hne : rest ≠ [])
    (hover : a.queue.maxSize < a.queue.items.length + rest.length) :
    ∃ n b, runAgent batchSize (List.replicate n .push) a = some b ∧ b.Wedged := by
  induction rest generalizing a with
  | nil => exact absurd rfl hne
  | cons log rest ih =>
      cases hfull : a.queue.full with
      | true =>
          refine ⟨0, a, rfl, ?_, hfull⟩
          unfold requeueing
          rw [hphase]
      | false =>
          have hlt := Queue.length_lt_of_room hfull
          obtain ⟨next, rest, rfl⟩ : ∃ next rest', rest = next :: rest' := by
            cases rest with
            | nil => simp only [List.length_singleton] at hover; omega
            | cons next rest => exact ⟨next, rest, rfl⟩
          have hstep : a.step batchSize .push = some
              { a with
                queue := { a.queue with items := a.queue.items ++ [log] }
                phase := .requeueing (next :: rest) final } := by
            unfold step Queue.push
            simp only [hphase, hfull]
            rfl
          obtain ⟨n, b, hrun, hwedged⟩ := @ih
            { a with
              queue := { a.queue with items := a.queue.items ++ [log] }
              phase := .requeueing (next :: rest) final } rfl (List.cons_ne_nil _ _) (by
            simp only [List.length_append, List.length_cons, List.length_nil] at hover ⊢
            omega)
          exact ⟨n + 1, b, Runs.run_cons.mpr ⟨_, hstep, hrun⟩, hwedged⟩

/-- After a step that does not leave the room, the shipper puts back logs until it waits. -/
theorem wedges_of_not_room {e : AgentEvent} (hJ : a.Valid) (h : a.step batchSize e = some a')
    (hroom : ¬ a.RoomToRetry e) :
    ∃ n b, runAgent batchSize (List.replicate n .push) a' = some b ∧ b.Wedged := by
  cases AgentStep.of_step h with
  | offered log hphase =>
      unfold RoomToRetry at hroom
      push Not at hroom
      obtain ⟨hre, hover⟩ := hroom
      obtain ⟨rest, final, hphase⟩ := phase_of_requeueing hre
      have hne := hJ.busy (busy_of_phase (Or.inr hphase))
      rw [held_of_phase (Or.inr hphase)] at hover hne
      have hkept : (a.offered log).phase = .requeueing rest final := hphase
      unfold offered at hkept ⊢
      cases hfull : a.queue.full with
      | true =>
          rw [Queue.tryPush_full hfull] at hkept ⊢
          refine ⟨0, _, rfl, ?_, hfull⟩
          unfold requeueing
          rw [hkept]
      | false =>
          rw [Queue.tryPush_room hfull] at hkept ⊢
          refine wedges_of_overfull hkept hne ?_
          simp only [List.length_append, List.length_singleton]
          omega
  | responded batch final outcome hphase =>
      unfold RoomToRetry at hroom
      push Not at hroom
      obtain ⟨hretried, hover⟩ := hroom
      have hne := hJ.busy (busy_of_phase (Or.inl hphase))
      rw [held_of_phase (Or.inl hphase)] at hover hne
      rw [a.sendBatch_retried batch final hretried]
      exact wedges_of_overfull (phase_retryBatch _ final hne) hne (by rwa [queue_retryBatch])
  | _ => exact absurd trivial hroom

end Agent

/-- **When the agent does not wait for itself**: in no state that a run passes, continued by the pushes
of the shipper, does it wait on a full queue exactly when every failed batch fits and the collectors
leave the room for it. -/
theorem never_wedged_iff (batchSize : ℤ) (maxSize : ℕ) (events : List AgentEvent) (a : Agent)
    (h : runAgent batchSize events (.start maxSize) = some a) :
    (∀ front back n b, events = front ++ back →
      runAgent batchSize (front ++ List.replicate n .push) (.start maxSize) = some b → ¬ b.Wedged) ↔
    Runs.Meets (fun a e => a.step batchSize e) Agent.RoomToRetry events (.start maxSize) := by
  have hvalid : ∀ {es : List AgentEvent} {b : Agent},
      runAgent batchSize es (.start maxSize) = some b → b.Valid :=
    fun hrun => Runs.run_invariant (fun _ _ _ hJ hstep => hJ.step hstep) (.start maxSize) hrun
  constructor
  · intro hsafe
    refine Runs.meets_of_fronts h ?_
    intro front e back b b' hevents hfront hstep
    by_contra hroom
    obtain ⟨n, c, hrun, hwedged⟩ := Agent.wedges_of_not_room (hvalid hfront) hstep hroom
    refine hsafe (front ++ [e]) back n c ?_ ?_ hwedged
    · rw [hevents, List.append_assoc]
      rfl
    · rw [List.append_assoc]
      exact Runs.run_append.mpr ⟨b, hfront, Runs.run_cons.mpr ⟨b', hstep, hrun⟩⟩
  · intro hroom front back n b hevents hrun
    obtain ⟨c, hfront, hpushes⟩ := Runs.run_append.mp hrun
    rw [hevents, Runs.meets_append hfront] at hroom
    have hstart : (Agent.start maxSize).Roomy := .of_phase rfl
    have hc : c.Roomy :=
      hroom.1.run_invariant (fun _ _ _ hJ hok hstep => hJ.step hok hstep) hstart hfront
    have hmeets : Runs.Meets (fun a e => a.step batchSize e) Agent.RoomToRetry
        (List.replicate n .push) c := by
      refine Runs.meets_of_fronts hpushes ?_
      intro front e back t u hes _ _
      have he : e ∈ List.replicate n AgentEvent.push := by
        rw [hes]
        exact List.mem_append_right _ List.mem_cons_self
      rw [List.eq_of_mem_replicate he]
      trivial
    have hb : b.Roomy := hmeets.run_invariant (fun _ _ _ hJ hok hstep => hJ.step hok hstep) hc hpushes
    exact hb.not_wedged (hvalid hrun)

/-- A failed batch that finds its place free again. -/
def retriedInPlace : List AgentEvent :=
  [.tryPush sshdPacket.log, .pop, .response .transportError, .push]

/-- While it is put back the shipper does not wait. -/
theorem retriedInPlace_never_wedged :
    ∃ b, runAgent 1 (retriedInPlace.take 3) (.start 1) = some b ∧ ¬ b.Wedged :=
  ⟨_, rfl, (never_wedged_iff 1 1 retriedInPlace _ rfl).mpr (by decide) (retriedInPlace.take 3)
    (retriedInPlace.drop 3) 0 _ rfl rfl⟩

/-- The place of a failed batch is taken while it is sent. -/
theorem refilledQueue_wedges :
    ∃ b, runAgent 1 [.tryPush sshdPacket.log, .pop, .tryPush sshdPacket.log, .response (.status 503)]
      (.start 1) = some b ∧ b.Wedged :=
  ⟨_, rfl, by decide⟩

/-! ### Shutdown -/

namespace Agent

/-- Every log accepted from a collector is in the queue, held, sent or given up. -/
def Balanced (a : Agent) : Prop :=
  (a.pushed : Multiset AgentLog) = a.queue.items + a.held + a.sent + a.givenUp

theorem balanced_start (maxSize : ℕ) : (start maxSize).Balanced := by
  simp [Balanced, start, held]

theorem Balanced.step {e : AgentEvent} (hJ : a.Balanced) (h : a.step batchSize e = some a') :
    a'.Balanced := by
  unfold Balanced at hJ ⊢
  cases AgentStep.of_step h with
  | offered log hphase =>
      unfold offered
      cases hfull : a.queue.full with
      | true => rw [Queue.tryPush_full hfull]; exact hJ
      | false =>
          rw [Queue.tryPush_room hfull]
          show ((a.pushed ++ [log] : List AgentLog) : Multiset AgentLog) =
            (a.queue.items ++ [log] : List AgentLog) + a.held + a.sent + a.givenUp
          rw [← Multiset.coe_add, ← Multiset.coe_add, hJ]
          ac_rfl
  | cancelled hphase => exact hJ
  | returned hphase =>
      have hheld : a.held = [] := by unfold held; rw [hphase]
      rw [hheld] at hJ
      exact hJ
  | finishing batch hphase hne =>
      have hheld : a.held = batch := by unfold held; rw [hphase]
      rw [hheld] at hJ
      exact hJ
  | idle hphase => exact hJ
  | flushing batch hphase hne =>
      have hheld : a.held = batch := by unfold held; rw [hphase]
      rw [hheld] at hJ
      exact hJ
  | popped batch hphase =>
      have hheld : a.held = batch := by unfold held; rw [hphase]
      unfold popped Queue.pop
      cases hitems : a.queue.items with
      | nil => exact hJ
      | cons item items =>
          have hheld' : (a.popped batchSize batch).held = batch ++ [item] := by
            unfold popped Queue.pop held
            simp only [hitems]
            split_ifs <;> rfl
          unfold popped Queue.pop at hheld'
          simp only [hitems] at hheld' ⊢
          rw [hheld', hJ, hitems, hheld, show item :: items = [item] ++ items from rfl,
            ← Multiset.coe_add, ← Multiset.coe_add]
          ac_rfl
  | responded batch final outcome hphase =>
      rw [held_of_phase (Or.inl hphase)] at hJ
      cases hretried : outcome.retried with
      | true =>
          rw [a.sendBatch_retried batch final hretried, held_retryBatch, queue_retryBatch,
            pushed_retryBatch, sent_retryBatch, givenUp_retryBatch]
          exact hJ
      | false =>
          obtain ⟨b, hb, hqueue, hpushed, hbooks⟩ := a.sendBatch_settled batch final hretried
          rw [hb, held_afterSend]
          show (b.pushed : Multiset AgentLog) = b.queue.items + ([] : List AgentLog) + b.sent + b.givenUp
          rw [hpushed, hqueue, hJ]
          rcases hbooks with ⟨hsent, hgiven⟩ | ⟨hsent, hgiven⟩
          · rw [hsent, hgiven, ← Multiset.coe_add, Multiset.coe_nil, add_zero]
            ac_rfl
          · rw [hsent, hgiven, ← Multiset.coe_add, Multiset.coe_nil, add_zero]
            ac_rfl
  | pushed log rest final hphase hroom =>
      rw [held_of_phase (Or.inr hphase)] at hJ
      rw [held_retryBatch, queue_retryBatch, pushed_retryBatch, sent_retryBatch, givenUp_retryBatch]
      show (a.pushed : Multiset AgentLog) = (a.queue.items ++ [log] : List AgentLog) + rest + a.sent +
        a.givenUp
      rw [hJ, show log :: rest = [log] ++ rest from rfl, ← Multiset.coe_add, ← Multiset.coe_add]
      ac_rfl

/-- The shipper sends or puts back the batch it sends because the context is cancelled. -/
def final (a : Agent) : Bool :=
  match a.phase with
  | .sending _ final | .requeueing _ final => final
  | _ => false

/-- The queue is empty as the cancelled context is seen, the last batch does not fail, and the queue
takes no log meanwhile. -/
def FinalSettled (a : Agent) : AgentEvent → Prop
  | .done => a.queue.items = []
  | .response outcome => a.final = true → outcome.retried = false
  | .tryPush _ => a.final = true → a.queue.full = true
  | _ => True

instance (a : Agent) (e : AgentEvent) : Decidable (a.FinalSettled e) := by
  cases e <;> unfold FinalSettled <;> infer_instance

/-- Nothing is left behind for good. -/
def Clean (a : Agent) : Prop :=
  match a.phase with
  | .sending _ true | .returned => a.queue.items = []
  | .requeueing _ true => False
  | _ => True

theorem clean_of_not_final (hret : a.phase ≠ .returned) (hfinal : a.final = false) : a.Clean := by
  unfold Clean
  unfold final at hfinal
  cases hphase : a.phase with
  | returned => exact absurd hphase hret
  | selecting batch => trivial
  | sending batch final =>
      rw [hphase] at hfinal
      obtain rfl : final = false := hfinal
      trivial
  | requeueing rest final =>
      rw [hphase] at hfinal
      obtain rfl : final = false := hfinal
      trivial

/-- Outside of the last batch a step has nothing to meet. -/
theorem clean_iff_of_not_final {e : AgentEvent} (hret : a.phase ≠ .returned) (hfinal : a.final = false)
    (hret' : a'.phase ≠ .returned) (hfinal' : a'.final = false) (hok : a.FinalSettled e) :
    a'.Clean ↔ a.Clean ∧ a.FinalSettled e :=
  iff_of_true (clean_of_not_final hret' hfinal') ⟨clean_of_not_final hret hfinal, hok⟩

theorem Clean.iff_of_step {e : AgentEvent} (hJ : a.Valid) (h : a.step batchSize e = some a') :
    a'.Clean ↔ a.Clean ∧ a.FinalSettled e := by
  cases AgentStep.of_step h with
  | offered log hret =>
      have hphase' : (a.offered log).phase = a.phase := rfl
      cases hfinal : a.final with
      | false =>
          refine clean_iff_of_not_final hret hfinal hret ?_ ?_
          · exact hfinal
          · intro hf
            rw [hfinal] at hf
            cases hf
      | true =>
          have hok : a.FinalSettled (.tryPush log) ↔ a.queue.full = true :=
            ⟨fun h => h hfinal, fun h _ => h⟩
          rw [hok]
          unfold Clean
          rw [hphase']
          unfold final at hfinal
          cases hphase : a.phase with
          | returned => exact absurd hphase hret
          | selecting batch => rw [hphase] at hfinal; cases hfinal
          | sending batch final =>
              rw [hphase] at hfinal
              obtain rfl : final = true := hfinal
              unfold offered
              cases hfull : a.queue.full with
              | true =>
                  rw [Queue.tryPush_full hfull]
                  exact (and_iff_left rfl).symm
              | false =>
                  rw [Queue.tryPush_room hfull]
                  simp
          | requeueing rest final =>
              rw [hphase] at hfinal
              obtain rfl : final = true := hfinal
              exact ⟨fun h => h.elim, fun h => h.1.elim⟩
  | cancelled hphase => exact (and_iff_left trivial).symm
  | returned hphase =>
      unfold Clean
      rw [hphase]
      exact (and_iff_right trivial).symm
  | finishing batch hphase hne =>
      unfold Clean
      rw [hphase]
      exact (and_iff_right trivial).symm
  | idle hphase => exact (and_iff_left trivial).symm
  | flushing batch hphase hne =>
      unfold Clean
      rw [hphase]
      exact (and_iff_left trivial).symm
  | popped batch hphase =>
      have hfinal : a.final = false := by unfold final; rw [hphase]
      have hret : a.phase ≠ .returned := by rw [hphase]; exact ShipperPhase.noConfusion
      have hpopped : (a.popped batchSize batch).phase ≠ .returned ∧
          (a.popped batchSize batch).final = false := by
        unfold popped
        cases a.queue.pop with
        | mk log queue =>
            cases log with
            | none => exact ⟨hret, hfinal⟩
            | some log =>
                dsimp only [final]
                split_ifs <;> exact ⟨ShipperPhase.noConfusion, rfl⟩
      exact clean_iff_of_not_final hret hfinal hpopped.1 hpopped.2 trivial
  | responded batch final outcome hphase =>
      have hne := hJ.busy (busy_of_phase (Or.inl hphase))
      rw [held_of_phase (Or.inl hphase)] at hne
      have hfinal : a.final = final := by unfold Agent.final; rw [hphase]
      unfold Clean FinalSettled
      rw [hfinal, hphase]
      cases hretried : outcome.retried with
      | true =>
          rw [a.sendBatch_retried batch final hretried, phase_retryBatch _ final hne]
          cases final <;> simp [hretried]
      | false =>
          obtain ⟨b, hb, hqueue, -⟩ := a.sendBatch_settled batch final hretried
          rw [hb, ← hqueue]
          cases final <;> simp [afterSend, hretried]
  | pushed log rest final hphase hroom =>
      unfold Clean FinalSettled
      rw [hphase, queue_retryBatch]
      cases rest with
      | nil => cases final <;> simp [retryBatch, afterSend]
      | cons next rest => cases final <;> simp [retryBatch]

end Agent

/-- **When the shutdown accounts for every log**: as `Start` returns, the queue is empty and every log
accepted from a collector is sent or given up, exactly when the queue is empty as the cancelled
context is seen, the last batch does not fail and the queue takes no log meanwhile. -/
theorem shutdown_accounts_iff (batchSize : ℤ) (maxSize : ℕ) (events : List AgentEvent) (a : Agent)
    (h : runAgent batchSize events (.start maxSize) = some a) (hreturned : a.phase = .returned) :
    (a.queue.items = [] ∧ a.pushed.Perm (a.sent ++ a.givenUp)) ↔
    Runs.Meets (fun a e => a.step batchSize e) Agent.FinalSettled events (.start maxSize) := by
  have hclean := Runs.holds_iff_meets (fun _ _ _ hJ hstep => Agent.Valid.step hJ hstep)
    (fun _ _ _ hJ hstep => Agent.Clean.iff_of_step hJ hstep) (Agent.Valid.start maxSize) h
  have hbalanced : a.Balanced :=
    Runs.run_invariant (fun _ _ _ hJ hstep => Agent.Balanced.step hJ hstep)
      (Agent.balanced_start maxSize) h
  have hheld : a.held = [] := by unfold Agent.held; rw [hreturned]
  have hempty : a.Clean ↔ a.queue.items = [] := by unfold Agent.Clean; rw [hreturned]
  have hstart : (Agent.start maxSize).Clean := trivial
  rw [hempty, and_iff_right hstart] at hclean
  rw [← hclean, and_iff_left_iff_imp]
  intro hitems
  unfold Agent.Balanced at hbalanced
  rw [hitems, hheld, Multiset.coe_nil, zero_add, zero_add, Multiset.coe_add] at hbalanced
  exact Multiset.coe_eq_coe.mp hbalanced

/-- A batch that is answered after the context is cancelled. -/
def answeredLast : List AgentEvent :=
  [.tryPush sshdPacket.log, .pop, .cancel, .done, .response (.status 202)]

theorem answeredLast_accounts :
    ∃ a, runAgent 100 answeredLast (.start 10000) = some a ∧ a.queue.items = [] ∧
      a.pushed.Perm (a.sent ++ a.givenUp) :=
  ⟨_, rfl, (shutdown_accounts_iff 100 10000 answeredLast _ rfl rfl).mpr (by decide)⟩

/-- The context is cancelled with a log in the queue. -/
theorem cancelledEarly_leaves_log :
    ∃ a, runAgent 100 [.tryPush sshdPacket.log, .cancel, .done] (.start 10000) = some a ∧
      a.phase = .returned ∧ a.queue.items = [sshdPacket.log] ∧ a.sent = [] ∧ a.givenUp = [] :=
  ⟨_, rfl, rfl, rfl, rfl, rfl⟩

end MiniSiem
