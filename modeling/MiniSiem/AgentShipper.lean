import MiniSiem.AgentLogs
import MiniSiem.Lib.Runs

/-! # The queue and the shipper of the agent

`Queue` of `agent/queue/queue.go` and the loop of `Shipper.Start` (`agent/shipper/shipper.go`), with
any number of collectors that call `TryPush`.

* **Events.**  The shipper is the only consumer.  `done`, `tick` and `pop` are the branches of its
  `select` (the default branch is taken only while the context is not cancelled), `response` is what
  becomes of the batch it sends, `push` one blocking `Push` of `retryBatch`.
* **Blocking.**  A `Push` on a full queue is not possible; the shipper waits.  The run ends when
  `Start` returns.
* **Books.**  `pushed`, `sent` and `givenUp` are the logs accepted from the collectors, those of the
  batches answered with 202, and those of the failed batches that are not queued again. -/

namespace MiniSiem

/-! ### The queue -/

structure Queue where
  items : List AgentLog
  maxSize : ℕ
  dropped : UInt64

namespace Queue

def full (q : Queue) : Bool := q.maxSize ≤ q.items.length

/-- `Push`; there is no result while it waits. -/
def push (q : Queue) (log : AgentLog) : Option Queue :=
  if q.full then none else some { q with items := q.items ++ [log] }

def tryPush (q : Queue) (log : AgentLog) : Bool × Queue :=
  if q.full then (false, { q with dropped := q.dropped + 1 })
  else (true, { q with items := q.items ++ [log] })

/-- `Pop(false)`. -/
def pop (q : Queue) : Option AgentLog × Queue :=
  match q.items with
  | [] => (none, q)
  | item :: items => (some item, { q with items := items })

end Queue

/-! ### The shipper -/

/-- Where `sendBatch` ends: an error of `ToJSON`, of `NewRequest` or of `Do`, or the status code. -/
inductive SendOutcome
  | marshalError
  | requestError
  | transportError
  | status (code : ℕ)

/-- `final` marks the batch that is sent because the context is cancelled. -/
inductive ShipperPhase
  | selecting (batch : List AgentLog)
  | sending (batch : List AgentLog) (final : Bool)
  | requeueing (rest : List AgentLog) (final : Bool)
  | returned

structure Agent where
  queue : Queue
  phase : ShipperPhase
  cancelled : Bool
  sentCount : UInt64
  failedCount : UInt64
  pushed : List AgentLog
  sent : List AgentLog
  givenUp : List AgentLog

inductive AgentEvent
  | tryPush (log : AgentLog)
  | cancel
  | done
  | tick
  | pop
  | response (outcome : SendOutcome)
  | push

namespace Agent

variable (a : Agent)

def start (maxSize : ℕ) : Agent where
  queue := ⟨[], maxSize, 0⟩
  phase := .selecting []
  cancelled := false
  sentCount := 0
  failedCount := 0
  pushed := []
  sent := []
  givenUp := []

/-- A collector offers a log. -/
def offered (log : AgentLog) : Agent :=
  let (accepted, queue) := a.queue.tryPush log
  { a with queue := queue, pushed := if accepted then a.pushed ++ [log] else a.pushed }

/-- What follows a call of `sendBatch`. -/
def afterSend (final : Bool) : Agent :=
  { a with phase := if final then .returned else .selecting [] }

def incrementFailed (batch : List AgentLog) : Agent :=
  { a with failedCount := a.failedCount + UInt64.ofNat batch.length }

/-- `retryBatch`, from the log it is at. -/
def retryBatch (rest : List AgentLog) (final : Bool) : Agent :=
  match rest with
  | [] => a.afterSend final
  | log :: rest => { a with phase := .requeueing (log :: rest) final }

def sendBatch (batch : List AgentLog) (final : Bool) : SendOutcome → Agent
  | .marshalError | .requestError =>
      ({ a.incrementFailed batch with givenUp := a.givenUp ++ batch }).afterSend final
  | .transportError => (a.incrementFailed batch).retryBatch batch final
  | .status code =>
      if code = 202 then
        ({ a with
          sentCount := a.sentCount + UInt64.ofNat batch.length
          sent := a.sent ++ batch }).afterSend final
      else (a.incrementFailed batch).retryBatch batch final

/-- The default branch with this local batch. -/
def popped (batchSize : ℤ) (batch : List AgentLog) : Agent :=
  match a.queue.pop with
  | (none, _) => a
  | (some log, queue) =>
      let batch := batch ++ [log]
      { a with
        queue := queue
        phase := if batchSize ≤ batch.length then .sending batch false else .selecting batch }

def step (batchSize : ℤ) : AgentEvent → Option Agent
  | .tryPush log => match a.phase with
      | .returned => none
      | _ => some (a.offered log)
  | .cancel => match a.phase with
      | .returned => none
      | _ => some { a with cancelled := true }
  | .done => match a.phase, a.cancelled with
      | .selecting [], true => some { a with phase := .returned }
      | .selecting (log :: batch), true => some { a with phase := .sending (log :: batch) true }
      | _, _ => none
  | .tick => match a.phase with
      | .selecting [] => some a
      | .selecting (log :: batch) => some { a with phase := .sending (log :: batch) false }
      | _ => none
  | .pop => match a.phase, a.cancelled with
      | .selecting batch, false => some (a.popped batchSize batch)
      | _, _ => none
  | .response outcome => match a.phase with
      | .sending batch final => some (a.sendBatch batch final outcome)
      | _ => none
  | .push => match a.phase with
      | .requeueing (log :: rest) final =>
          (a.queue.push log).map fun queue => ({ a with queue := queue }).retryBatch rest final
      | _ => none

end Agent

/-- The run of an agent with this batch size. -/
abbrev runAgent (batchSize : ℤ) : List AgentEvent → Agent → Option Agent :=
  Runs.run fun a e => a.step batchSize e

/-! ### What a step does -/

def SendOutcome.retried : SendOutcome → Bool
  | transportError => true
  | status code => code ≠ 202
  | _ => false

/-- The steps of an agent, with what each of them needs. -/
inductive AgentStep (batchSize : ℤ) (a : Agent) : AgentEvent → Agent → Prop
  | offered (log : AgentLog) (h : a.phase ≠ .returned) :
      AgentStep batchSize a (.tryPush log) (a.offered log)
  | cancelled (h : a.phase ≠ .returned) : AgentStep batchSize a .cancel { a with cancelled := true }
  | returned (h : a.phase = .selecting []) : AgentStep batchSize a .done { a with phase := .returned }
  | finishing (batch : List AgentLog) (h : a.phase = .selecting batch) (hne : batch ≠ []) :
      AgentStep batchSize a .done { a with phase := .sending batch true }
  | idle (h : a.phase = .selecting []) : AgentStep batchSize a .tick a
  | flushing (batch : List AgentLog) (h : a.phase = .selecting batch) (hne : batch ≠ []) :
      AgentStep batchSize a .tick { a with phase := .sending batch false }
  | popped (batch : List AgentLog) (h : a.phase = .selecting batch) :
      AgentStep batchSize a .pop (a.popped batchSize batch)
  | responded (batch : List AgentLog) (final : Bool) (outcome : SendOutcome)
      (h : a.phase = .sending batch final) :
      AgentStep batchSize a (.response outcome) (a.sendBatch batch final outcome)
  | pushed (log : AgentLog) (rest : List AgentLog) (final : Bool)
      (h : a.phase = .requeueing (log :: rest) final) (hroom : a.queue.full = false) :
      AgentStep batchSize a .push
        (({ a with queue := { a.queue with items := a.queue.items ++ [log] } }).retryBatch rest final)

theorem AgentStep.of_step {batchSize : ℤ} {a a' : Agent} {e : AgentEvent}
    (h : a.step batchSize e = some a') : AgentStep batchSize a e a' := by
  cases e with
  | tryPush log =>
      unfold Agent.step at h
      dsimp only at h
      split at h
      · cases h
      · obtain rfl := Option.some.inj h
        exact .offered log (by assumption)
  | cancel =>
      unfold Agent.step at h
      dsimp only at h
      split at h
      · cases h
      · obtain rfl := Option.some.inj h
        exact .cancelled (by assumption)
  | done =>
      unfold Agent.step at h
      dsimp only at h
      split at h
      · obtain rfl := Option.some.inj h
        exact .returned (by assumption)
      · obtain rfl := Option.some.inj h
        exact .finishing _ (by assumption) (List.cons_ne_nil _ _)
      · cases h
  | tick =>
      unfold Agent.step at h
      dsimp only at h
      split at h
      · obtain rfl := Option.some.inj h
        exact .idle (by assumption)
      · obtain rfl := Option.some.inj h
        exact .flushing _ (by assumption) (List.cons_ne_nil _ _)
      · cases h
  | pop =>
      unfold Agent.step at h
      dsimp only at h
      split at h
      · obtain rfl := Option.some.inj h
        exact .popped _ (by assumption)
      · cases h
  | response outcome =>
      unfold Agent.step at h
      dsimp only at h
      split at h
      · obtain rfl := Option.some.inj h
        exact .responded _ _ outcome (by assumption)
      · cases h
  | push =>
      unfold Agent.step Queue.push at h
      dsimp only at h
      split at h
      · split_ifs at h with hfull
        · cases h
        · obtain rfl := Option.some.inj h
          exact .pushed _ _ _ (by assumption) (Bool.eq_false_iff.mpr hfull)
      · cases h

namespace Agent

/-- The logs that the shipper holds. -/
def held (a : Agent) : List AgentLog :=
  match a.phase with
  | .selecting batch | .sending batch _ => batch
  | .requeueing rest _ => rest
  | .returned => []

variable (a : Agent) (batch rest : List AgentLog) (final : Bool)

@[simp] theorem held_afterSend : (a.afterSend final).held = [] := by cases final <;> rfl

@[simp] theorem queue_afterSend : (a.afterSend final).queue = a.queue := rfl

@[simp] theorem held_retryBatch : (a.retryBatch rest final).held = rest := by
  cases rest with
  | nil => exact a.held_afterSend final
  | cons log rest => rfl

@[simp] theorem queue_retryBatch : (a.retryBatch rest final).queue = a.queue := by
  cases rest <;> rfl

@[simp] theorem pushed_retryBatch : (a.retryBatch rest final).pushed = a.pushed := by
  cases rest <;> rfl

@[simp] theorem sent_retryBatch : (a.retryBatch rest final).sent = a.sent := by cases rest <;> rfl

@[simp] theorem givenUp_retryBatch : (a.retryBatch rest final).givenUp = a.givenUp := by
  cases rest <;> rfl

theorem sendBatch_retried {outcome : SendOutcome} (h : outcome.retried = true) :
    a.sendBatch batch final outcome = (a.incrementFailed batch).retryBatch batch final := by
  cases outcome with
  | marshalError => cases h
  | requestError => cases h
  | transportError => rfl
  | status code => exact if_neg (of_decide_eq_true h)

/-- A batch that is not queued again is sent or given up. -/
theorem sendBatch_settled {outcome : SendOutcome} (h : outcome.retried = false) :
    ∃ b : Agent, a.sendBatch batch final outcome = b.afterSend final ∧ b.queue = a.queue ∧
      b.pushed = a.pushed ∧ (b.sent = a.sent ++ batch ∧ b.givenUp = a.givenUp ∨
        b.sent = a.sent ∧ b.givenUp = a.givenUp ++ batch) := by
  cases outcome with
  | marshalError => exact ⟨_, rfl, rfl, rfl, Or.inr ⟨rfl, rfl⟩⟩
  | requestError => exact ⟨_, rfl, rfl, rfl, Or.inr ⟨rfl, rfl⟩⟩
  | transportError => cases h
  | status code =>
      have hcode : code = 202 := by simpa [SendOutcome.retried] using h
      exact ⟨_, if_pos hcode, rfl, rfl, Or.inl ⟨rfl, rfl⟩⟩

end Agent

end MiniSiem
