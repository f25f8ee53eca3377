import MiniSiem.Json
import MiniSiem.Lib.Ledger
import MiniSiem.Types

/-! # The Elasticsearch indexer

The task `elasticsearch_indexer` of `main.rs`, with `ElasticClient::bulk_index`.

* **States.**  A phase is a point at which the task waits for the outside.  What it has received, had
  indexed and published to the dead-letter topic is kept beside it.
* **Events.**  What the channel, the client, Elasticsearch, Kafka and the shutdown signal give at that
  point.  The registry of tasks may also abort the task at each of them, once its grace period is over.
* **Times.**  The waits of the task have no durations here: a timeout is an event.
* **Accounts.**  `indexer_accounts_iff`: when the task has ended each log it had received was indexed or
  published exactly when every batch of the drain was indexed and the task was not aborted with logs in
  its hands. -/

namespace MiniSiem

/-! ### `bulk_index` -/

/-- What becomes of a request to the Bulk API. -/
inductive BulkReply
  | unserialisable
  | unreachable
  | response (success : Bool) (body : Option Json)

/-- The response reports errors. -/
def bulkErrors (body : Option Json) : Bool :=
  match (body.getD .null).get "errors" with
  | some (.bool b) => b
  | _ => false

/-- `bulk_index` returns `Ok`. -/
def bulkIndex (logs : List Log) : BulkReply → Bool
  | .unserialisable | .unreachable => logs.isEmpty
  | .response success body => logs.isEmpty || (success && !bulkErrors body)

/-! ### The task -/

namespace LogIndexer

def batchSize : ℕ := 500
def maxRetries : ℕ := 3

/-- Where the task waits. -/
inductive Phase
  | first
  | filling
  | borrowing (again : Bool)
  | waiting
  | indexing (attempt : ℕ)
  | publishing (rest : List Log) (unavailable : Bool)
  | checking
  | draining
  | flushing (last : Bool)
  | ended

end LogIndexer

structure LogIndexer where
  phase : LogIndexer.Phase
  buffer : List Log
  received : List Log
  indexed : List Log
  published : List Log

namespace LogIndexer

inductive Event
  | received (log : Log)
  | closed
  | timedOut
  | client (present : Bool)
  | changed (ok : Bool)
  | bulk (reply : BulkReply)
  | dlq (ok : Bool)
  | shutdown (signalled : Bool)
  | empty
  | flush (present : Bool) (reply : BulkReply)
  | aborted

def start : LogIndexer := ⟨.first, [], [], [], []⟩

section transitions

variable (s : LogIndexer)

def push (log : Log) : LogIndexer :=
  { s with buffer := s.buffer ++ [log], received := s.received ++ [log] }

/-- After the batch has been collected. -/
def collected : LogIndexer :=
  { s with phase := if s.buffer.isEmpty then .first else .borrowing false }

def fill : LogIndexer :=
  if batchSize ≤ s.buffer.length then s.collected else { s with phase := .filling }

/-- Publish the rest of the batch to the dead-letter topic.  Without a client the task then goes on with
the next batch and does not look for the signal. -/
def publish (unavailable : Bool) : List Log → LogIndexer
  | [] => { s with buffer := [], phase := if unavailable then .first else .checking }
  | log :: rest => { s with phase := .publishing (log :: rest) unavailable }

/-- A batch of the drain; the result of `bulk_index` is not looked at. -/
def drained (last present : Bool) (reply : BulkReply) : LogIndexer :=
  { s with
    indexed := if present && bulkIndex s.buffer reply then s.indexed ++ s.buffer else s.indexed
    buffer := []
    phase := if last then .ended else .draining }

def step (e : Event) : Option LogIndexer :=
  match s.phase, e with
  | .first, .received log => some (s.push log).fill
  | .first, .closed => some { s with phase := .ended }
  | .filling, .received log => some (s.push log).fill
  | .filling, .closed => some s.collected
  | .filling, .timedOut => some s.collected
  | .borrowing _, .client true => some { s with phase := .indexing 0 }
  | .borrowing false, .client false => some { s with phase := .waiting }
  | .borrowing true, .client false => some (s.publish true s.buffer)
  | .waiting, .changed true => some { s with phase := .borrowing true }
  | .waiting, .changed false => some (s.publish true s.buffer)
  | .indexing attempt, .bulk reply =>
      if bulkIndex s.buffer reply then
        some { s with indexed := s.indexed ++ s.buffer, buffer := [], phase := .checking }
      else if maxRetries < attempt + 1 then some (s.publish false s.buffer)
      else some { s with phase := .indexing (attempt + 1) }
  | .publishing (log :: rest) unavailable, .dlq _ =>
      some ({ s with published := s.published ++ [log] }.publish unavailable rest)
  | .checking, .shutdown signalled =>
      some { s with phase := if signalled then .draining else .first }
  | .draining, .received log =>
      some { s.push log with
        phase := if batchSize ≤ (s.push log).buffer.length then .flushing false else .draining }
  | .draining, .empty => some { s with phase := if s.buffer.isEmpty then .ended else .flushing true }
  | .flushing last, .flush present reply => some (s.drained last present reply)
  | .ended, .aborted => none
  | _, .aborted => some { s with phase := .ended }
  | _, _ => none

end transitions

/-! ### The accounts of a run -/

/-- The logs in the hands of the task. -/
def pending (s : LogIndexer) : List Log :=
  match s.phase with
  | .publishing rest _ => rest
  | .ended => []
  | _ => s.buffer

def ledger : Runs.Ledger LogIndexer Log where
  entered := fun s => s.received
  left := fun s => s.indexed + s.published
  pending := fun s => s.pending

/-- Each log received was part of a batch that was indexed, or was published. -/
def Accounted (s : LogIndexer) : Prop := (s.received : Multiset Log) ≤ s.indexed + s.published

/-- A batch of the drain is indexed, and the task is aborted only with empty hands. -/
def KeepsLogs (s : LogIndexer) (e : Event) : Prop :=
  match s.phase, e with
  | .flushing _, .flush present reply => (present && bulkIndex s.buffer reply) = true
  | _, .aborted => s.pending = []
  | _, _ => True

/-- The buffer is empty where the task has no batch, and not empty where it flushes one. -/
def Tidy (s : LogIndexer) : Prop :=
  match s.phase with
  | .first | .checking => s.buffer = []
  | .flushing _ => s.buffer ≠ []
  | _ => True

/-! ### Steps -/

theorem pending_collected (s : LogIndexer) : s.collected.pending = s.buffer := by
  unfold collected
  cases hbuffer : s.buffer with
  | nil => rfl
  | cons log rest => rfl

theorem pending_fill (s : LogIndexer) : s.fill.pending = s.buffer := by
  unfold fill
  split
  · exact s.pending_collected
  · rfl

theorem pending_publish (s : LogIndexer) (unavailable : Bool) (rest : List Log) :
    (s.publish unavailable rest).pending = rest := by
  cases rest with
  | nil => cases unavailable <;> rfl
  | cons log rest => rfl

theorem entered_fill (s : LogIndexer) : s.fill.received = s.received ∧
    s.fill.indexed = s.indexed ∧ s.fill.published = s.published := by
  unfold fill collected
  split <;> exact ⟨rfl, rfl, rfl⟩

theorem left_publish (s : LogIndexer) (unavailable : Bool) (rest : List Log) :
    (s.publish unavailable rest).received = s.received ∧
      (s.publish unavailable rest).indexed = s.indexed ∧
      (s.publish unavailable rest).published = s.published := by
  cases rest <;> exact ⟨rfl, rfl, rfl⟩

variable {s s' : LogIndexer} {e : Event}

/-- A step that only moves the task. -/
theorem posts_move (hentered : s'.received = s.received) (hindexed : s'.indexed = s.indexed)
    (hpublished : s'.published = s.published) (hpending : s'.pending = s.pending) :
    ledger.Posts s s' 0 := by
  refine Runs.Ledger.posts_of_same ?_ ?_ ?_
  · exact congrArg Multiset.ofList hentered
  · show (s'.indexed : Multiset Log) + s'.published = s.indexed + s.published
    rw [hindexed, hpublished]
  · show (s.pending : Multiset Log) = s'.pending + 0
    rw [hpending, add_zero]

/-- A log enters. -/
theorem posts_push {log : Log} (hentered : s'.received = s.received ++ [log])
    (hindexed : s'.indexed = s.indexed) (hpublished : s'.published = s.published)
    (hpending : s'.pending = s.pending ++ [log]) : ledger.Posts s s' 0 := by
  refine ⟨[log], 0, ?_, ?_, ?_⟩
  · show (s'.received : Multiset Log) = s.received + [log]
    rw [hentered, Multiset.coe_add]
  · show (s'.indexed : Multiset Log) + s'.published = s.indexed + s.published + 0
    rw [hindexed, hpublished, add_zero]
  · show (s.pending : Multiset Log) + [log] = s'.pending + 0 + 0
    rw [hpending, add_zero, add_zero, Multiset.coe_add]

/-- A batch is indexed. -/
theorem posts_index (hentered : s'.received = s.received)
    (hindexed : s'.indexed = s.indexed ++ s.pending) (hpublished : s'.published = s.published)
    (hpending : s'.pending = []) : ledger.Posts s s' 0 := by
  refine ⟨0, s.pending, ?_, ?_, ?_⟩
  · show (s'.received : Multiset Log) = s.received + 0
    rw [hentered, add_zero]
  · show (s'.indexed : Multiset Log) + s'.published = s.indexed + s.published + s.pending
    rw [hindexed, hpublished, ← Multiset.coe_add]
    ac_rfl
  · show (s.pending : Multiset Log) + 0 = s'.pending + s.pending + 0
    rw [hpending, add_zero, add_zero, Multiset.coe_nil, zero_add]

/-- The logs in the hands of the task are lost. -/
theorem posts_lose (hentered : s'.received = s.received) (hindexed : s'.indexed = s.indexed)
    (hpublished : s'.published = s.published) (hpending : s'.pending = []) :
    ledger.Posts s s' s.pending := by
  refine Runs.Ledger.posts_of_same ?_ ?_ ?_
  · exact congrArg Multiset.ofList hentered
  · show (s'.indexed : Multiset Log) + s'.published = s.indexed + s.published
    rw [hindexed, hpublished]
  · show (s.pending : Multiset Log) = s'.pending + s.pending
    rw [hpending, Multiset.coe_nil, zero_add]

theorem posts_fill (log : Log) (hpending : s.pending = s.buffer) :
    ledger.Posts s (s.push log).fill 0 := by
  obtain ⟨hentered, hindexed, hpublished⟩ := entered_fill (s.push log)
  refine posts_push hentered hindexed hpublished ?_
  rw [pending_fill, hpending]
  rfl

theorem posts_publish {rest : List Log} (unavailable : Bool) (hpending : s.pending = rest) :
    ledger.Posts s (s.publish unavailable rest) 0 := by
  obtain ⟨hentered, hindexed, hpublished⟩ := left_publish s unavailable rest
  exact posts_move hentered hindexed hpublished ((pending_publish s unavailable rest).trans hpending.symm)

/-- A log of the batch is published. -/
theorem posts_dlq {log : Log} {rest : List Log} (unavailable : Bool)
    (hpending : s.pending = log :: rest) :
    ledger.Posts s ({ s with published := s.published ++ [log] }.publish unavailable rest) 0 := by
  obtain ⟨hentered, hindexed, hpublished⟩ :=
    left_publish { s with published := s.published ++ [log] } unavailable rest
  refine ⟨0, [log], ?_, ?_, ?_⟩
  · show (LogIndexer.received _ : Multiset Log) = s.received + 0
    rw [hentered, add_zero]
  · show (LogIndexer.indexed _ : Multiset Log) + LogIndexer.published _ =
      s.indexed + s.published + [log]
    rw [hindexed, hpublished, ← Multiset.coe_add, add_assoc]
  · show (s.pending : Multiset Log) + 0 = LogIndexer.pending _ + [log] + 0
    rw [hpending, pending_publish, add_zero, add_zero, Multiset.coe_add]
    exact Multiset.coe_eq_coe.mpr (List.perm_append_singleton log rest).symm

theorem keeps_of_posts (h : ledger.Posts s s' 0) (hok : KeepsLogs s e) :
    ∃ lost, ledger.Posts s s' lost ∧ (lost = 0 ↔ KeepsLogs s e) :=
  ⟨0, h, iff_of_true rfl hok⟩

theorem posts_of_abort (s : LogIndexer) :
    ∃ lost, ledger.Posts s { s with phase := .ended } lost ∧ (lost = 0 ↔ KeepsLogs s .aborted) := by
  refine ⟨s.pending, posts_lose rfl rfl rfl rfl, ?_⟩
  rw [Multiset.coe_eq_zero]
  unfold KeepsLogs
  split
  · rename_i heq
    cases heq
  · exact Iff.rfl
  · rename_i hother _
    exact absurd rfl hother

theorem posts_of_flush {last : Bool} (hphase : s.phase = .flushing last) (hbuffer : s.buffer ≠ [])
    (present : Bool) (reply : BulkReply) :
    ∃ lost, ledger.Posts s (s.drained last present reply) lost ∧
      (lost = 0 ↔ (present && bulkIndex s.buffer reply) = true) := by
  have hpending : s.pending = s.buffer := by
    unfold pending
    rw [hphase]
  have hempty : (s.drained last present reply).pending = [] := by
    unfold drained
    cases last <;> rfl
  by_cases hindexed : (present && bulkIndex s.buffer reply) = true
  · refine ⟨0, posts_index rfl ?_ rfl hempty, iff_of_true rfl hindexed⟩
    rw [hpending]
    exact if_pos hindexed
  · refine ⟨s.pending, posts_lose rfl (if_neg hindexed) rfl hempty, iff_of_false ?_ hindexed⟩
    rw [hpending, Multiset.coe_eq_zero]
    exact hbuffer

/-- A step loses nothing, except a batch of the drain that is not indexed and what an aborted task has
in its hands. -/
theorem posts_of_step (htidy : s.Tidy) (h : s.step e = some s') :
    ∃ lost, ledger.Posts s s' lost ∧ (lost = 0 ↔ KeepsLogs s e) := by
  obtain ⟨phase, buffer, received, indexed, published⟩ := s
  unfold step at h
  dsimp only at h
  split at h
  · obtain rfl := Option.some.inj h
    exact keeps_of_posts (posts_fill _ rfl) trivial
  · obtain rfl := Option.some.inj h
    exact keeps_of_posts (posts_move rfl rfl rfl (Eq.symm htidy)) trivial
  · obtain rfl := Option.some.inj h
    exact keeps_of_posts (posts_fill _ rfl) trivial
  · obtain rfl := Option.some.inj h
    exact keeps_of_posts (posts_move rfl rfl rfl (pending_collected _)) trivial
  · obtain rfl := Option.some.inj h
    exact keeps_of_posts (posts_move rfl rfl rfl (pending_collected _)) trivial
  · obtain rfl := Option.some.inj h
    exact keeps_of_posts (posts_move rfl rfl rfl rfl) trivial
  · obtain rfl := Option.some.inj h
    exact keeps_of_posts (posts_move rfl rfl rfl rfl) trivial
  · obtain rfl := Option.some.inj h
    exact keeps_of_posts (posts_publish true rfl) trivial
  · obtain rfl := Option.some.inj h
    exact keeps_of_posts (posts_move rfl rfl rfl rfl) trivial
  · obtain rfl := Option.some.inj h
    exact keeps_of_posts (posts_publish true rfl) trivial
  · -- the reply to a bulk request
    split_ifs at h
    · obtain rfl := Option.some.inj h
      exact keeps_of_posts (posts_index rfl rfl rfl rfl) trivial
    · obtain rfl := Option.some.inj h
      exact keeps_of_posts (posts_publish false rfl) trivial
    · obtain rfl := Option.some.inj h
      exact keeps_of_posts (posts_move rfl rfl rfl rfl) trivial
  · obtain rfl := Option.some.inj h
    exact keeps_of_posts (posts_dlq _ rfl) trivial
  · rename_i signalled
    obtain rfl := Option.some.inj h
    refine keeps_of_posts (posts_move rfl rfl rfl ?_) trivial
    cases signalled <;> rfl
  · obtain rfl := Option.some.inj h
    refine keeps_of_posts (posts_push rfl rfl rfl ?_) trivial
    unfold pending
    dsimp only
    split_ifs <;> rfl
  · -- the channel of the drain is empty
    obtain rfl := Option.some.inj h
    refine keeps_of_posts (posts_move rfl rfl rfl ?_) trivial
    cases buffer <;> rfl
  · obtain rfl := Option.some.inj h
    exact posts_of_flush rfl htidy _ _
  · cases h
  · obtain rfl := Option.some.inj h
    exact posts_of_abort _
  · cases h

theorem tidy_collected (s : LogIndexer) : s.collected.Tidy := by
  unfold collected
  cases hbuffer : s.buffer with
  | nil => rfl
  | cons log rest => trivial

theorem tidy_fill (s : LogIndexer) : s.fill.Tidy := by
  unfold fill
  split
  · exact s.tidy_collected
  · trivial

theorem tidy_publish (s : LogIndexer) (unavailable : Bool) (rest : List Log) :
    (s.publish unavailable rest).Tidy := by
  cases rest with
  | nil => cases unavailable <;> rfl
  | cons log rest => trivial

theorem tidy_start : start.Tidy := rfl

theorem tidy_of_step (htidy : s.Tidy) (h : s.step e = some s') : s'.Tidy := by
  obtain ⟨phase, buffer, received, indexed, published⟩ := s
  unfold step at h
  dsimp only at h
  split at h
  · obtain rfl := Option.some.inj h
    exact tidy_fill _
  · obtain rfl := Option.some.inj h
    trivial
  · obtain rfl := Option.some.inj h
    exact tidy_fill _
  · obtain rfl := Option.some.inj h
    exact tidy_collected _
  · obtain rfl := Option.some.inj h
    exact tidy_collected _
  · obtain rfl := Option.some.inj h
    trivial
  · obtain rfl := Option.some.inj h
    trivial
  · obtain rfl := Option.some.inj h
    exact tidy_publish _ _ _
  · obtain rfl := Option.some.inj h
    trivial
  · obtain rfl := Option.some.inj h
    exact tidy_publish _ _ _
  · split_ifs at h
    · obtain rfl := Option.some.inj h
      rfl
    · obtain rfl := Option.some.inj h
      exact tidy_publish _ _ _
    · obtain rfl := Option.some.inj h
      trivial
  · obtain rfl := Option.some.inj h
    exact tidy_publish _ _ _
  · rename_i signalled
    obtain rfl := Option.some.inj h
    cases signalled with
    | false => exact htidy
    | true => trivial
  · obtain rfl := Option.some.inj h
    unfold Tidy push
    dsimp only
    split_ifs
    · exact List.append_ne_nil_of_right_ne_nil _ (List.cons_ne_nil _ _)
    · trivial
  · obtain rfl := Option.some.inj h
    cases buffer with
    | nil => trivial
    | cons log rest => exact List.cons_ne_nil _ _
  · rename_i last present reply
    obtain rfl := Option.some.inj h
    unfold Tidy drained
    cases last <;> trivial
  · cases h
  · obtain rfl := Option.some.inj h
    trivial
  · cases h

/-! ### Runs -/

/-- **No log is lost silently by the indexer.**  Whatever the channel, the client, Elasticsearch, Kafka
and the signal give, when the task has ended each log that it had received was indexed or published
exactly when every batch of the drain was indexed and the task was not aborted with logs in its hands. -/
theorem indexer_accounts_iff {events : List Event} (h : Runs.run step events start = some s)
    (hended : s.phase = .ended) : s.Accounted ↔ Runs.Meets step KeepsLogs events start := by
  have hsound : ledger.Sound s := Runs.Ledger.sound_of_run (J := Tidy)
    (fun _ _ _ htidy => tidy_of_step htidy)
    (fun _ _ _ htidy he => (posts_of_step htidy he).imp fun _ hlost => hlost.1)
    tidy_start le_rfl h
  have hpending : ledger.pending s = 0 := by
    show ((s.pending : List Log) : Multiset Log) = 0
    unfold pending
    rw [hended]
    rfl
  calc s.Accounted ↔ ledger.Balanced s := Runs.Ledger.covered_iff_balanced hsound hpending
    _ ↔ Runs.Meets step KeepsLogs events start := Runs.Ledger.balanced_iff_meets
        (fun _ _ _ htidy => tidy_of_step htidy) (fun _ _ _ => posts_of_step) tidy_start rfl h

/-! ### A drain -/

def firstLog : Log where
  id := "5c7f3a0e-9d0b-4a57-8a0f-3b1f8f0f6a01"
  tenantId := "acme"
  timestamp := .ofSeconds 1767225600
  eventType := "connection"
  sourceIp := "10.0.0.7"
  targetUser := none
  service := none
  message := "port 22"
  severity := .medium
  metadata := .null
  receivedAt := .ofSeconds 1767225600

def secondLog : Log := { firstLog with id := "5c7f3a0e-9d0b-4a57-8a0f-3b1f8f0f6a02" }

/-- One log is indexed, and after the signal another one is drained. -/
def drainOf (reply : BulkReply) : List Event :=
  [.received firstLog, .timedOut, .client true, .bulk (.response true none), .shutdown true,
    .received secondLog, .empty, .flush true reply]

def drainedState (indexed : List Log) : LogIndexer :=
  ⟨.ended, [], [firstLog, secondLog], indexed, []⟩

theorem indexedDrain_accounts : (drainedState [firstLog, secondLog]).Accounted :=
  (@indexer_accounts_iff _ (drainOf (.response true none)) rfl rfl).mpr
    ⟨trivial, trivial, trivial, trivial, trivial, trivial, trivial, rfl, trivial⟩

/-- Elasticsearch refuses the batch of the drain. -/
theorem refusedDrain_not_accounted :
    ∃ s, Runs.run step (drainOf (.response false none)) start = some s ∧ s.phase = .ended ∧
      ¬ s.Accounted := by
  refine ⟨drainedState [firstLog], rfl, rfl, fun haccounted => ?_⟩
  exact absurd (Multiset.card_le_card haccounted) (by decide)

end LogIndexer

end MiniSiem
