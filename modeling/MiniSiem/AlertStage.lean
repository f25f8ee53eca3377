import MiniSiem.Lib.Ledger
import MiniSiem.Types

/-! # The alert worker and the batcher

The loops of `spawn_alert_worker` and `spawn_db_batcher` (`alerting/worker.rs`, `alerting/db_batcher.rs`)
between the channel of the alert worker, `db_tx` and `flush_batch`.

* **Fallback.**  The worker does not wait for `db_tx`: if `try_send` finds it full or closed, the alert is
  written to the database at once and does not reach `flush_batch`.
* **Batcher.**  The buffer is flushed when it holds `batch_size` alerts, at a tick, and at shutdown; what
  `db_tx` still holds at shutdown is not received.
* **Losses.**  `alerts_posts`: a step keeps a marked alert from `flush_batch` exactly when the worker or
  the batcher stops before its channel is empty, or the worker falls back.
* **Order.**  What is flushed and what is on its way are in the order of acceptance (`queue_of_run`). -/

namespace MiniSiem

inductive AlertWorkerPhase
  | receiving
  | handling (item : Bool × Alert)
  | finishing
  | ended

structure AlertStage where
  channel : List (Bool × Alert)
  worker : AlertWorkerPhase
  dbChannel : List (Bool × Alert)
  buffer : List (Bool × Alert)
  batcherEnded : Bool
  accepted : List (Bool × Alert)
  flushed : List (Bool × Alert)

inductive AlertEvent
  | send (alert : Alert)
  | receive
  | offer
  | finish
  | stopWorker
  | collect
  | tick
  | stopBatcher

namespace AlertStage

def channelCapacity : ℕ := 1000
def dbCapacity : ℕ := 1000
def batchSize : ℕ := 100

def start : AlertStage := ⟨[], .receiving, [], [], false, [], []⟩

section transitions

variable (signalled : Bool) (s : AlertStage)

/-- `try_send` succeeds. -/
def hasRoom : Bool := !s.batcherEnded && s.dbChannel.length < dbCapacity

/-- The buffer is handed to `flush_batch`. -/
def flush : AlertStage := { s with flushed := s.flushed ++ s.buffer, buffer := [] }

def step : AlertEvent → Option AlertStage
  | .send alert =>
      match s.worker with
      | .ended => none
      | _ =>
          if s.channel.length < channelCapacity then
            some { s with
              channel := s.channel ++ [(!signalled, alert)]
              accepted := s.accepted ++ [(!signalled, alert)] }
          else none
  | .receive =>
      match s.worker, s.channel with
      | .receiving, item :: channel => some { s with worker := .handling item, channel }
      | _, _ => none
  | .offer =>
      match s.worker with
      | .handling item =>
          some { s with
            worker := .finishing
            dbChannel := if s.hasRoom then s.dbChannel ++ [item] else s.dbChannel }
      | _ => none
  | .finish =>
      match s.worker with
      | .finishing => some { s with worker := .receiving }
      | _ => none
  | .stopWorker =>
      match s.worker with
      | .receiving => if signalled then some { s with worker := .ended, channel := [] } else none
      | _ => none
  | .collect =>
      match s.batcherEnded, s.dbChannel with
      | false, item :: dbChannel =>
          let s : AlertStage := { s with dbChannel, buffer := s.buffer ++ [item] }
          some (if batchSize ≤ s.buffer.length then s.flush else s)
      | _, _ => none
  | .tick => if s.batcherEnded then none else some s.flush
  | .stopBatcher =>
      if !s.batcherEnded && signalled then some { s.flush with batcherEnded := true, dbChannel := [] }
      else none

/-- The alert that the worker is about to offer. -/
def hand : List (Bool × Alert) :=
  match s.worker with
  | .handling item => [item]
  | _ => []

/-- Each task stops with an empty channel, and the worker does not fall back, as far as the marked alerts
are concerned. -/
def Drains : AlertEvent → Prop
  | .offer => ∀ item ∈ s.hand, s.hasRoom = false → item.1 = false
  | .stopWorker => ∀ item ∈ s.channel, item.1 = false
  | .stopBatcher => ∀ item ∈ s.dbChannel, item.1 = false
  | _ => True

/-- Both tasks have ended. -/
structure Ended : Prop where
  worker : s.worker = .ended
  batcher : s.batcherEnded = true

/-- Everything on its way. -/
def waiting : List (Bool × Alert) := s.channel ++ s.hand ++ s.dbChannel ++ s.buffer

end transitions

/-- The marked alerts on their way to `flush_batch`. -/
def ledger : Runs.Ledger AlertStage Alert where
  entered := fun s => Runs.marked s.accepted
  left := fun s => Runs.marked s.flushed
  pending := fun s => Runs.marked s.waiting

/-! ### Steps -/

variable {signalled : Bool} {s s' : AlertStage} {e : AlertEvent}

theorem marked_waiting (s : AlertStage) : Runs.marked s.waiting =
    Runs.marked s.channel + Runs.marked s.hand + Runs.marked s.dbChannel + Runs.marked s.buffer := by
  unfold waiting
  rw [Runs.marked_append, Runs.marked_append, Runs.marked_append]

theorem posts_of_lists (came went : List (Bool × Alert)) (lost : Multiset Alert)
    (hentered : s'.accepted = s.accepted ++ came) (hleft : s'.flushed = s.flushed ++ went)
    (hpending : Runs.marked s.channel + Runs.marked s.hand + Runs.marked s.dbChannel +
        Runs.marked s.buffer + Runs.marked came =
      Runs.marked s'.channel + Runs.marked s'.hand + Runs.marked s'.dbChannel +
        Runs.marked s'.buffer + Runs.marked went + lost) :
    ledger.Posts s s' lost := by
  refine Runs.Ledger.posts_of_lists Runs.marked_append hentered hleft ?_
  rw [marked_waiting, marked_waiting, hpending]

theorem posts_of_move (lost : Multiset Alert) (hentered : s'.accepted = s.accepted)
    (hleft : s'.flushed = s.flushed)
    (hpending : Runs.marked s.channel + Runs.marked s.hand + Runs.marked s.dbChannel +
        Runs.marked s.buffer =
      Runs.marked s'.channel + Runs.marked s'.hand + Runs.marked s'.dbChannel +
        Runs.marked s'.buffer + lost) :
    ledger.Posts s s' lost := by
  refine posts_of_lists [] [] lost (hentered.trans (List.append_nil _).symm)
    (hleft.trans (List.append_nil _).symm) ?_
  rw [Runs.marked_nil, add_zero, add_zero, hpending]

theorem posts_flush (s : AlertStage) : ledger.Posts s s.flush 0 := by
  refine posts_of_lists [] s.buffer 0 (List.append_nil _).symm rfl ?_
  show _ = Runs.marked s.channel + Runs.marked s.hand + Runs.marked s.dbChannel + 0 + _ + 0
  rw [Runs.marked_nil, add_zero, add_zero, add_zero]

theorem posts_send {item : Bool × Alert} (hhand : s'.hand = s.hand)
    (hdb : s'.dbChannel = s.dbChannel) (hbuffer : s'.buffer = s.buffer)
    (hchannel : s'.channel = s.channel ++ [item]) (haccepted : s'.accepted = s.accepted ++ [item])
    (hflushed : s'.flushed = s.flushed) : ledger.Posts s s' 0 := by
  refine posts_of_lists [item] [] 0 haccepted (hflushed.trans (List.append_nil _).symm) ?_
  rw [hchannel, hhand, hdb, hbuffer, Runs.marked_append, Runs.marked_nil, add_zero, add_zero]
  ac_rfl

/-- The batcher receives an alert. -/
theorem posts_collect {item : Bool × Alert} {rest : List (Bool × Alert)} (hdb : s.dbChannel = item :: rest) :
    ledger.Posts s { s with dbChannel := rest, buffer := s.buffer ++ [item] } 0 := by
  refine posts_of_move 0 rfl rfl ?_
  show _ = Runs.marked s.channel + Runs.marked s.hand + Runs.marked rest +
    Runs.marked (s.buffer ++ [item]) + 0
  rw [hdb, Runs.marked_cons, Runs.marked_append, add_zero]
  ac_rfl

/-- The worker offers an alert to the batcher. -/
theorem posts_offer {item : Bool × Alert} (hhand : s.hand = [item]) :
    ∃ lost, ledger.Posts s { s with
        worker := .finishing
        dbChannel := if s.hasRoom then s.dbChannel ++ [item] else s.dbChannel } lost ∧
      (lost = 0 ↔ s.Drains .offer) := by
  cases hroom : s.hasRoom with
  | true =>
      refine ⟨0, posts_of_move 0 rfl rfl ?_, iff_of_true rfl ?_⟩
      · show _ = Runs.marked s.channel + 0 + Runs.marked (s.dbChannel ++ [item]) +
          Runs.marked s.buffer + 0
        rw [hhand, Runs.marked_append, add_zero, add_zero]
        ac_rfl
      · intro x hx hfull
        rw [hroom] at hfull
        cases hfull
  | false =>
      refine ⟨Runs.marked [item], posts_of_move _ rfl rfl ?_, ?_⟩
      · show _ = Runs.marked s.channel + 0 + Runs.marked s.dbChannel + Runs.marked s.buffer + _
        rw [hhand, add_zero]
        ac_rfl
      · rw [Runs.marked_singleton_eq_zero]
        unfold Drains
        rw [hhand]
        constructor
        · intro hunmarked x hx _
          rwa [List.mem_singleton.mp hx]
        · exact fun hdrains => hdrains item List.mem_cons_self hroom

theorem alerts_posts (h : s.step signalled e = some s') :
    ∃ lost, ledger.Posts s s' lost ∧ (lost = 0 ↔ s.Drains e) := by
  obtain ⟨channel, worker, dbChannel, buffer, batcherEnded, accepted, flushed⟩ := s
  unfold step at h
  cases e with
  | send alert =>
      dsimp only at h
      split at h
      · cases h
      · split at h
        · obtain rfl := Option.some.inj h
          exact ⟨0, posts_send rfl rfl rfl rfl rfl rfl, iff_of_true rfl trivial⟩
        · cases h
  | receive =>
      dsimp only at h
      split at h
      · rename_i item channel
        obtain rfl := Option.some.inj h
        refine ⟨0, posts_of_move 0 rfl rfl ?_, iff_of_true rfl trivial⟩
        show Runs.marked (item :: channel) + 0 + _ + _ = Runs.marked channel + Runs.marked [item] + _ + _ + 0
        rw [Runs.marked_cons, add_zero, add_zero, add_comm (Runs.marked [item])]
      · cases h
  | offer =>
      dsimp only at h
      split at h
      · obtain rfl := Option.some.inj h
        exact posts_offer rfl
      · cases h
  | finish =>
      dsimp only at h
      split at h
      · obtain rfl := Option.some.inj h
        exact ⟨0, posts_of_move 0 rfl rfl (add_zero _).symm, iff_of_true rfl trivial⟩
      · cases h
  | stopWorker =>
      dsimp only at h
      split at h
      · split at h
        · obtain rfl := Option.some.inj h
          refine ⟨Runs.marked channel, posts_of_move _ rfl rfl ?_, Runs.marked_eq_zero⟩
          show Runs.marked channel + 0 + _ + _ = 0 + 0 + _ + _ + Runs.marked channel
          rw [add_zero, add_zero, zero_add]
          ac_rfl
        · cases h
      · cases h
  | collect =>
      dsimp only at h
      split at h
      · obtain rfl := Option.some.inj h
        split
        · exact ⟨0, (posts_collect rfl).trans (posts_flush _), iff_of_true rfl trivial⟩
        · exact ⟨0, posts_collect rfl, iff_of_true rfl trivial⟩
      · cases h
  | tick =>
      dsimp only at h
      split at h
      · cases h
      · obtain rfl := Option.some.inj h
        exact ⟨0, posts_flush _, iff_of_true rfl trivial⟩
  | stopBatcher =>
      dsimp only at h
      split at h
      · obtain rfl := Option.some.inj h
        refine ⟨0 + Runs.marked dbChannel, (posts_flush _).trans (posts_of_move _ rfl rfl ?_), ?_⟩
        · show _ + _ + Runs.marked dbChannel + 0 = _ + _ + 0 + 0 + Runs.marked dbChannel
          rw [add_zero, add_zero, add_zero]
          rfl
        · rw [zero_add]
          exact Runs.marked_eq_zero
      · cases h

/-- A channel is gone with its receiver, and the buffer with the batcher. -/
structure Emptied (s : AlertStage) : Prop where
  channel : s.worker = .ended → s.channel = []
  batcher : s.batcherEnded = true → s.dbChannel = [] ∧ s.buffer = []

theorem balanced_start : ledger.Balanced start := rfl

theorem emptied_start : start.Emptied := ⟨fun _ => rfl, fun _ => ⟨rfl, rfl⟩⟩

theorem emptied_of_step (hs : s.Emptied) (h : s.step signalled e = some s') : s'.Emptied := by
  obtain ⟨channel, worker, dbChannel, buffer, batcherEnded, accepted, flushed⟩ := s
  obtain ⟨hchannel, hbatcher⟩ := hs
  unfold step at h
  cases e with
  | send alert =>
      dsimp only at h
      split at h
      · cases h
      · rename_i hrunning
        split at h
        · obtain rfl := Option.some.inj h
          exact ⟨fun hended => absurd hended hrunning, hbatcher⟩
        · cases h
  | receive =>
      dsimp only at h
      split at h
      · obtain rfl := Option.some.inj h
        exact ⟨fun hended => (by cases hended), hbatcher⟩
      · cases h
  | offer =>
      dsimp only at h
      split at h
      · obtain rfl := Option.some.inj h
        refine ⟨fun hended => (by cases hended), fun hended => ?_⟩
        have hclosed : batcherEnded = true := hended
        subst hclosed
        exact hbatcher rfl
      · cases h
  | finish =>
      dsimp only at h
      split at h
      · obtain rfl := Option.some.inj h
        exact ⟨fun hended => (by cases hended), hbatcher⟩
      · cases h
  | stopWorker =>
      dsimp only at h
      split at h
      · split at h
        · obtain rfl := Option.some.inj h
          exact ⟨fun _ => rfl, hbatcher⟩
        · cases h
      · cases h
  | collect =>
      dsimp only at h
      split at h
      · obtain rfl := Option.some.inj h
        split
        · exact ⟨hchannel, fun hended => (by cases hended)⟩
        · exact ⟨hchannel, fun hended => (by cases hended)⟩
      · cases h
  | tick =>
      dsimp only at h
      split at h
      · cases h
      · rename_i hrunning
        obtain rfl := Option.some.inj h
        exact ⟨hchannel, fun hended => absurd hended hrunning⟩
  | stopBatcher =>
      dsimp only at h
      split at h
      · obtain rfl := Option.some.inj h
        exact ⟨hchannel, fun _ => ⟨rfl, rfl⟩⟩
      · cases h

theorem pending_of_ended (hs : s.Emptied) (h : s.Ended) : ledger.pending s = 0 := by
  have hhand : s.hand = [] := by
    unfold hand
    rw [h.worker]
  obtain ⟨hdb, hbuffer⟩ := hs.batcher h.batcher
  show Runs.marked s.waiting = 0
  rw [marked_waiting, hs.channel h.worker, hhand, hdb, hbuffer]
  rfl

/-! ### Order -/

/-- What is flushed, then what is on its way: in the buffer, in `db_tx`, with the worker, and in its channel. -/
def queue (s : AlertStage) : List (Bool × Alert) :=
  s.flushed ++ s.buffer ++ s.dbChannel ++ s.hand ++ s.channel

theorem queue_flush (s : AlertStage) : s.flush.queue = s.queue := by
  show (s.flushed ++ s.buffer) ++ [] ++ s.dbChannel ++ s.hand ++ s.channel = _
  rw [List.append_nil]
  rfl

/-- A step moves the queue along, takes alerts out of it, or puts one at its end. -/
theorem queue_of_step (h : s.step signalled e = some s') :
    ∃ came, s'.accepted = s.accepted ++ came ∧ s'.queue.Sublist (s.queue ++ came) := by
  have hsame : s'.accepted = s.accepted → s'.queue.Sublist s.queue →
      ∃ came, s'.accepted = s.accepted ++ came ∧ s'.queue.Sublist (s.queue ++ came) := fun haccepted hqueue =>
    ⟨[], haccepted.trans (List.append_nil _).symm, by rwa [List.append_nil]⟩
  obtain ⟨channel, worker, dbChannel, buffer, batcherEnded, accepted, flushed⟩ := s
  unfold step at h
  cases e with
  | send alert =>
      dsimp only at h
      split at h
      · cases h
      · split at h
        · obtain rfl := Option.some.inj h
          refine ⟨[(!signalled, alert)], rfl, ?_⟩
          simp [queue, hand]
        · cases h
  | receive =>
      dsimp only at h
      split at h
      · obtain rfl := Option.some.inj h
        refine hsame rfl ?_
        simp [queue, hand]
      · cases h
  | offer =>
      dsimp only at h
      split at h
      · obtain rfl := Option.some.inj h
        refine hsame rfl ?_
        dsimp only [queue, hand]
        split <;> simp
      · cases h
  | finish =>
      dsimp only at h
      split at h
      · obtain rfl := Option.some.inj h
        exact hsame rfl (List.Sublist.refl _)
      · cases h
  | stopWorker =>
      dsimp only at h
      split at h
      · split at h
        · obtain rfl := Option.some.inj h
          refine hsame rfl ?_
          simp [queue, hand]
        · cases h
      · cases h
  | collect =>
      dsimp only at h
      split at h
      · obtain rfl := Option.some.inj h
        refine hsame (by split <;> rfl) ?_
        split
        · rw [queue_flush]
          simp [queue, hand]
        · simp [queue, hand]
      · cases h
  | tick =>
      dsimp only at h
      split at h
      · cases h
      · obtain rfl := Option.some.inj h
        exact hsame rfl (by rw [queue_flush])
  | stopBatcher =>
      dsimp only at h
      split at h
      · obtain rfl := Option.some.inj h
        refine hsame rfl ?_
        simp [queue, hand, flush]
      · cases h

/-- **The stage keeps the order**: the queue is a part of what the worker's channel has accepted, in its order. -/
theorem queue_of_run {es : List AlertEvent} (h : Runs.run (step signalled) es start = some s) :
    s.queue.Sublist s.accepted := by
  refine Runs.run_invariant (J := fun s => s.queue.Sublist s.accepted) (fun s e s' hs hstep => ?_)
    (List.Sublist.refl _) h
  obtain ⟨came, haccepted, hqueue⟩ := queue_of_step hstep
  rw [haccepted]
  exact hqueue.trans (hs.append_right came)

end AlertStage

end MiniSiem
