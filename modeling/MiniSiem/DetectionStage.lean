import MiniSiem.Lib.Ledger
import MiniSiem.Types

/-! # The detection dispatcher and its workers

The tasks `detection_dispatch` and `detection_worker` of `main.rs`.  The dispatcher takes logs from the
detection channel and sends each to the mailbox of a worker, which hands it to `process_log`.

* **Channels.**  A bounded channel takes an item while it has room and its receiver is there; what it
  holds is gone with its receiver.  A send to a full mailbox waits, a send to a mailbox without receiver
  fails.
* **Shutdown.**  A task that waits for its channel may take the shutdown branch as soon as the signal is
  there, whatever the channel holds.
* **Marks.**  A log is marked if the detection channel accepted it before the signal.
* **Losses.**  `logs_posts`: a step loses marked logs exactly when the dispatcher or a worker stops before
  its channel is empty, or a log is sent to a worker that has stopped. -/

namespace MiniSiem

/-- `detection_partition_index`; `FxHasher` is a parameter. -/
def detectionPartitionIndex (fxHash : List String → UInt64) (log : Log) (workerCount : ℕ)
    (partitionKey : String) : ℕ :=
  if workerCount = 0 then 0
  else
    let hashed := match partitionKey with
      | "tenant" => fxHash [log.tenantId]
      | "source_ip" => fxHash [log.sourceIp]
      | _ => fxHash [log.tenantId, log.sourceIp]
    hashed.toNat % workerCount

theorem detectionPartitionIndex_lt (fxHash : List String → UInt64) (log : Log) {workerCount : ℕ}
    (h : 0 < workerCount) (partitionKey : String) :
    detectionPartitionIndex fxHash log workerCount partitionKey < workerCount := by
  unfold detectionPartitionIndex
  rw [if_neg h.ne']
  exact Nat.mod_lt _ h

/-- `detection_workers.max(1)` is `extraWorkers + 1`. -/
structure DetectionSettings where
  fxHash : List String → UInt64
  partitionKey : String
  extraWorkers : ℕ
  mailboxSize : ℕ

namespace DetectionSettings

def workers (c : DetectionSettings) : ℕ := c.extraWorkers + 1

/-- The worker of a log. -/
def workerOf (c : DetectionSettings) (log : Log) : ℕ :=
  detectionPartitionIndex c.fxHash log c.workers c.partitionKey

theorem workerOf_lt (c : DetectionSettings) (log : Log) : c.workerOf log < c.workers :=
  detectionPartitionIndex_lt _ _ (Nat.succ_pos _) _

end DetectionSettings

inductive DispatcherPhase
  | receiving
  | sending (item : Bool × Log)
  | ended

inductive WorkerPhase
  | receiving
  | processing
  | ended
deriving DecidableEq

structure DetectionStage where
  channel : List (Bool × Log)
  dispatcher : DispatcherPhase
  mailbox : ℕ → List (Bool × Log)
  worker : ℕ → WorkerPhase
  accepted : List (Bool × Log)
  processed : List (Bool × Log)

inductive DetectionEvent
  | send (log : Log)
  | dispatch
  | mail
  | stopDispatcher
  | work (i : ℕ)
  | processed (i : ℕ)
  | stopWorker (i : ℕ)

namespace DetectionStage

def channelCapacity : ℕ := 10000

def start : DetectionStage := ⟨[], .receiving, fun _ => [], fun _ => .receiving, [], []⟩

section transitions

variable (c : DetectionSettings) (signalled : Bool) (s : DetectionStage)

/-- The dispatcher sends a log to its worker. -/
def deliver (item : Bool × Log) : Option DetectionStage :=
  let i := c.workerOf item.2
  if s.worker i = .ended then some { s with dispatcher := .receiving }
  else if (s.mailbox i).length < c.mailboxSize then
    some { s with
      dispatcher := .receiving
      mailbox := Function.update s.mailbox i (s.mailbox i ++ [item]) }
  else none

def step : DetectionEvent → Option DetectionStage
  | .send log =>
      match s.dispatcher with
      | .ended => none
      | _ =>
          if s.channel.length < channelCapacity then
            some { s with
              channel := s.channel ++ [(!signalled, log)]
              accepted := s.accepted ++ [(!signalled, log)] }
          else none
  | .dispatch =>
      match s.dispatcher, s.channel with
      | .receiving, item :: channel => some { s with dispatcher := .sending item, channel }
      | _, _ => none
  | .mail =>
      match s.dispatcher with
      | .sending item => s.deliver c item
      | _ => none
  | .stopDispatcher =>
      match s.dispatcher with
      | .receiving => if signalled then some { s with dispatcher := .ended, channel := [] } else none
      | _ => none
  | .work i =>
      match s.worker i, s.mailbox i with
      | .receiving, item :: rest =>
          if i < c.workers then
            some { s with
              worker := Function.update s.worker i .processing
              mailbox := Function.update s.mailbox i rest
              processed := s.processed ++ [item] }
          else none
      | _, _ => none
  | .processed i =>
      match s.worker i with
      | .processing => some { s with worker := Function.update s.worker i .receiving }
      | _ => none
  | .stopWorker i =>
      match s.worker i with
      | .receiving =>
          if signalled && i < c.workers then
            some { s with
              worker := Function.update s.worker i .ended
              mailbox := Function.update s.mailbox i [] }
          else none
      | _ => none

/-- The log that the dispatcher is about to send. -/
def hand : List (Bool × Log) :=
  match s.dispatcher with
  | .sending item => [item]
  | _ => []

/-- Each task stops with an empty channel, and logs are sent only to workers that run, as far as the
marked logs are concerned. -/
def Drains : DetectionEvent → Prop
  | .mail => ∀ item ∈ s.hand, s.worker (c.workerOf item.2) = .ended → item.1 = false
  | .stopDispatcher => ∀ item ∈ s.channel, item.1 = false
  | .stopWorker i => ∀ item ∈ s.mailbox i, item.1 = false
  | _ => True

/-- All tasks have ended. -/
structure Ended : Prop where
  dispatcher : s.dispatcher = .ended
  worker : ∀ i < c.workers, s.worker i = .ended

/-- The marked logs in the mailboxes. -/
def mailed : Multiset Log := ∑ i ∈ Finset.range c.workers, Runs.marked (s.mailbox i)

end transitions

/-- The marked logs on their way to `process_log`. -/
def ledger (c : DetectionSettings) : Runs.Ledger DetectionStage Log where
  entered := fun s => Runs.marked s.accepted
  left := fun s => Runs.marked s.processed
  pending := fun s => Runs.marked s.channel + Runs.marked s.hand + s.mailed c

/-! ### Steps -/

variable {c : DetectionSettings} {signalled : Bool} {s s' : DetectionStage} {e : DetectionEvent}

/-- Only one mailbox changes. -/
theorem mailed_update {i : ℕ} (hi : i < c.workers) {items : List (Bool × Log)}
    (h : s'.mailbox = Function.update s.mailbox i items) :
    s'.mailed c + Runs.marked (s.mailbox i) = s.mailed c + Runs.marked items := by
  have hmem : i ∈ Finset.range c.workers := Finset.mem_range.mpr hi
  have hothers : ∑ j ∈ (Finset.range c.workers).erase i, Runs.marked (s'.mailbox j) =
      ∑ j ∈ (Finset.range c.workers).erase i, Runs.marked (s.mailbox j) := by
    refine Finset.sum_congr rfl fun j hj => ?_
    rw [h, Function.update_of_ne (Finset.ne_of_mem_erase hj)]
  unfold mailed
  rw [← Finset.add_sum_erase _ _ hmem, hothers, ← Finset.add_sum_erase _ (fun j => Runs.marked (s.mailbox j)) hmem,
    h, Function.update_self]
  ac_rfl

theorem posts_of_lists (came went : List (Bool × Log)) (lost : Multiset Log)
    (hentered : s'.accepted = s.accepted ++ came) (hleft : s'.processed = s.processed ++ went)
    (hpending : Runs.marked s.channel + Runs.marked s.hand + s.mailed c + Runs.marked came =
      Runs.marked s'.channel + Runs.marked s'.hand + s'.mailed c + Runs.marked went + lost) :
    (ledger c).Posts s s' lost :=
  Runs.Ledger.posts_of_lists Runs.marked_append hentered hleft hpending

/-- A step of the tasks that hands nothing to `process_log`. -/
theorem posts_of_move (lost : Multiset Log) (hentered : s'.accepted = s.accepted)
    (hleft : s'.processed = s.processed)
    (hpending : Runs.marked s.channel + Runs.marked s.hand + s.mailed c =
      Runs.marked s'.channel + Runs.marked s'.hand + s'.mailed c + lost) :
    (ledger c).Posts s s' lost := by
  refine posts_of_lists [] [] lost (hentered.trans (List.append_nil _).symm)
    (hleft.trans (List.append_nil _).symm) ?_
  rw [Runs.marked_nil, add_zero, add_zero, hpending]

theorem posts_send {item : Bool × Log} (hdispatcher : s'.hand = s.hand)
    (hmailbox : s'.mailed c = s.mailed c) (hchannel : s'.channel = s.channel ++ [item])
    (haccepted : s'.accepted = s.accepted ++ [item]) (hprocessed : s'.processed = s.processed) :
    (ledger c).Posts s s' 0 := by
  refine posts_of_lists [item] [] 0 haccepted (hprocessed.trans (List.append_nil _).symm) ?_
  rw [hchannel, hdispatcher, hmailbox, Runs.marked_append, Runs.marked_nil, add_zero, add_zero]
  ac_rfl

theorem posts_deliver {item : Bool × Log} (hhand : s.hand = [item]) (h : s.deliver c item = some s') :
    ∃ lost, (ledger c).Posts s s' lost ∧ (lost = 0 ↔ s.Drains c .mail) := by
  unfold deliver at h
  dsimp only at h
  split_ifs at h with hended hroom
  · -- the send fails and the log is dropped
    obtain rfl := Option.some.inj h
    refine ⟨Runs.marked [item], posts_of_move _ rfl rfl ?_, ?_⟩
    · rw [hhand]
      show Runs.marked s.channel + _ + s.mailed c = Runs.marked s.channel + 0 + s.mailed c + _
      rw [add_zero]
      ac_rfl
    · rw [Runs.marked_singleton_eq_zero]
      unfold Drains
      rw [hhand]
      constructor
      · intro hunmarked x hx _
        rwa [List.mem_singleton.mp hx]
      · exact fun hdrains => hdrains item List.mem_cons_self hended
  · obtain rfl := Option.some.inj h
    refine ⟨0, posts_of_move 0 rfl rfl ?_, iff_of_true rfl ?_⟩
    · have hmailed := @mailed_update c s
        { s with
          dispatcher := .receiving
          mailbox := Function.update s.mailbox (c.workerOf item.2)
            (s.mailbox (c.workerOf item.2) ++ [item]) } _ (c.workerOf_lt item.2) _ rfl
      rw [Runs.marked_append, ← add_assoc, add_right_comm] at hmailed
      rw [hhand, add_zero, add_assoc, add_comm (Runs.marked [item]), ← add_right_cancel hmailed]
      show _ = Runs.marked s.channel + 0 + _
      rw [add_zero]
    · intro x hx hstopped
      rw [hhand] at hx
      rw [List.mem_singleton.mp hx] at hstopped
      exact absurd hstopped hended

/-- A worker takes a log from its mailbox. -/
theorem posts_work {i : ℕ} {item : Bool × Log} {rest : List (Bool × Log)} (hi : i < c.workers)
    (hmailbox : s.mailbox i = item :: rest) (hhand : s'.hand = s.hand)
    (hchannel : s'.channel = s.channel) (htaken : s'.mailbox = Function.update s.mailbox i rest)
    (haccepted : s'.accepted = s.accepted) (hprocessed : s'.processed = s.processed ++ [item]) :
    (ledger c).Posts s s' 0 := by
  refine posts_of_lists [] [item] 0 (haccepted.trans (List.append_nil _).symm) hprocessed ?_
  have hmailed := mailed_update hi htaken
  rw [hmailbox, Runs.marked_cons, ← add_assoc] at hmailed
  rw [hchannel, hhand, Runs.marked_nil, add_zero, add_zero, ← add_right_cancel hmailed]
  ac_rfl

/-- A worker stops; what its mailbox holds is lost. -/
theorem posts_stopWorker {i : ℕ} (hi : i < c.workers) (hhand : s'.hand = s.hand)
    (hchannel : s'.channel = s.channel) (hdropped : s'.mailbox = Function.update s.mailbox i [])
    (haccepted : s'.accepted = s.accepted) (hprocessed : s'.processed = s.processed) :
    (ledger c).Posts s s' (Runs.marked (s.mailbox i)) := by
  refine posts_of_move _ haccepted hprocessed ?_
  have hmailed := mailed_update hi hdropped
  rw [Runs.marked_nil, add_zero] at hmailed
  rw [hchannel, hhand, ← hmailed]
  ac_rfl

theorem logs_posts (h : s.step c signalled e = some s') :
    ∃ lost, (ledger c).Posts s s' lost ∧ (lost = 0 ↔ s.Drains c e) := by
  obtain ⟨channel, dispatcher, mailbox, worker, accepted, processed⟩ := s
  unfold step at h
  cases e with
  | send log =>
      dsimp only at h
      split at h
      · cases h
      · split at h
        · obtain rfl := Option.some.inj h
          exact ⟨0, posts_send rfl rfl rfl rfl rfl, iff_of_true rfl trivial⟩
        · cases h
  | dispatch =>
      dsimp only at h
      split at h
      · rename_i item channel
        obtain rfl := Option.some.inj h
        refine ⟨0, posts_of_move 0 rfl rfl ?_, iff_of_true rfl trivial⟩
        show Runs.marked (item :: channel) + 0 + _ = Runs.marked channel + Runs.marked [item] + _ + 0
        rw [Runs.marked_cons, add_zero, add_zero, add_comm (Runs.marked [item])]
        rfl
      · cases h
  | mail =>
      dsimp only at h
      split at h
      · exact posts_deliver rfl h
      · cases h
  | stopDispatcher =>
      dsimp only at h
      split at h
      · split at h
        · obtain rfl := Option.some.inj h
          refine ⟨Runs.marked channel, posts_of_move _ rfl rfl ?_, Runs.marked_eq_zero⟩
          show Runs.marked channel + 0 + _ = 0 + 0 + _ + Runs.marked channel
          rw [add_zero, add_zero, zero_add, add_comm]
          rfl
        · cases h
      · cases h
  | work i =>
      dsimp only at h
      split at h
      · rename_i item rest hworker hmailbox
        split at h
        · rename_i hi
          obtain rfl := Option.some.inj h
          exact ⟨0, posts_work hi hmailbox rfl rfl rfl rfl rfl, iff_of_true rfl trivial⟩
        · cases h
      · cases h
  | processed i =>
      dsimp only at h
      split at h
      · obtain rfl := Option.some.inj h
        exact ⟨0, posts_of_move 0 rfl rfl (add_zero _).symm, iff_of_true rfl trivial⟩
      · cases h
  | stopWorker i =>
      dsimp only at h
      split at h
      · split at h
        · rename_i hstop
          rw [Bool.and_eq_true, decide_eq_true_iff] at hstop
          obtain rfl := Option.some.inj h
          exact ⟨Runs.marked (mailbox i), posts_stopWorker hstop.2 rfl rfl rfl rfl rfl,
            Runs.marked_eq_zero⟩
        · cases h
      · cases h

/-- A channel is gone with its receiver. -/
structure Emptied (s : DetectionStage) : Prop where
  channel : s.dispatcher = .ended → s.channel = []
  mailbox : ∀ i, s.worker i = .ended → s.mailbox i = []

theorem balanced_start : (ledger c).Balanced start := by
  have hmailed : start.mailed c = 0 := Finset.sum_const_zero
  show (0 : Multiset Log) = 0 + (0 + 0 + start.mailed c)
  rw [hmailed]
  rfl

theorem emptied_start : start.Emptied := ⟨fun _ => rfl, fun _ _ => rfl⟩

theorem emptied_deliver {item : Bool × Log} (hs : s.Emptied) (h : s.deliver c item = some s') :
    s'.Emptied := by
  unfold deliver at h
  dsimp only at h
  split_ifs at h with hended hroom
  · obtain rfl := Option.some.inj h
    exact ⟨fun hdispatcher => (by cases hdispatcher), hs.mailbox⟩
  · obtain rfl := Option.some.inj h
    refine ⟨fun hdispatcher => (by cases hdispatcher), fun i hi => ?_⟩
    by_cases hsame : i = c.workerOf item.2
    · rw [hsame] at hi
      exact absurd hi hended
    · exact (Function.update_of_ne hsame _ _).trans (hs.mailbox i hi)

theorem emptied_of_step (hs : s.Emptied) (h : s.step c signalled e = some s') : s'.Emptied := by
  obtain ⟨channel, dispatcher, mailbox, worker, accepted, processed⟩ := s
  obtain ⟨hchannel, hmailbox⟩ := hs
  unfold step at h
  cases e with
  | send log =>
      dsimp only at h
      split at h
      · cases h
      · rename_i hrunning
        split at h
        · obtain rfl := Option.some.inj h
          exact ⟨fun hended => absurd hended hrunning, hmailbox⟩
        · cases h
  | dispatch =>
      dsimp only at h
      split at h
      · obtain rfl := Option.some.inj h
        exact ⟨fun hended => (by cases hended), hmailbox⟩
      · cases h
  | mail =>
      dsimp only at h
      split at h
      · exact emptied_deliver ⟨hchannel, hmailbox⟩ h
      · cases h
  | stopDispatcher =>
      dsimp only at h
      split at h
      · split at h
        · obtain rfl := Option.some.inj h
          exact ⟨fun _ => rfl, hmailbox⟩
        · cases h
      · cases h
  | work i =>
      dsimp only at h
      split at h
      · split at h
        · obtain rfl := Option.some.inj h
          refine ⟨hchannel, fun j hj => ?_⟩
          by_cases hij : j = i
          · subst hij
            have hphase : WorkerPhase.processing = .ended := (Function.update_self j _ worker).symm.trans hj
            cases hphase
          · refine (Function.update_of_ne hij _ _).trans (hmailbox j ?_)
            exact (Function.update_of_ne hij _ _).symm.trans hj
        · cases h
      · cases h
  | processed i =>
      dsimp only at h
      split at h
      · obtain rfl := Option.some.inj h
        refine ⟨hchannel, fun j hj => ?_⟩
        by_cases hij : j = i
        · subst hij
          have hphase : WorkerPhase.receiving = .ended := (Function.update_self j _ worker).symm.trans hj
          cases hphase
        · exact hmailbox j ((Function.update_of_ne hij _ _).symm.trans hj)
      · cases h
  | stopWorker i =>
      dsimp only at h
      split at h
      · split at h
        · obtain rfl := Option.some.inj h
          refine ⟨hchannel, fun j hj => ?_⟩
          by_cases hij : j = i
          · subst hij
            exact Function.update_self ..
          · refine (Function.update_of_ne hij _ _).trans (hmailbox j ?_)
            exact (Function.update_of_ne hij _ _).symm.trans hj
        · cases h
      · cases h

/-- Nothing is on its way once all tasks have ended. -/
theorem pending_of_ended (hs : s.Emptied) (h : s.Ended c) : (ledger c).pending s = 0 := by
  show Runs.marked s.channel + Runs.marked s.hand + s.mailed c = 0
  have hhand : s.hand = [] := by
    unfold hand
    rw [h.dispatcher]
  have hmailed : s.mailed c = 0 := by
    refine Finset.sum_eq_zero fun i hi => ?_
    rw [hs.mailbox i (h.worker i (Finset.mem_range.mp hi))]
    rfl
  rw [hs.channel h.dispatcher, hhand, hmailed]
  rfl

end DetectionStage

end MiniSiem
