import MiniSiem.DetectionStage
import MiniSiem.Lib.Lanes
import MiniSiem.Lib.Runs

/-! # The order of the logs of a source

The way of a log from the ingest queue to `process_log`, by the tasks `kafka_ingest`, `kafka_consumer`,
`detection_dispatch` and `detection_worker` of `main.rs`, before the shutdown.

* **Hops.**  The producer takes a log from the ingest queue and sends it to a partition of the topic; the
  consumer takes it from there and waits for room in the detection channel; the dispatcher sends it to
  the mailbox of a worker.  Every send succeeds, and the limiter of the consumer lets every log pass.
* **Keys.**  `send_log` uses the id of the log as the key of the record, the dispatcher its tenant and its
  source.  The partitioner of Kafka is a parameter; the consumer reads the partitions in any order.
* **Network.**  The pipeline is a network of queues with the `route` of each log (`network_step`).
* **Order.**  `source_order_iff`: `process_log` gets the logs of each source in the order of the ingest
  queue in every run if and only if the ids of the logs of a source fall into one partition. -/

namespace MiniSiem

/-- The key of the record that `send_log` produces. -/
def sendLogKey (log : Log) : String := log.id

structure LogPipeline where
  ingest : List Log
  producer : Option Log
  topic : ℕ → List Log
  consumer : Option Log
  detection : DetectionStage
  queued : List Log

inductive LogPipelineEvent
  | enqueue (log : Log)
  | receive
  | produce
  | poll (partition : ℕ)
  | forward
  | dispatch
  | mail
  | work (i : ℕ)
  | processed (i : ℕ)

inductive LogPlace
  | ingest
  | producer
  | topic (partition : ℕ)
  | consumer
  | channel
  | dispatcher
  | mailbox (i : ℕ)

namespace LogPipeline

def ingestCapacity : ℕ := 10000

def start : LogPipeline := ⟨[], none, fun _ => [], none, DetectionStage.start, []⟩

section transitions

variable (c : DetectionSettings) (partitionOf : String → ℕ) (s : LogPipeline)

/-- A step of the detection tasks; nothing signals a shutdown. -/
def detect (e : DetectionEvent) : Option LogPipeline :=
  (s.detection.step c false e).map fun detection => { s with detection }

def step : LogPipelineEvent → Option LogPipeline
  | .enqueue log =>
      if s.ingest.length < ingestCapacity then
        some { s with ingest := s.ingest ++ [log], queued := s.queued ++ [log] }
      else none
  | .receive =>
      match s.producer, s.ingest with
      | none, log :: ingest => some { s with producer := some log, ingest }
      | _, _ => none
  | .produce =>
      match s.producer with
      | some log =>
          let partition := partitionOf (sendLogKey log)
          some { s with
            producer := none
            topic := Function.update s.topic partition (s.topic partition ++ [log]) }
      | none => none
  | .poll partition =>
      match s.consumer, s.topic partition with
      | none, log :: rest =>
          some { s with consumer := some log, topic := Function.update s.topic partition rest }
      | _, _ => none
  | .forward =>
      match s.consumer with
      | some log => { s with consumer := none }.detect c (.send log)
      | none => none
  | .dispatch => s.detect c .dispatch
  | .mail => s.detect c .mail
  | .work i => s.detect c (.work i)
  | .processed i => s.detect c (.processed i)

/-- What lies where. -/
def held : LogPlace → List Log
  | .ingest => s.ingest
  | .producer => s.producer.toList
  | .topic partition => s.topic partition
  | .consumer => s.consumer.toList
  | .channel => s.detection.channel.map (·.2)
  | .dispatcher => s.detection.hand.map (·.2)
  | .mailbox i => (s.detection.mailbox i).map (·.2)

/-- The logs that `process_log` has got. -/
def handed : List Log := s.detection.processed.map (·.2)

def network : Lanes.Network LogPlace Log := ⟨s.held, s.queued, s.handed⟩

/-- The queues that a log passes, the last one first. -/
def route (log : Log) : List LogPlace :=
  [.mailbox (c.workerOf log), .dispatcher, .channel, .consumer,
    .topic (partitionOf (sendLogKey log)), .producer, .ingest]

end transitions

/-! ### The property -/

def ofSource (tenantId sourceIp : String) (log : Log) : Bool :=
  log.tenantId = tenantId && log.sourceIp = sourceIp

/-- `process_log` has got the logs of each source in the order in which they were put on the queue. -/
def InSourceOrder (s : LogPipeline) : Prop :=
  ∀ tenantId sourceIp,
    s.handed.filter (ofSource tenantId sourceIp) <+: s.queued.filter (ofSource tenantId sourceIp)

/-- The ids of the logs of a source fall into one partition. -/
def OnePartition (partitionOf : String → ℕ) (logs : List Log) : Prop :=
  ∀ x ∈ logs, ∀ y ∈ logs, x.tenantId = y.tenantId → x.sourceIp = y.sourceIp →
    partitionOf (sendLogKey x) = partitionOf (sendLogKey y)

/-! ### The pipeline is a network of queues -/

variable {c : DetectionSettings} {partitionOf : String → ℕ} {s s' : LogPipeline} {e : LogPipelineEvent}

/-- Every mailbox holds logs of its worker, and all workers run. -/
structure Steady (c : DetectionSettings) (d : DetectionStage) : Prop where
  mailbox : ∀ i, ∀ item ∈ d.mailbox i, c.workerOf item.2 = i
  running : ∀ i, d.worker i ≠ .ended

theorem steady_update_mailbox {d : DetectionStage} (hd : Steady c d) {i : ℕ}
    {items : List (Bool × Log)} (h : ∀ item ∈ items, c.workerOf item.2 = i) :
    ∀ j, ∀ item ∈ Function.update d.mailbox i items j, c.workerOf item.2 = j :=
  (Function.forall_update_iff d.mailbox (p := fun j items => ∀ item ∈ items, c.workerOf item.2 = j)).mpr
    ⟨h, fun j _ => hd.mailbox j⟩

theorem steady_update_worker {d : DetectionStage} (hd : Steady c d) {i : ℕ} {phase : WorkerPhase}
    (h : phase ≠ .ended) : ∀ j, Function.update d.worker i phase j ≠ .ended :=
  (Function.forall_update_iff d.worker (p := fun _ phase => phase ≠ .ended)).mpr
    ⟨h, fun j _ => hd.running j⟩

/-- Without a signal no task stops, and no send of the dispatcher fails. -/
theorem steady_of_step {d d' : DetectionStage} {e : DetectionEvent} (hd : Steady c d)
    (h : d.step c false e = some d') : Steady c d' := by
  unfold DetectionStage.step at h
  cases e with
  | send log =>
      dsimp only at h
      split at h
      · cases h
      · split at h
        · obtain rfl := Option.some.inj h
          exact ⟨hd.mailbox, hd.running⟩
        · cases h
  | dispatch =>
      dsimp only at h
      split at h
      · obtain rfl := Option.some.inj h
        exact ⟨hd.mailbox, hd.running⟩
      · cases h
  | mail =>
      dsimp only at h
      split at h
      · rename_i item _
        unfold DetectionStage.deliver at h
        dsimp only at h
        split_ifs at h with hended hroom
        · exact absurd hended (hd.running _)
        · obtain rfl := Option.some.inj h
          refine ⟨steady_update_mailbox hd fun x hx => ?_, hd.running⟩
          obtain hx | hx := List.mem_append.mp hx
          · exact hd.mailbox _ x hx
          · rw [List.mem_singleton.mp hx]
      · cases h
  | work i =>
      dsimp only at h
      split at h
      · rename_i item rest _ hitems
        split at h
        · obtain rfl := Option.some.inj h
          refine ⟨steady_update_mailbox hd fun x hx => ?_, steady_update_worker hd (by decide)⟩
          exact hd.mailbox i x (hitems ▸ List.mem_cons_of_mem item hx)
        · cases h
      · cases h
  | processed i =>
      dsimp only at h
      split at h
      · obtain rfl := Option.some.inj h
        exact ⟨hd.mailbox, steady_update_worker hd (by decide)⟩
      · cases h
  | stopDispatcher =>
      dsimp only at h
      split at h
      · cases h
      · cases h
  | stopWorker i =>
      dsimp only at h
      split at h
      · cases h
      · cases h

/-- Every log lies on its route. -/
structure Placed (c : DetectionSettings) (partitionOf : String → ℕ) (s : LogPipeline) : Prop where
  topic : ∀ p, ∀ log ∈ s.topic p, partitionOf (sendLogKey log) = p
  detection : Steady c s.detection

theorem placed_start : start.Placed c partitionOf :=
  ⟨fun _ _ h => (by cases h), fun _ _ h => (by cases h), fun _ h => (by cases h)⟩

theorem placed_update_topic {items : List Log} {p : ℕ} (hs : s.Placed c partitionOf)
    (h : ∀ log ∈ items, partitionOf (sendLogKey log) = p) :
    ∀ q, ∀ log ∈ Function.update s.topic p items q, partitionOf (sendLogKey log) = q :=
  (Function.forall_update_iff s.topic
    (p := fun q items => ∀ log ∈ items, partitionOf (sendLogKey log) = q)).mpr
    ⟨h, fun q _ => hs.topic q⟩

theorem detect_eq_some {e : DetectionEvent} :
    s.detect c e = some s' ↔ ∃ detection, s.detection.step c false e = some detection ∧
      { s with detection } = s' :=
  Option.map_eq_some_iff

theorem placed_of_detect {e : DetectionEvent} (hs : s.Placed c partitionOf)
    (h : s.detect c e = some s') : s'.Placed c partitionOf := by
  obtain ⟨detection, hstep, rfl⟩ := detect_eq_some.mp h
  exact ⟨hs.topic, steady_of_step hs.detection hstep⟩

theorem placed_of_step (hs : s.Placed c partitionOf) (h : s.step c partitionOf e = some s') :
    s'.Placed c partitionOf := by
  unfold step at h
  cases e with
  | enqueue log =>
      dsimp only at h
      split at h
      · obtain rfl := Option.some.inj h
        exact ⟨hs.topic, hs.detection⟩
      · cases h
  | receive =>
      dsimp only at h
      split at h
      · obtain rfl := Option.some.inj h
        exact ⟨hs.topic, hs.detection⟩
      · cases h
  | produce =>
      dsimp only at h
      split at h
      · obtain rfl := Option.some.inj h
        refine ⟨placed_update_topic hs fun x hx => ?_, hs.detection⟩
        obtain hx | hx := List.mem_append.mp hx
        · exact hs.topic _ x hx
        · rw [List.mem_singleton.mp hx]
      · cases h
  | poll p =>
      dsimp only at h
      split at h
      · rename_i log rest _ htopic
        obtain rfl := Option.some.inj h
        refine ⟨placed_update_topic hs fun x hx => ?_, hs.detection⟩
        exact hs.topic p x (htopic ▸ List.mem_cons_of_mem log hx)
      · cases h
  | forward =>
      dsimp only at h
      split at h
      · have hs' : { s with consumer := none }.Placed c partitionOf := ⟨hs.topic, hs.detection⟩
        exact placed_of_detect hs' h
      · cases h
  | dispatch => exact placed_of_detect hs h
  | mail => exact placed_of_detect hs h
  | work i => exact placed_of_detect hs h
  | processed i => exact placed_of_detect hs h

/-- A step of the tasks that takes a log of the topic or puts one there. -/
theorem moves_poll {log : Log} {rest : List Log} {p : ℕ} (hconsumer : s.consumer = none)
    (htopic : s.topic p = log :: rest) :
    Lanes.Moves s.held
      { s with consumer := some log, topic := Function.update s.topic p rest }.held
      (.topic p) .consumer log := by
  refine ⟨?_, ?_, fun i hsrc hdst => ?_⟩
  · show s.topic p = log :: Function.update s.topic p rest p
    rw [Function.update_self, htopic]
  · show [log] = s.consumer.toList ++ [log]
    rw [hconsumer]
    rfl
  · cases i with
    | topic q =>
        have hq : q ≠ p := fun hq => hsrc (congrArg LogPlace.topic hq)
        exact Function.update_of_ne hq rest s.topic
    | consumer => exact absurd rfl hdst
    | _ => rfl

theorem moves_produce {log : Log} (hproducer : s.producer = some log) {p : ℕ} :
    Lanes.Moves s.held
      { s with producer := none, topic := Function.update s.topic p (s.topic p ++ [log]) }.held
      .producer (.topic p) log := by
  refine ⟨?_, Function.update_self .., fun i hsrc hdst => ?_⟩
  · show s.producer.toList = [log]
    rw [hproducer]
    rfl
  · cases i with
    | topic q =>
        have hq : q ≠ p := fun hq => hdst (congrArg LogPlace.topic hq)
        exact Function.update_of_ne hq _ s.topic
    | producer => exact absurd rfl hsrc
    | _ => rfl

theorem moves_forward {log : Log} (hconsumer : s.consumer = some log)
    (h : { s with consumer := none }.detect c (.send log) = some s') :
    Lanes.Moves s.held s'.held .consumer .channel log ∧ s'.queued = s.queued ∧
      s'.handed = s.handed := by
  obtain ⟨detection, hstep, rfl⟩ := detect_eq_some.mp h
  unfold DetectionStage.step at hstep
  dsimp only at hstep
  split at hstep
  · cases hstep
  · split at hstep
    · obtain rfl := Option.some.inj hstep
      refine ⟨⟨?_, ?_, fun i hsrc hdst => ?_⟩, rfl, rfl⟩
      · show s.consumer.toList = [log]
        rw [hconsumer]
        rfl
      · exact List.map_append
      · cases i with
        | consumer => exact absurd rfl hsrc
        | channel => exact absurd rfl hdst
        | _ => rfl
    · cases hstep

/-- The dispatcher takes a log from the detection channel. -/
theorem moves_dispatch (h : s.detect c .dispatch = some s') :
    ∃ log, Lanes.Moves s.held s'.held .channel .dispatcher log ∧ s'.queued = s.queued ∧
      s'.handed = s.handed := by
  obtain ⟨ingest, producer, topic, consumer, ⟨channel, dispatcher, mailbox, worker, accepted, processed⟩,
    queued⟩ := s
  obtain ⟨detection, hstep, rfl⟩ := detect_eq_some.mp h
  unfold DetectionStage.step at hstep
  dsimp only at hstep
  split at hstep
  · rename_i item channel
    obtain rfl := Option.some.inj hstep
    refine ⟨item.2, ⟨rfl, rfl, fun i hsrc hdst => ?_⟩, rfl, rfl⟩
    cases i with
    | channel => exact absurd rfl hsrc
    | dispatcher => exact absurd rfl hdst
    | _ => rfl
  · cases hstep

/-- The dispatcher sends a log to its worker. -/
theorem moves_mail (hs : s.Placed c partitionOf) (h : s.detect c .mail = some s') :
    ∃ log, Lanes.Moves s.held s'.held .dispatcher (.mailbox (c.workerOf log)) log ∧
      s'.queued = s.queued ∧ s'.handed = s.handed := by
  obtain ⟨ingest, producer, topic, consumer, ⟨channel, dispatcher, mailbox, worker, accepted, processed⟩,
    queued⟩ := s
  obtain ⟨detection, hstep, rfl⟩ := detect_eq_some.mp h
  unfold DetectionStage.step at hstep
  dsimp only at hstep
  split at hstep
  · rename_i item
    unfold DetectionStage.deliver at hstep
    dsimp only at hstep
    split_ifs at hstep with hended hroom
    · exact absurd hended (hs.detection.running _)
    · obtain rfl := Option.some.inj hstep
      refine ⟨item.2, ⟨rfl, ?_, fun i hsrc hdst => ?_⟩, rfl, rfl⟩
      · show (Function.update mailbox (c.workerOf item.2) _ (c.workerOf item.2)).map _ = _
        rw [Function.update_self]
        exact List.map_append
      · cases i with
        | dispatcher => exact absurd rfl hsrc
        | mailbox j =>
            have hj : j ≠ c.workerOf item.2 := fun hj => hdst (hj ▸ rfl)
            exact congrArg (List.map _) (Function.update_of_ne hj _ mailbox)
        | _ => rfl
  · cases hstep

/-- A worker hands a log to `process_log`. -/
theorem leaves_work (hs : s.Placed c partitionOf) {i : ℕ} (h : s.detect c (.work i) = some s') :
    ∃ log, Lanes.Leaves s.held s'.held (.mailbox (c.workerOf log)) log ∧ s'.queued = s.queued ∧
      s'.handed = s.handed ++ [log] := by
  obtain ⟨detection, hstep, rfl⟩ := detect_eq_some.mp h
  unfold DetectionStage.step at hstep
  dsimp only at hstep
  split at hstep
  · rename_i item rest _ hitems
    split at hstep
    · obtain rfl := Option.some.inj hstep
      have hworker : c.workerOf item.2 = i :=
        hs.detection.mailbox i item (hitems ▸ List.mem_cons_self)
      refine ⟨item.2, ⟨?_, fun place hplace => ?_⟩, rfl, List.map_append⟩
      · show (s.detection.mailbox (c.workerOf item.2)).map _ =
          item.2 :: (Function.update s.detection.mailbox i rest (c.workerOf item.2)).map _
        rw [hworker, Function.update_self, hitems]
        rfl
      · rw [hworker] at hplace
        cases place with
        | mailbox j =>
            have hj : j ≠ i := fun hj => hplace (hj ▸ rfl)
            exact congrArg (List.map _) (Function.update_of_ne hj rest s.detection.mailbox)
        | _ => rfl
    · cases hstep
  · cases hstep

/-- Each step of the pipeline is one of the network of its queues. -/
theorem network_step (hs : s.Placed c partitionOf) (h : s.step c partitionOf e = some s') :
    Lanes.Network.Step (route c partitionOf) s.network s'.network := by
  unfold step at h
  cases e with
  | enqueue log =>
      dsimp only at h
      split at h
      · obtain rfl := Option.some.inj h
        refine .enter log [.mailbox (c.workerOf log), .dispatcher, .channel, .consumer,
          .topic (partitionOf (sendLogKey log)), .producer] .ingest rfl ⟨rfl, fun i hi => ?_⟩ rfl rfl
        cases i with
        | ingest => exact absurd rfl hi
        | _ => rfl
      · cases h
  | receive =>
      dsimp only at h
      split at h
      · rename_i log ingest hproducer hingest
        obtain rfl := Option.some.inj h
        refine .move log [.mailbox (c.workerOf log), .dispatcher, .channel, .consumer,
          .topic (partitionOf (sendLogKey log))] .producer .ingest [] rfl
          ⟨hingest, ?_, fun i hsrc hdst => ?_⟩ rfl rfl
        · show [log] = s.producer.toList ++ [log]
          rw [hproducer]
          rfl
        · cases i with
          | ingest => exact absurd rfl hsrc
          | producer => exact absurd rfl hdst
          | _ => rfl
      · cases h
  | produce =>
      dsimp only at h
      split at h
      · rename_i log hproducer
        obtain rfl := Option.some.inj h
        exact .move log [.mailbox (c.workerOf log), .dispatcher, .channel, .consumer]
          (.topic (partitionOf (sendLogKey log))) .producer [.ingest] rfl (moves_produce hproducer) rfl rfl
      · cases h
  | poll p =>
      dsimp only at h
      split at h
      · rename_i log rest hconsumer htopic
        obtain rfl := Option.some.inj h
        have hp : partitionOf (sendLogKey log) = p := hs.topic p log (htopic ▸ List.mem_cons_self)
        refine .move log [.mailbox (c.workerOf log), .dispatcher, .channel] .consumer (.topic p)
          [.producer, .ingest] ?_ (moves_poll hconsumer htopic) rfl rfl
        rw [← hp]
        rfl
      · cases h
  | forward =>
      dsimp only at h
      split at h
      · rename_i log hconsumer
        obtain ⟨hmoves, hqueued, hhanded⟩ := moves_forward hconsumer h
        exact .move log [.mailbox (c.workerOf log), .dispatcher] .channel .consumer
          [.topic (partitionOf (sendLogKey log)), .producer, .ingest] rfl hmoves hqueued hhanded
      · cases h
  | dispatch =>
      obtain ⟨log, hmoves, hqueued, hhanded⟩ := moves_dispatch h
      exact .move log [.mailbox (c.workerOf log)] .dispatcher .channel
        [.consumer, .topic (partitionOf (sendLogKey log)), .producer, .ingest] rfl hmoves hqueued hhanded
  | mail =>
      obtain ⟨log, hmoves, hqueued, hhanded⟩ := moves_mail hs h
      exact .move log [] (.mailbox (c.workerOf log)) .dispatcher
        [.channel, .consumer, .topic (partitionOf (sendLogKey log)), .producer, .ingest] rfl hmoves
        hqueued hhanded
  | work i =>
      obtain ⟨log, hleaves, hqueued, hhanded⟩ := leaves_work hs h
      exact .leave log (.mailbox (c.workerOf log))
        [.dispatcher, .channel, .consumer, .topic (partitionOf (sendLogKey log)), .producer, .ingest] rfl
        hleaves hqueued hhanded
  | processed i =>
      obtain ⟨detection, hstep, rfl⟩ := detect_eq_some.mp h
      unfold DetectionStage.step at hstep
      dsimp only at hstep
      split at hstep
      · obtain rfl := Option.some.inj hstep
        refine .idle (funext fun place => ?_) rfl rfl
        cases place with
        | _ => rfl
      · cases hstep

/-! ### One partition is enough -/

theorem fifo_start : start.network.Fifo (route c partitionOf) := by
  refine Lanes.Network.fifo_empty (fun place => ?_) rfl rfl
  cases place with
  | _ => rfl

theorem route_nodup (log : Log) : (route c partitionOf log).Nodup := by
  unfold route
  simp

/-- The worker depends on the tenant and the source only. -/
theorem workerOf_congr {x y : Log} (htenant : x.tenantId = y.tenantId)
    (hsource : x.sourceIp = y.sourceIp) : c.workerOf x = c.workerOf y := by
  unfold DetectionSettings.workerOf detectionPartitionIndex
  rw [htenant, hsource]

theorem ofSource_eq_true {tenantId sourceIp : String} {log : Log} :
    ofSource tenantId sourceIp log = true ↔ log.tenantId = tenantId ∧ log.sourceIp = sourceIp := by
  unfold ofSource
  rw [Bool.and_eq_true, decide_eq_true_iff, decide_eq_true_iff]

theorem route_congr {logs : List Log} (h : OnePartition partitionOf logs) {x y : Log} (hx : x ∈ logs)
    (hy : y ∈ logs) (htenant : x.tenantId = y.tenantId) (hsource : x.sourceIp = y.sourceIp) :
    route c partitionOf x = route c partitionOf y := by
  unfold route
  rw [workerOf_congr htenant hsource, h x hx y hy htenant hsource]

theorem inSourceOrder_of_onePartition {es : List LogPipelineEvent}
    (h : Runs.run (step c partitionOf) es start = some s) (hone : OnePartition partitionOf s.queued) :
    s.InSourceOrder := by
  have hinvariant : s.Placed c partitionOf ∧ s.network.Fifo (route c partitionOf) := by
    refine Runs.run_invariant (J := fun s => s.Placed c partitionOf ∧
      s.network.Fifo (route c partitionOf)) (fun t e u ht htu => ?_) ⟨placed_start, fifo_start⟩ h
    exact ⟨placed_of_step ht.1 htu, ht.2.of_step (network_step ht.1 htu)⟩
  intro tenantId sourceIp
  by_cases hnone : ∃ x ∈ s.queued, ofSource tenantId sourceIp x = true
  · obtain ⟨x, hx, hxsel⟩ := hnone
    obtain ⟨rfl, rfl⟩ := ofSource_eq_true.mp hxsel
    have hpath : (route c partitionOf x).Nodup := route_nodup x
    refine hinvariant.2.left_inOrder hpath fun y hy hysel => ?_
    obtain ⟨htenant, hsource⟩ := ofSource_eq_true.mp hysel
    exact route_congr hone hy hx htenant hsource
  · -- no log of the source has been queued
    have hnobody : ∀ y ∈ s.queued, ofSource tenantId sourceIp y = true → route c partitionOf y = [] :=
      fun y hy hysel => absurd ⟨y, hy, hysel⟩ hnone
    exact hinvariant.2.left_inOrder List.nodup_nil hnobody

/-! ### More than one partition is too many -/

/-- The tasks wait; the topic holds what has been sent and not been read. -/
def resting (topic : ℕ → List Log) (queued done : List Log) : LogPipeline where
  ingest := []
  producer := none
  topic := topic
  consumer := none
  detection := ⟨[], .receiving, fun _ => [], fun _ => .receiving, done.map (true, ·), done.map (true, ·)⟩
  queued := queued

/-- A log is put on the queue and sent to the topic. -/
def publish (log : Log) : List LogPipelineEvent := [.enqueue log, .receive, .produce]

/-- The next log of a partition goes all the way to `process_log`. -/
def drain (c : DetectionSettings) (p : ℕ) (log : Log) : List LogPipelineEvent :=
  [.poll p, .forward, .dispatch, .mail, .work (c.workerOf log), .processed (c.workerOf log)]

theorem run_publish (logs : List Log) {topic : ℕ → List Log} {queued done : List Log} :
    ∃ topic', (∀ p, topic' p = topic p ++ logs.filter (fun log => partitionOf (sendLogKey log) = p)) ∧
      Runs.run (step c partitionOf) (logs.flatMap publish) (resting topic queued done) =
        some (resting topic' (queued ++ logs) done) := by
  induction logs generalizing topic queued with
  | nil =>
      refine ⟨topic, fun p => (List.append_nil _).symm, ?_⟩
      rw [List.append_nil]
      rfl
  | cons log logs ih =>
      have hfirst : Runs.run (step c partitionOf) (publish log) (resting topic queued done) =
          some (resting (Function.update topic (partitionOf (sendLogKey log))
            (topic (partitionOf (sendLogKey log)) ++ [log])) (queued ++ [log]) done) := rfl
      obtain ⟨topic', htopic, hrest⟩ := @ih (Function.update topic (partitionOf (sendLogKey log))
        (topic (partitionOf (sendLogKey log)) ++ [log])) (queued ++ [log])
      refine ⟨topic', fun p => ?_, ?_⟩
      · rw [htopic]
        by_cases hp : p = partitionOf (sendLogKey log)
        · subst hp
          rw [Function.update_self, List.filter_cons_of_pos (by simp), List.append_assoc]
          rfl
        · rw [Function.update_of_ne hp, List.filter_cons_of_neg (by simpa using Ne.symm hp)]
      · rw [List.flatMap_cons]
        refine Runs.run_append.mpr ⟨_, hfirst, ?_⟩
        rw [hrest, List.append_assoc]
        rfl

theorem run_drain_one (hroom : 0 < c.mailboxSize) {p : ℕ} {log : Log} {rest : List Log}
    {topic : ℕ → List Log} {queued done : List Log} (htopic : topic p = log :: rest) :
    Runs.run (step c partitionOf) (drain c p log) (resting topic queued done) =
      some (resting (Function.update topic p rest) queued (done ++ [log])) := by
  have hlt : c.workerOf log < c.workers := c.workerOf_lt log
  simp [drain, Runs.run, step, resting, htopic, detect, DetectionStage.step, DetectionStage.deliver,
    DetectionStage.channelCapacity, hroom, hlt]

theorem run_drain (hroom : 0 < c.mailboxSize) {p : ℕ} (logs : List Log) {topic : ℕ → List Log}
    {queued done : List Log} (htopic : topic p = logs) :
    ∃ topic', Runs.run (step c partitionOf) (logs.flatMap (drain c p)) (resting topic queued done) =
      some (resting topic' queued (done ++ logs)) := by
  induction logs generalizing topic done with
  | nil => exact ⟨topic, by rw [List.append_nil]; rfl⟩
  | cons log logs ih =>
      obtain ⟨topic', hrest⟩ := @ih (Function.update topic p logs) (done ++ [log])
        (Function.update_self ..)
      refine ⟨topic', ?_⟩
      rw [List.flatMap_cons]
      refine Runs.run_append.mpr ⟨_, run_drain_one hroom htopic, ?_⟩
      rw [hrest, List.append_assoc]
      rfl

theorem handed_resting {topic : ℕ → List Log} {queued done : List Log} :
    (resting topic queued done).handed = done := by
  show (done.map (true, ·)).map (·.2) = done
  rw [List.map_map]
  exact List.map_id' done

/-- The consumer may read a single partition to its end before it reads any other. -/
theorem reachable_partition (hroom : 0 < c.mailboxSize) (logs : List Log) (p : ℕ) :
    ∃ es s, Runs.run (step c partitionOf) es start = some s ∧ s.queued = logs ∧
      s.handed = logs.filter (fun log => partitionOf (sendLogKey log) = p) := by
  obtain ⟨topic, htopic, hpublish⟩ := @run_publish c partitionOf logs (fun _ => []) [] []
  obtain ⟨topic', hdrain⟩ := @run_drain c partitionOf hroom p (topic p) topic logs [] rfl
  refine ⟨_, _, Runs.run_append.mpr ⟨_, hpublish, hdrain⟩, rfl, ?_⟩
  rw [handed_resting, htopic]
  rfl

/-- In every run that queues `logs`. -/
def OrderKept (c : DetectionSettings) (partitionOf : String → ℕ) (logs : List Log) : Prop :=
  ∀ es s, Runs.run (step c partitionOf) es start = some s → s.queued = logs → s.InSourceOrder

/-- Two logs of a source, one after the other. -/
theorem partition_eq_of_orderKept (hroom : 0 < c.mailboxSize) {logs : List Log}
    (h : OrderKept c partitionOf logs) {x y : Log} {a b : List Log}
    (hlogs : logs.filter (ofSource x.tenantId x.sourceIp) = a ++ x :: b) (hy : y ∈ b) :
    partitionOf (sendLogKey x) = partitionOf (sendLogKey y) := by
  by_contra hapart
  obtain ⟨es, s, hrun, hqueued, hhanded⟩ :=
    reachable_partition hroom logs (partitionOf (sendLogKey y))
  have hprefix := h es s hrun hqueued x.tenantId x.sourceIp
  rw [hhanded, hqueued, List.filter_comm, hlogs] at hprefix
  have hnone := Lanes.filter_eq_nil_of_front hprefix (decide_eq_false hapart)
  exact List.filter_eq_nil_iff.mp hnone y hy (decide_eq_true rfl)

theorem onePartition_of_orderKept (hroom : 0 < c.mailboxSize) {logs : List Log}
    (h : OrderKept c partitionOf logs) : OnePartition partitionOf logs := by
  intro x hx y hy htenant hsource
  have hx_mem : x ∈ logs.filter (ofSource x.tenantId x.sourceIp) :=
    List.mem_filter.mpr ⟨hx, ofSource_eq_true.mpr ⟨rfl, rfl⟩⟩
  have hy_mem : y ∈ logs.filter (ofSource x.tenantId x.sourceIp) :=
    List.mem_filter.mpr ⟨hy, ofSource_eq_true.mpr ⟨htenant.symm, hsource.symm⟩⟩
  obtain ⟨a, b, hlogs⟩ := List.append_of_mem hx_mem
  rw [hlogs, List.mem_append, List.mem_cons] at hy_mem
  obtain hbefore | rfl | hafter := hy_mem
  · -- the other log comes first
    obtain ⟨a, a', rfl⟩ := List.append_of_mem hbefore
    rw [htenant, hsource, List.append_assoc] at hlogs
    exact (partition_eq_of_orderKept hroom h hlogs (by simp)).symm
  · rfl
  · exact partition_eq_of_orderKept hroom h hlogs hafter

/-- `process_log` gets the logs of each source in the order of the ingest queue, in every run, if and only
if the ids of the logs of a source fall into one partition. -/
theorem source_order_iff (c : DetectionSettings) (partitionOf : String → ℕ)
    (hroom : 0 < c.mailboxSize) (logs : List Log) :
    OrderKept c partitionOf logs ↔ OnePartition partitionOf logs := by
  refine ⟨onePartition_of_orderKept hroom, ?_⟩
  rintro hone es s hrun rfl
  exact inSourceOrder_of_onePartition hrun hone

/-! ### A login -/

def failedAttempt : Log where
  id := "0d0f6b1c-52a4-4be1-9c59-6b52f2d0b301"
  tenantId := "acme"
  timestamp := .ofSeconds 1767225600
  eventType := "login_failed"
  sourceIp := "10.0.0.7"
  targetUser := some "root"
  service := some "sshd"
  message := "Failed password for root"
  severity := .medium
  metadata := .null
  receivedAt := .ofSeconds 1767225600

def successfulAttempt : Log :=
  { failedAttempt with
    id := "0d0f6b1c-52a4-4be1-9c59-6b52f2d0b302"
    eventType := "login_success"
    message := "Accepted password for root" }

def fourWorkers : DetectionSettings where
  fxHash := fun parts => UInt64.ofNat (parts.map String.length).sum
  partitionKey := "tenant_source_ip"
  extraWorkers := 3
  mailboxSize := 1024

theorem onePartition_orderKept :
    OrderKept fourWorkers (fun _ => 0) [failedAttempt, successfulAttempt] :=
  (source_order_iff fourWorkers (fun _ => 0) (by decide) _).mpr fun _ _ _ _ _ _ => rfl

/-- With two partitions the login may come before the failed attempt. -/
theorem twoPartitions_reorder :
    ∃ es s, Runs.run (step fourWorkers fun key => if key = sendLogKey failedAttempt then 0 else 1) es
        start = some s ∧ s.queued = [failedAttempt, successfulAttempt] ∧
      s.handed = [successfulAttempt, failedAttempt] ∧ ¬ s.InSourceOrder := by
  have hne : successfulAttempt ≠ failedAttempt := fun h => absurd (congrArg Log.id h) (by decide)
  refine ⟨[failedAttempt, successfulAttempt].flatMap publish ++ (drain fourWorkers 1 successfulAttempt ++
    drain fourWorkers 0 failedAttempt), _, rfl, rfl, rfl, fun horder => ?_⟩
  have hprefix : [successfulAttempt, failedAttempt] <+: [failedAttempt, successfulAttempt] :=
    horder "acme" "10.0.0.7"
  exact hne (List.cons_prefix_cons.mp hprefix).1

end LogPipeline

end MiniSiem
