import MiniSiem.AlertStage
import MiniSiem.DetectionStage

/-! # The in-memory queues at shutdown

The detection stage and the alert stage under one shutdown signal (`main.rs`), in any interleaving of
sends, steps of the tasks, ticks and the signal.

* **Select.**  A task that waits in `tokio::select!` may take any branch that is ready; the grace period
  of the registry of tasks is not modelled.
* **Drain.**  `drain_exactly_once_iff`: when all tasks have ended, each log that the detection channel
  accepted before the signal has been handed to `process_log` exactly once, and each alert to
  `flush_batch`, exactly when every step of the run drains. -/

namespace MiniSiem

structure Pipeline where
  signalled : Bool
  logs : DetectionStage
  alerts : AlertStage

inductive PipelineEvent
  | signal
  | log (e : DetectionEvent)
  | alert (e : AlertEvent)

namespace Pipeline

def start : Pipeline := ⟨false, .start, .start⟩

section transitions

variable (c : DetectionSettings) (s : Pipeline)

def step : PipelineEvent → Option Pipeline
  | .signal => if s.signalled then none else some { s with signalled := true }
  | .log e => (s.logs.step c s.signalled e).map fun logs => { s with logs }
  | .alert e => (s.alerts.step s.signalled e).map fun alerts => { s with alerts }

/-- A step loses no log that was accepted before the signal. -/
def DrainsLogs : PipelineEvent → Prop
  | .log e => s.logs.Drains c e
  | _ => True

/-- A step keeps no alert that was accepted before the signal from `flush_batch`. -/
def DrainsAlerts : PipelineEvent → Prop
  | .alert e => s.alerts.Drains e
  | _ => True

def Drains (e : PipelineEvent) : Prop := s.DrainsLogs c e ∧ s.DrainsAlerts e

/-- All tasks have ended. -/
structure Ended : Prop where
  logs : s.logs.Ended c
  alerts : s.alerts.Ended

/-- What was accepted before the signal has been handed on exactly once. -/
structure ExactlyOnce : Prop where
  logs : Runs.marked s.logs.processed = Runs.marked s.logs.accepted
  alerts : Runs.marked s.alerts.flushed = Runs.marked s.alerts.accepted

end transitions

def logLedger (c : DetectionSettings) : Runs.Ledger Pipeline Log :=
  (DetectionStage.ledger c).comap Pipeline.logs

def alertLedger : Runs.Ledger Pipeline Alert := AlertStage.ledger.comap Pipeline.alerts

/-- Channels are gone with their receivers. -/
structure Emptied (s : Pipeline) : Prop where
  logs : s.logs.Emptied
  alerts : s.alerts.Emptied

/-! ### Steps -/

variable {c : DetectionSettings} {s s' : Pipeline} {e : PipelineEvent}

theorem eq_of_signal (h : s.step c .signal = some s') : s' = { s with signalled := true } := by
  unfold step at h
  dsimp only at h
  split at h
  · cases h
  · exact (Option.some.inj h).symm

theorem emptied_of_step (hs : s.Emptied) (h : s.step c e = some s') : s'.Emptied := by
  cases e with
  | signal =>
      obtain rfl := eq_of_signal h
      exact ⟨hs.logs, hs.alerts⟩
  | log e =>
      obtain ⟨logs, hlogs, rfl⟩ := Option.map_eq_some_iff.mp h
      exact ⟨DetectionStage.emptied_of_step hs.logs hlogs, hs.alerts⟩
  | alert e =>
      obtain ⟨alerts, halerts, rfl⟩ := Option.map_eq_some_iff.mp h
      exact ⟨hs.logs, AlertStage.emptied_of_step hs.alerts halerts⟩

theorem logs_posts (h : s.step c e = some s') :
    ∃ lost, (logLedger c).Posts s s' lost ∧ (lost = 0 ↔ s.DrainsLogs c e) := by
  cases e with
  | signal =>
      obtain rfl := eq_of_signal h
      exact ⟨0, Runs.Ledger.posts_self (L := logLedger c) s, iff_of_true rfl trivial⟩
  | log e =>
      obtain ⟨logs, hlogs, rfl⟩ := Option.map_eq_some_iff.mp h
      exact DetectionStage.logs_posts hlogs
  | alert e =>
      obtain ⟨alerts, -, rfl⟩ := Option.map_eq_some_iff.mp h
      exact ⟨0, Runs.Ledger.posts_self (L := logLedger c) s, iff_of_true rfl trivial⟩

theorem alerts_posts (h : s.step c e = some s') :
    ∃ lost, alertLedger.Posts s s' lost ∧ (lost = 0 ↔ s.DrainsAlerts e) := by
  cases e with
  | signal =>
      obtain rfl := eq_of_signal h
      exact ⟨0, Runs.Ledger.posts_self (L := alertLedger) s, iff_of_true rfl trivial⟩
  | log e =>
      obtain ⟨logs, -, rfl⟩ := Option.map_eq_some_iff.mp h
      exact ⟨0, Runs.Ledger.posts_self (L := alertLedger) s, iff_of_true rfl trivial⟩
  | alert e =>
      obtain ⟨alerts, halerts, rfl⟩ := Option.map_eq_some_iff.mp h
      exact AlertStage.alerts_posts halerts

/-! ### Runs -/

theorem emptied_start : start.Emptied :=
  ⟨DetectionStage.emptied_start, AlertStage.emptied_start⟩

/-- The ledgers are balanced once all tasks have ended exactly when everything was handed on. -/
theorem exactlyOnce_iff_balanced (hs : s.Emptied) (hended : s.Ended c) :
    s.ExactlyOnce ↔ (logLedger c).Balanced s ∧ alertLedger.Balanced s := by
  have hlogs : (logLedger c).pending s = 0 := DetectionStage.pending_of_ended hs.logs hended.logs
  have halerts : alertLedger.pending s = 0 := AlertStage.pending_of_ended hs.alerts hended.alerts
  unfold Runs.Ledger.Balanced
  rw [hlogs, halerts, add_zero, add_zero]
  constructor
  · rintro ⟨hprocessed, hflushed⟩
    exact ⟨hprocessed.symm, hflushed.symm⟩
  · rintro ⟨hprocessed, hflushed⟩
    exact ⟨Eq.symm hprocessed, Eq.symm hflushed⟩

/-- **The queues are drained.**  For any interleaving, when all tasks have ended each log and each alert
that was accepted before the signal has been handed on exactly once, exactly when every step of the
run drains. -/
theorem drain_exactly_once_iff {events : List PipelineEvent}
    (h : Runs.run (step c) events start = some s) (hended : s.Ended c) :
    s.ExactlyOnce ↔ Runs.Meets (step c) (Drains c) events start := by
  have hemptied : s.Emptied := Runs.run_invariant (fun _ _ _ => emptied_of_step) emptied_start h
  have hlogs := Runs.Ledger.balanced_iff_meets (L := logLedger c) (J := fun _ => True) (s := start)
    (fun _ _ _ _ _ => trivial) (fun _ _ _ _ => logs_posts) trivial
    DetectionStage.balanced_start h
  have halerts := Runs.Ledger.balanced_iff_meets (L := alertLedger) (J := fun _ => True) (s := start)
    (fun _ _ _ _ _ => trivial) (fun _ _ _ _ => alerts_posts) trivial
    AlertStage.balanced_start h
  calc s.ExactlyOnce ↔ (logLedger c).Balanced s ∧ alertLedger.Balanced s :=
        exactlyOnce_iff_balanced hemptied hended
    _ ↔ Runs.Meets (step c) (DrainsLogs c) events start ∧
          Runs.Meets (step c) DrainsAlerts events start := and_congr hlogs halerts
    _ ↔ Runs.Meets (step c) (Drains c) events start := Runs.meets_and.symm

/-! ### One worker -/

instance (c : DetectionSettings) (s : DetectionStage) :
    (e : DetectionEvent) → Decidable (s.Drains c e)
  | .mail => inferInstanceAs (Decidable (∀ item ∈ s.hand, s.worker (c.workerOf item.2) = .ended →
      item.1 = false))
  | .stopDispatcher => inferInstanceAs (Decidable (∀ item ∈ s.channel, item.1 = false))
  | .stopWorker i => inferInstanceAs (Decidable (∀ item ∈ s.mailbox i, item.1 = false))
  | .send _ | .dispatch | .work _ | .processed _ => isTrue trivial

instance (s : AlertStage) : (e : AlertEvent) → Decidable (s.Drains e)
  | .offer => inferInstanceAs (Decidable (∀ item ∈ s.hand, s.hasRoom = false → item.1 = false))
  | .stopWorker => inferInstanceAs (Decidable (∀ item ∈ s.channel, item.1 = false))
  | .stopBatcher => inferInstanceAs (Decidable (∀ item ∈ s.dbChannel, item.1 = false))
  | .send _ | .receive | .finish | .collect | .tick => isTrue trivial

instance (c : DetectionSettings) (s : Pipeline) : (e : PipelineEvent) → Decidable (s.Drains c e)
  | .signal => isTrue ⟨trivial, trivial⟩
  | .log e => inferInstanceAs (Decidable (s.logs.Drains c e ∧ True))
  | .alert e => inferInstanceAs (Decidable (True ∧ s.alerts.Drains e))

instance : (phase : DispatcherPhase) → Decidable (phase = .ended)
  | .ended => isTrue rfl
  | .receiving => isFalse fun h => by cases h
  | .sending _ => isFalse fun h => by cases h

instance : (phase : AlertWorkerPhase) → Decidable (phase = .ended)
  | .ended => isTrue rfl
  | .receiving => isFalse fun h => by cases h
  | .handling _ => isFalse fun h => by cases h
  | .finishing => isFalse fun h => by cases h

instance (c : DetectionSettings) (s : Pipeline) : Decidable (s.Ended c) :=
  decidable_of_iff ((s.logs.dispatcher = .ended ∧ ∀ i < c.workers, s.logs.worker i = .ended) ∧
    s.alerts.worker = .ended ∧ s.alerts.batcherEnded = true)
    ⟨fun h => ⟨⟨h.1.1, h.1.2⟩, ⟨h.2.1, h.2.2⟩⟩, fun h => ⟨⟨h.1.1, h.1.2⟩, h.2.1, h.2.2⟩⟩

def oneWorker : DetectionSettings := ⟨fun _ => 0, "tenant_source_ip", 0, 1024⟩

def probedLog : Log where
  id := "0d6b8f5c-7a57-4f43-8a39-5f9d0a3c1b01"
  tenantId := "acme"
  timestamp := .ofSeconds 1767225600
  eventType := "connection"
  sourceIp := "10.0.0.7"
  targetUser := none
  service := none
  message := "port 22"
  severity := .medium
  metadata := .null
  receivedAt := .ofSeconds 1767225600

def probeAlert : Alert :=
  Alert.new "0d6b8f5c-7a57-4f43-8a39-5f9d0a3c1b02" (.ofSeconds 1767225600) "acme" "r1" "ports" .high
    "scan" "10.0.0.7" []

/-- Every task takes its shutdown branch. -/
def stopAll : List PipelineEvent :=
  [.signal, .log .stopDispatcher, .log (.stopWorker 0), .alert .stopWorker, .alert .stopBatcher]

/-- A log and an alert pass through the queues before the signal. -/
def quietShutdown : List PipelineEvent :=
  [.log (.send probedLog), .log .dispatch, .log .mail, .log (.work 0), .log (.processed 0),
    .alert (.send probeAlert), .alert .receive, .alert .offer, .alert .finish, .alert .collect] ++ stopAll

theorem quietShutdown_exactlyOnce :
    ∃ s, Runs.run (step oneWorker) quietShutdown start = some s ∧ s.Ended oneWorker ∧
      s.ExactlyOnce := by
  obtain ⟨s, hs⟩ := Option.isSome_iff_exists.mp
    (by decide +kernel : (Runs.run (step oneWorker) quietShutdown start).isSome = true)
  have hended := (by decide +kernel :
    ∀ s ∈ Runs.run (step oneWorker) quietShutdown start, s.Ended oneWorker) s hs
  exact ⟨s, hs, hended, (drain_exactly_once_iff hs hended).mpr (by decide +kernel)⟩

/-- A log is in the channel when the dispatcher stops. -/
def busyShutdown : List PipelineEvent := .log (.send probedLog) :: stopAll

theorem busyShutdown_not_drained :
    ∃ s, Runs.run (step oneWorker) busyShutdown start = some s ∧ s.Ended oneWorker ∧
      ¬ s.ExactlyOnce := by
  obtain ⟨s, hs⟩ := Option.isSome_iff_exists.mp
    (by decide +kernel : (Runs.run (step oneWorker) busyShutdown start).isSome = true)
  have hended := (by decide +kernel :
    ∀ s ∈ Runs.run (step oneWorker) busyShutdown start, s.Ended oneWorker) s hs
  obtain ⟨haccepted, hprocessed⟩ := (by decide +kernel :
    ∀ s ∈ Runs.run (step oneWorker) busyShutdown start,
      (Runs.marked s.logs.accepted).card = 1 ∧ (Runs.marked s.logs.processed).card = 0) s hs
  refine ⟨s, hs, hended, fun h => ?_⟩
  rw [← h.logs, hprocessed] at haccepted
  cases haccepted

end Pipeline

end MiniSiem
