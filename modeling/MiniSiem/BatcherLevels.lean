import MiniSiem.AlertCases
import MiniSiem.AlertRedelivery
import MiniSiem.AlertStage

/-! # The batcher at three levels

`spawn_db_batcher` is modelled three times: command by command (`CaseSystem`), with a flush as one step
beside the alert worker (`AlertStage`), and as a sequence of flushes (`runBatcher`).

* **A flush.**  `flushBatch_alone`: the commands of a flush of `CaseSystem`, with nothing between them,
  leave the table of `flushBatch`; without faults they are a step of `runBatcher` (`tick_batcherStep`).
* **The loops.**  `run_followed`: each run of `CaseSystem` is followed by a run of `AlertStage` that has the
  same alerts in `db_tx` and in the buffer, accepts what the worker receives, and hands the same alerts to
  `flush_batch`.
* **Order.**  `flushed_inOrder`: alerts are flushed in the order in which the worker has received them. -/

namespace MiniSiem

namespace CaseSystem

/-! ### A flush -/

section flush

variable (capacity batchSize : ℕ) (previewActions : Alert → List String) (s : CaseSystem)

/-- **A flush** that nothing interrupts is `flush_batch`. -/
theorem flushBatch_alone (env : BatchEnv) (faults : FlushFaults) (stopping : Bool) :
    ∃ commands : List Bool, Runs.run (step capacity batchSize previewActions) (commands.map .command)
      (s.startFlush env stopping) =
        some { s.withTable (flushBatch env faults s.table s.buffer).1.table with
          buffer := []
          batcher := afterFlush stopping } := by
  rw [flushBatch_outcome]
  unfold startFlush
  cases hbuffer : s.buffer with
  | nil =>
      refine ⟨[], ?_⟩
      rw [visitedTenants_nil, List.isEmpty_nil, if_pos rfl, ← hbuffer]
      rfl
  | cons a buffer =>
      exact flush_alone capacity previewActions env faults stopping (visitedTenants env (a :: buffer))
        { s with
          buffer := []
          batcher := .flushing env stopping (.visiting (visitedTenants env (a :: buffer))) } rfl

/-- A tick whose commands all succeed is a step of the sequence of flushes. -/
theorem tick_batcherStep (env : BatchEnv) (h : s.batcher = .collecting) :
    ∃ commands : List Bool, ∃ s', Runs.run (step capacity batchSize previewActions)
        (.tick env :: commands.map .command) s = some s' ∧
      s'.table = BatcherStep.exec true s.table (.flush env (s.buffer.map fun a => ⟨a, false⟩)) := by
  have htick : step capacity batchSize previewActions s (.tick env) = some (s.startFlush env false) := by
    unfold step
    rw [h]
  obtain ⟨commands, hrun⟩ := flushBatch_alone capacity batchSize previewActions s env .none false
  refine ⟨commands, _, Runs.run_cons.mpr ⟨_, htick, hrun⟩, ?_⟩
  have hdelivered : deliveredAlerts true (s.buffer.map fun a => ⟨a, false⟩) = s.buffer := by
    simp [deliveredAlerts, Function.comp_def]
  show (flushBatch env .none s.table s.buffer).1.table = (flushBatch env .none s.table _).1.table
  rw [hdelivered]

end flush

/-! ### The loops -/

/-- The alerts that the batcher takes out of its buffer for a flush. -/
def drained (s : CaseSystem) : CaseSystemEvent → List Alert
  | .collect _ =>
      if AlertStage.batchSize ≤ s.buffer.length + 1 then s.buffer ++ s.dbChannel.take 1 else []
  | .tick _ | .stopBatcher _ => s.buffer
  | _ => []

/-- The alert that the worker receives. -/
def received : CaseSystemEvent → List Alert
  | .receive alert => [alert]
  | _ => []

section loops

variable (previewActions : Alert → List String)

/-- The system with the capacity of `db_tx` and the size of a batch. -/
abbrev stageStep : CaseSystem → CaseSystemEvent → Option CaseSystem :=
  step AlertStage.dbCapacity AlertStage.batchSize previewActions

/-- The alerts of the flushes of a run. -/
def drainedBy : List CaseSystemEvent → CaseSystem → List Alert
  | [], _ => []
  | e :: es, s => s.drained e ++ match stageStep previewActions s e with
      | some s' => drainedBy es s'
      | none => []

end loops

/-- Where the worker of the stage is, given the worker of the system. -/
def WorkerFollows (w : AlertWorkerPhase) : CaseWorkerPhase → Prop
  | .idle => w = .receiving
  | .offering alert => ∃ marked, w = .handling (marked, alert)
  | .searching _ | .saving _ _ | .opening _ _ => w = .finishing
  | .ended => w = .ended

/-- The stage has the same worker, batcher, buffer and `db_tx`; a batcher that has ended has no `db_tx`
there, and the case of an alert is opened while the worker finishes. -/
structure Follows (s : CaseSystem) (a : AlertStage) : Prop where
  channel : a.channel = []
  worker : WorkerFollows a.worker s.worker
  buffer : a.buffer.map Prod.snd = s.buffer
  flushing : s.batcher.isFlushing = true → s.buffer = []
  ended : a.batcherEnded = true ↔ s.batcher = .ended
  dbChannel : s.batcher ≠ .ended → a.dbChannel.map Prod.snd = s.dbChannel

/-- The stage goes on in so many events, in which it hands some alerts to `flush_batch` and accepts others. -/
def Goes (a : AlertStage) (s' : CaseSystem) (handed received : List Alert) : Prop :=
  ∃ es a', Runs.run (AlertStage.step true) es a = some a' ∧ s'.Follows a' ∧
    a'.flushed.map Prod.snd = a.flushed.map Prod.snd ++ handed ∧
    a'.accepted.map Prod.snd = a.accepted.map Prod.snd ++ received

section simulation

variable {previewActions : Alert → List String} {s s' : CaseSystem} {a : AlertStage}

theorem follows_start (b : Backend) : (start b).Follows .start :=
  ⟨rfl, rfl, rfl, nofun, iff_of_false Bool.false_ne_true nofun, fun _ => rfl⟩

/-- A step of the batcher leaves the worker alone. -/
theorem Follows.batched {a' : AlertStage} (h : s.Follows a) (hworker : s'.worker = s.worker)
    (hworker' : a'.worker = a.worker) (hchannel : a'.channel = a.channel)
    (hbuffer : a'.buffer.map Prod.snd = s'.buffer) (hflushing : s'.batcher.isFlushing = true → s'.buffer = [])
    (hended : a'.batcherEnded = true ↔ s'.batcher = .ended)
    (hdb : s'.batcher ≠ .ended → a'.dbChannel.map Prod.snd = s'.dbChannel) : s'.Follows a' :=
  ⟨hchannel.trans h.channel, by rw [hworker, hworker']; exact h.worker, hbuffer, hflushing, hended, hdb⟩

/-- A step of the worker leaves the batcher alone. -/
theorem Follows.worked {a' : AlertStage} (h : s.Follows a) (hbatcher : s'.batcher = s.batcher)
    (hsbuffer : s'.buffer = s.buffer) (hchannel : a'.channel = [])
    (hworker : WorkerFollows a'.worker s'.worker) (hbuffer : a'.buffer = a.buffer)
    (hended : a'.batcherEnded = a.batcherEnded)
    (hdb : s.batcher ≠ .ended → a'.dbChannel.map Prod.snd = s'.dbChannel) : s'.Follows a' := by
  refine ⟨hchannel, hworker, ?_, ?_, ?_, ?_⟩
  · rw [hbuffer, hsbuffer]
    exact h.buffer
  · rw [hbatcher, hsbuffer]
    exact h.flushing
  · rw [hended, hbatcher]
    exact h.ended
  · rw [hbatcher]
    exact hdb

/-- What the stage does first neither hands over nor accepts. -/
theorem Goes.after {a₁ : AlertStage} {es : List AlertEvent} {handed received : List Alert}
    (hrun : Runs.run (AlertStage.step true) es a = some a₁) (hflushed : a₁.flushed = a.flushed)
    (haccepted : a₁.accepted = a.accepted) (h : Goes a₁ s' handed received) : Goes a s' handed received := by
  obtain ⟨es', a', hrun', hfollows, hhanded, hreceived⟩ := h
  exact ⟨es ++ es', a', Runs.run_append.mpr ⟨a₁, hrun, hrun'⟩, hfollows, by rw [hhanded, hflushed],
    by rw [hreceived, haccepted]⟩

theorem Follows.goes (h : s'.Follows a) : Goes a s' [] [] :=
  ⟨[], a, rfl, h, (List.append_nil _).symm, (List.append_nil _).symm⟩

/-- The worker has offered or saved the alert: the stage finishes, unless a case is opened. -/
theorem Follows.handled {alert : Alert} (h : { s with worker := .searching alert }.Follows a) :
    Goes a { s with worker := handled previewActions alert } [] [] := by
  have hworker : a.worker = .finishing := h.worker
  unfold CaseSystem.handled
  split_ifs
  · exact Follows.goes { h with worker := hworker }
  · have hfinish : Runs.run (AlertStage.step true) [.finish] a = some { a with worker := .receiving } := by
      simp [Runs.run, AlertStage.step, hworker]
    exact Goes.after hfinish rfl rfl (Follows.goes { h with worker := rfl })

theorem receive_goes (h : s.Follows a) (hworker : s.worker = .idle) (alert : Alert) :
    Goes a { s with worker := .offering alert } [] [alert] := by
  have hreceiving : a.worker = .receiving := by
    have := h.worker
    rwa [hworker] at this
  have hreceive : Runs.run (AlertStage.step true) [.send alert, .receive] a = some { a with
      worker := .handling (false, alert)
      accepted := a.accepted ++ [(false, alert)] } := by
    simp [Runs.run, AlertStage.step, hreceiving, h.channel, AlertStage.channelCapacity]
  refine ⟨_, _, hreceive, { h with worker := ⟨false, rfl⟩ }, (List.append_nil _).symm, ?_⟩
  exact List.map_append

/-- The stage finds room exactly when the system does. -/
theorem Follows.hasRoom_iff (h : s.Follows a) :
    a.hasRoom = true ↔ s.batcher ≠ .ended ∧ s.dbChannel.length < AlertStage.dbCapacity := by
  have hended := h.ended
  unfold AlertStage.hasRoom
  rw [Bool.and_eq_true_iff, decide_eq_true_iff]
  by_cases hbatcher : s.batcher = .ended
  · rw [hended.mpr hbatcher]
    exact iff_of_false (fun hroom => nomatch hroom.1) fun hroom => hroom.1 hbatcher
  · have hup : a.batcherEnded = false := Bool.eq_false_iff.mpr fun hdown => hbatcher (hended.mp hdown)
    rw [hup, ← h.dbChannel hbatcher, List.length_map]
    exact and_congr_left' (iff_of_true rfl hbatcher)

theorem offer_goes (h : s.Follows a) {alert : Alert} (hworker : s.worker = .offering alert)
    (hstep : stageStep previewActions s .offer = some s') : Goes a s' [] [] := by
  obtain ⟨marked, hhandling⟩ : ∃ marked, a.worker = .handling (marked, alert) := by
    have hfollows := h.worker
    rwa [hworker] at hfollows
  let offered : AlertStage := { a with
    worker := .finishing
    dbChannel := if a.hasRoom then a.dbChannel ++ [(marked, alert)] else a.dbChannel }
  have hoffer : Runs.run (AlertStage.step true) [.offer] a = some offered := by
    simp [Runs.run, AlertStage.step, hhandling, offered]
  refine Goes.after hoffer rfl rfl ?_
  by_cases hroom : a.hasRoom = true
  · obtain ⟨hup, hlength⟩ := h.hasRoom_iff.mp hroom
    have hs' : s' = { s with
        dbChannel := s.dbChannel ++ [alert]
        worker := handled previewActions alert } := by
      unfold stageStep step at hstep
      rw [hworker] at hstep
      cases hbatcher : s.batcher with
      | ended => exact absurd hbatcher hup
      | collecting => simpa [hbatcher, hlength] using hstep.symm
      | flushing env stopping phase => simpa [hbatcher, hlength] using hstep.symm
    subst hs'
    refine Follows.handled (s := { s with dbChannel := s.dbChannel ++ [alert] })
      (h.worked rfl rfl h.channel rfl rfl rfl fun _ => ?_)
    simp [offered, hroom, h.dbChannel hup]
  · have hfull : s.batcher ≠ .ended → ¬ s.dbChannel.length < AlertStage.dbCapacity := fun hup hlength =>
      hroom (h.hasRoom_iff.mpr ⟨hup, hlength⟩)
    have hs' : s' = { s with worker := .searching alert } := by
      unfold stageStep step at hstep
      rw [hworker] at hstep
      cases hbatcher : s.batcher with
      | ended => simpa [hbatcher] using hstep.symm
      | collecting => simpa [hbatcher, hfull (by simp [hbatcher])] using hstep.symm
      | flushing env stopping phase => simpa [hbatcher, hfull (by simp [hbatcher])] using hstep.symm
    subst hs'
    refine Follows.goes (h.worked rfl rfl h.channel rfl rfl rfl fun hup => ?_)
    simp [offered, hroom, h.dbChannel hup]

theorem Follows.up (h : s.Follows a) (hbatcher : s.batcher ≠ .ended) : a.batcherEnded = false :=
  Bool.eq_false_iff.mpr fun hdown => hbatcher (h.ended.mp hdown)

/-- A batcher without a buffer ends, or goes on collecting. -/
theorem afterFlush_goes (h : s.Follows a) (hbatcher : s.batcher ≠ .ended) (hbuffer : s.buffer = [])
    (stopping : Bool) : Goes a { s with batcher := afterFlush stopping } [] [] := by
  have hempty : a.buffer = [] := List.map_eq_nil_iff.mp (h.buffer.trans hbuffer)
  have hup := h.up hbatcher
  cases stopping with
  | false =>
      refine Follows.goes (h.batched rfl rfl rfl h.buffer (fun _ => hbuffer) ?_ fun _ => h.dbChannel hbatcher)
      exact iff_of_false (ne_true_of_eq_false hup) (by simp [afterFlush])
  | true =>
      refine ⟨[.stopBatcher], { a.flush with batcherEnded := true, dbChannel := [] }, ?_, ?_, ?_⟩
      · simp [Runs.run, AlertStage.step, hup]
      · exact h.batched rfl rfl rfl hbuffer.symm (fun _ => hbuffer) (iff_of_true rfl rfl) fun hne => absurd rfl hne
      · simp [AlertStage.flush, hempty]

/-- The buffer goes to a flush. -/
theorem Follows.startFlush (h : s.Follows a) (hbatcher : s.batcher ≠ .ended) (hbuffer : s.buffer ≠ [])
    (env : BatchEnv) (stopping : Bool) : (s.startFlush env stopping).Follows a.flush := by
  unfold CaseSystem.startFlush
  rw [if_neg (by rwa [List.isEmpty_iff])]
  exact h.batched rfl rfl rfl rfl (fun _ => rfl) (iff_of_false (ne_true_of_eq_false (h.up hbatcher)) nofun)
    fun _ => h.dbChannel hbatcher

theorem startFlush_goes (h : s.Follows a) (hbatcher : s.batcher ≠ .ended) (env : BatchEnv)
    (stopping : Bool) : Goes a (s.startFlush env stopping) s.buffer [] := by
  by_cases hbuffer : s.buffer = []
  · unfold CaseSystem.startFlush
    rw [if_pos (List.isEmpty_iff.mpr hbuffer)]
    rw [hbuffer]
    have hgoes := afterFlush_goes h hbatcher hbuffer stopping
    rwa [hbuffer] at hgoes
  · refine ⟨[.tick], a.flush, ?_, h.startFlush hbatcher hbuffer env stopping, ?_, (List.append_nil _).symm⟩
    · simp [Runs.run, AlertStage.step, h.up hbatcher]
    · simp [AlertStage.flush, h.buffer]

theorem collect_goes (h : s.Follows a) (hbatcher : s.batcher = .collecting) {alert : Alert}
    {dbChannel : List Alert} (hdb : s.dbChannel = alert :: dbChannel) {env : BatchEnv}
    (hstep : stageStep previewActions s (.collect env) = some s') :
    Goes a s' (s.drained (.collect env)) [] := by
  have hne : s.batcher ≠ .ended := by
    rw [hbatcher]
    nofun
  have hitems := h.dbChannel hne
  rw [hdb] at hitems
  obtain ⟨item, items, ha, hitem, hrest⟩ := List.map_eq_cons_iff.mp hitems
  let s₁ : CaseSystem := { s with dbChannel := dbChannel, buffer := s.buffer ++ [alert] }
  let a₁ : AlertStage := { a with dbChannel := items, buffer := a.buffer ++ [item] }
  have hfollows : s₁.Follows a₁ := by
    refine h.batched rfl rfl rfl ?_ ?_ h.ended fun _ => hrest
    · simp [s₁, a₁, h.buffer, hitem]
    · intro hflushing
      have hcollecting : s.batcher.isFlushing = true := hflushing
      rw [hbatcher] at hcollecting
      cases hcollecting
  have hlength : a₁.buffer.length = s.buffer.length + 1 := by
    rw [← h.buffer]
    simp [a₁]
  have hcollect : AlertStage.step true a .collect =
      some (if AlertStage.batchSize ≤ s.buffer.length + 1 then a₁.flush else a₁) := by
    rw [← hlength]
    simp [AlertStage.step, h.up hne, ha, a₁]
  have hs' : s' = if AlertStage.batchSize ≤ s.buffer.length + 1 then s₁.startFlush env false else s₁ := by
    unfold stageStep step at hstep
    rw [hbatcher, hdb] at hstep
    simpa [s₁, hbatcher, eq_comm] using hstep
  subst hs'
  dsimp only [drained]
  split_ifs at hcollect ⊢ with hfull
  · refine ⟨[.collect], a₁.flush, Runs.run_cons.mpr ⟨_, hcollect, rfl⟩, ?_, ?_, (List.append_nil _).symm⟩
    · exact hfollows.startFlush hne (List.append_ne_nil_of_right_ne_nil _ (List.cons_ne_nil _ _)) env false
    · simp [AlertStage.flush, a₁, h.buffer, hitem, hdb]
  · have hrun : Runs.run (AlertStage.step true) [.collect] a = some a₁ := Runs.run_cons.mpr ⟨_, hcollect, rfl⟩
    exact Goes.after hrun rfl rfl hfollows.goes

/-- A command of a flush leaves the batcher in the flush, or ends it. -/
theorem flushCommand_batcher (s : CaseSystem) (env : BatchEnv) (stopping fault : Bool) (phase : FlushPhase) :
    ∃ b batcher, s.flushCommand env stopping fault phase = { s with backend := b, batcher } ∧
      (batcher = afterFlush stopping ∨ batcher.isFlushing = true) := by
  rcases phase with (_ | ⟨g, rest⟩) | ⟨creates, updates, rest⟩ | ⟨updates, rest⟩
  · exact ⟨s.backend, _, rfl, .inl rfl⟩
  · exact ⟨s.backend, _, rfl, .inr rfl⟩
  · unfold flushCommand
    dsimp only
    cases s.table.createAlertsBatch fault creates with
    | none => exact ⟨s.backend, _, rfl, .inl rfl⟩
    | some t => exact ⟨_, _, rfl, .inr rfl⟩
  · exact ⟨_, _, rfl, .inr rfl⟩

theorem command_goes (h : s.Follows a) {env : BatchEnv} {stopping fault : Bool} {phase : FlushPhase}
    (hbatcher : s.batcher = .flushing env stopping phase) :
    Goes a (s.flushCommand env stopping fault phase) [] [] := by
  have hne : s.batcher ≠ .ended := by
    rw [hbatcher]
    nofun
  have hbuffer : s.buffer = [] := h.flushing (by rw [hbatcher]; rfl)
  obtain ⟨b, batcher, hs', rfl | hflushing⟩ := flushCommand_batcher s env stopping fault phase
  · rw [hs']
    exact afterFlush_goes (s := { s with backend := b }) { h with } hne hbuffer stopping
  · rw [hs']
    refine Follows.goes (h.batched rfl rfl rfl h.buffer (fun _ => hbuffer) ?_ fun _ => h.dbChannel hne)
    refine iff_of_false (ne_true_of_eq_false (h.up hne)) ?_
    rintro rfl
    cases hflushing

theorem closeCase_goes (h : s.Follows a) (hworker : a.worker = .finishing) (panicked : Bool) :
    Goes a { s with worker := if panicked then .ended else .idle } [] [] := by
  cases panicked with
  | false =>
      have hfinish : Runs.run (AlertStage.step true) [.finish] a = some { a with worker := .receiving } := by
        simp [Runs.run, AlertStage.step, hworker]
      exact Goes.after hfinish rfl rfl (Follows.goes { h with worker := rfl })
  | true =>
      have hstop : Runs.run (AlertStage.step true) [.finish, .stopWorker] a =
          some { a with worker := .ended, channel := [] } := by
        simp [Runs.run, AlertStage.step, hworker]
      exact Goes.after hstop rfl rfl (Follows.goes { h with worker := rfl, channel := rfl })

/-- **A step** of the system is followed by the stage. -/
theorem step_followed (h : s.Follows a) {e : CaseSystemEvent}
    (hstep : stageStep previewActions s e = some s') : Goes a s' (s.drained e) (received e) := by
  have hworker := h.worker
  cases e with
  | receive alert =>
      dsimp only [stageStep, step] at hstep
      cases hw : s.worker <;> simp only [hw, reduceCtorEq, Option.some.injEq] at hstep
      subst hstep
      exact receive_goes h hw alert
  | offer =>
      cases hw : s.worker with
      | offering alert => exact offer_goes h hw hstep
      | _ => simp [step, hw] at hstep
  | search order fault =>
      dsimp only [stageStep, step] at hstep
      cases hw : s.worker <;> simp only [hw, reduceCtorEq, Option.some.injEq] at hstep
      subst hstep
      rw [hw] at hworker
      exact Follows.goes { h with worker := hworker }
  | save fault =>
      dsimp only [stageStep, step] at hstep
      cases hw : s.worker <;> simp only [hw, reduceCtorEq, Option.some.injEq] at hstep
      subst hstep
      rw [hw] at hworker
      exact Follows.handled (s := s.withTable _) { h with worker := hworker }
  | openCase tick =>
      dsimp only [stageStep, step] at hstep
      split at hstep
      · next alert c k hw =>
          obtain rfl := Option.some.inj hstep
          rw [hw] at hworker
          exact Follows.goes { h with worker := hworker }
      · cases hstep
  | closeCase =>
      dsimp only [stageStep, step] at hstep
      split at hstep
      · next hw =>
          obtain rfl := Option.some.inj hstep
          rw [hw] at hworker
          exact closeCase_goes h hworker true
      · next hw =>
          obtain rfl := Option.some.inj hstep
          rw [hw] at hworker
          exact closeCase_goes h hworker false
      · cases hstep
  | stopWorker =>
      dsimp only [stageStep, step] at hstep
      cases hw : s.worker <;> simp only [hw, reduceCtorEq, Option.some.injEq] at hstep
      subst hstep
      rw [hw] at hworker
      have hreceiving : a.worker = .receiving := hworker
      have hstop : Runs.run (AlertStage.step true) [.stopWorker] a =
          some { a with worker := .ended, channel := [] } := by
        simp [Runs.run, AlertStage.step, hreceiving]
      exact Goes.after hstop rfl rfl (Follows.goes { h with worker := rfl, channel := rfl })
  | collect env =>
      have hstep' := hstep
      dsimp only [stageStep, step] at hstep'
      split at hstep'
      · next alert dbChannel hbatcher hdb => exact collect_goes h hbatcher hdb hstep
      · cases hstep'
  | tick env =>
      dsimp only [stageStep, step] at hstep
      split at hstep
      · next hbatcher =>
          obtain rfl := Option.some.inj hstep
          exact startFlush_goes h (by simp [hbatcher]) env false
      · cases hstep
  | stopBatcher env =>
      dsimp only [stageStep, step] at hstep
      split at hstep
      · next hbatcher =>
          obtain rfl := Option.some.inj hstep
          exact startFlush_goes h (by simp [hbatcher]) env true
      · cases hstep
  | command fault =>
      dsimp only [stageStep, step] at hstep
      split at hstep
      · next env stopping phase hbatcher =>
          obtain rfl := Option.some.inj hstep
          exact command_goes h hbatcher
      · cases hstep

theorem Follows.run (h : s.Follows a) {es : List CaseSystemEvent}
    (hrun : Runs.run (stageStep previewActions) es s = some s') :
    Goes a s' (drainedBy previewActions es s) (es.flatMap received) := by
  induction es generalizing s a with
  | nil =>
      obtain rfl := Option.some.inj hrun
      exact h.goes
  | cons e es ih =>
      obtain ⟨s₁, hstep, hrest⟩ := Runs.run_cons.mp hrun
      obtain ⟨es₁, a₁, hrun₁, hfollows, hhanded, hreceived⟩ := step_followed h hstep
      obtain ⟨es₂, a₂, hrun₂, hfollows', hhanded', hreceived'⟩ := ih hfollows hrest
      refine ⟨es₁ ++ es₂, a₂, Runs.run_append.mpr ⟨a₁, hrun₁, hrun₂⟩, hfollows', ?_, ?_⟩
      · rw [hhanded', hhanded, drainedBy, hstep, List.append_assoc]
      · rw [hreceived', hreceived, List.flatMap_cons, List.append_assoc]

/-- **Every run** of the system is followed by a run of the stage, once shutdown is signalled. -/
theorem run_followed (b : Backend) {es : List CaseSystemEvent}
    (hrun : Runs.run (stageStep previewActions) es (start b) = some s) :
    ∃ es' a, Runs.run (AlertStage.step true) es' .start = some a ∧ s.Follows a ∧
      a.flushed.map Prod.snd = drainedBy previewActions es (start b) ∧
      a.accepted.map Prod.snd = es.flatMap received :=
  (follows_start b).run hrun

/-- **Alerts are flushed in order.**  Whatever commands fail and however the tasks are interleaved, the alerts
that flushes have taken out of the buffer, then those in the buffer, and as long as the batcher runs those in
`db_tx`, are alerts that the worker has received, in this order and none more often. -/
theorem flushed_inOrder (b : Backend) {es : List CaseSystemEvent}
    (hrun : Runs.run (stageStep previewActions) es (start b) = some s) :
    (drainedBy previewActions es (start b) ++ s.buffer).Sublist (es.flatMap received) ∧
    (s.batcher ≠ .ended →
      (drainedBy previewActions es (start b) ++ s.buffer ++ s.dbChannel).Sublist (es.flatMap received)) := by
  obtain ⟨es', a, hstage, hfollows, hflushed, haccepted⟩ := run_followed b hrun
  have hqueue := (AlertStage.queue_of_run hstage).map Prod.snd
  unfold AlertStage.queue at hqueue
  rw [haccepted, List.map_append, List.map_append, List.map_append, List.map_append, hflushed,
    hfollows.buffer] at hqueue
  constructor
  · refine List.Sublist.trans ?_ hqueue
    simp only [List.append_assoc, List.append_sublist_append_left]
    exact List.sublist_append_left _ _
  · intro hbatcher
    rw [hfollows.dbChannel hbatcher] at hqueue
    refine List.Sublist.trans ?_ hqueue
    simp only [List.append_assoc, List.append_sublist_append_left]
    exact List.sublist_append_left _ _

end simulation

end CaseSystem

/-- Two alerts are received and flushed. -/
theorem mergedAlerts_inOrder : ∃ s, caseRun mergedAlerts = some s ∧
    (CaseSystem.drainedBy (fun _ => []) mergedAlerts (.start emptyBackend) ++ s.buffer).Sublist
      (mergedAlerts.flatMap CaseSystem.received) := by
  have hflushed : ((caseRun mergedAlerts).any fun s => decide s.Flushed) = true := by decide +kernel
  obtain ⟨s, hs, -⟩ := (Option.any_eq_true _ _).mp hflushed
  exact ⟨s, hs, (CaseSystem.flushed_inOrder emptyBackend hs).1⟩

end MiniSiem
