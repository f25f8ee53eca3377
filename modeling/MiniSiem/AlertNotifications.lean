import MiniSiem.AlertsTable
import MiniSiem.Engine
import MiniSiem.Lib.Phases

/-! # How often an alert is announced

An alert is announced on the channel `alert_tx` and to Slack, by `process_log`, by `handle_alert`, by the
full-channel path of the alert worker and by the task `alert_handler`, which passes the alerts of
the channel on to Slack.

* **Programs.**  `enqueueAlerts` is the loop of `process_log` over the alerts of one log, with its retries,
  the DLQ and `handle_alert`; `alertWorkerTurn` is the worker on one message.  They run beside each other as
  a pool, while messages are lost and delivered twice, the database fails, and others write to it.
* **Notices.**  A notice is an alert that is announced, with the alert that it goes back to, since the
  worker announces the row that it has updated.
* **Once.**  `notified_once`: while the worker finds the channel to the batcher free, and `alert_handler`
  gets no alert that `handle_alert` has passed on to Slack, there is one notice of each
  alert at most on the channel and one at Slack.  `storedFallback_notifiedTwice` is a run that has two. -/

namespace MiniSiem

open Atomic

/-- An alert that is announced, and the alert that this goes back to. -/
structure Notice where
  cause : Uuid
  alert : Alert

/-- The notice goes back to the alert with this identifier, or announces it. -/
def Notice.concerns (n : Notice) (id : Uuid) : Bool := n.cause == id || n.alert.id == id

inductive AlertTopic
  | alerts
  | dlq
deriving DecidableEq

inductive NotifyCmd
  | send (topic : AlertTopic) (alert : Alert)
  | createAlert (alert : Alert)
  | getOpenAlertsByIp (tenantId sourceIp : String)
  | updateAlert (alert : Alert)
  | slack (notice : Notice)
  | broadcast (notice : Notice)
  | receive
  | offer (alert : Alert)
  | handlerTurn
  | stopHandler

abbrev NotifyCmd.Reply : NotifyCmd → Type
  | .send _ _ | .createAlert _ | .updateAlert _ | .offer _ => Bool
  | .getOpenAlertsByIp _ _ => Option (List Alert)
  | .receive => Option Alert
  | .slack _ | .broadcast _ | .handlerTurn | .stopHandler => Unit

abbrev NotifyM (α : Type) := Prog NotifyCmd NotifyCmd.Reply α

/-! ### The programs -/

namespace NotifyM

/-- One command. -/
def single (c : NotifyCmd) : NotifyM c.Reply := Prog.call c Prog.ret

/-- `send_alert_with_retry`, with so many attempts left. -/
def sendAlertWithRetry (alert : Alert) : ℕ → NotifyM Bool
  | 0 => single (.send .dlq alert)
  | attempts + 1 => (single (.send .alerts alert)).bind fun sent =>
      if sent then .ret true else sendAlertWithRetry alert attempts

/-- `alerting::manager::handle_alert`, up to the response engine. -/
def handleAlert (alert : Alert) : NotifyM Unit :=
  (single (.createAlert alert)).bind fun created =>
    if created then single (.slack ⟨alert.id, alert⟩) else .ret ()

/-- The first attempt and three retries, then the DLQ; when all of them fail, the alert is handled at
once. -/
def enqueueAlert (alert : Alert) : NotifyM Unit :=
  (sendAlertWithRetry alert 4).bind fun sent =>
    if sent then single (.broadcast ⟨alert.id, alert⟩)
    else (handleAlert alert).bind fun _ => single (.broadcast ⟨alert.id, alert⟩)

/-- The loop of `process_log` over its alerts. -/
def enqueueAlerts : List Alert → NotifyM Unit
  | [] => .ret ()
  | alert :: rest => (enqueueAlert alert).bind fun _ => enqueueAlerts rest

/-- The path of the alert worker when the channel to the batcher is full. -/
def writeAtOnce (alert : Alert) : NotifyM Unit :=
  (single (.getOpenAlertsByIp alert.tenantId alert.sourceIp)).bind fun found =>
    match found with
    | some (existing :: _) =>
        let existing := { existing with
          lastSeen := alert.lastSeen
          eventsCount := existing.eventsCount + alert.eventsCount }
        (single (.updateAlert existing)).bind fun _ => single (.broadcast ⟨alert.id, existing⟩)
    | some [] | none =>
        (single (.createAlert alert)).bind fun _ => single (.broadcast ⟨alert.id, alert⟩)

/-- The alert worker on one message of the topic. -/
def alertWorkerTurn : NotifyM Unit :=
  (single .receive).bind fun message =>
    match message with
    | none => .ret ()
    | some alert => (single (.offer alert)).bind fun offered =>
        if offered then .ret () else writeAtOnce alert

end NotifyM

/-- The alerts that `process_log` collects from the results of the candidate rules. -/
def alertsToProcess {ε : Type} (results : List (Except ε (Option Alert))) : List Alert :=
  results.filterMap fun result =>
    match result with
    | .ok (some alert) => some alert
    | .ok none | .error _ => none

/-- A fold that appends what an element gives. -/
theorem foldl_filterMap {α β γ : Type} {f : γ × List β → α → γ × List β} {p : α → Option β}
    (h : ∀ acc a, (f acc a).2 = acc.2 ++ (p a).toList) (as : List α) (acc : γ × List β) :
    (as.foldl f acc).2 = acc.2 ++ as.filterMap p := by
  induction as generalizing acc with
  | nil => exact (List.append_nil _).symm
  | cons a as ih =>
      rw [List.foldl_cons, ih, h, List.append_assoc, List.filterMap_cons]
      cases p a <;> rfl

theorem processLog_alerts {ε : Type} (idx : RuleIndex) (eval : CompiledRule → Except ε (Option Alert))
    (stats : LocalStats) (log : Log) :
    (processLog idx eval stats log).2 = alertsToProcess ((candidateRules idx log).map eval) := by
  unfold processLog alertsToProcess
  rw [List.filterMap_map]
  refine (foldl_filterMap (fun acc r => ?_) _ _).trans (List.nil_append _)
  rw [Function.comp_apply]
  cases eval r with
  | error e => exact (List.append_nil _).symm
  | ok result =>
      cases result with
      | none => exact (List.append_nil _).symm
      | some alert => rfl

/-- A call of `process_log` with the results of its rules, a turn of the alert worker or of
`alert_handler`, or the signal that stops `alert_handler`. -/
inductive NotifyTask
  | processLog (results : List (Except String (Option Alert)))
  | alertWorker
  | alertHandler
  | shutdown

namespace NotifyTask

/-- The alerts raised by rules. -/
def raised : NotifyTask → List Alert
  | processLog results => alertsToProcess results
  | alertWorker | alertHandler | shutdown => []

def prog : NotifyTask → NotifyM Unit
  | processLog results => NotifyM.enqueueAlerts (alertsToProcess results)
  | alertWorker => NotifyM.alertWorkerTurn
  | alertHandler => NotifyM.single .handlerTurn
  | shutdown => NotifyM.single .stopHandler

end NotifyTask

/-! ### The commands -/

/-- What becomes of a command: whether a message arrives, and whether this is known; a failure of the
database, what others have made of its table, and the order of its rows; which message is received, and
whether it is received again; the room in the channel to the batcher. -/
structure NotifyEnv where
  acked : Bool
  delivered : Bool
  fault : Bool
  others : AlertsTable → AlertsTable
  rowOrder : RowOrder
  message : ℕ
  again : Bool
  room : Bool

/-- The topic of the alerts, their table, the notices on the channel since the start, those that
`alert_handler` has not received yet, whether it runs, and the calls of `send_alert` of Slack. -/
structure NotifyStore where
  topic : List Alert
  alerts : AlertsTable
  broadcasts : List Notice
  inbox : List Notice
  handlerUp : Bool
  slackCalls : List Notice

/-- The channel of the alerts, made for 1000 and rounded up. -/
def alertCapacity : ℕ := 1024

namespace NotifyStore

/-- Nothing was sent yet. -/
def start (alerts : AlertsTable) : NotifyStore := ⟨[], alerts, [], [], true, []⟩

/-- The task `alert_handler` receives nothing more. -/
def stopHandler (s : NotifyStore) : NotifyStore := { s with inbox := [], handlerUp := false }

/-- A notice on the channel.  When `alert_handler` lags behind its capacity, the pattern of its
`select!` fails once, and it waits for the shutdown from then on. -/
def broadcast (s : NotifyStore) (n : Notice) : NotifyStore :=
  let s := { s with broadcasts := s.broadcasts ++ [n] }
  if s.handlerUp then
    if s.inbox.length < alertCapacity then { s with inbox := s.inbox ++ [n] } else s.stopHandler
  else s

def handlerTurn (s : NotifyStore) : NotifyStore :=
  match s.handlerUp, s.inbox with
  | true, n :: inbox => { s with inbox, slackCalls := s.slackCalls ++ [n] }
  | _, _ => s

def exec (env : NotifyEnv) : (c : NotifyCmd) → NotifyStore → c.Reply × NotifyStore
  | .send .alerts alert, s =>
      (env.acked, if env.acked || env.delivered then { s with topic := s.topic ++ [alert] } else s)
  | .send .dlq _, s => (env.acked, s)
  | .createAlert alert, s =>
      let t := env.others s.alerts
      match t.createAlert env.fault alert with
      | some t' => (true, { s with alerts := t' })
      | none => (false, { s with alerts := t })
  | .getOpenAlertsByIp tenantId sourceIp, s =>
      let t := env.others s.alerts
      (t.getOpenAlertsByIp env.rowOrder env.fault tenantId sourceIp, { s with alerts := t })
  | .updateAlert alert, s =>
      let t := env.others s.alerts
      match t.updateAlert env.fault alert with
      | some t' => (true, { s with alerts := t' })
      | none => (false, { s with alerts := t })
  | .slack n, s => ((), { s with slackCalls := s.slackCalls ++ [n] })
  | .broadcast n, s => ((), s.broadcast n)
  | .receive, s =>
      (s.topic[env.message]?,
        if env.again then s else { s with topic := s.topic.eraseIdx env.message })
  | .offer _, s => (env.room, s)
  | .handlerTurn, s => ((), s.handlerTurn)
  | .stopHandler, s => ((), s.stopHandler)

end NotifyStore

abbrev NotifyPool (ι : Type) := Pool ι NotifyCmd NotifyCmd.Reply Unit NotifyStore

section claims

variable {ι : Type}

/-- The tasks before their first command. -/
def notifyPool (tasks : ι → NotifyTask) (alerts : AlertsTable) : NotifyPool ι :=
  ⟨fun i => (tasks i).prog, .start alerts⟩

/-- No two alerts that the rules raise have one identifier. -/
structure DistinctAlerts (tasks : ι → NotifyTask) : Prop where
  nodup : ∀ i, ((tasks i).raised.map (·.id)).Nodup
  apart : ∀ i j, ∀ a ∈ (tasks i).raised, ∀ b ∈ (tasks j).raised, a.id = b.id → i = j

/-- At most one notice of the alert on the channel, and one at Slack. -/
structure NotifiedOnce (id : Uuid) (s : NotifyStore) : Prop where
  broadcasts : s.broadcasts.countP (·.concerns id) ≤ 1
  slack : s.slackCalls.countP (·.concerns id) ≤ 1

/-- The worker finds room in the channel to the batcher, and when an alert is announced that Slack has
got, `alert_handler` has stopped. -/
def Unrepeated (s : NotifyPool ι) (e : ι × NotifyEnv) : Prop :=
  match (s.progs e.1).next with
  | some (.offer _) => e.2.room = true
  | some (.broadcast n) => (∃ m ∈ s.store.slackCalls, m.cause = n.cause) → s.store.handlerUp = false
  | _ => True

end claims

/-! ### What one alert goes through -/

/-- Nothing was announced of the alert, Slack has got it, or it is on the channel. -/
inductive NotifyPhase
  | fresh
  | slacked
  | announced
deriving DecidableEq

namespace NotifyPhase

variable {id : Uuid}

/-- The commands that announce the alert take it on; every notice is of the alert it goes back to. -/
def advance (id : Uuid) (q : NotifyPhase) : NotifyCmd → Option NotifyPhase
  | .slack n =>
      if n.cause = n.alert.id then
        if n.cause = id then (if q = .fresh then some .slacked else none) else some q
      else none
  | .broadcast n =>
      if n.cause = n.alert.id then
        if n.cause = id then (if q = .announced then none else some .announced) else some q
      else none
  | .send _ _ | .createAlert _ | .getOpenAlertsByIp _ _ | .updateAlert _ | .receive | .offer _
  | .handlerTurn | .stopHandler => some q

theorem advance_slack {n : Notice} {q q' : NotifyPhase} (h : advance id q (.slack n) = some q') :
    n.cause = n.alert.id ∧ (n.cause = id ∧ q = fresh ∧ q' = slacked ∨ n.cause ≠ id ∧ q' = q) := by
  dsimp only [advance] at h
  split_ifs at h with hcause hid hfresh
  · exact ⟨hcause, Or.inl ⟨hid, hfresh, (Option.some.inj h).symm⟩⟩
  · exact ⟨hcause, Or.inr ⟨hid, (Option.some.inj h).symm⟩⟩

theorem advance_broadcast {n : Notice} {q q' : NotifyPhase}
    (h : advance id q (.broadcast n) = some q') :
    n.cause = n.alert.id ∧
      (n.cause = id ∧ q ≠ announced ∧ q' = announced ∨ n.cause ≠ id ∧ q' = q) := by
  dsimp only [advance] at h
  split_ifs at h with hcause hid hannounced
  · exact ⟨hcause, Or.inl ⟨hid, hannounced, (Option.some.inj h).symm⟩⟩
  · exact ⟨hcause, Or.inr ⟨hid, (Option.some.inj h).symm⟩⟩

/-- The worker finds room in the channel to the batcher. -/
def Roomy : (c : NotifyCmd) → c.Reply → Prop
  | .offer _, offered => offered = true
  | _, _ => True

/-- The program announces the alert as the phase has it. -/
abbrev Announces {α : Type} (id : Uuid) (Q : NotifyPhase → Prop) (q : NotifyPhase) (p : NotifyM α) :
    Prop := p.Obeys (advance id) Roomy (fun q _ => Q q) q

/-- A command that announces nothing. -/
theorem announces_single {c : NotifyCmd} {q w : NotifyPhase} {Q : NotifyPhase → Prop}
    (h : advance id q c = some w) (hQ : Q w) : Announces id Q q (NotifyM.single c) :=
  Prog.obeys_call _ h fun _ _ => Prog.obeys_ret hQ

theorem sendAlertWithRetry_announces (a : Alert) (attempts : ℕ) (q : NotifyPhase) :
    Announces id (· = q) q (NotifyM.sendAlertWithRetry a attempts) := by
  induction attempts with
  | zero => exact announces_single rfl rfl
  | succ attempts ih =>
      refine (announces_single (Q := (· = q)) rfl rfl).bind fun q' sent hq => ?_
      subst hq
      cases sent with
      | false => exact ih
      | true => exact Prog.obeys_ret rfl

theorem enqueueAlert_announces (a : Alert) :
    Announces a.id (· = announced) fresh (NotifyM.enqueueAlert a) := by
  have hannounce : ∀ q, q ≠ announced → Announces a.id (· = announced) q
      (NotifyM.single (.broadcast ⟨a.id, a⟩)) := by
    intro q hq
    refine announces_single (w := announced) ?_ rfl
    simp only [advance, if_true, if_neg hq]
  refine (sendAlertWithRetry_announces a 4 fresh).bind fun q sent hq => ?_
  subst hq
  cases sent with
  | true => exact hannounce _ (by decide)
  | false =>
      have hslack : Announces a.id (· ≠ announced) fresh (NotifyM.handleAlert a) := by
        refine (announces_single (Q := (· = fresh)) rfl rfl).bind fun q created hq => ?_
        subst hq
        cases created with
        | false => exact Prog.obeys_ret (by decide)
        | true => exact announces_single (w := slacked) (by simp [advance]) (by decide)
      exact hslack.bind fun q _ hq => hannounce q hq

/-- What is done with another alert leaves the phase as it is. -/
theorem enqueueAlert_other {a : Alert} (h : a.id ≠ id) (q : NotifyPhase) :
    Announces id (· = q) q (NotifyM.enqueueAlert a) := by
  have hannounce : Announces id (· = q) q (NotifyM.single (.broadcast ⟨a.id, a⟩)) :=
    announces_single (w := q) (by simp [advance, h]) rfl
  refine (sendAlertWithRetry_announces a 4 q).bind fun q' sent hq => ?_
  subst hq
  cases sent with
  | true => exact hannounce
  | false =>
      refine Prog.Obeys.bind (Q := fun q'' _ => q'' = q') ?_ fun q'' _ hq => ?_
      · refine (announces_single (Q := (· = q')) rfl rfl).bind fun q'' created hq => ?_
        subst hq
        cases created with
        | false => exact Prog.obeys_ret rfl
        | true => exact announces_single (w := q'') (by simp [advance, h]) rfl
      · subst hq
        exact hannounce

theorem enqueueAlerts_other {alerts : List Alert} (h : ∀ a ∈ alerts, a.id ≠ id) (q : NotifyPhase) :
    Announces id (· = q) q (NotifyM.enqueueAlerts alerts) := by
  induction alerts with
  | nil => exact Prog.obeys_ret rfl
  | cons a rest ih =>
      obtain ⟨ha, hrest⟩ := List.forall_mem_cons.mp h
      refine (enqueueAlert_other ha q).bind fun q' _ hq => ?_
      subst hq
      exact ih hrest

/-- The loop announces each of its alerts once. -/
theorem enqueueAlerts_announces {alerts : List Alert} (hnodup : (alerts.map (·.id)).Nodup) :
    Announces id (fun _ => True) fresh (NotifyM.enqueueAlerts alerts) := by
  induction alerts with
  | nil => exact Prog.obeys_ret trivial
  | cons a rest ih =>
      obtain ⟨hnew, hrest⟩ := List.nodup_cons.mp hnodup
      by_cases ha : a.id = id
      · subst ha
        refine (enqueueAlert_announces a).bind fun q _ _ => ?_
        refine (enqueueAlerts_other (fun b hb hid => hnew ?_) q).imp fun _ _ _ => trivial
        exact List.mem_map.mpr ⟨b, hb, hid⟩
      · refine (enqueueAlert_other ha fresh).bind fun q _ hq => ?_
        subst hq
        exact ih hrest

theorem alertWorkerTurn_announces (q : NotifyPhase) :
    Announces id (fun _ => True) q NotifyM.alertWorkerTurn := by
  refine (announces_single (Q := (· = q)) rfl rfl).bind fun q' message hq => ?_
  cases message with
  | none => exact Prog.obeys_ret trivial
  | some a =>
      refine Prog.obeys_call _ rfl fun offered hroom => ?_
      obtain rfl : offered = true := hroom
      exact Prog.obeys_ret trivial

/-- A task that does not raise the alert does not announce it. -/
theorem prog_other {task : NotifyTask} (h : ∀ a ∈ task.raised, a.id ≠ id) (q : NotifyPhase) :
    Announces id (fun _ => True) q task.prog := by
  cases task with
  | processLog results => exact (enqueueAlerts_other h q).imp fun _ _ _ => trivial
  | alertWorker => exact alertWorkerTurn_announces q
  | alertHandler => exact announces_single rfl trivial
  | shutdown => exact announces_single rfl trivial

theorem prog_announces {task : NotifyTask} (hnodup : (task.raised.map (·.id)).Nodup) :
    Announces id (fun _ => True) fresh task.prog := by
  cases task with
  | processLog results => exact enqueueAlerts_announces hnodup
  | alertWorker => exact alertWorkerTurn_announces fresh
  | alertHandler => exact announces_single rfl trivial
  | shutdown => exact announces_single rfl trivial

/-- What the phase says of the store. -/
def Counts (id : Uuid) (s : NotifyStore) : NotifyPhase → Prop
  | fresh => s.broadcasts.countP (·.concerns id) = 0 ∧
      s.inbox.countP (·.concerns id) + s.slackCalls.countP (·.concerns id) = 0
  | slacked => s.broadcasts.countP (·.concerns id) = 0 ∧ s.inbox.countP (·.concerns id) = 0 ∧
      s.slackCalls.countP (·.concerns id) = 1
  | announced => s.broadcasts.countP (·.concerns id) ≤ 1 ∧
      s.inbox.countP (·.concerns id) + s.slackCalls.countP (·.concerns id) ≤ 1

/-- Only the task that raises the alert may still announce it, and the store is as its phase says. -/
structure Tracks {ι : Type} (id : Uuid) (own : ι) (phases : ι → NotifyPhase) (s : NotifyStore) : Prop where
  others : ∀ i, i ≠ own → phases i = announced
  counts : Counts id s (phases own)
  causes : ∀ n ∈ s.inbox ++ s.slackCalls, n.cause = n.alert.id

/-! ### Steps -/

section steps

variable {ι : Type} [DecidableEq ι] {own : ι}

theorem Counts.once {s : NotifyStore} {q : NotifyPhase} (h : Counts id s q) : NotifiedOnce id s := by
  cases q with
  | fresh => exact ⟨by rw [h.1]; exact Nat.zero_le 1, by have := h.2; omega⟩
  | slacked => exact ⟨by rw [h.1]; exact Nat.zero_le 1, h.2.2.le⟩
  | announced => exact ⟨h.1, by have := h.2; omega⟩

theorem Notice.concerns_eq {n : Notice} (h : n.cause = n.alert.id) :
    n.concerns id = decide (n.cause = id) := by
  unfold Notice.concerns
  rw [← h, Bool.or_self]
  rfl

/-- A store with as many notices of the alert on the channel, and no more on their way. -/
structure Settles (id : Uuid) (s s' : NotifyStore) : Prop where
  broadcasts : s'.broadcasts.countP (·.concerns id) = s.broadcasts.countP (·.concerns id)
  total : s'.inbox.countP (·.concerns id) + s'.slackCalls.countP (·.concerns id) ≤
    s.inbox.countP (·.concerns id) + s.slackCalls.countP (·.concerns id)
  slack : s.slackCalls.countP (·.concerns id) ≤ s'.slackCalls.countP (·.concerns id)

theorem Counts.settles {s s' : NotifyStore} {q : NotifyPhase} (h : Counts id s q)
    (hsettles : Settles id s s') : Counts id s' q := by
  obtain ⟨hbroadcasts, htotal, hslack⟩ := hsettles
  unfold Counts at h ⊢
  rw [hbroadcasts]
  cases q with
  | fresh => exact ⟨h.1, by have := h.2; omega⟩
  | slacked => exact ⟨h.1, by have := h.2; omega, by have := h.2; omega⟩
  | announced => exact ⟨h.1, by have := h.2; omega⟩

/-- A step that takes the phase of its program nowhere. -/
theorem Tracks.stays {s s' : NotifyStore} {phases : ι → NotifyPhase} {i : ι}
    (h : Tracks id own phases s) (hsettles : Settles id s s')
    (hcauses : ∀ n ∈ s'.inbox ++ s'.slackCalls, n.cause = n.alert.id) :
    Tracks id own (Function.update phases i (phases i)) s' := by
  rw [Function.update_eq_self]
  exact ⟨h.others, h.counts.settles hsettles, hcauses⟩

/-- The commands that announce nothing leave the notices as they are. -/
theorem Tracks.silent {s s' : NotifyStore} {phases : ι → NotifyPhase} {i : ι}
    (h : Tracks id own phases s) (hbroadcasts : s'.broadcasts = s.broadcasts)
    (hinbox : s'.inbox = s.inbox) (hslack : s'.slackCalls = s.slackCalls) :
    Tracks id own (Function.update phases i (phases i)) s' := by
  refine h.stays ⟨by rw [hbroadcasts], by rw [hinbox, hslack], by rw [hslack]⟩ ?_
  rw [hinbox, hslack]
  exact h.causes

theorem Tracks.handlerTurn {s : NotifyStore} {phases : ι → NotifyPhase} {i : ι}
    (h : Tracks id own phases s) : Tracks id own (Function.update phases i (phases i)) s.handlerTurn := by
  have hcauses := h.causes
  unfold NotifyStore.handlerTurn
  split
  · rename_i n inbox hinbox
    rw [hinbox] at hcauses
    refine h.stays ⟨rfl, ?_, ?_⟩ fun m hm => hcauses m ?_
    · simp only [hinbox, List.countP_append, List.countP_cons, List.countP_nil]
      omega
    · simp only [List.countP_append]
      omega
    · simp only [List.mem_append, List.mem_cons, List.not_mem_nil, or_false] at hm ⊢
      tauto
  · exact h.silent rfl rfl rfl

theorem Tracks.stopHandler {s : NotifyStore} {phases : ι → NotifyPhase} {i : ι}
    (h : Tracks id own phases s) : Tracks id own (Function.update phases i (phases i)) s.stopHandler := by
  refine h.stays ⟨rfl, ?_, le_rfl⟩ fun n hn => h.causes n (List.mem_append_right _ hn)
  exact Nat.add_le_add_right (Nat.zero_le _) _

theorem countP_snoc_other {n : Notice} (h : n.cause = n.alert.id) (hid : n.cause ≠ id)
    (notices : List Notice) :
    (notices ++ [n]).countP (·.concerns id) = notices.countP (·.concerns id) := by
  rw [List.countP_append, List.countP_singleton, Notice.concerns_eq h, if_neg (by simpa using hid),
    Nat.add_zero]

theorem countP_snoc_own {n : Notice} (h : n.cause = n.alert.id) (hid : n.cause = id)
    (notices : List Notice) :
    (notices ++ [n]).countP (·.concerns id) = notices.countP (·.concerns id) + 1 := by
  rw [List.countP_append, List.countP_singleton, Notice.concerns_eq h, if_pos (by simpa using hid)]

/-- The notices on the channel are those before and the new one, and Slack hears of none. -/
theorem broadcast_spec (s : NotifyStore) (n : Notice) :
    (s.broadcast n).broadcasts = s.broadcasts ++ [n] ∧
      (s.broadcast n).slackCalls = s.slackCalls := by
  unfold NotifyStore.broadcast
  dsimp only
  split_ifs
  · exact ⟨rfl, rfl⟩
  · exact ⟨rfl, rfl⟩
  · exact ⟨rfl, rfl⟩

/-- The handler gets the new notice at most. -/
theorem broadcast_inbox (s : NotifyStore) (n : Notice) :
    List.Sublist (s.broadcast n).inbox (s.inbox ++ [n]) := by
  unfold NotifyStore.broadcast
  dsimp only
  split_ifs
  · exact List.Sublist.refl _
  · exact List.nil_sublist _
  · exact List.sublist_append_left _ _

/-- A handler that has stopped gets nothing. -/
theorem broadcast_inbox_of_down {s : NotifyStore} (hdown : s.handlerUp = false) (n : Notice) :
    (s.broadcast n).inbox = s.inbox := by
  unfold NotifyStore.broadcast
  dsimp only
  rw [hdown]
  rfl

/-- A task that may still announce the alert is the one that raises it. -/
theorem Tracks.eq_own {s : NotifyStore} {phases : ι → NotifyPhase} {i : ι} (h : Tracks id own phases s)
    (hi : phases i ≠ announced) : i = own := by
  by_contra hne
  exact hi (h.others i hne)

/-- A list of notices with one more, or without some. -/
theorem causes_snoc {notices notices' : List Notice} {n : Notice} (h : ∀ m ∈ notices, m.cause = m.alert.id)
    (hn : n.cause = n.alert.id) (hsub : ∀ m ∈ notices', m ∈ notices ∨ m = n) :
    ∀ m ∈ notices', m.cause = m.alert.id := by
  intro m hm
  rcases hsub m hm with hold | rfl
  · exact h m hold
  · exact hn

theorem Tracks.slack {s : NotifyStore} {phases : ι → NotifyPhase} {i : ι} {n : Notice}
    {q : NotifyPhase} (h : Tracks id own phases s) (hadvance : advance id (phases i) (.slack n) = some q) :
    Tracks id own (Function.update phases i q) { s with slackCalls := s.slackCalls ++ [n] } := by
  obtain ⟨hcause, hphase⟩ := advance_slack hadvance
  have hcauses : ∀ m ∈ s.inbox ++ (s.slackCalls ++ [n]), m.cause = m.alert.id := by
    refine causes_snoc h.causes hcause fun m hm => ?_
    rwa [← List.append_assoc, List.mem_append, List.mem_singleton] at hm
  rcases hphase with ⟨hid, hfresh, rfl⟩ | ⟨hid, rfl⟩
  · obtain rfl := h.eq_own (by rw [hfresh]; decide)
    have hcounts := h.counts
    rw [hfresh] at hcounts
    obtain ⟨hbroadcasts, hnone⟩ := hcounts
    have hslack := countP_snoc_own hcause hid s.slackCalls
    refine ⟨fun j hj => ?_, ?_, hcauses⟩
    · rw [Function.update_of_ne hj]
      exact h.others j hj
    · rw [Function.update_self]
      exact ⟨hbroadcasts, Nat.eq_zero_of_add_eq_zero_right hnone, hslack.trans (by omega)⟩
  · have hslack := countP_snoc_other hcause hid s.slackCalls
    exact h.stays ⟨rfl, (congrArg (_ + ·) hslack).le, hslack.ge⟩ hcauses

theorem Counts.broadcasts_eq_zero {s : NotifyStore} {q : NotifyPhase} (h : Counts id s q)
    (hq : q ≠ announced) : s.broadcasts.countP (·.concerns id) = 0 := by
  cases q with
  | fresh => exact h.1
  | slacked => exact h.1
  | announced => exact (hq rfl).elim

omit [DecidableEq ι] in
/-- An alert that Slack has got is in one of its calls. -/
theorem Tracks.exists_slackCall {s : NotifyStore} {phases : ι → NotifyPhase}
    (h : Tracks id own phases s) (hq : phases own = slacked) :
    ∃ m ∈ s.slackCalls, m.cause = id := by
  have hcounts := h.counts
  rw [hq] at hcounts
  obtain ⟨-, -, hone⟩ := hcounts
  obtain ⟨m, hm, hconcerns⟩ := List.countP_pos_iff.mp (by rw [hone]; exact Nat.one_pos)
  rw [Notice.concerns_eq (h.causes m (List.mem_append_right _ hm)), decide_eq_true_eq] at hconcerns
  exact ⟨m, hm, hconcerns⟩

omit [DecidableEq ι] in
/-- The handler and Slack have the announced alert once at most. -/
theorem Tracks.announced_le {s : NotifyStore} {phases : ι → NotifyPhase} {n : Notice}
    (h : Tracks id own phases s) (hcause : n.cause = n.alert.id) (hid : n.cause = id)
    (hphase : phases own ≠ announced)
    (hok : (∃ m ∈ s.slackCalls, m.cause = n.cause) → s.handlerUp = false) :
    (s.broadcast n).inbox.countP (·.concerns id) + s.slackCalls.countP (·.concerns id) ≤ 1 := by
  have hcounts := h.counts
  cases hq : phases own with
  | announced => exact (hphase hq).elim
  | fresh =>
      rw [hq] at hcounts
      obtain ⟨-, hnone⟩ := hcounts
      have hin := (broadcast_inbox s n).countP_le (p := (·.concerns id))
      rw [countP_snoc_own hcause hid] at hin
      omega
  | slacked =>
      -- Slack has got the alert, so the handler has stopped
      obtain ⟨m, hm, hmid⟩ := h.exists_slackCall hq
      rw [broadcast_inbox_of_down (hok ⟨m, hm, hmid.trans hid.symm⟩)]
      rw [hq] at hcounts
      obtain ⟨-, hnone, hone⟩ := hcounts
      omega

theorem Tracks.broadcast {s : NotifyStore} {phases : ι → NotifyPhase} {i : ι} {n : Notice}
    {q : NotifyPhase} (h : Tracks id own phases s)
    (hadvance : advance id (phases i) (.broadcast n) = some q)
    (hok : (∃ m ∈ s.slackCalls, m.cause = n.cause) → s.handlerUp = false) :
    Tracks id own (Function.update phases i q) (s.broadcast n) := by
  obtain ⟨hbroadcasts, hslack⟩ := broadcast_spec s n
  obtain ⟨hcause, hphase⟩ := advance_broadcast hadvance
  have hcauses : ∀ m ∈ (s.broadcast n).inbox ++ (s.broadcast n).slackCalls, m.cause = m.alert.id := by
    refine causes_snoc h.causes hcause fun m hm => ?_
    rw [hslack] at hm
    rcases List.mem_append.mp hm with hin | hslackCall
    · have hold := (broadcast_inbox s n).subset hin
      rw [List.mem_append, List.mem_singleton] at hold
      rcases hold with hold | hnew
      · exact Or.inl (List.mem_append_left _ hold)
      · exact Or.inr hnew
    · exact Or.inl (List.mem_append_right _ hslackCall)
  rcases hphase with ⟨hid, hphase, rfl⟩ | ⟨hid, rfl⟩
  · obtain rfl := h.eq_own hphase
    refine ⟨fun j hj => ?_, ?_, hcauses⟩
    · rw [Function.update_of_ne hj]
      exact h.others j hj
    · rw [Function.update_self]
      constructor
      · rw [hbroadcasts, countP_snoc_own hcause hid, h.counts.broadcasts_eq_zero hphase]
      · rw [hslack]
        exact h.announced_le hcause hid hphase hok
  · have hin := (broadcast_inbox s n).countP_le (p := (·.concerns id))
    rw [countP_snoc_other hcause hid] at hin
    refine h.stays ⟨?_, ?_, ?_⟩ hcauses
    · rw [hbroadcasts]
      exact countP_snoc_other hcause hid s.broadcasts
    · rw [hslack]
      exact Nat.add_le_add_right hin _
    · rw [hslack]

theorem tracks_step {s : NotifyPool ι} {e : ι × NotifyEnv} (hok : Unrepeated s e)
    {phases : ι → NotifyPhase} {c : NotifyCmd} {q : NotifyPhase} (h : Tracks id own phases s.store)
    (hnext : (s.progs e.1).next = some c) (hadvance : advance id (phases e.1) c = some q) :
    Roomy c (NotifyStore.exec e.2 c s.store).1 ∧
      Tracks id own (Function.update phases e.1 q) (NotifyStore.exec e.2 c s.store).2 := by
  unfold Unrepeated at hok
  rw [hnext] at hok
  cases c with
  | send topic alert =>
      obtain rfl := Option.some.inj hadvance
      refine ⟨trivial, ?_⟩
      cases topic with
      | dlq => exact h.silent rfl rfl rfl
      | alerts =>
          dsimp only [NotifyStore.exec]
          split_ifs
          · exact h.silent rfl rfl rfl
          · exact h.silent rfl rfl rfl
  | createAlert alert =>
      obtain rfl := Option.some.inj hadvance
      refine ⟨trivial, ?_⟩
      dsimp only [NotifyStore.exec]
      split
      · exact h.silent rfl rfl rfl
      · exact h.silent rfl rfl rfl
  | getOpenAlertsByIp tenantId sourceIp =>
      obtain rfl := Option.some.inj hadvance
      exact ⟨trivial, h.silent rfl rfl rfl⟩
  | updateAlert alert =>
      obtain rfl := Option.some.inj hadvance
      refine ⟨trivial, ?_⟩
      dsimp only [NotifyStore.exec]
      split
      · exact h.silent rfl rfl rfl
      · exact h.silent rfl rfl rfl
  | slack n => exact ⟨trivial, h.slack hadvance⟩
  | broadcast n => exact ⟨trivial, h.broadcast hadvance hok⟩
  | receive =>
      obtain rfl := Option.some.inj hadvance
      refine ⟨trivial, ?_⟩
      dsimp only [NotifyStore.exec]
      split_ifs
      · exact h.silent rfl rfl rfl
      · exact h.silent rfl rfl rfl
  | offer alert =>
      obtain rfl := Option.some.inj hadvance
      exact ⟨hok, h.silent rfl rfl rfl⟩
  | handlerTurn =>
      obtain rfl := Option.some.inj hadvance
      exact ⟨trivial, h.handlerTurn⟩
  | stopHandler =>
      obtain rfl := Option.some.inj hadvance
      exact ⟨trivial, h.stopHandler⟩

end steps

end NotifyPhase

section runs

open NotifyPhase

variable {ι : Type} [DecidableEq ι] {tasks : ι → NotifyTask} {alerts : AlertsTable}
  {es : List (ι × NotifyEnv)}

/-- **At most one notification** of an alert, while no step repeats one. -/
theorem notified_once (hdistinct : DistinctAlerts tasks)
    (hok : Pool.Meets NotifyStore.exec Unrepeated es (notifyPool tasks alerts)) {i : ι} {a : Alert}
    (ha : a ∈ (tasks i).raised) :
    NotifiedOnce a.id (Pool.run NotifyStore.exec es (notifyPool tasks alerts)).store := by
  have hstart : (notifyPool tasks alerts).Phased (advance a.id) Roomy (fun _ _ => True)
      (Tracks a.id i) := by
    refine ⟨fun j => if j = i then .fresh else .announced, fun j => ?_, ?_⟩
    · dsimp only
      split_ifs with hj
      · exact prog_announces (hdistinct.nodup j)
      · refine prog_other (fun b hb hid => hj ?_) announced
        exact hdistinct.apart j i b hb a ha hid
    · exact ⟨fun j hj => if_neg hj, by rw [if_pos rfl]; exact ⟨rfl, rfl⟩, fun n hn => by cases hn⟩
  obtain ⟨phases, -, htracks⟩ := hstart.run hok fun s e hs phases c q h hnext hadvance =>
    tracks_step hs h hnext hadvance
  exact Counts.once htracks.counts

end runs

/-! ### An outage of Kafka -/

/-- Kafka and the database are there, and the channel to the batcher has room. -/
def NotifyEnv.up : NotifyEnv where
  acked := true
  delivered := true
  fault := false
  others := id
  rowOrder := .newestFirst
  message := 0
  again := false
  room := true

/-- What is sent arrives, but the producer is told that it did not. -/
def NotifyEnv.unacked : NotifyEnv := { NotifyEnv.up with acked := false }

/-- The channel to the batcher is full. -/
def NotifyEnv.full : NotifyEnv := { NotifyEnv.up with room := false }

def scanAlert : Alert :=
  .new "a1" (.ofSeconds 0) "t1" "r1" "port scan" .low "port scan" "10.0.0.1" []

/-- A log that raises one alert, the alert worker and `alert_handler`. -/
def oneScan : Fin 3 → NotifyTask
  | 0 => .processLog [.ok (some scanAlert)]
  | 1 => .alertWorker
  | 2 => .alertHandler

def noStoredAlerts : AlertsTable := ⟨[], List.nodup_nil⟩

theorem oneScan_distinct : DistinctAlerts oneScan := by
  have hfirst : ∀ i, ∀ a ∈ (oneScan i).raised, i = 0 := by
    intro i a ha
    match i with
    | 0 => rfl
    | 1 => cases ha
    | 2 => cases ha
  refine ⟨by decide, fun i j a ha b hb _ => ?_⟩
  rw [hfirst i a ha, hfirst j b hb]

/-- The alert goes through Kafka to the batcher. -/
theorem oneScan_notifiedOnce : NotifiedOnce "a1" (Pool.run NotifyStore.exec
    [(0, .up), (0, .up), (2, .up), (1, .up), (1, .up)] (notifyPool oneScan noStoredAlerts)).store := by
  refine notified_once (a := scanAlert) (i := 0) oneScan_distinct ?_ (List.mem_singleton_self _)
  exact ⟨trivial, fun ⟨_, hm, _⟩ => (List.not_mem_nil hm).elim, trivial, trivial, rfl, trivial⟩

/-- The four attempts and the DLQ fail, as far as the producer knows, and the alert is stored, passed on
to Slack and announced at once; `alert_handler` passes it on again, and the worker announces it again. -/
theorem storedFallback_notifiedTwice : ¬ ∀ (tasks : Fin 3 → NotifyTask) (alerts : AlertsTable)
    (es : List (Fin 3 × NotifyEnv)), DistinctAlerts tasks → ∀ i, ∀ a ∈ (tasks i).raised,
    NotifiedOnce a.id (Pool.run NotifyStore.exec es (notifyPool tasks alerts)).store := by
  intro h
  have honce := h oneScan noStoredAlerts
    [(0, .unacked), (0, .unacked), (0, .unacked), (0, .unacked), (0, .unacked), (0, .up), (0, .up), (0, .up),
      (2, .up), (1, .up), (1, .full), (1, .up), (1, .up), (1, .up)] oneScan_distinct 0 scanAlert
    (List.mem_singleton_self _)
  have hbroadcasts := honce.broadcasts
  revert hbroadcasts
  decide +kernel

end MiniSiem
