import MiniSiem.IngestTraces
import MiniSiem.Lib.Ledger

/-! # From an accepted log to the topic

The requests of the ingest endpoints, the ingest queue, and the task `kafka_ingest` of `main.rs`, which
sends the logs of the queue to Kafka with `send_log`.

* **Responses.**  Whatever the replies, the logs that a response calls accepted are those that the
  request has put on the queue (`acceptedIds_of_trace`).
* **System.**  Any number of requests run beside the task, one command at a time.  The queue takes a log
  while it has room and the task holds the receiver; what is left in it when the task ends is gone.
  The registry of tasks may abort the task once its grace period is over.
* **Delivery.**  The task reports a failed `send_log` in the log only, and never publishes to the
  dead-letter topic.  `accepted_delivered`: the logs accepted are delivered when the task has ended if no
  `send_log` fails, nothing comes into the queue after the drain has found it empty, and the task is
  not aborted with logs at hand. -/

namespace MiniSiem

open Atomic.Prog

namespace Ingest

/-! ### Accepted logs -/

def IngestBody.entries : IngestBody → List IngestLogResponse
  | .log response => [response]
  | .batch responses => responses
  | _ => []

def acceptedOf (entries : List IngestLogResponse) : List Uuid :=
  (entries.filter (·.status = "accepted")).map (·.id)

/-- The logs that the response calls accepted. -/
def acceptedIds (response : IngestResponse) : List Uuid :=
  if response.status = 202 then acceptedOf (IngestBody.entries response.body) else []

/-- The logs that a request has put on the queue. -/
def enqueuedLogs (events : List IngestEvent) : List Log := events.filterMap (·.enqueued)

theorem enqueuedLogs_append (front back : List IngestEvent) :
    enqueuedLogs (front ++ back) = enqueuedLogs front ++ enqueuedLogs back :=
  List.filterMap_append

theorem enqueued_of_quiet {e : IngestEvent} (h : Quiet e) : e.enqueued = none := by
  unfold IngestEvent.enqueued
  split
  · cases h
  · rfl

theorem enqueuedLogs_of_quiet {events : List IngestEvent} (h : ∀ e ∈ events, Quiet e) :
    enqueuedLogs events = [] :=
  List.filterMap_eq_nil_iff.mpr fun e he => enqueued_of_quiet (h e he)

/-- The action of the decision is not the status of an accepted log. -/
def Unaccepted (decision : CostDecision) : Prop := decision.action ≠ "accepted"

theorem schemaDecision_unaccepted (std : CostText) (policy : TenantDataCostPolicy)
    (log : IngestLogRequest) : Unaccepted (schemaDecision std policy log) := by
  have hkept : Unaccepted (keptDecision std policy log) := (by decide : "keep" ≠ "accepted")
  unfold schemaDecision
  split
  · split
    · exact (by decide : "dropped" ≠ "accepted")
    · exact hkept
  · exact hkept

theorem samplingDecision_unaccepted (std : CostText) (policy : TenantDataCostPolicy)
    (tenantId : String) (log : IngestLogRequest) (pressure : ℚ) {decision : CostDecision}
    (h : Unaccepted decision) : Unaccepted (samplingDecision std policy tenantId log pressure decision) := by
  unfold samplingDecision
  dsimp only
  split
  · exact (by decide : "sampled" ≠ "accepted")
  · exact h

theorem costDecision_unaccepted (std : CostText) (policy : TenantDataCostPolicy) (tenantId : String)
    (log : IngestLogRequest) (pressure : ℚ) :
    Unaccepted (costDecision std policy tenantId log pressure) := by
  have hschema := schemaDecision_unaccepted std policy log
  have hsampling := samplingDecision_unaccepted std policy tenantId log pressure hschema
  unfold costDecision
  dsimp only
  split
  · split
    · exact hsampling
    · exact hsampling
  · split
    · exact hschema
    · exact hschema

theorem readUsage_returns {key : String} {k : UInt64 → IngestProg (Except String CostDecision)}
    {Q : Except String CostDecision → Prop} (herror : ∀ e, Q (.error e)) (hk : ∀ n, Returns Q (k n)) :
    Returns Q (readUsage key k) := by
  refine returns_call fun reply => ?_
  cases reply with
  | error e => exact returns_ret (herror e)
  | ok count => exact hk _

theorem decideAndRecord_returns (std : CostText) (codec : PolicyCodec) (tenantId : String)
    (log : IngestLogRequest) : Returns Unaccepted (decideAndRecord std codec tenantId log) := by
  have hevaluate : Returns (fun result => ∀ decision, result = .ok decision → Unaccepted decision)
      (evaluateCostDecision std codec tenantId log) := by
    refine returns_bind (R := fun _ => True) (fun _ _ _ => trivial) fun loaded _ => ?_
    cases loaded with
    | error e => exact returns_ret fun decision h => by cases h
    | ok policy =>
        refine returns_call fun now => ?_
        refine readUsage_returns (fun _ _ h => by cases h) fun total => ?_
        refine readUsage_returns (fun _ _ h => by cases h) fun ofSource => ?_
        refine readUsage_returns (fun _ _ h => by cases h) fun ofIntegration => ?_
        refine readUsage_returns (fun _ _ h => by cases h) fun ofTeam => ?_
        refine returns_ret fun decision h => ?_
        cases h
        exact costDecision_unaccepted _ _ _ _ _
  refine returns_bind hevaluate fun result hresult => ?_
  refine returns_bind (R := fun _ => True) (fun _ _ _ => trivial) fun _ _ => returns_ret ?_
  cases result with
  | error e => exact (by decide : "keep" ≠ "accepted")
  | ok decision => exact hresult decision rfl

/-! ### Responses and the queue -/

section responses

variable {std : CostText} {codec : PolicyCodec} {eventsPerMinute : UInt64}

theorem acceptedOf_append (front back : List IngestLogResponse) :
    acceptedOf (front ++ back) = acceptedOf front ++ acceptedOf back := by
  unfold acceptedOf
  rw [List.filter_append, List.map_append]

theorem acceptedIds_of_status {response : IngestResponse} (h : response.status ≠ 202) :
    acceptedIds response = [] :=
  if_neg h

/-- The entry of a log that is not kept. -/
theorem acceptedOf_unaccepted (id : Uuid) (now : DateTime) {decision : CostDecision}
    (h : Unaccepted decision) : acceptedOf [entry id now decision decision.action] = [] := by
  unfold acceptedOf
  rw [List.filter_cons_of_neg (by rw [decide_eq_true_iff]; exact h)]
  rfl

/-- What the queue has taken for an entry. -/
theorem ingestItem_accepted {tenantId : String} {now : DateTime} {req : IngestLogRequest}
    {events : List IngestEvent} {response : IngestLogResponse}
    (h : Trace (ingestItem std codec tenantId now req) events (.ok response)) :
    acceptedOf [response] = (enqueuedLogs events).map (·.id) := by
  obtain ⟨logId, rest, rfl, hrest⟩ := trace_call.mp h
  obtain ⟨before, decision, after, rfl, hbefore, hafter⟩ := trace_bind.mp hrest
  have henqueued : enqueuedLogs (⟨.newV4, logId⟩ :: (before ++ after)) = enqueuedLogs after := by
    show enqueuedLogs (before ++ after) = _
    rw [enqueuedLogs_append,
      enqueuedLogs_of_quiet (decideAndRecord_quiet _ _ _ _ _ _ hbefore), List.nil_append]
  rw [henqueued]
  split at hafter
  · obtain ⟨offered, outcome, last, rfl, hsend, hlast⟩ := trace_bind.mp hafter
    rcases enqueueIngestLog_trace hsend with ⟨rfl, rfl⟩ | ⟨reply, failed, rfl, hreply, hstatus, rfl⟩
    · obtain ⟨rfl, hresponse⟩ := trace_ret.mp hlast
      obtain rfl := Except.ok.inj hresponse
      rfl
    · obtain ⟨-, hresponse⟩ := trace_ret.mp hlast
      cases hresponse
  · obtain ⟨rfl, hresponse⟩ := trace_ret.mp hafter
    obtain rfl := Except.ok.inj hresponse
    exact acceptedOf_unaccepted logId now (decideAndRecord_returns _ _ _ _ _ _ hbefore)

theorem ingestItems_accepted {tenantId : String} {now : DateTime} {reqs : List IngestLogRequest}
    {events : List IngestEvent} {responses : List IngestLogResponse}
    (h : Trace (ingestItems std codec tenantId now reqs) events (.ok responses)) :
    acceptedOf responses = (enqueuedLogs events).map (·.id) := by
  induction reqs generalizing events responses with
  | nil =>
      obtain ⟨rfl, hresponses⟩ := trace_ret.mp h
      obtain rfl := Except.ok.inj hresponses
      rfl
  | cons req reqs ih =>
      obtain ⟨item, outcome, rest, rfl, hitem, hrest⟩ := trace_bind.mp h
      cases outcome with
      | error failed =>
          obtain ⟨-, hresponses⟩ := trace_ret.mp hrest
          cases hresponses
      | ok response =>
          obtain ⟨others, outcome, last, rfl, hothers, hlast⟩ := trace_bind.mp hrest
          cases outcome with
          | error failed =>
              obtain ⟨-, hresponses⟩ := trace_ret.mp hlast
              cases hresponses
          | ok responses' =>
              obtain ⟨rfl, hresponses⟩ := trace_ret.mp hlast
              obtain rfl := Except.ok.inj hresponses
              rw [← List.singleton_append, acceptedOf_append, ingestItem_accepted hitem, ih hothers,
                List.append_nil, enqueuedLogs_append, List.map_append]

/-- The rest of a program within its quota, or an error response without accepted logs. -/
theorem withinQuota_accepted {tenantId : String} {cost : ℕ} {k : IngestProg IngestResponse}
    {events : List IngestEvent} {response : IngestResponse}
    (h : Trace (withinQuota eventsPerMinute tenantId cost k) events response) :
    acceptedIds response = [] ∨ ∃ rest, enqueuedLogs events = enqueuedLogs rest ∧
      Trace k rest response := by
  obtain ⟨reply, rest, rfl, hrest⟩ := trace_call.mp h
  match reply with
  | .ok true => exact Or.inr ⟨rest, rfl, hrest⟩
  | .ok false =>
      obtain ⟨-, rfl⟩ := trace_ret.mp hrest
      exact Or.inl rfl
  | .error e =>
      obtain ⟨-, rfl⟩ := trace_ret.mp hrest
      exact Or.inl rfl

theorem ingestBatch_accepted {claims : Option Claims} {req : BatchIngestRequest}
    {events : List IngestEvent} {response : IngestResponse}
    (h : Trace (ingestBatch std codec eventsPerMinute claims req) events response) :
    acceptedIds response = [] ∨ acceptedIds response = (enqueuedLogs events).map (·.id) := by
  unfold ingestBatch at h
  cases claims with
  | none =>
      obtain ⟨-, rfl⟩ := trace_ret.mp h
      exact Or.inl rfl
  | some claims =>
      rcases withinQuota_accepted h with hrejected | ⟨rest, henqueued, hrest⟩
      · exact Or.inl hrejected
      · obtain ⟨now, body, rfl, hbody⟩ := trace_call.mp hrest
        obtain ⟨items, outcome, last, rfl, hitems, hlast⟩ := trace_bind.mp hbody
        cases outcome with
        | error failed =>
            obtain ⟨-, rfl⟩ := trace_ret.mp hlast
            refine Or.inl (acceptedIds_of_status ?_)
            rw [(ingestItems_enqueues hitems).1]
            decide
        | ok responses =>
            refine Or.inr ?_
            have hfinish := enqueuedLogs_of_quiet (finishBatch_quiet _ _ _ _ hlast)
            have hbatch : enqueuedLogs (⟨.now, now⟩ :: (items ++ last)) = enqueuedLogs items := by
              show enqueuedLogs (items ++ last) = _
              rw [enqueuedLogs_append, hfinish, List.append_nil]
            rw [henqueued, hbatch, finishBatch_response hlast, ← ingestItems_accepted hitems]
            rfl

theorem ingestLog_accepted {claims : Option Claims} {req : IngestLogRequest}
    {events : List IngestEvent} {response : IngestResponse}
    (h : Trace (ingestLog std codec eventsPerMinute claims req) events response) :
    acceptedIds response = [] ∨ acceptedIds response = (enqueuedLogs events).map (·.id) := by
  unfold ingestLog at h
  cases claims with
  | none =>
      obtain ⟨-, rfl⟩ := trace_ret.mp h
      exact Or.inl rfl
  | some claims =>
      obtain ⟨logId, body, rfl, hbody⟩ := trace_call.mp h
      obtain ⟨now, quota, rfl, hquota⟩ := trace_call.mp hbody
      rcases withinQuota_accepted hquota with hrejected | ⟨rest, henqueued, hrest⟩
      · exact Or.inl hrejected
      · obtain ⟨before, decision, after, rfl, hbefore, hafter⟩ := trace_bind.mp hrest
        have hquiet := enqueuedLogs_of_quiet (decideAndRecord_quiet _ _ _ _ _ _ hbefore)
        split at hafter
        · obtain ⟨offered, outcome, last, rfl, hsend, hlast⟩ := trace_bind.mp hafter
          rcases enqueueIngestLog_trace hsend with ⟨rfl, rfl⟩ | ⟨reply, failed, rfl, hreply, hstatus, rfl⟩
          · obtain ⟨beats, u, counting, rfl, hbeats, hcounting⟩ := trace_bind.mp hlast
            obtain ⟨counter, v, final, rfl, hcounter, hfinal⟩ := trace_bind.mp hcounting
            obtain ⟨rfl, rfl⟩ := trace_ret.mp hfinal
            refine Or.inr ?_
            show [logId] = (enqueuedLogs quota).map (·.id)
            rw [henqueued, enqueuedLogs_append, enqueuedLogs_append, enqueuedLogs_append, hquiet,
              enqueuedLogs_of_quiet (heartbeats_quiet _ _ hbeats), enqueuedLogs_append,
              enqueuedLogs_of_quiet (issue_quiet _ _ _ hcounter)]
            rfl
          · obtain ⟨-, rfl⟩ := trace_ret.mp hlast
            refine Or.inl (acceptedIds_of_status ?_)
            rw [hstatus]
            decide
        · obtain ⟨-, rfl⟩ := trace_ret.mp hafter
          exact Or.inl (acceptedOf_unaccepted logId now (decideAndRecord_returns _ _ _ _ _ _ hbefore))

end responses

/-! ### The system -/

def queueCapacity : ℕ := 10000

inductive Request
  | log (claims : Option Claims) (req : IngestLogRequest)
  | batch (claims : Option Claims) (req : BatchIngestRequest)

/-- Where the task `kafka_ingest` waits. -/
inductive Task (ι : Type)
  | receiving
  | sending (item : ι × Log) (draining : Bool)
  | draining
  | drained
  | ended

/-- The requests, the queue and the task, with the logs that the queue has taken and those that are on the
topic, each with its request. -/
structure System (ι : Type) where
  progs : ι → IngestProg IngestResponse
  queue : List (ι × Log)
  task : Task ι
  enqueued : List (ι × Log)
  delivered : List (ι × Log)

inductive Event (ι : Type)
  | request (i : ι) (answer : (c : IngestCmd) → c.Reply)
  | receive
  | signal
  | tryReceive
  | kafka (ok : Bool)
  | finish
  | aborted

section system

variable {ι : Type}

def Task.isEnded : Task ι → Bool
  | .ended => true
  | _ => false

/-- The queue can reply so. -/
def System.permits (s : System ι) : IngestEvent → Bool
  | ⟨.send _, .sent⟩ => !s.task.isEnded && s.queue.length < queueCapacity
  | ⟨.send _, .closed⟩ => s.task.isEnded
  | ⟨.send _, .timedOut⟩ => !s.task.isEnded
  | _ => true

/-- The log that a command of a request has put on the queue. -/
def offered (i : ι) (e : IngestEvent) : List (ι × Log) := e.enqueued.toList.map fun log => (i, log)

def step [DecidableEq ι] (s : System ι) : Event ι → Option (System ι)
  | .request i answer =>
      match s.progs i with
      | .ret _ => none
      | .call c k =>
          if s.permits ⟨c, answer c⟩ then
            some { s with
              progs := Function.update s.progs i (k (answer c))
              queue := s.queue ++ offered i ⟨c, answer c⟩
              enqueued := s.enqueued ++ offered i ⟨c, answer c⟩ }
          else none
  | .receive =>
      match s.task, s.queue with
      | .receiving, item :: queue => some { s with task := .sending item false, queue }
      | _, _ => none
  | .signal =>
      match s.task with
      | .receiving => some { s with task := .draining }
      | _ => none
  | .tryReceive =>
      match s.task, s.queue with
      | .draining, item :: queue => some { s with task := .sending item true, queue }
      | .draining, [] => some { s with task := .drained }
      | _, _ => none
  | .kafka ok =>
      match s.task with
      | .sending item draining =>
          some { s with
            task := if draining then .draining else .receiving
            delivered := if ok then s.delivered ++ [item] else s.delivered }
      | _ => none
  | .finish =>
      match s.task with
      | .drained => some { s with task := .ended, queue := [] }
      | _ => none
  | .aborted => if s.task.isEnded then none else some { s with task := .ended, queue := [] }

def System.hand (s : System ι) : List (ι × Log) :=
  match s.task with
  | .sending item _ => [item]
  | _ => []

def ledger : Runs.Ledger (System ι) (ι × Log) where
  entered := fun s => s.enqueued
  left := fun s => s.delivered
  pending := fun s => s.hand + s.queue

/-- `send_log` succeeds, nothing has come into the queue since the drain found it empty, and the task is
aborted only with nothing at hand. -/
def Reliable (s : System ι) : Event ι → Prop
  | .kafka ok => ok = true
  | .finish => s.queue = []
  | .aborted => s.hand = [] ∧ s.queue = []
  | _ => True

/-! ### Steps -/

variable {s s' : System ι} {e : Event ι}

theorem posts_of_lists (came went lost : List (ι × Log)) (hentered : s'.enqueued = s.enqueued ++ came)
    (hleft : s'.delivered = s.delivered ++ went)
    (hpending : (s.hand : Multiset (ι × Log)) + s.queue + came = s'.hand + s'.queue + went + lost) :
    ledger.Posts s s' lost :=
  Runs.Ledger.posts_of_lists (fun front back => (Multiset.coe_add front back).symm) hentered hleft
    hpending

/-- A step of the task that takes a log from the queue, or only moves it. -/
theorem posts_of_move (hentered : s'.enqueued = s.enqueued) (hleft : s'.delivered = s.delivered)
    (hpending : s.hand ++ s.queue = s'.hand ++ s'.queue) : ledger.Posts s s' 0 := by
  refine posts_of_lists [] [] [] (hentered.trans (List.append_nil _).symm)
    (hleft.trans (List.append_nil _).symm) ?_
  simp only [Multiset.coe_nil, add_zero, Multiset.coe_add, hpending]

/-- The logs at hand are lost. -/
theorem posts_of_drop (hentered : s'.enqueued = s.enqueued) (hleft : s'.delivered = s.delivered)
    (hhand : s'.hand = []) (hqueue : s'.queue = []) : ledger.Posts s s' (s.hand ++ s.queue) := by
  refine posts_of_lists [] [] _ (hentered.trans (List.append_nil _).symm)
    (hleft.trans (List.append_nil _).symm) ?_
  rw [hhand, hqueue]
  simp only [Multiset.coe_nil, add_zero, zero_add, Multiset.coe_add]

variable [DecidableEq ι]

theorem posts_of_step (h : step s e = some s') :
    ∃ lost, ledger.Posts s s' lost ∧ (lost = 0 ↔ Reliable s e) := by
  obtain ⟨progs, queue, task, enqueued, delivered⟩ := s
  unfold step at h
  cases e with
  | request i answer =>
      dsimp only at h
      split at h
      · cases h
      · split at h
        · obtain rfl := Option.some.inj h
          refine ⟨0, posts_of_lists _ [] [] rfl (List.append_nil _).symm ?_, iff_of_true rfl trivial⟩
          simp only [System.hand, Multiset.coe_nil, ← Multiset.coe_add, add_zero, add_assoc]
        · cases h
  | receive =>
      dsimp only at h
      split at h
      · obtain rfl := Option.some.inj h
        exact ⟨0, posts_of_move rfl rfl rfl, iff_of_true rfl trivial⟩
      · cases h
  | signal =>
      dsimp only at h
      split at h
      · obtain rfl := Option.some.inj h
        exact ⟨0, posts_of_move rfl rfl rfl, iff_of_true rfl trivial⟩
      · cases h
  | tryReceive =>
      dsimp only at h
      split at h
      · obtain rfl := Option.some.inj h
        exact ⟨0, posts_of_move rfl rfl rfl, iff_of_true rfl trivial⟩
      · obtain rfl := Option.some.inj h
        exact ⟨0, posts_of_move rfl rfl rfl, iff_of_true rfl trivial⟩
      · cases h
  | kafka ok =>
      dsimp only at h
      split at h
      · rename_i item draining
        obtain rfl := Option.some.inj h
        have hhand (delivered : List (ι × Log)) : System.hand
            ⟨progs, queue, if draining then .draining else .receiving, enqueued, delivered⟩ = [] := by
          cases draining <;> rfl
        cases ok with
        | true =>
            refine ⟨0, posts_of_lists [] [item] [] (List.append_nil _).symm rfl ?_,
              iff_of_true rfl rfl⟩
            rw [hhand]
            show ([item] : Multiset (ι × Log)) + queue + 0 = 0 + queue + [item] + 0
            rw [add_zero, add_zero, zero_add, add_comm]
        | false =>
            refine ⟨([item] : List (ι × Log)), posts_of_lists [] [] [item] (List.append_nil _).symm
              (List.append_nil _).symm ?_, iff_of_false ?_ Bool.false_ne_true⟩
            · rw [hhand]
              show ([item] : Multiset (ι × Log)) + queue + 0 = 0 + queue + 0 + [item]
              rw [add_zero, add_zero, zero_add, add_comm]
            · exact Multiset.singleton_ne_zero item
      · cases h
  | finish =>
      dsimp only at h
      split at h
      · obtain rfl := Option.some.inj h
        refine ⟨_, posts_of_drop rfl rfl rfl rfl, ?_⟩
        exact Multiset.coe_eq_zero queue
      · cases h
  | aborted =>
      dsimp only at h
      split at h
      · cases h
      · obtain rfl := Option.some.inj h
        refine ⟨_, posts_of_drop rfl rfl rfl rfl, ?_⟩
        rw [Multiset.coe_eq_zero, List.append_eq_nil_iff]
        rfl

/-- The queue is gone with the task. -/
def System.Emptied (s : System ι) : Prop := s.task.isEnded = true → s.queue = []

theorem emptied_of_step (hs : s.Emptied) (h : step s e = some s') : s'.Emptied := by
  obtain ⟨progs, queue, task, enqueued, delivered⟩ := s
  unfold step at h
  intro hended
  cases e with
  | request i answer =>
      dsimp only at h
      split at h
      · cases h
      · rename_i c k hprog
        split at h
        · rename_i hpermits
          obtain rfl := Option.some.inj h
          have hnone : offered i ⟨c, answer c⟩ = [] := by
            unfold offered IngestEvent.enqueued
            split
            · rename_i log heq
              rw [heq] at hpermits
              unfold System.permits at hpermits
              rw [show Task.isEnded task = true from hended] at hpermits
              cases hpermits
            · rfl
          have hqueue : queue = [] := hs hended
          show queue ++ _ = []
          rw [hqueue, hnone]
          rfl
        · cases h
  | receive =>
      dsimp only at h
      split at h
      · obtain rfl := Option.some.inj h
        cases hended
      · cases h
  | signal =>
      dsimp only at h
      split at h
      · obtain rfl := Option.some.inj h
        cases hended
      · cases h
  | tryReceive =>
      dsimp only at h
      split at h
      · obtain rfl := Option.some.inj h
        cases hended
      · obtain rfl := Option.some.inj h
        cases hended
      · cases h
  | kafka ok =>
      dsimp only at h
      split at h
      · rename_i item draining
        obtain rfl := Option.some.inj h
        cases draining <;> cases hended
      · cases h
  | finish =>
      dsimp only at h
      split at h
      · obtain rfl := Option.some.inj h
        rfl
      · cases h
  | aborted =>
      dsimp only at h
      split at h
      · cases h
      · obtain rfl := Option.some.inj h
        rfl

/-! ### Requests and their logs -/

variable (std : CostText) (codec : PolicyCodec) (eventsPerMinute : UInt64)

def Request.prog : Request → IngestProg IngestResponse
  | .log claims req => ingestLog std codec eventsPerMinute claims req
  | .batch claims req => ingestBatch std codec eventsPerMinute claims req

/-- All requests before their first command, with an empty queue. -/
def start (requests : ι → Request) : System ι where
  progs := fun i => (requests i).prog std codec eventsPerMinute
  queue := []
  task := .receiving
  enqueued := []
  delivered := []

/-- The logs of a request. -/
def logsOf (i : ι) (items : List (ι × Log)) : List Log := (items.filter (·.1 = i)).map (·.2)

/-- The logs that a response calls accepted are on the topic. -/
def System.AcceptedDelivered (s : System ι) : Prop :=
  ∀ i response, s.progs i = .ret response →
    (acceptedIds response : Multiset Uuid) ≤ (logsOf i s.delivered).map (·.id)

/-- The logs that a request has put on the queue are those of its commands so far. -/
def Tracked (requests : ι → Request) (s : System ι) : Prop :=
  ∀ i, ∃ events, Leads ((requests i).prog std codec eventsPerMinute) events (s.progs i) ∧
    logsOf i s.enqueued = enqueuedLogs events

variable {std codec eventsPerMinute}

theorem logsOf_append (i : ι) (front back : List (ι × Log)) :
    logsOf i (front ++ back) = logsOf i front ++ logsOf i back := by
  unfold logsOf
  rw [List.filter_append, List.map_append]

theorem logsOf_offered_self (i : ι) (e : IngestEvent) :
    logsOf i (offered i e) = e.enqueued.toList := by
  unfold logsOf offered
  cases e.enqueued with
  | none => rfl
  | some log =>
      rw [Option.toList_some, List.map_singleton, List.filter_cons_of_pos (by rw [decide_eq_true_iff])]
      rfl

theorem logsOf_offered_ne {i j : ι} (h : j ≠ i) (e : IngestEvent) : logsOf i (offered j e) = [] := by
  unfold logsOf offered
  cases e.enqueued with
  | none => rfl
  | some log =>
      rw [Option.toList_some, List.map_singleton,
        List.filter_cons_of_neg (by rw [decide_eq_true_iff]; exact h)]
      rfl

theorem enqueuedLogs_snoc (events : List IngestEvent) (e : IngestEvent) :
    enqueuedLogs (events ++ [e]) = enqueuedLogs events ++ e.enqueued.toList := by
  rw [enqueuedLogs_append]
  unfold enqueuedLogs
  cases he : e.enqueued with
  | none => rw [List.filterMap_cons_none he]; rfl
  | some log => rw [List.filterMap_cons_some he]; rfl

/-- Only a command of a request changes the requests and what they have put on the queue. -/
theorem request_of_step (h : step s e = some s') :
    (s'.progs = s.progs ∧ s'.enqueued = s.enqueued) ∨
      ∃ i answer c k, e = .request i answer ∧ s.progs i = .call c k ∧
        s'.progs = Function.update s.progs i (k (answer c)) ∧
        s'.enqueued = s.enqueued ++ offered i ⟨c, answer c⟩ := by
  unfold step at h
  cases e with
  | request i answer =>
      dsimp only at h
      split at h
      · cases h
      · rename_i c k hprog
        split at h
        · obtain rfl := Option.some.inj h
          exact Or.inr ⟨i, answer, c, k, rfl, hprog, rfl, rfl⟩
        · cases h
  | receive =>
      dsimp only at h
      split at h
      · obtain rfl := Option.some.inj h
        exact Or.inl ⟨rfl, rfl⟩
      · cases h
  | signal =>
      dsimp only at h
      split at h
      · obtain rfl := Option.some.inj h
        exact Or.inl ⟨rfl, rfl⟩
      · cases h
  | tryReceive =>
      dsimp only at h
      split at h
      · obtain rfl := Option.some.inj h
        exact Or.inl ⟨rfl, rfl⟩
      · obtain rfl := Option.some.inj h
        exact Or.inl ⟨rfl, rfl⟩
      · cases h
  | kafka ok =>
      dsimp only at h
      split at h
      · obtain rfl := Option.some.inj h
        exact Or.inl ⟨rfl, rfl⟩
      · cases h
  | finish =>
      dsimp only at h
      split at h
      · obtain rfl := Option.some.inj h
        exact Or.inl ⟨rfl, rfl⟩
      · cases h
  | aborted =>
      dsimp only at h
      split at h
      · cases h
      · obtain rfl := Option.some.inj h
        exact Or.inl ⟨rfl, rfl⟩

theorem tracked_of_step {requests : ι → Request} (hs : Tracked std codec eventsPerMinute requests s)
    (h : step s e = some s') : Tracked std codec eventsPerMinute requests s' := by
  intro i
  obtain ⟨events, hleads, hlogs⟩ := hs i
  rcases request_of_step h with ⟨hprogs, henqueued⟩ | ⟨j, answer, c, k, -, hprog, hprogs, henqueued⟩
  · rw [hprogs, henqueued]
    exact ⟨events, hleads, hlogs⟩
  · rw [hprogs, henqueued, logsOf_append, hlogs]
    by_cases hij : j = i
    · subst hij
      rw [hprog] at hleads
      refine ⟨_, by rw [Function.update_self]; exact hleads.snoc (answer c), ?_⟩
      rw [logsOf_offered_self, enqueuedLogs_snoc]
    · rw [Function.update_of_ne (Ne.symm hij), logsOf_offered_ne hij, List.append_nil]
      exact ⟨events, hleads, rfl⟩

theorem tracked_start (requests : ι → Request) :
    Tracked std codec eventsPerMinute requests (start std codec eventsPerMinute requests) :=
  fun _ => ⟨[], .refl _, rfl⟩

/-! ### Runs -/

/-- The logs that a response calls accepted are those that the request has put on the queue. -/
theorem acceptedIds_of_trace (request : Request) {events : List IngestEvent}
    {response : IngestResponse} (h : Trace (request.prog std codec eventsPerMinute) events response) :
    acceptedIds response = [] ∨ acceptedIds response = (enqueuedLogs events).map (·.id) := by
  cases request with
  | log claims req => exact ingestLog_accepted h
  | batch claims req => exact ingestBatch_accepted h

/-- The topic has every log that the queue has taken exactly when each step was reliable. -/
theorem delivered_iff_reliable {requests : ι → Request} {events : List (Event ι)}
    (h : Runs.run step events (start std codec eventsPerMinute requests) = some s)
    (hended : s.task.isEnded = true) :
    (s.enqueued : Multiset (ι × Log)) = s.delivered ↔
      Runs.Meets step Reliable events (start std codec eventsPerMinute requests) := by
  have hemptied : s.Emptied := Runs.run_invariant (fun _ _ _ => emptied_of_step) (fun _ => rfl) h
  have hhand : s.hand = [] := by
    unfold Task.isEnded at hended
    unfold System.hand
    split at hended
    · rename_i htask
      rw [htask]
    · cases hended
  have hpending : ledger.pending s = 0 := by
    show (s.hand : Multiset (ι × Log)) + s.queue = 0
    rw [hhand, hemptied hended]
    rfl
  have hstart : ledger.Balanced (start std codec eventsPerMinute requests) := rfl
  rw [← Runs.Ledger.balanced_iff_meets (J := fun _ => True) (fun _ _ _ _ _ => trivial)
    (fun _ _ _ _ => posts_of_step) trivial hstart h]
  unfold Runs.Ledger.Balanced
  rw [hpending, add_zero]
  rfl

/-- **Accepted logs are delivered.**  In a run in which every `send_log` succeeds, nothing comes into the
queue after the drain has found it empty, and the task is not aborted with logs at hand, the logs
that were accepted are on the topic when the task has ended. -/
theorem accepted_delivered {requests : ι → Request} {events : List (Event ι)}
    (h : Runs.run step events (start std codec eventsPerMinute requests) = some s)
    (hok : Runs.Meets step Reliable events (start std codec eventsPerMinute requests))
    (hended : s.task.isEnded = true) : s.AcceptedDelivered := by
  have hdelivered := (delivered_iff_reliable h hended).mpr hok
  have htracked := Runs.run_invariant (fun _ _ _ => tracked_of_step) (tracked_start requests) h
  intro i response hresponse
  obtain ⟨events, hleads, hlogs⟩ := htracked i
  rw [hresponse] at hleads
  rcases acceptedIds_of_trace (requests i) hleads.trace with hnone | haccepted
  · rw [hnone]
    exact Multiset.zero_le _
  · rw [haccepted, ← hlogs]
    exact ((Multiset.coe_eq_coe.mp hdelivered).filter _ |>.map _ |>.map _).subperm

end system

/-! ### One request -/

instance {ι : Type} (s : System ι) : (e : Event ι) → Decidable (Reliable s e)
  | .kafka ok => inferInstanceAs (Decidable (ok = true))
  | .finish => inferInstanceAs (Decidable (s.queue = []))
  | .aborted => inferInstanceAs (Decidable (s.hand = [] ∧ s.queue = []))
  | .request _ _ | .receive | .signal | .tryReceive => isTrue trivial

/-- Replies of Redis, the database and a queue with room. -/
def sampleAnswer (c : IngestCmd) : c.Reply := (sampleExec 1 true c (⟨emptyDatabase, emptyData⟩, 0)).1

def sampleStart : System Unit :=
  start sampleText sampleCodec 1000 fun _ => .log (some agentClaims) portScanned

/-- A request is answered; then its log is sent to Kafka, and the task is told to stop. -/
def sampleRun (ok : Bool) : List (Event Unit) :=
  List.replicate 40 (.request () sampleAnswer) ++ [.receive, .kafka ok, .signal, .tryReceive, .finish]

theorem sentLog_delivered :
    ∃ s, Runs.run step (sampleRun true) sampleStart = some s ∧ s.AcceptedDelivered := by
  obtain ⟨s, hs⟩ := Option.isSome_iff_exists.mp
    (by decide +kernel : (Runs.run step (sampleRun true) sampleStart).isSome = true)
  have hended : (Runs.run step (sampleRun true) sampleStart).map (·.task.isEnded) = some true := by
    decide +kernel
  rw [hs] at hended
  exact ⟨s, hs, accepted_delivered hs (by decide +kernel) (Option.some.inj hended)⟩

/-- What the response to the request calls accepted. -/
def sampleAccepted (s : System Unit) : List Uuid :=
  match s.progs () with
  | .ret response => acceptedIds response
  | _ => []

/-- Kafka does not take the log, which was accepted. -/
theorem unsentLog_not_delivered :
    ∃ s, Runs.run step (sampleRun false) sampleStart = some s ∧ s.task.isEnded = true ∧
      ¬ s.AcceptedDelivered := by
  obtain ⟨s, hs⟩ := Option.isSome_iff_exists.mp
    (by decide +kernel : (Runs.run step (sampleRun false) sampleStart).isSome = true)
  have hview : (Runs.run step (sampleRun false) sampleStart).map (fun s =>
      (s.task.isEnded, (sampleAccepted s).length, s.delivered.length)) = some (true, 1, 0) := by
    decide +kernel
  rw [hs] at hview
  obtain ⟨hended, haccepted, hdelivered⟩ : s.task.isEnded = true ∧
      (sampleAccepted s).length = 1 ∧ s.delivered.length = 0 := by
    simpa using hview
  refine ⟨s, hs, hended, fun h => ?_⟩
  unfold sampleAccepted at haccepted
  split at haccepted
  · rename_i response hresponse
    have hle := Multiset.card_le_card (h () response hresponse)
    rw [List.length_eq_zero_iff.mp hdelivered] at hle
    exact absurd (haccepted.symm.trans_le hle) (by decide)
  · cases haccepted

end Ingest

end MiniSiem
