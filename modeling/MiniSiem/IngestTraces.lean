import MiniSiem.CaseSweep
import MiniSiem.IngestHandlers

/-! # What a failed batch leaves behind

The events of `ingest_batch`, whatever the replies of Redis, the database and the ingest queue.

* **Quiet programs.**  Only `enqueue_ingest_log` offers logs to the queue; the programs before it and
  after it do not (`Quiet`).
* **Outcomes.**  A batch is answered before its first log, or aborted at the first log that the queue
  does not take, or accepted (`BatchOutcome`).
* **Retries.**  The agent sends the whole batch again unless the status is 202.
  `batch_leaves_nothing_iff`: a batch that is answered with an error has left nothing behind exactly when
  the queue took every log it was offered, or refused the first one and no usage command succeeded. -/

namespace MiniSiem

open Atomic.Prog

/-! ### Events -/

namespace IngestEvent

/-- The reply of the queue. -/
def sendReply : IngestEvent → Option SendReply
  | ⟨.send _, r⟩ => some r
  | _ => none

/-- The log that the queue has taken. -/
def enqueued : IngestEvent → Option Log
  | ⟨.send log, .sent⟩ => some log
  | _ => none

/-- A usage counter of the tenant has grown. -/
def charges (tenantId : String) : IngestEvent → Bool
  | ⟨.incr key _, .ok _⟩ => Text.startsWith key (costUsagePrefix ++ tenantId ++ ":cost:")
  | ⟨.zincrby key _ _, .ok _⟩ => Text.startsWith key (costUsagePrefix ++ tenantId ++ ":cost:")
  | _ => false

end IngestEvent

/-- What the queue replied, in order. -/
def sendReplies (events : List IngestEvent) : List SendReply := events.filterMap (·.sendReply)

/-- No log is on the queue and no usage is recorded. -/
structure LeavesNothing (claims : Option Claims) (events : List IngestEvent) : Prop where
  notEnqueued : ∀ e ∈ events, e.enqueued = none
  notCharged : ∀ c ∈ claims, ∀ e ∈ events, e.charges c.tenantId = false

/-- An error response means that the request can be sent again. -/
def RetrySafe (claims : Option Claims) (events : List IngestEvent) (response : IngestResponse) : Prop :=
  400 ≤ response.status → LeavesNothing claims events

/-- The queue refused the first log it was offered, and Redis every usage command. -/
structure RefusedAtOnce (claims : Option Claims) (events : List IngestEvent) : Prop where
  first : (sendReplies events).head? ≠ some .sent
  uncharged : ∀ c ∈ claims, ∀ e ∈ events, e.charges c.tenantId = false

theorem sendReplies_append (front back : List IngestEvent) :
    sendReplies (front ++ back) = sendReplies front ++ sendReplies back :=
  List.filterMap_append

theorem not_enqueued_iff {events : List IngestEvent} :
    (∀ e ∈ events, e.enqueued = none) ↔ ∀ r ∈ sendReplies events, r ≠ .sent := by
  unfold sendReplies
  constructor
  · intro h r hr
    obtain ⟨e, he, hreply⟩ := List.mem_filterMap.mp hr
    rintro rfl
    have hnone := h e he
    unfold IngestEvent.sendReply at hreply
    split at hreply
    · obtain rfl := Option.some.inj hreply
      cases hnone
    · cases hreply
  · intro h e he
    unfold IngestEvent.enqueued
    split
    · exact absurd rfl (h .sent (List.mem_filterMap.mpr ⟨_, he, rfl⟩))
    · rfl

/-! ### Quiet programs -/

/-- An event that does not offer a log to the queue. -/
def Quiet (e : IngestEvent) : Prop := e.sendReply = none

theorem sendReplies_of_quiet {events : List IngestEvent} (h : ∀ e ∈ events, Quiet e) :
    sendReplies events = [] :=
  List.filterMap_eq_nil_iff.mpr h

theorem liftIngest_quiet {α : Type} (p : BackendProg α) : Emits Quiet (liftIngest p) := by
  induction p with
  | ret a => exact emits_ret a
  | call c k ih => exact emits_call (fun _ => rfl) ih

theorem readUsage_quiet {α : Type} {key : String} {k : UInt64 → IngestProg (Except String α)}
    (hk : ∀ n, Emits Quiet (k n)) : Emits Quiet (readUsage key k) := by
  refine emits_call (fun _ => rfl) fun reply => ?_
  cases reply with
  | error e => exact emits_ret _
  | ok count => exact hk _

theorem evaluateCostDecision_quiet (std : CostText) (codec : PolicyCodec) (tenantId : String)
    (log : IngestLogRequest) : Emits Quiet (evaluateCostDecision std codec tenantId log) := by
  refine emits_bind (liftIngest_quiet _) fun result => ?_
  cases result with
  | error e => exact emits_ret _
  | ok policy =>
      refine emits_call (fun _ => rfl) fun now => ?_
      exact readUsage_quiet fun _ => readUsage_quiet fun _ => readUsage_quiet fun _ =>
        readUsage_quiet fun _ => emits_ret _

theorem issue_quiet (c : CounterCommand) : Emits Quiet c.issue := by
  cases c with
  | incrBy key delta expirySeconds =>
      refine emits_call (fun _ => rfl) fun reply => ?_
      cases reply with
      | error e => exact emits_ret _
      | ok n => exact emits_call (fun _ => rfl) fun _ => emits_ret _
  | incrementCounter key expirySeconds =>
      refine emits_call (fun _ => rfl) fun reply => ?_
      cases reply with
      | error e => exact emits_ret _
      | ok n =>
          dsimp only
          split
          · exact emits_call (fun _ => rfl) fun _ => emits_ret _
          · exact emits_ret _
  | zincrby key member increment => exact emits_call (fun _ => rfl) fun _ => emits_ret _

theorem issueAll_quiet (commands : List CounterCommand) : Emits Quiet (issueAll commands) := by
  induction commands with
  | nil => exact emits_ret _
  | cons c commands ih => exact emits_bind (issue_quiet c) fun _ => ih

theorem decideAndRecord_quiet (std : CostText) (codec : PolicyCodec) (tenantId : String)
    (log : IngestLogRequest) : Emits Quiet (decideAndRecord std codec tenantId log) := by
  refine emits_bind (evaluateCostDecision_quiet std codec tenantId log) fun result => ?_
  refine emits_bind ?_ fun _ => emits_ret _
  exact emits_call (fun _ => rfl) fun now => issueAll_quiet _

namespace Ingest

theorem setString_quiet (key text : String) : Emits Quiet (setString key text) := by
  refine emits_call (fun _ => rfl) fun reply => ?_
  cases reply with
  | error e => exact emits_ret _
  | ok u => exact emits_call (fun _ => rfl) fun _ => emits_ret _

theorem heartbeats_quiet : Emits Quiet heartbeats :=
  emits_call (fun _ => rfl) fun _ => emits_bind (setString_quiet _ _) fun _ => setString_quiet _ _

theorem finishBatch_quiet (tenantId : String) (responses : List IngestLogResponse) :
    Emits Quiet (finishBatch tenantId responses) := by
  refine emits_bind heartbeats_quiet fun _ => ?_
  split
  · exact emits_ret _
  · exact emits_bind (issue_quiet _) fun _ => emits_ret _

/-! ### One log, and the logs of a batch -/

theorem enqueueIngestLog_trace {log : Log} {events : List IngestEvent}
    {result : Except IngestResponse Unit} (h : Trace (enqueueIngestLog log) events result) :
    (events = [⟨.send log, .sent⟩] ∧ result = .ok ()) ∨
      ∃ reply response, events = [⟨.send log, reply⟩] ∧ reply ≠ .sent ∧ response.status = 503 ∧
        result = .error response := by
  obtain ⟨reply, rest, rfl, hrest⟩ := trace_call.mp h
  cases reply with
  | sent =>
      obtain ⟨rfl, rfl⟩ := trace_ret.mp hrest
      exact Or.inl ⟨rfl, rfl⟩
  | closed =>
      obtain ⟨rfl, rfl⟩ := trace_ret.mp hrest
      exact Or.inr ⟨_, _, rfl, (fun h => by cases h), rfl, rfl⟩
  | timedOut =>
      obtain ⟨rfl, rfl⟩ := trace_ret.mp hrest
      exact Or.inr ⟨_, _, rfl, (fun h => by cases h), rfl, rfl⟩

/-- What the replies of the queue say of a program that enqueues logs. -/
def Enqueues {α : Type} (events : List IngestEvent) : Except IngestResponse α → Prop
  | .ok _ => ∀ r ∈ sendReplies events, r = .sent
  | .error response => response.status = 503 ∧
      ∃ front r, sendReplies events = front ++ [r] ∧ (∀ x ∈ front, x = .sent) ∧ r ≠ .sent

section batch

variable {std : CostText} {codec : PolicyCodec} {tenantId : String} {now : DateTime}

theorem ingestItem_enqueues {req : IngestLogRequest} {events : List IngestEvent}
    {result : Except IngestResponse IngestLogResponse}
    (h : Trace (ingestItem std codec tenantId now req) events result) : Enqueues events result := by
  obtain ⟨logId, rest, rfl, hrest⟩ := trace_call.mp h
  obtain ⟨before, decision, after, rfl, hbefore, hafter⟩ := trace_bind.mp hrest
  have hreplies : ∀ after, sendReplies (⟨.newV4, logId⟩ :: (before ++ after)) = sendReplies after := by
    intro after
    show sendReplies (before ++ after) = _
    rw [sendReplies_append,
      sendReplies_of_quiet (decideAndRecord_quiet _ _ _ _ _ _ hbefore), List.nil_append]
  split at hafter
  · obtain ⟨offered, outcome, last, rfl, hsend, hlast⟩ := trace_bind.mp hafter
    rcases enqueueIngestLog_trace hsend with ⟨rfl, rfl⟩ | ⟨reply, response, rfl, hreply, hstatus, rfl⟩
    · obtain ⟨rfl, rfl⟩ := trace_ret.mp hlast
      intro r hr
      rw [hreplies] at hr
      exact List.mem_singleton.mp hr
    · obtain ⟨rfl, rfl⟩ := trace_ret.mp hlast
      refine ⟨hstatus, [], reply, ?_, (fun x hx => by cases hx), hreply⟩
      rw [hreplies]
      rfl
  · obtain ⟨rfl, rfl⟩ := trace_ret.mp hafter
    intro r hr
    rw [hreplies] at hr
    cases hr

theorem ingestItems_enqueues {reqs : List IngestLogRequest} {events : List IngestEvent}
    {result : Except IngestResponse (List IngestLogResponse)}
    (h : Trace (ingestItems std codec tenantId now reqs) events result) : Enqueues events result := by
  induction reqs generalizing events result with
  | nil =>
      obtain ⟨rfl, rfl⟩ := trace_ret.mp h
      intro r hr
      cases hr
  | cons req reqs ih =>
      obtain ⟨item, outcome, rest, rfl, hitem, hrest⟩ := trace_bind.mp h
      have hfirst := ingestItem_enqueues hitem
      cases outcome with
      | error response =>
          obtain ⟨rfl, rfl⟩ := trace_ret.mp hrest
          rw [List.append_nil]
          exact hfirst
      | ok response =>
          obtain ⟨others, outcome, last, rfl, hothers, hlast⟩ := trace_bind.mp hrest
          have htail := ih hothers
          cases outcome with
          | error response =>
              obtain ⟨rfl, rfl⟩ := trace_ret.mp hlast
              obtain ⟨hstatus, front, r, hreplies, hfront, hr⟩ := htail
              refine ⟨hstatus, sendReplies item ++ front, r, ?_, ?_, hr⟩
              · rw [List.append_nil, sendReplies_append, hreplies, List.append_assoc]
              · intro x hx
                exact (List.mem_append.mp hx).elim (hfirst x) (hfront x)
          | ok responses =>
              obtain ⟨rfl, rfl⟩ := trace_ret.mp hlast
              intro r hr
              rw [List.append_nil, sendReplies_append] at hr
              exact (List.mem_append.mp hr).elim (hfirst r) (htail r)

end batch

/-! ### The handler -/

section handler

variable {std : CostText} {codec : PolicyCodec} {eventsPerMinute : UInt64} {claims : Option Claims}
  {req : BatchIngestRequest} {events : List IngestEvent} {response : IngestResponse}

/-- How a batch ends. -/
inductive BatchOutcome (events : List IngestEvent) (response : IngestResponse) : Prop
  | rejected (hstatus : 400 ≤ response.status) (hquiet : ∀ e ∈ events, Quiet e)
      (huncharged : ∀ tenantId, ∀ e ∈ events, e.charges tenantId = false)
  | aborted (hstatus : response.status = 503) (front : List SendReply) (r : SendReply)
      (hreplies : sendReplies events = front ++ [r]) (hfront : ∀ x ∈ front, x = .sent) (hr : r ≠ .sent)
  | accepted (hstatus : response.status = 202) (hreplies : ∀ r ∈ sendReplies events, r = .sent)

theorem finishBatch_response {tenantId : String} {responses : List IngestLogResponse}
    (h : Trace (finishBatch tenantId responses) events response) :
    response = ⟨202, .batch responses⟩ := by
  obtain ⟨front, u, back, hevents, hfront, hback⟩ := trace_bind.mp h
  split at hback
  · exact (trace_ret.mp hback).2
  · obtain ⟨counter, v, last, hsplit, hcounter, hlast⟩ := trace_bind.mp hback
    exact (trace_ret.mp hlast).2

theorem withinQuota_trace {tenantId : String} {cost : ℕ} {k : IngestProg IngestResponse}
    (h : Trace (withinQuota eventsPerMinute tenantId cost k) events response) :
    BatchOutcome events response ∨ ∃ quota rest, events = quota :: rest ∧ Quiet quota ∧
      Trace k rest response := by
  obtain ⟨reply, rest, rfl, hrest⟩ := trace_call.mp h
  have hrejected : 400 ≤ response.status → rest = [] →
      BatchOutcome (⟨_, reply⟩ :: rest) response := by
    rintro hstatus rfl
    refine .rejected hstatus (fun e he => ?_) fun tenantId e he => ?_
    · obtain rfl := List.mem_singleton.mp he
      rfl
    · obtain rfl := List.mem_singleton.mp he
      rfl
  match reply with
  | .ok true => exact Or.inr ⟨_, rest, rfl, rfl, hrest⟩
  | .ok false =>
      obtain ⟨rfl, rfl⟩ := trace_ret.mp hrest
      exact Or.inl (hrejected (by decide) rfl)
  | .error e =>
      obtain ⟨rfl, rfl⟩ := trace_ret.mp hrest
      exact Or.inl (hrejected (show 400 ≤ 500 by decide) rfl)

theorem ingestBatch_outcome
    (h : Trace (ingestBatch std codec eventsPerMinute claims req) events response) :
    BatchOutcome events response := by
  unfold ingestBatch at h
  cases claims with
  | none =>
      obtain ⟨rfl, rfl⟩ := trace_ret.mp h
      exact .rejected (show 400 ≤ 401 by decide) (fun e he => by cases he) fun _ e he => by cases he
  | some claims =>
      rcases withinQuota_trace h with hrejected | ⟨quota, rest, rfl, hquota, hrest⟩
      · exact hrejected
      · obtain ⟨now, body, rfl, hbody⟩ := trace_call.mp hrest
        obtain ⟨items, outcome, last, rfl, hitems, hlast⟩ := trace_bind.mp hbody
        have hreplies : sendReplies (quota :: ⟨.now, now⟩ :: (items ++ last)) =
            sendReplies items ++ sendReplies last := by
          rw [← sendReplies_append]
          exact List.filterMap_cons_none hquota
        have hitem := ingestItems_enqueues hitems
        cases outcome with
        | error response =>
            obtain ⟨rfl, rfl⟩ := trace_ret.mp hlast
            obtain ⟨hstatus, front, r, hfailed, hfront, hr⟩ := hitem
            refine .aborted hstatus front r ?_ hfront hr
            rw [hreplies, hfailed]
            exact List.append_nil _
        | ok responses =>
            refine .accepted (by rw [finishBatch_response hlast]) ?_
            rw [hreplies, sendReplies_of_quiet (finishBatch_quiet _ _ _ _ hlast), List.append_nil]
            exact hitem

/-- **What a failed batch leaves behind.**  Whatever the replies, a batch that is answered with an error
leaves nothing on the queue and no usage exactly when the queue took each log it was offered, or refused
the first one and every usage command had failed. -/
theorem batch_leaves_nothing_iff
    (h : Trace (ingestBatch std codec eventsPerMinute claims req) events response) :
    RetrySafe claims events response ↔
      (∀ r ∈ sendReplies events, r = .sent) ∨ RefusedAtOnce claims events := by
  cases ingestBatch_outcome h with
  | rejected hstatus hquiet huncharged =>
      have hnone := sendReplies_of_quiet hquiet
      refine iff_of_true (fun _ => ⟨not_enqueued_iff.mpr ?_, fun c _ => huncharged c.tenantId⟩)
        (Or.inl ?_)
      · rw [hnone]
        exact fun r hr => by cases hr
      · rw [hnone]
        exact fun r hr => by cases hr
  | accepted hstatus hreplies =>
      refine iff_of_true (fun herror => ?_) (Or.inl hreplies)
      rw [hstatus] at herror
      exact absurd herror (by decide)
  | aborted hstatus front r hreplies hfront hr =>
      constructor
      · intro hsafe
        obtain ⟨hnone, huncharged⟩ := hsafe (by rw [hstatus]; decide)
        refine Or.inr ⟨fun hhead => ?_, huncharged⟩
        exact not_enqueued_iff.mp hnone _ (List.mem_of_mem_head? hhead) rfl
      · rintro (hall | ⟨hfirst, huncharged⟩)
        · exact absurd (hall r (by rw [hreplies]; simp)) hr
        · refine fun _ => ⟨not_enqueued_iff.mpr ?_, huncharged⟩
          rw [hreplies] at hfirst ⊢
          cases front with
          | nil =>
              intro x hx
              rwa [List.mem_singleton.mp hx]
          | cons x front =>
              exact absurd (congrArg some (hfront x List.mem_cons_self)) hfirst

end handler

/-! ### Two logs -/

/-- A queue with room for some logs, and a Redis that records usage or does not. -/
def sampleExec (room : ℕ) (records : Bool) : (c : IngestCmd) → Backend × ℕ → c.Reply × (Backend × ℕ)
  | .backend c, (b, n) => ((execBackend firstTick c b).1, (execBackend firstTick c b).2, n)
  | .now, s => (firstTick.clock, s)
  | .newV4, s => (firstTick.uuid, s)
  | .allowFixedWindow _ _ _ _, s => (.ok true, s)
  | .getCounter _, s => (.ok none, s)
  | .incr _ delta, s => (if records then .ok delta.toInt else .error "read-only replica", s)
  | .expire _ _, s => (.ok (), s)
  | .zincrby _ _ _, s => (if records then .ok () else .error "read-only replica", s)
  | .send _, (b, n) => (if n < room then .sent else .timedOut, b, n + 1)

def sampleText : CostText := ⟨fun s => s, fun _ => 0, fun _ => "", fun _ => "0.00"⟩

def sampleCodec : PolicyCodec := ⟨fun _ => .ok "", fun _ => none⟩

def agentClaims : Claims := ⟨"agent", "t1", "agent@t1", ["agent"], none⟩

def portScanned : IngestLogRequest where
  eventType := "connection"
  sourceIp := "10.0.0.7"
  targetUser := none
  service := none
  message := "port 22"
  severity := some .medium
  timestamp := none
  metadata := none

/-- The handler for a batch of two logs. -/
def twoLogs : IngestProg IngestResponse :=
  ingestBatch sampleText sampleCodec 1000 (some agentClaims) ⟨[portScanned, portScanned]⟩

theorem refusedAtOnce_retrySafe :
    RetrySafe (some agentClaims) (record (sampleExec 0 false) twoLogs (⟨emptyDatabase, emptyData⟩, 0))
      (run (sampleExec 0 false) twoLogs (⟨emptyDatabase, emptyData⟩, 0)).1 := by
  refine (batch_leaves_nothing_iff (trace_record (sampleExec 0 false) twoLogs _)).mpr (Or.inr ?_)
  refine ⟨by decide +kernel, ?_⟩
  rintro claims ⟨⟩
  decide +kernel

/-- The first log is on the queue when the second one is refused. -/
theorem secondRefused_not_retrySafe :
    ¬ RetrySafe (some agentClaims) (record (sampleExec 1 true) twoLogs (⟨emptyDatabase, emptyData⟩, 0))
      (run (sampleExec 1 true) twoLogs (⟨emptyDatabase, emptyData⟩, 0)).1 := by
  intro hsafe
  have hstatus : (run (sampleExec 1 true) twoLogs (⟨emptyDatabase, emptyData⟩, 0)).1.status = 503 := by
    decide +kernel
  have hleft := hsafe (by rw [hstatus]; decide)
  have hfirst : (sendReplies
      (record (sampleExec 1 true) twoLogs (⟨emptyDatabase, emptyData⟩, 0))).head? = some .sent := by
    decide +kernel
  exact not_enqueued_iff.mp hleft.notEnqueued .sent (List.mem_of_mem_head? hfirst) rfl

end Ingest

end MiniSiem
