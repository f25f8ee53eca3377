import MiniSiem.FloodLimiter
import MiniSiem.Lib.Unwinding

/-! # The flood limiter and the tenants

Which logs of a tenant the limiter of `consume_logs` lets pass, whatever the other tenants send.

* **Shared state.**  The buckets and the windows are those of a source address, which is a field of the
  log; the tenant plays no part.
* **Isolation.**  `passedLogs_eq`: the logs of a tenant that pass are the same whatever the others send
  apart from logs with the address of a later log of the tenant. -/

namespace MiniSiem

/-- The ticks and the logs of the tenant. -/
def FloodEvent.visible (tenantId : String) : FloodEvent → Bool
  | .cleanup _ => true
  | .message log _ _ => log.tenantId = tenantId

/-- A log of another tenant and a log of the tenant, of the same address. -/
def FloodEvent.Crosses (tenantId : String) : FloodEvent → FloodEvent → Prop
  | .message log _ _, .message later _ _ =>
      log.tenantId ≠ tenantId ∧ later.tenantId = tenantId ∧ log.sourceIp = later.sourceIp
  | _, _ => False

instance (tenantId : String) : (e later : FloodEvent) → Decidable (e.Crosses tenantId later)
  | .message _ _ _, .message _ _ _ => inferInstanceAs (Decidable (_ ∧ _ ∧ _))
  | .cleanup _, .message _ _ _ => isFalse id
  | .cleanup _, .cleanup _ => isFalse id
  | .message _ _ _, .cleanup _ => isFalse id

/-- The events that the logs of the tenant depend on: the ticks, its logs, and each log of another tenant
that comes before one of its logs with the same address. -/
def relevantEvents (tenantId : String) (events : List FloodEvent) : List FloodEvent :=
  Unwinding.thin (fun e later => e.visible tenantId || later.any fun l => e.Crosses tenantId l) events

/-- The log, if it is of the tenant and passes, sampled or not. -/
def Judgement.passed (tenantId : String) (j : Judgement) : Option Log :=
  if j.log.tenantId = tenantId ∧ j.verdict ≠ .rateLimited then some j.log else none

section passed

variable (pexpire : UInt64 → Bool) (settings : LimiterSettings) (tenantId : String)

/-- The logs of a tenant that the limiter lets pass. -/
def passedLogs (events : List FloodEvent) : List Log :=
  (Unwinding.replies (judge pexpire settings) events .empty).filterMap
    fun judgement => judgement.bind (Judgement.passed tenantId)

end passed

section isolation

variable {pexpire : UInt64 → Bool} {settings : LimiterSettings} {tenantId : String}

/-- Two stores hold the same for an address. -/
def FloodLimiter.Agree (s s' : FloodLimiter) (sourceIp : String) : Prop :=
  s.limits sourceIp = s'.limits sourceIp ∧
    s.keys (rateLimitKey sourceIp) = s'.keys (rateLimitKey sourceIp)

/-- A judgement depends on what the stores hold for the address of the log. -/
theorem judge_agree {s s' : FloodLimiter} {log : Log} (h : s.Agree s' log.sourceIp) (nowMs : Int64)
    (call : ScriptCall) :
    (judge pexpire settings (.message log nowMs call) s).1 =
        (judge pexpire settings (.message log nowMs call) s').1 ∧
      (judge pexpire settings (.message log nowMs call) s).2.Agree
        (judge pexpire settings (.message log nowMs call) s').2 log.sourceIp := by
  obtain ⟨hlimits, hkeys⟩ := h
  have htoken : tokenFound settings s.limits log.sourceIp nowMs =
      tokenFound settings s'.limits log.sourceIp nowMs := by
    unfold tokenFound bucketOf
    rw [hlimits]
  have hask : (askWindow pexpire settings s.keys log.sourceIp call).1 =
        (askWindow pexpire settings s'.keys log.sourceIp call).1 ∧
      (askWindow pexpire settings s.keys log.sourceIp call).2 (rateLimitKey log.sourceIp) =
        (askWindow pexpire settings s'.keys log.sourceIp call).2 (rateLimitKey log.sourceIp) := by
    unfold askWindow
    simp only [hkeys]
    cases call.fate with
    | answered => exact ⟨rfl, by simp only [Function.update_self]⟩
    | refused e => exact ⟨rfl, hkeys⟩
    | lost e => exact ⟨rfl, by simp only [Function.update_self]⟩
  have hanswer : (windowAnswer pexpire settings s log.sourceIp nowMs call).1 =
        (windowAnswer pexpire settings s' log.sourceIp nowMs call).1 ∧
      (windowAnswer pexpire settings s log.sourceIp nowMs call).2 (rateLimitKey log.sourceIp) =
        (windowAnswer pexpire settings s' log.sourceIp nowMs call).2 (rateLimitKey log.sourceIp) := by
    unfold windowAnswer
    rw [htoken]
    split_ifs
    · exact ⟨rfl, hkeys⟩
    · exact hask
  have hlimit : ∀ redis, (limitLog settings s.limits log nowMs redis).1 =
        (limitLog settings s'.limits log nowMs redis).1 ∧
      (limitLog settings s.limits log nowMs redis).2 log.sourceIp =
        (limitLog settings s'.limits log nowMs redis).2 log.sourceIp := by
    intro redis
    unfold limitLog
    rw [hlimits]
    exact ⟨rfl, by simp only [Function.update_self]⟩
  unfold judge
  simp only [hanswer.1, (hlimit _).1, true_and]
  exact ⟨(hlimit _).2, hanswer.2⟩

/-- The stores hold the same for the addresses of the tenant's logs among the events. -/
def AgreeFor (tenantId : String) (events : List FloodEvent) (s s' : FloodLimiter) : Prop :=
  ∀ log nowMs call, .message log nowMs call ∈ events → log.tenantId = tenantId →
    s.Agree s' log.sourceIp

section events

variable {e : FloodEvent} {events : List FloodEvent} {s s' : FloodLimiter}

theorem AgreeFor.kept (he : (e.visible tenantId || events.any fun l => e.Crosses tenantId l) = true)
    (h : AgreeFor tenantId (e :: events) s s') :
    (judge pexpire settings e s).1 = (judge pexpire settings e s').1 ∧
      AgreeFor tenantId events (judge pexpire settings e s).2 (judge pexpire settings e s').2 := by
  cases e with
  | cleanup nowMs =>
      refine ⟨rfl, fun later nowMs' call hlater htenant => ?_⟩
      obtain ⟨hlimits, hkeys⟩ := h later nowMs' call (List.mem_cons_of_mem _ hlater) htenant
      refine ⟨?_, hkeys⟩
      unfold judge cleanupLimits
      simp only [hlimits]
  | message log nowMs call =>
      have hagree : s.Agree s' log.sourceIp := by
        rcases Bool.or_eq_true_iff.mp he with hown | hcrosses
        · exact h log nowMs call List.mem_cons_self (of_decide_eq_true hown)
        · -- a later log of the tenant has the address
          obtain ⟨l, hl, hcross⟩ := List.any_eq_true.mp hcrosses
          cases l with
          | cleanup nowMs' => exact (of_decide_eq_true hcross).elim
          | message later nowMs' call' =>
              obtain ⟨-, htenant, hip⟩ := of_decide_eq_true hcross
              rw [hip]
              exact h later nowMs' call' (List.mem_cons_of_mem _ hl) htenant
      have hjudged := @judge_agree pexpire settings s s' log hagree nowMs call
      refine ⟨hjudged.1, fun later nowMs' call' hlater htenant => ?_⟩
      by_cases hip : later.sourceIp = log.sourceIp
      · rw [hip]
        exact hjudged.2
      · have hframe := @judge_frame pexpire settings s log nowMs call _ hip
        have hframe' := @judge_frame pexpire settings s' log nowMs call _ hip
        obtain ⟨hlimits, hkeys⟩ := h later nowMs' call' (List.mem_cons_of_mem _ hlater) htenant
        exact ⟨by rw [hframe.1, hframe'.1, hlimits], by rw [hframe.2, hframe'.2, hkeys]⟩

/-- A log that is not kept is not of the tenant, and touches no address of its later logs. -/
theorem AgreeFor.dropped (he : (e.visible tenantId || events.any fun l => e.Crosses tenantId l) = false)
    (h : AgreeFor tenantId (e :: events) s s') :
    (judge pexpire settings e s).1.bind (Judgement.passed tenantId) = none ∧
      AgreeFor tenantId events (judge pexpire settings e s).2 s' := by
  obtain ⟨hforeign, hapart⟩ := Bool.or_eq_false_iff.mp he
  cases e with
  | cleanup nowMs => cases hforeign
  | message log nowMs call =>
      have htenant := of_decide_eq_false hforeign
      refine ⟨if_neg fun hpassed => htenant hpassed.1, fun later nowMs' call' hlater hown => ?_⟩
      have hip : later.sourceIp ≠ log.sourceIp := fun hip =>
        of_decide_eq_false (Bool.eq_false_iff.mpr (List.any_eq_false.mp hapart _ hlater))
          ⟨htenant, hown, hip.symm⟩
      have hframe := @judge_frame pexpire settings s log nowMs call _ hip
      obtain ⟨hlimits, hkeys⟩ := h later nowMs' call' (List.mem_cons_of_mem _ hlater) hown
      exact ⟨hframe.1.trans hlimits, hframe.2.trans hkeys⟩

end events

/-- The logs that pass are those that pass without the events that do not matter to the tenant. -/
theorem passedLogs_relevantEvents (events : List FloodEvent) :
    passedLogs pexpire settings tenantId events =
      passedLogs pexpire settings tenantId (relevantEvents tenantId events) := by
  have hagree : AgreeFor tenantId events .empty .empty := fun _ _ _ _ _ => ⟨rfl, rfl⟩
  exact Unwinding.filterMap_replies_thin _ (fun _ _ _ _ => AgreeFor.kept)
    (fun _ _ _ _ => AgreeFor.dropped) hagree

/-- All events of the tenant are among those that matter to it. -/
theorem visible_relevantEvents (events : List FloodEvent) :
    (relevantEvents tenantId events).filter (·.visible tenantId) =
      events.filter (·.visible tenantId) := by
  unfold relevantEvents
  induction events with
  | nil => rfl
  | cons e events ih =>
      rw [Unwinding.thin, List.filter_cons]
      cases he : e.visible tenantId with
      | true => rw [Bool.true_or, if_pos rfl, List.filter_cons_of_pos he, ih, if_pos rfl]
      | false =>
          rw [if_neg Bool.false_ne_true, ← ih]
          split_ifs
          · exact List.filter_cons_of_neg (Bool.eq_false_iff.mp he)
          · rfl

/-- Two sequences that agree on the events of the tenant, and on the logs of the others that come before
one of its logs with the same address, let the same logs of the tenant pass. -/
theorem passedLogs_eq {events events' : List FloodEvent}
    (h : relevantEvents tenantId events = relevantEvents tenantId events') :
    passedLogs pexpire settings tenantId events = passedLogs pexpire settings tenantId events' := by
  rw [passedLogs_relevantEvents events, h, ← passedLogs_relevantEvents]

end isolation

/-- Two logs of another tenant before one of the tenant, from one address. -/
def crossedLogs : List FloodEvent :=
  [.message (floodLog "globex") 1700000000000 ⟨1700000000000, .answered⟩,
    .message (floodLog "globex") 1700000000001 ⟨1700000000001, .answered⟩,
    .message (floodLog "acme") 1700000000002 ⟨1700000000002, .answered⟩]

/-- The log of the tenant passes alone, and does not after those of the other. -/
theorem crossedLogs_limited :
    ¬ ∀ events events' : List FloodEvent,
      events.filter (·.visible "acme") = events'.filter (·.visible "acme") →
        passedLogs (fun _ => true) (oneASecond Double.nearest) "acme" events =
          passedLogs (fun _ => true) (oneASecond Double.nearest) "acme" events' := by
  intro h
  have hsame := congrArg List.length (h crossedLogs (crossedLogs.filter (·.visible "acme")) rfl)
  revert hsame
  decide +kernel

/-- A third log of the other tenant, after that of the tenant. -/
theorem laterLog_isolated :
    passedLogs (fun _ => true) (oneASecond Double.nearest) "acme" (crossedLogs ++ crossedLogs.take 1) =
      passedLogs (fun _ => true) (oneASecond Double.nearest) "acme" crossedLogs :=
  passedLogs_eq (by rfl)

end MiniSiem
