import MiniSiem.Rules
import MiniSiem.RedisCounters
import MiniSiem.Lib.Unwinding

/-! # Brute-force rules and their shared counters

`BruteForceRule::evaluate` of `detection/rules/brute_force.rs`, run by the rules of many tenants
over one Redis.

* **Counter key.**  The key of a counter is the `source_ip` of the log as it is, without tenant
  and rule, so it is shared with every other rule and with any other key of that name.
* **Runs.**  A run is a list of logs, each evaluated by every brute-force rule of its tenant, and
  of writes of other components; `firings` are the evaluations of one rule that raised an alert.
* **Specification.**  `expected` counts for one rule alone, in a window per address that starts
  with the first failed login counted.
* **Isolation.**  `bruteForce_isolated`: a rule whose counter keys nothing else touches fires as
  expected, whatever the other tenants' logs are. -/

namespace MiniSiem

open Unwinding

/-- `BruteForceRule::evaluate` at time `now`. -/
def BruteForceRule.evaluate (r : BruteForceRule) (alertId : Uuid) (now : DateTime) (log : Log)
    (c : RedisCache) : Except RedisError (Option Alert) × RedisCache :=
  if !log.isFailedLogin then (.ok none, c)
  else
    let key := log.sourceIp
    match c.incrementCounter now key r.windowSeconds.toUInt64 with
    | (.error e, c) => (.error e, c)
    | (.ok count, c) =>
        if r.threshold ≤ count then
          (.ok (some (Alert.new alertId now log.tenantId r.id r.name .high
            ("Possible brute force attack from " ++ log.sourceIp ++ ": " ++ count.toNat.repr ++
              " failed attempts") log.sourceIp [log])), c)
        else (.ok none, c)

/-! ### Runs -/

/-- A log to be evaluated, with the identifiers of the alerts it may raise, or a write of another
component to a Redis key. -/
inductive RedisInput where
  | log (now : DateTime) (log : Log) (alertIds : String → Uuid)
  | write (key : String) (entry : Option RedisEntry)

/-- What reaches Redis: the evaluation of a log by one rule, or the write. -/
inductive RedisEvent where
  | evaluate (r : BruteForceRule) (alertId : Uuid) (now : DateTime) (log : Log)
  | write (key : String) (entry : Option RedisEntry)

/-- Every brute-force rule of the tenant evaluates the log. -/
def RedisInput.events (rules : List BruteForceRule) : RedisInput → List RedisEvent
  | log now l alertIds =>
      (rules.filter (fun r => r.tenantId = l.tenantId)).map fun r => .evaluate r (alertIds r.id) now l
  | write key entry => [.write key entry]

/-- The effect of an event, and whether it raised an alert. -/
def RedisEvent.step : RedisEvent → RedisCache → Bool × RedisCache
  | evaluate r alertId now log, c =>
      match r.evaluate alertId now log c with
      | (.ok (some _), c) => (true, c)
      | (_, c) => (false, c)
  | write key entry, c => (false, { c with keys := Function.update c.keys key entry })

def RedisEvent.isBy (r : BruteForceRule) : RedisEvent → Bool
  | evaluate r' _ _ _ => r' = r
  | write _ _ => false

/-- The Redis key the event may change. -/
def RedisEvent.touches : RedisEvent → Option String
  | evaluate _ _ _ log => if log.isFailedLogin then some log.sourceIp else none
  | write key _ => some key

/-- For every log the rule evaluates in the run, whether the rule raises an alert. -/
def firings (rules : List BruteForceRule) (r : BruteForceRule) (run : List RedisInput)
    (c : RedisCache) : List Bool :=
  ownReplies RedisEvent.step (RedisEvent.isBy r) (run.flatMap (RedisInput.events rules)) c

/-- The logs of a tenant in a run, with the times they are evaluated at. -/
def tenantLogs (tenantId : String) (run : List RedisInput) : List (DateTime × Log) :=
  run.filterMap fun
    | .log now l _ => if l.tenantId = tenantId then some (now, l) else none
    | .write _ _ => none

/-! ### Specification -/

/-- A counter window: what was counted in it and when it closes, in milliseconds. -/
structure CounterWindow where
  count : ℕ
  closes : ℤ

/-- Count one login: in the open window, or in a new one. -/
def CounterWindow.next (seconds : ℤ) (now : DateTime) : Option CounterWindow → CounterWindow
  | some w =>
      if 0 < seconds ∧ now.millis ≤ w.closes then ⟨w.count + 1, w.closes⟩
      else ⟨1, now.millis + seconds * 1000⟩
  | none => ⟨1, now.millis + seconds * 1000⟩

/-- What a rule does that counts for itself: it fires on a failed login when the window of the
address holds at least `threshold` of them. -/
def expected (r : BruteForceRule) (w : String → Option CounterWindow) :
    List (DateTime × Log) → List Bool
  | [] => []
  | (now, log) :: rest =>
      if log.isFailedLogin then
        let window := CounterWindow.next r.windowSeconds.toInt now (w log.sourceIp)
        decide (r.threshold.toNat ≤ window.count) ::
          expected r (Function.update w log.sourceIp (some window)) rest
      else false :: expected r w rest

/-- No window holds 2^32 failed logins or more. -/
def countsFit (r : BruteForceRule) (w : String → Option CounterWindow) :
    List (DateTime × Log) → Bool
  | [] => true
  | (now, log) :: rest =>
      if log.isFailedLogin then
        let window := CounterWindow.next r.windowSeconds.toInt now (w log.sourceIp)
        decide (window.count < 2 ^ 32) &&
          countsFit r (Function.update w log.sourceIp (some window)) rest
      else countsFit r w rest

/-- The addresses of the failed logins among the logs. -/
def failedIps (logs : List (DateTime × Log)) : List String :=
  (logs.filter fun d => d.2.isFailedLogin).map fun d => d.2.sourceIp

/-- Nothing but the rule's own evaluations touches the counter keys of the rule, which are unused
at the start, and its counts fit the reply type. -/
structure Undisturbed (rules : List BruteForceRule) (r : BruteForceRule) (run : List RedisInput)
    (c : RedisCache) : Prop where
  fresh : ∀ ip ∈ failedIps (tenantLogs r.tenantId run), c.keys ip = none
  alone : ∀ e ∈ run.flatMap (RedisInput.events rules), e.isBy r = false →
    ∀ ip ∈ failedIps (tenantLogs r.tenantId run), e.touches ≠ some ip
  fits : countsFit r (fun _ => none) (tenantLogs r.tenantId run) = true

/-! ### The counter of a key and its window -/

/-- The Redis entry of a counter window; a window without length leaves no entry. -/
def CounterWindow.entry (seconds : ℤ) (w : CounterWindow) : Option RedisEntry :=
  if 0 < seconds then some ⟨.int w.count, some w.closes⟩ else none

/-- The entry of a key is that of its window. -/
def Matches (r : BruteForceRule) (w : Option CounterWindow) (e : Option RedisEntry) : Prop :=
  match w with
  | none => e = none
  | some w => e = w.entry r.windowSeconds.toInt ∧ 1 ≤ w.count

section counter

variable {r : BruteForceRule} {now : DateTime} {key : String} {c : RedisCache}

theorem incr_absent (h : c.live now key = none) : c.incr now key =
    (.ok 1, { c with keys := Function.update c.keys key (some ⟨.int 1, none⟩) }) := by
  unfold RedisCache.incr
  rw [h]

/-- An increment that finds no live counter opens a window. -/
theorem incrementCounter_absent (h : c.live now key = none) :
    (c.incrementCounter now key r.windowSeconds.toUInt64).1 = .ok 1 ∧
    (c.incrementCounter now key r.windowSeconds.toUInt64).2.keys key =
      CounterWindow.entry r.windowSeconds.toInt ⟨1, now.millis + r.windowSeconds.toInt * 1000⟩ := by
  unfold RedisCache.incrementCounter
  rw [incr_absent h]
  refine ⟨rfl, ?_⟩
  have hone : UInt32.ofInt 1 = 1 := rfl
  simp only [hone, if_true, RedisCache.expire, Int64.toInt64_toUInt64, Function.update_self,
    Option.map_some]
  unfold CounterWindow.entry
  by_cases hpos : 0 < r.windowSeconds.toInt
  · rw [if_pos hpos, if_neg (by omega)]
    rfl
  · rw [if_neg hpos, if_pos (by omega)]

/-- An increment of a live counter counts in the open window. -/
theorem incrementCounter_live {n : ℕ} {closes : ℤ} (h₁ : 1 ≤ n) (h₂ : n + 1 < 2 ^ 32)
    (h : c.live now key = some ⟨.int n, some closes⟩) :
    (c.incrementCounter now key r.windowSeconds.toUInt64).1 = .ok (UInt32.ofNat (n + 1)) ∧
    (c.incrementCounter now key r.windowSeconds.toUInt64).2.keys key =
      some ⟨.int (n + 1 : ℕ), some closes⟩ := by
  have hincr : c.incr now key = (.ok (n + 1 : ℕ),
      { c with keys := Function.update c.keys key (some ⟨.int (n + 1 : ℕ), some closes⟩) }) := by
    unfold RedisCache.incr
    rw [h]
    dsimp only
    rw [if_pos (by omega), if_pos (by omega)]
    rfl
  have hcount : UInt32.ofInt ((n + 1 : ℕ) : ℤ) = UInt32.ofNat (n + 1) := by
    unfold UInt32.ofInt
    congr 1
    omega
  have hne : UInt32.ofNat (n + 1) ≠ 1 := by
    intro he
    have := congrArg UInt32.toNat he
    rw [UInt32.toNat_ofNat_of_lt' (by omega)] at this
    simp at this
    omega
  unfold RedisCache.incrementCounter
  rw [hincr]
  simp only [hcount, if_neg hne]
  exact ⟨trivial, Function.update_self _ _ _⟩

/-- The counter counts like the window: the reply is the count of the next window, and the entry
of the key becomes that of the next window. -/
def CountsLike (r : BruteForceRule) (now : DateTime) (key : String) (w : Option CounterWindow)
    (c : RedisCache) : Prop :=
  (c.incrementCounter now key r.windowSeconds.toUInt64).1 =
    .ok (UInt32.ofNat (CounterWindow.next r.windowSeconds.toInt now w).count) ∧
  Matches r (some (CounterWindow.next r.windowSeconds.toInt now w))
    ((c.incrementCounter now key r.windowSeconds.toUInt64).2.keys key)

theorem countsLike_of_absent {w : Option CounterWindow} (hlive : c.live now key = none)
    (hnext : CounterWindow.next r.windowSeconds.toInt now w =
      ⟨1, now.millis + r.windowSeconds.toInt * 1000⟩) : CountsLike r now key w c := by
  unfold CountsLike
  rw [hnext]
  obtain ⟨hreply, hentry⟩ := incrementCounter_absent (r := r) hlive
  exact ⟨hreply, hentry, le_refl 1⟩

theorem countsLike_of_matches {w : Option CounterWindow} (h : Matches r w (c.keys key))
    (hfit : (CounterWindow.next r.windowSeconds.toInt now w).count < 2 ^ 32) :
    CountsLike r now key w c := by
  cases w with
  | none =>
      have hlive : c.live now key = none := by
        unfold RedisCache.live
        rw [show c.keys key = none from h]
        rfl
      exact countsLike_of_absent hlive rfl
  | some w =>
      obtain ⟨hentry, hpos⟩ := h
      unfold CounterWindow.entry at hentry
      by_cases hsec : 0 < r.windowSeconds.toInt
      · rw [if_pos hsec] at hentry
        by_cases hopen : now.millis ≤ w.closes
        · have hlive : c.live now key = some ⟨.int w.count, some w.closes⟩ := by
            unfold RedisCache.live
            rw [hentry, Option.filter_some, if_pos (by simpa using hopen)]
          have hnext : CounterWindow.next r.windowSeconds.toInt now (some w) =
              ⟨w.count + 1, w.closes⟩ := if_pos ⟨hsec, hopen⟩
          unfold CountsLike
          rw [hnext] at hfit ⊢
          obtain ⟨hreply, hkey⟩ := incrementCounter_live (r := r) hpos hfit hlive
          refine ⟨hreply, ?_, by simp only; omega⟩
          rw [hkey]
          exact (if_pos hsec).symm
        · have hlive : c.live now key = none := by
            unfold RedisCache.live
            rw [hentry, Option.filter_some, if_neg (by simpa using hopen)]
          exact countsLike_of_absent hlive (if_neg fun hc => hopen hc.2)
      · rw [if_neg hsec] at hentry
        have hlive : c.live now key = none := by
          unfold RedisCache.live
          rw [hentry]
          rfl
        exact countsLike_of_absent hlive (if_neg fun hc => hsec hc.1)

end counter

/-! ### Isolation -/

section isolation

variable (r : BruteForceRule)

/-- The caches agree on the keys. -/
def AgreeOn (keys : List String) (c c' : RedisCache) : Prop := ∀ k ∈ keys, c.keys k = c'.keys k

theorem step_evaluate_skip {alertId : Uuid} {now : DateTime} {log : Log} (c : RedisCache)
    (h : log.isFailedLogin = false) :
    (RedisEvent.evaluate r alertId now log).step c = (false, c) := by
  simp [RedisEvent.step, BruteForceRule.evaluate, h]

/-- A failed login is counted, and raises an alert when the count reaches the threshold. -/
theorem step_evaluate_count {alertId : Uuid} {now : DateTime} {log : Log} (c : RedisCache)
    (h : log.isFailedLogin = true) :
    (RedisEvent.evaluate r alertId now log).step c =
      (match (c.incrementCounter now log.sourceIp r.windowSeconds.toUInt64).1 with
        | .ok count => decide (r.threshold ≤ count)
        | .error _ => false,
       (c.incrementCounter now log.sourceIp r.windowSeconds.toUInt64).2) := by
  unfold RedisEvent.step BruteForceRule.evaluate
  simp only [h, Bool.not_true, Bool.false_eq_true, if_false]
  rcases c.incrementCounter now log.sourceIp r.windowSeconds.toUInt64 with ⟨_ | count, c'⟩
  · rfl
  · by_cases hle : r.threshold ≤ count
    · simp [hle]
    · simp [hle]

theorem evaluate_step_frame {alertId : Uuid} {now : DateTime} {log : Log} {c : RedisCache}
    {k : String} (h : (RedisEvent.evaluate r alertId now log).touches ≠ some k) :
    ((RedisEvent.evaluate r alertId now log).step c).2.keys k = c.keys k := by
  cases hf : log.isFailedLogin with
  | false => rw [step_evaluate_skip r c hf]
  | true =>
      have hne : k ≠ log.sourceIp := by
        intro he
        exact h (by rw [he]; exact if_pos hf)
      rw [step_evaluate_count r c hf]
      exact c.incrementCounter_frame now _ hne

/-- An event that touches none of the keys cannot be told from no event. -/
theorem respects_of_not_touches {keys : List String} {e : RedisEvent}
    (h : ∀ k ∈ keys, e.touches ≠ some k) : Respects RedisEvent.step (AgreeOn keys) e := by
  intro c c' hagree k hk
  rw [← hagree k hk]
  cases e with
  | evaluate r alertId now log => exact evaluate_step_frame r (h k hk)
  | write key entry => exact Function.update_of_ne (fun he => h k hk (by rw [he]; rfl)) _ _

/-- An evaluation that counts under one of the keys depends on the keys only. -/
theorem consistent_evaluate {keys : List String} {alertId : Uuid} {now : DateTime} {log : Log}
    (h : log.isFailedLogin = true → log.sourceIp ∈ keys) :
    Consistent RedisEvent.step (AgreeOn keys) (.evaluate r alertId now log) := by
  intro c c' hagree
  cases hf : log.isFailedLogin with
  | false =>
      rw [step_evaluate_skip r c hf, step_evaluate_skip r c' hf]
      exact ⟨rfl, hagree⟩
  | true =>
      obtain ⟨hreply, hkey⟩ := RedisCache.incrementCounter_congr now r.windowSeconds.toUInt64
        (hagree _ (h hf))
      rw [step_evaluate_count r c hf, step_evaluate_count r c' hf, hreply]
      refine ⟨rfl, fun k hk => ?_⟩
      by_cases hke : k = log.sourceIp
      · rw [hke]
        exact hkey
      · exact (c.incrementCounter_frame now _ hke).trans
          ((hagree k hk).trans (c'.incrementCounter_frame now _ hke).symm)

/-- The time and the log of an evaluation. -/
def RedisEvent.stamp : RedisEvent → Option (DateTime × Log)
  | evaluate _ _ now log => some (now, log)
  | write _ _ => none

/-- Alone, the rule fires as expected. -/
theorem replies_own_eq_expected {es : List RedisEvent} (hown : ∀ e ∈ es, e.isBy r = true)
    {w : String → Option CounterWindow} {c : RedisCache}
    (hmatch : ∀ ip ∈ failedIps (es.filterMap RedisEvent.stamp), Matches r (w ip) (c.keys ip))
    (hfit : countsFit r w (es.filterMap RedisEvent.stamp) = true) :
    replies RedisEvent.step es c = expected r w (es.filterMap RedisEvent.stamp) := by
  induction es generalizing w c with
  | nil => rfl
  | cons e es ih =>
      have hown' : ∀ e ∈ es, e.isBy r = true := fun d hd => hown d (List.mem_cons_of_mem _ hd)
      obtain ⟨alertId, now, log, rfl⟩ : ∃ alertId now log, e = .evaluate r alertId now log := by
        have he := hown e List.mem_cons_self
        cases e with
        | write key entry => cases he
        | evaluate r' alertId now log =>
            obtain rfl : r' = r := of_decide_eq_true he
            exact ⟨alertId, now, log, rfl⟩
      have hstamp : (RedisEvent.evaluate r alertId now log :: es).filterMap RedisEvent.stamp =
          (now, log) :: es.filterMap RedisEvent.stamp := rfl
      rw [hstamp] at hmatch hfit ⊢
      rw [replies, expected]
      rw [countsFit] at hfit
      cases hf : log.isFailedLogin with
      | false =>
          rw [hf] at hfit
          rw [step_evaluate_skip r c hf]
          simp only [Bool.false_eq_true, if_false] at hfit ⊢
          rw [ih hown' (fun ip hip => hmatch ip ?_) hfit]
          simpa [failedIps, hf] using hip
      | true =>
          rw [hf] at hfit
          simp only [if_true, Bool.and_eq_true, decide_eq_true_eq] at hfit ⊢
          obtain ⟨hlt, hfit⟩ := hfit
          have hmem : log.sourceIp ∈ failedIps ((now, log) :: es.filterMap RedisEvent.stamp) := by
            simp [failedIps, hf]
          obtain ⟨hreply, hkey⟩ := countsLike_of_matches (hmatch _ hmem) hlt
          rw [step_evaluate_count r c hf, hreply]
          have hthreshold : decide (r.threshold ≤ UInt32.ofNat
              (CounterWindow.next r.windowSeconds.toInt now (w log.sourceIp)).count) =
              decide (r.threshold.toNat ≤
              (CounterWindow.next r.windowSeconds.toInt now (w log.sourceIp)).count) := by
            refine decide_eq_decide.mpr ?_
            rw [UInt32.le_iff_toNat_le, UInt32.toNat_ofNat_of_lt' hlt]
          rw [ih hown' (fun ip hip => ?_) hfit]
          · exact congrArg (· :: _) hthreshold
          · by_cases he : ip = log.sourceIp
            · rw [he, Function.update_self]
              exact hkey
            · rw [Function.update_of_ne he, c.incrementCounter_frame now _ he]
              refine hmatch ip ?_
              unfold failedIps at hip ⊢
              simp only [List.filter_cons, hf, if_true, List.map_cons]
              exact List.mem_cons_of_mem _ hip

/-- The own evaluations of a rule in a run are those of its tenant's logs, once each. -/
theorem ownEvents_stamp {rules : List BruteForceRule} (hrules : rules.Nodup) (hr : r ∈ rules)
    (run : List RedisInput) :
    ((run.flatMap (RedisInput.events rules)).filter (RedisEvent.isBy r)).filterMap RedisEvent.stamp =
      tenantLogs r.tenantId run := by
  induction run with
  | nil => rfl
  | cons input run ih =>
      rw [List.flatMap_cons, List.filter_append, List.filterMap_append, ih]
      unfold tenantLogs
      rw [List.filterMap_cons]
      cases input with
      | write key entry => rfl
      | log now l alertIds =>
          have hfilter : ((RedisInput.log now l alertIds).events rules).filter (RedisEvent.isBy r) =
              ((rules.filter fun r' => r' = r).filter fun r' => r'.tenantId = l.tenantId).map
                fun r' => .evaluate r' (alertIds r'.id) now l := by
            unfold RedisInput.events
            rw [List.filter_map, List.filter_filter, List.filter_filter]
            congr 1
            refine List.filter_congr fun r' _ => ?_
            exact Bool.and_comm _ _
          have hone : (rules.filter fun r' => r' = r) = [r] := by
            have hcount := List.filter_beq (l := rules) r
            rw [List.count_eq_one_of_mem hrules hr] at hcount
            exact hcount
          rw [hfilter, hone]
          by_cases ht : r.tenantId = l.tenantId
          · simp [ht, RedisEvent.stamp]
          · simp [ht, Ne.symm ht]

/-- A rule that nothing disturbs fires as expected. -/
theorem firings_eq_expected {rules : List BruteForceRule} (hrules : rules.Nodup) (hr : r ∈ rules)
    {run : List RedisInput} {c : RedisCache} (h : Undisturbed rules r run c) :
    firings rules r run c = expected r (fun _ => none) (tenantLogs r.tenantId run) := by
  have hstamp := ownEvents_stamp r hrules hr run
  have hown : ∀ e ∈ run.flatMap (RedisInput.events rules), e.isBy r = true →
      Consistent RedisEvent.step (AgreeOn (failedIps (tenantLogs r.tenantId run))) e := by
    intro e he hby
    cases e with
    | write key entry => cases hby
    | evaluate r' alertId now log =>
        obtain rfl : r' = r := of_decide_eq_true hby
        refine consistent_evaluate r' fun hf => ?_
        have hmem : (now, log) ∈ tenantLogs r'.tenantId run := by
          rw [← hstamp]
          exact List.mem_filterMap.mpr ⟨_, List.mem_filter.mpr ⟨he, hby⟩, rfl⟩
        exact List.mem_map_of_mem (List.mem_filter.mpr ⟨hmem, hf⟩)
  have hother : ∀ e ∈ run.flatMap (RedisInput.events rules), e.isBy r = false →
      Respects RedisEvent.step (AgreeOn (failedIps (tenantLogs r.tenantId run))) e :=
    fun e he hby => respects_of_not_touches (h.alone e he hby)
  unfold firings
  rw [ownReplies_eq_replies_filter RedisEvent.step hown hother (fun _ _ => rfl), ← hstamp]
  refine replies_own_eq_expected r (fun e he => (List.mem_filter.mp he).2) ?_ ?_
  · rw [hstamp]
    exact h.fresh
  · rw [hstamp]
    exact h.fits

end isolation

/-- **Brute-force detection is isolated** for a rule whose counter keys nothing else touches: it
fires as if it counted for itself, and the same in two runs with the same logs of its tenant. -/
theorem bruteForce_isolated (rules : List BruteForceRule) (hrules : rules.Nodup)
    (r : BruteForceRule) (hr : r ∈ rules) (run₁ run₂ : List RedisInput) (c₁ c₂ : RedisCache)
    (hagree : tenantLogs r.tenantId run₁ = tenantLogs r.tenantId run₂)
    (h₁ : Undisturbed rules r run₁ c₁) (h₂ : Undisturbed rules r run₂ c₂) :
    firings rules r run₁ c₁ = expected r (fun _ => none) (tenantLogs r.tenantId run₁) ∧
    firings rules r run₁ c₁ = firings rules r run₂ c₂ := by
  refine ⟨firings_eq_expected r hrules hr h₁, ?_⟩
  rw [firings_eq_expected r hrules hr h₁, firings_eq_expected r hrules hr h₂, hagree]

/-- Two tenants with a rule each, and a failed login of each from one address. -/
def sharedAddressRule (tenantId : String) : BruteForceRule where
  tenantId := tenantId
  name := "brute force"
  id := "rule of " ++ tenantId
  threshold := 2
  windowSeconds := 300

def failedLoginInput (tenantId sourceIp : String) : RedisInput :=
  .log (.ofSeconds 0)
    { id := "l1", tenantId, timestamp := .ofSeconds 0, eventType := "login_failed", sourceIp,
      targetUser := none, service := none, message := "", severity := .info, metadata := .null,
      receivedAt := .ofSeconds 0 } (fun _ => "a1")

def emptyRedis : RedisCache := ⟨fun _ => none, fun _ => none⟩

/-- The other tenant's failed login counts for the rule of the first one. -/
theorem sharedAddress_not_isolated :
    ¬ ∀ (rules : List BruteForceRule) (r : BruteForceRule) (run₁ run₂ : List RedisInput)
      (c : RedisCache), rules.Nodup → r ∈ rules →
      tenantLogs r.tenantId run₁ = tenantLogs r.tenantId run₂ →
      firings rules r run₁ c = firings rules r run₂ c := by
  intro h
  have := h [sharedAddressRule "t1", sharedAddressRule "t2"] (sharedAddressRule "t1")
    [failedLoginInput "t1" "10.0.0.1"]
    [failedLoginInput "t2" "10.0.0.1", failedLoginInput "t1" "10.0.0.1"] emptyRedis
    (by decide) (by decide) rfl
  revert this
  decide

/-- The other tenant's failed login comes from another address. -/
theorem ownAddress_isolated :
    let rules := [sharedAddressRule "t1", sharedAddressRule "t2"]
    let run₁ := [failedLoginInput "t1" "10.0.0.1"]
    let run₂ := [failedLoginInput "t2" "10.0.0.2", failedLoginInput "t1" "10.0.0.1"]
    firings rules (sharedAddressRule "t1") run₁ emptyRedis =
      expected (sharedAddressRule "t1") (fun _ => none) (tenantLogs "t1" run₁) ∧
    firings rules (sharedAddressRule "t1") run₁ emptyRedis =
      firings rules (sharedAddressRule "t1") run₂ emptyRedis :=
  bruteForce_isolated [sharedAddressRule "t1", sharedAddressRule "t2"] (by decide)
    (sharedAddressRule "t1") (by decide) [failedLoginInput "t1" "10.0.0.1"]
    [failedLoginInput "t2" "10.0.0.2", failedLoginInput "t1" "10.0.0.1"] emptyRedis emptyRedis rfl
    ⟨by decide, by decide, by decide⟩ ⟨by decide, by decide, by decide⟩

end MiniSiem
