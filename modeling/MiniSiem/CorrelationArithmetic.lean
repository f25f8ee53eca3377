import MiniSiem.RuleEdits

/-! # The arithmetic of correlation rules

`CorrelationRule::evaluate` adds and subtracts machine integers that come from three places: the
timestamp of the log, the state that some evaluation has stored, and the definition, which the rules API
stores as it comes.

* **States.**  `InRange`: the times of a stored state are times of logs, and its counter can take one more
  event.  Each evaluation stores such states, whatever its definition, if it reads such
  states (`react_inRange`), so in every history all stored states are of this kind (`ranged_of_run`).
* **Arithmetic.**  `Exact`: nothing overflows, the window is reset by the integers, and the expiry
  that Redis is given is a positive number of seconds that covers the window.  In every history this holds for
  the definitions whose expiry fits a signed integer, and whenever an evaluation hands one over, for
  these alone (`exact_of_run`). -/

namespace MiniSiem

open Atomic MachineInt

/-- The expiry that a call hands over. -/
def CacheCall.expiry {T : Type} : CacheCall T → Option ℕ
  | setString _ _ expiry => expiry
  | expireKey _ ttl => some ttl
  | getString _ | deleteKey _ | zadd _ _ _ | zcard _ | zpopmin _ | zrem _ _ => none

/-- The times of the state are times of logs, and its counter can take one more event. -/
structure CorrelationState.InRange (state : CorrelationState) : Prop where
  started : minSeconds ≤ state.windowStartEventTs
  ordered : state.windowStartEventTs ≤ state.maxEventTs
  ended : state.maxEventTs ≤ maxSeconds
  counted : state.eventsInStage + 1 < 2 ^ 32

/-- A state in the text is in range. -/
def StateText.InRange (text : StateText) : Prop := ∀ state, text = .state state → state.InRange

namespace CorrelationRule

variable (r : CorrelationRule)

/-- The state that an evaluation goes on with. -/
def loaded (text : Option StateText) (log : Log) : CorrelationState :=
  stateOf text (r.getGroupKey log) log.timestamp.timestamp

/-- The newest event time with the log. -/
def newest (text : Option StateText) (log : Log) : ℤ :=
  max (r.loaded text log).maxEventTs log.timestamp.timestamp

/-- The state whose stage the log meets. -/
def entered (text : Option StateText) (log : Log) : CorrelationState :=
  r.enterWindow (r.getGroupKey log) log.timestamp.timestamp (r.loaded text log)

/-- The evaluation of a log on a text computes what it would over the integers. -/
structure ArithmeticExact (text : Option StateText) (log : Log) : Prop where
  gap : wrapI64 (r.watermark (r.newest text log) - (r.loaded text log).windowStartEventTs) =
    r.watermark (r.newest text log) - (r.loaded text log).windowStartEventTs
  count : wrapU32 ((r.entered text log).eventsInStage + 1) = (r.entered text log).eventsInStage + 1
  reset : r.windowPassed (r.loaded text log).windowStartEventTs (r.newest text log) = true ↔
    r.definition.windowSeconds.toNat <
      r.newest text log - max r.definition.watermarkLatenessSeconds.toInt 0 -
        (r.loaded text log).windowStartEventTs

/-- The state TTL of the definition, and its window with the lateness and a minute, are signed integers. -/
def ExpiryFits : Prop :=
  r.definition.stateTtlSeconds.toNat < 2 ^ 63 ∧
    r.definition.windowSeconds.toNat + max r.definition.watermarkLatenessSeconds.toInt 0 + 60 < 2 ^ 63

instance : Decidable r.ExpiryFits := inferInstanceAs (Decidable (_ ∧ _))

section range

variable {r} {state next : CorrelationState} {text : Option StateText} {log : Log} {t : ℤ}

theorem inRange_resetState (groupKey : String) (time : DateTime) :
    (resetState groupKey time.timestamp).InRange where
  started := time.timestamp_bounds.1
  ordered := le_refl _
  ended := time.timestamp_bounds.2
  counted := by
    change 0 + 1 < 2 ^ 32
    norm_num

theorem inRange_loaded (htext : ∀ read, text = some read → read.InRange) : (r.loaded text log).InRange := by
  have hreset := inRange_resetState (r.getGroupKey log) log.timestamp
  unfold loaded stateOf
  cases text with
  | none => exact hreset
  | some read =>
      cases read with
      | other text => exact hreset
      | state state =>
          dsimp only
          split_ifs
          · exact htext _ rfl state rfl
          · exact hreset

theorem inRange_enterWindow (h : state.InRange) (groupKey : String) (time : DateTime) :
    (r.enterWindow groupKey time.timestamp state).InRange := by
  have hordered := h.ordered
  have hended := h.ended
  have htime := time.timestamp_bounds.2
  unfold enterWindow
  dsimp only
  split_ifs with hnew hpassed hpassed
  · exact inRange_resetState groupKey time
  · refine ⟨h.started, ?_, htime, h.counted⟩
    change state.windowStartEventTs ≤ time.timestamp
    omega
  · exact inRange_resetState groupKey time
  · exact ⟨h.started, hordered, hended, h.counted⟩

theorem inRange_matchStage (h : state.InRange) (hnext : r.matchStage log state = some next) :
    next.InRange := by
  obtain rfl | ⟨stage, -, ⟨hcount, rfl⟩ | rfl⟩ := matchStage_some hnext
  · exact h
  · have hmin := stage.minCount.toNat_lt
    refine ⟨h.started, h.ordered, h.ended, ?_⟩
    change wrapU32 (state.eventsInStage + 1) + 1 < 2 ^ 32
    omega
  · exact ⟨h.started, h.ordered, h.ended, by norm_num⟩

/-- An evaluation of any definition leads from states in range to states in range. -/
theorem react_inRange (htext : ∀ read, text = some read → read.InRange)
    (h : r.react text log = some (some next)) : next.InRange := by
  obtain ⟨-, hmatch⟩ := react_some h
  exact inRange_matchStage (inRange_enterWindow (inRange_loaded htext) _ log.timestamp) hmatch

end range

/-! ### The expiry -/

section expiry

variable {r}

theorem stateTtlSeconds_eq : r.stateTtlSeconds = max r.definition.stateTtlSeconds.toNat
    (min (min (r.definition.windowSeconds.toNat + r.lateness.toNat) maxU64 + 60) maxU64) := rfl

theorem stateTtlSeconds_lt_iff : r.stateTtlSeconds < 2 ^ 63 ↔ r.ExpiryFits := by
  have hlate : 0 ≤ r.lateness := le_max_right _ _
  change _ ↔ _ ∧ r.definition.windowSeconds.toNat + r.lateness + 60 < 2 ^ 63
  rw [stateTtlSeconds_eq]
  unfold maxU64
  omega

theorem stateTtlSeconds_lt : r.stateTtlSeconds < 2 ^ 64 := by
  have := r.definition.stateTtlSeconds.toNat_lt
  rw [stateTtlSeconds_eq]
  unfold maxU64
  omega

theorem windowSeconds_le_stateTtlSeconds : r.definition.windowSeconds.toNat ≤ r.stateTtlSeconds := by
  have := r.definition.windowSeconds.toNat_lt
  rw [stateTtlSeconds_eq]
  unfold maxU64
  omega

theorem stateTtlSeconds_pos : 0 < r.stateTtlSeconds := by
  rw [stateTtlSeconds_eq]
  unfold maxU64
  omega

/-- On states in range the arithmetic is exact if the expiry is a signed integer. -/
theorem arithmeticExact_of_fits {text : Option StateText} {log : Log}
    (htext : ∀ read, text = some read → read.InRange) (hfits : r.ExpiryFits) :
    r.ArithmeticExact text log := by
  have hloaded : (r.loaded text log).InRange := inRange_loaded htext
  have hordered : (r.loaded text log).windowStartEventTs ≤ r.newest text log :=
    hloaded.ordered.trans (le_max_left _ _)
  have hended : r.newest text log ≤ maxSeconds :=
    max_le hloaded.ended log.timestamp.timestamp_bounds.2
  have hwindow : r.definition.windowSeconds.toNat < 2 ^ 63 :=
    windowSeconds_le_stateTtlSeconds.trans_lt (stateTtlSeconds_lt_iff.mpr hfits)
  exact ⟨r.wrapI64_gap hloaded.started hordered hended,
    wrapU32_of_lt (inRange_enterWindow hloaded _ log.timestamp).counted,
    windowPassed_iff_of_fits hwindow hloaded.started hordered hended⟩

/-- Redis is given a positive number of seconds that covers the window exactly if it is a signed integer. -/
theorem expiry_iff : (0 < wrapI64 r.stateTtlSeconds ∧
    r.definition.windowSeconds.toNat ≤ wrapI64 r.stateTtlSeconds) ↔ r.ExpiryFits := by
  rw [← stateTtlSeconds_lt_iff]
  constructor
  · rintro ⟨hpos, -⟩
    by_contra hlong
    exact absurd hpos (wrapI64_neg (Nat.le_of_not_lt hlong) stateTtlSeconds_lt).not_gt
  · intro hfits
    rw [wrapI64_of_lt hfits]
    exact ⟨by exact_mod_cast stateTtlSeconds_pos, by exact_mod_cast windowSeconds_le_stateTtlSeconds⟩

end expiry

/-! ### What an evaluation hands over -/

/-- A text that is read is in range. -/
def RangedReply : (c : CacheCall StateText) → c.Reply → Prop
  | .getString _, .ok read => ∀ text, read = some text → text.InRange
  | .getString _, .error _ => True
  | .setString _ _ _, _ | .deleteKey _, _ | .expireKey _ _, _ | .zadd _ _ _, _ | .zcard _, _
  | .zpopmin _, _ | .zrem _ _, _ => True

/-- A text that is stored is in range, and the expiry is that of the rule. -/
def Hands (c : CacheCall StateText) : Prop :=
  (∀ key text expiry, c = .setString key text expiry → text.InRange) ∧
    ∀ ttl, c.expiry = some ttl → ttl = r.stateTtlSeconds

theorem evaluate_hands (fp : String → UInt64) (alertId : Uuid) (log : Log) :
    Issues RangedReply r.Hands (r.evaluate fp alertId log) := by
  refine evaluate_issues rfl ⟨nofun, nofun⟩ (fun c hc => ?_) fun text next hread hreact => ?_
  · cases c with
    | getString key => exact hc.elim
    | setString key text expiry => exact hc.elim
    | expireKey key ttl => exact ⟨nofun, fun _ h => (Option.some.inj h).symm.trans hc.2⟩
    | _ => exact ⟨nofun, nofun⟩
  · refine ⟨fun key text expiry h => ?_, fun ttl h => (Option.some.inj h).symm⟩
    cases h
    intro state hstate
    cases hstate
    exact react_inRange hread hreact

end CorrelationRule

/-- The evaluation computes what it would over the integers, and the expiry that it hands over is a positive
number of seconds, not below the window. -/
structure Evaluation.Exact (e : Evaluation) : Prop where
  arithmetic : e.rule.ArithmeticExact e.text e.log
  handed : ∀ c, e.prog.next = some c → ∀ ttl, c.expiry = some ttl →
    0 < wrapI64 ttl ∧ e.rule.definition.windowSeconds.toNat ≤ wrapI64 ttl

namespace RuleHistory

open CorrelationRule

variable (fp : String → UInt64)

/-- All texts, read or stored, are in range, and the evaluations under way keep them so. -/
structure Ranged (w : RuleHistory) : Prop where
  progs : ∀ e ∈ w.evaluations, CorrelationRule.Issues RangedReply e.rule.Hands e.prog
  read : ∀ e ∈ w.evaluations, ∀ text, e.text = some text → text.InRange
  cached : ∀ key text, w.texts.getString key = .ok (some text) → text.InRange

section ranged

variable {fp} {w w' : RuleHistory}

/-- The replies in such a history are in range. -/
theorem Ranged.reply (hw : w.Ranged) {c : CacheCall StateText} {reply : c.Reply} {s : Cache StateText}
    (h : c.Answers w.texts reply s) : RangedReply c reply := by
  cases c with
  | getString key =>
      cases reply with
      | error e => trivial
      | ok read =>
          rintro text rfl
          refine hw.cached key text ((h.text h.getString).resolve_right fun hset => ?_)
          obtain ⟨ttl, hset⟩ := hset
          cases hset
  | _ => trivial

/-- What an evaluation holds after a reply in range is in range. -/
theorem inRange_reads {e : Evaluation} {c : CacheCall StateText} {reply : (e.traced c).Reply}
    (hreply : RangedReply c (e.seen c reply)) (hread : ∀ text, e.text = some text → text.InRange)
    {text : StateText} (h : (e.reads c reply).1 = some text) : text.InRange := by
  cases c with
  | getString key =>
      cases reply with
      | error err => cases h
      | ok read =>
          cases read with
          | none => cases h
          | some entry => exact hreply text h
  | _ => exact hread text h

theorem Ranged.step (hw : w.Ranged) (h : Step fp w w') : w'.Ranged := by
  cases h with
  | update => exact ⟨hw.progs, hw.read, hw.cached⟩
  | reload => exact ⟨hw.progs, hw.read, hw.cached⟩
  | start alertId hidx hrule =>
      rename_i idx log rule
      refine ⟨fun e he => ?_, fun e he text htext => ?_, hw.cached⟩
      · rcases List.mem_cons.mp he with rfl | he
        · exact rule.evaluate_hands fp alertId log
        · exact hw.progs e he
      · rcases List.mem_cons.mp he with rfl | he
        · cases htext
        · exact hw.read e he text htext
  | call hevals hc h =>
      rename_i front back e c k reply cache
      have he : e ∈ w.evaluations := by
        rw [hevals]
        exact List.mem_append_right _ List.mem_cons_self
      have hanswer : c.Answers w.texts (e.seen c reply) (Cache.map Prod.fst cache) :=
        RuleHistory.Step.call_texts h
      have hreply := hw.reply hanswer
      have hprog := hw.progs e he
      rw [hc] at hprog
      obtain ⟨hhands, hrest⟩ := hprog () le_rfl
      refine ⟨fun e' he' => ?_, fun e' he' text htext => ?_, fun key text htext => ?_⟩
      · rcases mem_resumed hevals he' with rfl | he'
        · exact hrest _ hreply
        · exact hw.progs e' he'
      · rcases mem_resumed hevals he' with rfl | he'
        · exact inRange_reads hreply (hw.read e he) htext
        · exact hw.read e' he' text htext
      · rcases hanswer.text htext with hold | ⟨ttl, hset⟩
        · exact hw.cached key text hold
        · exact hhands.1 key text ttl hset

theorem ranged_of_run {data : TenantData}
    (h : Relation.ReflTransGen (Step fp) (initial data) w) : w.Ranged := by
  induction h with
  | refl =>
      exact ⟨fun _ he => (List.not_mem_nil he).elim, fun _ he => (List.not_mem_nil he).elim,
        fun _ _ h => by cases h⟩
  | tail _ hstep ih => exact ih.step hstep

end ranged

/-- **Exact arithmetic.**  In every history the evaluations are exact if their expiry is a signed integer,
and those that hand an expiry over only then. -/
theorem exact_of_run {data : TenantData} {w : RuleHistory}
    (h : Relation.ReflTransGen (Step fp) (initial data) w) {e : Evaluation} (he : e ∈ w.evaluations) :
    (e.rule.ExpiryFits → e.Exact) ∧
      ∀ c, e.prog.next = some c → ∀ ttl, c.expiry = some ttl → (e.Exact ↔ e.rule.ExpiryFits) := by
  have hranged := ranged_of_run h
  have hhands : ∀ c, e.prog.next = some c → ∀ ttl, c.expiry = some ttl → ttl = e.rule.stateTtlSeconds :=
    fun c hc => ((hranged.progs e he).of_next hc).2
  have hexact : e.rule.ExpiryFits → e.Exact := fun hfits =>
    { arithmetic := arithmeticExact_of_fits (hranged.read e he) hfits
      handed := fun c hc ttl httl => by
        rw [hhands c hc ttl httl]
        exact expiry_iff.mpr hfits }
  refine ⟨hexact, fun c hc ttl httl => ⟨fun hex => ?_, hexact⟩⟩
  have hpair := hex.handed c hc ttl httl
  rw [hhands c hc ttl httl] at hpair
  exact expiry_iff.mp hpair

/-! ### An expiry that does not fit -/

/-- The history after the next call of the evaluation that was started last. -/
def advanced (w : RuleHistory) : RuleHistory :=
  match w.evaluations with
  | [] => w
  | e :: back =>
      match e.prog with
      | .ret _ => w
      | .call c k =>
          let out := Cache.exec (e.traced c) w.cache
          { w with evaluations := e.resume c k out.1 :: back, cache := out.2 }

theorem steps_advanced (w : RuleHistory) : Relation.ReflTransGen (Step fp) w w.advanced := by
  unfold advanced
  cases hevals : w.evaluations with
  | nil => exact .refl
  | cons e back =>
      dsimp only
      cases hprog : e.prog with
      | ret a => exact .refl
      | call c k => exact .single (@Step.call fp w [] back e c k _ _ hevals hprog (CacheCall.answers_exec _ _))

theorem advanced_evaluations_ne {w : RuleHistory} (h : w.evaluations ≠ []) : w.advanced.evaluations ≠ [] := by
  unfold advanced
  cases hevals : w.evaluations with
  | nil => exact absurd hevals h
  | cons e back =>
      dsimp only
      cases e.prog with
      | ret a => exact h
      | call c k => exact List.cons_ne_nil _ _

/-- A row with a state TTL of its own. -/
def ttlRow (stateTtlSeconds : ℕ) : StoredRule :=
  { twoStageRow "login_failed" "logout" with
    condition := some (.obj [("group_by", .arr [.str "source_ip"]),
      ("stages", .arr [stageJson "login_failed", stageJson "logout"]),
      ("state_ttl_seconds", .num (.posInt stateTtlSeconds)), ("window_seconds", .num (.posInt 300))]) }

def ttlRule (stateTtlSeconds : UInt64) : CorrelationRule :=
  { twoStageRule "login_failed" "logout" with
    definition := { (twoStageRule "login_failed" "logout").definition with stateTtlSeconds } }

/-- The rule is loaded. -/
def ttlLoaded (stateTtlSeconds : ℕ) : RuleHistory :=
  { initial (oneRule (ttlRow stateTtlSeconds)) with
    indexes := [reloadRules [(ttlRow stateTtlSeconds).toDetectionRule]] }

/-- The evaluation of a log under the rule is started. -/
def ttlStarted (stateTtlSeconds : ℕ) : RuleHistory :=
  { ttlLoaded stateTtlSeconds with
    evaluations := [.start (fun _ => 0) (ttlRule (UInt64.ofNat stateTtlSeconds)) "a1"
      (loginLog "login_failed" (.ofSeconds 0)).2] }

/-- It has read the state and the index and is about to store the next state. -/
def storing (stateTtlSeconds : ℕ) : RuleHistory := (ttlStarted stateTtlSeconds).advanced.advanced

theorem steps_storing {stateTtlSeconds : ℕ}
    (h : compile (ttlRow stateTtlSeconds).toDetectionRule =
      some (.correlation (ttlRule (UInt64.ofNat stateTtlSeconds)))) :
    Relation.ReflTransGen (Step fun _ => 0) (initial (oneRule (ttlRow stateTtlSeconds)))
      (storing stateTtlSeconds) := by
  have hload : Step (fun _ => 0) (initial (oneRule (ttlRow stateTtlSeconds))) (ttlLoaded stateTtlSeconds) :=
    .reload _
  have hcandidate := candidate_of_compile h
    (rfl : _ = (loginLog "login_failed" (.ofSeconds 0)).2.tenantId)
  have hstart : Step (fun _ => 0) (ttlLoaded stateTtlSeconds) (ttlStarted stateTtlSeconds) :=
    .start "a1" List.mem_cons_self hcandidate
  exact ((Relation.ReflTransGen.single hload).tail hstart).trans
    ((steps_advanced _ _).trans (steps_advanced _ _))

theorem storing_evaluations_ne (stateTtlSeconds : ℕ) : (storing stateTtlSeconds).evaluations ≠ [] := by
  have hstarted : (ttlStarted stateTtlSeconds).evaluations ≠ [] := List.cons_ne_nil _ _
  exact advanced_evaluations_ne (advanced_evaluations_ne hstarted)

/-- The evaluation that is about to store the state. -/
def storingEvaluation (stateTtlSeconds : ℕ) : Evaluation :=
  (storing stateTtlSeconds).evaluations.head (storing_evaluations_ne stateTtlSeconds)

/-- An expiry of an hour is handed over as it is. -/
theorem hourTtl_exact : (∃ w, Relation.ReflTransGen (Step fun _ => 0) (initial (oneRule (ttlRow 3600))) w ∧
      storingEvaluation 3600 ∈ w.evaluations) ∧
    (storingEvaluation 3600).prog.next.bind CacheCall.expiry = some 3600 ∧
    (storingEvaluation 3600).Exact := by
  have hrun := @steps_storing 3600 rfl
  have hmem : storingEvaluation 3600 ∈ (storing 3600).evaluations := List.head_mem _
  exact ⟨⟨_, hrun, hmem⟩, by decide +kernel, (exact_of_run _ hrun hmem).1 (by decide +kernel)⟩

/-- An expiry of `2 ^ 63` seconds is handed over as a negative one. -/
theorem hugeTtl_negative : ¬ ∀ (fp : String → UInt64) (data : TenantData) (w : RuleHistory),
    Relation.ReflTransGen (Step fp) (initial data) w → ∀ e ∈ w.evaluations, e.Exact := by
  intro h
  have hrun := @steps_storing 9223372036854775808 rfl
  have hmem : storingEvaluation 9223372036854775808 ∈ (storing 9223372036854775808).evaluations :=
    List.head_mem _
  have hnext : (storingEvaluation 9223372036854775808).prog.next.bind CacheCall.expiry =
      some 9223372036854775808 := by decide +kernel
  obtain ⟨c, hc, httl⟩ := Option.bind_eq_some_iff.mp hnext
  have hpos := ((h _ _ _ hrun _ hmem).handed c hc _ httl).1
  revert hpos
  decide

end RuleHistory

end MiniSiem
