import MiniSiem.IngestTraces
import MiniSiem.Lib.Dues
import MiniSiem.TenantKeys

/-! # Usage adds up

Any number of calls of `record_cost_usage` (`costs.rs`) of one tenant on one date, command by command on
Redis, within the 24 hours that a counter lives.

* **Store.**  The counters are those of `RedisCache`; a sorted set also has its scores, which are
  doubles.  `ZINCRBY` rounds every sum to a double.
* **Accounts.**  A counter, or the score of a member.  Each call owes an account what it records there
  (`recordUsage_owes`); within a tenant no two accounts have the same key.
* **Result.**  `usage_conserved`: when all calls have finished, each counter of the tenant is the sum of
  the counters of the keys of a dimension, and the score of a key is its byte counter, as long as the
  bytes recorded for the key are at most 2^53. -/

namespace MiniSiem

open Atomic

/-- The counters and sorted sets of Redis. -/
structure UsageStore where
  redis : RedisCache
  scores : String → String → ℕ

/-- The members of a sorted set. -/
def UsageStore.members (s : UsageStore) (now : DateTime) (key : String) : String → ℕ :=
  if (s.redis.live now key).isSome then s.scores key else fun _ => 0

/-- A command of `record_cost_usage` at a time; `others` replies to the commands of the other services. -/
def execUsage (others : (c : IngestCmd) → c.Reply) (clock : DateTime) :
    (c : IngestCmd) → UsageStore → c.Reply × UsageStore
  | .now, s => (clock, s)
  | .incr key delta, s =>
      match s.redis.incrby clock key delta.toInt with
      | (.ok n, redis) => (.ok n, { s with redis })
      | (.error _, redis) => (.error "value is not an integer or out of range", { s with redis })
  | .expire key seconds, s => (.ok (), { s with redis := s.redis.expire clock key seconds })
  | .zincrby key member increment, s =>
      match s.redis.live clock key with
      | some ⟨.int _, _⟩ => (.error "wrong kind of value", s)
      | _ =>
          let members := s.members clock key
          let score := Number.roundNat (members member + increment)
          (.ok (), { redis := s.redis.zincrby clock key
                     scores := Function.update s.scores key (Function.update members member score) })
  | c, s => (others c, s)

abbrev UsagePool (ι : Type) := Pool ι IngestCmd IngestCmd.Reply Unit UsageStore

/-- The calls of a tenant, none of them started. -/
def usagePool {ι : Type} (tenantId : String) (decisions : ι → CostDecision) (s : UsageStore) :
    UsagePool ι :=
  ⟨fun i => recordUsage tenantId (decisions i), s⟩

/-- What a call gets from Redis, if no command fails, and from the clock, if it is that of a day. -/
def PossibleOn (day : ℤ) : (c : IngestCmd) → c.Reply → Prop
  | .now, t => DateTime.day t = day
  | .incr _ _, r => r.isOk = true
  | .expire _ _, r => r.isOk = true
  | .zincrby _ _ _, r => r.isOk = true
  | _, _ => True

instance (day : ℤ) : (c : IngestCmd) → (r : c.Reply) → Decidable (PossibleOn day c r)
  | .now, t => inferInstanceAs (Decidable (DateTime.day t = day))
  | .incr _ _, r => inferInstanceAs (Decidable (r.isOk = true))
  | .expire _ _, r => inferInstanceAs (Decidable (r.isOk = true))
  | .zincrby _ _ _, r => inferInstanceAs (Decidable (r.isOk = true))
  | .backend _, _ | .newV4, _ | .allowFixedWindow _ _ _ _, _ | .getCounter _, _ | .send _, _ =>
      inferInstanceAs (Decidable True)

/-- At most the expiry of the counters has passed since the start. -/
def WithinADay (start t : DateTime) : Prop :=
  start.millis ≤ t.millis ∧ t.millis ≤ start.millis + 86400 * 1000

instance (start t : DateTime) : Decidable (WithinADay start t) := instDecidableAnd

/-- The next command of the program succeeds; if it reads the date, that is the one of `now`. -/
def UsageStep {ι : Type} (others : (c : IngestCmd) → c.Reply) (now start : DateTime) (s : UsagePool ι)
    (e : ι × DateTime) : Prop :=
  WithinADay start e.2 ∧ ∀ c ∈ (s.progs e.1).next,
    PossibleOn now.day c (execUsage others e.2 c s.store).1

instance {ι : Type} (others : (c : IngestCmd) → c.Reply) (now start : DateTime) (s : UsagePool ι)
    (e : ι × DateTime) : Decidable (UsageStep others now start s e) := instDecidableAnd

/-- A counter as Redis holds it, zero if it is absent. -/
def UsageStore.count (s : UsageStore) (now : DateTime) (key : String) : ℤ :=
  match s.redis.live now key with
  | some ⟨.int n, _⟩ => n
  | _ => 0

/-- The key of a decision in a dimension. -/
def CostDecision.keyOf (decision : CostDecision) : Dimension → String
  | .source => decision.sourceKey
  | .integration => decision.integrationKey
  | .team => decision.teamKey

/-- The usage of the tenant is the sum of the usage of the keys of each dimension. -/
def UsageConserved (tenantId : String) (now t : DateTime) (s : UsageStore) : Prop :=
  ∀ (d : Dimension) (counter : UsageCounter),
    (Function.support fun key => s.count t (dimensionKey tenantId now d key counter)).Finite ∧
      ∑ᶠ key, s.count t (dimensionKey tenantId now d key counter) =
        s.count t (usageKey tenantId now counter)

/-- The score of the key is its byte counter. -/
def ScoreExact (tenantId : String) (now t : DateTime) (d : Dimension) (key : String) (s : UsageStore) :
    Prop :=
  (s.members t (rankKey tenantId now d.text) key : ℤ) =
    s.count t (dimensionKey tenantId now d key .bytes)

/-- The bytes that the calls record for a key. -/
def recordedBytes {ι : Type} [Fintype ι] (decisions : ι → CostDecision) (d : Dimension)
    (key : String) : ℕ :=
  ∑ i, if (decisions i).keyOf d = key then (decisions i).estimatedBytes.toNat else 0

/-- Nothing has been recorded for the tenant on the day. -/
def FreshUsage (tenantId : String) (now : DateTime) (s : UsageStore) : Prop :=
  ∀ suffix, s.redis.keys (costKey tenantId now suffix) = none ∧
    ∀ member, s.scores (costKey tenantId now suffix) member = 0

/-! ### Accounts -/

inductive UsageAccount
  | counter (key : String)
  | score (key member : String)

namespace UsageAccount

def key : UsageAccount → String
  | counter key => key
  | score key _ => key

/-- What Redis holds, expired or not. -/
def value (s : UsageStore) : UsageAccount → ℤ
  | counter key =>
      match s.redis.keys key with
      | some ⟨.int n, _⟩ => n
      | _ => 0
  | score key member => s.scores key member

/-- What a command adds to the account. -/
def posts : UsageAccount → IngestCmd → ℤ
  | counter key, .incr key' delta => if key' = key then delta.toInt else 0
  | score key member, .zincrby key' member' increment =>
      if key' = key ∧ member' = member then increment else 0
  | _, _ => 0

/-- What a command of the list of `record_cost_usage` adds to the account. -/
def amount (a : UsageAccount) : CounterCommand → ℤ
  | .incrBy key delta _ => a.posts (.incr key delta.toInt64)
  | .incrementCounter key _ => a.posts (.incr key 1)
  | .zincrby key member increment => a.posts (.zincrby key member increment)

/-- What a call adds to the account. -/
def due (a : UsageAccount) (tenantId : String) (now : DateTime) (decision : CostDecision) : ℤ :=
  ((.incrBy (usageBytesKey tenantId now) decision.estimatedBytes 86400 ::
    dimensionCommands tenantId now decision).map a.amount).sum

end UsageAccount

/-- The commands of `record_cost_usage`. -/
def UsageCommand : IngestCmd → Prop
  | .now | .incr _ _ | .zincrby _ _ _ => True
  | .expire _ seconds => seconds = 86400
  | _ => False

section programs

variable {day : ℤ} {a : UsageAccount}

theorem CounterCommand.issue_owes (c : CounterCommand) :
    c.issue.Owes (PossibleOn day) a.posts (a.amount c) := by
  have hexpire : ∀ (key : String) (seconds : Int64), a.posts (.expire key seconds) = 0 := by
    intro key seconds
    cases a <;> rfl
  have hincr : ∀ (key : String) (delta : Int64) (k : Except String ℤ → IngestProg Unit),
      (∀ n, (k (.ok n)).Owes (PossibleOn day) a.posts 0) →
      (Prog.call (.incr key delta) k : IngestProg Unit).Owes (PossibleOn day) a.posts
        (a.posts (.incr key delta)) := by
    intro key delta k hk
    rw [← add_zero (a.posts _)]
    refine Prog.owes_call fun r hr => ?_
    cases r with
    | error e => exact absurd hr Bool.false_ne_true
    | ok n => exact hk n
  have hlast : ∀ (key : String) (seconds : Int64),
      (Prog.call (.expire key seconds) fun _ => .ret () : IngestProg Unit).Owes (PossibleOn day)
        a.posts 0 := by
    intro key seconds r _
    rw [hexpire, sub_zero]
    exact Prog.owes_ret ()
  cases c with
  | incrBy key delta expirySeconds => exact hincr key _ _ fun n => hlast key _
  | incrementCounter key expirySeconds =>
      refine hincr key 1 _ fun n => ?_
      dsimp only
      split_ifs
      · exact hlast key _
      · exact Prog.owes_ret ()
  | zincrby key member increment =>
      show Prog.Owes _ _ _ (a.posts _)
      rw [← add_zero (a.posts _)]
      exact Prog.owes_call fun _ _ => Prog.owes_ret ()

theorem issueAll_owes (cs : List CounterCommand) :
    (issueAll cs).Owes (PossibleOn day) a.posts (cs.map a.amount).sum := by
  induction cs with
  | nil => exact Prog.owes_ret ()
  | cons c cs ih =>
      rw [List.map_cons, List.sum_cons]
      exact c.issue_owes.bind fun _ => ih

theorem todayBucket_congr {now now' : DateTime} (h : now.day = now'.day) :
    todayBucket now = todayBucket now' := by
  unfold todayBucket
  rw [h]

theorem costKey_congr {now now' : DateTime} (h : now.day = now'.day) (tenantId : String) :
    costKey tenantId now = costKey tenantId now' := by
  funext suffix
  unfold costKey
  rw [todayBucket_congr h]

theorem recordUsage_owes (tenantId : String) (now : DateTime) (decision : CostDecision) :
    (recordUsage tenantId decision).Owes (PossibleOn now.day) a.posts (a.due tenantId now decision) := by
  have hnow : a.posts .now = 0 := by
    cases a <;> rfl
  unfold recordUsage
  rw [← zero_add (a.due _ _ _), ← hnow]
  refine Prog.owes_call fun t ht => ?_
  have hkeys := costKey_congr (show t.day = now.day from ht) tenantId
  have hsame : (.incrBy (usageBytesKey tenantId t) decision.estimatedBytes 86400 ::
      dimensionCommands tenantId t decision) =
      (.incrBy (usageBytesKey tenantId now) decision.estimatedBytes 86400 ::
        dimensionCommands tenantId now decision) := by
    unfold dimensionCommands eventCommands usageBytesKey usageLogsKey usageSampledKey usageDroppedKey
      rankKey dimensionBytesKey dimensionLogsKey dimensionSampledKey dimensionDroppedKey
    rw [hkeys]
  rw [hsame]
  exact issueAll_owes _

/-- A command with an expiry has that of a day. -/
def CounterCommand.ExpiresInADay : CounterCommand → Prop
  | .incrBy _ _ seconds => seconds = 86400
  | .incrementCounter _ seconds => seconds = 86400
  | .zincrby _ _ _ => True

abbrev IssuesUsage (p : IngestProg Unit) : Prop :=
  p.Ensures (fun (_ : Unit) _ _ => True) (fun _ => UsageCommand) ()

theorem CounterCommand.issue_ensures {c : CounterCommand} (h : c.ExpiresInADay) :
    IssuesUsage c.issue := by
  have hexpire : ∀ (key : String) (seconds : UInt64), seconds = 86400 →
      IssuesUsage (Prog.call (.expire key seconds.toInt64) fun _ => .ret ()) := by
    rintro key _ rfl _ -
    exact ⟨rfl, fun _ _ => trivial⟩
  cases c with
  | incrBy key delta seconds =>
      refine fun _ _ => ⟨trivial, fun r _ => ?_⟩
      cases r with
      | error e => trivial
      | ok n => exact hexpire key seconds h
  | incrementCounter key seconds =>
      refine fun _ _ => ⟨trivial, fun r _ => ?_⟩
      cases r with
      | error e => trivial
      | ok n =>
          dsimp only
          split_ifs
          · exact hexpire key seconds h
          · trivial
  | zincrby key member increment => exact fun _ _ => ⟨trivial, fun _ _ => trivial⟩

theorem issueAll_ensures {cs : List CounterCommand} (h : ∀ c ∈ cs, c.ExpiresInADay) :
    IssuesUsage (issueAll cs) := by
  induction cs with
  | nil => trivial
  | cons c cs ih =>
      obtain ⟨hfirst, hrest⟩ := List.forall_mem_cons.mp h
      exact Prog.Ensures.bind (CounterCommand.issue_ensures hfirst) fun _ _ _ => ih hrest

theorem recordUsage_ensures (tenantId : String) (decision : CostDecision) :
    IssuesUsage (recordUsage tenantId decision) := by
  refine fun _ _ => ⟨trivial, fun now _ => issueAll_ensures ?_⟩
  unfold dimensionCommands eventCommands
  split_ifs <;> simp [CounterCommand.ExpiresInADay]

/-! ### What a call adds -/

/-- What a decision adds to a counter of the tenant. -/
def CostDecision.adds (decision : CostDecision) : UsageCounter → ℤ
  | .bytes => decision.estimatedBytes.toInt64.toInt
  | .logs => 1
  | .sampled => if decision.sampled then 1 else 0
  | .dropped => if decision.dropped then 1 else 0

section keys

variable {tenantId : String} {now : DateTime} {d d' : Dimension} {key key' : String}
  {counter counter' : UsageCounter}

theorem tail_eq_of_text (k k' : TenantKey) (h : k.text tenantId = k'.text tenantId) :
    k.tail = k'.tail := List.append_cancel_left (TenantKey.text_eq_text.mp h)

theorem usageKey_inj :
    usageKey tenantId now counter = usageKey tenantId now counter' ↔ counter = counter' := by
  constructor
  · intro h
    have htail := tail_eq_of_text (.usage now counter) (.usage now counter') h
    revert htail
    cases counter <;> cases counter' <;> simp [TenantKey.tail, UsageCounter.text]
  · exact congrArg _

theorem dimensionKey_ne_usageKey :
    dimensionKey tenantId now d key counter ≠ usageKey tenantId now counter' := by
  intro h
  have htail := tail_eq_of_text (.dimension now d key counter) (.usage now counter') h
  have hlength := congrArg List.length htail
  have hwords := List.length_pos_iff.mpr (List.splitOn_ne_nil ':' key.toList)
  simp only [TenantKey.tail, words, List.length_append, List.length_cons, List.length_nil] at hlength
  omega

theorem dimensionKey_inj :
    dimensionKey tenantId now d key counter = dimensionKey tenantId now d' key' counter' ↔
      d = d' ∧ key = key' ∧ counter = counter' := by
  constructor
  · intro h
    have htail := tail_eq_of_text (.dimension now d key counter) (.dimension now d' key' counter') h
    obtain ⟨hfront, hcounter⟩ := List.append_inj' htail rfl
    obtain ⟨hdimension, hkey⟩ := List.append_inj hfront rfl
    refine ⟨?_, words_inj.mp hkey, ?_⟩
    · revert hdimension
      cases d <;> cases d' <;> simp [Dimension.text]
    · revert hcounter
      cases counter <;> cases counter' <;> simp [UsageCounter.text]
  · rintro ⟨rfl, rfl, rfl⟩
    rfl

theorem rankKey_inj : rankKey tenantId now d.text = rankKey tenantId now d'.text ↔ d = d' := by
  constructor
  · intro h
    have htail := tail_eq_of_text (.rank now d) (.rank now d') h
    revert htail
    cases d <;> cases d' <;> simp [TenantKey.tail, Dimension.text]
  · rintro rfl
    rfl

end keys

section due

variable (tenantId : String) (now : DateTime) (decision : CostDecision)

/-- The increments of one event by their keys. -/
def eventIncrements (counter : UsageCounter) : List CounterCommand :=
  [.incrementCounter (usageKey tenantId now counter) 86400,
    .incrementCounter (dimensionKey tenantId now .source decision.sourceKey counter) 86400,
    .incrementCounter (dimensionKey tenantId now .integration decision.integrationKey counter) 86400,
    .incrementCounter (dimensionKey tenantId now .team decision.teamKey counter) 86400]

/-- The commands of a call by their keys. -/
theorem recordCommands_eq :
    (.incrBy (usageBytesKey tenantId now) decision.estimatedBytes 86400 ::
      dimensionCommands tenantId now decision) =
    [.incrBy (usageKey tenantId now .bytes) decision.estimatedBytes 86400,
      .incrementCounter (usageKey tenantId now .logs) 86400,
      .incrBy (dimensionKey tenantId now .source decision.sourceKey .bytes) decision.estimatedBytes
        86400,
      .incrementCounter (dimensionKey tenantId now .source decision.sourceKey .logs) 86400,
      .incrBy (dimensionKey tenantId now .integration decision.integrationKey .bytes)
        decision.estimatedBytes 86400,
      .incrementCounter (dimensionKey tenantId now .integration decision.integrationKey .logs) 86400,
      .incrBy (dimensionKey tenantId now .team decision.teamKey .bytes) decision.estimatedBytes 86400,
      .incrementCounter (dimensionKey tenantId now .team decision.teamKey .logs) 86400,
      .zincrby (rankKey tenantId now Dimension.source.text) decision.sourceKey
        (Number.roundNat decision.estimatedBytes.toNat),
      .zincrby (rankKey tenantId now Dimension.integration.text) decision.integrationKey
        (Number.roundNat decision.estimatedBytes.toNat),
      .zincrby (rankKey tenantId now Dimension.team.text) decision.teamKey
        (Number.roundNat decision.estimatedBytes.toNat)] ++
    (if decision.sampled then eventIncrements tenantId now decision .sampled else []) ++
    (if decision.dropped then eventIncrements tenantId now decision .dropped else []) := rfl

theorem due_usage (counter : UsageCounter) :
    (UsageAccount.counter (usageKey tenantId now counter)).due tenantId now decision =
      decision.adds counter := by
  unfold UsageAccount.due
  rw [recordCommands_eq]
  unfold eventIncrements
  cases counter <;> split_ifs with hsampled hdropped hdropped <;>
    simp [UsageAccount.amount, UsageAccount.posts, usageKey_inj, dimensionKey_ne_usageKey,
      CostDecision.adds, *]

theorem due_dimension (d : Dimension) (key : String) (counter : UsageCounter) :
    (UsageAccount.counter (dimensionKey tenantId now d key counter)).due tenantId now decision =
      if decision.keyOf d = key then decision.adds counter else 0 := by
  unfold UsageAccount.due
  rw [recordCommands_eq]
  unfold eventIncrements
  cases hsampled : decision.sampled <;> cases hdropped : decision.dropped <;> cases d <;>
    cases counter <;>
    simp [UsageAccount.amount, UsageAccount.posts, dimensionKey_inj, dimensionKey_ne_usageKey.symm,
      CostDecision.adds, CostDecision.keyOf, hsampled, hdropped] <;>
    rfl

theorem due_score (d : Dimension) (key : String) :
    (UsageAccount.score (rankKey tenantId now d.text) key).due tenantId now decision =
      if decision.keyOf d = key then (Number.roundNat decision.estimatedBytes.toNat : ℤ) else 0 := by
  unfold UsageAccount.due
  rw [recordCommands_eq]
  unfold eventIncrements
  cases decision.sampled <;> cases decision.dropped <;> cases d <;>
    simp [UsageAccount.amount, UsageAccount.posts, rankKey_inj, CostDecision.keyOf] <;>
    rfl

end due

end programs

/-! ### What a command adds -/

/-- The counters of a key do not expire before the end of the run; without a key there are no scores. -/
structure Follows (start : DateTime) (key : String) (s : UsageStore) : Prop where
  lives : ∀ e, s.redis.keys key = some e → ∀ deadline, e.expireAt = some deadline →
    start.millis + 86400 * 1000 ≤ deadline
  empty : s.redis.keys key = none → ∀ member, s.scores key member = 0

section commands

variable {start t : DateTime} {s : UsageStore} {others : (c : IngestCmd) → c.Reply}

theorem Follows.live {key : String} (h : Follows start key s) (ht : WithinADay start t) :
    s.redis.live t key = s.redis.keys key := by
  unfold RedisCache.live
  cases hkey : s.redis.keys key with
  | none => rfl
  | some e =>
      refine Option.filter_some_pos ?_
      cases hdeadline : e.expireAt with
      | none => rfl
      | some deadline => exact decide_eq_true (ht.2.trans (h.lives e hkey deadline hdeadline))

theorem Follows.members {key : String} (h : Follows start key s) (ht : WithinADay start t) :
    s.members t key = s.scores key := by
  unfold UsageStore.members
  rw [h.live ht]
  cases hkey : s.redis.keys key with
  | none =>
      funext member
      exact (h.empty hkey member).symm
  | some e => rfl

theorem Follows.count {key : String} (h : Follows start key s) (ht : WithinADay start t) :
    s.count t key = (UsageAccount.counter key).value s := by
  unfold UsageStore.count UsageAccount.value
  rw [h.live ht]

/-- The store after an `INCRBY` that succeeds. -/
theorem execUsage_incr {k : String} {delta : Int64}
    (h : (execUsage others t (.incr k delta) s).1.isOk = true) :
    ∃ n expireAt, (execUsage others t (.incr k delta) s).2 = { s with
        redis := { s.redis with keys := Function.update s.redis.keys k (some ⟨.int n, expireAt⟩) } } ∧
      ((s.redis.live t k = none ∧ n = delta.toInt ∧ expireAt = none) ∨
        ∃ m, s.redis.live t k = some ⟨.int m, expireAt⟩ ∧ n = m + delta.toInt) := by
  unfold execUsage RedisCache.incrby at h ⊢
  dsimp only at h ⊢
  rcases hlive : s.redis.live t k with _ | ⟨m | _, expireAt⟩
  · exact ⟨delta.toInt, none, rfl, Or.inl ⟨rfl, rfl, rfl⟩⟩
  · rw [hlive] at h
    dsimp only at h ⊢
    split_ifs at h ⊢
    · exact ⟨m + delta.toInt, expireAt, rfl, Or.inr ⟨m, rfl, rfl⟩⟩
    · exact absurd h Bool.false_ne_true
    · exact absurd h Bool.false_ne_true
  · rw [hlive] at h
    exact absurd h Bool.false_ne_true

/-- The store after a `ZINCRBY` that succeeds. -/
theorem execUsage_zincrby {k member : String} {increment : ℕ}
    (h : (execUsage others t (.zincrby k member increment) s).1.isOk = true) :
    (∀ n expireAt, s.redis.live t k ≠ some ⟨.int n, expireAt⟩) ∧
      (execUsage others t (.zincrby k member increment) s).2 =
        { redis := s.redis.zincrby t k
          scores := Function.update s.scores k (Function.update (s.members t k) member
            (Number.roundNat (s.members t k member + increment))) } := by
  unfold execUsage at h ⊢
  dsimp only at h ⊢
  rcases hlive : s.redis.live t k with _ | ⟨m | _, expireAt⟩
  · refine ⟨fun _ _ hint => ?_, rfl⟩
    cases hint
  · rw [hlive] at h
    exact absurd h Bool.false_ne_true
  · refine ⟨fun _ _ hint => ?_, rfl⟩
    cases hint

variable {key : String} {c : IngestCmd} (hc : UsageCommand c) (h : Follows start key s)
  (ht : WithinADay start t) {day : ℤ} (hreply : PossibleOn day c (execUsage others t c s).1)
include hc h ht hreply

theorem Follows.exec : Follows start key (execUsage others t c s).2 := by
  cases c with
  | now => exact h
  | incr k delta =>
      obtain ⟨n, expireAt, hstore, hentry⟩ := execUsage_incr hreply
      rw [hstore]
      by_cases hk : key = k
      · subst hk
        refine ⟨fun e he deadline hdeadline => ?_, fun hnone => ?_⟩
        · dsimp only at he
          rw [Function.update_self] at he
          obtain rfl := Option.some.inj he
          rcases hentry with ⟨-, -, rfl⟩ | ⟨m, hlive, -⟩
          · cases hdeadline
          · exact h.lives _ ((h.live ht).symm.trans hlive) deadline hdeadline
        · dsimp only at hnone
          rw [Function.update_self] at hnone
          cases hnone
      · refine ⟨fun e he => ?_, fun hnone => ?_⟩
        · dsimp only at he
          rw [Function.update_of_ne hk] at he
          exact h.lives e he
        · dsimp only at hnone
          rw [Function.update_of_ne hk] at hnone
          exact h.empty hnone
  | expire k seconds =>
      obtain rfl : seconds = 86400 := hc
      by_cases hk : key = k
      · subst hk
        have hkeys : (s.redis.expire t key 86400).keys key = (s.redis.keys key).map
            fun e => { e with expireAt := some (t.millis + 86400 * 1000) } := Function.update_self _ _ _
        refine ⟨fun e he deadline hdeadline => ?_, fun hnone => ?_⟩
        · obtain ⟨old, -, rfl⟩ := Option.map_eq_some_iff.mp (hkeys.symm.trans he)
          obtain rfl := Option.some.inj hdeadline
          have hstart := ht.1
          omega
        · exact h.empty (Option.map_eq_none_iff.mp (hkeys.symm.trans hnone))
      · have hkeys : (s.redis.expire t k 86400).keys key = s.redis.keys key :=
          RedisCache.expire_frame hk
        exact ⟨fun e he => h.lives e (hkeys.symm.trans he),
          fun hnone => h.empty (hkeys.symm.trans hnone)⟩
  | zincrby k member increment =>
      obtain ⟨-, hstore⟩ := execUsage_zincrby hreply
      rw [hstore]
      by_cases hk : key = k
      · subst hk
        have hkeys : (s.redis.zincrby t key).keys key = s.redis.keys key ∨
            (s.redis.zincrby t key).keys key = some ⟨.other, none⟩ := by
          unfold RedisCache.zincrby
          cases s.redis.live t key with
          | none => exact Or.inr (Function.update_self _ _ _)
          | some e => exact Or.inl rfl
        have hsome : (s.redis.zincrby t key).keys key ≠ none := by
          unfold RedisCache.zincrby
          rw [h.live ht]
          cases hkey : s.redis.keys key with
          | none =>
              dsimp only
              rw [Function.update_self]
              exact Option.some_ne_none _
          | some e =>
              dsimp only
              rw [hkey]
              exact Option.some_ne_none _
        refine ⟨fun e he deadline hdeadline => ?_, fun hnone => absurd hnone hsome⟩
        rcases hkeys with hsame | hnew
        · exact h.lives e (hsame.symm.trans he) deadline hdeadline
        · obtain rfl := Option.some.inj (hnew.symm.trans he)
          cases hdeadline
      · have hkeys : (s.redis.zincrby t k).keys key = s.redis.keys key :=
          (zincrby_same hk s.redis).1
        refine ⟨fun e he => h.lives e (hkeys.symm.trans he), fun hnone => ?_⟩
        dsimp only
        rw [Function.update_of_ne hk]
        exact h.empty (hkeys.symm.trans hnone)
  | backend _ | newV4 | allowFixedWindow _ _ _ _ | getCounter _ | send _ => exact absurd hc id

/-- A counter grows by what the command adds. -/
theorem Follows.value_counter :
    (UsageAccount.counter key).value (execUsage others t c s).2 =
      (UsageAccount.counter key).value s + (UsageAccount.counter key).posts c := by
  cases c with
  | now => exact (add_zero _).symm
  | incr k delta =>
      obtain ⟨n, expireAt, hstore, hentry⟩ := execUsage_incr hreply
      rw [hstore]
      unfold UsageAccount.value UsageAccount.posts
      dsimp only
      by_cases hk : key = k
      · subst hk
        rw [Function.update_self, if_pos rfl]
        rw [h.live ht] at hentry
        rcases hentry with ⟨hnone, rfl, -⟩ | ⟨m, hsome, rfl⟩
        · rw [hnone]
          exact (zero_add _).symm
        · rw [hsome]
      · rw [Function.update_of_ne hk, if_neg (Ne.symm hk), add_zero]
  | expire k seconds =>
      obtain rfl : seconds = 86400 := hc
      show (UsageAccount.counter key).value { s with redis := s.redis.expire t k 86400 } = _ + 0
      rw [add_zero]
      unfold UsageAccount.value
      dsimp only
      by_cases hk : key = k
      · subst hk
        have hkeys : (s.redis.expire t key 86400).keys key = (s.redis.keys key).map
            fun e => { e with expireAt := some (t.millis + 86400 * 1000) } := Function.update_self _ _ _
        rw [hkeys]
        rcases s.redis.keys key with _ | ⟨n | _, expireAt⟩ <;> rfl
      · rw [RedisCache.expire_frame hk]
  | zincrby k member increment =>
      obtain ⟨hkind, hstore⟩ := execUsage_zincrby hreply
      rw [hstore]
      show (UsageAccount.counter key).value _ = _ + 0
      rw [add_zero]
      unfold UsageAccount.value
      dsimp only
      by_cases hk : key = k
      · subst hk
        unfold RedisCache.zincrby
        rw [h.live ht] at hkind ⊢
        rcases hkey : s.redis.keys key with _ | ⟨n | _, expireAt⟩
        · dsimp only
          rw [Function.update_self]
        · exact absurd hkey (hkind n expireAt)
        · dsimp only
          rw [hkey]
      · rw [(zincrby_same hk s.redis).1]
  | backend _ | newV4 | allowFixedWindow _ _ _ _ | getCounter _ | send _ => exact absurd hc id

/-- A score grows by what the command adds, up to 2^53. -/
theorem Follows.value_score {member : String}
    (hfits : (UsageAccount.score key member).value s + (UsageAccount.score key member).posts c ≤ 2 ^ 53) :
    (UsageAccount.score key member).value (execUsage others t c s).2 =
      (UsageAccount.score key member).value s + (UsageAccount.score key member).posts c := by
  cases c with
  | now => exact (add_zero _).symm
  | incr k delta =>
      obtain ⟨n, expireAt, hstore, -⟩ := execUsage_incr hreply
      rw [hstore]
      exact (add_zero _).symm
  | expire k seconds => exact (add_zero _).symm
  | zincrby k m increment =>
      obtain ⟨-, hstore⟩ := execUsage_zincrby hreply
      rw [hstore]
      unfold UsageAccount.value UsageAccount.posts at *
      dsimp only at *
      by_cases hk : key = k
      · subst hk
        rw [Function.update_self, h.members ht]
        by_cases hm : member = m
        · subst hm
          rw [Function.update_self, if_pos ⟨rfl, rfl⟩]
          rw [if_pos ⟨rfl, rfl⟩] at hfits
          rw [Number.roundNat_of_le (by exact_mod_cast hfits)]
          push_cast
          rfl
        · rw [Function.update_of_ne hm, if_neg fun heq => hm heq.2.symm, add_zero]
      · rw [Function.update_of_ne hk, if_neg fun heq => hk heq.1.symm, add_zero]
  | backend _ | newV4 | allowFixedWindow _ _ _ _ | getCounter _ | send _ => exact absurd hc id

end commands

/-! ### Runs -/

section runs

variable {ι : Type} [DecidableEq ι] {others : (c : IngestCmd) → c.Reply} {tenantId : String}
  {now start : DateTime}

/-- The programs are calls of `record_cost_usage`, and the keys of the day live on. -/
structure UsageRun (tenantId : String) (now start : DateTime) (s : UsagePool ι) : Prop where
  issues : ∀ i, IssuesUsage (s.progs i)
  follows : ∀ suffix, Follows start (costKey tenantId now suffix) s.store

theorem UsageRun.step {s : UsagePool ι} {e : ι × DateTime} (h : UsageRun tenantId now start s)
    (hok : UsageStep others now start s e) :
    UsageRun tenantId now start (Pool.step (execUsage others) s e) := by
  refine ⟨Pool.ensures_step h.issues e fun _ => trivial, fun suffix => ?_⟩
  cases hnext : (s.progs e.1).next with
  | none =>
      rw [Pool.step_finished hnext]
      exact h.follows suffix
  | some c =>
      rw [Pool.step_store hnext]
      exact (h.follows suffix).exec ((h.issues e.1).of_next hnext) hok.1 (hok.2 c hnext)

omit [DecidableEq ι] in
theorem usageRun_init {s : UsageStore} (hfresh : FreshUsage tenantId now s)
    (decisions : ι → CostDecision) : UsageRun tenantId now start (usagePool tenantId decisions s) := by
  refine ⟨fun i => recordUsage_ensures tenantId (decisions i), fun suffix => ⟨fun e he => ?_, ?_⟩⟩
  · cases (hfresh suffix).1.symm.trans he
  · exact fun _ => (hfresh suffix).2

theorem UsageAccount.posts_nonneg_of_score (key member : String) (c : IngestCmd) :
    0 ≤ (UsageAccount.score key member).posts c := by
  cases c with
  | zincrby k m increment =>
      unfold UsageAccount.posts
      dsimp only
      split_ifs
      · exact Int.natCast_nonneg _
      · exact le_rfl
  | _ => exact le_rfl

theorem exists_possibleOn (others : (c : IngestCmd) → c.Reply) (now : DateTime) (c : IngestCmd) :
    ∃ r, PossibleOn now.day c r := by
  cases c with
  | now => exact ⟨now, rfl⟩
  | incr _ _ => exact ⟨.ok 0, rfl⟩
  | expire _ _ => exact ⟨.ok (), rfl⟩
  | zincrby _ _ _ => exact ⟨.ok (), rfl⟩
  | _ => exact ⟨others _, trivial⟩

variable [Fintype ι] {decisions : ι → CostDecision} {schedule : List (ι × DateTime)} {s : UsageStore}

omit [DecidableEq ι] in
/-- What the calls of the run owe an account. -/
theorem balance_init {a : UsageAccount} (hfresh : FreshUsage tenantId now s)
    (hkey : ∃ suffix, a.key = costKey tenantId now suffix) :
    Pool.Balance (PossibleOn now.day) a.posts (fun s => a.value s) (∑ i, a.due tenantId now (decisions i))
      (usagePool tenantId decisions s) := by
  obtain ⟨suffix, hkey⟩ := hkey
  obtain ⟨hnone, hscores⟩ := hfresh suffix
  rw [← hkey] at hnone hscores
  have hvalue : a.value s = 0 := by
    unfold UsageAccount.value
    cases a with
    | counter key =>
        dsimp only [UsageAccount.key] at hnone ⊢
        rw [hnone]
    | score key member => exact congrArg Nat.cast (hscores member)
  refine ⟨fun i => a.due tenantId now (decisions i), fun i => recordUsage_owes tenantId now _, ?_⟩
  show a.value s + _ = _
  rw [hvalue, zero_add]

variable (hfresh : FreshUsage tenantId now s)
  (hsteps : Pool.Meets (execUsage others) (UsageStep others now start) schedule
    (usagePool tenantId decisions s))
  (hend : ∀ i, ((Pool.run (execUsage others) schedule
    (usagePool tenantId decisions s)).progs i).next = none)
include hfresh hsteps hend

theorem count_final {t : DateTime} (ht : WithinADay start t) (suffix : String) :
    (Pool.run (execUsage others) schedule (usagePool tenantId decisions s)).store.count t
        (costKey tenantId now suffix) =
      ∑ i, (UsageAccount.counter (costKey tenantId now suffix)).due tenantId now (decisions i) := by
  obtain ⟨hrun, hbalance⟩ := Pool.balance_run (J := UsageRun tenantId now start)
    (fun s e => UsageRun.step) (fun s e hrun hok _ c hnext => ⟨hok.2 c hnext,
      (hrun.follows suffix).value_counter ((hrun.issues e.1).of_next hnext) hok.1 (hok.2 c hnext)⟩)
    (usageRun_init hfresh decisions) hsteps (balance_init hfresh ⟨suffix, rfl⟩)
  rw [(hrun.follows suffix).count ht]
  exact Pool.balance_final hbalance hend

theorem members_final {t : DateTime} (ht : WithinADay start t) (suffix member : String)
    (hfits : ∑ i, (UsageAccount.score (costKey tenantId now suffix) member).due tenantId now
      (decisions i) ≤ 2 ^ 53) :
    ((Pool.run (execUsage others) schedule (usagePool tenantId decisions s)).store.members t
        (costKey tenantId now suffix) member : ℤ) =
      ∑ i, (UsageAccount.score (costKey tenantId now suffix) member).due tenantId now (decisions i) := by
  obtain ⟨hrun, hbalance⟩ := Pool.balance_run (J := UsageRun tenantId now start)
    (fun s e => UsageRun.step) (fun s e hrun hok hbalance c hnext => ⟨hok.2 c hnext,
      (hrun.follows suffix).value_score ((hrun.issues e.1).of_next hnext) hok.1 (hok.2 c hnext)
        ((hbalance.posts_le (UsageAccount.posts_nonneg_of_score _ _) (exists_possibleOn others now)
          hnext).trans hfits)⟩)
    (usageRun_init hfresh decisions) hsteps (balance_init hfresh ⟨suffix, rfl⟩)
  rw [(hrun.follows suffix).members ht]
  exact Pool.balance_final hbalance hend

theorem count_usage_final {t : DateTime} (ht : WithinADay start t) (counter : UsageCounter) :
    (Pool.run (execUsage others) schedule (usagePool tenantId decisions s)).store.count t
        (usageKey tenantId now counter) = ∑ i, (decisions i).adds counter := by
  obtain ⟨suffix, hsuffix⟩ : ∃ suffix, usageKey tenantId now counter = costKey tenantId now suffix := by
    cases counter <;> exact ⟨_, rfl⟩
  rw [hsuffix, count_final hfresh hsteps hend ht suffix, ← hsuffix]
  exact Finset.sum_congr rfl fun i _ => due_usage tenantId now (decisions i) counter

theorem count_dimension_final {t : DateTime} (ht : WithinADay start t) (d : Dimension) (key : String)
    (counter : UsageCounter) :
    (Pool.run (execUsage others) schedule (usagePool tenantId decisions s)).store.count t
        (dimensionKey tenantId now d key counter) =
      ∑ i, if (decisions i).keyOf d = key then (decisions i).adds counter else 0 := by
  obtain ⟨suffix, hsuffix⟩ : ∃ suffix,
      dimensionKey tenantId now d key counter = costKey tenantId now suffix := by
    cases counter <;> exact ⟨_, rfl⟩
  rw [hsuffix, count_final hfresh hsteps hend ht suffix, ← hsuffix]
  exact Finset.sum_congr rfl fun i _ => due_dimension tenantId now (decisions i) d key counter

/-- **Usage adds up.** -/
theorem usage_conserved {t : DateTime} (ht : WithinADay start t) :
    UsageConserved tenantId now t
        (Pool.run (execUsage others) schedule (usagePool tenantId decisions s)).store ∧
      ∀ d key, recordedBytes decisions d key ≤ 2 ^ 53 → ScoreExact tenantId now t d key
        (Pool.run (execUsage others) schedule (usagePool tenantId decisions s)).store := by
  constructor
  · intro d counter
    have hsupport : (Function.support fun key =>
        (Pool.run (execUsage others) schedule (usagePool tenantId decisions s)).store.count t
          (dimensionKey tenantId now d key counter)) ⊆
        (Finset.univ.image fun i => (decisions i).keyOf d : Finset String) := by
      intro key hkey
      rw [Function.mem_support, count_dimension_final hfresh hsteps hend ht] at hkey
      obtain ⟨i, -, hi⟩ := Finset.exists_ne_zero_of_sum_ne_zero hkey
      have hmem : (decisions i).keyOf d = key := by
        by_contra hne
        exact hi (if_neg hne)
      exact Finset.mem_coe.mpr (Finset.mem_image.mpr ⟨i, Finset.mem_univ i, hmem⟩)
    refine ⟨(Finset.finite_toSet _).subset hsupport, ?_⟩
    rw [finsum_eq_sum_of_support_subset _ hsupport, count_usage_final hfresh hsteps hend ht]
    calc ∑ key ∈ Finset.univ.image fun i => (decisions i).keyOf d,
          (Pool.run (execUsage others) schedule (usagePool tenantId decisions s)).store.count t
            (dimensionKey tenantId now d key counter)
        = ∑ key ∈ Finset.univ.image fun i => (decisions i).keyOf d, ∑ i,
            if (decisions i).keyOf d = key then (decisions i).adds counter else 0 :=
          Finset.sum_congr rfl fun key _ => count_dimension_final hfresh hsteps hend ht d key counter
      _ = ∑ i, ∑ key ∈ Finset.univ.image fun i => (decisions i).keyOf d,
            if (decisions i).keyOf d = key then (decisions i).adds counter else 0 := Finset.sum_comm
      _ = ∑ i, (decisions i).adds counter := by
          refine Finset.sum_congr rfl fun i _ => ?_
          rw [Finset.sum_ite_eq, if_pos (Finset.mem_image_of_mem _ (Finset.mem_univ i))]
  · intro d key hfits
    have hbytes : ∀ i, (decisions i).keyOf d = key → (decisions i).estimatedBytes.toNat ≤ 2 ^ 53 := by
      intro i hi
      have hsingle := Finset.single_le_sum (f := fun i => if (decisions i).keyOf d = key then
        (decisions i).estimatedBytes.toNat else 0) (fun _ _ => Nat.zero_le _) (Finset.mem_univ i)
      rw [if_pos hi] at hsingle
      exact hsingle.trans hfits
    have hdue : ∀ i, (UsageAccount.score (rankKey tenantId now d.text) key).due tenantId now
        (decisions i) = if (decisions i).keyOf d = key then
          ((decisions i).estimatedBytes.toNat : ℤ) else 0 := by
      intro i
      rw [due_score]
      split_ifs with hi
      · rw [Number.roundNat_of_le (hbytes i hi)]
      · rfl
    have htotal : ∑ i, (UsageAccount.score (rankKey tenantId now d.text) key).due tenantId now
        (decisions i) = recordedBytes decisions d key := by
      rw [Finset.sum_congr rfl fun i _ => hdue i]
      unfold recordedBytes
      push_cast
      rfl
    unfold ScoreExact
    rw [count_dimension_final hfresh hsteps hend ht]
    unfold rankKey at htotal ⊢
    rw [members_final hfresh hsteps hend ht _ _ (by rw [htotal]; exact_mod_cast hfits), ← rankKey]
    refine Finset.sum_congr rfl fun i _ => ?_
    rw [hdue i]
    split_ifs with hi
    · exact (toInt_toInt64 (lt_of_le_of_lt (hbytes i hi) (by norm_num))).symm
    · rfl

end runs

/-! ### Two calls, and a large one -/

/-- The services beside Redis. -/
def idleServices (c : IngestCmd) : c.Reply := (Ingest.sampleExec 0 true c (⟨emptyDatabase, emptyData⟩, 0)).1

/-- A sampled event of another source. -/
def sampledEvent : CostDecision :=
  { gigabytes with action := "sampled", keep := false, sampled := true, sourceKey := "10.0.0.2" }

/-- An event of more bytes than a double counts. -/
def hugeEvent : CostDecision := { gigabytes with estimatedBytes := 9007199254740993 }

/-- Two calls that take turns, command by command. -/
def turns : List (Fin 2 × DateTime) :=
  (List.replicate 28 [(0, .ofSeconds 60), (1, .ofSeconds 61)]).flatten

theorem turns_conserved :
    UsageConserved "acme" (.ofSeconds 60) (.ofSeconds 120) (Pool.run (execUsage idleServices) turns
      (usagePool "acme" ![gigabytes, sampledEvent] ⟨freshRedis, fun _ _ => 0⟩)).store :=
  have hwithin : WithinADay (.ofSeconds 60) (.ofSeconds 120) := by decide +kernel
  (usage_conserved (fun _ => ⟨rfl, fun _ => rfl⟩) (by decide +kernel) (by decide +kernel) hwithin).1

/-- The score of the source of a huge event is one less than its bytes. -/
theorem hugeEvent_not_exact :
    ¬ ∀ (n : ℕ) (tenantId : String) (decisions : Fin n → CostDecision) (now start t : DateTime)
      (schedule : List (Fin n × DateTime)) (s : UsageStore),
      FreshUsage tenantId now s →
      Pool.Meets (execUsage idleServices) (UsageStep idleServices now start) schedule
        (usagePool tenantId decisions s) →
      (∀ i, ((Pool.run (execUsage idleServices) schedule
        (usagePool tenantId decisions s)).progs i).next = none) →
      WithinADay start t → ∀ d key, ScoreExact tenantId now t d key
        (Pool.run (execUsage idleServices) schedule (usagePool tenantId decisions s)).store := by
  intro h
  have hexact := h 1 "acme" ![hugeEvent] (.ofSeconds 60) (.ofSeconds 60) (.ofSeconds 120)
    (List.replicate 20 (0, .ofSeconds 60)) ⟨freshRedis, fun _ _ => 0⟩ (fun _ => ⟨rfl, fun _ => rfl⟩)
    (by decide +kernel) (by decide +kernel) (by decide +kernel) .source "10.0.0.1"
  unfold ScoreExact at hexact
  revert hexact
  decide +kernel

end MiniSiem
