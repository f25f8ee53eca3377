import MiniSiem.CounterCalls
import MiniSiem.Lib.Blocking

/-! # The maintenance of the L1 entries and its guards

`start_l1_maintenance` of `db/redis.rs` beside any number of calls on the counters, with the locks of the
concurrent map that holds the L1 entries.

* **Locks.**  The map is cut into shards, each with a lock.  `get` returns a guard that keeps the shard locked
  for reading until it is dropped; `insert` and `remove` wait until no one holds a guard of the shard.  The
  counter calls drop a guard before their next command, so that only the guard of the maintenance task
  stands in the state.
* **Turns.**  A turn looks for entries older than `max_age_secs` to remove them, and then has the hottest
  keys refreshed.  It removes an entry while it holds the guard of that entry.
* **Blocking.**  `l1_entries_stay`: no entry is ever removed.  `eviction_waits_forever`: once the task has
  found an old entry, it waits forever, no entry of the shard changes again, and no call that counts on
  a key of the shard returns a number. -/

namespace MiniSiem

open Atomic

/-! ### Commands -/

/-- The counters, and the shard of which the maintenance task holds a guard. -/
structure L1State (κ : Type) where
  stats : StatsStore
  guard : Option κ

abbrev L1State.l1 {κ : Type} (s : L1State κ) : String → Option L1Entry := s.stats.cache.l1

inductive L1Cmd
  | stats (c : StatsCmd)
  | hold (key : String)
  | release
  | entries

abbrev L1Cmd.Reply : L1Cmd → Type
  | stats c => c.Reply
  | hold _ => Option L1Entry
  | release => Unit
  | entries => List (String × L1Entry)

abbrev L1Prog (α : Type) := Prog L1Cmd L1Cmd.Reply α

/-- The entries that an iteration lists stand beside the time and the failure. -/
structure L1Tick extends Tick where
  listed : List (String × L1Entry) := []

/-- The key whose entry a command writes. -/
def StatsCmd.l1Writes : StatsCmd → Option String
  | l1Insert key _ | l1Remove key => some key
  | _ => none

section guards

variable {κ : Type} (shard : String → κ)

def execL1 (tick : L1Tick) : (c : L1Cmd) → L1State κ → c.Reply × L1State κ
  | .stats c, s =>
      ((execStats tick.toTick c s.stats).1, { s with stats := (execStats tick.toTick c s.stats).2 })
  | .hold key, s => (s.l1 key, { s with guard := (s.l1 key).map fun _ => shard key })
  | .release, s => ((), { s with guard := none })
  | .entries, s => (tick.listed, s)

/-- A write waits for the guard of its shard. -/
def allowsL1 (s : L1State κ) : L1Cmd → Prop
  | .stats c => ∀ key ∈ c.l1Writes, s.guard ≠ some (shard key)
  | _ => True

instance [DecidableEq κ] (s : L1State κ) : (c : L1Cmd) → Decidable (allowsL1 shard s c)
  | .stats c => inferInstanceAs (Decidable (∀ key ∈ c.l1Writes, s.guard ≠ some (shard key)))
  | .hold _ | .release | .entries => inferInstanceAs (Decidable True)

end guards

/-! ### The maintenance loop -/

namespace L1Maintenance

/-- The eviction looks at one key. -/
def evictOne (now : DateTime) (maxAgeSecs : UInt64) (key : String) (rest : L1Prog CounterResult) :
    L1Prog CounterResult :=
  .call (.hold key) fun
    | none => rest
    | some v =>
        if now.timestamp - v.ts > maxAgeSecs.toInt64.toInt then
          .call (.stats (.l1Remove key)) fun _ => .call .release fun _ => rest
        else .call .release fun _ => rest

/-- The refresh looks at one key. -/
def refreshOne (now : DateTime) (refreshIfOlderSecs : UInt64) (key : String) (rest : L1Prog CounterResult) :
    L1Prog CounterResult :=
  .call (.hold key) fun
    | none => rest
    | some e =>
        if now.timestamp - e.ts > refreshIfOlderSecs.toInt64.toInt then
          .call (.stats (.spawnRefresh key)) fun _ => .call .release fun _ => rest
        else .call .release fun _ => rest

/-- The keys with the most hits, in the order of the iteration where they have the same. -/
def hottest (refreshTopN : ℕ) (items : List (String × L1Entry)) : List String :=
  ((items.mergeSort fun a b => b.2.hits ≤ a.2.hits).take refreshTopN).map (·.1)

/-- One turn of the loop. -/
def turn (maxAgeSecs refreshIfOlderSecs : UInt64) (refreshTopN : ℕ) (rest : L1Prog CounterResult) :
    L1Prog CounterResult :=
  .call (.stats .now) fun now => .call .entries fun listed =>
    (listed.map (·.1)).foldr (evictOne now maxAgeSecs)
      (.call .entries fun items =>
        (hottest refreshTopN items).foldr (refreshOne now refreshIfOlderSecs) rest)

/-- The loop, for so many turns. -/
def loop (maxAgeSecs refreshIfOlderSecs : UInt64) (refreshTopN : ℕ) : ℕ → L1Prog CounterResult
  | 0 => .ret (.ok none)
  | turns + 1 =>
      turn maxAgeSecs refreshIfOlderSecs refreshTopN (loop maxAgeSecs refreshIfOlderSecs refreshTopN turns)

end L1Maintenance

/-- A program of the counters. -/
def liftStats {α : Type} : StatsProg α → L1Prog α
  | .ret a => .ret a
  | .call c k => .call (.stats c) fun r => liftStats (k r)

/-- The maintenance task, at `none`, beside calls on the counters. -/
def maintenancePool {ι κ : Type} (maxAgeSecs refreshIfOlderSecs : UInt64) (refreshTopN turns : ℕ)
    (calls : ι → String × CounterCall) (stats : StatsStore) :
    Pool (Option ι) L1Cmd L1Cmd.Reply CounterResult (L1State κ) where
  progs
    | none => L1Maintenance.loop maxAgeSecs refreshIfOlderSecs refreshTopN turns
    | some i => liftStats ((calls i).2.prog (calls i).1)
  store := ⟨stats, none⟩

/-! ### The guard of the maintenance task -/

section guarded

variable {κ : Type} (shard : String → κ)

/-- With the guard, a program removes only the entries of the shard that it holds. -/
def RemovesHeld : Option κ → L1Prog CounterResult → Prop
  | _, .ret _ => True
  | guard, .call (.stats c) k => (∀ key, c = .l1Remove key → guard = some (shard key)) ∧
      ∀ r, RemovesHeld guard (k r)
  | _, .call (.hold key) k => RemovesHeld none (k none) ∧ ∀ v, RemovesHeld (some (shard key)) (k (some v))
  | _, .call .release k => RemovesHeld none (k ())
  | guard, .call .entries k => ∀ listed, RemovesHeld guard (k listed)

theorem RemovesHeld.evictOne {now : DateTime} {maxAgeSecs : UInt64} {key : String}
    {rest : L1Prog CounterResult} (h : RemovesHeld shard none rest) (guard : Option κ) :
    RemovesHeld shard guard (L1Maintenance.evictOne now maxAgeSecs key rest) := by
  refine ⟨h, fun v => ?_⟩
  dsimp only
  split
  · exact ⟨fun key' hkey => by cases hkey; rfl, fun _ => h⟩
  · exact h

theorem RemovesHeld.refreshOne {now : DateTime} {refreshIfOlderSecs : UInt64} {key : String}
    {rest : L1Prog CounterResult} (h : RemovesHeld shard none rest) (guard : Option κ) :
    RemovesHeld shard guard (L1Maintenance.refreshOne now refreshIfOlderSecs key rest) := by
  refine ⟨h, fun v => ?_⟩
  dsimp only
  split
  · exact ⟨nofun, fun _ => h⟩
  · exact h

theorem RemovesHeld.foldr {one : String → L1Prog CounterResult → L1Prog CounterResult}
    (hone : ∀ key rest, RemovesHeld shard none rest → RemovesHeld shard none (one key rest))
    {rest : L1Prog CounterResult} (h : RemovesHeld shard none rest) (keys : List String) :
    RemovesHeld shard none (keys.foldr one rest) := by
  induction keys with
  | nil => exact h
  | cons key keys ih => exact hone key _ ih

theorem loop_removesHeld (maxAgeSecs refreshIfOlderSecs : UInt64) (refreshTopN turns : ℕ) :
    RemovesHeld shard none (L1Maintenance.loop maxAgeSecs refreshIfOlderSecs refreshTopN turns) := by
  induction turns with
  | zero => trivial
  | succ turns ih =>
      refine ⟨nofun, fun now listed => ?_⟩
      refine RemovesHeld.foldr shard (fun key rest h => h.evictOne shard none) ?_ _
      exact fun items => RemovesHeld.foldr shard (fun key rest h => h.refreshOne shard none) ih _

end guarded

/-! ### The commands of the calls -/

/-- A command of the counters that removes no entry. -/
def KeepsEntries : L1Cmd → Prop
  | .stats c => ∀ key, c ≠ .l1Remove key
  | _ => False

theorem liftStats_ensures {α : Type} {p : StatsProg α}
    (h : OnlyIssues (fun c => ∀ key, c ≠ .l1Remove key) p) :
    (liftStats p).Ensures (fun (_ : Unit) _ _ => True) (fun _ c => KeepsEntries c) () := by
  induction p with
  | ret a => trivial
  | call c k ih =>
      intro w hle
      obtain ⟨hc, hk⟩ := h w hle
      exact ⟨hc, fun r _ => ih r (hk r trivial)⟩

theorem liftStats_returnsAfter {α : Type} {good : α → Prop} {via : StatsCmd → Prop} {p : StatsProg α}
    (h : p.ReturnsAfter good fun c _ => via c) :
    (liftStats p).ReturnsAfter good fun c _ => ∃ c', c = .stats c' ∧ via c' := by
  induction p with
  | ret a => trivial
  | call c k ih =>
      intro r
      obtain ⟨hreturned, hrest⟩ := h r
      refine ⟨fun a ha hgood => ⟨c, rfl, ?_⟩, ih r hrest⟩
      cases hk : k r with
      | ret b =>
          dsimp only at ha
          rw [hk] at ha
          cases ha
          exact hreturned a hk hgood
      | call c' k' =>
          dsimp only at ha
          rw [hk] at ha
          cases ha

section calls

/-- A command that writes the L1 entry of a key. -/
def Inserts (key : String) (c : StatsCmd) : Prop := ∃ entry, c = .l1Insert key entry

variable {α : Type} {key : String}

theorem refreshL1_keeps (value hits : UInt64) (result : α) :
    OnlyIssues (fun c => ∀ k, c ≠ .l1Remove k) (Counters.refreshL1 key value hits result) :=
  fun _ _ => ⟨nofun, fun _ _ => fun _ _ => ⟨nofun, fun _ _ => trivial⟩⟩

/-- No call on a counter removes an entry. -/
theorem CounterCall.keeps (call : CounterCall) :
    OnlyIssues (fun c => ∀ k, c ≠ .l1Remove k) (call.prog key) := by
  cases call with
  | increment expirySeconds =>
      refine Prog.Ensures.bind (fun _ _ => ⟨nofun, fun r _ => ?_⟩) fun _ _ _ => trivial
      cases r with
      | error e => trivial
      | ok n =>
          dsimp only
          split
          · refine fun _ _ => ⟨nofun, fun r _ => ?_⟩
            cases r with
            | error e => trivial
            | ok _ => exact refreshL1_keeps _ _ _
          · exact refreshL1_keeps _ _ _
  | decrement =>
      refine Prog.Ensures.bind (fun _ _ => ⟨nofun, fun r _ => ?_⟩) fun _ _ _ => trivial
      cases r with
      | error e => trivial
      | ok n => exact refreshL1_keeps _ _ _
  | incrBy delta expirySeconds =>
      refine Prog.Ensures.bind (fun _ _ => ⟨nofun, fun r _ => ?_⟩) fun _ _ _ => trivial
      cases r with
      | error e => trivial
      | ok n =>
          refine fun _ _ => ⟨nofun, fun r _ => ?_⟩
          cases r with
          | error e => trivial
          | ok _ => exact refreshL1_keeps _ _ _
  | set value expirySeconds =>
      refine Prog.Ensures.bind (fun _ _ => ⟨nofun, fun r _ => ?_⟩) fun _ _ _ => trivial
      cases r with
      | error e => trivial
      | ok _ =>
          cases expirySeconds with
          | none => exact refreshL1_keeps _ _ _
          | some exp =>
              refine fun _ _ => ⟨nofun, fun r _ => ?_⟩
              cases r with
              | error e => trivial
              | ok _ => exact refreshL1_keeps _ _ _
  | get =>
      refine fun _ _ => ⟨nofun, fun r _ => ?_⟩
      cases r with
      | some v =>
          refine fun _ _ => ⟨nofun, fun _ _ => fun _ _ => ⟨nofun, fun now _ => ?_⟩⟩
          unfold Counters.answerL1
          dsimp only
          split
          · exact fun _ _ => ⟨nofun, fun _ _ => trivial⟩
          · trivial
      | none =>
          refine fun _ _ => ⟨nofun, fun r _ => ?_⟩
          rcases r with e | _ | value
          · trivial
          · trivial
          · dsimp only
            cases value.parse 4294967296 with
            | none => trivial
            | some n => exact refreshL1_keeps _ _ _
  | refresh =>
      refine Prog.Ensures.bind (fun _ _ => ⟨nofun, fun r _ => ?_⟩) fun _ _ _ => trivial
      rcases r with e | _ | value
      · trivial
      · trivial
      · dsimp only
        cases value.parse 18446744073709551616 with
        | none => trivial
        | some n =>
            exact fun _ _ => ⟨nofun, fun _ _ => fun _ _ => ⟨nofun, fun _ _ => fun _ _ =>
              ⟨nofun, fun _ _ => trivial⟩⟩⟩

/-- A call that changes the counter. -/
def CounterCall.counts : CounterCall → Bool
  | increment _ | decrement | incrBy _ _ | set _ _ => true
  | get | refresh => false

theorem refreshL1_returnsAfter {good : α → Prop} (value hits : UInt64) (result : α) :
    (Counters.refreshL1 key value hits result).ReturnsAfter good fun c _ => Inserts key c :=
  fun now => ⟨nofun, fun _ => ⟨fun _ _ _ => ⟨⟨value, now.timestamp, hits⟩, rfl⟩, trivial⟩⟩

/-- A call that changes the counter succeeds right after it has written the L1 entry. -/
theorem CounterCall.returnsAfter {call : CounterCall} (h : call.counts = true) :
    (call.prog key).ReturnsAfter (fun r => r.isOk = true) fun c _ => Inserts key c := by
  have hinsert : ∀ (value hits : UInt64) {β : Type} (result : β) {good : β → Prop},
      (Counters.refreshL1 key value hits result).ReturnsAfter good fun c _ => Inserts key c :=
    fun value hits _ result _ => refreshL1_returnsAfter value hits result
  have herror : ∀ {β : Type} {e : CounterFailure} {P : Prop} {f : β → Option UInt32}
      (a : Except CounterFailure β), (.ret (.error e) : StatsProg (Except CounterFailure β)) = .ret a →
        (a.map f).isOk = true → P := by
    intro β e P f a ha hok
    cases ha
    cases hok
  cases call with
  | get => cases h
  | refresh => cases h
  | increment expirySeconds =>
      refine Prog.ReturnsAfter.map fun r => ?_
      cases r with
      | error e => exact ⟨herror, trivial⟩
      | ok n =>
          dsimp only
          split
          · refine ⟨nofun, fun r => ?_⟩
            cases r with
            | error e => exact ⟨herror, trivial⟩
            | ok _ => exact ⟨nofun, hinsert _ _ _⟩
          · exact ⟨nofun, hinsert _ _ _⟩
  | decrement =>
      refine Prog.ReturnsAfter.map fun r => ?_
      cases r with
      | error e => exact ⟨herror, trivial⟩
      | ok n => exact ⟨nofun, hinsert _ _ _⟩
  | incrBy delta expirySeconds =>
      refine Prog.ReturnsAfter.map fun r => ?_
      cases r with
      | error e => exact ⟨herror, trivial⟩
      | ok n =>
          refine ⟨nofun, fun r => ?_⟩
          cases r with
          | error e => exact ⟨herror, trivial⟩
          | ok _ => exact ⟨nofun, hinsert _ _ _⟩
  | set value expirySeconds =>
      refine Prog.ReturnsAfter.map fun r => ?_
      cases r with
      | error e => exact ⟨herror, trivial⟩
      | ok _ =>
          cases expirySeconds with
          | none => exact ⟨nofun, hinsert _ _ _⟩
          | some exp =>
              refine ⟨nofun, fun r => ?_⟩
              cases r with
              | error e => exact ⟨herror, trivial⟩
              | ok _ => exact ⟨nofun, hinsert _ _ _⟩

end calls

/-! ### What a command does to the entries -/

section entries

variable {κ : Type} {shard : String → κ} {tick : L1Tick} {s : L1State κ} {key : String}

theorem attemptRedis_l1 {β : Type} {tick : Tick} {s : StatsStore} {result : Except RedisError β × RedisCache}
    (h : result.2.l1 = s.cache.l1) : (tick.attemptRedis s result).2.cache.l1 = s.cache.l1 := by
  unfold Tick.attemptRedis
  cases tick.fault with
  | none => exact h
  | some e => rfl

/-- A command that writes no entry of the key keeps it. -/
theorem execStats_l1 {tick : Tick} {c : StatsCmd} {s : StatsStore} (h : c.l1Writes ≠ some key) :
    (execStats tick c s).2.cache.l1 key = s.cache.l1 key := by
  have hne : ∀ k, some k ≠ some key → key ≠ k := fun k hk he => hk (by rw [he])
  cases c with
  | incr k => exact congrFun (attemptRedis_l1 (RedisCache.incr_l1 _ _ k)) key
  | incrBy k delta => exact congrFun (attemptRedis_l1 (RedisCache.incrby_l1 _ _ k _)) key
  | expire | get | set => exact congrFun (attemptRedis_l1 rfl) key
  | l1Insert k entry => exact Function.update_of_ne (hne k h) _ _
  | l1Remove k => exact Function.update_of_ne (hne k h) _ _
  | upsertStats tenantId row =>
      unfold execStats
      cases tick.fault <;> rfl
  | _ => rfl

/-- Only a removal takes an entry out. -/
theorem execL1_present {c : L1Cmd} (hc : ∀ k, c ≠ .stats (.l1Remove k)) (h : (s.l1 key).isSome) :
    ((execL1 shard tick c s).2.l1 key).isSome := by
  cases c with
  | stats c =>
      show ((execStats tick.toTick c s.stats).2.cache.l1 key).isSome
      by_cases hwrites : c.l1Writes = some key
      · cases c with
        | l1Insert k entry =>
            obtain rfl := Option.some.inj hwrites
            show (Function.update s.l1 k (some entry) k).isSome
            rw [Function.update_self]
            rfl
        | l1Remove k => exact absurd rfl (hc k)
        | _ => cases hwrites
      · rw [execStats_l1 hwrites]
        exact h
  | _ => exact h

end entries

/-! ### Runs -/

section runs

variable {ι κ : Type} {shard : String → κ} {calls : ι → String × CounterCall}
  {s : Pool (Option ι) L1Cmd L1Cmd.Reply CounterResult (L1State κ)}

/-- What holds of the maintenance task and the calls throughout a run. -/
structure Maintaining (shard : String → κ) (calls : ι → String × CounterCall)
    (s : Pool (Option ι) L1Cmd L1Cmd.Reply CounterResult (L1State κ)) : Prop where
  task : RemovesHeld shard s.store.guard (s.progs none)
  keeping : ∀ i, (s.progs (some i)).Ensures (fun (_ : Unit) _ _ => True) (fun _ c => KeepsEntries c) ()
  answering : ∀ i, (calls i).2.counts = true → (s.progs (some i)).ReturnsAfter (fun r => r.isOk = true)
    fun c _ => ∃ c', c = .stats c' ∧ Inserts (calls i).1 c'

theorem maintaining_start (maxAgeSecs refreshIfOlderSecs : UInt64) (refreshTopN turns : ℕ)
    (calls : ι → String × CounterCall) (stats : StatsStore) :
    Maintaining shard calls (maintenancePool maxAgeSecs refreshIfOlderSecs refreshTopN turns calls stats) :=
  ⟨loop_removesHeld shard _ _ _ _, fun i => liftStats_ensures (calls i).2.keeps,
    fun _ hcounts => liftStats_returnsAfter (CounterCall.returnsAfter hcounts)⟩

/-- The task that is about to remove an entry holds the guard of its shard. -/
theorem Maintaining.held (h : Maintaining shard calls s) {key : String}
    (hnext : (s.progs none).next = some (.stats (.l1Remove key))) : s.store.guard = some (shard key) := by
  have htask := h.task
  cases hp : s.progs none with
  | ret a =>
      rw [hp] at hnext
      cases hnext
  | call c k =>
      rw [hp] at hnext htask
      obtain rfl := Option.some.inj hnext
      exact htask.1 key rfl

/-- A command that is allowed removes nothing. -/
theorem Maintaining.removes_nothing (h : Maintaining shard calls s) {i : Option ι} {c : L1Cmd}
    (hnext : (s.progs i).next = some c) (hallowed : allowsL1 shard s.store c) (key : String) :
    c ≠ .stats (.l1Remove key) := by
  rintro rfl
  cases i with
  | none => exact hallowed key rfl (h.held hnext)
  | some i => exact (h.keeping i).of_next hnext key rfl

/-- A command of the task. -/
theorem RemovesHeld.step {state : L1State κ} {p : L1Prog CounterResult} (h : RemovesHeld shard state.guard p)
    (tick : L1Tick) :
    RemovesHeld shard (p.step (execL1 shard tick) state).2.guard (p.step (execL1 shard tick) state).1 := by
  cases p with
  | ret a => exact trivial
  | call c k =>
      cases c with
      | stats c => exact h.2 _
      | hold key =>
          show RemovesHeld shard ((state.l1 key).map fun _ => shard key) (k (state.l1 key))
          cases state.l1 key with
          | none => exact h.1
          | some v => exact h.2 v
      | release => exact h
      | entries => exact h tick.listed

variable [DecidableEq ι] [DecidableEq κ]

theorem Maintaining.step (h : Maintaining shard calls s) (e : Option ι × L1Tick) :
    Maintaining shard calls (Pool.tryStep (execL1 shard) (allowsL1 shard) s e) := by
  rcases Pool.tryStep_cases (execL1 shard) (allowsL1 shard) s e with hsame | ⟨c, hnext, -, hstep⟩
  · rw [hsame]
    exact h
  rw [hstep]
  obtain ⟨i, tick⟩ := e
  cases i with
  | none =>
      refine ⟨?_, fun i => ?_, fun i hcounts => ?_⟩
      · rw [Pool.step_progs_self]
        exact h.task.step tick
      · rw [Pool.step_progs_of_ne (by exact nofun)]
        exact h.keeping i
      · rw [Pool.step_progs_of_ne (by exact nofun)]
        exact h.answering i hcounts
  | some j =>
      have hkeeps : KeepsEntries c := (h.keeping j).of_next hnext
      refine ⟨?_, fun i => ?_, fun i hcounts => ?_⟩
      · rw [Pool.step_progs_of_ne (by exact nofun), Pool.step_store hnext]
        cases c with
        | stats c => exact h.task
        | _ => exact hkeeps.elim
      · by_cases hij : i = j
        · subst hij
          rw [Pool.step_progs_self]
          exact (h.keeping i).step fun _ => trivial
        · rw [Pool.step_progs_of_ne fun hne => hij (Option.some.inj hne)]
          exact h.keeping i
      · by_cases hij : i = j
        · subst hij
          rw [Pool.step_progs_self]
          exact (h.answering i hcounts).step _ _
        · rw [Pool.step_progs_of_ne fun hne => hij (Option.some.inj hne)]
          exact h.answering i hcounts

theorem maintaining_run (maxAgeSecs refreshIfOlderSecs : UInt64) (refreshTopN turns : ℕ)
    (calls : ι → String × CounterCall) (stats : StatsStore) (schedule : List (Option ι × L1Tick)) :
    Maintaining shard calls (Pool.tryRun (execL1 shard) (allowsL1 shard) schedule
      (maintenancePool maxAgeSecs refreshIfOlderSecs refreshTopN turns calls stats)) :=
  Pool.tryRun_invariant (fun _ e h => h.step e)
    (maintaining_start maxAgeSecs refreshIfOlderSecs refreshTopN turns calls stats) schedule

/-- What a step leaves of the entries. -/
theorem Maintaining.present (h : Maintaining shard calls s) (e : Option ι × L1Tick) {key : String}
    (hpresent : (s.store.l1 key).isSome) :
    ((Pool.tryStep (execL1 shard) (allowsL1 shard) s e).store.l1 key).isSome := by
  rcases Pool.tryStep_cases (execL1 shard) (allowsL1 shard) s e with hsame | ⟨c, hnext, hallowed, hstep⟩
  · rw [hsame]
    exact hpresent
  · rw [hstep, Pool.step_store hnext]
    exact execL1_present (h.removes_nothing hnext hallowed) hpresent

end runs

/-! ### The task that waits -/

section waiting

variable {ι κ : Type} [DecidableEq ι] [DecidableEq κ] {shard : String → κ}
  {calls : ι → String × CounterCall}
  {s : Pool (Option ι) L1Cmd L1Cmd.Reply CounterResult (L1State κ)} {key : String}
  {entries : String → Option L1Entry}

/-- The guard of the shard is held, and its entries are these. -/
structure Locked (shard : String → κ) (key : String) (entries : String → Option L1Entry) (s : L1State κ) :
    Prop where
  guard : s.guard = some (shard key)
  same : ∀ k, shard k = shard key → s.l1 k = entries k

omit [DecidableEq κ] in
theorem Locked.blocked {s : L1State κ} (h : Locked shard key entries s) :
    ¬ allowsL1 shard s (.stats (.l1Remove key)) := fun hallowed => hallowed key rfl h.guard

omit [DecidableEq κ] in
/-- The commands of the calls change nothing in the shard. -/
theorem Locked.keep {s : L1State κ} (h : Locked shard key entries s) {tick : L1Tick} {c : L1Cmd}
    (hown : KeepsEntries c) (hallowed : allowsL1 shard s c) :
    Locked shard key entries (execL1 shard tick c s).2 := by
  cases c with
  | stats c =>
      refine ⟨h.guard, fun k hk => ?_⟩
      rw [← h.same k hk]
      exact execStats_l1 fun hwrites => hallowed k hwrites (h.guard.trans (by rw [hk]))
  | _ => exact hown.elim

abbrev TaskWaits (shard : String → κ) (key : String) (entries : String → Option L1Entry)
    (s : Pool (Option ι) L1Cmd L1Cmd.Reply CounterResult (L1State κ)) : Prop :=
  Pool.Waits (Locked shard key entries) KeepsEntries none (.stats (.l1Remove key)) s

omit [DecidableEq ι] [DecidableEq κ] in
/-- A task that is about to remove an entry waits. -/
theorem Maintaining.waits (h : Maintaining shard calls s)
    (hnext : (s.progs none).next = some (.stats (.l1Remove key))) : TaskWaits shard key s.store.l1 s where
  next := hnext
  holds := ⟨h.held hnext, fun _ _ => rfl⟩
  others
    | none, hne => absurd rfl hne
    | some i, _ => h.keeping i

theorem TaskWaits.step (h : TaskWaits shard key entries s) (e : Option ι × L1Tick) :
    TaskWaits shard key entries (Pool.tryStep (execL1 shard) (allowsL1 shard) s e) :=
  (Pool.Waits.turn (fun _ => Locked.blocked) (fun _ _ _ h hown hallowed => h.keep hown hallowed) h e).1

/-- A call that succeeds after it has written its entry, and has not succeeded. -/
structure Unanswered (k : String) (p : L1Prog CounterResult) : Prop where
  after : p.ReturnsAfter (fun r => r.isOk = true) fun c _ => ∃ c', c = .stats c' ∧ Inserts k c'
  not_yet : ¬ p.Returned fun r => r.isOk = true

theorem Unanswered.step {i : Option ι} {k : String} (h : Unanswered k (s.progs i)) (hk : shard k = shard key)
    (hwaits : TaskWaits shard key entries s) (e : Option ι × L1Tick) :
    Unanswered k ((Pool.tryStep (execL1 shard) (allowsL1 shard) s e).progs i) := by
  rcases Pool.tryStep_cases (execL1 shard) (allowsL1 shard) s e with hsame | ⟨c, hnext, hallowed, hstep⟩
  · rw [hsame]
    exact h
  rw [hstep]
  by_cases hie : i = e.1
  · subst hie
    rw [Pool.step_progs_self]
    refine ⟨h.after.step _ _, fun hreturned => ?_⟩
    rcases h.after.of_returned hreturned with hbefore | ⟨_, hinserts, c', rfl, entry, rfl⟩
    · exact h.not_yet hbefore
    · obtain rfl := Option.some.inj (hnext.symm.trans hinserts)
      exact hallowed k rfl (hwaits.holds.guard.trans (by rw [hk]))
  · rw [Pool.step_progs_of_ne hie]
    exact h

/-- A `get_counter` that will find an entry, or has found it and is about to write its hits. -/
inductive ReadingL1 (k : String) : L1Prog CounterResult → Prop
  | start : ReadingL1 k (liftStats (Counters.getCounter k))
  | found (entry : L1Entry) (rest : Unit → L1Prog CounterResult) :
      ReadingL1 k (.call (.stats (.l1Insert k entry)) rest)

theorem ReadingL1.next_ne_none {k : String} {p : L1Prog CounterResult} (h : ReadingL1 k p) :
    p.next ≠ none := by
  cases h with
  | start => exact nofun
  | found entry rest => exact nofun

theorem ReadingL1.step {i : Option ι} {k : String} (h : ReadingL1 k (s.progs i)) (hk : shard k = shard key)
    (hwaits : TaskWaits shard key entries s) (hpresent : (entries k).isSome) (e : Option ι × L1Tick) :
    ReadingL1 k ((Pool.tryStep (execL1 shard) (allowsL1 shard) s e).progs i) := by
  rcases Pool.tryStep_cases (execL1 shard) (allowsL1 shard) s e with hsame | ⟨c, hnext, hallowed, hstep⟩
  · rw [hsame]
    exact h
  rw [hstep]
  by_cases hie : i = e.1
  · subst hie
    rw [Pool.step_progs_self]
    obtain ⟨v, hv⟩ : ∃ v, s.store.l1 k = some v := by
      rw [hwaits.holds.same k hk]
      exact Option.isSome_iff_exists.mp hpresent
    generalize s.progs e.1 = p at h hnext
    cases h with
    | start =>
        have hreply : (execL1 shard e.2 (.stats (.l1Get k)) s.store).1 = some v := hv
        unfold Counters.getCounter liftStats
        rw [Prog.step_call, hreply]
        exact .found _ _
    | found entry rest =>
        obtain rfl := Option.some.inj hnext
        exact absurd (hwaits.holds.guard.trans (by rw [hk])) (hallowed k rfl)
  · rw [Pool.step_progs_of_ne hie]
    exact h

end waiting

/-! ### Evictions -/

section evictions

variable {ι κ : Type} [DecidableEq ι] [DecidableEq κ] (shard : String → κ)
  (maxAgeSecs refreshIfOlderSecs : UInt64) (refreshTopN turns : ℕ) (calls : ι → String × CounterCall)
  (stats : StatsStore) (schedule later : List (Option ι × L1Tick))

/-- **No entry is ever removed**: in every run of the maintenance task beside calls on the counters, the keys
that have an entry keep one. -/
theorem l1_entries_stay :
    {key | ((Pool.tryRun (execL1 shard) (allowsL1 shard) schedule
      (maintenancePool maxAgeSecs refreshIfOlderSecs refreshTopN turns calls stats)).store.l1 key).isSome} ⊆
    {key | ((Pool.tryRun (execL1 shard) (allowsL1 shard) later
      (Pool.tryRun (execL1 shard) (allowsL1 shard) schedule
        (maintenancePool maxAgeSecs refreshIfOlderSecs refreshTopN turns calls stats))).store.l1
          key).isSome} := by
  intro key hpresent
  have hrun : Maintaining shard calls _ :=
    maintaining_run maxAgeSecs refreshIfOlderSecs refreshTopN turns calls stats schedule
  exact (Pool.tryRun_invariant (J := fun s => Maintaining shard calls s ∧ (s.store.l1 key).isSome)
    (fun _ e h => ⟨h.1.step e, h.1.present e h.2⟩) ⟨hrun, hpresent⟩ later).2

/-- **An eviction waits forever**: once the task is about to remove an entry, it stays there in every run,
no entry of the shard changes, a call that changes a counter of the shard and has not succeeded by then
never succeeds, and a `get_counter` of an entry of the shard that starts later never ends. -/
theorem eviction_waits_forever (key : String)
    (hnext : ((Pool.tryRun (execL1 shard) (allowsL1 shard) schedule
      (maintenancePool maxAgeSecs refreshIfOlderSecs refreshTopN turns calls stats)).progs none).next =
        some (.stats (.l1Remove key))) :
    let s := Pool.tryRun (execL1 shard) (allowsL1 shard) schedule
      (maintenancePool maxAgeSecs refreshIfOlderSecs refreshTopN turns calls stats)
    let s' := Pool.tryRun (execL1 shard) (allowsL1 shard) later s
    s'.progs none = s.progs none ∧
    (∀ k, shard k = shard key → s'.store.l1 k = s.store.l1 k) ∧
    (∀ i, shard (calls i).1 = shard key → (calls i).2.counts = true →
      (s'.progs (some i)).Returned (fun r => r.isOk = true) →
        (s.progs (some i)).Returned fun r => r.isOk = true) ∧
    ∀ i, shard (calls i).1 = shard key → (s.store.l1 (calls i).1).isSome →
      s.progs (some i) = liftStats (Counters.getCounter (calls i).1) → (s'.progs (some i)).next ≠ none := by
  intro s s'
  have hrun : Maintaining shard calls s := maintaining_run _ _ _ _ _ _ _
  have hwaits : TaskWaits shard key s.store.l1 s := hrun.waits hnext
  have hlater : TaskWaits shard key s.store.l1 s' ∧ s'.progs none = s.progs none :=
    Pool.tryRun_waits (fun _ => Locked.blocked) (fun _ _ _ h hown hallowed => h.keep hown hallowed) hwaits
      later
  refine ⟨hlater.2, hlater.1.holds.same, fun i hi hcounts hreturned => ?_, fun i hi hpresent hstart => ?_⟩
  · by_contra hnot
    have hunanswered := (Pool.tryRun_invariant
      (J := fun s' => TaskWaits shard key s.store.l1 s' ∧ Unanswered (calls i).1 (s'.progs (some i)))
      (fun _ e h => ⟨h.1.step e, h.2.step hi h.1 e⟩) ⟨hwaits, hrun.answering i hcounts, hnot⟩ later).2
    exact hunanswered.not_yet hreturned
  · refine ReadingL1.next_ne_none (k := (calls i).1) ?_
    exact (Pool.tryRun_invariant
      (J := fun s' => TaskWaits shard key s.store.l1 s' ∧ ReadingL1 (calls i).1 (s'.progs (some i)))
      (fun _ e h => ⟨h.1.step e, h.2.step hi h.1 hpresent e⟩) ⟨hwaits, by rw [hstart]; exact .start⟩ later).2

end evictions

/-! ### An entry of seven minutes -/

def loggedKey : String := statsKey "acme" .totalLogs

/-- The count of the logs, with an L1 entry of the first second. -/
def loggedSeven : StatsStore where
  cache :=
    { keys := Function.update (fun _ => none) loggedKey (some ⟨.int 7, none⟩)
      l1 := Function.update (fun _ => none) loggedKey (some ⟨7, 0, 1⟩) }
  stats := fun _ => none

def afterSevenMinutes : L1Tick := { clock := .ofSeconds 420, listed := [(loggedKey, ⟨7, 0, 1⟩)] }

/-- The shards of a map with four of them, by a hash that is the length. -/
def lengthShard (key : String) : ℕ := key.length % 4

/-- The task finds the entry. -/
def findsOld : List (Option Unit × L1Tick) := List.replicate 3 (none, afterSevenMinutes)

abbrev loggingPool : Pool (Option Unit) L1Cmd L1Cmd.Reply CounterResult (L1State ℕ) :=
  maintenancePool 300 30 100 1 (fun _ => (loggedKey, .increment 86400)) loggedSeven

/-- The count goes on in Redis only. -/
theorem loggingPool_waits :
    let s := Pool.tryRun (execL1 lengthShard) (allowsL1 lengthShard) findsOld loggingPool
    let s' := Pool.tryRun (execL1 lengthShard) (allowsL1 lengthShard)
      (List.replicate 4 (some (), afterSevenMinutes)) s
    s'.progs none = s.progs none ∧ s'.store.l1 loggedKey = some ⟨7, 0, 1⟩ ∧
      ¬ (s'.progs (some ())).Returned fun r => r.isOk = true := by
  have hwaits := eviction_waits_forever lengthShard 300 30 100 1
    (fun _ : Unit => (loggedKey, .increment 86400)) loggedSeven findsOld
    (List.replicate 4 (some (), afterSevenMinutes)) loggedKey rfl
  refine ⟨hwaits.1, (hwaits.2.1 loggedKey rfl).trans rfl, fun hreturned => ?_⟩
  exact hwaits.2.2.1 () rfl rfl hreturned

end MiniSiem
