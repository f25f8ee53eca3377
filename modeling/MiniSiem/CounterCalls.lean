import MiniSiem.CounterPrograms
import MiniSiem.Lib.Sessions

/-! # The calls on one counter

The operations of `db/redis.rs` on the counter of a key as one type of calls, and what they do to that key
while nothing fails and nothing expires.

* **Calls.**  `CounterCall` with the program of each, `decrement_counter` among them.
* **The view of a key.**  `ShowsCounter key v l`: Redis holds the number `v` and the L1 entry the value `l`.  A
  command at a `Calm` moment answers from the view and changes it in the one way its lemma says. -/

namespace MiniSiem

open Atomic

namespace Counters

/-- `decrement_counter`; `DECR` is an increment by -1. -/
def decrementCounter (key : String) : StatsProg (Except CounterFailure UInt32) :=
  .call (.incrBy key (-1)) fun
    | .error e => .ret (.error e)
    | .ok val =>
        let v := if val < 0 then 0 else UInt32.ofInt val
        refreshL1 key v.toUInt64 1 (.ok v)

end Counters

inductive CounterCall
  | increment (expirySeconds : UInt64)
  | decrement
  | incrBy (delta expirySeconds : UInt64)
  | set (value : UInt64) (expirySeconds : Option UInt64)
  | get
  | refresh
deriving DecidableEq

abbrev CounterResult := Except CounterFailure (Option UInt32)

/-- The program of a call; its result is the number that is returned, if any. -/
def CounterCall.prog (key : String) : CounterCall → StatsProg CounterResult
  | increment expirySeconds => (Counters.incrementCounter key expirySeconds).bind fun r => .ret (r.map some)
  | decrement => (Counters.decrementCounter key).bind fun r => .ret (r.map some)
  | incrBy delta expirySeconds => (Counters.incrBy key delta expirySeconds).bind fun r => .ret (r.map some)
  | set value expirySeconds =>
      (Counters.setCounter key value expirySeconds).bind fun r => .ret (r.map fun _ => none)
  | get => Counters.getCounter key
  | refresh => (Counters.refreshKey key).bind fun r => .ret (r.map fun _ => none)

/-! ### Moments without failure and expiry -/

/-- A command does not fail, finds the key unexpired, and sets no expiry in the past. -/
structure Calm (key : String) (tick : Tick) (s : StatsStore) (c : StatsCmd) : Prop where
  succeeds : tick.fault = none
  alive : s.cache.live tick.clock key = s.cache.keys key
  lasting : ∀ k seconds, c = .expire k seconds → 0 < seconds.toInt

/-- What `EXPIRE` is given is in the future. -/
def StatsCmd.lasting : StatsCmd → Bool
  | .expire _ seconds => 0 < seconds.toInt
  | _ => true

theorem calm_iff {key : String} {tick : Tick} {s : StatsStore} {c : StatsCmd} :
    Calm key tick s c ↔
      tick.fault = none ∧ s.cache.live tick.clock key = s.cache.keys key ∧ c.lasting = true := by
  constructor
  · intro h
    refine ⟨h.succeeds, h.alive, ?_⟩
    cases c with
    | expire k seconds => exact decide_eq_true (h.lasting k seconds rfl)
    | _ => rfl
  · rintro ⟨hsucceeds, halive, hlasting⟩
    refine ⟨hsucceeds, halive, fun k seconds hc => ?_⟩
    subst hc
    exact of_decide_eq_true hlasting

instance (key : String) (tick : Tick) (s : StatsStore) (c : StatsCmd) : Decidable (Calm key tick s c) :=
  decidable_of_iff _ calm_iff.symm

/-- The reply of a command at some such moment. -/
def CalmReply (key : String) (s : StatsStore) (c : StatsCmd) (r : c.Reply) (s' : StatsStore) : Prop :=
  ∃ tick, Calm key tick s c ∧ execStats tick c s = (r, s')

theorem calmReply_exec {key : String} (tick : Tick) (s : StatsStore) (c : StatsCmd) (h : Calm key tick s c) :
    CalmReply key s c (execStats tick c s).1 (execStats tick c s).2 := ⟨tick, h, rfl⟩

structure ShowsCounter (key : String) (v : Option ℤ) (l : Option UInt64) (s : StatsStore) : Prop where
  redis : (s.cache.keys key).map (·.value) = v.map .int
  l1 : (s.cache.l1 key).map (·.value) = l

variable {key : String} {v : Option ℤ} {l : Option UInt64} {s s' : StatsStore}

theorem ShowsCounter.entry (h : ShowsCounter key v l s) : s.cache.keys key = none ∧ v = none ∨
    ∃ n deadline, s.cache.keys key = some ⟨.int n, deadline⟩ ∧ v = some n := by
  have hredis := h.redis
  cases hkey : s.cache.keys key with
  | none =>
      rw [hkey] at hredis
      cases v with
      | none => exact Or.inl ⟨rfl, rfl⟩
      | some n => cases hredis
  | some e =>
      rw [hkey] at hredis
      cases v with
      | none => cases hredis
      | some n =>
          obtain ⟨value, deadline⟩ := e
          cases hredis
          exact Or.inr ⟨n, deadline, rfl, rfl⟩

theorem ShowsCounter.write {c' : RedisCache} {e : RedisEntry} {n : ℤ} (h : ShowsCounter key v l s) (he : e.value = .int n)
    (hkeys : c'.keys key = some e) (hl1 : c'.l1 = s.cache.l1) :
    ShowsCounter key (some n) l { s with cache := c' } where
  redis := by
    dsimp only
    rw [hkeys, Option.map_some, he]
    rfl
  l1 := by
    dsimp only
    rw [hl1]
    exact h.l1

/-- A command that does not fail and writes a number under the key. -/
theorem ShowsCounter.wrote {tick : Tick} {r : Except CounterFailure ℤ} {n : ℤ}
    {result : Except RedisError ℤ × RedisCache} (hs : ShowsCounter key v l s) (hsucceeds : tick.fault = none)
    (hresult : ∃ c e, result = (.ok n, c) ∧ e.value = .int n ∧ c.keys key = some e ∧ c.l1 = s.cache.l1)
    (hexec : tick.attemptRedis s result = (r, s')) : r = .ok n ∧ ShowsCounter key (some n) l s' := by
  obtain ⟨c, e, rfl, he, hkeys, hl1⟩ := hresult
  rw [attemptRedis_ok hsucceeds] at hexec
  obtain ⟨rfl, rfl⟩ := Prod.mk.inj hexec
  exact ⟨rfl, hs.write he hkeys hl1⟩

theorem CalmReply.incrBy {r : Except CounterFailure ℤ} {delta : Int64}
    (h : CalmReply key s (.incrBy key delta) r s') (hs : ShowsCounter key v l s)
    (hfits : FitsInt64 (v.getD 0)) (hlow : -9223372036854775808 ≤ v.getD 0 + delta.toInt)
    (hhigh : v.getD 0 + delta.toInt ≤ 9223372036854775807) :
    r = .ok (v.getD 0 + delta.toInt) ∧ ShowsCounter key (some (v.getD 0 + delta.toInt)) l s' := by
  obtain ⟨tick, hcalm, hexec⟩ := h
  have hincr : ∃ c e, s.cache.incrby tick.clock key delta.toInt = (.ok (v.getD 0 + delta.toInt), c) ∧
      e.value = .int (v.getD 0 + delta.toInt) ∧ c.keys key = some e ∧ c.l1 = s.cache.l1 := by
    unfold RedisCache.incrby
    rw [hcalm.alive]
    rcases hs.entry with ⟨hkey, rfl⟩ | ⟨n, deadline, hkey, rfl⟩
    · rw [hkey]
      dsimp only
      rw [Option.getD_none, zero_add]
      exact ⟨_, _, rfl, rfl, Function.update_self _ _ _, rfl⟩
    · rw [hkey]
      dsimp only
      rw [if_pos (by exact hfits), if_pos ⟨hlow, hhigh⟩]
      exact ⟨_, ⟨.int (n + delta.toInt), deadline⟩, rfl, rfl, Function.update_self _ _ _, rfl⟩
  exact hs.wrote hcalm.succeeds hincr hexec

theorem CalmReply.incr {r : Except CounterFailure ℤ} (h : CalmReply key s (.incr key) r s')
    (hs : ShowsCounter key v l s) (hfits : FitsInt64 (v.getD 0)) (hroom : v.getD 0 < 9223372036854775807) :
    r = .ok (v.getD 0 + 1) ∧ ShowsCounter key (some (v.getD 0 + 1)) l s' := by
  obtain ⟨tick, hcalm, hexec⟩ := h
  have hexec' : execStats tick (.incrBy key 1) s = (r, s') := by
    rw [← hexec]
    simp only [execStats, RedisCache.incr_eq_incrby]
    rfl
  have hone : CalmReply key s (.incrBy key 1) r s' := ⟨tick, ⟨hcalm.succeeds, hcalm.alive, fun _ _ hc => by cases hc⟩, hexec'⟩
  have hdelta : (1 : Int64).toInt = 1 := rfl
  have hlow := hfits.1
  have hincr := hone.incrBy hs hfits (by rw [hdelta]; omega) (by rw [hdelta]; omega)
  rwa [hdelta] at hincr

theorem CalmReply.set {r : Except CounterFailure Unit} {value : UInt64}
    (h : CalmReply key s (.set key value) r s') (hs : ShowsCounter key v l s) :
    r = .ok () ∧ ShowsCounter key (some value.toNat) l s' := by
  obtain ⟨tick, hcalm, hexec⟩ := h
  rw [execStats, attemptRedis_ok hcalm.succeeds] at hexec
  obtain ⟨rfl, rfl⟩ := Prod.mk.inj hexec
  exact ⟨rfl, hs.write (e := ⟨.int value.toNat, none⟩) rfl (Function.update_self _ _ _) rfl⟩

theorem CalmReply.expire {r : Except CounterFailure Unit} {seconds : Int64}
    (h : CalmReply key s (.expire key seconds) r s') (hs : ShowsCounter key v l s) :
    r = .ok () ∧ ShowsCounter key v l s' := by
  obtain ⟨tick, hcalm, hexec⟩ := h
  have hpos := hcalm.lasting key seconds rfl
  rw [execStats, attemptRedis_ok hcalm.succeeds] at hexec
  obtain ⟨rfl, rfl⟩ := Prod.mk.inj hexec
  refine ⟨rfl, ?_, hs.l1⟩
  dsimp only [RedisCache.expireLive]
  rw [Function.update_self, if_neg (not_le.mpr hpos), hcalm.alive, Option.map_map]
  exact hs.redis

theorem CalmReply.get {r : Except CounterFailure (Option RedisValue)} (h : CalmReply key s (.get key) r s')
    (hs : ShowsCounter key v l s) : r = .ok (v.map .int) ∧ s' = s := by
  obtain ⟨tick, hcalm, hexec⟩ := h
  rw [execStats, attemptRedis_ok hcalm.succeeds, hcalm.alive, hs.redis] at hexec
  obtain ⟨rfl, rfl⟩ := Prod.mk.inj hexec
  exact ⟨rfl, rfl⟩

theorem CalmReply.l1Get {r : Option L1Entry} (h : CalmReply key s (.l1Get key) r s') (hs : ShowsCounter key v l s) :
    r.map (·.value) = l ∧ s' = s := by
  obtain ⟨tick, hcalm, hexec⟩ := h
  obtain ⟨rfl, rfl⟩ := Prod.mk.inj hexec
  exact ⟨hs.l1, rfl⟩

theorem CalmReply.l1Insert {r : Unit} {entry : L1Entry} (h : CalmReply key s (.l1Insert key entry) r s')
    (hs : ShowsCounter key v l s) : ShowsCounter key v (some entry.value) s' := by
  obtain ⟨tick, hcalm, hexec⟩ := h
  obtain ⟨-, rfl⟩ := Prod.mk.inj hexec
  refine ⟨hs.redis, ?_⟩
  dsimp only [RedisCache.l1Insert]
  rw [Function.update_self]
  rfl

theorem CalmReply.now {r : DateTime} (h : CalmReply key s .now r s') : s' = s := by
  obtain ⟨tick, -, hexec⟩ := h
  exact (congrArg Prod.snd hexec).symm

theorem CalmReply.spawnRefresh {r : Unit} {k : String} (h : CalmReply key s (.spawnRefresh k) r s') :
    s' = s := by
  obtain ⟨tick, -, hexec⟩ := h
  exact (congrArg Prod.snd hexec).symm

end MiniSiem
