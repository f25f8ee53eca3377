import MiniSiem.Types

/-! # Counters of the Redis cache

`RedisCache::increment_counter` of `db/redis.rs` on a Redis keyspace with expiry, and the
in-process L1 cache it refreshes.

* **Redis.**  A key holds an integer or something else (`INCR` refuses it, and an integer of more than
  64 bits), and may expire at a time in milliseconds; `INCR` on a missing or expired key starts at one
  without expiry, and `EXPIRE` with no time left deletes the key.
* **Counter.**  The expiry is set by the increment whose reply, read as a `u32`, is one. -/

namespace MiniSiem

inductive RedisValue where
  | int (n : ℤ)
  | other
deriving DecidableEq, Repr

structure RedisEntry where
  value : RedisValue
  expireAt : Option ℤ
deriving DecidableEq, Repr

structure L1Entry where
  value : UInt64
  ts : ℤ
  hits : UInt64
deriving DecidableEq

structure RedisCache where
  keys : String → Option RedisEntry
  l1 : String → Option L1Entry

inductive RedisError where
  | notAnInteger
  | overflow
deriving DecidableEq, Repr

/-- The integers that Redis counts with; `SET` stores any text. -/
abbrev FitsInt64 (n : ℤ) : Prop := -9223372036854775808 ≤ n ∧ n ≤ 9223372036854775807

/-- The server clock in milliseconds. -/
def DateTime.millis (t : DateTime) : ℤ := t.1 / 1000000

namespace RedisCache

/-- The entry of a key that has not expired. -/
def live (c : RedisCache) (now : DateTime) (key : String) : Option RedisEntry :=
  (c.keys key).filter fun e => match e.expireAt with
    | some deadline => now.millis ≤ deadline
    | none => true

/-- `INCR key 1`. -/
def incr (c : RedisCache) (now : DateTime) (key : String) : Except RedisError ℤ × RedisCache :=
  match c.live now key with
  | none => (.ok 1, { c with keys := Function.update c.keys key (some ⟨.int 1, none⟩) })
  | some ⟨.int n, expireAt⟩ =>
      if FitsInt64 n then
        if n < 9223372036854775807 then
          (.ok (n + 1), { c with keys := Function.update c.keys key (some ⟨.int (n + 1), expireAt⟩) })
        else (.error .overflow, c)
      else (.error .notAnInteger, c)
  | some ⟨.other, _⟩ => (.error .notAnInteger, c)

/-- `INCRBY key delta`. -/
def incrby (c : RedisCache) (now : DateTime) (key : String) (delta : ℤ) : Except RedisError ℤ × RedisCache :=
  match c.live now key with
  | none => (.ok delta, { c with keys := Function.update c.keys key (some ⟨.int delta, none⟩) })
  | some ⟨.int n, expireAt⟩ =>
      if FitsInt64 n then
        if FitsInt64 (n + delta) then
          (.ok (n + delta),
            { c with keys := Function.update c.keys key (some ⟨.int (n + delta), expireAt⟩) })
        else (.error .overflow, c)
      else (.error .notAnInteger, c)
  | some ⟨.other, _⟩ => (.error .notAnInteger, c)

/-- `EXPIRE key seconds`. -/
def expire (c : RedisCache) (now : DateTime) (key : String) (seconds : Int64) : RedisCache :=
  let entry := if seconds.toInt ≤ 0 then none
    else (c.keys key).map fun e => { e with expireAt := some (now.millis + seconds.toInt * 1000) }
  { c with keys := Function.update c.keys key entry }

/-- `increment_counter`. -/
def incrementCounter (c : RedisCache) (now : DateTime) (key : String) (expirySeconds : UInt64) :
    Except RedisError UInt32 × RedisCache :=
  match c.incr now key with
  | (.error e, c) => (.error e, c)
  | (.ok n, c) =>
      let count := UInt32.ofInt n
      let c := if count = 1 then c.expire now key expirySeconds.toInt64 else c
      let entry : L1Entry := { value := count.toUInt64, ts := now.timestamp, hits := 1 }
      (.ok count, { c with l1 := Function.update c.l1 key (some entry) })

/-! ### What an increment does -/

variable {c c' : RedisCache} {now : DateTime} {key : String}

theorem incr_eq_incrby (c : RedisCache) (now : DateTime) (key : String) :
    c.incr now key = c.incrby now key 1 := by
  unfold incr incrby
  rcases c.live now key with _ | ⟨n | _, expireAt⟩
  · rfl
  · by_cases hfits : FitsInt64 n
    · have hroom : n < 9223372036854775807 ↔ FitsInt64 (n + 1) := by
        unfold FitsInt64 at hfits ⊢
        omega
      simp only [if_pos hfits, hroom]
    · simp only [if_neg hfits]
  · rfl

/-- An `INCRBY` that succeeds starts with the amount, or counts on from what it finds and keeps its expiry. -/
theorem incrby_eq_ok {delta n : ℤ} (h : c.incrby now key delta = (.ok n, c')) :
    ∃ expireAt, c' = { c with keys := Function.update c.keys key (some ⟨.int n, expireAt⟩) } ∧
      (c.live now key = none ∧ n = delta ∧ expireAt = none ∨
        c.live now key = some ⟨.int (n - delta), expireAt⟩) := by
  unfold incrby at h
  split at h
  · rename_i hlive
    cases h
    exact ⟨none, rfl, Or.inl ⟨hlive, rfl, rfl⟩⟩
  · rename_i m expireAt hlive
    split_ifs at h
    · cases h
      exact ⟨expireAt, rfl, Or.inr (by rw [hlive, add_sub_cancel_right])⟩
    · cases h
    · cases h
  · cases h

theorem incr_eq_ok {n : ℤ} (h : c.incr now key = (.ok n, c')) :
    ∃ expireAt, c' = { c with keys := Function.update c.keys key (some ⟨.int n, expireAt⟩) } ∧
      (c.live now key = none ∧ n = 1 ∧ expireAt = none ∨ c.live now key = some ⟨.int (n - 1), expireAt⟩) := by
  rw [incr_eq_incrby] at h
  exact incrby_eq_ok h

theorem incrby_l1 (c : RedisCache) (now : DateTime) (key : String) (delta : ℤ) :
    (c.incrby now key delta).2.l1 = c.l1 := by
  unfold incrby
  split
  · rfl
  · split_ifs <;> rfl
  · rfl

theorem incr_l1 (c : RedisCache) (now : DateTime) (key : String) : (c.incr now key).2.l1 = c.l1 := by
  rw [incr_eq_incrby]
  exact incrby_l1 c now key 1

/-! ### Frame and locality -/

theorem incr_frame (c : RedisCache) (now : DateTime) {k : String} (h : k ≠ key) :
    (c.incr now key).2.keys k = c.keys k := by
  unfold incr
  split
  · exact Function.update_of_ne h _ _
  · split_ifs
    · exact Function.update_of_ne h _ _
    · rfl
    · rfl
  · rfl

theorem expire_frame {k : String} {seconds : Int64} (h : k ≠ key) :
    (c.expire now key seconds).keys k = c.keys k :=
  Function.update_of_ne h _ _

/-- The counter changes its own key only. -/
theorem incrementCounter_frame (c : RedisCache) (now : DateTime) (expirySeconds : UInt64)
    {k : String} (h : k ≠ key) :
    (c.incrementCounter now key expirySeconds).2.keys k = c.keys k := by
  have hincr := c.incr_frame now h
  unfold incrementCounter
  rcases hr : c.incr now key with ⟨_ | n, c₁⟩
  · rw [hr] at hincr
    exact hincr
  · rw [hr] at hincr
    dsimp only
    split_ifs
    · exact (expire_frame h).trans hincr
    · exact hincr

/-- Its reply and the new entry of the key are determined by the old entry. -/
theorem incrementCounter_congr (now : DateTime) (expirySeconds : UInt64) (h : c.keys key = c'.keys key) :
    (c.incrementCounter now key expirySeconds).1 = (c'.incrementCounter now key expirySeconds).1 ∧
    (c.incrementCounter now key expirySeconds).2.keys key =
      (c'.incrementCounter now key expirySeconds).2.keys key := by
  have hlive : c.live now key = c'.live now key := by
    unfold live
    rw [h]
  have hincr : (c.incr now key).1 = (c'.incr now key).1 ∧
      (c.incr now key).2.keys key = (c'.incr now key).2.keys key := by
    unfold incr
    rw [hlive]
    rcases c'.live now key with _ | ⟨n | _, deadline⟩
    · exact ⟨rfl, by simp only [Function.update_self]⟩
    · dsimp only
      split_ifs
      · exact ⟨rfl, by simp only [Function.update_self]⟩
      · exact ⟨rfl, h⟩
      · exact ⟨rfl, h⟩
    · exact ⟨rfl, h⟩
  obtain ⟨hreply, hkey⟩ := hincr
  unfold incrementCounter
  rcases hr : c.incr now key with ⟨_ | n, c₁⟩ <;> rcases hr' : c'.incr now key with ⟨_ | n', c₁'⟩ <;>
    rw [hr, hr'] at hreply hkey
  · cases hreply
    exact ⟨rfl, hkey⟩
  · cases hreply
  · cases hreply
  · cases hreply
    refine ⟨rfl, ?_⟩
    dsimp only at hkey ⊢
    split_ifs
    · simp only [expire, Function.update_self, hkey]
    · exact hkey

end RedisCache

end MiniSiem
