import MiniSiem.Cache
import MiniSiem.Lib.Guarantees

/-! # A cache with a clock

The cache of `Cache.lean` on a clock of milliseconds.

* **Time.**  A key that was given an expiry goes when the expiry has passed (`elapse`); an `EXPIRE` and a
  `SET` with an expiry start it anew.
* **Calls.**  `exec` is one call at the moment of the clock.  The calls of one program take place at one
  moment, and time passes between programs.
* **Rules.**  `guarantees_exec` is the rule of one call that succeeds, `guarantees_ignore` that of one
  whose result is ignored. -/

namespace MiniSiem

open Atomic

/-- A cache, the moments at which the keys were given their expiry, and the clock. -/
structure TimedCache (T : Type) where
  store : Cache T
  since : String → ℕ
  now : ℕ

namespace TimedCache

variable {T α β : Type}

/-- Nothing stored. -/
def empty : TimedCache T := ⟨fun _ => none, fun _ => 0, 0⟩

/-- What is left of an entry given at the moment `since`. -/
def entryAt (since now : ℕ) (e : CacheEntry T) : Option (CacheEntry T) :=
  match e.ttl with
  | some ttl => if now < since + 1000 * ttl then some e else none
  | none => some e

/-- Time passes, and the keys that expire are gone. -/
def elapse (s : TimedCache T) (ms : ℕ) : TimedCache T where
  store := fun key => (s.store key).bind (entryAt (s.since key) (s.now + ms))
  since := s.since
  now := s.now + ms

/-- The key a call gives an expiry. -/
def expires : CacheCall T → Option String
  | .setString key _ (some _) | .expireKey key _ => some key
  | .setString _ _ none | .getString _ | .deleteKey _ | .zadd _ _ _ | .zcard _ | .zpopmin _
  | .zrem _ _ => none

/-- One call at the moment of the clock. -/
def exec (c : CacheCall T) (s : TimedCache T) : c.Reply × TimedCache T :=
  ((Cache.exec c s.store).1,
    { s with
      store := (Cache.exec c s.store).2
      since := match expires c with
        | some key => Function.update s.since key s.now
        | none => s.since })

/-- A call is answered at once. -/
def Answers (s : TimedCache T) (c : CacheCall T) (reply : c.Reply) (s' : TimedCache T) : Prop :=
  exec c s = (reply, s')

theorem answers_exec (s : TimedCache T) (c : CacheCall T) :
    Answers s c (exec c s).1 (exec c s).2 := rfl

theorem entryAt_some {since now : ℕ} {e e' : CacheEntry T} (h : entryAt since now e = some e') :
    e' = e ∧ ∀ ttl, e.ttl = some ttl → now < since + 1000 * ttl := by
  unfold entryAt at h
  cases httl : e.ttl with
  | none =>
      rw [httl] at h
      exact ⟨(Option.some.inj h).symm, nofun⟩
  | some ttl =>
      rw [httl] at h
      dsimp only at h
      split_ifs at h with hlt
      refine ⟨(Option.some.inj h).symm, fun ttl' httl' => ?_⟩
      obtain rfl := Option.some.inj httl'
      exact hlt

/-- An entry that is left was there, and its expiry has not passed. -/
theorem elapse_some {s : TimedCache T} {ms : ℕ} {key : String} {e : CacheEntry T}
    (h : (s.elapse ms).store key = some e) :
    s.store key = some e ∧ ∀ ttl, e.ttl = some ttl → s.now + ms < s.since key + 1000 * ttl := by
  obtain ⟨e', he', hentry⟩ := Option.bind_eq_some_iff.mp h
  obtain ⟨rfl, httl⟩ := entryAt_some hentry
  exact ⟨he', httl⟩

theorem elapse_of_lt {s : TimedCache T} {ms : ℕ} {key : String} {e : CacheEntry T} {ttl : ℕ}
    (h : s.store key = some e) (httl : e.ttl = some ttl) (hlt : s.now + ms < s.since key + 1000 * ttl) :
    (s.elapse ms).store key = some e := by
  refine Option.bind_eq_some_iff.mpr ⟨e, h, ?_⟩
  unfold entryAt
  rw [httl]
  exact if_pos hlt

section rules

variable {G : TimedCache T → TimedCache T → Prop}
  {Q : TimedCache T → Except CacheError β → Prop} {s : TimedCache T}

/-- The rule of a call that succeeds. -/
theorem guarantees_exec {c : CacheCall T} {a : c.Out} {f : c.Out → CacheM T β}
    (hreply : (exec c s).1 = .ok a) (hG : G s (exec c s).2)
    (hf : (f a).Guarantees Answers G Q (exec c s).2) :
    ((CacheM.single c).andThen f).Guarantees Answers G Q s := by
  rintro reply s' h
  obtain ⟨rfl, rfl⟩ : (exec c s).1 = reply ∧ (exec c s).2 = s' := Prod.ext_iff.mp h
  refine ⟨hG, ?_⟩
  rw [hreply]
  exact hf

/-- The rule of a call whose result is ignored. -/
theorem guarantees_ignore {c : CacheCall T} {f : Unit → CacheM T β} (hG : G s (exec c s).2)
    (hf : (f ()).Guarantees Answers G Q (exec c s).2) :
    ((CacheM.single c).ignore.andThen f).Guarantees Answers G Q s := by
  rintro reply s' h
  obtain ⟨rfl, rfl⟩ : (exec c s).1 = reply ∧ (exec c s).2 = s' := Prod.ext_iff.mp h
  exact ⟨hG, hf⟩

end rules

end TimedCache

end MiniSiem
