import MiniSiem.Lib.Programs
import Mathlib.Data.List.Sort
import Mathlib.Data.Prod.Lex
import Mathlib.Data.String.Basic

/-! # The cache of the detection rules

The part of the `Cache` trait that the correlation rules call, on a keyspace as Redis has it:
a key holds a text or a sorted set, and an expiry in seconds when one was set last.

* **Texts.** The keyspace is generic in the type of its texts, so a rule may store the value
  its text decodes to.
* **Sorted sets.** A sorted set lists its members by score and then by name, every member once;
  a set that loses its last member loses its key.
* **Calls.** `exec` is the effect of one call; a call on a key of the other kind fails with
  `wrongType` and changes nothing.  `CacheM` programs are `Atomic.Prog` programs over these
  calls whose first failed call ends them (the `?` of the source). -/

namespace MiniSiem

open Atomic

inductive CacheError where
  | wrongType
deriving DecidableEq, Repr

/-- Members by score and name, every name once. -/
structure ZSet where
  members : List (ℤ ×ₗ String)
  sorted : members.Pairwise (· ≤ ·)
  distinct : (members.map (fun m => (ofLex m).2)).Nodup
deriving DecidableEq

namespace ZSet

def empty : ZSet := ⟨[], List.Pairwise.nil, List.nodup_nil⟩

/-- The set without the member `name`. -/
def erase (z : ZSet) (name : String) : ZSet where
  members := z.members.filter (fun m => (ofLex m).2 ≠ name)
  sorted := z.sorted.sublist List.filter_sublist
  distinct := (List.filter_sublist.map _).nodup z.distinct

/-- `ZADD`: the member `name` with the score `score`, which replaces its old one. -/
def insert (z : ZSet) (name : String) (score : ℤ) : ZSet where
  members := (z.erase name).members.orderedInsert (· ≤ ·) (toLex (score, name))
  sorted := (z.erase name).sorted.orderedInsert _ _
  distinct := by
    have hperm := (List.perm_orderedInsert (· ≤ ·) (toLex (score, name)) (z.erase name).members).map
      (fun m => (ofLex m).2)
    rw [hperm.nodup_iff, List.map_cons, List.nodup_cons]
    refine ⟨fun h => ?_, (z.erase name).distinct⟩
    obtain ⟨m, hm, he⟩ := List.mem_map.mp h
    simp [erase, he] at hm

/-- The set without its first member. -/
def tail (z : ZSet) : ZSet where
  members := z.members.tail
  sorted := z.sorted.sublist (List.tail_sublist _)
  distinct := ((List.tail_sublist _).map _).nodup z.distinct

end ZSet

inductive CacheValue (T : Type) where
  | text (t : T)
  | zset (z : ZSet)
deriving DecidableEq

/-- A key's value and the expiry in seconds it was given last. -/
structure CacheEntry (T : Type) where
  value : CacheValue T
  ttl : Option ℕ
deriving DecidableEq

abbrev Cache (T : Type) := String → Option (CacheEntry T)

inductive CacheCall (T : Type) where
  | getString (key : String)
  | setString (key : String) (value : T) (expiry : Option ℕ)
  | deleteKey (key : String)
  | expireKey (key : String) (ttl : ℕ)
  | zadd (key member : String) (score : ℤ)
  | zcard (key : String)
  | zpopmin (key : String)
  | zrem (key member : String)
deriving DecidableEq

/-- What a successful call returns. -/
abbrev CacheCall.Out {T : Type} : CacheCall T → Type
  | getString _ => Option T
  | zcard _ => ℕ
  | zpopmin _ => Option String
  | setString _ _ _ | deleteKey _ | expireKey _ _ | zadd _ _ _ | zrem _ _ => Unit

abbrev CacheCall.Reply {T : Type} (c : CacheCall T) : Type := Except CacheError c.Out

namespace Cache

variable {T : Type}

/-- The sorted set at a key, a missing one being empty, with the key's expiry. -/
def zsetAt (s : Cache T) (key : String) : Except CacheError (ZSet × Option ℕ) :=
  match s key with
  | none => .ok (.empty, none)
  | some ⟨.zset z, ttl⟩ => .ok (z, ttl)
  | some ⟨.text _, _⟩ => .error .wrongType

/-- A call on the sorted set of a key; a set without members has no key. -/
def onZset {α : Type} (s : Cache T) (key : String) (f : ZSet → α × ZSet) :
    Except CacheError α × Cache T :=
  match s.zsetAt key with
  | .error e => (.error e, s)
  | .ok (z, ttl) =>
      (.ok (f z).1, Function.update s key
        (if (f z).2.members.isEmpty then none else some ⟨.zset (f z).2, ttl⟩))

theorem onZset_frame {α : Type} (s : Cache T) (f : ZSet → α × ZSet) {key k : String}
    (h : k ≠ key) : (s.onZset key f).2 k = s k := by
  unfold onZset
  cases s.zsetAt key with
  | error e => rfl
  | ok z => exact Function.update_of_ne h _ _

/-- The key holds a sorted set or nothing, so no call on it as a sorted set fails. -/
def IsZset (s : Cache T) (key : String) : Prop := ∃ z, s.zsetAt key = .ok z

theorem isZset_congr {s s' : Cache T} {key : String} (h : s' key = s key) :
    s'.IsZset key ↔ s.IsZset key := by
  unfold IsZset zsetAt
  rw [h]

theorem IsZset.onZset_reply {α : Type} {s : Cache T} {key : String} (h : s.IsZset key)
    (f : ZSet → α × ZSet) : ∃ a, (s.onZset key f).1 = .ok a := by
  obtain ⟨z, hz⟩ := h
  unfold onZset
  rw [hz]
  exact ⟨_, rfl⟩

theorem IsZset.onZset {α : Type} {s : Cache T} {key : String} (h : s.IsZset key)
    (f : ZSet → α × ZSet) : (s.onZset key f).2.IsZset key := by
  obtain ⟨z, hz⟩ := h
  have hkey : (s.onZset key f).2 key =
      if (f z.1).2.members.isEmpty then none else some ⟨.zset (f z.1).2, z.2⟩ := by
    unfold Cache.onZset
    rw [hz]
    exact Function.update_self _ _ _
  unfold IsZset zsetAt
  rw [hkey]
  by_cases he : (f z.1).2.members.isEmpty = true
  · rw [if_pos he]
    exact ⟨_, rfl⟩
  · rw [if_neg he]
    exact ⟨_, rfl⟩

/-- `GET`. -/
def getString (s : Cache T) (key : String) : Except CacheError (Option T) :=
  match s key with
  | none => .ok none
  | some ⟨.text t, _⟩ => .ok (some t)
  | some ⟨.zset _, _⟩ => .error .wrongType

/-- `ZCARD`. -/
def zcard (s : Cache T) (key : String) : Except CacheError ℕ :=
  (s.zsetAt key).map (fun z => z.1.members.length)

/-- The effect and the reply of one call. -/
def exec : (c : CacheCall T) → Cache T → c.Reply × Cache T
  | .getString key, s => (s.getString key, s)
  | .setString key value expiry, s => (.ok (), Function.update s key (some ⟨.text value, expiry⟩))
  | .deleteKey key, s => (.ok (), Function.update s key none)
  | .expireKey key ttl, s =>
      (.ok (), Function.update s key ((s key).map (fun e => { e with ttl := some ttl })))
  | .zadd key member score, s => s.onZset key fun z => ((), z.insert member score)
  | .zcard key, s => (s.zcard key, s)
  | .zpopmin key, s =>
      s.onZset key fun z => (z.members.head?.map (fun m => (ofLex m).2), z.tail)
  | .zrem key member, s => s.onZset key fun z => ((), z.erase member)

end Cache

/-- The key a call writes; the other calls only read. -/
def CacheCall.writes {T : Type} : CacheCall T → Option String
  | setString key _ _ | deleteKey key | expireKey key _ | zadd key _ _ | zpopmin key | zrem key _ =>
      some key
  | getString _ | zcard _ => none

/-- A call leaves every key alone that it does not write. -/
theorem Cache.exec_frame {T : Type} (c : CacheCall T) (s : Cache T) {key : String}
    (h : c.writes ≠ some key) : (Cache.exec c s).2 key = s key := by
  cases c with
  | getString k => rfl
  | zcard k => rfl
  | setString k v e => exact Function.update_of_ne (fun he => h (by rw [he]; rfl)) _ _
  | deleteKey k => exact Function.update_of_ne (fun he => h (by rw [he]; rfl)) _ _
  | expireKey k t => exact Function.update_of_ne (fun he => h (by rw [he]; rfl)) _ _
  | zadd k m sc => exact onZset_frame s _ (fun he => h (by rw [he]; rfl))
  | zpopmin k => exact onZset_frame s _ (fun he => h (by rw [he]; rfl))
  | zrem k m => exact onZset_frame s _ (fun he => h (by rw [he]; rfl))

theorem Cache.IsZset.expireKey {T : Type} {s : Cache T} {key : String} (h : s.IsZset key)
    (ttl : ℕ) : (Cache.exec (.expireKey key ttl) s).2.IsZset key := by
  obtain ⟨z, hz⟩ := h
  unfold Cache.IsZset Cache.zsetAt Cache.exec at *
  simp only [Function.update_self]
  cases he : s key with
  | none => exact ⟨_, rfl⟩
  | some e =>
      obtain ⟨value, old⟩ := e
      cases value with
      | zset z => exact ⟨_, rfl⟩
      | text t =>
          rw [he] at hz
          cases hz

/-! ### The members of a sorted set -/

namespace ZSet

/-- The members, by score and then by name. -/
def names (z : ZSet) : List String := z.members.map fun m => (ofLex m).2

theorem names_erase (z : ZSet) (name : String) :
    (z.erase name).names = z.names.filter (· ≠ name) := by
  unfold names erase
  rw [List.filter_map]
  rfl

theorem names_tail (z : ZSet) : z.tail.names = z.names.tail := List.map_tail

theorem names_insert_perm (z : ZSet) (name : String) (score : ℤ) :
    (z.insert name score).names.Perm (name :: z.names.filter (· ≠ name)) := by
  rw [← names_erase]
  exact (List.perm_orderedInsert (· ≤ ·) (toLex (score, name)) (z.erase name).members).map _

theorem names_isEmpty (z : ZSet) : z.members.isEmpty = z.names.isEmpty := by
  unfold names
  rw [List.isEmpty_map]

end ZSet

namespace Cache

variable {T : Type}

/-- The members of the sorted set at a key. -/
def names (s : Cache T) (key : String) : List String :=
  match s.zsetAt key with
  | .ok z => z.1.names
  | .error _ => []

/-- The expiry at a key. -/
def ttlAt (s : Cache T) (key : String) : Option ℕ := (s key).bind (·.ttl)

theorem names_congr {s s' : Cache T} {key : String} (h : s' key = s key) :
    s'.names key = s.names key := by
  unfold names zsetAt
  rw [h]

theorem ttlAt_congr {s s' : Cache T} {key : String} (h : s' key = s key) :
    s'.ttlAt key = s.ttlAt key := by
  unfold ttlAt
  rw [h]

theorem zcard_of_isZset {s : Cache T} {key : String} (h : s.IsZset key) :
    s.zcard key = .ok (s.names key).length := by
  obtain ⟨z, hz⟩ := h
  unfold zcard names
  rw [hz]
  simp only [Except.map, ZSet.names, List.length_map]

theorem names_nodup (s : Cache T) (key : String) : (s.names key).Nodup := by
  unfold names
  cases s.zsetAt key with
  | error e => exact List.nodup_nil
  | ok z => exact z.1.distinct

/-- What a call on a sorted set does to its members, its expiry and its reply. -/
theorem onZset_spec {α : Type} {s : Cache T} {key : String} (h : s.IsZset key) (f : ZSet → α × ZSet) :
    ∃ z, z.names = s.names key ∧ (s.onZset key f).1 = .ok (f z).1 ∧
      (s.onZset key f).2.names key = (f z).2.names ∧
      ((f z).2.names ≠ [] → (s.onZset key f).2.ttlAt key = s.ttlAt key) := by
  obtain ⟨⟨z, ttl⟩, hz⟩ := h
  have httl : s.ttlAt key = ttl := by
    unfold zsetAt at hz
    unfold ttlAt
    cases he : s key with
    | none =>
        rw [he] at hz
        cases hz
        rfl
    | some e =>
        obtain ⟨value, old⟩ := e
        rw [he] at hz
        cases value with
        | zset z' =>
            cases hz
            rfl
        | text t => cases hz
  have hkey : (s.onZset key f).2 key =
      if (f z).2.members.isEmpty then none else some ⟨.zset (f z).2, ttl⟩ := by
    unfold Cache.onZset
    rw [hz]
    exact Function.update_self _ _ _
  refine ⟨z, ?_, ?_, ?_, fun hne => ?_⟩
  · unfold names
    rw [hz]
  · unfold Cache.onZset
    rw [hz]
  · unfold names zsetAt
    rw [hkey]
    by_cases he : (f z).2.members.isEmpty = true
    · rw [if_pos he]
      have hnil : (f z).2.names = [] := by
        rw [ZSet.names_isEmpty] at he
        exact List.isEmpty_iff.mp he
      rw [hnil]
      rfl
    · rw [if_neg he]
  · rw [httl]
    unfold ttlAt
    rw [hkey, if_neg]
    · rfl
    · rw [ZSet.names_isEmpty]
      simpa using hne

/-- `EXPIRE` keeps the members, and sets the expiry of a set that has one. -/
theorem expireKey_spec (s : Cache T) (key : String) (ttl : ℕ) :
    (exec (.expireKey key ttl) s).2.names key = s.names key ∧
      (s.names key ≠ [] → (exec (.expireKey key ttl) s).2.ttlAt key = some ttl) := by
  have hkey : (exec (.expireKey key ttl) s).2 key =
      (s key).map (fun e => { e with ttl := some ttl }) := Function.update_self _ _ _
  unfold names ttlAt zsetAt
  rw [hkey]
  cases s key with
  | none => exact ⟨rfl, fun h => (h rfl).elim⟩
  | some e =>
      obtain ⟨value, old⟩ := e
      cases value with
      | zset z => exact ⟨rfl, fun _ => rfl⟩
      | text t => exact ⟨rfl, fun h => (h rfl).elim⟩

end Cache

/-! ### Programs over the cache -/

/-- An `async fn` over the cache that returns a `Result`. -/
abbrev CacheM (T α : Type) := Prog (CacheCall T) CacheCall.Reply (Except CacheError α)

namespace CacheM

variable {T α β : Type}

def pure (a : α) : CacheM T α := Prog.ret (.ok a)

/-- Continue with a value; an error ends the program. -/
def resume (f : α → CacheM T β) : Except CacheError α → CacheM T β
  | .ok a => f a
  | .error e => Prog.ret (.error e)

/-- `p.await?` followed by `f`. -/
def andThen (p : CacheM T α) (f : α → CacheM T β) : CacheM T β := p.bind (resume f)

/-- `let _ = p.await`. -/
def ignore (p : CacheM T α) : CacheM T Unit := p.bind fun _ => Prog.ret (.ok ())

def single (c : CacheCall T) : CacheM T c.Out := Prog.call c Prog.ret

abbrev getString (key : String) : CacheM T (Option T) := single (.getString key)

abbrev setString (key : String) (value : T) (expiry : Option ℕ) : CacheM T Unit :=
  single (.setString key value expiry)

abbrev deleteKey (key : String) : CacheM T Unit := single (.deleteKey key)

abbrev expireKey (key : String) (ttl : ℕ) : CacheM T Unit := single (.expireKey key ttl)

abbrev zadd (key member : String) (score : ℤ) : CacheM T Unit := single (.zadd key member score)

abbrev zcard (key : String) : CacheM T ℕ := single (.zcard key)

abbrev zpopmin (key : String) : CacheM T (Option String) := single (.zpopmin key)

abbrev zrem (key member : String) : CacheM T Unit := single (.zrem key member)

@[simp] theorem resume_ok (f : α → CacheM T β) (a : α) : resume f (.ok a) = f a := rfl

@[simp] theorem single_andThen (c : CacheCall T) (f : c.Out → CacheM T β) :
    (single c).andThen f = Prog.call c (resume f) := rfl

@[simp] theorem pure_andThen (a : α) (f : α → CacheM T β) : (pure a).andThen f = f a := rfl

theorem andThen_assoc {γ : Type} (p : CacheM T α) (f : α → CacheM T β) (g : β → CacheM T γ) :
    (p.andThen f).andThen g = p.andThen (fun a => (f a).andThen g) := by
  unfold andThen
  rw [Prog.bind_assoc]
  congr 1
  funext reply
  cases reply <;> rfl

theorem run_andThen_ok {p : CacheM T α} {f : α → CacheM T β} {s s' : Cache T} {a : α}
    (h : p.run Cache.exec s = (.ok a, s')) :
    (p.andThen f).run Cache.exec s = (f a).run Cache.exec s' := by
  unfold andThen
  rw [Prog.run_bind, h, resume_ok]

theorem run_single_andThen {c : CacheCall T} {f : c.Out → CacheM T β} {s s' : Cache T} {a : c.Out}
    (h : Cache.exec c s = (.ok a, s')) :
    ((single c).andThen f).run Cache.exec s = (f a).run Cache.exec s' :=
  run_andThen_ok h

theorem run_ignore (p : CacheM T α) (s : Cache T) :
    p.ignore.run Cache.exec s = (.ok (), (p.run Cache.exec s).2) := by
  unfold ignore
  rw [Prog.run_bind]
  rfl

variable {P : Cache T → Prop} {s : Cache T}

/-- The rule of `andThen`: an error ends the program where `p` ended. -/
theorem always_andThen {p : CacheM T α} {f : α → CacheM T β} (hp : p.Always Cache.exec P s)
    (hf : ∀ a s', P s' → (f a).Always Cache.exec P s') : (p.andThen f).Always Cache.exec P s := by
  refine Prog.always_bind hp ?_
  have hend := hp.2
  rcases h : p.run Cache.exec s with ⟨_ | a, s'⟩
  · rw [h] at hend
    exact Prog.always_ret hend
  · rw [h] at hend
    exact hf a s' hend

theorem always_ignore {p : CacheM T α} (hp : p.Always Cache.exec P s) :
    p.ignore.Always Cache.exec P s :=
  Prog.always_bind hp (Prog.always_ret hp.2)

/-- The rule of a single call. -/
theorem always_single {c : CacheCall T} (h : P s) (hc : P (Cache.exec c s).2) :
    (single c).Always Cache.exec P s :=
  Prog.always_call h (Prog.always_ret hc)

end CacheM

end MiniSiem
