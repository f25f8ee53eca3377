import MiniSiem.LegalHold
import MiniSiem.RedisCounters

/-! # Redis and the users as the token handlers see them

The commands that `/refresh`, `/logout` and the WebSocket endpoint issue (`db/redis.rs`,
`db/postgres.rs`), each of them atomic.

* **Keyspace.**  A key holds a string or a set and may expire; a key found expired is removed.
* **Environment.**  An `AuthTick` fixes the time, a failure, and what the code draws or computes
  outside the store: new random tokens, signed and decoded JSON web tokens, the quota.
* **Lookups.**  `lookUp` and `get` are the same command; a handler starts with the first. -/

namespace MiniSiem

inductive RedisObject
  | str (s : String)
  | set (members : List String)

structure RedisSlot where
  object : RedisObject
  expireAt : Option ℤ

structure User where
  id : Uuid
  tenantId : String
  email : String
  passwordHash : String
  role : String

/-- The claims of a token as they are signed. -/
structure JwtClaims extends Claims where
  iss : String
  aud : String
  tokenUse : Option String
  exp : UInt64
  iat : UInt64

structure AuthStore where
  keys : String → Option RedisSlot
  users : List User

structure AuthTick where
  clock : DateTime
  fault : Option String := none
  /-- A command that fails has had its effect. -/
  applied : Bool := false
  uuid : Uuid := ""
  refreshToken : String := ""
  signed : Except String String := .ok ""
  decoded : Except String JwtClaims := .error "Invalid token"
  withinLimit : Bool := true

/-! ### Commands -/

inductive AuthCmd
  | now
  | newV4
  | generateRefreshToken
  | encodeJwt (claims : JwtClaims)
  | decodeJwt (token : String)
  | allowFixedWindow (tenantId resource : String)
  | lookUp (key : String)
  | get (key : String)
  | set (key value : String)
  | setEx (key value : String) (seconds : UInt64)
  | del (key : String)
  | sadd (key member : String)
  | srem (key member : String)
  | expire (key : String) (seconds : UInt64)
  | getUserById (tenantId : String) (id : Uuid)

abbrev AuthCmd.Reply : AuthCmd → Type
  | now => DateTime
  | newV4 => Uuid
  | generateRefreshToken => String
  | encodeJwt _ => Except String String
  | decodeJwt _ => Except String JwtClaims
  | allowFixedWindow _ _ => Except String Bool
  | lookUp _ | get _ => Except String (Option String)
  | set _ _ | setEx _ _ _ | del _ | sadd _ _ | srem _ _ | expire _ _ => Except String Unit
  | getUserById _ _ => Except String (Option User)

namespace AuthStore

variable (s : AuthStore) (now : DateTime) (key : String)

def put (slot : Option RedisSlot) : AuthStore := { s with keys := Function.update s.keys key slot }

/-- The slot of a key, unless it has expired. -/
def live : Option RedisSlot :=
  (s.keys key).filter fun slot => match slot.expireAt with
    | some deadline => now.millis ≤ deadline
    | none => true

/-- The store after an access to a key. -/
def access : AuthStore := s.put key (s.live now key)

def wrongType : String := "WRONGTYPE Operation against a key holding the wrong kind of value"

/-- `GET`. -/
def get : Except String (Option String) :=
  match s.live now key with
  | none => .ok none
  | some ⟨.str value, _⟩ => .ok (some value)
  | some ⟨.set _, _⟩ => .error wrongType

/-- `GET` finds a string. -/
def holds : Bool :=
  match s.get now key with
  | .ok (some _) => true
  | _ => false

/-- `SETEX`. -/
def setEx (value : String) (seconds : UInt64) : Except String AuthStore :=
  if seconds = 0 then .error "invalid expire time in 'setex' command"
  else .ok (s.put key (some ⟨.str value, some (now.millis + seconds.toNat * 1000)⟩))

/-- `SADD`. -/
def sadd (member : String) : Except String AuthStore :=
  match s.live now key with
  | none => .ok (s.put key (some ⟨.set [member], none⟩))
  | some ⟨.set members, expireAt⟩ => .ok (s.put key (some ⟨.set (members.insert member), expireAt⟩))
  | some ⟨.str _, _⟩ => .error wrongType

/-- `SREM`; an empty set is no key. -/
def srem (member : String) : Except String AuthStore :=
  match s.live now key with
  | none => .ok (s.put key none)
  | some ⟨.set members, expireAt⟩ =>
      let rest := members.erase member
      .ok (s.put key (if rest = [] then none else some ⟨.set rest, expireAt⟩))
  | some ⟨.str _, _⟩ => .error wrongType

/-- `EXPIRE`. -/
def expire (seconds : UInt64) : AuthStore :=
  s.put key (if seconds = 0 then none
    else (s.live now key).map fun slot =>
      { slot with expireAt := some (now.millis + seconds.toNat * 1000) })

/-- `get_user_by_id`. -/
def getUserById (tenantId : String) (id : Uuid) : Option User :=
  s.users.find? fun user => user.tenantId = tenantId && user.id = id

end AuthStore

/-- A command replies and leaves a store; one that fails may have had its effect all the same. -/
def AuthTick.attempt {β : Type} (tick : AuthTick) (s : AuthStore) (reply : Except String β)
    (after : AuthStore) : Except String β × AuthStore :=
  match tick.fault with
  | some e => (.error e, if tick.applied then after else s)
  | none => (reply, after)

/-- A command that changes the store, or is refused. -/
def AuthTick.change (tick : AuthTick) (s : AuthStore) (result : Except String AuthStore) :
    Except String Unit × AuthStore :=
  match result with
  | .ok after => tick.attempt s (.ok ()) after
  | .error e => tick.attempt s (.error e) s

def execAuth (tick : AuthTick) : (c : AuthCmd) → AuthStore → c.Reply × AuthStore
  | .now, s => (tick.clock, s)
  | .newV4, s => (tick.uuid, s)
  | .generateRefreshToken, s => (tick.refreshToken, s)
  | .encodeJwt _, s => (tick.signed, s)
  | .decodeJwt _, s => (tick.decoded, s)
  | .allowFixedWindow _ _, s => tick.attempt s (.ok tick.withinLimit) s
  | .lookUp key, s | .get key, s => tick.attempt s (s.get tick.clock key) (s.access tick.clock key)
  | .set key value, s => tick.attempt s (.ok ()) (s.put key (some ⟨.str value, none⟩))
  | .setEx key value seconds, s => tick.change s (s.setEx tick.clock key value seconds)
  | .del key, s => tick.attempt s (.ok ()) (s.put key none)
  | .sadd key member, s => tick.change s (s.sadd tick.clock key member)
  | .srem key member, s => tick.change s (s.srem tick.clock key member)
  | .expire key seconds, s => tick.attempt s (.ok ()) (s.expire tick.clock key seconds)
  | .getUserById tenantId id, s => tick.attempt s (.ok (s.getUserById tenantId id)) s

section replies

variable {tick : AuthTick} {s : AuthStore} {key : String}

theorem execAuth_get (h : tick.fault = none) :
    execAuth tick (.get key) s = (s.get tick.clock key, s.access tick.clock key) := by
  show tick.attempt _ _ _ = _
  unfold AuthTick.attempt
  rw [h]

theorem execAuth_get_fault {e : String} (h : tick.fault = some e) :
    (execAuth tick (.get key) s).1 = .error e := by
  show (tick.attempt _ _ _).1 = _
  unfold AuthTick.attempt
  rw [h]

theorem execAuth_decodeJwt (token : String) :
    execAuth tick (.decodeJwt token) s = (tick.decoded, s) := rfl

theorem execAuth_lookUp : execAuth tick (.lookUp key) s = execAuth tick (.get key) s := rfl

theorem execAuth_del (h : tick.fault = none) :
    execAuth tick (.del key) s = (.ok (), s.put key none) := by
  show tick.attempt _ _ _ = _
  unfold AuthTick.attempt
  rw [h]

theorem execAuth_del_fault {e : String} (h : tick.fault = some e) :
    (execAuth tick (.del key) s).1 = .error e := by
  show (tick.attempt _ _ _).1 = _
  unfold AuthTick.attempt
  rw [h]

end replies

abbrev AuthProg (α : Type) := Atomic.Prog AuthCmd AuthCmd.Reply α

abbrev AuthPool (ι α : Type) := Atomic.Pool ι AuthCmd AuthCmd.Reply α AuthStore

/-- The key a command looks up. -/
def AuthCmd.lookedUp : AuthCmd → Option String
  | lookUp key => some key
  | _ => none

/-- The token a command decodes. -/
def AuthCmd.decoded : AuthCmd → Option String
  | decodeJwt token => some token
  | _ => none

/-- The key under which a command stores a string. -/
def AuthCmd.stores : AuthCmd → Option String
  | set key _ | setEx key _ _ => some key
  | _ => none

/-- The commands of a revocation that decide whether the key remains. -/
def AuthCmd.revokes : AuthCmd → Bool
  | get _ | del _ => true
  | _ => false

/-! ### Keys without a string -/

/-- No string is stored under the key. -/
def AuthStore.Gone (s : AuthStore) (key : String) : Prop :=
  ∀ value expireAt, s.keys key ≠ some ⟨.str value, expireAt⟩

namespace AuthStore

variable {s : AuthStore} {now : DateTime} {key : String}

theorem gone_of_not_holds (h : s.holds now key = false) : (s.access now key).Gone key := by
  intro value expireAt hkey
  unfold access put at hkey
  dsimp only at hkey
  rw [Function.update_self] at hkey
  unfold holds get at h
  rw [hkey] at h
  cases h

theorem gone_of_get_error {e : String} (h : s.get now key = .error e) : (s.access now key).Gone key := by
  refine gone_of_not_holds ?_
  unfold holds
  rw [h]

theorem gone_of_get_none (h : s.get now key = .ok none) : (s.access now key).Gone key := by
  refine gone_of_not_holds ?_
  unfold holds
  rw [h]

theorem gone_del : (s.put key none).Gone key := by
  intro value expireAt hkey
  unfold put at hkey
  dsimp only at hkey
  rw [Function.update_self] at hkey
  cases hkey

section stays

variable (h : s.Gone key)
include h

theorem Gone.live (value : String) (expireAt : Option ℤ) :
    s.live now key ≠ some ⟨.str value, expireAt⟩ := fun hlive =>
  h value expireAt (Option.filter_eq_some_iff.mp hlive).1

theorem Gone.not_holds : s.holds now key = false := by
  unfold AuthStore.holds AuthStore.get
  cases hlive : s.live now key with
  | none => rfl
  | some slot =>
      obtain ⟨object, expireAt⟩ := slot
      cases object with
      | str value => exact absurd hlive (h.live value expireAt)
      | set members => rfl

theorem Gone.put {k : String} {slot : Option RedisSlot}
    (hslot : k = key → ∀ value expireAt, slot ≠ some ⟨.str value, expireAt⟩) :
    (s.put k slot).Gone key := by
  intro value expireAt hkey
  unfold AuthStore.put at hkey
  dsimp only at hkey
  by_cases hk : k = key
  · rw [hk, Function.update_self] at hkey
    exact hslot hk value expireAt hkey
  · rw [Function.update_of_ne (Ne.symm hk)] at hkey
    exact h value expireAt hkey

theorem Gone.access (k : String) : (s.access now k).Gone key :=
  h.put fun hk => hk ▸ h.live

theorem Gone.expire (k : String) (seconds : UInt64) : (s.expire now k seconds).Gone key := by
  refine h.put fun hk value expireAt hslot => ?_
  split_ifs at hslot
  obtain ⟨slot, hlive, heq⟩ := Option.map_eq_some_iff.mp hslot
  have hobject : slot.object = .str value := congrArg RedisSlot.object heq
  have hnever : s.live now key ≠ some ⟨.str value, slot.expireAt⟩ := h.live value slot.expireAt
  refine hnever ?_
  rw [← hk, hlive, ← hobject]

theorem Gone.attempt {β : Type} (tick : AuthTick) (reply : Except String β) {after : AuthStore}
    (hafter : after.Gone key) : (tick.attempt s reply after).2.Gone key := by
  unfold AuthTick.attempt
  split
  · dsimp only
    split_ifs
    · exact hafter
    · exact h
  · exact hafter

/-- A change of a key leaves a set under it, or nothing. -/
theorem Gone.change {tick : AuthTick} {result : Except String AuthStore}
    (hresult : ∀ after, result = .ok after → after.Gone key) : (tick.change s result).2.Gone key := by
  cases result with
  | error e => exact h.attempt tick _ h
  | ok after => exact h.attempt tick _ (hresult after rfl)

theorem Gone.sadd {k member : String} {after : AuthStore} (hok : s.sadd now k member = .ok after) :
    after.Gone key := by
  unfold AuthStore.sadd at hok
  split at hok
  · obtain rfl := Except.ok.inj hok
    exact h.put fun _ _ _ heq => by cases heq
  · obtain rfl := Except.ok.inj hok
    exact h.put fun _ _ _ heq => by cases heq
  · cases hok

theorem Gone.srem {k member : String} {after : AuthStore} (hok : s.srem now k member = .ok after) :
    after.Gone key := by
  unfold AuthStore.srem at hok
  split at hok
  · obtain rfl := Except.ok.inj hok
    exact h.put fun _ _ _ heq => by cases heq
  · obtain rfl := Except.ok.inj hok
    refine h.put fun _ _ _ heq => ?_
    split_ifs at heq
    cases heq
  · cases hok

theorem Gone.exec {tick : AuthTick} {c : AuthCmd} (hstores : ∀ k ∈ c.stores, k ≠ key) :
    (execAuth tick c s).2.Gone key := by
  cases c with
  | now => exact h
  | newV4 => exact h
  | generateRefreshToken => exact h
  | encodeJwt claims => exact h
  | decodeJwt token => exact h
  | allowFixedWindow tenantId resource => exact h.attempt tick _ h
  | lookUp k => exact h.attempt tick _ (h.access k)
  | get k => exact h.attempt tick _ (h.access k)
  | set k value => exact h.attempt tick _ (h.put fun hk => absurd hk (hstores k rfl))
  | setEx k value seconds =>
      refine h.change fun after hok => ?_
      unfold AuthStore.setEx at hok
      split_ifs at hok
      obtain rfl := Except.ok.inj hok
      exact h.put fun hk => absurd hk (hstores k rfl)
  | del k => exact h.attempt tick _ (h.put fun _ _ _ heq => by cases heq)
  | sadd k member => exact h.change fun after hok => h.sadd hok
  | srem k member => exact h.change fun after hok => h.srem hok
  | expire k seconds => exact h.attempt tick _ (h.expire k seconds)
  | getUserById tenantId id => exact h.attempt tick _ h

end stays

end AuthStore

end MiniSiem
