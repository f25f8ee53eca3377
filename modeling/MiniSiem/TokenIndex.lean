import MiniSiem.RefreshTokens
import MiniSiem.Lib.FadingIndex
import MiniSiem.Lib.Sessions

/-! # The tokens of a user

`store_refresh_token`, `revoke_refresh_token` and `revoke_all_user_tokens` of `db/redis.rs`, called one after
the other, with a clock of its own for each command.

* **Two structures.**  The records of the tokens and the sets of the users expire one by one; seen as a
  `Fading.Index` they are coherent between the calls.
* **One call.**  From the index before a call to the index after it (`store_ends`, `revoke_ends`,
  `revokeAll_ends`).
* **Sequences.**  `revocable_run`: every usable token is in the set of its user and is revoked with it, if an
  `EXPIRE` finds the set that the `SADD` before it has written and a token is stored for one user only. -/

namespace MiniSiem

open Atomic

/-! ### The calls -/

/-- `SMEMBERS`. -/
def AuthStore.smembers (s : AuthStore) (now : DateTime) (key : String) : Except String (List String) :=
  match s.live now key with
  | none => .ok []
  | some ⟨.set members, _⟩ => .ok members
  | some ⟨.str _, _⟩ => .error wrongType

inductive TokenCmd
  | auth (c : AuthCmd)
  | smembers (key : String)

abbrev TokenCmd.Reply : TokenCmd → Type
  | auth c => c.Reply
  | smembers _ => Except String (List String)

abbrev TokenProg := Prog TokenCmd TokenCmd.Reply

/-- The store and the time of the last command. -/
structure TokenStore where
  store : AuthStore
  now : DateTime

def execToken (tick : AuthTick) : (c : TokenCmd) → TokenStore → c.Reply × TokenStore
  | .auth c, s => ((execAuth tick c s.store).1, ⟨(execAuth tick c s.store).2, tick.clock⟩)
  | .smembers key, s =>
      let result := tick.attempt s.store (s.store.smembers tick.clock key) (s.store.access tick.clock key)
      (result.1, ⟨result.2, tick.clock⟩)

/-- A program of the handlers among the others. -/
def TokenProg.ofAuth {α : Type} : AuthProg α → TokenProg α
  | .ret a => .ret a
  | .call c k => .call (.auth c) fun r => ofAuth (k r)

/-- The loop of `revoke_all_user_tokens`. -/
def deleteTokens (userKey : String) : List String → TokenProg (Except String Unit)
  | [] => .call (.auth (.del userKey)) fun r => .ret r
  | tokenHash :: tokenHashes => .call (.auth (.del (tokenKey tokenHash))) fun
      | .error e => .ret (.error e)
      | .ok () => deleteTokens userKey tokenHashes

/-- `revoke_all_user_tokens`. -/
def revokeAllUserTokens (userId : String) : TokenProg (Except String Unit) :=
  .call (.smembers (userTokensKey userId)) fun
    | .error e => .ret (.error e)
    | .ok tokenHashes => deleteTokens (userTokensKey userId) tokenHashes

inductive TokenCall
  | store (userId tenantId token : String)
  | revoke (token : String)
  | revokeAll (userId : String)

def sevenDays : UInt64 := 7 * 24 * 3600

def TokenCall.prog (hashRefreshToken : String → Except String String) :
    TokenCall → TokenProg (Except String Unit)
  | store userId tenantId token =>
      .ofAuth (storeRefreshToken hashRefreshToken userId tenantId token sevenDays)
  | revoke token => .ofAuth (revokeRefreshToken hashRefreshToken token)
  | revokeAll userId => revokeAllUserTokens userId

/-- The users for whom a token has been stored. -/
def usersAfter (users : List String) : TokenCall → List String
  | .store userId _ _ => userId :: users
  | _ => users

/-! ### What is usable at a time -/

namespace AuthStore

variable (s : AuthStore) (t : ℤ)

/-- The slot of a key at a time in milliseconds. -/
def slotAt (key : String) : Option RedisSlot :=
  (s.keys key).filter fun slot => match slot.expireAt with
    | some deadline => t ≤ deadline
    | none => true

/-- The user of a token, if it is usable. -/
def tokenOwner (tokenHash : String) : Option String :=
  match s.slotAt t (tokenKey tokenHash) with
  | some ⟨.str value, _⟩ => some (afterLastColon value)
  | _ => none

/-- The set of a user. -/
def tokenSet (userId : String) : List String :=
  match s.slotAt t (userTokensKey userId) with
  | some ⟨.set members, _⟩ => members
  | _ => []

variable {s t}

theorem slotAt_eq_some_iff {key : String} {slot : RedisSlot} : s.slotAt t key = some slot ↔
    s.keys key = some slot ∧ ∀ deadline ∈ slot.expireAt, t ≤ deadline := by
  unfold slotAt
  rw [Option.filter_eq_some_iff]
  refine and_congr_right fun _ => ?_
  cases slot.expireAt with
  | none => simp
  | some deadline => simp

theorem slotAt_fades {t' : ℤ} {key : String} {slot : RedisSlot} (hle : t' ≤ t)
    (h : s.slotAt t key = some slot) : s.slotAt t' key = some slot := by
  obtain ⟨hkey, hdeadline⟩ := slotAt_eq_some_iff.mp h
  exact slotAt_eq_some_iff.mpr ⟨hkey, fun d hd => hle.trans (hdeadline d hd)⟩

theorem slotAt_congr {s' : AuthStore} {key : String} (h : s'.keys key = s.keys key) :
    s'.slotAt t key = s.slotAt t key := by
  unfold slotAt
  rw [h]

theorem tokenOwner_eq_some_iff {h u : String} : s.tokenOwner t h = some u ↔
    ∃ value expireAt, s.slotAt t (tokenKey h) = some ⟨.str value, expireAt⟩ ∧ afterLastColon value = u := by
  unfold tokenOwner
  split
  · rename_i value expireAt hslot
    rw [hslot]
    simp
  · rename_i hnot
    refine iff_of_false (fun heq => by cases heq) ?_
    rintro ⟨value, expireAt, hslot, -⟩
    exact hnot value expireAt hslot

theorem mem_tokenSet_iff {h u : String} : h ∈ s.tokenSet t u ↔
    ∃ members expireAt, s.slotAt t (userTokensKey u) = some ⟨.set members, expireAt⟩ ∧ h ∈ members := by
  unfold tokenSet
  split
  · rename_i members expireAt hslot
    rw [hslot]
    simp
  · rename_i hnot
    refine iff_of_false List.not_mem_nil ?_
    rintro ⟨members, expireAt, hslot, -⟩
    exact hnot members expireAt hslot

end AuthStore

/-- The records and the sets as an index. -/
def AuthStore.index (s : AuthStore) : Fading.Index String String where
  owner := s.tokenOwner
  members t u := {h | h ∈ s.tokenSet t u}
  owner_fades := by
    intro t t' h u hle hu
    obtain ⟨value, expireAt, hslot, heq⟩ := AuthStore.tokenOwner_eq_some_iff.mp hu
    exact AuthStore.tokenOwner_eq_some_iff.mpr ⟨value, expireAt, AuthStore.slotAt_fades hle hslot, heq⟩
  members_fade := by
    intro t t' u hle h hmem
    obtain ⟨members, expireAt, hslot, hin⟩ := AuthStore.mem_tokenSet_iff.mp hmem
    exact AuthStore.mem_tokenSet_iff.mpr ⟨members, expireAt, AuthStore.slotAt_fades hle hslot, hin⟩

/-! ### Keys -/

theorem tokenKey_inj {h h' : String} : tokenKey h = tokenKey h' ↔ h = h' := String.append_right_inj _

theorem userTokensKey_inj {u u' : String} : userTokensKey u = userTokensKey u' ↔ u = u' :=
  String.append_right_inj _

theorem tokenKey_ne_userTokensKey (h u : String) : tokenKey h ≠ userTokensKey u := by
  intro heq
  have hchars := congrArg (fun s => s.toList.head?) heq
  simp [tokenKey, userTokensKey] at hchars

/-- The user of a value, whatever the tenant is called. -/
theorem afterLastColon_append (tenantId : String) {userId : String} (hid : ':' ∉ userId.toList) :
    afterLastColon (tenantId ++ ":" ++ userId) = userId := by
  unfold afterLastColon
  have hkept : ∀ c ∈ userId.toList.reverse, decide (c ≠ ':') = true := by
    intro c hc
    refine decide_eq_true ?_
    rintro rfl
    exact hid (List.mem_reverse.mp hc)
  rw [String.toList_append, String.toList_append, List.reverse_append, List.reverse_append,
    List.takeWhile_append_of_pos hkept]
  simp

section frames

variable {s s' : AuthStore} {t : ℤ}

theorem tokenOwner_congr {h : String} (hkey : s'.keys (tokenKey h) = s.keys (tokenKey h)) :
    s'.tokenOwner t h = s.tokenOwner t h := by
  unfold AuthStore.tokenOwner
  rw [AuthStore.slotAt_congr hkey]

theorem tokenSet_congr {u : String} (hkey : s'.keys (userTokensKey u) = s.keys (userTokensKey u)) :
    s'.tokenSet t u = s.tokenSet t u := by
  unfold AuthStore.tokenSet
  rw [AuthStore.slotAt_congr hkey]

theorem tokenOwner_of_none {h : String} (hkey : s.keys (tokenKey h) = none) : s.tokenOwner t h = none := by
  unfold AuthStore.tokenOwner AuthStore.slotAt
  rw [hkey]
  rfl

theorem tokenSet_of_none {u : String} (hkey : s.keys (userTokensKey u) = none) : s.tokenSet t u = [] := by
  unfold AuthStore.tokenSet AuthStore.slotAt
  rw [hkey]
  rfl

theorem tokenOwner_of_record {h value : String} {deadline : ℤ}
    (hkey : s.keys (tokenKey h) = some ⟨.str value, some deadline⟩) (t : ℤ) :
    s.tokenOwner t h = if t ≤ deadline then some (afterLastColon value) else none := by
  unfold AuthStore.tokenOwner AuthStore.slotAt
  rw [hkey, Option.filter_some]
  by_cases ht : t ≤ deadline
  · rw [if_pos (decide_eq_true ht), if_pos ht]
  · rw [if_neg (by simpa using ht), if_neg ht]

theorem tokenSet_of_slot {u : String} {members : List String} {deadline : ℤ}
    (hkey : s.keys (userTokensKey u) = some ⟨.set members, some deadline⟩) (ht : t ≤ deadline) :
    s.tokenSet t u = members := by
  unfold AuthStore.tokenSet AuthStore.slotAt
  rw [hkey, Option.filter_some, if_pos (decide_eq_true ht)]

@[simp] theorem put_keys_self (key : String) (slot : Option RedisSlot) : (s.put key slot).keys key = slot :=
  Function.update_self _ _ _

theorem put_keys_of_ne {key k : String} (slot : Option RedisSlot) (hk : k ≠ key) :
    (s.put key slot).keys k = s.keys k := Function.update_of_ne hk _ _

end frames

/-! ### The sets of the users -/

/-- A set, or nothing, stands under the key of each user. -/
def SetsOnly (users : List String) (s : AuthStore) : Prop :=
  ∀ u slot, s.keys (userTokensKey u) = some slot → u ∈ users ∧ ∃ members, slot.object = .set members

namespace SetsOnly

variable {users : List String} {s : AuthStore} (h : SetsOnly users s) (now : DateTime) (u : String)
include h

omit now u in
theorem congr {s' : AuthStore} (hkeys : ∀ u, s'.keys (userTokensKey u) = s.keys (userTokensKey u)) :
    SetsOnly users s' := by
  intro u slot hkey
  rw [hkeys] at hkey
  exact h u slot hkey

theorem live_cases : s.live now (userTokensKey u) = none ∧ s.tokenSet now.millis u = [] ∨
    ∃ members expireAt, s.live now (userTokensKey u) = some ⟨.set members, expireAt⟩ ∧
      s.tokenSet now.millis u = members := by
  have hlive : s.live now (userTokensKey u) = s.slotAt now.millis (userTokensKey u) := rfl
  rw [hlive]
  unfold AuthStore.tokenSet
  cases hslot : s.slotAt now.millis (userTokensKey u) with
  | none => exact Or.inl ⟨rfl, rfl⟩
  | some slot =>
      obtain ⟨-, members, hobject⟩ := h u slot (AuthStore.slotAt_eq_some_iff.mp hslot).1
      obtain ⟨object, expireAt⟩ := slot
      obtain rfl : object = .set members := hobject
      exact Or.inr ⟨members, expireAt, rfl, rfl⟩

theorem smembers_eq : s.smembers now (userTokensKey u) = .ok (s.tokenSet now.millis u) := by
  unfold AuthStore.smembers
  rcases h.live_cases now u with ⟨hlive, hset⟩ | ⟨members, expireAt, hlive, hset⟩
  · rw [hlive, hset]
  · rw [hlive, hset]

theorem sadd_eq (tokenHash : String) : ∃ members expireAt,
    s.sadd now (userTokensKey u) tokenHash =
      .ok (s.put (userTokensKey u) (some ⟨.set members, expireAt⟩)) ∧
    ∀ j, j ∈ members ↔ j = tokenHash ∨ j ∈ s.tokenSet now.millis u := by
  unfold AuthStore.sadd
  rcases h.live_cases now u with ⟨hlive, hset⟩ | ⟨members, expireAt, hlive, hset⟩
  · rw [hlive, hset]
    exact ⟨[tokenHash], none, rfl, fun j => by simp⟩
  · rw [hlive, hset]
    exact ⟨members.insert tokenHash, expireAt, rfl, fun j => List.mem_insert_iff⟩

/-- After `SREM` the set of the user has the same other members. -/
theorem srem_eq (tokenHash : String) : ∃ slot,
    s.srem now (userTokensKey u) tokenHash = .ok (s.put (userTokensKey u) slot) ∧
    (∀ slot' ∈ slot, (s.keys (userTokensKey u)).isSome = true ∧ ∃ members, slot'.object = .set members) ∧
    ∀ t, now.millis ≤ t → ∀ j, j ≠ tokenHash →
      (j ∈ (s.put (userTokensKey u) slot).tokenSet t u ↔ j ∈ s.tokenSet t u) := by
  unfold AuthStore.srem
  rcases h.live_cases now u with ⟨hlive, hset⟩ | ⟨members, expireAt, hlive, hset⟩
  · rw [hlive]
    refine ⟨none, rfl, fun slot hslot => absurd hslot (Option.not_mem_none slot), fun t ht j hj => ?_⟩
    rw [tokenSet_of_none (put_keys_self _ _)]
    refine iff_of_false List.not_mem_nil fun hmem => ?_
    have := s.index.members_fade ht hmem
    rw [show s.index.members now.millis u = {j | j ∈ s.tokenSet now.millis u} from rfl, hset] at this
    exact List.not_mem_nil this
  · rw [hlive]
    obtain ⟨hkey, hdeadline⟩ := AuthStore.slotAt_eq_some_iff.mp hlive
    refine ⟨_, rfl, fun slot hslot => ?_, fun t ht j hj => ?_⟩
    · rw [hkey]
      split_ifs at hslot with hrest
      · cases hslot
      · cases hslot
        exact ⟨rfl, _, rfl⟩
    · rw [AuthStore.mem_tokenSet_iff, AuthStore.mem_tokenSet_iff]
      simp only [AuthStore.slotAt_eq_some_iff, put_keys_self, hkey]
      split_ifs with hrest
      · refine iff_of_false (by simp) ?_
        rintro ⟨members', expireAt', ⟨heq, -⟩, hmem⟩
        cases heq
        have := (List.mem_erase_of_ne hj).mpr hmem
        rw [hrest] at this
        exact List.not_mem_nil this
      · constructor
        · rintro ⟨members', expireAt', ⟨heq, hd⟩, hmem⟩
          cases heq
          exact ⟨members, expireAt, ⟨rfl, hd⟩, (List.mem_erase_of_ne hj).mp hmem⟩
        · rintro ⟨members', expireAt', ⟨heq, hd⟩, hmem⟩
          cases heq
          exact ⟨members.erase tokenHash, expireAt, ⟨rfl, hd⟩, (List.mem_erase_of_ne hj).mpr hmem⟩

end SetsOnly

/-! ### Commands that do not fail -/

/-- A command does not fail, and the clock does not go back. -/
def Orderly (tick : AuthTick) (s : TokenStore) (_ : TokenCmd) : Prop :=
  tick.fault = none ∧ s.now.millis ≤ tick.clock.millis

/-- An `EXPIRE` finds its key, and a token enters the set of one user only. -/
def IndexSafe (users : List String) (tick : AuthTick) (s : TokenStore) : TokenCmd → Prop
  | .auth (.expire key _) => (s.store.live tick.clock key).isSome = true
  | .auth (.sadd key tokenHash) =>
      ∀ v ∈ users, userTokensKey v ≠ key → tokenHash ∉ s.store.tokenSet tick.clock.millis v
  | _ => True

/-- At the time of the `SADD` an `EXPIRE` finds the key: only an expiry between the two is unsafe. -/
theorem live_of_sadd {s s' : AuthStore} {now : DateTime} {key member : String}
    (h : s.sadd now key member = .ok s') : (s'.live now key).isSome = true := by
  have hput : ∀ slot : RedisSlot, (∀ deadline ∈ slot.expireAt, now.millis ≤ deadline) →
      ((s.put key (some slot)).live now key).isSome = true := by
    intro slot hdeadline
    have hlive : (s.put key (some slot)).slotAt now.millis key = some slot :=
      AuthStore.slotAt_eq_some_iff.mpr ⟨put_keys_self _ _, hdeadline⟩
    exact Option.isSome_iff_exists.mpr ⟨slot, hlive⟩
  unfold AuthStore.sadd at h
  split at h
  · obtain rfl := Except.ok.inj h
    exact hput _ fun deadline hd => absurd hd (Option.not_mem_none deadline)
  · rename_i members expireAt hlive
    obtain rfl := Except.ok.inj h
    exact hput _ (AuthStore.slotAt_eq_some_iff.mp hlive).2
  · cases h

/-- The reply of a command at some such moment. -/
def TokenReply (users : List String) (s : TokenStore) (c : TokenCmd) (r : c.Reply) (s' : TokenStore) : Prop :=
  ∃ tick, (Orderly tick s c ∧ IndexSafe users tick s c) ∧ execToken tick c s = (r, s')

namespace TokenReply

variable {users : List String} {s s' : TokenStore}

theorem auth {c : AuthCmd} {r : c.Reply} (h : TokenReply users s (.auth c) r s') :
    s.now.millis ≤ s'.now.millis ∧ ∃ tick, tick.fault = none ∧ tick.clock = s'.now ∧
      IndexSafe users tick s (.auth c) ∧ execAuth tick c s.store = (r, s'.store) := by
  obtain ⟨tick, ⟨⟨hfault, hle⟩, hsafe⟩, heq⟩ := h
  cases heq
  exact ⟨hle, tick, hfault, rfl, hsafe, rfl⟩

theorem setEx {key value : String} {seconds : UInt64} {r : Except String Unit} (hpos : seconds ≠ 0)
    (h : TokenReply users s (.auth (.setEx key value seconds)) r s') :
    r = .ok () ∧ s.now.millis ≤ s'.now.millis ∧
      s'.store = s.store.put key (some ⟨.str value, some (s'.now.millis + seconds.toNat * 1000)⟩) := by
  obtain ⟨hle, tick, hfault, hclock, -, heq⟩ := h.auth
  have heq : tick.change s.store (s.store.setEx tick.clock key value seconds) = (r, s'.store) := heq
  unfold AuthTick.change AuthTick.attempt AuthStore.setEx at heq
  rw [if_neg hpos, hfault] at heq
  obtain ⟨hr, hs⟩ := Prod.mk.inj heq
  exact ⟨hr.symm, hle, by rw [← hs, hclock]⟩

theorem del {key : String} {r : Except String Unit} (h : TokenReply users s (.auth (.del key)) r s') :
    r = .ok () ∧ s.now.millis ≤ s'.now.millis ∧ s'.store = s.store.put key none := by
  obtain ⟨hle, tick, hfault, -, -, heq⟩ := h.auth
  rw [execAuth_del hfault] at heq
  obtain ⟨hr, hs⟩ := Prod.mk.inj heq
  exact ⟨hr.symm, hle, hs.symm⟩

theorem get {key : String} {r : Except String (Option String)}
    (h : TokenReply users s (.auth (.get key)) r s') :
    r = s.store.get s'.now key ∧ s.now.millis ≤ s'.now.millis ∧ s'.store = s.store.access s'.now key := by
  obtain ⟨hle, tick, hfault, hclock, -, heq⟩ := h.auth
  rw [execAuth_get hfault, hclock] at heq
  obtain ⟨hr, hs⟩ := Prod.mk.inj heq
  exact ⟨hr.symm, hle, hs.symm⟩

variable (hsets : SetsOnly users s.store)
include hsets

theorem smembers {u : String} {r : Except String (List String)}
    (h : TokenReply users s (.smembers (userTokensKey u)) r s') :
    r = .ok (s.store.tokenSet s'.now.millis u) ∧ s.now.millis ≤ s'.now.millis ∧
      s'.store = s.store.access s'.now (userTokensKey u) := by
  obtain ⟨tick, ⟨⟨hfault, hle⟩, -⟩, heq⟩ := h
  obtain ⟨hr, hs⟩ := Prod.mk.inj heq
  subst hs
  rw [hsets.smembers_eq] at hr
  unfold AuthTick.attempt at hr ⊢
  rw [hfault] at hr ⊢
  exact ⟨hr.symm, hle, rfl⟩

theorem sadd {u tokenHash : String} {r : Except String Unit}
    (h : TokenReply users s (.auth (.sadd (userTokensKey u) tokenHash)) r s') :
    r = .ok () ∧ s.now.millis ≤ s'.now.millis ∧
      (∀ v, v ≠ u → tokenHash ∉ s.store.tokenSet s'.now.millis v) ∧
      ∃ members expireAt, s'.store = s.store.put (userTokensKey u) (some ⟨.set members, expireAt⟩) ∧
        ∀ j, j ∈ members ↔ j = tokenHash ∨ j ∈ s.store.tokenSet s'.now.millis u := by
  obtain ⟨hle, tick, hfault, hclock, hsafe, heq⟩ := h.auth
  obtain ⟨members, expireAt, hsadd, hmembers⟩ := hsets.sadd_eq tick.clock u tokenHash
  have heq : tick.change s.store (s.store.sadd tick.clock (userTokensKey u) tokenHash) = (r, s'.store) := heq
  unfold AuthTick.change AuthTick.attempt at heq
  rw [hsadd, hfault] at heq
  obtain ⟨hr, hs⟩ := Prod.mk.inj heq
  rw [← hclock]
  refine ⟨hr.symm, hclock ▸ hle, fun v hv hmem => ?_, members, expireAt, hs.symm, hmembers⟩
  obtain ⟨members', expireAt', hslot, -⟩ := AuthStore.mem_tokenSet_iff.mp hmem
  exact hsafe v (hsets v _ (AuthStore.slotAt_eq_some_iff.mp hslot).1).1
    (fun heq => hv (userTokensKey_inj.mp heq)) hmem

theorem srem {u tokenHash : String} {r : Except String Unit}
    (h : TokenReply users s (.auth (.srem (userTokensKey u) tokenHash)) r s') :
    s.now.millis ≤ s'.now.millis ∧ SetsOnly users s'.store ∧
      (∀ key, key ≠ userTokensKey u → s'.store.keys key = s.store.keys key) ∧
      ∀ t, s'.now.millis ≤ t → ∀ j, j ≠ tokenHash →
        (j ∈ s'.store.tokenSet t u ↔ j ∈ s.store.tokenSet t u) := by
  obtain ⟨hle, tick, hfault, hclock, -, heq⟩ := h.auth
  obtain ⟨slot, hsrem, hslot, hmembers⟩ := hsets.srem_eq tick.clock u tokenHash
  have heq : tick.change s.store (s.store.srem tick.clock (userTokensKey u) tokenHash) = (r, s'.store) := heq
  unfold AuthTick.change AuthTick.attempt at heq
  rw [hsrem, hfault] at heq
  obtain ⟨-, hs⟩ := Prod.mk.inj heq
  rw [← hs, ← hclock]
  refine ⟨hclock ▸ hle, fun v slot' hkey => ?_, fun key hkey => put_keys_of_ne _ hkey, hmembers⟩
  by_cases hv : v = u
  · subst hv
    rw [put_keys_self] at hkey
    obtain ⟨hsome, hset⟩ := hslot slot' hkey
    obtain ⟨slot₀, hslot₀⟩ := Option.isSome_iff_exists.mp hsome
    exact ⟨(hsets v slot₀ hslot₀).1, hset⟩
  · rw [put_keys_of_ne _ fun heq => hv (userTokensKey_inj.mp heq)] at hkey
    exact hsets v slot' hkey

omit hsets in
/-- `EXPIRE` of a key that holds a slot finds it. -/
theorem expire {key : String} {slot : RedisSlot} {seconds : UInt64} {r : Except String Unit}
    (hpos : seconds ≠ 0) (hkey : s.store.keys key = some slot)
    (h : TokenReply users s (.auth (.expire key seconds)) r s') :
    s.now.millis ≤ s'.now.millis ∧
      s'.store = s.store.put key
        (some { slot with expireAt := some (s'.now.millis + seconds.toNat * 1000) }) := by
  obtain ⟨hle, tick, hfault, hclock, hsafe, heq⟩ := h.auth
  have heq : tick.attempt s.store (.ok ()) (s.store.expire tick.clock key seconds) = (r, s'.store) := heq
  obtain ⟨slot', hlive⟩ := Option.isSome_iff_exists.mp hsafe
  have hsame := (AuthStore.slotAt_eq_some_iff.mp hlive).1
  rw [hkey] at hsame
  obtain rfl := Option.some.inj hsame
  unfold AuthTick.attempt AuthStore.expire at heq
  rw [hfault, if_neg hpos, hlive] at heq
  obtain ⟨-, hs⟩ := Prod.mk.inj heq
  exact ⟨hle, by rw [← hs, hclock]; rfl⟩

end TokenReply

/-! ### One call -/

/-- Between two calls: the index is coherent. -/
structure Indexed (users : List String) (s : TokenStore) : Prop where
  sets : SetsOnly users s.store
  coherent : s.store.index.Coherent 604800000 s.now.millis

/-- At moments at which no command fails and the index is safe, the program ends as `Q` has it. -/
abbrev TokenEnds {α : Type} (users : List String) (p : TokenProg α) (Q : TokenStore → α → Prop)
    (s : TokenStore) : Prop :=
  p.Guarantees (TokenReply users) (fun _ _ => True) Q s

variable {hashRefreshToken : String → Except String String} {users : List String} {s : TokenStore}

theorem tokenOwner_of_gone {s : AuthStore} {h : String} (hgone : s.Gone (tokenKey h)) (t : ℤ) :
    s.tokenOwner t h = none := by
  cases howner : s.tokenOwner t h with
  | none => rfl
  | some u =>
      obtain ⟨value, expireAt, hslot, -⟩ := AuthStore.tokenOwner_eq_some_iff.mp howner
      exact absurd (AuthStore.slotAt_eq_some_iff.mp hslot).1 (hgone value expireAt)

/-- A record and a member of the set of its user have come, the set has a deadline no earlier than that of
the record, and nothing else has changed. -/
theorem Indexed.add {s₁ s₂ s₃ : TokenStore} {userId tenantId tokenHash : String} {members : List String}
    (hid : ':' ∉ userId.toList) (hs : Indexed users s) (hle₁ : s.now.millis ≤ s₁.now.millis)
    (hle₂ : s₁.now.millis ≤ s₂.now.millis) (hle₃ : s₂.now.millis ≤ s₃.now.millis)
    (hfresh : ∀ v, v ≠ userId → tokenHash ∉ s.store.tokenSet s₂.now.millis v)
    (hrecord : s₃.store.keys (tokenKey tokenHash) =
      some ⟨.str (tenantId ++ ":" ++ userId), some (s₁.now.millis + 604800000)⟩)
    (hset : s₃.store.keys (userTokensKey userId) =
      some ⟨.set members, some (s₃.now.millis + 604800000)⟩)
    (hmembers : ∀ j, j ∈ members ↔ j = tokenHash ∨ j ∈ s.store.tokenSet s₂.now.millis userId)
    (hother : ∀ key, key ≠ tokenKey tokenHash → key ≠ userTokensKey userId →
      s₃.store.keys key = s.store.keys key) : Indexed (userId :: users) s₃ := by
  have husers : ∀ v, v ≠ userId → s₃.store.keys (userTokensKey v) = s.store.keys (userTokensKey v) :=
    fun v hv => hother _ (tokenKey_ne_userTokensKey _ _).symm fun heq => hv (userTokensKey_inj.mp heq)
  refine ⟨fun v slot hkey => ?_, hs.coherent.add hle₁ hle₂ hle₃ (k := tokenHash) (u := userId)
    hfresh ?_ ?_ ?_ ?_⟩
  · by_cases hv : v = userId
    · subst hv
      rw [hset] at hkey
      obtain rfl := Option.some.inj hkey
      exact ⟨List.mem_cons_self, members, rfl⟩
    · rw [husers v hv] at hkey
      obtain ⟨hmem, hobject⟩ := hs.sets v slot hkey
      exact ⟨List.mem_cons_of_mem _ hmem, hobject⟩
  · intro t
    rw [← afterLastColon_append tenantId hid]
    exact tokenOwner_of_record hrecord t
  · intro t j hj
    exact tokenOwner_congr
      (hother _ (fun heq => hj (tokenKey_inj.mp heq)) (tokenKey_ne_userTokensKey _ _))
  · intro t ht
    ext j
    show j ∈ s₃.store.tokenSet t userId ↔ _
    rw [tokenSet_of_slot hset ht, hmembers]
    exact Iff.rfl
  · intro t v hv
    show {h | h ∈ s₃.store.tokenSet t v} = {h | h ∈ s.store.tokenSet t v}
    rw [tokenSet_congr (husers v hv)]

theorem store_ends {userId : String} (hid : ':' ∉ userId.toList) (hs : Indexed users s)
    (tenantId token : String) :
    TokenEnds users (.ofAuth (storeRefreshToken hashRefreshToken userId tenantId token sevenDays))
      (fun s' _ => Indexed (userId :: users) s') s := by
  unfold storeRefreshToken
  cases hhash : hashRefreshToken token with
  | error e =>
      exact ⟨fun u slot hkey => ⟨List.mem_cons_of_mem _ (hs.sets u slot hkey).1, (hs.sets u slot hkey).2⟩,
        hs.coherent⟩
  | ok tokenHash =>
      refine Prog.guarantees_call fun r s₁ h₁ => ⟨trivial, ?_⟩
      obtain ⟨rfl, hle₁, hs₁⟩ := h₁.setEx (by decide)
      have hkeys₁ : ∀ u, s₁.store.keys (userTokensKey u) = s.store.keys (userTokensKey u) := by
        intro u
        rw [hs₁, put_keys_of_ne _ (tokenKey_ne_userTokensKey _ _).symm]
      refine Prog.guarantees_call fun r s₂ h₂ => ⟨trivial, ?_⟩
      obtain ⟨rfl, hle₂, hfresh, members, expireAt, hs₂, hmembers⟩ := h₂.sadd (hs.sets.congr hkeys₁)
      refine Prog.guarantees_call fun r s₃ h₃ => ⟨trivial, ?_⟩
      obtain ⟨hle₃, hs₃⟩ := h₃.expire (by decide) (by rw [hs₂, put_keys_self])
      -- the record, the set of the user, and what is under the other keys
      have hrecord : s₃.store.keys (tokenKey tokenHash) =
          some ⟨.str (tenantId ++ ":" ++ userId), some (s₁.now.millis + 604800000)⟩ := by
        rw [hs₃, put_keys_of_ne _ (tokenKey_ne_userTokensKey _ _), hs₂,
          put_keys_of_ne _ (tokenKey_ne_userTokensKey _ _), hs₁, put_keys_self]
        rfl
      have hset : s₃.store.keys (userTokensKey userId) =
          some ⟨.set members, some (s₃.now.millis + 604800000)⟩ := by
        rw [hs₃, put_keys_self]
        rfl
      have hother : ∀ key, key ≠ tokenKey tokenHash → key ≠ userTokensKey userId →
          s₃.store.keys key = s.store.keys key := by
        intro key hrec husr
        rw [hs₃, put_keys_of_ne _ husr, hs₂, put_keys_of_ne _ husr, hs₁, put_keys_of_ne _ hrec]
      have hsame : ∀ t u, s₁.store.tokenSet t u = s.store.tokenSet t u := fun t u =>
        tokenSet_congr (hkeys₁ u)
      refine hs.add hid hle₁ hle₂ hle₃ (fun v hv hmem => hfresh v hv (hsame _ v ▸ hmem)) hrecord hset
        (fun j => ?_) hother
      rw [hmembers, hsame]

/-- A record is gone, its key may have left a set, and nothing else has changed. -/
theorem Indexed.remove {s' : TokenStore} {tokenHash : String} (hs : Indexed users s)
    (hle : s.now.millis ≤ s'.now.millis) (hsets : SetsOnly users s'.store)
    (hgone : s'.store.Gone (tokenKey tokenHash))
    (hother : ∀ j, j ≠ tokenHash → s'.store.keys (tokenKey j) = s.store.keys (tokenKey j))
    (hmembers : ∀ t, s'.now.millis ≤ t → ∀ u j, j ≠ tokenHash →
      (j ∈ s'.store.tokenSet t u ↔ j ∈ s.store.tokenSet t u)) : Indexed users s' where
  sets := hsets
  coherent := hs.coherent.remove (k := tokenHash) hle (tokenOwner_of_gone hgone)
    (fun _ j hj => tokenOwner_congr (hother j hj)) hmembers

theorem tokenOwner_of_removed {s s' : AuthStore} {tokenHash : String} (hgone : s'.Gone (tokenKey tokenHash))
    (hother : ∀ j, j ≠ tokenHash → s'.keys (tokenKey j) = s.keys (tokenKey j)) (t : ℤ) (j : String) :
    s'.tokenOwner t j =
      if (Except.ok tokenHash : Except String String) = .ok j then none else s.tokenOwner t j := by
  split_ifs with hj
  · obtain rfl := Except.ok.inj hj
    exact tokenOwner_of_gone hgone t
  · exact tokenOwner_congr (hother j fun heq => hj (congrArg Except.ok heq.symm))

/-- After a revocation the token is not usable, and the others are as usable as before. -/
theorem revoke_ends (hs : Indexed users s) (token : String) :
    TokenEnds users (.ofAuth (revokeRefreshToken hashRefreshToken token))
      (fun s' _ => Indexed users s' ∧ ∀ t j, s'.store.tokenOwner t j =
        if hashRefreshToken token = .ok j then none else s.store.tokenOwner t j) s := by
  unfold revokeRefreshToken
  cases hhash : hashRefreshToken token with
  | error e => exact ⟨hs, fun t j => (if_neg (by simp)).symm⟩
  | ok tokenHash =>
      refine Prog.guarantees_call fun r s₁ h₁ => ⟨trivial, ?_⟩
      obtain ⟨rfl, hle₁, hs₁⟩ := h₁.get
      have hkeys₁ : ∀ key, key ≠ tokenKey tokenHash → s₁.store.keys key = s.store.keys key := by
        intro key hkey
        rw [hs₁]
        exact put_keys_of_ne _ hkey
      have hother₁ : ∀ j, j ≠ tokenHash → s₁.store.keys (tokenKey j) = s.store.keys (tokenKey j) :=
        fun j hj => hkeys₁ _ fun heq => hj (tokenKey_inj.mp heq)
      have husers₁ : ∀ u, s₁.store.keys (userTokensKey u) = s.store.keys (userTokensKey u) :=
        fun u => hkeys₁ _ (tokenKey_ne_userTokensKey _ _).symm
      have hsets₁ : SetsOnly users s₁.store := hs.sets.congr husers₁
      have hmissing : s₁.store.Gone (tokenKey tokenHash) → Indexed users s₁ ∧
          ∀ t j, s₁.store.tokenOwner t j =
            if (Except.ok tokenHash : Except String String) = .ok j then none else s.store.tokenOwner t j :=
        fun hgone => ⟨hs.remove hle₁ hsets₁ hgone hother₁ fun t _ u j _ => by
          rw [tokenSet_congr (husers₁ u)], tokenOwner_of_removed hgone hother₁⟩
      rcases hget : s.store.get s₁.now (tokenKey tokenHash) with e | _ | value
      · exact hmissing (hs₁ ▸ AuthStore.gone_of_get_error hget)
      · exact hmissing (hs₁ ▸ AuthStore.gone_of_get_none hget)
      · refine Prog.guarantees_call fun r s₂ h₂ => ⟨trivial, ?_⟩
        obtain ⟨rfl, hle₂, hs₂⟩ := h₂.del
        have hkeys₂ : ∀ key, key ≠ tokenKey tokenHash → s₂.store.keys key = s.store.keys key := by
          intro key hkey
          rw [hs₂, put_keys_of_ne _ hkey, hkeys₁ key hkey]
        have husers₂ : ∀ u, s₂.store.keys (userTokensKey u) = s.store.keys (userTokensKey u) :=
          fun u => hkeys₂ _ (tokenKey_ne_userTokensKey _ _).symm
        have hsets₂ : SetsOnly users s₂.store := hs.sets.congr husers₂
        refine Prog.guarantees_call fun r s₃ h₃ => ⟨trivial, ?_⟩
        obtain ⟨hle₃, hsets₃, hkeys₃, hmembers⟩ := h₃.srem hsets₂
        have hgone : s₃.store.Gone (tokenKey tokenHash) := by
          intro v expireAt hkey
          rw [hkeys₃ _ (tokenKey_ne_userTokensKey _ _), hs₂, put_keys_self] at hkey
          cases hkey
        have hother : ∀ j, j ≠ tokenHash → s₃.store.keys (tokenKey j) = s.store.keys (tokenKey j) := by
          intro j hj
          rw [hkeys₃ _ (tokenKey_ne_userTokensKey _ _), hkeys₂ _ fun heq => hj (tokenKey_inj.mp heq)]
        refine ⟨hs.remove ((hle₁.trans hle₂).trans hle₃) hsets₃ hgone hother fun t ht u j hj => ?_,
          tokenOwner_of_removed hgone hother⟩
        by_cases hu : u = afterLastColon value
        · subst hu
          rw [hmembers t ht j hj, tokenSet_congr (husers₂ _)]
        · have hkey := hkeys₃ (userTokensKey u) fun heq => hu (userTokensKey_inj.mp heq)
          rw [tokenSet_congr (hkey.trans (husers₂ u))]

/-- The loop deletes the records of the tokens, and then the set. -/
theorem deleteTokens_ends (userKey : String) (tokenHashes : List String) :
    TokenEnds users (deleteTokens userKey tokenHashes)
      (fun s' _ => s.now.millis ≤ s'.now.millis ∧ ∀ key, s'.store.keys key =
        if key = userKey ∨ key ∈ tokenHashes.map tokenKey then none else s.store.keys key) s := by
  induction tokenHashes generalizing s with
  | nil =>
      refine Prog.guarantees_call fun r s₁ h₁ => ⟨trivial, ?_⟩
      obtain ⟨rfl, hle, hs₁⟩ := h₁.del
      refine ⟨hle, fun key => ?_⟩
      rw [hs₁]
      by_cases hkey : key = userKey
      · rw [hkey, put_keys_self, if_pos (Or.inl rfl)]
      · rw [put_keys_of_ne _ hkey, if_neg (by simpa using hkey)]
  | cons tokenHash tokenHashes ih =>
      refine Prog.guarantees_call fun r s₁ h₁ => ⟨trivial, ?_⟩
      obtain ⟨rfl, hle, hs₁⟩ := h₁.del
      refine ih.imp fun s' _ h => ⟨hle.trans h.1, fun key => ?_⟩
      simp only [h.2, hs₁, List.map_cons, List.mem_cons]
      by_cases hkey : key = tokenKey tokenHash
      · rw [hkey, put_keys_self]
        simp
      · rw [put_keys_of_ne _ hkey]
        simp [hkey]

/-- After the revocation of a user the usable tokens are those of the others. -/
theorem revokeAll_ends (hs : Indexed users s) (userId : String) :
    TokenEnds users (revokeAllUserTokens userId)
      (fun s' _ => Indexed users s' ∧ ∀ t, s'.now.millis ≤ t → ∀ j u,
        s'.store.tokenOwner t j = some u ↔ s.store.tokenOwner t j = some u ∧ u ≠ userId) s := by
  refine Prog.guarantees_call fun r s₁ h₁ => ⟨trivial, ?_⟩
  obtain ⟨rfl, hle₁, hs₁⟩ := h₁.smembers hs.sets
  refine (deleteTokens_ends _ _).imp fun s' _ h => ?_
  obtain ⟨hle, hkeys⟩ := h
  have hkeys₁ : ∀ key, key ≠ userTokensKey userId → s₁.store.keys key = s.store.keys key := by
    intro key hkey
    rw [hs₁]
    exact put_keys_of_ne _ hkey
  have hrecords : ∀ j, s'.store.keys (tokenKey j) =
      if j ∈ s.store.tokenSet s₁.now.millis userId then none else s.store.keys (tokenKey j) := by
    intro j
    rw [hkeys, hkeys₁ _ (tokenKey_ne_userTokensKey _ _)]
    simp [tokenKey_ne_userTokensKey, tokenKey_inj]
  have hset : s'.store.keys (userTokensKey userId) = none := by
    rw [hkeys, if_pos (Or.inl rfl)]
  have hothers : ∀ u, u ≠ userId → s'.store.keys (userTokensKey u) = s.store.keys (userTokensKey u) := by
    intro u hu
    rw [hkeys, if_neg, hkeys₁ _ fun heq => hu (userTokensKey_inj.mp heq)]
    rintro (heq | hmem)
    · exact hu (userTokensKey_inj.mp heq)
    · obtain ⟨j, -, heq⟩ := List.mem_map.mp hmem
      exact tokenKey_ne_userTokensKey _ _ heq
  have hgone : ∀ t, ∀ j ∈ s.store.index.members s₁.now.millis userId, s'.store.index.owner t j = none :=
    fun t j hj => tokenOwner_of_none ((hrecords j).trans (if_pos hj))
  have hother : ∀ t j, j ∉ s.store.index.members s₁.now.millis userId →
      s'.store.index.owner t j = s.store.index.owner t j :=
    fun t j hj => tokenOwner_congr ((hrecords j).trans (if_neg hj))
  refine ⟨⟨fun u slot hkey => ?_, hs.coherent.clear hle₁ hle hgone hother (fun t => ?_)
    fun t v hv => ?_⟩, fun t ht j u => hs.coherent.cleared hle₁ hle hgone hother ht⟩
  · by_cases hu : u = userId
    · rw [hu, hset] at hkey
      cases hkey
    · exact hs.sets u slot (hothers u hu ▸ hkey)
  · show {h | h ∈ s'.store.tokenSet t userId} = ∅
    rw [tokenSet_of_none hset]
    simp
  · show {h | h ∈ s'.store.tokenSet t v} = {h | h ∈ s.store.tokenSet t v}
    rw [tokenSet_congr (hothers v hv)]

/-! ### Sequences of calls -/

/-- The user id of a token to be stored has no colon, as a UUID has none. -/
def TokenCall.UuidUser : TokenCall → Prop
  | .store userId _ _ => ':' ∉ userId.toList
  | _ => True

/-- A revocation of another token, or of another user. -/
def TokenCall.Spares (hashRefreshToken : String → Except String String) (tokenHash userId : String) :
    TokenCall → Prop
  | .store _ _ _ => False
  | .revoke token => hashRefreshToken token ≠ .ok tokenHash
  | .revokeAll user => userId ≠ user

section sequences

variable (hashRefreshToken : String → Except String String)

/-- The calls one after the other, with the users for whom a token has been stored. -/
abbrev tokenStep := sessionStep execToken (TokenCall.prog hashRefreshToken) usersAfter

/-- The call comes to its end, no command fails, and the clock does not go back. -/
def Completes (x : List String × TokenStore) (e : TokenCall × List AuthTick) : Prop :=
  e.1.UuidUser ∧ (e.1.prog hashRefreshToken).Along execToken Orderly e.2 x.2

/-- An `EXPIRE` of the call finds its key, and a token is stored for a user while it is in the set of no
other one. -/
def KeepsIndex (x : List String × TokenStore) (e : TokenCall × List AuthTick) : Prop :=
  (e.1.prog hashRefreshToken).Along execToken (IndexSafe x.1) e.2 x.2

def storeAfter (x : List String × TokenStore) (e : TokenCall × List AuthTick) : TokenStore :=
  ((e.1.prog hashRefreshToken).runIn execToken e.2 x.2).2

/-- From the end of the call on, every usable token is in the set of its user; a user whose tokens are revoked
has no usable one; and a revocation leaves every other token usable, or those of every other user. -/
structure Revocable (x : List String × TokenStore) (e : TokenCall × List AuthTick) : Prop where
  indexed : ∀ t, (storeAfter hashRefreshToken x e).now.millis ≤ t → ∀ h u,
    (storeAfter hashRefreshToken x e).store.tokenOwner t h = some u →
      h ∈ (storeAfter hashRefreshToken x e).store.tokenSet t u
  revoked : ∀ u, e.1 = .revokeAll u → ∀ t, (storeAfter hashRefreshToken x e).now.millis ≤ t →
    ∀ h, (storeAfter hashRefreshToken x e).store.tokenOwner t h ≠ some u
  spared : ∀ t, (storeAfter hashRefreshToken x e).now.millis ≤ t → ∀ h u,
    e.1.Spares hashRefreshToken h u → x.2.store.tokenOwner t h = some u →
      (storeAfter hashRefreshToken x e).store.tokenOwner t h = some u

variable {hashRefreshToken}

/-- One call on a coherent index. -/
theorem Indexed.call {x : List String × TokenStore} {e : TokenCall × List AuthTick} (hx : Indexed x.1 x.2)
    (hcompletes : Completes hashRefreshToken x e) (hkeeps : KeepsIndex hashRefreshToken x e) :
    Indexed (usersAfter x.1 e.1) (storeAfter hashRefreshToken x e) ∧ Revocable hashRefreshToken x e := by
  have hends : ∀ {Q : TokenStore → Except String Unit → Prop},
      TokenEnds x.1 (e.1.prog hashRefreshToken) Q x.2 → ∃ r, Q (storeAfter hashRefreshToken x e) r := by
    intro Q hQ
    have hreply : ∀ tick s c, Orderly tick s c ∧ IndexSafe x.1 tick s c →
        TokenReply x.1 s c (execToken tick c s).1 (execToken tick c s).2 :=
      fun tick s c hok => ⟨tick, hok, rfl⟩
    obtain ⟨r, -, h⟩ := hQ.along hreply (hcompletes.2.and hkeeps)
    exact ⟨r, h⟩
  have hindexed : ∀ {users : List String}, Indexed users (storeAfter hashRefreshToken x e) → ∀ t,
      (storeAfter hashRefreshToken x e).now.millis ≤ t → ∀ h u,
      (storeAfter hashRefreshToken x e).store.tokenOwner t h = some u →
        h ∈ (storeAfter hashRefreshToken x e).store.tokenSet t u :=
    fun hs t ht h u hu => (hs.coherent.indexed t ht h u hu u).mpr rfl
  obtain ⟨call, ticks⟩ := e
  cases call with
  | store userId tenantId token =>
      obtain ⟨-, hs⟩ := hends (store_ends hcompletes.1 hx tenantId token)
      exact ⟨hs, hindexed hs, (fun u heq => nomatch heq), fun t _ h u hspares => hspares.elim⟩
  | revoke token =>
      obtain ⟨-, hs, howners⟩ := hends (revoke_ends hx token)
      refine ⟨hs, hindexed hs, (fun u heq => nomatch heq), fun t _ h u hspares hu => ?_⟩
      rw [howners, if_neg hspares]
      exact hu
  | revokeAll userId =>
      obtain ⟨-, hs, howners⟩ := hends (revokeAll_ends hx userId)
      refine ⟨hs, hindexed hs, ?_, fun t ht h u hspares hu => (howners t ht h u).mpr ⟨hu, hspares⟩⟩
      rintro u ⟨⟩ t ht h hu
      exact ((howners t ht h userId).mp hu).2 rfl

/-- From an empty Redis on, the tokens of every user are revocable after each call, if every `EXPIRE` finds
its key and no token is stored for a user while it is in the set of another one. -/
theorem revocable_run (calls : List (TokenCall × List AuthTick)) {s : TokenStore}
    (hempty : ∀ key, s.store.keys key = none)
    (hcompletes : Runs.Meets (tokenStep hashRefreshToken) (Completes hashRefreshToken) calls ([], s))
    (hkeeps : Runs.Meets (tokenStep hashRefreshToken) (KeepsIndex hashRefreshToken) calls ([], s)) :
    Runs.Meets (tokenStep hashRefreshToken) (Revocable hashRefreshToken) calls ([], s) := by
  refine Runs.Meets.of_invariant (J := fun x => Indexed x.1 x.2) (fun x e x' hx hok hstep => ?_)
    (fun x e hx hok => (hx.call hok.1 hok.2).2) ⟨fun u slot hkey => ?_, ?_⟩
    (Runs.meets_and.mpr ⟨hcompletes, hkeeps⟩)
  · obtain rfl := Option.some.inj hstep
    exact (hx.call hok.1 hok.2).1
  · rw [hempty] at hkey
    cases hkey
  · exact Fading.Index.coherent_empty fun t h => tokenOwner_of_none (hempty (tokenKey h))

end sequences

instance (tick : AuthTick) (s : TokenStore) (c : TokenCmd) : Decidable (Orderly tick s c) :=
  inferInstanceAs (Decidable (_ ∧ _))

instance (users : List String) (tick : AuthTick) (s : TokenStore) (c : TokenCmd) :
    Decidable (IndexSafe users tick s c) := by
  unfold IndexSafe
  split
  · infer_instance
  · infer_instance
  · exact isTrue trivial

instance : (c : TokenCall) → Decidable c.UuidUser
  | .store userId _ _ => inferInstanceAs (Decidable (':' ∉ userId.toList))
  | .revoke _ | .revokeAll _ => isTrue trivial

instance (hashRefreshToken : String → Except String String) (x : List String × TokenStore)
    (e : TokenCall × List AuthTick) : Decidable (Completes hashRefreshToken x e) :=
  inferInstanceAs (Decidable (_ ∧ _))

instance (hashRefreshToken : String → Except String String) (x : List String × TokenStore)
    (e : TokenCall × List AuthTick) : Decidable (KeepsIndex hashRefreshToken x e) :=
  inferInstanceAs (Decidable (Prog.Along _ _ _ _ _))

def noTokens : TokenStore := ⟨⟨fun _ => none, []⟩, .ofSeconds 0⟩

def sampleUserId : String := "4f1c9a52-5bd4-4d6c-9a45-0f6f0c6d5f01"
def otherUserId : String := "b7a4e9d0-8c1f-4a52-9e3b-2d6c5f7a8b90"

/-- Two users log in, one of them twice, and one is logged out everywhere. -/
def logins : List (TokenCall × List AuthTick) :=
  [(.store sampleUserId "acme" presentedToken, List.replicate 3 { clock := .ofSeconds 0 }),
    (.store otherUserId "acme:eu" secondToken, List.replicate 3 { clock := .ofSeconds 60 }),
    (.store sampleUserId "acme" thirdToken, List.replicate 3 { clock := .ofSeconds 604800 }),
    (.revoke secondToken, List.replicate 3 { clock := .ofSeconds 604801 }),
    (.revokeAll sampleUserId, List.replicate 4 { clock := .ofSeconds 604802 })]

theorem logins_revocable :
    Runs.Meets (tokenStep sampleHash) (Revocable sampleHash) logins ([], noTokens) :=
  revocable_run logins (fun _ => rfl) (by decide +kernel) (by decide +kernel)

/-- The set of the user expires between the `SADD` and the `EXPIRE` of a second login. -/
def lateLogin : List (TokenCall × List AuthTick) :=
  [(.store sampleUserId "acme" presentedToken, List.replicate 3 { clock := .ofSeconds 0 }),
    (.store sampleUserId "acme" secondToken, [{ clock := .ofSeconds 604800 }, { clock := .ofSeconds 604800 },
      { clock := .ofSeconds 604801 }]),
    (.revokeAll sampleUserId, List.replicate 4 { clock := .ofSeconds 604802 })]

theorem lateLogin_not_revoked :
    ¬∀ calls : List (TokenCall × List AuthTick),
      Runs.Meets (tokenStep sampleHash) (Completes sampleHash) calls ([], noTokens) →
      Runs.Meets (tokenStep sampleHash) (Revocable sampleHash) calls ([], noTokens) := by
  intro hrevocable
  obtain ⟨-, -, hlast, -⟩ := hrevocable lateLogin (by decide +kernel)
  exact hlast.revoked sampleUserId rfl 604802000 (by decide +kernel)
    "Xw4nB1vC7tR9yU2iO5pA8sD0fG3hJ6kL1zM4xN7cQeE" (by decide +kernel)

end MiniSiem
