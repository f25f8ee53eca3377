import MiniSiem.CounterAccounts

/-! # The expiry of a counter

`increment_counter`, `incr_by`, `set_counter` and `set_string` of `db/redis.rs` write a value and its expiry
by two commands; each command may fail, and a call may be cut off after any of them.

* **Calls.**  `KeyCall` with the program of each, and the store with the time of the last command.  An expiry
  that the server rejects is a failed command.
* **Deadlines.**  No key lives longer than the largest expiry requested for it, unless it has none
  (`Timely`, `timely_run`).
* **Sequences.**  `expiring_iff`: every call that succeeds leaves its key with a deadline exactly when no
  increment counts on a key that has none, and every `EXPIRE` finds its key and lies in the future. -/

namespace MiniSiem

open Atomic

/-! ### Calls with an expiry -/

/-- A text is an integer for `INCR` when it is written as Redis writes one. -/
def RedisValue.ofText (text : String) : RedisValue :=
  match text.toInt? with
  | some n =>
      if toString n = text ∧ -9223372036854775808 ≤ n ∧ n ≤ 9223372036854775807 then .int n else .other
  | none => .other

/-- `SET key text`. -/
def RedisCache.setText (c : RedisCache) (key text : String) : RedisCache :=
  { c with keys := Function.update c.keys key (some ⟨.ofText text, none⟩) }

inductive KeyCmd where
  | stats (c : StatsCmd)
  | setText (key text : String)

abbrev KeyCmd.Reply : KeyCmd → Type
  | stats c => c.Reply
  | setText _ _ => Except CounterFailure Unit

abbrev KeyProg := Prog KeyCmd KeyCmd.Reply

/-- The store and the time of the last command. -/
structure TimedStore where
  store : StatsStore
  now : DateTime

def execKey (tick : Tick) : (c : KeyCmd) → TimedStore → c.Reply × TimedStore
  | .stats c, s => ((execStats tick c s.store).1, ⟨(execStats tick c s.store).2, tick.clock⟩)
  | .setText key text, s =>
      let result := tick.attemptRedis s.store (.ok (), s.store.cache.setText key text)
      (result.1, ⟨result.2, tick.clock⟩)

/-- A program of the counters among the others. -/
def KeyProg.ofStats {α : Type} : StatsProg α → KeyProg α
  | .ret a => .ret a
  | .call c k => .call (.stats c) fun r => ofStats (k r)

/-- `set_string`. -/
def setString (key text : String) (expirySeconds : Option UInt64) : KeyProg (Except CounterFailure Unit) :=
  .call (.setText key text) fun
    | .error e => .ret (.error e)
    | .ok _ =>
        match expirySeconds with
        | none => .ret (.ok ())
        | some exp =>
            .call (.stats (.expire key exp.toInt64)) fun
              | .error e => .ret (.error e)
              | .ok _ => .ret (.ok ())

inductive KeyCall
  | increment (key : String) (expirySeconds : UInt64)
  | incrBy (key : String) (delta expirySeconds : UInt64)
  | setCounter (key : String) (value expirySeconds : UInt64)
  | setString (key text : String) (expirySeconds : UInt64)

namespace KeyCall

def key : KeyCall → String
  | increment key _ | incrBy key _ _ | setCounter key _ _ | setString key _ _ => key

def expiry : KeyCall → UInt64
  | increment _ exp | incrBy _ _ exp | setCounter _ _ exp | setString _ _ exp => exp

def succeeded {α : Type} (r : Except CounterFailure α) : Bool := r.toBool

/-- The program of a call; its result says whether the call succeeds. -/
def prog : KeyCall → KeyProg Bool
  | increment key exp => .ofStats ((Counters.incrementCounter key exp).bind fun r => .ret (succeeded r))
  | incrBy key delta exp => .ofStats ((Counters.incrBy key delta exp).bind fun r => .ret (succeeded r))
  | setCounter key value exp =>
      .ofStats ((Counters.setCounter key value (some exp)).bind fun r => .ret (succeeded r))
  | setString key text exp => (MiniSiem.setString key text (some exp)).bind fun r => .ret (succeeded r)

end KeyCall

/-! ### Deadlines -/

/-- The largest expiry requested for each key so far. -/
abbrev Requests := String → ℕ

def Requests.next (requested : Requests) (c : KeyCall) : Requests :=
  Function.update requested c.key (max (requested c.key) c.expiry.toNat)

/-- The deadline of a key. -/
def RedisCache.deadline (c : RedisCache) (key : String) : Option ℤ := (c.keys key).bind fun e => e.expireAt

/-- The key has a deadline, and it is not later than what was requested for it. -/
def Expiring (requested : Requests) (key : String) (s : TimedStore) : Prop :=
  ∃ deadline ∈ s.store.cache.deadline key, deadline ≤ s.now.millis + requested key * 1000

/-- No deadline is later than what was requested. -/
def Timely (requested : Requests) (s : TimedStore) : Prop :=
  ∀ key, ∀ deadline ∈ s.store.cache.deadline key, deadline ≤ s.now.millis + requested key * 1000

/-- The clock does not go back. -/
def TicksInOrder (now : DateTime) (ticks : List Tick) : Prop :=
  (now.millis :: ticks.map fun t => t.clock.millis).IsChain (· ≤ ·)

theorem deadline_congr {c c' : RedisCache} {key : String} (h : c'.keys key = c.keys key) :
    c'.deadline key = c.deadline key := by
  unfold RedisCache.deadline
  rw [h]

theorem deadline_of_live {c : RedisCache} {now : DateTime} {key : String} {e : RedisEntry}
    (h : c.live now key = some e) : c.deadline key = e.expireAt := by
  unfold RedisCache.deadline
  rw [(live_eq_some_iff.mp h).1]
  rfl

theorem deadline_update {c : RedisCache} {key : String} {e : RedisEntry} :
    RedisCache.deadline { c with keys := Function.update c.keys key (some e) } key = e.expireAt := by
  unfold RedisCache.deadline
  dsimp only
  rw [Function.update_self]
  rfl

/-- The deadline after `EXPIRE`. -/
theorem deadline_expireLive (c : RedisCache) (now : DateTime) (key : String) (seconds : Int64) :
    (c.expireLive now key seconds).deadline key =
      if 0 < seconds.toInt ∧ (c.live now key).isSome = true then some (now.millis + seconds.toInt * 1000)
      else none := by
  unfold RedisCache.deadline RedisCache.expireLive
  dsimp only
  rw [Function.update_self]
  by_cases hpos : 0 < seconds.toInt
  · rw [if_neg (not_le.mpr hpos)]
    cases c.live now key with
    | none => rw [if_neg (by simp)]; rfl
    | some e => rw [if_pos ⟨hpos, rfl⟩]; rfl
  · rw [if_pos (not_lt.mp hpos), if_neg fun h => hpos h.1]
    rfl

/-- A number that is written with the deadline of what it replaces, if it has one. -/
theorem deadline_of_bumped {c c' : RedisCache} {key : String} {d : ℤ}
    (hbumped : c' = c ∨ ∃ n expireAt,
      c' = { c with keys := Function.update c.keys key (some ⟨.int n, expireAt⟩) } ∧
        ∀ deadline, expireAt = some deadline → c.deadline key = some deadline)
    (h : c'.deadline key = some d) : c.deadline key = some d := by
  rcases hbumped with rfl | ⟨n, expireAt, rfl, hkept⟩
  · exact h
  · rw [deadline_update] at h
    exact hkept d h

/-- An increment keeps the deadline of what it finds. -/
theorem deadline_incrby {c : RedisCache} {now : DateTime} {key : String} {delta : ℤ} {d : ℤ}
    (h : (c.incrby now key delta).2.deadline key = some d) : c.deadline key = some d := by
  refine deadline_of_bumped ?_ h
  unfold RedisCache.incrby
  split
  · exact Or.inr ⟨delta, none, rfl, fun deadline heq => nomatch heq⟩
  · rename_i n expireAt hlive
    split_ifs
    · exact Or.inr ⟨n + delta, expireAt, rfl, fun deadline heq => (deadline_of_live hlive).trans heq⟩
    · exact Or.inl rfl
    · exact Or.inl rfl
  · exact Or.inl rfl

theorem deadline_incr {c : RedisCache} {now : DateTime} {key : String} {d : ℤ}
    (h : (c.incr now key).2.deadline key = some d) : c.deadline key = some d := by
  rw [RedisCache.incr_eq_incrby] at h
  exact deadline_incrby h

/-- A deadline is that of before or comes from `EXPIRE`. -/
theorem execStats_deadline {tick : Tick} {c : StatsCmd} {s : StatsStore} {key : String} {d : ℤ}
    (h : (execStats tick c s).2.cache.deadline key = some d) :
    s.cache.deadline key = some d ∨
      ∃ seconds, c = .expire key seconds ∧ d = tick.clock.millis + seconds.toInt * 1000 := by
  by_cases hwrites : c.writes = some key
  · have hkept : ∀ {β : Type} (result : Except RedisError β × RedisCache),
        (∀ d, result.2.deadline key = some d → s.cache.deadline key = some d) →
        (tick.attemptRedis s result).2.cache.deadline key = some d → s.cache.deadline key = some d := by
      intro β result hresult hd
      rw [attemptRedis_cache] at hd
      split_ifs at hd
      · exact hresult d hd
      · exact hd
    cases c with
    | incr k =>
        obtain rfl := Option.some.inj hwrites
        exact Or.inl (hkept _ (fun d => deadline_incr) h)
    | incrBy k delta =>
        obtain rfl := Option.some.inj hwrites
        exact Or.inl (hkept _ (fun d => deadline_incrby) h)
    | set k value =>
        obtain rfl := Option.some.inj hwrites
        refine Or.inl (hkept _ (fun d hd => ?_) h)
        rw [RedisCache.set, deadline_update] at hd
        cases hd
    | expire k seconds =>
        obtain rfl := Option.some.inj hwrites
        rw [execStats_expire] at h
        split_ifs at h
        · rw [deadline_expireLive] at h
          split_ifs at h
          exact Or.inr ⟨seconds, rfl, (Option.some.inj h).symm⟩
        · exact Or.inl h
    | _ => cases hwrites
  · exact Or.inl (deadline_congr (execStats_frame hwrites) ▸ h)

/-! ### One call -/

/-- What an `EXPIRE` sets was requested. -/
def Requested (requested : Requests) (c : KeyCmd) : Prop :=
  ∀ key seconds, c = .stats (.expire key seconds) → seconds.toInt ≤ requested key

/-- The deadlines are timely, and the clock goes on from here. -/
def TimelyOn (requested : Requests) (ticks : List Tick) (s : TimedStore) : Prop :=
  Timely requested s ∧ TicksInOrder s.now ticks

theorem timely_step {requested : Requests} {tick : Tick} {ticks : List Tick} {s : TimedStore} {c : KeyCmd}
    (hc : Requested requested c) (h : TimelyOn requested (tick :: ticks) s) :
    TimelyOn requested ticks (execKey tick c s).2 := by
  obtain ⟨htimely, hclock⟩ := h
  obtain ⟨hle, hrest⟩ := List.isChain_cons_cons.mp hclock
  have hle : s.now.millis ≤ tick.clock.millis := hle
  cases c with
  | stats c =>
      refine ⟨fun key d hd => ?_, hrest⟩
      show d ≤ tick.clock.millis + requested key * 1000
      rcases execStats_deadline (Option.mem_def.mp hd) with hold | ⟨seconds, rfl, rfl⟩
      · have := htimely key d hold
        omega
      · have := hc key seconds rfl
        omega
  | setText k text =>
      refine ⟨fun key d hd => ?_, hrest⟩
      show d ≤ tick.clock.millis + requested key * 1000
      have hold : s.store.cache.deadline key = some d := by
        have hd : (tick.attemptRedis s.store (.ok (), s.store.cache.setText k text)).2.cache.deadline key =
          some d := hd
        rw [attemptRedis_cache] at hd
        split_ifs at hd
        · by_cases hk : key = k
          · subst hk
            rw [RedisCache.setText, deadline_update] at hd
            cases hd
          · rwa [deadline_congr (c := s.store.cache) (Function.update_of_ne hk _ _)] at hd
        · exact hd
      have := htimely key d hold
      omega

section ensures

variable {Q : KeyCmd → Prop}

theorem ensures_ofStats {α : Type} {p : StatsProg α} (h : OnlyIssues (fun c => Q (.stats c)) p) :
    (KeyProg.ofStats p).Ensures (fun _ _ _ => True) (fun _ c => Q c) () := by
  induction p with
  | ret a => trivial
  | call c k ih => exact fun w hw => ⟨(h w hw).1, fun r _ => ih r ((h w hw).2 r trivial)⟩

end ensures

theorem toInt_toInt64_le (x : UInt64) : x.toInt64.toInt ≤ x.toNat := by
  rw [show x.toInt64.toInt = x.toBitVec.toInt from rfl, BitVec.toInt_eq_toNat_cond]
  split
  · exact le_rfl
  · have := x.toBitVec.isLt
    show (x.toNat : ℤ) - _ ≤ _
    omega

/-- A call sets no expiry beyond its own. -/
theorem prog_requested (call : KeyCall) (requested : Requests) :
    call.prog.Ensures (fun _ _ _ => True) (fun _ c => Requested (requested.next call) c) () := by
  have hexpiry : (call.expiry.toNat : ℤ) ≤ requested.next call call.key := by
    rw [Requests.next, Function.update_self]
    omega
  have hle : call.expiry.toInt64.toInt ≤ requested.next call call.key := (toInt_toInt64_le _).trans hexpiry
  have hquiet : ∀ c : StatsCmd, c.durable = false → Requested (requested.next call) (.stats c) := by
    rintro c hc key seconds heq
    obtain rfl := KeyCmd.stats.inj heq
    cases hc
  have hwrite : ∀ c : StatsCmd, (∀ key seconds, c ≠ .expire key seconds) →
      Requested (requested.next call) (.stats c) := by
    rintro c hc key seconds heq
    exact absurd (KeyCmd.stats.inj heq) (hc key seconds)
  have hexpire : Requested (requested.next call) (.stats (.expire call.key call.expiry.toInt64)) := by
    rintro key seconds heq
    obtain ⟨rfl, rfl⟩ := StatsCmd.expire.inj (KeyCmd.stats.inj heq)
    exact hle
  have hbind : ∀ {α : Type} {p : StatsProg (Except CounterFailure α)},
      OnlyIssues (fun c => Requested (requested.next call) (.stats c)) p →
      (KeyProg.ofStats (p.bind fun r => .ret (KeyCall.succeeded r))).Ensures (fun _ _ _ => True)
        (fun _ c => Requested (requested.next call) c) () :=
    fun hp => ensures_ofStats (hp.bind fun _ _ _ => trivial)
  cases call with
  | increment key exp =>
      exact hbind (incrementCounter_onlyIssues hquiet (hwrite _ (by simp)) hexpire)
  | incrBy key delta exp => exact hbind (incrBy_onlyIssues hquiet (hwrite _ (by simp)) hexpire)
  | setCounter key value exp => exact hbind (setCounter_onlyIssues hquiet (hwrite _ (by simp)) hexpire)
  | setString key text exp =>
      refine fun w _ => ⟨(fun key seconds heq => nomatch heq), fun r _ => ?_⟩
      cases r with
      | error e => trivial
      | ok _ =>
          refine fun w _ => ⟨hexpire, fun r _ => ?_⟩
          cases r <;> trivial

theorem timely_run {requested : Requests} {s : TimedStore} {ticks : List Tick} (htimely : Timely requested s)
    (hclock : TicksInOrder s.now ticks) (call : KeyCall) :
    Timely (requested.next call) (call.prog.runIn execKey ticks s).2 := by
  have hstart : TimelyOn (requested.next call) ticks s := by
    refine ⟨fun key d hd => ?_, hclock⟩
    have hmono : requested key ≤ requested.next call key := by
      unfold Requests.next
      by_cases hk : key = call.key
      · rw [hk, Function.update_self]
        exact le_max_left _ _
      · rw [Function.update_of_ne hk]
    have := htimely key d hd
    omega
  have hstep : ∀ (tick : Tick) (ticks : List Tick) (s : TimedStore) (_ : Unit) (c : KeyCmd),
      Requested (requested.next call) c → TimelyOn (requested.next call) (tick :: ticks) s →
      TimelyOn (requested.next call) ticks (execKey tick c s).2 := fun _ _ _ _ _ hc h => timely_step hc h
  obtain ⟨rest, hend⟩ := Prog.runIn_invariant hstep (prog_requested call requested) hstart
  exact hend.1

/-! ### Calls that succeed -/

/-- An `INCR` finds a deadline or no count, and an `EXPIRE` finds its key and lies in the future. -/
def Sound (tick : Tick) (s : TimedStore) : KeyCmd → Prop
  | .stats (.incr key) =>
      match s.store.cache.live tick.clock key with
      | some ⟨.int n, none⟩ => UInt32.ofInt (n + 1) = 1
      | _ => True
  | .stats (.expire key seconds) => 0 < seconds.toInt ∧ (s.store.cache.live tick.clock key).isSome = true
  | _ => True

section success

variable {key : String} {ticks : List Tick} {s : TimedStore}

/-- The tail of an operation that has succeeded does nothing to Redis. -/
theorem refreshL1_sound {α : Type} {value hits : UInt64} {result : Except CounterFailure α}
    (h : ((KeyProg.ofStats ((Counters.refreshL1 key value hits result).bind fun r =>
      .ret (KeyCall.succeeded r))).runIn execKey ticks s).1 = some true) :
    ((KeyProg.ofStats ((Counters.refreshL1 key value hits result).bind fun r =>
      .ret (KeyCall.succeeded r))).runIn execKey ticks s).2.store.cache.keys = s.store.cache.keys ∧
    (KeyProg.ofStats ((Counters.refreshL1 key value hits result).bind fun r =>
      .ret (KeyCall.succeeded r))).Along execKey Sound ticks s := by
  obtain ⟨t₁, rest, rfl, h₁⟩ := Prog.runIn_call_eq_some h
  obtain ⟨t₂, rest, rfl, h₂⟩ := Prog.runIn_call_eq_some h₁
  cases rest <;> exact ⟨rfl, trivial, trivial, trivial⟩

/-- A reply that is not an error comes from a command that has not failed. -/
theorem execKey_stats {tick : Tick} {c : StatsCmd} {r : c.Reply} {s₁ : StatsStore}
    (h : execStats tick c s.store = (r, s₁)) : execKey tick (.stats c) s = (r, ⟨s₁, tick.clock⟩) := by
  rw [execKey, h]

/-- What follows a write: it has failed, or it sets the expiry and touches Redis no more. -/
structure ThenSettles (k : Except CounterFailure Unit → KeyProg Bool) : Prop where
  error : ∀ e ticks s, ((k (.error e)).runIn execKey ticks s).1 ≠ some true
  keys : ∀ ticks s, ((k (.ok ())).runIn execKey ticks s).1 = some true →
    ((k (.ok ())).runIn execKey ticks s).2.store.cache.keys = s.store.cache.keys
  sound : ∀ ticks s, ((k (.ok ())).runIn execKey ticks s).1 = some true →
    (k (.ok ())).Along execKey Sound ticks s

/-- `EXPIRE` and what follows, when the call succeeds. -/
theorem expire_sound {seconds : Int64} {k : Except CounterFailure Unit → KeyProg Bool} (hk : ThenSettles k)
    (h : ((Prog.call (.stats (.expire key seconds)) k : KeyProg Bool).runIn execKey ticks s).1 = some true) :
    (((Prog.call (.stats (.expire key seconds)) k : KeyProg Bool).runIn execKey ticks
      s).2.store.cache.deadline key).isSome = true ↔
    (Prog.call (.stats (.expire key seconds)) k : KeyProg Bool).Along execKey Sound ticks s := by
  obtain ⟨t, rest, rfl, hrest⟩ := Prog.runIn_call_eq_some h
  have halong : (Prog.call (.stats (.expire key seconds)) k : KeyProg Bool).Along execKey Sound
      (t :: rest) s ↔ (0 < seconds.toInt ∧ (s.store.cache.live t.clock key).isSome = true) ∧
        (k (execKey t (.stats (.expire key seconds)) s).1).Along execKey Sound rest
          (execKey t (.stats (.expire key seconds)) s).2 := Iff.rfl
  rw [Prog.runIn_cons, halong]
  rcases hr : execStats t (.expire key seconds) s.store with ⟨_ | _, s₁⟩
  · rw [execKey_stats hr] at hrest
    exact absurd hrest (hk.error _ _ _)
  · have hs₁ := (attemptRedis_eq_ok hr).2
    rw [execKey_stats hr] at hrest ⊢
    rw [and_iff_left (hk.sound _ _ hrest), deadline_congr (congrFun (hk.keys _ _ hrest) key), hs₁]
    show ((s.store.cache.expireLive t.clock key seconds).deadline key).isSome = true ↔ _
    rw [deadline_expireLive]
    split_ifs with hcond
    · exact iff_of_true rfl hcond
    · exact iff_of_false (by simp) hcond

/-- The program leaves a deadline, when it succeeds, exactly when its commands are sound. -/
def SoundRun (key : String) (p : KeyProg Bool) (ticks : List Tick) (s : TimedStore) : Prop :=
  (p.runIn execKey ticks s).1 = some true →
    (((p.runIn execKey ticks s).2.store.cache.deadline key).isSome = true ↔ p.Along execKey Sound ticks s)

theorem expire_then_refreshL1 {α : Type} {seconds : Int64} {value hits : UInt64} {a : α}
    {k : Except CounterFailure Unit → StatsProg (Except CounterFailure α)}
    (herror : ∀ e, k (.error e) = .ret (.error e))
    (hok : k (.ok ()) = Counters.refreshL1 key value hits (.ok a)) :
    SoundRun key (KeyProg.ofStats (Prog.bind (.call (.expire key seconds) k) fun r =>
      .ret (KeyCall.succeeded r))) ticks s := by
  refine expire_sound (k := fun r => KeyProg.ofStats ((k r).bind fun r => .ret (KeyCall.succeeded r)))
    ⟨?_, ?_, ?_⟩
  · intro e ticks s h
    rw [herror] at h
    cases ticks <;> cases h
  · intro ticks s h
    rw [hok] at h ⊢
    exact (refreshL1_sound h).1
  · intro ticks s h
    rw [hok] at h ⊢
    exact (refreshL1_sound h).2

/-- A first command that is sound anyway. -/
theorem soundRun_call {c : KeyCmd} {k : c.Reply → KeyProg Bool} (hc : ∀ tick s, Sound tick s c)
    (hk : ∀ tick ticks, SoundRun key (k (execKey tick c s).1) ticks (execKey tick c s).2) :
    SoundRun key (.call c k) ticks s := by
  intro h
  obtain ⟨t, rest, rfl, hrest⟩ := Prog.runIn_call_eq_some h
  exact (hk t rest hrest).trans (and_iff_right (hc t s)).symm

theorem soundRun_ret_error {α : Type} (e : CounterFailure) :
    SoundRun key (KeyProg.ofStats (Prog.bind (.ret (.error e) : StatsProg (Except CounterFailure α))
      fun r => .ret (KeyCall.succeeded r))) ticks s := by
  intro h
  cases ticks <;> cases h

theorem incrBy_sound (delta exp : UInt64) : SoundRun key (KeyCall.incrBy key delta exp).prog ticks s := by
  refine soundRun_call (fun _ _ => trivial) fun tick ticks => ?_
  generalize execKey tick (.stats (.incrBy key delta.toInt64)) s = x
  obtain ⟨e | n, s₁⟩ := x
  · exact soundRun_ret_error e
  · exact expire_then_refreshL1 (fun _ => rfl) rfl

theorem setCounter_sound (value exp : UInt64) :
    SoundRun key (KeyCall.setCounter key value exp).prog ticks s := by
  refine soundRun_call (fun _ _ => trivial) fun tick ticks => ?_
  generalize execKey tick (.stats (.set key value)) s = x
  obtain ⟨e | _, s₁⟩ := x
  · exact soundRun_ret_error e
  · exact expire_then_refreshL1 (fun _ => rfl) rfl

theorem setString_sound (text : String) (exp : UInt64) :
    SoundRun key (KeyCall.setString key text exp).prog ticks s := by
  refine soundRun_call (fun _ _ => trivial) fun tick ticks => ?_
  generalize execKey tick (.setText key text) s = x
  obtain ⟨e | _, s₁⟩ := x
  · intro h
    cases ticks <;> cases h
  · refine expire_sound ⟨fun e ticks s h => ?_, fun ticks s h => ?_, fun ticks s h => ?_⟩
    · cases ticks <;> cases h
    · cases ticks <;> rfl
    · cases ticks <;> trivial

/-- An `INCR` is sound when its reply is one or the key has a deadline. -/
theorem sound_incr_iff {t : Tick} {n : ℤ} (c' : RedisCache)
    (h : s.store.cache.incr t.clock key = (.ok n, c')) :
    Sound t s (.stats (.incr key)) ↔ UInt32.ofInt n = 1 ∨ (c'.deadline key).isSome = true := by
  rw [Sound]
  obtain ⟨expireAt, rfl, ⟨hlive, rfl, -⟩ | hlive⟩ := RedisCache.incr_eq_ok h
  · rw [hlive]
    exact iff_of_true trivial (Or.inl rfl)
  · rw [hlive, deadline_update]
    cases expireAt with
    | none => simp
    | some d => exact iff_of_true trivial (Or.inr rfl)

/-- `INCR` is the one command that is sound only on what it finds. -/
theorem increment_sound (exp : UInt64) : SoundRun key (KeyCall.increment key exp).prog ticks s := by
  intro h
  obtain ⟨t, rest, rfl, hrest⟩ := Prog.runIn_call_eq_some h
  rcases hr : execStats t (.incr key) s.store with ⟨e | n, s₁⟩
  · rw [execKey_stats hr] at hrest
    cases rest <;> cases hrest
  · obtain ⟨hn, hs₁⟩ := attemptRedis_eq_ok hr
    have hsound := sound_incr_iff (s := s) (t := t) s₁.cache (Prod.ext hn (by rw [hs₁]))
    simp only [KeyCall.prog, Counters.incrementCounter, Prog.call_bind, KeyProg.ofStats, Prog.runIn_cons,
      Prog.Along, execKey_stats hr, hsound] at hrest ⊢
    by_cases hone : UInt32.ofInt n = 1
    · -- a first count: the expiry is set
      simp only [hone, if_true, true_or, true_and] at hrest ⊢
      exact expire_then_refreshL1 (fun _ => rfl) rfl hrest
    · -- a later count: the deadline is what it was
      simp only [hone, if_false, false_or] at hrest ⊢
      obtain ⟨hkeys, hrefresh⟩ := refreshL1_sound hrest
      rw [deadline_congr (congrFun hkeys key)]
      exact (and_iff_left hrefresh).symm

end success

theorem prog_sound (call : KeyCall) (ticks : List Tick) (s : TimedStore) :
    SoundRun call.key call.prog ticks s := by
  cases call with
  | increment key exp => exact increment_sound exp
  | incrBy key delta exp => exact incrBy_sound delta exp
  | setCounter key value exp => exact setCounter_sound value exp
  | setString key text exp => exact setString_sound text exp

/-! ### Sequences of calls -/

/-- The calls one after the other, with the largest expiry requested for each key. -/
abbrev keyStep := sessionStep execKey KeyCall.prog Requests.next

/-- If the call succeeds, its key has a deadline that was requested. -/
def LeavesDeadline (x : Requests × TimedStore) (e : KeyCall × List Tick) : Prop :=
  (e.1.prog.runIn execKey e.2 x.2).1 = some true →
    Expiring (x.1.next e.1) e.1.key (e.1.prog.runIn execKey e.2 x.2).2

/-- If the call succeeds, its commands were sound. -/
def SoundCall (x : Requests × TimedStore) (e : KeyCall × List Tick) : Prop :=
  (e.1.prog.runIn execKey e.2 x.2).1 = some true → e.1.prog.Along execKey Sound e.2 x.2

/-- From an empty Redis on, with commands that fail and calls that are cut off anywhere, every call that
succeeds leaves its key with a deadline no later than requested exactly when the commands of those calls are
sound. -/
theorem expiring_iff {s : TimedStore} (hempty : ∀ key, s.store.cache.keys key = none)
    (calls : List (KeyCall × List Tick))
    (hclock : Runs.Meets keyStep (fun x e => TicksInOrder x.2.now e.2) calls (fun _ => 0, s)) :
    Runs.Meets keyStep LeavesDeadline calls (fun _ => 0, s) ↔
      Runs.Meets keyStep SoundCall calls (fun _ => 0, s) := by
  refine Runs.meets_iff_meets_within (J := fun x => Timely x.1 x.2) (fun x e hx hchrono => ?_)
    (fun x e x' hx hchrono _ hstep => ?_) (fun key d hd => ?_) hclock
  · have htimely := timely_run hx hchrono e.1
    refine forall_congr' fun hsuccess => ?_
    rw [← prog_sound e.1 e.2 x.2 hsuccess]
    constructor
    · rintro ⟨d, hd, -⟩
      exact Option.isSome_iff_exists.mpr ⟨d, hd⟩
    · intro hsome
      obtain ⟨d, hd⟩ := Option.isSome_iff_exists.mp hsome
      exact ⟨d, hd, htimely e.1.key d hd⟩
  · obtain rfl := Option.some.inj hstep
    exact timely_run hx hchrono e.1
  · rw [RedisCache.deadline, hempty] at hd
    cases hd

instance (now : DateTime) (ticks : List Tick) : Decidable (TicksInOrder now ticks) :=
  inferInstanceAs (Decidable (List.IsChain _ _))

instance (tick : Tick) (s : TimedStore) (c : KeyCmd) : Decidable (Sound tick s c) := by
  unfold Sound
  split
  · split <;> infer_instance
  · infer_instance
  · exact isTrue trivial

instance (x : Requests × TimedStore) (e : KeyCall × List Tick) : Decidable (SoundCall x e) :=
  inferInstanceAs (Decidable (_ → _))

/-- Three failed logins of one address within a minute. -/
def countedFailures : List (KeyCall × List Tick) :=
  List.replicate 3 (.increment "failures:10.0.0.1" 60, List.replicate 4 midnight)

def emptyTimed : TimedStore := ⟨emptyStats, .ofSeconds 0⟩

theorem countedFailures_expiring :
    Runs.Meets keyStep LeavesDeadline countedFailures (fun _ => 0, emptyTimed) :=
  (expiring_iff (fun _ => rfl) countedFailures (by decide +kernel)).mpr (by decide +kernel)

/-- The `EXPIRE` of the first failed login does not reach Redis. -/
def unexpiredFailures : List (KeyCall × List Tick) :=
  [(.increment "failures:10.0.0.1" 60, [midnight, { midnight with fault := some "connection lost" }]),
    (.increment "failures:10.0.0.1" 60, List.replicate 4 midnight)]

theorem unexpiredFailures_immortal :
    ¬∀ calls : List (KeyCall × List Tick), (∀ e ∈ calls, 0 < e.1.expiry) →
      Runs.Meets keyStep (fun x e => TicksInOrder x.2.now e.2) calls (fun _ => 0, emptyTimed) →
      Runs.Meets keyStep LeavesDeadline calls (fun _ => 0, emptyTimed) := by
  intro hexpiring
  obtain ⟨-, hsecond, -⟩ := hexpiring unexpiredFailures (by decide) (by decide +kernel)
  obtain ⟨d, hd, -⟩ := hsecond (by decide +kernel)
  cases hd

end MiniSiem
