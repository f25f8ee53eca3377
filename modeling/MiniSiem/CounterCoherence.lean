import MiniSiem.CounterAccounts
import MiniSiem.Lib.Phases
import MiniSiem.Lib.Versions

/-! # The L1 entry of a counter and Redis

Any number of calls on one counter run at the same time (`db/redis.rs`), each of their commands at a calm
moment.

* **Phases.**  A call starts, it may miss the L1 entry, it is bringing a value, or it is idle (`Phase`); one
  step takes it on (`phase_step`).
* **Versions.**  `watch` runs the calls with the versions of the number beside them.
* **Quiescence.**  `coherent_at_quiescence`: when no insert replaces a younger entry by an older one and no
  command takes the number below zero, an L1 entry that is there in the end is what Redis holds. -/

namespace MiniSiem

open Atomic

namespace Counters

/-- What `get_counter` does without an L1 entry. -/
def readThrough (key : String) : StatsProg CounterResult :=
  .call (.get key) fun
    | .error e => .ret (.error e)
    | .ok none => .ret (.ok none)
    | .ok (some value) =>
        match value.parse 4294967296 with
        | none => .ret (.error .notParsed)
        | some n => refreshL1 key (UInt64.ofInt n) 1 (.ok (some (UInt32.ofInt n)))

end Counters

/-! ### Phases of a call -/

/-- What a call may still do before and after it inserts the value. -/
def bringStep (key : String) (call : CounterCall) : Option UInt64 → StatsCmd → Option (Option UInt64)
  | some w, .now => some (some w)
  | some w, .l1Get k => if k = key ∧ call ≠ .get then some (some w) else none
  | some w, .expire k _ => if k = key then some (some w) else none
  | some w, .l1Insert k entry => if k = key ∧ entry.value = w then some none else none
  | none, .now => some none
  | none, .spawnRefresh _ => some none
  | _, _ => none

/-- An `EXPIRE` succeeds. -/
def expires : (c : StatsCmd) → c.Reply → Prop
  | .expire _ _, r => r = .ok ()
  | _, _ => True

/-- The program inserts the value, if there is one, and does nothing more. -/
abbrev Brings {α : Type} (key : String) (call : CounterCall) (w : Option UInt64) (p : StatsProg α) : Prop :=
  p.Obeys (bringStep key call) expires (fun q _ => q = none) w

section brings

variable {α : Type} (key : String) (call : CounterCall)

theorem refreshL1_brings (value hits : UInt64) (result : α) :
    Brings key call (some value) (Counters.refreshL1 key value hits result) := by
  refine Prog.obeys_call (some value) rfl fun now _ => ?_
  refine Prog.obeys_call none ?_ fun _ _ => rfl
  exact if_pos ⟨rfl, rfl⟩

theorem answerL1_brings (entry : L1Entry) (now : DateTime) :
    Brings key call none (Counters.answerL1 key entry now) := by
  unfold Counters.answerL1
  split_ifs
  · exact Prog.obeys_call none rfl fun _ _ => rfl
  · rfl

theorem brings_map {β : Type} {w : Option UInt64} {p : StatsProg α} (h : Brings key call w p) (f : α → β) :
    Brings key call w (p.bind fun a => .ret (f a)) :=
  h.bind fun _ _ hq => hq

end brings

inductive Phase
  | start
  | missed
  | bringing (w : UInt64)
  | idle

/-- The value that is on its way to the L1 entry. -/
def Phase.flying : Phase → Option ℤ
  | bringing w => some w.toNat
  | _ => none

/-- The program of a call in a phase. -/
def AtPhase (key : String) (call : CounterCall) (p : StatsProg CounterResult) : Phase → Prop
  | .start => p = call.prog key
  | .missed => call = .get ∧ p = Counters.readThrough key
  | .bringing w => Brings key call (some w) p
  | .idle => Brings key call none p

/-! ### One step of a call -/

/-- The versions after a command of a call; the look of a refresh at the hits of the entry takes nothing. -/
def versionsAfter {ι : Type} [DecidableEq ι] (call : CounterCall) (i : ι) (g : Versions ι) :
    Option StatsCmd → Versions ι
  | some (.incr _) | some (.incrBy _ _) | some (.set _ _) => g.write i
  | some (.get _) => g.readStore i
  | some (.l1Get _) => if call = .get then g.readCache i else g
  | some (.l1Insert _ _) => g.insert i
  | _ => g

/-- The number that is stored under a key. -/
def StatsStore.stored (s : StatsStore) (key : String) : Option ℤ :=
  (s.cache.keys key).bind fun e => e.value.number

theorem ShowsCounter.stored {key : String} {v : Option ℤ} {l : Option UInt64} {s : StatsStore}
    (h : ShowsCounter key v l s) : s.stored key = v := by
  unfold StatsStore.stored
  rcases h.entry with ⟨hkey, rfl⟩ | ⟨n, deadline, hkey, rfl⟩ <;> rw [hkey] <;> rfl

/-- The values in a call are below 2^32. -/
def CounterCall.Bounded : CounterCall → Prop
  | incrBy delta _ => delta.toNat < 4294967296
  | set value _ => value.toNat < 4294967296
  | _ => True

/-- The number stays in the range of a `u32`. -/
def InRange (v : Option ℤ) : Prop := ∀ n ∈ v, 0 ≤ n ∧ n < 4294967296

theorem InRange.getD {v : Option ℤ} (h : InRange v) : 0 ≤ v.getD 0 ∧ v.getD 0 < 4294967296 := by
  cases v with
  | none => decide
  | some n => exact h n rfl

section step

variable {ι : Type} [DecidableEq ι] {key : String} {call : CounterCall} {i : ι} {flying : ι → Option ℤ}
  {g : Versions ι} {val : ℕ → ℤ} {v : Option ℤ} {l : Option UInt64} {s s' : StatsStore}

/-- The view of the key follows the versions. -/
structure FollowsCounter (key : String) (val : ℕ → ℤ) (v : Option ℤ) (l : Option UInt64) (flying : ι → Option ℤ)
    (g : Versions ι) (s : StatsStore) : Prop where
  shows : ShowsCounter key v l s
  range : InRange v
  tracks : Versions.Tracks val v (l.map fun w => (w.toNat : ℤ)) flying g

/-- After a command of a call the view follows the versions again, and the call is in a phase. -/
def Keeps (key : String) (call : CounterCall) (i : ι) (flying : ι → Option ℤ) (g : Versions ι) (c : StatsCmd)
    (p : StatsProg CounterResult) (s : StatsStore) : Prop :=
  ∃ val v l ph,
    FollowsCounter key val v l (Function.update flying i (Phase.flying ph)) (versionsAfter call i g (some c)) s ∧
      AtPhase key call p ph

theorem keeps_same (ph : Phase) {c : StatsCmd} {p : StatsProg CounterResult}
    (h : FollowsCounter key val v l flying g s) (hi : flying i = ph.flying)
    (hg : versionsAfter call i g (some c) = g) (hp : AtPhase key call p ph) :
    Keeps key call i flying g c p s := by
  refine ⟨val, v, l, ph, ?_, hp⟩
  rw [hg, ← hi, Function.update_eq_self]
  exact h

/-- The command has written the number that the call brings to the L1 entry. -/
theorem keeps_write {c : StatsCmd} {p : StatsProg CounterResult} {n : ℤ} {w : UInt64}
    (h : FollowsCounter key val v l flying g s) (hs : ShowsCounter key (some n) l s') (hn : 0 ≤ n ∧ n < 4294967296)
    (hw : (w.toNat : ℤ) = n) (hg : versionsAfter call i g (some c) = g.write i)
    (hp : Brings key call (some w) p) : Keeps key call i flying g c p s' := by
  refine ⟨Function.update val (g.written + 1) n, some n, l, .bringing w,
    ⟨hs, fun m hm => Option.some.inj hm ▸ hn, ?_⟩, hp⟩
  rw [hg, Phase.flying, hw]
  exact h.tracks.write i n

theorem bringing_step {c : StatsCmd} {k : c.Reply → StatsProg CounterResult} {r : c.Reply} {w : UInt64}
    (hp : Brings key call (some w) (.call c k)) (h : FollowsCounter key val v l flying g s)
    (hi : flying i = some (w.toNat : ℤ)) (hreply : CalmReply key s c r s')
    (hyoung : ∀ k' entry, c = .l1Insert k' entry → g.cached ≤ g.held i) :
    Keeps key call i flying g c (k r) s' := by
  obtain ⟨q, hq, hk⟩ := hp
  cases c with
  | now =>
      obtain rfl := Option.some.inj hq
      obtain rfl := hreply.now
      exact keeps_same (.bringing w) h hi rfl (hk r trivial)
  | l1Get k' =>
      obtain ⟨⟨rfl, hcall⟩, hnext⟩ := Option.ite_none_right_eq_some.mp hq
      obtain rfl := Option.some.inj hnext
      obtain ⟨-, rfl⟩ := hreply.l1Get h.shows
      exact keeps_same (.bringing w) h hi (if_neg hcall) (hk r trivial)
  | expire k' seconds =>
      obtain ⟨rfl, hnext⟩ := Option.ite_none_right_eq_some.mp hq
      obtain rfl := Option.some.inj hnext
      obtain ⟨rfl, hs⟩ := hreply.expire h.shows
      exact keeps_same (.bringing w) ⟨hs, h.range, h.tracks⟩ hi rfl (hk _ rfl)
  | l1Insert k' entry =>
      obtain ⟨⟨rfl, rfl⟩, hnext⟩ := Option.ite_none_right_eq_some.mp hq
      obtain rfl := Option.some.inj hnext
      exact ⟨val, v, some entry.value, .idle,
        ⟨hreply.l1Insert h.shows, h.range, h.tracks.insert hi (hyoung _ _ rfl)⟩, hk r trivial⟩
  | _ => cases hq

theorem idle_step {c : StatsCmd} {k : c.Reply → StatsProg CounterResult} {r : c.Reply}
    (hp : Brings key call none (.call c k)) (h : FollowsCounter key val v l flying g s) (hi : flying i = none)
    (hreply : CalmReply key s c r s') : Keeps key call i flying g c (k r) s' := by
  obtain ⟨q, hq, hk⟩ := hp
  cases c with
  | now =>
      obtain rfl := Option.some.inj hq
      obtain rfl := hreply.now
      exact keeps_same .idle h hi rfl (hk r trivial)
  | spawnRefresh k' =>
      obtain rfl := Option.some.inj hq
      obtain rfl := hreply.spawnRefresh
      exact keeps_same .idle h hi rfl (hk r trivial)
  | _ => cases hq

theorem update_flying (hi : flying i = none) : Function.update flying i none = flying := by
  rw [← hi, Function.update_eq_self]

/-- What a read of Redis leads to. -/
theorem keeps_fetched {c : StatsCmd} {p : StatsProg CounterResult} (h : FollowsCounter key val v l flying g s)
    (hi : flying i = none) (hg : versionsAfter call i g (some c) = g.readStore i)
    (hnone : v = none → Brings key call none p)
    (hsome : ∀ n, v = some n → Brings key call (some (UInt64.ofInt n)) p) :
    Keeps key call i flying g c p s := by
  cases v with
  | none =>
      refine ⟨val, none, l, .idle, ⟨h.shows, h.range, ?_⟩, hnone rfl⟩
      show Versions.Tracks _ _ _ (Function.update flying i none) _
      rw [hg, update_flying hi]
      exact h.tracks.look hi g.written
  | some n =>
      have hrange := h.range n rfl
      have hval := MachineInt.toNat_uint64_ofInt n
      have hsame : ((UInt64.ofInt n).toNat : ℤ) = n := by omega
      refine ⟨val, some n, l, .bringing (UInt64.ofInt n), ⟨h.shows, h.range, ?_⟩, hsome n rfl⟩
      rw [hg, Phase.flying, hsame]
      exact h.tracks.readStore hi

theorem parse_inRange {n bound : ℤ} (hn : 0 ≤ n ∧ n < 4294967296) (hbound : 4294967296 ≤ bound) :
    RedisValue.parse bound (.int n) = some n := if_pos ⟨hn.1, hn.2.trans_le hbound⟩

theorem missed_step {c : StatsCmd} {k : c.Reply → StatsProg CounterResult} {r : c.Reply}
    (hp : Prog.call c k = Counters.readThrough key) (h : FollowsCounter key val v l flying g s)
    (hi : flying i = none) (hreply : CalmReply key s c r s') : Keeps key call i flying g c (k r) s' := by
  cases hp
  obtain ⟨rfl, rfl⟩ := hreply.get h.shows
  refine keeps_fetched h hi rfl (fun hv => ?_) fun n hv => ?_
  · subst hv
    exact Prog.obeys_ret rfl
  · subst hv
    dsimp only [Option.map_some]
    rw [parse_inRange (h.range n rfl) le_rfl]
    exact refreshL1_brings key call _ _ _

theorem increment_start {c : StatsCmd} {k : c.Reply → StatsProg CounterResult} {r : c.Reply} {exp : UInt64}
    (hp : Prog.call c k = (CounterCall.increment exp).prog key) (h : FollowsCounter key val v l flying g s)
    (hreply : CalmReply key s c r s') (hsmall : ∀ n ∈ s'.stored key, n < 4294967296) :
    Keeps key call i flying g c (k r) s' := by
  cases hp
  have hrange := h.range.getD
  obtain ⟨rfl, hs⟩ := hreply.incr h.shows (by omega) (by omega)
  have hlt := hsmall _ (Option.mem_def.mpr hs.stored)
  have hval := MachineInt.toNat_uint32_ofInt (v.getD 0 + 1)
  refine keeps_write (w := (UInt32.ofInt (v.getD 0 + 1)).toUInt64) h hs ⟨by omega, hlt⟩ ?_ rfl ?_
  · rw [UInt32.toNat_toUInt64]
    omega
  · refine brings_map key call ?_ _
    dsimp only
    split_ifs
    · refine Prog.obeys_call (some _) (if_pos rfl) fun r hr => ?_
      obtain rfl : r = .ok () := hr
      exact refreshL1_brings key call _ _ _
    · exact refreshL1_brings key call _ _ _

theorem decrement_start {c : StatsCmd} {k : c.Reply → StatsProg CounterResult} {r : c.Reply}
    (hp : Prog.call c k = CounterCall.decrement.prog key) (h : FollowsCounter key val v l flying g s)
    (hreply : CalmReply key s c r s') (hpos : ∀ k' delta, c = .incrBy k' delta → 0 ≤ v.getD 0 + delta.toInt) :
    Keeps key call i flying g c (k r) s' := by
  cases hp
  have hrange := h.range.getD
  have hminus : (-1 : Int64).toInt = -1 := by decide
  have hnonneg := hpos _ _ rfl
  rw [hminus] at hnonneg
  obtain ⟨rfl, hs⟩ := hreply.incrBy h.shows (by omega) (by omega) (by omega)
  rw [hminus] at hs ⊢
  have hval := MachineInt.toNat_uint32_ofInt (v.getD 0 + -1)
  refine keeps_write (w := (UInt32.ofInt (v.getD 0 + -1)).toUInt64) h hs ⟨hnonneg, by omega⟩ ?_ rfl ?_
  · rw [UInt32.toNat_toUInt64]
    omega
  · refine brings_map key call ?_ _
    dsimp only
    rw [if_neg (not_lt.mpr hnonneg)]
    exact refreshL1_brings key call _ _ _

theorem incrBy_start {c : StatsCmd} {k : c.Reply → StatsProg CounterResult} {r : c.Reply} {delta exp : UInt64}
    (hp : Prog.call c k = (CounterCall.incrBy delta exp).prog key) (hbounded : delta.toNat < 4294967296)
    (h : FollowsCounter key val v l flying g s) (hreply : CalmReply key s c r s')
    (hsmall : ∀ n ∈ s'.stored key, n < 4294967296) : Keeps key call i flying g c (k r) s' := by
  cases hp
  have hrange := h.range.getD
  have hdelta : delta.toInt64.toInt = delta.toNat := toInt_toInt64 (by omega)
  obtain ⟨rfl, hs⟩ := hreply.incrBy h.shows (by omega) (by omega) (by omega)
  have hlt := hsmall _ (Option.mem_def.mpr hs.stored)
  rw [hdelta] at hs hlt ⊢
  have hval := MachineInt.toNat_uint64_ofInt (v.getD 0 + delta.toNat)
  refine keeps_write (w := UInt64.ofInt (v.getD 0 + delta.toNat)) h hs ⟨by omega, hlt⟩ (by omega) rfl ?_
  refine brings_map key call ?_ _
  refine Prog.obeys_call (some _) (if_pos rfl) fun r hr => ?_
  obtain rfl : r = .ok () := hr
  exact refreshL1_brings key call _ _ _

theorem set_start {c : StatsCmd} {k : c.Reply → StatsProg CounterResult} {r : c.Reply} {value : UInt64}
    {exp : Option UInt64} (hp : Prog.call c k = (CounterCall.set value exp).prog key)
    (hbounded : value.toNat < 4294967296) (h : FollowsCounter key val v l flying g s)
    (hreply : CalmReply key s c r s') :
    Keeps key call i flying g c (k r) s' := by
  cases hp
  obtain ⟨rfl, hs⟩ := hreply.set h.shows
  refine keeps_write (w := value) h hs (by omega) rfl rfl (brings_map key call ?_ _)
  cases exp with
  | none => exact refreshL1_brings key call _ _ _
  | some exp =>
      refine Prog.obeys_call (some _) (if_pos rfl) fun r hr => ?_
      obtain rfl : r = .ok () := hr
      exact refreshL1_brings key call _ _ _

theorem get_start {c : StatsCmd} {k : c.Reply → StatsProg CounterResult} {r : c.Reply}
    (hp : Prog.call c k = CounterCall.get.prog key) (h : FollowsCounter key val v l flying g s)
    (hi : flying i = none) (hreply : CalmReply key s c r s') : Keeps key .get i flying g c (k r) s' := by
  cases hp
  obtain ⟨hl, rfl⟩ := hreply.l1Get h.shows
  have hg : versionsAfter .get i g (some (.l1Get key)) = g.readCache i := by
    rw [versionsAfter, if_pos rfl]
  cases r with
  | none =>
      refine ⟨val, v, l, .missed, ⟨h.shows, h.range, ?_⟩, rfl, rfl⟩
      show Versions.Tracks _ _ _ (Function.update flying i none) _
      rw [hg, update_flying hi]
      exact h.tracks.look hi g.cached
  | some entry =>
      subst hl
      refine ⟨val, v, some entry.value, .bringing entry.value, ⟨h.shows, h.range, ?_⟩, ?_⟩
      · rw [hg]
        exact h.tracks.readCache hi
      · refine Prog.obeys_call none (if_pos ⟨rfl, rfl⟩) fun _ _ => ?_
        exact Prog.obeys_call none rfl fun now _ => answerL1_brings key .get entry now

theorem refresh_start {c : StatsCmd} {k : c.Reply → StatsProg CounterResult} {r : c.Reply}
    (hp : Prog.call c k = CounterCall.refresh.prog key) (h : FollowsCounter key val v l flying g s)
    (hi : flying i = none) (hreply : CalmReply key s c r s') : Keeps key .refresh i flying g c (k r) s' := by
  cases hp
  obtain ⟨rfl, rfl⟩ := hreply.get h.shows
  refine keeps_fetched h hi rfl (fun hv => ?_) fun n hv => ?_
  · subst hv
    exact Prog.obeys_ret rfl
  · subst hv
    dsimp only [Option.map_some]
    rw [parse_inRange (h.range n rfl) (by norm_num)]
    refine brings_map key .refresh (Prog.obeys_call (some _) rfl fun now _ => ?_) _
    refine Prog.obeys_call (some _) (if_pos ⟨rfl, by decide⟩) fun entry _ => ?_
    exact Prog.obeys_call none (if_pos ⟨rfl, rfl⟩) fun _ _ => rfl

/-- One command of a call in any phase. -/
theorem phase_step {c : StatsCmd} {k : c.Reply → StatsProg CounterResult} {r : c.Reply} {ph : Phase}
    (hp : AtPhase key call (.call c k) ph) (hbounded : call.Bounded) (h : FollowsCounter key val v l flying g s)
    (hi : flying i = ph.flying) (hreply : CalmReply key s c r s')
    (hyoung : ∀ k' entry, c = .l1Insert k' entry → g.cached ≤ g.held i)
    (hpos : ∀ k' delta, c = .incrBy k' delta → 0 ≤ v.getD 0 + delta.toInt)
    (hsmall : ∀ n ∈ s'.stored key, n < 4294967296) : Keeps key call i flying g c (k r) s' := by
  cases ph with
  | start =>
      cases call with
      | increment exp => exact increment_start hp h hreply hsmall
      | decrement => exact decrement_start hp h hreply hpos
      | incrBy delta exp => exact incrBy_start hp hbounded h hreply hsmall
      | set value exp => exact set_start hp hbounded h hreply
      | get => exact get_start hp h hi hreply
      | refresh => exact refresh_start hp h hi hreply
  | missed => exact missed_step hp.2 h hi hreply
  | bringing w => exact bringing_step hp h hi hreply hyoung
  | idle => exact idle_step hp h hi hreply

end step

/-! ### Calls that run at the same time -/

abbrev CounterPool (ι : Type) := Pool ι StatsCmd StatsCmd.Reply CounterResult StatsStore

section pool

variable {ι : Type} [DecidableEq ι] (key : String) (calls : ι → CounterCall)

/-- The calls on the counter, none of them started. -/
def counterPool (store : StatsStore) : CounterPool ι := ⟨fun i => (calls i).prog key, store⟩

/-- A step of the pool with the versions of the number. -/
def watch (x : CounterPool ι × Versions ι) (e : ι × Tick) : Option (CounterPool ι × Versions ι) :=
  some (Pool.step execStats x.1 e, versionsAfter (calls e.1) e.1 x.2 (x.1.progs e.1).next)

/-- Nothing has been written yet. -/
def firstVersions : Versions ι := ⟨0, 0, fun _ => 0⟩

/-- The command does not fail, and nothing expires. -/
def CalmStep (x : CounterPool ι × Versions ι) (e : ι × Tick) : Prop :=
  ∀ c ∈ (x.1.progs e.1).next, Calm key e.2 x.1.store c

/-- The number stays below 2^32. -/
def SmallStep (x : CounterPool ι × Versions ι) (e : ι × Tick) : Prop :=
  ∀ n ∈ (Pool.step execStats x.1 e).store.stored key, n < 4294967296

/-- An insert does not replace a younger entry by an older one, and no command takes the number below zero. -/
def InOrder (x : CounterPool ι × Versions ι) (e : ι × Tick) : Prop :=
  match (x.1.progs e.1).next with
  | some (.l1Insert _ _) => x.2.cached ≤ x.2.held e.1
  | some (.incrBy _ delta) => 0 ≤ (x.1.store.stored key).getD 0 + delta.toInt
  | _ => True

/-- Every call is in a phase, and the view of the key follows the versions. -/
def Watched (x : CounterPool ι × Versions ι) : Prop :=
  ∃ (val : ℕ → ℤ) (v : Option ℤ) (l : Option UInt64) (phases : ι → Phase),
    FollowsCounter key val v l (fun i => (phases i).flying) x.2 x.1.store ∧
    ∀ i, AtPhase key (calls i) (x.1.progs i) (phases i)

variable {key calls}

theorem watched_step {x x' : CounterPool ι × Versions ι} {e : ι × Tick} (hcalls : ∀ i, (calls i).Bounded)
    (h : Watched key calls x) (hcalm : CalmStep key x e) (hsmall : SmallStep key x e) (hok : InOrder key x e)
    (hstep : watch calls x e = some x') : Watched key calls x' := by
  obtain ⟨val, v, l, phases, hfollows, hphases⟩ := h
  obtain rfl := Option.some.inj hstep
  have hself := hphases e.1
  cases hp : x.1.progs e.1 with
  | ret a =>
      rw [Pool.step_finished (by rw [hp]; rfl)]
      exact ⟨val, v, l, phases, hfollows, hphases⟩
  | call c k =>
      have hnext : (x.1.progs e.1).next = some c := by rw [hp]; rfl
      rw [hp] at hself
      have hreply := calmReply_exec e.2 x.1.store c (hcalm c (Option.mem_def.mpr hnext))
      rw [SmallStep, Pool.step_store hnext] at hsmall
      rw [InOrder, hnext] at hok
      obtain ⟨val', v', l', ph, hfollows', hph⟩ := phase_step (i := e.1) hself (hcalls e.1) hfollows rfl
        hreply (fun k' entry hc => by subst hc; exact hok)
        (fun k' delta hc => by subst hc; rw [← hfollows.shows.stored]; exact hok) hsmall
      refine ⟨val', v', l', Function.update phases e.1 ph, ?_, fun i => ?_⟩
      · have hflying : (fun i => (Function.update phases e.1 ph i).flying) =
            Function.update (fun i => (phases i).flying) e.1 ph.flying := by
          funext i
          exact Function.apply_update (fun _ q => q.flying) phases e.1 ph i
        rw [hflying, Pool.step_store hnext]
        exact hfollows'
      · by_cases hi : i = e.1
        · subst hi
          rw [Function.update_self, Pool.step_progs_self, hp]
          exact hph
        · rw [Function.update_of_ne hi, Pool.step_progs_of_ne hi]
          exact hphases i

theorem watch_run (calls : ι → CounterCall) (es : List (ι × Tick)) (x : CounterPool ι × Versions ι) :
    ∃ g, Runs.run (watch calls) es x = some (Pool.run execStats es x.1, g) := by
  induction es generalizing x with
  | nil => exact ⟨x.2, rfl⟩
  | cons e es ih => exact ih _

/-- An idle call brings nothing. -/
theorem flying_of_finished {p : StatsProg CounterResult} {call : CounterCall} {ph : Phase}
    (hp : AtPhase key call p ph) (hfinished : p.next = none) : ph.flying = none := by
  cases ph with
  | bringing w =>
      cases p with
      | ret a => cases (show some w = none from hp)
      | call c k => cases hfinished
  | _ => rfl

/-- The L1 entry of the key, if there is one, is what Redis holds. -/
def L1Coherent (key : String) (s : StatsStore) : Prop :=
  ∀ entry ∈ s.cache.l1 key, s.stored key = some (entry.value.toNat : ℤ)

/-- Calls on a counter, in any number and order of steps, that insert into L1 in order and do not take the
number below zero leave the L1 entry equal to Redis when all of them have finished. -/
theorem coherent_at_quiescence (key : String) (calls : ι → CounterCall) (hcalls : ∀ i, (calls i).Bounded)
    {store : StatsStore} {v : Option ℤ} {l : Option UInt64} (hs : ShowsCounter key v l store) (hv : InRange v)
    (hl : ∀ w ∈ l, v = some (w.toNat : ℤ)) (schedule : List (ι × Tick))
    (hcalm : Runs.Meets (watch calls) (CalmStep key) schedule (counterPool key calls store, firstVersions))
    (hsmall : Runs.Meets (watch calls) (SmallStep key) schedule (counterPool key calls store, firstVersions))
    (hquiet : ∀ i, ((Pool.run execStats schedule (counterPool key calls store)).progs i).next = none)
    (hok : Runs.Meets (watch calls) (InOrder key) schedule (counterPool key calls store, firstVersions)) :
    L1Coherent key (Pool.run execStats schedule (counterPool key calls store)).store := by
  have hstart : Watched key calls (counterPool key calls store, firstVersions) := by
    refine ⟨fun _ => v.getD 0, v, l, fun _ => .start, ⟨hs, hv, ?_⟩, fun i => rfl⟩
    exact {
      current := fun n hn => by rw [Option.mem_def.mp hn]; rfl
      cached := fun n hn => by
        obtain ⟨w, hw, rfl⟩ := Option.map_eq_some_iff.mp (Option.mem_def.mp hn)
        rw [hl w hw]
        exact ⟨rfl, rfl⟩
      held := fun i n hn => by cases hn
      le := le_rfl
      pending := fun hlt => absurd hlt (Nat.lt_irrefl 0) }
  obtain ⟨g, hrun⟩ := watch_run calls schedule (counterPool key calls store, firstVersions)
  obtain ⟨val, v', l', phases, hfollows, hphases⟩ :=
    (Runs.meets_and.mpr ⟨Runs.meets_and.mpr ⟨hcalm, hsmall⟩, hok⟩).run_invariant
      (fun x e x' hx hfit hstep => watched_step hcalls hx hfit.1.1 hfit.1.2 hfit.2 hstep) hstart hrun
  have htracks := hfollows.tracks
  intro entry hentry
  have hl1 := hfollows.shows.l1
  rw [Option.mem_def.mp hentry] at hl1
  rw [← hl1] at htracks
  rw [hfollows.shows.stored]
  exact htracks.quiet fun i => flying_of_finished (hphases i) (hquiet i)

end pool

instance {ι : Type} [DecidableEq ι] (key : String) (x : CounterPool ι × Versions ι) (e : ι × Tick) :
    Decidable (CalmStep key x e) := inferInstanceAs (Decidable (∀ c ∈ _, _))

instance {ι : Type} [DecidableEq ι] (key : String) (x : CounterPool ι × Versions ι) (e : ι × Tick) :
    Decidable (SmallStep key x e) := inferInstanceAs (Decidable (∀ n ∈ _, _))

instance {ι : Type} (key : String) (x : CounterPool ι × Versions ι) (e : ι × Tick) :
    Decidable (InOrder key x e) := by
  unfold InOrder
  split <;> infer_instance

instance (key : String) (s : StatsStore) : Decidable (L1Coherent key s) :=
  inferInstanceAs (Decidable (∀ entry ∈ _, _))

/-- Two failed logins of one address at the same time. -/
def twoFailures : Bool → CounterCall := fun _ => .increment 60

/-- The replies are inserted in the order of the increments. -/
def repliesInOrder : List (Bool × Tick) :=
  [true, false, true, true, true, false, false].map fun i => (i, midnight)

theorem repliesInOrder_coherent : L1Coherent "failures:10.0.0.1"
    (Pool.run execStats repliesInOrder (counterPool "failures:10.0.0.1" twoFailures emptyStats)).store :=
  coherent_at_quiescence "failures:10.0.0.1" twoFailures (fun _ => trivial) (emptyStats_shows _)
    (fun n hn => by cases hn) (fun w hw => by cases hw) repliesInOrder (by decide +kernel) (by decide +kernel)
    (by decide +kernel) (by decide +kernel)

/-- The reply of the first increment is inserted last. -/
def repliesSwapped : List (Bool × Tick) :=
  [true, true, false, false, false, true, true].map fun i => (i, midnight)

theorem repliesSwapped_stale :
    ¬∀ (key : String) (calls : Bool → CounterCall) (schedule : List (Bool × Tick)),
      (∀ i, (calls i).Bounded) →
      Runs.Meets (watch calls) (CalmStep key) schedule (counterPool key calls emptyStats, firstVersions) →
      Runs.Meets (watch calls) (SmallStep key) schedule (counterPool key calls emptyStats, firstVersions) →
      (∀ i, ((Pool.run execStats schedule (counterPool key calls emptyStats)).progs i).next = none) →
      L1Coherent key (Pool.run execStats schedule (counterPool key calls emptyStats)).store := by
  intro hcoherent
  have hentry := hcoherent "failures:10.0.0.1" twoFailures repliesSwapped (fun _ => trivial)
    (by decide +kernel) (by decide +kernel) (by decide +kernel)
  exact absurd hentry (by decide +kernel)

end MiniSiem
