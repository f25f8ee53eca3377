import MiniSiem.CounterCalls
import MiniSiem.Lib.MachineInt

/-! # The counters as natural numbers

What a sequence of calls on one counter returns, compared with a natural number whose decrement stops at zero.

* **One call.**  For each operation, from the view of a key to the result and the view after it
  (`increment_ends` to `refresh_ends`).
* **Accounts.**  `CounterAccount` is the number with what the code holds beside it: Redis is below zero by
  the decrements made at zero, the *debt*, and the L1 entry may have been overwritten by a negative number.
  A call answers right exactly when it is solvent (`served`).
* **Sequences.**  `answers_iff_solvent`: calls in any order and number. -/

namespace MiniSiem

open Atomic

variable {key : String} {v : Option ℤ} {l : Option UInt64} {s : StatsStore}

/-- At calm moments the program ends as `Q` has it. -/
abbrev CalmlyEnds {α : Type} (key : String) (p : StatsProg α) (Q : StatsStore → α → Prop)
    (s : StatsStore) : Prop :=
  p.Guarantees (CalmReply key) (fun _ _ => True) Q s

theorem refreshL1_ends {α : Type} (hs : ShowsCounter key v l s) (value hits : UInt64) (result : α) :
    CalmlyEnds key (Counters.refreshL1 key value hits result)
      (fun s' r => r = result ∧ ShowsCounter key v (some value) s') s := by
  refine Prog.guarantees_call fun now s₁ h₁ => ⟨trivial, ?_⟩
  obtain rfl := h₁.now
  exact Prog.guarantees_call fun _ s₂ h₂ => ⟨trivial, rfl, h₂.l1Insert hs⟩

theorem increment_ends (hs : ShowsCounter key v l s) (hfits : FitsInt64 (v.getD 0))
    (hroom : v.getD 0 < 9223372036854775807) (exp : UInt64) :
    CalmlyEnds key (Counters.incrementCounter key exp)
      (fun s' r => r = .ok (UInt32.ofInt (v.getD 0 + 1)) ∧
        ShowsCounter key (some (v.getD 0 + 1)) (some (UInt32.ofInt (v.getD 0 + 1)).toUInt64) s') s := by
  refine Prog.guarantees_call fun r s₁ h₁ => ⟨trivial, ?_⟩
  obtain ⟨rfl, hs₁⟩ := h₁.incr hs hfits hroom
  dsimp only
  split_ifs
  · refine Prog.guarantees_call fun r s₂ h₂ => ⟨trivial, ?_⟩
    obtain ⟨rfl, hs₂⟩ := h₂.expire hs₁
    exact refreshL1_ends hs₂ _ _ _
  · exact refreshL1_ends hs₁ _ _ _

theorem decrement_ends (hs : ShowsCounter key v l s) (hlow : -9223372036854775808 < v.getD 0)
    (hhigh : v.getD 0 ≤ 9223372036854775807) :
    CalmlyEnds key (Counters.decrementCounter key)
      (fun s' r => ∃ w : UInt32, w = (if v.getD 0 - 1 < 0 then 0 else UInt32.ofInt (v.getD 0 - 1)) ∧
        r = .ok w ∧ ShowsCounter key (some (v.getD 0 - 1)) (some w.toUInt64) s') s := by
  refine Prog.guarantees_call fun r s₁ h₁ => ⟨trivial, ?_⟩
  have hminus : (-1 : Int64).toInt = -1 := by decide
  obtain ⟨rfl, hs₁⟩ := h₁.incrBy hs ⟨hlow.le, hhigh⟩ (by rw [hminus]; omega) (by rw [hminus]; omega)
  rw [hminus, ← sub_eq_add_neg] at hs₁ ⊢
  exact (refreshL1_ends hs₁ _ _ _).imp fun s' r h => ⟨_, rfl, h.1, h.2⟩

theorem incrBy_ends {delta : UInt64} (hs : ShowsCounter key v l s) (hfits : FitsInt64 (v.getD 0))
    (hlow : -9223372036854775808 ≤ v.getD 0 + delta.toInt64.toInt)
    (hhigh : v.getD 0 + delta.toInt64.toInt ≤ 9223372036854775807) (exp : UInt64) {n : ℤ}
    (hn : n = v.getD 0 + delta.toInt64.toInt) :
    CalmlyEnds key (Counters.incrBy key delta exp)
      (fun s' r => r = .ok (if n < 0 then 0 else UInt32.ofInt n) ∧
        ShowsCounter key (some n) (some (UInt64.ofInt n)) s') s := by
  subst hn
  refine Prog.guarantees_call fun r s₁ h₁ => ⟨trivial, ?_⟩
  obtain ⟨rfl, hs₁⟩ := h₁.incrBy hs hfits hlow hhigh
  refine Prog.guarantees_call fun r s₂ h₂ => ⟨trivial, ?_⟩
  obtain ⟨rfl, hs₂⟩ := h₂.expire hs₁
  exact refreshL1_ends hs₂ _ _ _

theorem set_ends (hs : ShowsCounter key v l s) (value : UInt64) (exp : Option UInt64) :
    CalmlyEnds key (Counters.setCounter key value exp)
      (fun s' r => r = .ok () ∧ ShowsCounter key (some value.toNat) (some value) s') s := by
  refine Prog.guarantees_call fun r s₁ h₁ => ⟨trivial, ?_⟩
  obtain ⟨rfl, hs₁⟩ := h₁.set hs
  cases exp with
  | none => exact refreshL1_ends hs₁ _ _ _
  | some exp =>
      refine Prog.guarantees_call fun r s₂ h₂ => ⟨trivial, ?_⟩
      obtain ⟨rfl, hs₂⟩ := h₂.expire hs₁
      exact refreshL1_ends hs₂ _ _ _

theorem answerL1_ends (hs : ShowsCounter key v l s) (entry : L1Entry) (now : DateTime) :
    CalmlyEnds key (Counters.answerL1 key entry now)
      (fun s' r => r = .ok (some entry.value.toUInt32) ∧ ShowsCounter key v l s') s := by
  unfold Counters.answerL1
  split_ifs
  · refine Prog.guarantees_call fun _ s₁ h₁ => ⟨trivial, rfl, ?_⟩
    rw [h₁.spawnRefresh]
    exact hs
  · exact ⟨rfl, hs⟩

/-- What `get_counter` finds. -/
def getAnswer (v : Option ℤ) (l : Option UInt64) : Option UInt32 :=
  match l with
  | some value => some value.toUInt32
  | none => v.map UInt32.ofInt

theorem get_ends (hs : ShowsCounter key v l s) (hrange : l = none → ∀ n ∈ v, 0 ≤ n ∧ n < 4294967296) :
    CalmlyEnds key (Counters.getCounter key)
      (fun s' r => r = .ok (getAnswer v l) ∧ ShowsCounter key v (l.orElse fun _ => v.map UInt64.ofInt) s') s := by
  refine Prog.guarantees_call fun r s₁ h₁ => ⟨trivial, ?_⟩
  obtain ⟨hl, rfl⟩ := h₁.l1Get hs
  cases r with
  | some entry =>
      obtain rfl := hl
      refine Prog.guarantees_call fun _ s₂ h₂ => ⟨trivial, ?_⟩
      have hs₂ := h₂.l1Insert hs
      refine Prog.guarantees_call fun now s₃ h₃ => ⟨trivial, ?_⟩
      obtain rfl := h₃.now
      exact answerL1_ends hs₂ entry now
  | none =>
      obtain rfl := hl
      refine Prog.guarantees_call fun r s₂ h₂ => ⟨trivial, ?_⟩
      obtain ⟨rfl, rfl⟩ := h₂.get hs
      cases v with
      | none => exact ⟨rfl, hs⟩
      | some n =>
          have hparse : RedisValue.parse 4294967296 (.int n) = some n := if_pos (hrange rfl n rfl)
          dsimp only [Option.map_some]
          rw [hparse]
          exact refreshL1_ends hs _ _ _

theorem refresh_ends (hs : ShowsCounter key v l s) :
    CalmlyEnds key (Counters.refreshKey key)
      (fun s' _ => ShowsCounter key v l s' ∨
        ∃ n, v = some n ∧ 0 ≤ n ∧ ShowsCounter key v (some (UInt64.ofInt n)) s') s := by
  refine Prog.guarantees_call fun r s₁ h₁ => ⟨trivial, ?_⟩
  obtain ⟨rfl, rfl⟩ := h₁.get hs
  cases v with
  | none => exact Or.inl hs
  | some n =>
      dsimp only [Option.map_some]
      cases hparse : RedisValue.parse 18446744073709551616 (.int n) with
      | none => exact Or.inl hs
      | some m =>
          have hbounds := RedisValue.parse_bounds hparse
          obtain rfl : n = m := by
            unfold RedisValue.parse at hparse
            dsimp only at hparse
            split_ifs at hparse
            exact Option.some.inj hparse
          refine Prog.guarantees_call fun now s₂ h₂ => ⟨trivial, ?_⟩
          obtain rfl := h₂.now
          refine Prog.guarantees_call fun entry s₃ h₃ => ⟨trivial, ?_⟩
          obtain ⟨-, rfl⟩ := h₃.l1Get hs
          refine Prog.guarantees_call fun _ s₄ h₄ => ⟨trivial, ?_⟩
          exact Or.inr ⟨n, rfl, hbounds.1, h₄.l1Insert hs⟩

/-! ### Accounts -/

/-- The natural number, the decrements made at zero since it was set last, and whether the L1 entry is
that number below zero. -/
structure CounterAccount where
  count : ℕ
  debt : ℕ
  stained : Bool
deriving DecidableEq

namespace CounterAccount

def next (a : CounterAccount) : CounterCall → CounterAccount
  | .increment _ => ⟨a.count + 1, a.debt, false⟩
  | .decrement => if a.count = 0 then ⟨0, a.debt + 1, false⟩ else ⟨a.count - 1, a.debt, false⟩
  | .incrBy delta _ => ⟨a.count + delta.toNat, a.debt, decide (0 < a.debt)⟩
  | .set value _ => ⟨value.toNat, 0, false⟩
  | .get => a
  | .refresh => a

/-- The number after the call is below 2^32, and so is the debt. -/
def Small (a : CounterAccount) (c : CounterCall) : Prop :=
  (a.next c).count < 4294967296 ∧ (a.next c).debt < 4294967296

/-- The call returns what the natural number says; a background refresh returns nothing. -/
def Answers (a : CounterAccount) (c : CounterCall) (r : Option CounterResult) : Prop :=
  match c with
  | .refresh => True
  | .set _ _ => r = some (.ok none)
  | .get => ∃ o, r = some (.ok o) ∧ o.elim 0 UInt32.toNat = a.count
  | c => ∃ w : UInt32, r = some (.ok (some w)) ∧ w.toNat = (a.next c).count

/-- Nothing is added while there is a debt, and nothing is read while the L1 entry is negative. -/
def Solvent (a : CounterAccount) : CounterCall → Prop
  | .increment _ => a.debt = 0
  | .incrBy delta _ => a.debt = 0 ∨ delta = 0
  | .get => a.stained = false
  | _ => True

/-- The view of the key is that of the account. -/
structure Matches (a : CounterAccount) (v : Option ℤ) (l : Option UInt64) : Prop where
  redis : v.getD 0 = a.count - a.debt
  spent : 0 < a.debt → a.count = 0
  l1 : ∀ w ∈ l, if a.stained then w = UInt64.ofInt (-a.debt) else w.toNat = a.count
  cached : 0 < a.debt → l ≠ none
  stained : a.stained = true → 0 < a.debt
  count_lt : a.count < 4294967296
  debt_lt : a.debt < 4294967296

variable {a : CounterAccount}

/-- The call answers right exactly when it is solvent, and then the account stays that of the key. -/
def Served (key : String) (a : CounterAccount) (c : CounterCall) (s : StatsStore) (r : CounterResult) :
    Prop :=
  (a.Answers c (some r) ↔ a.Solvent c) ∧
    (a.Solvent c → ∃ v l, ShowsCounter key v l s ∧ (a.next c).Matches v l)

/-- After a command that leaves a number that is not negative, in Redis and in the L1 entry. -/
theorem Matches.of_count {n : ℕ} {w : UInt64} (hw : w.toNat = n) (hn : n < 4294967296) :
    Matches ⟨n, 0, false⟩ (some (n : ℤ)) (some w) where
  redis := by simp
  spent h := absurd h (Nat.lt_irrefl 0)
  l1 x hx := Option.some.inj hx ▸ hw
  cached h := absurd h (Nat.lt_irrefl 0)
  stained h := by cases h
  count_lt := hn
  debt_lt := by norm_num

/-- Without a debt the L1 entry has not been overwritten by a negative number. -/
theorem Matches.unstained (h : a.Matches v l) (hfree : a.debt = 0) : a.stained = false := by
  rw [← Bool.not_eq_true]
  intro hst
  have := h.stained hst
  omega

/-- Without a debt the L1 entry may be filled from Redis. -/
theorem Matches.refilled (h : a.Matches v l) (hfree : a.debt = 0) {n : ℤ} (hn : n = a.count) :
    a.Matches (some n) (some (UInt64.ofInt n)) := by
  have hcount := h.count_lt
  have hcopy : a = ⟨a.count, 0, false⟩ := by
    rw [← hfree, ← h.unstained hfree]
  have hval := MachineInt.toNat_uint64_ofInt n
  rw [hcopy, hn]
  exact Matches.of_count (by rw [hn] at hval; omega) hcount

theorem increment_served (hs : ShowsCounter key v l s) (h : a.Matches v l) (exp : UInt64)
    (hsmall : a.Small (.increment exp)) :
    CalmlyEnds key ((CounterCall.increment exp).prog key) (Served key a (.increment exp)) s := by
  have hcount : a.count + 1 < 4294967296 := hsmall.1
  have hredis := h.redis
  have hspent := h.spent
  have hdebt := h.debt_lt
  refine (increment_ends hs (by omega) (by omega) exp).bind fun s' r hr => ?_
  obtain ⟨rfl, hs'⟩ := hr
  have hval := MachineInt.toNat_uint32_ofInt (v.getD 0 + 1)
  rw [hredis] at hs' hval ⊢
  have hiff : (UInt32.ofInt (a.count - a.debt + 1)).toNat = a.count + 1 ↔ a.debt = 0 := by omega
  refine ⟨⟨?_, fun hfree => ⟨_, rfl, hiff.mpr hfree⟩⟩, fun hfree => ⟨_, _, hs', ?_⟩⟩
  · rintro ⟨w, hw, hright⟩
    cases hw
    exact hiff.mp hright
  · have hfree : a.debt = 0 := hfree
    have hv : (a.count - a.debt + 1 : ℤ) = ((a.count + 1 : ℕ) : ℤ) := by omega
    have hl : (UInt32.ofInt (a.count - a.debt + 1)).toUInt64.toNat = a.count + 1 := by
      rw [UInt32.toNat_toUInt64]
      exact hiff.mpr hfree
    rw [next, hfree]
    rw [hfree] at hl hv
    rw [hv]
    exact Matches.of_count (by rw [← hv]; exact hl) hcount

theorem decrement_served (hs : ShowsCounter key v l s) (h : a.Matches v l) (hsmall : a.Small .decrement) :
    CalmlyEnds key (CounterCall.decrement.prog key) (Served key a .decrement) s := by
  have hdebt' := hsmall.2
  have hredis := h.redis
  have hspent := h.spent
  have hcount := h.count_lt
  have hdebt := h.debt_lt
  refine (decrement_ends hs (by omega) (by omega)).bind fun s' r hr => ?_
  obtain ⟨w, hw, rfl, hs'⟩ := hr
  rw [hredis] at hs' hw
  by_cases hzero : a.count = 0
  · -- the clamp: Redis goes further below zero
    rw [if_pos (by omega)] at hw
    subst hw
    have hnext : a.next .decrement = ⟨0, a.debt + 1, false⟩ := if_pos hzero
    refine ⟨iff_of_true ⟨0, rfl, by rw [hnext]; rfl⟩ trivial, fun _ => ⟨_, _, hs', ?_⟩⟩
    rw [hnext] at hdebt' ⊢
    exact {
      redis := by
        rw [Option.getD_some, hzero]
        push_cast
        ring
      spent := fun _ => rfl
      l1 := fun x hx => Option.some.inj hx ▸ rfl
      cached := fun _ => by simp
      stained := fun hst => by cases hst
      count_lt := by norm_num
      debt_lt := hdebt' }
  · have hfree : a.debt = 0 := by omega
    have hnext : a.next .decrement = ⟨a.count - 1, a.debt, false⟩ := if_neg hzero
    rw [if_neg (by omega)] at hw
    have hval : w.toNat = a.count - 1 := by
      have := MachineInt.toNat_uint32_ofInt ((a.count : ℤ) - a.debt - 1)
      rw [← hw] at this
      omega
    have hv : (a.count - a.debt - 1 : ℤ) = ((a.count - 1 : ℕ) : ℤ) := by omega
    refine ⟨iff_of_true ⟨w, rfl, by rw [hnext]; exact hval⟩ trivial, fun _ => ⟨_, _, hs', ?_⟩⟩
    rw [hnext, hv, hfree]
    exact Matches.of_count (by rw [UInt32.toNat_toUInt64]; exact hval) (by omega)

theorem incrBy_served (hs : ShowsCounter key v l s) (h : a.Matches v l) (delta exp : UInt64)
    (hsmall : a.Small (.incrBy delta exp)) :
    CalmlyEnds key ((CounterCall.incrBy delta exp).prog key) (Served key a (.incrBy delta exp)) s := by
  have hcount : a.count + delta.toNat < 4294967296 := hsmall.1
  have hredis := h.redis
  have hspent := h.spent
  have hdebt := h.debt_lt
  have hdelta : delta.toInt64.toInt = delta.toNat := toInt_toInt64 (by omega)
  have hn : (a.count : ℤ) - a.debt + delta.toNat = v.getD 0 + delta.toInt64.toInt := by rw [hredis, hdelta]
  refine (incrBy_ends hs (by omega) (by omega) (by omega) exp hn).bind fun s' r hr => ?_
  obtain ⟨rfl, hs'⟩ := hr
  have hzero : delta = 0 ↔ delta.toNat = 0 := by
    rw [← UInt64.toNat_inj]
    rfl
  have hval := MachineInt.toNat_uint32_ofInt ((a.count : ℤ) - a.debt + delta.toNat)
  have hiff : (if (a.count : ℤ) - a.debt + delta.toNat < 0 then (0 : UInt32)
      else UInt32.ofInt (a.count - a.debt + delta.toNat)).toNat = a.count + delta.toNat ↔
      a.debt = 0 ∨ delta = 0 := by
    rw [hzero]
    split_ifs
    · rw [UInt32.toNat_zero]
      omega
    · omega
  refine ⟨⟨?_, fun hfree => ⟨_, rfl, hiff.mpr hfree⟩⟩, fun hfree => ⟨_, _, hs', ?_⟩⟩
  · rintro ⟨w, hw, hright⟩
    cases hw
    exact hiff.mp hright
  · have hval64 := MachineInt.toNat_uint64_ofInt ((a.count : ℤ) - a.debt + delta.toNat)
    by_cases hdue : a.debt = 0
    · have hnext : a.next (.incrBy delta exp) = ⟨a.count + delta.toNat, 0, false⟩ := by
        rw [next, hdue]
        rfl
      have hv : (a.count - a.debt + delta.toNat : ℤ) = ((a.count + delta.toNat : ℕ) : ℤ) := by omega
      rw [hnext]
      rw [hv] at hval64 ⊢
      exact Matches.of_count (by omega) hcount
    · have hfree : delta = 0 := hfree.resolve_left hdue
      have hd : delta.toNat = 0 := hzero.mp hfree
      have hc : a.count = 0 := hspent (by omega)
      have hnext : a.next (.incrBy delta exp) = ⟨0, a.debt, true⟩ := by
        rw [next, hd, hc, decide_eq_true (Nat.pos_of_ne_zero hdue)]
      rw [hnext, hd, hc]
      exact {
        redis := by simp
        spent := fun _ => rfl
        l1 := fun x hx => by
          rw [← Option.some.inj hx, if_pos rfl]
          simp
        cached := fun _ => by simp
        stained := fun _ => Nat.pos_of_ne_zero hdue
        count_lt := by norm_num
        debt_lt := hdebt }

theorem set_served (hs : ShowsCounter key v l s) (value : UInt64) (exp : Option UInt64)
    (hsmall : a.Small (.set value exp)) :
    CalmlyEnds key ((CounterCall.set value exp).prog key) (Served key a (.set value exp)) s := by
  refine (set_ends hs value exp).bind fun s' r hr => ?_
  obtain ⟨rfl, hs'⟩ := hr
  exact ⟨iff_of_true rfl trivial, fun _ => ⟨_, _, hs', Matches.of_count rfl hsmall.1⟩⟩

theorem get_served (hs : ShowsCounter key v l s) (h : a.Matches v l) :
    CalmlyEnds key (CounterCall.get.prog key) (Served key a .get) s := by
  have hredis := h.redis
  have hspent := h.spent
  have hcount := h.count_lt
  have hdebt := h.debt_lt
  cases l with
  | some w =>
      refine (get_ends hs (fun hnone => by cases hnone)).imp fun s' r hr => ?_
      obtain ⟨rfl, hs'⟩ := hr
      have hw := h.l1 w rfl
      have hiff : w.toUInt32.toNat = a.count ↔ a.stained = false := by
        rw [UInt64.toNat_toUInt32]
        cases hst : a.stained with
        | false =>
            rw [hst, if_neg Bool.false_ne_true] at hw
            exact iff_of_true (by omega) rfl
        | true =>
            have hdue := h.stained hst
            have hval := MachineInt.toNat_uint64_ofInt (-(a.debt : ℤ))
            rw [hst, if_pos rfl] at hw
            rw [← hw] at hval
            refine iff_of_false ?_ (by simp)
            rw [hspent hdue]
            omega
      refine ⟨⟨?_, fun hfree => ⟨_, rfl, hiff.mpr hfree⟩⟩, fun _ => ⟨_, _, hs', h⟩⟩
      rintro ⟨o, ho, hright⟩
      cases ho
      exact hiff.mp hright
  | none =>
      have hfree : a.debt = 0 := by
        by_contra hdue
        exact h.cached (by omega) rfl
      have hst := h.unstained hfree
      refine (get_ends hs (fun _ n hn => ?_)).imp fun s' r hr => ?_
      · rw [Option.mem_def.mp hn, Option.getD_some] at hredis
        omega
      obtain ⟨rfl, hs'⟩ := hr
      cases v with
      | none =>
          rw [Option.getD_none] at hredis
          exact ⟨iff_of_true ⟨none, rfl, by rw [Option.elim_none]; omega⟩ hst, fun _ => ⟨_, _, hs', h⟩⟩
      | some n =>
          rw [Option.getD_some] at hredis
          have hn : n = (a.count : ℤ) := by omega
          have hval := MachineInt.toNat_uint32_ofInt n
          refine ⟨iff_of_true ⟨some (UInt32.ofInt n), rfl, ?_⟩ hst, fun _ =>
            ⟨_, _, hs', h.refilled hfree hn⟩⟩
          rw [Option.elim_some]
          omega

theorem refresh_served (hs : ShowsCounter key v l s) (h : a.Matches v l) :
    CalmlyEnds key (CounterCall.refresh.prog key) (Served key a .refresh) s := by
  refine (refresh_ends hs).bind fun s' r hr => ?_
  refine ⟨iff_of_true trivial trivial, fun _ => ?_⟩
  rcases hr with hs' | ⟨n, rfl, hn, hs'⟩
  · exact ⟨v, l, hs', h⟩
  · have hredis := h.redis
    have hspent := h.spent
    have hcount := h.count_lt
    rw [Option.getD_some] at hredis
    have hfree : a.debt = 0 := by
      by_contra hdue
      have := hspent (by omega)
      omega
    exact ⟨_, _, hs', h.refilled hfree (by omega)⟩

theorem served (hs : ShowsCounter key v l s) (h : a.Matches v l) (c : CounterCall) (hsmall : a.Small c) :
    CalmlyEnds key (c.prog key) (Served key a c) s := by
  cases c with
  | increment exp => exact increment_served hs h exp hsmall
  | decrement => exact decrement_served hs h hsmall
  | incrBy delta exp => exact incrBy_served hs h delta exp hsmall
  | set value exp => exact set_served hs value exp hsmall
  | get => exact get_served hs h
  | refresh => exact refresh_served hs h

end CounterAccount

/-! ### Sequences of calls -/

/-- The calls on one counter, one after the other, with the account of what was asked for. -/
abbrev counterStep (key : String) := sessionStep execStats (CounterCall.prog key) CounterAccount.next

/-- No command of the call fails, and nothing expires. -/
def CalmCall (key : String) (x : CounterAccount × StatsStore) (e : CounterCall × List Tick) : Prop :=
  (e.1.prog key).Along execStats (Calm key) e.2 x.2

/-- The call ends and returns what the natural number says. -/
def AnsweredRight (key : String) (x : CounterAccount × StatsStore) (e : CounterCall × List Tick) : Prop :=
  x.1.Answers e.1 ((e.1.prog key).runIn execStats e.2 x.2).1

/-- From a key that agrees with `n` on, every call answers like a natural number that starts at `n` exactly
when, until the counter is set again, nothing is added after a decrement at zero and no negative L1 entry
is read. -/
theorem answers_iff_solvent (key : String) {v : Option ℤ} {l : Option UInt64} {s : StatsStore} {n : ℕ}
    (hs : ShowsCounter key v l s) (hv : v.getD 0 = n) (hl : ∀ w ∈ l, w.toNat = n) (hn : n < 4294967296)
    (calls : List (CounterCall × List Tick))
    (hcalm : Runs.Meets (counterStep key) (CalmCall key) calls (⟨n, 0, false⟩, s))
    (hsmall : Runs.Meets (counterStep key) (fun x e => x.1.Small e.1) calls (⟨n, 0, false⟩, s)) :
    Runs.Meets (counterStep key) (AnsweredRight key) calls (⟨n, 0, false⟩, s) ↔
      Runs.Meets (counterStep key) (fun x e => x.1.Solvent e.1) calls (⟨n, 0, false⟩, s) := by
  have hserved : ∀ (x : CounterAccount × StatsStore) (e : CounterCall × List Tick),
      (∃ v l, ShowsCounter key v l x.2 ∧ x.1.Matches v l) → CalmCall key x e ∧ x.1.Small e.1 →
      ∃ r, ((e.1.prog key).runIn execStats e.2 x.2).1 = some r ∧
        x.1.Served key e.1 ((e.1.prog key).runIn execStats e.2 x.2).2 r := by
    rintro x e ⟨v, l, hs, hx⟩ ⟨hcalm, hsmall⟩
    exact (CounterAccount.served hs hx e.1 hsmall).along calmReply_exec hcalm
  refine Runs.meets_iff_meets_within (J := fun x => ∃ v l, ShowsCounter key v l x.2 ∧ x.1.Matches v l)
    (fun x e hx hfit => ?_) (fun x e x' hx hfit hok hstep => ?_) ?_ (Runs.meets_and.mpr ⟨hcalm, hsmall⟩)
  · obtain ⟨r, hr, hanswer, -⟩ := hserved x e hx hfit
    rw [AnsweredRight, hr]
    exact hanswer
  · obtain ⟨r, -, -, hkeep⟩ := hserved x e hx hfit
    obtain rfl := Option.some.inj hstep
    exact hkeep hok
  · exact ⟨v, l, hs, {
      redis := by simpa using hv
      spent := fun h => absurd h (Nat.lt_irrefl 0)
      l1 := hl
      cached := fun h => absurd h (Nat.lt_irrefl 0)
      stained := fun h => by cases h
      count_lt := hn
      debt_lt := by norm_num }⟩

instance (a : CounterAccount) (c : CounterCall) : Decidable (a.Small c) :=
  inferInstanceAs (Decidable (_ ∧ _))

instance (a : CounterAccount) : (c : CounterCall) → Decidable (a.Solvent c)
  | .increment _ => inferInstanceAs (Decidable (a.debt = 0))
  | .incrBy delta _ => inferInstanceAs (Decidable (a.debt = 0 ∨ delta = 0))
  | .get => inferInstanceAs (Decidable (a.stained = false))
  | .decrement | .set _ _ | .refresh => isTrue trivial

instance (key : String) (x : CounterAccount × StatsStore) (e : CounterCall × List Tick) :
    Decidable (CalmCall key x e) := inferInstanceAs (Decidable (Prog.Along _ _ _ _ _))

/-- Nothing is stored. -/
def emptyStats : StatsStore := ⟨⟨fun _ => none, fun _ => none⟩, fun _ => none⟩

def midnight : Tick := { clock := .ofSeconds 0 }

theorem emptyStats_shows (key : String) : ShowsCounter key none none emptyStats := ⟨rfl, rfl⟩

/-- Two alerts are counted, one is closed, and one is left. -/
def countedAlerts : List (CounterCall × List Tick) :=
  [.increment 60, .increment 60, .decrement, .get].map fun c => (c, List.replicate 4 midnight)

theorem countedAlerts_right : Runs.Meets (counterStep "stats:t1:active_alerts")
    (AnsweredRight "stats:t1:active_alerts") countedAlerts (⟨0, 0, false⟩, emptyStats) :=
  (answers_iff_solvent "stats:t1:active_alerts" (emptyStats_shows _) rfl (fun _ h => by cases h) (by norm_num)
    countedAlerts (by decide +kernel) (by decide +kernel)).mpr (by decide +kernel)

/-- An alert is closed while the counter is at zero, and the next one is not counted. -/
def uncountedAlert : List (CounterCall × List Tick) :=
  [.decrement, .increment 60].map fun c => (c, List.replicate 4 midnight)

theorem uncountedAlert_wrong :
    ¬∀ (key : String) (calls : List (CounterCall × List Tick)),
      Runs.Meets (counterStep key) (CalmCall key) calls (⟨0, 0, false⟩, emptyStats) →
      Runs.Meets (counterStep key) (fun x e => x.1.Small e.1) calls (⟨0, 0, false⟩, emptyStats) →
      Runs.Meets (counterStep key) (AnsweredRight key) calls (⟨0, 0, false⟩, emptyStats) := by
  intro hright
  obtain ⟨-, ⟨w, hw, hval⟩, -⟩ :=
    hright "stats:t1:active_alerts" uncountedAlert (by decide +kernel) (by decide +kernel)
  cases hw
  exact absurd hval (by decide +kernel)

end MiniSiem
