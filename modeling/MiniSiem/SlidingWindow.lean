import MiniSiem.Lib.KeyedList
import MiniSiem.Lib.RateLimit

/-! # The sliding-window limiter

`RedisCache::allow_sliding_window` of `db/redis.rs`, which guards logins and registrations.

* **Script.**  The script runs atomically on one key: a sorted set of the times of admitted calls
  with an expiry.  The member added for a call is the text of its time, so `ZADD` of a time that
  is in the set already adds nothing.
* **Clock.**  The reading of a call, in milliseconds, is also the time of the server.  Which windows
  `PEXPIRE` accepts depends on the server; a refused one fails the call after the `ZADD`.
* **Bound.**  `sliding_window_bounded`: when no call with room finds its own member in the set, no
  window holds more admitted calls than the limit.  `repeated_unbounded`: a call that does find it
  can be repeated without end. -/

namespace MiniSiem

/-! ### Numbers as text -/

/-- `n / d` to the nearest integer, ties to even. -/
def roundHalfEven (n d : ℕ) : ℕ :=
  let q := n / d
  let r := n % d
  if d < 2 * r ∨ (2 * r = d ∧ q % 2 = 1) then q + 1 else q

/-- `tostring` of a whole number in Lua: `%.14g`. -/
def luaToString (n : ℤ) : String :=
  if n.natAbs < 10 ^ 14 then toString n
  else
    let exponent := Nat.log 10 n.natAbs
    let digits := roundHalfEven n.natAbs (10 ^ (exponent - 13))
    let (digits, exponent) := if digits = 10 ^ 14 then (10 ^ 13, exponent + 1) else (digits, exponent)
    let fraction := ((toString digits).toList.tail.reverse.dropWhile (· = '0')).reverse
    let mantissa := String.ofList ((toString digits).toList.take 1 ++
      if fraction.isEmpty then [] else '.' :: fraction)
    (if n < 0 then "-" else "") ++ mantissa ++ "e+" ++ toString exponent

/-! ### The key of a limiter -/

/-- Members with their scores, every member once. -/
structure ScoreSet where
  entries : List (String × ℤ)
  distinct : (entries.map Prod.fst).Nodup

namespace ScoreSet

def empty : ScoreSet := ⟨[], List.nodup_nil⟩

/-- `ZADD`. -/
def zadd (s : ScoreSet) (score : ℤ) (member : String) : ScoreSet where
  entries := KeyedList.upsert Prod.fst (member, score) s.entries
  distinct := KeyedList.nodup_upsert Prod.fst s.distinct _

/-- `ZREMRANGEBYSCORE`. -/
def zremrangebyscore (s : ScoreSet) (lo hi : ℤ) : ScoreSet where
  entries := s.entries.filter fun e => !(lo ≤ e.2 && e.2 ≤ hi)
  distinct := s.distinct.sublist (List.filter_sublist.map _)

def zcard (s : ScoreSet) : ℕ := s.entries.length

/-- The member is in the set. -/
def contains (s : ScoreSet) (member : String) : Bool := s.entries.any fun e => e.1 = member

end ScoreSet

structure LimiterKey where
  set : ScoreSet
  expireAt : Option ℤ

def LimiterKey.live (k : LimiterKey) (now : ℤ) : Bool :=
  match k.expireAt with
  | some deadline => now ≤ deadline
  | none => true

section limiter

variable (pexpire : UInt64 → Bool) (windowMs : UInt64) (limit : UInt32)

/-- The key unless it has expired. -/
def liveKey (key : Option LimiterKey) (now : ℤ) : Option LimiterKey := key.filter fun k => k.live now

/-- The set after `ZREMRANGEBYSCORE`.  A window beyond the time since 1970 removes nothing, so the
rounding of large numbers in Lua makes no difference. -/
def keptSet (key : Option LimiterKey) (now : ℤ) : ScoreSet :=
  match liveKey key now with
  | some k => k.set.zremrangebyscore 0 (now - windowMs.toNat)
  | none => .empty

/-- `allow_sliding_window`: the reply, or nothing if the script fails, and the key it leaves. -/
def allowSlidingWindow (key : Option LimiterKey) (now : ℤ) : Option Bool × Option LimiterKey :=
  let set := keptSet windowMs key now
  let expireAt := if set.entries.isEmpty then none else (liveKey key now).bind (·.expireAt)
  if set.zcard < limit.toNat then
    let added := set.zadd now (luaToString now)
    if !pexpire windowMs then (none, some ⟨added, expireAt⟩)
    else (some true, if windowMs = 0 then none else some ⟨added, some (now + windowMs.toNat)⟩)
  else (some false, if set.entries.isEmpty then none else some ⟨set, expireAt⟩)

/-! ### Sequences of calls -/

/-- The readings of the calls that returned true, and the key. -/
structure LimiterRun where
  admitted : List ℤ
  key : Option LimiterKey

def LimiterRun.call (s : LimiterRun) (now : ℤ) : LimiterRun :=
  let (reply, key) := allowSlidingWindow pexpire windowMs limit s.key now
  { admitted := if reply = some true then s.admitted ++ [now] else s.admitted, key }

def runLimiter (calls : List ℤ) (s : LimiterRun) : LimiterRun :=
  calls.foldl (LimiterRun.call pexpire windowMs limit) s

/-- A call with room in the set does not find its own member there. -/
def FreshMember (s : LimiterRun) (now : ℤ) : Prop :=
  (keptSet windowMs s.key now).zcard < limit.toNat →
    (keptSet windowMs s.key now).contains (luaToString now) = false

instance (s : LimiterRun) (now : ℤ) : Decidable (FreshMember windowMs limit s now) :=
  inferInstanceAs (Decidable (_ → _))

/-- Every call of the sequence is such a call. -/
def FreshMembers : List ℤ → LimiterRun → Prop
  | [], _ => True
  | now :: calls, s =>
      FreshMember windowMs limit s now ∧
        FreshMembers calls (s.call pexpire windowMs limit now)

instance instDecidableFreshMembers : (calls : List ℤ) → (s : LimiterRun) →
    Decidable (FreshMembers pexpire windowMs limit calls s)
  | [], _ => isTrue trivial
  | now :: calls, s =>
      @instDecidableAnd _ _ _ (instDecidableFreshMembers calls (s.call pexpire windowMs limit now))

def noCalls : LimiterRun := ⟨[], none⟩

end limiter

/-! ### The set after a call -/

namespace ScoreSet

theorem zadd_of_not_contains {s : ScoreSet} {member : String} (h : s.contains member = false)
    (score : ℤ) : (s.zadd score member).entries = s.entries ++ [(member, score)] :=
  KeyedList.upsert_of_new Prod.fst h

theorem zadd_of_contains {s : ScoreSet} {member : String} (h : s.contains member = true)
    (score : ℤ) : (s.zadd score member).entries =
      KeyedList.updateKey Prod.fst member (fun _ => (member, score)) s.entries :=
  KeyedList.upsert_of_known Prod.fst h

end ScoreSet

/-- The entries that `ZREMRANGEBYSCORE` keeps at a time. -/
def keptEntries (windowMs : UInt64) (now : ℤ) (entries : List (String × ℤ)) : List (String × ℤ) :=
  entries.filter fun e => !(0 ≤ e.2 && e.2 ≤ now - (windowMs.toNat : ℤ))

/-- The admissions of the last window. -/
def recentTimes (windowMs : UInt64) (now : ℤ) (times : List ℤ) : List ℤ :=
  times.filter fun t => now - (windowMs.toNat : ℤ) < t

section kept

variable {windowMs : UInt64} {now later : ℤ}

theorem toNat_pos_of_ne_zero (h : windowMs ≠ 0) : 0 < windowMs.toNat :=
  Nat.pos_of_ne_zero fun hzero => h (UInt64.toNat_inj.mp hzero)

theorem keptSet_entries (windowMs : UInt64) (key : Option LimiterKey) (now : ℤ) :
    (keptSet windowMs key now).entries = match liveKey key now with
      | some k => keptEntries windowMs now k.set.entries
      | none => [] := by
  unfold keptSet
  cases liveKey key now <;> rfl

/-- Trimming twice is trimming at the later time. -/
theorem keptEntries_keptEntries (hle : now ≤ later) (entries : List (String × ℤ)) :
    keptEntries windowMs later (keptEntries windowMs now entries) =
      keptEntries windowMs later entries := by
  unfold keptEntries
  rw [List.filter_filter]
  refine List.filter_congr fun e _ => ?_
  rw [Bool.and_eq_left_iff_imp]
  intro he
  simp only [Bool.not_eq_true', Bool.and_eq_false_iff, decide_eq_false_iff_not] at he ⊢
  omega

theorem recentTimes_recentTimes (hle : now ≤ later) (times : List ℤ) :
    recentTimes windowMs later (recentTimes windowMs now times) =
      recentTimes windowMs later times := by
  unfold recentTimes
  rw [List.filter_filter]
  refine List.filter_congr fun t _ => ?_
  rw [Bool.and_eq_left_iff_imp]
  intro ht
  rw [decide_eq_true_eq] at ht ⊢
  omega

/-- Trimming at a later time keeps the recent scores. -/
theorem recentTimes_sublist {times : List ℤ} {entries : List (String × ℤ)}
    (h : (recentTimes windowMs now times).Sublist (entries.map Prod.snd)) (hle : now ≤ later) :
    (recentTimes windowMs later times).Sublist
      ((keptEntries windowMs later entries).map Prod.snd) := by
  rw [← recentTimes_recentTimes hle]
  refine (h.filter _).trans ?_
  rw [List.filter_map]
  refine (List.monotone_filter_right _ ?_).map _
  intro e he
  simp only [Function.comp_apply, decide_eq_true_eq] at he
  simp only [Bool.not_eq_true', Bool.and_eq_false_iff, decide_eq_false_iff_not]
  omega

/-- A key that has expired stays so. -/
theorem liveKey_later {key : Option LimiterKey} (h : liveKey key now = none) (hle : now ≤ later) :
    liveKey key later = none := by
  unfold liveKey LimiterKey.live at h ⊢
  rw [Option.filter_eq_none_iff] at h ⊢
  intro k hk
  have hexpired := h k hk
  cases hdeadline : k.expireAt with
  | none =>
      rw [hdeadline] at hexpired
      exact absurd rfl hexpired
  | some deadline =>
      rw [hdeadline] at hexpired
      simp only [decide_eq_true_eq] at hexpired ⊢
      omega

end kept

/-! ### The bound -/

section bound

variable {pexpire : UInt64 → Bool} {windowMs : UInt64} {limit : UInt32}

/-- A rejected call only trims the set. -/
theorem keptSet_rejected {key : Option LimiterKey} {now later : ℤ}
    (hfull : ¬ (keptSet windowMs key now).zcard < limit.toNat) (hle : now ≤ later) :
    (keptSet windowMs (allowSlidingWindow pexpire windowMs limit key now).2 later).entries =
      (keptSet windowMs key later).entries := by
  have hset := keptSet_entries windowMs key now
  unfold allowSlidingWindow
  dsimp only
  rw [if_neg hfull, keptSet_entries, keptSet_entries windowMs key later]
  cases hlive : liveKey key now with
  | none =>
      rw [hlive] at hset
      rw [hset, liveKey_later hlive hle]
      rfl
  | some k =>
      rw [hlive] at hset
      dsimp only at hset ⊢
      obtain ⟨hkey, -⟩ := Option.filter_eq_some_iff.mp hlive
      have hlater : liveKey key later = if k.live later then some k else none := by
        unfold liveKey
        rw [hkey]
        rfl
      rw [hlater]
      by_cases hempty : (keptSet windowMs key now).entries.isEmpty = true
      · -- the key is gone, and later nothing would be left of it
        rw [if_pos hempty]
        split_ifs
        · dsimp only
          rw [← keptEntries_keptEntries hle, ← hset, List.isEmpty_iff.mp hempty]
          rfl
        · rfl
      · rw [if_neg hempty, if_neg hempty]
        have hlive' : liveKey (some ⟨keptSet windowMs key now, (some k).bind (·.expireAt)⟩) later =
            if k.live later then some ⟨keptSet windowMs key now, k.expireAt⟩ else none := rfl
        rw [hlive']
        split_ifs
        · dsimp only
          rw [hset, keptEntries_keptEntries hle]
        · rfl

/-- An admitted call leaves its set with the new entry, as long as the window lasts. -/
theorem keptSet_admitted {key : Option LimiterKey} {now later : ℤ}
    (hroom : (keptSet windowMs key now).zcard < limit.toNat) (hpexpire : pexpire windowMs = true)
    (hwindow : windowMs ≠ 0) (hle : later ≤ now + windowMs.toNat) :
    (keptSet windowMs (allowSlidingWindow pexpire windowMs limit key now).2 later).entries =
      keptEntries windowMs later ((keptSet windowMs key now).zadd now (luaToString now)).entries := by
  unfold allowSlidingWindow
  dsimp only
  rw [if_pos hroom, hpexpire, if_neg hwindow, keptSet_entries]
  have hlive : liveKey (some ⟨(keptSet windowMs key now).zadd now (luaToString now),
      some (now + windowMs.toNat)⟩) later =
        some ⟨(keptSet windowMs key now).zadd now (luaToString now), some (now + windowMs.toNat)⟩ := by
    unfold liveKey
    exact Option.filter_some_pos (decide_eq_true hle)
  rw [if_neg (by decide), hlive]

/-- The admitted calls of the last window have entries of their own, now and later. -/
structure Remembered (pexpire : UInt64 → Bool) (windowMs : UInt64) (last : ℤ) (s : LimiterRun) :
    Prop where
  past : ∀ t ∈ s.admitted, t ≤ last
  refused : pexpire windowMs = false → s.admitted = []
  entries : ∀ now, last ≤ now → (recentTimes windowMs now s.admitted).Sublist
    ((keptSet windowMs s.key now).entries.map Prod.snd)

theorem remembered_noCalls (last : ℤ) : Remembered pexpire windowMs last noCalls := by
  refine ⟨fun t ht => ?_, fun _ => rfl, fun now _ => List.nil_sublist _⟩
  exact (List.not_mem_nil ht).elim

/-- What a call does to the admissions. -/
theorem call_admitted (s : LimiterRun) (now : ℤ) :
    (s.call pexpire windowMs limit now).admitted =
      if (keptSet windowMs s.key now).zcard < limit.toNat ∧ pexpire windowMs = true then
        s.admitted ++ [now] else s.admitted := by
  unfold LimiterRun.call allowSlidingWindow
  dsimp only
  by_cases hroom : (keptSet windowMs s.key now).zcard < limit.toNat
  · rw [if_pos hroom]
    cases hpexpire : pexpire windowMs with
    | true => simp [hroom]
    | false => simp [hroom]
  · rw [if_neg hroom]
    simp [hroom]

/-- An admitted call finds no more than the set holds, and leaves its own entry. -/
theorem recentTimes_admitted {last now later : ℤ} {s : LimiterRun}
    (h : Remembered pexpire windowMs last s) (hle : last ≤ now) (hlater : now ≤ later)
    (hroom : (keptSet windowMs s.key now).zcard < limit.toNat) (hpexpire : pexpire windowMs = true)
    (hfresh : (keptSet windowMs s.key now).contains (luaToString now) = false) :
    (recentTimes windowMs later (s.admitted ++ [now])).Sublist ((keptSet windowMs
      (allowSlidingWindow pexpire windowMs limit s.key now).2 later).entries.map Prod.snd) := by
  by_cases hgone : later < now + windowMs.toNat
  · have hwindow : windowMs ≠ 0 := by
      rintro rfl
      have hzero : (0 : UInt64).toNat = 0 := rfl
      rw [hzero] at hgone
      omega
    rw [keptSet_admitted hroom hpexpire hwindow (by omega)]
    refine recentTimes_sublist ?_ hlater
    rw [ScoreSet.zadd_of_not_contains hfresh]
    unfold recentTimes
    rw [List.filter_append, List.map_append]
    exact (h.entries now hle).append List.filter_sublist
  · -- every admission is older than the window
    have hnone : recentTimes windowMs later (s.admitted ++ [now]) = [] := by
      unfold recentTimes
      rw [List.filter_eq_nil_iff]
      intro t ht
      rw [decide_eq_true_eq]
      have hpast : t ≤ now := by
        rcases List.mem_append.mp ht with ht | ht
        · exact (h.past t ht).trans hle
        · exact (List.mem_singleton.mp ht).le
      omega
    rw [hnone]
    exact List.nil_sublist _

theorem Remembered.call {last now : ℤ} {s : LimiterRun} (h : Remembered pexpire windowMs last s)
    (hle : last ≤ now) (hfresh : FreshMember windowMs limit s now) :
    Remembered pexpire windowMs now (s.call pexpire windowMs limit now) := by
  have hkey : (s.call pexpire windowMs limit now).key =
      (allowSlidingWindow pexpire windowMs limit s.key now).2 := rfl
  have hpast : ∀ t ∈ s.admitted, t ≤ now := fun t ht => (h.past t ht).trans hle
  by_cases hroom : (keptSet windowMs s.key now).zcard < limit.toNat
  · by_cases hpexpire : pexpire windowMs = true
    · have hadmitted : (s.call pexpire windowMs limit now).admitted = s.admitted ++ [now] := by
        rw [call_admitted, if_pos ⟨hroom, hpexpire⟩]
      refine ⟨?_, fun hrefused => absurd hpexpire (by rw [hrefused]; exact Bool.false_ne_true), ?_⟩
      · rw [hadmitted]
        intro t ht
        rcases List.mem_append.mp ht with ht | ht
        · exact hpast t ht
        · exact (List.mem_singleton.mp ht).le
      · rw [hadmitted, hkey]
        exact fun later hlater =>
          recentTimes_admitted h hle hlater hroom hpexpire (hfresh hroom)
    · have hnone : (s.call pexpire windowMs limit now).admitted = [] := by
        rw [call_admitted, if_neg fun hboth => hpexpire hboth.2]
        exact h.refused (Bool.eq_false_iff.mpr hpexpire)
      refine ⟨?_, fun _ => hnone, ?_⟩
      · rw [hnone]
        exact fun t ht => (List.not_mem_nil ht).elim
      · rw [hnone]
        exact fun later _ => List.nil_sublist _
  · have hadmitted : (s.call pexpire windowMs limit now).admitted = s.admitted := by
      rw [call_admitted, if_neg fun hboth => hroom hboth.1]
    refine ⟨?_, ?_, ?_⟩
    · rw [hadmitted]
      exact hpast
    · rw [hadmitted]
      exact h.refused
    · rw [hadmitted, hkey]
      intro later hlater
      rw [keptSet_rejected hroom hlater]
      exact h.entries later (hle.trans hlater)

/-- A call with room and a fresh member keeps the bound. -/
theorem atMost_call {last now : ℤ} {s : LimiterRun} (h : Remembered pexpire windowMs last s)
    (hle : last ≤ now) (hbound : RateLimit.AtMost windowMs.toNat limit.toNat s.admitted) :
    RateLimit.AtMost windowMs.toNat limit.toNat (s.call pexpire windowMs limit now).admitted := by
  rw [call_admitted]
  split_ifs with hadmitted
  · apply hbound.append
    have hlength := (h.entries now hle).length_le
    rw [List.length_map] at hlength
    exact lt_of_le_of_lt hlength hadmitted.1
  · exact hbound

/-- **The bound of the limiter**: in a sequence of calls at times that do not go back, no window
holds more admitted calls than the limit, if no call with room finds its own member in the set. -/
theorem sliding_window_bounded (pexpire : UInt64 → Bool) (windowMs : UInt64) (limit : UInt32)
    (calls : List ℤ) (hsorted : calls.Pairwise (· ≤ ·))
    (hfresh : FreshMembers pexpire windowMs limit calls noCalls) :
    RateLimit.AtMost windowMs.toNat limit.toNat
      (runLimiter pexpire windowMs limit calls noCalls).admitted := by
  have hrun : ∀ (calls : List ℤ) (s : LimiterRun) (last : ℤ), calls.Pairwise (· ≤ ·) →
      (∀ t ∈ calls, last ≤ t) → FreshMembers pexpire windowMs limit calls s →
      Remembered pexpire windowMs last s → RateLimit.AtMost windowMs.toNat limit.toNat s.admitted →
      RateLimit.AtMost windowMs.toNat limit.toNat
        (runLimiter pexpire windowMs limit calls s).admitted := by
    intro calls
    induction calls with
    | nil => exact fun s last _ _ _ _ hbound => hbound
    | cons now calls ih =>
        intro s last hsorted hlast hfresh hremembered hbound
        obtain ⟨hfirst, hsorted⟩ := List.pairwise_cons.mp hsorted
        have hle := hlast now List.mem_cons_self
        exact ih _ now hsorted hfirst hfresh.2 (hremembered.call hle hfresh.1)
          (atMost_call hremembered hle hbound)
  cases calls with
  | nil => exact RateLimit.AtMost.nil
  | cons now calls =>
      refine hrun (now :: calls) noCalls now hsorted ?_ hfresh (remembered_noCalls now)
        RateLimit.AtMost.nil
      intro t ht
      rcases List.mem_cons.mp ht with rfl | ht
      · exact le_rfl
      · exact (List.pairwise_cons.mp hsorted).1 t ht

/-! ### Repeated readings -/

/-- There is room, and the member of the reading is in the set. -/
structure Stuck (windowMs : UInt64) (limit : UInt32) (s : LimiterRun) (now : ℤ) : Prop where
  room : (keptSet windowMs s.key now).zcard < limit.toNat
  found : (keptSet windowMs s.key now).contains (luaToString now) = true

/-- The call is admitted, and the next one at the same time finds the same. -/
theorem Stuck.call (hpexpire : pexpire windowMs = true) (hwindow : windowMs ≠ 0) {s : LimiterRun}
    {now : ℤ} (h : Stuck windowMs limit s now) :
    (s.call pexpire windowMs limit now).admitted = s.admitted ++ [now] ∧
      Stuck windowMs limit (s.call pexpire windowMs limit now) now := by
  have hpositive := toNat_pos_of_ne_zero hwindow
  have hkept : ∀ e ∈ (keptSet windowMs s.key now).entries,
      (!(decide (0 ≤ e.2) && decide (e.2 ≤ now - (windowMs.toNat : ℤ)))) = true := by
    intro e he
    rw [keptSet_entries] at he
    cases hlive : liveKey s.key now with
    | none =>
        rw [hlive] at he
        exact (List.not_mem_nil he).elim
    | some k =>
        rw [hlive] at he
        have hpair := List.mem_filter.mp he
        exact hpair.2
  have hafter : (keptSet windowMs (s.call pexpire windowMs limit now).key now).entries =
      KeyedList.updateKey Prod.fst (luaToString now) (fun _ => (luaToString now, now))
        (keptSet windowMs s.key now).entries := by
    have hkey : (s.call pexpire windowMs limit now).key =
        (allowSlidingWindow pexpire windowMs limit s.key now).2 := rfl
    rw [hkey, keptSet_admitted h.room hpexpire hwindow (by omega), ScoreSet.zadd_of_contains h.found]
    unfold keptEntries KeyedList.updateKey
    rw [List.filter_eq_self]
    intro e he
    obtain ⟨d, hd, rfl⟩ := List.mem_map.mp he
    split_ifs
    · simp only [Bool.not_eq_true', Bool.and_eq_false_iff, decide_eq_false_iff_not]
      omega
    · exact hkept d hd
  refine ⟨?_, ?_, ?_⟩
  · rw [call_admitted, if_pos ⟨h.room, hpexpire⟩]
  · have hroom := h.room
    unfold ScoreSet.zcard at hroom ⊢
    rw [hafter, KeyedList.length_updateKey]
    exact hroom
  · have hfound := h.found
    unfold ScoreSet.contains at hfound ⊢
    obtain ⟨e, he, hmember⟩ := List.any_eq_true.mp hfound
    rw [hafter, List.any_eq_true]
    refine ⟨(luaToString now, now), ?_, decide_eq_true rfl⟩
    unfold KeyedList.updateKey
    rw [List.mem_map]
    exact ⟨e, he, if_pos (of_decide_eq_true hmember)⟩

/-- A call with room that finds its own member can be repeated until the bound is broken. -/
theorem repeated_unbounded (hpexpire : pexpire windowMs = true) (hwindow : windowMs ≠ 0)
    {s : LimiterRun} {now : ℤ} (h : Stuck windowMs limit s now) :
    ∃ n, ¬ RateLimit.AtMost windowMs.toNat limit.toNat
      (runLimiter pexpire windowMs limit (List.replicate n now) s).admitted := by
  have hrepeat : ∀ (n : ℕ) (s : LimiterRun), Stuck windowMs limit s now →
      (runLimiter pexpire windowMs limit (List.replicate n now) s).admitted =
        s.admitted ++ List.replicate n now := by
    intro n
    induction n with
    | zero => exact fun s _ => (List.append_nil _).symm
    | succ n ih =>
        intro s hs
        obtain ⟨hadmitted, hnext⟩ := hs.call hpexpire hwindow
        have hrest := ih _ hnext
        rw [hadmitted, List.append_assoc] at hrest
        exact hrest
  refine ⟨limit.toNat + 1, fun hbound => ?_⟩
  have hcount := hbound now
  rw [hrepeat _ s h] at hcount
  unfold RateLimit.within at hcount
  have hpositive := toNat_pos_of_ne_zero hwindow
  have hall : (List.replicate (limit.toNat + 1) now).filter
      (fun t => now ≤ t ∧ t < now + windowMs.toNat) = List.replicate (limit.toNat + 1) now := by
    rw [List.filter_eq_self]
    intro t ht
    rw [List.eq_of_mem_replicate ht, decide_eq_true_eq]
    omega
  rw [List.filter_append, hall, List.length_append, List.length_replicate] at hcount
  omega

end bound

/-! ### Attempts to log in -/

/-- A server that takes every expiry up to a century. -/
def samplePexpire (windowMs : UInt64) : Bool := windowMs ≤ 3153600000000

/-- Five attempts within a minute, each in a millisecond of its own, and one more. -/
theorem distinctLogins_bounded :
    RateLimit.AtMost (60000 : UInt64).toNat (5 : UInt32).toNat
      (runLimiter samplePexpire 60000 5 [1000, 1001, 1002, 1003, 1004, 1005] noCalls).admitted :=
  sliding_window_bounded samplePexpire 60000 5 [1000, 1001, 1002, 1003, 1004, 1005] (by decide)
    (by decide +kernel)

/-- Six attempts within one millisecond are all admitted. -/
theorem sameMillisecond_unbounded :
    ¬ ∀ (pexpire : UInt64 → Bool) (windowMs : UInt64) (limit : UInt32) (calls : List ℤ),
      calls.Pairwise (· ≤ ·) → RateLimit.AtMost windowMs.toNat limit.toNat
        (runLimiter pexpire windowMs limit calls noCalls).admitted := by
  intro h
  have hcount := h samplePexpire 60000 5 (List.replicate 6 1000) (by decide) 1000
  revert hcount
  decide +kernel

end MiniSiem
