import MiniSiem.Cache
import MiniSiem.Lib.Guarantees

/-! # A cache that fails and forgets

The cache of `Cache.lean` behind a connection that may break, on a server that may drop keys.

* **Forgetting.**  `Erodes`: any keys may be gone, because they expired or the server evicted them.
* **Answers.**  `CacheCall.Answers`: before a call the cache may forget; then the call is done, refused,
  done with its reply lost, or, for `set_string`, done without the `EXPIRE` that follows its `SET`.
  No caller looks at the error of a failed call, so any error stands for it. -/

namespace MiniSiem

open Atomic

variable {T : Type}

/-- Some keys may be gone. -/
def Cache.Erodes (s s' : Cache T) : Prop := ∀ key, s' key = s key ∨ s' key = none

/-- What a call on a cache may come to. -/
inductive CacheCall.Answers : Cache T → (c : CacheCall T) → c.Reply → Cache T → Prop where
  | done {s s₁ : Cache T} (c : CacheCall T) (h : s.Erodes s₁) :
      Answers s c (Cache.exec c s₁).1 (Cache.exec c s₁).2
  | refused {s s₁ : Cache T} (c : CacheCall T) (e : CacheError) (h : s.Erodes s₁) :
      Answers s c (.error e) s₁
  | lost {s s₁ : Cache T} (c : CacheCall T) (e : CacheError) (h : s.Erodes s₁) :
      Answers s c (.error e) (Cache.exec c s₁).2
  | halfway {s s₁ : Cache T} (key : String) (value : T) (ttl : ℕ) (e : CacheError)
      (h : s.Erodes s₁) : Answers s (.setString key value (some ttl)) (.error e)
        (Function.update s₁ key (some ⟨.text value, none⟩))

/-- The cases of an answer, over the cache that has forgotten. -/
theorem CacheCall.Answers.cases {s s' : Cache T} {c : CacheCall T} {r : c.Reply}
    (h : c.Answers s r s') : ∃ s₁, s.Erodes s₁ ∧
      ((r = (Cache.exec c s₁).1 ∧ s' = (Cache.exec c s₁).2) ∨ ∃ e, r = .error e ∧
        (s' = s₁ ∨ s' = (Cache.exec c s₁).2 ∨ ∃ key value ttl,
          c = .setString key value (some ttl) ∧
          s' = Function.update s₁ key (some ⟨.text value, none⟩))) := by
  cases h with
  | done _ h => exact ⟨_, h, Or.inl ⟨rfl, rfl⟩⟩
  | refused _ e h => exact ⟨_, h, Or.inr ⟨e, rfl, Or.inl rfl⟩⟩
  | lost _ e h => exact ⟨_, h, Or.inr ⟨e, rfl, Or.inr (Or.inl rfl)⟩⟩
  | halfway key value ttl e h =>
      exact ⟨_, h, Or.inr ⟨e, rfl, Or.inr (Or.inr ⟨key, value, ttl, rfl, rfl⟩)⟩⟩

theorem Cache.erodes_refl (s : Cache T) : s.Erodes s := fun _ => Or.inl rfl

/-- A call that is done at once. -/
theorem CacheCall.answers_exec (s : Cache T) (c : CacheCall T) :
    c.Answers s (Cache.exec c s).1 (Cache.exec c s).2 := .done c s.erodes_refl

/-- A key that a call does not write is kept or forgotten. -/
theorem CacheCall.Answers.frame {s s' : Cache T} {c : CacheCall T} {r : c.Reply}
    (h : c.Answers s r s') {key : String} (hc : c.writes ≠ some key) :
    s' key = s key ∨ s' key = none := by
  cases h with
  | done _ h =>
      rw [Cache.exec_frame c _ hc]
      exact h key
  | refused _ e h => exact h key
  | lost _ e h =>
      rw [Cache.exec_frame c _ hc]
      exact h key
  | halfway k v ttl e h =>
      rw [Function.update_of_ne (fun hk => hc (by rw [hk]; rfl))]
      exact h key

/-- The texts outside of the key `idx` are kept or forgotten. -/
def Cache.Keeps (idx : String) (s s' : Cache T) : Prop :=
  ∀ key, key ≠ idx → s' key = s key ∨ s' key = none

/-- A call that stores no text and changes no other sorted set than `idx`. -/
def CacheCall.Quiet (idx : String) : CacheCall T → Prop
  | getString _ | deleteKey _ | zcard _ => True
  | setString _ _ _ => False
  | expireKey key _ | zadd key _ _ | zpopmin key | zrem key _ => key = idx

theorem CacheCall.Answers.keeps {idx : String} {s s' : Cache T} {c : CacheCall T} {r : c.Reply}
    (h : c.Answers s r s') (hc : c.Quiet idx) : Cache.Keeps idx s s' := by
  intro key hkey
  cases c with
  | getString k => exact h.frame nofun
  | zcard k => exact h.frame nofun
  | setString k v ttl => exact hc.elim
  | expireKey k ttl => exact h.frame fun he => hkey ((Option.some.inj he).symm.trans hc)
  | zadd k m sc => exact h.frame fun he => hkey ((Option.some.inj he).symm.trans hc)
  | zpopmin k => exact h.frame fun he => hkey ((Option.some.inj he).symm.trans hc)
  | zrem k m => exact h.frame fun he => hkey ((Option.some.inj he).symm.trans hc)
  | deleteKey k =>
      by_cases hk : k = key
      · subst hk
        cases h with
        | done _ h => exact Or.inr (Function.update_self _ _ _)
        | refused _ e h => exact h k
        | lost _ e h => exact Or.inr (Function.update_self _ _ _)
      · exact h.frame fun he => hk (Option.some.inj he)

/-- What a `set_string` leaves at its key: the text, or what was there. -/
theorem CacheCall.Answers.setString {s s' : Cache T} {key : String} {value : T} {ttl : Option ℕ}
    {r : Except CacheError Unit} (h : (CacheCall.setString key value ttl).Answers s r s') :
    (∃ ttl', s' key = some ⟨.text value, ttl'⟩) ∨ s' key = s key ∨ s' key = none := by
  cases h with
  | done _ h => exact Or.inl ⟨ttl, Function.update_self _ _ _⟩
  | refused _ e h => exact Or.inr (h key)
  | lost _ e h => exact Or.inl ⟨ttl, Function.update_self _ _ _⟩
  | halfway _ _ ttl e h => exact Or.inl ⟨none, Function.update_self _ _ _⟩

/-- What a successful read returns is in the cache it leaves. -/
theorem CacheCall.Answers.getString {s s' : Cache T} {key : String} {text : Option T}
    (h : (CacheCall.getString key).Answers s (.ok text) s') : s'.getString key = .ok text := by
  generalize hr : (Except.ok text : (CacheCall.getString (T := T) key).Reply) = r at h
  cases h with
  | done _ h => rfl
  | refused _ e h => cases hr
  | lost _ e h => cases hr

theorem Cache.getString_congr {s s' : Cache T} {key : String} (h : s' key = s key) :
    s'.getString key = s.getString key := by
  unfold Cache.getString
  rw [h]

theorem Cache.Erodes.text {s s' : Cache T} (h : s.Erodes s') {key : String} {t : T}
    (ht : s'.getString key = .ok (some t)) : s.getString key = .ok (some t) := by
  rcases h key with hk | hk
  · rw [← Cache.getString_congr hk]
    exact ht
  · unfold Cache.getString at ht
    rw [hk] at ht
    cases ht

/-- A text that a sorted set's call leaves was there before. -/
theorem Cache.text_of_onZset {α : Type} {s : Cache T} {key k : String} {f : ZSet → α × ZSet} {t : T}
    (h : (s.onZset k f).2.getString key = .ok (some t)) : s.getString key = .ok (some t) := by
  by_cases hk : key = k
  · subst hk
    unfold Cache.onZset at h
    cases hz : s.zsetAt key with
    | error e =>
        rw [hz] at h
        exact h
    | ok z =>
        rw [hz] at h
        unfold Cache.getString at h
        simp only [Function.update_self] at h
        split_ifs at h
        cases h
  · rwa [Cache.getString_congr (s.onZset_frame f hk)] at h

theorem Cache.text_of_exec {c : CacheCall T} {s : Cache T} {key : String} {t : T}
    (h : (Cache.exec c s).2.getString key = .ok (some t)) :
    s.getString key = .ok (some t) ∨ ∃ ttl, c = .setString key t ttl := by
  by_cases hc : c.writes = some key
  · cases c with
    | getString k => exact Or.inl h
    | zcard k => exact Or.inl h
    | zadd k m sc => exact Or.inl (Cache.text_of_onZset h)
    | zpopmin k => exact Or.inl (Cache.text_of_onZset h)
    | zrem k m => exact Or.inl (Cache.text_of_onZset h)
    | setString k v ttl =>
        obtain rfl := Option.some.inj hc
        unfold Cache.getString Cache.exec at h
        simp only [Function.update_self] at h
        cases h
        exact Or.inr ⟨ttl, rfl⟩
    | deleteKey k =>
        obtain rfl := Option.some.inj hc
        unfold Cache.getString Cache.exec at h
        simp only [Function.update_self] at h
        cases h
    | expireKey k ttl =>
        obtain rfl := Option.some.inj hc
        unfold Cache.getString Cache.exec at h
        unfold Cache.getString
        simp only [Function.update_self] at h
        cases hk : s k with
        | none =>
            rw [hk] at h
            cases h
        | some e =>
            obtain ⟨value, old⟩ := e
            rw [hk] at h
            cases value with
            | text v => exact Or.inl h
            | zset z => cases h
  · exact Or.inl (by rwa [Cache.getString_congr (Cache.exec_frame c s hc)] at h)

/-- A text that a call leaves was there before, unless the call stores it. -/
theorem CacheCall.Answers.text {s s' : Cache T} {c : CacheCall T} {r : c.Reply}
    (h : c.Answers s r s') {key : String} {t : T} (ht : s'.getString key = .ok (some t)) :
    s.getString key = .ok (some t) ∨ ∃ ttl, c = .setString key t ttl := by
  obtain ⟨s₁, herodes, ⟨-, rfl⟩ | ⟨e, -, rfl | rfl | ⟨k, v, ttl, rfl, rfl⟩⟩⟩ := h.cases
  · exact (Cache.text_of_exec ht).imp_left herodes.text
  · exact Or.inl (herodes.text ht)
  · exact (Cache.text_of_exec ht).imp_left herodes.text
  · by_cases hk : key = k
    · subst hk
      unfold Cache.getString at ht
      simp only [Function.update_self] at ht
      cases ht
      exact Or.inr ⟨some ttl, rfl⟩
    · rw [Cache.getString_congr (Function.update_of_ne hk _ _)] at ht
      exact Or.inl (herodes.text ht)

namespace CacheM

variable {α β : Type} {G : Cache T → Cache T → Prop} {Q : Cache T → Except CacheError β → Prop}
  {idx : String} {s : Cache T}

/-- The rule of a quiet call: the texts are kept or forgotten, whatever comes of it. -/
theorem guarantees_quiet {c : CacheCall T} (hc : c.Quiet idx) {f : c.Out → CacheM T β}
    (hG : ∀ s', Cache.Keeps idx s s' → G s s')
    (herror : ∀ s' e, Cache.Keeps idx s s' → Q s' (.error e))
    (hf : ∀ s' a, Cache.Keeps idx s s' → (f a).Guarantees CacheCall.Answers G Q s') :
    ((single c).andThen f).Guarantees CacheCall.Answers G Q s := by
  intro reply s' h
  have hkeeps := h.keeps hc
  refine ⟨hG s' hkeeps, ?_⟩
  cases reply with
  | error e => exact herror s' e hkeeps
  | ok a => exact hf s' a hkeeps

/-- The rule of a quiet call whose result is ignored. -/
theorem guarantees_ignore {c : CacheCall T} (hc : c.Quiet idx) {f : Unit → CacheM T β}
    (hG : ∀ s', Cache.Keeps idx s s' → G s s')
    (hf : ∀ s', Cache.Keeps idx s s' → (f ()).Guarantees CacheCall.Answers G Q s') :
    ((single c).ignore.andThen f).Guarantees CacheCall.Answers G Q s := by
  intro reply s' h
  have hkeeps := h.keeps hc
  exact ⟨hG s' hkeeps, hf s' hkeeps⟩

end CacheM

/-! ### Texts with a note -/

variable {U : Type}

/-- The call with another kind of texts. -/
def CacheCall.map (f : T → U) : CacheCall T → CacheCall U
  | getString key => .getString key
  | setString key value expiry => .setString key (f value) expiry
  | deleteKey key => .deleteKey key
  | expireKey key ttl => .expireKey key ttl
  | zadd key member score => .zadd key member score
  | zcard key => .zcard key
  | zpopmin key => .zpopmin key
  | zrem key member => .zrem key member

/-- The reply to the call, from the one with the other kind of texts. -/
def CacheCall.mapReply (f : T → U) (g : U → T) : (c : CacheCall T) → (c.map f).Reply → c.Reply
  | getString _, reply => reply.map (Option.map g)
  | setString _ _ _, reply | deleteKey _, reply | expireKey _ _, reply | zadd _ _ _, reply
  | zcard _, reply | zpopmin _, reply | zrem _ _, reply => reply

def CacheEntry.map (g : U → T) (e : CacheEntry U) : CacheEntry T where
  value := match e.value with
    | .text t => .text (g t)
    | .zset z => .zset z
  ttl := e.ttl

def Cache.map (g : U → T) (s : Cache U) : Cache T := fun key => (s key).map (CacheEntry.map g)

section annotated

variable {f : T → U} {g : U → T}

theorem Cache.map_update (s : Cache U) (key : String) (e : Option (CacheEntry U)) :
    Cache.map g (Function.update s key e) =
      Function.update (Cache.map g s) key (e.map (CacheEntry.map g)) := by
  funext k
  unfold Cache.map
  by_cases hk : k = key
  · subst hk
    rw [Function.update_self, Function.update_self]
  · rw [Function.update_of_ne hk, Function.update_of_ne hk]

theorem Cache.map_zsetAt (s : Cache U) (key : String) :
    (Cache.map g s).zsetAt key = s.zsetAt key := by
  unfold Cache.zsetAt Cache.map
  cases s key with
  | none => rfl
  | some e =>
      obtain ⟨value, ttl⟩ := e
      cases value <;> rfl

theorem Cache.map_onZset {α : Type} (s : Cache U) (key : String) (h : ZSet → α × ZSet) :
    (Cache.map g s).onZset key h = ((s.onZset key h).1, Cache.map g (s.onZset key h).2) := by
  unfold Cache.onZset
  rw [Cache.map_zsetAt]
  cases s.zsetAt key with
  | error e => rfl
  | ok z =>
      dsimp only
      rw [Cache.map_update]
      split_ifs <;> rfl

theorem Cache.map_getString (s : Cache U) (key : String) :
    (Cache.map g s).getString key = (s.getString key).map (Option.map g) := by
  unfold Cache.getString Cache.map
  cases s key with
  | none => rfl
  | some e =>
      obtain ⟨value, ttl⟩ := e
      cases value <;> rfl

/-- Without the notes a call does the same. -/
theorem Cache.map_exec (hfg : ∀ t, g (f t) = t) (c : CacheCall T) (s : Cache U) :
    Cache.exec c (Cache.map g s) =
      (c.mapReply f g (Cache.exec (c.map f) s).1, Cache.map g (Cache.exec (c.map f) s).2) := by
  cases c with
  | getString key => exact Prod.ext (Cache.map_getString s key) rfl
  | setString key value expiry =>
      refine Prod.ext rfl ?_
      change Function.update _ _ _ = Cache.map g (Function.update _ _ _)
      rw [Cache.map_update]
      simp only [Option.map_some, CacheEntry.map, hfg]
  | deleteKey key => exact Prod.ext rfl (Cache.map_update s key none).symm
  | expireKey key ttl =>
      refine Prod.ext rfl ?_
      change Function.update _ _ _ = Cache.map g (Function.update _ _ _)
      rw [Cache.map_update]
      congr 1
      unfold Cache.map
      cases s key <;> rfl
  | zadd key member score => exact Cache.map_onZset s key _
  | zcard key =>
      refine Prod.ext ?_ rfl
      change Except.map _ _ = Except.map _ _
      rw [Cache.map_zsetAt]
  | zpopmin key => exact Cache.map_onZset s key _
  | zrem key member => exact Cache.map_onZset s key _

theorem Cache.Erodes.map {s s' : Cache U} (h : s.Erodes s') :
    (Cache.map g s).Erodes (Cache.map g s') := by
  intro key
  unfold Cache.map
  rcases h key with hk | hk
  · exact Or.inl (by rw [hk])
  · exact Or.inr (by rw [hk]; rfl)

theorem CacheCall.mapReply_error (c : CacheCall T) (e : CacheError) :
    c.mapReply f g (.error e) = .error e := by
  cases c <;> rfl

/-- What a call on texts with notes may come to, the call may come to without them. -/
theorem CacheCall.Answers.map (hfg : ∀ t, g (f t) = t) {c : CacheCall T} {s s' : Cache U}
    {reply : (c.map f).Reply} (h : (c.map f).Answers s reply s') :
    c.Answers (Cache.map g s) (c.mapReply f g reply) (Cache.map g s') := by
  obtain ⟨s₁, herodes, hcases⟩ := h.cases
  have hexec := Cache.map_exec hfg c s₁
  have herodes' := herodes.map (g := g)
  rcases hcases with ⟨rfl, rfl⟩ | ⟨e, rfl, rfl | rfl | ⟨key, value, ttl, hc, rfl⟩⟩
  · have hdone := CacheCall.Answers.done c herodes'
    rw [hexec] at hdone
    exact hdone
  · rw [CacheCall.mapReply_error]
    exact .refused c e herodes'
  · rw [CacheCall.mapReply_error]
    have hlost := CacheCall.Answers.lost c e herodes'
    rw [hexec] at hlost
    exact hlost
  · rw [CacheCall.mapReply_error, Cache.map_update]
    cases c with
    | setString k v expiry =>
        cases hc
        have hhalf := CacheCall.Answers.halfway key v ttl e herodes'
        simpa only [Option.map_some, CacheEntry.map, hfg] using hhalf
    | _ => cases hc

end annotated

end MiniSiem
