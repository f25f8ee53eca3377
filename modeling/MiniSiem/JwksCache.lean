import MiniSiem.Lib.Interference

/-! # The cache of the signing keys

`fetch_jwks`, `get_decoding_key_for_kid` and `spawn_jwks_refresh_task` of `auth/jwt.rs`, with a JWKS URL
configured.  Instants and durations are in nanoseconds.

* **Parameters.**  The constructor of a decoding key and the last instant that can be represented; an instant
  beyond it is a panic.
* **Tasks.**  Any number of lookups and refresh tasks share the cache.  A command is a section under the lock,
  or a fetch; a tick has the readings of the clock and the response.
* **Staleness.**  `staleness_bounded`: a returned key was in a successful fetch that had completed no longer
  than the two lifetimes before the lookup. -/

namespace MiniSiem

open Atomic

structure Jwk where
  kid : Option String
  kty : String
  n : Option String
  e : Option String

structure CachedJwks (K : Type) where
  expiresAt : ℕ
  staleUntil : ℕ
  keys : String → Option K

/-- `JWT_JWKS_TTL_SECS` and `JWT_JWKS_STALE_TTL_SECS`. -/
structure JwksSettings where
  ttl : UInt64 := 300
  staleTtl : UInt64 := 600

namespace JwksSettings

def cacheTtl (settings : JwksSettings) : ℕ := 1000000000 * settings.ttl.toNat

def staleLifetime (settings : JwksSettings) : ℕ := 1000000000 * settings.staleTtl.toNat

end JwksSettings

/-- A fetch may also panic, on an instant that cannot be represented. -/
inductive Fetched (K : Type)
  | ok (jwks : CachedJwks K)
  | failed (e : String)
  | panicked

section fetching

variable {K : Type} (fromRsaComponents : String → String → Except String K) (lastInstant : ℕ)
  (settings : JwksSettings)

/-- The loop over the keys of a response. -/
def buildKeys : List Jwk → (String → Option K) → Except String (String → Option K)
  | [], keys => .ok keys
  | jwk :: jwks, keys =>
      if jwk.kty ≠ "RSA" then buildKeys jwks keys
      else match jwk.kid with
        | none => buildKeys jwks keys
        | some kid =>
            match jwk.n with
            | none => .error "JWKS key missing modulus"
            | some n =>
                match jwk.e with
                | none => .error "JWKS key missing exponent"
                | some e =>
                    match fromRsaComponents n e with
                    | .error _ => .error "Failed to build decoding key from JWKS"
                    | .ok key => buildKeys jwks (Function.update keys kid (some key))

/-- An instant and a duration. -/
def instantAdd (t d : ℕ) : Option ℕ := if t + d ≤ lastInstant then some (t + d) else none

/-- `fetch_jwks`, with the response and the two readings of the clock. -/
def fetchJwks (response : Except String (List Jwk)) (clock again : ℕ) : Fetched K :=
  match response with
  | .error e => .failed e
  | .ok jwks =>
      match buildKeys fromRsaComponents jwks fun _ => none with
      | .error e => .failed e
      | .ok keys =>
          match instantAdd lastInstant clock settings.cacheTtl with
          | none => .panicked
          | some expiresAt =>
              match (instantAdd lastInstant again settings.cacheTtl).bind fun t =>
                  instantAdd lastInstant t settings.staleLifetime with
              | none => .panicked
              | some staleUntil => .ok ⟨expiresAt, staleUntil, keys⟩

end fetching

/-! ### Commands -/

structure JwksTick where
  clock : ℕ
  again : ℕ
  response : Except String (List Jwk) := .error "Failed to fetch JWKS"

inductive JwksCmd (K : Type)
  | lookUp (kid : String)
  | lookUpStale (kid : String)
  | fetch
  | store (jwks : CachedJwks K)
  | tick

/-- A lookup replies with the key and the reading at which it found it, a fetch with the reading at which it
completed. -/
abbrev JwksCmd.Reply {K : Type} : JwksCmd K → Type
  | lookUp _ | lookUpStale _ => Option (K × ℕ)
  | fetch => Fetched K × ℕ
  | store _ | tick => Unit

/-- A successful fetch. -/
structure FetchRecord where
  completedAt : ℕ
  jwks : List Jwk

/-- What a fetch adds to the successful ones. -/
def JwksTick.record {K : Type} (tick : JwksTick) (result : Fetched K) : List FetchRecord :=
  match result, tick.response with
  | .ok _, .ok jwks => [⟨tick.again, jwks⟩]
  | _, _ => []

/-- The cache, with the last reading of the clock and the successful fetches so far. -/
structure JwksWorld (K : Type) where
  cache : Option (CachedJwks K)
  now : ℕ
  fetches : List FetchRecord

abbrev JwksProg (K : Type) (α : Type) := Prog (JwksCmd K) JwksCmd.Reply α

/-- How a task ends; a returned key with the time of its lookup. -/
inductive JwksResult (K : Type)
  | key (key : K) (lookedUpAt : ℕ)
  | error (e : String)
  | panicked
  | stopped

section tasks

variable {K : Type} (fromRsaComponents : String → String → Except String K) (lastInstant : ℕ)
  (settings : JwksSettings)

/-- The keys of the cache while they are fresh or stale. -/
def lookUpKey (tick : JwksTick) (cache : Option (CachedJwks K)) (kid : String) : Option (K × ℕ) :=
  match cache with
  | none => none
  | some cached =>
      if tick.clock < cached.expiresAt then (cached.keys kid).map (·, tick.clock)
      else if tick.again < cached.staleUntil then (cached.keys kid).map (·, tick.again)
      else none

/-- The keys of the cache after a fetch has failed. -/
def lookUpStaleKey (tick : JwksTick) (cache : Option (CachedJwks K)) (kid : String) : Option (K × ℕ) :=
  match cache with
  | none => none
  | some cached => if tick.clock < cached.staleUntil then (cached.keys kid).map (·, tick.clock) else none

def execJwks (tick : JwksTick) : (c : JwksCmd K) → JwksWorld K → c.Reply × JwksWorld K
  | .lookUp kid, w => (lookUpKey tick w.cache kid, { w with now := tick.again })
  | .lookUpStale kid, w => (lookUpStaleKey tick w.cache kid, { w with now := tick.again })
  | .fetch, w =>
      let result := fetchJwks fromRsaComponents lastInstant settings tick.response tick.clock tick.again
      ((result, tick.again), { w with now := tick.again, fetches := tick.record result ++ w.fetches })
  | .store jwks, w => ((), { w with cache := some jwks, now := tick.again })
  | .tick, w => ((), { w with now := tick.again })

/-- `get_decoding_key_for_kid`. -/
def getDecodingKeyForKid (kid : Option String) : JwksProg K (JwksResult K) :=
  match kid with
  | none => .ret (.error "JWT header missing kid")
  | some kid => .call (.lookUp kid) fun
      | some (key, lookedUpAt) => .ret (.key key lookedUpAt)
      | none => .call .fetch fun
          | (.panicked, _) => .ret .panicked
          | (.failed e, _) => .call (.lookUpStale kid) fun
              | some (key, lookedUpAt) => .ret (.key key lookedUpAt)
              | none => .ret (.error e)
          | (.ok fetched, completedAt) =>
              match fetched.keys kid with
              | none => .ret (.error ("No JWKS key found for kid " ++ kid))
              | some key => .call (.store fetched) fun _ => .ret (.key key completedAt)

/-- The loop of the refresh task, for a number of ticks. -/
def refreshLoop : ℕ → JwksProg K (JwksResult K)
  | 0 => .ret .stopped
  | ticks + 1 => .call .tick fun _ => .call .fetch fun
      | (.panicked, _) => .ret .panicked
      | (.failed _, _) => refreshLoop ticks
      | (.ok fetched, _) => .call (.store fetched) fun _ => refreshLoop ticks

/-- The refresh task; an interval without length is a panic. -/
def refreshTask (ticks : ℕ) : JwksProg K (JwksResult K) :=
  if settings.cacheTtl = 0 then .ret .panicked else refreshLoop ticks

inductive JwksTask
  | getKey (kid : Option String)
  | refresh (ticks : ℕ)

def JwksTask.prog : JwksTask → JwksProg K (JwksResult K)
  | getKey kid => getDecodingKeyForKid kid
  | refresh ticks => refreshTask settings ticks

/-- The tasks before they start, with an empty cache. -/
def jwksPool {ι : Type} (tasks : ι → JwksTask) (start : ℕ) :
    Pool ι (JwksCmd K) JwksCmd.Reply (JwksResult K) (JwksWorld K) :=
  ⟨fun i => (tasks i).prog settings, ⟨none, start, []⟩⟩

end tasks

/-! ### One fetch -/

section fetches

variable {K : Type} {fromRsaComponents : String → String → Except String K} {lastInstant : ℕ}
  {settings : JwksSettings}

/-- The response contains the key under the kid. -/
def FetchRecord.Contains (fromRsaComponents : String → String → Except String K) (kid : String) (key : K)
    (f : FetchRecord) : Prop :=
  ∃ jwk ∈ f.jwks, jwk.kty = "RSA" ∧ jwk.kid = some kid ∧
    ∃ n e, jwk.n = some n ∧ jwk.e = some e ∧ fromRsaComponents n e = .ok key

theorem buildKeys_contains {jwks : List Jwk} {keys keys' : String → Option K} {kid : String} {key : K}
    (hbuild : buildKeys fromRsaComponents jwks keys = .ok keys') (hkey : keys' kid = some key) :
    keys kid = some key ∨ ∃ jwk ∈ jwks, jwk.kty = "RSA" ∧ jwk.kid = some kid ∧
      ∃ n e, jwk.n = some n ∧ jwk.e = some e ∧ fromRsaComponents n e = .ok key := by
  induction jwks generalizing keys with
  | nil =>
      obtain rfl := Except.ok.inj hbuild
      exact Or.inl hkey
  | cons jwk jwks ih =>
      have hskip : buildKeys fromRsaComponents jwks keys = .ok keys' →
          keys kid = some key ∨ ∃ j ∈ jwk :: jwks, j.kty = "RSA" ∧ j.kid = some kid ∧
            ∃ n e, j.n = some n ∧ j.e = some e ∧ fromRsaComponents n e = .ok key := by
        intro hrest
        exact (ih hrest).imp id fun ⟨j, hj, h⟩ => ⟨j, List.mem_cons_of_mem _ hj, h⟩
      unfold buildKeys at hbuild
      split_ifs at hbuild with hkty
      · exact hskip hbuild
      · split at hbuild
        · exact hskip hbuild
        · rename_i kid' hkid
          split at hbuild
          · cases hbuild
          · rename_i n hn
            split at hbuild
            · cases hbuild
            · rename_i e he
              split at hbuild
              · cases hbuild
              · rename_i key' hcomponents
                rcases ih hbuild with hupdated | ⟨j, hj, h⟩
                · by_cases hsame : kid = kid'
                  · subst hsame
                    rw [Function.update_self] at hupdated
                    obtain rfl := Option.some.inj hupdated
                    exact Or.inr ⟨jwk, List.mem_cons_self, not_not.mp hkty, hkid, n, e, hn, he, hcomponents⟩
                  · rw [Function.update_of_ne hsame] at hupdated
                    exact Or.inl hupdated
                · exact Or.inr ⟨j, List.mem_cons_of_mem _ hj, h⟩

theorem instantAdd_eq_some {t d t' : ℕ} (h : instantAdd lastInstant t d = some t') : t' = t + d := by
  unfold instantAdd at h
  split_ifs at h
  exact (Option.some.inj h).symm

theorem fetchJwks_eq_ok {response : Except String (List Jwk)} {clock again : ℕ} {cached : CachedJwks K}
    (h : fetchJwks fromRsaComponents lastInstant settings response clock again = .ok cached) :
    ∃ jwks, response = .ok jwks ∧ buildKeys fromRsaComponents jwks (fun _ => none) = .ok cached.keys ∧
      cached.expiresAt = clock + settings.cacheTtl ∧
      cached.staleUntil = again + settings.cacheTtl + settings.staleLifetime := by
  unfold fetchJwks at h
  split at h
  · cases h
  · rename_i jwks
    split at h
    · cases h
    · rename_i keys hkeys
      split at h
      · cases h
      · rename_i expiresAt hexpires
        split at h
        · cases h
        · rename_i staleUntil hstale
          obtain ⟨t, ht, hadd⟩ := Option.bind_eq_some_iff.mp hstale
          have hexpiresAt := instantAdd_eq_some hexpires
          have hstaleUntil := instantAdd_eq_some hadd
          rw [instantAdd_eq_some ht] at hstaleUntil
          obtain rfl := Fetched.ok.inj h
          exact ⟨jwks, rfl, hkeys, hexpiresAt, hstaleUntil⟩

/-! ### Lifetimes -/

/-- The clock does not go back. -/
def JwksTick.Fair {K : Type} (tick : JwksTick) (w : JwksWorld K) : Prop :=
  w.now ≤ tick.clock ∧ tick.clock ≤ tick.again

/-- The clock goes on, and successful fetches stay. -/
instance : Preorder (JwksWorld K) where
  le w w' := w.now ≤ w'.now ∧ w.fetches ⊆ w'.fetches
  le_refl w := ⟨le_rfl, List.Subset.refl _⟩
  le_trans _ _ _ h h' := ⟨h.1.trans h'.1, List.Subset.trans h.2 h'.2⟩

variable (fromRsaComponents settings) in
/-- The keys are those of a successful fetch, and their lifetimes run from its completion. -/
def Dated (w : JwksWorld K) (cached : CachedJwks K) : Prop :=
  ∃ f ∈ w.fetches, f.completedAt ≤ w.now ∧ cached.expiresAt ≤ f.completedAt + settings.cacheTtl ∧
    cached.staleUntil ≤ f.completedAt + settings.cacheTtl + settings.staleLifetime ∧
    ∀ kid key, cached.keys kid = some key → f.Contains fromRsaComponents kid key

variable (fromRsaComponents settings) in
/-- The key was in a successful fetch that had completed no longer than the lifetimes before. -/
def Honoured (w : JwksWorld K) (kid : String) (key : K) (lookedUpAt : ℕ) : Prop :=
  ∃ f ∈ w.fetches, f.Contains fromRsaComponents kid key ∧ f.completedAt ≤ lookedUpAt ∧
    lookedUpAt ≤ f.completedAt + settings.cacheTtl + settings.staleLifetime

variable (fromRsaComponents settings) in
def CacheDated (w : JwksWorld K) : Prop := ∀ cached ∈ w.cache, Dated fromRsaComponents settings w cached

variable {w w' : JwksWorld K} {cached : CachedJwks K}

theorem Dated.mono (hle : w ≤ w') (h : Dated fromRsaComponents settings w cached) :
    Dated fromRsaComponents settings w' cached := by
  obtain ⟨f, hf, hcompleted, hrest⟩ := h
  exact ⟨f, hle.2 hf, hcompleted.trans hle.1, hrest⟩

theorem Honoured.mono (hle : w ≤ w') {kid : String} {key : K} {lookedUpAt : ℕ}
    (h : Honoured fromRsaComponents settings w kid key lookedUpAt) :
    Honoured fromRsaComponents settings w' kid key lookedUpAt := by
  obtain ⟨f, hf, hrest⟩ := h
  exact ⟨f, hle.2 hf, hrest⟩

/-- A key that is read while the cache is stale at most. -/
theorem Dated.honoured (h : Dated fromRsaComponents settings w cached) {kid : String} {key : K} {t : ℕ}
    (hkey : cached.keys kid = some key) (hnow : w.now ≤ t)
    (halive : t < cached.expiresAt ∨ t < cached.staleUntil) :
    Honoured fromRsaComponents settings w kid key t := by
  obtain ⟨f, hf, hcompleted, hexpires, hstale, hcontains⟩ := h
  refine ⟨f, hf, hcontains kid key hkey, hcompleted.trans hnow, ?_⟩
  omega

section lookups

variable {tick : JwksTick} {kid : String} {key : K} {lookedUpAt : ℕ}
  (hcache : CacheDated fromRsaComponents settings w) (hfair : tick.Fair w)
include hcache hfair

theorem lookUpKey_honoured (h : lookUpKey tick w.cache kid = some (key, lookedUpAt)) :
    Honoured fromRsaComponents settings w kid key lookedUpAt := by
  unfold lookUpKey at h
  split at h
  · cases h
  · rename_i cached heq
    have hdated := hcache cached heq
    split_ifs at h with hexpires hstale
    · obtain ⟨_, hkey, hpair⟩ := Option.map_eq_some_iff.mp h
      cases hpair
      exact hdated.honoured hkey hfair.1 (Or.inl hexpires)
    · obtain ⟨_, hkey, hpair⟩ := Option.map_eq_some_iff.mp h
      cases hpair
      exact hdated.honoured hkey (hfair.1.trans hfair.2) (Or.inr hstale)

theorem lookUpStaleKey_honoured (h : lookUpStaleKey tick w.cache kid = some (key, lookedUpAt)) :
    Honoured fromRsaComponents settings w kid key lookedUpAt := by
  unfold lookUpStaleKey at h
  split at h
  · cases h
  · rename_i cached heq
    split_ifs at h with hstale
    obtain ⟨_, hkey, hpair⟩ := Option.map_eq_some_iff.mp h
    cases hpair
    exact (hcache cached heq).honoured hkey hfair.1 (Or.inr hstale)

end lookups

/-- What a successful fetch returns is dated from its completion. -/
theorem fetch_dated {tick : JwksTick} {w : JwksWorld K} {fetched : CachedJwks K} {completedAt : ℕ}
    {w' : JwksWorld K} (hfair : tick.Fair w)
    (h : execJwks fromRsaComponents lastInstant settings tick .fetch w = ((.ok fetched, completedAt), w')) :
    Dated fromRsaComponents settings w' fetched ∧ ∀ kid key, fetched.keys kid = some key →
      Honoured fromRsaComponents settings w' kid key completedAt := by
  obtain ⟨hreply, hw'⟩ := Prod.mk.inj h
  obtain ⟨hfetch, rfl⟩ := Prod.mk.inj hreply
  obtain ⟨jwks, hresponse, hbuild, hexpires, hstale⟩ := fetchJwks_eq_ok hfetch
  have hrecord : ⟨tick.again, jwks⟩ ∈ w'.fetches := by
    rw [← hw']
    refine List.mem_append_left _ ?_
    unfold JwksTick.record
    rw [hfetch, hresponse]
    exact List.mem_singleton.mpr rfl
  have hcontains : ∀ kid key, fetched.keys kid = some key →
      FetchRecord.Contains fromRsaComponents kid key ⟨tick.again, jwks⟩ := by
    intro kid key hkey
    rcases buildKeys_contains hbuild hkey with hnone | hin
    · cases hnone
    · exact hin
  have hnow : w'.now = tick.again := by rw [← hw']
  have hle : tick.clock ≤ tick.again := hfair.2
  refine ⟨⟨_, hrecord, hnow.ge, ?_, hstale.le, hcontains⟩, fun kid key hkey =>
    ⟨_, hrecord, hcontains kid key hkey, le_rfl, ?_⟩⟩
  · show fetched.expiresAt ≤ tick.again + settings.cacheTtl
    omega
  · show tick.again ≤ tick.again + settings.cacheTtl + settings.staleLifetime
    omega

/-! ### Tasks -/

theorem execJwks_grows {tick : JwksTick} (c : JwksCmd K) (hfair : tick.Fair w) :
    w ≤ (execJwks fromRsaComponents lastInstant settings tick c w).2 := by
  have hnow : w.now ≤ tick.again := hfair.1.trans hfair.2
  cases c with
  | fetch => exact ⟨hnow, List.subset_append_right _ _⟩
  | _ => exact ⟨hnow, List.Subset.refl _⟩

variable (fromRsaComponents settings) in
/-- A task stores what a successful fetch has returned. -/
def StoresDated (w : JwksWorld K) (c : JwksCmd K) : Prop :=
  ∀ cached, c = .store cached → Dated fromRsaComponents settings w cached

theorem execJwks_dated {tick : JwksTick} {c : JwksCmd K} (hfair : tick.Fair w)
    (hcache : CacheDated fromRsaComponents settings w) (hc : StoresDated fromRsaComponents settings w c) :
    CacheDated fromRsaComponents settings (execJwks fromRsaComponents lastInstant settings tick c w).2 := by
  have hle : w ≤ (execJwks fromRsaComponents lastInstant settings tick c w).2 := execJwks_grows c hfair
  cases c with
  | store jwks =>
      intro cached heq
      obtain rfl := Option.some.inj heq
      exact (hc _ rfl).mono hle
  | _ => exact fun cached heq => (hcache cached heq).mono hle

variable (fromRsaComponents settings) in
/-- A key that a task returns for its kid is honoured. -/
def ReturnsHonoured (task : JwksTask) (w : JwksWorld K) (r : JwksResult K) : Prop :=
  ∀ kid key lookedUpAt, task = .getKey (some kid) → r = .key key lookedUpAt →
    Honoured fromRsaComponents settings w kid key lookedUpAt

abbrev KeepsLifetimes (fromRsaComponents : String → String → Except String K) (lastInstant : ℕ)
    (settings : JwksSettings) (task : JwksTask) (w : JwksWorld K) (p : JwksProg K (JwksResult K)) : Prop :=
  p.Respects (execJwks fromRsaComponents lastInstant settings) JwksTick.Fair
    (CacheDated fromRsaComponents settings) (StoresDated fromRsaComponents settings)
    (ReturnsHonoured fromRsaComponents settings task) w

theorem getDecodingKeyForKid_keeps (kid : Option String) (w : JwksWorld K) :
    KeepsLifetimes fromRsaComponents lastInstant settings (.getKey kid) w (getDecodingKeyForKid kid) := by
  cases kid with
  | none => exact fun kid key lookedUpAt htask _ => nomatch htask
  | some kid =>
      have hkey : ∀ {w : JwksWorld K} {key : K} {t : ℕ}, Honoured fromRsaComponents settings w kid key t →
          ReturnsHonoured fromRsaComponents settings (.getKey (some kid)) w (.key key t) := by
        rintro w key t h _ _ _ ⟨⟩ ⟨⟩
        exact h
      refine Prog.respects_call fun w₁ _ hcache₁ => ⟨(fun _ heq => nomatch heq), fun tick₁ hfair₁ => ?_⟩
      cases hfound : lookUpKey tick₁ w₁.cache kid with
      | some found =>
          -- the cache is fresh or stale
          have hhonoured := lookUpKey_honoured hcache₁ hfair₁ hfound
          rw [show (execJwks fromRsaComponents lastInstant settings tick₁ (.lookUp kid) w₁).1 = some found
            from hfound]
          exact hkey (hhonoured.mono (execJwks_grows _ hfair₁))
      | none =>
          rw [show (execJwks fromRsaComponents lastInstant settings tick₁ (.lookUp kid) w₁).1 = none
            from hfound]
          refine Prog.respects_call fun w₂ _ hcache₂ => ⟨(fun _ heq => nomatch heq), fun tick₂ hfair₂ => ?_⟩
          rcases hfetch : execJwks fromRsaComponents lastInstant settings tick₂ .fetch w₂ with
            ⟨⟨fetched | e | _, completedAt⟩, w₃⟩
          · -- the keys of the fetch itself
            obtain ⟨hdated, hhonoured⟩ := fetch_dated hfair₂ hfetch
            dsimp only
            cases hfetched : fetched.keys kid with
            | none => exact fun _ _ _ _ hresult => nomatch hresult
            | some key =>
                refine Prog.respects_call fun w₄ hle _ => ⟨?_, fun tick₄ hfair₄ => ?_⟩
                · rintro _ ⟨⟩
                  exact hdated.mono hle
                · exact hkey ((hhonoured kid key hfetched).mono (hle.trans (execJwks_grows _ hfair₄)))
          · -- the fetch has failed, and the cache may still be stale at most
            refine Prog.respects_call fun w₄ _ hcache₄ => ⟨(fun _ heq => nomatch heq), fun tick₄ hfair₄ => ?_⟩
            cases hstale : lookUpStaleKey tick₄ w₄.cache kid with
            | some found =>
                have hhonoured := lookUpStaleKey_honoured hcache₄ hfair₄ hstale
                rw [show (execJwks fromRsaComponents lastInstant settings tick₄ (.lookUpStale kid) w₄).1 =
                  some found from hstale]
                exact hkey (hhonoured.mono (execJwks_grows _ hfair₄))
            | none =>
                rw [show (execJwks fromRsaComponents lastInstant settings tick₄ (.lookUpStale kid) w₄).1 =
                  none from hstale]
                exact fun _ _ _ _ hresult => nomatch hresult
          · exact fun _ _ _ _ hresult => nomatch hresult

theorem refreshLoop_keeps (ticks n : ℕ) (w : JwksWorld K) :
    KeepsLifetimes fromRsaComponents lastInstant settings (.refresh n) w (refreshLoop ticks) := by
  induction ticks generalizing w with
  | zero => exact fun _ _ _ htask _ => nomatch htask
  | succ ticks ih =>
      refine Prog.respects_call fun w₁ _ _ => ⟨(fun _ heq => nomatch heq), fun tick₁ hfair₁ => ?_⟩
      refine Prog.respects_call fun w₂ _ _ => ⟨(fun _ heq => nomatch heq), fun tick₂ hfair₂ => ?_⟩
      rcases hfetch : execJwks fromRsaComponents lastInstant settings tick₂ .fetch w₂ with
        ⟨⟨fetched | e | _, completedAt⟩, w₃⟩
      · refine Prog.respects_call fun w₄ hle _ => ⟨?_, fun tick₄ _ => ih _⟩
        rintro _ ⟨⟩
        exact (fetch_dated hfair₂ hfetch).1.mono hle
      · exact ih _
      · exact fun _ _ _ htask _ => nomatch htask

theorem JwksTask.prog_keeps (task : JwksTask) (w : JwksWorld K) :
    KeepsLifetimes fromRsaComponents lastInstant settings task w (task.prog settings) := by
  cases task with
  | getKey kid => exact getDecodingKeyForKid_keeps kid w
  | refresh n =>
      unfold JwksTask.prog refreshTask
      split_ifs
      · exact fun _ _ _ htask _ => nomatch htask
      · exact refreshLoop_keeps n n w

variable (fromRsaComponents lastInstant settings) in
/-- The tasks after a schedule. -/
abbrev jwksAfter {ι : Type} [DecidableEq ι] (tasks : ι → JwksTask) (start : ℕ)
    (schedule : List (ι × JwksTick)) : Pool ι (JwksCmd K) JwksCmd.Reply (JwksResult K) (JwksWorld K) :=
  Pool.run (execJwks fromRsaComponents lastInstant settings) schedule (jwksPool settings tasks start)

/-- Whatever the tasks, the interleaving and the responses: a key that is returned for a kid was contained
under it in a successful fetch that had completed no longer than the lifetimes before the lookup. -/
theorem staleness_bounded {ι : Type} [DecidableEq ι] (tasks : ι → JwksTask) (start : ℕ)
    (schedule : List (ι × JwksTick))
    (hclock : Pool.Meets (execJwks fromRsaComponents lastInstant settings) (fun s e => e.2.Fair s.store)
      schedule (jwksPool settings tasks start)) :
    ∀ i kid key lookedUpAt, tasks i = .getKey (some kid) →
      (jwksAfter fromRsaComponents lastInstant settings tasks start schedule).progs i =
        .ret (.key key lookedUpAt) →
      Honoured fromRsaComponents settings
        (jwksAfter fromRsaComponents lastInstant settings tasks start schedule).store kid key lookedUpAt := by
  intro i kid key lookedUpAt htask hreturned
  have hkept : KeepsLifetimes fromRsaComponents lastInstant settings (tasks i)
      (jwksAfter fromRsaComponents lastInstant settings tasks start schedule).store
      ((jwksAfter fromRsaComponents lastInstant settings tasks start schedule).progs i) := by
    refine (Pool.respects_run (Q := fun i => ReturnsHonoured fromRsaComponents settings (tasks i))
      ?_ ?_ ?_ hclock ?_ fun i => (tasks i).prog_keeps _).2 i
    · exact fun i w w' r hle h kid key t htask hr => (h kid key t htask hr).mono hle
    · exact fun tick c w hfair _ _ => execJwks_grows c hfair
    · exact fun tick c w hfair => execJwks_dated hfair
    · exact fun cached heq => nomatch heq
  rw [hreturned] at hkept
  exact hkept kid key lookedUpAt htask rfl

end fetches

instance {K : Type} (tick : JwksTick) (w : JwksWorld K) : Decidable (tick.Fair w) :=
  inferInstanceAs (Decidable (_ ∧ _))

/-- A key that is its modulus and its exponent. -/
def plainKey (n e : String) : Except String (String × String) := .ok (n, e)

def seconds (n : ℕ) : ℕ := 1000000000 * n

def firstKeys : List Jwk := [⟨some "k1", "RSA", some "n1", some "AQAB"⟩, ⟨some "k2", "EC", none, none⟩]

/-- A refresh task and two lookups, the second of which finds the cache stale and no server. -/
def keyTasks : Fin 3 → JwksTask := ![.refresh 2, .getKey (some "k1"), .getKey (some "k1")]

def keySchedule : List (Fin 3 × JwksTick) :=
  [(1, { clock := seconds 1, again := seconds 1 }),
    (0, { clock := seconds 1, again := seconds 1 }),
    (0, { clock := seconds 2, again := seconds 2, response := .ok firstKeys }),
    (1, { clock := seconds 3, again := seconds 3, response := .ok firstKeys }),
    (1, { clock := seconds 4, again := seconds 4 }),
    (0, { clock := seconds 5, again := seconds 5 }),
    (2, { clock := seconds 901, again := seconds 901 })]

/-- The older fetch has replaced the newer one, and its key is found at 901 s. -/
theorem keySchedule_honoured :
    Honoured plainKey {} (jwksAfter plainKey (2 ^ 93) {} keyTasks 0 keySchedule).store "k1" ("n1", "AQAB")
      (seconds 901) :=
  staleness_bounded keyTasks 0 keySchedule (by decide +kernel) 2 "k1" ("n1", "AQAB") (seconds 901) rfl rfl

end MiniSiem
