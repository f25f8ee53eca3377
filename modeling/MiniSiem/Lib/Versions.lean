import Mathlib.Logic.Function.Basic
import Mathlib.Tactic

/-! # Versions of a cached value

A value is kept in a store, and a cache holds a copy of it.  Many tasks write the store or read one of the
two, and put what they wrote or read into the cache later on.

* **Versions.**  `Versions` counts the writes of the store and says which of them the cache shows and which of
  them each task carries.
* **Tracking.**  `Tracks` relates the versions to the values; every move keeps it, an insertion when what is
  inserted is not older than what it replaces (`Tracks.insert`).
* **Quiescence.**  When no task carries a value any more, the cache shows the store (`Tracks.quiet`). -/

structure Versions (ι : Type) where
  written : ℕ
  cached : ℕ
  held : ι → ℕ

namespace Versions

variable {ι V : Type} [DecidableEq ι]

/-- Task `i` writes the store. -/
def write (g : Versions ι) (i : ι) : Versions ι :=
  { g with written := g.written + 1, held := Function.update g.held i (g.written + 1) }

/-- Task `i` carries version `k`. -/
def carry (g : Versions ι) (i : ι) (k : ℕ) : Versions ι := { g with held := Function.update g.held i k }

/-- Task `i` reads the store. -/
def readStore (g : Versions ι) (i : ι) : Versions ι := g.carry i g.written

/-- Task `i` reads the cache. -/
def readCache (g : Versions ι) (i : ι) : Versions ι := g.carry i g.cached

/-- Task `i` puts what it carries into the cache. -/
def insert (g : Versions ι) (i : ι) : Versions ι := { g with cached := g.held i }

/-- The values belong to the versions: `val` says what was written each time, and `flying` what each task
is about to insert. -/
structure Tracks (val : ℕ → V) (store cache : Option V) (flying : ι → Option V) (g : Versions ι) : Prop where
  current : ∀ x ∈ store, val g.written = x
  cached : ∀ x ∈ cache, store.isSome = true ∧ val g.cached = x
  held : ∀ i, ∀ x ∈ flying i, store.isSome = true ∧ g.held i ≤ g.written ∧ val (g.held i) = x
  le : g.cached ≤ g.written
  pending : g.cached < g.written → ∃ i, (flying i).isSome = true ∧ g.held i = g.written

theorem carry_held_self (g : Versions ι) (i : ι) (k : ℕ) : (g.carry i k).held i = k :=
  Function.update_self _ _ _

theorem carry_held_of_ne (g : Versions ι) {i j : ι} (h : j ≠ i) (k : ℕ) : (g.carry i k).held j = g.held j :=
  Function.update_of_ne h _ _

variable {val : ℕ → V} {store cache : Option V} {flying : ι → Option V} {g : Versions ι} {i : ι} {x : V}

theorem Tracks.write (h : Tracks val store cache flying g) (i : ι) (x : V) :
    Tracks (Function.update val (g.written + 1) x) (some x) cache (Function.update flying i (some x))
      (g.write i) where
  current y hy := by
    rw [Versions.write, Function.update_self]
    exact Option.some.inj hy
  cached y hy := by
    have hle : g.cached ≤ g.written := h.le
    show _ ∧ Function.update val (g.written + 1) x g.cached = y
    rw [Function.update_of_ne (by omega)]
    exact ⟨rfl, (h.cached y hy).2⟩
  held j y hy := by
    refine ⟨rfl, ?_⟩
    by_cases hji : j = i
    · subst hji
      rw [Function.update_self] at hy
      simp only [Versions.write, Function.update_self]
      exact ⟨le_rfl, Option.some.inj hy⟩
    · rw [Function.update_of_ne hji] at hy
      obtain ⟨-, hle, hval⟩ := h.held j y hy
      simp only [Versions.write]
      rw [Function.update_of_ne hji, Function.update_of_ne (by omega)]
      exact ⟨by omega, hval⟩
  le := h.le.trans (Nat.le_succ _)
  pending _ := ⟨i, by rw [Function.update_self]; rfl, Function.update_self _ _ _⟩

/-- A task that carried nothing carries a version that it has read. -/
theorem Tracks.read (h : Tracks val store cache flying g) (hi : flying i = none) {k : ℕ}
    (hstore : store.isSome = true) (hk : k ≤ g.written) (hval : val k = x) :
    Tracks val store cache (Function.update flying i (some x)) (g.carry i k) where
  current := h.current
  cached := h.cached
  held j y hy := by
    refine ⟨hstore, ?_⟩
    by_cases hji : j = i
    · subst hji
      rw [Function.update_self] at hy
      rw [carry_held_self]
      exact ⟨hk, hval.trans (Option.some.inj hy)⟩
    · rw [Function.update_of_ne hji] at hy
      rw [carry_held_of_ne g hji]
      exact (h.held j y hy).2
  le := h.le
  pending hlt := by
    obtain ⟨j, hj, hheld⟩ := h.pending hlt
    have hji : j ≠ i := by
      rintro rfl
      rw [hi] at hj
      cases hj
    exact ⟨j, by rwa [Function.update_of_ne hji], by rwa [carry_held_of_ne g hji]⟩

theorem Tracks.readStore (h : Tracks val (some x) cache flying g) (hi : flying i = none) :
    Tracks val (some x) cache (Function.update flying i (some x)) (g.readStore i) :=
  h.read hi rfl le_rfl (h.current x rfl)

theorem Tracks.readCache (h : Tracks val store (some x) flying g) (hi : flying i = none) :
    Tracks val store (some x) (Function.update flying i (some x)) (g.readCache i) :=
  h.read hi (h.cached x rfl).1 h.le (h.cached x rfl).2

/-- A task that carries nothing may look at any version. -/
theorem Tracks.look (h : Tracks val store cache flying g) (hi : flying i = none) (k : ℕ) :
    Tracks val store cache flying (g.carry i k) where
  current := h.current
  cached := h.cached
  held j y hy := by
    have hji : j ≠ i := by
      rintro rfl
      rw [hi] at hy
      cases hy
    rw [carry_held_of_ne g hji]
    exact h.held j y hy
  le := h.le
  pending hlt := by
    obtain ⟨j, hj, hheld⟩ := h.pending hlt
    have hji : j ≠ i := by
      rintro rfl
      rw [hi] at hj
      cases hj
    exact ⟨j, hj, by rwa [carry_held_of_ne g hji]⟩

/-- What is inserted is not older than what it replaces. -/
theorem Tracks.insert (h : Tracks val store cache flying g) (hi : flying i = some x)
    (hyoung : g.cached ≤ g.held i) :
    Tracks val store (some x) (Function.update flying i none) (g.insert i) where
  current := h.current
  cached y hy := by
    obtain rfl := Option.some.inj hy
    exact ⟨(h.held i x hi).1, (h.held i x hi).2.2⟩
  held j y hy := by
    have hji : j ≠ i := by
      rintro rfl
      rw [Function.update_self] at hy
      cases hy
    rw [Function.update_of_ne hji] at hy
    exact h.held j y hy
  le := (h.held i x hi).2.1
  pending hlt := by
    have hlt : g.held i < g.written := hlt
    obtain ⟨j, hj, hheld⟩ := h.pending (by omega)
    have hji : j ≠ i := by
      rintro rfl
      omega
    exact ⟨j, by rwa [Function.update_of_ne hji], hheld⟩

omit [DecidableEq ι] in
/-- When nothing is on its way, the cache shows the store. -/
theorem Tracks.quiet (h : Tracks val store (some x) flying g) (hnone : ∀ i, flying i = none) :
    store = some x := by
  have hsame : g.cached = g.written := by
    by_contra hne
    have hle := h.le
    obtain ⟨i, hi, -⟩ := h.pending (by omega)
    rw [hnone i] at hi
    cases hi
  obtain ⟨hstore, hval⟩ := h.cached x rfl
  obtain ⟨y, rfl⟩ := Option.isSome_iff_exists.mp hstore
  rw [← hval, hsame, h.current y rfl]

end Versions
