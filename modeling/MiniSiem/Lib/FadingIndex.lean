import Mathlib.Tactic

/-! # An index over records that expire

Records have an owner, and each owner has a set of the keys of its records.  Records and sets expire one by
one: `Index` says who owns a key at a time, and which keys are in a set at a time, if nothing is written.

* **Coherence.**  `Coherent ttl now`: from now on a key that is owned is in the set of its owner and in no
  other set, and no record outlives `ttl`.
* **Operations.**  A record is added in three steps with a renewal of the set (`Coherent.add`), removed from
  the set of its owner (`Coherent.remove`), or removed with all records of its owner (`Coherent.clear`). -/

namespace Fading

structure Index (K U : Type) where
  owner : ℤ → K → Option U
  members : ℤ → U → Set K
  owner_fades : ∀ {t t' k u}, t' ≤ t → owner t k = some u → owner t' k = some u
  members_fade : ∀ {t t' u}, t' ≤ t → members t u ⊆ members t' u

namespace Index

variable {K U : Type} {x x' : Index K U} {ttl now : ℤ}

structure Coherent (ttl now : ℤ) (x : Index K U) : Prop where
  brief : ∀ t k, now + ttl < t → x.owner t k = none
  indexed : ∀ t, now ≤ t → ∀ k u, x.owner t k = some u → ∀ v, k ∈ x.members t v ↔ v = u

theorem Coherent.le {t : ℤ} {k : K} {u : U} (h : x.Coherent ttl now) (hu : x.owner t k = some u) :
    t ≤ now + ttl := by
  by_contra hlt
  rw [h.brief t k (not_le.mp hlt)] at hu
  cases hu

theorem coherent_empty (howner : ∀ t k, x.owner t k = none) : x.Coherent ttl now where
  brief t k _ := howner t k
  indexed t _ k u hu := by rw [howner] at hu; cases hu

section operations

variable {k : K} {u : U}

/-- A record is written at `t₁`, its key enters the set at `t₂`, and the set is renewed at `t₃`. -/
theorem Coherent.add {t₁ t₂ t₃ : ℤ} (h : x.Coherent ttl now) (h₀₁ : now ≤ t₁) (h₁₂ : t₁ ≤ t₂) (h₂₃ : t₂ ≤ t₃)
    (hfresh : ∀ v, v ≠ u → k ∉ x.members t₂ v)
    (hnew : ∀ t, x'.owner t k = if t ≤ t₁ + ttl then some u else none)
    (hother : ∀ t j, j ≠ k → x'.owner t j = x.owner t j)
    (hset : ∀ t, t ≤ t₃ + ttl → x'.members t u = insert k (x.members t₂ u))
    (hsets : ∀ t v, v ≠ u → x'.members t v = x.members t v) : x'.Coherent ttl t₃ where
  brief t j ht := by
    by_cases hj : j = k
    · rw [hj, hnew, if_neg (by omega)]
    · rw [hother t j hj]
      exact h.brief t j (by omega)
  indexed t ht j w hw v := by
    by_cases hj : j = k
    · subst hj
      rw [hnew] at hw
      split_ifs at hw with hle
      obtain rfl := Option.some.inj hw
      by_cases hv : v = u
      · subst hv
        rw [hset t (by omega)]
        exact iff_of_true (Set.mem_insert _ _) rfl
      · rw [hsets t v hv]
        exact iff_of_false (fun hmem => hfresh v hv (x.members_fade (h₂₃.trans ht) hmem)) hv
    · rw [hother t j hj] at hw
      by_cases hv : v = u
      · -- the key has been in the set since it was read
        subst hv
        have hle := h.le hw
        rw [hset t (by omega), Set.mem_insert_iff, or_iff_right hj]
        exact h.indexed t₂ (h₀₁.trans h₁₂) j w (x.owner_fades (h₂₃.trans ht) hw) v
      · rw [hsets t v hv]
        exact h.indexed t (by omega) j w hw v

/-- A record is gone, and its key has left the set of its owner. -/
theorem Coherent.remove {t₁ : ℤ} (h : x.Coherent ttl now) (h₀₁ : now ≤ t₁) (hgone : ∀ t, x'.owner t k = none)
    (hother : ∀ t j, j ≠ k → x'.owner t j = x.owner t j)
    (hsets : ∀ t, t₁ ≤ t → ∀ v j, j ≠ k → (j ∈ x'.members t v ↔ j ∈ x.members t v)) :
    x'.Coherent ttl t₁ where
  brief t j ht := by
    by_cases hj : j = k
    · rw [hj, hgone]
    · rw [hother t j hj]
      exact h.brief t j (by omega)
  indexed t ht j w hw v := by
    have hj : j ≠ k := by
      rintro rfl
      rw [hgone] at hw
      cases hw
    rw [hother t j hj] at hw
    rw [hsets t ht v j hj]
    exact h.indexed t (h₀₁.trans ht) j w hw v

section clear

variable {t₀ t₁ : ℤ} (h : x.Coherent ttl now) (h₀ : now ≤ t₀) (h₀₁ : t₀ ≤ t₁)
  (hgone : ∀ t, ∀ j ∈ x.members t₀ u, x'.owner t j = none)
  (hother : ∀ t j, j ∉ x.members t₀ u → x'.owner t j = x.owner t j)
include h h₀ h₀₁ hgone hother

/-- What is owned after the records of an owner are removed was owned by another one. -/
theorem Coherent.cleared {t : ℤ} (ht : t₁ ≤ t) {j : K} {w : U} :
    x'.owner t j = some w ↔ x.owner t j = some w ∧ w ≠ u := by
  have hmem : ∀ w, x.owner t j = some w → (j ∈ x.members t₀ u ↔ u = w) :=
    fun w hw => h.indexed t₀ h₀ j w (x.owner_fades (h₀₁.trans ht) hw) u
  by_cases hj : j ∈ x.members t₀ u
  · rw [hgone t j hj]
    refine iff_of_false (fun hw => by cases hw) ?_
    rintro ⟨hw, hne⟩
    exact hne ((hmem w hw).mp hj).symm
  · rw [hother t j hj]
    exact (and_iff_left_of_imp fun hw hne => hj ((hmem w hw).mpr hne.symm)).symm

/-- The keys in the set at `t₀` lose their records, and the set is removed. -/
theorem Coherent.clear (hset : ∀ t, x'.members t u = ∅)
    (hsets : ∀ t v, v ≠ u → x'.members t v = x.members t v) : x'.Coherent ttl t₁ where
  brief t j ht := by
    by_cases hj : j ∈ x.members t₀ u
    · exact hgone t j hj
    · rw [hother t j hj]
      exact h.brief t j (by omega)
  indexed t ht j w hw v := by
    obtain ⟨hw, hne⟩ := (h.cleared h₀ h₀₁ hgone hother ht).mp hw
    by_cases hv : v = u
    · subst hv
      rw [hset]
      exact iff_of_false (Set.notMem_empty j) hne.symm
    · rw [hsets t v hv]
      exact h.indexed t ((h₀.trans h₀₁).trans ht) j w hw v

end clear

end operations

end Index

end Fading
