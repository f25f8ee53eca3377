import Mathlib.Data.Set.Card

/-! # First come, first served

A register that grows while there is room and never shrinks.  Who is in it has a label of their own; whoever
finds it full shares one with others.

* **Growth.**  `Grows n s t`: the register has grown from `s` to `t`; a full one does not change
  (`grows_refl`, `Grows.trans`, `grows_insert`).
* **Labels.**  `Assigned n own shared s a b`: with the register `s` the label of `a` is settled.  It stays so
  (`Assigned.mono`), and there is one only (`Assigned.unique`).
* **Count.**  The settled labels are at most those of the register and the shared ones
  (`encard_assigned_le`). -/

namespace FirstCome

variable {α β : Type} {n : ℕ} {s t u : Finset α} {own shared : α → β} {a : α} {b b' : β}

/-- The register has grown, unless it was full. -/
def Grows (n : ℕ) (s t : Finset α) : Prop := s ⊆ t ∧ (n ≤ s.card → t = s)

/-- The label of `a` is settled: it is in the register, or the register is full without it. -/
def Assigned (n : ℕ) (own shared : α → β) (s : Finset α) (a : α) (b : β) : Prop :=
  (a ∈ s ∧ b = own a) ∨ (n ≤ s.card ∧ a ∉ s ∧ b = shared a)

theorem grows_refl (s : Finset α) : Grows n s s := ⟨Finset.Subset.refl s, fun _ => rfl⟩

theorem Grows.trans (h : Grows n s t) (h' : Grows n t u) : Grows n s u := by
  refine ⟨h.1.trans h'.1, fun hfull => ?_⟩
  have hts := h.2 hfull
  rw [h'.2 (hts ▸ hfull), hts]

theorem grows_insert [DecidableEq α] (hroom : s.card < n) (a : α) : Grows n s (insert a s) :=
  ⟨Finset.subset_insert a s, fun hfull => absurd hroom hfull.not_gt⟩

theorem Assigned.mono (h : Assigned n own shared s a b) (hgrows : Grows n s t) :
    Assigned n own shared t a b := by
  rcases h with ⟨hin, hb⟩ | ⟨hfull, hout, hb⟩
  · exact Or.inl ⟨hgrows.1 hin, hb⟩
  · rw [hgrows.2 hfull]
    exact Or.inr ⟨hfull, hout, hb⟩

theorem Assigned.unique (h : Assigned n own shared s a b) (h' : Assigned n own shared s a b') : b = b' := by
  rcases h with ⟨hin, hb⟩ | ⟨-, hout, hb⟩ <;> rcases h' with ⟨hin', hb'⟩ | ⟨-, hout', hb'⟩
  · rw [hb, hb']
  · exact absurd hin hout'
  · exact absurd hin' hout
  · rw [hb, hb']

theorem encard_assigned_le {m : ℕ} (hsize : s.card ≤ n) (hshared : (Set.range shared).encard ≤ m) :
    {b | ∃ a, Assigned n own shared s a b}.encard ≤ n + m := by
  have hsub : {b | ∃ a, Assigned n own shared s a b} ⊆ own '' s ∪ Set.range shared := by
    rintro b ⟨a, ⟨hin, rfl⟩ | ⟨-, -, rfl⟩⟩
    · exact Or.inl ⟨a, hin, rfl⟩
    · exact Or.inr ⟨a, rfl⟩
  have hown : (own '' (s : Set α)).encard ≤ n := by
    refine (Set.encard_image_le own s).trans ?_
    rw [Set.encard_coe_eq_coe_finsetCard]
    exact_mod_cast hsize
  calc {b | ∃ a, Assigned n own shared s a b}.encard
      ≤ (own '' s ∪ Set.range shared).encard := Set.encard_le_encard hsub
    _ ≤ (own '' (s : Set α)).encard + (Set.range shared).encard := Set.encard_union_le _ _
    _ ≤ n + m := add_le_add hown hshared

end FirstCome
