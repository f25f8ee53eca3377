import MiniSiem.Lib.Runs

/-! # Items on their way through a machine

A ledger says of each state of a machine which items have entered, which have left, and which are
pending.  Items are counted with their multiplicity.

* **Steps.**  A step posts the items that enter and that leave, and may lose some of the pending ones
  (`Ledger.Posts`).
* **Balance.**  If the steps that meet `ok` are those that lose nothing, a run stays balanced exactly when
  all of its steps meet `ok` (`balanced_iff_meets`).  When nothing is pending any more, a run is balanced
  exactly when each item that has entered has left (`covered_iff_balanced`).
* **Marks.**  Where only some items count, they carry a mark (`marked`). -/

namespace Runs

variable {σ ε ι : Type} {step : σ → ε → Option σ}

structure Ledger (σ ι : Type) where
  entered : σ → Multiset ι
  left : σ → Multiset ι
  pending : σ → Multiset ι

namespace Ledger

variable (L : Ledger σ ι) {s s' : σ}

/-- Every item that has entered is pending or has left. -/
def Balanced (s : σ) : Prop := L.entered s = L.left s + L.pending s

/-- No item is pending or has left that has not entered. -/
def Sound (s : σ) : Prop := L.left s + L.pending s ≤ L.entered s

/-- Every item that has entered has left. -/
def Covered (s : σ) : Prop := L.entered s ≤ L.left s

/-- The step lets some items in and some out, and loses some. -/
def Posts (s s' : σ) (lost : Multiset ι) : Prop :=
  ∃ came went, L.entered s' = L.entered s + came ∧ L.left s' = L.left s + went ∧
    L.pending s + came = L.pending s' + went + lost

variable {L}

/-- A step that lets nothing in or out, and loses some of the pending items. -/
theorem posts_of_same {lost : Multiset ι} (hentered : L.entered s' = L.entered s)
    (hleft : L.left s' = L.left s) (hpending : L.pending s = L.pending s' + lost) :
    L.Posts s s' lost := by
  refine ⟨0, 0, ?_, ?_, ?_⟩
  · rw [hentered, add_zero]
  · rw [hleft, add_zero]
  · rw [add_zero, add_zero, hpending]

/-- A step of a machine that records what has entered and left as lists. -/
theorem posts_of_lists {α : Type} {count : List α → Multiset ι}
    (hcount : ∀ front back, count (front ++ back) = count front + count back)
    {entered left : σ → List α} {pending : σ → Multiset ι} {came went : List α} {lost : Multiset ι}
    (hentered : entered s' = entered s ++ came) (hleft : left s' = left s ++ went)
    (hpending : pending s + count came = pending s' + count went + lost) :
    Posts ⟨fun s => count (entered s), fun s => count (left s), pending⟩ s s' lost := by
  refine ⟨count came, count went, ?_, ?_, hpending⟩
  · dsimp only
    rw [hentered, hcount]
  · dsimp only
    rw [hleft, hcount]

theorem Balanced.sound (h : L.Balanced s) : L.Sound s := h.ge

theorem Posts.entered_add {lost missing : Multiset ι} (h : L.Posts s s' lost)
    (hs : L.entered s = L.left s + L.pending s + missing) :
    L.entered s' = L.left s' + L.pending s' + (missing + lost) := by
  obtain ⟨came, went, hentered, hleft, hpending⟩ := h
  calc L.entered s' = L.left s + (L.pending s + came) + missing := by rw [hentered, hs]; ac_rfl
    _ = L.left s + (L.pending s' + went + lost) + missing := by rw [hpending]
    _ = L.left s' + L.pending s' + (missing + lost) := by rw [hleft]; ac_rfl

theorem Posts.trans {s₁ s₂ s₃ : σ} {lost lost' : Multiset ι} (h : L.Posts s₁ s₂ lost)
    (h' : L.Posts s₂ s₃ lost') : L.Posts s₁ s₃ (lost + lost') := by
  obtain ⟨came, went, hentered, hleft, hpending⟩ := h
  obtain ⟨came', went', hentered', hleft', hpending'⟩ := h'
  refine ⟨came + came', went + went', ?_, ?_, ?_⟩
  · rw [hentered', hentered, add_assoc]
  · rw [hleft', hleft, add_assoc]
  · calc L.pending s₁ + (came + came') = L.pending s₁ + came + came' := (add_assoc _ _ _).symm
      _ = L.pending s₂ + came' + went + lost := by rw [hpending]; ac_rfl
      _ = L.pending s₃ + (went + went') + (lost + lost') := by rw [hpending']; ac_rfl

theorem Posts.sound {lost : Multiset ι} (h : L.Posts s s' lost) (hs : L.Sound s) : L.Sound s' := by
  obtain ⟨missing, hmissing⟩ := Multiset.le_iff_exists_add.mp hs
  exact Multiset.le_iff_exists_add.mpr ⟨_, h.entered_add hmissing⟩

/-- A step of a sound ledger keeps the balance exactly when it loses nothing. -/
theorem Posts.balanced_iff {lost : Multiset ι} (h : L.Posts s s' lost) (hs : L.Sound s) :
    L.Balanced s' ↔ L.Balanced s ∧ lost = 0 := by
  obtain ⟨missing, hmissing⟩ := Multiset.le_iff_exists_add.mp hs
  unfold Balanced
  rw [h.entered_add hmissing, hmissing, add_eq_left, add_eq_left, add_eq_zero]

/-- A run is balanced exactly when none of its steps loses anything. -/
theorem balanced_iff_meets {J : σ → Prop} {ok : σ → ε → Prop}
    (hJ : ∀ s e s', J s → step s e = some s' → J s')
    (hposts : ∀ s e s', J s → step s e = some s' → ∃ lost, L.Posts s s' lost ∧ (lost = 0 ↔ ok s e))
    {es : List ε} (hs : J s) (hbalanced : L.Balanced s) (h : run step es s = some s') :
    L.Balanced s' ↔ Meets step ok es s := by
  have hiff : L.Balanced s' ↔ L.Balanced s ∧ Meets step ok es s := holds_iff_meets
    (J := fun s => J s ∧ L.Sound s)
    (fun s e s' hinv he => by
      obtain ⟨lost, hlost, -⟩ := hposts s e s' hinv.1 he
      exact ⟨hJ s e s' hinv.1 he, hlost.sound hinv.2⟩)
    (fun s e s' hinv he => by
      obtain ⟨lost, hlost, hok⟩ := hposts s e s' hinv.1 he
      rw [hlost.balanced_iff hinv.2, hok])
    ⟨hs, hbalanced.sound⟩ h
  rw [hiff, and_iff_right hbalanced]

theorem sound_of_run {J : σ → Prop} (hJ : ∀ s e s', J s → step s e = some s' → J s')
    (hposts : ∀ s e s', J s → step s e = some s' → ∃ lost, L.Posts s s' lost) {es : List ε}
    (hs : J s) (hsound : L.Sound s) (h : run step es s = some s') : L.Sound s' := by
  refine (run_invariant (J := fun s => J s ∧ L.Sound s) ?_ ⟨hs, hsound⟩ h).2
  rintro s e s' ⟨hinv, hle⟩ he
  obtain ⟨lost, hlost⟩ := hposts s e s' hinv he
  exact ⟨hJ s e s' hinv he, hlost.sound hle⟩

/-- The ledger of a part of the state. -/
def comap {τ : Type} (f : τ → σ) (L : Ledger σ ι) : Ledger τ ι where
  entered := fun t => L.entered (f t)
  left := fun t => L.left (f t)
  pending := fun t => L.pending (f t)

theorem posts_self (s : σ) : L.Posts s s 0 := by
  refine ⟨0, 0, (add_zero _).symm, (add_zero _).symm, ?_⟩
  rw [add_zero, add_zero]

theorem covered_iff_balanced (hs : L.Sound s) (hpending : L.pending s = 0) :
    L.Covered s ↔ L.Balanced s := by
  unfold Sound at hs
  unfold Covered Balanced
  rw [hpending, add_zero] at hs ⊢
  exact ⟨fun h => le_antisymm h hs, fun h => h.le⟩

end Ledger

/-! ### Marked items -/

section marks

/-- The items of the list that are marked. -/
def marked (items : List (Bool × ι)) : Multiset ι := ((items.filter (·.1)).map (·.2) : List ι)

theorem marked_nil : marked ([] : List (Bool × ι)) = 0 := rfl

theorem marked_append (front back : List (Bool × ι)) :
    marked (front ++ back) = marked front + marked back := by
  unfold marked
  rw [List.filter_append, List.map_append, Multiset.coe_add]

theorem marked_cons (item : Bool × ι) (items : List (Bool × ι)) :
    marked (item :: items) = marked [item] + marked items :=
  marked_append [item] items

theorem marked_eq_zero {items : List (Bool × ι)} : marked items = 0 ↔ ∀ item ∈ items, item.1 = false := by
  unfold marked
  rw [Multiset.coe_eq_zero, List.map_eq_nil_iff, List.filter_eq_nil_iff]
  simp only [Bool.not_eq_true]

theorem marked_singleton_eq_zero {item : Bool × ι} : marked [item] = 0 ↔ item.1 = false := by
  rw [marked_eq_zero]
  exact ⟨fun h => h item List.mem_cons_self, fun h x hx => by rwa [List.mem_singleton.mp hx]⟩

end marks

end Runs
