import Mathlib.Data.List.Nodup

/-! # Lists with a unique key

Updating the element with a given key, as a statement on the primary key of a table does.

* `updateKey` and its equations; `updateKey_eq_iff` compares two such updates of one list.
* `lookup` and `upsert`, which replaces the element with the key of the new one or appends it;
  `lookup_upsert` and `nodup_upsert`. -/

namespace KeyedList

variable {α κ : Type} [DecidableEq κ] (key : α → κ)

/-- The list with `f` applied to the elements with key `k`. -/
def updateKey (k : κ) (f : α → α) (l : List α) : List α :=
  l.map fun x => if key x = k then f x else x

@[simp] theorem length_updateKey (k : κ) (f : α → α) (l : List α) :
    (updateKey key k f l).length = l.length := by
  unfold updateKey
  rw [List.length_map]

/-- Changing elements without changing what `g` reads of them. -/
theorem map_updateKey {ν : Type} (k : κ) (f : α → α) (l : List α) {g : α → ν}
    (h : ∀ x, g (f x) = g x) : (updateKey key k f l).map g = l.map g := by
  unfold updateKey
  rw [List.map_map]
  refine List.map_congr_left fun x _ => ?_
  rw [Function.comp_apply]
  split_ifs
  · exact h x
  · rfl

/-- What a filter shows of a list when it shows no element with the key, before or after. -/
theorem filter_updateKey {p : α → Bool} {k : κ} {f : α → α} {l : List α}
    (h : ∀ x, key x = k → p x = false ∧ p (f x) = false) :
    (updateKey key k f l).filter p = l.filter p := by
  unfold updateKey
  induction l with
  | nil => rfl
  | cons x l ih =>
      rw [List.map_cons]
      by_cases hx : key x = k
      · obtain ⟨hbefore, hafter⟩ := h x hx
        rw [if_pos hx, List.filter_cons_of_neg (by rw [hafter]; decide),
          List.filter_cons_of_neg (by rw [hbefore]; decide), ih]
      · rw [if_neg hx, List.filter_cons, List.filter_cons, ih]

/-- The element with key `k`. -/
def lookup (k : κ) (l : List α) : Option α := l.find? fun x => key x = k

/-- The list with `x` in place of the element with its key, or at the end. -/
def upsert (x : α) (l : List α) : List α :=
  if l.any fun y => key y = key x then updateKey key (key x) (fun _ => x) l else l ++ [x]

theorem upsert_of_new {x : α} {l : List α} (h : (l.any fun y => key y = key x) = false) :
    upsert key x l = l ++ [x] := by
  unfold upsert
  rw [h]
  rfl

theorem upsert_of_known {x : α} {l : List α} (h : (l.any fun y => key y = key x) = true) :
    upsert key x l = updateKey key (key x) (fun _ => x) l := by
  unfold upsert
  rw [h]
  rfl

theorem lookup_updateKey (x : α) (k : κ) (l : List α) :
    lookup key k (updateKey key (key x) (fun _ => x) l) =
      if k = key x then (lookup key k l).map fun _ => x else lookup key k l := by
  unfold lookup updateKey
  induction l with
  | nil => simp
  | cons y l ih =>
      rw [List.map_cons, List.find?_cons, List.find?_cons, ih]
      by_cases hk : k = key x
      · by_cases hy : key y = key x
        · simp [hk, hy]
        · simp [hk, hy]
      · by_cases hy : key y = key x
        · have hky : key y ≠ k := fun heq => hk (heq.symm.trans hy)
          simp [hk, hy, Ne.symm hk]
        · simp [hk, hy]

/-- An update that keeps the keys, looked up. -/
theorem lookup_updateKey_of_keeps {f : α → α} (h : ∀ x, key (f x) = key x) (k k' : κ) (l : List α) :
    lookup key k' (updateKey key k f l) =
      if k' = k then (lookup key k l).map f else lookup key k' l := by
  unfold lookup updateKey
  induction l with
  | nil => simp
  | cons y l ih =>
      rw [List.map_cons, List.find?_cons, List.find?_cons, ih]
      by_cases hy : key y = k
      · by_cases hk : k' = k
        · simp [hy, hk, h]
        · simp [hy, hk, h, Ne.symm hk]
      · by_cases hk : k' = k
        · simp [hy, hk]
        · simp [hy, hk, List.find?_cons]

theorem lookup_upsert (x : α) (k : κ) (l : List α) :
    lookup key k (upsert key x l) = if k = key x then some x else lookup key k l := by
  unfold upsert
  split_ifs with hany hk hk
  · rw [lookup_updateKey, if_pos hk, Option.map_eq_some_iff]
    obtain ⟨y, hy, hkey⟩ := List.any_eq_true.mp hany
    have hsome : (lookup key k l).isSome = true := by
      unfold lookup
      rw [List.find?_isSome]
      exact ⟨y, hy, by rw [hk]; exact hkey⟩
    obtain ⟨z, hz⟩ := Option.isSome_iff_exists.mp hsome
    exact ⟨z, hz, rfl⟩
  · rw [lookup_updateKey, if_neg hk]
  · have hnone : lookup key k l = none := by
      unfold lookup
      rw [List.find?_eq_none]
      intro y hy hkey
      rw [hk] at hkey
      exact hany (List.any_eq_true.mpr ⟨y, hy, hkey⟩)
    unfold lookup at hnone ⊢
    rw [List.find?_append, hnone, hk]
    simp
  · unfold lookup
    rw [List.find?_append]
    simp [Ne.symm hk]

theorem nodup_concat {ν : Type} {g : α → ν} {l : List α} {x : α} (h : (l.map g).Nodup)
    (hnew : ∀ y ∈ l, g y ≠ g x) : ((l ++ [x]).map g).Nodup := by
  rw [List.map_append, List.nodup_append]
  refine ⟨h, List.nodup_singleton _, ?_⟩
  rintro _ ha _ hb rfl
  obtain ⟨y, hy, hkey⟩ := List.mem_map.mp ha
  exact hnew y hy (hkey.trans (List.mem_singleton.mp hb))

theorem nodup_upsert {l : List α} (h : (l.map key).Nodup) (x : α) :
    ((upsert key x l).map key).Nodup := by
  unfold upsert
  split_ifs with hany
  · have hkeys : (updateKey key (key x) (fun _ => x) l).map key = l.map key := by
      unfold updateKey
      rw [List.map_map]
      refine List.map_congr_left fun y _ => ?_
      rw [Function.comp_apply]
      split_ifs with hy
      · exact hy.symm
      · rfl
    rw [hkeys]
    exact h
  · exact nodup_concat h fun y hy hkey =>
      hany (List.any_eq_true.mpr ⟨y, hy, decide_eq_true hkey⟩)

variable {key}

theorem key_of_lookup {k : κ} {l : List α} {x : α} (h : lookup key k l = some x) : key x = k := by
  have hfound := List.find?_some h
  exact of_decide_eq_true hfound

theorem mem_of_lookup {k : κ} {l : List α} {x : α} (h : lookup key k l = some x) : x ∈ l :=
  List.mem_of_find?_eq_some h

/-- With unique keys one element has the key. -/
theorem filter_key_eq {l : List α} (hnodup : (l.map key).Nodup) {x : α} (hx : x ∈ l) :
    (l.filter fun y => key y = key x) = [x] := by
  induction l with
  | nil => cases hx
  | cons y l ih =>
      rw [List.map_cons, List.nodup_cons] at hnodup
      rw [List.filter_cons]
      rcases List.mem_cons.mp hx with rfl | hmem
      · have hnone : (l.filter fun y => key y = key x) = [] := by
          refine List.filter_eq_nil_iff.mpr fun z hz hkey => hnodup.1 ?_
          exact of_decide_eq_true hkey ▸ List.mem_map_of_mem hz
        rw [if_pos (decide_eq_true rfl), hnone]
      · rw [if_neg, ih hnodup.2 hmem]
        intro hkey
        exact hnodup.1 (of_decide_eq_true hkey ▸ List.mem_map_of_mem hmem)

/-- With unique keys two updates agree when they do the same to one element, or nothing to two. -/
theorem updateKey_eq_iff {l : List α} (hnodup : (l.map key).Nodup) {x y : α} (hx : x ∈ l)
    (hy : y ∈ l) {f g : α → α} :
    updateKey key (key x) f l = updateKey key (key y) g l ↔
      x = y ∧ f x = g x ∨ x ≠ y ∧ f x = x ∧ g y = y := by
  have hinj := fun {a b : α} => List.inj_on_of_nodup_map (x := a) (y := b) hnodup
  unfold updateKey
  rw [List.map_inj_left]
  constructor
  · intro h
    have hatx := h x hx
    have haty := h y hy
    rw [if_pos rfl] at hatx haty
    by_cases hxy : x = y
    · left
      rw [if_pos (congrArg key hxy)] at hatx
      exact ⟨hxy, hatx⟩
    · right
      have hkey : key x ≠ key y := fun heq => hxy (hinj hx hy heq)
      rw [if_neg hkey] at hatx
      rw [if_neg hkey.symm] at haty
      exact ⟨hxy, hatx, haty.symm⟩
  · rintro (⟨rfl, hsame⟩ | ⟨-, hfx, hgy⟩) a ha
    · split_ifs with hk
      · rw [hinj ha hx hk]
        exact hsame
      · rfl
    · split_ifs with hk hk' hk'
      · rw [hinj ha hx hk] at hk' ⊢
        rw [hinj hx hy hk', hgy, ← hinj hx hy hk', hfx]
      · rw [hinj ha hx hk]
        exact hfx
      · rw [hinj ha hy hk']
        exact hgy.symm
      · rfl

end KeyedList
