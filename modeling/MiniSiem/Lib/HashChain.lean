import Mathlib.Data.List.Nodup
import Mathlib.Data.List.Induction

/-! # Chains of linked entries

Entries with a key and an optional link to the key of another entry, in some order.

* **Linked.**  `LinkedFrom p l`: the first entry links to `p`, every later one to the entry before
  it.  `Linear l` adds that nothing precedes the first entry and that no two links are equal.
* **Appending.**  `linkedFrom_append_singleton` and `Linear.append`.
* **Inserting elsewhere.**  `not_linear_insert`: an entry put before the end breaks the chain.
* **Distinct links.**  `nodup_of_linked`: in a linked chain from nothing the links are distinct if
  entries with one key have one link. -/

namespace HashChain

variable {α κ : Type} (link : α → Option κ) (key : α → κ)

/-- The first entry links to `p`, every later one to the entry just before it. -/
def LinkedFrom : Option κ → List α → Prop
  | _, [] => True
  | p, e :: es => link e = p ∧ LinkedFrom (some (key e)) es

/-- A linear chain from nothing. -/
structure Linear (l : List α) : Prop where
  linked : LinkedFrom link key none l
  distinct : (l.map link).Nodup

variable {link key}

/-- The key of the last entry. -/
def lastKey (key : α → κ) (l : List α) : Option κ := l.getLast?.map key

theorem linkedFrom_append {p : Option κ} {l l' : List α} :
    LinkedFrom link key p (l ++ l') ↔
      LinkedFrom link key p l ∧ LinkedFrom link key ((lastKey key l).or p) l' := by
  induction l generalizing p with
  | nil => simp [LinkedFrom, lastKey]
  | cons e es ih =>
      have hlast : (lastKey key (e :: es)).or p = (lastKey key es).or (some (key e)) := by
        unfold lastKey
        cases es with
        | nil => rfl
        | cons d ds => simp [List.getLast?_cons]
      rw [List.cons_append, LinkedFrom, LinkedFrom, ih, hlast, and_assoc]

theorem linkedFrom_append_singleton {l : List α} {e : α} :
    LinkedFrom link key none (l ++ [e]) ↔
      LinkedFrom link key none l ∧ link e = lastKey key l := by
  rw [linkedFrom_append, Option.or_none]
  simp [LinkedFrom]

/-- Entries with one key have one link. -/
def KeyDeterminesLink (link : α → Option κ) (key : α → κ) (l : List α) : Prop :=
  ∀ d ∈ l, ∀ e ∈ l, key d = key e → link d = link e

theorem nodup_of_linked {l : List α} (hdet : KeyDeterminesLink link key l)
    (h : LinkedFrom link key none l) : (l.map link).Nodup := by
  induction l using List.reverseRecOn with
  | nil => exact List.nodup_nil
  | append_singleton l e ih =>
      obtain ⟨hl, he⟩ := linkedFrom_append_singleton.mp h
      have hdet' : KeyDeterminesLink link key l := fun d hd e he =>
        hdet d (List.mem_append_left _ hd) e (List.mem_append_left _ he)
      have hnodup := ih hdet' hl
      rw [List.map_append, List.map_singleton, List.nodup_append]
      refine ⟨hnodup, List.nodup_singleton _, ?_⟩
      rintro a ha b hb rfl
      obtain rfl := List.mem_singleton.mp hb
      obtain ⟨d, hd, hda⟩ := List.mem_map.mp ha
      obtain ⟨l₁, l₂, rfl⟩ := List.append_of_mem hd
      obtain ⟨f, hf⟩ : ∃ f, (d :: l₂).getLast? = some f :=
        ⟨_, List.getLast?_eq_some_getLast (List.cons_ne_nil d l₂)⟩
      have hlast : lastKey key (l₁ ++ d :: l₂) = some (key f) := by
        unfold lastKey
        rw [List.getLast?_append, hf]
        rfl
      have hlink : link d = lastKey key l₁ := by
        have hd' := (linkedFrom_append.mp hl).2.1
        rwa [Option.or_none] at hd'
      have hkey : lastKey key l₁ = some (key f) := by
        rw [← hlink, hda, he, hlast]
      -- the entry `g` before `d` has the key of the last entry `f`, hence its link
      obtain ⟨g, hg, hgf⟩ := Option.map_eq_some_iff.mp hkey
      have hgmem := List.mem_of_getLast? hg
      have hfmem := List.mem_of_getLast? hf
      have hsame : link g = link f :=
        hdet' g (List.mem_append_left _ hgmem) f (List.mem_append_right _ hfmem) hgf
      rw [List.map_append, List.nodup_append] at hnodup
      exact hnodup.2.2 _ (List.mem_map_of_mem hgmem) _ (List.mem_map_of_mem hfmem) hsame

/-- A link is the key of an entry of the chain. -/
theorem exists_of_link {l : List α} (h : LinkedFrom link key none l) {e : α} (he : e ∈ l) {k : κ}
    (hk : link e = some k) : ∃ d ∈ l, key d = k := by
  obtain ⟨l₁, l₂, rfl⟩ := List.append_of_mem he
  have hlink := (linkedFrom_append.mp h).2.1
  rw [Option.or_none, hk] at hlink
  obtain ⟨d, hd, hkey⟩ := Option.map_eq_some_iff.mp hlink.symm
  exact ⟨d, List.mem_append_left _ (List.mem_of_getLast? hd), hkey⟩

/-- Appending an entry that links to the last one. -/
theorem Linear.append {l : List α} {e : α} (h : Linear link key l) (he : link e = lastKey key l)
    (hdet : KeyDeterminesLink link key (l ++ [e])) : Linear link key (l ++ [e]) := by
  have hlinked := linkedFrom_append_singleton.mpr ⟨h.linked, he⟩
  exact ⟨hlinked, nodup_of_linked hdet hlinked⟩

/-- An entry put before another one of a linear chain breaks it. -/
theorem not_linear_insert {l₁ l₂ : List α} {d e : α} (h : Linear link key (l₁ ++ d :: l₂)) :
    ¬ Linear link key (l₁ ++ e :: d :: l₂) := by
  intro hnew
  have hd : link d = lastKey key l₁ := by
    have hd' := (linkedFrom_append.mp h.linked).2.1
    rwa [Option.or_none] at hd'
  have he : link e = lastKey key l₁ := by
    have he' := (linkedFrom_append.mp hnew.linked).2.1
    rwa [Option.or_none] at he'
  have hdistinct := (List.nodup_append.mp (List.map_append ▸ hnew.distinct)).2.1
  rw [List.map_cons, List.map_cons, List.nodup_cons] at hdistinct
  apply hdistinct.1
  rw [he, ← hd]
  exact List.mem_cons_self

end HashChain
