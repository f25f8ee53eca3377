import Mathlib.Tactic

/-! # Items that pass through queues

A network of queues `Q → List α`.  Items enter a queue at its end and leave it at its head, and an item
goes from the head of one queue to the end of another.

* **Lanes.**  `along queue sel path` lists the items of a selection that lie on a path of queues, those
  that are furthest first; the path begins with its last queue.
* **Rules.**  A move between neighbours on the path keeps the list (`along_moves`), as a move of an
  item outside of the selection does (`along_moves_of_not`).  An item that enters the first queue
  is added at the end (`along_enters`), and one that leaves the last queue was at the
  head (`along_leaves`).
* **Networks.**  In a `Network` every item has a route.  Items that share their route leave it in the order
  in which they have entered (`Fifo.left_inOrder`), whatever the others do.
* **Prefixes.**  If a selection of a list is a prefix of it, nothing that is selected comes after an item
  that is not (`filter_eq_nil_of_front`). -/

namespace Lanes

variable {Q α : Type}

/-- The selected items on the path, those that are furthest first. -/
def along (queue : Q → List α) (sel : α → Bool) (path : List Q) : List α :=
  path.flatMap fun i => (queue i).filter sel

/-- An item enters a queue. -/
structure Enters (queue queue' : Q → List α) (dst : Q) (x : α) : Prop where
  put : queue' dst = queue dst ++ [x]
  others : ∀ i, i ≠ dst → queue' i = queue i

/-- An item leaves a queue. -/
structure Leaves (queue queue' : Q → List α) (src : Q) (x : α) : Prop where
  taken : queue src = x :: queue' src
  others : ∀ i, i ≠ src → queue' i = queue i

/-- The head of a queue goes to the end of another one. -/
structure Moves (queue queue' : Q → List α) (src dst : Q) (x : α) : Prop where
  taken : queue src = x :: queue' src
  put : queue' dst = queue dst ++ [x]
  others : ∀ i, i ≠ src → i ≠ dst → queue' i = queue i

variable {queue queue' : Q → List α} {sel : α → Bool} {src dst : Q} {x : α} {front back path : List Q}

theorem along_append : along queue sel (front ++ back) = along queue sel front ++ along queue sel back :=
  List.flatMap_append

theorem along_cons (i : Q) : along queue sel (i :: path) = (queue i).filter sel ++ along queue sel path :=
  List.flatMap_cons

/-- The list depends on the queues of the path only, and on their selected items. -/
theorem along_congr (h : ∀ i ∈ path, (queue' i).filter sel = (queue i).filter sel) :
    along queue' sel path = along queue sel path := by
  induction path with
  | nil => rfl
  | cons i path ih =>
      rw [along_cons, along_cons, h i List.mem_cons_self,
        ih fun j hj => h j (List.mem_cons_of_mem i hj)]

/-- A move between neighbours on the path. -/
theorem along_moves (h : Moves queue queue' src dst x) (hpath : (front ++ dst :: src :: back).Nodup) :
    along queue' sel (front ++ dst :: src :: back) = along queue sel (front ++ dst :: src :: back) := by
  obtain ⟨-, hrest, hapart⟩ := List.nodup_append.mp hpath
  obtain ⟨hdst, hsrc, -⟩ := List.nodup_cons.mp hrest |>.imp_right List.nodup_cons.mp
  have hfront : along queue' sel front = along queue sel front := by
    refine along_congr fun i hi => ?_
    rw [h.others i (hapart i hi src (by simp)) (hapart i hi dst (by simp))]
  have hback : along queue' sel back = along queue sel back := by
    refine along_congr fun i hi => ?_
    have hi_src : i ≠ src := fun heq => hsrc (heq ▸ hi)
    have hi_dst : i ≠ dst := fun heq => hdst (heq ▸ List.mem_cons_of_mem src hi)
    rw [h.others i hi_src hi_dst]
  rw [along_append, along_append, along_cons, along_cons, along_cons, along_cons, hfront, hback,
    h.put, h.taken, List.filter_append]
  -- the item is the end of one segment before, and the head of the next one after
  cases hx : sel x with
  | true => simp [hx]
  | false => simp [hx]

/-- A move of an item that is not selected. -/
theorem along_moves_of_not (h : Moves queue queue' src dst x) (hx : sel x = false) :
    along queue' sel path = along queue sel path := by
  refine along_congr fun i _ => ?_
  by_cases hdst : i = dst
  · rw [hdst, h.put, List.filter_append, List.filter_cons_of_neg (by simp [hx])]
    exact List.append_nil _
  · by_cases hsrc : i = src
    · rw [hsrc, h.taken, List.filter_cons_of_neg (by simp [hx])]
    · rw [h.others i hsrc hdst]

theorem along_enters (h : Enters queue queue' dst x) (hpath : (front ++ [dst]).Nodup) :
    along queue' sel (front ++ [dst]) = along queue sel (front ++ [dst]) ++ [x].filter sel := by
  have hapart := (List.nodup_append.mp hpath).2.2
  have hfront : along queue' sel front = along queue sel front := by
    refine along_congr fun i hi => ?_
    rw [h.others i (hapart i hi dst List.mem_cons_self)]
  rw [along_append, along_append, along_cons, along_cons, hfront, h.put, List.filter_append]
  show _ ++ (_ ++ _ ++ []) = _ ++ (_ ++ []) ++ _
  rw [List.append_nil, List.append_nil, List.append_assoc]

theorem along_enters_of_not (h : Enters queue queue' dst x) (hx : sel x = false) :
    along queue' sel path = along queue sel path := by
  refine along_congr fun i _ => ?_
  by_cases hdst : i = dst
  · rw [hdst, h.put, List.filter_append, List.filter_cons_of_neg (by simp [hx])]
    exact List.append_nil _
  · rw [h.others i hdst]

theorem along_leaves (h : Leaves queue queue' src x) (hpath : (src :: back).Nodup) :
    along queue sel (src :: back) = [x].filter sel ++ along queue' sel (src :: back) := by
  have hback : along queue' sel back = along queue sel back := by
    refine along_congr fun i hi => ?_
    rw [h.others i fun heq => (List.nodup_cons.mp hpath).1 (heq ▸ hi)]
  rw [along_cons, along_cons, hback, h.taken, ← List.append_assoc, ← List.filter_append]
  rfl

theorem along_leaves_of_not (h : Leaves queue queue' src x) (hx : sel x = false) :
    along queue' sel path = along queue sel path := by
  refine along_congr fun i _ => ?_
  by_cases hsrc : i = src
  · rw [hsrc, h.taken, List.filter_cons_of_neg (by simp [hx])]
  · rw [h.others i hsrc]

/-! ### What a queue holds -/

theorem Enters.mem (h : Enters queue queue' dst x) {i : Q} {y : α} (hy : y ∈ queue' i) :
    y = x ∨ y ∈ queue i := by
  by_cases hi : i = dst
  · subst hi
    rw [h.put, List.mem_append, List.mem_singleton] at hy
    exact hy.symm
  · exact .inr (h.others i hi ▸ hy)

theorem Leaves.mem (h : Leaves queue queue' src x) {i : Q} {y : α} (hy : y ∈ queue' i) :
    y ∈ queue i := by
  by_cases hi : i = src
  · subst hi
    rw [h.taken]
    exact List.mem_cons_of_mem x hy
  · exact h.others i hi ▸ hy

/-- What is in a queue after a move was in some queue before. -/
theorem Moves.mem (h : Moves queue queue' src dst x) {i : Q} {y : α} (hy : y ∈ queue' i) :
    ∃ j, y ∈ queue j := by
  by_cases hdst : i = dst
  · subst hdst
    rw [h.put, List.mem_append, List.mem_singleton] at hy
    obtain hy | rfl := hy
    · exact ⟨i, hy⟩
    · exact ⟨src, h.taken ▸ List.mem_cons_self⟩
  · by_cases hsrc : i = src
    · subst hsrc
      exact ⟨i, h.taken ▸ List.mem_cons_of_mem x hy⟩
    · exact ⟨i, h.others i hsrc hdst ▸ hy⟩

/-! ### Networks -/

/-- The queues, with the items that have entered the network and those that have left it. -/
structure Network (Q α : Type) where
  queue : Q → List α
  entered : List α
  left : List α

namespace Network

/-- An item enters the first queue of its route, goes on to the next one, or leaves the last one. -/
inductive Step (route : α → List Q) (n n' : Network Q α) : Prop
  | enter (x : α) (front : List Q) (dst : Q) (hroute : route x = front ++ [dst])
      (hqueue : Enters n.queue n'.queue dst x) (hentered : n'.entered = n.entered ++ [x])
      (hleft : n'.left = n.left)
  | move (x : α) (front : List Q) (dst src : Q) (back : List Q)
      (hroute : route x = front ++ dst :: src :: back) (hqueue : Moves n.queue n'.queue src dst x)
      (hentered : n'.entered = n.entered) (hleft : n'.left = n.left)
  | leave (x : α) (src : Q) (back : List Q) (hroute : route x = src :: back)
      (hqueue : Leaves n.queue n'.queue src x) (hentered : n'.entered = n.entered)
      (hleft : n'.left = n.left ++ [x])
  | idle (hqueue : n'.queue = n.queue) (hentered : n'.entered = n.entered) (hleft : n'.left = n.left)

/-- Items that share their route have left it, or lie on it, in the order in which they have entered. -/
structure Fifo (route : α → List Q) (n : Network Q α) : Prop where
  known : ∀ i x, x ∈ n.queue i → x ∈ n.entered
  order : ∀ (sel : α → Bool) (path : List Q), path.Nodup →
    (∀ x ∈ n.entered, sel x = true → route x = path) →
    n.left.filter sel ++ along n.queue sel path = n.entered.filter sel

variable {route : α → List Q} {n n' : Network Q α}

theorem known_of_step (hn : n.Fifo route) (h : Step route n n') {i : Q} {y : α}
    (hy : y ∈ n'.queue i) : y ∈ n'.entered := by
  cases h with
  | enter x front dst hroute hqueue hentered hleft =>
      rw [hentered, List.mem_append, List.mem_singleton]
      exact (hqueue.mem hy).symm.imp_left (hn.known i y)
  | move x front dst src back hroute hqueue hentered hleft =>
      obtain ⟨j, hj⟩ := hqueue.mem hy
      exact hentered ▸ hn.known j y hj
  | leave x src back hroute hqueue hentered hleft =>
      exact hentered ▸ hn.known i y (hqueue.mem hy)
  | idle hqueue hentered hleft => exact hentered ▸ hn.known i y (hqueue ▸ hy)

theorem order_of_step (hn : n.Fifo route) (h : Step route n n') {sel : α → Bool} {path : List Q}
    (hpath : path.Nodup) (hsel : ∀ x ∈ n'.entered, sel x = true → route x = path) :
    n'.left.filter sel ++ along n'.queue sel path = n'.entered.filter sel := by
  cases h with
  | enter x front dst hroute hqueue hentered hleft =>
      have hbefore := hn.order sel path hpath fun y hy => hsel y (hentered ▸ List.mem_append_left _ hy)
      rw [hentered, hleft, List.filter_append, ← hbefore, List.append_assoc]
      cases hx : sel x with
      | true =>
          obtain rfl : route x = path := hsel x (by simp [hentered]) hx
          rw [hroute] at hpath ⊢
          rw [along_enters hqueue hpath]
      | false =>
          rw [along_enters_of_not hqueue hx, List.filter_cons_of_neg (by simp [hx])]
          simp
  | move x front dst src back hroute hqueue hentered hleft =>
      have hx_known : x ∈ n.entered := hn.known src x (hqueue.taken ▸ List.mem_cons_self)
      rw [hentered] at hsel
      rw [hentered, hleft, ← hn.order sel path hpath hsel]
      cases hx : sel x with
      | true =>
          obtain rfl := hsel x hx_known hx
          rw [hroute] at hpath ⊢
          rw [along_moves hqueue hpath]
      | false => rw [along_moves_of_not hqueue hx]
  | leave x src back hroute hqueue hentered hleft =>
      have hx_known : x ∈ n.entered := hn.known src x (hqueue.taken ▸ List.mem_cons_self)
      rw [hentered] at hsel
      rw [hentered, hleft, ← hn.order sel path hpath hsel, List.filter_append, List.append_assoc]
      cases hx : sel x with
      | true =>
          obtain rfl := hsel x hx_known hx
          rw [hroute] at hpath ⊢
          rw [along_leaves hqueue hpath]
      | false =>
          rw [along_leaves_of_not hqueue hx, List.filter_cons_of_neg (by simp [hx])]
          rfl
  | idle hqueue hentered hleft =>
      rw [hentered] at hsel
      rw [hentered, hleft, hqueue, hn.order sel path hpath hsel]

theorem Fifo.of_step (hn : n.Fifo route) (h : Step route n n') : n'.Fifo route :=
  ⟨fun _ _ => known_of_step hn h, fun _ _ => order_of_step hn h⟩

theorem fifo_empty (hqueue : ∀ i, n.queue i = []) (hentered : n.entered = []) (hleft : n.left = []) :
    n.Fifo route := by
  refine ⟨fun i x hx => ?_, fun sel path _ _ => ?_⟩
  · rw [hqueue i] at hx
    cases hx
  · have hnone : along n.queue sel path = [] := by
      refine List.flatMap_eq_nil_iff.mpr fun i _ => ?_
      rw [hqueue i]
      rfl
    rw [hentered, hleft, hnone]
    rfl

/-- Items that share their route leave in the order in which they have entered. -/
theorem Fifo.left_inOrder (hn : n.Fifo route) {sel : α → Bool} {path : List Q} (hpath : path.Nodup)
    (hsel : ∀ x ∈ n.entered, sel x = true → route x = path) :
    n.left.filter sel <+: n.entered.filter sel :=
  ⟨_, hn.order sel path hpath hsel⟩

end Network

/-! ### Prefixes -/

theorem filter_eq_nil_of_head {l l' : List α} (h : l.filter sel <+: x :: l')
    (hx : sel x = false) : l.filter sel = [] := by
  cases hfilter : l.filter sel with
  | nil => rfl
  | cons y ys =>
      have hy : sel y = true := (List.mem_filter.mp (hfilter ▸ List.mem_cons_self)).2
      rw [hfilter, List.cons_prefix_cons] at h
      rw [h.1, hx] at hy
      cases hy

/-- Nothing selected comes after an item that is not, if the selection is a prefix. -/
theorem filter_eq_nil_of_front {a b : List α} (h : (a ++ x :: b).filter sel <+: a ++ x :: b)
    (hx : sel x = false) : b.filter sel = [] := by
  induction a with
  | nil =>
      rw [List.nil_append, List.filter_cons_of_neg (by simp [hx])] at h
      exact filter_eq_nil_of_head h hx
  | cons c a ih =>
      cases hc : sel c with
      | true =>
          rw [List.cons_append, List.filter_cons_of_pos hc, List.cons_prefix_cons] at h
          exact ih h.2
      | false =>
          -- the first item is not selected, so nothing is
          rw [List.cons_append, List.filter_cons_of_neg (by simp [hc])] at h
          have hnone := filter_eq_nil_of_head h hc
          rw [List.filter_append, List.filter_cons_of_neg (by simp [hx])] at hnone
          exact (List.append_eq_nil_iff.mp hnone).2

end Lanes
