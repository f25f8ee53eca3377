import MiniSiem.CostUsage
import MiniSiem.Lib.FirstCome
import MiniSiem.Lib.Interference
import MiniSiem.Lib.MachineInt
import Mathlib.Data.List.AList

/-! # Metric labels of tenants

`set_tenant_label_limit` and `bounded_tenant_label` of `monitoring/metrics.rs`.

* **Sections.**  A call looks the tenant up under the lock; if it is not there it reads the limit, and takes
  the lock again.  Any number of calls run at the same time, lock section by lock section.
* **Register.**  The tenants of the map are the register of `FirstCome`: the second section looks again before
  it inserts, so the map is not filled beyond the limit (`resolve_spec`).
* **Labels.**  `labels_bounded_and_stable`: in any interleaving there are at most twice as many labels as the
  limit, and a tenant has one. -/

namespace MiniSiem

open Atomic FirstCome

/-- `TENANT_LABELS` and `TENANT_LABEL_LIMIT`. -/
structure TenantLabels where
  labels : AList fun _ : String => String
  limit : UInt64

def setTenantLabelLimit (limit : UInt64) (s : TenantLabels) : TenantLabels := { s with limit := max limit 1 }

inductive LabelCmd
  | get (tenantId : String)
  | loadLimit
  | resolve (tenantId : String) (limit : UInt64)

abbrev LabelCmd.Reply : LabelCmd → Type
  | get _ => Option String
  | loadLimit => UInt64
  | resolve _ _ => String

abbrev LabelProg := Prog LabelCmd LabelCmd.Reply

section labels

variable (hash : String → UInt64)

/-- The label of a bucket. -/
def bucketLabel (limit : UInt64) (tenantId : String) : String :=
  "tenant_bucket_" ++ pad 3 ((hash tenantId).toNat % limit.toNat)

/-- The second section under the lock. -/
def resolveLabel (tenantId : String) (limit : UInt64) (s : TenantLabels) : String × TenantLabels :=
  match s.labels.lookup tenantId with
  | some existing => (existing, s)
  | none =>
      if s.labels.entries.length < limit.toNat then
        (tenantId, { s with labels := s.labels.insert tenantId tenantId })
      else (bucketLabel hash limit tenantId, s)

def execLabels (_ : Unit) : (c : LabelCmd) → TenantLabels → c.Reply × TenantLabels
  | .get tenantId, s => (s.labels.lookup tenantId, s)
  | .loadLimit, s => (s.limit, s)
  | .resolve tenantId limit, s => resolveLabel hash tenantId limit s

/-- `bounded_tenant_label`. -/
def boundedTenantLabel (tenantId : String) : LabelProg String :=
  .call (.get tenantId) fun
    | some existing => .ret existing
    | none => .call .loadLimit fun limit => .call (.resolve tenantId (max limit 1)) .ret

/-! ### The register -/

namespace TenantLabels

/-- The limit that a call goes by. -/
def room (s : TenantLabels) : UInt64 := max s.limit 1

def tenants (s : TenantLabels) : Finset String := s.labels.keys.toFinset

/-- The limit stays, and the register grows up to it. -/
instance : Preorder TenantLabels where
  le s s' := s'.limit = s.limit ∧ Grows s.room.toNat s.tenants s'.tenants
  le_refl s := ⟨rfl, grows_refl _⟩
  le_trans s s' s'' h h' := by
    refine ⟨h'.1.trans h.1, h.2.trans ?_⟩
    have hroom : s'.room = s.room := congrArg (max · 1) h.1
    rw [← hroom]
    exact h'.2

/-- The limit is `n`, each tenant of the map has its own name as label, and there are no more than `n`. -/
structure Proper (n : UInt64) (s : TenantLabels) : Prop where
  room_eq : s.room = n
  own : ∀ tenantId label, s.labels.lookup tenantId = some label → label = tenantId
  size : s.tenants.card ≤ n.toNat

/-- The label of a tenant is settled. -/
def Settled (tenantId : String) (s : TenantLabels) (label : String) : Prop :=
  Assigned s.room.toNat id (bucketLabel hash s.room) s.tenants tenantId label

variable {hash} {n : UInt64} {s s' : TenantLabels} {tenantId label : String}

theorem room_eq_of_le (h : s ≤ s') : s'.room = s.room := congrArg (max · 1) h.1

theorem Settled.mono (h : s.Settled hash tenantId label) (hle : s ≤ s') : s'.Settled hash tenantId label := by
  unfold Settled
  rw [room_eq_of_le hle]
  exact Assigned.mono h hle.2

theorem mem_tenants : tenantId ∈ s.tenants ↔ ∃ label, s.labels.lookup tenantId = some label := by
  unfold tenants
  rw [List.mem_toFinset, ← AList.mem_keys, ← AList.lookup_isSome, Option.isSome_iff_exists]

theorem card_tenants (s : TenantLabels) : s.tenants.card = s.labels.entries.length := by
  unfold tenants
  rw [List.toFinset_card_of_nodup s.labels.keys_nodup]
  exact List.length_map _

theorem tenants_insert (s : TenantLabels) (tenantId label : String) :
    tenants { s with labels := s.labels.insert tenantId label } = insert tenantId s.tenants := by
  ext t
  unfold tenants
  rw [Finset.mem_insert, List.mem_toFinset, List.mem_toFinset, ← AList.mem_keys, ← AList.mem_keys,
    AList.mem_insert]

/-- A label that is found is settled. -/
theorem Proper.settled_of_lookup (h : s.Proper n) (hfound : s.labels.lookup tenantId = some label) :
    s.Settled hash tenantId label :=
  Or.inl ⟨mem_tenants.mpr ⟨label, hfound⟩, h.own tenantId label hfound⟩

variable (hash tenantId) in
/-- The second section lets the register grow, keeps it proper and settles the label. -/
theorem resolve_spec (h : s.Proper n) :
    s ≤ (resolveLabel hash tenantId s.room s).2 ∧
      (resolveLabel hash tenantId s.room s).2.Proper n ∧
      (resolveLabel hash tenantId s.room s).2.Settled hash tenantId
        (resolveLabel hash tenantId s.room s).1 := by
  unfold resolveLabel
  cases hfound : s.labels.lookup tenantId with
  | some existing => exact ⟨le_rfl, h, h.settled_of_lookup hfound⟩
  | none =>
      have hout : tenantId ∉ s.tenants := fun hin => by
        obtain ⟨label, hlabel⟩ := mem_tenants.mp hin
        rw [hfound] at hlabel
        cases hlabel
      dsimp only
      rw [← card_tenants]
      by_cases hroom : s.tenants.card < s.room.toNat
      · rw [if_pos hroom]
        have htenants := s.tenants_insert tenantId tenantId
        refine ⟨⟨rfl, ?_⟩, ⟨h.room_eq, fun t label hlabel => ?_, ?_⟩, Or.inl ⟨?_, rfl⟩⟩
        · rw [htenants]
          exact grows_insert hroom tenantId
        · by_cases ht : t = tenantId
          · subst ht
            rw [AList.lookup_insert] at hlabel
            exact (Option.some.inj hlabel).symm
          · rw [AList.lookup_insert_ne ht] at hlabel
            exact h.own t label hlabel
        · rw [htenants, Finset.card_insert_of_notMem hout, ← h.room_eq]
          exact hroom
        · rw [htenants]
          exact Finset.mem_insert_self _ _
      · rw [if_neg hroom]
        exact ⟨le_rfl, h, Or.inr ⟨not_lt.mp hroom, hout, rfl⟩⟩

end TenantLabels

/-! ### Calls -/

/-- A call goes by the limit that is set. -/
def GoesByLimit (s : TenantLabels) (c : LabelCmd) : Prop :=
  ∀ tenantId limit, c = .resolve tenantId limit → limit = s.room

abbrev EndsSettled (n : UInt64) (tenantId : String) (s : TenantLabels) (p : LabelProg String) : Prop :=
  p.Respects (execLabels hash) (fun _ _ => True) (TenantLabels.Proper n) GoesByLimit
    (TenantLabels.Settled hash tenantId) s

theorem boundedTenantLabel_endsSettled (n : UInt64) (tenantId : String) (s : TenantLabels) :
    EndsSettled hash n tenantId s (boundedTenantLabel tenantId) := by
  refine Prog.respects_call fun s₁ _ hproper₁ => ⟨(fun _ _ heq => nomatch heq), fun _ _ => ?_⟩
  dsimp only [execLabels]
  cases hfound : s₁.labels.lookup tenantId with
  | some existing => exact hproper₁.settled_of_lookup hfound
  | none =>
      refine Prog.respects_call fun s₂ _ _ => ⟨(fun _ _ heq => nomatch heq), fun _ _ => ?_⟩
      -- the limit that has been read is still the one that is set
      refine Prog.respects_call fun s₃ hle hproper₃ => ?_
      have hlimit : max s₂.limit 1 = s₃.room := (TenantLabels.room_eq_of_le hle).symm
      refine ⟨?_, fun _ _ => ?_⟩
      · rintro _ _ ⟨⟩
        exact hlimit
      · dsimp only [execLabels]
        rw [hlimit]
        exact (TenantLabels.resolve_spec hash tenantId hproper₃).2.2

variable {hash}

theorem execLabels_spec {n : UInt64} {c : LabelCmd} {s : TenantLabels} (h : s.Proper n)
    (hc : GoesByLimit s c) : s ≤ (execLabels hash () c s).2 ∧ (execLabels hash () c s).2.Proper n := by
  cases c with
  | get tenantId => exact ⟨le_rfl, h⟩
  | loadLimit => exact ⟨le_rfl, h⟩
  | resolve tenantId limit =>
      obtain rfl := hc tenantId limit rfl
      obtain ⟨hle, hproper, -⟩ := TenantLabels.resolve_spec hash tenantId h
      exact ⟨hle, hproper⟩

/-- There are no more buckets than the limit. -/
theorem encard_buckets_le {limit : UInt64} (hlimit : 0 < limit.toNat) :
    (Set.range (bucketLabel hash limit)).encard ≤ limit.toNat := by
  have hsub : Set.range (bucketLabel hash limit) ⊆
      (fun k => "tenant_bucket_" ++ pad 3 k) '' (Finset.range limit.toNat : Set ℕ) := by
    rintro _ ⟨tenantId, rfl⟩
    exact ⟨_, Finset.mem_coe.mpr (Finset.mem_range.mpr (Nat.mod_lt _ hlimit)), rfl⟩
  calc (Set.range (bucketLabel hash limit)).encard
      ≤ ((fun k => "tenant_bucket_" ++ pad 3 k) '' (Finset.range limit.toNat : Set ℕ)).encard :=
        Set.encard_le_encard hsub
    _ ≤ (Finset.range limit.toNat : Set ℕ).encard := Set.encard_image_le _ _
    _ = limit.toNat := by rw [Set.encard_coe_eq_coe_finsetCard, Finset.card_range]

section pools

variable {ι : Type} [DecidableEq ι]

/-- Any calls, after the limit has been set. -/
def labelPool (tenants : ι → String) (limit : UInt64) : Pool ι LabelCmd LabelCmd.Reply String TenantLabels :=
  ⟨fun i => boundedTenantLabel (tenants i), setTenantLabelLimit limit ⟨∅, 128⟩⟩

variable (hash) in
abbrev labelsAfter (tenants : ι → String) (limit : UInt64) (schedule : List (ι × Unit)) :
    Pool ι LabelCmd LabelCmd.Reply String TenantLabels :=
  Pool.run (execLabels hash) schedule (labelPool tenants limit)

variable (hash) in
theorem labelsAfter_settled (tenants : ι → String) (limit : UInt64) (schedule : List (ι × Unit)) :
    (labelsAfter hash tenants limit schedule).store.Proper (max limit 1) ∧ ∀ i,
      EndsSettled hash (max limit 1) (tenants i) (labelsAfter hash tenants limit schedule).store
        ((labelsAfter hash tenants limit schedule).progs i) := by
  refine Pool.respects_run (Q := fun i => TenantLabels.Settled hash (tenants i)) ?_ ?_ ?_
    (Pool.meets_true schedule) ?_ fun i => boundedTenantLabel_endsSettled hash _ _ _
  · exact fun i s s' label hle h => h.mono hle
  · exact fun _ c s _ hproper hc => (execLabels_spec hproper hc).1
  · exact fun _ c s _ hproper hc => (execLabels_spec hproper hc).2
  · refine ⟨UInt64.toNat_inj.mp ?_, (fun tenantId label hfound => nomatch hfound), Nat.zero_le _⟩
    show (max (max limit 1) 1).toNat = (max limit 1).toNat
    rw [MachineInt.toNat_uint64_max, MachineInt.toNat_uint64_max, max_eq_left (le_max_right _ _)]

/-- **Labels are bounded and stable**, whatever the tenants and the interleaving: the calls have returned at
most twice as many labels as the limit, and for one tenant one label. -/
theorem labels_bounded_and_stable (hash : String → UInt64) (tenants : ι → String) (limit : UInt64)
    (schedule : List (ι × Unit)) :
    {label | ∃ i, (labelsAfter hash tenants limit schedule).progs i = .ret label}.encard ≤
        2 * (max limit 1).toNat ∧
      ∀ i j label label', tenants i = tenants j →
        (labelsAfter hash tenants limit schedule).progs i = .ret label →
        (labelsAfter hash tenants limit schedule).progs j = .ret label' → label = label' := by
  obtain ⟨hproper, hsettles⟩ := labelsAfter_settled hash tenants limit schedule
  have hsettled : ∀ i label, (labelsAfter hash tenants limit schedule).progs i = .ret label →
      (labelsAfter hash tenants limit schedule).store.Settled hash (tenants i) label := by
    intro i label hreturned
    have hi := hsettles i
    rw [hreturned] at hi
    exact hi
  constructor
  · have hroom : 0 < (max limit 1).toNat := by
      rw [MachineInt.toNat_uint64_max]
      exact lt_max_of_lt_right Nat.one_pos
    rw [two_mul]
    have hlabels : {label | ∃ i, (labelsAfter hash tenants limit schedule).progs i = .ret label} ⊆
        {label | ∃ tenantId, Assigned (max limit 1).toNat id (bucketLabel hash (max limit 1))
          (labelsAfter hash tenants limit schedule).store.tenants tenantId label} := by
      rintro label ⟨i, hreturned⟩
      have hlabel := hsettled i label hreturned
      unfold TenantLabels.Settled at hlabel
      rw [hproper.room_eq] at hlabel
      exact ⟨tenants i, hlabel⟩
    exact (Set.encard_le_encard hlabels).trans (encard_assigned_le hproper.size (encard_buckets_le hroom))
  · intro i j label label' hsame hi hj
    have hlabel := hsettled i label hi
    rw [hsame] at hlabel
    exact hlabel.unique (hsettled j label' hj)

end pools

end labels

end MiniSiem
