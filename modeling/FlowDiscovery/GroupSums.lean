import FlowDiscovery.Dict

/-!
# Sums per key

A query with `GROUP BY` and sums, as one pass over the rows. Its groups come in some
order, so results are compared up to a permutation. Sums of sums over coarser keys are
the sums over the rows.
-/
namespace FlowDiscovery

/-- One group per key with the sum of the values of its rows. -/
def groupSums {κ β M : Type*} [DecidableEq κ] [AddCommMonoid M] (key : β → κ) (value : β → M)
    (rows : List β) : Dict κ M :=
  rows.foldl (fun sums r => sums.update (key r) 0 (· + value r)) .empty

namespace GroupSums

variable {κ β M : Type*} [DecidableEq κ]

/-- Dictionaries with the same content list it up to order. -/
theorem entries_perm {d d' : Dict κ M} (h : ∀ k, d.get? k = d'.get? k) :
    d.entries.Perm d'.entries := by
  have hnodup : ∀ d : Dict κ M, d.entries.Nodup := fun d => d.nodup.of_map
  rw [List.perm_ext_iff_of_nodup (hnodup d) (hnodup d')]
  rintro ⟨k, v⟩
  rw [← Dict.get?_eq_some_iff, ← Dict.get?_eq_some_iff, h]

variable [AddCommMonoid M] (key : β → κ) (value : β → M)

theorem groupSums_append (rows : List β) (r : β) :
    groupSums key value (rows ++ [r]) =
      (groupSums key value rows).update (key r) 0 (· + value r) := by
  simp [groupSums, List.foldl_append]

/-- The sum of a group, which exists when the key has a row. -/
theorem get?_groupSums (rows : List β) (k : κ) :
    (groupSums key value rows).get? k =
      if ∃ r ∈ rows, key r = k then some (((rows.filter fun r => key r = k).map value).sum)
      else none := by
  induction rows using List.reverseRecOn with
  | nil => simp [groupSums]
  | append_singleton rows r ih =>
    rw [groupSums_append, Dict.get?_update, Dict.getD]
    by_cases hk : key r = k
    · have hnone : (¬ ∃ r ∈ rows, key r = k) → rows.filter (fun r => key r = k) = [] := by
        intro h
        simpa [List.filter_eq_nil_iff] using h
      rw [if_pos hk, if_pos ⟨r, by simp, hk⟩, hk, ih]
      split_ifs with hrow
      · simp [hk]
      · simp [hk, hnone hrow]
    · rw [if_neg hk, ih]
      simp [hk]

/-- A weight that is additive sums over the groups as over the rows. -/
theorem sumBy_groupSums {N : Type*} [AddCommMonoid N] (w : κ → M → N) (hzero : ∀ k, w k 0 = 0)
    (hadd : ∀ k v v', w k (v + v') = w k v + w k v') (rows : List β) :
    (groupSums key value rows).sumBy w = (rows.map fun r => w (key r) (value r)).sum := by
  induction rows using List.reverseRecOn with
  | nil => rfl
  | append_singleton rows r ih =>
    rw [groupSums_append, Dict.sumBy_update w _ _ _ _ (w (key r) (value r)) (hzero _)
      (fun v => hadd _ v _), ih]
    simp

theorem mem_keys_groupSums (rows : List β) (k : κ) :
    k ∈ (groupSums key value rows).keys ↔ ∃ r ∈ rows, key r = k := by
  rw [groupSums, Dict.mem_keys_foldl_update key (fun _ => 0) fun r v => v + value r]
  simp [Dict.keys]

theorem groupSums_perm {rows rows' : List β} (h : rows.Perm rows') :
    (groupSums key value rows).entries.Perm (groupSums key value rows').entries := by
  refine entries_perm fun k => ?_
  simp only [get?_groupSums, h.mem_iff, ((h.filter fun r => key r = k).map value).sum_eq]

theorem groupSums_map {γ : Type*} (f : γ → β) (rows : List γ) :
    groupSums key value (rows.map f) = groupSums (fun r => key (f r)) (fun r => value (f r)) rows := by
  rw [groupSums, groupSums, List.foldl_map]

/-- The groups, listed by their keys. -/
theorem groupSums_listed (rows : List β) :
    (groupSums key value rows).entries.Perm ((rows.map key).dedup.map fun k =>
      (k, ((rows.filter fun r => key r = k).map value).sum)) := by
  have hlisted : ((rows.map key).dedup.map fun k =>
      (k, ((rows.filter fun r => key r = k).map value).sum)).Nodup :=
    (List.nodup_dedup _).map fun k k' h => (Prod.ext_iff.mp h).1
  rw [List.perm_ext_iff_of_nodup (groupSums key value rows).nodup.of_map hlisted]
  rintro ⟨k, v⟩
  rw [← Dict.get?_eq_some_iff, get?_groupSums]
  simp only [List.mem_map, List.mem_dedup, Prod.mk.injEq]
  constructor
  · intro h
    split_ifs at h with hrow
    exact ⟨k, hrow, rfl, Option.some.inj h⟩
  · rintro ⟨k', hrow, rfl, rfl⟩
    rw [if_pos hrow]

lemma sum_filter_map (p : β → Bool) (f : β → M) (rows : List β) :
    ((rows.filter p).map f).sum = (rows.map fun r => if p r then f r else 0).sum := by
  induction rows with
  | nil => rfl
  | cons r rest ih =>
    by_cases hr : p r <;> simp [hr, ih]

variable {ι : Type*} [DecidableEq ι]

/-- Selecting and regrouping sums is selecting and grouping the rows they are of. -/
theorem regroup_perm (coarse : κ → ι) (keep : κ → Prop) [DecidablePred keep] (rows : List β) :
    (groupSums (fun e => coarse e.1) Prod.snd
      ((groupSums key value rows).entries.filter fun e => keep e.1)).entries.Perm
    (groupSums (fun r => coarse (key r)) value (rows.filter fun r => keep (key r))).entries := by
  refine entries_perm fun i => ?_
  have hkey : (∃ e ∈ (groupSums key value rows).entries.filter (fun e => keep e.1), coarse e.1 = i) ↔
      ∃ r ∈ rows.filter (fun r => keep (key r)), coarse (key r) = i := by
    have hkeys := mem_keys_groupSums key value rows
    simp only [List.mem_filter, decide_eq_true_eq]
    constructor
    · rintro ⟨e, ⟨he, hkeep⟩, hi⟩
      obtain ⟨r, hr, hk⟩ := (hkeys e.1).mp (List.mem_map_of_mem he)
      exact ⟨r, ⟨hr, hk ▸ hkeep⟩, hk ▸ hi⟩
    · rintro ⟨r, ⟨hr, hkeep⟩, hi⟩
      obtain ⟨e, he, hk⟩ := List.mem_map.mp ((hkeys (key r)).mpr ⟨r, hr, rfl⟩)
      exact ⟨e, ⟨he, hk ▸ hkeep⟩, hk ▸ hi⟩
  have hsum : ((((groupSums key value rows).entries.filter fun e => keep e.1).filter
      fun e => coarse e.1 = i).map Prod.snd).sum =
      (((rows.filter fun r => keep (key r)).filter fun r => coarse (key r) = i).map value).sum := by
    have hgroups := sumBy_groupSums key value
      (fun k v => if coarse k = i ∧ keep k then v else 0) (by simp)
      (fun k v v' => by split_ifs <;> simp) rows
    rw [Dict.sumBy] at hgroups
    rw [List.filter_filter, List.filter_filter, sum_filter_map, sum_filter_map]
    simpa using hgroups
  rw [get?_groupSums, get?_groupSums]
  simp only [hkey, hsum]

end GroupSums
end FlowDiscovery
