import Mathlib.Algebra.BigOperators.Group.Finset.Basic
import Mathlib.Algebra.BigOperators.Group.List.Basic
import Mathlib.Data.List.Nodup
import Mathlib.Tactic

/-!
# Insertion-ordered dictionaries

A dictionary is its list of entries in order of first insertion, with distinct
keys. Updating an existing key keeps its place, as the language's `dict` does.
`update` is the one writing operation: `d.setdefault(k, v0)` followed by a
mutation of the stored value.
-/
namespace FlowDiscovery

structure Dict (κ α : Type*) where
  entries : List (κ × α)
  nodup : (entries.map Prod.fst).Nodup
  deriving DecidableEq

namespace Dict

variable {κ α M : Type*}

def empty : Dict κ α := ⟨[], List.nodup_nil⟩

instance : Inhabited (Dict κ α) := ⟨empty⟩

def keys (d : Dict κ α) : List κ := d.entries.map Prod.fst

@[simp] theorem entries_empty : (empty : Dict κ α).entries = [] := rfl

/-- Sum of a weight over all entries. -/
def sumBy [AddCommMonoid M] (w : κ → α → M) (d : Dict κ α) : M :=
  (d.entries.map fun e => w e.1 e.2).sum

@[simp] theorem sumBy_empty [AddCommMonoid M] (w : κ → α → M) :
    (empty : Dict κ α).sumBy w = 0 := rfl

variable [DecidableEq κ]

/-- The stored value, read by scanning the entries. -/
def lookup (k : κ) : List (κ × α) → Option α
  | [] => none
  | (k', v) :: rest => if k' = k then some v else lookup k rest

def get? (d : Dict κ α) (k : κ) : Option α := lookup k d.entries

def getD (d : Dict κ α) (k : κ) (v : α) : α := (d.get? k).getD v

@[simp] theorem get?_empty (k : κ) : (empty : Dict κ α).get? k = none := rfl

/-- Apply `f` to the value at `k`, or append `f v0` when the key is new. -/
def upsert (k : κ) (v0 : α) (f : α → α) : List (κ × α) → List (κ × α)
  | [] => [(k, f v0)]
  | (k', v) :: rest => if k' = k then (k', f v) :: rest else (k', v) :: upsert k v0 f rest

theorem upsert_keys (k : κ) (v0 : α) (f : α → α) (l : List (κ × α)) :
    (upsert k v0 f l).map Prod.fst =
      if k ∈ l.map Prod.fst then l.map Prod.fst else l.map Prod.fst ++ [k] := by
  induction l with
  | nil => simp [upsert]
  | cons e rest ih =>
    obtain ⟨k', v⟩ := e
    by_cases h : k' = k
    · simp [upsert, h]
    · have h' : k ≠ k' := fun he => h he.symm
      simp only [upsert, h, if_false, List.map_cons, ih, List.mem_cons, h', false_or]
      split_ifs <;> simp

theorem upsert_nodup (k : κ) (v0 : α) (f : α → α) (l : List (κ × α))
    (h : (l.map Prod.fst).Nodup) : ((upsert k v0 f l).map Prod.fst).Nodup := by
  rw [upsert_keys]
  split_ifs with hk
  · exact h
  · exact List.nodup_append.mpr ⟨h, List.nodup_singleton k,
      fun a ha b hb he => hk (by simp only [List.mem_singleton] at hb; rwa [← hb, ← he])⟩

def update (d : Dict κ α) (k : κ) (v0 : α) (f : α → α) : Dict κ α :=
  ⟨upsert k v0 f d.entries, upsert_nodup k v0 f d.entries d.nodup⟩

/-- Plain assignment `d[k] = v`. -/
def set (d : Dict κ α) (k : κ) (v : α) : Dict κ α := d.update k v fun _ => v

/-- `d.setdefault(k, v)` without a later mutation. -/
def setdefault (d : Dict κ α) (k : κ) (v : α) : Dict κ α := d.update k v id

/-- `d.pop(k)`; the value is read with `get?` first. -/
def erase (d : Dict κ α) (k : κ) : Dict κ α :=
  ⟨d.entries.filter fun e => e.1 ≠ k, d.nodup.sublist (List.filter_sublist.map Prod.fst)⟩

theorem lookup_upsert (k k' : κ) (v0 : α) (f : α → α) (l : List (κ × α)) :
    lookup k' (upsert k v0 f l) =
      if k = k' then some (f ((lookup k l).getD v0)) else lookup k' l := by
  induction l with
  | nil => simp [upsert, lookup]
  | cons e rest ih =>
    obtain ⟨a, v⟩ := e
    by_cases ha : a = k
    · subst ha
      by_cases hk : a = k' <;> simp [upsert, lookup, hk]
    · by_cases hk : k = k'
      · subst hk
        simpa [upsert, lookup, ha] using ih
      · by_cases hak : a = k'
        · subst hak
          simp [upsert, lookup, ha, hk]
        · simpa [upsert, lookup, ha, hak, hk] using ih

@[simp] theorem get?_update (d : Dict κ α) (k k' : κ) (v0 : α) (f : α → α) :
    (d.update k v0 f).get? k' = if k = k' then some (f (d.getD k v0)) else d.get? k' :=
  lookup_upsert k k' v0 f d.entries

@[simp] theorem get?_set (d : Dict κ α) (k k' : κ) (v : α) :
    (d.set k v).get? k' = if k = k' then some v else d.get? k' := get?_update d k k' v _

/-- A comprehension `{key(x): value(x) for x in xs}`: the last value of a key stays. -/
theorem get?_foldl_set_map {β : Type*} (key : β → κ) (value : β → α) (xs : List β)
    (d : Dict κ α) (k : κ) :
    (xs.foldl (fun d x => d.set (key x) (value x)) d).get? k =
      ((xs.reverse.find? fun x => key x = k).map value).or (d.get? k) := by
  induction xs generalizing d with
  | nil => rfl
  | cons x rest ih =>
    rw [List.foldl_cons, ih, get?_set, List.reverse_cons, List.find?_append, Option.map_or,
      Option.or_assoc]
    by_cases h : key x = k <;> simp [h]

theorem get?_foldl_set (key : α → κ) (xs : List α) (d : Dict κ α) (k : κ) :
    (xs.foldl (fun d x => d.set (key x) x) d).get? k =
      (xs.reverse.find? fun x => key x = k).or (d.get? k) := by
  rw [get?_foldl_set_map key (fun x => x), Option.map_id_fun', id]

/-- With `setdefault` the first value of a key stays. -/
theorem get?_foldl_setdefault {β : Type*} (key : β → κ) (value : β → α) (xs : List β)
    (d : Dict κ α) (k : κ) :
    (xs.foldl (fun d x => d.setdefault (key x) (value x)) d).get? k =
      (d.get? k).or ((xs.find? fun x => key x = k).map value) := by
  induction xs generalizing d with
  | nil => simp
  | cons x rest ih =>
    rw [List.foldl_cons, ih, setdefault, get?_update]
    by_cases h : key x = k
    · subst h
      cases hget : d.get? (key x) <;> simp [getD, hget]
    · simp [h]

theorem getD_update (d : Dict κ α) (k k' : κ) (v0 : α) (f : α → α) (v : α) :
    (d.update k v0 f).getD k' v = if k = k' then f (d.getD k v0) else d.getD k' v := by
  rw [getD, get?_update]
  split_ifs <;> rfl

theorem getD_set (d : Dict κ α) (k k' : κ) (w v : α) :
    (d.set k w).getD k' v = if k = k' then w else d.getD k' v := getD_update d k k' w _ v

theorem keys_update (d : Dict κ α) (k : κ) (v0 : α) (f : α → α) :
    (d.update k v0 f).keys = if k ∈ d.keys then d.keys else d.keys ++ [k] :=
  upsert_keys k v0 f d.entries

theorem mem_keys_update (d : Dict κ α) (k k' : κ) (v0 : α) (f : α → α) :
    k' ∈ (d.update k v0 f).keys ↔ k' = k ∨ k' ∈ d.keys := by
  rw [keys_update]
  split_ifs with h
  · exact ⟨Or.inr, fun hk => hk.elim (fun he => he ▸ h) id⟩
  · simp [or_comm]

theorem lookup_eq_some_of_mem {l : List (κ × α)} (hn : (l.map Prod.fst).Nodup) {k : κ} {v : α}
    (h : (k, v) ∈ l) : lookup k l = some v := by
  induction l with
  | nil => simp at h
  | cons e rest ih =>
    obtain ⟨a, w⟩ := e
    simp only [List.map_cons, List.nodup_cons] at hn
    rcases List.mem_cons.mp h with he | hr
    · cases he
      simp [lookup]
    · have hak : a ≠ k := by
        intro he
        exact hn.1 (he ▸ List.mem_map.mpr ⟨(k, v), hr, rfl⟩)
      simpa [lookup, hak] using ih hn.2 hr

theorem mem_of_lookup_eq_some {l : List (κ × α)} {k : κ} {v : α}
    (h : lookup k l = some v) : (k, v) ∈ l := by
  induction l with
  | nil => simp [lookup] at h
  | cons e rest ih =>
    obtain ⟨a, w⟩ := e
    by_cases hak : a = k
    · simp only [lookup, hak, if_true, Option.some.injEq] at h
      simp [hak, h]
    · simp only [lookup, hak, if_false] at h
      exact List.mem_cons_of_mem _ (ih h)

theorem get?_eq_some_iff (d : Dict κ α) (k : κ) (v : α) :
    d.get? k = some v ↔ (k, v) ∈ d.entries :=
  ⟨mem_of_lookup_eq_some, lookup_eq_some_of_mem d.nodup⟩

theorem get?_isSome_iff (d : Dict κ α) (k : κ) : (d.get? k).isSome ↔ k ∈ d.keys := by
  simp only [Option.isSome_iff_exists, get?_eq_some_iff, keys, List.mem_map, Prod.exists,
    exists_and_right, exists_eq_right]

theorem get?_eq_none_iff (d : Dict κ α) (k : κ) : d.get? k = none ↔ k ∉ d.keys := by
  rw [← get?_isSome_iff, Option.not_isSome_iff_eq_none]

/-- What holds of the entries still does after an update that keeps it. -/
theorem forall_entries_update {P : κ → α → Prop} {d : Dict κ α}
    (h : ∀ e ∈ d.entries, P e.1 e.2) {k : κ} {v0 : α} {f : α → α} (h0 : P k (f v0))
    (hf : ∀ v, P k v → P k (f v)) : ∀ e ∈ (d.update k v0 f).entries, P e.1 e.2 := by
  rintro ⟨k', v⟩ he
  rw [← get?_eq_some_iff, get?_update] at he
  split_ifs at he with hk
  · subst hk
    obtain rfl := Option.some.inj he
    cases hget : d.get? k with
    | none => simpa only [getD, hget, Option.getD_none] using h0
    | some w =>
      have hw := h (k, w) ((get?_eq_some_iff d k w).mp hget)
      simpa only [getD, hget, Option.getD_some] using hf w hw
  · exact h (k', v) ((get?_eq_some_iff d k' v).mp he)

theorem forall_entries_foldl_update {β : Type*} {P : κ → α → Prop} (key : β → κ) (v0 : β → α)
    (f : β → α → α) (h0 : ∀ x, P (key x) (f x (v0 x)))
    (hf : ∀ x v, P (key x) v → P (key x) (f x v)) (xs : List β) {d : Dict κ α}
    (h : ∀ e ∈ d.entries, P e.1 e.2) :
    ∀ e ∈ (xs.foldl (fun d x => d.update (key x) (v0 x) (f x)) d).entries, P e.1 e.2 := by
  induction xs generalizing d with
  | nil => exact h
  | cons x rest ih => exact ih (forall_entries_update h (h0 x) (hf x))

theorem mem_keys_foldl_update {β : Type*} (key : β → κ) (v0 : β → α) (f : β → α → α)
    (xs : List β) (d : Dict κ α) (k : κ) :
    k ∈ (xs.foldl (fun d x => d.update (key x) (v0 x) (f x)) d).keys ↔
      k ∈ d.keys ∨ ∃ x ∈ xs, key x = k := by
  induction xs generalizing d with
  | nil => simp
  | cons x rest ih =>
    rw [List.foldl_cons, ih, mem_keys_update]
    simp only [List.mem_cons, exists_eq_or_imp, eq_comm (a := k)]
    tauto

/-- Every element of the list has left a value under its key. -/
theorem exists_value_foldl_update {β : Type*} {P : κ → α → Prop} (key : β → κ) (v0 : β → α)
    (f : β → α → α) (h0 : ∀ x, P (key x) (f x (v0 x)))
    (hf : ∀ x v, P (key x) v → P (key x) (f x v)) {xs : List β} {x : β} (hx : x ∈ xs) :
    ∃ v ∈ (xs.foldl (fun (d : Dict κ α) x => d.update (key x) (v0 x) (f x)) .empty).entries.map Prod.snd,
      P (key x) v := by
  have hkey := (mem_keys_foldl_update key v0 f xs .empty (key x)).mpr (.inr ⟨x, hx, rfl⟩)
  obtain ⟨e, he, hfst⟩ := List.mem_map.mp hkey
  have hvalue := forall_entries_foldl_update key v0 f h0 hf xs (d := .empty) (by simp) e he
  exact ⟨e.2, List.mem_map.mpr ⟨e, he, rfl⟩, hfst ▸ hvalue⟩

omit [DecidableEq κ] in
/-- Where every value carries its own key, the values list the keys. -/
theorem map_values_eq_keys {ident : α → κ} {d : Dict κ α}
    (h : ∀ e ∈ d.entries, ident e.2 = e.1) : (d.entries.map Prod.snd).map ident = d.keys := by
  rw [List.map_map, keys]
  exact List.map_congr_left h

theorem mem_entries_erase (d : Dict κ α) (k : κ) (e : κ × α) :
    e ∈ (d.erase k).entries ↔ e ∈ d.entries ∧ e.1 ≠ k := by
  simp [erase]

theorem get?_erase (d : Dict κ α) (k k' : κ) :
    (d.erase k).get? k' = if k = k' then none else d.get? k' := by
  apply Option.ext
  intro v
  rw [get?_eq_some_iff, mem_entries_erase]
  split_ifs with h
  · simp [h]
  · rw [get?_eq_some_iff]
    exact ⟨fun hm => hm.1, fun hm => ⟨hm, fun he => h he.symm⟩⟩

theorem sum_upsert [AddCommMonoid M] (w : κ → α → M) (k : κ) (v0 : α) (f : α → α) (c : M)
    (h0 : w k v0 = 0) (hf : ∀ v, w k (f v) = w k v + c) (l : List (κ × α)) :
    ((upsert k v0 f l).map fun e => w e.1 e.2).sum = (l.map fun e => w e.1 e.2).sum + c := by
  induction l with
  | nil => simp [upsert, hf, h0]
  | cons e rest ih =>
    obtain ⟨a, v⟩ := e
    by_cases ha : a = k
    · subst ha
      simp only [upsert, if_true, List.map_cons, List.sum_cons, hf]
      exact add_right_comm _ _ _
    · simp only [upsert, ha, if_false, List.map_cons, List.sum_cons, ih, add_assoc]

/-- An update that adds `c` to the weight of whatever value is stored adds `c`
to the sum, whether or not the key was present. -/
theorem sumBy_update [AddCommMonoid M] (w : κ → α → M) (d : Dict κ α) (k : κ) (v0 : α)
    (f : α → α) (c : M) (h0 : w k v0 = 0) (hf : ∀ v, w k (f v) = w k v + c) :
    (d.update k v0 f).sumBy w = d.sumBy w + c := sum_upsert w k v0 f c h0 hf d.entries

theorem sum_filter_ne [AddCommMonoid M] (w : κ → α → M) (k : κ) (v : α) (l : List (κ × α))
    (hn : (l.map Prod.fst).Nodup) (h : (k, v) ∈ l) :
    ((l.filter fun e => e.1 ≠ k).map fun e => w e.1 e.2).sum + w k v =
      (l.map fun e => w e.1 e.2).sum := by
  induction l with
  | nil => simp at h
  | cons e rest ih =>
    obtain ⟨a, u⟩ := e
    simp only [List.map_cons, List.nodup_cons, List.mem_map, Prod.exists, exists_and_right,
      exists_eq_right, not_exists] at hn
    rcases List.mem_cons.mp h with he | hr
    · cases he
      have hrest : (rest.filter fun e => e.1 ≠ k) = rest := by
        apply List.filter_eq_self.mpr
        rintro ⟨b, y⟩ hb
        simp only [ne_eq, decide_not, Bool.not_eq_eq_eq_not, Bool.not_true, decide_eq_false_iff_not]
        rintro rfl
        exact hn.1 y hb
      simp only [ne_eq, not_true_eq_false, decide_false, Bool.false_eq_true, not_false_eq_true,
        List.filter_cons_of_neg, List.map_cons, List.sum_cons, hrest]
      exact add_comm _ _
    · have hak : a ≠ k := by
        rintro rfl
        exact hn.1 v hr
      simp only [ne_eq, hak, not_false_eq_true, decide_true, List.filter_cons_of_pos,
        List.map_cons, List.sum_cons, add_assoc]
      rw [ih hn.2 hr]

/-- Popping an entry removes exactly its weight. -/
theorem sumBy_erase [AddCommMonoid M] (w : κ → α → M) (d : Dict κ α) (k : κ) (v : α)
    (h : d.get? k = some v) : (d.erase k).sumBy w + w k v = d.sumBy w :=
  sum_filter_ne w k v d.entries d.nodup ((get?_eq_some_iff d k v).mp h)

omit [DecidableEq κ] in
theorem sum_eq_zero_of_absent [AddCommMonoid M] (w : κ → α → M) (k : κ) (l : List (κ × α))
    (hk : k ∉ l.map Prod.fst) (hw : ∀ k' v, k' ≠ k → w k' v = 0) :
    (l.map fun e => w e.1 e.2).sum = 0 := by
  apply List.sum_eq_zero
  intro x hx
  obtain ⟨e, he, rfl⟩ := List.mem_map.mp hx
  exact hw e.1 e.2 fun h => hk (h ▸ List.mem_map.mpr ⟨e, he, rfl⟩)

/-- A weight that vanishes away from one key sums to its value there. -/
theorem sumBy_single [AddCommMonoid M] (w : κ → α → M) (d : Dict κ α) (k : κ) (v0 : α)
    (h0 : w k v0 = 0) (hw : ∀ k' v, k' ≠ k → w k' v = 0) :
    d.sumBy w = w k (d.getD k v0) := by
  by_cases hk : k ∈ d.keys
  · obtain ⟨v, hv⟩ := Option.isSome_iff_exists.mp ((get?_isSome_iff d k).mpr hk)
    have herase := sumBy_erase w d k v hv
    have hrest : (d.erase k).sumBy w = 0 := by
      refine sum_eq_zero_of_absent w k _ ?_ hw
      intro hmem
      obtain ⟨e, he, hek⟩ := List.mem_map.mp hmem
      exact ((mem_entries_erase d k e).mp he).2 hek
    rw [← herase, hrest, zero_add, getD, hv, Option.getD_some]
  · have hzero : d.sumBy w = 0 := sum_eq_zero_of_absent w k d.entries hk hw
    rw [hzero, getD, (get?_eq_none_iff d k).mpr hk, Option.getD_none, h0]

/-- A sum over the entries is one over any set that has all the keys. -/
theorem sumBy_eq_sum [AddCommMonoid M] (w : κ → α → M) (d : Dict κ α) {s : Finset κ}
    (h : ∀ k ∈ d.keys, k ∈ s) : d.sumBy w = ∑ k ∈ s, (d.get? k).elim 0 (w k) := by
  have hnodup : d.keys.Nodup := d.nodup
  have habsent : ∀ k ∈ s, k ∉ d.keys.toFinset → (d.get? k).elim 0 (w k) = 0 := by
    intro k _ hk
    rw [(get?_eq_none_iff d k).mpr (by simpa using hk), Option.elim_none]
  have hsubset : d.keys.toFinset ⊆ s := fun k hk => h k (List.mem_toFinset.mp hk)
  rw [← Finset.sum_subset hsubset habsent, List.sum_toFinset _ hnodup, sumBy, keys, List.map_map]
  congr 1
  apply List.map_congr_left
  intro e he
  rw [Function.comp_apply, (get?_eq_some_iff d e.1 e.2).mpr he, Option.elim_some]

/-- Equal weights under every key give equal sums. -/
theorem sumBy_congr [AddCommMonoid M] (w : κ → α → M) {d d' : Dict κ α}
    (h : ∀ k, (d.get? k).elim 0 (w k) = (d'.get? k).elim 0 (w k)) : d.sumBy w = d'.sumBy w := by
  let both := d.keys.toFinset ∪ d'.keys.toFinset
  have hleft : ∀ k ∈ d.keys, k ∈ both := fun k hk => by simp [both, hk]
  have hright : ∀ k ∈ d'.keys, k ∈ both := fun k hk => by simp [both, hk]
  rw [sumBy_eq_sum w d hleft, sumBy_eq_sum w d' hright]
  exact Finset.sum_congr rfl fun k _ => h k

end Dict
end FlowDiscovery
