import Mathlib.Data.List.Sort
import Mathlib.Data.List.TakeWhile

/-!
# Stable sorting by a key

`sorted(xs, key=f)` and `ORDER BY f LIMIT 1` are both read through the first
element of a stable sort, or the first with a property. What is needed of it: it
is a least element, there is one exactly when there is a candidate, and a least
candidate in front stays the first one.
-/
namespace FlowDiscovery

variable {α β : Type*} [LinearOrder β]

/-- `sorted(l, key=key)`. -/
def sortedBy (key : α → β) (l : List α) : List α := l.insertionSort fun a b => key a ≤ key b

theorem mem_sortedBy (key : α → β) (l : List α) (x : α) : x ∈ sortedBy key l ↔ x ∈ l :=
  List.mem_insertionSort _

theorem head?_sortedBy_eq_none_iff (key : α → β) (l : List α) :
    (sortedBy key l).head? = none ↔ l = [] := by
  rw [List.head?_eq_none_iff, List.eq_nil_iff_forall_not_mem, List.eq_nil_iff_forall_not_mem]
  simp only [mem_sortedBy]

theorem head?_sortedBy_least {key : α → β} {l : List α} {x : α}
    (h : (sortedBy key l).head? = some x) : x ∈ l ∧ ∀ y ∈ l, key x ≤ key y := by
  have htotal : Std.Total fun a b => key a ≤ key b := ⟨fun _ _ => le_total _ _⟩
  have htrans : IsTrans α fun a b => key a ≤ key b := ⟨fun _ _ _ => le_trans⟩
  have hsorted := List.pairwise_insertionSort (fun a b => key a ≤ key b) l
  obtain ⟨rest, hrest⟩ := List.head?_eq_some_iff.mp h
  have hmem : ∀ y, y ∈ l ↔ y = x ∨ y ∈ rest := by
    intro y
    rw [← mem_sortedBy key, hrest, List.mem_cons]
  rw [sortedBy] at hrest
  rw [hrest] at hsorted
  refine ⟨(hmem x).mpr (.inl rfl), fun y hy => ?_⟩
  rcases (hmem y).mp hy with rfl | hy
  · exact le_rfl
  · exact List.rel_of_pairwise_cons hsorted hy

theorem head?_sortedBy_cons {key : α → β} {x : α} {rest : List α}
    (h : ∀ y ∈ rest, key x ≤ key y) : (sortedBy key (x :: rest)).head? = some x := by
  rw [sortedBy, List.insertionSort_cons_of_forall_rel _ h, List.head?_cons]

/-! ## The first element with a property -/

theorem sortedBy_perm (key : α → β) (l : List α) : (sortedBy key l).Perm l :=
  List.perm_insertionSort _ l

theorem pairwise_sortedBy (key : α → β) (l : List α) :
    (sortedBy key l).Pairwise fun a b => key a ≤ key b := by
  have htotal : Std.Total fun a b => key a ≤ key b := ⟨fun _ _ => le_total _ _⟩
  have htrans : IsTrans α fun a b => key a ≤ key b := ⟨fun _ _ _ => le_trans⟩
  exact List.pairwise_insertionSort (fun a b => key a ≤ key b) l

/-- What is cut off behind the first `n` elements is no smaller than any of them. -/
theorem take_sortedBy_le_drop (key : α → β) (n : ℕ) (l : List α) :
    ∀ a ∈ (sortedBy key l).take n, ∀ b ∈ (sortedBy key l).drop n, key a ≤ key b := by
  have hsorted := pairwise_sortedBy key l
  rw [← List.take_append_drop n (sortedBy key l), List.pairwise_append] at hsorted
  exact hsorted.2.2

theorem find?_sortedBy_least {key : α → β} {l : List α} {p : α → Bool} {x : α}
    (h : (sortedBy key l).find? p = some x) :
    x ∈ l ∧ p x = true ∧ ∀ y ∈ l, p y = true → key x ≤ key y := by
  obtain ⟨hx, before, after, hsplit, hbefore⟩ := List.find?_eq_some_iff_append.mp h
  have hsorted := pairwise_sortedBy key l
  have hmem : ∀ y, y ∈ l ↔ y ∈ before ∨ y = x ∨ y ∈ after := by
    intro y
    rw [← mem_sortedBy key, hsplit, List.mem_append, List.mem_cons]
  rw [hsplit, List.pairwise_append] at hsorted
  refine ⟨(hmem x).mpr (.inr (.inl rfl)), hx, fun y hy hpy => ?_⟩
  rcases (hmem y).mp hy with hy | rfl | hy
  · have hnot := hbefore y hy
    rw [hpy] at hnot
    cases hnot
  · exact le_rfl
  · exact List.rel_of_pairwise_cons hsorted.2.1 hy

/-- Elements that sort before `x` strictly do not have the property, and stability
keeps `x` before the elements with the same key. -/
theorem find?_sortedBy_cons {key : α → β} {p : α → Bool} {x : α} {rest : List α}
    (hx : p x = true) (h : ∀ y ∈ rest, p y = true → key x ≤ key y) :
    (sortedBy key (x :: rest)).find? p = some x := by
  rw [sortedBy, List.insertionSort_cons, List.orderedInsert_eq_take_drop, List.find?_append]
  have hnone : ((rest.insertionSort fun a b => key a ≤ key b).takeWhile
      fun b => decide ¬key x ≤ key b).find? p = none := by
    rw [List.find?_eq_none]
    intro y hy hpy
    have hlt := List.mem_takeWhile_imp hy
    have hrest : y ∈ rest := (List.mem_insertionSort _).mp ((List.takeWhile_sublist _).subset hy)
    simp only [decide_not, Bool.not_eq_true', decide_eq_false_iff_not] at hlt
    exact hlt (h y hrest hpy)
  rw [hnone, Option.none_or, List.find?_cons_of_pos hx]

/-! ## Reordered lists -/

/-- A property of at most one element is found whatever the order. -/
theorem find?_eq_of_perm {l l' : List α} {p : α → Bool} (hperm : l.Perm l')
    (huniq : ∀ x ∈ l, ∀ y ∈ l, p x = true → p y = true → x = y) : l.find? p = l'.find? p := by
  cases h : l.find? p with
  | none =>
    rw [List.find?_eq_none] at h
    refine (List.find?_eq_none.mpr fun x hx => h x (hperm.mem_iff.mpr hx)).symm
  | some x =>
    have hx := List.mem_of_find?_eq_some h
    have hpx := List.find?_some h
    cases h' : l'.find? p with
    | none => exact absurd hpx (List.find?_eq_none.mp h' x (hperm.mem_iff.mp hx))
    | some y =>
      have hy := hperm.mem_iff.mpr (List.mem_of_find?_eq_some h')
      rw [huniq x hx y hy hpx (List.find?_some h')]

/-- A key that separates the elements leaves no choice to the sort. -/
theorem sortedBy_eq_of_perm {key : α → β} {l l' : List α} (hperm : l.Perm l')
    (hinj : ∀ x ∈ l, ∀ y ∈ l, key x = key y → x = y) : sortedBy key l = sortedBy key l' := by
  have hsorts : (sortedBy key l).Perm (sortedBy key l') :=
    (sortedBy_perm key l).trans (hperm.trans (sortedBy_perm key l').symm)
  refine hsorts.eq_of_pairwise (fun a b ha hb hab hba => ?_) (pairwise_sortedBy key l)
    (pairwise_sortedBy key l')
  rw [mem_sortedBy] at ha hb
  exact hinj a ha b (hperm.mem_iff.mpr hb) (le_antisymm hab hba)

end FlowDiscovery
