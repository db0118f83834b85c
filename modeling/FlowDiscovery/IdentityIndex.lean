import FlowDiscovery.Dict
import FlowDiscovery.EventTypes
import FlowDiscovery.KeyedSort
import Mathlib.Data.Prod.Lex

/-!
# The in-memory identity index

One interval tree per source address. Of the tree package the model assumes what
the index relies on: a tree is a set of half-open intervals with a point query.
Python leaves open in which order a set is iterated, so the order is a parameter
of every lookup. Timestamps are exact here. Where `timestamp()` rounds to a float,
the difference in `ttl_remaining` can be one off when the end is beyond `2^31` seconds,
in the year 2038, while comparisons are exact until the year 2242.
-/
namespace FlowDiscovery
open PyTime

/-- An identity event as the index reads it. A stop may come without a user. -/
structure IndexEvent where
  srcIp : String
  ts : Instant
  eventType : IdentityEventType
  ttlSeconds : ℤ
  userUpn : Option String
  confidence : ℤ
  source : String
  deriving DecidableEq, Repr

/-- The event as it arrives at the index. -/
def IdentityEvent.toIndexEvent (ev : IdentityEvent) : IndexEvent where
  srcIp := ev.srcIp
  ts := ev.ts
  eventType := ev.eventType
  ttlSeconds := ev.ttlSeconds
  userUpn := some ev.userUpn
  confidence := ev.confidence
  source := ev.source

structure Binding where
  userUpn : String
  confidence : ℤ
  source : String
  tStart : Instant
  deriving DecidableEq, Repr

/-- An interval of a tree. It starts with its binding and lasts a positive whole
number of seconds, as the tree refuses empty intervals. -/
structure BindingInterval where
  beginTs : Instant
  endTs : Instant
  data : Binding
  begin_eq : beginTs = data.tStart
  lasts : ∃ n : ℤ, 0 < n ∧ endTs = beginTs + seconds n
  deriving DecidableEq

namespace BindingInterval

/-- The half-open interval contains the instant. -/
def Covers (t : Instant) (iv : BindingInterval) : Prop := iv.beginTs ≤ t ∧ t < iv.endTs

instance (t : Instant) : DecidablePred (Covers t) := fun _ => inferInstanceAs (Decidable (_ ∧ _))

/-- Confidence first, then the start: the order in which bindings win. -/
def rank (iv : BindingInterval) : ℤ ×ₗ ℤ := toLex (iv.data.confidence, iv.data.tStart)

/-- The key given to `sorted`. -/
def sortKey (iv : BindingInterval) : ℤ ×ₗ ℤ := toLex (-iv.data.confidence, -iv.data.tStart)

theorem sortKey_le_iff (a b : BindingInterval) : a.sortKey ≤ b.sortKey ↔ b.rank ≤ a.rank := by
  simp only [sortKey, rank, Prod.Lex.toLex_le_toLex]
  omega

end BindingInterval

/-- One way of listing the elements of a set. -/
structure SetOrder (α : Type*) where
  list : Finset α → List α
  list_eq : ∀ s : Finset α, (list s : Multiset α) = s.val

/-- Some order; which one is left open. -/
noncomputable def SetOrder.choice (α : Type*) : SetOrder α := ⟨Finset.toList, Finset.coe_toList⟩

theorem SetOrder.mem_list {α : Type*} (order : SetOrder α) (s : Finset α) (x : α) :
    x ∈ order.list s ↔ x ∈ s := by
  rw [← Multiset.mem_coe, order.list_eq, Finset.mem_val]

/-- What a lookup returns. -/
structure Resolved where
  userUpn : String
  confidence : ℤ
  source : String
  tStart : Instant
  ttlRemaining : ℤ
  deriving DecidableEq, Repr

/-- Exceptions an insert can raise. -/
inductive InsertError where
  | overflow
  | missingUser
  | nullInterval
  deriving DecidableEq, Repr

structure IdentityIndex where
  trees : Dict String (Finset BindingInterval)

namespace IdentityIndex
open BindingInterval

def fresh : IdentityIndex := ⟨.empty⟩

def IsStop (ev : IndexEvent) : Prop := ev.eventType = .nacAuthStop ∨ ev.ttlSeconds = 0

instance (ev : IndexEvent) : Decidable (IsStop ev) := inferInstanceAs (Decidable (_ ∨ _))

/-- `_invalidate`. A missing and an empty tree are left alone. -/
def invalidate (idx : IdentityIndex) (ip : String) (user : Option String) : IdentityIndex :=
  match idx.trees.get? ip with
  | none => idx
  | some tree =>
    if tree = ∅ then idx
    else
      match user with
      | none => ⟨idx.trees.set ip ∅⟩
      | some u => ⟨idx.trees.set ip (tree.filter fun iv => iv.data.userUpn ≠ u)⟩

theorem pos_of_lt_add_seconds {t : Instant} {n : ℤ} (h : t < t + seconds n) : 0 < n := by
  have hpos : 0 < n * microsPerSecond := (lt_add_iff_pos_right t).mp h
  exact pos_of_mul_pos_left hpos (by decide)

/-- The interval of a start with this end. -/
def intervalOf (ev : IndexEvent) (user : String) (stop : Instant)
    (hstop : stop = ev.ts + seconds ev.ttlSeconds) (hlt : ev.ts < stop) : BindingInterval where
  beginTs := ev.ts
  endTs := stop
  data := ⟨user, ev.confidence, ev.source, ev.ts⟩
  begin_eq := rfl
  lasts := ⟨ev.ttlSeconds, pos_of_lt_add_seconds (hstop ▸ hlt), hstop⟩

/-- `end = t + timedelta(seconds=...)` with what is known of it; `none` is the
overflow. -/
def closing? (ev : IndexEvent) : Option {stop : Instant // stop = ev.ts + seconds ev.ttlSeconds} :=
  if (addSeconds? ev.ts ev.ttlSeconds).isSome then some ⟨ev.ts + seconds ev.ttlSeconds, rfl⟩
  else none

/-- `insert`. The end is computed before the tree is created, the binding and the
check for an empty interval come after it. -/
def insert (idx : IdentityIndex) (ev : IndexEvent) : IdentityIndex × Option InsertError :=
  if IsStop ev then (idx.invalidate ev.srcIp ev.userUpn, none)
  else
    match closing? ev with
    | none => (idx, some .overflow)
    | some stop =>
      let opened : IdentityIndex := ⟨idx.trees.setdefault ev.srcIp ∅⟩
      match ev.userUpn with
      | none => (opened, some .missingUser)
      | some user =>
        if hlt : ev.ts < stop then
          let iv := intervalOf ev user stop stop.2 hlt
          (⟨opened.trees.update ev.srcIp ∅ fun tree => Insert.insert iv tree⟩, none)
        else (opened, some .nullInterval)

/-- First hit in the order of the sort key. -/
def winner (order : SetOrder BindingInterval) (hits : Finset BindingInterval) :
    Option BindingInterval := (sortedBy sortKey (order.list hits)).head?

/-- The dictionary built from the winning interval. -/
def answer (t : Instant) (iv : BindingInterval) : Resolved where
  userUpn := iv.data.userUpn
  confidence := iv.data.confidence
  source := iv.data.source
  tStart := iv.data.tStart
  ttlRemaining := (iv.endTs - t).tdiv microsPerSecond

/-- `resolve`: the answer, and the index after the lazy eviction. -/
def resolve (idx : IdentityIndex) (order : SetOrder BindingInterval) (ip : String)
    (t : Instant) : Option Resolved × IdentityIndex :=
  match idx.trees.get? ip with
  | none => (none, idx)
  | some tree =>
    if tree = ∅ then (none, idx)
    else
      let kept := tree.filter fun iv => ¬ iv.endTs ≤ t
      if kept = ∅ then (none, ⟨idx.trees.erase ip⟩)
      else ((winner order (kept.filter (Covers t))).map (answer t), ⟨idx.trees.set ip kept⟩)

/-! ## The winning interval -/

theorem winner_eq_none_iff (order : SetOrder BindingInterval) (hits : Finset BindingInterval) :
    winner order hits = none ↔ hits = ∅ := by
  rw [winner, head?_sortedBy_eq_none_iff, List.eq_nil_iff_forall_not_mem,
    Finset.eq_empty_iff_forall_notMem]
  simp only [order.mem_list]

@[simp] theorem winner_empty (order : SetOrder BindingInterval) : winner order ∅ = none :=
  (winner_eq_none_iff order ∅).mpr rfl

/-- A lookup picks a maximal hit in confidence and start. -/
theorem winner_maximal {order : SetOrder BindingInterval} {hits : Finset BindingInterval}
    {iv : BindingInterval} (h : winner order hits = some iv) :
    iv ∈ hits ∧ ∀ iv' ∈ hits, iv'.rank ≤ iv.rank := by
  obtain ⟨hmem, hleast⟩ := head?_sortedBy_least h
  refine ⟨(order.mem_list hits iv).mp hmem, fun iv' hiv' => ?_⟩
  exact (sortKey_le_iff iv iv').mp (hleast iv' ((order.mem_list hits iv').mpr hiv'))

/-- Whichever maximal hit is listed first wins. -/
theorem winner_of_list_cons {order : SetOrder BindingInterval} {hits : Finset BindingInterval}
    {iv : BindingInterval} {rest : List BindingInterval} (hlist : order.list hits = iv :: rest)
    (hmax : ∀ iv' ∈ hits, iv'.rank ≤ iv.rank) : winner order hits = some iv := by
  rw [winner, hlist]
  apply head?_sortedBy_cons
  intro iv' hiv'
  refine (sortKey_le_iff iv iv').mpr (hmax iv' ?_)
  rw [← order.mem_list, hlist]
  exact List.mem_cons_of_mem _ hiv'

/-! ## What each operation does to the tree of an address -/

/-- The tree of an address, empty when there is none. -/
def tree (idx : IdentityIndex) (ip : String) : Finset BindingInterval := idx.trees.getD ip ∅

@[simp] theorem tree_fresh (ip : String) : fresh.tree ip = ∅ := rfl

theorem invalidate_tree (idx : IdentityIndex) (ip ip' : String) (user : Option String) :
    (idx.invalidate ip user).tree ip' =
      if ip = ip' then
        match user with
        | none => ∅
        | some u => (idx.tree ip').filter fun iv => iv.data.userUpn ≠ u
      else idx.tree ip' := by
  unfold invalidate tree
  by_cases hip : ip = ip'
  · subst hip
    rw [if_pos rfl]
    cases hg : idx.trees.get? ip with
    | none => cases user <;> simp [Dict.getD, hg]
    | some tree =>
      by_cases he : tree = ∅
      · cases user <;> simp [Dict.getD, hg, he]
      · cases user <;> simp [Dict.getD, hg, he]
  · rw [if_neg hip]
    cases hg : idx.trees.get? ip with
    | none => rfl
    | some tree =>
      by_cases he : tree = ∅
      · simp [he]
      · cases user <;> simp [he, Dict.getD_set, hip]

/-- Eviction drops no interval that contains the probed instant. -/
theorem filter_covers_kept (s : Finset BindingInterval) (t : Instant) :
    (s.filter fun iv => ¬ iv.endTs ≤ t).filter (Covers t) = s.filter (Covers t) := by
  ext iv
  simp only [Finset.mem_filter, Covers]
  constructor
  · exact fun h => ⟨h.1.1, h.2⟩
  · exact fun h => ⟨⟨h.1, not_le.mpr h.2.2⟩, h.2⟩

theorem resolve_answer (idx : IdentityIndex) (order : SetOrder BindingInterval) (ip : String)
    (t : Instant) :
    (idx.resolve order ip t).1 =
      (winner order ((idx.tree ip).filter (Covers t))).map (answer t) := by
  unfold resolve tree
  cases hg : idx.trees.get? ip with
  | none => simp [Dict.getD, hg]
  | some tree =>
    simp only [Dict.getD, hg, Option.getD_some]
    rw [← filter_covers_kept tree t]
    split_ifs with he hk
    · simp [he]
    · rw [hk]
      simp
    · rfl

theorem resolve_tree (idx : IdentityIndex) (order : SetOrder BindingInterval) (ip ip' : String)
    (t : Instant) :
    (idx.resolve order ip t).2.tree ip' =
      if ip = ip' then (idx.tree ip').filter fun iv => ¬ iv.endTs ≤ t else idx.tree ip' := by
  unfold resolve tree
  by_cases hip : ip = ip'
  · subst hip
    rw [if_pos rfl]
    cases hg : idx.trees.get? ip with
    | none => simp [Dict.getD, hg]
    | some tree =>
      by_cases he : tree = ∅
      · simp [Dict.getD, hg, he]
      · by_cases hk : (tree.filter fun iv => ¬ iv.endTs ≤ t) = ∅
        · simp only [he, hk, if_true, if_false]
          simp only [Dict.getD, Dict.get?_erase, hg, if_true, Option.getD_some, Option.getD_none]
          exact hk.symm
        · simp only [he, hk, if_false]
          simp [Dict.getD, hg]
  · rw [if_neg hip]
    cases hg : idx.trees.get? ip with
    | none => rfl
    | some tree =>
      dsimp only
      split_ifs
      · rfl
      · simp [Dict.getD, Dict.get?_erase, hip]
      · simp [Dict.getD, hip]

/-- The interval an event adds to its address; `none` for a stop and for a start
that raises. -/
def startInterval? (ev : IndexEvent) : Option BindingInterval :=
  if IsStop ev then none
  else
    match closing? ev, ev.userUpn with
    | some stop, some user =>
      if hlt : ev.ts < stop then some (intervalOf ev user stop stop.2 hlt) else none
    | _, _ => none

theorem insert_stop (idx : IdentityIndex) (ev : IndexEvent) (h : IsStop ev) :
    idx.insert ev = (idx.invalidate ev.srcIp ev.userUpn, none) := by
  rw [insert, if_pos h]

theorem setdefault_tree (d : Dict String (Finset BindingInterval)) (ip ip' : String) :
    tree ⟨d.setdefault ip ∅⟩ ip' = tree ⟨d⟩ ip' := by
  unfold tree Dict.setdefault
  rw [Dict.getD_update]
  split_ifs with h
  · simp [h]
  · rfl

/-- A start adds its interval to its own address, or raises and adds nothing. -/
theorem insert_start (idx : IdentityIndex) (ev : IndexEvent) (h : ¬ IsStop ev) (ip : String) :
    (idx.insert ev).1.tree ip =
      (if ev.srcIp = ip then (startInterval? ev).toFinset else ∅) ∪ idx.tree ip ∧
    ((idx.insert ev).2 = none ↔ (startInterval? ev).isSome) := by
  rw [insert, startInterval?, if_neg h, if_neg h]
  cases hc : closing? ev with
  | none => simp
  | some stop =>
    cases hu : ev.userUpn with
    | none => simp [setdefault_tree]
    | some user =>
      by_cases hlt : ev.ts < stop
      · simp only [hlt, dif_pos]
        refine ⟨?_, by simp⟩
        unfold tree
        rw [Dict.getD_update]
        have hopened := setdefault_tree idx.trees ev.srcIp
        unfold tree at hopened
        split_ifs with hip
        · subst hip
          rw [hopened]
          ext iv
          simp
        · rw [hopened, Finset.empty_union]
      · simp [hlt, setdefault_tree]

end IdentityIndex
end FlowDiscovery
