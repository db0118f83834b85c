import FlowDiscovery.GroupIndex
import FlowDiscovery.Machine
import Mathlib.Data.Finset.Sort
import Mathlib.Data.Set.Card
import Mathlib.Data.String.Basic

/-!
# Sizes of the groups

`load` counts the members of the groups in two nested loops over the map it has just
built, going through each set in the order it happens to have. Here the sizes are the
dictionary that the loops fill, and a load is a step on what earlier loads left behind.
Behind its query a load does not suspend, so overlapping ones end one after the other.
-/
namespace FlowDiscovery.GroupSizes
open Machine GroupIndex

structure Index where
  userGroups : Dict String (Finset String)
  groupSize : Dict String ℕ
  groupName : Dict String String

/-- The rows of a query, and the order in which each set of groups is gone through. -/
structure Fetched where
  rows : List GroupRow
  order : String × Finset String → List String
  order_nodup : ∀ e, (order e).Nodup
  mem_order : ∀ e g, g ∈ order e ↔ g ∈ e.2

/-- `sizes[g] += 1` on a dictionary that reads as zero. -/
def bump (sizes : Dict String ℕ) (g : String) : Dict String ℕ := sizes.update g 0 (· + 1)

def countGroups (order : String × Finset String → List String)
    (ug : Dict String (Finset String)) : Dict String ℕ :=
  ug.entries.foldl (fun sizes e => (order e).foldl bump sizes) .empty

namespace Index

def fresh : Index := ⟨.empty, .empty, .empty⟩

/-- A load whose query has returned rows, or raised. -/
def load (idx : Index) : Option Fetched → Index
  | none => idx
  | some f =>
    let ug := collectGroups f.rows
    ⟨ug, countGroups f.order ug, collectNames f.rows⟩

def groupsOf (idx : Index) (user : String) : Finset String := idx.userGroups.getD user ∅

def sizeOf (idx : Index) (groupId : String) : ℕ := idx.groupSize.getD groupId 0

def groupSizes (idx : Index) : Dict String ℕ := idx.groupSize

/-- The view of the index in which a size is read. -/
def view (idx : Index) : GroupIndex := ⟨idx.userGroups, idx.sizeOf, idx.groupName⟩

end Index

/-- The rows that were fetched last; none before the first load. -/
def lastRows (answers : List (Option Fetched)) : List GroupRow :=
  answers.foldl (fun rows answer => (answer.map Fetched.rows).getD rows) []

/-! ## The two loops -/

/-- A loop adds to each group the number of times it meets the group. -/
lemma get?_foldl_bump (gs : List String) (sizes : Dict String ℕ) (g : String) :
    (gs.foldl bump sizes).get? g =
      if g ∈ gs then some (sizes.getD g 0 + gs.count g) else sizes.get? g := by
  induction gs generalizing sizes with
  | nil => simp
  | cons x xs ih =>
    rw [List.foldl_cons, ih, bump, Dict.getD_update, Dict.get?_update]
    by_cases hx : x = g
    · subst hx
      rw [if_pos rfl, if_pos rfl, if_pos List.mem_cons_self, List.count_cons_self]
      split_ifs with hmem
      · congr 1
        omega
      · rw [List.count_eq_zero.mpr hmem, Dict.getD]
    · simp [hx, Ne.symm hx]

lemma count_order (f : Fetched) (e : String × Finset String) (g : String) :
    (f.order e).count g = if g ∈ e.2 then 1 else 0 := by
  rw [(f.order_nodup e).count]
  exact if_congr (f.mem_order e g) rfl rfl

/-- Both loops together count the users whose set has the group. -/
lemma get?_countGroups (f : Fetched) (ug : Dict String (Finset String)) (g : String) :
    (countGroups f.order ug).get? g =
      if countMembers ug g = 0 then none else some (countMembers ug g) := by
  have hcount : (ug.entries.flatMap f.order).count g = countMembers ug g := by
    rw [countMembers_eq]
    induction ug.entries with
    | nil => rfl
    | cons e rest ih =>
      rw [List.flatMap_cons, List.count_append, ih, count_order, List.filter_cons]
      by_cases he : g ∈ e.2
      · simp [he, Nat.add_comm]
      · simp [he]
  have hmem : g ∈ ug.entries.flatMap f.order ↔ countMembers ug g ≠ 0 := by
    rw [← hcount, ne_eq, List.count_eq_zero, not_not]
  rw [countGroups, ← List.foldl_flatMap, get?_foldl_bump, hcount]
  simp only [hmem, Dict.getD, Dict.get?_empty, Option.getD_none, Nat.zero_add, ite_not]

lemma getD_countGroups (f : Fetched) (ug : Dict String (Finset String)) (g : String) :
    (countGroups f.order ug).getD g 0 = countMembers ug g := by
  rw [Dict.getD, get?_countGroups]
  split_ifs with hzero
  · exact hzero.symm
  · rfl

/-! ## Loads -/

/-- What a load leaves behind is read as `GroupIndex.load` has it. -/
theorem view_load (idx : Index) (f : Fetched) : (idx.load (some f)).view = GroupIndex.load f.rows := by
  have hsize : (idx.load (some f)).sizeOf = countMembers (collectGroups f.rows) := by
    ext g
    exact getD_countGroups f _ g
  rw [Index.view, hsize]
  rfl

/-- The index holds what the rows say. -/
structure Reflects (table : List GroupRow) (idx : Index) : Prop where
  groups : ∀ u g, g ∈ idx.groupsOf u ↔ ∃ r ∈ table, r.userUpn = u ∧ r.groupId = g
  users : ∀ g, idx.sizeOf g = {u | g ∈ idx.groupsOf u}.ncard
  rows : ∀ g, idx.sizeOf g = (members table g).card
  listed : ∀ g, idx.groupSizes.get? g = if idx.sizeOf g = 0 then none else some (idx.sizeOf g)

/-- The users of a group are counted in either way. -/
lemma ncard_users {table : List GroupRow} {idx : Index} {g : String}
    (h : ∀ u, g ∈ idx.groupsOf u ↔ u ∈ members table g) :
    {u | g ∈ idx.groupsOf u}.ncard = (members table g).card := by
  have hset : {u | g ∈ idx.groupsOf u} = (members table g : Set String) := by
    ext u
    exact h u
  rw [hset, Set.ncard_coe_finset]

lemma fresh_reflects : Reflects [] .fresh where
  groups u g := by simp [Index.groupsOf, Index.fresh, Dict.getD]
  users g := by simp [Index.sizeOf, Index.groupsOf, Index.fresh, Dict.getD]
  rows g := by simp [Index.sizeOf, Index.fresh, Dict.getD, members]
  listed g := by simp [Index.sizeOf, Index.groupSizes, Index.fresh, Dict.getD]

/-- Nothing of the index before a load is left behind it. -/
theorem load_reflects (idx : Index) (f : Fetched) : Reflects f.rows (idx.load (some f)) := by
  have hgroups : ∀ u g, g ∈ (idx.load (some f)).groupsOf u ↔ u ∈ members f.rows g := fun u g =>
    mem_groupsOf_load f.rows u g
  have hsize : ∀ g, (idx.load (some f)).sizeOf g = (members f.rows g).card := by
    intro g
    rw [← groupSize_load, ← view_load idx f]
    rfl
  constructor
  case groups =>
    intro u g
    rw [hgroups, mem_members]
    exact exists_congr fun r => and_congr_right fun _ => and_comm
  case users =>
    intro g
    rw [hsize, ncard_users fun u => hgroups u g]
  case rows => exact hsize
  case listed =>
    intro g
    rw [Index.sizeOf, Index.groupSizes, Index.load, getD_countGroups]
    exact get?_countGroups f _ g

/-- After every sequence of loads the groups of a user are those paired with the user in
the rows that were fetched last, and the size of a group is the number of users who have it
and the number of distinct users paired with it. -/
theorem loads_reflect_lastRows (answers : List (Option Fetched)) :
    Reflects (lastRows answers) (run Index.load .fresh answers) := by
  induction answers using List.reverseRecOn with
  | nil => exact fresh_reflects
  | append_singleton earlier answer ih =>
    rw [run_append, lastRows, List.foldl_append]
    cases answer with
    | none => exact ih
    | some f => exact load_reflects (run Index.load .fresh earlier) f

/-- The sets gone through from the last identifier to the first. -/
def Fetched.sorted (rows : List GroupRow) : Fetched where
  rows := rows
  order e := e.2.sort (· ≥ ·)
  order_nodup e := e.2.sort_nodup (· ≥ ·)
  mem_order e _ := e.2.mem_sort (· ≥ ·)

/-- The second query has a row twice, the third one raises, and a user of the first query
only is no longer counted. -/
theorem loads_reflect_lastRows_twoUsers :
    (run Index.load .fresh [some (.sorted [⟨"c", "g1", "G1"⟩]),
      some (.sorted [⟨"a", "g1", "G1"⟩, ⟨"b", "g1", "G1"⟩, ⟨"a", "g2", "G2"⟩, ⟨"a", "g1", "G1"⟩]),
      none]).sizeOf "g1" = 2 := by
  rw [(loads_reflect_lastRows _).rows]
  decide

end FlowDiscovery.GroupSizes
