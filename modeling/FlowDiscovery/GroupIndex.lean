import FlowDiscovery.Dict
import Mathlib.Data.Finset.Insert

/-!
# In-memory view of the group memberships

`load` rebuilds all three maps from the rows of `user_groups`. The size map is a
counting dictionary that reads as zero for unknown groups, so it is kept as a
total function; a set of groups contributes one to each of its members.
-/
namespace FlowDiscovery

/-- One row of `SELECT user_upn, group_id, group_name FROM user_groups`. -/
structure GroupRow where
  userUpn : String
  groupId : String
  groupName : String
  deriving DecidableEq, Repr

structure GroupIndex where
  userGroups : Dict String (Finset String)
  groupSize : String → ℕ
  groupName : Dict String String

namespace GroupIndex

/-- The index before the first load. -/
def fresh : GroupIndex := ⟨.empty, fun _ => 0, .empty⟩

def collectGroups (rows : List GroupRow) : Dict String (Finset String) :=
  rows.foldl (fun ug r => ug.update r.userUpn ∅ fun gs => insert r.groupId gs) .empty

def collectNames (rows : List GroupRow) : Dict String String :=
  rows.foldl (fun names r => names.set r.groupId r.groupName) .empty

/-- One pass over the users, adding one at each group of the user. -/
def countMembers (ug : Dict String (Finset String)) : String → ℕ :=
  ug.entries.foldl (fun sizes e g => sizes g + if g ∈ e.2 then 1 else 0) fun _ => 0

/-- What `load` leaves behind once its fetch has returned these rows. -/
def load (rows : List GroupRow) : GroupIndex :=
  let ug := collectGroups rows
  ⟨ug, countMembers ug, collectNames rows⟩

def groupsOf (gi : GroupIndex) (user : String) : Finset String := gi.userGroups.getD user ∅

def sizeOf (gi : GroupIndex) (groupId : String) : ℕ := gi.groupSize groupId

def nameOf (gi : GroupIndex) (groupId : String) : String := gi.groupName.getD groupId groupId

/-! ## What a load makes of the rows -/

/-- Users with a row for the group. -/
def members (table : List GroupRow) (g : String) : Finset String :=
  ((table.filter fun r => r.groupId = g).map GroupRow.userUpn).toFinset

theorem mem_members (table : List GroupRow) (g u : String) :
    u ∈ members table g ↔ ∃ r ∈ table, r.groupId = g ∧ r.userUpn = u := by
  simp [members, and_assoc]

theorem mem_collectGroups (table : List GroupRow) (u g : String) :
    g ∈ (collectGroups table).getD u ∅ ↔ u ∈ members table g := by
  have hfold : ∀ (rows : List GroupRow) (ug : Dict String (Finset String)),
      g ∈ (rows.foldl (fun ug r => ug.update r.userUpn ∅ fun gs => insert r.groupId gs)
        ug).getD u ∅ ↔ g ∈ ug.getD u ∅ ∨ ∃ r ∈ rows, r.groupId = g ∧ r.userUpn = u := by
    intro rows
    induction rows with
    | nil => simp
    | cons r rest ih =>
      intro ug
      rw [List.foldl_cons, ih, Dict.getD_update]
      by_cases hu : r.userUpn = u
      · simp only [hu, if_true, Finset.mem_insert, List.mem_cons, exists_eq_or_imp, and_true,
          eq_comm (a := g)]
        tauto
      · simp [hu]
  rw [mem_members, collectGroups, hfold]
  simp [Dict.getD]

/-- The groups of a user are the groups with a row for the user. -/
theorem mem_groupsOf_load (table : List GroupRow) (u g : String) :
    g ∈ (load table).groupsOf u ↔ u ∈ members table g := mem_collectGroups table u g

theorem countMembers_eq (ug : Dict String (Finset String)) (g : String) :
    countMembers ug g = (ug.entries.filter fun e => g ∈ e.2).length := by
  have hfold : ∀ (entries : List (String × Finset String)) (sizes : String → ℕ),
      entries.foldl (fun sizes e g => sizes g + if g ∈ e.2 then 1 else 0) sizes g =
        sizes g + (entries.filter fun e => g ∈ e.2).length := by
    intro entries
    induction entries with
    | nil => simp
    | cons e rest ih =>
      intro sizes
      rw [List.foldl_cons, ih]
      by_cases he : g ∈ e.2 <;> simp [he, add_assoc, add_comm]
  rw [countMembers, hfold, zero_add]

/-- The size of a group is the number of its members. -/
theorem groupSize_load (table : List GroupRow) (g : String) :
    (load table).groupSize g = (members table g).card := by
  set ug := collectGroups table with hug
  -- the users counted for the group, each once since the keys are distinct
  have hnodup : ((ug.entries.filter fun e => g ∈ e.2).map Prod.fst).Nodup :=
    ug.nodup.sublist (List.filter_sublist.map Prod.fst)
  have hcounted : ((ug.entries.filter fun e => g ∈ e.2).map Prod.fst).toFinset =
      members table g := by
    ext u
    rw [← mem_collectGroups, ← hug, Dict.getD]
    simp only [List.mem_toFinset, List.mem_map, List.mem_filter, decide_eq_true_eq, Prod.exists,
      exists_and_right, exists_eq_right, ← Dict.get?_eq_some_iff]
    cases ug.get? u <;> simp
  calc countMembers ug g = ((ug.entries.filter fun e => g ∈ e.2).map Prod.fst).length := by
        rw [countMembers_eq, List.length_map]
    _ = (members table g).card := by rw [← List.toFinset_card_of_nodup hnodup, hcounted]

end GroupIndex
end FlowDiscovery
