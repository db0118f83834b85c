import FlowDiscovery.GroupDecisions
import FlowDiscovery.IdentityIndex

/-!
# The common group, listing by listing

`lcd` walks over two sets: over the users to fetch their groups, and over the
candidates to take the minimum. Here both walks are lists that some enumeration
hands out, sizes are any integers, and the answer is shown to be the least
covering group whatever the enumeration.
-/
namespace FlowDiscovery

/-! ## The function as it runs -/

/-- `[set(user_groups[u]) for u in users]`; `none` is the `KeyError` of the first
user without an entry. -/
def fetchSets (userGroups : Dict String (Finset String)) :
    List String → Option (List (Finset String))
  | [] => some []
  | u :: rest =>
    match userGroups.get? u with
    | none => none
    | some gs => (fetchSets userGroups rest).map (gs :: ·)

/-- `set.intersection(*sets)`; the caller has at least one set. -/
def intersection : List (Finset String) → Finset String
  | [] => ∅
  | gs :: rest => rest.foldl (· ∩ ·) gs

/-- `group_size.get(g, 0)`. -/
def groupSizeOf (groupSize : Dict String ℤ) (g : String) : ℤ := groupSize.getD g 0

/-- `lambda g: (group_size.get(g, 0), g)`. -/
def sizeKey (groupSize : Dict String ℤ) (g : String) : ℤ ×ₗ String :=
  toLex (groupSizeOf groupSize g, g)

/-- `lcd` under one enumeration of the users and one of the candidates. -/
def lcdListed (userOrder groupOrder : SetOrder String) (users : Finset String)
    (userGroups : Dict String (Finset String)) (groupSize : Dict String ℤ)
    (excluded : Finset String) (floor : ℤ) : Option String :=
  if users = ∅ then none
  else
    match fetchSets userGroups (userOrder.list users) with
    | none => none
    | some sets =>
      let candidates := intersection sets \ excluded
      -- no candidate is the early `return None`, else `min` takes the first least one
      match (sortedBy (sizeKey groupSize) (groupOrder.list candidates)).head? with
      | none => none
      | some chosen =>
        if users.card = 1 ∧ floor < groupSizeOf groupSize chosen then none else some chosen

/-! ## The candidates -/

theorem fetchSets_eq_none_iff (userGroups : Dict String (Finset String)) (users : List String) :
    fetchSets userGroups users = none ↔ ∃ u ∈ users, userGroups.get? u = none := by
  induction users with
  | nil => simp [fetchSets]
  | cons u rest ih =>
    cases hu : userGroups.get? u with
    | none => simp [fetchSets, hu]
    | some gs => simp [fetchSets, hu, ih]

theorem mem_fetchSets {userGroups : Dict String (Finset String)} {users : List String}
    {sets : List (Finset String)} (h : fetchSets userGroups users = some sets)
    (gs : Finset String) : gs ∈ sets ↔ ∃ u ∈ users, userGroups.get? u = some gs := by
  induction users generalizing sets with
  | nil =>
    obtain rfl := Option.some.inj h
    simp
  | cons u rest ih =>
    cases hu : userGroups.get? u with
    | none => simp [fetchSets, hu] at h
    | some gs' =>
      simp only [fetchSets, hu, Option.map_eq_some_iff] at h
      obtain ⟨sets', hsets', rfl⟩ := h
      simp only [List.mem_cons, ih hsets', exists_eq_or_imp, hu, Option.some.injEq,
        eq_comm (a := gs)]

theorem mem_foldl_inter (sets : List (Finset String)) (start : Finset String) (g : String) :
    g ∈ sets.foldl (· ∩ ·) start ↔ g ∈ start ∧ ∀ gs ∈ sets, g ∈ gs := by
  induction sets generalizing start with
  | nil => simp
  | cons gs rest ih => rw [List.foldl_cons, ih, Finset.mem_inter, List.forall_mem_cons, and_assoc]

theorem mem_intersection {sets : List (Finset String)} (hne : sets ≠ []) (g : String) :
    g ∈ intersection sets ↔ ∀ gs ∈ sets, g ∈ gs := by
  cases sets with
  | nil => exact absurd rfl hne
  | cons gs rest => rw [intersection, mem_foldl_inter, List.forall_mem_cons]

/-- The group is in the entry of every user and not excluded. -/
def Covering (users : Finset String) (userGroups : Dict String (Finset String))
    (excluded : Finset String) (g : String) : Prop :=
  (∀ u ∈ users, ∃ gs, userGroups.get? u = some gs ∧ g ∈ gs) ∧ g ∉ excluded

theorem mem_candidates {userOrder : SetOrder String} {users : Finset String}
    {userGroups : Dict String (Finset String)} {sets : List (Finset String)}
    (hne : users ≠ ∅) (h : fetchSets userGroups (userOrder.list users) = some sets)
    (excluded : Finset String) (g : String) :
    g ∈ intersection sets \ excluded ↔ Covering users userGroups excluded g := by
  have hlist : ∀ u ∈ users, u ∈ userOrder.list users :=
    fun u hu => (userOrder.mem_list users u).mpr hu
  have hentry : ∀ u ∈ users, ∃ gs, userGroups.get? u = some gs := by
    intro u hu
    by_contra hmissing
    have hnone : userGroups.get? u = none := by
      simpa only [Option.eq_none_iff_forall_ne_some, not_exists] using hmissing
    have hfetch := (fetchSets_eq_none_iff userGroups (userOrder.list users)).mpr
      ⟨u, hlist u hu, hnone⟩
    simp [hfetch] at h
  obtain ⟨u, hu⟩ := Finset.nonempty_iff_ne_empty.mpr hne
  have hsets : sets ≠ [] := by
    obtain ⟨gs, hgs⟩ := hentry u hu
    exact List.ne_nil_of_mem ((mem_fetchSets h gs).mpr ⟨u, hlist u hu, hgs⟩)
  rw [Finset.mem_sdiff, mem_intersection hsets, Covering]
  refine and_congr_left fun _ => ?_
  constructor
  · intro hall u hu
    obtain ⟨gs, hgs⟩ := hentry u hu
    exact ⟨gs, hgs, hall gs ((mem_fetchSets h gs).mpr ⟨u, hlist u hu, hgs⟩)⟩
  · intro hall gs hgs
    obtain ⟨u, hu, hget⟩ := (mem_fetchSets h gs).mp hgs
    obtain ⟨gs', hget', hg⟩ := hall u ((userOrder.mem_list users u).mp hu)
    obtain rfl := Option.some.inj (hget.symm.trans hget')
    exact hg

/-! ## The answer -/

/-- Smaller, or of the same size and not after the other in the alphabet. -/
def SizeLe (groupSize : Dict String ℤ) (g h : String) : Prop :=
  groupSizeOf groupSize g < groupSizeOf groupSize h ∨
    groupSizeOf groupSize g = groupSizeOf groupSize h ∧ g ≤ h

theorem sizeKey_le_iff (groupSize : Dict String ℤ) (g h : String) :
    sizeKey groupSize g ≤ sizeKey groupSize h ↔ SizeLe groupSize g h :=
  Prod.Lex.toLex_le_toLex

theorem sizeKey_injective (groupSize : Dict String ℤ) : Function.Injective (sizeKey groupSize) :=
  fun _ _ h => congrArg (fun key => (ofLex key).2) h

/-- The minimum over a listing of a set is its least element. -/
theorem head?_listing_eq_some_iff (groupOrder : SetOrder String) (candidates : Finset String)
    (groupSize : Dict String ℤ) (g : String) :
    (sortedBy (sizeKey groupSize) (groupOrder.list candidates)).head? = some g ↔
      g ∈ candidates ∧ ∀ h ∈ candidates, SizeLe groupSize g h := by
  simp only [← sizeKey_le_iff]
  have hleast : ∀ m, (sortedBy (sizeKey groupSize) (groupOrder.list candidates)).head? = some m →
      m ∈ candidates ∧ ∀ h ∈ candidates, sizeKey groupSize m ≤ sizeKey groupSize h := by
    intro m hm
    obtain ⟨hlisted, hle⟩ := head?_sortedBy_least hm
    refine ⟨(groupOrder.mem_list candidates m).mp hlisted, fun h hh => ?_⟩
    exact hle h ((groupOrder.mem_list candidates h).mpr hh)
  refine ⟨hleast g, fun ⟨hg, hgleast⟩ => ?_⟩
  cases hhead : (sortedBy (sizeKey groupSize) (groupOrder.list candidates)).head? with
  | none =>
    have hlisted := (groupOrder.mem_list candidates g).mpr hg
    simp [(head?_sortedBy_eq_none_iff _ _).mp hhead] at hlisted
  | some m =>
    obtain ⟨hm, hmleast⟩ := hleast m hhead
    rw [sizeKey_injective groupSize (le_antisymm (hmleast g hg) (hgleast m hm))]

/-- What the function is for: the least covering group, unless there is one user
and that group is above the floor. -/
structure LeastCovering (users : Finset String) (userGroups : Dict String (Finset String))
    (groupSize : Dict String ℤ) (excluded : Finset String) (floor : ℤ) (g : String) : Prop where
  nonempty : users ≠ ∅
  entries : ∀ u ∈ users, u ∈ userGroups.keys
  covering : Covering users userGroups excluded g
  least : ∀ h, Covering users userGroups excluded h → SizeLe groupSize g h
  floored : ¬ (users.card = 1 ∧ floor < groupSizeOf groupSize g)

theorem Covering.entries {users : Finset String} {userGroups : Dict String (Finset String)}
    {excluded : Finset String} {g : String} (h : Covering users userGroups excluded g) :
    ∀ u ∈ users, u ∈ userGroups.keys := by
  intro u hu
  obtain ⟨gs, hgs, _⟩ := h.1 u hu
  exact (userGroups.get?_isSome_iff u).mp (by simp [hgs])

theorem lcdListed_eq_some_iff (userOrder groupOrder : SetOrder String) (users : Finset String)
    (userGroups : Dict String (Finset String)) (groupSize : Dict String ℤ)
    (excluded : Finset String) (floor : ℤ) (g : String) :
    lcdListed userOrder groupOrder users userGroups groupSize excluded floor = some g ↔
      LeastCovering users userGroups groupSize excluded floor g := by
  unfold lcdListed
  by_cases hne : users = ∅
  · rw [if_pos hne]
    exact iff_of_false (by simp) fun h => h.nonempty hne
  rw [if_neg hne]
  cases hfetch : fetchSets userGroups (userOrder.list users) with
  | none =>
    obtain ⟨u, hu, hnone⟩ := (fetchSets_eq_none_iff userGroups _).mp hfetch
    refine iff_of_false (by simp) fun h => ?_
    obtain ⟨gs, hgs, _⟩ := h.covering.1 u ((userOrder.mem_list users u).mp hu)
    simp [hnone] at hgs
  | some sets =>
    have hcand := mem_candidates hne hfetch excluded
    have hhead := head?_listing_eq_some_iff groupOrder (intersection sets \ excluded) groupSize
    simp only [hcand] at hhead
    have hspec : LeastCovering users userGroups groupSize excluded floor g ↔
        (sortedBy (sizeKey groupSize)
          (groupOrder.list (intersection sets \ excluded))).head? = some g ∧
          ¬ (users.card = 1 ∧ floor < groupSizeOf groupSize g) := by
      rw [hhead]
      exact ⟨fun h => ⟨⟨h.covering, h.least⟩, h.floored⟩,
        fun h => ⟨hne, h.1.1.entries, h.1.1, h.1.2, h.2⟩⟩
    rw [hspec]
    dsimp only
    cases (sortedBy (sizeKey groupSize) (groupOrder.list (intersection sets \ excluded))).head? with
    | none => simp
    | some chosen =>
      by_cases hfloor : users.card = 1 ∧ floor < groupSizeOf groupSize chosen
      · simp only [if_pos hfloor]
        refine iff_of_false (by simp) ?_
        rintro ⟨hchosen, hg⟩
        rw [Option.some.inj hchosen] at hfloor
        exact hg hfloor
      · simp only [if_neg hfloor]
        refine ⟨fun h => ⟨h, ?_⟩, fun h => h.1⟩
        rwa [← Option.some.inj h]

/-- The function answers with the least covering group, with nothing exactly when
no group qualifies, and the same under every enumeration of its sets. -/
theorem lcdListed_least_covering (userOrder groupOrder : SetOrder String) (users : Finset String)
    (userGroups : Dict String (Finset String)) (groupSize : Dict String ℤ)
    (excluded : Finset String) (floor : ℤ) :
    (∀ g, lcdListed userOrder groupOrder users userGroups groupSize excluded floor = some g ↔
      users ≠ ∅ ∧ (∀ u ∈ users, u ∈ userGroups.keys) ∧ Covering users userGroups excluded g ∧
        (∀ h, Covering users userGroups excluded h → SizeLe groupSize g h) ∧
        ¬ (users.card = 1 ∧ floor < groupSizeOf groupSize g)) ∧
    (lcdListed userOrder groupOrder users userGroups groupSize excluded floor = none ↔
      ∀ g, ¬ LeastCovering users userGroups groupSize excluded floor g) ∧
    ∀ userOrder' groupOrder' : SetOrder String,
      lcdListed userOrder' groupOrder' users userGroups groupSize excluded floor =
        lcdListed userOrder groupOrder users userGroups groupSize excluded floor := by
  have hiff := lcdListed_eq_some_iff userOrder groupOrder users userGroups groupSize excluded floor
  refine ⟨fun g => ?_, ?_, fun userOrder' groupOrder' => ?_⟩
  · rw [hiff]
    exact ⟨fun h => ⟨h.nonempty, h.entries, h.covering, h.least, h.floored⟩,
      fun ⟨hne, hentries, hcov, hleast, hfloor⟩ => ⟨hne, hentries, hcov, hleast, hfloor⟩⟩
  · simp only [Option.eq_none_iff_forall_ne_some, ne_eq, hiff]
  · apply Option.ext
    intro g
    rw [hiff, lcdListed_eq_some_iff]

/-- On sizes that are counts this is the choice the aggregator makes. -/
theorem lcdListed_eq_lcd (userOrder groupOrder : SetOrder String) (users : Finset String)
    (userGroups : Dict String (Finset String)) {groupSize : Dict String ℤ} {count : String → ℕ}
    (hcount : ∀ g, groupSizeOf groupSize g = count g) (excluded : Finset String) (floor : ℤ) :
    lcdListed userOrder groupOrder users userGroups groupSize excluded floor =
      lcd users userGroups.get? count excluded floor := by
  have hle : ∀ g h, SizeLe groupSize g h ↔ groupKey count g ≤ groupKey count h := by
    intro g h
    simp only [SizeLe, hcount, groupKey, Prod.Lex.toLex_le_toLex, Nat.cast_lt, Nat.cast_inj]
  apply Option.ext
  intro g
  rw [lcdListed_eq_some_iff, lcd_eq_some_iff]
  constructor
  · intro h
    refine ⟨h.nonempty, ⟨h.covering.1, h.covering.2, fun h' hs hx => ?_⟩, ?_⟩
    · exact (hle g h').mp (h.least h' ⟨hs, hx⟩)
    · simpa only [hcount] using h.floored
  · rintro ⟨hne, ⟨hshared, hex, hleast⟩, hfloor⟩
    have hcov : Covering users userGroups excluded g := ⟨hshared, hex⟩
    refine ⟨hne, hcov.entries, hcov, fun h' hcov' => (hle g h').mpr ?_, ?_⟩
    · exact hleast h' hcov'.1 hcov'.2
    · simpa only [hcount] using hfloor

end FlowDiscovery
