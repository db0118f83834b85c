import FlowDiscovery.GroupAggregator

/-!
# Decisions of the aggregator

What `lcd` returns, which users and groups a window hands to it, and where the
label of a destination can come from: a cached decision, or a fresh call that is
cached at once.
-/
namespace FlowDiscovery

/-! ## The choice of a group -/

/-- Order in which candidate groups are tried: size first, then the identifier. -/
def groupKey (groupSize : String → ℕ) (g : String) : ℕ ×ₗ String := toLex (groupSize g, g)

theorem smallestGroup_eq_some_iff (candidates : Finset String) (groupSize : String → ℕ)
    (g : String) :
    smallestGroup candidates groupSize = some g ↔
      g ∈ candidates ∧ ∀ h ∈ candidates, groupKey groupSize g ≤ groupKey groupSize h := by
  have hkey : ∀ h ∈ candidates, groupKey groupSize h ∈
      candidates.image fun g => toLex (groupSize g, g) := fun h hh => Finset.mem_image_of_mem _ hh
  unfold smallestGroup
  split
  · rename_i htop
    have hempty : candidates = ∅ := Finset.image_eq_empty.mp (Finset.min_eq_top.mp htop)
    simp [hempty]
  · rename_i p hp
    obtain ⟨m, hm, rfl⟩ := Finset.mem_image.mp (Finset.mem_of_min hp)
    have hleast : ∀ h ∈ candidates, groupKey groupSize m ≤ groupKey groupSize h :=
      fun h hh => Finset.min_le_of_eq (hkey h hh) hp
    simp only [ofLex_toLex, Option.some.injEq]
    constructor
    · rintro rfl
      exact ⟨hm, hleast⟩
    · rintro ⟨hg, hgleast⟩
      have heq := le_antisymm (hleast g hg) (hgleast m hm)
      exact congrArg (fun p => (ofLex p).2) heq

theorem mem_commonGroups {users : Finset String} (hne : users ≠ ∅)
    (groups : String → Finset String) (excluded : Finset String) (g : String) :
    g ∈ commonGroups users groups excluded ↔ (∀ u ∈ users, g ∈ groups u) ∧ g ∉ excluded := by
  obtain ⟨u, hu⟩ := Finset.nonempty_iff_ne_empty.mpr hne
  simp only [commonGroups, Finset.mem_sdiff, Finset.mem_filter, Finset.mem_biUnion]
  constructor
  · exact fun h => ⟨h.1.2, h.2⟩
  · exact fun h => ⟨⟨⟨u, hu, h.1 u hu⟩, h.1⟩, h.2⟩

/-- Every user has an entry with the group. -/
def SharedBy (users : Finset String) (userGroups : String → Option (Finset String))
    (g : String) : Prop := ∀ u ∈ users, ∃ gs, userGroups u = some gs ∧ g ∈ gs

/-- The group is the least in size and identifier among the groups that all users
share and that are not excluded. -/
def LeastShared (users : Finset String) (userGroups : String → Option (Finset String))
    (groupSize : String → ℕ) (excluded : Finset String) (g : String) : Prop :=
  SharedBy users userGroups g ∧ g ∉ excluded ∧
    ∀ h, SharedBy users userGroups h → h ∉ excluded → groupKey groupSize g ≤ groupKey groupSize h

theorem smallestCandidate_eq_some_iff {users : Finset String}
    {userGroups : String → Option (Finset String)} (hne : users ≠ ∅)
    (hentries : ¬ ∃ u ∈ users, userGroups u = none) (groupSize : String → ℕ)
    (excluded : Finset String) (g : String) :
    smallestGroup (commonGroups users (fun u => (userGroups u).getD ∅) excluded) groupSize =
      some g ↔ LeastShared users userGroups groupSize excluded g := by
  have hmem : ∀ x, (∀ u ∈ users, x ∈ (userGroups u).getD ∅) ↔ SharedBy users userGroups x := by
    intro x
    refine forall₂_congr fun u hu => ?_
    cases hug : userGroups u with
    | none => exact absurd ⟨u, hu, hug⟩ hentries
    | some gs => simp
  simp only [smallestGroup_eq_some_iff, mem_commonGroups hne, hmem, and_imp, and_assoc,
    LeastShared]

/-- `lcd` answers with the least shared group, unless that group is too large for
a single user. -/
theorem lcd_eq_some_iff (users : Finset String) (userGroups : String → Option (Finset String))
    (groupSize : String → ℕ) (excluded : Finset String) (floor : ℤ) (g : String) :
    lcd users userGroups groupSize excluded floor = some g ↔
      users ≠ ∅ ∧ LeastShared users userGroups groupSize excluded g ∧
        ¬ (users.card = 1 ∧ floor < groupSize g) := by
  unfold lcd
  by_cases hne : users = ∅
  · simp [hne]
  rw [if_neg hne]
  by_cases hmissing : ∃ u ∈ users, userGroups u = none
  · rw [if_pos hmissing]
    refine iff_of_false (by simp) ?_
    rintro ⟨_, ⟨hshared, _⟩, _⟩
    obtain ⟨u, hu, hnone⟩ := hmissing
    obtain ⟨gs, hgs, _⟩ := hshared u hu
    simp [hnone] at hgs
  rw [if_neg hmissing, ← smallestCandidate_eq_some_iff hne hmissing]
  dsimp only
  cases smallestGroup (commonGroups users (fun u => (userGroups u).getD ∅) excluded)
      groupSize with
  | none => simp
  | some chosen =>
    by_cases hfloor : users.card = 1 ∧ floor < groupSize chosen
    · simp only [if_pos hfloor, reduceCtorEq, Option.some.injEq, false_iff]
      rintro ⟨_, rfl, hsmall⟩
      exact hsmall hfloor
    · simp only [if_neg hfloor, Option.some.injEq]
      constructor
      · rintro rfl
        exact ⟨hne, rfl, hfloor⟩
      · exact fun h => h.2.1

theorem lcd_congr {users : Finset String} {ug ug' : String → Option (Finset String)}
    (h : ∀ u ∈ users, ug u = ug' u) (groupSize : String → ℕ) (excluded : Finset String)
    (floor : ℤ) :
    lcd users ug groupSize excluded floor = lcd users ug' groupSize excluded floor := by
  have hshared : ∀ x, SharedBy users ug x ↔ SharedBy users ug' x :=
    fun x => forall₂_congr fun u hu => by rw [h u hu]
  apply Option.ext
  intro g
  simp only [lcd_eq_some_iff, LeastShared, hshared]

/-! ## What a window hands to the choice -/

/-- Known users with traffic to a destination. -/
def knownUsers (rows : List Row) (dst : String) : Finset String :=
  ((rows.filter fun r => r.dst = dst).map Row.userUpn).toFinset.erase unknownUser

theorem mem_knownUsers (rows : List Row) (dst u : String) :
    u ∈ knownUsers rows dst ↔
      u ≠ unknownUser ∧ ∃ r ∈ rows, r.dst = dst ∧ r.userUpn = u := by
  simp [knownUsers, and_assoc]

theorem collectSlots_rows (rows : List Row) (dst : String) :
    ((collectSlots rows).getD dst .empty).rows = rows.filter fun r => r.dst = dst := by
  have h : ∀ (rows : List Row) (slots : Dict String DstSlot),
      ((rows.foldl (fun slots r => slots.update r.dst .empty fun slot => slot.add r)
        slots).getD dst .empty).rows =
      (slots.getD dst .empty).rows ++ rows.filter fun r => r.dst = dst := by
    intro rows
    induction rows with
    | nil => simp
    | cons r rest ih =>
      intro slots
      rw [List.foldl_cons, ih, Dict.getD_update]
      by_cases hr : r.dst = dst <;> simp [hr, DstSlot.add]
  exact h rows .empty

theorem mem_keys_collectSlots (rows : List Row) (dst : String) :
    dst ∈ (collectSlots rows).keys ↔ ∃ r ∈ rows, r.dst = dst := by
  have h : ∀ (rows : List Row) (slots : Dict String DstSlot),
      dst ∈ (rows.foldl (fun slots r => slots.update r.dst .empty fun slot => slot.add r)
        slots).keys ↔ dst ∈ slots.keys ∨ ∃ r ∈ rows, r.dst = dst := by
    intro rows
    induction rows with
    | nil => simp
    | cons r rest ih =>
      intro slots
      rw [List.foldl_cons, ih, Dict.mem_keys_update]
      simp only [List.mem_cons, exists_eq_or_imp, eq_comm (a := dst)]
      tauto
  rw [collectSlots, h]
  simp [Dict.keys]

/-- The slot of a destination knows exactly the known users of its rows. -/
theorem slot_known {rows : List Row} {dst : String} {slot : DstSlot}
    (h : (dst, slot) ∈ (collectSlots rows).entries) : slot.known = knownUsers rows dst := by
  have hrows := collectSlots_rows rows dst
  rw [Dict.getD, ((collectSlots rows).get?_eq_some_iff dst slot).mpr h, Option.getD_some] at hrows
  rw [DstSlot.known, slot.users_eq, hrows, knownUsers]

/-- The groups of a user whose rows all carry the same groups. -/
theorem collectUserGroups_get? {rows : List Row} {u : String} {gs : Finset String}
    (hall : ∀ r ∈ rows, r.userUpn = u → r.groups = gs) (hex : ∃ r ∈ rows, r.userUpn = u) :
    (collectUserGroups rows).get? u = some gs := by
  induction rows using List.reverseRecOn with
  | nil => simp at hex
  | append_singleton rows r ih =>
    rw [collectUserGroups, List.foldl_append, List.foldl_cons, List.foldl_nil, Dict.get?_set]
    by_cases hr : r.userUpn = u
    · rw [if_pos hr, hall r (by simp) hr]
    · rw [if_neg hr]
      refine ih (fun r' hr' => hall r' (List.mem_append_left _ hr')) ?_
      obtain ⟨r', hr', hu⟩ := hex
      rcases List.mem_append.mp hr' with hr' | hr'
      · exact ⟨r', hr', hu⟩
      · rw [List.mem_singleton.mp hr'] at hu
        exact absurd hu hr

/-- Every row of a known user carries the groups that the user has. -/
def RowsFrom (groupsOf : String → Finset String) (rows : List Row) : Prop :=
  ∀ r ∈ rows, r.userUpn ≠ unknownUser → r.groups = groupsOf r.userUpn

/-- On such rows the window's own view of the memberships does not matter. -/
theorem lcd_rowsFrom {groupsOf : String → Finset String} {rows : List Row}
    (h : RowsFrom groupsOf rows) (dst : String) (sizes : String → ℕ) (excluded : Finset String)
    (floor : ℤ) :
    lcd (knownUsers rows dst) (collectUserGroups rows).get? sizes excluded floor =
      lcd (knownUsers rows dst) (fun u => some (groupsOf u)) sizes excluded floor := by
  refine lcd_congr (fun u hu => ?_) _ _ _
  obtain ⟨hne, r, hr, _, hru⟩ := (mem_knownUsers rows dst u).mp hu
  refine collectUserGroups_get? ?_ ⟨r, hr, hru⟩
  rintro r' hr' rfl
  exact h r' hr' hne

/-! ## Where a label comes from -/

namespace GroupAggregator

/-- Decisions and cache after some destinations: every decision is cached, and a
cached decision was there before or is the result of `lcd` on this window. -/
structure Decided (agg : GroupAggregator) (ug : Dict String (Finset String))
    (sizes : String → ℕ) (acc : Aggregation) : Prop where
  excluded_eq : acc.aggregator.excluded = agg.excluded
  floor_eq : acc.aggregator.floor = agg.floor
  cached : ∀ dec ∈ acc.decisions, acc.aggregator.cache.get? dec.users = some dec.chosen
  kept : ∀ k d, agg.cache.get? k = some d → acc.aggregator.cache.get? k = some d
  origin : ∀ k d, acc.aggregator.cache.get? k = some d → agg.cache.get? k = some d ∨
    (agg.cache.get? k = none ∧ d = lcd k ug.get? sizes agg.excluded agg.floor ∧
      ∃ dec ∈ acc.decisions, dec.users = k)

theorem Decided.start (agg : GroupAggregator) (ug : Dict String (Finset String))
    (sizes : String → ℕ) (links : Dict (String × String) LinkAcc) :
    Decided agg ug sizes ⟨links, agg, []⟩ :=
  ⟨rfl, rfl, by simp, fun _ _ h => h, fun _ _ h => .inl h⟩

/-- A decision that is read from the cache. -/
theorem Decided.hit {agg : GroupAggregator} {ug : Dict String (Finset String)}
    {sizes : String → ℕ} {acc : Aggregation} (h : Decided agg ug sizes acc)
    (links : Dict (String × String) LinkAcc) {dec : Decision}
    (hget : acc.aggregator.cache.get? dec.users = some dec.chosen) :
    Decided agg ug sizes ⟨links, acc.aggregator, acc.decisions ++ [dec]⟩ := by
  refine ⟨h.excluded_eq, h.floor_eq, ?_, h.kept, ?_⟩
  · intro d hd
    rcases List.mem_append.mp hd with hd | hd
    · exact h.cached d hd
    · rw [List.mem_singleton.mp hd]
      exact hget
  · intro k d hk
    obtain hold | ⟨hnone, hlcd, d', hd', hu⟩ := h.origin k d hk
    · exact .inl hold
    · exact .inr ⟨hnone, hlcd, d', List.mem_append_left _ hd', hu⟩

/-- A decision that is computed and stored, under a key that was not there. -/
theorem Decided.miss {agg : GroupAggregator} {ug : Dict String (Finset String)}
    {sizes : String → ℕ} {acc : Aggregation} (h : Decided agg ug sizes acc)
    (links : Dict (String × String) LinkAcc) (dst : String) {known : Finset String}
    (hget : acc.aggregator.cache.get? known = none) {chosen : Option String}
    (hchosen : chosen = lcd known ug.get? sizes acc.aggregator.excluded acc.aggregator.floor) :
    Decided agg ug sizes ⟨links,
      { acc.aggregator with cache := acc.aggregator.cache.set known chosen },
      acc.decisions ++ [⟨dst, known, chosen⟩]⟩ := by
  have hstill : ∀ k d, acc.aggregator.cache.get? k = some d →
      (acc.aggregator.cache.set known chosen).get? k = some d := by
    intro k d hk
    have hne : known ≠ k := by
      rintro rfl
      simp [hget] at hk
    rw [Dict.get?_set, if_neg hne]
    exact hk
  refine ⟨h.excluded_eq, h.floor_eq, ?_, fun k d hk => hstill k d (h.kept k d hk), ?_⟩
  · intro d hd
    rcases List.mem_append.mp hd with hd | hd
    · exact hstill _ _ (h.cached d hd)
    · rw [List.mem_singleton.mp hd, Dict.get?_set, if_pos rfl]
  · intro k d hk
    rw [Dict.get?_set] at hk
    split_ifs at hk with he
    · subst he
      have hbefore : agg.cache.get? known = none := by
        cases hold : agg.cache.get? known with
        | none => rfl
        | some d' =>
          have hkept := h.kept known d' hold
          simp [hget] at hkept
      refine .inr ⟨hbefore, ?_, _, List.mem_append_right _ (List.mem_singleton_self _), rfl⟩
      rw [← Option.some.inj hk, hchosen, h.excluded_eq, h.floor_eq]
    · obtain hold | ⟨hnone, hlcd, d', hd', hu⟩ := h.origin k d hk
      · exact .inl hold
      · exact .inr ⟨hnone, hlcd, d', List.mem_append_left _ hd', hu⟩

/-- One destination takes its decision from the cache or adds it there. -/
theorem Decided.aggregateDst {agg : GroupAggregator} {ug : Dict String (Finset String)}
    {sizes : String → ℕ} {acc : Aggregation} (h : Decided agg ug sizes acc) (dst : String)
    (slot : DstSlot) : Decided agg ug sizes (aggregateDst .group ug sizes acc dst slot) := by
  unfold GroupAggregator.aggregateDst
  dsimp only
  split_ifs with hknown
  · exact ⟨h.excluded_eq, h.floor_eq, h.cached, h.kept, h.origin⟩
  unfold chooseGroup
  cases hget : acc.aggregator.cache.get? slot.known with
  | some chosen => exact h.hit _ hget
  | none => exact h.miss _ dst hget rfl

theorem aggregateRows_decided (agg : GroupAggregator) (rows : List Row) (sizes : String → ℕ) :
    Decided agg (collectUserGroups rows) sizes (agg.aggregateRows rows sizes .group) := by
  have h : ∀ (entries : List (String × DstSlot)) (acc : Aggregation),
      Decided agg (collectUserGroups rows) sizes acc →
      Decided agg (collectUserGroups rows) sizes (entries.foldl
        (fun acc e => aggregateDst .group (collectUserGroups rows) sizes acc e.1 e.2) acc) := by
    intro entries
    induction entries with
    | nil => exact fun _ hacc => hacc
    | cons e rest ih => exact fun acc hacc => ih _ (hacc.aggregateDst e.1 e.2)
  exact h _ _ (Decided.start agg _ sizes _)

theorem aggregateDst_decisions (ug : Dict String (Finset String)) (sizes : String → ℕ)
    (acc : Aggregation) (dst : String) (slot : DstSlot) :
    (aggregateDst .group ug sizes acc dst slot).decisions.map (fun d => (d.dst, d.users)) =
      acc.decisions.map (fun d => (d.dst, d.users)) ++
        if slot.known = ∅ then [] else [(dst, slot.known)] := by
  unfold aggregateDst
  dsimp only
  split_ifs <;> simp

/-- One decision per destination with known users, on exactly these users. -/
theorem aggregateRows_decisions (agg : GroupAggregator) (rows : List Row) (sizes : String → ℕ)
    (dst : String) (users : Finset String) :
    (∃ dec ∈ (agg.aggregateRows rows sizes .group).decisions,
      dec.dst = dst ∧ dec.users = users) ↔ users = knownUsers rows dst ∧ users ≠ ∅ := by
  have hfold : ∀ (entries : List (String × DstSlot)) (acc : Aggregation),
      (entries.foldl (fun acc e => aggregateDst .group (collectUserGroups rows) sizes acc e.1 e.2)
        acc).decisions.map (fun d => (d.dst, d.users)) =
      acc.decisions.map (fun d => (d.dst, d.users)) ++
        entries.flatMap fun e => if e.2.known = ∅ then [] else [(e.1, e.2.known)] := by
    intro entries
    induction entries with
    | nil => simp
    | cons e rest ih =>
      intro acc
      rw [List.foldl_cons, ih, aggregateDst_decisions, List.append_assoc, List.flatMap_cons]
  have hmem : (∃ dec ∈ (agg.aggregateRows rows sizes .group).decisions,
      dec.dst = dst ∧ dec.users = users) ↔
      (dst, users) ∈ (agg.aggregateRows rows sizes .group).decisions.map
        fun d => (d.dst, d.users) := by simp
  rw [hmem, aggregateRows, hfold]
  simp only [List.map_nil, List.nil_append, List.mem_flatMap]
  constructor
  · rintro ⟨⟨dst', slot⟩, hentry, hin⟩
    split_ifs at hin with hk
    · exact absurd hin List.not_mem_nil
    · obtain ⟨rfl, rfl⟩ := Prod.mk.inj (List.mem_singleton.mp hin)
      exact ⟨slot_known hentry, hk⟩
  · rintro ⟨rfl, hne⟩
    obtain ⟨u, hu⟩ := Finset.nonempty_iff_ne_empty.mpr hne
    obtain ⟨_, r, hr, hdst, _⟩ := (mem_knownUsers rows dst u).mp hu
    obtain ⟨slot, hslot⟩ := Option.isSome_iff_exists.mp
      (((collectSlots rows).get?_isSome_iff dst).mpr
        ((mem_keys_collectSlots rows dst).mpr ⟨r, hr, hdst⟩))
    have hentry := ((collectSlots rows).get?_eq_some_iff dst slot).mp hslot
    exact ⟨(dst, slot), hentry, by simp [slot_known hentry, hne]⟩

/-- Every cached decision is what `lcd` gives on these memberships and sizes. -/
def CacheCurrent (groupsOf : String → Finset String) (sizes : String → ℕ)
    (agg : GroupAggregator) : Prop :=
  ∀ k d, agg.cache.get? k = some d →
    d = lcd k (fun u => some (groupsOf u)) sizes agg.excluded agg.floor

/-- A window of rows with the same memberships keeps the cache current, and all
its decisions are. -/
theorem aggregateRows_current {groupsOf : String → Finset String} {sizes : String → ℕ}
    {agg : GroupAggregator} {rows : List Row} (hcache : CacheCurrent groupsOf sizes agg)
    (hrows : RowsFrom groupsOf rows) :
    CacheCurrent groupsOf sizes (agg.aggregateRows rows sizes .group).aggregator ∧
      ∀ dec ∈ (agg.aggregateRows rows sizes .group).decisions,
        dec.chosen = lcd dec.users (fun u => some (groupsOf u)) sizes agg.excluded agg.floor := by
  have hd := aggregateRows_decided agg rows sizes
  have horigin : ∀ k d, (agg.aggregateRows rows sizes .group).aggregator.cache.get? k = some d →
      d = lcd k (fun u => some (groupsOf u)) sizes agg.excluded agg.floor := by
    intro k d hk
    obtain hold | ⟨_, rfl, dec, hdec, rfl⟩ := hd.origin k d hk
    · exact hcache k d hold
    · obtain ⟨hu, _⟩ := (aggregateRows_decisions agg rows sizes dec.dst dec.users).mp
        ⟨dec, hdec, rfl, rfl⟩
      rw [hu]
      exact lcd_rowsFrom hrows dec.dst _ _ _
  refine ⟨fun k d hk => ?_, fun dec hdec => horigin _ _ (hd.cached dec hdec)⟩
  rw [hd.excluded_eq, hd.floor_eq]
  exact horigin k d hk

/-! ## Links and labels -/

/-- Links sit under their own ends, and every group decision has its link. -/
structure Linked (acc : Aggregation) : Prop where
  ends : ∀ key l, acc.links.get? key = some l → (l.src, l.dst) = key
  rolledUp : ∀ dec ∈ acc.decisions, ∀ g, dec.chosen = some g → (g, dec.dst) ∈ acc.links.keys

theorem accum_ends {links : Dict (String × String) LinkAcc}
    (h : ∀ key l, links.get? key = some l → (l.src, l.dst) = key) (src dst : String) (r : Row) :
    ∀ key l, (accum links src dst r).get? key = some l → (l.src, l.dst) = key := by
  intro key l hl
  rw [accum, Dict.get?_update] at hl
  split_ifs at hl with hk
  · subst hk
    rw [← Option.some.inj hl]
    cases hg : links.get? (src, dst) with
    | none => simp [Dict.getD, hg]
    | some old =>
      simp only [Dict.getD, hg, Option.getD_some]
      exact h _ old hg
  · exact h key l hl

theorem foldl_accum_ends (label : Row → String) (dst : String) (rows : List Row)
    {links : Dict (String × String) LinkAcc}
    (h : ∀ key l, links.get? key = some l → (l.src, l.dst) = key) :
    ∀ key l, (rows.foldl (fun links r => accum links (label r) dst r) links).get? key = some l →
      (l.src, l.dst) = key := by
  induction rows generalizing links with
  | nil => exact h
  | cons r rest ih => exact ih (accum_ends h (label r) dst r)

theorem mem_keys_foldl_accum (label : Row → String) (dst : String) (rows : List Row)
    (links : Dict (String × String) LinkAcc) (key : String × String) :
    key ∈ (rows.foldl (fun links r => accum links (label r) dst r) links).keys ↔
      key ∈ links.keys ∨ ∃ r ∈ rows, key = (label r, dst) := by
  induction rows generalizing links with
  | nil => simp
  | cons r rest ih =>
    rw [List.foldl_cons, ih, accum, Dict.mem_keys_update]
    simp only [List.mem_cons, exists_eq_or_imp]
    tauto

theorem accumUnknown_ends {links : Dict (String × String) LinkAcc}
    (h : ∀ key l, links.get? key = some l → (l.src, l.dst) = key) (dst : String) (slot : DstSlot) :
    ∀ key l, (accumUnknown links dst slot).get? key = some l → (l.src, l.dst) = key := by
  unfold accumUnknown
  split_ifs
  · exact foldl_accum_ends (fun _ => unknownUser) dst _ h
  · exact h

theorem mem_keys_strands {links : Dict (String × String) LinkAcc} {key : String × String}
    (h : key ∈ links.keys) (dst : String) (slot : DstSlot) (label : String → String) :
    key ∈ (accumKnown (accumUnknown links dst slot) dst slot label).keys := by
  rw [accumKnown, mem_keys_foldl_accum (fun r => label r.userUpn)]
  left
  unfold accumUnknown
  split_ifs
  · rw [mem_keys_foldl_accum (fun _ => unknownUser)]
    exact .inl h
  · exact h

theorem Linked.aggregateDst {acc : Aggregation} (h : Linked acc)
    (ug : Dict String (Finset String)) (sizes : String → ℕ) (dst : String) (slot : DstSlot) :
    Linked (aggregateDst .group ug sizes acc dst slot) := by
  unfold GroupAggregator.aggregateDst
  dsimp only
  split_ifs with hknown
  · refine ⟨accumUnknown_ends h.ends dst slot, fun dec hdec g hg => ?_⟩
    -- without known users the strand of the known ones is empty
    have hmem := mem_keys_strands (h.rolledUp dec hdec g hg) dst slot id
    rwa [accumKnown, slot.filter_known_eq_nil hknown, List.foldl_nil] at hmem
  · refine ⟨foldl_accum_ends (fun r => _) dst _ (accumUnknown_ends h.ends dst slot), ?_⟩
    intro dec hdec g hg
    rcases List.mem_append.mp hdec with hdec | hdec
    · exact mem_keys_strands (h.rolledUp dec hdec g hg) dst slot _
    · obtain rfl := List.mem_singleton.mp hdec
      obtain ⟨u, hu⟩ := Finset.nonempty_iff_ne_empty.mpr hknown
      obtain ⟨hne, r, hr, rfl⟩ := (slot.mem_known u).mp hu
      rw [accumKnown, mem_keys_foldl_accum (fun r => _)]
      refine .inr ⟨r, List.mem_filter.mpr ⟨hr, by simpa using hne⟩, ?_⟩
      simp only at hg
      rw [hg]
      rfl

/-- A destination whose users are rolled up under a group has a link of that
group. -/
theorem exists_link_of_decision (agg : GroupAggregator) (rows : List Row) (sizes : String → ℕ)
    {dec : Decision} (hdec : dec ∈ (agg.aggregateRows rows sizes .group).decisions) {g : String}
    (hg : dec.chosen = some g) :
    ∃ link ∈ (agg.aggregate rows sizes .group).1, link.src = g ∧ link.dst = dec.dst := by
  have hfold : ∀ (entries : List (String × DstSlot)) (acc : Aggregation), Linked acc →
      Linked (entries.foldl
        (fun acc e => aggregateDst .group (collectUserGroups rows) sizes acc e.1 e.2) acc) := by
    intro entries
    induction entries with
    | nil => exact fun _ hacc => hacc
    | cons e rest ih => exact fun acc hacc => ih _ (hacc.aggregateDst _ sizes e.1 e.2)
  have hlinked : Linked (agg.aggregateRows rows sizes .group) :=
    hfold _ _ ⟨by simp, by simp⟩
  have hkey := hlinked.rolledUp dec hdec g hg
  obtain ⟨l, hl⟩ := Option.isSome_iff_exists.mp ((Dict.get?_isSome_iff _ _).mpr hkey)
  have hends := hlinked.ends _ l hl
  refine ⟨finalize l, List.mem_map.mpr ⟨_, (Dict.get?_eq_some_iff _ _ _).mp hl, rfl⟩, ?_⟩
  exact ⟨(Prod.mk.inj hends).1, (Prod.mk.inj hends).2⟩

end GroupAggregator
end FlowDiscovery
