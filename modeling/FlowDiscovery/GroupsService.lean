import FlowDiscovery.Dict
import FlowDiscovery.KeyedSort
import FlowDiscovery.Machine
import FlowDiscovery.PyBase64
import Mathlib.Data.String.Basic

/-!
# Pages of the members of a group

`get_members` counts the group, then selects the members behind the one that the
cursor names. A client follows the cursors until there is none, while other
transactions insert and delete memberships at any point, also between the two
statements of one request. The members come in strictly increasing order, and who
is a member all the time is returned.
-/
namespace FlowDiscovery.GroupsService
open Machine PyText PyBytes PyBase64

/-! ## Cursors -/

def encodeCursor (lastUpn : String) : Text := urlsafeB64encode lastUpn.toUTF8.data.toList

/-- `none` is the `ValueError`. -/
def decodeCursor (cursor : Text) : Option String := do
  if cursor.all fun c => c.toNat < 128 then
    let raw ← urlsafeB64decode cursor
    String.fromUTF8? ⟨raw.toArray⟩
  else none

/-! ## The table and the two statements -/

/-- A user name is never empty. -/
abbrev Upn := {s : String // s ≠ ""}

/-- The order of texts in the database: distinct texts have distinct sort keys, and
the empty text comes first. -/
structure Collation (κ : Type*) [LinearOrder κ] where
  key : String → κ
  injective : Function.Injective key
  empty_lt : ∀ s, s ≠ "" → key "" < key s

/-- The `<` of user names in that order. -/
def Collation.Before {κ : Type*} [LinearOrder κ] (c : Collation κ) (u v : Upn) : Prop :=
  c.key u < c.key v

/-- `user_groups` with its primary key; the value is the `group_name`. -/
abbrev UserGroups := Dict (Upn × String) String

def membersOf (table : UserGroups) (groupId : String) : List Upn :=
  (table.keys.filter fun k => k.2 = groupId).map Prod.fst

def namesOf (table : UserGroups) (groupId : String) : List String :=
  (table.entries.filter fun e => e.1.2 = groupId).map Prod.snd

section

variable {κ : Type*} [LinearOrder κ] (c : Collation κ)

/-- `MAX(group_name)`. -/
def maxName (names : List String) : Option String := (sortedBy c.key names).getLast?

/-- The `SELECT` of a page. -/
def selectMembers (table : UserGroups) (groupId after : String) (limit : ℕ) : List Upn :=
  (sortedBy (fun u : Upn => c.key u)
    ((membersOf table groupId).filter fun u => c.key after < c.key u)).take limit

/-! ## A client and the writers -/

structure GroupMembers where
  groupId : String
  groupName : String
  size : ℕ
  members : List Upn
  nextCursor : Option Text

/-- The client is about to send a request, which begins with its count; the request
is at its `SELECT`; there is no further page; the request has raised. -/
inductive Phase where
  | counting (cursor : Option Text)
  | selecting (after : String) (size : ℕ) (groupName : String)
  | done
  | raised
  deriving DecidableEq

structure State where
  table : UserGroups
  phase : Phase
  pages : List GroupMembers

inductive Action where
  | insert (upn : Upn) (groupId groupName : String)
  | delete (upn : Upn) (groupId : String)
  | count
  | select
  deriving DecidableEq

def initial (table : UserGroups) : State := ⟨table, .counting none, []⟩

/-- `self._decode_cursor(cursor) if cursor else ""`. -/
def afterOf : Option Text → Option String
  | none | some [] => some ""
  | some cursor => decodeCursor cursor

/-- `get_members` up to its second statement. A group without members is not found,
and that ends the traversal. -/
def count (groupId : String) (s : State) (cursor : Option Text) : State :=
  match afterOf cursor with
  | none => { s with phase := .raised }
  | some after =>
    let size := (membersOf s.table groupId).length
    if size = 0 then { s with phase := .done }
    else
      let name := (maxName c (namesOf s.table groupId)).getD ""
      { s with phase := .selecting after size (if name = "" then groupId else name) }

/-- The rest of it. The last member of a full page becomes the cursor. -/
def select (groupId : String) (pageSize : ℕ) (s : State) (after : String) (size : ℕ)
    (groupName : String) : State :=
  let members := selectMembers c s.table groupId after pageSize
  if members.length = pageSize then
    match members.getLast? with
    | none => { s with phase := .raised }
    | some last =>
      let nextCursor := some (encodeCursor last)
      { s with
        phase := .counting nextCursor
        pages := s.pages ++ [⟨groupId, groupName, size, members, nextCursor⟩] }
  else
    { s with
      phase := .done
      pages := s.pages ++ [⟨groupId, groupName, size, members, none⟩] }

def step (groupId : String) (pageSize : ℕ) (s : State) : Action → State
  | .insert upn gid name => { s with table := s.table.set (upn, gid) name }
  | .delete upn gid => { s with table := s.table.erase (upn, gid) }
  | .count =>
    match s.phase with
    | .counting cursor => count c groupId s cursor
    | _ => s
  | .select =>
    match s.phase with
    | .selecting after size groupName => select c groupId pageSize s after size groupName
    | _ => s

/-- All that the client has been given, page by page. -/
def returned (s : State) : List Upn := s.pages.flatMap GroupMembers.members

end

/-! ## A cursor is read back -/

lemma toNat_digit_lt (n : ℕ) : (digit n).toNat < 128 := by
  have hall : alphabet.all fun ch => ch.toNat < 128 := by decide
  unfold digit
  rw [List.getD_eq_getElem?_getD]
  cases h : alphabet[n]? with
  | none => decide
  | some ch => exact of_decide_eq_true (List.all_eq_true.mp hall ch (List.mem_of_getElem? h))

lemma ascii_urlsafeB64encode (b : Bytes) : ∀ ch ∈ urlsafeB64encode b, ch.toNat < 128 := by
  induction b using urlsafeB64encode.induct with
  | case1 => simp [urlsafeB64encode]
  | case2 a => simp [urlsafeB64encode, toNat_digit_lt]
  | case3 a b => simp [urlsafeB64encode, toNat_digit_lt]
  | case4 a b c rest ih =>
    simp only [urlsafeB64encode, List.forall_mem_cons, toNat_digit_lt, true_and]
    exact ih

theorem decodeCursor_encodeCursor (upn : String) : decodeCursor (encodeCursor upn) = some upn := by
  have hascii : (encodeCursor upn).all fun ch => ch.toNat < 128 := by
    rw [List.all_eq_true]
    intro ch hch
    simpa using ascii_urlsafeB64encode _ ch hch
  unfold decodeCursor
  rw [if_pos hascii, encodeCursor, urlsafeB64decode_encode]
  simp [String.fromUTF8?, String.fromUTF8, upn.isValidUTF8]

/-! ## What a page holds -/

lemma mem_membersOf {table : UserGroups} {groupId : String} {u : Upn} :
    u ∈ membersOf table groupId ↔ (u, groupId) ∈ table.keys := by
  simp only [membersOf, List.mem_map, List.mem_filter, decide_eq_true_eq]
  constructor
  · rintro ⟨k, ⟨hk, rfl⟩, rfl⟩
    exact hk
  · intro h
    exact ⟨(u, groupId), ⟨h, rfl⟩, rfl⟩

lemma nodup_membersOf (table : UserGroups) (groupId : String) :
    (membersOf table groupId).Nodup := by
  refine List.Nodup.map_on ?_ (table.nodup.filter _)
  intro k hk k' hk' heq
  have hgid := (List.mem_filter.mp hk).2
  have hgid' := (List.mem_filter.mp hk').2
  simp only [decide_eq_true_eq] at hgid hgid'
  exact Prod.ext heq (hgid.trans hgid'.symm)

section

variable {κ : Type*} [LinearOrder κ] (c : Collation κ)

lemma Collation.eq_of_key_eq {c : Collation κ} {u v : Upn} (h : c.key u = c.key v) : u = v :=
  Subtype.ext (c.injective h)

/-- All members behind `after`, in order. -/
def behind (table : UserGroups) (groupId after : String) : List Upn :=
  sortedBy (fun u : Upn => c.key u)
    ((membersOf table groupId).filter fun u => c.key after < c.key u)

lemma mem_behind {table : UserGroups} {groupId after : String} {u : Upn} :
    u ∈ behind c table groupId after ↔ u ∈ membersOf table groupId ∧ c.key after < c.key u := by
  rw [behind, mem_sortedBy, List.mem_filter, decide_eq_true_eq]

lemma pairwise_behind (table : UserGroups) (groupId after : String) :
    (behind c table groupId after).Pairwise c.Before := by
  have hsorted := pairwise_sortedBy (fun u : Upn => c.key u)
    ((membersOf table groupId).filter fun u => c.key after < c.key u)
  have hnodup : (behind c table groupId after).Nodup :=
    (sortedBy_perm _ _).nodup_iff.mpr ((nodup_membersOf table groupId).filter _)
  refine hsorted.imp₂ (fun u v hle hne => lt_of_le_of_ne hle ?_) hnodup
  exact fun heq => hne (Collation.eq_of_key_eq heq)

/-- A full page holds every member up to its last one. -/
lemma mem_take_of_le {l : List Upn} (hl : l.Pairwise c.Before) {n : ℕ}
    {last u : Upn} (hlast : (l.take n).getLast? = some last) (hu : u ∈ l)
    (hle : c.key u ≤ c.key last) : u ∈ l.take n := by
  rw [← List.take_append_drop n l, List.pairwise_append] at hl
  rw [← List.take_append_drop n l, List.mem_append] at hu
  rcases hu with hu | hu
  · exact hu
  · have hlt := hl.2.2 last (List.mem_of_getLast? hlast) u hu
    exact absurd hle (not_le.mpr hlt)

/-! ## The invariants of a traversal -/

/-- The text behind which the next page begins. -/
def Phase.after : Phase → Option String
  | .counting cursor => afterOf cursor
  | .selecting after _ _ => some after
  | .done | .raised => none

lemma afterOf_encodeCursor (u : Upn) : afterOf (some (encodeCursor u)) = some u.1 := by
  have hread := decodeCursor_encodeCursor u.1
  cases h : encodeCursor u.1 with
  | nil =>
    -- the empty text is the code of the empty name only
    rw [h] at hread
    exact absurd (Option.some.inj hread).symm u.2
  | cons ch rest =>
    rw [h] at hread
    exact hread

/-- What was returned is in order, and lies before the next page. -/
structure Ordered (s : State) : Prop where
  sorted : (returned s).Pairwise c.Before
  le : ∀ after, s.phase.after = some after → ∀ u ∈ returned s, c.key u ≤ c.key after
  cursor : ∀ cursor, s.phase = .counting cursor → (afterOf cursor).isSome
  phase : s.phase ≠ .raised

/-- The member is still one, and was returned if it lies before the next page. -/
structure Covered (groupId : String) (u : Upn) (s : State) : Prop where
  mem : u ∈ membersOf s.table groupId
  le : ∀ after, s.phase.after = some after → c.key u ≤ c.key after → u ∈ returned s
  done : s.phase = .done → u ∈ returned s

lemma ordered_initial (table : UserGroups) : Ordered c (initial table) where
  sorted := List.Pairwise.nil
  le := by simp [initial, returned]
  cursor cursor h := by
    cases h
    rfl
  phase := by simp [initial]

lemma covered_initial {table : UserGroups} {groupId : String} {u : Upn}
    (h : u ∈ membersOf table groupId) : Covered c groupId u (initial table) where
  mem := h
  le after hafter hle := by
    obtain rfl := Option.some.inj hafter
    exact absurd (c.empty_lt u u.2) (not_lt.mpr hle)
  done h := by cases h

variable {c} {groupId : String} {s : State}

lemma Ordered.count (h : Ordered c s) {cursor : Option Text} (hphase : s.phase = .counting cursor) :
    Ordered c (count c groupId s cursor) := by
  obtain ⟨after, hafter⟩ := Option.isSome_iff_exists.mp (h.cursor cursor hphase)
  have hle := h.le after (by rw [hphase]; exact hafter)
  unfold GroupsService.count
  rw [hafter]
  by_cases hsize : (membersOf s.table groupId).length = 0
  · simp only [hsize, if_true]
    exact ⟨h.sorted, nofun, nofun, nofun⟩
  · simp only [hsize, if_false]
    refine ⟨h.sorted, ?_, nofun, nofun⟩
    rintro after' hafter'
    obtain rfl := Option.some.inj hafter'
    exact hle

lemma Covered.count {u : Upn} (h : Covered c groupId u s) {cursor : Option Text}
    (hphase : s.phase = .counting cursor) : Covered c groupId u (count c groupId s cursor) := by
  unfold GroupsService.count
  cases hafter : afterOf cursor with
  | none => exact ⟨h.mem, nofun, nofun⟩
  | some after =>
    have hle := h.le after (by rw [hphase]; exact hafter)
    -- the group still has the member
    have hsize : (membersOf s.table groupId).length ≠ 0 := by
      rw [Ne, List.length_eq_zero_iff]
      exact List.ne_nil_of_mem h.mem
    simp only [hsize, if_false]
    refine ⟨h.mem, ?_, nofun⟩
    rintro after' hafter'
    obtain rfl := Option.some.inj hafter'
    exact hle

/-- The page is full and its last member is the next cursor, or it holds all that is
left. -/
lemma select_cases (c : Collation κ) (groupId : String) {pageSize : ℕ} (hsize : 1 ≤ pageSize)
    (s : State) (after : String) (size : ℕ) (groupName : String) :
    let page := selectMembers c s.table groupId after pageSize
    let s' := select c groupId pageSize s after size groupName
    s'.table = s.table ∧ returned s' = returned s ++ page ∧
      ((∃ last : Upn, page.getLast? = some last ∧ s'.phase = .counting (some (encodeCursor last))) ∨
        (page = behind c s.table groupId after ∧ s'.phase = .done)) := by
  intro page s'
  by_cases hfull : page.length = pageSize
  · obtain ⟨last, hlast⟩ : ∃ last, page.getLast? = some last := by
      rw [← Option.isSome_iff_exists, List.getLast?_isSome]
      exact List.ne_nil_of_length_pos (by omega)
    have hs' : s' = { s with
        phase := .counting (some (encodeCursor last))
        pages := s.pages ++ [⟨groupId, groupName, size, page, some (encodeCursor last)⟩] } := by
      simp only [s', select, page] at hfull hlast ⊢
      rw [if_pos hfull, hlast]
    exact ⟨by rw [hs'], by simp [hs', returned], .inl ⟨last, hlast, by rw [hs']⟩⟩
  · have hs' : s' = { s with
        phase := .done
        pages := s.pages ++ [⟨groupId, groupName, size, page, none⟩] } := by
      simp only [s', select, page] at hfull ⊢
      rw [if_neg hfull]
    have hall : page = behind c s.table groupId after := by
      refine List.take_of_length_le ?_
      have hlength : page.length = min pageSize (behind c s.table groupId after).length :=
        List.length_take
      change (behind c s.table groupId after).length ≤ pageSize
      omega
    exact ⟨by rw [hs'], by simp [hs', returned], .inr ⟨hall, by rw [hs']⟩⟩

lemma Ordered.select (h : Ordered c s) {pageSize : ℕ} (hsize : 1 ≤ pageSize) {after : String}
    {size : ℕ} {groupName : String} (hphase : s.phase = .selecting after size groupName) :
    Ordered c (select c groupId pageSize s after size groupName) := by
  obtain ⟨_, hret, hnext⟩ := select_cases c groupId hsize s after size groupName
  have hle := h.le after (by rw [hphase]; rfl)
  have hpage : ∀ u ∈ selectMembers c s.table groupId after pageSize, c.key after < c.key u :=
    fun u hu => ((mem_behind c).mp (List.mem_of_mem_take hu)).2
  have hpairs := (pairwise_behind c s.table groupId after).sublist (List.take_sublist pageSize _)
  have hsorted : (returned (GroupsService.select c groupId pageSize s after size groupName)).Pairwise
      c.Before := by
    rw [hret, List.pairwise_append]
    exact ⟨h.sorted, hpairs, fun u hu v hv => (hle u hu).trans_lt (hpage v hv)⟩
  rcases hnext with ⟨last, hlast, hcounting⟩ | ⟨_, hdone⟩
  · refine ⟨hsorted, fun after' hafter' u hu => ?_, fun cursor hcursor => ?_, by simp [hcounting]⟩
    · rw [hcounting, Phase.after, afterOf_encodeCursor] at hafter'
      obtain rfl := Option.some.inj hafter'
      have hmem := List.mem_of_getLast? hlast
      rw [hret, List.mem_append] at hu
      rcases hu with hu | hu
      · exact (hle u hu).trans (hpage last hmem).le
      · obtain ⟨init, hinit⟩ := List.getLast?_eq_some_iff.mp hlast
        have hpairs' : (init ++ [last]).Pairwise c.Before := hinit ▸ hpairs
        rw [hinit, List.mem_append, List.mem_singleton] at hu
        rcases hu with hu | rfl
        · exact le_of_lt ((List.pairwise_append.mp hpairs').2.2 u hu last (by simp))
        · exact le_rfl
    · rw [hcounting] at hcursor
      obtain rfl := Phase.counting.inj hcursor
      rw [afterOf_encodeCursor]
      rfl
  · exact ⟨hsorted, by simp [hdone, Phase.after], by simp [hdone], by simp [hdone]⟩

lemma Covered.select {u : Upn} (h : Covered c groupId u s) {pageSize : ℕ} (hsize : 1 ≤ pageSize)
    {after : String} {size : ℕ} {groupName : String}
    (hphase : s.phase = .selecting after size groupName) :
    Covered c groupId u (select c groupId pageSize s after size groupName) := by
  obtain ⟨htable, hret, hnext⟩ := select_cases c groupId hsize s after size groupName
  have hle := h.le after (by rw [hphase]; rfl)
  have hmem := h.mem
  refine ⟨htable ▸ hmem, fun after' hafter' hu => ?_, fun hdone => ?_⟩
  · rcases hnext with ⟨last, hlast, hcounting⟩ | ⟨_, hdone⟩
    · rw [hcounting, Phase.after, afterOf_encodeCursor] at hafter'
      obtain rfl := Option.some.inj hafter'
      rw [hret, List.mem_append]
      by_cases hbefore : c.key u ≤ c.key after
      · exact .inl (hle hbefore)
      · exact .inr (mem_take_of_le c (pairwise_behind c s.table groupId after) hlast
          ((mem_behind c).mpr ⟨hmem, not_le.mp hbefore⟩) hu)
    · simp [hdone, Phase.after] at hafter'
  · rcases hnext with ⟨last, _, hcounting⟩ | ⟨hall, _⟩
    · simp [hcounting] at hdone
    · rw [hret, List.mem_append, hall]
      by_cases hbefore : c.key u ≤ c.key after
      · exact .inl (hle hbefore)
      · exact .inr ((mem_behind c).mpr ⟨hmem, not_le.mp hbefore⟩)

/-! ## Whole traversals -/

theorem step_ordered (groupId : String) {pageSize : ℕ} (hsize : 1 ≤ pageSize) (s : State) (a : Action)
    (h : Ordered c s) : Ordered c (step c groupId pageSize s a) := by
  cases a with
  | insert upn gid name => exact ⟨h.sorted, h.le, h.cursor, h.phase⟩
  | delete upn gid => exact ⟨h.sorted, h.le, h.cursor, h.phase⟩
  | count =>
    rw [step]
    split
    case h_1 cursor hphase => exact h.count hphase
    case h_2 => exact h
  | select =>
    rw [step]
    split
    case h_1 after size groupName hphase => exact h.select hsize hphase
    case h_2 => exact h

theorem step_covered {pageSize : ℕ} (hsize : 1 ≤ pageSize) {u : Upn} (s : State) (a : Action)
    (h : Covered c groupId u s) (hkeep : a ≠ .delete u groupId) :
    Covered c groupId u (step c groupId pageSize s a) := by
  cases a with
  | insert upn gid name =>
    refine ⟨?_, h.le, h.done⟩
    have hmem := mem_membersOf.mp h.mem
    rw [mem_membersOf, step, Dict.set, Dict.mem_keys_update]
    exact .inr hmem
  | delete upn gid =>
    refine ⟨?_, h.le, h.done⟩
    obtain ⟨e, he, hkey⟩ := List.mem_map.mp (mem_membersOf.mp h.mem)
    rw [mem_membersOf]
    refine List.mem_map.mpr ⟨e, (Dict.mem_entries_erase _ _ _).mpr ⟨he, fun heq => ?_⟩, hkey⟩
    rw [hkey, Prod.mk.injEq] at heq
    exact hkeep (by rw [heq.1, heq.2])
  | count =>
    rw [step]
    split
    case h_1 cursor hphase => exact h.count hphase
    case h_2 => exact h
  | select =>
    rw [step]
    split
    case h_1 after size groupName hphase => exact h.select hsize hphase
    case h_2 => exact h

end

/-- Following the cursors to the end returns names in strictly increasing order, and
every name that was a member from the start and was never deleted. -/
theorem traversal_complete {κ : Type*} [LinearOrder κ] (c : Collation κ) (groupId : String)
    {pageSize : ℕ} (hsize : 1 ≤ pageSize) (table : UserGroups) (actions : List Action) :
    let s := run (step c groupId pageSize) (initial table) actions
    (returned s).Pairwise c.Before ∧ s.phase ≠ .raised ∧
      (s.phase = .done → ∀ u ∈ membersOf table groupId, .delete u groupId ∉ actions →
        u ∈ returned s) ∧
      ∀ upn, decodeCursor (encodeCursor upn) = some upn := by
  intro s
  have hordered := run_invariant (step_ordered groupId hsize) (ordered_initial c table)
    actions
  refine ⟨hordered.sorted, hordered.phase, fun hdone u hu hkeep => ?_, decodeCursor_encodeCursor⟩
  have hkept : ∀ a ∈ actions, State → a ≠ .delete u groupId := by
    rintro a ha - rfl
    exact hkeep ha
  have hcovered := throughout_of_along (I := Covered c groupId u) (step_covered hsize)
    (covered_initial c hu) (along_of_forall_mem hkept (initial table))
  exact hcovered.last.done hdone

/-- The order by code points. -/
def collationC : Collation (List Char) where
  key := String.toList
  injective _ _ := String.toList_injective
  empty_lt s hs := by
    cases h : s.toList with
    | nil => exact absurd (String.toList_eq_nil_iff.mp h) hs
    | cons ch rest => simp

/-- The member that the cursor names is deleted and another one inserted between two
pages; the last page is empty. -/
theorem traversal_complete_edited :
    let alice : Upn := ⟨"alice@corp", by decide⟩
    let bob : Upn := ⟨"bob@corp", by decide⟩
    let carol : Upn := ⟨"carol@corp", by decide⟩
    let dave : Upn := ⟨"dave@corp", by decide⟩
    let table : UserGroups :=
      ((Dict.empty.set (carol, "eng") "Engineering").set (alice, "eng") "Engineering").set
        (bob, "eng") "Engineering"
    let actions : List Action := [.count, .select, .delete bob "eng", .count,
      .insert dave "eng" "Engineering", .select, .count, .select]
    let s := run (step collationC "eng" 2) (initial table) actions
    1 ≤ 2 ∧ s.phase = .done ∧ returned s = [alice, bob, carol, dave] ∧ carol ∈ returned s := by
  intro alice bob carol dave table actions s
  have hdone : s.phase = .done := by decide +kernel
  refine ⟨by decide, hdone, by decide +kernel, ?_⟩
  exact (traversal_complete collationC "eng" (by decide) table actions).2.2.1 hdone carol
    (by decide +kernel) (by decide +kernel)

end FlowDiscovery.GroupsService
