import FlowDiscovery.GroupsService

/-!
# The members of a group in the browser

The modal fetches the first page of a group that is clicked, and further pages behind the
data that is on screen. Nothing is cancelled: answers arrive in any order, also those for a
group that has been left, and two clicks can ask for the same page. Meanwhile memberships
are inserted and deleted. What is on screen is nevertheless the beginning of one group's
list: in order, of at most 200 users, none of them left out who is a member all the time.
-/
namespace FlowDiscovery.MembersModal
open PyText GroupsService

def pageSize : ℕ := 100
def maxMembers : ℕ := 200

/-- A request with the data that was on screen when a further page was asked for. Its
statements run on the server, and then it has an answer unless there was an error. -/
structure Fetch where
  groupId : String
  base : Option GroupMembers
  phase : Phase
  answer : Option GroupMembers

/-- `rendered` and `tables` are histories, of the data and of the table. -/
structure State where
  table : UserGroups
  tables : List UserGroups
  data : Option GroupMembers
  rendered : List GroupMembers
  fetches : List Fetch

inductive Action where
  | insert (upn : Upn) (groupId groupName : String)
  | delete (upn : Upn) (groupId : String)
  | openGroup (groupId : String)
  | loadMore (k : ℕ)
  | count (i : ℕ)
  | select (i : ℕ)
  | answer (i : ℕ)

def initial (table : UserGroups) : State := ⟨table, [table], none, [], []⟩

def setTable (s : State) (table : UserGroups) : State :=
  { s with table, tables := s.tables ++ [table] }

def setData (s : State) (d : GroupMembers) : State :=
  { s with data := some d, rendered := s.rendered ++ [d] }

def send (s : State) (groupId : String) (base : Option GroupMembers) (cursor : Option Text) : State :=
  { s with fetches := s.fetches ++ [⟨groupId, base, .counting cursor, none⟩] }

/-- `loadMore` of the component as it was rendered with this data. -/
def loadMore (s : State) (d : GroupMembers) : State :=
  if d.nextCursor.all (· = []) ∨ maxMembers ≤ d.members.length then s
  else send s d.groupId (some d) d.nextCursor

/-- The data after an answer. -/
def merge (base : Option GroupMembers) (next : GroupMembers) : GroupMembers :=
  match base with
  | none => next
  | some d =>
    { d with
      members := (d.members ++ next.members).take maxMembers
      nextCursor := next.nextCursor }

section

variable {κ : Type*} [LinearOrder κ] (c : Collation κ)

/-- The first statement of a request. -/
def counted (table : UserGroups) (f : Fetch) : Fetch :=
  match f.phase with
  | .counting cursor =>
    { f with phase := (GroupsService.count c f.groupId ⟨table, f.phase, []⟩ cursor).phase }
  | _ => f

/-- The second one, and the answer. -/
def selected (table : UserGroups) (f : Fetch) : Fetch :=
  match f.phase with
  | .selecting after size groupName =>
    let s := GroupsService.select c f.groupId pageSize ⟨table, f.phase, []⟩ after size groupName
    { f with phase := .done, answer := s.pages.head? }
  | _ => f

def step (s : State) : Action → State
  | .insert upn groupId groupName => setTable s (s.table.set (upn, groupId) groupName)
  | .delete upn groupId => setTable s (s.table.erase (upn, groupId))
  | .openGroup groupId => send { s with data := none } groupId none none
  | .loadMore k =>
    match s.rendered[k]? with
    | none => s
    | some d => loadMore s d
  | .count i => { s with fetches := s.fetches.modify i (counted c s.table) }
  | .select i => { s with fetches := s.fetches.modify i (selected c s.table) }
  | .answer i =>
    match s.fetches[i]? with
    | none => s
    | some f =>
      let left := { s with fetches := s.fetches.eraseIdx i }
      match f.answer with
      | none => left
      | some next => setData left (merge f.base next)

/-! ## What is on screen -/

/-- The beginning of the list of a group: in order, members at some time, and who is a
member at all times is listed unless there is a cursor and comes behind the last one. -/
structure Listed (tables : List UserGroups) (d : GroupMembers) : Prop where
  sorted : d.members.Pairwise c.Before
  members : ∀ u ∈ d.members, ∃ t ∈ tables, u ∈ membersOf t d.groupId
  complete : ∀ u, (∀ t ∈ tables, u ∈ membersOf t d.groupId) →
    (d.nextCursor = none ∨ ∃ last, d.members.getLast? = some last ∧ c.key u ≤ c.key last) →
    u ∈ d.members

/-- The cursor is that of the last member on one full page or two. -/
structure Paged (d : GroupMembers) : Prop where
  length_le : d.members.length ≤ maxMembers
  cursor : ∀ cursor, d.nextCursor = some cursor →
    (d.members.length = pageSize ∨ d.members.length = maxMembers) ∧
    ∃ last, d.members.getLast? = some last ∧ cursor = encodeCursor last

/-- A page of the group behind a text. -/
structure IsPage (tables : List UserGroups) (groupId after : String) (next : GroupMembers) :
    Prop where
  groupId_eq : next.groupId = groupId
  members : ∃ t ∈ tables, next.members = selectMembers c t groupId after pageSize
  cursor : (next.members.length = pageSize ∧ ∃ last, next.members.getLast? = some last ∧
      next.nextCursor = some (encodeCursor last)) ∨
    (next.members.length ≠ pageSize ∧ next.nextCursor = none)

/-- The text behind which a request reads. -/
def StartsAt (tables : List UserGroups) (f : Fetch) (after : String) : Prop :=
  match f.base with
  | none => after = ""
  | some d => Listed c tables d ∧ d.groupId = f.groupId ∧ d.members.length = pageSize ∧
    ∃ last : Upn, d.members.getLast? = some last ∧ after = last.1

/-- A request that is under way, or has its page. -/
structure Sound (tables : List UserGroups) (f : Fetch) : Prop where
  start : ∃ after, StartsAt c tables f after ∧ (∀ a, f.phase.after = some a → a = after) ∧
    ∀ next, f.answer = some next → IsPage c tables f.groupId after next

structure Inv (s : State) : Prop where
  table : s.table ∈ s.tables
  rendered : ∀ d ∈ s.rendered, Listed c s.tables d ∧ Paged d
  data : ∀ d, s.data = some d → d ∈ s.rendered
  fetches : ∀ f ∈ s.fetches, Sound c s.tables f

variable {c}

lemma Listed.mono {tables tables' : List UserGroups} {d : GroupMembers} (h : Listed c tables d)
    (hsub : tables ⊆ tables') : Listed c tables' d where
  sorted := h.sorted
  members u hu := by
    obtain ⟨t, ht, hmem⟩ := h.members u hu
    exact ⟨t, hsub ht, hmem⟩
  complete u hu := h.complete u fun t ht => hu t (hsub ht)

lemma IsPage.mono {tables tables' : List UserGroups} {groupId after : String} {next : GroupMembers}
    (h : IsPage c tables groupId after next) (hsub : tables ⊆ tables') :
    IsPage c tables' groupId after next := by
  obtain ⟨t, ht, hmembers⟩ := h.members
  exact ⟨h.groupId_eq, ⟨t, hsub ht, hmembers⟩, h.cursor⟩

lemma StartsAt.mono {tables tables' : List UserGroups} {f : Fetch} {after : String}
    (h : StartsAt c tables f after) (hsub : tables ⊆ tables') : StartsAt c tables' f after := by
  unfold StartsAt at h ⊢
  cases hbase : f.base with
  | none => rwa [hbase] at h
  | some d =>
    rw [hbase] at h
    exact ⟨h.1.mono hsub, h.2⟩

lemma Sound.mono {tables tables' : List UserGroups} {f : Fetch} (h : Sound c tables f)
    (hsub : tables ⊆ tables') : Sound c tables' f := by
  obtain ⟨after, hstart, hphase, hanswer⟩ := h.start
  exact ⟨after, hstart.mono hsub, hphase, fun next hnext => (hanswer next hnext).mono hsub⟩

/-! ## The two statements -/

lemma after_count (groupId : String) (s : GroupsService.State) (cursor : Option Text) {a : String}
    (h : (GroupsService.count c groupId s cursor).phase.after = some a) :
    afterOf cursor = some a := by
  unfold GroupsService.count at h
  cases hafter : afterOf cursor with
  | none =>
    rw [hafter] at h
    cases h
  | some after =>
    rw [hafter] at h
    dsimp only at h
    by_cases hsize : (membersOf s.table groupId).length = 0
    · rw [if_pos hsize] at h
      cases h
    · rw [if_neg hsize] at h
      exact h

lemma Sound.counted {tables : List UserGroups} {f : Fetch} (h : Sound c tables f)
    (table : UserGroups) : Sound c tables (counted c table f) := by
  obtain ⟨after, hstart, hphase, hanswer⟩ := h.start
  unfold MembersModal.counted
  split
  · next cursor hcursor =>
    refine ⟨after, hstart, fun a ha => hphase a ?_, hanswer⟩
    rw [hcursor]
    exact after_count f.groupId _ cursor ha
  · exact h

lemma isPage_select {tables : List UserGroups} {table : UserGroups} (htable : table ∈ tables)
    (groupId : String) (phase : Phase) (after : String) (size : ℕ) (groupName : String)
    {next : GroupMembers}
    (h : (GroupsService.select c groupId pageSize ⟨table, phase, []⟩ after size
      groupName).pages.head? = some next) : IsPage c tables groupId after next := by
  unfold GroupsService.select at h
  by_cases hfull : (selectMembers c table groupId after pageSize).length = pageSize
  · rw [if_pos hfull] at h
    cases hlast : (selectMembers c table groupId after pageSize).getLast? with
    | none =>
      rw [hlast] at h
      cases h
    | some last =>
      rw [hlast] at h
      obtain rfl := Option.some.inj h
      exact ⟨rfl, ⟨table, htable, rfl⟩, .inl ⟨hfull, last, hlast, rfl⟩⟩
  · rw [if_neg hfull] at h
    obtain rfl := Option.some.inj h
    exact ⟨rfl, ⟨table, htable, rfl⟩, .inr ⟨hfull, rfl⟩⟩

lemma Sound.selected {tables : List UserGroups} {f : Fetch} (h : Sound c tables f)
    {table : UserGroups} (htable : table ∈ tables) : Sound c tables (selected c table f) := by
  obtain ⟨after, hstart, hphase, hanswer⟩ := h.start
  unfold MembersModal.selected
  split
  · next after' size groupName hselecting =>
    have hafter : after' = after := hphase after' (by rw [hselecting]; rfl)
    subst hafter
    exact ⟨after', hstart, nofun, fun next hnext => isPage_select htable f.groupId f.phase after' size
      groupName hnext⟩
  · exact h

/-! ## The answer -/

lemma key_le_last {l : List Upn} (hl : l.Pairwise c.Before) {last u : Upn}
    (hlast : l.getLast? = some last) (hu : u ∈ l) : c.key u ≤ c.key last := by
  obtain ⟨init, rfl⟩ := List.getLast?_eq_some_iff.mp hlast
  rw [List.mem_append, List.mem_singleton] at hu
  rcases hu with hu | rfl
  · exact le_of_lt ((List.pairwise_append.mp hl).2.2 u hu last (by simp))
  · exact le_rfl

section

variable {tables : List UserGroups} {groupId after : String} {next : GroupMembers}

lemma IsPage.sorted (h : IsPage c tables groupId after next) : next.members.Pairwise c.Before := by
  obtain ⟨t, _, hmembers⟩ := h.members
  rw [hmembers]
  exact (pairwise_behind c t groupId after).sublist (List.take_sublist pageSize _)

lemma IsPage.length_le (h : IsPage c tables groupId after next) :
    next.members.length ≤ pageSize := by
  obtain ⟨t, _, hmembers⟩ := h.members
  rw [hmembers]
  exact List.length_take_le pageSize _

lemma IsPage.behind (h : IsPage c tables groupId after next) {u : Upn} (hu : u ∈ next.members) :
    (∃ t ∈ tables, u ∈ membersOf t groupId) ∧ c.key after < c.key u := by
  obtain ⟨t, ht, hmembers⟩ := h.members
  rw [hmembers] at hu
  obtain ⟨hmem, hkey⟩ := (mem_behind c).mp (List.mem_of_mem_take hu)
  exact ⟨⟨t, ht, hmem⟩, hkey⟩

/-- Who is behind the start and not behind the end of the page is on it. -/
lemma IsPage.mem (h : IsPage c tables groupId after next) {u : Upn}
    (hu : ∀ t ∈ tables, u ∈ membersOf t groupId) (hafter : c.key after < c.key u)
    (hend : next.nextCursor = none ∨
      ∃ last, next.members.getLast? = some last ∧ c.key u ≤ c.key last) : u ∈ next.members := by
  obtain ⟨t, ht, hmembers⟩ := h.members
  have hbehind := (mem_behind c).mpr ⟨hu t ht, hafter⟩
  rcases hend with hnone | ⟨last, hlast, hle⟩
  · rcases h.cursor with ⟨_, last, _, hsome⟩ | ⟨hshort, _⟩
    · rw [hnone] at hsome
      cases hsome
    · -- a page that is not full holds all that is left
      rw [hmembers, selectMembers, List.take_of_length_le]
      · exact hbehind
      · by_contra hlong
        refine hshort ?_
        rw [hmembers, selectMembers, List.length_take]
        exact min_eq_left (not_le.mp hlong).le
  · rw [hmembers] at hlast ⊢
    exact mem_take_of_le c (pairwise_behind c t groupId after) hlast hbehind hle

end

lemma listed_first {tables : List UserGroups} {groupId : String} {next : GroupMembers}
    (h : IsPage c tables groupId "" next) : Listed c tables next ∧ Paged next := by
  have hgroup := h.groupId_eq
  subst hgroup
  refine ⟨⟨h.sorted, fun u hu => (h.behind hu).1, fun u hu hend => ?_⟩, ⟨?_, fun cursor hcursor => ?_⟩⟩
  · exact h.mem hu (c.empty_lt u u.2) hend
  · exact h.length_le.trans (by decide)
  · rcases h.cursor with ⟨hfull, last, hlast, hsome⟩ | ⟨_, hnone⟩
    · rw [hsome] at hcursor
      exact ⟨.inl hfull, last, hlast, (Option.some.inj hcursor).symm⟩
    · rw [hnone] at hcursor
      cases hcursor

/-- A second page fits under the limit, so that the two are joined whole. -/
lemma merge_page {tables : List UserGroups} {d next : GroupMembers} {last : Upn}
    (hlength : d.members.length = pageSize) (h : IsPage c tables d.groupId last.1 next) :
    (d.members ++ next.members).length ≤ maxMembers ∧
      merge (some d) next =
        { d with members := d.members ++ next.members, nextCursor := next.nextCursor } := by
  have hle : (d.members ++ next.members).length ≤ maxMembers := by
    have hpage := h.length_le
    rw [List.length_append]
    simp only [pageSize, maxMembers] at hlength hpage ⊢
    omega
  exact ⟨hle, by rw [merge, List.take_of_length_le hle]⟩

lemma listed_more {tables : List UserGroups} {d next : GroupMembers} {last : Upn}
    (hd : Listed c tables d) (hlength : d.members.length = pageSize)
    (hlast : d.members.getLast? = some last) (h : IsPage c tables d.groupId last.1 next) :
    Listed c tables (merge (some d) next) ∧ Paged (merge (some d) next) := by
  obtain ⟨hle, hmerged⟩ := merge_page hlength h
  have hfront : ∀ u ∈ d.members, c.key u ≤ c.key last := fun u hu => key_le_last hd.sorted hlast hu
  rw [hmerged]
  refine ⟨⟨?_, fun u hu => ?_, fun u hu hend => ?_⟩, ⟨?_, fun cursor hcursor => ?_⟩⟩
  · refine List.pairwise_append.mpr ⟨hd.sorted, h.sorted, fun u hu v hv => ?_⟩
    exact (hfront u hu).trans_lt (h.behind hv).2
  · rcases List.mem_append.mp hu with hu | hu
    · exact hd.members u hu
    · exact (h.behind hu).1
  · by_cases hbehind : c.key u ≤ c.key last
    · exact List.mem_append_left _ (hd.complete u hu (.inr ⟨last, hlast, hbehind⟩))
    · refine List.mem_append_right _ (h.mem hu (not_le.mp hbehind) ?_)
      rcases h.cursor with ⟨_, last', hlast', _⟩ | ⟨_, hnone⟩
      · rcases hend with hnone | ⟨last'', hlast'', hle'⟩
        · exact .inl hnone
        · refine .inr ⟨last', hlast', ?_⟩
          have hsame : (d.members ++ next.members).getLast? = some last' := by
            rw [List.getLast?_append, hlast']
            rfl
          obtain rfl := Option.some.inj (hlast''.symm.trans hsame)
          exact hle'
      · exact .inl hnone
  · exact hle
  · rcases h.cursor with ⟨hfull, last', hlast', hsome⟩ | ⟨_, hnone⟩
    · rw [hsome] at hcursor
      refine ⟨.inr ?_, last', ?_, (Option.some.inj hcursor).symm⟩
      · simp only [List.length_append, pageSize, maxMembers] at hlength hfull ⊢
        omega
      · rw [List.getLast?_append, hlast']
        rfl
    · rw [hnone] at hcursor
      cases hcursor

/-! ## Steps -/

variable {s : State}

lemma Inv.setTable (h : Inv c s) (table : UserGroups) : Inv c (setTable s table) where
  table := by simp [MembersModal.setTable]
  rendered d hd := ⟨(h.rendered d hd).1.mono (List.subset_append_left _ _), (h.rendered d hd).2⟩
  data := h.data
  fetches f hf := (h.fetches f hf).mono (List.subset_append_left _ _)

lemma Inv.setData (h : Inv c s) {d : GroupMembers} (hd : Listed c s.tables d ∧ Paged d) :
    Inv c (setData s d) where
  table := h.table
  rendered := by
    simp only [MembersModal.setData, List.forall_mem_append, List.forall_mem_singleton]
    exact ⟨h.rendered, hd⟩
  data d' hd' := by
    obtain rfl := Option.some.inj hd'
    exact List.mem_append_right _ (List.mem_singleton_self _)
  fetches := h.fetches

lemma Inv.send (h : Inv c s) {groupId : String} {base : Option GroupMembers} {cursor : Option Text}
    (hsound : Sound c s.tables ⟨groupId, base, .counting cursor, none⟩) :
    Inv c (send s groupId base cursor) where
  table := h.table
  rendered := h.rendered
  data := h.data
  fetches := by
    simp only [MembersModal.send, List.forall_mem_append, List.forall_mem_singleton]
    exact ⟨h.fetches, hsound⟩

lemma Inv.modify (h : Inv c s) (i : ℕ) {g : Fetch → Fetch}
    (hg : ∀ f, Sound c s.tables f → Sound c s.tables (g f)) :
    Inv c { s with fetches := s.fetches.modify i g } where
  table := h.table
  rendered := h.rendered
  data := h.data
  fetches f hf := by
    obtain ⟨j, hj⟩ := List.getElem?_of_mem hf
    rw [List.getElem?_modify] at hj
    obtain ⟨f', hf', rfl⟩ := Option.map_eq_some_iff.mp hj
    have hsound := h.fetches f' (List.mem_of_getElem? hf')
    split_ifs
    · exact hg f' hsound
    · exact hsound

/-- A further page begins behind the last member on screen. -/
lemma Inv.loadMore (h : Inv c s) {d : GroupMembers} (hd : d ∈ s.rendered) :
    Inv c (loadMore s d) := by
  obtain ⟨hlisted, hpaged⟩ := h.rendered d hd
  unfold MembersModal.loadMore
  split_ifs with hskip
  · exact h
  · rw [not_or] at hskip
    cases hcursor : d.nextCursor with
    | none => exact absurd (by simp [hcursor]) hskip.1
    | some cursor =>
      obtain ⟨hlength, last, hlast, rfl⟩ := hpaged.cursor cursor hcursor
      refine h.send ⟨last.1, ⟨hlisted, rfl, hlength.resolve_right ?_, last, hlast, rfl⟩, ?_, nofun⟩
      · intro hfull
        exact hskip.2 hfull.ge
      · intro a ha
        rw [Phase.after, afterOf_encodeCursor] at ha
        exact (Option.some.inj ha).symm

lemma Inv.answer (h : Inv c s) {i : ℕ} {f : Fetch} (hf : s.fetches[i]? = some f)
    {next : GroupMembers} (hnext : f.answer = some next) :
    Listed c s.tables (merge f.base next) ∧ Paged (merge f.base next) := by
  obtain ⟨after, hstart, _, hanswer⟩ := (h.fetches f (List.mem_of_getElem? hf)).start
  have hpage := hanswer next hnext
  unfold StartsAt at hstart
  cases hbase : f.base with
  | none =>
    rw [hbase] at hstart
    subst hstart
    exact listed_first hpage
  | some d =>
    rw [hbase] at hstart
    obtain ⟨hlisted, hgroup, hlength, last, hlast, rfl⟩ := hstart
    rw [← hgroup] at hpage
    exact listed_more hlisted hlength hlast hpage

theorem Inv.step (h : Inv c s) (a : Action) : Inv c (step c s a) := by
  cases a with
  | insert upn groupId groupName => exact h.setTable _
  | delete upn groupId => exact h.setTable _
  | openGroup groupId =>
    have hcleared : Inv c { s with data := none } := ⟨h.table, h.rendered, nofun, h.fetches⟩
    exact hcleared.send ⟨"", rfl, fun a ha => (Option.some.inj ha).symm, nofun⟩
  | loadMore k =>
    rw [MembersModal.step]
    cases hk : s.rendered[k]? with
    | none => exact h
    | some d => exact h.loadMore (List.mem_of_getElem? hk)
  | count i => exact h.modify i fun f hf => hf.counted s.table
  | select i => exact h.modify i fun f hf => hf.selected h.table
  | answer i =>
    rw [MembersModal.step]
    cases hf : s.fetches[i]? with
    | none => exact h
    | some f =>
      have hleft : Inv c { s with fetches := s.fetches.eraseIdx i } :=
        ⟨h.table, h.rendered, h.data, fun f hf => h.fetches f (List.mem_of_mem_eraseIdx hf)⟩
      cases hnext : f.answer with
      | none =>
        simp only [hnext]
        exact hleft
      | some next =>
        simp only [hnext]
        exact hleft.setData (h.answer hf hnext)

end

/-- Whatever is clicked, answered and written, in any order, the data on screen is the
beginning of the list of the group that it names, of at most 200 users. -/
theorem screen_lists_group {κ : Type*} [LinearOrder κ] (c : Collation κ) (table : UserGroups)
    (schedule : List Action) :
    ∀ d, (Machine.run (step c) (initial table) schedule).data = some d →
      Listed c (Machine.run (step c) (initial table) schedule).tables d ∧
        d.members.length ≤ maxMembers := by
  have hinitial : Inv c (initial table) := ⟨List.mem_singleton_self _, nofun, nofun, nofun⟩
  have hinv : Inv c (Machine.run (step c) (initial table) schedule) :=
    Machine.run_invariant (fun s a hs => hs.step a) hinitial schedule
  intro d hd
  obtain ⟨hlisted, hpaged⟩ := hinv.rendered d (hinv.data d hd)
  exact ⟨hlisted, hpaged.length_le⟩

deriving instance DecidableEq for GroupMembers

/-- The group that was left answers last, and a member is deleted between its statements. -/
theorem screen_lists_group_late :
    let alice : Upn := ⟨"alice@corp", by decide⟩
    let bob : Upn := ⟨"bob@corp", by decide⟩
    let carol : Upn := ⟨"carol@corp", by decide⟩
    let table : UserGroups :=
      ((Dict.empty.set (carol, "eng") "Engineering").set (alice, "eng") "Engineering").set
        (bob, "ops") "Operations"
    let schedule : List Action := [.openGroup "eng", .count 0, .openGroup "ops", .count 1,
      .select 1, .answer 1, .delete carol "eng", .select 0, .answer 0]
    let s := Machine.run (step collationC) (initial table) schedule
    let d : GroupMembers := ⟨"eng", "Engineering", 2, [alice], none⟩
    s.data = some d ∧ Listed collationC s.tables d ∧ d.members.length ≤ maxMembers := by
  intro alice bob carol table schedule s d
  have hdata : s.data = some d := by decide +kernel
  exact ⟨hdata, screen_lists_group collationC table schedule d hdata⟩

end FlowDiscovery.MembersModal
