import FlowDiscovery.SankeyApi

/-!
# The links of a live answer

The live answer is made of the links of whatever delta is stored: those that every
given filter selects, the largest ones first, cut to the limit. The filters are kept
apart here, so that they can be applied in any order.
-/
namespace FlowDiscovery.SankeyApi
open PyText PyTime PyIpaddress IdentityService SankeyPublisher

/-- The stored delta, or an empty one, as `liveBase` makes it. -/
def storedBase (stored : Option SankeyDelta) (now : Instant) : SankeyBase :=
  match stored with
  | some d => ⟨d.ts, d.windowS, d.nodesLeft, d.nodesRight, d.links, d.lossy, d.droppedCount⟩
  | none => ⟨now, 5, [], [], [], false, 0⟩

/-- `GET /api/flows/sankey` in live mode, for any delta under `sankey.last`. -/
def sankeyLive (stored : Option SankeyDelta) (now : Instant) (q : SankeyQuery) :
    Except HttpError SankeyResponse := do
  let base := storedBase stored now
  let links ← filterLinks q.filter base.links
  return respond q.limit base links

theorem sankey_live {Inet : Type} [DecidableEq Inet] (src : Sources Inet) {q : SankeyQuery}
    (hmode : q.mode = .live) : sankey src q = sankeyLive src.stored src.now q := by
  have hbase : liveBase src = storedBase src.stored src.now := by
    unfold liveBase storedBase
    cases src.stored <;> rfl
  simp only [sankey, baseOf, hmode, hbase]
  rfl

/-! ## One filter after the other -/

/-- The filters of `_filter_links`. -/
inductive Stage where
  | source
  | app
  | group
  | user
  | excluded
  deriving DecidableEq

def Stage.all : List Stage := [.source, .app, .group, .user, .excluded]

def applyStage (f : LinkFilter) (links : List Link) : Stage → Except HttpError (List Link)
  | .source => filterSource f.srcCidr links
  | .app => .ok (filterApp f.dstApp links)
  | .group => .ok (filterGroup f.groupSet links)
  | .user => .ok (filterUser f.user links)
  | .excluded => .ok (filterExcluded f.excludeSet links)

/-- The filters one after the other, up to the first one that fails. -/
def filterInOrder (order : List Stage) (f : LinkFilter) (links : List Link) :
    Except HttpError (List Link) :=
  order.foldlM (applyStage f) links

/-- The answer with the filters applied in some order. -/
def sankeyInOrder (order : List Stage) (stored : Option SankeyDelta) (now : Instant)
    (q : SankeyQuery) : Except HttpError SankeyResponse := do
  let base := storedBase stored now
  let links ← filterInOrder order q.filter base.links
  return respond q.limit base links

/-- The source applies them in the order of `Stage.all`. -/
lemma filterInOrder_all (f : LinkFilter) (links : List Link) :
    filterInOrder Stage.all f links = filterLinks f links := by
  unfold filterInOrder filterLinks
  cases h : filterSource f.srcCidr links with
  | error e => simp [Stage.all, applyStage, h]; rfl
  | ok kept => simp [Stage.all, applyStage, h]; rfl

/-- What one filter says about a link. An unknown source passes the filters that name
groups or a user. -/
def Selects (f : LinkFilter) (lk : Link) : Stage → Prop
  | .source => ∀ cidr ∈ given f.srcCidr, ∃ net ∈ ipNetwork false cidr.toList, inNet net lk
  | .app => ∀ app ∈ given f.dstApp, lk.dst = "app:" ++ app
  | .group => f.groupSet.Nonempty → lk.src ∈ f.groupSet ∨ lk.src = unknownUser
  | .user => ∀ upn ∈ given f.user, lk.src = upn ∨ lk.src = unknownUser
  | .excluded => lk.src ∉ f.excludeSet

/-- The link satisfies every filter that is given. -/
def Satisfies (f : LinkFilter) (lk : Link) : Prop := ∀ stage, Selects f lk stage

instance (f : LinkFilter) (lk : Link) (stage : Stage) : Decidable (Selects f lk stage) := by
  cases stage <;> unfold Selects <;> infer_instance

lemma Stage.mem_all (stage : Stage) : stage ∈ Stage.all := by cases stage <;> decide

instance (f : LinkFilter) (lk : Link) : Decidable (Satisfies f lk) :=
  decidable_of_iff (∀ stage ∈ Stage.all, Selects f lk stage)
    ⟨fun h stage => h stage stage.mem_all, fun h stage _ => h stage⟩

lemma filterSource_selects {f : LinkFilter} (h : f.Valid) (links : List Link) :
    filterSource f.srcCidr links = .ok (links.filter fun lk => Selects f lk .source) := by
  rw [filterSource_of_valid links h]
  congr 1
  apply List.filter_congr
  intro lk _
  rw [Bool.eq_iff_iff, decide_eq_true_iff, Selects, Option.all_eq_true]
  simp only [Option.any_eq_true, Option.mem_def]

lemma filterApp_selects (f : LinkFilter) (links : List Link) :
    filterApp f.dstApp links = links.filter fun lk => Selects f lk .app := by
  rw [filterApp_eq]
  apply List.filter_congr
  intro lk _
  cases hgiven : given f.dstApp <;> simp [Selects, hgiven]

lemma filterGroup_selects (f : LinkFilter) (links : List Link) :
    filterGroup f.groupSet links = links.filter fun lk => Selects f lk .group := by
  rw [filterGroup_eq]
  apply List.filter_congr
  intro lk _
  by_cases hempty : f.groupSet = ∅ <;> simp [Selects, hempty, Finset.nonempty_iff_ne_empty]

lemma filterUser_selects (f : LinkFilter) (links : List Link) :
    filterUser f.user links = links.filter fun lk => Selects f lk .user := by
  rw [filterUser_eq]
  apply List.filter_congr
  intro lk _
  cases hgiven : given f.user <;> simp [Selects, hgiven]

lemma filterExcluded_selects (f : LinkFilter) (links : List Link) :
    filterExcluded f.excludeSet links = links.filter fun lk => Selects f lk .excluded := by
  rw [filterExcluded_eq]
  apply List.filter_congr
  intro lk _
  rw [Bool.eq_iff_iff, decide_eq_true_iff, decide_eq_true_iff]
  by_cases hempty : f.excludeSet = ∅ <;> simp [Selects, hempty]

lemma applyStage_of_valid {f : LinkFilter} (h : f.Valid) (links : List Link) (stage : Stage) :
    applyStage f links stage = .ok (links.filter fun lk => Selects f lk stage) := by
  cases stage with
  | source => exact filterSource_selects h links
  | app => exact congrArg _ (filterApp_selects f links)
  | group => exact congrArg _ (filterGroup_selects f links)
  | user => exact congrArg _ (filterUser_selects f links)
  | excluded => exact congrArg _ (filterExcluded_selects f links)

lemma filterInOrder_of_valid {f : LinkFilter} (h : f.Valid) (order : List Stage)
    (links : List Link) :
    filterInOrder order f links =
      .ok (links.filter fun lk => ∀ stage ∈ order, Selects f lk stage) := by
  induction order generalizing links with
  | nil => simp [filterInOrder]; rfl
  | cons stage rest ih =>
    have hstep : filterInOrder (stage :: rest) f links =
        (applyStage f links stage).bind fun kept => filterInOrder rest f kept := rfl
    rw [hstep, applyStage_of_valid h, Except.bind, ih, List.filter_filter]
    congr 1
    apply List.filter_congr
    intro lk _
    simp [Bool.and_comm]

/-- A network that does not parse is rejected wherever its filter stands. -/
lemma filterInOrder_of_not_valid {f : LinkFilter} (h : ¬ f.Valid) {order : List Stage}
    (hmem : .source ∈ order) (links : List Link) :
    filterInOrder order f links = .error .invalidCidr := by
  induction order generalizing links with
  | nil => cases hmem
  | cons stage rest ih =>
    have hstep : filterInOrder (stage :: rest) f links =
        (applyStage f links stage).bind fun kept => filterInOrder rest f kept := rfl
    rw [hstep]
    cases stage with
    | source =>
      rw [applyStage, filterSource_of_invalid links h]
      rfl
    | app => exact ih (by simpa using hmem) _
    | group => exact ih (by simpa using hmem) _
    | user => exact ih (by simpa using hmem) _
    | excluded => exact ih (by simpa using hmem) _

lemma filterInOrder_eq {order : List Stage} (hperm : order.Perm Stage.all) (f : LinkFilter)
    (links : List Link) : filterInOrder order f links = filterLinks f links := by
  rw [← filterInOrder_all]
  by_cases h : f.Valid
  · rw [filterInOrder_of_valid h, filterInOrder_of_valid h]
    simp only [hperm.mem_iff]
  · rw [filterInOrder_of_not_valid h (hperm.mem_iff.mpr (Stage.mem_all _)),
      filterInOrder_of_not_valid h (Stage.mem_all _)]

lemma filterLinks_satisfies {f : LinkFilter} (h : f.Valid) (links : List Link) :
    filterLinks f links = .ok (links.filter fun lk => Satisfies f lk) := by
  rw [← filterInOrder_all, filterInOrder_of_valid h]
  congr 1
  apply List.filter_congr
  intro lk _
  rw [Bool.eq_iff_iff, decide_eq_true_iff, decide_eq_true_iff, Satisfies]
  simp only [Stage.mem_all, forall_const]

/-! ## The largest ones -/

/-- The answer lists exactly the largest of the stored links that match. -/
structure ExactTop (limit : ℕ) (f : LinkFilter) (links : List Link) (r : SankeyResponse) :
    Prop where
  selected : r.links.Subperm links
  satisfied : ∀ lk ∈ r.links, Satisfies f lk
  count : r.links.length = min limit (links.countP fun lk => Satisfies f lk)
  ranked : r.links.Pairwise fun a b => b.bytes ≤ a.bytes
  largest : ∃ omitted, (r.links ++ omitted).Perm (links.filter fun lk => Satisfies f lk) ∧
    ∀ a ∈ r.links, ∀ b ∈ omitted, b.bytes ≤ a.bytes
  total : r.totalLinks = links.countP fun lk => Satisfies f lk
  truncated : r.truncated ↔ limit < links.countP fun lk => Satisfies f lk

lemma topLinks_perm (limit : ℕ) (links : List Link) :
    ∃ omitted, (topLinks limit links ++ omitted).Perm links ∧
      ∀ a ∈ topLinks limit links, ∀ b ∈ omitted, b.bytes ≤ a.bytes := by
  let key := fun lk : Link => OrderDual.toDual lk.bytes
  refine ⟨(sortedBy key links).drop limit, ?_, take_sortedBy_le_drop key limit links⟩
  rw [topLinks, List.take_append_drop]
  exact sortedBy_perm key links

lemma topLinks_ranked (limit : ℕ) (links : List Link) :
    (topLinks limit links).Pairwise fun a b => b.bytes ≤ a.bytes :=
  (pairwise_sortedBy (fun lk : Link => OrderDual.toDual lk.bytes) links).sublist
    (List.take_sublist _ _)

lemma length_topLinks (limit : ℕ) (links : List Link) :
    (topLinks limit links).length = min limit links.length := by
  rw [topLinks, List.length_take, (sortedBy_perm _ links).length_eq]

lemma exactTop_respond (limit : ℕ) (f : LinkFilter) (base : SankeyBase) (links : List Link) :
    ExactTop limit f links (respond limit base (links.filter fun lk => Satisfies f lk)) := by
  obtain ⟨omitted, hperm, hle⟩ := topLinks_perm limit (links.filter fun lk => Satisfies f lk)
  have hmem : ∀ lk ∈ topLinks limit (links.filter fun lk => Satisfies f lk),
      lk ∈ links.filter fun lk => Satisfies f lk := fun lk h => mem_of_mem_topLinks h
  constructor
  case selected =>
    have hkept := (List.sublist_append_left (topLinks limit _) omitted).subperm.trans hperm.subperm
    exact hkept.trans List.filter_sublist.subperm
  case satisfied =>
    intro lk hlk
    simpa using (List.mem_filter.mp (hmem lk hlk)).2
  case count => exact (length_topLinks limit _).trans (by rw [List.countP_eq_length_filter])
  case ranked => exact topLinks_ranked limit _
  case largest => exact ⟨omitted, hperm, hle⟩
  case total => exact List.countP_eq_length_filter.symm
  case truncated =>
    rw [List.countP_eq_length_filter]
    exact decide_eq_true_iff

lemma sankeyLive_of_valid (stored : Option SankeyDelta) (now : Instant) {q : SankeyQuery}
    (h : q.filter.Valid) :
    sankeyLive stored now q = .ok (respond q.limit (storedBase stored now)
      ((storedBase stored now).links.filter fun lk => Satisfies q.filter lk)) := by
  simp only [sankeyLive, filterLinks_satisfies h]
  rfl

lemma sankeyLive_of_not_valid (stored : Option SankeyDelta) (now : Instant) {q : SankeyQuery}
    (h : ¬ q.filter.Valid) : sankeyLive stored now q = .error .invalidCidr := by
  simp only [sankeyLive, filterLinks_of_not_valid h]
  rfl

/-- For every stored delta, filter and limit: a request has an answer exactly when its
network parses, the answer lists exactly the largest links that satisfy all filters,
and it is the same in whatever order the filters are applied. -/
theorem sankeyLive_exactTop (stored : Option SankeyDelta) (now : Instant) (q : SankeyQuery) :
    ((∃ r, sankeyLive stored now q = .ok r) ↔ q.filter.Valid) ∧
    (∀ r, sankeyLive stored now q = .ok r →
      ExactTop q.limit q.filter (storedBase stored now).links r) ∧
    ∀ order : List Stage, order.Perm Stage.all →
      sankeyInOrder order stored now q = sankeyLive stored now q := by
  refine ⟨?_, ?_, ?_⟩
  · by_cases hvalid : q.filter.Valid
    · exact iff_of_true ⟨_, sankeyLive_of_valid stored now hvalid⟩ hvalid
    · simp [sankeyLive_of_not_valid stored now hvalid, hvalid]
  · intro r hr
    by_cases hvalid : q.filter.Valid
    · rw [sankeyLive_of_valid stored now hvalid] at hr
      obtain rfl := Except.ok.inj hr
      exact exactTop_respond q.limit q.filter _ _
    · rw [sankeyLive_of_not_valid stored now hvalid] at hr
      cases hr
  · intro order hperm
    simp only [sankeyInOrder, sankeyLive, filterInOrder_eq hperm]

/-- Three links of one size and one of an unknown source, cut to two. -/
def tiedDelta : SankeyDelta where
  ts := 0
  windowS := 5
  nodesLeft := []
  nodesRight := []
  links := [⟨"g1", "app:a", 10, 1, 1⟩, ⟨"unknown", "app:b", 20, 1, 1⟩, ⟨"g2", "app:a", 10, 1, 1⟩,
    ⟨"g1", "app:c", 10, 1, 1⟩]
  lossy := false
  droppedCount := 0

def tiedQuery : SankeyQuery :=
  ⟨.live, 2, ⟨none, none, ["g1", ""], none, some " g2, "⟩, none, none, by decide, by decide⟩

theorem sankeyLive_exactTop_tied :
    ∃ r, sankeyLive (some tiedDelta) 0 tiedQuery = .ok r ∧
      r.links = [⟨"unknown", "app:b", 20, 1, 1⟩, ⟨"g1", "app:a", 10, 1, 1⟩] ∧
      r.totalLinks = 3 ∧ r.truncated ∧ ExactTop 2 tiedQuery.filter tiedDelta.links r ∧
      sankeyInOrder [.excluded, .user, .group, .app, .source] (some tiedDelta) 0 tiedQuery =
        .ok r := by
  obtain ⟨_, htop, horder⟩ := sankeyLive_exactTop (some tiedDelta) 0 tiedQuery
  refine ⟨_, rfl, by decide +kernel, by decide +kernel, by decide +kernel, htop _ rfl, ?_⟩
  exact horder _ (List.reverse_perm Stage.all)

end FlowDiscovery.SankeyApi
