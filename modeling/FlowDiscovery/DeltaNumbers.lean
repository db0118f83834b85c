import FlowDiscovery.DeltaWire
import FlowDiscovery.StrandSums

/-!
# The numbers of a delta

`json.dumps` raises on a number of more than 4300 digits. Whether a delta has one is
decided by the flows it is built from: the bytes or the flow counts that go to one link
add up to it, or one of the counts is that large.
-/
namespace FlowDiscovery.DeltaNumbers
open PyText PyTime PyJson EventJson DeltaWire SankeyPublisher

/-- `str` writes the number. -/
def Short (n : ℤ) : Prop := n.natAbs < 10 ^ intMaxStrDigits

instance : DecidablePred Short := fun _ => inferInstanceAs (Decidable (_ < _))

lemma Short.of_le {m n : ℕ} (h : Short n) (hle : m ≤ n) : Short m := by
  simp only [Short, Int.natAbs_natCast] at h ⊢
  omega

/-! ## Writing -/

def linkNumbers (link : Link) : List ℤ := [link.bytes, link.flows, link.users]

def numbers (delta : SankeyDelta) : List ℤ :=
  delta.windowS :: delta.droppedCount ::
    (delta.nodesLeft.map (fun node => (node.size : ℤ)) ++ delta.links.flatMap linkNumbers)

lemma dumps_str_isSome (s : PyStr) : (dumps true (.str s)).isSome := rfl

lemma dumps_obj_isSome_iff (fields : List (PyStr × Json)) :
    (dumps true (.obj fields)).isSome ↔ ∀ field ∈ fields, (dumps true field.2).isSome := by
  rw [dumps, Option.isSome_map, dumpsFields_isSome_iff]

lemma dumps_arr_map_isSome_iff {α : Type*} (f : α → Json) (items : List α) :
    (dumps true (.arr (items.map f))).isSome ↔ ∀ a ∈ items, (dumps true (f a)).isSome := by
  rw [dumps, Option.isSome_map, dumpsItems_isSome_iff, List.forall_mem_map]

lemma dumps_int_isSome_iff (n : ℤ) : (dumps true (.int n)).isSome ↔ Short n := by
  rw [dumps, dumpsInt_isSome_iff, Short]

lemma dumps_link_isSome_iff (link : Link) :
    (dumps true (.obj (linkMembers link))).isSome ↔ ∀ n ∈ linkNumbers link, Short n := by
  simp only [dumps_obj_isSome_iff, linkMembers, linkNumbers, List.forall_mem_cons,
    dumps_str_isSome, dumps_int_isSome_iff, List.not_mem_nil, false_imp_iff, implies_true,
    true_and, and_true]

lemma dumps_left_isSome_iff (node : LeftNode) :
    (dumps true (leftJson node)).isSome ↔ Short node.size := by
  simp only [leftJson, dumps_obj_isSome_iff, List.forall_mem_cons, dumps_str_isSome,
    dumps_int_isSome_iff, List.not_mem_nil, false_imp_iff, implies_true, true_and, and_true]

lemma dumps_right_isSome (node : RightNode) : (dumps true (rightJson node)).isSome := by
  simp only [rightJson, dumps_obj_isSome_iff, List.forall_mem_cons, dumps_str_isSome,
    List.not_mem_nil, false_imp_iff, implies_true, and_true]

/-- Only a number can keep a delta from being written. -/
theorem serialize_isSome_iff (iso : IsoText) (delta : SankeyDelta) :
    (serialize iso delta).isSome ↔ ∀ n ∈ numbers delta, Short n := by
  have hbool : (dumps true (.bool delta.lossy)).isSome := by cases delta.lossy <;> rfl
  simp only [serialize, dumps_obj_isSome_iff, deltaMembers, linksJson, List.forall_mem_cons,
    dumps_str_isSome, dumps_int_isSome_iff, dumps_arr_map_isSome_iff, dumps_left_isSome_iff,
    dumps_right_isSome, hbool, numbers, List.forall_mem_append, List.forall_mem_map,
    List.forall_mem_flatMap, List.not_mem_nil, false_imp_iff, implies_true, true_and, and_true]
  simp only [← dumps_obj_isSome_iff, dumps_link_isSome_iff]
  constructor
  · rintro ⟨hwindow, hleft, hlinks, hdropped⟩
    exact ⟨hwindow, hdropped, hleft, hlinks⟩
  · rintro ⟨hwindow, hdropped, hleft, hlinks⟩
    exact ⟨hwindow, hleft, hlinks, hdropped⟩

/-! ## The flows behind the numbers -/

/-- Source label of a row in the group builder. -/
def groupSource (agg : GroupAggregator) (groupIndex : Option GroupIndex) (groupBy : GroupBy)
    (flows : List LabelledFlow) : Row → String :=
  sourceOf (agg.labelOf (flows.map toRow) (currentSizes groupIndex) groupBy)

/-- Source label of the link that a flow is added to. -/
def sourceLabel (aggregator : Option GroupAggregator) (groupIndex : Option GroupIndex)
    (groupBy : GroupBy) (flows : List LabelledFlow) (f : LabelledFlow) : String :=
  match aggregator with
  | none => leftId f
  | some agg =>
    if groupBy = .app then leftId f
    else groupSource agg groupIndex groupBy flows (toRow f)

/-- The flows that are added to the same link as one of them. -/
def sameLink (label : LabelledFlow → String) (flows : List LabelledFlow) (f : LabelledFlow) :
    List LabelledFlow :=
  flows.filter fun g => label g = label f ∧ rightId g = rightId f

/-- No number that the flows add up to has more than 4300 digits. -/
def Writable (label : LabelledFlow → String) (groupIndex : Option GroupIndex)
    (flows : List LabelledFlow) : Prop :=
  Short flows.length ∧ Short (flows.map LabelledFlow.droppedCount).sum ∧ ∀ f ∈ flows,
    Short f.windowS ∧ (∀ gi ∈ groupIndex, Short (gi.sizeOf (label f))) ∧
      Short (flowTotal .bytes (sameLink label flows f)) ∧
      Short (flowTotal .flows (sameLink label flows f))

instance (label : LabelledFlow → String) (groupIndex : Option GroupIndex)
    (flows : List LabelledFlow) : Decidable (Writable label groupIndex flows) :=
  inferInstanceAs (Decidable (_ ∧ _ ∧ ∀ f ∈ flows, _))

section

variable {groupIndex : Option GroupIndex} {flows : List LabelledFlow}

lemma Writable.window {label : LabelledFlow → String} (h : Writable label groupIndex flows)
    (hne : flows ≠ []) : Short (firstWindow flows) := by
  obtain ⟨f, rest, rfl⟩ := List.exists_cons_of_ne_nil hne
  exact (h.2.2 f List.mem_cons_self).1

/-! ### The legacy builder -/

/-- The sums of one legacy link. -/
lemma legacyLinks_sum (q : Quantity) (ends : String × String) (flows : List LabelledFlow)
    (links : Dict (String × String) Link) :
    (flows.foldl (fun links f =>
      links.update (leftId f, rightId f) ⟨leftId f, rightId f, 0, 0, 0⟩ fun link =>
        { link with bytes := link.bytes + f.bytes, flows := link.flows + f.flowCount })
      links).sumBy (fun k l => if k = ends then l.amount q else 0) =
      links.sumBy (fun k l => if k = ends then l.amount q else 0) +
        flowTotal q (flows.filter fun f => (leftId f, rightId f) = ends) := by
  induction flows generalizing links with
  | nil => simp [flowTotal]
  | cons f rest ih =>
    have hadd := Dict.sumBy_update (fun k (l : Link) => if k = ends then l.amount q else 0) links
      (leftId f, rightId f) ⟨leftId f, rightId f, 0, 0, 0⟩
      (fun l => { l with bytes := l.bytes + f.bytes, flows := l.flows + f.flowCount })
      (if (leftId f, rightId f) = ends then amount q f else 0)
      (by cases q <;> simp [Link.amount])
      (fun l => by by_cases hends : (leftId f, rightId f) = ends <;> cases q <;>
        simp [hends, Link.amount, amount])
    rw [List.foldl_cons, ih, hadd, List.filter_cons]
    by_cases hends : (leftId f, rightId f) = ends <;> simp [hends, flowTotal, add_assoc]

lemma mem_legacyLinks {ends : String × String} {link : Link}
    (h : (ends, link) ∈ (legacyLinks flows).entries) (q : Quantity) :
    link.amount q = flowTotal q (flows.filter fun f => (leftId f, rightId f) = ends) := by
  have hsum := legacyLinks_sum q ends flows .empty
  rw [Dict.sumBy_empty, zero_add] at hsum
  rw [← hsum, ← legacyLinks, Dict.sumBy_single _ _ ends ⟨"", "", 0, 0, 0⟩, Dict.getD,
    ((legacyLinks flows).get?_eq_some_iff ends link).mpr h]
  · simp
  · cases q <;> simp [Link.amount]
  · intro k l hk
    simp [hk]

lemma legacyLinks_users : ∀ e ∈ (legacyLinks flows).entries, e.2.users = 0 := by
  unfold legacyLinks
  apply Dict.forall_entries_foldl_update (P := fun _ (l : Link) => l.users = 0)
  · exact fun f => rfl
  · exact fun f l hl => hl
  · simp

lemma legacyLeftNodes_size : ∀ node ∈ (legacyLeftNodes flows).entries.map Prod.snd,
    node.size ≤ flows.length := by
  have hsum : ∀ nodes : Dict String LeftNode,
      (flows.foldl (fun nodes f => nodes.update (leftId f) ⟨leftId f, f.srcIp, 0⟩ fun node =>
        { node with size := node.size + 1 }) nodes).sumBy (fun _ n => n.size) =
      nodes.sumBy (fun _ n => n.size) + flows.length := by
    induction flows with
    | nil => simp
    | cons f rest ih =>
      intro nodes
      rw [List.foldl_cons, ih, Dict.sumBy_update (fun _ (n : LeftNode) => n.size) nodes (leftId f)
        ⟨leftId f, f.srcIp, 0⟩ _ 1 rfl (fun _ => rfl), List.length_cons]
      omega
  intro node hnode
  have htotal := hsum .empty
  rw [Dict.sumBy_empty, zero_add] at htotal
  rw [← htotal]
  refine List.le_sum_of_mem ?_
  obtain ⟨e, he, rfl⟩ := List.mem_map.mp hnode
  exact List.mem_map_of_mem he

lemma writable_legacy (bucket : Instant) (hne : flows ≠ []) (h : Writable leftId groupIndex flows) :
    ∀ n ∈ numbers (buildLegacyDelta bucket flows), Short n := by
  simp only [numbers, buildLegacyDelta, List.forall_mem_cons, List.forall_mem_append,
    List.forall_mem_flatMap]
  refine ⟨h.window hne, h.2.1, fun n hn => ?_, fun link hlink => ?_⟩
  · obtain ⟨node, hnode, rfl⟩ := List.mem_map.mp hn
    exact h.1.of_le (legacyLeftNodes_size node hnode)
  · obtain ⟨⟨ends, link⟩, he, rfl⟩ := List.mem_map.mp hlink
    obtain ⟨f, hf, hends⟩ : ∃ f ∈ flows, (leftId f, rightId f) = ends := by
      have hkey : ends ∈ (legacyLinks flows).keys := List.mem_map_of_mem he
      rw [legacyLinks, Dict.mem_keys_foldl_update] at hkey
      exact hkey.resolve_left (by simp [Dict.keys])
    have hsame : flows.filter (fun g => (leftId g, rightId g) = ends) = sameLink leftId flows f := by
      simp only [← hends, Prod.mk.injEq, sameLink]
    obtain ⟨_, _, hbytes, hflows⟩ := h.2.2 f hf
    rw [← hsame, ← mem_legacyLinks he] at hbytes hflows
    have husers : link.users = 0 := legacyLinks_users _ he
    simp only [linkNumbers, List.forall_mem_cons, husers]
    exact ⟨hbytes, hflows, h.1.of_le (Nat.zero_le _), fun n hn => by cases hn⟩

/-! ### The group builder -/

lemma rowTotal_strand (q : Quantity) (source : Row → String) (flows : List LabelledFlow)
    (f : LabelledFlow) :
    rowTotal q (strand source (flows.map toRow) (source (toRow f)) (rightId f)) =
      flowTotal q (sameLink (fun g => source (toRow g)) flows f) := by
  rw [strand, List.filter_map, rowTotal_toRow]
  rfl

/-- A node has the size of its group or none. -/
lemma leftNode_size {groupBy : GroupBy} {links : List Link} {node : LeftNode}
    (h : node ∈ buildLeftNodes groupIndex groupBy links) :
    ∃ link ∈ links, node.size = 0 ∨ ∃ gi ∈ groupIndex, node.size = gi.sizeOf link.src := by
  obtain ⟨⟨src, node⟩, he, rfl⟩ := List.mem_map.mp h
  have hkey := List.mem_map_of_mem (f := Prod.fst) he
  rw [← Dict.keys] at hkey
  simp only [Dict.setdefault] at he hkey
  have hvalue := Dict.forall_entries_foldl_update
    (P := fun (src : String) (node : LeftNode) => node.size = 0 ∨
      ∃ gi ∈ groupIndex, node.size = gi.sizeOf src)
    Link.src _ (fun _ => id) (fun link => ?_) (fun _ _ hv => hv) links (d := .empty) (by simp) _ he
  · rw [Dict.mem_keys_foldl_update Link.src _ fun _ => id] at hkey
    obtain ⟨link, hlink, rfl⟩ := hkey.resolve_left (by simp [Dict.keys])
    exact ⟨link, hlink, hvalue⟩
  · cases groupIndex with
    | none => exact .inl rfl
    | some gi =>
      dsimp only [id]
      split_ifs
      · exact .inr ⟨gi, rfl, rfl⟩
      · exact .inl rfl

lemma mem_groupLinks (agg : GroupAggregator) (groupBy : GroupBy) {link : Link}
    (h : link ∈ (agg.aggregate (flows.map toRow) (currentSizes groupIndex) groupBy).1) :
    ∃ f ∈ flows, link = linkOf (groupSource agg groupIndex groupBy flows (toRow f)) (rightId f)
      (strand (groupSource agg groupIndex groupBy flows) (flows.map toRow)
        (groupSource agg groupIndex groupBy flows (toRow f)) (rightId f)) := by
  obtain ⟨src, dst, hstrand, rfl⟩ := (GroupAggregator.mem_aggregate_iff ..).mp h
  obtain ⟨r, hr⟩ := List.exists_mem_of_ne_nil _ hstrand
  obtain ⟨hrow, rfl, rfl⟩ := mem_strand.mp hr
  obtain ⟨f, hf, rfl⟩ := List.mem_map.mp hrow
  exact ⟨f, hf, rfl⟩

lemma writable_group (agg : GroupAggregator) (groupBy : GroupBy) (bucket : Instant)
    (hne : flows ≠ [])
    (h : Writable (fun f => groupSource agg groupIndex groupBy flows (toRow f)) groupIndex flows) :
    ∀ n ∈ numbers (buildGroupDelta agg groupIndex groupBy bucket flows).1, Short n := by
  simp only [numbers, buildGroupDelta, List.forall_mem_cons, List.forall_mem_append,
    List.forall_mem_flatMap]
  refine ⟨h.window hne, h.2.1, fun n hn => ?_, fun link hlink => ?_⟩
  · obtain ⟨node, hnode, rfl⟩ := List.mem_map.mp hn
    obtain ⟨link, hlink, hsize | ⟨gi, hgi, hsize⟩⟩ := leftNode_size hnode
    · rw [hsize]
      exact h.1.of_le (Nat.zero_le _)
    · obtain ⟨f, hf, rfl⟩ := mem_groupLinks agg groupBy hlink
      rw [hsize]
      exact (h.2.2 f hf).2.1 gi hgi
  · obtain ⟨f, hf, rfl⟩ := mem_groupLinks agg groupBy hlink
    obtain ⟨_, _, hbytes, hflows⟩ := h.2.2 f hf
    rw [← rowTotal_strand] at hbytes hflows
    simp only [linkNumbers, linkOf, List.forall_mem_cons]
    refine ⟨hbytes, hflows, h.1.of_le ?_, fun n hn => by cases hn⟩
    refine (List.toFinset_card_le _).trans ?_
    rw [List.length_map, strand]
    exact (List.length_filter_le _ _).trans (List.length_map ..).le

/-- A delta of such flows is written. -/
theorem serialize_publish (iso : IsoText) (aggregator : Option GroupAggregator) (groupBy : GroupBy)
    (bucket : Instant)
    (h : Writable (sourceLabel aggregator groupIndex groupBy flows) groupIndex flows) :
    ∀ delta ∈ (publish aggregator groupIndex groupBy bucket flows).1,
      (serialize iso delta).isSome := by
  intro delta hdelta
  rw [serialize_isSome_iff]
  unfold publish at hdelta
  by_cases hne : flows = []
  · simp [hne] at hdelta
  · rw [if_neg hne] at hdelta
    cases aggregator with
    | none =>
      obtain rfl := Option.mem_some.mp hdelta
      exact writable_legacy bucket hne h
    | some agg =>
      by_cases happ : groupBy = .app
      · simp only [happ, if_true, Option.mem_some] at hdelta
        obtain rfl := hdelta
        have hlabel : sourceLabel (some agg) groupIndex groupBy flows = leftId := by
          funext f
          simp only [sourceLabel, happ, if_true]
        exact writable_legacy bucket hne (hlabel ▸ h)
      · simp only [happ, if_false, Option.mem_some] at hdelta
        obtain rfl := hdelta
        have hlabel : sourceLabel (some agg) groupIndex groupBy flows =
            fun f => groupSource agg groupIndex groupBy flows (toRow f) := by
          funext f
          simp only [sourceLabel, happ, if_false]
        exact writable_group agg groupBy bucket hne (hlabel ▸ h)

end

end FlowDiscovery.DeltaNumbers
