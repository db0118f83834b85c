import FlowDiscovery.SankeyApi
import FlowDiscovery.StrandSums

/-!
# Deltas as graphs

A delta comes out of separate loops over separate dictionaries: links, left nodes
and right nodes. In both builders the three fit together: one link per pair of
ends, one node per end, and no node without a link. A client's filter removes links
only, so the nodes that are left over still name both ends of every link.
-/
namespace FlowDiscovery.DeltaGraph
open PyText PyTime PyJson SankeyPublisher SankeyApi SankeyFanout

/-- No two links between the same nodes, each end listed once, nothing else listed. -/
structure IsGraph (d : SankeyDelta) : Prop where
  oneLink : (d.links.map fun lk => (lk.src, lk.dst)).Nodup
  srcOnce : ∀ lk ∈ d.links, (d.nodesLeft.map LeftNode.id).count lk.src = 1
  dstOnce : ∀ lk ∈ d.links, (d.nodesRight.map RightNode.id).count lk.dst = 1
  leftUsed : ∀ n ∈ d.nodesLeft, ∃ lk ∈ d.links, lk.src = n.id
  rightUsed : ∀ n ∈ d.nodesRight, ∃ lk ∈ d.links, lk.dst = n.id

/-- Identifiers without repetition that are exactly the ends of the links. -/
structure ListsEnds (ids : List String) (ends : List String) : Prop where
  nodup : ids.Nodup
  mem_iff : ∀ x, x ∈ ids ↔ x ∈ ends

lemma ListsEnds.count {ids ends : List String} (h : ListsEnds ids ends) {x : String}
    (hx : x ∈ ends) : ids.count x = 1 :=
  List.count_eq_one_of_mem h.nodup ((h.mem_iff x).mpr hx)

lemma isGraph_of_listsEnds {d : SankeyDelta}
    (hlinks : (d.links.map fun lk => (lk.src, lk.dst)).Nodup)
    (hleft : ListsEnds (d.nodesLeft.map LeftNode.id) (d.links.map Link.src))
    (hright : ListsEnds (d.nodesRight.map RightNode.id) (d.links.map Link.dst)) : IsGraph d where
  oneLink := hlinks
  srcOnce _ hlk := hleft.count (List.mem_map_of_mem hlk)
  dstOnce _ hlk := hright.count (List.mem_map_of_mem hlk)
  leftUsed n hn := List.mem_map.mp ((hleft.mem_iff n.id).mp (List.mem_map_of_mem hn))
  rightUsed n hn := List.mem_map.mp ((hright.mem_iff n.id).mp (List.mem_map_of_mem hn))

/-- Nodes that a loop keeps in a dictionary under their own identifier. -/
lemma listsEnds_foldl_update {α β : Type} {ident : α → String} {key : β → String} {v0 : β → α}
    {f : β → α → α} (h0 : ∀ x, ident (f x (v0 x)) = key x)
    (hf : ∀ x v, ident v = key x → ident (f x v) = key x) (xs : List β) {ends : List String}
    (hends : ∀ k, k ∈ ends ↔ ∃ x ∈ xs, key x = k) :
    ListsEnds (((xs.foldl (fun d x => d.update (key x) (v0 x) (f x)) Dict.empty).entries.map
      Prod.snd).map ident) ends := by
  have hident := Dict.forall_entries_foldl_update (P := fun k v => ident v = k) key v0 f h0 hf xs
    (d := .empty) (by simp)
  rw [Dict.map_values_eq_keys hident]
  refine ⟨Dict.nodup _, fun k => ?_⟩
  rw [Dict.mem_keys_foldl_update, hends]
  simp [Dict.keys]

/-! ## The legacy builder -/

lemma legacyLinks_ends (flows : List LabelledFlow) :
    ((legacyLinks flows).entries.map Prod.snd).map (fun lk => (lk.src, lk.dst)) =
      (legacyLinks flows).keys := by
  apply Dict.map_values_eq_keys
  unfold legacyLinks
  apply Dict.forall_entries_foldl_update
    (P := fun (k : String × String) (lk : Link) => (lk.src, lk.dst) = k)
  · exact fun f => rfl
  · exact fun f lk h => h
  · simp

/-- One side of the links names the flows' identifiers of that side. -/
lemma mem_legacy_side (flows : List LabelledFlow) (side : String × String → String) (x : String) :
    x ∈ ((legacyLinks flows).entries.map Prod.snd).map (fun lk => side (lk.src, lk.dst)) ↔
      ∃ f ∈ flows, side (leftId f, rightId f) = x := by
  have hmap : ((legacyLinks flows).entries.map Prod.snd).map (fun lk => side (lk.src, lk.dst)) =
      (legacyLinks flows).keys.map side := by
    simp only [← legacyLinks_ends, List.map_map, Function.comp_def]
  rw [hmap, List.mem_map]
  constructor
  · rintro ⟨k, hk, rfl⟩
    rw [legacyLinks, Dict.mem_keys_foldl_update] at hk
    obtain ⟨f, hf, rfl⟩ := hk.resolve_left (by simp [Dict.keys])
    exact ⟨f, hf, rfl⟩
  · rintro ⟨f, hf, rfl⟩
    refine ⟨(leftId f, rightId f), ?_, rfl⟩
    rw [legacyLinks, Dict.mem_keys_foldl_update]
    exact .inr ⟨f, hf, rfl⟩

lemma listsEnds_legacyLeftNodes (flows : List LabelledFlow) :
    ListsEnds (((legacyLeftNodes flows).entries.map Prod.snd).map LeftNode.id)
      (((legacyLinks flows).entries.map Prod.snd).map Link.src) := by
  unfold legacyLeftNodes
  apply listsEnds_foldl_update
  · exact fun f => rfl
  · exact fun f n h => h
  · exact mem_legacy_side flows Prod.fst

lemma listsEnds_legacyRightNodes (flows : List LabelledFlow) :
    ListsEnds (((legacyRightNodes flows).entries.map Prod.snd).map RightNode.id)
      (((legacyLinks flows).entries.map Prod.snd).map Link.dst) := by
  unfold legacyRightNodes
  apply listsEnds_foldl_update
  · exact fun f => rfl
  · exact fun f n h => h
  · exact mem_legacy_side flows Prod.snd

lemma isGraph_legacy (bucket : Instant) (flows : List LabelledFlow) :
    IsGraph (buildLegacyDelta bucket flows) := by
  apply isGraph_of_listsEnds
  · rw [buildLegacyDelta, legacyLinks_ends]
    exact (legacyLinks flows).nodup
  · exact listsEnds_legacyLeftNodes flows
  · exact listsEnds_legacyRightNodes flows

/-! ## The group builder -/

lemma listsEnds_leftNodes (groupIndex : Option GroupIndex) (groupBy : GroupBy)
    (links : List Link) :
    ListsEnds ((buildLeftNodes groupIndex groupBy links).map LeftNode.id) (links.map Link.src) := by
  unfold buildLeftNodes
  apply listsEnds_foldl_update
  · exact fun lk => rfl
  · exact fun lk n h => h
  · exact fun k => List.mem_map

lemma rightNodes_ids (flows : List LabelledFlow) (links : List Link) :
    (buildRightNodes flows links).map RightNode.id =
      ((links.map Link.dst).dedup.insertionSort (· ≤ ·)).filter fun dst =>
        ((rightLabels flows).get? dst).isSome := by
  rw [buildRightNodes, List.map_filterMap, ← List.filterMap_eq_filter]
  refine List.filterMap_congr fun dst _ => ?_
  cases hlabel : (rightLabels flows).get? dst <;> simp [Option.guard, hlabel]

lemma listsEnds_rightNodes {flows : List LabelledFlow} {links : List Link}
    (hdst : ∀ lk ∈ links, lk.dst ∈ flows.map rightId) :
    ListsEnds ((buildRightNodes flows links).map RightNode.id) (links.map Link.dst) := by
  rw [rightNodes_ids]
  constructor
  · have hsorted := List.perm_insertionSort (· ≤ ·) (links.map Link.dst).dedup
    exact (hsorted.nodup_iff.mpr (List.nodup_dedup _)).filter _
  · intro x
    rw [List.mem_filter, List.mem_insertionSort, List.mem_dedup, and_iff_left_iff_imp]
    intro hx
    obtain ⟨lk, hlk, rfl⟩ := List.mem_map.mp hx
    obtain ⟨f, hf, hid⟩ := List.mem_map.mp (hdst lk hlk)
    rw [Dict.get?_isSome_iff]
    refine (Dict.mem_keys_foldl_update rightId _ _ flows .empty _).mpr ?_
    exact .inr ⟨f, hf, hid⟩

lemma aggregate_rightId (agg : GroupAggregator) (groupIndex : Option GroupIndex)
    (groupBy : GroupBy) (flows : List LabelledFlow) :
    ∀ lk ∈ (agg.aggregate (flows.map toRow) (currentSizes groupIndex) groupBy).1,
      lk.dst ∈ flows.map rightId := by
  intro lk hlk
  have hdst := aggregate_dst agg (flows.map toRow) (currentSizes groupIndex) groupBy lk hlk
  rwa [List.map_map] at hdst

lemma isGraph_group (agg : GroupAggregator) (groupIndex : Option GroupIndex) (groupBy : GroupBy)
    (bucket : Instant) (flows : List LabelledFlow) :
    IsGraph (buildGroupDelta agg groupIndex groupBy bucket flows).1 := by
  apply isGraph_of_listsEnds
  · exact agg.aggregate_ends_nodup (flows.map toRow) (currentSizes groupIndex) groupBy
  · exact listsEnds_leftNodes groupIndex groupBy _
  · exact listsEnds_rightNodes (aggregate_rightId agg groupIndex groupBy flows)

/-! ## Published and dispatched deltas -/

lemma publish_isGraph (aggregator : Option GroupAggregator) (groupIndex : Option GroupIndex)
    (groupBy : GroupBy) (bucket : Instant) {flows : List LabelledFlow} (hne : flows ≠ []) :
    ∃ d, (publish aggregator groupIndex groupBy bucket flows).1 = some d ∧ IsGraph d := by
  unfold publish
  rw [if_neg hne]
  cases aggregator with
  | none => exact ⟨_, rfl, isGraph_legacy bucket flows⟩
  | some agg =>
    by_cases happ : groupBy = .app
    · exact ⟨buildLegacyDelta bucket flows, by simp only [if_pos happ], isGraph_legacy bucket flows⟩
    · exact ⟨(buildGroupDelta agg groupIndex groupBy bucket flows).1, by simp only [if_neg happ],
        isGraph_group agg groupIndex groupBy bucket flows⟩

/-- A published delta is a graph, and what a client with a well-formed filter gets of
it is a part of its links with all their ends. -/
theorem publish_dispatch_linked (aggregator : Option GroupAggregator)
    (groupIndex : Option GroupIndex) (groupBy : GroupBy) (bucket : Instant)
    (flows : List LabelledFlow) (hne : flows ≠ []) :
    ∃ d, (publish aggregator groupIndex groupBy bucket flows).1 = some d ∧ IsGraph d ∧
      ∀ (str : Json → PyStr) (filters : Json) (f : Filter), Filter.ofJson filters = some f →
        ∃ sent, filtered str filters d = some sent ∧ sent.links.Sublist d.links ∧
          Linked sent.nodesLeft sent.nodesRight sent.links := by
  obtain ⟨d, hd, hgraph⟩ := publish_isGraph aggregator groupIndex groupBy bucket hne
  refine ⟨d, hd, hgraph, fun str filters f hf => ?_⟩
  refine ⟨_, filtered_exact str hf d, List.filter_sublist, ?_⟩
  exact (linked_of_publish hd).filter f.selects

/-- A flow of a known user and one of a stranger to the same application. -/
def twoFlows : List LabelledFlow :=
  [⟨0, 5, "10.0.0.1", "198.51.100.7", 443, 6, 10, 1, 1, ⟨.port, "HTTPS", none⟩, false, 0,
      "alice@corp", {"staff"}⟩,
    ⟨0, 5, "10.0.0.2", "198.51.100.7", 443, 6, 20, 1, 1, ⟨.port, "HTTPS", none⟩, false, 0,
      "unknown", ∅⟩]

theorem publish_dispatch_linked_twoFlows :
    ∃ d, (publish (some ⟨∅, 500, .empty⟩) none .group 0 twoFlows).1 = some d ∧ IsGraph d ∧
      ∀ (str : Json → PyStr) (filters : Json) (f : Filter), Filter.ofJson filters = some f →
        ∃ sent, filtered str filters d = some sent ∧ sent.links.Sublist d.links ∧
          Linked sent.nodesLeft sent.nodesRight sent.links :=
  publish_dispatch_linked _ _ _ _ _ (List.cons_ne_nil _ _)

end FlowDiscovery.DeltaGraph
