import FlowDiscovery.AppResolver
import FlowDiscovery.DeltaGraph

/-!
# Kinds of labels

The right-hand nodes of a delta are keyed by the label alone. The legacy builder
keeps the kind of the first flow of a label and the group builder that of the last.
Both are harmless if the kind is a function of the label, which is what the comment
in the group builder says. A SaaS entry breaks it: its name is the label of the flows
with a firewall name and also of those with a cached one, under two kinds. Without
entries it takes an application, a port or an address of the same name.
-/
namespace FlowDiscovery.AppResolver
open PyText PyTime SankeyPublisher DeltaGraph

/-- The flow carries what a call of `resolve` gave for its destination. The name from
the firewall is not kept, and Redis may change from one flow to the next. -/
def LabelledBy (lower : String → String) (r : AppResolver) (f : LabelledFlow) : Prop :=
  ∃ redis fqdn, f.candidate = (r.resolve lower redis ⟨f.dstIp, f.dstPort, f.proto, fqdn⟩).1

/-- A label has one kind, and so the right-hand nodes depend neither on the order of the
flows nor on the builder. -/
structure OneKindPerLabel (lower : String → String) (r : AppResolver) : Prop where
  kinds : ∀ redis d d', (r.resolve lower redis d).1.label = (r.resolve lower redis d').1.label →
    (r.resolve lower redis d).1.labelKind = (r.resolve lower redis d').1.labelKind
  legacy_order : ∀ (bucket : Instant) (flows flows' : List LabelledFlow),
    (∀ f ∈ flows, LabelledBy lower r f) → flows.Perm flows' →
    (buildLegacyDelta bucket flows).nodesRight.Perm (buildLegacyDelta bucket flows').nodesRight
  group_order : ∀ (agg : GroupAggregator) (groupIndex : Option GroupIndex) (groupBy : GroupBy)
    (bucket : Instant) (flows flows' : List LabelledFlow),
    (∀ f ∈ flows, LabelledBy lower r f) → flows.Perm flows' →
    (buildGroupDelta agg groupIndex groupBy bucket flows).1.nodesRight.Perm
      (buildGroupDelta agg groupIndex groupBy bucket flows').1.nodesRight
  builders : ∀ (agg : GroupAggregator) (groupIndex : Option GroupIndex) (groupBy : GroupBy)
    (bucket : Instant) (flows : List LabelledFlow), (∀ f ∈ flows, LabelledBy lower r f) →
    (buildLegacyDelta bucket flows).nodesRight.Perm
      (buildGroupDelta agg groupIndex groupBy bucket flows).1.nodesRight

/-- The label of a destination that nothing covers. -/
def rawLabel (dstIp : String) (dstPort : ℤ) : String := dstIp ++ ":" ++ toString dstPort

/-- A destination without an application and without a port default. -/
structure Uncovered (r : AppResolver) (dstIp : String) (dstPort proto : ℤ) : Prop where
  manual : r.manualHit dstIp dstPort proto = none
  port : r.portDefaults.get? (dstPort, proto) = none

/-- No SaaS entry, and no name shared between the applications that cover something,
the port defaults and the addresses that neither covers. -/
structure KindsApart (r : AppResolver) : Prop where
  noEntries : r.saasSorted = []
  manual_port : ∀ ip port proto a, r.manualHit ip port proto = some a →
    ∀ key p, r.portDefaults.get? key = some p → a.name ≠ p.name
  manual_raw : ∀ ip port proto a, r.manualHit ip port proto = some a →
    ∀ ip' port' proto', Uncovered r ip' port' proto' → a.name ≠ rawLabel ip' port'
  port_raw : ∀ key p, r.portDefaults.get? key = some p →
    ∀ ip' port' proto', Uncovered r ip' port' proto' → p.name ≠ rawLabel ip' port'

/-! ## Kinds -/

/-- Without entries there are three stages left. -/
lemma resolve_of_noEntries {r : AppResolver} (h : r.saasSorted = []) (lower : String → String)
    (redis : String → Option String) (d : Destination) :
    (∃ a, r.manualHit d.dstIp d.dstPort d.proto = some a ∧
      (r.resolve lower redis d).1 = ⟨.manual, a.name, some a.id⟩) ∨
    (∃ p, r.portDefaults.get? (d.dstPort, d.proto) = some p ∧
      (r.resolve lower redis d).1 = ⟨.port, p.name, none⟩) ∨
    Uncovered r d.dstIp d.dstPort d.proto ∧
      (r.resolve lower redis d).1 = ⟨.raw, rawLabel d.dstIp d.dstPort, none⟩ := by
  have hfqdn : r.fqdnHit lower d.firewallFqdn = none := by
    unfold fqdnHit saasHit
    rw [h]
    cases d.firewallFqdn <;> simp
  have hptr : r.ptrHit redis d.dstIp = none := by
    unfold ptrHit
    rw [h]
    repeat' split
    all_goals rfl
  cases hmanual : r.manualHit d.dstIp d.dstPort d.proto with
  | some a => exact .inl ⟨a, rfl, by simp only [resolve, hmanual]⟩
  | none =>
    right
    cases hport : r.portDefaults.get? (d.dstPort, d.proto) with
    | some p =>
      exact .inl ⟨p, rfl, by simp only [resolve, resolveAddress, hmanual, hfqdn, hptr, hport]⟩
    | none =>
      refine .inr ⟨⟨hmanual, hport⟩, ?_⟩
      simp only [resolve, resolveAddress, hmanual, hfqdn, hptr, hport, rawLabel]

lemma KindsApart.kind_eq {r : AppResolver} (h : KindsApart r) (lower : String → String)
    (redis redis' : String → Option String) (d d' : Destination)
    (hlabel : (r.resolve lower redis d).1.label = (r.resolve lower redis' d').1.label) :
    (r.resolve lower redis d).1.labelKind = (r.resolve lower redis' d').1.labelKind := by
  obtain ⟨a, ha, hd⟩ | ⟨p, hp, hd⟩ | ⟨hraw, hd⟩ := resolve_of_noEntries h.noEntries lower redis d <;>
    obtain ⟨a', ha', hd'⟩ | ⟨p', hp', hd'⟩ | ⟨hraw', hd'⟩ :=
      resolve_of_noEntries h.noEntries lower redis' d' <;>
    rw [hd, hd'] at hlabel ⊢
  · exact absurd hlabel (h.manual_port _ _ _ _ ha _ _ hp')
  · exact absurd hlabel (h.manual_raw _ _ _ _ ha _ _ _ hraw')
  · exact absurd hlabel.symm (h.manual_port _ _ _ _ ha' _ _ hp)
  · exact absurd hlabel (h.port_raw _ _ hp _ _ _ hraw')
  · exact absurd hlabel.symm (h.manual_raw _ _ _ _ ha' _ _ _ hraw)
  · exact absurd hlabel.symm (h.port_raw _ _ hp' _ _ _ hraw)

/-! ## Right-hand nodes -/

/-- Flows in which a label has one kind. -/
def UniformKinds (flows : List LabelledFlow) : Prop :=
  ∀ f ∈ flows, ∀ f' ∈ flows, f.candidate.label = f'.candidate.label →
    f.candidate.labelKind = f'.candidate.labelKind

def nodeOf (f : LabelledFlow) : RightNode :=
  ⟨rightId f, f.candidate.label, f.candidate.labelKind⟩

/-- The nodes are those of the flows, each once. -/
structure ListsNodes (flows : List LabelledFlow) (nodes : List RightNode) : Prop where
  nodup : nodes.Nodup
  mem_iff : ∀ n, n ∈ nodes ↔ ∃ f ∈ flows, nodeOf f = n

lemma ListsNodes.perm {flows flows' : List LabelledFlow} {nodes nodes' : List RightNode}
    (h : ListsNodes flows nodes) (h' : ListsNodes flows' nodes') (hperm : flows.Perm flows') :
    nodes.Perm nodes' := by
  rw [List.perm_ext_iff_of_nodup h.nodup h'.nodup]
  intro n
  rw [h.mem_iff, h'.mem_iff]
  simp only [hperm.mem_iff]

lemma UniformKinds.nodeOf_eq {flows : List LabelledFlow} (h : UniformKinds flows)
    {f f' : LabelledFlow} (hf : f ∈ flows) (hf' : f' ∈ flows) (hid : rightId f = rightId f') :
    nodeOf f = nodeOf f' := by
  have hlabel : f.candidate.label = f'.candidate.label := String.append_right_inj _ |>.mp hid
  rw [nodeOf, nodeOf, hid, hlabel, h f hf f' hf' hlabel]

/-- Whichever flow of a label a builder keeps, it keeps the node of the label. -/
lemma UniformKinds.find?_eq {flows : List LabelledFlow} (h : UniformKinds flows)
    {order : List LabelledFlow} (horder : order.Perm flows) {f : LabelledFlow} (hf : f ∈ flows) :
    (order.find? fun x => rightId x = rightId f).map nodeOf = some (nodeOf f) := by
  cases hfind : order.find? fun x => rightId x = rightId f with
  | none =>
    rw [List.find?_eq_none] at hfind
    simpa using hfind f (horder.mem_iff.mpr hf)
  | some f' =>
    have hmem := horder.mem_iff.mp (List.mem_of_find?_eq_some hfind)
    have hid : rightId f' = rightId f := by simpa using List.find?_some hfind
    rw [Option.map_some, h.nodeOf_eq hmem hf hid]

lemma listsNodes_legacy (bucket : Instant) {flows : List LabelledFlow} (h : UniformKinds flows) :
    ListsNodes flows (buildLegacyDelta bucket flows).nodesRight := by
  have hget : ∀ k, (legacyRightNodes flows).get? k =
      (flows.find? fun f => rightId f = k).map nodeOf := by
    intro k
    exact (Dict.get?_foldl_setdefault rightId nodeOf flows .empty k).trans (Option.none_or ..)
  refine ⟨(listsEnds_legacyRightNodes flows).nodup.of_map, fun n => ?_⟩
  rw [buildLegacyDelta, List.mem_map]
  constructor
  · rintro ⟨⟨k, n⟩, he, rfl⟩
    rw [← Dict.get?_eq_some_iff, hget, Option.map_eq_some_iff] at he
    obtain ⟨f, hfind, hn⟩ := he
    exact ⟨f, List.mem_of_find?_eq_some hfind, hn⟩
  · rintro ⟨f, hf, rfl⟩
    refine ⟨(rightId f, nodeOf f), ?_, rfl⟩
    rw [← Dict.get?_eq_some_iff, hget]
    exact h.find?_eq (List.Perm.refl flows) hf

/-- Every flow is on a link to its destination. -/
lemma exists_link (agg : GroupAggregator) (sizes : String → ℕ) (groupBy : GroupBy)
    {flows : List LabelledFlow} {f : LabelledFlow} (hf : f ∈ flows) :
    ∃ link ∈ (agg.aggregate (flows.map toRow) sizes groupBy).1, link.dst = rightId f := by
  let source := sourceOf (agg.labelOf (flows.map toRow) sizes groupBy)
  have hmem : toRow f ∈ strand source (flows.map toRow) (source (toRow f)) (rightId f) := by
    rw [strand, List.mem_filter]
    exact ⟨List.mem_map_of_mem hf, by simp [toRow]⟩
  refine ⟨_, (agg.mem_aggregate_iff _ _ _ _).mpr ⟨_, _, List.ne_nil_of_mem hmem, rfl⟩, rfl⟩

lemma listsNodes_group (agg : GroupAggregator) (groupIndex : Option GroupIndex)
    (groupBy : GroupBy) (bucket : Instant) {flows : List LabelledFlow} (h : UniformKinds flows) :
    ListsNodes flows (buildGroupDelta agg groupIndex groupBy bucket flows).1.nodesRight := by
  have hget : ∀ dst, (rightLabels flows).get? dst =
      (flows.reverse.find? fun f => rightId f = dst).map fun f =>
        (f.candidate.label, f.candidate.labelKind) := by
    intro dst
    rw [rightLabels, Dict.get?_foldl_set_map rightId
      (fun f : LabelledFlow => (f.candidate.label, f.candidate.labelKind)), Dict.get?_empty,
      Option.or_none]
  refine ⟨(listsEnds_rightNodes (aggregate_rightId agg groupIndex groupBy flows)).nodup.of_map,
    fun n => ?_⟩
  simp only [buildGroupDelta, buildRightNodes, List.mem_filterMap, hget, List.mem_insertionSort,
    List.mem_dedup, List.mem_map, Option.map_map, Option.map_eq_some_iff]
  constructor
  · rintro ⟨dst, -, f, hfind, rfl⟩
    obtain rfl : rightId f = dst := by simpa using List.find?_some hfind
    exact ⟨f, List.mem_reverse.mp (List.mem_of_find?_eq_some hfind), rfl⟩
  · rintro ⟨f, hf, rfl⟩
    obtain ⟨f', hfind, hnode⟩ := Option.map_eq_some_iff.mp (h.find?_eq flows.reverse_perm hf)
    refine ⟨rightId f, exists_link agg _ groupBy hf, f', hfind, ?_⟩
    rw [← hnode]
    have hid : rightId f' = rightId f := congrArg RightNode.id hnode
    rw [← hid]
    rfl

/-! ## The condition -/

lemma uniformKinds_of_labelledBy {lower : String → String} {r : AppResolver} (h : KindsApart r)
    {flows : List LabelledFlow} (hflows : ∀ f ∈ flows, LabelledBy lower r f) :
    UniformKinds flows := by
  intro f hf f' hf' hlabel
  obtain ⟨redis, fqdn, hcandidate⟩ := hflows f hf
  obtain ⟨redis', fqdn', hcandidate'⟩ := hflows f' hf'
  rw [hcandidate, hcandidate'] at hlabel ⊢
  exact h.kind_eq lower redis redis' _ _ hlabel

lemma oneKindPerLabel_of_kindsApart {lower : String → String} {r : AppResolver}
    (h : KindsApart r) : OneKindPerLabel lower r where
  kinds redis d d' hlabel := h.kind_eq lower redis redis d d' hlabel
  legacy_order bucket flows flows' hflows hperm := by
    have hflows' : ∀ f ∈ flows', LabelledBy lower r f :=
      fun f hf => hflows f (hperm.mem_iff.mpr hf)
    exact (listsNodes_legacy bucket (uniformKinds_of_labelledBy h hflows)).perm
      (listsNodes_legacy bucket (uniformKinds_of_labelledBy h hflows')) hperm
  group_order agg groupIndex groupBy bucket flows flows' hflows hperm := by
    have hflows' : ∀ f ∈ flows', LabelledBy lower r f :=
      fun f hf => hflows f (hperm.mem_iff.mpr hf)
    exact (listsNodes_group agg groupIndex groupBy bucket (uniformKinds_of_labelledBy h hflows)).perm
      (listsNodes_group agg groupIndex groupBy bucket (uniformKinds_of_labelledBy h hflows')) hperm
  builders agg groupIndex groupBy bucket flows hflows := by
    have hkinds := uniformKinds_of_labelledBy h hflows
    exact (listsNodes_legacy bucket hkinds).perm
      (listsNodes_group agg groupIndex groupBy bucket hkinds) (List.Perm.refl flows)

/-- What is no address is covered by no application. -/
lemma manualHit_noAddress (r : AppResolver) (port proto : ℤ) : r.manualHit "" port proto = none :=
  rfl

lemma resolve_manual (lower : String → String) {r : AppResolver} {ip : String} {port proto : ℤ}
    {a : ManualApp} (h : r.manualHit ip port proto = some a) (redis : String → Option String) :
    (r.resolve lower redis ⟨ip, port, proto, none⟩).1 = ⟨.manual, a.name, some a.id⟩ := by
  simp only [resolve, h]

/-- Nothing is known of the address but its port. -/
lemma resolve_port (lower : String → String) {r : AppResolver} {port proto : ℤ} {p : PortDefault}
    (h : r.portDefaults.get? (port, proto) = some p) :
    (r.resolve lower (fun _ => none) ⟨"", port, proto, none⟩).1 = ⟨.port, p.name, none⟩ := by
  simp only [resolve, resolveAddress, manualHit_noAddress, fqdnHit, ptrHit, h]

lemma resolve_raw (lower : String → String) {r : AppResolver} {ip : String} {port proto : ℤ}
    (h : Uncovered r ip port proto) :
    (r.resolve lower (fun _ => none) ⟨ip, port, proto, none⟩).1 =
      ⟨.raw, rawLabel ip port, none⟩ := by
  simp only [resolve, resolveAddress, h.manual, h.port, fqdnHit, ptrHit, rawLabel]

/-- The first entry is found under its own pattern. -/
lemma resolve_saas {lower : String → String} (hlower : lower "" = "") {r : AppResolver}
    {s : SaasEntry} {rest : List SaasEntry} (h : r.saasSorted = s :: rest) :
    ∃ name, ∀ redis, (r.resolve lower redis ⟨"", 0, 0, some name⟩).1 =
      ⟨.saas, s.name, some s.id⟩ := by
  obtain ⟨name, hname, hsuffix⟩ :
      ∃ name, name ≠ "" ∧ (lower s.pattern).toList <:+ (lower name).toList := by
    by_cases hpattern : s.pattern = ""
    · refine ⟨"x", by decide, ?_⟩
      rw [hpattern, hlower]
      exact List.nil_suffix
    · exact ⟨s.pattern, hpattern, List.suffix_rfl⟩
  refine ⟨name, fun redis => ?_⟩
  have hhit : r.fqdnHit lower (some name) = some s := by
    rw [fqdnHit, if_neg hname, saasHit, h]
    exact List.find?_cons_of_pos (List.isSuffixOf_iff_suffix.mpr hsuffix)
  simp only [resolve, manualHit_noAddress, hhit]

/-- And under its id. -/
lemma resolve_ptr (lower : String → String) {r : AppResolver} {s : SaasEntry}
    {rest : List SaasEntry} (h : r.saasSorted = s :: rest) {text : Text}
    (htext : str? s.id = some text) :
    (r.resolve lower (fun _ => some (String.ofList text)) ⟨"", 0, 0, none⟩).1 =
      ⟨.ptr, s.name, some s.id⟩ := by
  have hint : int? text = some s.id := int?_str? htext
  have hne : String.ofList text ≠ "" := by
    intro hempty
    rw [String.ofList_eq_empty_iff.mp hempty] at hint
    cases hint
  have hhit : r.ptrHit (fun _ => some (String.ofList text)) "" = some s := by
    simp only [ptrHit, hne, if_false, String.toList_ofList, hint, Option.getD_some, h]
    exact List.find?_cons_of_pos (by simp)
  simp only [resolve, resolveAddress, manualHit_noAddress, fqdnHit, hhit]

lemma str?_of_int4 {n : ℤ} (h : -2 ^ 31 ≤ n ∧ n < 2 ^ 31) : ∃ text, str? n = some text := by
  have hsmall : n.natAbs < 10 ^ 21 := by omega
  rw [str?, if_neg (length_natText_of_lt hsmall)]
  exact ⟨_, rfl⟩

/-- Two stages that can both be reached have no name in common. -/
lemma OneKindPerLabel.label_ne {lower : String → String} {r : AppResolver}
    (h : OneKindPerLabel lower r) {redis : String → Option String} {d d' : Destination}
    {c c' : AppCandidate} (hd : (r.resolve lower redis d).1 = c)
    (hd' : (r.resolve lower redis d').1 = c') (hkind : c.labelKind ≠ c'.labelKind) :
    c.label ≠ c'.label := by
  intro hlabel
  have hkinds := h.kinds redis d d'
  rw [hd, hd'] at hkinds
  exact hkind (hkinds hlabel)

lemma kindsApart_of_oneKindPerLabel {lower : String → String} (hlower : lower "" = "")
    {r : AppResolver} (hids : ∀ s ∈ r.saasSorted, -2 ^ 31 ≤ s.id ∧ s.id < 2 ^ 31)
    (h : OneKindPerLabel lower r) : KindsApart r where
  noEntries := by
    cases hsorted : r.saasSorted with
    | nil => rfl
    | cons s rest =>
      obtain ⟨text, htext⟩ := str?_of_int4 (hids s (hsorted ▸ List.mem_cons_self))
      obtain ⟨name, hsaas⟩ := resolve_saas hlower hsorted
      have hne := h.label_ne (hsaas _) (resolve_ptr lower hsorted htext) nofun
      exact absurd rfl hne
  manual_port := by
    intro ip port proto a ha ⟨port', proto'⟩ p hp
    exact h.label_ne (resolve_manual lower ha _) (resolve_port lower hp) nofun
  manual_raw := by
    intro ip port proto a ha ip' port' proto' huncovered
    exact h.label_ne (resolve_manual lower ha _) (resolve_raw lower huncovered) nofun
  port_raw := by
    intro ⟨port, proto⟩ p hp ip' port' proto' huncovered
    exact h.label_ne (resolve_port lower hp) (resolve_raw lower huncovered) nofun

/-- For every state of the resolver, with ids as the catalog has them: a label has one
kind, with what follows for the nodes, if and only if there are no entries and no
shared names. -/
theorem oneKindPerLabel_iff_kindsApart (lower : String → String) (hlower : lower "" = "")
    (r : AppResolver) (hids : ∀ s ∈ r.saasSorted, -2 ^ 31 ≤ s.id ∧ s.id < 2 ^ 31) :
    OneKindPerLabel lower r ↔ KindsApart r :=
  ⟨kindsApart_of_oneKindPerLabel hlower hids, oneKindPerLabel_of_kindsApart⟩

/-- The state after a load of one port default. -/
def portCatalog : AppResolver := ⟨[], [], Dict.empty.set (443, 6) ⟨443, 6, "HTTPS"⟩⟩

lemma kindsApart_portCatalog : KindsApart portCatalog where
  noEntries := rfl
  manual_port ip port proto a ha := by simp [manualHit, portCatalog] at ha
  manual_raw ip port proto a ha := by simp [manualHit, portCatalog] at ha
  port_raw key p hp ip port proto _ hname := by
    have hentry : p = ⟨443, 6, "HTTPS"⟩ := by
      rw [portCatalog, Dict.get?_set] at hp
      split_ifs at hp
      · exact (Option.some.inj hp).symm
      · cases hp
    have hcolon : ':' ∈ (rawLabel ip port).toList := by simp [rawLabel]
    rw [← hname, hentry] at hcolon
    revert hcolon
    decide

theorem oneKindPerLabel_portCatalog : load [] [] [⟨443, 6, "HTTPS"⟩] = some portCatalog ∧
    OneKindPerLabel id portCatalog := by
  refine ⟨rfl, (oneKindPerLabel_iff_kindsApart id rfl portCatalog ?_).mpr kindsApart_portCatalog⟩
  simp [portCatalog]

/-- The state after a load of one SaaS entry. -/
def zoomCatalog : AppResolver := ⟨[], [⟨3, "Zoom", ".zoom.us", 100⟩], .empty⟩

/-- The DNS worker has found the name of one address and the entry for it. -/
def zoomRedis (key : String) : Option String :=
  if key = "dns:ptr:203.0.113.9" then some "host.zoom.us"
  else if key = "dns:saas:203.0.113.9" then some "3" else none

/-- One flow with the name from the firewall and one with the name from the DNS worker. -/
def zoomFlows : List LabelledFlow :=
  [⟨0, 5, "10.0.0.1", "203.0.113.5", 443, 6, 10, 1, 1,
      (zoomCatalog.resolve id zoomRedis ⟨"203.0.113.5", 443, 6, some "eu.zoom.us"⟩).1, false, 0,
      "alice@corp", ∅⟩,
    ⟨0, 5, "10.0.0.1", "203.0.113.9", 443, 6, 20, 1, 1,
      (zoomCatalog.resolve id zoomRedis ⟨"203.0.113.9", 443, 6, none⟩).1, false, 0,
      "alice@corp", ∅⟩]

/-- The same label under two kinds, and the builders keep different ones. -/
theorem zoomFlows_disagree : load [] [⟨3, "Zoom", ".zoom.us", 100⟩] [] = some zoomCatalog ∧
    zoomFlows.map LabelledFlow.candidate = [⟨.saas, "Zoom", some 3⟩, ⟨.ptr, "Zoom", some 3⟩] ∧
    (buildLegacyDelta 0 zoomFlows).nodesRight = [⟨"app:Zoom", "Zoom", .saas⟩] ∧
    (buildGroupDelta ⟨∅, 500, .empty⟩ none .group 0 zoomFlows).1.nodesRight =
      [⟨"app:Zoom", "Zoom", .ptr⟩] ∧
    ¬ OneKindPerLabel id zoomCatalog := by
  have hnamed : (zoomCatalog.resolve id zoomRedis ⟨"203.0.113.5", 443, 6, some "eu.zoom.us"⟩).1 =
      ⟨.saas, "Zoom", some 3⟩ := by decide +kernel
  have hpointed : (zoomCatalog.resolve id zoomRedis ⟨"203.0.113.9", 443, 6, none⟩).1 =
      ⟨.ptr, "Zoom", some 3⟩ := by decide +kernel
  refine ⟨rfl, ?_, by decide +kernel, by decide +kernel, fun h => ?_⟩
  · simp only [zoomFlows, List.map_cons, List.map_nil, hnamed, hpointed]
  · exact h.label_ne hnamed hpointed nofun rfl

end FlowDiscovery.AppResolver
