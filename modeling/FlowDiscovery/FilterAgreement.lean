import FlowDiscovery.SankeyApi
import FlowDiscovery.WebFilter

/-!
# One filter, two implementations

The web client sends its filter over the WebSocket, and the REST endpoint takes the
same fields as parameters. The endpoint evaluates all of them; the fan-out reads
the network and the application only. So the two keep the same links of a delta
exactly when the parameters that only the endpoint evaluates reject none of the
links that the other two select.
-/
namespace FlowDiscovery.FilterAgreement
open PyText PyJson PyIpaddress WebFilter SankeyApi

lemma ofText_unpaired (s : Text) :
    (ofText s).IsChain fun a b => ¬ (isHighSurrogate a ∧ isLowSurrogate b) :=
  unpaired_of_isScalar (isScalar_ofText s)

def jsString (s : String) : JsString := ⟨PyJson.ofString s, ofText_unpaired s.toList⟩

/-- What the client is filtered by. A network that is given parses. -/
structure ClientFilter where
  srcCidr : Option String
  dstApp : Option String
  proto : Option ℤ
  denyOnly : Option Bool
  groupBy : Option GroupMode
  group : Option (List String)
  user : Option String
  excludeGroups : Option String
  proto_lt : ∀ n ∈ proto, n.natAbs < 10 ^ 21
  cidr_valid : ∀ cidr ∈ given srcCidr, (ipNetwork false cidr.toList).isSome

/-- The filter as `AppShell` sends it. -/
def ClientFilter.toWs (c : ClientFilter) : WsFilter where
  srcCidr := c.srcCidr.map jsString
  dstApp := c.dstApp.map jsString
  proto := c.proto
  denyOnly := c.denyOnly
  groupBy := c.groupBy
  group := c.group.map (List.map jsString)
  user := c.user.map jsString
  excludeGroups := c.excludeGroups.map jsString
  proto_lt := c.proto_lt

/-- The same fields as parameters of the endpoint. -/
def ClientFilter.toQuery (c : ClientFilter) : LinkFilter :=
  ⟨c.srcCidr, c.dstApp, c.group.getD [], c.user, c.excludeGroups⟩

/-- The endpoint keeps, before it truncates, the links that the fan-out sends. -/
def Agree (str : Json → PyStr) (c : ClientFilter) (delta : SankeyDelta) : Prop :=
  ∃ links, filterLinks c.toQuery delta.links = .ok links ∧
    SankeyFanout.filtered str c.toWs.toJson delta = some { delta with links }

/-! ## What the fan-out reads -/

lemma toText_ofString (s : String) : SankeyFanout.toText (PyJson.ofString s) = s.toList := by
  simp [SankeyFanout.toText, PyJson.ofString, ofText, Function.comp_def]

lemma ofString_eq_nil_iff (s : String) : PyJson.ofString s = [] ↔ s = "" := by
  simp [PyJson.ofString, ofText]

lemma ofString_injective {s t : String} (h : PyJson.ofString s = PyJson.ofString t) : s = t := by
  have hlist : s.toList = t.toList := by rw [← toText_ofString s, h, toText_ofString]
  exact String.toList_inj.mp hlist

lemma ofString_append (s t : String) :
    PyJson.ofString (s ++ t) = PyJson.ofString s ++ PyJson.ofString t := by
  simp [PyJson.ofString, ofText]

lemma lookup_of_unique {fields : List (PyStr × Json)} {key : PyStr} {value : Json}
    (hmem : (key, value) ∈ fields) (huniq : ∀ v, (key, v) ∈ fields → v = value) :
    Json.lookup fields key = some value := by
  cases hfind : fields.reverse.find? fun field => field.1 = key with
  | none =>
    have habsent := List.find?_eq_none.mp hfind (key, value) (List.mem_reverse.mpr hmem)
    simp at habsent
  | some field =>
    obtain ⟨k, v⟩ := field
    have hkey : k = key := by simpa using List.find?_some hfind
    subst hkey
    rw [Json.lookup, hfind, Option.map_some,
      huniq v (List.mem_reverse.mp (List.mem_of_find?_eq_some hfind))]

lemma lookup_of_absent {fields : List (PyStr × Json)} {key : PyStr}
    (h : ∀ v, (key, v) ∉ fields) : Json.lookup fields key = none := by
  rw [Json.lookup, Option.map_eq_none_iff, List.find?_eq_none]
  rintro ⟨k, v⟩ hfield hkey
  obtain rfl : k = key := by simpa using hkey
  exact h v (List.mem_reverse.mp hfield)

lemma lookup_of_mem_iff {fields : List (PyStr × Json)} {key : PyStr} {value : Option Json}
    (h : ∀ v, (key, v) ∈ fields ↔ value = some v) : Json.lookup fields key = value := by
  cases value with
  | none => exact lookup_of_absent fun v hv => by cases (h v).mp hv
  | some value =>
    refine lookup_of_unique ((h value).mpr rfl) fun v hv => ?_
    exact (Option.some.inj ((h v).mp hv)).symm

/-- A key that one kind of member has is looked up in that kind. -/
lemma lookup_members (w : WsFilter) {key : PyStr} {value : Option Json}
    (hmem : ∀ v, value = some v → ∃ text, (key, text, v) ∈ w.members)
    (hkey : ∀ m ∈ w.members, m.1 = key → value = some m.2.2) :
    Json.lookup (w.members.map Member.field) key = value := by
  apply lookup_of_mem_iff
  intro v
  constructor
  · intro hv
    obtain ⟨m, hm, heq⟩ := List.mem_map.mp hv
    cases heq
    exact hkey m hm rfl
  · intro hv
    obtain ⟨text, htext⟩ := hmem v hv
    exact List.mem_map.mpr ⟨(key, text, v), htext, rfl⟩

lemma lookup_srcCidr (w : WsFilter) :
    Json.lookup (w.members.map Member.field) (PyJson.ofString "src_cidr") =
      w.srcCidr.map fun s => .str s.points := by
  apply lookup_members
  · intro v hv
    obtain ⟨s, hs, rfl⟩ := Option.map_eq_some_iff.mp hv
    exact ⟨_, (w.mem_members _).mpr (.inl ⟨s, hs, rfl⟩)⟩
  · intro m hm hkey
    rw [w.mem_members] at hm
    rcases hm with ⟨s, hs, rfl⟩ | ⟨s, _, rfl⟩ | ⟨n, _, rfl⟩ | ⟨b, _, rfl⟩ | ⟨g, _, rfl⟩ |
      ⟨items, _, rfl⟩ | ⟨s, _, rfl⟩ | ⟨s, _, rfl⟩
    · rw [hs]
      rfl
    all_goals exact absurd (ofString_injective hkey) (by decide)

lemma lookup_dstApp (w : WsFilter) :
    Json.lookup (w.members.map Member.field) (PyJson.ofString "dst_app") =
      w.dstApp.map fun s => .str s.points := by
  apply lookup_members
  · intro v hv
    obtain ⟨s, hs, rfl⟩ := Option.map_eq_some_iff.mp hv
    exact ⟨_, (w.mem_members _).mpr (.inr (.inl ⟨s, hs, rfl⟩))⟩
  · intro m hm hkey
    rw [w.mem_members] at hm
    rcases hm with ⟨s, _, rfl⟩ | ⟨s, hs, rfl⟩ | ⟨n, _, rfl⟩ | ⟨b, _, rfl⟩ | ⟨g, _, rfl⟩ |
      ⟨items, _, rfl⟩ | ⟨s, _, rfl⟩ | ⟨s, _, rfl⟩
    · exact absurd (ofString_injective hkey) (by decide)
    · rw [hs]
      rfl
    all_goals exact absurd (ofString_injective hkey) (by decide)

/-- The two members that the fan-out evaluates. -/
lemma ofJson_toWs (c : ClientFilter) :
    SankeyFanout.Filter.ofJson c.toWs.toJson =
      some ⟨c.srcCidr.map PyJson.ofString, c.dstApp.map PyJson.ofString⟩ := by
  have hstring : ∀ s : Option String,
      SankeyFanout.optionalString ((s.map jsString).map fun s => .str s.points) =
        some (s.map PyJson.ofString) := by
    intro s
    cases s <;> rfl
  simp only [WsFilter.toJson, SankeyFanout.Filter.ofJson, lookup_srcCidr, lookup_dstApp,
    ClientFilter.toWs, hstring]
  rfl

/-- On these two members the fan-out and the endpoint select the same links. -/
lemma selects_eq (c : ClientFilter) (link : Link) :
    (SankeyFanout.Filter.mk (c.srcCidr.map PyJson.ofString) (c.dstApp.map PyJson.ofString)).selects
      link = c.toQuery.selects link := by
  have hsource : (c.srcCidr.map PyJson.ofString).all (fun cidr =>
      cidr = [] || SankeyFanout.fromNetwork cidr link) = (given c.srcCidr).all fun cidr =>
        (ipNetwork false cidr.toList).any fun net => inNet net link := by
    cases c.srcCidr with
    | none => rfl
    | some cidr =>
      by_cases hempty : cidr = ""
      · simp [given, orElse, hempty, PyJson.ofString, ofText]
      · simp only [given, orElse, hempty, if_false, Option.map_some, Option.all_some,
          ofString_eq_nil_iff, decide_false, Bool.false_or, SankeyFanout.fromNetwork,
          toText_ofString, inNet]
        cases ipAddress (SankeyFanout.sourceText link) <;>
          cases ipNetwork false cidr.toList <;> rfl
  have happ : (c.dstApp.map PyJson.ofString).all (fun app =>
      app = [] || PyJson.ofString link.dst = PyJson.ofString "app:" ++ app) =
        (given c.dstApp).all fun app => link.dst = "app:" ++ app := by
    cases c.dstApp with
    | none => rfl
    | some app =>
      have hdst : (PyJson.ofString link.dst = PyJson.ofString "app:" ++ PyJson.ofString app) ↔
          link.dst = "app:" ++ app := by
        rw [← ofString_append]
        exact ⟨ofString_injective, fun h => by rw [h]⟩
      by_cases hempty : app = ""
      · simp [given, orElse, hempty, PyJson.ofString, ofText]
      · simp only [given, orElse, hempty, if_false, Option.map_some, Option.all_some,
          ofString_eq_nil_iff, decide_false, Bool.false_or, hdst]
  rw [SankeyFanout.Filter.selects, LinkFilter.selects]
  exact congrArg₂ (· && ·) hsource happ

section

variable (str : Json → PyStr)

/-- For every delta and every filter of the client: both implementations keep the
same links if and only if the labels of all links in the network and to the
application are allowed by the identity parameters. -/
theorem agree_iff_allowed (c : ClientFilter) (delta : SankeyDelta) :
    Agree str c delta ↔
      ∀ lk ∈ delta.links, c.toQuery.selects lk → c.toQuery.allows lk.src := by
  have hrest := filterLinks_of_valid (f := c.toQuery) c.cidr_valid delta.links
  have hlive := SankeyFanout.filtered_exact str (ofJson_toWs c) delta
  have hselects : (SankeyFanout.Filter.mk (c.srcCidr.map PyJson.ofString)
      (c.dstApp.map PyJson.ofString)).selects = c.toQuery.selects := funext (selects_eq c)
  rw [hselects] at hlive
  have hsame : Agree str c delta ↔
      delta.links.filter (fun lk => c.toQuery.selects lk && c.toQuery.allows lk.src) =
        delta.links.filter c.toQuery.selects := by
    rw [Agree, hrest, hlive]
    constructor
    · rintro ⟨links, hlinks, hdelta⟩
      rw [Except.ok.inj hlinks]
      exact (congrArg SankeyDelta.links (Option.some.inj hdelta)).symm
    · intro heq
      exact ⟨_, rfl, by rw [heq]⟩
  rw [hsame]
  constructor
  · intro heq lk hlk hselected
    have hmem : lk ∈ delta.links.filter c.toQuery.selects := List.mem_filter.mpr ⟨hlk, hselected⟩
    rw [← heq, List.mem_filter, Bool.and_eq_true] at hmem
    exact hmem.2.2
  · intro hallowed
    refine List.filter_congr fun lk hlk => ?_
    cases hselected : c.toQuery.selects lk with
    | false => rfl
    | true => exact hallowed lk hlk hselected

end

/-- Only the links of one group. -/
def salesOnly : ClientFilter where
  srcCidr := none
  dstApp := none
  proto := none
  denyOnly := none
  groupBy := some .group
  group := some ["Sales EMEA"]
  user := none
  excludeGroups := none
  proto_lt := nofun
  cidr_valid := nofun

/-- Two groups use one application. -/
def twoGroups : SankeyDelta where
  ts := 0
  windowS := 5
  nodesLeft := [⟨"Sales EMEA", "Sales EMEA", 12⟩, ⟨"Ops", "Ops", 4⟩]
  nodesRight := [⟨"app:m365", "m365", .saas⟩]
  links := [⟨"Sales EMEA", "app:m365", 100, 1, 1⟩, ⟨"Ops", "app:m365", 100, 1, 1⟩]
  lossy := false
  droppedCount := 0

/-- The endpoint keeps the link of the group, the fan-out sends both. -/
theorem twoGroups_disagree :
    filterLinks salesOnly.toQuery twoGroups.links =
        .ok [⟨"Sales EMEA", "app:m365", 100, 1, 1⟩] ∧
      SankeyFanout.filtered (fun _ => []) salesOnly.toWs.toJson twoGroups = some twoGroups ∧
      ¬ Agree (fun _ => []) salesOnly twoGroups := by
  have hrest : filterLinks salesOnly.toQuery twoGroups.links =
      .ok [⟨"Sales EMEA", "app:m365", 100, 1, 1⟩] := by
    decide +kernel
  have hlive : SankeyFanout.filtered (fun _ => []) salesOnly.toWs.toJson twoGroups =
      some twoGroups := by
    decide +kernel
  refine ⟨hrest, hlive, ?_⟩
  rintro ⟨links, hlinks, hdelta⟩
  rw [hrest] at hlinks
  obtain rfl := Except.ok.inj hlinks
  rw [hlive] at hdelta
  exact absurd (congrArg SankeyDelta.links (Option.some.inj hdelta)) (by decide)

end FlowDiscovery.FilterAgreement
