import FlowDiscovery.EventJson
import FlowDiscovery.SankeyFanout

/-!
# Deltas as texts

The publisher writes a delta as JSON under the key of the live view and to the channel.
The fanout reads the message, replaces the links by those the filter of a client selects
and writes the object again. The result is the text of the filtered delta: on published
texts the fanout does on JSON what `SankeyFanout.filtered` does on deltas.
-/
namespace FlowDiscovery.DeltaWire
open PyText PyTime PyIpaddress PyJson EventJson SankeyFanout
open StreamConsumer (strMember intMember)

/-! ## Writing -/

def labelKindName : LabelKind → String
  | .manual => "manual"
  | .saas => "saas"
  | .ptr => "ptr"
  | .port => "port"
  | .raw => "raw"

def linkMembers (link : Link) : List (PyStr × Json) :=
  [(ofString "src", .str (ofString link.src)), (ofString "dst", .str (ofString link.dst)),
    (ofString "bytes", .int link.bytes), (ofString "flows", .int link.flows),
    (ofString "users", .int link.users)]

def leftJson (node : LeftNode) : Json :=
  .obj [(ofString "id", .str (ofString node.id)), (ofString "label", .str (ofString node.label)),
    (ofString "size", .int node.size)]

def rightJson (node : RightNode) : Json :=
  .obj [(ofString "id", .str (ofString node.id)), (ofString "label", .str (ofString node.label)),
    (ofString "kind", .str (ofString (labelKindName node.kind)))]

def linksJson (links : List Link) : Json := .arr (links.map fun link => .obj (linkMembers link))

section

variable (iso : IsoText)

def deltaMembers (delta : SankeyDelta) : List (PyStr × Json) :=
  [(ofString "ts", .str (ofText (iso.isoformat delta.ts))),
    (ofString "window_s", .int delta.windowS),
    (ofString "nodes_left", .arr (delta.nodesLeft.map leftJson)),
    (ofString "nodes_right", .arr (delta.nodesRight.map rightJson)),
    (ofString "links", linksJson delta.links),
    (ofString "lossy", .bool delta.lossy),
    (ofString "dropped_count", .int delta.droppedCount)]

/-- `json.dumps(delta)`. -/
def serialize (delta : SankeyDelta) : Option PyStr := dumps true (.obj (deltaMembers iso delta))

lemma plain_arr_map {α : Type*} {f : α → Json} (hf : ∀ a, Plain (f a)) (items : List α) :
    Plain (.arr (items.map f)) := by
  refine .arr fun v hv => ?_
  obtain ⟨a, _, rfl⟩ := List.mem_map.mp hv
  exact hf a

lemma plain_link (link : Link) : Plain (.obj (linkMembers link)) :=
  (plain_ofString _).member "src" <| (plain_ofString _).member "dst" <|
  (Plain.int _).member "bytes" <| (Plain.int _).member "flows" <|
  (Plain.int _).member "users" plain_empty

lemma plain_left (node : LeftNode) : Plain (leftJson node) :=
  (plain_ofString _).member "id" <| (plain_ofString _).member "label" <|
  (Plain.int _).member "size" plain_empty

lemma plain_right (node : RightNode) : Plain (rightJson node) :=
  (plain_ofString _).member "id" <| (plain_ofString _).member "label" <|
  (plain_ofString _).member "kind" plain_empty

lemma plain_delta (delta : SankeyDelta) : Plain (.obj (deltaMembers iso delta)) :=
  (plain_ofText _).member "ts" <| (Plain.int _).member "window_s" <|
  (plain_arr_map plain_left _).member "nodes_left" <|
  (plain_arr_map plain_right _).member "nodes_right" <|
  (plain_arr_map plain_link _).member "links" <| (Plain.bool _).member "lossy" <|
  (Plain.int _).member "dropped_count" plain_empty

end

/-! ## The fanout on JSON -/

section

variable (str : Json → PyStr)

/-- The first half of `ClientState.matches` on a decoded link: `none` is an exception,
and the source is only read for a filter that asks for it. -/
def sourceMatches (srcCidr : Json) (members : List (PyStr × Json)) : Option Bool :=
  if srcCidr.truthy then
    (strMember members "src").map fun s =>
      let src := toText s
      (ipAddress (if "ip:".toList.isPrefixOf src then src.drop 3 else src)).any fun ip =>
        (networkOfJson srcCidr).any fun network => network.contains ip
  else some true

def destinationMatches (dstApp : Json) (members : List (PyStr × Json)) : Option Bool :=
  if dstApp.truthy then
    match Json.lookup members (ofString "dst") with
    | some (.str dst) => some (decide (dst = appId str dstApp))
    | some _ => some false
    | none => none
  else some true

def matchesJson (filters link : Json) : Option Bool :=
  match filters, link with
  | .obj fields, .obj members =>
    match sourceMatches ((Json.lookup fields (ofString "src_cidr")).getD .null) members with
    | none => none
    | some false => some false
    | some true => destinationMatches str ((Json.lookup fields (ofString "dst_app")).getD .null) members
  | _, _ => none

def selectJson (filters : Json) : List Json → Option (List Json)
  | [] => some []
  | link :: rest => do
    let keep ← matchesJson str filters link
    let kept ← selectJson filters rest
    return if keep then link :: kept else kept

/-- `{**delta, name: value}` for a name that `delta` has, once. -/
def replaceMember (members : List (PyStr × Json)) (name : PyStr) (value : Json) :
    List (PyStr × Json) :=
  members.map fun field => if field.1 = name then (name, value) else field

/-- The object that `_dispatch` makes for one client. -/
def filteredJson (filters payload : Json) : Option Json :=
  match payload with
  | .obj members =>
    match Json.lookup members (ofString "links") with
    | some (.arr links) => (selectJson str filters links).map fun kept =>
        .obj (replaceMember members (ofString "links") (.arr kept))
    | _ => none
  | _ => none

end

/-- What a client is sent of a message: a text, no text when writing it raises, which
drops the client, or an exception that ends the task. -/
def dispatchText (float : Text → Text) (str : Json → PyStr) (filters : Json) (message : PyStr) :
    Option (Option PyStr) :=
  (loads float message).bind fun payload => (filteredJson str filters payload).map (dumps true)

/-! ## Agreement -/

lemma toText_ofString (s : String) : toText (ofString s) = s.toList := by
  simp [toText, ofString, ofText, Function.comp_def]

section

variable (str : Json → PyStr)

lemma sourceMatches_link (srcCidr : Json) (link : Link) :
    sourceMatches srcCidr (linkMembers link) =
      some !(srcCidr.truthy && !inNetwork srcCidr link) := by
  have hsrc : strMember (linkMembers link) "src" = some (ofString link.src) := rfl
  unfold sourceMatches
  split_ifs with htruthy
  · simp only [hsrc, Option.map_some, toText_ofString, htruthy, Bool.true_and, Bool.not_not]
    rfl
  · simp [htruthy]

lemma destinationMatches_link (dstApp : Json) (link : Link) :
    destinationMatches str dstApp (linkMembers link) =
      some !(dstApp.truthy && decide (ofString link.dst ≠ appId str dstApp)) := by
  have hdst : Json.lookup (linkMembers link) (ofString "dst") =
      some (.str (ofString link.dst)) := rfl
  unfold destinationMatches
  split_ifs with htruthy
  · simp [hdst, htruthy]
  · simp [htruthy]

lemma matchesJson_link (filters : Json) (link : Link) :
    matchesJson str filters (.obj (linkMembers link)) = matchesLink str filters link := by
  cases filters with
  | obj fields =>
    simp only [matchesJson, matchesLink, sourceMatches_link, destinationMatches_link]
    cases hin : ((Json.lookup fields (ofString "src_cidr")).getD .null).truthy &&
      !inNetwork ((Json.lookup fields (ofString "src_cidr")).getD .null) link <;> simp
  | null | bool | int | float | str | arr => rfl

lemma selectLinks_sublist {filters : Json} {links kept : List Link}
    (h : selectLinks str filters links = some kept) : kept.Sublist links := by
  induction links generalizing kept with
  | nil =>
    cases h
    exact List.Sublist.refl _
  | cons link rest ih =>
    simp only [selectLinks, Option.bind_eq_bind, Option.bind_eq_some_iff, Option.pure_def,
      Option.some.injEq] at h
    obtain ⟨keep, _, more, hmore, rfl⟩ := h
    cases keep with
    | false => exact (ih hmore).cons link
    | true => exact (ih hmore).cons_cons link

lemma selectJson_links (filters : Json) (links : List Link) :
    selectJson str filters (links.map fun link => .obj (linkMembers link)) =
      (selectLinks str filters links).map fun kept =>
        kept.map fun link => .obj (linkMembers link) := by
  induction links with
  | nil => rfl
  | cons link rest ih =>
    rw [List.map_cons, selectJson, selectLinks, matchesJson_link, ih]
    cases matchesLink str filters link with
    | none => rfl
    | some keep =>
      cases selectLinks str filters rest with
      | none => rfl
      | some kept => cases keep <;> rfl

variable (iso : IsoText)

lemma filteredJson_delta (filters : Json) (delta : SankeyDelta) :
    filteredJson str filters (.obj (deltaMembers iso delta)) =
      (filtered str filters delta).map fun d => .obj (deltaMembers iso d) := by
  have hlinks : Json.lookup (deltaMembers iso delta) (ofString "links") =
      some (linksJson delta.links) := rfl
  simp only [filteredJson, hlinks, linksJson, selectJson_links, filtered, Option.map_map]
  cases selectLinks str filters delta.links with
  | none => rfl
  | some kept => rfl

/-- The fanout sends each client the text of the filtered delta. -/
theorem dispatchText_serialize (float : Text → Text) (filters : Json) {delta : SankeyDelta}
    {message : PyStr} (h : serialize iso delta = some message) :
    dispatchText float str filters message =
      (filtered str filters delta).map (serialize iso) := by
  rw [dispatchText, loads_dumps float true (plain_delta iso delta) h, Option.bind_some,
    filteredJson_delta, Option.map_map]
  rfl

/-- With fewer links there is a text if there was one. -/
lemma serialize_filtered {filters : Json} {delta payload : SankeyDelta}
    (h : (serialize iso delta).isSome) (hpayload : filtered str filters delta = some payload) :
    (serialize iso payload).isSome := by
  obtain ⟨kept, hkept, rfl⟩ := Option.map_eq_some_iff.mp hpayload
  have hsub := selectLinks_sublist str hkept
  rw [serialize, dumps, Option.isSome_map, dumpsFields_isSome_iff] at h ⊢
  have hlinks := h (ofString "links", linksJson delta.links) (by simp [deltaMembers])
  rw [linksJson, dumps, Option.isSome_map, dumpsItems_isSome_iff] at hlinks
  intro field hfield
  by_cases hname : field = (ofString "links", linksJson kept)
  · rw [hname, linksJson, dumps, Option.isSome_map, dumpsItems_isSome_iff]
    intro v hv
    obtain ⟨link, hlink, rfl⟩ := List.mem_map.mp hv
    exact hlinks _ (List.mem_map.mpr ⟨link, hsub.subset hlink, rfl⟩)
  · refine h field ?_
    simp only [deltaMembers, List.mem_cons, List.not_mem_nil, or_false, hname, false_or] at hfield ⊢
    tauto

end

end FlowDiscovery.DeltaWire
