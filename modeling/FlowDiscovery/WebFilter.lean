import FlowDiscovery.PyJsonRoundTrip
import Mathlib.Data.List.ReduceOption

/-!
# Filters of the web client

The record that the client passes to `updateFilters` and the text that it sends
for it, `JSON.stringify({ filter: f })`. A string of the client is a list of code
points in which two surrogates that belong together are one code point. The
server's `json.loads` reads back exactly what the client has written.
-/
namespace FlowDiscovery.WebFilter
open PyText PyJson

/-! ## `JSON.stringify` of strings -/

structure JsString where
  points : PyStr
  unpaired : points.IsChain fun a b => ¬ (isHighSurrogate a ∧ isLowSurrogate b)

/-- One code point of a string: only quotes, backslashes, controls and lone
surrogates are escaped. -/
def quotePoint (c : ℕ) : PyStr :=
  if c = 0x22 then [0x5C, 0x22]
  else if c = 0x5C then [0x5C, 0x5C]
  else if c = 0x08 then [0x5C, 0x62]
  else if c = 0x09 then [0x5C, 0x74]
  else if c = 0x0A then [0x5C, 0x6E]
  else if c = 0x0C then [0x5C, 0x66]
  else if c = 0x0D then [0x5C, 0x72]
  else if c < 0x20 ∨ 0xD800 ≤ c ∧ c ≤ 0xDFFF then uEscape c
  else [c]

def quote (s : PyStr) : PyStr := 0x22 :: s.flatMap quotePoint ++ [0x22]

/-- How the reader sees a code point. -/
def unitOf (c : ℕ) : CodeUnit :=
  if (c < 0x20 ∧ c ≠ 0x08 ∧ c ≠ 0x09 ∧ c ≠ 0x0A ∧ c ≠ 0x0C ∧ c ≠ 0x0D) ∨ 0xD800 ≤ c ∧ c ≤ 0xDFFF then
    .escaped c
  else .plain c

lemma scanUnits_quotePoint (c : ℕ) (rest : PyStr) :
    scanUnits (quotePoint c ++ rest) =
      (scanUnits rest).map fun (units, rest) => (unitOf c :: units, rest) := by
  unfold quotePoint
  split_ifs with h1 h2 h3 h4 h5 h6 h7 h8
  · subst h1
    exact scanUnits_simple rfl rest
  · subst h2
    exact scanUnits_simple rfl rest
  · subst h3
    exact scanUnits_simple rfl rest
  · subst h4
    exact scanUnits_simple rfl rest
  · subst h5
    exact scanUnits_simple rfl rest
  · subst h6
    exact scanUnits_simple rfl rest
  · subst h7
    exact scanUnits_simple rfl rest
  · rw [scanUnits_uEscape (by omega), unitOf, if_pos (by omega)]
  · rw [List.singleton_append, scanUnits_plain (by omega) h1 h2, unitOf, if_neg (by omega)]

lemma unitOf_cases (c : ℕ) : unitOf c = .plain c ∨ unitOf c = .escaped c := by
  unfold unitOf
  split_ifs
  · exact .inr rfl
  · exact .inl rfl

/-- Only two halves of a pair could be joined, and they do not stand together. -/
lemma joinPairs_units {s : PyStr}
    (h : s.IsChain fun a b => ¬ (isHighSurrogate a ∧ isLowSurrogate b)) :
    joinPairs (s.map unitOf) = s := by
  induction s with
  | nil => rfl
  | cons c cs ih =>
    have hrest := ih h.tail
    rw [List.map_cons]
    rcases unitOf_cases c with hc | hc
    · rw [hc, joinPairs, hrest]
    · cases cs with
      | nil => rw [hc]; rfl
      | cons d ds =>
        have hpair := (List.isChain_cons_cons.mp h).1
        rw [List.map_cons] at hrest ⊢
        rcases unitOf_cases d with hd | hd
        · rw [hd, joinPairs] at hrest
          rw [hc, hd, joinPairs, hrest]
        · rw [hd] at hrest
          rw [hc, hd, joinPairs, if_neg hpair, hrest]

/-- A string of the client is read back. -/
theorem scanString_quote (s : JsString) (rest : PyStr) :
    scanString (s.points.flatMap quotePoint ++ 0x22 :: rest) = some (s.points, rest) := by
  have hunits : ∀ points : PyStr, scanUnits (points.flatMap quotePoint ++ 0x22 :: rest) =
      some (points.map unitOf, rest) := by
    intro points
    induction points with
    | nil => simp [scanUnits]
    | cons c cs ih =>
      rw [List.flatMap_cons, List.append_assoc, scanUnits_quotePoint, ih]
      rfl
  simp only [scanString, hunits, Option.map_some, joinPairs_units s.unpaired]

lemma scanValue_quote (float : Text → Text) (s : JsString) (fuel : ℕ) (rest : PyStr) :
    scanValue float (fuel + 1) (quote s.points ++ rest) = some (.str s.points, rest) := by
  have hstring := scanString_quote s rest
  simp only [quote, List.cons_append, List.append_assoc, List.nil_append, scanValue, hstring,
    Option.map_some]

/-! ## `JSON.stringify` of a filter -/

inductive GroupMode where
  | group
  | user
  | srcIp
  deriving DecidableEq, Repr

def GroupMode.name : GroupMode → PyStr
  | .group => ofString "group"
  | .user => ofString "user"
  | .srcIp => ofString "src_ip"

/-- `WSFilter`; a missing member is undefined. Of the numbers, `proto` is an integer here
and fractions are left out. Integers below `10 ^ 21` are written in plain digits. -/
structure WsFilter where
  srcCidr : Option JsString
  dstApp : Option JsString
  proto : Option ℤ
  denyOnly : Option Bool
  groupBy : Option GroupMode
  group : Option (List JsString)
  user : Option JsString
  excludeGroups : Option JsString
  proto_lt : ∀ n ∈ proto, n.natAbs < 10 ^ 21

def boolText (b : Bool) : PyStr := ofString (if b then "true" else "false")

def intText (n : ℤ) : PyStr :=
  ofText (if n < 0 then '-' :: natText n.natAbs else natText n.natAbs)

def elementsText : List JsString → PyStr
  | [] => []
  | [s] => quote s.points
  | s :: rest => quote s.points ++ 0x2C :: elementsText rest

def arrayText (items : List JsString) : PyStr := 0x5B :: elementsText items ++ [0x5D]

def stringMember (key : String) (s : JsString) : Member :=
  (ofString key, quote s.points, .str s.points)

/-- The members that are there, each with its text and its value. -/
def WsFilter.members (f : WsFilter) : List Member :=
  [f.srcCidr.map (stringMember "src_cidr"),
    f.dstApp.map (stringMember "dst_app"),
    f.proto.map fun n => (ofString "proto", intText n, .int n),
    f.denyOnly.map fun b => (ofString "deny_only", boolText b, .bool b),
    f.groupBy.map fun g => (ofString "group_by", dumpsString g.name, .str g.name),
    f.group.map fun items =>
      (ofString "group", arrayText items, .arr (items.map fun s => .str s.points)),
    f.user.map (stringMember "user"),
    f.excludeGroups.map (stringMember "exclude_groups")].reduceOption

lemma WsFilter.mem_members (f : WsFilter) (m : Member) :
    m ∈ f.members ↔
      (∃ s, f.srcCidr = some s ∧ stringMember "src_cidr" s = m) ∨
      (∃ s, f.dstApp = some s ∧ stringMember "dst_app" s = m) ∨
      (∃ n, f.proto = some n ∧ (ofString "proto", intText n, .int n) = m) ∨
      (∃ b, f.denyOnly = some b ∧ (ofString "deny_only", boolText b, .bool b) = m) ∨
      (∃ g, f.groupBy = some g ∧ (ofString "group_by", dumpsString g.name, .str g.name) = m) ∨
      (∃ items, f.group = some items ∧ (ofString "group", arrayText items,
        .arr (items.map fun s => .str s.points)) = m) ∨
      (∃ s, f.user = some s ∧ stringMember "user" s = m) ∨
      ∃ s, f.excludeGroups = some s ∧ stringMember "exclude_groups" s = m := by
  simp only [WsFilter.members, List.reduceOption_mem_iff, List.mem_cons, List.not_mem_nil,
    or_false, eq_comm (a := some m), Option.map_eq_some_iff]

/-- The filter as a JSON value. -/
def WsFilter.toJson (f : WsFilter) : Json := .obj (f.members.map Member.field)

/-- `JSON.stringify(f)`. -/
def WsFilter.stringify (f : WsFilter) : PyStr := dumpsObject (f.members.map Member.text)

/-- `JSON.stringify({ filter: f })`. -/
def message (f : WsFilter) : PyStr := dumpsObject [(ofString "filter", f.stringify)]

/-- The filter of a client that was never given one. -/
def WsFilter.empty : WsFilter := ⟨none, none, none, none, none, none, none, none, by simp⟩

example : message WsFilter.empty = ofString "\x7b\"filter\":\x7b\x7d\x7d" := by decide

/-! ## The server reads it back -/

section

variable (float : Text → Text)

lemma renders_quote (s : JsString) : Renders float (quote s.points) (.str s.points) where
  starts := ⟨0x22, _, rfl, rfl⟩
  reads fuel rest _ := scanValue_quote float s fuel rest

lemma renders_boolText (b : Bool) : Renders float (boolText b) (.bool b) := by
  cases b with
  | false => exact ⟨⟨_, _, rfl, rfl⟩, fun fuel rest _ => rfl⟩
  | true => exact ⟨⟨_, _, rfl, rfl⟩, fun fuel rest _ => rfl⟩

lemma renders_intText {n : ℤ} (h : n.natAbs < 10 ^ 21) : Renders float (intText n) (.int n) := by
  apply renders_dumpsInt
  rw [dumpsInt, str?, if_neg (length_natText_of_lt h), Option.map_some, intText]

lemma scanElements_elementsText {items : List JsString} (hne : items ≠ []) {fuel : ℕ}
    (hfuel : items.length + 1 ≤ fuel) (rest : PyStr) :
    scanElements float fuel (elementsText items ++ 0x5D :: rest) =
      some (items.map fun s => .str s.points, rest) := by
  induction items generalizing fuel with
  | nil => exact absurd rfl hne
  | cons s more ih =>
    obtain ⟨fuel, rfl⟩ : ∃ f, fuel = f + 1 := ⟨fuel - 1, by omega⟩
    simp only [List.length_cons] at hfuel
    have hvalue : ∀ tail, scanValue float fuel (quote s.points ++ tail) =
        some (.str s.points, tail) := by
      intro tail
      obtain ⟨fuel, rfl⟩ : ∃ f, fuel = f + 1 := ⟨fuel - 1, by omega⟩
      exact scanValue_quote float s fuel tail
    cases more with
    | nil =>
      simp only [elementsText, scanElements, hvalue, Option.bind_eq_bind, Option.bind_some,
        skipBlanks_cons (show isBlank 0x5D = false from rfl), List.map_cons, List.map_nil]
    | cons s' more =>
      have hrec := ih (by simp) (show (s' :: more).length + 1 ≤ fuel by simp at hfuel ⊢; omega)
      have hstart : ∃ tail, elementsText (s' :: more) ++ 0x5D :: rest = 0x22 :: tail := by
        cases more <;> exact ⟨_, rfl⟩
      obtain ⟨tail, htail⟩ := hstart
      have htext : elementsText (s :: s' :: more) ++ 0x5D :: rest =
          quote s.points ++ 0x2C :: (elementsText (s' :: more) ++ 0x5D :: rest) := by
        simp [elementsText]
      rw [htail] at hrec htext
      rw [htext, scanElements]
      simp only [hvalue, Option.bind_eq_bind, Option.bind_some,
        skipBlanks_cons (show isBlank 0x2C = false from rfl),
        skipBlanks_cons (show isBlank 0x22 = false from rfl), hrec]
      rfl

lemma renders_arrayText (items : List JsString) :
    RendersFrom float (items.length + 2) (arrayText items) (.arr (items.map fun s => .str s.points))
    where
  starts := ⟨0x5B, _, rfl, rfl⟩
  reads fuel hfuel rest _ := by
    obtain ⟨fuel, rfl⟩ : ∃ f, fuel = f + 1 := ⟨fuel - 1, by omega⟩
    cases items with
    | nil => rfl
    | cons s more =>
      have hscan := scanElements_elementsText float (show s :: more ≠ [] by simp)
        (show (s :: more).length + 1 ≤ fuel by omega) rest
      have hstart : ∃ tail, elementsText (s :: more) ++ 0x5D :: rest = 0x22 :: tail := by
        cases more <;> exact ⟨_, rfl⟩
      obtain ⟨tail, htail⟩ := hstart
      have htext : arrayText (s :: more) ++ rest = 0x5B :: 0x22 :: tail := by
        rw [← htail]
        simp [arrayText]
      rw [htail] at hscan
      simp only [htext, scanValue, skipBlanks_cons (show isBlank 0x22 = false from rfl), hscan,
        Option.map_some]

/-- Fuel that is enough for each member of the filter. -/
def WsFilter.need (f : WsFilter) : ℕ := (f.group.map List.length).getD 0 + 2

lemma members_written (f : WsFilter) : ∀ m ∈ f.members, Member.WrittenFrom float f.need m := by
  have hneed : 1 ≤ f.need := by
    unfold WsFilter.need
    omega
  have hstring : ∀ key s, Member.WrittenFrom float f.need (stringMember key s) := fun key s =>
    ⟨isScalar_ofText _, (renders_quote float s).from float hneed⟩
  intro m hm
  rw [f.mem_members] at hm
  rcases hm with ⟨s, _, rfl⟩ | ⟨s, _, rfl⟩ | ⟨n, hn, rfl⟩ | ⟨b, _, rfl⟩ | ⟨g, _, rfl⟩ |
    ⟨items, hitems, rfl⟩ | ⟨s, _, rfl⟩ | ⟨s, _, rfl⟩
  · exact hstring _ s
  · exact hstring _ s
  · exact ⟨isScalar_ofText _, (renders_intText float (f.proto_lt n hn)).from float hneed⟩
  · exact ⟨isScalar_ofText _, (renders_boolText float b).from float hneed⟩
  · have hname : ∀ c ∈ g.name, IsScalar c := by
      cases g <;> exact isScalar_ofText _
    exact ⟨isScalar_ofText _, (renders_dumpsString float hname).from float hneed⟩
  · refine ⟨isScalar_ofText _, ?_⟩
    have hlength : f.need = items.length + 2 := by simp [WsFilter.need, hitems]
    rw [hlength]
    exact renders_arrayText float items
  · exact hstring _ s
  · exact hstring _ s

lemma length_le_elementsText (items : List JsString) :
    items.length ≤ (elementsText items).length := by
  induction items with
  | nil => simp
  | cons s more ih =>
    cases more with
    | nil => simp [elementsText, quote]
    | cons s' more =>
      simp only [elementsText, quote, List.length_cons, List.length_append] at ih ⊢
      omega

lemma length_le_of_mem {members : List (PyStr × PyStr)} {m : PyStr × PyStr} (h : m ∈ members) :
    m.2.length ≤ (dumpsMembers members).length := by
  induction members with
  | nil => cases h
  | cons m' ms ih =>
    obtain ⟨key, value⟩ := m'
    cases ms with
    | nil =>
      obtain rfl := List.mem_singleton.mp h
      simp [dumpsMembers]
      omega
    | cons m'' ms =>
      simp only [dumpsMembers, List.length_append, List.length_cons] at ih ⊢
      rcases List.mem_cons.mp h with rfl | h
      · simp only
        omega
      · have := ih h
        omega

/-- The reader of a filter needs no more fuel than the text is long. -/
lemma need_le (f : WsFilter) : f.need ≤ f.stringify.length := by
  have hsize : f.stringify.length = (dumpsMembers (f.members.map Member.text)).length + 2 := by
    simp [WsFilter.stringify, dumpsObject]
  rw [hsize, WsFilter.need]
  cases hgroup : f.group with
  | none => simp
  | some items =>
    have hmem : (ofString "group", arrayText items) ∈ f.members.map Member.text := by
      refine List.mem_map.mpr ⟨(ofString "group", arrayText items,
        .arr (items.map fun s => .str s.points)), ?_, rfl⟩
      rw [f.mem_members]
      exact .inr (.inr (.inr (.inr (.inr (.inl ⟨items, hgroup, rfl⟩)))))
    have hle := length_le_of_mem hmem
    have helements := length_le_elementsText items
    simp only [arrayText, List.length_append, List.length_cons, List.length_nil] at hle
    simp only [Option.map_some, Option.getD_some]
    omega

lemma scanValue_stringify (f : WsFilter) {fuel : ℕ} (hfuel : f.members.length + f.need < fuel)
    (rest : PyStr) :
    scanValue float fuel (f.stringify ++ 0x7D :: rest) = some (f.toJson, 0x7D :: rest) := by
  obtain ⟨fuel, rfl⟩ : ∃ k, fuel = k + 1 := ⟨fuel - 1, by omega⟩
  by_cases hne : f.members = []
  · have htext : f.stringify = [0x7B, 0x7D] := by
      rw [WsFilter.stringify, hne]
      rfl
    rw [htext, WsFilter.toJson, hne]
    rfl
  · obtain ⟨more, hmore⟩ := dumpsMembers_cons (show f.members.map Member.text ≠ [] by simpa using hne)
    have hscan := scanMembers_dumpsMembers float hne (members_written float f)
      (show f.members.length + f.need ≤ fuel by omega) (0x7D :: rest)
    have htext : f.stringify ++ 0x7D :: rest = 0x7B :: 0x22 :: (more ++ 0x7D :: 0x7D :: rest) := by
      rw [WsFilter.stringify, dumpsObject, hmore]
      simp
    rw [hmore, List.cons_append] at hscan
    rw [htext]
    simp only [scanValue, skipBlanks_cons (show isBlank 0x22 = false from rfl), hscan,
      Option.map_some, WsFilter.toJson]

/-- `json.loads` of a message gives the filter under its key. -/
theorem loads_message (f : WsFilter) :
    loads float (message f) = some (.obj [(ofString "filter", f.toJson)]) := by
  have htext : message f =
      0x7B :: 0x22 :: ((ofString "filter").flatMap escape ++ 0x22 :: 0x3A :: (f.stringify ++ [0x7D])) := by
    simp [message, dumpsObject, dumpsMembers, dumpsString]
  have hfuel : f.members.length + f.need < 2 * (message f).length := by
    have hneed := need_le f
    have hmembers := length_le_dumpsMembers (f.members.map Member.text)
    have hsize : f.stringify.length = (dumpsMembers (f.members.map Member.text)).length + 2 := by
      simp [WsFilter.stringify, dumpsObject]
    simp only [List.length_map] at hmembers
    simp only [htext, List.length_cons, List.length_append]
    omega
  have hkey := scanString_dumpsString (isScalar_ofText "filter".toList)
    (0x3A :: (f.stringify ++ [0x7D]))
  have hblanks : skipBlanks (f.stringify ++ [0x7D]) = f.stringify ++ [0x7D] :=
    skipBlanks_cons (show isBlank 0x7B = false from rfl) _
  have hmember := scanMembers_last float hkey hblanks (scanValue_stringify float f hfuel [])
  have hhead : (message f).head? ≠ some 0xFEFF := by
    rw [htext]
    simp
  rw [loads, if_neg hhead]
  generalize 2 * (message f).length = fuel at hmember
  rw [htext, skipBlanks_cons (show isBlank 0x7B = false from rfl)]
  simp only [scanValue, skipBlanks_cons (show isBlank 0x22 = false from rfl)]
  rw [show (ofString "filter").flatMap escape = (ofText "filter".toList).flatMap escape from rfl,
    hmember]
  rfl

end

end FlowDiscovery.WebFilter
