import FlowDiscovery.ExcludedGroups

/-!
# Group memberships from Active Directory

A directory server returns many values of an attribute in chunks, each under a
name that carries its range. The walk asks for `memberOf;range=lo-*`, and the
server answers under that very name only when the chunk is the last one.

The entries that the walk sees are made by the client library, which by default
asks for the further chunks itself and is not part of the repository. What it
lists in such an entry is left open here. For a connection that shows the replies
as the server gives them, the values of every chunk in between are looked up under
a name the reply does not have, while the walk itself goes on correctly.
-/
namespace FlowDiscovery.AdGroupSync
open PyText

/-- An entry of a search result: the names it lists and the values that can be
read under a name. -/
structure Entry where
  entryAttributes : List Text
  value : Text → Option (List String)

/-- Connection to a directory: distinguished names found by a filter, and the
entries that the client library makes for one attribute of a user. -/
structure Directory where
  find : String → List String
  search : String → Text → List Entry

structure GroupUpsert where
  userUpn : String
  groupId : String
  groupName : String
  groupSource : String
  deriving DecidableEq, Repr

def memberOf : Text := "memberOf".toList

def rangeHead : Text := "memberOf;range=".toList

/-- `_RANGE.match(k)`: the groups `lo` and `hi`. The match may end before the
end of the text. -/
def matchRange (k : Text) : Option (Text × Text) :=
  let isDigit := fun c => (decimal? c).isSome
  if rangeHead.isPrefixOf k then
    let tail := k.drop rangeHead.length
    match tail.takeWhile isDigit, tail.dropWhile isDigit with
    | _ :: _, '-' :: hi =>
      match hi.takeWhile isDigit, hi with
      | d :: ds, _ => some (tail.takeWhile isDigit, d :: ds)
      | [], '*' :: _ => some (tail.takeWhile isDigit, ['*'])
      | [], _ => none
    | _, _ => none
  else none

/-- Name of the values from `lo` on: `f"memberOf;range={lo}-*"`. -/
def openRange (lo : Text) : Text := rangeHead ++ lo ++ "-*".toList

/-- `int(hi) + 1` as text; `none` is a `ValueError`. -/
def nextLo? (hi : Text) : Option Text := do
  let n ← int? hi
  str? (n + 1)

/-- `_read_memberof` from one round of its loop on. The outer `none` is a walk
cut short for lack of fuel, the inner one a raised `ValueError`. -/
def readMemberof (search : Text → List Entry) :
    ℕ → Text → List String → Option (Option (List String))
  | 0, _, _ => none
  | fuel + 1, attr, groups =>
    match (search attr).head? with
    | none => some (some groups)
    | some entry =>
      let groups := groups ++ (entry.value attr).getD []
      match (entry.entryAttributes.filterMap matchRange).head? with
      | none => some (some groups)
      | some (_, hi) =>
        if hi = ['*'] then some (some groups)
        else
          match nextLo? hi with
          | none => some none
          | some lo => readMemberof search fuel (openRange lo) groups

def upsert (userUpn dn : String) : GroupUpsert where
  userUpn := userUpn
  groupId := dn
  groupName := String.ofList (ExcludedGroups.cn dn.toList)
  groupSource := "ad"

/-- `user_upn.split("@", 1)[0]`. -/
def localPart (userUpn : String) : String :=
  match splitOnce ['@'] userUpn.toList with
  | some parts => String.ofList parts.1
  | none => userUpn

/-- The entry found by principal name, else by account name. -/
def userDn (dir : Directory) (userUpn : String) : Option String :=
  match dir.find ("(userPrincipalName=" ++ userUpn ++ ")") with
  | dn :: _ => some dn
  | [] => (dir.find ("(sAMAccountName=" ++ localPart userUpn ++ ")")).head?

def syncUser (dir : Directory) (fuel : ℕ) (userUpn : String) :
    Option (Option (List GroupUpsert)) :=
  match userDn dir userUpn with
  | none => some (some [])
  | some dn =>
    (readMemberof (dir.search dn) fuel memberOf []).map fun dns =>
      dns.map fun dns => dns.map (upsert userUpn)

/-! ## A connection that shows the replies of the server -/

/-- Name of the chunk of at most `c` values from `lo` on. -/
def chunkName (dns : List String) (c lo : ℕ) : Text :=
  if dns.length ≤ lo + c then openRange (natText lo)
  else rangeHead ++ natText lo ++ '-' :: natText (lo + c - 1)

/-- An entry whose values can be read under the given names. -/
def reply (names : List Text) (values : List String) : Entry where
  entryAttributes := names
  value k := if k ∈ names then some values else none

/-- Replies to a search for `memberOf` and for an open range of it, for a user
with the given groups and chunks of `c` values, with `auto_range` turned off. -/
structure ServesRanges (dns : List String) (c : ℕ) (search : Text → List Entry) : Prop where
  first : search memberOf =
    if dns.length ≤ c then [reply [memberOf] dns]
    else [reply [memberOf, chunkName dns c 0] (dns.take c)]
  range : ∀ lo < dns.length, search (openRange (natText lo)) =
    [reply [chunkName dns c lo] ((dns.drop lo).take c)]

/-- A server that finds the requested lower bound by comparing names. -/
def rangeServer (dns : List String) (c : ℕ) (attr : Text) : List Entry :=
  if attr = memberOf then
    if dns.length ≤ c then [reply [memberOf] dns]
    else [reply [memberOf, chunkName dns c 0] (dns.take c)]
  else
    match (List.range dns.length).find? fun lo => attr = openRange (natText lo) with
    | some lo => [reply [chunkName dns c lo] ((dns.drop lo).take c)]
    | none => []

/-! ## Names of ranges -/

lemma natText_injective : Function.Injective natText := by
  intro a b h
  have ha : Nat.ofDigitChars 10 (natText a) 0 = a := Nat.ofDigitChars_ten_toDigits
  have hb : Nat.ofDigitChars 10 (natText b) 0 = b := Nat.ofDigitChars_ten_toDigits
  rw [← ha, ← hb, h]

lemma openRange_injective : Function.Injective openRange := by
  intro a b h
  rw [openRange, openRange, List.append_assoc, List.append_assoc] at h
  exact List.append_cancel_right (List.append_cancel_left h)

theorem rangeServer_servesRanges (dns : List String) (c : ℕ) :
    ServesRanges dns c (rangeServer dns c) where
  first := by simp [rangeServer]
  range lo hlo := by
    have hne : openRange (natText lo) ≠ memberOf := by
      intro h
      have hsemicolon : ';' ∈ openRange (natText lo) :=
        List.mem_append_left _ (List.mem_append_left _ (by decide))
      rw [h] at hsemicolon
      exact absurd hsemicolon (by decide)
    have hfind : (List.range dns.length).find?
        (fun k => openRange (natText lo) = openRange (natText k)) = some lo := by
      have hsome : ((List.range dns.length).find?
          (fun k => openRange (natText lo) = openRange (natText k))).isSome := by
        rw [List.find?_isSome]
        exact ⟨lo, List.mem_range.mpr hlo, by simp⟩
      obtain ⟨k, hk⟩ := Option.isSome_iff_exists.mp hsome
      have hname := List.find?_some hk
      have heq : lo = k := natText_injective (openRange_injective (of_decide_eq_true hname))
      rw [hk, heq]
    simp only [rangeServer, hne, if_false, hfind]

lemma isSome_decimal? {c : Char} (h : c.isDigit) : (decimal? c).isSome := by
  rw [decimal?_of_isDigit h]
  rfl

lemma takeWhile_natText (n : ℕ) (c : Char) (rest : Text) (hc : decimal? c = none) :
    (natText n ++ c :: rest).takeWhile (fun c => (decimal? c).isSome) = natText n := by
  rw [List.takeWhile_append_of_pos fun d hd => isSome_decimal? (isDigit_of_mem_natText hd),
    List.takeWhile_cons_of_neg (by simp [hc]), List.append_nil]

lemma dropWhile_natText (n : ℕ) (c : Char) (rest : Text) (hc : decimal? c = none) :
    (natText n ++ c :: rest).dropWhile (fun c => (decimal? c).isSome) = c :: rest := by
  rw [List.dropWhile_append_of_pos fun d hd => isSome_decimal? (isDigit_of_mem_natText hd),
    List.dropWhile_cons_of_neg (by simp [hc])]

lemma natText_ne_star (n : ℕ) : natText n ≠ ['*'] := by
  intro h
  have hstar : '*' ∈ natText n := by rw [h]; exact List.mem_singleton_self _
  exact absurd (isDigit_of_mem_natText hstar) (by decide)

lemma matchRange_name (lo : ℕ) (hi : Text) :
    matchRange (rangeHead ++ natText lo ++ '-' :: hi) =
      match hi.takeWhile (fun c => (decimal? c).isSome), hi with
      | d :: ds, _ => some (natText lo, d :: ds)
      | [], '*' :: _ => some (natText lo, ['*'])
      | [], _ => none := by
  obtain ⟨c, cs, hlo⟩ := List.exists_cons_of_ne_nil (natText_ne_nil lo)
  have hhead : rangeHead.isPrefixOf (rangeHead ++ natText lo ++ '-' :: hi) := by simp
  have htail : (rangeHead ++ natText lo ++ '-' :: hi).drop rangeHead.length =
      natText lo ++ '-' :: hi := by simp
  have hdash : decimal? '-' = none := by decide
  simp only [matchRange, hhead, if_true, htail, takeWhile_natText lo '-' hi hdash,
    dropWhile_natText lo '-' hi hdash]
  rw [hlo]
  rfl

lemma matchRange_openRange (lo : ℕ) :
    matchRange (openRange (natText lo)) = some (natText lo, ['*']) :=
  matchRange_name lo ['*']

lemma matchRange_closed (lo hi : ℕ) :
    matchRange (rangeHead ++ natText lo ++ '-' :: natText hi) = some (natText lo, natText hi) := by
  have hall : (natText hi).takeWhile (fun c => (decimal? c).isSome) = natText hi := by
    have happ : (natText hi ++ []).takeWhile (fun c => (decimal? c).isSome) = _ :=
      List.takeWhile_append_of_pos fun d hd => isSome_decimal? (isDigit_of_mem_natText hd)
    simpa using happ
  obtain ⟨c, cs, hhi⟩ := List.exists_cons_of_ne_nil (natText_ne_nil hi)
  rw [matchRange_name, hall, hhi]

/-- The next lower bound, unless it has too many digits to be converted. -/
lemma nextLo?_natText (n : ℕ) :
    nextLo? (natText n) =
      if n + 1 < 10 ^ intMaxStrDigits then some (natText (n + 1)) else none := by
  have hstr : str? ((n : ℤ) + 1) =
      if n + 1 < 10 ^ intMaxStrDigits then some (natText (n + 1)) else none := by
    have habs : ((n : ℤ) + 1).natAbs = n + 1 := by omega
    have hpos : ¬ ((n : ℤ) + 1 < 0) := by omega
    have hlen := length_natText_le_iff (n + 1)
    rw [str?, habs, if_neg hpos]
    by_cases hlong : intMaxStrDigits < (natText (n + 1)).length
    · rw [if_pos hlong, if_neg (by omega)]
    · rw [if_neg hlong, if_pos (hlen.mp (by omega))]
  rw [nextLo?, int?_natText]
  split_ifs with hlong hnext hnext
  · have := (length_natText_le_iff n).mpr (by omega)
    omega
  · rfl
  · exact hstr.trans (if_pos hnext)
  · exact hstr.trans (if_neg hnext)

/-! ## The walk -/

section Walk

variable {dns : List String} {c : ℕ} {search : Text → List Entry}

/-- A request for an open range returns the rest if it fits into one chunk. -/
lemma readMemberof_last (h : ServesRanges dns c search) (fuel lo : ℕ) (groups : List String)
    (hrange : lo < dns.length) (hlo : dns.length ≤ lo + c) :
    readMemberof search (fuel + 1) (openRange (natText lo)) groups =
      some (some (groups ++ (dns.drop lo).take c)) := by
  have hname : chunkName dns c lo = openRange (natText lo) := if_pos hlo
  simp [readMemberof, h.range lo hrange, hname, reply, matchRange_openRange]

/-- A chunk in between adds nothing: its values are not read under the name that
was asked for. -/
lemma readMemberof_between (h : ServesRanges dns c search) (hc : 1 ≤ c) (fuel lo : ℕ)
    (groups : List String) (hlo : ¬ dns.length ≤ lo + c) :
    readMemberof search (fuel + 1) (openRange (natText lo)) groups =
      if lo + c < 10 ^ intMaxStrDigits then
        readMemberof search fuel (openRange (natText (lo + c))) groups
      else some none := by
  have hname : chunkName dns c lo = rangeHead ++ natText lo ++ '-' :: natText (lo + c - 1) :=
    if_neg hlo
  have hother : openRange (natText lo) ≠ chunkName dns c lo := by
    rw [hname, openRange]
    intro heq
    have htail := List.append_cancel_left heq
    exact natText_ne_star _ (List.cons.inj htail).2.symm
  have hsucc : lo + c - 1 + 1 = lo + c := by omega
  have hmatch : matchRange (chunkName dns c lo) = some (natText lo, natText (lo + c - 1)) := by
    rw [hname, matchRange_closed]
  simp only [readMemberof, h.range lo (by omega), reply, List.head?_cons, List.mem_singleton, hother,
    if_false, Option.getD_none, List.append_nil, List.filterMap_cons, hmatch, natText_ne_star,
    nextLo?_natText, hsucc]
  split_ifs <;> rfl

/-- Whatever an open range returns has at most one more chunk. -/
lemma length_readMemberof_range (h : ServesRanges dns c search) (hc : 1 ≤ c) (fuel lo : ℕ)
    (groups result : List String) (hrange : lo < dns.length)
    (hres : readMemberof search fuel (openRange (natText lo)) groups = some (some result)) :
    result.length ≤ groups.length + c := by
  induction fuel generalizing lo with
  | zero => simp [readMemberof] at hres
  | succ fuel ih =>
    by_cases hlo : dns.length ≤ lo + c
    · rw [readMemberof_last h fuel lo groups hrange hlo] at hres
      cases hres
      simp only [List.length_append, List.length_take]
      omega
    · rw [readMemberof_between h hc fuel lo groups hlo] at hres
      split_ifs at hres
      · exact ih (lo + c) (by omega) hres
      · cases hres

lemma readMemberof_small (h : ServesRanges dns c search) (fuel : ℕ) (hN : dns.length ≤ c) :
    readMemberof search (fuel + 1) memberOf [] = some (some dns) := by
  have hmatch : matchRange memberOf = none := by decide
  simp [readMemberof, h.first, hN, reply, hmatch]

/-- The first chunk is read under the bare name. -/
lemma readMemberof_first (h : ServesRanges dns c search) (hc : 1 ≤ c) (fuel : ℕ)
    (hN : ¬ dns.length ≤ c) :
    readMemberof search (fuel + 1) memberOf [] =
      if c < 10 ^ intMaxStrDigits then
        readMemberof search fuel (openRange (natText c)) (dns.take c)
      else some none := by
  have hbare : matchRange memberOf = none := by decide
  have hsucc : c - 1 + 1 = c := by omega
  have hmatch : matchRange (chunkName dns c 0) = some (natText 0, natText (c - 1)) := by
    rw [chunkName, if_neg (by omega), zero_add, matchRange_closed]
  simp only [readMemberof, h.first, hN, if_false, reply, List.head?_cons, List.mem_cons, true_or,
    if_true, Option.getD_some, List.nil_append, List.filterMap_cons, hbare, hmatch,
    natText_ne_star, nextLo?_natText, hsucc]
  split_ifs <;> rfl

/-- The walk finds all values exactly if they fit into two chunks, the second of
which starts at a number that can be converted. -/
lemma readMemberof_complete_iff (h : ServesRanges dns c search) (hc : 1 ≤ c) :
    (∃ fuel, readMemberof search fuel memberOf [] = some (some dns)) ↔
      dns.length ≤ c ∨ (dns.length ≤ 2 * c ∧ c < 10 ^ intMaxStrDigits) := by
  constructor
  · rintro ⟨fuel, hfuel⟩
    by_contra hcond
    push Not at hcond
    obtain ⟨hN, htwo⟩ := hcond
    obtain ⟨k, rfl⟩ : ∃ k, fuel = k + 1 := by
      cases fuel with
      | zero => simp [readMemberof] at hfuel
      | succ k => exact ⟨k, rfl⟩
    rw [readMemberof_first h hc k (by omega)] at hfuel
    split_ifs at hfuel with hdigits
    · have hlen := length_readMemberof_range h hc k c (dns.take c) dns (by omega) hfuel
      rw [List.length_take] at hlen
      have := mt htwo (by omega)
      omega
    · cases hfuel
  · rintro (hN | ⟨hN, hdigits⟩)
    · exact ⟨1, readMemberof_small h 0 hN⟩
    · by_cases hsmall : dns.length ≤ c
      · exact ⟨1, readMemberof_small h 0 hsmall⟩
      · refine ⟨2, ?_⟩
        rw [readMemberof_first h hc 1 hsmall, if_pos hdigits,
          readMemberof_last h 0 c _ (by omega) (by omega)]
        have hall : (dns.drop c).take c = dns.drop c :=
          List.take_of_length_le (by rw [List.length_drop]; omega)
        rw [hall, List.take_append_drop]

end Walk

/-- Over such a connection, for every number of groups and every chunk size, the walk
ends with all groups in order, and one row is written for each, if and only if the groups fit
into two chunks (and the lower bound of the second, if there is one, is within
the limit of integer conversion). -/
theorem syncUser_complete_iff (dir : Directory) (userUpn dn : String) (dns : List String) (c : ℕ)
    (hc : 1 ≤ c) (hdn : userDn dir userUpn = some dn)
    (hserver : ServesRanges dns c (dir.search dn)) :
    ((∃ fuel, readMemberof (dir.search dn) fuel memberOf [] = some (some dns)) ∧
      ∃ fuel, syncUser dir fuel userUpn = some (some (dns.map (upsert userUpn)))) ↔
    dns.length ≤ c ∨ (dns.length ≤ 2 * c ∧ c < 10 ^ intMaxStrDigits) := by
  rw [← readMemberof_complete_iff hserver hc]
  refine ⟨And.left, fun h => ⟨h, ?_⟩⟩
  obtain ⟨fuel, hfuel⟩ := h
  exact ⟨fuel, by simp [syncUser, hdn, hfuel]⟩

/-- With chunks of two values the third and the fourth of five groups are lost. -/
example :
    let dns := ["CN=g0,DC=example", "CN=g1,DC=example", "CN=g2,DC=example", "CN=g3,DC=example",
      "CN=g4,DC=example"]
    readMemberof (rangeServer dns 2) 3 memberOf [] =
      some (some ["CN=g0,DC=example", "CN=g1,DC=example", "CN=g4,DC=example"]) := by
  decide

end FlowDiscovery.AdGroupSync
