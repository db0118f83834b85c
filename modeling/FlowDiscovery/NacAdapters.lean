import FlowDiscovery.IdentityResolution

/-!
# Session parsers of the NAC adapters

`parse` of the Cisco ISE and of the Aruba ClearPass adapter, on the decoded line:
decoding replaces what is not UTF-8 and never fails. The regular expressions are
written as the only match they can have at a position; each repeated class is
followed by a character outside it, so backtracking finds nothing else.

An accepted start is meant to bind its address. It does so exactly when the
session timeout in the line is positive and its end is still a `datetime`: the
index takes a timeout of zero for a stop and refuses a negative one.
-/
namespace FlowDiscovery.NacAdapters
open PyText PyTime BindingInterval IdentityIndex

/-! ## Regular expressions -/

/-- `finditer`: after a match of `n` characters the search goes on behind it. -/
def findAll {β : Type*} (matchAt : Text → Option (β × ℕ)) : ℕ → Text → List β
  | _, [] => []
  | skip + 1, _ :: cs => findAll matchAt skip cs
  | 0, c :: cs =>
    match matchAt (c :: cs) with
    | none => findAll matchAt 0 cs
    | some (b, n) => b :: findAll matchAt (n - 1) cs

/-- `search`: the first position at which the expression matches. -/
def searchFirst {β : Type*} (matchAt : Text → Option β) : Text → Option β
  | [] => matchAt []
  | c :: cs => (matchAt (c :: cs)).or (searchFirst matchAt cs)

def isAsciiLetter (c : Char) : Bool := ('A' ≤ c && c ≤ 'Z') || ('a' ≤ c && c ≤ 'z')

def isAsciiDigit (c : Char) : Bool := '0' ≤ c && c ≤ '9'

/-- Pairs of a scan as a dictionary; the last value of a key wins. -/
def toDict (pairs : List (Text × Text)) : Dict String String :=
  pairs.foldl (fun kv p => kv.set (String.ofList p.1) (String.ofList p.2)) .empty

/-- Twelve hours. -/
def defaultTtl : ℤ := 43200

/-! ## Cisco ISE -/

namespace CiscoIse

def name : String := "cisco_ise"

def isKeyChar (c : Char) : Bool := isAsciiLetter c || isAsciiDigit c || c == '-'

/-- `_KV` at the start of a text: key, stripped value and length of the match.
The value reaches up to the next comma and may be blank but not empty. -/
def matchKv : Text → Option ((Text × Text) × ℕ)
  | [] => none
  | c :: cs =>
    if isAsciiLetter c then
      match (cs.dropWhile isKeyChar).dropWhile isSpace with
      | '=' :: body =>
        let value := body.takeWhile (· ≠ ',')
        if value = [] then none
        else some ((c :: cs.takeWhile isKeyChar, strip value),
          (c :: cs).length - (body.dropWhile (· ≠ ',')).length)
      | _ => none
    else none

def kv (text : Text) : Dict String String := toDict (findAll matchKv 0 text)

/-- `int(kv.get("Session-Timeout", str(DEFAULT_TTL)))`. -/
def timeout? (kv : Dict String String) : Option ℤ :=
  match kv.get? "Session-Timeout" with
  | some field => int? field.toList
  | none => some defaultTtl

/-- `parse`; `none` also stands for the exceptions it catches. -/
def parse (now : Instant) (text : Text) : Option IdentityEvent :=
  if ¬ isInfix "CISE_RADIUS_Accounting".toList text then none
  else
    let kv := kv text
    let status := kv.getD "Acct-Status-Type" ""
    match kv.get? "Framed-IP-Address", kv.get? "UserName" with
    | some ip, some user =>
      if ip = "" ∨ user = "" ∨ (status ≠ "Start" ∧ status ≠ "Stop") then none
      else
        (if status = "Stop" then some 0 else timeout? kv).map fun ttl =>
          { ts := now
            srcIp := ip
            userUpn := user
            source := name
            eventType := if status = "Stop" then .nacAuthStop else .nacAuth
            confidence := 95
            ttlSeconds := ttl
            mac := kv.get? "Calling-Station-ID"
            rawId := kv.get? "Acct-Session-Id" }
    | _, _ => none

end CiscoIse

/-! ## Aruba ClearPass -/

namespace ArubaClearpass

def name : String := "aruba_clearpass"

/-- `_CEF_FIELDS` at the start of a text. -/
def matchField (text : Text) : Option ((Text × Text) × ℕ) :=
  let isKeyChar := fun c => isAsciiLetter c || isAsciiDigit c
  let key := text.takeWhile isKeyChar
  match text.dropWhile isKeyChar with
  | '=' :: body =>
    let value := body.takeWhile fun c => !isSpace c
    if key = [] ∨ value = [] then none
    else some ((key, value), key.length + 1 + value.length)
  | _ => none

/-- A non-empty run of a class and the text behind the pipe that ends it. -/
def runThenPipe (p : Char → Bool) (text : Text) : Option (Text × Text) :=
  match text.takeWhile p, text.dropWhile p with
  | run@(_ :: _), '|' :: rest => some (run, rest)
  | _, _ => none

def dropLiteral (lit text : Text) : Option Text :=
  if lit.isPrefixOf text then some (text.drop lit.length) else none

/-- `_HEADER` at the start of a text: event name and extension. -/
def matchHeader (text : Text) : Option (Text × Text) := do
  let afterVersion ← dropLiteral "CEF:0|".toList text
  let (_, afterVendor) ← runThenPipe (· ≠ '|') afterVersion
  let afterProduct ← dropLiteral "ClearPass|".toList afterVendor
  let (_, afterRelease) ← runThenPipe (· ≠ '|') afterProduct
  let (_, afterSig) ← runThenPipe (fun c => (decimal? c).isSome) afterRelease
  let (name, afterName) ← runThenPipe (· ≠ '|') afterSig
  let (_, afterSeverity) ← runThenPipe (fun c => (decimal? c).isSome) afterName
  return (name, afterSeverity.takeWhile (· ≠ '\n'))

/-- `int(kv["cs2"])` if that field is labelled as the session timeout. -/
def timeout? (kv : Dict String String) : Option ℤ :=
  match kv.get? "cs2Label", kv.get? "cs2" with
  | some "Session-Timeout", some field => int? field.toList
  | _, _ => some defaultTtl

def fields (ext : Text) : Dict String String := toDict (findAll matchField 0 ext)

/-- `parse`; `none` also stands for the exceptions it catches. The timeout is
converted before the event is known to be a stop. -/
def parse (now : Instant) (text : Text) : Option IdentityEvent := do
  let (name, ext) ← searchFirst matchHeader text
  let kv := fields ext
  let ttl ← timeout? kv
  let isStop := isInfix "Stop".toList name
  let srcIp ← kv.get? "src"
  let userUpn ← kv.get? "suser"
  return {
    ts := now
    srcIp
    userUpn
    source := ArubaClearpass.name
    eventType := if isStop then .nacAuthStop else .nacAuth
    confidence := 95
    ttlSeconds := if isStop then 0 else ttl
    mac := kv.get? "smac"
    rawId := kv.get? "externalId" }

end ArubaClearpass

/-! ## Starts and the index -/

inductive Nac where
  | ciscoIse
  | arubaClearpass
  deriving DecidableEq, Repr

namespace Nac

def parse : Nac → Instant → Text → Option IdentityEvent
  | ciscoIse => CiscoIse.parse
  | arubaClearpass => ArubaClearpass.parse

/-- Session timeout that a line asks for, in seconds. -/
def timeout? : Nac → Text → Option ℤ
  | ciscoIse, text => CiscoIse.timeout? (CiscoIse.kv text)
  | arubaClearpass, text =>
    (searchFirst ArubaClearpass.matchHeader text).bind fun header =>
      ArubaClearpass.timeout? (ArubaClearpass.fields header.2)

/-- An accepted start carries the timeout of its line from the current time on. -/
theorem parse_start {adapter : Nac} {now : Instant} {line : Text} {ev : IdentityEvent}
    (hparse : adapter.parse now line = some ev) (hstart : ev.eventType = .nacAuth) :
    ev.ts = now ∧ adapter.timeout? line = some ev.ttlSeconds := by
  cases adapter with
  | ciscoIse =>
    by_cases hstop : (CiscoIse.kv line).getD "Acct-Status-Type" "" = "Stop"
    · simp only [parse, CiscoIse.parse, hstop, if_true] at hparse
      split_ifs at hparse
      split at hparse
      · split_ifs at hparse
        obtain ⟨_, _, rfl⟩ := Option.map_eq_some_iff.mp hparse
        cases hstart
      · cases hparse
    · simp only [parse, CiscoIse.parse, hstop, if_false] at hparse
      split_ifs at hparse
      split at hparse
      · split_ifs at hparse
        obtain ⟨ttl, httl, rfl⟩ := Option.map_eq_some_iff.mp hparse
        exact ⟨rfl, httl⟩
      · cases hparse
  | arubaClearpass =>
    simp only [parse, ArubaClearpass.parse, Option.pure_def, Option.bind_eq_bind,
      Option.bind_eq_some_iff, Option.some.injEq] at hparse
    obtain ⟨header, hheader, ttl, httl, ip, _, user, _, rfl⟩ := hparse
    cases hs : isInfix "Stop".toList header.1 with
    | true =>
      simp only [hs, if_true] at hstart
      cases hstart
    | false =>
      refine ⟨rfl, ?_⟩
      rw [timeout?, hheader, Option.bind_some, httl]
      simp

end Nac

/-- Inserting the event into any index succeeds, removes no binding, and leaves
its address bound at its time. -/
structure StartBinds (ev : IdentityEvent) : Prop where
  succeeds : ∀ idx : IdentityIndex, (idx.insert ev.toIndexEvent).2 = none
  keeps : ∀ (idx : IdentityIndex) (ip : String),
    idx.tree ip ⊆ (idx.insert ev.toIndexEvent).1.tree ip
  binds : ∀ (idx : IdentityIndex) (order : SetOrder BindingInterval),
    ((idx.insert ev.toIndexEvent).1.resolve order ev.srcIp ev.ts).1.isSome

theorem startBinds_iff_interval (ev : IdentityEvent) :
    StartBinds ev ↔ (startInterval? ev.toIndexEvent).isSome := by
  constructor
  · intro h
    by_contra hnone
    rw [Option.not_isSome_iff_eq_none] at hnone
    have htree : (fresh.insert ev.toIndexEvent).1.tree ev.srcIp = ∅ := by
      rw [insert_tree, applyEvent, tree_fresh, hnone]
      cases ev.toIndexEvent.userUpn <;> simp
    have hbound := h.binds fresh (.choice _)
    rw [resolve_answer, htree, Finset.filter_empty, winner_empty] at hbound
    simp at hbound
  · intro h
    obtain ⟨iv, hiv⟩ := Option.isSome_iff_exists.mp h
    obtain ⟨hstop, _, hpos, hbegin, hend, _⟩ := (startInterval?_eq_some_iff _ iv).mp hiv
    have hinsert := fun (idx : IdentityIndex) ip => insert_start idx ev.toIndexEvent hstop ip
    refine ⟨fun idx => (hinsert idx ev.srcIp).2.mpr h, fun idx ip => ?_, fun idx order => ?_⟩
    · rw [(hinsert idx ip).1]
      exact Finset.subset_union_right
    · have hmem : iv ∈ (idx.insert ev.toIndexEvent).1.tree ev.srcIp := by
        rw [(hinsert idx ev.srcIp).1, hiv]
        simp [IdentityEvent.toIndexEvent]
      have hcov : Covers ev.ts iv := by
        refine ⟨hbegin.le, ?_⟩
        rw [hend]
        exact lt_add_of_pos_right _ (mul_pos hpos (by decide))
      rw [Option.isSome_iff_ne_none]
      intro hr
      exact (resolve_answers_tree _ order ev.srcIp ev.ts).none_iff.mp hr ⟨iv, hmem, hcov⟩

/-- An accepted session start binds its address and destroys nothing if and only
if the timeout in its line is positive and ends within the years of `datetime`. -/
theorem startBinds_iff_timeout (adapter : Nac) (now : Instant) (line : Text) (ev : IdentityEvent)
    (hparse : adapter.parse now line = some ev) (hstart : ev.eventType = .nacAuth) :
    StartBinds ev ↔
      ∃ n, adapter.timeout? line = some n ∧ 0 < n ∧ (addSeconds? now n).isSome := by
  obtain ⟨rfl, htimeout⟩ := Nac.parse_start hparse hstart
  rw [startBinds_iff_interval, Option.isSome_iff_exists]
  constructor
  · rintro ⟨iv, hiv⟩
    obtain ⟨_, hrange, hpos, _⟩ := (startInterval?_eq_some_iff _ iv).mp hiv
    exact ⟨ev.ttlSeconds, htimeout, hpos, hrange⟩
  · rintro ⟨n, hn, hpos, hrange⟩
    obtain rfl : ev.ttlSeconds = n := Option.some.inj (htimeout.symm.trans hn)
    have hstop : ¬ IsStop ev.toIndexEvent := by
      rintro (htype | hzero)
      · exact absurd (hstart.symm.trans htype) (by simp)
      · exact hpos.ne' hzero
    have hlt : ev.ts < ev.ts + seconds ev.ttlSeconds :=
      lt_add_of_pos_right _ (mul_pos hpos (by decide))
    exact ⟨intervalOf ev.toIndexEvent ev.userUpn _ rfl hlt,
      (startInterval?_eq_some_iff _ _).mpr ⟨hstop, hrange, hpos, rfl, rfl, rfl, rfl, rfl⟩⟩

/-- A start record of one host with the given session timeout. -/
def startLine (timeout : String) : Text :=
  "CISE_RADIUS_Accounting UserName=alice, Framed-IP-Address=10.0.12.34, ".toList ++
    "Acct-Status-Type=Start, Session-Timeout=".toList ++ timeout.toList

/-- The event of such a record at 2026-04-22T14:12:00Z. -/
def startEvent (ttl : ℤ) : IdentityEvent where
  ts := seconds 1776867120
  srcIp := "10.0.12.34"
  userUpn := "alice"
  source := "cisco_ise"
  eventType := .nacAuth
  confidence := 95
  ttlSeconds := ttl
  mac := none
  rawId := none

/-- A timeout of one hour binds. -/
theorem startBinds_iff_timeout_hour :
    Nac.ciscoIse.parse (seconds 1776867120) (startLine "3600") = some (startEvent 3600) ∧
      StartBinds (startEvent 3600) := by
  have hparse : Nac.ciscoIse.parse (seconds 1776867120) (startLine "3600") =
      some (startEvent 3600) := by decide +kernel
  refine ⟨hparse, (startBinds_iff_timeout .ciscoIse _ _ _ hparse rfl).mpr ⟨3600, ?_⟩⟩
  exact ⟨(Nac.parse_start hparse rfl).2, by decide, by decide⟩

/-- A start with timeout zero is accepted, removes the session that the same user
already has on the host, and leaves the host unbound. -/
theorem zeroTimeout_start_unbinds :
    let before := (fresh.insert (startEvent 3600).toIndexEvent).1
    let after := (before.insert (startEvent 0).toIndexEvent).1
    Nac.ciscoIse.parse (seconds 1776867120) (startLine "0") = some (startEvent 0) ∧
      (startEvent 0).eventType = .nacAuth ∧
      before.tree "10.0.12.34" ≠ ∅ ∧ after.tree "10.0.12.34" = ∅ ∧
      (after.resolve (.choice _) "10.0.12.34" (seconds 1776867120)).1 = none ∧
      ¬ StartBinds (startEvent 0) := by
  intro before after
  have hempty : after.tree "10.0.12.34" = ∅ := by decide
  refine ⟨by decide +kernel, rfl, by decide, hempty, ?_, fun h => ?_⟩
  · rw [resolve_answer, hempty, Finset.filter_empty, winner_empty, Option.map_none]
  · exact absurd ((startBinds_iff_interval _).mp h) (by decide)

end FlowDiscovery.NacAdapters
