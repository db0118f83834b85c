import FlowDiscovery.PyBytes

/-!
# JSON as the standard library reads and writes it

`json.loads` on a text or on bytes and the compact `json.dumps` of strings and
integers. A string of the language is a list of code points, and an escape can put a lone
surrogate into it. A raised `ValueError` is `none`; the recursion limit is not
modelled. A float is kept as its `repr`, which determines it.
-/
namespace FlowDiscovery.PyJson
open PyText PyBytes

/-- Code points of a string; surrogates are possible. -/
abbrev PyStr := List ℕ

def ofText (s : Text) : PyStr := s.map Char.toNat

def ofString (s : String) : PyStr := ofText s.toList

inductive Json where
  | null
  | bool (b : Bool)
  | int (n : ℤ)
  | float (repr : Text)
  | str (s : PyStr)
  | arr (items : List Json)
  | obj (fields : List (PyStr × Json))
  deriving Repr, BEq

namespace Json

/-- Truth of a decoded value. -/
def truthy : Json → Bool
  | .null => false
  | .bool b => b
  | .int n => n ≠ 0
  | .float repr => repr ≠ "0.0".toList ∧ repr ≠ "-0.0".toList
  | .str s => s ≠ []
  | .arr items => !items.isEmpty
  | .obj fields => !fields.isEmpty

/-- `d.get(key)` on the fields of an object: the last one of a name counts. -/
def lookup (fields : List (PyStr × Json)) (key : PyStr) : Option Json :=
  (fields.reverse.find? fun field => field.1 = key).map Prod.snd

/-- `d.get(name)` with the name written out. -/
def member (fields : List (PyStr × Json)) (name : String) : Option Json :=
  lookup fields (ofString name)

end Json

/-- `s.replace("Z", "+00:00")`. -/
def replaceZ (s : PyStr) : PyStr := s.flatMap fun c => if c = 0x5A then ofString "+00:00" else [c]

/-! ## `loads` -/

def isBlank (c : ℕ) : Bool := c = 0x20 || c = 0x09 || c = 0x0A || c = 0x0D

def skipBlanks (s : PyStr) : PyStr := s.dropWhile isBlank

def isDigit (c : ℕ) : Bool := 0x30 ≤ c && c ≤ 0x39

def hexValue (c : ℕ) : Option ℕ :=
  if isDigit c then some (c - 0x30)
  else if 0x61 ≤ c ∧ c ≤ 0x66 then some (c - 0x61 + 10)
  else if 0x41 ≤ c ∧ c ≤ 0x46 then some (c - 0x41 + 10)
  else none

def hex4 (a b c d : ℕ) : Option ℕ := do
  let a ← hexValue a
  let b ← hexValue b
  let c ← hexValue c
  let d ← hexValue d
  return ((a * 16 + b) * 16 + c) * 16 + d

/-- The character after a backslash, except `u`. -/
def simpleEscape (c : ℕ) : Option ℕ :=
  if c = 0x22 ∨ c = 0x5C ∨ c = 0x2F then some c
  else if c = 0x62 then some 0x08
  else if c = 0x66 then some 0x0C
  else if c = 0x6E then some 0x0A
  else if c = 0x72 then some 0x0D
  else if c = 0x74 then some 0x09
  else none

/-- A code point of a string literal; only those written `\uXXXX` can be joined. -/
inductive CodeUnit where
  | plain (c : ℕ)
  | escaped (c : ℕ)
  deriving DecidableEq, Repr

/-- The rest of a string literal after its opening quote. -/
def scanUnits : PyStr → Option (List CodeUnit × PyStr)
  | [] => none
  | 0x22 :: rest => some ([], rest)
  | 0x5C :: 0x75 :: a :: b :: c :: d :: rest => do
    let n ← hex4 a b c d
    let (units, rest) ← scanUnits rest
    return (.escaped n :: units, rest)
  | 0x5C :: e :: rest => do
    let c ← simpleEscape e
    let (units, rest) ← scanUnits rest
    return (.plain c :: units, rest)
  | c :: rest =>
    -- control characters have to be escaped
    if c < 0x20 then none
    else do
      let (units, rest) ← scanUnits rest
      return (.plain c :: units, rest)

def isHighSurrogate (c : ℕ) : Bool := 0xD800 ≤ c && c ≤ 0xDBFF

def isLowSurrogate (c : ℕ) : Bool := 0xDC00 ≤ c && c ≤ 0xDFFF

def joinPairs : List CodeUnit → PyStr
  | [] => []
  | .plain c :: rest => c :: joinPairs rest
  | [.escaped c] => [c]
  | .escaped c :: .plain d :: rest => c :: d :: joinPairs rest
  | .escaped c :: .escaped d :: rest =>
    if isHighSurrogate c ∧ isLowSurrogate d then
      (0x10000 + (c - 0xD800) * 0x400 + (d - 0xDC00)) :: joinPairs rest
    else c :: joinPairs (.escaped d :: rest)

def scanString (s : PyStr) : Option (PyStr × PyStr) :=
  (scanUnits s).map fun (units, rest) => (joinPairs units, rest)

def digitsValue (digits : PyStr) : ℕ := digits.foldl (fun acc c => 10 * acc + (c - 0x30)) 0

/-- Digits before the point: a zero stands alone. -/
def scanInteger : PyStr → PyStr × PyStr
  | 0x30 :: rest => ([0x30], rest)
  | s => s.span isDigit

/-- A point with at least one digit after it. -/
def scanFraction : PyStr → PyStr × PyStr
  | 0x2E :: rest =>
    let (digits, rest') := rest.span isDigit
    if digits = [] then ([], 0x2E :: rest) else (0x2E :: digits, rest')
  | s => ([], s)

/-- An exponent with at least one digit. -/
def scanExponent : PyStr → PyStr × PyStr
  | [] => ([], [])
  | e :: s =>
    if e = 0x65 ∨ e = 0x45 then
      let (sign, s') :=
        match s with
        | 0x2D :: rest => ([0x2D], rest)
        | 0x2B :: rest => ([0x2B], rest)
        | _ => ([], s)
      let (digits, rest) := s'.span isDigit
      if digits = [] then ([], e :: s) else (e :: sign ++ digits, rest)
    else ([], e :: s)

section

/- `repr(float(s))` of a number literal. -/
variable (float : Text → Text)

/-- A number after its sign. -/
def scanUnsigned (negative : Bool) (s : PyStr) : Option (Json × PyStr) :=
  let (digits, s1) := scanInteger s
  let (fraction, s2) := scanFraction s1
  let (exponent, s3) := scanExponent s2
  if digits = [] then none
  else if fraction = [] ∧ exponent = [] then
    if intMaxStrDigits < digits.length then none
    else some (.int (if negative then -(digitsValue digits : ℤ) else digitsValue digits), s3)
  else
    let literal := (if negative then [0x2D] else []) ++ digits ++ fraction ++ exponent
    some (.float (float (literal.map Char.ofNat)), s3)

def scanNumber : PyStr → Option (Json × PyStr)
  | 0x2D :: rest => scanUnsigned float true rest
  | s => scanUnsigned float false s

/-- The literal names, in the order in which they are tried. -/
def words : List (PyStr × Json) :=
  [(ofString "null", .null), (ofString "true", .bool true), (ofString "false", .bool false),
    (ofString "NaN", .float "nan".toList), (ofString "Infinity", .float "inf".toList),
    (ofString "-Infinity", .float "-inf".toList)]

/-- A name or a number. -/
def scanAtom (s : PyStr) : Option (Json × PyStr) :=
  match words.find? fun word => word.1.isPrefixOf s with
  | some word => some (word.2, s.drop word.1.length)
  | none => scanNumber float s

mutual

def scanValue : ℕ → PyStr → Option (Json × PyStr)
  | 0, _ => none
  | fuel + 1, s =>
    match s with
    | 0x22 :: rest => (scanString rest).map fun (value, rest) => (.str value, rest)
    | 0x7B :: rest =>
      match skipBlanks rest with
      | 0x7D :: rest => some (.obj [], rest)
      | rest => (scanMembers fuel rest).map fun (fields, rest) => (.obj fields, rest)
    | 0x5B :: rest =>
      match skipBlanks rest with
      | 0x5D :: rest => some (.arr [], rest)
      | rest => (scanElements fuel rest).map fun (items, rest) => (.arr items, rest)
    | _ => scanAtom float s

/-- Members of an object from a key on, up to the closing brace. -/
def scanMembers : ℕ → PyStr → Option (List (PyStr × Json) × PyStr)
  | 0, _ => none
  | fuel + 1, s =>
    match s with
    | 0x22 :: rest => do
      let (key, rest) ← scanString rest
      match skipBlanks rest with
      | 0x3A :: rest => do
        let (value, rest) ← scanValue fuel (skipBlanks rest)
        match skipBlanks rest with
        | 0x7D :: rest => some ([(key, value)], rest)
        | 0x2C :: rest => do
          let (fields, rest) ← scanMembers fuel (skipBlanks rest)
          return ((key, value) :: fields, rest)
        | _ => none
      | _ => none
    | _ => none

/-- Elements of an array, up to the closing bracket. -/
def scanElements : ℕ → PyStr → Option (List Json × PyStr)
  | 0, _ => none
  | fuel + 1, s => do
    let (value, rest) ← scanValue fuel s
    match skipBlanks rest with
    | 0x5D :: rest => some ([value], rest)
    | 0x2C :: rest => do
      let (items, rest) ← scanElements fuel (skipBlanks rest)
      return (value :: items, rest)
    | _ => none

end

/-- `json.loads(s)` of a string. No nesting is deeper than the text is long. -/
def loads (s : PyStr) : Option Json :=
  if s.head? = some 0xFEFF then none
  else
    match scanValue float (2 * s.length + 2) (skipBlanks s) with
    | some (value, rest) => if skipBlanks rest = [] then some value else none
    | none => none

end

/-! ## Bytes -/

inductive Encoding where
  | utf8
  | utf16 (bigEndian : Bool)
  | utf32 (bigEndian : Bool)
  deriving DecidableEq, Repr

/-- `json.detect_encoding`, with the length of the byte order mark. -/
def detectEncoding (b : Bytes) : Encoding × ℕ :=
  if [0x00, 0x00, 0xFE, 0xFF].isPrefixOf b then (.utf32 true, 4)
  else if [0xFF, 0xFE, 0x00, 0x00].isPrefixOf b then (.utf32 false, 4)
  else if [0xFE, 0xFF].isPrefixOf b then (.utf16 true, 2)
  else if [0xFF, 0xFE].isPrefixOf b then (.utf16 false, 2)
  else if [0xEF, 0xBB, 0xBF].isPrefixOf b then (.utf8, 3)
  else
    match b with
    | b0 :: b1 :: b2 :: b3 :: _ =>
      if b0 = 0 then (if b1 = 0 then .utf32 true else .utf16 true, 0)
      else if b1 = 0 then (if b2 = 0 ∧ b3 = 0 then .utf32 false else .utf16 false, 0)
      else (.utf8, 0)
    | [b0, b1] =>
      if b0 = 0 then (.utf16 true, 0) else if b1 = 0 then (.utf16 false, 0) else (.utf8, 0)
    | _ => (.utf8, 0)

def continuation (b : UInt8) : Option ℕ :=
  if 0x80 ≤ b.toNat ∧ b.toNat ≤ 0xBF then some (b.toNat - 0x80) else none

/-- UTF-8 with surrogates let through. -/
def decodeUtf8 : Bytes → Option PyStr
  | [] => some []
  | a :: rest =>
    if a.toNat < 0x80 then (decodeUtf8 rest).map (a.toNat :: ·)
    else
      match rest with
      | [] => none
      | b :: rest =>
        if a.toNat < 0xE0 then do
          let x ← continuation b
          let s ← decodeUtf8 rest
          if 0xC2 ≤ a.toNat then some (((a.toNat - 0xC0) * 64 + x) :: s) else none
        else
          match rest with
          | [] => none
          | c :: rest =>
            if a.toNat < 0xF0 then do
              let x ← continuation b
              let y ← continuation c
              let s ← decodeUtf8 rest
              let n := ((a.toNat - 0xE0) * 64 + x) * 64 + y
              if 0x800 ≤ n then some (n :: s) else none
            else
              match rest with
              | [] => none
              | d :: rest => do
                let x ← continuation b
                let y ← continuation c
                let z ← continuation d
                let s ← decodeUtf8 rest
                let n := (((a.toNat - 0xF0) * 64 + x) * 64 + y) * 64 + z
                if 0x10000 ≤ n ∧ n < 0x110000 then some (n :: s) else none

def units16 (bigEndian : Bool) : Bytes → Option PyStr
  | [] => some []
  | [_] => none
  | a :: b :: rest =>
    let n := if bigEndian then a.toNat * 256 + b.toNat else b.toNat * 256 + a.toNat
    (units16 bigEndian rest).map (n :: ·)

def units32 (bigEndian : Bool) : Bytes → Option PyStr
  | [] => some []
  | a :: b :: c :: d :: rest =>
    let octets := if bigEndian then [a, b, c, d] else [d, c, b, a]
    let n := octets.foldl (fun acc x => acc * 256 + x.toNat) 0
    if n < 0x110000 then (units32 bigEndian rest).map (n :: ·) else none
  | _ => none

/-- `b.decode(detect_encoding(b), "surrogatepass")`. -/
def decodeBytes (b : Bytes) : Option PyStr :=
  let (encoding, mark) := detectEncoding b
  match encoding with
  | .utf8 => decodeUtf8 (b.drop mark)
  | .utf16 bigEndian =>
    (units16 bigEndian (b.drop mark)).map fun units => joinPairs (units.map CodeUnit.escaped)
  | .utf32 bigEndian => units32 bigEndian (b.drop mark)

/-- `json.loads(b)` of bytes. -/
def loadsBytes (float : Text → Text) (b : Bytes) : Option Json :=
  (decodeBytes b).bind (loads float)

/-! ## `dumps` -/

def hexDigit (d : ℕ) : ℕ := if d < 10 then 0x30 + d else 0x61 + (d - 10)

def uEscape (n : ℕ) : PyStr :=
  [0x5C, 0x75, hexDigit (n / 4096), hexDigit (n / 256 % 16), hexDigit (n / 16 % 16),
    hexDigit (n % 16)]

/-- One code point of a string with `ensure_ascii`. -/
def escape (c : ℕ) : PyStr :=
  if c = 0x22 then [0x5C, 0x22]
  else if c = 0x5C then [0x5C, 0x5C]
  else if c = 0x0A then [0x5C, 0x6E]
  else if c = 0x0D then [0x5C, 0x72]
  else if c = 0x09 then [0x5C, 0x74]
  else if c = 0x0C then [0x5C, 0x66]
  else if c = 0x08 then [0x5C, 0x62]
  else if 0x20 ≤ c ∧ c ≤ 0x7E then [c]
  else if c < 0x10000 then uEscape c
  else uEscape (0xD800 + (c - 0x10000) / 0x400) ++ uEscape (0xDC00 + (c - 0x10000) % 0x400)

def dumpsString (s : PyStr) : PyStr := 0x22 :: s.flatMap escape ++ [0x22]

/-- `none` is the `ValueError` of an integer with too many digits. -/
def dumpsInt (n : ℤ) : Option PyStr := (str? n).map ofText

/-- Members with their rendered values, under the separators `,` and `:`. -/
def dumpsMembers : List (PyStr × PyStr) → PyStr
  | [] => []
  | [(key, value)] => dumpsString key ++ 0x3A :: value
  | (key, value) :: rest => dumpsString key ++ 0x3A :: value ++ 0x2C :: dumpsMembers rest

def dumpsObject (members : List (PyStr × PyStr)) : PyStr := 0x7B :: dumpsMembers members ++ [0x7D]

/-- Bytes of an ASCII text. -/
def encodeAscii (s : PyStr) : Bytes := s.map fun c => c.toUInt8

end FlowDiscovery.PyJson
