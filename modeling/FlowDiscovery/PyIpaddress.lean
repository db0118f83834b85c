import FlowDiscovery.PyText

/-!
# Addresses and networks of the standard library

`ipaddress.ip_address` and `ipaddress.ip_network` on strings and integers, for
both versions. A raised `ValueError` is `none`. A scope identifier is checked and
dropped, since membership in a network does not read it.
-/
namespace FlowDiscovery.PyIpaddress
open PyText

inductive Version where
  | v4
  | v6
  deriving DecidableEq, Repr

def Version.maxPrefixlen : Version → ℕ
  | .v4 => 32
  | .v6 => 128

structure Address where
  version : Version
  ip : ℕ
  deriving DecidableEq, Repr

structure Network where
  version : Version
  networkAddress : ℕ
  prefixlen : ℕ
  deriving DecidableEq, Repr

def ipIntFromPrefix (version : Version) (prefixlen : ℕ) : ℕ :=
  let allOnes := 2 ^ version.maxPrefixlen - 1
  allOnes ^^^ (allOnes >>> prefixlen)

/-- `address in network`. -/
def Network.contains (network : Network) (address : Address) : Bool :=
  decide (network.version = address.version) &&
    decide (address.ip &&& ipIntFromPrefix network.version network.prefixlen =
      network.networkAddress)

/-! ## Addresses -/

def parseOctet (octet : Text) : Option ℕ :=
  if octet = [] ∨ ¬ octet.all Char.isDigit ∨ 3 < octet.length then none
  else if octet ≠ ['0'] ∧ octet.head? = some '0' then none
  else
    let value := Nat.ofDigitChars 10 octet 0
    if 255 < value then none else some value

/-- `IPv4Address._ip_int_from_string`. -/
def ipv4Int (s : Text) : Option ℕ :=
  let octets := s.splitOn '.'
  if octets.length ≠ 4 then none
  else (octets.mapM parseOctet).map fun values => values.foldl (fun acc o => acc * 256 + o) 0

def ipv4Address (s : Text) : Option ℕ := if '/' ∈ s then none else ipv4Int s

def hexValue (c : Char) : Option ℕ :=
  if c.isDigit then some (c.toNat - '0'.toNat)
  else if 'a' ≤ c ∧ c ≤ 'f' then some (c.toNat - 'a'.toNat + 10)
  else if 'A' ≤ c ∧ c ≤ 'F' then some (c.toNat - 'A'.toNat + 10)
  else none

def parseHextet (hextet : Text) : Option ℕ :=
  if hextet = [] ∨ 4 < hextet.length then none
  else (hextet.mapM hexValue).map fun digits => digits.foldl (fun acc d => acc * 16 + d) 0

/-- An IPv4-style suffix is replaced by its two hextets. -/
def expandSuffix (parts : List Text) : Option (List Text) :=
  match parts.getLast? with
  | none => some parts
  | some last =>
    if '.' ∈ last then
      (ipv4Address last).map fun value =>
        parts.dropLast ++ [Nat.toDigits 16 (value / 65536), Nat.toDigits 16 (value % 65536)]
    else some parts

/-- Positions of the empty parts, the endpoints disregarded. -/
def skipIndices (parts : List Text) : List ℕ :=
  (List.range parts.length).filter fun i =>
    1 ≤ i ∧ i + 1 < parts.length ∧ parts[i]? = some []

/-- `parts_hi`, `parts_lo` and `parts_skipped`. -/
def partCounts (parts : List Text) : Option (ℕ × ℕ × ℕ) :=
  let firstEmpty := parts.head? = some []
  let lastEmpty := parts.getLast? = some []
  match skipIndices parts with
  | [] =>
    if parts.length ≠ 8 ∨ firstEmpty ∨ lastEmpty then none else some (8, 0, 0)
  | [skip] =>
    let hi := if firstEmpty then skip - 1 else skip
    let lo := if lastEmpty then parts.length - skip - 2 else parts.length - skip - 1
    if firstEmpty ∧ hi ≠ 0 ∨ lastEmpty ∧ lo ≠ 0 ∨ 8 < hi + lo + 1 then none
    else some (hi, lo, 8 - (hi + lo))
  | _ => none

/-- `IPv6Address._ip_int_from_string`. -/
def ipv6Int (s : Text) : Option ℕ :=
  let split := s.splitOn ':'
  if split.length < 3 then none
  else do
    let parts ← expandSuffix split
    if 9 < parts.length then none
    else do
      let (hi, lo, skipped) ← partCounts parts
      let high ← (parts.take hi).mapM parseHextet
      let low ← (parts.drop (parts.length - lo)).mapM parseHextet
      return (high ++ List.replicate skipped 0 ++ low).foldl (fun acc h => acc * 65536 + h) 0

/-- Address part of a text with an optional scope identifier. -/
def splitScopeId (s : Text) : Option Text :=
  match s.splitOn '%' with
  | [address] => some address
  | [address, scope] => if scope = [] then none else some address
  | _ => none

def ipv6Address (s : Text) : Option ℕ :=
  if '/' ∈ s then none else (splitScopeId s).bind ipv6Int

/-- `ip_address(s)`. -/
def ipAddress (s : Text) : Option Address :=
  ((ipv4Address s).map (Address.mk .v4)).or ((ipv6Address s).map (Address.mk .v6))

/-! ## Networks -/

/-- Address and mask of a network; more than one slash is an error. -/
def splitOptionalNetmask (s : Text) : Option (Text × Option Text) :=
  match s.splitOn '/' with
  | [address] => some (address, none)
  | [address, mask] => some (address, some mask)
  | _ => none

def prefixFromPrefixString (version : Version) (mask : Text) : Option ℕ :=
  if mask = [] ∨ ¬ mask.all Char.isDigit ∨ intMaxStrDigits < mask.length then none
  else
    let value := Nat.ofDigitChars 10 mask 0
    if version.maxPrefixlen < value then none else some value

/-- Prefix length of a mask of leading ones. -/
def prefixFromIpInt (mask : ℕ) : Option ℕ :=
  (List.range 33).find? fun prefixlen => ipIntFromPrefix .v4 prefixlen = mask

/-- A netmask in dotted form, or else a hostmask. -/
def prefixFromIpString (mask : Text) : Option ℕ :=
  (ipv4Int mask).bind fun value =>
    (prefixFromIpInt value).or (prefixFromIpInt (value ^^^ (2 ^ 32 - 1)))

def makeNetmask (version : Version) : Option Text → Option ℕ
  | none => some version.maxPrefixlen
  | some mask =>
    match version with
    | .v4 => (prefixFromPrefixString .v4 mask).or (prefixFromIpString mask)
    | .v6 => prefixFromPrefixString .v6 mask

/-- A network from its address and prefix length. Host bits are an error in strict
mode and cleared otherwise. -/
def Network.ofAddress (version : Version) (strict : Bool) (ip prefixlen : ℕ) : Option Network :=
  let masked := ip &&& ipIntFromPrefix version prefixlen
  if strict ∧ masked ≠ ip then none else some ⟨version, masked, prefixlen⟩

def networkOf (version : Version) (address : Text → Option ℕ) (strict : Bool) (s : Text) :
    Option Network := do
  let (text, mask) ← splitOptionalNetmask s
  let ip ← address text
  let prefixlen ← makeNetmask version mask
  Network.ofAddress version strict ip prefixlen

/-- `ip_network(s, strict)`. -/
def ipNetwork (strict : Bool) (s : Text) : Option Network :=
  (networkOf .v4 ipv4Address strict s).or (networkOf .v6 ipv6Address strict s)

/-- `ip_address(n)` of an integer. -/
def ipAddressOfInt (n : ℤ) : Option Address :=
  if 0 ≤ n ∧ n < 2 ^ 32 then some ⟨.v4, n.toNat⟩
  else if 0 ≤ n ∧ n < 2 ^ 128 then some ⟨.v6, n.toNat⟩
  else none

/-- `ip_network(n)` of an integer: a network of one address. -/
def ipNetworkOfInt (n : ℤ) : Option Network :=
  if 0 ≤ n ∧ n < 2 ^ 32 then some ⟨.v4, n.toNat, 32⟩
  else if 0 ≤ n ∧ n < 2 ^ 128 then some ⟨.v6, n.toNat, 128⟩
  else none

example : ipNetwork true "10.1.0.0/255.255.0.0".toList = some ⟨.v4, 0x0A010000, 16⟩ := by
  decide +kernel
example : ipNetwork true "10.1.0.1/16".toList = none := by decide +kernel
example : ipAddress "2001:db8::1.2.3.4".toList =
    some ⟨.v6, 0x20010db8000000000000000001020304⟩ := by decide +kernel

end FlowDiscovery.PyIpaddress
