/-
One entry of a routing list: how it is read and what it matches. `RuleReader`
holds what the module takes from other crates.
-/
import BigRocket.Net.AddressText
import BigRocket.Net.IpNet

namespace BigRocket.Routing

open Lib Net

inductive Host where
  | domain (name : Text)
  | ip (ip : IpAddr)
  deriving DecidableEq, Repr

structure DomainText where
  text : Text
  noUpper : text.NoUpper
  nonempty : text ≠ []

/-- A compiled regular expression is the set of texts it finds a match in. -/
abbrev Regex : Type := Text → Bool

inductive Matcher where
  | domainSuffix (suffix : DomainText)
  | domainFull (full : DomainText)
  | domainKeyword (needle : Text)
  | domainRegex (pattern : Regex)
  | net (range : IpNet)
  | ports (lo hi : Nat)
  | privateHosts

structure RuleReader where
  unicode : UnicodeData
  regex : Text → Option Regex
  ipNet : Text → Option IpNet

/-! ## Reading an entry -/

def normalizeDomain (u : UnicodeData) (value : Text) : Option DomainText :=
  let cleaned := u.toLowercase
    (((value.trim.trimStartMatches '*').trimStartMatches '.').trimEndMatches '.')
  if h : cleaned = [] then none else some ⟨cleaned, u.noUpper_toLowercase _, h⟩

def parseNet (r : RuleReader) (value : Text) : Option IpNet :=
  match r.ipNet value.trim with
  | some net => some net
  | none => (parseIpAddr value.trim).map .ofIpAddr

def parsePorts (value : Text) : Option (Nat × Nat) :=
  match value.trim.splitOnce '-' with
  | some (lo, hi) => do
      let lo ← lo.trim.parseU16
      let hi ← hi.trim.parseU16
      return if hi < lo then (hi, lo) else (lo, hi)
  | none => value.trim.parseU16.map fun single => (single, single)

/-- The kind in front of the first colon, unless that has a dot or a slash. -/
def splitKind (u : UnicodeData) (entry : Text) : Text × Text :=
  match entry.splitOnce ':' with
  | some (kind, value) =>
    if '.' ∉ kind ∧ '/' ∉ kind then (u.toLowercase kind.trim, value.trim) else ([], entry)
  | none => ([], entry)

def Matcher.parse (r : RuleReader) (raw : Text) : Option Matcher :=
  let entry := raw.trim
  if entry = [] ∨ entry.head? = some '#' then none
  else
    let (kind, value) := splitKind r.unicode entry
    if kind = "domain".toList ∨ kind = "suffix".toList then
      (normalizeDomain r.unicode value).map .domainSuffix
    else if kind = "full".toList ∨ kind = "exact".toList then
      (normalizeDomain r.unicode value).map .domainFull
    else if kind = "keyword".toList then
      let needle := r.unicode.toLowercase value.trim
      if needle = [] then none else some (.domainKeyword needle)
    else if kind = "regexp".toList ∨ kind = "regex".toList then
      (r.regex value).map .domainRegex
    else if kind = "ip".toList ∨ kind = "cidr".toList then
      (parseNet r value).map .net
    else if kind = "port".toList then
      (parsePorts value).map fun (lo, hi) => .ports lo hi
    else if kind = "geoip".toList ∨ kind = "geosite".toList then
      if value.eqIgnoreAsciiCase "private".toList then some .privateHosts else none
    else if kind = [] then
      if value.eqIgnoreAsciiCase "private".toList then some .privateHosts
      else
        match parseNet r value with
        | some found => some (.net found)
        | none => (normalizeDomain r.unicode value).map .domainSuffix
    else none

/-! ## Matching -/

def inBlock {w : Nat} (ip : BitVec w) (len : Nat) (first : BitVec w) : Bool :=
  (ip >>> (w - len)) = (first >>> (w - len))

def isPrivate : IpAddr → Bool
  | .v4 v4 =>
    inBlock v4 8 0x0a000000 || inBlock v4 12 0xac100000 || inBlock v4 16 0xc0a80000 ||
      inBlock v4 8 0x7f000000 || inBlock v4 16 0xa9fe0000 || v4 = 0xffffffff ||
      inBlock v4 24 0xc0000200 || inBlock v4 24 0xc6336400 || inBlock v4 24 0xcb007100 ||
      v4 = 0 || inBlock v4 10 0x64400000
  | .v6 v6 =>
    v6 = 1 || v6 = 0 || inBlock v6 7 (0xfc00 <<< 112) || inBlock v6 10 (0xfe80 <<< 112)

def onDomain (p : Text → Bool) : Host → Bool
  | .domain name => p name
  | .ip _ => false

def Matcher.matches (u : UnicodeData) (host : Host) (port : Nat) : Matcher → Bool
  | .ports lo hi => port ≥ lo && port ≤ hi
  | .privateHosts =>
    match host with
    | .ip ip => isPrivate ip
    | .domain name => name.eqIgnoreAsciiCase "localhost".toList
  | .net range =>
    match host with
    | .ip ip => range.contains ip
    | .domain _ => false
  | .domainSuffix suffix =>
    onDomain (fun name =>
      u.toLowercase name = suffix.text ∨ '.' :: suffix.text <:+ u.toLowercase name) host
  | .domainFull full => onDomain (fun name => name.eqIgnoreAsciiCase full.text) host
  | .domainKeyword needle => onDomain (fun name => needle <:+: u.toLowercase name) host
  | .domainRegex pattern => onDomain pattern host

end BigRocket.Routing
