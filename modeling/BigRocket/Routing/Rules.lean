/-
A routing list as an index, and the verdict of two such lists.
-/
import BigRocket.Lib.Ranges
import BigRocket.Routing.Matcher

namespace BigRocket.Routing

open Lib Net

inductive Action where
  | proxy
  | direct
  | block
  deriving DecidableEq, Repr

structure Rules where
  suffixes : Finset Text := ∅
  fulls : Finset Text := ∅
  v4 : List Range := []
  v6 : List (NetOf 128) := []
  others : List Matcher := []
  count : Nat := 0

namespace Rules

def add (w : Rules × List Range) (matcher : Matcher) : Rules × List Range :=
  let rules := { w.1 with count := w.1.count + 1 }
  match matcher with
  | .domainSuffix suffix => ({ rules with suffixes := insert suffix.text rules.suffixes }, w.2)
  | .domainFull full => ({ rules with fulls := insert full.text rules.fulls }, w.2)
  | .net (.v4 net) => (rules, w.2 ++ [(net.network.toNat, net.broadcast.toNat)])
  | .net (.v6 net) => ({ rules with v6 := rules.v6 ++ [net] }, w.2)
  | other => ({ rules with others := rules.others ++ [other] }, w.2)

def fromMatchers (list : List Matcher) : Rules :=
  let w := list.foldl add ({}, [])
  { w.1 with v4 := Range.merge (Range.sort w.2) }

def isEmpty (rules : Rules) : Bool := rules.count = 0

def hasDomainRules (rules : Rules) : Bool :=
  rules.suffixes ≠ ∅ || rules.fulls ≠ ∅ ||
    rules.others.any fun
      | .domainKeyword _ | .domainRegex _ => true
      | _ => false

def walkLabels (suffixes : Finset Text) : Text → Bool
  | [] => false
  | c :: rest =>
    if c = '.' then rest ∈ suffixes || walkLabels suffixes rest else walkLabels suffixes rest

def matchesName (rules : Rules) (name : Text) : Bool :=
  if rules.suffixes ≠ ∅ ∨ rules.fulls ≠ ∅ then
    let lowered := (name.trimEndMatches '.').toAsciiLowercase
    if lowered ∈ rules.fulls then true
    else if rules.suffixes ≠ ∅ then
      lowered ∈ rules.suffixes || walkLabels rules.suffixes lowered
    else false
  else false

def matchesIndex (rules : Rules) : Host → Bool
  | .domain name => rules.matchesName name
  | .ip (.v4 v4) => Range.lookup rules.v4 v4.toNat
  | .ip (.v6 v6) => rules.v6.any fun net => net.contains v6

def parseList (r : RuleReader) (raw : Text) : Rules :=
  fromMatchers
    ((raw.splitBy fun c => c = '\n' || c = ',' || c = ';').filterMap (Matcher.parse r))

end Rules

def Rules.matches (u : UnicodeData) (host : Host) (port : Nat) (rules : Rules) : Bool :=
  if rules.matchesIndex host then true
  else rules.others.any (Matcher.matches u host port)

structure RuleSet where
  block : Rules
  direct : Rules

namespace RuleSet

def parse (r : RuleReader) (block direct : Text) : RuleSet :=
  ⟨.parseList r block, .parseList r direct⟩

def hasDomainRules (set : RuleSet) : Bool := set.block.hasDomainRules || set.direct.hasDomainRules

def decide (u : UnicodeData) (host : Host) (port : Nat) (set : RuleSet) : Action :=
  if set.block.matches u host port then .block
  else if set.direct.matches u host port then .direct
  else .proxy

end RuleSet

end BigRocket.Routing
