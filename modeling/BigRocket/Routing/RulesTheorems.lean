/-
The index of a routing list means what the list means.
-/
import BigRocket.Routing.Rules

namespace BigRocket.Routing

open Lib Net List

/-! ## The places of the entries -/

namespace Matcher

def suffixText : Matcher → Option Text
  | .domainSuffix suffix => some suffix.text
  | _ => none

def fullText : Matcher → Option Text
  | .domainFull full => some full.text
  | _ => none

def range : Matcher → Option Range
  | .net (.v4 block) => some (block.network.toNat, block.broadcast.toNat)
  | _ => none

def net6 : Matcher → Option (NetOf 128)
  | .net (.v6 block) => some block
  | _ => none

def other : Matcher → Option Matcher
  | .domainSuffix _ | .domainFull _ | .net _ => none
  | m => some m

end Matcher

namespace Rules

structure Collects (list : List Matcher) (w w' : Rules × List Range) : Prop where
  suffixes : ∀ s, s ∈ w'.1.suffixes ↔ s ∈ list.filterMap Matcher.suffixText ∨ s ∈ w.1.suffixes
  fulls : ∀ s, s ∈ w'.1.fulls ↔ s ∈ list.filterMap Matcher.fullText ∨ s ∈ w.1.fulls
  ranges : w'.2 = w.2 ++ list.filterMap Matcher.range
  v6 : w'.1.v6 = w.1.v6 ++ list.filterMap Matcher.net6
  others : w'.1.others = w.1.others ++ list.filterMap Matcher.other

theorem collects_add (w : Rules × List Range) (m : Matcher) : Collects [m] w (add w m) := by
  rcases m with suffix | full | needle | pattern | (block | block) | ⟨lo, hi⟩ | _ <;>
  · constructor <;>
      simp [add, Matcher.suffixText, Matcher.fullText, Matcher.range, Matcher.net6, Matcher.other]

theorem Collects.trans {front back : List Matcher} {w w' w'' : Rules × List Range}
    (hfront : Collects front w w') (hback : Collects back w' w'') :
    Collects (front ++ back) w w'' where
  suffixes s := by
    rw [hback.suffixes, hfront.suffixes, filterMap_append, mem_append, or_left_comm,
      or_assoc]
  fulls s := by
    rw [hback.fulls, hfront.fulls, filterMap_append, mem_append, or_left_comm, or_assoc]
  ranges := by simp [hback.ranges, hfront.ranges]
  v6 := by simp [hback.v6, hfront.v6]
  others := by simp [hback.others, hfront.others]

theorem foldl_add (list : List Matcher) (w : Rules × List Range) :
    Collects list w (list.foldl add w) := by
  induction list generalizing w with
  | nil => constructor <;> simp
  | cons m rest ih => exact (collects_add w m).trans (ih (add w m))

variable {list : List Matcher}

theorem mem_suffixes {s : Text} :
    s ∈ (fromMatchers list).suffixes ↔ ∃ m ∈ list, m.suffixText = some s := by
  simp [fromMatchers, (foldl_add list ({}, [])).suffixes]

theorem mem_fulls {s : Text} :
    s ∈ (fromMatchers list).fulls ↔ ∃ m ∈ list, m.fullText = some s := by
  simp [fromMatchers, (foldl_add list ({}, [])).fulls]

theorem mem_v6 {net : NetOf 128} :
    net ∈ (fromMatchers list).v6 ↔ ∃ m ∈ list, m.net6 = some net := by
  simp [fromMatchers, (foldl_add list ({}, [])).v6]

theorem mem_others {m : Matcher} :
    m ∈ (fromMatchers list).others ↔ ∃ m' ∈ list, m'.other = some m := by
  simp [fromMatchers, (foldl_add list ({}, [])).others]

theorem v4_eq :
    (fromMatchers list).v4 = Range.merge (Range.sort (list.filterMap Matcher.range)) := by
  simp [fromMatchers, (foldl_add list ({}, [])).ranges]

/-! ## Searching the places -/

theorem walkLabels_iff {suffixes : Finset Text} {name : Text} :
    walkLabels suffixes name = true ↔ ∃ s ∈ suffixes, '.' :: s <:+ name := by
  induction name with
  | nil => simp [walkLabels]
  | cons c rest ih =>
    unfold walkLabels
    simp only [suffix_cons_iff]
    split
    case isTrue hdot =>
      subst hdot
      simp only [Bool.or_eq_true, decide_eq_true_eq, ih, List.cons.injEq, true_and]
      constructor
      · rintro (hrest | ⟨s, hs, hsuffix⟩)
        · exact ⟨rest, hrest, .inl rfl⟩
        · exact ⟨s, hs, .inr hsuffix⟩
      · rintro ⟨s, hs, rfl | hsuffix⟩
        · exact .inl hs
        · exact .inr ⟨s, hs, hsuffix⟩
    case isFalse hdot =>
      rw [ih]
      constructor
      · rintro ⟨s, hs, hsuffix⟩
        exact ⟨s, hs, .inr hsuffix⟩
      · rintro ⟨s, hs, heq | hsuffix⟩
        · exact absurd (List.cons.inj heq).1.symm hdot
        · exact ⟨s, hs, hsuffix⟩

theorem matchesName_iff {rules : Rules} {name : Text} (hlast : name.getLast? ≠ some '.') :
    rules.matchesName name = true ↔
      name.toAsciiLowercase ∈ rules.fulls ∨
        ∃ s ∈ rules.suffixes, name.toAsciiLowercase = s ∨ '.' :: s <:+ name.toAsciiLowercase := by
  have hwalk : (name.toAsciiLowercase ∈ rules.suffixes ∨
        walkLabels rules.suffixes name.toAsciiLowercase = true) ↔
      ∃ s ∈ rules.suffixes, name.toAsciiLowercase = s ∨ '.' :: s <:+ name.toAsciiLowercase := by
    rw [walkLabels_iff]
    constructor
    · rintro (hwhole | ⟨s, hs, hsuffix⟩)
      · exact ⟨_, hwhole, .inl rfl⟩
      · exact ⟨s, hs, .inr hsuffix⟩
    · rintro ⟨s, hs, rfl | hsuffix⟩
      · exact .inl hs
      · exact .inr ⟨s, hs, hsuffix⟩
  unfold matchesName
  rw [Text.trimEndMatches_of_last hlast, ← hwalk]
  -- The tests for empty sets only save work: an empty set has no members.
  by_cases hfulls : rules.fulls = ∅ <;> by_cases hsuffixes : rules.suffixes = ∅
  · simp [hfulls, hsuffixes, walkLabels_iff]
  · simp [hfulls, hsuffixes]
  · simp [hfulls, hsuffixes, walkLabels_iff]
  · by_cases hfull : name.toAsciiLowercase ∈ rules.fulls <;> simp [hsuffixes, hfulls, hfull]

theorem lookup_v4_iff (ip : BitVec 32) :
    Range.lookup (fromMatchers list).v4 ip.toNat = true ↔
      ∃ m ∈ list, ∃ r, m.range = some r ∧ Range.Has r ip.toNat := by
  have hsorted := Range.pairwise_sort (list.filterMap Matcher.range)
  rw [v4_eq, Range.lookup_iff (Range.separated_merge hsorted), Range.merge_covers hsorted,
    Range.sort_covers]
  simp only [Range.Covers, mem_filterMap]
  constructor
  · rintro ⟨r, ⟨m, hm, hr⟩, hhas⟩
    exact ⟨m, hm, r, hr, hhas⟩
  · rintro ⟨m, hm, r, hr, hhas⟩
    exact ⟨r, ⟨m, hm, hr⟩, hhas⟩

end Rules

/-! ## One entry -/

def Host.Plain : Host → Prop
  | .domain name => name.IsAscii ∧ name.getLast? ≠ some '.'
  | .ip _ => True

instance (host : Host) : Decidable host.Plain :=
  match host with
  | .domain _ => inferInstanceAs (Decidable (_ ∧ _))
  | .ip _ => inferInstanceAs (Decidable True)

namespace Matcher

variable {u : UnicodeData} {port : Nat}

variable {m : Matcher}

theorem other_eq_some {o : Matcher} (h : m.other = some o) : o = m := by
  cases m <;> cases h <;> rfl

theorem indexed_matches_domain {name : Text} (hascii : name.IsAscii) :
    m.other = none ∧ m.matches u (.domain name) port = true ↔
      m.fullText = some name.toAsciiLowercase ∨
        ∃ s, m.suffixText = some s ∧
          (name.toAsciiLowercase = s ∨ '.' :: s <:+ name.toAsciiLowercase) := by
  cases m with
  | domainSuffix suffix =>
    simp [Matcher.matches, onDomain, suffixText, fullText, other,
      UnicodeData.toLowercase_ascii hascii]
  | domainFull full =>
    simp only [Matcher.matches, onDomain, suffixText, fullText, other,
      Text.eqIgnoreAsciiCase_iff full.noUpper, true_and, Option.some.injEq, reduceCtorEq,
      false_and, exists_false, or_false]
    exact eq_comm
  | net range => simp [Matcher.matches, suffixText, fullText]
  | _ => simp [suffixText, fullText, other]

theorem indexed_matches_v4 {ip : BitVec 32} :
    m.other = none ∧ m.matches u (.ip (.v4 ip)) port = true ↔
      ∃ r, m.range = some r ∧ Range.Has r ip.toNat := by
  rcases m with suffix | full | needle | pattern | (block | block) | ⟨lo, hi⟩ | _
  case net.v4 =>
    simp [Matcher.matches, range, other, IpNet.contains, NetOf.contains, Range.Has, BitVec.le_def]
  case net.v6 => simp [Matcher.matches, range, IpNet.contains]
  case domainSuffix => simp [Matcher.matches, onDomain, range]
  case domainFull => simp [Matcher.matches, onDomain, range]
  all_goals simp [range, other]

theorem indexed_matches_v6 {ip : BitVec 128} :
    m.other = none ∧ m.matches u (.ip (.v6 ip)) port = true ↔
      ∃ block, m.net6 = some block ∧ block.contains ip = true := by
  rcases m with suffix | full | needle | pattern | (block | block) | ⟨lo, hi⟩ | _
  case net.v4 => simp [Matcher.matches, net6, IpNet.contains]
  case net.v6 => simp [Matcher.matches, net6, other, IpNet.contains]
  case domainSuffix => simp [Matcher.matches, onDomain, net6]
  case domainFull => simp [Matcher.matches, onDomain, net6]
  all_goals simp [net6, other]

end Matcher

/-! ## The whole list -/

namespace Rules

variable {list : List Matcher} {u : UnicodeData} {port : Nat} {host : Host}

theorem matchesIndex_iff (hhost : host.Plain) :
    (fromMatchers list).matchesIndex host = true ↔
      ∃ m ∈ list, m.other = none ∧ m.matches u host port = true := by
  rcases host with name | (ip | ip)
  · obtain ⟨hascii, hlast⟩ := hhost
    simp only [Matcher.indexed_matches_domain hascii, matchesIndex, matchesName_iff hlast,
      mem_fulls, mem_suffixes]
    constructor
    · rintro (⟨m, hm, hfull⟩ | ⟨s, ⟨m, hm, hsuffix⟩, hends⟩)
      · exact ⟨m, hm, .inl hfull⟩
      · exact ⟨m, hm, .inr ⟨s, hsuffix, hends⟩⟩
    · rintro ⟨m, hm, hfull | ⟨s, hsuffix, hends⟩⟩
      · exact .inl ⟨m, hm, hfull⟩
      · exact .inr ⟨s, ⟨m, hm, hsuffix⟩, hends⟩
  · simp only [Matcher.indexed_matches_v4, matchesIndex, lookup_v4_iff]
  · simp only [Matcher.indexed_matches_v6, matchesIndex, any_eq_true, mem_v6]
    constructor
    · rintro ⟨block, ⟨m, hm, hblock⟩, hcontains⟩
      exact ⟨m, hm, block, hblock, hcontains⟩
    · rintro ⟨m, hm, block, hblock, hcontains⟩
      exact ⟨block, ⟨m, hm, hblock⟩, hcontains⟩

theorem any_others_iff :
    (fromMatchers list).others.any (Matcher.matches u host port) = true ↔
      ∃ m ∈ list, m.other = some m ∧ m.matches u host port = true := by
  simp only [any_eq_true, mem_others]
  constructor
  · rintro ⟨o, ⟨m, hm, ho⟩, hmatches⟩
    have heq := Matcher.other_eq_some ho
    rw [heq] at ho hmatches
    exact ⟨m, hm, ho, hmatches⟩
  · rintro ⟨m, hm, ho, hmatches⟩
    exact ⟨m, ⟨m, hm, ho⟩, hmatches⟩

theorem fromMatchers_matches_iff (u : UnicodeData) (list : List Matcher) (host : Host)
    (port : Nat) (hhost : host.Plain) :
    (fromMatchers list).matches u host port = true ↔
      ∃ m ∈ list, m.matches u host port = true := by
  have hparts : (fromMatchers list).matches u host port = true ↔
      (fromMatchers list).matchesIndex host = true ∨
        (fromMatchers list).others.any (Matcher.matches u host port) = true := by
    unfold Rules.matches
    split <;> simp_all
  rw [hparts, matchesIndex_iff hhost, any_others_iff]
  constructor
  · rintro (⟨m, hm, -, hmatches⟩ | ⟨m, hm, -, hmatches⟩) <;> exact ⟨m, hm, hmatches⟩
  · rintro ⟨m, hm, hmatches⟩
    cases hother : m.other with
    | none => exact .inl ⟨m, hm, hother, hmatches⟩
    | some o =>
      rw [Matcher.other_eq_some hother] at hother
      exact .inr ⟨m, hm, hother, hmatches⟩

def sampleList : List Matcher :=
  [.net (.v4 ⟨0x0a000100, 24, by decide⟩), .net (.v4 ⟨0x0a000000, 24, by decide⟩),
    .domainSuffix ⟨"example.com".toList, by decide +kernel, by decide +kernel⟩, .ports 25 25]

theorem sampleList_matches :
    (fromMatchers sampleList).matches .basicLatin (.domain "www.Example.com".toList) 443 = true ∧
      (fromMatchers sampleList).matches .basicLatin (.ip (.ofOctets 10 0 1 7)) 443 = true ∧
      (fromMatchers sampleList).matches .basicLatin (.domain "notexample.com".toList) 443 =
        false := by
  have hname := fromMatchers_matches_iff .basicLatin sampleList
    (.domain "www.Example.com".toList) 443 (by decide +kernel)
  have haddress := fromMatchers_matches_iff .basicLatin sampleList
    (.ip (.ofOctets 10 0 1 7)) 443 (by decide +kernel)
  refine ⟨hname.mpr ?_, haddress.mpr ?_, by decide +kernel⟩
  · exact ⟨_, mem_of_getElem? (i := 2) rfl, by decide +kernel⟩
  · exact ⟨_, mem_of_getElem? (i := 0) rfl, by decide +kernel⟩

end Rules

end BigRocket.Routing
