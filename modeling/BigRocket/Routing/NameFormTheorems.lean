/-
The letter case of a name and the dot at its end: the index brings a name to one
form, the entries outside it are asked with the name as it came.
-/
import BigRocket.Lib.TextForms
import BigRocket.Routing.Rules

namespace BigRocket.Routing

open Lib List

/-! ## Two forms of one name -/

def SameName (name name' : Text) : Prop :=
  name'.toAsciiLowercase = name.toAsciiLowercase ∨
    name'.toAsciiLowercase = name.toAsciiLowercase ++ ['.']

instance (name name' : Text) : Decidable (SameName name name') :=
  inferInstanceAs (Decidable (_ ∨ _))

theorem SameName.isAscii {name name' : Text} (h : SameName name name') (hascii : name.IsAscii) :
    name'.IsAscii := by
  have hlower : name.toAsciiLowercase.IsAscii := by
    intro c hc
    obtain ⟨d, hd, rfl⟩ := mem_map.mp hc
    exact Text.toLower_lt (hascii d hd)
  intro c hc
  apply Text.lt_of_toLower_lt
  have hmem : c.toLower ∈ name'.toAsciiLowercase := mem_map_of_mem hc
  rcases h with h | h
  · rw [h] at hmem
    exact hlower _ hmem
  · rw [h, mem_append, mem_singleton] at hmem
    rcases hmem with hmem | hdot
    · exact hlower _ hmem
    · rw [hdot]
      decide

/-! ## The index -/

theorem trimEndMatches_toAsciiLowercase (s : Text) :
    (s.trimEndMatches '.').toAsciiLowercase = s.toAsciiLowercase.trimEndMatches '.' := by
  induction s using List.reverseRecOn with
  | nil => rfl
  | append_singleton s c ih =>
    unfold Text.trimEndMatches Text.toAsciiLowercase at ih ⊢
    rw [map_append, map_singleton]
    by_cases hdot : c = '.'
    · rw [rdropWhile_concat_pos _ _ _ (by simpa using hdot),
        rdropWhile_concat_pos _ _ _ (by simpa using Text.toLower_eq_dot_iff.mpr hdot), ih]
    · rw [rdropWhile_concat_neg _ _ _ (by simpa using hdot),
        rdropWhile_concat_neg _ _ _ (by simpa using fun h => hdot (Text.toLower_eq_dot_iff.mp h)),
        map_append, map_singleton]

theorem trimEndMatches_concat_dot (s : Text) :
    (s ++ ['.']).trimEndMatches '.' = s.trimEndMatches '.' := by
  exact rdropWhile_concat_pos _ _ _ (by simp)

theorem matchesIndex_sameName (rules : Rules) {name name' : Text} (h : SameName name name') :
    rules.matchesIndex (.domain name') = rules.matchesIndex (.domain name) := by
  have hform : (name'.trimEndMatches '.').toAsciiLowercase =
      (name.trimEndMatches '.').toAsciiLowercase := by
    rw [trimEndMatches_toAsciiLowercase, trimEndMatches_toAsciiLowercase]
    rcases h with h | h
    · rw [h]
    · rw [h, trimEndMatches_concat_dot]
  simp only [Rules.matchesIndex, Rules.matchesName, hform]

/-! ## The other entries -/

def Matcher.SeesForm : Matcher → Prop
  | .ports _ _ | .net _ => False
  | .domainKeyword needle => needle.getLast? = some '.'
  | _ => True

theorem infix_concat_dot {needle s : Text} (hlast : needle.getLast? ≠ some '.') :
    needle <:+: s ++ ['.'] ↔ needle <:+: s := by
  constructor
  · rintro ⟨before, after, heq⟩
    rcases eq_nil_or_concat after with rfl | ⟨after, last, rfl⟩
    · rw [append_nil] at heq
      rcases eq_nil_or_concat needle with rfl | ⟨needle, last, rfl⟩
      · exact nil_infix
      · rw [concat_eq_append, ← append_assoc] at heq
        have hdot : last = '.' := by simpa using append_inj_right' heq rfl
        rw [hdot] at hlast
        exact absurd (by simp) hlast
    · rw [concat_eq_append, ← append_assoc] at heq
      exact ⟨before, after, append_inj_left' heq rfl⟩
  · intro h
    exact h.trans (prefix_append s ['.']).isInfix

variable {u : UnicodeData} {name name' : Text} {port : Nat}

theorem matches_of_not_seesForm {m : Matcher} (hm : ¬ m.SeesForm) (hascii : name.IsAscii)
    (h : SameName name name') :
    m.matches u (.domain name') port = m.matches u (.domain name) port := by
  have hlower := UnicodeData.toLowercase_ascii (u := u) hascii
  have hlower' := UnicodeData.toLowercase_ascii (u := u) (h.isAscii hascii)
  cases m with
  | ports lo hi => rfl
  | net range => rfl
  | domainKeyword needle =>
    simp only [Matcher.matches, onDomain, hlower, hlower']
    rcases h with h | h
    · rw [h]
    · rw [h, decide_eq_decide]
      exact infix_concat_dot hm
  | domainSuffix suffix => exact absurd trivial hm
  | domainFull full => exact absurd trivial hm
  | domainRegex pattern => exact absurd trivial hm
  | privateHosts => exact absurd trivial hm

/-! ## A list -/

def Rules.FormMatches (u : UnicodeData) (name : Text) (port : Nat) (rules : Rules) : Prop :=
  ∃ m ∈ rules.others, m.SeesForm ∧ m.matches u (.domain name) port = true

/-- The index or an entry that does not see the form of the name has it, or
the entries that do have both forms or neither. -/
def Rules.Steady (u : UnicodeData) (name name' : Text) (port : Nat) (rules : Rules) : Prop :=
  rules.matchesIndex (.domain name) = true ∨
    (∃ m ∈ rules.others, ¬ m.SeesForm ∧ m.matches u (.domain name) port = true) ∨
    (rules.FormMatches u name port ↔ rules.FormMatches u name' port)

theorem rules_matches_iff {rules : Rules} :
    rules.matches u (.domain name) port = true ↔
      rules.matchesIndex (.domain name) = true ∨
        (∃ m ∈ rules.others, ¬ m.SeesForm ∧ m.matches u (.domain name) port = true) ∨
        rules.FormMatches u name port := by
  have hparts : rules.matches u (.domain name) port = true ↔
      rules.matchesIndex (.domain name) = true ∨
        ∃ m ∈ rules.others, m.matches u (.domain name) port = true := by
    unfold Rules.matches
    split
    · next hindex => simp [hindex]
    · next hindex => simp [hindex]
  rw [hparts]
  refine or_congr Iff.rfl ?_
  constructor
  · rintro ⟨m, hm, hmatches⟩
    by_cases hform : m.SeesForm
    · exact .inr ⟨m, hm, hform, hmatches⟩
    · exact .inl ⟨m, hm, hform, hmatches⟩
  · rintro (⟨m, hm, -, hmatches⟩ | ⟨m, hm, -, hmatches⟩)
    · exact ⟨m, hm, hmatches⟩
    · exact ⟨m, hm, hmatches⟩

theorem matches_sameName_iff {rules : Rules} (hascii : name.IsAscii) (h : SameName name name') :
    rules.matches u (.domain name') port = rules.matches u (.domain name) port ↔
      rules.Steady u name name' port := by
  have hindex := matchesIndex_sameName rules h
  have hblind : (∃ m ∈ rules.others, ¬ m.SeesForm ∧ m.matches u (.domain name') port = true) ↔
      ∃ m ∈ rules.others, ¬ m.SeesForm ∧ m.matches u (.domain name) port = true := by
    constructor
    · rintro ⟨m, hm, hform, hmatches⟩
      rw [matches_of_not_seesForm hform hascii h] at hmatches
      exact ⟨m, hm, hform, hmatches⟩
    · rintro ⟨m, hm, hform, hmatches⟩
      rw [← matches_of_not_seesForm hform hascii h] at hmatches
      exact ⟨m, hm, hform, hmatches⟩
  rw [Bool.eq_iff_iff, rules_matches_iff, rules_matches_iff, hindex, hblind, Rules.Steady]
  by_cases hi : rules.matchesIndex (.domain name) = true
  · simp [hi]
  · by_cases hb : ∃ m ∈ rules.others, ¬ m.SeesForm ∧ m.matches u (.domain name) port = true
    · simp only [hb, true_or, or_true]
    · simp only [hi, hb, Bool.false_eq_true, false_or]
      exact ⟨Iff.symm, Iff.symm⟩

/-! ## The verdict -/

/-- **The form of a name does not matter** exactly when the block list is steady,
and the direct list too unless the name is blocked. -/
theorem decide_sameName_iff (u : UnicodeData) (set : RuleSet) (name name' : Text) (port : Nat)
    (hascii : name.IsAscii) (hsame : SameName name name') :
    set.decide u (.domain name') port = set.decide u (.domain name) port ↔
      set.block.Steady u name name' port ∧
        (set.block.matches u (.domain name) port = true ∨
          set.direct.Steady u name name' port) := by
  rw [← matches_sameName_iff hascii hsame, ← matches_sameName_iff hascii hsame]
  simp only [RuleSet.decide]
  cases set.block.matches u (.domain name) port <;>
    cases set.block.matches u (.domain name') port <;>
    cases set.direct.matches u (.domain name) port <;>
    cases set.direct.matches u (.domain name') port <;> simp

/-- A reader without networks, whose one regular expression is `^ad`. -/
def sampleReader : RuleReader where
  unicode := .basicLatin
  regex _ := some fun name => "ad".toList <+: name
  ipNet _ := none

theorem decide_sameName_upperCase :
    (RuleSet.parse sampleReader "ads.example,keyword:track,port:25".toList []).decide .basicLatin
        (.domain "WWW.Ads.Example.".toList) 443 =
      (RuleSet.parse sampleReader "ads.example,keyword:track,port:25".toList []).decide .basicLatin
        (.domain "www.ads.example".toList) 443 := by
  refine (decide_sameName_iff .basicLatin _ "www.ads.example".toList _ 443 (by decide +kernel)
    (by decide +kernel)).mpr ⟨.inl (by decide +kernel), .inl (by decide +kernel)⟩

theorem form_changes_verdict :
    (RuleSet.parse sampleReader "private".toList []).decide .basicLatin
        (.domain "localhost".toList) 80 = .block ∧
      (RuleSet.parse sampleReader "private".toList []).decide .basicLatin
        (.domain "localhost.".toList) 80 = .proxy ∧
      (RuleSet.parse sampleReader "regexp:^ad".toList []).decide .basicLatin
        (.domain "ad1.example".toList) 443 = .block ∧
      (RuleSet.parse sampleReader "regexp:^ad".toList []).decide .basicLatin
        (.domain "AD1.example".toList) 443 = .proxy := by
  decide +kernel

end BigRocket.Routing
