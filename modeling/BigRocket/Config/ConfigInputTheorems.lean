/-
The configs of a text are the configs of the links that it was put together
from, with gaps between and around them, as it is or in base64.
-/
import BigRocket.Config.ExtractTheorems
import BigRocket.Config.LooseBase64Theorems

namespace BigRocket.Config

open Lib Lib.Kotlin LinkSyntax
open List hiding length

namespace ConfigInputParser

variable {jvm : Jvm} {org : OrgJson} {first : ShareLink jvm}
  {others : List (Text × ShareLink jvm)} {c : Char} {s : Text}

/-! ## The characters of the text -/

/-- What cleaning leaves as it is, with no control character but the
newline. -/
def isTextChar (c : Char) : Bool :=
  !isInvisible c && c ≠ '\u00A0' && c ≠ '\u202F' && (!isISOControl c || c = '\n')

theorem isTextChar_of_isGapChar (h : isGapChar c = true) : isTextChar c = true := by
  simp only [isGapChar, Bool.or_eq_true, decide_eq_true_eq] at h
  rcases h with rfl | rfl <;> decide

theorem isTextChar_of_not_isWhitespace (hwhite : isWhitespace c = false)
    (hcontrol : isISOControl c = false) (hinvisible : isInvisible c = false) :
    isTextChar c = true := by
  have hnbsp : c ≠ '\u00A0' := by
    rintro rfl
    exact absurd hwhite (by decide)
  have hnnbsp : c ≠ '\u202F' := by
    rintro rfl
    exact absurd hwhite (by decide)
  simp [isTextChar, hinvisible, hcontrol, hnbsp, hnnbsp]

theorem isTextChar_of_isVisible (h : isVisible c = true) : isTextChar c = true := by
  have hwhite := isWhitespace_of_isVisible h
  simp only [isVisible, Bool.and_eq_true, decide_eq_true_eq] at h
  apply isTextChar_of_not_isWhitespace hwhite <;>
    simp only [isISOControl, isInvisible, Bool.or_eq_false_iff, Bool.and_eq_false_iff,
      decide_eq_false_iff_not] <;> omega

theorem isTextChar_of_isNameChar (h : isNameChar c = true) : isTextChar c = true := by
  simp only [isNameChar, Bool.and_eq_true, Bool.not_eq_true', decide_eq_true_eq] at h
  obtain ⟨⟨⟨hcontrol, hinvisible⟩, hnbsp⟩, hnnbsp⟩ := h
  simp [isTextChar, hinvisible, hcontrol, hnbsp, hnnbsp]

theorem isTextChar_of_isBodyChar (h : isBodyChar c = true) : isTextChar c = true := by
  simp only [isBodyChar, Bool.and_eq_true, Bool.not_eq_true', decide_eq_true_eq] at h
  exact isTextChar_of_not_isWhitespace h.1.1.1 h.1.1.2 h.1.2

theorem isTextChar_of_mem_text {l : ShareLink jvm} (h : c ∈ l.text) : isTextChar c = true := by
  simp only [ShareLink.text, linkText, mem_append, mem_cons, not_mem_nil,
    or_false] at h
  rcases h with ((h | rfl | rfl | rfl) | h) | h
  · exact isTextChar_of_isVisible
      (ShareLink.isVisible_of_isAlphanum (ShareLink.isAlphanum_of_mem_scheme h))
  · decide
  · decide
  · decide
  · exact isTextChar_of_isBodyChar (l.body_chars c h)
  · cases hname : l.name with
    | none => rw [hname] at h; cases h
    | some name =>
      rw [hname] at h
      rcases mem_cons.mp h with rfl | hmem
      · decide
      · exact isTextChar_of_isNameChar (l.name_chars name hname c hmem)

theorem isTextChar_of_mem_join (hgaps : Gaps others) (h : c ∈ join first others) :
    isTextChar c = true := by
  induction others generalizing first with
  | nil => exact isTextChar_of_mem_text h
  | cons p others ih =>
    obtain ⟨gap, next⟩ := p
    rw [join, append_assoc] at h
    rcases mem_append.mp h with h | h
    · exact isTextChar_of_mem_text h
    · rcases mem_append.mp h with h | h
      · exact isTextChar_of_isGapChar ((hgaps (gap, next) (by simp)).1 c h)
      · exact ih (fun q hq => hgaps q (mem_cons_of_mem _ hq)) h

/-- The text `s` is put together from links, with gaps between and around
them. -/
def Joined (first : ShareLink jvm) (others : List (Text × ShareLink jvm)) (s : Text) : Prop :=
  Gaps others ∧ ∃ lead tail, Gap lead ∧ Gap tail ∧ s = lead ++ join first others ++ tail

variable (variant : Base64.Variant) {literal rest : Text} {e : Char} {layers : Nat}
  {bytes : List UInt8}

theorem Joined.isTextChar (hs : Joined first others s) (h : c ∈ s) : isTextChar c = true := by
  obtain ⟨hgaps, lead, tail, hlead, htail, rfl⟩ := hs
  rcases mem_append.mp h with h | h
  · rcases mem_append.mp h with h | h
    · exact isTextChar_of_isGapChar (hlead c h)
    · exact isTextChar_of_mem_join hgaps h
  · exact isTextChar_of_isGapChar (htail c h)

/-! ## Cleaning -/

theorem replaceCrLf_of_notMem (h : '\r' ∉ s) : replaceCrLf s = s := by
  induction s with
  | nil => rfl
  | cons e s ih =>
    have hne : e ≠ '\r' := fun heq => h (heq ▸ mem_cons_self ..)
    have hrest : replaceCrLf s = s := ih fun hmem => h (mem_cons_of_mem e hmem)
    rw [replaceCrLf.eq_def]
    split
    · rename_i heq; cases heq
    · rename_i heq; cases heq; exact absurd rfl hne
    · rename_i heq; cases heq; rw [hrest]

theorem replaceChar_of_notMem {old new : Char} (h : old ∉ s) : replaceChar old new s = s := by
  unfold replaceChar
  conv_rhs => rw [← map_id s]
  apply map_congr_left
  intro e he
  have hne : e ≠ old := by
    rintro rfl
    exact h he
  rw [if_neg hne]
  rfl

theorem notMem_of_isTextChar (h : ∀ c ∈ s, isTextChar c = true) (hc : isTextChar c = false) :
    c ∉ s := by
  intro hmem
  rw [h c hmem] at hc
  cases hc

theorem cleanInput_eq_trim (h : ∀ c ∈ s, isTextChar c = true) : cleanInput s = trim s := by
  have hfilter : (s.filter fun c => !isInvisible c) = s := by
    rw [filter_eq_self]
    intro c hc
    have htext := h c hc
    simp only [isTextChar, Bool.and_eq_true] at htext
    exact htext.1.1.1
  rw [cleanInput, replaceCrLf_of_notMem (notMem_of_isTextChar h (by decide)),
    replaceChar_of_notMem (notMem_of_isTextChar h (by decide)), hfilter,
    replaceChar_of_notMem (notMem_of_isTextChar h (by decide)),
    replaceChar_of_notMem (notMem_of_isTextChar h (by decide))]

theorem trimmed_join (hgaps : Gaps others) : Trimmed (join first others) := by
  induction others generalizing first with
  | nil => exact first.trimmed_text
  | cons p others ih =>
    obtain ⟨gap, next⟩ := p
    have hrest : Gaps others := fun q hq => hgaps q (mem_cons_of_mem _ hq)
    obtain ⟨u, hu, -⟩ := join_eq_append next hrest
    refine ⟨fun c hc => ?_, fun c hc => ?_⟩
    · rw [join, append_assoc, head?_append_of_ne_nil _ first.text_ne_nil] at hc
      exact first.trimmed_text.1 c hc
    · have hne : join next others ≠ [] := hu ▸ ne_nil_of_link next u
      rw [join, getLast?_append_of_ne_nil _ hne] at hc
      exact (ih hrest).2 c hc

theorem join_ne_nil (hgaps : Gaps others) : join first others ≠ [] := by
  obtain ⟨u, hu, -⟩ := join_eq_append first hgaps
  exact hu ▸ ne_nil_of_link first u

theorem cleanInput_joined (h : Joined first others s) : cleanInput s = join first others := by
  rw [cleanInput_eq_trim fun _ => h.isTextChar]
  obtain ⟨hgaps, lead, tail, hlead, htail, rfl⟩ := h
  exact trim_append (fun c hc => isWhitespace_of_isGapChar (hlead c hc))
    (fun c hc => isWhitespace_of_isGapChar (htail c hc)) (trimmed_join hgaps) (join_ne_nil hgaps)

/-! ## What the text looks like -/

def schemeInitials : List Char := ['v', 't', 's', 'w']

theorem initials_schemes :
    (schemes.all fun scheme => scheme.head?.any schemeInitials.contains) = true := by decide

theorem exists_text_eq_cons (l : ShareLink jvm) :
    ∃ e rest, l.text = e :: rest ∧ e.toLower ∈ schemeInitials ∧ e.isAlphanum = true := by
  obtain ⟨e, scheme, hscheme⟩ := exists_cons_of_ne_nil l.scheme_ne_nil
  have hinitial := all_eq_true.mp initials_schemes _ l.supported
  rw [hscheme] at hinitial
  refine ⟨e, scheme ++ [':', '/', '/'] ++ l.body ++ l.name.elim [] ('#' :: ·), ?_, ?_, ?_⟩
  · rw [ShareLink.text, linkText, hscheme]
    rfl
  · simpa [Text.toAsciiLowercase] using hinitial
  · exact ShareLink.isAlphanum_of_mem_scheme (l := l) (hscheme ▸ mem_cons_self ..)

theorem toNat_lt_of_isVisible (h : isVisible c = true) : c.toNat < 128 := by
  simp only [isVisible, Bool.and_eq_true, decide_eq_true_eq] at h
  omega

theorem not_isPrefixOf_cons {d : Char} (h : d ≠ e) (literal rest : Text) :
    (d :: literal).isPrefixOf (e :: rest) = false := by
  simp [List.isPrefixOf, h]

theorem not_looksLikeNapsternet (hvisible : isVisible e = true)
    (hlower : e.toLower ≠ 'n') : looksLikeNapsternet jvm (e :: rest) = false := by
  have hcapital : 'N' ≠ e := by
    rintro rfl
    exact hlower rfl
  have htrim : trimStart (e :: rest) = e :: rest :=
    dropWhile_cons_of_neg (by simp [isWhitespace_of_isVisible hvisible])
  have hsame : jvm.same 'n' e = false := by
    rw [Jvm.same, if_pos ⟨by decide, toNat_lt_of_isVisible hvisible⟩]
    simpa using fun heq : 'n'.toLower = e.toLower => hlower heq.symm
  have hignore : startsWithIgnoreCase jvm "npvt://".toList (e :: rest) = false := by
    show (jvm.same 'n' e && startsWithIgnoreCase jvm "pvt://".toList rest) = false
    rw [hsame, Bool.false_and]
  rw [looksLikeNapsternet, htrim, hignore]
  simp only [Bool.or_false, Bool.or_eq_false_iff]
  exact ⟨⟨⟨not_isPrefixOf_cons hcapital "PVT1".toList rest,
    not_isPrefixOf_cons hcapital "PVTSUB1".toList rest⟩,
    not_isPrefixOf_cons hcapital "PVO1".toList rest⟩,
    not_isPrefixOf_cons hcapital "PVS".toList rest⟩

theorem not_startsJson (h : e.isAlphanum = true) : startsJson (e :: rest) = false := by
  have hbrace : e ≠ '{' := by
    rintro rfl
    exact absurd h (by decide)
  have hbracket : e ≠ '[' := by
    rintro rfl
    exact absurd h (by decide)
  simp [startsJson, hbrace, hbracket]

/-! ## Reading the text as it is -/

/-- A text that begins as no other format does is searched for links. -/
theorem look_of_head (hlength : length s ≤ maxInputChars) (hclean : cleanInput s = e :: rest)
    (halpha : e.isAlphanum = true) (hlower : e.toLower ≠ 'n')
    (hmtproto : looksLikeMtProto jvm (e :: rest) = false) :
    look jvm s = if allLinks jvm (e :: rest) ≠ [] then .ok (.found (.links (allLinks jvm (e :: rest))))
      else .ok (.unread (e :: rest)) := by
  have hnapsternet : looksLikeNapsternet jvm (e :: rest) = false :=
    not_looksLikeNapsternet (ShareLink.isVisible_of_isAlphanum halpha) hlower
  rw [look, if_neg (Nat.not_lt.mpr hlength), hclean]
  simp only [hmtproto, hnapsternet, not_startsJson halpha, reduceCtorEq, if_false,
    Bool.false_eq_true]

theorem look_joined (h : Joined first others s) (hlength : length s ≤ maxInputChars)
    (hmtproto : looksLikeMtProto jvm (join first others) = false) :
    look jvm s = .ok (.found (.links (first.text :: others.map fun p => p.2.text))) := by
  obtain ⟨e, rest, htext, hinitial, halpha⟩ := exists_text_eq_cons first
  obtain ⟨u, hu, -⟩ := join_eq_append first h.1
  have hjoin : join first others = e :: (rest ++ u) := by rw [hu, htext]; rfl
  have hlower : e.toLower ≠ 'n' := by
    intro heq
    rw [heq] at hinitial
    exact absurd hinitial (by decide)
  have hclean := cleanInput_joined h
  rw [hjoin] at hclean hmtproto
  rw [look_of_head hlength hclean halpha hlower hmtproto, ← hjoin, allLinks_join first h.1]
  rfl

theorem readInput_of_found {input : Text} {found : Input}
    (h : look jvm input = .ok (.found found)) : readInput jvm layers input = .ok found := by
  rw [readInput.eq_def]
  simp only [h]

/-! ## Reading the text in base64 -/

theorem symbol_plain :
    ∀ v < 64, looksBase64 [Base64.symbol variant v] = true ∧
      (Base64.symbol variant v).toLower ≠ ':' ∧ (Base64.symbol variant v).toLower ≠ '.' := by
  obtain ⟨urlSafe, pad⟩ := variant
  cases urlSafe <;> decide +kernel +revert

theorem mem_encode_plain {variant : Base64.Variant} (h : c ∈ Base64.encode variant bytes) :
    looksBase64 [c] = true ∧ c.toLower ≠ ':' ∧ c.toLower ≠ '.' := by
  rcases LooseBase64.mem_encode h with ⟨v, hv, rfl⟩ | rfl
  · exact symbol_plain variant v hv
  · decide

theorem encode_ne_nil {variant : Base64.Variant} (hne : bytes ≠ []) :
    Base64.encode variant bytes ≠ [] := by
  intro h
  have hpos : 0 < bytes.length := length_pos_iff.mpr hne
  have hle := Base64.length_le_sextets bytes
  rw [Base64.encode, append_eq_nil_iff, map_eq_nil_iff] at h
  rw [h.1, length_nil] at hle
  omega

theorem looksBase64_encode {variant : Base64.Variant} (hne : bytes ≠ []) :
    looksBase64 (Base64.encode variant bytes) = true := by
  rw [looksBase64, Bool.and_eq_true, decide_eq_true_eq]
  refine ⟨encode_ne_nil hne, all_eq_true.mpr fun c hc => ?_⟩
  have h := (mem_encode_plain hc).1
  simp only [looksBase64, all_cons, all_nil, Bool.and_true, Bool.and_eq_true] at h
  exact h.2

theorem encode_utf8_ne_nil (hne : s ≠ []) : Utf8.encode s ≠ [] := by
  intro h
  have hdecoded := Utf8.fromUtf8_encode s
  rw [h] at hdecoded
  exact hne (Option.some.inj hdecoded).symm

theorem decodeLoose_encode (hne : s ≠ []) (h : ∀ c ∈ s, isTextChar c = true) :
    decodeLoose (Base64.encode variant (Utf8.encode s)) = some s := by
  have hbytes := encode_utf8_ne_nil hne
  have hcontrol : (s.any fun c => isISOControl c && c ≠ '\n' && c ≠ '\r' && c ≠ '\t') = false := by
    rw [any_eq_false]
    intro c hc
    have htext := h c hc
    simp only [isTextChar, Bool.and_eq_true, Bool.or_eq_true, Bool.not_eq_true',
      decide_eq_true_eq] at htext
    rcases htext.2 with hplain | rfl
    · simp [hplain]
    · decide
  rw [decodeLoose, LooseBase64.filter_whitespace_of_isVisible fun _ hc =>
    LooseBase64.isVisible_of_mem_encode hc]
  simp only [encode_ne_nil hbytes, looksBase64_encode hbytes, Bool.true_eq_false, or_self, if_false,
    LooseBase64.decode_encode hbytes, Utf8.fromUtf8_encode, Option.bind_eq_bind,
    Option.bind_some, hcontrol, Bool.false_eq_true]
  rfl

/-! A text without a colon holds no link. -/

theorem linkStart_of_notMem {before : Option Char} (h : ':' ∉ s) : linkStart jvm before s = none := by
  unfold linkStart
  split
  · rfl
  · rw [findSome?_eq_none_iff]
    intro scheme _
    rw [Option.bind_eq_none_iff]
    intro n _
    have hdrop : ':' ∉ s.drop n := fun hmem => h (mem_of_mem_drop hmem)
    rw [isPrefixOf_eq_false (c := ':') (by simp) hdrop]
    rfl

theorem findStarts_of_notMem {before : Option Char} {place : Nat} (h : ':' ∉ s) :
    findStarts jvm before 0 place s = [] := by
  induction s generalizing before place with
  | nil => rfl
  | cons c s ih =>
    rw [findStarts, linkStart_of_notMem h]
    exact ih fun hmem => h (mem_cons_of_mem c hmem)

theorem allLinks_of_notMem (jvm : Jvm) (hvisible : ∀ c ∈ s, isVisible c = true) (h : ':' ∉ s) :
    allLinks jvm s = [] := by
  have hline : OneLine s := by
    intro c hc
    constructor <;>
      · rintro rfl
        exact absurd (hvisible _ hc) (by decide)
  have hlines : lines (s ++ []) = [s ++ []] := lines_append hline []
  rw [append_nil] at hlines
  have hextract : extractLinks jvm s = [] := by
    rw [extractLinks, findStarts_of_notMem h]
    rfl
  rw [allLinks, hlines, map_singleton, trim_of_trimmed (trimmed_of_isVisible hvisible),
    filter_singleton]
  cases decide (s ≠ []) with
  | true => rw [cond_true, flatMap_singleton, hextract]
  | false => rfl

/-! What the base64 of a text looks like. -/

section Encoded

variable {variant : Base64.Variant} {bytes : List UInt8}

theorem colon_notMem_encode : ':' ∉ Base64.encode variant bytes := fun h =>
  (mem_encode_plain h).2.1 rfl

theorem lowercase_encode :
    jvm.lowercase (Base64.encode variant bytes) =
      (Base64.encode variant bytes).toAsciiLowercase :=
  UnicodeData.toLowercase_ascii fun _ hc =>
    toNat_lt_of_isVisible (LooseBase64.isVisible_of_mem_encode hc)

theorem not_looksLikeMtProto_encode (jvm : Jvm) (variant : Base64.Variant) (bytes : List UInt8) :
    looksLikeMtProto jvm (Base64.encode variant bytes) = false := by
  have htrim : trim (Base64.encode variant bytes) = Base64.encode variant bytes :=
    trim_of_trimmed (trimmed_of_isVisible fun _ hc => LooseBase64.isVisible_of_mem_encode hc)
  have hcolon : ':' ∉ (Base64.encode variant bytes).toAsciiLowercase := by
    intro hmem
    obtain ⟨c, hc, heq⟩ := mem_map.mp hmem
    exact (mem_encode_plain hc).2.1 heq
  have hdot : '.' ∉ (Base64.encode variant bytes).toAsciiLowercase := by
    intro hmem
    obtain ⟨c, hc, heq⟩ := mem_map.mp hmem
    exact (mem_encode_plain hc).2.2 heq
  rw [looksLikeMtProto, htrim, lowercase_encode]
  simp only [isPrefixOf_eq_false (c := ':') (d := "tg://proxy".toList) (by decide) hcolon,
    isPrefixOf_eq_false (c := ':') (d := "tg://socks".toList) (by decide) hcolon,
    isPrefixOf_eq_false (c := '.') (d := "https://t.me/".toList) (by decide) hdot,
    isPrefixOf_eq_false (c := '.') (d := "http://t.me/".toList) (by decide) hdot,
    isPrefixOf_eq_false (c := '.') (d := "t.me/".toList) (by decide) hdot,
    contains_eq_false (c := '.') (d := "telegram.me/proxy".toList) (by decide) hdot,
    Bool.or_self, Bool.false_and]

theorem symbol_initial (variant : Base64.Variant) : ∀ n < 128,
    isGapChar (Char.ofNat n) = true ∨ (Char.ofNat n).toLower ∈ schemeInitials →
      (Base64.symbol variant (n / 4)).isAlphanum = true ∧
        (Base64.symbol variant (n / 4)).toLower ≠ 'n' := by
  obtain ⟨urlSafe, pad⟩ := variant
  cases urlSafe <;> decide +kernel +revert

theorem head_sextets (a : UInt8) (bytes : List UInt8) :
    ∃ rest, Base64.sextets (a :: bytes) = a.toNat / 4 :: rest := by
  match bytes with
  | [] => exact ⟨_, rfl⟩
  | [b] => exact ⟨_, rfl⟩
  | b :: c :: bytes => exact ⟨_, rfl⟩

theorem exists_encode_eq_cons (variant : Base64.Variant) {e : Char} (rest : Text)
    (hascii : e.toNat < 128)
    (he : isGapChar e = true ∨ e.toLower ∈ schemeInitials) :
    ∃ d tail, Base64.encode variant (Utf8.encode (e :: rest)) = d :: tail ∧
      d.isAlphanum = true ∧ d.toLower ≠ 'n' := by
  have hutf8 : Utf8.encode (e :: rest) = UInt8.ofNat e.toNat :: Utf8.encode rest := by
    rw [Utf8.encode_cons, Utf8.utf8EncodeChar_ascii hascii]
    rfl
  obtain ⟨sextets, hsextets⟩ := head_sextets (UInt8.ofNat e.toNat) (Utf8.encode rest)
  have hinitial := symbol_initial variant e.toNat hascii (by rwa [Char.ofNat_toNat])
  refine ⟨Base64.symbol variant (e.toNat / 4),
    sextets.map (Base64.symbol variant) ++ Base64.padding variant (Utf8.encode (e :: rest)), ?_,
    hinitial⟩
  rw [Base64.encode, hutf8, hsextets, Utf8.toNat_byte (by omega)]
  rfl

theorem look_encode {d : Char} {tail : Text} (heq : Base64.encode variant bytes = d :: tail)
    (halpha : d.isAlphanum = true) (hlower : d.toLower ≠ 'n')
    (hlength : length (d :: tail) ≤ maxInputChars) :
    look jvm (d :: tail) = .ok (.unread (d :: tail)) := by
  have hvisible : ∀ c ∈ d :: tail, isVisible c = true := fun _ hc =>
    LooseBase64.isVisible_of_mem_encode (heq ▸ hc)
  have hclean : cleanInput (d :: tail) = d :: tail := by
    rw [cleanInput_eq_trim fun c hc => isTextChar_of_isVisible (hvisible c hc)]
    exact trim_of_trimmed (trimmed_of_isVisible hvisible)
  have hmtproto := heq ▸ not_looksLikeMtProto_encode jvm variant bytes
  rw [look_of_head hlength hclean halpha hlower hmtproto,
    allLinks_of_notMem jvm hvisible (heq ▸ colon_notMem_encode)]
  rfl

end Encoded

theorem unwrap_encode (hcolon : ':' ∈ s) (h : ∀ c ∈ s, isTextChar c = true)
    (hlooks : looksLikeConfigText jvm s = true) :
    unwrap jvm (Base64.encode variant (Utf8.encode s)) = some s := by
  have hne : s ≠ Base64.encode variant (Utf8.encode s) := by
    intro heq
    rw [heq] at hcolon
    exact colon_notMem_encode hcolon
  rw [unwrap, decodeLoose_encode variant (ne_nil_of_mem hcolon) h, Option.filter_some, hlooks,
    Bool.and_true, if_pos (decide_eq_true hne)]

theorem readInput_of_unread {input text decoded : Text} (h : look jvm input = .ok (.unread text))
    (hunwrap : unwrap jvm text = some decoded) :
    readInput jvm (layers + 1) input = readInput jvm layers decoded := by
  rw [readInput.eq_def]
  simp only [h, hunwrap]

theorem length_le_encode (s : Text) :
    length s ≤ length (Base64.encode variant (Utf8.encode s)) := by
  calc
    length s ≤ (Utf8.encode s).length := length_le_utf8 s
    _ ≤ (Base64.sextets (Utf8.encode s)).length := Base64.length_le_sextets _
    _ ≤ (Base64.encode variant (Utf8.encode s)).length := by
      rw [Base64.encode, length_append, length_map]
      exact Nat.le_add_right _ _
    _ = length (Base64.encode variant (Utf8.encode s)) :=
      (length_of_isVisible fun _ hc => LooseBase64.isVisible_of_mem_encode hc).symm

/-! The text looks like one with configs in it. -/

theorem startsWithIgnoreCase_lowercase (h : literal.IsAscii) (rest : Text) :
    startsWithIgnoreCase jvm literal.toAsciiLowercase (literal ++ rest) = true := by
  induction literal with
  | nil => rfl
  | cons d literal ih =>
    have hd : d.toNat < 128 := h d (by simp)
    have hlower : d.toLower.toNat < 128 := by
      have hall : ∀ n < 128, (Char.ofNat n).toLower.toNat < 128 := by decide +kernel
      simpa [Char.ofNat_toNat] using hall d.toNat hd
    have hsame : jvm.same d.toLower d = true := by
      rw [Jvm.same, if_pos ⟨hlower, hd⟩]
      simp [Text.toLower_of_not_isUpper d.isUpper_toLower_eq_false]
    show (jvm.same d.toLower d &&
      startsWithIgnoreCase jvm (Text.toAsciiLowercase literal) (literal ++ rest)) = true
    rw [hsame, ih fun e he => h e (mem_cons_of_mem d he)]
    rfl

theorem containsIgnoreCase_append (a : Text) (h : containsIgnoreCase jvm literal s = true) :
    containsIgnoreCase jvm literal (a ++ s) = true := by
  induction a with
  | nil => exact h
  | cons e a ih => rw [cons_append, containsIgnoreCase, ih, Bool.or_true]

theorem containsIgnoreCase_of_startsWith (h : startsWithIgnoreCase jvm literal s = true) :
    containsIgnoreCase jvm literal s = true := by
  cases s with
  | nil =>
    cases literal with
    | nil => rfl
    | cons d literal => cases h
  | cons c s => rw [containsIgnoreCase, h, Bool.true_or]

theorem looksLikeConfigText_of_link (l : ShareLink jvm) (a b : Text) :
    looksLikeConfigText jvm (a ++ (l.text ++ b)) = true := by
  have hascii : Text.IsAscii (l.scheme ++ [':', '/', '/']) := by
    intro c hc
    rcases mem_append.mp hc with hc | hc
    · exact toNat_lt_of_isVisible
        (ShareLink.isVisible_of_isAlphanum (ShareLink.isAlphanum_of_mem_scheme hc))
    · simp only [mem_cons, not_mem_nil, or_false] at hc
      rcases hc with rfl | rfl | rfl <;> decide
  have hliteral : l.scheme.toAsciiLowercase ++ [':', '/', '/'] =
      Text.toAsciiLowercase (l.scheme ++ [':', '/', '/']) := by
    rw [Text.toAsciiLowercase, Text.toAsciiLowercase, map_append]
    rfl
  have htext : l.text ++ b =
      (l.scheme ++ [':', '/', '/']) ++ (l.body ++ l.name.elim [] ('#' :: ·) ++ b) := by
    simp [ShareLink.text, linkText]
  rw [looksLikeConfigText, Bool.or_eq_true]
  refine .inr (any_eq_true.mpr ⟨_, l.supported, ?_⟩)
  apply containsIgnoreCase_append
  apply containsIgnoreCase_of_startsWith
  rw [hliteral, htext]
  exact startsWithIgnoreCase_lowercase hascii _

theorem Joined.exists_eq_cons (h : Joined first others s) :
    ∃ e rest, s = e :: rest ∧ e.toNat < 128 ∧
      (isGapChar e = true ∨ e.toLower ∈ schemeInitials) := by
  obtain ⟨hgaps, lead, tail, hlead, -, rfl⟩ := h
  cases lead with
  | nil =>
    obtain ⟨e, rest, htext, hinitial, halpha⟩ := exists_text_eq_cons first
    obtain ⟨u, hu, -⟩ := join_eq_append first hgaps
    refine ⟨e, rest ++ u ++ tail, by rw [hu, htext]; rfl, ?_, .inr hinitial⟩
    exact toNat_lt_of_isVisible (ShareLink.isVisible_of_isAlphanum halpha)
  | cons e lead =>
    have he := hlead e (by simp)
    refine ⟨e, lead ++ join first others ++ tail, rfl, ?_, .inl he⟩
    simp only [isGapChar, Bool.or_eq_true, decide_eq_true_eq] at he
    rcases he with rfl | rfl <;> decide

theorem Joined.exists_eq_append (h : Joined first others s) :
    ∃ a b, s = a ++ (first.text ++ b) := by
  obtain ⟨hgaps, lead, tail, -, -, rfl⟩ := h
  obtain ⟨u, hu, -⟩ := join_eq_append first hgaps
  exact ⟨lead, u ++ tail, by simp only [hu, append_assoc]⟩

theorem readInput_encode (h : Joined first others s)
    (hlength : length (Base64.encode variant (Utf8.encode s)) ≤ maxInputChars) :
    readInput jvm (layers + 1) (Base64.encode variant (Utf8.encode s)) =
      readInput jvm layers s := by
  obtain ⟨a, b, hform⟩ := h.exists_eq_append
  have hlooks : looksLikeConfigText jvm s = true := hform ▸ looksLikeConfigText_of_link first a b
  have hcolon : ':' ∈ s := by
    rw [hform]
    simp [ShareLink.text, linkText]
  have hunwrap := unwrap_encode variant hcolon (fun _ => h.isTextChar) hlooks
  obtain ⟨e, rest, hcons, hascii, he⟩ := h.exists_eq_cons
  obtain ⟨d, tail, heq, halpha, hlower⟩ := exists_encode_eq_cons variant rest hascii he
  rw [← hcons] at heq
  rw [heq] at hlength hunwrap ⊢
  exact readInput_of_unread (look_encode heq halpha hlower hlength) hunwrap

/-! ## The configs -/

theorem parseLoop_ok {links : List Text} {configs : List ParsedConfig}
    (h : links.map (parseLink jvm org) = configs.map Except.ok) (out : List ParsedConfig)
    (firstError : Option ConfigParseException) :
    parseLoop jvm org out firstError links =
      (out ++ configs.take (maxConfigs - out.length), firstError) := by
  induction links generalizing configs out with
  | nil =>
    obtain rfl : configs = [] := map_eq_nil_iff.mp h.symm
    simp [parseLoop]
  | cons link links ih =>
    obtain ⟨config, configs', rfl⟩ : ∃ config configs', configs = config :: configs' := by
      cases configs with
      | nil => cases h
      | cons config configs' => exact ⟨config, configs', rfl⟩
    obtain ⟨hlink, hlinks⟩ := List.cons.inj h
    rw [parseLoop]
    split
    · rename_i hfull
      rw [Nat.sub_eq_zero_of_le hfull, take_zero, append_nil]
    · rename_i hroom
      obtain ⟨room, hroom'⟩ : ∃ room, maxConfigs - out.length = room + 1 :=
        ⟨maxConfigs - out.length - 1, by omega⟩
      have hroom'' : maxConfigs - (out ++ [config]).length = room := by
        rw [length_append, length_singleton]
        omega
      rw [hlink]
      show parseLoop jvm org (out ++ [config]) firstError links = _
      rw [ih hlinks, hroom', hroom'', take_succ_cons, append_assoc]
      rfl

theorem parseInput_links {links : List Text} {configs : List ParsedConfig} (hne : links ≠ [])
    (h : links.map (parseLink jvm org) = configs.map Except.ok) :
    parseInput jvm org (.links links) = .ok (configs.take maxConfigs) := by
  have hconfigs : configs ≠ [] := by
    rintro rfl
    exact hne (map_eq_nil_iff.mp h)
  have htake : configs.take maxConfigs ≠ [] := by
    intro htake
    rcases take_eq_nil_iff.mp htake with hzero | hnil
    · exact absurd hzero (by decide)
    · exact hconfigs hnil
  rw [parseInput, parseLoop_ok h]
  simp only [nil_append, length_nil, Nat.sub_zero, if_neg htake]

/-- Links with gaps of spaces and newlines between them, as a text or in
base64, parse to their configs, in order and up to the limit. -/
theorem parse_joined (jvm : Jvm) (org : OrgJson) (lead tail : Text) (first : ShareLink jvm)
    (others : List (Text × ShareLink jvm)) (configs : List ParsedConfig)
    (hlead : Gap lead) (htail : Gap tail) (hgaps : Gaps others)
    (hparse : (first.text :: others.map fun p => p.2.text).map (parseLink jvm org) =
      configs.map Except.ok)
    (hmtproto : looksLikeMtProto jvm (join first others) = false) :
    (length (lead ++ join first others ++ tail) ≤ maxInputChars →
      parse jvm org (lead ++ join first others ++ tail) = .ok (configs.take maxConfigs)) ∧
    ∀ variant : Base64.Variant,
      length (Base64.encode variant (Utf8.encode (lead ++ join first others ++ tail))) ≤
          maxInputChars →
        parse jvm org (Base64.encode variant (Utf8.encode (lead ++ join first others ++ tail))) =
          .ok (configs.take maxConfigs) := by
  have hconfigs := parseInput_links (cons_ne_nil _ _) hparse
  have hjoined : Joined first others (lead ++ join first others ++ tail) :=
    ⟨hgaps, lead, tail, hlead, htail, rfl⟩
  refine ⟨fun hlength => ?_, fun variant hlength => ?_⟩
  · rw [parse, readInput_of_found (look_joined hjoined hlength hmtproto)]
    exact hconfigs
  · have hplain := le_trans (length_le_encode variant _) hlength
    rw [parse, maxBase64Depth, readInput_encode variant hjoined hlength,
      readInput_of_found (look_joined hjoined hplain hmtproto)]
    exact hconfigs

def serversOf (found : Except ConfigParseException (List ParsedConfig)) : Option (List Text) :=
  found.toOption.map fun configs => configs.map (·.server)

def base64Of (s : Text) : Text := Base64.encode { urlSafe := false, pad := true } (Utf8.encode s)

theorem exists_config {found : Except ConfigParseException ParsedConfig} {server : Text}
    (h : found.toOption.map (·.server) = some server) :
    ∃ config, found = .ok config ∧ config.server = server := by
  cases found with
  | error e => cases h
  | ok config => exact ⟨config, rfl, Option.some.inj h⟩

theorem parse_joined_three :
    serversOf (parse .basicLatin (.ofTable [])
      " SOCKS://a:1#my server  \n socks5://b:2 wg://k@c:3?publickey=p\n".toList) =
        some ["a:1".toList, "b:2".toList, "c:3".toList] ∧
    serversOf (parse .basicLatin (.ofTable []) (base64Of
      " SOCKS://a:1#my server  \n socks5://b:2 wg://k@c:3?publickey=p\n".toList)) =
        some ["a:1".toList, "b:2".toList, "c:3".toList] := by
  have hgap : ∀ gap : Text, gap.all isGapChar = true → Gap gap := fun _ => all_eq_true.mp
  let first : ShareLink .basicLatin :=
    { scheme := "SOCKS".toList, body := "a:1".toList, name := some "my server".toList,
      supported := by decide, body_ne := by decide,
      body_chars := all_eq_true.mp (by decide),
      name_chars := fun n hn => by cases hn; exact all_eq_true.mp (by decide),
      last := fun c hc => by obtain rfl : 'r' = c := Option.some.inj hc; decide,
      oneStart := by decide }
  let second : ShareLink .basicLatin :=
    { scheme := "socks5".toList, body := "b:2".toList, name := none,
      supported := by decide, body_ne := by decide,
      body_chars := all_eq_true.mp (by decide), name_chars := nofun,
      last := fun c hc => by obtain rfl : '2' = c := Option.some.inj hc; decide,
      oneStart := by decide }
  let third : ShareLink .basicLatin :=
    { scheme := "wg".toList, body := "k@c:3?publickey=p".toList, name := none,
      supported := by decide, body_ne := by decide,
      body_chars := all_eq_true.mp (by decide), name_chars := nofun,
      last := fun c hc => by obtain rfl : 'p' = c := Option.some.inj hc; decide,
      oneStart := by decide }
  have hgaps : Gaps [("  \n ".toList, second), (" ".toList, third)] := by
    intro p hp
    simp only [mem_cons, not_mem_nil, or_false] at hp
    rcases hp with rfl | rfl
    · exact ⟨hgap _ (by decide), by decide⟩
    · exact ⟨hgap _ (by decide), by decide⟩
  obtain ⟨a, ha, haServer⟩ : ∃ config, parseLink .basicLatin (.ofTable []) first.text = .ok config ∧
      config.server = "a:1".toList := exists_config (by decide +kernel)
  obtain ⟨b, hb, hbServer⟩ : ∃ config, parseLink .basicLatin (.ofTable []) second.text = .ok config ∧
      config.server = "b:2".toList := exists_config (by decide +kernel)
  obtain ⟨c, hc, hcServer⟩ : ∃ config, parseLink .basicLatin (.ofTable []) third.text = .ok config ∧
      config.server = "c:3".toList := exists_config (by decide +kernel)
  obtain ⟨hplain, hencoded⟩ := parse_joined .basicLatin (.ofTable []) [' '] ['\n'] first
    [("  \n ".toList, second), (" ".toList, third)] [a, b, c]
    (hgap _ (by decide)) (hgap _ (by decide)) hgaps (by simp [ha, hb, hc]) (by decide +kernel)
  have hservers : serversOf (.ok [a, b, c]) =
      some ["a:1".toList, "b:2".toList, "c:3".toList] := by
    simp [serversOf, Except.toOption, haServer, hbServer, hcServer]
  constructor
  · exact (congrArg serversOf (hplain (by decide +kernel))).trans hservers
  · exact (congrArg serversOf (hencoded _ (by decide +kernel))).trans hservers

/-- Links that are not found again: an empty list, a link with the start of
another one in it, one that mentions a Telegram proxy, and base64 of base64. -/
theorem joined_not_parsed :
    (["socks://a:1?x=socks://b:2".toList, "socks://a:1#telegram.me/proxy?secret=".toList,
        "socks://a:1".toList].map fun link =>
      (parseLink .basicLatin (.ofTable []) link).toOption.map (·.server)) =
        List.replicate 3 (some "a:1".toList) ∧
    serversOf (parse .basicLatin (.ofTable []) []) = none ∧
    serversOf (parse .basicLatin (.ofTable []) "socks://a:1?x=socks://b:2".toList) =
      some ["a:1".toList, "b:2".toList] ∧
    serversOf (parse .basicLatin (.ofTable []) "socks://a:1#telegram.me/proxy?secret=".toList) =
      none ∧
    serversOf (parse .basicLatin (.ofTable []) (base64Of (base64Of "socks://a:1".toList))) =
      none := by
  decide +kernel

end ConfigInputParser

end BigRocket.Config
