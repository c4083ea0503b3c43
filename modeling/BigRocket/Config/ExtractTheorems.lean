/-
The links that are found in a text are the ones it was put together from.
-/
import BigRocket.Config.ConfigInputParser

namespace BigRocket.Config

open Lib Lib.Kotlin LinkSyntax List Option

namespace ConfigInputParser

variable {jvm : Jvm} {a g rest : Text} {c : Char} {before : Option Char} {skip place : Nat}

/-! ## The pattern at a gap -/

def isGapChar (c : Char) : Bool := c = ' ' || c = '\n'

theorem fold_of_isGapChar (h : isGapChar c = true) : jvm.fold c = [c] := by
  simp only [isGapChar, Bool.or_eq_true, decide_eq_true_eq] at h
  rcases h with rfl | rfl <;> rfl

theorem isWhitespace_of_isGapChar (h : isGapChar c = true) : isWhitespace c = true := by
  simp only [isGapChar, Bool.or_eq_true, decide_eq_true_eq] at h
  rcases h with rfl | rfl <;> decide

theorem notMem_of_isGapChar (h : isGapChar c = true) {s : Text}
    (hs : s.any isGapChar = false) : c ∉ s := by
  intro hmem
  rw [List.any_eq_false] at hs
  exact hs c hmem h

theorem gapFree_schemes : ∀ scheme ∈ sortedSchemes, scheme.any isGapChar = false := by decide

theorem isPrefixOf_append_cons {p : Text} (h : c ∉ p) :
    p.isPrefixOf (a ++ c :: rest) = p.isPrefixOf a := by
  induction p generalizing a with
  | nil => rw [isPrefixOf_nil_left, isPrefixOf_nil_left]
  | cons d p ih =>
    have hne : ¬ d = c := fun heq => h (heq ▸ mem_cons_self ..)
    have hrest : c ∉ p := fun hmem => h (mem_cons_of_mem d hmem)
    cases a with
    | nil => simp [List.isPrefixOf, hne]
    | cons e a => simp [List.isPrefixOf, ih hrest]

theorem matchLiteral_append_cons {literal : Text} (hfold : jvm.fold c = [c]) (h : c ∉ literal) :
    matchLiteral jvm literal (a ++ c :: rest) = matchLiteral jvm literal a := by
  induction a generalizing literal with
  | nil =>
    have hnot : [c].isPrefixOf literal = false := by
      cases literal with
      | nil => rfl
      | cons d literal =>
        have hne : ¬ c = d := fun heq => h (heq ▸ mem_cons_self ..)
        simp [List.isPrefixOf, hne]
    simp [matchLiteral, hfold, hnot]
  | cons e a ih =>
    have hrest : c ∉ literal.drop (jvm.fold e).length := fun hmem => h (mem_of_mem_drop hmem)
    simp only [cons_append, matchLiteral, ih hrest]

theorem matchLiteral_le {literal s : Text} {n : Nat} (h : matchLiteral jvm literal s = some n) :
    n ≤ s.length := by
  induction s generalizing literal n with
  | nil =>
    unfold matchLiteral at h
    split at h
    · cases h; exact le_rfl
    · cases h
  | cons e s ih =>
    unfold matchLiteral at h
    split at h
    · cases h; exact Nat.zero_le _
    · split at h
      · obtain ⟨m, hm, rfl⟩ := map_eq_some_iff.mp h
        exact Nat.succ_le_succ (ih hm)
      · cases h

theorem findSome?_congr {α β : Type} {f g : α → Option β} {l : List α}
    (h : ∀ x ∈ l, f x = g x) : l.findSome? f = l.findSome? g := by
  induction l with
  | nil => rfl
  | cons x l ih =>
    rw [findSome?_cons, findSome?_cons, h x (by simp),
      ih fun y hy => h y (mem_cons_of_mem x hy)]

theorem linkStart_append_cons (h : isGapChar c = true) :
    linkStart jvm before (a ++ c :: rest) = linkStart jvm before a := by
  have hfold : jvm.fold c = [c] := fold_of_isGapChar h
  unfold linkStart
  split
  · rfl
  · apply findSome?_congr
    intro scheme hscheme
    rw [matchLiteral_append_cons hfold (notMem_of_isGapChar h (gapFree_schemes scheme hscheme))]
    cases hmatch : matchLiteral jvm scheme a with
    | none => rfl
    | some n =>
      have hsep : c ∉ [':', '/', '/'] := notMem_of_isGapChar h (by decide)
      rw [bind_some, bind_some, drop_append_of_le_length (matchLiteral_le hmatch),
        isPrefixOf_append_cons hsep]

theorem linkStart_le {s : Text} {n : Nat} (h : linkStart jvm before s = some n) : n ≤ s.length := by
  unfold linkStart at h
  split at h
  · cases h
  · obtain ⟨scheme, -, hmatch⟩ := exists_of_findSome?_eq_some h
    obtain ⟨m, hm, hsep⟩ := bind_eq_some_iff.mp hmatch
    split at hsep
    · rename_i hprefix
      cases hsep
      have hle := ( isPrefixOf_iff_prefix.mp hprefix).length_le
      simp only [length_cons, length_nil, length_drop] at hle
      omega
    · cases hsep

theorem linkStart_nil : linkStart jvm before [] = none := by
  unfold linkStart
  split
  · rfl
  · rfl

theorem linkStart_gap (h : isGapChar c = true) : linkStart jvm before (c :: rest) = none := by
  have hsplit : linkStart jvm before ([] ++ c :: rest) = linkStart jvm before [] :=
    linkStart_append_cons h
  rw [← linkStart_nil]
  exact hsplit

theorem not_isSchemeChar_of_isGapChar (h : isGapChar c = true) : isSchemeChar jvm c = false := by
  rw [isSchemeChar, fold_of_isGapChar h]
  simp only [isGapChar, Bool.or_eq_true, decide_eq_true_eq] at h
  rcases h with rfl | rfl <;> decide

/-! ## All places of the pattern -/

theorem findStarts_append_cons (h : isGapChar c = true) (hskip : skip ≤ a.length) :
    findStarts jvm before skip place (a ++ c :: rest) =
      findStarts jvm before skip place a ++
        findStarts jvm (some c) 0 (place + a.length + 1) rest := by
  induction a generalizing before skip place with
  | nil =>
    obtain rfl : skip = 0 := Nat.le_zero.mp hskip
    simp only [nil_append, findStarts, linkStart_gap h, length_nil, Nat.add_zero]
  | cons e a ih =>
    have hplace : place + (e :: a).length + 1 = place + 1 + a.length + 1 := by
      rw [length_cons]
      omega
    rw [hplace]
    cases skip with
    | succ skip =>
      exact ih (by omega)
    | zero =>
      have hstart : linkStart jvm before (e :: (a ++ c :: rest)) =
          linkStart jvm before (e :: a) := linkStart_append_cons (a := e :: a) h
      simp only [cons_append, findStarts, hstart]
      cases hn : linkStart jvm before (e :: a) with
      | none => exact ih (Nat.zero_le _)
      | some n =>
        have hle := linkStart_le hn
        simp only [cons_append]
        rw [ih (by omega)]

theorem findStarts_add (n : Nat) (s : Text) :
    findStarts jvm before skip (place + n) s = (findStarts jvm before skip place s).map (· + n) := by
  induction s generalizing before skip place with
  | nil => rfl
  | cons e s ih =>
    have hplace : place + n + 1 = place + 1 + n := by omega
    cases skip with
    | succ skip =>
      simp only [findStarts, hplace]
      exact ih
    | zero =>
      simp only [findStarts, hplace]
      cases linkStart jvm before (e :: s) with
      | none => exact ih
      | some m => simp only [ih, map_cons]

theorem findStarts_behind_gap (h : isGapChar c = true) (s : Text) :
    findStarts jvm (some c) 0 place s = findStarts jvm none 0 place s := by
  have hstart : ∀ t : Text, linkStart jvm (some c) t = linkStart jvm none t := by
    simp [linkStart, not_isSchemeChar_of_isGapChar h]
  cases s with
  | nil => rfl
  | cons e s => simp only [findStarts, hstart]

def Gap (s : Text) : Prop := ∀ c ∈ s, isGapChar c = true

theorem findStarts_gap_append (h : Gap a) (hbefore : isGapChar c = true) (s : Text) :
    findStarts jvm (some c) 0 place (a ++ s) = findStarts jvm none 0 (place + a.length) s := by
  induction a generalizing c place with
  | nil => exact findStarts_behind_gap hbefore s
  | cons e a ih =>
    have he : isGapChar e = true := h e (by simp)
    have hplace : place + (e :: a).length = place + 1 + a.length := by
      rw [length_cons]
      omega
    rw [cons_append, hplace, ← ih (fun d hd => h d (mem_cons_of_mem e hd)) he]
    simp only [findStarts, linkStart_gap he]

theorem findStarts_append_gap {gap : Text} (hgap : Gap gap) (hne : gap ≠ []) (s : Text) :
    findStarts jvm none 0 0 (a ++ gap ++ s) =
      findStarts jvm none 0 0 a ++
        (findStarts jvm none 0 0 s).map (· + (a ++ gap).length) := by
  cases gap with
  | nil => exact absurd rfl hne
  | cons c gap =>
    have hc : isGapChar c = true := hgap c (by simp)
    have hlength : 0 + a.length + 1 + gap.length = 0 + (a ++ c :: gap).length := by
      rw [length_append, length_cons]
      omega
    rw [append_assoc, cons_append, findStarts_append_cons hc (Nat.zero_le _),
      findStarts_gap_append (fun d hd => hgap d (mem_cons_of_mem c hd)) hc, hlength,
      findStarts_add]

/-! ## Share links -/

def isBodyChar (c : Char) : Bool :=
  !isWhitespace c && !isISOControl c && !isInvisible c && c ≠ '#'

/-- A character of a name: a name may hold spaces, but none of those that
cleaning replaces. -/
def isNameChar (c : Char) : Bool :=
  !isISOControl c && !isInvisible c && c ≠ '\u00A0' && c ≠ '\u202F'

def linkText (scheme body : Text) (name : Option Text) : Text :=
  scheme ++ [':', '/', '/'] ++ body ++ (name.elim [] ('#' :: ·))

/-- A link of a supported scheme, in capitals or not, in which the pattern
finds no start but its own and which does not end in punctuation. -/
structure ShareLink (jvm : Jvm) where
  scheme : Text
  body : Text
  name : Option Text
  supported : scheme.toAsciiLowercase ∈ schemes
  body_ne : body ≠ []
  body_chars : ∀ c ∈ body, isBodyChar c = true
  name_chars : ∀ n ∈ name, ∀ c ∈ n, isNameChar c = true
  last : ∀ c ∈ (linkText scheme body name).getLast?, isWhitespace c = false ∧ c ∉ linkTrailers
  oneStart : findStarts jvm none 0 0 (linkText scheme body name) = [0]

namespace ShareLink

variable {l : ShareLink jvm}

def text (l : ShareLink jvm) : Text := linkText l.scheme l.body l.name

def address (l : ShareLink jvm) : Text := l.scheme ++ [':', '/', '/'] ++ l.body

theorem text_eq : l.text = l.address ++ l.name.elim [] ('#' :: ·) := rfl

theorem alphanum_schemes : (schemes.all fun scheme => scheme.all Char.isAlphanum) = true := by
  decide

theorem isAlphanum_of_toLower (h : c.toLower.isAlphanum = true) : c.isAlphanum = true := by
  by_cases hupper : c.isUpper = true
  · simp [Char.isAlphanum, Char.isAlpha, hupper]
  · rwa [Text.toLower_of_not_isUpper (Bool.eq_false_iff.mpr hupper)] at h

theorem isAlphanum_of_mem_scheme (h : c ∈ l.scheme) : c.isAlphanum = true :=
  isAlphanum_of_toLower (all_eq_true.mp (all_eq_true.mp alphanum_schemes _ l.supported) _
    (mem_map_of_mem h))

theorem isVisible_of_isAlphanum (h : c.isAlphanum = true) : isVisible c = true :=
  isVisible_of_isUnreserved (by simp [isUnreserved, h])

theorem notMem_scheme (h : c.isAlphanum = false) : c ∉ l.scheme := by
  intro hmem
  rw [isAlphanum_of_mem_scheme hmem] at h
  cases h

theorem scheme_ne_nil : l.scheme ≠ [] := by
  intro h
  have hsupported := l.supported
  rw [h] at hsupported
  exact absurd hsupported (by decide)

theorem not_isWhitespace_of_mem_address (h : c ∈ l.address) : isWhitespace c = false := by
  simp only [address, mem_append, mem_cons, not_mem_nil, or_false] at h
  rcases h with (h | rfl | rfl | rfl) | h
  · exact isWhitespace_of_isVisible (isVisible_of_isAlphanum (isAlphanum_of_mem_scheme h))
  · decide
  · decide
  · decide
  · have hbody := l.body_chars c h
    simp only [isBodyChar, Bool.and_eq_true, Bool.not_eq_true'] at hbody
    exact hbody.1.1.1

theorem hash_notMem_address : '#' ∉ l.address := by
  intro h
  simp only [address, mem_append, mem_cons, not_mem_nil, or_false] at h
  rcases h with (h | h | h | h) | h
  · exact notMem_scheme (by decide) h
  · exact absurd h (by decide)
  · exact absurd h (by decide)
  · exact absurd h (by decide)
  · exact absurd (l.body_chars _ h) (by decide)

theorem trimmed_text : Trimmed l.text := by
  refine ⟨fun c hc => ?_, fun c hc => (l.last c hc).1⟩
  have hne := l.scheme_ne_nil
  obtain ⟨e, scheme, hscheme⟩ := exists_cons_of_ne_nil hne
  have hhead : l.text.head? = some e := by
    rw [text, linkText, hscheme]
    rfl
  rw [hhead, mem_some_iff] at hc
  subst hc
  exact isWhitespace_of_isVisible (isVisible_of_isAlphanum
    (isAlphanum_of_mem_scheme (l := l) (hscheme ▸ mem_cons_self ..)))

theorem text_ne_nil : l.text ≠ [] := by
  intro h
  have hnil := l.scheme_ne_nil
  simp only [text, linkText, append_assoc, append_eq_nil_iff] at h
  exact hnil h.1

/-! ## The link of a piece -/

theorem trim_append_gap {gap : Text} (hgap : Gap gap) : trim (l.text ++ gap) = l.text :=
  trim_append (a := []) nofun (fun c hc => isWhitespace_of_isGapChar (hgap c hc)) l.trimmed_text
    l.text_ne_nil

theorem cutAtSpace_text : cutAtSpace l.text = l.text := by
  cases hname : l.name with
  | none =>
    have htext : l.text = l.address := by
      rw [text_eq, hname]
      exact append_nil _
    have hnone : l.text.findIdx? isWhitespace = none := by
      rw [htext, findIdx?_eq_none_iff]
      exact fun c hc => not_isWhitespace_of_mem_address hc
    rw [cutAtSpace, hnone]
  | some name =>
    have htext : l.text = l.address ++ '#' :: name := by
      rw [text_eq, hname]
      rfl
    have hhash : l.text.idxOf? '#' = some l.address.length := by
      rw [htext, List.idxOf?, findIdx?_append]
      have hnone : l.address.findIdx? (· == '#') = none := by
        rw [findIdx?_eq_none_iff]
        intro c hc
        simpa using fun heq : c = '#' => hash_notMem_address (heq ▸ hc)
      simp [hnone, findIdx?_cons]
    rw [cutAtSpace, hhash]
    cases hspace : l.text.findIdx? isWhitespace with
    | none => rfl
    | some space =>
      have hle : ¬ space < l.address.length := by
        intro hlt
        obtain ⟨hbound, hwhite, -⟩ := findIdx?_eq_some_iff_getElem.mp hspace
        have hmem : l.text[space] ∈ l.address := by
          simp only [htext, getElem_append_left hlt]
          exact getElem_mem hlt
        rw [not_isWhitespace_of_mem_address hmem] at hwhite
        cases hwhite
      exact if_neg hle

theorem quotes_subset : (quotes.all fun c => linkTrailers.contains c) = true := by decide

theorem trimLink_append_gap {gap : Text} (hgap : Gap gap) : trimLink (l.text ++ gap) = l.text := by
  have hkeep : ∀ chars : Text, (∀ c ∈ chars, c ∈ linkTrailers) →
      trimEndOf chars l.text = l.text := by
    intro chars hchars
    apply rdropWhile_of_getLast
    intro c hc
    have hnot := (l.last c hc).2
    simpa using fun hmem => hnot (hchars c hmem)
  rw [trimLink, trim_append_gap hgap, cutAtSpace_text]
  split
  · exact hkeep quotes fun c hc => by simpa using all_eq_true.mp quotes_subset c hc
  · exact hkeep linkTrailers fun _ h => h

theorem hasBody_text : hasBody l.text = true := by
  have hcolon : ':' ∉ l.scheme := notMem_scheme (by decide)
  have hform : l.text = l.scheme ++ ':' :: ['/', '/'] ++ (l.body ++ l.name.elim [] ('#' :: ·)) := by
    simp [text, linkText]
  obtain ⟨c, body, hbody⟩ := exists_cons_of_ne_nil l.body_ne
  have hvisible : isWhitespace c = false :=
    not_isWhitespace_of_mem_address (l := l) (by simp [address, hbody])
  rw [hasBody, hform, cut_append hcolon, hbody]
  simp [isBlank, hvisible]

end ShareLink

/-! ## The links of a line -/

theorem substring_append_left : substring (a ++ g) 0 a.length = a := by
  simp [substring]

theorem substring_append_right (start stop : Nat) :
    substring (a ++ g) (start + a.length) (stop + a.length) = substring g start stop := by
  have hlength : stop + a.length - (start + a.length) = stop - start := by omega
  have hdrop : (a ++ g).drop (start + a.length) = g.drop start := by
    rw [drop_append, drop_of_length_le (by omega), Nat.add_sub_cancel]
    rfl
  rw [substring, substring, hlength, hdrop]

theorem map_substring_add (places : List (Nat × Nat)) :
    (places.map fun ends => (ends.1 + a.length, ends.2 + a.length)).map
        (fun ends => substring (a ++ g) ends.1 ends.2) =
      places.map fun ends => substring g ends.1 ends.2 := by
  rw [List.map_map]
  apply map_congr_left
  intro ends _
  exact substring_append_right ends.1 ends.2

theorem pieces_append (starts : List Nat) :
    pieces (0 :: (0 :: starts).map (· + a.length)) (a ++ g) = a :: pieces (0 :: starts) g := by
  have hends : starts.map (· + a.length) ++ [(a ++ g).length] =
      (starts ++ [g.length]).map (· + a.length) := by
    rw [map_append, length_append, Nat.add_comm]
    rfl
  have hzip : ((0 :: starts).map (· + a.length)).zip ((starts ++ [g.length]).map (· + a.length)) =
      ((0 :: starts).zip (starts ++ [g.length])).map
        fun ends => (ends.1 + a.length, ends.2 + a.length) := by
    rw [zip_map]
    rfl
  calc
    pieces (0 :: (0 :: starts).map (· + a.length)) (a ++ g) =
        substring (a ++ g) 0 (0 + a.length) ::
          (((0 :: starts).map (· + a.length)).zip
            (starts.map (· + a.length) ++ [(a ++ g).length])).map
              fun ends => substring (a ++ g) ends.1 ends.2 := rfl
    _ = a :: pieces (0 :: starts) g := by
      rw [Nat.zero_add, substring_append_left, hends, hzip, map_substring_add]
      rfl

def StartsLink (jvm : Jvm) (s : Text) : Prop := ∃ tail, findStarts jvm none 0 0 s = 0 :: tail

theorem extractLinks_text (l : ShareLink jvm) : extractLinks jvm l.text = [l.text] := by
  have hstart : findStarts jvm none 0 0 l.text = [0] := l.oneStart
  have hpieces : pieces [0] l.text = [l.text ++ []] := by simp [pieces, substring]
  have hlink : trimLink (l.text ++ []) = l.text := l.trimLink_append_gap nofun
  rw [extractLinks, hstart, hpieces]
  simp only [map_cons, map_nil, hlink, filter_cons, l.hasBody_text, if_true,
    filter_nil]

theorem extractLinks_append_gap (l : ShareLink jvm) {gap : Text} (hgap : Gap gap) (hne : gap ≠ [])
    (hg : StartsLink jvm g) :
    extractLinks jvm (l.text ++ gap ++ g) = l.text :: extractLinks jvm g := by
  obtain ⟨tail, htail⟩ := hg
  have hstart : findStarts jvm none 0 0 l.text = [0] := l.oneStart
  rw [extractLinks, findStarts_append_gap hgap hne, hstart, htail, singleton_append,
    pieces_append, map_cons, l.trimLink_append_gap hgap, filter_cons, if_pos l.hasBody_text,
    extractLinks, htail]

/-! ## The links of a text -/

theorem allLinks_newline (s : Text) : allLinks jvm ('\n' :: s) = allLinks jvm s := rfl

theorem allLinks_space (s : Text) : allLinks jvm (' ' :: s) = allLinks jvm s := by
  obtain ⟨first, others, hlines⟩ := exists_lines_eq_cons s
  have htrim : trim (' ' :: first) = trim first := rfl
  rw [allLinks, allLinks, lines_cons (by decide) (by decide), hlines, modifyHead_cons,
    map_cons, map_cons, htrim]

theorem allLinks_gap {gap : Text} (h : Gap gap) (s : Text) :
    allLinks jvm (gap ++ s) = allLinks jvm s := by
  induction gap with
  | nil => rfl
  | cons c gap ih =>
    have hrest := ih fun d hd => h d (mem_cons_of_mem c hd)
    have hc := h c (by simp)
    simp only [isGapChar, Bool.or_eq_true, decide_eq_true_eq] at hc
    rcases hc with rfl | rfl
    · rw [cons_append, allLinks_space, hrest]
    · rw [cons_append, allLinks_newline, hrest]

theorem allLinks_of_lines {s first : Text} {others : List Text} (h : lines s = first :: others)
    (hne : trim first ≠ []) :
    allLinks jvm s = extractLinks jvm (trim first) ++
      ((others.map trim).filter (· ≠ [])).flatMap (extractLinks jvm) := by
  rw [allLinks, h, map_cons, filter_cons, if_pos (by simpa using hne),
    flatMap_cons]

namespace ShareLink

variable {l : ShareLink jvm}

theorem oneLine_text : OneLine l.text := by
  intro d hd
  rcases mem_append.mp hd with haddress | hname
  · have hwhite := not_isWhitespace_of_mem_address haddress
    constructor <;>
      · rintro rfl
        exact absurd hwhite (by decide)
  · cases hl : l.name with
    | none => rw [hl] at hname; cases hname
    | some name =>
      rw [hl] at hname
      rcases mem_cons.mp hname with rfl | hmem
      · decide
      · have hchar := l.name_chars name hl d hmem
        constructor <;>
          · rintro rfl
            exact absurd hchar (by decide)

end ShareLink

def GapStart (s : Text) : Prop := ∀ c ∈ s.head?, isGapChar c = true

theorem lines_of_link (l : ShareLink jvm) {u : Text} (hu : GapStart u) :
    ∃ first others, lines (l.text ++ u) = (l.text ++ first) :: others ∧
      ∀ c ∈ first.head?, c = ' ' := by
  obtain ⟨first, others, hlines⟩ := exists_lines_eq_cons u
  refine ⟨first, others, by rw [lines_append l.oneLine_text, hlines, modifyHead_cons], ?_⟩
  cases u with
  | nil =>
    cases hlines
    nofun
  | cons e u =>
    have he := hu e rfl
    simp only [isGapChar, Bool.or_eq_true, decide_eq_true_eq] at he
    rcases he with rfl | rfl
    · obtain ⟨first', others', hlines'⟩ := exists_lines_eq_cons u
      rw [lines_cons (by decide) (by decide), hlines', modifyHead_cons] at hlines
      cases hlines
      intro c hc
      cases hc
      rfl
    · cases hlines
      nofun

theorem head_trimEnd {s : Text} (h : ∀ c ∈ s.head?, c = ' ') : ∀ c ∈ (trimEnd s).head?, c = ' ' := by
  obtain ⟨tail, htail⟩ : trimEnd s <+: s := rdropWhile_prefix ..
  intro c hc
  apply h c
  rw [← htail]
  cases hs : trimEnd s with
  | nil => rw [hs] at hc; cases hc
  | cons e rest => rw [hs] at hc; exact hc

theorem startsLink_of_link (l : ShareLink jvm) {s : Text} (hs : ∀ c ∈ s.head?, c = ' ') :
    StartsLink jvm (l.text ++ s) := by
  have hstart : findStarts jvm none 0 0 l.text = [0] := l.oneStart
  cases s with
  | nil => exact ⟨[], by rw [append_nil, hstart]⟩
  | cons c s =>
    have hc : isGapChar c = true := by
      rw [hs c rfl]
      decide
    exact ⟨_, by rw [findStarts_append_cons hc (Nat.zero_le _), hstart]; rfl⟩

theorem trim_of_link (l : ShareLink jvm) (first : Text) :
    trim (l.text ++ first) = l.text ++ trimEnd first := by
  have hhead : ∀ c ∈ (l.text ++ first).head?, isWhitespace c = false := by
    intro c hc
    rw [head?_append_of_ne_nil _ l.text_ne_nil] at hc
    exact l.trimmed_text.1 c hc
  rw [trim, trimStart, dropWhile_of_head hhead]
  exact rdropWhile_append_of_getLast l.trimmed_text.2

theorem ne_nil_of_link (l : ShareLink jvm) (s : Text) : l.text ++ s ≠ [] := by
  intro h
  exact l.text_ne_nil (append_eq_nil_iff.mp h).1

theorem allLinks_append_spaces (l next : ShareLink jvm) {gap u : Text} (hgap : Gap gap)
    (hne : gap ≠ []) (hline : OneLine gap) (hu : GapStart u) :
    allLinks jvm (l.text ++ gap ++ (next.text ++ u)) = l.text :: allLinks jvm (next.text ++ u) := by
  obtain ⟨first, others, hlines, hfirst⟩ := lines_of_link next hu
  have hboth : OneLine (l.text ++ gap) := by
    intro c hc
    rcases mem_append.mp hc with hc | hc
    · exact l.oneLine_text c hc
    · exact hline c hc
  have hlines' : lines (l.text ++ gap ++ (next.text ++ u)) =
      (l.text ++ (gap ++ (next.text ++ first))) :: others := by
    rw [lines_append hboth, hlines, modifyHead_cons, append_assoc]
  have hlast : ∀ c ∈ (gap ++ next.text).getLast?, isWhitespace c = false := by
    intro c hc
    rw [getLast?_append_of_ne_nil _ next.text_ne_nil] at hc
    exact next.trimmed_text.2 c hc
  have htrim : trim (l.text ++ (gap ++ (next.text ++ first))) =
      l.text ++ gap ++ (next.text ++ trimEnd first) := by
    rw [trim_of_link, ← append_assoc gap, trimEnd, rdropWhile_append_of_getLast hlast]
    simp only [append_assoc]
    rfl
  have hstarts : StartsLink jvm (next.text ++ trimEnd first) :=
    startsLink_of_link next (head_trimEnd hfirst)
  rw [allLinks_of_lines hlines' (by rw [htrim, append_assoc]; exact ne_nil_of_link l _),
    allLinks_of_lines hlines (by rw [trim_of_link]; exact ne_nil_of_link next _), htrim,
    trim_of_link, extractLinks_append_gap l hgap hne hstarts]
  rfl

theorem allLinks_append_gap (l next : ShareLink jvm) {gap u : Text} (hgap : Gap gap)
    (hne : gap ≠ []) (hu : GapStart u) :
    allLinks jvm (l.text ++ gap ++ (next.text ++ u)) = l.text :: allLinks jvm (next.text ++ u) := by
  by_cases hnewline : '\n' ∈ gap
  · -- the link is the last one of its line
    obtain ⟨spaces, gap', rfl, hspaces⟩ := eq_append_cons_of_mem hnewline
    have hgapSpaces : Gap spaces := fun c hc => hgap c (mem_append_left _ hc)
    have hgapRest : Gap gap' := fun c hc =>
      hgap c (mem_append_right _ (mem_cons_of_mem _ hc))
    have hline : OneLine (l.text ++ spaces) := by
      intro c hc
      rcases mem_append.mp hc with hc | hc
      · exact l.oneLine_text c hc
      · have h := hgapSpaces c hc
        constructor
        · rintro rfl
          exact absurd h (by decide)
        · rintro rfl
          exact hspaces hc
    have hlines : lines (l.text ++ (spaces ++ '\n' :: gap') ++ (next.text ++ u)) =
        (l.text ++ spaces) :: lines (gap' ++ (next.text ++ u)) := by
      have hform : l.text ++ (spaces ++ '\n' :: gap') ++ (next.text ++ u) =
          (l.text ++ spaces) ++ '\n' :: (gap' ++ (next.text ++ u)) := by simp
      have hnext : lines ('\n' :: (gap' ++ (next.text ++ u))) =
          [] :: lines (gap' ++ (next.text ++ u)) := rfl
      rw [hform, lines_append hline, hnext, modifyHead_cons, append_nil]
    have htrim : trim (l.text ++ spaces) = l.text := l.trim_append_gap hgapSpaces
    rw [allLinks_of_lines hlines (by rw [htrim]; exact l.text_ne_nil), htrim, extractLinks_text]
    exact congrArg (l.text :: ·) (allLinks_gap hgapRest _)
  · have hline : OneLine gap := by
      intro c hc
      have h := hgap c hc
      constructor
      · rintro rfl
        exact absurd h (by decide)
      · rintro rfl
        exact hnewline hc
    exact allLinks_append_spaces l next hgap hne hline hu

/-! ## Links put together -/

def join (first : ShareLink jvm) : List (Text × ShareLink jvm) → Text
  | [] => first.text
  | (gap, next) :: others => first.text ++ gap ++ join next others

def Gaps (others : List (Text × ShareLink jvm)) : Prop := ∀ p ∈ others, Gap p.1 ∧ p.1 ≠ []

theorem join_eq_append (first : ShareLink jvm) {others : List (Text × ShareLink jvm)}
    (h : Gaps others) : ∃ u, join first others = first.text ++ u ∧ GapStart u := by
  cases others with
  | nil => exact ⟨[], (append_nil _).symm, nofun⟩
  | cons p others =>
    obtain ⟨gap, next⟩ := p
    obtain ⟨hgap, hne⟩ := h (gap, next) (by simp)
    refine ⟨gap ++ join next others, by rw [join, append_assoc], ?_⟩
    intro c hc
    rw [head?_append_of_ne_nil _ hne] at hc
    exact hgap c (mem_of_mem_head? hc)

theorem allLinks_join (first : ShareLink jvm) {others : List (Text × ShareLink jvm)}
    (h : Gaps others) :
    allLinks jvm (join first others) = first.text :: others.map fun p => p.2.text := by
  induction others generalizing first with
  | nil =>
    have hlines : lines (first.text ++ []) = (first.text ++ []) :: [] :=
      lines_append first.oneLine_text []
    have htrim : trim (first.text ++ []) = first.text := first.trim_append_gap nofun
    rw [append_nil] at hlines htrim
    rw [join, allLinks_of_lines hlines (by rw [htrim]; exact first.text_ne_nil), htrim,
      extractLinks_text]
    rfl
  | cons p others ih =>
    obtain ⟨gap, next⟩ := p
    obtain ⟨hgap, hne⟩ := h (gap, next) (by simp)
    have hothers : Gaps others := fun q hq => h q (mem_cons_of_mem _ hq)
    obtain ⟨u, hu, hstart⟩ := join_eq_append next hothers
    rw [join, hu, allLinks_append_gap first next hgap hne hstart, ← hu, ih next hothers]
    rfl

end ConfigInputParser

end BigRocket.Config
