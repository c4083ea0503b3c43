/-
The functions of Rust's `str` on texts as lists of characters. The Unicode
tables behind `to_lowercase` are a parameter, `UnicodeData`, which carries the
two facts about ASCII that every version has.
-/
import Mathlib

namespace BigRocket.Lib

open List

/-! ## What is trimmed at both ends -/

section Trimming

variable {α : Type} {p : α → Bool} {a b s : List α}

def TrimmedBy (p : α → Bool) (s : List α) : Prop :=
  (∀ c ∈ s.head?, p c = false) ∧ ∀ c ∈ s.getLast?, p c = false

theorem trimmedBy_of_forall (h : ∀ c ∈ s, p c = false) : TrimmedBy p s :=
  ⟨fun c hc => h c (mem_of_mem_head? hc), fun c hc => h c (mem_of_getLast? hc)⟩

theorem dropWhile_of_head (h : ∀ c ∈ s.head?, p c = false) : s.dropWhile p = s := by
  cases s with
  | nil => rfl
  | cons c s => exact dropWhile_cons_of_neg (by simp [h c rfl])

theorem rdropWhile_of_getLast (h : ∀ c ∈ s.getLast?, p c = false) : s.rdropWhile p = s := by
  rw [rdropWhile_eq_self_iff]
  intro hne
  rw [h _ (getLast?_eq_some_getLast hne)]
  exact Bool.false_ne_true

theorem rdropWhile_append_of_all (h : ∀ c ∈ b, p c = true) :
    (s ++ b).rdropWhile p = s.rdropWhile p := by
  rw [List.rdropWhile, List.rdropWhile, reverse_append,
    dropWhile_append_of_pos fun c hc => h c (mem_reverse.mp hc)]

theorem TrimmedBy.trim_eq (h : TrimmedBy p s) : (s.dropWhile p).rdropWhile p = s := by
  rw [dropWhile_of_head h.1, rdropWhile_of_getLast h.2]

theorem TrimmedBy.trim_append (ha : ∀ c ∈ a, p c = true) (hs : TrimmedBy p s) (hne : s ≠ [])
    (hb : ∀ c ∈ b, p c = true) : ((a ++ (s ++ b)).dropWhile p).rdropWhile p = s := by
  have hhead : ∀ c ∈ (s ++ b).head?, p c = false := by
    rw [head?_append_of_ne_nil _ hne]
    exact hs.1
  rw [dropWhile_append_of_pos ha, dropWhile_of_head hhead, rdropWhile_append_of_all hb,
    rdropWhile_of_getLast hs.2]

theorem trimmedBy_trim (p : α → Bool) (s : List α) :
    TrimmedBy p ((s.dropWhile p).rdropWhile p) := by
  constructor
  · intro c hc
    -- trimming the end leaves the first element, if any is left
    obtain ⟨rest, hrest⟩ := rdropWhile_prefix p (s.dropWhile p)
    have hfront : (s.dropWhile p).head? = some c := by
      rw [← hrest]
      exact mem_head?_append_of_mem_head? hc
    simpa [hfront] using head?_dropWhile_not p s
  · intro c hc
    obtain ⟨hne, rfl⟩ := mem_getLast?_eq_getLast hc
    exact Bool.not_eq_true _ ▸ rdropWhile_last_not p _ hne

end Trimming

abbrev Text : Type := List Char

namespace Text

/-! ## ASCII -/

def IsAscii (s : Text) : Prop := ∀ c ∈ s, c.toNat < 128

instance (s : Text) : Decidable s.IsAscii := List.decidableBAll _ s

def NoUpper (s : Text) : Prop := ∀ c ∈ s, c.isUpper = false

instance (s : Text) : Decidable s.NoUpper := List.decidableBAll _ s

/-- `Char.toLower` moves A to Z only, as `to_ascii_lowercase` does. -/
def toAsciiLowercase (s : Text) : Text := s.map Char.toLower

def eqIgnoreAsciiCase (s t : Text) : Bool := s.toAsciiLowercase = t.toAsciiLowercase

theorem toLower_of_not_isUpper {c : Char} (h : c.isUpper = false) : c.toLower = c := by
  have hnot : ¬ (c.val ≥ 'A'.val ∧ c.val ≤ 'Z'.val) := by simpa [Char.isUpper] using h
  exact dif_neg hnot

variable {s : Text}

theorem toAsciiLowercase_of_noUpper (h : s.NoUpper) : s.toAsciiLowercase = s := by
  conv_rhs => rw [← map_id s]
  exact map_congr_left fun c hc => toLower_of_not_isUpper (h c hc)

theorem eqIgnoreAsciiCase_iff {t : Text} (h : t.NoUpper) :
    s.eqIgnoreAsciiCase t = true ↔ s.toAsciiLowercase = t := by
  rw [eqIgnoreAsciiCase, toAsciiLowercase_of_noUpper h, decide_eq_true_iff]

/-! ## Trimming and cutting -/

def isWhitespace (c : Char) : Bool :=
  (9 ≤ c.toNat && c.toNat ≤ 13) || c.toNat = 32 || c.toNat = 0x85 || c.toNat = 0xA0 ||
    c.toNat = 0x1680 || (0x2000 ≤ c.toNat && c.toNat ≤ 0x200A) || c.toNat = 0x2028 ||
    c.toNat = 0x2029 || c.toNat = 0x202F || c.toNat = 0x205F || c.toNat = 0x3000

def trim (s : Text) : Text := (s.dropWhile isWhitespace).rdropWhile isWhitespace

def trimStartMatches (c : Char) (s : Text) : Text := s.dropWhile (· = c)

def trimEndMatches (c : Char) (s : Text) : Text := s.rdropWhile (· = c)

def splitOnce (c : Char) (s : Text) : Option (Text × Text) :=
  match s.dropWhile (· ≠ c) with
  | [] => none
  | _ :: rest => some (s.takeWhile (· ≠ c), rest)

def rsplitOnce (c : Char) (s : Text) : Option (Text × Text) :=
  (splitOnce c s.reverse).map fun (back, front) => (front.reverse, back.reverse)

def stripPrefix (front s : Text) : Option Text :=
  if front <+: s then some (s.drop front.length) else none

def splitBy (p : Char → Bool) (s : Text) : List Text := s.splitOnP p

theorem trimEndMatches_of_last {c : Char} (h : s.getLast? ≠ some c) : s.trimEndMatches c = s := by
  unfold trimEndMatches
  rw [rdropWhile_eq_self_iff]
  intro hne hlast
  apply h
  rw [getLast?_eq_some_getLast hne]
  simpa using hlast

/-! ## Numbers -/

/-- `parse::<u16>`: a sign is allowed, and so are leading zeros. -/
def parseU16 (s : Text) : Option Nat :=
  let digits := match s with
    | '+' :: rest => rest
    | _ => s
  if digits ≠ [] ∧ digits.all Char.isDigit then
    let value := digits.foldl (fun n c => 10 * n + (c.toNat - 48)) 0
    if value < 65536 then some value else none
  else none

end Text

/-! ## Lowercase -/

structure UnicodeData where
  lowerChar : Char → Text
  cased : Char → Bool
  caseIgnorable : Char → Bool
  lowerChar_ascii : ∀ c, c.toNat < 128 → lowerChar c = [c.toLower]
  noUpper_lowerChar : ∀ c, (lowerChar c).NoUpper

namespace UnicodeData

variable (u : UnicodeData)

def ignorableThenCased (s : Text) : Bool :=
  match s.dropWhile u.caseIgnorable with
  | c :: _ => u.cased c
  | [] => false

/-- The letter sigma has its own form at the end of a word; `before` is the
text in front, from its end. -/
def lowerFrom (before : Text) : Text → Text
  | [] => []
  | c :: rest =>
    (if c = 'Σ' then
      [if u.ignorableThenCased before && !u.ignorableThenCased rest then 'ς' else 'σ']
    else u.lowerChar c) ++ lowerFrom (c :: before) rest

def toLowercase (s : Text) : Text := u.lowerFrom [] s

variable {u}

theorem lowerFrom_ascii {s : Text} (h : s.IsAscii) (before : Text) :
    u.lowerFrom before s = s.toAsciiLowercase := by
  induction s generalizing before with
  | nil => rfl
  | cons c rest ih =>
    have hc : c.toNat < 128 := h c (by simp)
    have hsigma : c ≠ 'Σ' := by
      rintro rfl
      exact absurd hc (by decide)
    rw [lowerFrom, if_neg hsigma, u.lowerChar_ascii c hc,
      ih fun d hd => h d (mem_cons_of_mem c hd)]
    rfl

theorem toLowercase_ascii {s : Text} (h : s.IsAscii) : u.toLowercase s = s.toAsciiLowercase :=
  lowerFrom_ascii h []

theorem noUpper_lowerFrom (before s : Text) : (u.lowerFrom before s).NoUpper := by
  induction s generalizing before with
  | nil => intro c hc; cases hc
  | cons c rest ih =>
    intro d hd
    rcases mem_append.mp hd with hfirst | hrest
    · split at hfirst
      · rw [mem_singleton.mp hfirst]
        split <;> rfl
      · exact u.noUpper_lowerChar c d hfirst
    · exact ih (c :: before) d hrest

theorem noUpper_toLowercase (s : Text) : (u.toLowercase s).NoUpper := noUpper_lowerFrom [] s

def basicLatin : UnicodeData where
  lowerChar c := [c.toLower]
  cased c := c.isAlpha
  caseIgnorable c := c.toNat ∈ [39, 46, 58, 94, 96]
  lowerChar_ascii _ _ := rfl
  noUpper_lowerChar c d hd := by
    rw [mem_singleton.mp hd]
    exact Char.isUpper_toLower_eq_false c

end UnicodeData

end BigRocket.Lib
