/-
The functions of Kotlin's `String` on texts as lists of characters: every
character they look for is one UTF-16 unit, so a text is cut at the same places.
What the platform knows about characters above ASCII is a parameter, `Jvm`.
-/
import BigRocket.Lib.Utf8

namespace BigRocket.Lib

open List Option

/-! ## The platform -/

/-- The platform's tables, as far as they are about characters above ASCII,
and what it makes of bytes that are no UTF-8. -/
structure Jvm where
  unicode : UnicodeData
  otherDigit : Char → Option Nat
  otherLetter : Char → Bool
  otherSame : Char → Char → Bool
  otherFold : Char → Text
  malformed : List UInt8 → Text

namespace Jvm

variable (jvm : Jvm)

def digit (c : Char) : Option Nat :=
  if c.toNat < 128 then
    if c.isDigit then some (c.toNat - 48) else none
  else if c.toNat < 0x10000 then jvm.otherDigit c
  else none

def isLetter (c : Char) : Bool := if c.toNat < 128 then c.isAlpha else jvm.otherLetter c

def same (c d : Char) : Bool :=
  if c.toNat < 128 ∧ d.toNat < 128 then c.toLower = d.toLower else jvm.otherSame c d

def fold (c : Char) : Text := if c.toNat < 128 then [c.toLower] else jvm.otherFold c

def newString (bytes : List UInt8) : Text := (Utf8.fromUtf8 bytes).getD (jvm.malformed bytes)

def lowercase (s : Text) : Text := jvm.unicode.toLowercase s

@[simp] theorem newString_encode (s : Text) : jvm.newString (Utf8.encode s) = s := by
  rw [newString, Utf8.fromUtf8_encode, getD_some]

def basicLatin : Jvm where
  unicode := .basicLatin
  otherDigit _ := none
  otherLetter _ := false
  otherSame c d := c = d
  otherFold c := [c]
  malformed _ := [Utf8.replacement]

end Jvm

namespace Kotlin

/-! ## Characters and lengths -/

def isWhitespace (c : Char) : Bool :=
  (9 ≤ c.toNat && c.toNat ≤ 13) || (28 ≤ c.toNat && c.toNat ≤ 32) || c.toNat = 0xA0 ||
    c.toNat = 0x1680 || (0x2000 ≤ c.toNat && c.toNat ≤ 0x200A) || c.toNat = 0x2028 ||
    c.toNat = 0x2029 || c.toNat = 0x202F || c.toNat = 0x205F || c.toNat = 0x3000

def isVisible (c : Char) : Bool := 33 ≤ c.toNat && c.toNat < 127

theorem isWhitespace_of_isVisible {c : Char} (h : isVisible c = true) : isWhitespace c = false := by
  simp only [isVisible, Bool.and_eq_true, decide_eq_true_eq] at h
  simp only [isWhitespace, Bool.or_eq_false_iff, Bool.and_eq_false_iff, decide_eq_false_iff_not]
  omega

theorem isVisible_of_isDigit {c : Char} (h : c.isDigit = true) : isVisible c = true := by
  simp only [Char.isDigit, Bool.and_eq_true, decide_eq_true_eq, UInt32.le_iff_toNat_le] at h
  have hlow : 48 ≤ c.toNat := h.1
  have hhigh : c.toNat ≤ 57 := h.2
  simp only [isVisible, Bool.and_eq_true, decide_eq_true_eq]
  omega

def isISOControl (c : Char) : Bool := c.toNat ≤ 0x1F || (0x7F ≤ c.toNat && c.toNat ≤ 0x9F)

def units (c : Char) : Nat := if c.toNat < 0x10000 then 1 else 2

def length (s : Text) : Nat := (s.map units).sum

theorem length_le_utf8 (s : Text) : length s ≤ (Utf8.encode s).length := by
  induction s with
  | nil => exact le_rfl
  | cons c s ih =>
    have hunits : units c ≤ (String.utf8EncodeChar c).length := by
      rw [String.length_utf8EncodeChar]
      unfold units
      split
      · exact c.utf8Size_pos
      · have hnat : c.toNat = c.val.toNat := rfl
        have hfour : c.utf8Size = 4 := by
          simp only [Char.utf8Size, UInt32.le_iff_toNat_le, UInt32.toNat_ofNatLT]
          rw [if_neg (by omega), if_neg (by omega), if_neg (by omega)]
        omega
    rw [Utf8.encode_cons, length_append]
    exact Nat.add_le_add hunits ih

theorem length_of_isVisible {s : Text} (h : ∀ c ∈ s, isVisible c = true) :
    length s = s.length := by
  induction s with
  | nil => rfl
  | cons c s ih =>
    have hc := h c (by simp)
    simp only [isVisible, Bool.and_eq_true, decide_eq_true_eq] at hc
    have hunits : units c = 1 := if_pos (by omega)
    have hrest := ih fun d hd => h d (mem_cons_of_mem c hd)
    simp only [length, map_cons, sum_cons, hunits, length_cons] at hrest ⊢
    omega

/-- `String.take`. The half that is left when a pair of units is cut is no
character; it stands as U+FFFD. -/
def take : Nat → Text → Text
  | 0, _ => []
  | _, [] => []
  | n + 1, c :: s =>
    if units c = 1 then c :: take n s
    else match n with
      | 0 => [Utf8.replacement]
      | m + 1 => c :: take m s

/-! ## Trimming -/

def trimStart (s : Text) : Text := s.dropWhile isWhitespace

def trimEnd (s : Text) : Text := s.rdropWhile isWhitespace

def trim (s : Text) : Text := trimEnd (trimStart s)

def trimEndOf (chars : List Char) (s : Text) : Text := s.rdropWhile (chars.contains ·)

def isBlank (s : Text) : Bool := s.all isWhitespace

def ifEmpty (s default : Text) : Text := if s = [] then default else s

def ifBlank (s default : Text) : Text := if isBlank s then default else s

/-! ## Cutting -/

def substringBefore (c : Char) (s : Text) : Text := s.takeWhile (· ≠ c)

def substringAfter (c : Char) (s missing : Text) : Text :=
  match s.dropWhile (· ≠ c) with
  | [] => missing
  | _ :: rest => rest

def substringBeforeLast (c : Char) (s missing : Text) : Text :=
  if c ∈ s then (s.rdropWhile (· ≠ c)).dropLast else missing

def substringAfterLast (c : Char) (s : Text) : Text := s.rtakeWhile (· ≠ c)

def substring (s : Text) (start stop : Nat) : Text := (s.drop start).take (stop - start)

def cut (d : Text) : Text → Option (Text × Text)
  | [] => if d = [] then some ([], []) else none
  | c :: s =>
    if d.isPrefixOf (c :: s) then some ([], (c :: s).drop d.length)
    else (cut d s).map fun (before, after) => (c :: before, after)

def contains (d s : Text) : Bool := (cut d s).isSome

def lines : Text → List Text
  | [] => [[]]
  | '\r' :: '\n' :: s => [] :: lines s
  | '\r' :: s => [] :: lines s
  | '\n' :: s => [] :: lines s
  | c :: s => (lines s).modifyHead (c :: ·)

theorem lines_cons {c : Char} (hcr : c ≠ '\r') (hlf : c ≠ '\n') (s : Text) :
    lines (c :: s) = (lines s).modifyHead (c :: ·) := by
  rw [lines.eq_def]
  split
  · rename_i heq; cases heq
  · rename_i heq; cases heq; exact absurd rfl hcr
  · rename_i heq; cases heq; exact absurd rfl hcr
  · rename_i heq; cases heq; exact absurd rfl hlf
  · rename_i heq; cases heq; rfl

def OneLine (s : Text) : Prop := ∀ c ∈ s, c ≠ '\r' ∧ c ≠ '\n'

theorem lines_append {a : Text} (h : OneLine a) (s : Text) :
    lines (a ++ s) = (lines s).modifyHead (a ++ ·) := by
  induction a with
  | nil =>
    have hid : (fun t : Text => [] ++ t) = id := rfl
    rw [hid, modifyHead_id]
    rfl
  | cons c a ih =>
    obtain ⟨hcr, hlf⟩ := h c (by simp)
    rw [cons_append, lines_cons hcr hlf, ih fun d hd => h d (mem_cons_of_mem c hd),
      modifyHead_modifyHead]
    rfl

theorem exists_lines_eq_cons (s : Text) : ∃ first rest, lines s = first :: rest := by
  rw [lines.eq_def]
  split
  · exact ⟨_, _, rfl⟩
  · exact ⟨_, _, rfl⟩
  · exact ⟨_, _, rfl⟩
  · exact ⟨_, _, rfl⟩
  · rename_i c s _ _ _
    obtain ⟨first, rest, h⟩ := exists_lines_eq_cons s
    exact ⟨c :: first, rest, by rw [h]; rfl⟩

section Lemmas

variable {c : Char} {a b d s t missing : Text}

def Trimmed (s : Text) : Prop :=
  (∀ c ∈ s.head?, isWhitespace c = false) ∧ (∀ c ∈ s.getLast?, isWhitespace c = false)

instance (s : Text) : Decidable (Trimmed s) := instDecidableAnd

theorem trim_of_trimmed (h : Trimmed s) : trim s = s := TrimmedBy.trim_eq h

theorem trimmed_of_isVisible (h : ∀ c ∈ s, isVisible c = true) : Trimmed s :=
  trimmedBy_of_forall fun c hc => isWhitespace_of_isVisible (h c hc)

theorem isBlank_iff_of_isVisible (h : ∀ c ∈ s, isVisible c = true) : isBlank s = true ↔ s = [] := by
  cases s with
  | nil => simp [isBlank]
  | cons c s => simp [isBlank, isWhitespace_of_isVisible (h c (by simp))]

theorem trimmed_trim : Trimmed (trim s) := trimmedBy_trim isWhitespace s

theorem rdropWhile_append_of_getLast {p : Char → Bool} (h : ∀ c ∈ s.getLast?, p c = false) :
    (s ++ b).rdropWhile p = s ++ b.rdropWhile p := by
  have hs : s.reverse.dropWhile p = s.reverse := by
    apply dropWhile_of_head
    intro c hc
    rw [head?_reverse] at hc
    exact h c hc
  rw [List.rdropWhile, List.rdropWhile, reverse_append, dropWhile_append, hs]
  split
  · rename_i hempty
    rw [isEmpty_iff.mp hempty]
    simp
  · simp

theorem substringBefore_of_notMem (h : c ∉ s) : substringBefore c s = s := by
  rw [substringBefore, takeWhile_eq_self_iff]
  intro d hd
  simpa using fun heq : d = c => h (heq ▸ hd)

@[simp] theorem substringBefore_append (h : c ∉ a) : substringBefore c (a ++ c :: b) = a := by
  induction a with
  | nil => simp [substringBefore]
  | cons e a ih =>
    have hne : e ≠ c := fun heq => h (heq ▸ mem_cons_self ..)
    have hrest : c ∉ a := fun hmem => h (mem_cons_of_mem e hmem)
    simpa [substringBefore, hne] using ih hrest

theorem trim_append (ha : ∀ c ∈ a, isWhitespace c = true) (hb : ∀ c ∈ b, isWhitespace c = true)
    (hs : Trimmed s) (hne : s ≠ []) : trim (a ++ s ++ b) = s :=
  append_assoc a s b ▸ TrimmedBy.trim_append ha hs hne hb

@[simp] theorem substringAfter_append (h : c ∉ a) :
    substringAfter c (a ++ c :: b) missing = b := by
  have hdrop : (a ++ c :: b).dropWhile (· ≠ c) = c :: b := by
    rw [dropWhile_append_of_pos fun e he => by simpa using fun heq : e = c => h (heq ▸ he)]
    exact dropWhile_cons_of_neg (by simp)
  rw [substringAfter, hdrop]

@[simp] theorem substringBeforeLast_append (h : c ∉ b) :
    substringBeforeLast c (a ++ c :: b) missing = a := by
  have hdrop : (a ++ c :: b).rdropWhile (· ≠ c) = a ++ [c] := by
    rw [append_cons, rdropWhile_append_of_all fun e he => by
      simpa using fun heq : e = c => h (heq ▸ he)]
    exact rdropWhile_concat_neg _ _ _ (by simp)
  rw [substringBeforeLast, if_pos (by simp), hdrop, dropLast_concat]

@[simp] theorem substringAfterLast_append (h : c ∉ b) :
    substringAfterLast c (a ++ c :: b) = b := by
  have hdrop : (a ++ c :: b).rdropWhile (· ≠ c) = a ++ [c] := by
    rw [append_cons, rdropWhile_append_of_all fun e he => by
      simpa using fun heq : e = c => h (heq ▸ he)]
    exact rdropWhile_concat_neg _ _ _ (by simp)
  have hboth : (a ++ c :: b).rdropWhile (· ≠ c) ++ substringAfterLast c (a ++ c :: b) =
      a ++ c :: b := rdropWhile_append_rtakeWhile
  rw [hdrop, append_assoc] at hboth
  exact (List.cons.inj (append_cancel_left hboth)).2

theorem isPrefixOf_eq_false (hd : c ∈ d) (hs : c ∉ s) : d.isPrefixOf s = false := by
  rw [Bool.eq_false_iff]
  intro h
  exact hs (( isPrefixOf_iff_prefix.mp h).subset hd)

theorem contains_eq_false (hd : c ∈ d) (hs : c ∉ s) : contains d s = false := by
  rw [contains, isSome_eq_false_iff, isNone_iff_eq_none]
  induction s with
  | nil => exact if_neg (ne_nil_of_mem hd)
  | cons e s ih =>
    have hrest : c ∉ s := fun hmem => hs (mem_cons_of_mem e hmem)
    rw [cut, if_neg (by rw [isPrefixOf_eq_false hd hs]; exact Bool.false_ne_true), ih hrest]
    rfl

theorem cut_append (h : c ∉ a) : cut (c :: d) (a ++ c :: d ++ b) = some (a, b) := by
  induction a with
  | nil =>
    rw [nil_append, cons_append, cut, if_pos (by simp)]
    simp
  | cons e a ih =>
    have hne : ¬ c = e := fun heq => h (heq ▸ mem_cons_self ..)
    have hrest : c ∉ a := fun hmem => h (mem_cons_of_mem e hmem)
    rw [cons_append, cons_append, cut, if_neg (by simp [hne]), ih hrest]
    rfl

end Lemmas

/-! ## Numbers -/

def digitsValue (jvm : Jvm) (digits : Text) : Option Nat :=
  digits.foldlM (fun n c => (jvm.digit c).map (10 * n + ·)) 0

def toIntOrNull (jvm : Jvm) (s : Text) : Option Int :=
  match s with
  | [] => none
  | ['-'] => none
  | ['+'] => none
  | '-' :: digits => do
      let n ← digitsValue jvm digits
      if n ≤ 2 ^ 31 then some (-n) else none
  | '+' :: digits => do
      let n ← digitsValue jvm digits
      if n < 2 ^ 31 then some n else none
  | digits => do
      let n ← digitsValue jvm digits
      if n < 2 ^ 31 then some n else none

section Digits

variable {jvm : Jvm}

theorem digit_of_isDigit {c : Char} (h : c.isDigit = true) : jvm.digit c = some (c.toNat - 48) := by
  have hlt : c.toNat < 128 := by
    simp only [Char.isDigit, Bool.and_eq_true, decide_eq_true_eq, UInt32.le_iff_toNat_le] at h
    exact lt_of_le_of_lt h.2 (by decide)
  rw [Jvm.digit, if_pos hlt, if_pos h]

theorem foldlM_digits {digits : Text} (h : ∀ c ∈ digits, c.isDigit = true) (n : Nat) :
    digits.foldlM (fun n c => (jvm.digit c).map (10 * n + ·)) n =
      some (Nat.ofDigitChars 10 digits n) := by
  induction digits generalizing n with
  | nil => rfl
  | cons c digits ih =>
    rw [foldlM_cons, digit_of_isDigit (h c (by simp))]
    exact ih (fun e he => h e (mem_cons_of_mem c he)) _

theorem toIntOrNull_digits {digits : Text} (hne : digits ≠ [])
    (h : ∀ c ∈ digits, c.isDigit = true) :
    toIntOrNull jvm digits =
      if Nat.ofDigitChars 10 digits 0 < 2 ^ 31 then some (Nat.ofDigitChars 10 digits 0 : Int)
      else none := by
  have hvalue : digitsValue jvm digits = some (Nat.ofDigitChars 10 digits 0) := foldlM_digits h 0
  unfold toIntOrNull
  split
  · exact absurd rfl hne
  · exact absurd (h '-' (by simp)) (by decide)
  · exact absurd (h '+' (by simp)) (by decide)
  · exact absurd (h '-' (by simp)) (by decide)
  · exact absurd (h '+' (by simp)) (by decide)
  · rw [hvalue]
    rfl

theorem toIntOrNull_toDigits {n : Nat} (h : n < 2 ^ 31) :
    toIntOrNull jvm (Nat.toDigits 10 n) = some (n : Int) := by
  rw [toIntOrNull_digits Nat.toDigits_ne_nil fun c hc =>
    Nat.isDigit_of_mem_toDigits (by decide) (by decide) hc, Nat.ofDigitChars_ten_toDigits, if_pos h]

end Digits

end Kotlin

end BigRocket.Lib
