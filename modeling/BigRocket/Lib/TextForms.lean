/-
Lemmas about the functions of `Lib.Text`.
-/
import BigRocket.Lib.Text

namespace BigRocket.Lib

open List

namespace Text

/-! ## ASCII -/

variable {c : Char}

theorem forall_ascii {P : Char → Prop} (h : ∀ n < 128, P (Char.ofNat n)) (hc : c.toNat < 128) :
    P c :=
  Char.ofNat_toNat c ▸ h c.toNat hc

theorem toLower_lt (h : c.toNat < 128) : c.toLower.toNat < 128 :=
  forall_ascii (P := fun c => c.toLower.toNat < 128) (by decide +kernel) h

theorem lt_of_toLower_lt (h : c.toLower.toNat < 128) : c.toNat < 128 := by
  unfold Char.toLower at h
  split at h
  · next hupper =>
      have hZ : c.val.toNat ≤ 90 := hupper.2
      exact lt_of_le_of_lt hZ (by decide)
  · exact h

theorem toLower_eq_dot_iff : c.toLower = '.' ↔ c = '.' := by
  constructor
  · intro h
    have hc : c.toNat < 128 := lt_of_toLower_lt (by rw [h]; decide)
    exact forall_ascii (P := fun c => c.toLower = '.' → c = '.') (by decide +kernel) hc h
  · rintro rfl
    rfl

/-! ## Blanks -/

variable {s : Text}

def Trimmed (s : Text) : Prop :=
  (∀ c ∈ s.head?, isWhitespace c = false) ∧ ∀ c ∈ s.getLast?, isWhitespace c = false

theorem trimmed_of_forall (h : ∀ c ∈ s, isWhitespace c = false) : s.Trimmed :=
  trimmedBy_of_forall h

theorem trim_blanks {before after : Text} (hbefore : ∀ c ∈ before, isWhitespace c = true)
    (hs : s.Trimmed) (hne : s ≠ []) (hafter : ∀ c ∈ after, isWhitespace c = true) :
    trim (before ++ (s ++ after)) = s :=
  TrimmedBy.trim_append hbefore hs hne hafter

theorem trim_of_trimmed (hs : s.Trimmed) : s.trim = s := TrimmedBy.trim_eq hs

theorem exists_blanks (s : Text) :
    ∃ before after, s = before ++ (s.trim ++ after) ∧
      (∀ c ∈ before, isWhitespace c = true) ∧ ∀ c ∈ after, isWhitespace c = true := by
  refine ⟨s.takeWhile isWhitespace, (s.dropWhile isWhitespace).rtakeWhile isWhitespace, ?_,
    fun c hc => (mem_takeWhile_imp hc), ?_⟩
  · rw [trim, rdropWhile_append_rtakeWhile, takeWhile_append_dropWhile]
  · intro c hc
    exact mem_rtakeWhile_imp hc

theorem trimmed_trim (s : Text) : s.trim.Trimmed := trimmedBy_trim isWhitespace s

@[simp] theorem trim_trim (s : Text) : s.trim.trim = s.trim := trim_of_trimmed (trimmed_trim s)

/-! ## The first occurrence of a character -/

theorem splitOnce_append {front back : Text} (h : c ∉ front) :
    splitOnce c (front ++ c :: back) = some (front, back) := by
  have hfront : ∀ d ∈ front, decide (d ≠ c) = true := by
    intro d hd
    exact decide_eq_true fun heq => h (heq ▸ hd)
  have hdrop : (front ++ c :: back).dropWhile (· ≠ c) = c :: back := by
    rw [dropWhile_append_of_pos hfront, dropWhile_cons_of_neg (by simp)]
  have htake : (front ++ c :: back).takeWhile (· ≠ c) = front := by
    rw [takeWhile_append_of_pos hfront, takeWhile_cons_of_neg (by simp),
      append_nil]
  simp only [splitOnce, hdrop, htake]

theorem eq_of_splitOnce {front back : Text} (h : splitOnce c s = some (front, back)) :
    s = front ++ c :: back := by
  unfold splitOnce at h
  split at h
  · cases h
  · next d rest hdrop =>
      have hd : d = c := by
        have hnot := head?_dropWhile_not (· ≠ c) s
        rw [hdrop] at hnot
        simpa using hnot
      cases h
      conv_lhs => rw [← takeWhile_append_dropWhile (p := (· ≠ c)) (l := s), hdrop, hd]

theorem splitOnce_eq_none (h : c ∉ s) : splitOnce c s = none := by
  have hdrop : s.dropWhile (· ≠ c) = [] := by
    rw [dropWhile_eq_nil_iff]
    intro d hd
    exact decide_eq_true fun heq => h (heq ▸ hd)
  simp only [splitOnce, hdrop]

theorem rsplitOnce_append {front back : Text} (h : c ∉ back) :
    rsplitOnce c (front ++ c :: back) = some (front, back) := by
  rw [rsplitOnce, reverse_append, reverse_cons, append_assoc, singleton_append,
    splitOnce_append (by simpa using h)]
  simp

theorem rsplitOnce_eq_none (h : c ∉ s) : rsplitOnce c s = none := by
  rw [rsplitOnce, splitOnce_eq_none (by simpa using h)]
  rfl

theorem stripPrefix_append (front s : Text) : stripPrefix front (front ++ s) = some s := by
  rw [stripPrefix, if_pos (prefix_append _ _), drop_left]

theorem digit_plain {c : Char} (h : c.isDigit = true) : isWhitespace c = false ∧ c ≠ '/' := by
  have hascii : c.toNat < 128 := by
    simp only [Char.isDigit, Bool.and_eq_true, decide_eq_true_eq] at h
    exact lt_of_le_of_lt (UInt32.le_iff_toNat_le.mp h.2) (by decide)
  exact forall_ascii (P := fun c => c.isDigit = true → isWhitespace c = false ∧ c ≠ '/')
    (by decide) hascii h

theorem parseU16_toDigits {n : Nat} (h : n < 65536) : parseU16 (Nat.toDigits 10 n) = some n := by
  have hdigit : ∀ d ∈ Nat.toDigits 10 n, d.isDigit = true := fun d hd =>
    Nat.isDigit_of_mem_toDigits (by decide) (by decide) hd
  have hvalue : (Nat.toDigits 10 n).foldl (fun n c => 10 * n + (c.toNat - 48)) 0 = n :=
    Nat.ofDigitChars_ten_toDigits
  unfold parseU16
  split
  · next rest hplus =>
      exact absurd (hdigit '+' (by rw [hplus]; exact mem_cons_self)) (by decide)
  · rw [if_pos ⟨Nat.toDigits_ne_nil, all_eq_true.mpr hdigit⟩, hvalue, if_pos h]

end Text

end BigRocket.Lib
