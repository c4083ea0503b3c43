/-
The UTF-16 units of a text, which are what a string of the JVM is made of.
-/
import BigRocket.Lib.Text

namespace BigRocket.Lib.Utf16

open List

def encodeChar (c : Char) : List UInt16 :=
  if c.toNat < 0x10000 then [UInt16.ofNat c.toNat]
  else [UInt16.ofNat (0xD800 + (c.toNat - 0x10000) / 0x400),
    UInt16.ofNat (0xDC00 + (c.toNat - 0x10000) % 0x400)]

def encode (s : Text) : List UInt16 := s.flatMap encodeChar

structure JvmString where
  units : List UInt16
  bounded : units.length < 2 ^ 31

@[simp] theorem encode_nil : encode [] = [] := rfl

@[simp] theorem encode_cons (c : Char) (s : Text) : encode (c :: s) = encodeChar c ++ encode s := rfl

@[simp] theorem encode_append (s t : Text) : encode (s ++ t) = encode s ++ encode t := by
  simp [encode]

theorem encodeChar_of_lt {c : Char} (h : c.toNat < 0x10000) :
    encodeChar c = [UInt16.ofNat c.toNat] ∧ (UInt16.ofNat c.toNat).toNat = c.toNat := by
  refine ⟨if_pos h, ?_⟩
  rw [UInt16.toNat_ofNat']
  omega

theorem encodeChar_cases (c : Char) :
    (∃ u, encodeChar c = [u] ∧ u.toNat = c.toNat) ∨
      (0x10000 ≤ c.toNat ∧ ∃ high low, encodeChar c = [high, low] ∧
        (0xD800 ≤ high.toNat ∧ high.toNat < 0xE000) ∧
        (0xD800 ≤ low.toNat ∧ low.toNat < 0xE000)) := by
  by_cases h : c.toNat < 0x10000
  · exact .inl ⟨_, encodeChar_of_lt h⟩
  · have hmax : c.toNat < 0x110000 := by
      have hvalid := c.valid
      have hnat : c.toNat = c.val.toNat := rfl
      omega
    refine .inr ⟨by omega, _, _, if_neg h, ?_, ?_⟩
    · rw [UInt16.toNat_ofNat']
      omega
    · rw [UInt16.toNat_ofNat']
      omega

section Single

variable {p : Char → Bool} {q : Nat → Bool}

theorem filter_encode (hp : ∀ c, p c = q c.toNat)
    (hsurrogate : ∀ n, 0xD800 ≤ n → q n = true) (s : Text) :
    ((encode s).filter fun u => q u.toNat) = encode (s.filter p) := by
  induction s with
  | nil => rfl
  | cons c s ih =>
    rw [encode_cons, filter_append, ih]
    rcases encodeChar_cases c with ⟨u, hchar, hnat⟩ | ⟨hlarge, high, low, hchar, hhigh, hlow⟩
    · cases hkept : p c with
      | true =>
        have hu : q u.toNat = true := by rw [hnat, ← hp, hkept]
        rw [filter_cons_of_pos hkept, encode_cons, hchar]
        simp [hu]
      | false =>
        have hu : q u.toNat = false := by rw [hnat, ← hp, hkept]
        rw [filter_cons_of_neg (by simp [hkept]), hchar]
        simp [hu]
    · have hkept : p c = true := by rw [hp, hsurrogate _ (by omega)]
      have hboth : q high.toNat = true ∧ q low.toNat = true :=
        ⟨hsurrogate _ hhigh.1, hsurrogate _ hlow.1⟩
      rw [filter_cons_of_pos hkept, encode_cons, hchar]
      simp [hboth]

theorem rdropWhile_encode (hp : ∀ c, p c = q c.toNat)
    (hsurrogate : ∀ n, 0xD800 ≤ n → q n = false) (s : Text) :
    ((encode s).rdropWhile fun u => q u.toNat) = encode (s.rdropWhile p) := by
  induction s using List.reverseRecOn with
  | nil => rfl
  | append_singleton s c ih =>
    have hone : encode [c] = encodeChar c := append_nil _
    rw [encode_append, hone]
    rcases encodeChar_cases c with ⟨u, hchar, hnat⟩ | ⟨hlarge, high, low, hchar, hhigh, hlow⟩
    · rw [hchar]
      cases hdropped : p c with
      | true =>
        have hu : q u.toNat = true := by rw [hnat, ← hp, hdropped]
        rw [rdropWhile_concat_pos (fun u : UInt16 => q u.toNat) _ _ hu,
          rdropWhile_concat_pos _ _ _ hdropped, ih]
      | false =>
        have hu : ¬ q u.toNat = true := by rw [hnat, ← hp, hdropped]; decide
        rw [rdropWhile_concat_neg (fun u : UInt16 => q u.toNat) _ _ hu,
          rdropWhile_concat_neg _ _ _ (by simp [hdropped]), encode_append, hone, hchar]
    · have hdropped : ¬ p c = true := by rw [hp, hsurrogate _ (by omega)]; decide
      have hu : ¬ q low.toNat = true := by rw [hsurrogate _ hlow.1]; decide
      have hpair : encode s ++ [high, low] = (encode s ++ [high]) ++ [low] := by simp
      rw [hchar, hpair, rdropWhile_concat_neg (fun u : UInt16 => q u.toNat) _ _ hu,
        rdropWhile_concat_neg _ _ _ hdropped, ← hpair, encode_append, hone, hchar]

end Single

theorem length_encode_of_isAscii {s : Text} (h : s.IsAscii) : (encode s).length = s.length := by
  induction s with
  | nil => rfl
  | cons c s ih =>
    have hc : c.toNat < 128 := h c (by simp)
    have hrest : Text.IsAscii s := fun d hd => h d (by simp [hd])
    rw [encode_cons, (encodeChar_of_lt (by omega)).1, length_append, ih hrest]
    simp [Nat.add_comm]

end BigRocket.Lib.Utf16
