/-
Percent-encoding of texts, and `java.net.URLDecoder`, which decodes a run of
escapes as a whole.
-/
import BigRocket.Lib.Kotlin

namespace BigRocket.Lib

open List

open Kotlin (isVisible)

/-! ## Encoding -/

/-- The characters that are never encoded: the unreserved ones of
RFC 3986. -/
def isUnreserved (c : Char) : Bool :=
  c.isAlphanum || c = '-' || c = '.' || c = '_' || c = '~'

def hexDigit (n : Nat) : Char := Char.ofNat (if n < 10 then 48 + n else 55 + n)

def escape (b : UInt8) : Text := ['%', hexDigit (b.toNat / 16), hexDigit (b.toNat % 16)]

def percentEncodeChar (c : Char) : Text :=
  if isUnreserved c then [c] else (String.utf8EncodeChar c).flatMap escape

def percentEncode (s : Text) : Text := s.flatMap percentEncodeChar

/-! ## Decoding -/

def hexValue (c : Char) : Option Nat :=
  if '0' ≤ c ∧ c ≤ '9' then some (c.toNat - 48)
  else if 'A' ≤ c ∧ c ≤ 'F' then some (c.toNat - 55)
  else if 'a' ≤ c ∧ c ≤ 'f' then some (c.toNat - 87)
  else none

def decodeFrom (jvm : Jvm) (run : List UInt8) : Text → Option Text
  | [] => some (jvm.newString run)
  | '%' :: a :: b :: s => do
      let high ← hexValue a
      let low ← hexValue b
      decodeFrom jvm (run ++ [UInt8.ofNat (16 * high + low)]) s
  | '%' :: _ => none
  | c :: s => do
      let rest ← decodeFrom jvm [] s
      return jvm.newString run ++ (if c = '+' then ' ' else c) :: rest

/-- `none` for its `IllegalArgumentException`. -/
def urlDecode (jvm : Jvm) (s : Text) : Option Text := decodeFrom jvm [] s

/-! ## What encoding writes -/

section Encode

variable {c : Char} {s t : Text}

@[simp] theorem percentEncode_nil : percentEncode [] = [] := rfl

@[simp] theorem percentEncode_cons (c : Char) (s : Text) :
    percentEncode (c :: s) = percentEncodeChar c ++ percentEncode s := rfl

theorem isUnreserved_hexDigit : ∀ {n : Nat}, n < 16 → isUnreserved (hexDigit n) = true := by
  decide

theorem hexValue_hexDigit : ∀ {n : Nat}, n < 16 → hexValue (hexDigit n) = some n := by
  decide

theorem mem_percentEncode (h : c ∈ percentEncode s) : isUnreserved c = true ∨ c = '%' := by
  obtain ⟨e, -, he⟩ := mem_flatMap.mp h
  unfold percentEncodeChar at he
  split at he
  · rename_i hsafe
    rw [mem_singleton.mp he]
    exact .inl hsafe
  · obtain ⟨b, -, hb⟩ := mem_flatMap.mp he
    have hlt := b.toNat_lt
    simp only [escape, mem_cons, not_mem_nil, or_false] at hb
    rcases hb with rfl | rfl | rfl
    · exact .inr rfl
    · exact .inl (isUnreserved_hexDigit (by omega))
    · exact .inl (isUnreserved_hexDigit (by omega))

theorem isVisible_of_isUnreserved (h : isUnreserved c = true) : isVisible c = true := by
  simp only [isUnreserved, Char.isAlphanum, Char.isAlpha, Char.isUpper, Char.isLower, Char.isDigit,
    Bool.or_eq_true, Bool.and_eq_true, decide_eq_true_eq, ge_iff_le,
    UInt32.le_iff_toNat_le] at h
  have hA : 'A'.val.toNat = 65 := rfl
  have hZ : 'Z'.val.toNat = 90 := rfl
  have ha : 'a'.val.toNat = 97 := rfl
  have hz : 'z'.val.toNat = 122 := rfl
  have h0 : '0'.val.toNat = 48 := rfl
  have h9 : '9'.val.toNat = 57 := rfl
  have hnat : c.toNat = c.val.toNat := rfl
  simp only [isVisible, Bool.and_eq_true, decide_eq_true_eq]
  rcases h with ((((h | h) | rfl) | rfl) | rfl) | rfl
  · omega
  · omega
  all_goals exact ⟨by decide, by decide⟩

theorem isVisible_of_hexValue (h : (hexValue c).isSome = true) : isVisible c = true := by
  unfold hexValue at h
  simp only [Char.le_def, UInt32.le_iff_toNat_le] at h
  have hA : 'A'.val.toNat = 65 := rfl
  have hF : 'F'.val.toNat = 70 := rfl
  have ha : 'a'.val.toNat = 97 := rfl
  have hf : 'f'.val.toNat = 102 := rfl
  have h0 : '0'.val.toNat = 48 := rfl
  have h9 : '9'.val.toNat = 57 := rfl
  have hnat : c.toNat = c.val.toNat := rfl
  simp only [isVisible, Bool.and_eq_true, decide_eq_true_eq]
  split at h
  · omega
  · split at h
    · omega
    · split at h
      · omega
      · cases h

theorem isVisible_of_mem_percentEncode (h : c ∈ percentEncode s) : isVisible c = true := by
  rcases mem_percentEncode h with hsafe | rfl
  · exact isVisible_of_isUnreserved hsafe
  · decide

theorem notMem_percentEncode (h : isUnreserved c = false) (hpercent : c ≠ '%') :
    c ∉ percentEncode s := by
  intro hmem
  rcases mem_percentEncode hmem with hsafe | rfl
  · rw [h] at hsafe
    cases hsafe
  · exact hpercent rfl

theorem length_percentEncodeChar_pos (c : Char) : 0 < (percentEncodeChar c).length := by
  unfold percentEncodeChar
  split
  · exact Nat.one_pos
  · cases hbytes : String.utf8EncodeChar c with
    | nil => exact absurd hbytes String.utf8EncodeChar_ne_nil
    | cons b rest => simp [escape]

theorem length_le_percentEncode (s : Text) : s.length ≤ (percentEncode s).length := by
  induction s with
  | nil => exact le_rfl
  | cons c s ih =>
    have hpos := length_percentEncodeChar_pos c
    rw [percentEncode_cons, length_append, length_cons]
    omega

theorem percentEncode_eq_nil_iff : percentEncode s = [] ↔ s = [] := by
  constructor
  · intro h
    have hle := length_le_percentEncode s
    rw [h] at hle
    exact eq_nil_of_length_eq_zero (Nat.le_zero.mp hle)
  · rintro rfl
    rfl

theorem percentEncode_eq_self_iff : percentEncode s = s ↔ ∀ c ∈ s, isUnreserved c = true := by
  constructor
  · intro h c hc
    -- an encoded character makes the text longer, and no character makes it
    -- shorter
    by_contra hnot
    obtain ⟨a, b, rfl⟩ := append_of_mem hc
    have hlen := congrArg List.length h
    have hsplit : percentEncode (a ++ c :: b) =
        percentEncode a ++ (percentEncodeChar c ++ percentEncode b) := flatMap_append
    have hthree : 3 ≤ (percentEncodeChar c).length := by
      rw [percentEncodeChar, if_neg hnot]
      cases hbytes : String.utf8EncodeChar c with
      | nil => exact absurd hbytes String.utf8EncodeChar_ne_nil
      | cons b rest =>
        simp only [flatMap_cons, length_append, escape, length_cons,
          length_nil]
        omega
    have ha := length_le_percentEncode a
    have hb := length_le_percentEncode b
    rw [hsplit] at hlen
    simp only [length_append, length_cons] at hlen
    omega
  · intro h
    induction s with
    | nil => rfl
    | cons c s ih =>
      rw [percentEncode_cons, percentEncodeChar, if_pos (h c (by simp)),
        ih fun e he => h e (mem_cons_of_mem c he)]
      rfl

end Encode

/-! ## The round trip -/

section RoundTrip

variable {jvm : Jvm} {run : List UInt8}

theorem decodeFrom_escape (b : UInt8) (s : Text) :
    decodeFrom jvm run (escape b ++ s) = decodeFrom jvm (run ++ [b]) s := by
  have hlt := b.toNat_lt
  have hhigh : hexValue (hexDigit (b.toNat / 16)) = some (b.toNat / 16) :=
    hexValue_hexDigit (by omega)
  have hlow : hexValue (hexDigit (b.toNat % 16)) = some (b.toNat % 16) :=
    hexValue_hexDigit (by omega)
  have hbyte : UInt8.ofNat (16 * (b.toNat / 16) + b.toNat % 16) = b := by
    rw [Nat.div_add_mod]
    exact UInt8.ofNat_toNat
  simp only [escape, cons_append, nil_append, decodeFrom, hhigh, hlow,
    Option.bind_eq_bind, Option.bind_some, hbyte]

theorem decodeFrom_escapes (bytes : List UInt8) (s : Text) :
    decodeFrom jvm run (bytes.flatMap escape ++ s) = decodeFrom jvm (run ++ bytes) s := by
  induction bytes generalizing run with
  | nil => rw [append_nil]; rfl
  | cons b bytes ih =>
    rw [flatMap_cons, append_assoc, decodeFrom_escape, ih, append_assoc]
    rfl

theorem decodeFrom_cons {c : Char} (hpercent : c ≠ '%') (hplus : c ≠ '+') (s : Text) :
    decodeFrom jvm run (c :: s) =
      (decodeFrom jvm [] s).map fun rest => jvm.newString run ++ c :: rest := by
  rw [decodeFrom.eq_def]
  split
  · rename_i heq; cases heq
  · rename_i heq; cases heq; exact absurd rfl hpercent
  · rename_i heq; cases heq; exact absurd rfl hpercent
  · rename_i heq
    cases heq
    rw [if_neg hplus]
    cases decodeFrom jvm [] s <;> rfl

theorem ne_of_isUnreserved {c d : Char} (h : isUnreserved c = true)
    (hd : isUnreserved d = false) : c ≠ d := by
  rintro rfl
  rw [h] at hd
  cases hd

theorem decodeFrom_percentEncode (pending s : Text) :
    decodeFrom jvm (Utf8.encode pending) (percentEncode s) = some (pending ++ s) := by
  induction s generalizing pending with
  | nil => rw [percentEncode_nil, decodeFrom, jvm.newString_encode, append_nil]
  | cons c s ih =>
    rw [percentEncode_cons, percentEncodeChar]
    split
    · rename_i hsafe
      have hrest : decodeFrom jvm [] (percentEncode s) = some s := ih []
      rw [singleton_append, decodeFrom_cons (ne_of_isUnreserved hsafe (by decide))
        (ne_of_isUnreserved hsafe (by decide)), hrest, jvm.newString_encode]
      rfl
    · have hrun : Utf8.encode pending ++ String.utf8EncodeChar c =
          Utf8.encode (pending ++ [c]) := by simp
      rw [decodeFrom_escapes, hrun, ih, append_assoc]
      rfl

@[simp] theorem urlDecode_percentEncode (s : Text) : urlDecode jvm (percentEncode s) = some s :=
  decodeFrom_percentEncode [] s

end RoundTrip

example : percentEncode "a b+ü".toList = "a%20b%2B%C3%BC".toList := by decide
example : urlDecode .basicLatin "a%20b%2B%C3%BC".toList = some "a b+ü".toList := by
  decide +kernel
example : urlDecode .basicLatin "100%".toList = none := by decide

end BigRocket.Lib
