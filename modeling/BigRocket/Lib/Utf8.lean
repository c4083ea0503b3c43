/-
`String::from_utf8_lossy`, which replaces bytes that are no character by U+FFFD,
`str::from_utf8`, and the bytes of a text.
-/
import BigRocket.Lib.Text

namespace BigRocket.Lib

open List

namespace Utf8

def replacement : Char := '�'

def isCont (b : UInt8) : Bool := 0x80 ≤ b && b ≤ 0xBF

def secondOfThree (a b : UInt8) : Bool :=
  if a = 0xE0 then 0xA0 ≤ b && b ≤ 0xBF
  else if a = 0xED then 0x80 ≤ b && b ≤ 0x9F
  else isCont b

def secondOfFour (a b : UInt8) : Bool :=
  if a = 0xF0 then 0x90 ≤ b && b ≤ 0xBF
  else if a = 0xF4 then 0x80 ≤ b && b ≤ 0x8F
  else isCont b

def low (b : UInt8) : Nat := b.toNat % 64

def decodeFirst (a : UInt8) (rest : List UInt8) : Char × List UInt8 :=
  if a < 0x80 then (Char.ofNat a.toNat, rest)
  else if 0xC2 ≤ a ∧ a ≤ 0xDF then
    match rest with
    | b :: rest =>
      if isCont b then (Char.ofNat (a.toNat % 32 * 64 + low b), rest) else (replacement, b :: rest)
    | [] => (replacement, [])
  else if 0xE0 ≤ a ∧ a ≤ 0xEF then
    match rest with
    | b :: c :: rest =>
      if secondOfThree a b then
        if isCont c then (Char.ofNat ((a.toNat % 16 * 64 + low b) * 64 + low c), rest)
        else (replacement, c :: rest)
      else (replacement, b :: c :: rest)
    | [b] => if secondOfThree a b then (replacement, []) else (replacement, [b])
    | [] => (replacement, [])
  else if 0xF0 ≤ a ∧ a ≤ 0xF4 then
    match rest with
    | b :: c :: d :: rest =>
      if secondOfFour a b then
        if isCont c then
          if isCont d then
            (Char.ofNat (((a.toNat % 8 * 64 + low b) * 64 + low c) * 64 + low d), rest)
          else (replacement, d :: rest)
        else (replacement, c :: d :: rest)
      else (replacement, b :: c :: d :: rest)
    | [b, c] =>
      if secondOfFour a b then
        if isCont c then (replacement, []) else (replacement, [c])
      else (replacement, [b, c])
    | [b] => if secondOfFour a b then (replacement, []) else (replacement, [b])
    | [] => (replacement, [])
  else (replacement, rest)

/-- Each turn uses up a byte, so `bytes.length` turns are enough. -/
def decode : Nat → List UInt8 → Text
  | turns + 1, a :: rest => (decodeFirst a rest).1 :: decode turns (decodeFirst a rest).2
  | _, _ => []

def fromUtf8Lossy (bytes : List UInt8) : Text := decode bytes.length bytes

example : fromUtf8Lossy [0x61, 0xC3, 0xBC, 0xE2, 0x82, 0x41] = ['a', 'ü', replacement, 'A'] := by
  decide +kernel

/-! ## Without replacement -/

def firstChar (a : UInt8) (rest : List UInt8) : Option (Char × List UInt8) :=
  if a < 0x80 then some (Char.ofNat a.toNat, rest)
  else if 0xC2 ≤ a ∧ a ≤ 0xDF then
    match rest with
    | b :: rest => if isCont b then some (Char.ofNat (a.toNat % 32 * 64 + low b), rest) else none
    | [] => none
  else if 0xE0 ≤ a ∧ a ≤ 0xEF then
    match rest with
    | b :: c :: rest =>
      if secondOfThree a b && isCont c then
        some (Char.ofNat ((a.toNat % 16 * 64 + low b) * 64 + low c), rest)
      else none
    | _ => none
  else if 0xF0 ≤ a ∧ a ≤ 0xF4 then
    match rest with
    | b :: c :: d :: rest =>
      if secondOfFour a b && isCont c && isCont d then
        some (Char.ofNat (((a.toNat % 8 * 64 + low b) * 64 + low c) * 64 + low d), rest)
      else none
    | _ => none
  else none

/-- Each turn uses up a byte, so `bytes.length` turns are enough. -/
def chars : Nat → List UInt8 → Option Text
  | _, [] => some []
  | 0, _ :: _ => none
  | turns + 1, a :: rest => do
      let (c, rest) ← firstChar a rest
      let text ← chars turns rest
      return c :: text

def fromUtf8 (bytes : List UInt8) : Option Text := chars bytes.length bytes

theorem length_firstChar {a : UInt8} {rest rest' : List UInt8} {c : Char}
    (h : firstChar a rest = some (c, rest')) : rest'.length ≤ rest.length := by
  unfold firstChar at h
  repeat' split at h
  all_goals cases h
  all_goals first
    | exact le_rfl
    | simp only [length_cons]; omega

theorem length_chars {turns : Nat} {bytes : List UInt8} {text : Text}
    (h : chars turns bytes = some text) : text.length ≤ bytes.length := by
  induction turns generalizing bytes text with
  | zero =>
    cases bytes with
    | nil => cases h; exact le_rfl
    | cons a rest => cases h
  | succ turns ih =>
    cases bytes with
    | nil => cases h; exact le_rfl
    | cons a rest =>
      obtain ⟨⟨c, rest'⟩, hfirst, h⟩ := Option.bind_eq_some_iff.mp h
      obtain ⟨tail, htail, h⟩ := Option.bind_eq_some_iff.mp h
      cases h
      have hle := ih htail
      have hrest := length_firstChar hfirst
      simp only [length_cons]
      omega

example : fromUtf8 [0x61, 0xC3, 0xBC, 0xEF, 0xBF, 0xBD] = some ['a', 'ü', replacement] := by
  decide +kernel
example : fromUtf8 [0x61, 0xED, 0xA0, 0x80] = none := by decide +kernel

/-! ## The bytes of a text -/

def encode (text : Text) : List UInt8 := text.flatMap String.utf8EncodeChar

@[simp] theorem encode_nil : encode [] = [] := rfl

@[simp] theorem encode_cons (c : Char) (text : Text) :
    encode (c :: text) = String.utf8EncodeChar c ++ encode text := rfl

@[simp] theorem encode_append (s t : Text) : encode (s ++ t) = encode s ++ encode t :=
  flatMap_append

theorem utf8EncodeChar_ascii {c : Char} (h : c.toNat < 128) :
    String.utf8EncodeChar c = [UInt8.ofNat c.toNat] := by
  have hle : c.val.toNat ≤ 0x7f := Nat.le_of_lt_succ h
  simp only [String.utf8EncodeChar, if_pos hle]
  rfl

variable {v n : Nat}

theorem toNat_byte (h : n < 256) : (UInt8.ofNat n).toNat = n := by
  exact Nat.mod_eq_of_lt h

theorem isCont_byte (n : Nat) : isCont (UInt8.ofNat (n % 64 + 128)) = true := by
  have hn : (UInt8.ofNat (n % 64 + 128)).toNat = n % 64 + 128 := toNat_byte (by omega)
  simp only [isCont, UInt8.le_iff_toNat_le, hn, Bool.and_eq_true, decide_eq_true_eq]
  exact ⟨by simp, by simp; omega⟩

theorem low_byte (n : Nat) : low (UInt8.ofNat (n % 64 + 128)) = n % 64 := by
  have hn : (UInt8.ofNat (n % 64 + 128)).toNat = n % 64 + 128 := toNat_byte (by omega)
  rw [low, hn]
  omega

theorem byte_le {m : Nat} (hm : m < 256) (hn : n < 256) :
    UInt8.ofNat m ≤ UInt8.ofNat n ↔ m ≤ n := by
  rw [UInt8.le_iff_toNat_le, toNat_byte hm, toNat_byte hn]

theorem byte_eq {m : Nat} (hm : m < 256) (hn : n < 256) :
    UInt8.ofNat m = UInt8.ofNat n ↔ m = n := by
  rw [← UInt8.toNat_inj, toNat_byte hm, toNat_byte hn]

theorem byte_between (lo hi : Nat) (hn : n < 256) (hlow : lo ≤ n) (hhigh : n ≤ hi)
    (hhi : hi < 256) :
    (OfNat.ofNat lo : UInt8) ≤ UInt8.ofNat n ∧ UInt8.ofNat n ≤ (OfNat.ofNat hi : UInt8) :=
  ⟨(byte_le (by omega) hn).mpr hlow, (byte_le hn hhi).mpr hhigh⟩

theorem not_byte_between {lo : UInt8} (hi : Nat) (hn : n < 256) (hhigh : hi < n) :
    ¬ (lo ≤ UInt8.ofNat n ∧ UInt8.ofNat n ≤ (OfNat.ofNat hi : UInt8)) := fun h =>
  absurd ((byte_le hn (by omega)).mp h.2) (by omega)

theorem secondOfThree_byte (hlow : 0x800 ≤ v) (hhigh : v < 0x10000)
    (hvalid : v < 0xD800 ∨ 0xDFFF < v) :
    secondOfThree (UInt8.ofNat (v / 4096 % 16 + 224)) (UInt8.ofNat (v / 64 % 64 + 128)) = true := by
  have ha : v / 4096 % 16 + 224 < 256 := by omega
  have hb : v / 64 % 64 + 128 < 256 := by omega
  unfold secondOfThree
  split
  · rename_i hE0
    have h := (byte_eq ha (by decide : 0xE0 < 256)).mp hE0
    simpa using byte_between 0xA0 0xBF hb (by omega) (by omega) (by decide)
  · split
    · rename_i hED
      have h := (byte_eq ha (by decide : 0xED < 256)).mp hED
      simpa using byte_between 0x80 0x9F hb (by omega) (by omega) (by decide)
    · exact isCont_byte _

theorem secondOfFour_byte (hlow : 0x10000 ≤ v) (hhigh : v < 0x110000) :
    secondOfFour (UInt8.ofNat (v / 262144 % 8 + 240)) (UInt8.ofNat (v / 4096 % 64 + 128)) =
      true := by
  have ha : v / 262144 % 8 + 240 < 256 := by omega
  have hb : v / 4096 % 64 + 128 < 256 := by omega
  unfold secondOfFour
  split
  · rename_i hF0
    have h := (byte_eq ha (by decide : 0xF0 < 256)).mp hF0
    simpa using byte_between 0x90 0xBF hb (by omega) (by omega) (by decide)
  · split
    · rename_i hF4
      have h := (byte_eq ha (by decide : 0xF4 < 256)).mp hF4
      simpa using byte_between 0x80 0x8F hb (by omega) (by omega) (by decide)
    · exact isCont_byte _

theorem not_byte_lt (hlow : 0x80 ≤ n) (hhigh : n < 256) : ¬ UInt8.ofNat n < 0x80 := by
  rw [UInt8.lt_iff_toNat_lt, toNat_byte hhigh]
  exact Nat.not_lt.mpr hlow

theorem firstChar_one (h : v < 0x80) (rest : List UInt8) :
    firstChar (UInt8.ofNat v) rest = some (Char.ofNat v, rest) := by
  have hlt : UInt8.ofNat v < 0x80 := by
    rw [UInt8.lt_iff_toNat_lt, toNat_byte (by omega)]
    exact h
  rw [firstChar.eq_def, if_pos hlt, toNat_byte (by omega)]

theorem firstChar_two (hlow : 0x80 ≤ v) (hhigh : v < 0x800) (rest : List UInt8) :
    firstChar (UInt8.ofNat (v / 64 % 32 + 192)) (UInt8.ofNat (v % 64 + 128) :: rest) =
      some (Char.ofNat v, rest) := by
  have ha : v / 64 % 32 + 192 < 256 := by omega
  have hv : (v / 64 % 32 + 192) % 32 * 64 + v % 64 = v := by omega
  rw [firstChar.eq_def, if_neg (not_byte_lt (by omega) ha),
    if_pos (byte_between 0xC2 0xDF ha (by omega) (by omega) (by decide))]
  simp only [isCont_byte, if_true, low_byte, toNat_byte ha, hv]

theorem firstChar_three (hlow : 0x800 ≤ v) (hhigh : v < 0x10000)
    (hvalid : v < 0xD800 ∨ 0xDFFF < v) (rest : List UInt8) :
    firstChar (UInt8.ofNat (v / 4096 % 16 + 224))
      (UInt8.ofNat (v / 64 % 64 + 128) :: UInt8.ofNat (v % 64 + 128) :: rest) =
      some (Char.ofNat v, rest) := by
  have ha : v / 4096 % 16 + 224 < 256 := by omega
  have hv : ((v / 4096 % 16 + 224) % 16 * 64 + v / 64 % 64) * 64 + v % 64 = v := by omega
  rw [firstChar.eq_def, if_neg (not_byte_lt (by omega) ha),
    if_neg (not_byte_between 0xDF ha (by omega)),
    if_pos (byte_between 0xE0 0xEF ha (by omega) (by omega) (by decide))]
  simp only [secondOfThree_byte hlow hhigh hvalid, isCont_byte, Bool.and_true, if_true, low_byte,
    toNat_byte ha, hv]

theorem firstChar_four (hlow : 0x10000 ≤ v) (hhigh : v < 0x110000) (rest : List UInt8) :
    firstChar (UInt8.ofNat (v / 262144 % 8 + 240))
      (UInt8.ofNat (v / 4096 % 64 + 128) :: UInt8.ofNat (v / 64 % 64 + 128) ::
        UInt8.ofNat (v % 64 + 128) :: rest) = some (Char.ofNat v, rest) := by
  have ha : v / 262144 % 8 + 240 < 256 := by omega
  have hv : (((v / 262144 % 8 + 240) % 8 * 64 + v / 4096 % 64) * 64 + v / 64 % 64) * 64 +
      v % 64 = v := by omega
  rw [firstChar.eq_def, if_neg (not_byte_lt (by omega) ha),
    if_neg (not_byte_between 0xDF ha (by omega)),
    if_neg (not_byte_between 0xEF ha (by omega)),
    if_pos (byte_between 0xF0 0xF4 ha (by omega) (by omega) (by decide))]
  simp only [secondOfFour_byte hlow hhigh, isCont_byte, Bool.and_true, if_true, low_byte,
    toNat_byte ha, hv]

theorem firstChar_utf8EncodeChar (c : Char) (rest : List UInt8) :
    ∃ a tail, String.utf8EncodeChar c ++ rest = a :: tail ∧ firstChar a tail = some (c, rest) := by
  have hvalid : c.val.toNat < 0xD800 ∨ (0xDFFF < c.val.toNat ∧ c.val.toNat < 0x110000) := c.valid
  have hback : Char.ofNat c.val.toNat = c := Char.ofNat_toNat c
  unfold String.utf8EncodeChar
  generalize c.val.toNat = v at hvalid hback
  subst hback
  simp only
  split
  · exact ⟨_, _, cons_append, firstChar_one (by omega) rest⟩
  · split
    · exact ⟨_, _, cons_append, firstChar_two (by omega) (by omega) rest⟩
    · split
      · exact ⟨_, _, cons_append, firstChar_three (by omega) (by omega) (by omega) rest⟩
      · exact ⟨_, _, cons_append, firstChar_four (by omega) (by omega) rest⟩

theorem chars_encode (text : Text) (turns : Nat) (h : (encode text).length ≤ turns) :
    chars turns (encode text) = some text := by
  induction text generalizing turns with
  | nil => rw [encode_nil, chars]
  | cons c text ih =>
    rw [encode_cons] at h ⊢
    obtain ⟨a, tail, hbytes, hfirst⟩ := firstChar_utf8EncodeChar c (encode text)
    rw [hbytes] at h ⊢
    have hpos : 1 ≤ turns := by
      rw [length_cons] at h
      omega
    obtain ⟨turns, rfl⟩ := Nat.exists_eq_add_of_le' hpos
    have hle := length_firstChar hfirst
    have hrest : chars turns (encode text) = some text :=
      ih turns (by rw [length_cons] at h; omega)
    simp only [chars, hfirst, hrest, Option.bind_eq_bind, Option.bind_some, Option.pure_def]

@[simp] theorem fromUtf8_encode (text : Text) : fromUtf8 (encode text) = some text :=
  chars_encode text _ le_rfl

end Utf8

end BigRocket.Lib
