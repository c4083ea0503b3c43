/-
Writing bytes in base64 (RFC 4648), with either alphabet, padded or not.

Three bytes are four numbers below 64, `sextets`; the alphabet gives each
its character.
-/
import BigRocket.Lib.Text

namespace BigRocket.Lib.Base64

open List

def sextets : List UInt8 → List Nat
  | [] => []
  | [a] => [a.toNat / 4, a.toNat % 4 * 16]
  | [a, b] => [a.toNat / 4, a.toNat % 4 * 16 + b.toNat / 16, b.toNat % 16 * 4]
  | a :: b :: c :: rest =>
    a.toNat / 4 :: (a.toNat % 4 * 16 + b.toNat / 16) :: (b.toNat % 16 * 4 + c.toNat / 64) ::
      c.toNat % 64 :: sextets rest

structure Variant where
  urlSafe : Bool
  pad : Bool

def symbol (variant : Variant) (v : Nat) : Char :=
  if v < 26 then Char.ofNat (65 + v)
  else if v < 52 then Char.ofNat (71 + v)
  else if v < 62 then Char.ofNat (v - 4)
  else if v = 62 then if variant.urlSafe then '-' else '+'
  else if variant.urlSafe then '_' else '/'

def padding (variant : Variant) (bytes : List UInt8) : Text :=
  if variant.pad then List.replicate ((3 - bytes.length % 3) % 3) '=' else []

def encode (variant : Variant) (bytes : List UInt8) : Text :=
  (sextets bytes).map (symbol variant) ++ padding variant bytes

theorem sextets_lt {bytes : List UInt8} : ∀ v ∈ sextets bytes, v < 64 := by
  induction bytes using sextets.induct with
  | case1 => nofun
  | case2 a =>
    have ha := a.toNat_lt
    intro v hv
    simp only [sextets, mem_cons, not_mem_nil, or_false] at hv
    omega
  | case3 a b =>
    have ha := a.toNat_lt
    have hb := b.toNat_lt
    intro v hv
    simp only [sextets, mem_cons, not_mem_nil, or_false] at hv
    omega
  | case4 a b c rest ih =>
    have ha := a.toNat_lt
    have hb := b.toNat_lt
    intro v hv
    simp only [sextets, mem_cons] at hv
    rcases hv with hv | hv | hv | hv | hv
    · omega
    · omega
    · have hc := c.toNat_lt
      omega
    · omega
    · exact ih v hv

theorem length_sextets_mod (bytes : List UInt8) : (sextets bytes).length % 4 ≠ 1 := by
  induction bytes using sextets.induct with
  | case1 => decide
  | case2 a => exact (by decide : 2 % 4 ≠ 1)
  | case3 a b => exact (by decide : 3 % 4 ≠ 1)
  | case4 a b c rest ih =>
    simp only [sextets, length_cons]
    omega

theorem length_le_sextets (bytes : List UInt8) : bytes.length ≤ (sextets bytes).length := by
  induction bytes using sextets.induct with
  | case1 => exact le_rfl
  | case2 a => exact (by decide : 1 ≤ 2)
  | case3 a b => exact (by decide : 2 ≤ 3)
  | case4 a b c rest ih =>
    simp only [sextets, length_cons]
    omega

example : encode { urlSafe := false, pad := true } [0x68, 0x65, 0x6C, 0x6C, 0x6F] =
    "aGVsbG8=".toList := by decide

end BigRocket.Lib.Base64
