/-
`Display` for `Ipv4Addr` and `u8`, and that `parse` reads back what they
print.
-/
import BigRocket.Net.AddressText

namespace BigRocket.Net

open Lib List

def parseIpv4 (s : Text) : Option (BitVec 32) :=
  match readIpv4Addr s with
  | some (addr, []) => some addr
  | _ => none

/-- `parse::<u8>`: a sign is allowed, and so are leading zeros. -/
def parseU8 (s : Text) : Option Nat :=
  let digits := match s with
    | '+' :: rest => rest
    | _ => s
  if digits ≠ [] ∧ digits.all Char.isDigit then
    let value := digits.foldl (fun n c => 10 * n + (c.toNat - 48)) 0
    if value < 256 then some value else none
  else none

def octets (addr : BitVec 32) : List Nat :=
  [addr.toNat / 2 ^ 24, addr.toNat / 2 ^ 16 % 256, addr.toNat / 2 ^ 8 % 256, addr.toNat % 256]

def displayIpv4 (addr : BitVec 32) : Text :=
  ['.'].intercalate ((octets addr).map (Nat.toDigits 10))

/-! ## Reading back -/

variable {n : Nat}

theorem parseU8_toDigits (h : n < 256) : parseU8 (Nat.toDigits 10 n) = some n := by
  have hall : ∀ n < 256, parseU8 (Nat.toDigits 10 n) = some n := by decide +kernel
  exact hall n h

theorem octet_digits (h : n < 256) :
    (∀ c ∈ Nat.toDigits 10 n, (toDigit 10 c).isSome = true) ∧
      (Nat.toDigits 10 n).foldl (fun n c => n * 10 + (toDigit 10 c).getD 0) 0 = n ∧
      0 < (Nat.toDigits 10 n).length ∧ (Nat.toDigits 10 n).length ≤ 3 ∧
      ((Nat.toDigits 10 n).head? = some '0' → (Nat.toDigits 10 n).length ≤ 1) := by
  have hall : ∀ n < 256, ((Nat.toDigits 10 n).all fun c => (toDigit 10 c).isSome) = true ∧
      (Nat.toDigits 10 n).foldl (fun n c => n * 10 + (toDigit 10 c).getD 0) 0 = n ∧
      0 < (Nat.toDigits 10 n).length ∧ (Nat.toDigits 10 n).length ≤ 3 ∧
      ((Nat.toDigits 10 n).head? = some '0' → (Nat.toDigits 10 n).length ≤ 1) := by
    decide +kernel
  obtain ⟨hdigits, hrest⟩ := hall n h
  exact ⟨all_eq_true.mp hdigits, hrest⟩

theorem readNumber_toDigits (h : n < 256) {rest : Text}
    (hrest : ∀ c ∈ rest.head?, (toDigit 10 c).isSome = false) :
    readNumber 10 3 256 false (Nat.toDigits 10 n ++ rest) = some (n, rest) := by
  obtain ⟨hdigits, hvalue, hpos, hshort, hzero⟩ := octet_digits h
  have htake : (Nat.toDigits 10 n ++ rest).takeWhile (fun c => (toDigit 10 c).isSome) =
      Nat.toDigits 10 n := by
    rw [takeWhile_append_of_pos hdigits]
    cases rest with
    | nil => simp
    | cons c rest => simp [hrest c (by simp)]
  have hhead : (Nat.toDigits 10 n ++ rest).head? = (Nat.toDigits 10 n).head? := by
    rw [head?_append_of_ne_nil _ (ne_nil_of_length_pos hpos)]
  simp only [readNumber, htake, hvalue, hhead]
  rw [if_neg (by omega), if_neg, if_pos h, drop_left]
  rintro ⟨-, hstart, hlong⟩
  have := hzero hstart
  omega

theorem readOctet_succ (h : n < 256) (index : Nat) {rest : Text}
    (hrest : ∀ c ∈ rest.head?, (toDigit 10 c).isSome = false) :
    readOctet (index + 1) ('.' :: (Nat.toDigits 10 n ++ rest)) = some (n, rest) := by
  exact readNumber_toDigits h hrest

theorem readIpv4Addr_octets {a b c d : Nat} (ha : a < 256) (hb : b < 256) (hc : c < 256)
    (hd : d < 256) :
    readIpv4Addr (Nat.toDigits 10 a ++ '.' :: (Nat.toDigits 10 b ++ '.' :: (Nat.toDigits 10 c ++
        '.' :: Nat.toDigits 10 d))) =
      some (BitVec.ofNat 32 (((a * 256 + b) * 256 + c) * 256 + d), []) := by
  have hdot : ∀ s : Text, ∀ e ∈ ('.' :: s).head?, (toDigit 10 e).isSome = false := by
    intro s e he
    cases he
    decide
  have hlast := readOctet_succ hd 2 (by simp : ∀ c ∈ ([] : Text).head?, (toDigit 10 c).isSome = false)
  rw [append_nil] at hlast
  have hfirst : readOctet 0 (Nat.toDigits 10 a ++ '.' :: (Nat.toDigits 10 b ++ '.' ::
      (Nat.toDigits 10 c ++ '.' :: Nat.toDigits 10 d))) = some (a, _) :=
    readNumber_toDigits ha (hdot _)
  rw [readIpv4Addr, hfirst]
  simp only [Option.bind_eq_bind, Option.bind_some, readOctet_succ hb 0 (hdot _),
    readOctet_succ hc 1 (hdot _), hlast]
  rfl

theorem parseIpv4_displayIpv4 (addr : BitVec 32) : parseIpv4 (displayIpv4 addr) = some addr := by
  have hvalue : ((addr.toNat / 2 ^ 24 * 256 + addr.toNat / 2 ^ 16 % 256) * 256 +
      addr.toNat / 2 ^ 8 % 256) * 256 + addr.toNat % 256 = addr.toNat := by omega
  have hread := readIpv4Addr_octets (by omega : addr.toNat / 2 ^ 24 < 256)
    (by omega : addr.toNat / 2 ^ 16 % 256 < 256) (by omega : addr.toNat / 2 ^ 8 % 256 < 256)
    (by omega : addr.toNat % 256 < 256)
  rw [hvalue, BitVec.ofNat_toNat, BitVec.setWidth_eq] at hread
  have hshape : displayIpv4 addr =
      Nat.toDigits 10 (addr.toNat / 2 ^ 24) ++ '.' :: (Nat.toDigits 10 (addr.toNat / 2 ^ 16 % 256) ++
        '.' :: (Nat.toDigits 10 (addr.toNat / 2 ^ 8 % 256) ++
          '.' :: Nat.toDigits 10 (addr.toNat % 256))) := by
    simp [displayIpv4, octets, List.intercalate]
  rw [parseIpv4, hshape, hread]

end BigRocket.Net
