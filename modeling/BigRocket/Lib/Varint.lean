/-
The variable-length integers of QUIC, as the crate `octets` has them.
-/
import BigRocket.Lib.ByteBuffer

namespace BigRocket.Lib

open List

/-! ## Writing and reading -/

def varintLimit : Nat := 2 ^ 62

def varintLen (v : Nat) : Nat :=
  if v ≤ 63 then 1 else if v ≤ 16383 then 2 else if v ≤ 1073741823 then 4 else 8

def varintFlag : Nat → UInt8
  | 1 => 0
  | 2 => 0x40
  | 4 => 0x80
  | _ => 0xc0

def putVarint (v : Nat) : List UInt8 :=
  match beBytes (varintLen v) v with
  | [] => []
  | first :: rest => (first ||| varintFlag (varintLen v)) :: rest

def varintParseLen (first : UInt8) : Nat :=
  match (first >>> 6).toNat with
  | 0 => 1
  | 1 => 2
  | 2 => 4
  | _ => 8

def getVarint : List UInt8 → Except BufferException (Nat × List UInt8)
  | [] => .error .bufferUnderflow
  | first :: rest =>
    let len := varintParseLen first
    if len > (first :: rest).length then .error .bufferUnderflow
    else .ok (beNat ((first :: rest).take len) % 2 ^ (8 * len - 2), (first :: rest).drop len)

theorem getVarint_cons (first : UInt8) (rest : List UInt8) :
    getVarint (first :: rest) =
      if varintParseLen first > (first :: rest).length then .error .bufferUnderflow
      else .ok (beNat ((first :: rest).take (varintParseLen first)) %
          2 ^ (8 * varintParseLen first - 2),
        (first :: rest).drop (varintParseLen first)) := rfl

/-! ## The two agree -/

theorem or_flag {n t : Nat} (hn : n < 64) (ht : t < 4) :
    UInt8.ofNat n ||| UInt8.ofNat (t * 64) = UInt8.ofNat (n + t * 64) := by
  apply UInt8.toNat_inj.mp
  have hor : n ||| 2 ^ 6 * t = 2 ^ 6 * t + n := by
    rw [Nat.or_comm]
    exact (Nat.two_pow_add_eq_or_of_lt hn t).symm
  rw [UInt8.toNat_or, UInt8.toNat_ofNat', UInt8.toNat_ofNat', UInt8.toNat_ofNat',
    Nat.mod_eq_of_lt (by omega), Nat.mod_eq_of_lt (by omega), Nat.mod_eq_of_lt (by omega),
    show t * 64 = 2 ^ 6 * t by omega, hor]
  omega

theorem varintParseLen_ofNat {n t : Nat} (hn : n < 64) (ht : t < 4) :
    varintParseLen (UInt8.ofNat (n + t * 64)) = 2 ^ t := by
  have hshift : (UInt8.ofNat (n + t * 64) >>> 6).toNat = t := by
    rw [UInt8.toNat_shiftRight, UInt8.toNat_ofNat', Nat.mod_eq_of_lt (by omega)]
    show (n + t * 64) >>> 6 = t
    omega
  unfold varintParseLen
  rw [hshift]
  interval_cases t <;> rfl

variable {v : Nat}

theorem varintLen_cases (hv : v < varintLimit) :
    ∃ t w, t < 4 ∧ w + 1 = 2 ^ t ∧ varintLen v = w + 1 ∧
      varintFlag (varintLen v) = UInt8.ofNat (t * 64) ∧ v < 64 * 256 ^ w := by
  unfold varintLimit at hv
  unfold varintLen
  split
  · exact ⟨0, 0, by decide, rfl, rfl, rfl, by omega⟩
  · split
    · exact ⟨1, 1, by decide, rfl, rfl, rfl, by omega⟩
    · split
      · exact ⟨2, 3, by decide, rfl, rfl, rfl, by omega⟩
      · exact ⟨3, 7, by decide, rfl, rfl, rfl, by omega⟩

theorem putVarint_eq (hv : v < varintLimit) :
    ∃ t w first rest, t < 4 ∧ w + 1 = 2 ^ t ∧ v < 64 * 256 ^ w ∧
      putVarint v = first :: rest ∧ varintParseLen first = w + 1 ∧
      first :: rest = beBytes (w + 1) (t * 64 * 256 ^ w + v) := by
  obtain ⟨t, w, ht, hw, hlen, hflag, hsmall⟩ := varintLen_cases hv
  have hpos : 0 < 256 ^ w := Nat.pow_pos (by decide)
  have htop : v / 256 ^ w < 64 := by rwa [Nat.div_lt_iff_lt_mul hpos]
  refine ⟨t, w, UInt8.ofNat (v / 256 ^ w + t * 64), beBytes w v, ht, hw, hsmall, ?_, ?_, ?_⟩
  · rw [putVarint, hflag, hlen, beBytes]
    show (UInt8.ofNat (v / 256 ^ w) ||| UInt8.ofNat (t * 64)) :: beBytes w v = _
    rw [or_flag htop ht]
  · rw [varintParseLen_ofNat htop ht, hw]
  · rw [beBytes, beBytes_add_mul, Nat.add_comm (t * 64 * 256 ^ w), Nat.add_mul_div_right _ _ hpos]

theorem getVarint_putVarint (hv : v < varintLimit) (rest : List UInt8) :
    getVarint (putVarint v ++ rest) = .ok (v, rest) := by
  obtain ⟨t, w, first, tail, ht, hw, hsmall, hput, hparse, hbytes⟩ := putVarint_eq hv
  have hlen : (first :: tail).length = w + 1 := by rw [hbytes, length_beBytes]
  have hvalue : beNat (first :: tail) = t * 64 * 256 ^ w + v := by
    rw [hbytes, beNat_beBytes, Nat.mod_eq_of_lt]
    have hmul : t * 64 * 256 ^ w ≤ 192 * 256 ^ w := Nat.mul_le_mul_right _ (by omega)
    omega
  have hbits : 2 ^ (8 * (w + 1) - 2) = 64 * 256 ^ w := by
    rw [show 8 * (w + 1) - 2 = 6 + 8 * w by omega, Nat.pow_add, Nat.pow_mul]
  rw [hput, cons_append, getVarint_cons, ← cons_append]
  rw [hparse, if_neg (by rw [length_append, hlen]; omega), ← hlen, take_left,
    drop_left, hlen, hvalue, hbits, Nat.mul_assoc, Nat.mul_comm t, Nat.mul_add_mod,
    Nat.mod_eq_of_lt hsmall]

theorem getVarint_part (hv : v < varintLimit) {part : List UInt8} (hpart : part <+: putVarint v)
    (hne : part ≠ putVarint v) : getVarint part = .error .bufferUnderflow := by
  obtain ⟨t, w, first, tail, ht, hw, hsmall, hput, hparse, hbytes⟩ := putVarint_eq hv
  have hlen : (first :: tail).length = w + 1 := by rw [hbytes, length_beBytes]
  rw [hput] at hpart hne
  cases part with
  | nil => rfl
  | cons b bs =>
    have hfirst : b = first := (cons_prefix_cons.mp hpart).1
    have hshort : (b :: bs).length < (first :: tail).length :=
      lt_of_le_of_ne hpart.length_le fun heq => hne (hpart.eq_of_length heq)
    rw [getVarint_cons, hfirst, hparse, if_pos (by rw [hlen] at hshort; simpa using hshort)]

theorem length_of_getVarint {buf rest : List UInt8} (h : getVarint buf = .ok (v, rest)) :
    rest.length < buf.length := by
  cases buf with
  | nil => cases h
  | cons first tail =>
    have hpos : 0 < varintParseLen first := by
      unfold varintParseLen
      split <;> decide
    rw [getVarint_cons] at h
    split at h
    · cases h
    · cases h
      rw [length_drop]
      omega

theorem length_putVarint (hv : v < varintLimit) : (putVarint v).length = varintLen v := by
  obtain ⟨t, w, ht, hw, hlen, -, -⟩ := varintLen_cases hv
  rw [putVarint, hlen, beBytes]
  simp

end BigRocket.Lib
