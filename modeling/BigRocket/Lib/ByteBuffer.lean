/-
Big-endian integers as byte lists, and the sequential reader and writer of a
byte buffer. Reading past the end is the exception `BufferUnderflow`.
-/
import Mathlib

namespace BigRocket.Lib

open List

/-! ## Big-endian numbers -/

def beBytes : Nat → Nat → List UInt8
  | 0, _ => []
  | w + 1, n => UInt8.ofNat (n / 256 ^ w) :: beBytes w n

def beNat : List UInt8 → Nat
  | [] => 0
  | b :: bs => b.toNat * 256 ^ bs.length + beNat bs

variable (w : Nat) (v : Int32) (bs buf : List UInt8)

@[simp] theorem length_beBytes (n : Nat) : (beBytes w n).length = w := by
  induction w with
  | zero => rfl
  | succ w ih => simp [beBytes, ih]

theorem beNat_lt : beNat bs < 256 ^ bs.length := by
  induction bs with
  | nil => simp [beNat]
  | cons b bs ih =>
    have hb : b.toNat + 1 ≤ 256 := b.toNat_lt
    have hmul : (b.toNat + 1) * 256 ^ bs.length ≤ 256 * 256 ^ bs.length :=
      Nat.mul_le_mul_right _ hb
    rw [beNat, length_cons, Nat.pow_succ]
    rw [Nat.add_mul, Nat.one_mul] at hmul
    omega

theorem beNat_beBytes (n : Nat) : beNat (beBytes w n) = n % 256 ^ w := by
  induction w with
  | zero => simp [beNat, beBytes, Nat.mod_one]
  | succ w ih =>
    have htop : (UInt8.ofNat (n / 256 ^ w)).toNat = n / 256 ^ w % 256 := UInt8.toNat_ofNat'
    rw [beBytes, beNat, ih, length_beBytes, htop, Nat.pow_succ, Nat.mod_mul]
    ring

theorem beBytes_add_mul (a n : Nat) : beBytes w (a * 256 ^ w + n) = beBytes w n := by
  induction w generalizing a with
  | zero => rfl
  | succ w ih =>
    have hsplit : a * 256 ^ (w + 1) + n = (a * 256) * 256 ^ w + n := by ring
    have hpos : 0 < 256 ^ w := by positivity
    rw [beBytes, beBytes, hsplit, ih (a * 256)]
    have hdiv : (a * 256 * 256 ^ w + n) / 256 ^ w = a * 256 + n / 256 ^ w := by
      rw [Nat.add_comm, Nat.add_mul_div_right _ _ hpos, Nat.add_comm]
    congr 1
    apply UInt8.toNat_inj.mp
    simp only [UInt8.toNat_ofNat']
    omega

theorem beBytes_beNat : beBytes bs.length (beNat bs) = bs := by
  induction bs with
  | nil => rfl
  | cons b bs ih =>
    have hpos : 0 < 256 ^ bs.length := by positivity
    have htop : (b.toNat * 256 ^ bs.length + beNat bs) / 256 ^ bs.length = b.toNat := by
      rw [Nat.add_comm, Nat.add_mul_div_right _ _ hpos, Nat.div_eq_of_lt (beNat_lt bs),
        Nat.zero_add]
    rw [length_cons, beBytes, beNat, htop, beBytes_add_mul, ih]
    simp

/-! ## The reader -/

inductive BufferException where
  | bufferUnderflow
  deriving DecidableEq, Repr

def getBytes (w : Nat) (buf : List UInt8) :
    Except BufferException (List UInt8 × List UInt8) :=
  if buf.length < w then .error .bufferUnderflow else .ok (buf.take w, buf.drop w)

theorem getBytes_append (rest : List UInt8) : getBytes bs.length (bs ++ rest) = .ok (bs, rest) := by
  simp [getBytes]

theorem getBytes_ok (h : w ≤ buf.length) : getBytes w buf = .ok (buf.take w, buf.drop w) := by
  simp [getBytes, Nat.not_lt.mpr h]

theorem getBytes_eq_ok {w : Nat} {buf bs rest : List UInt8}
    (h : getBytes w buf = .ok (bs, rest)) : buf = bs ++ rest ∧ bs.length = w := by
  unfold getBytes at h
  split at h
  · cases h
  · next hlen =>
      cases h
      exact ⟨(take_append_drop w buf).symm, by simp; omega⟩

/-! ## Typed accessors -/

def putByte (b : UInt8) : List UInt8 := [b]

def putInt (v : Int32) : List UInt8 := beBytes 4 v.toUInt32.toNat

def putLong (v : Int64) : List UInt8 := beBytes 8 v.toUInt64.toNat

def intOfBytes (bs : List UInt8) : Int32 := (UInt32.ofNat (beNat bs)).toInt32

def longOfBytes (bs : List UInt8) : Int64 := (UInt64.ofNat (beNat bs)).toInt64

def getAs {α : Type} (w : Nat) (f : List UInt8 → α) (buf : List UInt8) :
    Except BufferException (α × List UInt8) :=
  match getBytes w buf with
  | .error e => .error e
  | .ok (bs, rest) => .ok (f bs, rest)

def getByte (buf : List UInt8) : Except BufferException (UInt8 × List UInt8) :=
  getAs 1 (fun bs => UInt8.ofNat (beNat bs)) buf

def getInt (buf : List UInt8) : Except BufferException (Int32 × List UInt8) :=
  getAs 4 intOfBytes buf

def getLong (buf : List UInt8) : Except BufferException (Int64 × List UInt8) :=
  getAs 8 longOfBytes buf

@[simp] theorem length_putByte (b : UInt8) : (putByte b).length = 1 := rfl

@[simp] theorem length_putInt : (putInt v).length = 4 := by simp [putInt]

@[simp] theorem length_putLong (v : Int64) : (putLong v).length = 8 := by simp [putLong]

theorem intOfBytes_putInt : intOfBytes (putInt v) = v := by
  have hlt : v.toUInt32.toNat < 256 ^ 4 := v.toUInt32.toNat_lt
  rw [intOfBytes, putInt, beNat_beBytes, Nat.mod_eq_of_lt hlt]
  simp

theorem longOfBytes_putLong (v : Int64) : longOfBytes (putLong v) = v := by
  have hlt : v.toUInt64.toNat < 256 ^ 8 := v.toUInt64.toNat_lt
  rw [longOfBytes, putLong, beNat_beBytes, Nat.mod_eq_of_lt hlt]
  simp

theorem putInt_intOfBytes {bs : List UInt8} (h : bs.length = 4) :
    putInt (intOfBytes bs) = bs := by
  have hlt : beNat bs < 2 ^ 32 := by have := beNat_lt bs; rw [h] at this; exact this
  have hnat : (intOfBytes bs).toUInt32.toNat = beNat bs := by
    exact Nat.mod_eq_of_lt hlt
  rw [putInt, hnat, ← h, beBytes_beNat]

theorem putLong_longOfBytes {bs : List UInt8} (h : bs.length = 8) :
    putLong (longOfBytes bs) = bs := by
  have hlt : beNat bs < 2 ^ 64 := by have := beNat_lt bs; rw [h] at this; exact this
  have hnat : (longOfBytes bs).toUInt64.toNat = beNat bs := by
    exact Nat.mod_eq_of_lt hlt
  rw [putLong, hnat, ← h, beBytes_beNat]

theorem putByte_ofNat_beNat {bs : List UInt8} (h : bs.length = 1) :
    putByte (UInt8.ofNat (beNat bs)) = bs := by
  obtain ⟨b, rfl⟩ := length_eq_one_iff.mp h
  simp [putByte, beNat]

/-! ### Reading back what was written -/

theorem getAs_append {α : Type} (f : List UInt8 → α) (bs rest : List UInt8) :
    getAs bs.length f (bs ++ rest) = .ok (f bs, rest) := by
  rw [getAs, getBytes_append]

@[simp] theorem getByte_putByte (b : UInt8) (rest : List UInt8) :
    getByte (putByte b ++ rest) = .ok (b, rest) := by
  have hb : UInt8.ofNat (beNat (putByte b)) = b := by simp [putByte, beNat]
  rw [getByte, ← length_putByte b, getAs_append, hb]

@[simp] theorem getInt_putInt (rest : List UInt8) : getInt (putInt v ++ rest) = .ok (v, rest) := by
  rw [getInt, ← length_putInt v, getAs_append, intOfBytes_putInt]

@[simp] theorem getLong_putLong (v : Int64) (rest : List UInt8) :
    getLong (putLong v ++ rest) = .ok (v, rest) := by
  rw [getLong, ← length_putLong v, getAs_append, longOfBytes_putLong]

/-! ### Inverting a successful read -/

theorem getAs_eq_ok {α : Type} {w : Nat} {f : List UInt8 → α} {buf rest : List UInt8}
    {a : α} (h : getAs w f buf = .ok (a, rest)) :
    ∃ bs, buf = bs ++ rest ∧ bs.length = w ∧ f bs = a := by
  unfold getAs at h
  split at h
  · cases h
  · next bs rest' hg =>
      cases h
      obtain ⟨happ, hlen⟩ := getBytes_eq_ok hg
      exact ⟨bs, happ, hlen, rfl⟩

theorem getByte_eq_ok {buf rest : List UInt8} {b : UInt8} (h : getByte buf = .ok (b, rest)) :
    buf = putByte b ++ rest := by
  obtain ⟨bs, rfl, hlen, rfl⟩ := getAs_eq_ok h
  rw [putByte_ofNat_beNat hlen]

theorem getInt_eq_ok {buf rest : List UInt8} {v : Int32} (h : getInt buf = .ok (v, rest)) :
    buf = putInt v ++ rest := by
  obtain ⟨bs, rfl, hlen, rfl⟩ := getAs_eq_ok h
  rw [putInt_intOfBytes hlen]

theorem getLong_eq_ok {buf rest : List UInt8} {v : Int64} (h : getLong buf = .ok (v, rest)) :
    buf = putLong v ++ rest := by
  obtain ⟨bs, rfl, hlen, rfl⟩ := getAs_eq_ok h
  rw [putLong_longOfBytes hlen]

/-! ### Reads that cannot throw -/

theorem getAs_ok {α : Type} {w : Nat} (f : List UInt8 → α) (buf : List UInt8)
    (h : w ≤ buf.length) :
    ∃ a rest, getAs w f buf = .ok (a, rest) ∧ rest.length = buf.length - w := by
  refine ⟨f (buf.take w), buf.drop w, ?_, length_drop⟩
  rw [getAs, getBytes_ok w buf h]

theorem getByte_ok (h : 1 ≤ buf.length) :
    ∃ b rest, getByte buf = .ok (b, rest) ∧ rest.length = buf.length - 1 :=
  getAs_ok _ buf h

theorem getInt_ok (h : 4 ≤ buf.length) :
    ∃ v rest, getInt buf = .ok (v, rest) ∧ rest.length = buf.length - 4 :=
  getAs_ok _ buf h

theorem getLong_ok (h : 8 ≤ buf.length) :
    ∃ v rest, getLong buf = .ok (v, rest) ∧ rest.length = buf.length - 8 :=
  getAs_ok _ buf h

end BigRocket.Lib
