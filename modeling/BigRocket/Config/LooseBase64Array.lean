/-
`LooseBase64.decode` on the units and arrays of the JVM. An index that the table
or the array does not have throws, and so does a negative size, which is
reckoned in an `Int`.
-/
import BigRocket.Lib.Utf16
import BigRocket.Config.LinkSyntax

namespace BigRocket.Config

open Lib Lib.Utf16

namespace LooseBase64

inductive Thrown where
  | negativeArraySize
  | arrayIndexOutOfBounds
  deriving DecidableEq

def isWhitespaceCode (n : Nat) : Bool :=
  (9 ≤ n && n ≤ 13) || (28 ≤ n && n ≤ 32) || n = 0xA0 || n = 0x1680 ||
    (0x2000 ≤ n && n ≤ 0x200A) || n = 0x2028 || n = 0x2029 || n = 0x202F || n = 0x205F ||
    n = 0x3000

def reverseTable : List Int :=
  let table := alphabet.zipIdx.foldl (fun table entry => table.set entry.1.toNat entry.2)
    (List.replicate 128 (-1))
  (table.set '-'.toNat 62).set '_'.toNat 63

def lookUp (code : Nat) : Except Thrown Int :=
  if code < 128 then
    match reverseTable[code]? with
    | some v => .ok v
    | none => .error .arrayIndexOutOfBounds
  else .ok (-1)

structure ArrayState where
  buffer : Nat
  bits : Nat
  n : Nat
  out : List UInt8

namespace ArrayState

/-- One round; `none` for `return null`. -/
def read (t : ArrayState) (ch : UInt16) : Except Thrown (Option ArrayState) := do
  let v ← lookUp ch.toNat
  if v < 0 then return none
  else
    let buffer := (t.buffer <<< 6 ||| v.toNat) &&& 0xFFFFFF
    let bits := t.bits + 6
    if 8 ≤ bits then
      if t.n < t.out.length then
        return some { buffer, bits := bits - 8, n := t.n + 1
                      out := t.out.set t.n (UInt8.ofNat (buffer >>> (bits - 8) &&& 0xFF)) }
      else throw .arrayIndexOutOfBounds
    else return some { t with buffer, bits }

def readAll (t : ArrayState) : List UInt16 → Except Thrown (Option ArrayState)
  | [] => .ok (some t)
  | ch :: rest => do
      match ← t.read ch with
      | none => return none
      | some t => t.readAll rest

end ArrayState

def arraySize (length : Nat) : Int :=
  let product : Nat := length * 3 % 2 ^ 32
  (if product < 2 ^ 31 then (product : Int) else (product : Int) - 2 ^ 32).tdiv 4

def stripped (text : JvmString) : List UInt16 :=
  (text.units.filter fun u => !isWhitespaceCode u.toNat).rdropWhile fun u => u.toNat = '='.toNat

def decodeArray (text : JvmString) : Except Thrown (Option (List UInt8)) := do
  let s := stripped text
  if s = [] ∨ s.length % 4 = 1 then return none
  else if arraySize s.length < 0 then throw .negativeArraySize
  else
    match ← ArrayState.readAll ⟨0, 0, 0, List.replicate (arraySize s.length).toNat 0⟩ s with
    | none => return none
    | some t => return some (t.out.take t.n)

end LooseBase64

end BigRocket.Config
