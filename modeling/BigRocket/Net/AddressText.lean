/-
How Rust's `parse::<IpAddr>` reads an address, function by function.
-/
import BigRocket.Lib.Text
import BigRocket.Net.Address

namespace BigRocket.Net

open Lib

def toDigit (radix : Nat) (c : Char) : Option Nat :=
  let value :=
    if '0' ≤ c ∧ c ≤ '9' then some (c.toNat - 48)
    else if 'a' ≤ c ∧ c ≤ 'z' then some (c.toNat - 87)
    else if 'A' ≤ c ∧ c ≤ 'Z' then some (c.toNat - 55)
    else none
  value.filter (· < radix)

/-- `read_number`: all the digits that follow, at most `maxDigits` of them,
below `limit`. -/
def readNumber (radix maxDigits limit : Nat) (allowZeroPrefix : Bool) (s : Text) :
    Option (Nat × Text) :=
  let digits := s.takeWhile fun c => (toDigit radix c).isSome
  let value := digits.foldl (fun n c => n * radix + (toDigit radix c).getD 0) 0
  if digits.length = 0 ∨ maxDigits < digits.length then none
  else if !allowZeroPrefix ∧ s.head? = some '0' ∧ 1 < digits.length then none
  else if value < limit then some (value, s.drop digits.length)
  else none

def readGivenChar (c : Char) : Text → Option Text
  | d :: rest => if d = c then some rest else none
  | [] => none

def readSeparator {α : Type} (c : Char) (index : Nat) (inner : Text → Option (α × Text))
    (s : Text) : Option (α × Text) :=
  if index > 0 then (readGivenChar c s).bind inner else inner s

def readOctet (index : Nat) (s : Text) : Option (Nat × Text) :=
  readSeparator '.' index (readNumber 10 3 256 false) s

def readIpv4Addr (s : Text) : Option (BitVec 32 × Text) := do
  let (a, s) ← readOctet 0 s
  let (b, s) ← readOctet 1 s
  let (c, s) ← readOctet 2 s
  let (d, s) ← readOctet 3 s
  return (BitVec.ofNat 32 (((a * 256 + b) * 256 + c) * 256 + d), s)

/-- `read_groups`, from group `index` on: what was read, whether it ended
with an IPv4 address, and the rest. -/
def readGroups (limit : Nat) : Nat → Nat → Text → List Nat × Bool × Text
  | 0, _, s => ([], false, s)
  | left + 1, index, s =>
    let embedded := if index + 1 < limit then readSeparator ':' index readIpv4Addr s else none
    match embedded with
    | some (v4, rest) => ([v4.toNat / 65536, v4.toNat % 65536], true, rest)
    | none =>
      match readSeparator ':' index (readNumber 16 4 65536 true) s with
      | some (group, rest) =>
        let (groups, v4, rest) := readGroups limit left (index + 1) rest
        (group :: groups, v4, rest)
      | none => ([], false, s)

def ofGroups (groups : List Nat) : BitVec 128 :=
  BitVec.ofNat 128 (groups.foldl (fun n g => n * 65536 + g) 0)

def readIpv6Addr (s : Text) : Option (BitVec 128 × Text) :=
  let (head, headV4, rest) := readGroups 8 8 0 s
  if head.length = 8 then some (ofGroups head, rest)
  else if headV4 then none
  else do
    let rest ← readGivenChar ':' rest
    let rest ← readGivenChar ':' rest
    let limit := 8 - (head.length + 1)
    let (tail, _, rest) := readGroups limit limit 0 rest
    return (ofGroups (head ++ List.replicate (8 - head.length - tail.length) 0 ++ tail), rest)

def readIpAddr (s : Text) : Option (IpAddr × Text) :=
  match readIpv4Addr s with
  | some (v4, rest) => some (.v4 v4, rest)
  | none => (readIpv6Addr s).map fun (v6, rest) => (.v6 v6, rest)

def parseIpAddr (s : Text) : Option IpAddr :=
  match readIpAddr s with
  | some (ip, []) => some ip
  | _ => none

example : parseIpAddr "10.0.200.1".toList = some (.ofOctets 10 0 200 1) := by decide +kernel
example : parseIpAddr "10.00.200.1".toList = none := by decide +kernel
example : parseIpAddr "fe80::1".toList = some (.v6 0xfe800000000000000000000000000001) := by
  decide +kernel
example : parseIpAddr "::ffff:1.2.3.4".toList = some (.v6 0xffff01020304) := by decide +kernel

end BigRocket.Net
