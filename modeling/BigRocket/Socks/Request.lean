/-
The destination in a SOCKS5 request: read from the control connection for
CONNECT, and from each datagram of a UDP association.
-/
import BigRocket.Lib.ByteBuffer
import BigRocket.Lib.Utf8
import BigRocket.Routing.Matcher

namespace BigRocket.Socks

open Lib Net Routing

def atypV4 : UInt8 := 0x01
def atypDomain : UInt8 := 0x03
def atypV6 : UInt8 := 0x04

inductive Target where
  | domain (name : Text)
  | ip (ip : IpAddr)
  deriving DecidableEq, Repr

def hostOf : Target → Host
  | .domain name => .domain name
  | .ip ip => .ip ip

def readExact (count : Nat) (input : List UInt8) : Option (List UInt8 × List UInt8) :=
  if count ≤ input.length then some (input.take count, input.drop count) else none

def readAddress (atyp : UInt8) (input : List UInt8) : Option (Target × List UInt8) :=
  if atyp = atypV4 then do
    let (b, rest) ← readExact 4 input
    return (.ip (.v4 (BitVec.ofNat 32 (beNat b))), rest)
  else if atyp = atypV6 then do
    let (b, rest) ← readExact 16 input
    return (.ip (.v6 (BitVec.ofNat 128 (beNat b))), rest)
  else if atyp = atypDomain then do
    let (len, rest) ← readExact 1 input
    let (name, rest) ← readExact (beNat len) rest
    return (.domain (Utf8.fromUtf8Lossy name), rest)
  else none

def readTarget (atyp : UInt8) (input : List UInt8) : Option (Target × Nat × List UInt8) := do
  let (target, rest) ← readAddress atyp input
  let (port, rest) ← readExact 2 rest
  return (target, beNat port, rest)

/-- `parse_udp_request`: the same notation behind three bytes, the last of
which, the fragment number, is zero. -/
def parseUdpRequest (buf : List UInt8) : Option (Target × Nat × List UInt8) :=
  match buf with
  | _ :: _ :: frag :: atyp :: rest => if frag ≠ 0 then none else readTarget atyp rest
  | _ => none

end BigRocket.Socks
