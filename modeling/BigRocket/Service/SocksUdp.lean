/-
The two readers of a SOCKS5 UDP datagram and the writer `encodeSocksUdp`. An
`InetAddress` is its bytes, four, or sixteen that are not an IPv4 address in
IPv6 form. The texts of addresses are the platform's.
-/
import BigRocket.Lib.Text

namespace BigRocket.Service

open Lib

def isIPv4Mapped (bytes : List UInt8) : Bool :=
  bytes.take 12 = List.replicate 10 0 ++ [0xFF, 0xFF]

structure InetAddress where
  bytes : List UInt8
  sized : bytes.length = 4 ∨ (bytes.length = 16 ∧ isIPv4Mapped bytes = false)

theorem length_drop_twelve {bytes : List UInt8} (h : bytes.length = 16) :
    (bytes.drop 12).length = 4 := by
  rw [List.length_drop, h]

/-- `InetAddress.getByAddress`; it throws on any other number of bytes. -/
def InetAddress.getByAddress (bytes : List UInt8) : Option InetAddress :=
  if h4 : bytes.length = 4 then some ⟨bytes, .inl h4⟩
  else if h16 : bytes.length = 16 then
    if hmapped : isIPv4Mapped bytes = false then some ⟨bytes, .inr ⟨h16, hmapped⟩⟩
    else some ⟨bytes.drop 12, .inl (length_drop_twelve h16)⟩
  else none

structure InetNames where
  hostAddress : InetAddress → Text
  getByName : Text → Option InetAddress
  getByName_hostAddress : ∀ a, getByName (hostAddress a) = some a

def usAscii (bytes : List UInt8) : Text :=
  bytes.map fun b => if b < 0x80 then Char.ofNat b.toNat else '�'

structure DecodedUdp where
  host : Text
  port : Nat
  payload : List UInt8
  deriving DecidableEq

def byteAt (data : List UInt8) (i : Nat) : UInt8 := data.getD i 0

def copyOfRange (data : List UInt8) (start stop : Nat) : List UInt8 :=
  (data.drop start).take (stop - start)

namespace BondingSocksServer

def decodeHost (names : InetNames) (data : List UInt8) : Option (Text × Nat) :=
  let atyp := byteAt data 3
  if atyp = 0x01 then
    if 4 + 4 > data.length then none
    else (InetAddress.getByAddress (copyOfRange data 4 8)).map fun a => (names.hostAddress a, 8)
  else if atyp = 0x03 then
    if 4 ≥ data.length then none
    else
      let len := (byteAt data 4).toNat
      if 5 + len > data.length then none
      else some (usAscii (copyOfRange data 5 (5 + len)), 5 + len)
  else if atyp = 0x04 then
    if 4 + 16 > data.length then none
    else (InetAddress.getByAddress (copyOfRange data 4 20)).map fun a => (names.hostAddress a, 20)
  else none

def decodeSocksUdp (names : InetNames) (data : List UInt8) : Option DecodedUdp :=
  if data.length < 4 then none
  else if byteAt data 0 ≠ 0 ∨ byteAt data 1 ≠ 0 then none
  else
    (decodeHost names data).bind fun found =>
      if found.2 + 2 > data.length then none
      else some {
        host := found.1
        port := (byteAt data found.2).toNat <<< 8 ||| (byteAt data (found.2 + 1)).toNat
        payload := data.drop (found.2 + 2) }

def encodeSocksUdp (names : InetNames) (host : Text) (port : Nat) (payload : List UInt8) :
    Option (List UInt8) :=
  (names.getByName host).map fun addr =>
    ([0, 0, 0, if addr.bytes.length = 16 then 0x04 else 0x01] : List UInt8) ++ addr.bytes ++
      [UInt8.ofNat (port >>> 8 &&& 0xFF), UInt8.ofNat (port &&& 0xFF)] ++ payload

end BondingSocksServer

namespace AetherUpstream

def addressEnd (data : List UInt8) : Option Nat :=
  let atyp := byteAt data 3
  if atyp = 1 then some (4 + 4)
  else if atyp = 3 then
    if 4 ≥ data.length then none else some (4 + (1 + (byteAt data 4).toNat))
  else if atyp = 4 then some (4 + 16)
  else none

def parseReply (data : List UInt8) : Option (List UInt8) :=
  if data.length < 4 ∨ byteAt data 0 ≠ 0 ∨ byteAt data 1 ≠ 0 ∨ byteAt data 2 ≠ 0 then none
  else
    (addressEnd data).bind fun offset =>
      if offset + 2 > data.length then none
      else some (data.drop (offset + 2))

end AetherUpstream

end BigRocket.Service
