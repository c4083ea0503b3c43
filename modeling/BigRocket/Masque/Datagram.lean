/-
IP packets as HTTP datagrams of `masque.rs`, alone or behind a context id.
-/
import BigRocket.Masque.Capsule

namespace BigRocket.Masque

open Lib

def connectIpContextId : Nat := 0

def quarterStreamId (streamId : UInt64) : Nat := streamId.toNat / 4

def OctetsMut.tryPut (b : OctetsMut) (bytes : List UInt8) : Except BufferException OctetsMut :=
  if b.room < bytes.length then .error .bufferUnderflow
  else .ok ⟨b.written ++ bytes, b.room - bytes.length⟩

/-- A quarter of a `u64` is a number that a varint holds, so `put_varint`
does not panic here. -/
def encodeIpDatagram (streamId : UInt64) (ipPacket : List UInt8) :
    Except AetherError (List UInt8) := do
  let qsid := quarterStreamId streamId
  let ctx := connectIpContextId
  let cap := varintLen qsid + varintLen ctx + ipPacket.length
  let b : OctetsMut := ⟨[], cap⟩
  let b ← oct (b.tryPut (putVarint qsid))
  let b ← oct (b.tryPut (putVarint ctx))
  let b ← oct (b.tryPut ipPacket)
  return b.bytes

def decodeIpDatagram (datagram : List UInt8) (expectStreamId : UInt64) :
    Except AetherError (Option (List UInt8)) := do
  let (qsid, b) ← oct (getVarint datagram)
  if qsid ≠ quarterStreamId expectStreamId then return none
  else
    let (ctx, b) ← oct (getVarint b)
    if ctx ≠ connectIpContextId then return none
    else
      let (payload, _) ← oct (getBytes b.length b)
      return some payload

def looksLikeIpPacket : List UInt8 → Bool
  | [] => false
  | first :: rest => (first >>> 4 = 4 || first >>> 4 = 6) && (first :: rest).length ≥ 20

def stripDatagramContext (payload : List UInt8) : Option (List UInt8) :=
  if payload = [] then none
  else
    let bare := if looksLikeIpPacket payload then some payload else none
    match getVarint payload with
    | .ok (ctx, rest) =>
      if ctx = connectIpContextId then
        let consumed := payload.length - rest.length
        let inner := payload.drop consumed
        if looksLikeIpPacket inner then some inner else bare
      else bare
    | .error _ => bare

end BigRocket.Masque
