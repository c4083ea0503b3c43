/-
The capsules of `masque.rs`: `append_capsule` and `CapsuleParser`. A write that
does not fit does nothing, as `append_capsule` ignores the errors of its writer;
a number that no varint holds makes `octets` panic (`none`). `usizeBits` is the
width to which `next` cuts a length.
-/
import BigRocket.Lib.Varint
import BigRocket.Lib.Feed

namespace BigRocket.Masque

open Lib

def capsuleAddressAssign : Nat := 0x01
def capsuleAddressRequest : Nat := 0x02
def capsuleRouteAdvertisement : Nat := 0x03
def capsuleDatagram : Nat := 0x00

structure AssignedAddress where
  requestId : Nat
  ipVersion : UInt8
  address : List UInt8
  prefixLen : UInt8
  deriving DecidableEq, Repr

structure RouteAdvertisement where
  ipVersion : UInt8
  start : List UInt8
  end_ : List UInt8
  protocol : UInt8
  deriving DecidableEq, Repr

inductive Capsule where
  | addressAssign (addresses : List AssignedAddress)
  | addressRequest
  | datagram (payload : List UInt8)
  | routeAdvertisement (routes : List RouteAdvertisement)
  | unknown (kind : Nat) (payload : List UInt8)
  deriving DecidableEq, Repr

inductive AetherError where
  | capsule (text : String)
  deriving DecidableEq, Repr

/-! ## Writing -/

structure OctetsMut where
  written : List UInt8
  room : Nat

def OctetsMut.put (b : OctetsMut) (bytes : List UInt8) : OctetsMut :=
  if b.room < bytes.length then b else ⟨b.written ++ bytes, b.room - bytes.length⟩

def OctetsMut.bytes (b : OctetsMut) : List UInt8 := b.written ++ List.replicate b.room 0

def capsuleLen (kind : Nat) (value : List UInt8) : Nat :=
  varintLen kind + varintLen value.length + value.length

def appendCapsule (out : List UInt8) (kind : Nat) (value : List UInt8) : Option (List UInt8) :=
  if kind < varintLimit ∧ value.length < varintLimit then
    let b : OctetsMut := ⟨out, capsuleLen kind value⟩
    some (((b.put (putVarint kind)).put (putVarint value.length)).put value).bytes
  else none

/-- A capsule as its sender has it. Its payload is a slice, whose length is
a `usize`. -/
structure RawCapsule (usizeBits : Nat) where
  kind : Nat
  payload : List UInt8
  fits : payload.length < 2 ^ usizeBits

def appendCapsules {usizeBits : Nat} :
    List UInt8 → List (RawCapsule usizeBits) → Option (List UInt8)
  | out, [] => some out
  | out, capsule :: capsules =>
    match appendCapsule out capsule.kind capsule.payload with
    | none => none
    | some out => appendCapsules out capsules

/-! ## Payloads -/

def oct {α : Type} : Except BufferException α → Except AetherError α
  | .ok a => .ok a
  | .error .bufferUnderflow => .error (.capsule "BufferTooShortError")

def addrLen (ipVersion : UInt8) : Except AetherError Nat :=
  if ipVersion = 4 then .ok 4
  else if ipVersion = 6 then .ok 16
  else .error (.capsule ("bad ip version " ++ toString ipVersion.toNat))

def readAssignedAddress (b : List UInt8) : Except AetherError (AssignedAddress × List UInt8) := do
  let (requestId, b) ← oct (getVarint b)
  let (ipVersion, b) ← oct (getByte b)
  let len ← addrLen ipVersion
  let (address, b) ← oct (getBytes len b)
  let (prefixLen, b) ← oct (getByte b)
  return (⟨requestId, ipVersion, address, prefixLen⟩, b)

def readRouteAdvertisement (b : List UInt8) :
    Except AetherError (RouteAdvertisement × List UInt8) := do
  let (ipVersion, b) ← oct (getByte b)
  let len ← addrLen ipVersion
  let (start, b) ← oct (getBytes len b)
  let (end_, b) ← oct (getBytes len b)
  let (protocol, b) ← oct (getByte b)
  return (⟨ipVersion, start, end_, protocol⟩, b)

/-- `while b.cap() > 0`: an entry takes at least a byte, so as many rounds
as there are bytes are enough. -/
def readEntries {α : Type} (entry : List UInt8 → Except AetherError (α × List UInt8)) :
    Nat → List UInt8 → Except AetherError (List α)
  | _, [] => .ok []
  | 0, _ :: _ => .ok []
  | rounds + 1, b :: bs => do
      let (item, rest) ← entry (b :: bs)
      let items ← readEntries entry rounds rest
      return item :: items

def parseAddressAssign (value : List UInt8) : Except AetherError (List AssignedAddress) :=
  readEntries readAssignedAddress value.length value

def parseRouteAdvertisement (value : List UInt8) :
    Except AetherError (List RouteAdvertisement) :=
  readEntries readRouteAdvertisement value.length value

def Capsule.ofPayload (kind : Nat) (value : List UInt8) : Except AetherError Capsule :=
  if kind = capsuleAddressAssign then (parseAddressAssign value).map .addressAssign
  else if kind = capsuleAddressRequest then .ok .addressRequest
  else if kind = capsuleRouteAdvertisement then
    (parseRouteAdvertisement value).map .routeAdvertisement
  else if kind = capsuleDatagram then .ok (.datagram value)
  else .ok (.unknown kind value)

/-! ## The parser -/

structure CapsuleParser where
  buf : List UInt8
  deriving DecidableEq, Repr

def maxCapsuleBuf : Nat := 256 * 1024

namespace CapsuleParser

def new : CapsuleParser := ⟨[]⟩

def push (p : CapsuleParser) (data : List UInt8) : CapsuleParser :=
  if p.buf.length + data.length > maxCapsuleBuf then ⟨[]⟩ else ⟨p.buf ++ data⟩

def next (usizeBits : Nat) (p : CapsuleParser) :
    Except AetherError (Option Capsule) × CapsuleParser :=
  match getVarint p.buf with
  | .error _ => (.ok none, p)
  | .ok (kind, b) =>
    match getVarint b with
    | .error _ => (.ok none, p)
    | .ok (v, b) =>
      let len := v % 2 ^ usizeBits
      if b.length < len then (.ok none, p)
      else
        match oct (getBytes len b) with
        | .error e => (.error e, p)
        -- the bytes are gone before the payload is looked at
        | .ok (value, rest) => ((Capsule.ofPayload kind value).map some, ⟨rest⟩)

def take (usizeBits : Nat) (buf : List UInt8) :
    Option (Except AetherError Capsule × List UInt8) :=
  match next usizeBits ⟨buf⟩ with
  | (.ok none, _) => none
  | (.ok (some capsule), p) => some (.ok capsule, p.buf)
  | (.error e, p) => some (.error e, p.buf)

/-- Call `next` until it says that there is nothing more, past its
errors. -/
def drain (usizeBits : Nat) (p : CapsuleParser) :
    List (Except AetherError Capsule) × CapsuleParser :=
  ((Lib.drain (take usizeBits) p.buf).1, ⟨(Lib.drain (take usizeBits) p.buf).2⟩)

def feed (usizeBits : Nat) : CapsuleParser → List (List UInt8) →
    List (Except AetherError Capsule) × CapsuleParser
  | p, [] => ([], p)
  | p, chunk :: chunks =>
    let (results, p) := (p.push chunk).drain usizeBits
    let (more, p) := feed usizeBits p chunks
    (results ++ more, p)

def WithinLimit (usizeBits : Nat) : CapsuleParser → List (List UInt8) → Prop
  | _, [] => True
  | p, chunk :: chunks =>
    p.buf.length + chunk.length ≤ maxCapsuleBuf ∧
      WithinLimit usizeBits ((p.push chunk).drain usizeBits).2 chunks

instance decidableWithinLimit (usizeBits : Nat) (p : CapsuleParser) (chunks : List (List UInt8)) :
    Decidable (WithinLimit usizeBits p chunks) :=
  match chunks with
  | [] => isTrue trivial
  | chunk :: chunks =>
    have := decidableWithinLimit usizeBits ((p.push chunk).drain usizeBits).2 chunks
    inferInstanceAs (Decidable (_ ∧ _))

end CapsuleParser

end BigRocket.Masque
