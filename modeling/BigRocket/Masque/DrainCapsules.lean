/-
`drain_capsules` of `masque_h2.rs`: the packets of the received capsules go to
the inbound channel, whose answers are an input.
-/
import BigRocket.Net.Address
import BigRocket.Masque.Datagram

namespace BigRocket.Masque

open Lib Net

inductive SendResult where
  | taken
  | full
  | closed
  deriving DecidableEq, Repr

structure AssignedAddr where
  ip : IpAddr
  prefixLen : UInt8
  deriving DecidableEq, Repr

def bytesToIp (version : UInt8) (bytes : List UInt8) : Option IpAddr :=
  if version = 4 ∧ bytes.length = 4 then some (.v4 (BitVec.ofNat 32 (beNat bytes)))
  else if version = 6 ∧ bytes.length = 16 then some (.v6 (BitVec.ofNat 128 (beNat bytes)))
  else none

/-- What a call has done so far: the packets handed to `inbound_tx` with its
answers, and the addresses handed to `addr_tx`. -/
structure Drained where
  delivered : Bool := false
  sent : List (List UInt8 × SendResult) := []
  offered : List AssignedAddr := []
  deriving DecidableEq, Repr

namespace Drained

def send (answers : Nat → SendResult) (d : Drained) (packet : List UInt8) : Drained :=
  { d with delivered := true, sent := d.sent ++ [(packet, answers d.sent.length)] }

def closed (d : Drained) : Bool := d.sent.getLast?.map Prod.snd = some .closed

/-- The arms of the `match` for a parsed capsule; `hasAddrTx` is whether
`addr_tx` is there. -/
def handle (hasAddrTx : Bool) (answers : Nat → SendResult) (d : Drained) : Capsule → Drained
  | .datagram payload =>
    match stripDatagramContext payload with
    | some packet => d.send answers packet
    | none => d
  | .addressAssign addresses =>
    if hasAddrTx then
      { d with offered := d.offered ++ addresses.filterMap fun a =>
          (bytesToIp a.ipVersion a.address).map fun ip => ⟨ip, a.prefixLen⟩ }
    else d
  | _ => d

end Drained

/-- A capsule takes bytes away, so one round more than there are bytes is
enough. -/
def drainLoop (usizeBits : Nat) (hasAddrTx : Bool) (answers : Nat → SendResult) :
    Nat → Drained → CapsuleParser → Drained × CapsuleParser
  | 0, d, p => (d, p)
  | rounds + 1, d, p =>
    match p.next usizeBits with
    | (.ok none, p) => (d, p)
    | (.error _, p) => (d, p)
    | (.ok (some capsule), p) =>
      let d := d.handle hasAddrTx answers capsule
      if d.closed then (d, p) else drainLoop usizeBits hasAddrTx answers rounds d p

def drainCapsules (usizeBits : Nat) (hasAddrTx : Bool) (answers : Nat → SendResult)
    (p : CapsuleParser) : Drained × CapsuleParser :=
  drainLoop usizeBits hasAddrTx answers (p.buf.length + 1) {} p

/-- A piece of the response body, and what the channel says to the packets
that come of it. -/
structure Received where
  chunk : List UInt8
  answers : Nat → SendResult

def receive (usizeBits : Nat) (hasAddrTx : Bool) (p : CapsuleParser) (r : Received) :
    CapsuleParser :=
  (drainCapsules usizeBits hasAddrTx r.answers (p.push r.chunk)).2

end BigRocket.Masque
