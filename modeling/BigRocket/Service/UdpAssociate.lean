/-
`handleUdpAssociate` of `BondingSocksServer`: the loop over the client's
datagrams, and the receivers beside it, each of which takes and hands over a
datagram in two steps. What the platform answers comes with the event.
-/
import BigRocket.Service.SocksUdp

namespace BigRocket.Service

open Lib

structure InetSocketAddress where
  address : InetAddress
  port : UInt16

structure Incoming where
  peer : InetSocketAddress
  data : List UInt8

structure Handed where
  clientAddr : InetSocketAddress
  datagram : List UInt8
  peer : InetSocketAddress
  payload : List UInt8

namespace UdpAssociate

def udpIdleTimeoutMs : Int := 60000

def udpSendFailuresToRepin : Nat := 3

structure Receiver where
  host : Text
  port : Nat
  clientAddr : InetSocketAddress
  closed : Bool
  /-- it has neither ended nor been cancelled -/
  active : Bool
  resp : Option Incoming

inductive Sent where
  | direct (dest : InetSocketAddress) (payload : List UInt8)
  | aether (datagram : List UInt8)

structure Association (ν : Type) where
  /-- `aetherAssociation != null` -/
  aetherAssociation : Bool
  /-- The network of the pinned socket, which is that of the last receiver. -/
  pinnedNetwork : Option ν
  receivers : List Receiver
  repinRequested : Bool
  sendFailures : Nat
  lastActivity : Int
  ended : Bool
  sent : List Sent
  handed : List Handed

/-- A turn of the loop that takes a datagram of the client, and what the
platform answers in it. -/
structure Packet (ν : Type) where
  checkedAt : Int
  receivedAt : Int
  data : List UInt8
  fromAddr : InetSocketAddress
  received : Option Incoming
  isCurrent : ν → Bool
  pickBestNetwork : Option ν
  bindSucceeds : Bool
  resolvedAddr : Option InetAddress
  sendSucceeds : Bool
  handSucceeds : Bool

inductive Event (ν : Type) where
  | packet (p : Packet ν)
  | quiet (checkedAt : Int)
  | receiveFails
  | repin
  | receives (i : Nat) (resp : Incoming)
  | hands (i : Nat) (succeeds : Bool)
  | receiverFails (i : Nat)

variable {ν : Type}

def opened (aetherAssociation : Bool) (now : Int) : Association ν where
  aetherAssociation := aetherAssociation
  pinnedNetwork := none
  receivers := []
  repinRequested := false
  sendFailures := 0
  lastActivity := now
  ended := false
  sent := []
  handed := []

namespace Association

variable (names : InetNames) (s : Association ν)

def closePinned : List Receiver :=
  s.receivers.modify (s.receivers.length - 1) fun r => { r with closed := true, active := false }

def unpin : Association ν :=
  { s with pinnedNetwork := none, receivers := s.closePinned, sendFailures := 0 }

def finish : Association ν := { s with ended := true, receivers := s.closePinned }

def hand (h : Handed) : Association ν := { s with handed := s.handed ++ [h] }

def throughAether (p : Packet ν) (decoded : DecodedUdp) : Association ν :=
  let out := BondingSocksServer.encodeSocksUdp names decoded.host decoded.port decoded.payload
  let s := if p.sendSucceeds then { s with sent := s.sent ++ (out.map Sent.aether).toList } else s
  match p.received with
  | none => s
  | some incoming =>
    match AetherUpstream.parseReply incoming.data with
    | none => s
    | some payload =>
      match BondingSocksServer.encodeSocksUdp names decoded.host decoded.port payload with
      | none => s.finish
      | some datagram =>
        if p.handSucceeds then
          s.hand { clientAddr := p.fromAddr, datagram, peer := incoming.peer, payload }
        else s

def checkPin (p : Packet ν) : Association ν :=
  match s.pinnedNetwork with
  | none => { s with repinRequested := false }
  | some network =>
    if s.repinRequested then { s with repinRequested := false }.unpin
    else if p.isCurrent network then s
    else s.unpin

/-- A socket for the datagram: the one that is pinned, or a new one, with its receiver. -/
def withPin (p : Packet ν) (decoded : DecodedUdp) : Option (Association ν) :=
  match s.pinnedNetwork with
  | some _ => some s
  | none =>
    match p.pickBestNetwork with
    | none => none
    | some network =>
      if p.bindSucceeds then
        some { s with
          pinnedNetwork := some network
          receivers := s.receivers ++ [{
            host := decoded.host, port := decoded.port, clientAddr := p.fromAddr,
            closed := false, active := true, resp := none }] }
      else none

def sendPinned (p : Packet ν) (decoded : DecodedUdp) : Association ν :=
  match p.resolvedAddr.filter fun _ => p.sendSucceeds with
  | some address =>
    { s with
      sendFailures := 0
      sent := s.sent ++ [.direct ⟨address, UInt16.ofNat decoded.port⟩ decoded.payload] }
  | none =>
    if s.sendFailures + 1 ≥ udpSendFailuresToRepin then s.unpin
    else { s with sendFailures := s.sendFailures + 1 }

def throughPin (p : Packet ν) (decoded : DecodedUdp) : Association ν :=
  match (s.checkPin p).withPin p decoded with
  | none => s.checkPin p
  | some pinned => pinned.sendPinned p decoded

def takePacket (p : Packet ν) : Association ν :=
  match BondingSocksServer.decodeSocksUdp names p.data with
  | none => s
  | some decoded =>
    if s.aetherAssociation then s.throughAether names p decoded else s.throughPin p decoded

def turn (checkedAt : Int) (body : Association ν) : Association ν :=
  if s.ended then s
  else if checkedAt - s.lastActivity < udpIdleTimeoutMs then body
  else s.finish

def setReceiver (i : Nat) (r : Receiver) : Association ν :=
  { s with receivers := s.receivers.set i r }

def receive (i : Nat) (resp : Incoming) : Association ν :=
  match s.receivers[i]? with
  | none => s
  | some r =>
    if r.active ∧ r.closed = false ∧ r.resp.isNone then
      s.setReceiver i { r with resp := some resp }
    else s

/-- A receiver hands on what it holds, under the host and the port that it was started for. -/
def handOn (i : Nat) (succeeds : Bool) : Association ν :=
  match s.receivers[i]? with
  | none => s
  | some r =>
    match r.resp with
    | none => s
    | some resp =>
      match BondingSocksServer.encodeSocksUdp names r.host r.port resp.data with
      -- the exception ends the receiver
      | none => s.setReceiver i { r with active := false, resp := none }
      | some datagram =>
        let s' := s.setReceiver i { r with resp := none }
        if s.ended = false ∧ succeeds then
          s'.hand { clientAddr := r.clientAddr, datagram, peer := resp.peer,
                    payload := resp.data }
        else s'

def failReceiver (i : Nat) : Association ν :=
  match s.receivers[i]? with
  | none => s
  | some r => s.setReceiver i { r with active := false }

def step : Event ν → Association ν
  | .packet p => s.turn p.checkedAt (takePacket names { s with lastActivity := p.receivedAt } p)
  | .quiet checkedAt => s.turn checkedAt s
  | .receiveFails => if s.ended then s else s.finish
  | .repin => { s with repinRequested := true }
  | .receives i resp => s.receive i resp
  | .hands i succeeds => s.handOn names i succeeds
  | .receiverFails i => s.failReceiver i

end Association

end UdpAssociate

end BigRocket.Service
