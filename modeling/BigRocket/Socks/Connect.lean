/-
`handle_connect`, as the client sees it: what is written to its socket, in
order. `Outcomes` is what the rest of the world does in one run.
-/
import BigRocket.Lib.Script
import BigRocket.Socks.Route

namespace BigRocket.Socks

open Lib Net Routing

def repOk : UInt8 := 0x00
def repGeneral : UInt8 := 0x01
def repNotAllowed : UInt8 := 0x02

/-- One write to the client. `reply_bound` is only ever given 0.0.0.0:0, so
it writes the reply with the code `repOk`. -/
inductive ClientWrite where
  | reply (code : UInt8)
  | remote (bytes : List UInt8)
  deriving DecidableEq, Repr

inductive DirectOutcome where
  | connected
  | failed (permissionDenied : Bool)
  | timedOut
  deriving DecidableEq, Repr

structure Outcomes where
  earlyReplyOk : Bool
  lateReplyOk : Bool
  sniffHead : Option (List UInt8)
  gatewayProxy : Option SocketAddr
  openThroughGateway : Option (List UInt8)
  dnsResolve : Text → Option IpAddr
  openTcp : SocketAddr → Bool
  headSent : Bool
  leftoverOk : Bool
  peerAddrOk : Bool
  connectDirect : DirectOutcome
  upstreamOk : Bool
  download : List (List UInt8)

abbrev Exchange (α : Type) : Type := Script ClientWrite α

namespace Outcomes

variable (o : Outcomes)

def shouldUseGateway (port : Nat) : Bool := port = 80 || port = 443

def relay : Exchange Unit := Script.writeAll (o.download.map .remote)

def refuse {α : Type} (code : UInt8) : Exchange α := do
  Script.write (.reply code)
  Script.exit

def handleDirect (head : List UInt8) (replied : Bool) : Exchange Unit := do
  Script.ensure o.peerAddrOk
  match o.connectDirect with
  | .failed permissionDenied =>
    if !replied then refuse (if permissionDenied then repNotAllowed else repGeneral)
  | .timedOut => if !replied then refuse repGeneral
  | .connected =>
    Script.ensure (head = [] || o.upstreamOk)
    if !replied then Script.tryWrite o.lateReplyOk (.reply repOk)
    o.relay

def openStack (target : Target) (port : Nat) : Exchange (List UInt8) :=
  match resolve o.dnsResolve target with
  | none => refuse repGeneral
  | some ip => if o.openTcp ⟨ip, port⟩ then pure [] else refuse repGeneral

def openTunnel (target : Target) (port : Nat) : Exchange (List UInt8) :=
  match o.gatewayProxy.filter fun _ => shouldUseGateway port with
  | some _ =>
    match o.openThroughGateway with
    | some leftover => pure leftover
    | none => o.openStack target port
  | none => o.openStack target port

def serve (verdict : Action) (target : Target) (port : Nat) (head : List UInt8)
    (replied : Bool) : Exchange Unit :=
  match verdict with
  | .block => if !replied then refuse repNotAllowed else pure ()
  | .direct => o.handleDirect head replied
  | .proxy => do
      let leftover ← o.openTunnel target port
      if !replied then Script.tryWrite o.lateReplyOk (.reply repOk)
      Script.ensure (head = [] || o.headSent)
      if leftover ≠ [] then Script.tryWrite o.leftoverOk (.remote leftover)
      o.relay

def handleConnect (s : Surroundings) (target : Target) (port : Nat) : Exchange Unit :=
  if s.sniffs target then do
    Script.tryWrite o.earlyReplyOk (.reply repOk)
    match o.sniffHead with
    | none => pure ()
    | some head => o.serve (s.connectVerdict target head port) target port head true
  else o.serve (s.connectVerdict target [] port) target port [] false

end Outcomes

end BigRocket.Socks
