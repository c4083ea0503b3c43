/-
The routing verdict for a SOCKS5 destination, with all it reads
(`Surroundings`).
-/
import BigRocket.Routing.Rules
import BigRocket.Socks.Request

namespace BigRocket.Socks

open Lib Net Routing

/-- `hostname` is `sniff::hostname`, `recallName` is `routing::recall_name`
at the time of the request. -/
structure Surroundings where
  unicode : UnicodeData
  routes : RuleSet
  sniffEnabled : Bool
  hostname : List UInt8 → Option Text
  recallName : IpAddr → Option Text

namespace Surroundings

variable (s : Surroundings)

def decide (host : Host) (port : Nat) : Action := s.routes.decide s.unicode host port

def decideRoute (target : Target) (sniffed : Option Text) (port : Nat) : Action :=
  match sniffed with
  | some name =>
    match s.decide (.domain name) port with
    | .proxy => s.decide (hostOf target) port
    | decided => decided
  | none => s.decide (hostOf target) port

def recalledBlock (target : Target) (port : Nat) : Option Action :=
  match target with
  | .domain _ => none
  | .ip ip =>
    if !s.routes.hasDomainRules then none
    else
      match s.recallName ip with
      | none => none
      | some name => if s.decide (.domain name) port = .block then some .block else none

def decideUdp (target : Target) (port : Nat) : Action :=
  match s.decide (hostOf target) port with
  | .proxy => (s.recalledBlock target port).getD .proxy
  | decided => decided

def sniffs : Target → Bool
  | .ip _ => s.sniffEnabled && s.routes.hasDomainRules
  | .domain _ => false

def named (head : List UInt8) : Option Text := if head = [] then none else s.hostname head

/-- The verdict of `handle_connect`; `head` is what it has read of the flow,
which is nothing unless the flow is sniffed. -/
def connectVerdict (target : Target) (head : List UInt8) (port : Nat) : Action :=
  let verdict := s.decideRoute target (s.named head) port
  if verdict = .proxy ∧ s.named head = none ∧ head ≠ [] then
    (s.recalledBlock target port).getD verdict
  else verdict

/-- The verdict on a CONNECT request; `first` are the bytes that the client
sends while `handle_connect` waits for them, if it does. -/
def requestVerdict (atyp : UInt8) (input first : List UInt8) : Option Action :=
  (readTarget atyp input).map fun (target, port, _) =>
    s.connectVerdict target (if s.sniffs target then first else []) port

def datagramVerdict (buf : List UInt8) : Option Action :=
  (parseUdpRequest buf).map fun (target, port, _) => s.decideUdp target port

end Surroundings

def resolve (dnsResolve : Text → Option IpAddr) : Target → Option IpAddr
  | .ip ip => some ip
  | .domain name =>
    match parseIpAddr name with
    | some ip => some ip
    | none => dnsResolve name

end BigRocket.Socks
