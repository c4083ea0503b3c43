/-
The detours of `upstream.rs`: a socket whose peer is reached through the proxy
sends to a local shim, looked up in one table by the socket's local address. One
event is one change of the table: an attach, a pump that ends, a guard that is
dropped. An aborted pump finds no entry any more, so it ends with its guard.
-/
import BigRocket.Lib.History
import BigRocket.Routing.Matcher

namespace BigRocket.Upstream

open Lib Net Routing
open Function (update)

structure Detour where
  id : Nat
  shim : SocketAddr
  peer : SocketAddr
  deriving DecidableEq, Repr

structure DetourGuard where
  client : SocketAddr
  peer : SocketAddr
  shim : SocketAddr
  deriving DecidableEq, Repr

structure Detours where
  table : SocketAddr → Option Detour
  nextId : Nat
  guards : Nat → Option DetourGuard
  pumps : Nat → Option SocketAddr

inductive DetourEvent where
  | attach (client peer : SocketAddr) (shimPort : Nat)
  | pumpEnds (id : Nat)
  | dropGuard (id : Nat)

def loopback : IpAddr → IpAddr
  | .v4 _ => .v4 0x7f000001
  | .v6 _ => .v6 1

namespace Detours

def create : Detours := ⟨fun _ => none, 1, fun _ => none, fun _ => none⟩

def forgetDetour (client : SocketAddr) (id : Nat) (s : Detours) : Detours :=
  match s.table client with
  | some detour =>
    if detour.id = id then { s with table := update s.table client none } else s
  | none => s

def relayTarget (sender intended : SocketAddr) (s : Detours) : SocketAddr :=
  ((s.table sender).map Detour.shim).getD intended

def attachDetourVia (client peer : SocketAddr) (shimPort : Nat) (s : Detours) : Detours :=
  if isPrivate peer.ip then s
  else
    let shim : SocketAddr := ⟨loopback client.ip, shimPort⟩
    let id := s.nextId
    { table := update s.table client (some ⟨id, shim, peer⟩)
      nextId := id + 1
      guards := update s.guards id (some ⟨client, peer, shim⟩)
      pumps := update s.pumps id (some shim) }

def attachDetour (configured : Bool) (client peer : SocketAddr) (shimPort : Nat) (s : Detours) :
    Detours :=
  if configured then s.attachDetourVia client peer shimPort else s

/-- The task that runs the pump of a detour has come to its end. It knows
the address of the socket, as its guard does. -/
def pumpEnds (id : Nat) (s : Detours) : Detours :=
  match s.pumps id, s.guards id with
  | some _, some guard =>
    { s.forgetDetour guard.client id with pumps := update s.pumps id none }
  | _, _ => s

def dropGuard (id : Nat) (s : Detours) : Detours :=
  match s.guards id with
  | some guard =>
    { s.forgetDetour guard.client id with
      guards := update s.guards id none
      pumps := update s.pumps id none }
  | none => s

def step (configured : Bool) (s : Detours) : DetourEvent → Detours
  | .attach client peer shimPort => s.attachDetour configured client peer shimPort
  | .pumpEnds id => s.pumpEnds id
  | .dropGuard id => s.dropGuard id

def run (configured : Bool) (events : List DetourEvent) : Detours :=
  exec (step configured) create events

/-- One round of the loop of `flush` for a packet from `sender` to `peer`: the
socket it is sent on, and where to. -/
def flushRound (sockets : List SocketAddr) (sender peer : SocketAddr) (s : Detours) :
    Option (SocketAddr × SocketAddr) :=
  if sender ∈ sockets then some (sender, s.relayTarget sender peer)
  else sockets.head?.map fun socket => (socket, s.relayTarget socket peer)

end Detours

end BigRocket.Upstream
