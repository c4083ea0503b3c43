/-
Which network a packet of a session goes to: `NetworkSessionTracker`, the part
of `TunPacketRouter` that feeds it, and `Path3Router`.
-/
import BigRocket.Relay.TcpRelay

namespace BigRocket.Service

open Lib Relay

/-- `android.net.Network` -/
abbrev Network : Type := Nat

structure SessionValue where
  assignedNetwork : Network
  lastActiveTimeMs : Int

structure NetworkSessionTracker where
  activeSessions : SessionKey → Option SessionValue

namespace NetworkSessionTracker

def empty : NetworkSessionTracker := ⟨fun _ => none⟩

def put (t : NetworkSessionTracker) (key : SessionKey) (value : SessionValue) :
    NetworkSessionTracker :=
  ⟨Function.update t.activeSessions key (some value)⟩

def timeoutMs : Int := 60000

def cleanupOldSessions (t : NetworkSessionTracker) (currentTime : Int) : NetworkSessionTracker :=
  ⟨fun key => (t.activeSessions key).filter fun s =>
    !decide (currentTime - s.lastActiveTimeMs > timeoutMs)⟩

def getOrAssignNetwork (t : NetworkSessionTracker) (key : SessionKey) (currentTime : Int)
    (selected : Option Network) : Option Network × NetworkSessionTracker :=
  match t.activeSessions key, selected with
  | some s, _ => (some s.assignedNetwork, t.put key { s with lastActiveTimeMs := currentTime })
  | none, none => (none, t)
  | none, some targetNetwork =>
    (some targetNetwork,
      (t.put key ⟨targetNetwork, currentTime⟩).cleanupOldSessions currentTime)

def migrateSessionsFromLostNetwork (t : NetworkSessionTracker)
    (deadNetwork fallbackNetwork : Network) : NetworkSessionTracker :=
  ⟨fun key => (t.activeSessions key).map fun s =>
    if s.assignedNetwork = deadNetwork then { s with assignedNetwork := fallbackNetwork } else s⟩

end NetworkSessionTracker

def coerceIn (v low high : Int) : Int := max low (min v high)

structure Path3Router where
  wifiNetwork : Option Network
  cellularNetwork : Option Network
  wifiWeight : Int
  cellularWeight : Int

namespace Path3Router

def updateWeights (p : Path3Router) (wifi cellular : Int) : Path3Router :=
  { p with wifiWeight := coerceIn wifi 0 100, cellularWeight := coerceIn cellular 0 100 }

def selectNetwork (p : Path3Router) (slot : Option Int) : Option Network :=
  match p.wifiNetwork, p.cellularNetwork with
  | some wifi, some cellular =>
    match slot with
    | some slot => if slot % 100 < p.wifiWeight then some wifi else some cellular
    | none => if p.cellularWeight > p.wifiWeight then some cellular else some wifi
  | some wifi, none => some wifi
  | none, cellular => cellular

end Path3Router

structure TunPacketRouter where
  wifiNetwork : Option Network
  cellularNetwork : Option Network
  sessionTracker : NetworkSessionTracker
  path3Router : Path3Router

namespace TunPacketRouter

def create : TunPacketRouter where
  wifiNetwork := none
  cellularNetwork := none
  sessionTracker := .empty
  path3Router := ⟨none, none, 50, 50⟩

def migrateLost (t : NetworkSessionTracker) (old now other : Option Network) :
    NetworkSessionTracker :=
  match old, now, other with
  | some dead, none, some fallback => t.migrateSessionsFromLostNetwork dead fallback
  | _, _, _ => t

def updateNetworks (r : TunPacketRouter) (wifi cellular : Option Network) : TunPacketRouter where
  wifiNetwork := wifi
  cellularNetwork := cellular
  sessionTracker :=
    migrateLost (migrateLost r.sessionTracker r.wifiNetwork wifi cellular) r.cellularNetwork
      cellular wifi
  path3Router := { r.path3Router with wifiNetwork := wifi, cellularNetwork := cellular }

def notifySoftFailure (r : TunPacketRouter) (failedNetwork : Network)
    (fallbackNetwork : Option Network) : TunPacketRouter :=
  match fallbackNetwork with
  | some fallback =>
    { r with
      sessionTracker := r.sessionTracker.migrateSessionsFromLostNetwork failedNetwork fallback }
  | none => r

def networkFor (r : TunPacketRouter) (key : SessionKey) (now slot : Int) :
    Option Network × NetworkSessionTracker :=
  r.sessionTracker.getOrAssignNetwork key now (r.path3Router.selectNetwork (some slot))

end TunPacketRouter

inductive RouterEvent where
  | networks (wifi cellular : Option Network)
  | weights (wifi cellular : Int)
  | softFailure (failedNetwork : Network) (fallbackNetwork : Option Network)
  | packet (key : SessionKey) (now slot : Int)
  | stop

namespace TunPacketRouter

def step (r : TunPacketRouter) : RouterEvent → TunPacketRouter
  | .networks wifi cellular => r.updateNetworks wifi cellular
  | .weights wifi cellular => { r with path3Router := r.path3Router.updateWeights wifi cellular }
  | .softFailure failed fallback => r.notifySoftFailure failed fallback
  | .packet key now slot => { r with sessionTracker := (r.networkFor key now slot).2 }
  | .stop => { r with sessionTracker := .empty }

def run (events : List RouterEvent) : TunPacketRouter := exec step create events

def IsCurrent (r : TunPacketRouter) (n : Network) : Prop :=
  r.wifiNetwork = some n ∨ r.cellularNetwork = some n

instance (r : TunPacketRouter) (n : Network) : Decidable (r.IsCurrent n) := instDecidableOr

end TunPacketRouter

end BigRocket.Service
