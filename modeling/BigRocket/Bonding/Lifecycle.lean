/-
Starting and stopping: path states, `start`, `stop` and the watchdog of
`BondingEngineImpl`, and `selectPath`. How a call of an adapter ends is an
argument, and so are the integer shares made of the scores. A cancelled loop may
still come back from a blocking call, so the loops' events may happen at any
time.
-/
import BigRocket.Bonding.Engine

namespace BigRocket.Bonding

open Lib

/-! ## The two transition tables -/

def BondingState.canTransitionTo : BondingState → BondingState → Bool
  | .stopped, next => next = .starting
  | .starting, next => next = .active || next = .error || next = .stopping
  | .active, next => next = .degraded || next = .stopping || next = .error
  | .degraded, next => next = .active || next = .stopping || next = .error
  | .stopping, next => next = .stopped
  | .error, next => next = .stopping || next = .stopped

inductive PathState where
  | init
  | active
  | degraded
  | failed
  | recovering
  | closed
  deriving DecidableEq, Repr

def PathState.canTransitionTo : PathState → PathState → Bool
  | .init, next => next = .active || next = .failed || next = .closed
  | .active, next => next = .degraded || next = .failed || next = .closed
  | .degraded, next => next = .active || next = .failed || next = .closed
  | .failed, next => next = .recovering || next = .closed
  | .recovering, next => next = .active || next = .failed || next = .closed
  | .closed, _ => false

/-! ## One path -/

structure PathRuntime where
  id : PathId
  state : PathState
  deriving DecidableEq, Repr

namespace PathRuntime

def create (id : PathId) : PathRuntime := ⟨id, .init⟩

def transitionTo (next : PathState) (p : PathRuntime) : PathRuntime :=
  if p.state.canTransitionTo next then { p with state := next } else p

/-- `none` is the exception of `adapter.connect()`. -/
def start (connects : Bool) (p : PathRuntime) : Option PathRuntime :=
  if connects then some (p.transitionTo .active) else none

/-- `none` is the exception of `adapter.disconnect()`. -/
def stop (disconnects : Bool) (p : PathRuntime) : Option PathRuntime :=
  if disconnects then some (p.transitionTo .closed) else none

def eligible (p : PathRuntime) : Bool :=
  p.state = .active || p.state = .degraded || p.state = .recovering

end PathRuntime

/-! ## The engine -/

structure BondingEngineImpl where
  engineState : BondingState
  pathRuntimes : List PathRuntime
  deriving DecidableEq, Repr

inductive LifecycleEvent where
  /-- `start()`; the argument says which adapters connect. -/
  | start (connects : Nat → Bool)
  /-- `stop()`; the argument says which adapters disconnect. -/
  | stop (disconnects : Nat → Bool)
  /-- The sender loop of a path gets an exception from its adapter. -/
  | sendFails (path : Nat)
  /-- The watchdog loop comes to a path, and `connect()` succeeds or not. -/
  | watchdog (path : Nat) (reconnects : Bool)
  | metrics

namespace BondingEngineImpl

def create (ids : List PathId) : BondingEngineImpl := ⟨.stopped, ids.map PathRuntime.create⟩

def transitionTo (next : BondingState) (e : BondingEngineImpl) : BondingEngineImpl :=
  if e.engineState.canTransitionTo next then { e with engineState := next } else e

def onPath (path : Nat) (f : PathRuntime → PathRuntime) (e : BondingEngineImpl) :
    BondingEngineImpl :=
  { e with pathRuntimes := e.pathRuntimes.modify path f }

def start (connects : Nat → Bool) (e : BondingEngineImpl) :
    Except EngineException BondingEngineImpl :=
  if e.engineState = .stopped then
    let starting := e.transitionTo .starting
    let connected := { starting with
      pathRuntimes := starting.pathRuntimes.mapIdx fun i (p : PathRuntime) =>
        (p.start (connects i)).getD (p.transitionTo .failed) }
    .ok (connected.transitionTo .active)
  else .error (.illegalState s!"BondingEngine already started (state={e.engineState.name})")

def stop (disconnects : Nat → Bool) (e : BondingEngineImpl) : BondingEngineImpl :=
  if e.engineState = .stopped then e
  else
    let stopping := e.transitionTo .stopping
    let closed := { stopping with
      pathRuntimes := stopping.pathRuntimes.mapIdx fun i (p : PathRuntime) =>
        (p.stop (disconnects i)).getD p }
    closed.transitionTo .stopped

def watchdogTurn (reconnects : Bool) (p : PathRuntime) : PathRuntime :=
  if p.state = .failed ∧ reconnects = true then
    (p.transitionTo .recovering).transitionTo .active
  else p

def updateEngineDegradedState (e : BondingEngineImpl) : BondingEngineImpl :=
  let anyUsable := e.pathRuntimes.any PathRuntime.eligible
  if !anyUsable && e.engineState = .active then e.transitionTo .degraded
  else if anyUsable && e.engineState = .degraded then e.transitionTo .active
  else e

/-- A refused `start()` throws and changes nothing. -/
def step (e : BondingEngineImpl) : LifecycleEvent → BondingEngineImpl
  | .start connects => (e.start connects).toOption.getD e
  | .stop disconnects => e.stop disconnects
  | .sendFails path => e.onPath path (·.transitionTo .failed)
  | .watchdog path reconnects => e.onPath path (watchdogTurn reconnects)
  | .metrics => e.updateEngineDegradedState

def run (ids : List PathId) (events : List LifecycleEvent) : BondingEngineImpl :=
  exec step (create ids) events

end BondingEngineImpl

/-! ## The scheduler -/

/-- `smoothedWeights`, `swrrCurrent` and `lastKnownState` are the maps of
the class; an absent key is `none`. -/
structure AdaptiveScheduler where
  maxWeightStepPerUpdate : Int := 10
  maxConsecutivePicks : Nat := 10
  recoveryStartWeight : Int := 10
  smoothedWeights : PathId → Option Int := fun _ => none
  swrrCurrent : PathId → Option Int := fun _ => none
  lastKnownState : PathId → Option PathState := fun _ => none
  lastPickedPathId : Option PathId := none
  consecutivePickCount : Int := 0

namespace AdaptiveScheduler

def detectFreshRecovery (s : AdaptiveScheduler) (p : PathRuntime) : AdaptiveScheduler :=
  let fresh := (s.lastKnownState p.id).any (· ≠ .active) && p.state = .active
  { s with
    smoothedWeights :=
      if fresh then Function.update s.smoothedWeights p.id (some s.recoveryStartWeight)
      else s.smoothedWeights
    lastKnownState := Function.update s.lastKnownState p.id (some p.state) }

/-- The counter is a 32-bit integer, and its increment wraps. -/
def recordPick (id : PathId) (s : AdaptiveScheduler) : AdaptiveScheduler :=
  if s.lastPickedPathId = some id then
    { s with consecutivePickCount := (s.consecutivePickCount + 1).bmod (2 ^ 32) }
  else { s with lastPickedPathId := some id, consecutivePickCount := 1 }

def smoothWeight (targets : PathId → Int) (s : AdaptiveScheduler) (id : PathId) :
    AdaptiveScheduler :=
  let current := (s.smoothedWeights id).getD (targets id)
  let delta := targets id - current
  let change := max (-s.maxWeightStepPerUpdate) (min s.maxWeightStepPerUpdate delta)
  { s with smoothedWeights := Function.update s.smoothedWeights id (some (current + change)) }

/-- `rawTargets` is a map, so each id is weighed once; the order is of no
consequence. -/
def recomputeSmoothedWeights (targets : PathId → Int) (eligible : List PathRuntime)
    (s : AdaptiveScheduler) : AdaptiveScheduler :=
  (eligible.map PathRuntime.id).dedup.foldl (smoothWeight targets) s

def weight (s : AdaptiveScheduler) (p : PathRuntime) : Int :=
  max 1 ((s.smoothedWeights p.id).getD 1)

def swrrRound (found : AdaptiveScheduler × Option (PathRuntime × Int)) (p : PathRuntime) :
    AdaptiveScheduler × Option (PathRuntime × Int) :=
  let (s, best) := found
  let updated := (s.swrrCurrent p.id).getD 0 + s.weight p
  let s' := { s with swrrCurrent := Function.update s.swrrCurrent p.id (some updated) }
  match best with
  | none => (s', some (p, updated))
  | some (q, current) => if updated > current then (s', some (p, updated)) else (s', some (q, current))

def swrrPick (s : AdaptiveScheduler) (first : PathRuntime) (rest : List PathRuntime) :
    PathRuntime × AdaptiveScheduler :=
  let totalWeight := ((first :: rest).map s.weight).sum
  let (s', best) := (first :: rest).foldl swrrRound (s, none)
  let chosen := (best.map Prod.fst).getD first
  (chosen, { s' with
    swrrCurrent := Function.update s'.swrrCurrent chosen.id
      (some ((s'.swrrCurrent chosen.id).getD 0 - totalWeight)) })

def heaviest (s : AdaptiveScheduler) (paths : List PathRuntime) : Option PathRuntime :=
  paths.foldl (fun best p =>
    match best with
    | none => some p
    | some q => if (s.smoothedWeights p.id).getD 0 > (s.smoothedWeights q.id).getD 0 then some p
        else some q) none

def selectAmong (targets : PathId → Int) (s : AdaptiveScheduler) (first : PathRuntime)
    (rest : List PathRuntime) : PathRuntime × AdaptiveScheduler :=
  let weighed := s.recomputeSmoothedWeights targets (first :: rest)
  let (candidate, picked) :=
    if weighed.consecutivePickCount ≥ weighed.maxConsecutivePicks then
      let others := (first :: rest).filter fun p => some p.id ≠ weighed.lastPickedPathId
      ((weighed.heaviest others).getD first, weighed)
    else weighed.swrrPick first rest
  (candidate, picked.recordPick candidate.id)

def selectPath (targets : PathId → Int) (paths : List PathRuntime) (s : AdaptiveScheduler) :
    Option PathRuntime × AdaptiveScheduler :=
  let known := paths.foldl detectFreshRecovery s
  match paths.filter PathRuntime.eligible with
  | [] => (none, known)
  | [only] => (some only, known.recordPick only.id)
  | first :: second :: rest =>
    let (chosen, picked) := known.selectAmong targets first (second :: rest)
    (some chosen, picked)

end AdaptiveScheduler

end BigRocket.Bonding
