/-
`PathHealthTracker`, the health of one physical path over its probes.
-/
import BigRocket.Service.SessionTracker

namespace BigRocket.Service

open Lib

inductive PathHealthState where
  | active
  | degraded
  | disconnected
  deriving DecidableEq, Repr

def LatencyTester.failure : Int := -1

/-- One probe cycle: the network of the path, if there is one, the latency or
`failure`, and the time since the network last carried traffic, if it did. -/
structure Probe where
  network : Option Network
  probeLatencyMs : Int
  sinceActivityMs : Option Int

structure PathHealthTracker where
  failuresToDisconnect : Nat
  successesToRecover : Nat
  activityGraceMs : Int
  lossWindowSize : Nat
  state : PathHealthState
  lastGoodLatencyMs : Int
  consecutiveFailures : Nat
  consecutiveSuccesses : Nat
  recentOutcomes : List Bool

namespace PathHealthTracker

def defaultLatencyMs : Int := 80

def create (failuresToDisconnect successesToRecover : Nat) (activityGraceMs : Int)
    (lossWindowSize : Nat) : PathHealthTracker :=
  { failuresToDisconnect, successesToRecover, activityGraceMs, lossWindowSize
    state := .active, lastGoodLatencyMs := defaultLatencyMs, consecutiveFailures := 0
    consecutiveSuccesses := 0, recentOutcomes := [] }

def hasRecentActivity (t : PathHealthTracker) (p : Probe) : Bool :=
  p.sinceActivityMs.any fun ms => ms ≤ t.activityGraceMs

def recordOutcome (t : PathHealthTracker) (success : Bool) : PathHealthTracker :=
  { t with recentOutcomes := (t.recentOutcomes ++ [success]).rtake t.lossWindowSize }

def update (t : PathHealthTracker) (p : Probe) : PathHealthTracker :=
  if p.network = none then
    { t with
      state := .disconnected, consecutiveFailures := 0, consecutiveSuccesses := 0
      recentOutcomes := [] }
  else if p.probeLatencyMs ≠ LatencyTester.failure then
    let t := t.recordOutcome true
    let successes := min (t.consecutiveSuccesses + 1) t.successesToRecover
    { t with
      consecutiveFailures := 0
      consecutiveSuccesses := successes
      lastGoodLatencyMs := max p.probeLatencyMs 1
      state :=
        if t.state = .disconnected ∧ successes < t.successesToRecover then .disconnected
        else .active }
  else
    let t := t.recordOutcome false
    if t.hasRecentActivity p then
      -- no strike against a path that carries traffic, and the successes stay counted
      { t with state := if t.state ≠ .disconnected then .degraded else t.state }
    else
      let failures := min (t.consecutiveFailures + 1) t.failuresToDisconnect
      { t with
        consecutiveSuccesses := 0
        consecutiveFailures := failures
        state := if failures ≥ t.failuresToDisconnect then .disconnected else .degraded }

def run (failuresToDisconnect successesToRecover : Nat) (activityGraceMs : Int)
    (lossWindowSize : Nat) (probes : List Probe) : PathHealthTracker :=
  exec update (create failuresToDisconnect successesToRecover activityGraceMs lossWindowSize) probes

/-! ## Resets -/

def reset (t : PathHealthTracker) : PathHealthTracker :=
  { t with
    state := .active, lastGoodLatencyMs := defaultLatencyMs, consecutiveFailures := 0
    consecutiveSuccesses := 0, recentOutcomes := [] }

inductive Call where
  | update (p : Probe)
  | reset

def call (t : PathHealthTracker) : Call → PathHealthTracker
  | .update p => t.update p
  | .reset => t.reset

def runCalls (failuresToDisconnect successesToRecover : Nat) (activityGraceMs : Int)
    (lossWindowSize : Nat) (calls : List Call) : PathHealthTracker :=
  exec call (create failuresToDisconnect successesToRecover activityGraceMs lossWindowSize) calls

end PathHealthTracker

end BigRocket.Service
