/-
Which engine reads the TUN, in `BigRocketVpnService`. Start, reset and stop run
under `controlMutex`, the hand-over under `engineSwitchMutex`, and neither keeps
the other out: a run is any interleaving of their steps, each one access to a
field or one call. `ControlAt` and `HandOverAt` name the step that comes next.
-/
import BigRocket.Lib.History

namespace BigRocket.Service

open Lib

inductive UpstreamMode where
  | none
  | aether
  | xray
  deriving DecidableEq, Repr

def aetherSocksPort : Nat := 1819

def xraySocksPort : Nat := 1839

/-! ## Fields and engines -/

structure Tun where
  vpnInterface : Bool
  isRunning : Bool
  usingHevEngine : Bool
  activeHevSocksPort : Nat
  packetRouter : Option Nat
  hevRunning : Bool
  startedRouters : List Nat
  nextRouter : Nat
  deriving DecidableEq, Repr

namespace Tun

def create : Tun := ⟨false, false, false, aetherSocksPort, none, false, [], 0⟩

def hevStop (t : Tun) : Tun := { t with hevRunning := false }

def startRouter (t : Tun) : Tun :=
  { t with startedRouters := t.nextRouter :: t.startedRouters, nextRouter := t.nextRouter + 1 }

def stopRouter (t : Tun) : Tun :=
  match t.packetRouter with
  | some router => { t with startedRouters := t.startedRouters.filter (· ≠ router) }
  | none => t

variable (t : Tun)

@[simp] theorem vpnInterface_hevStop : t.hevStop.vpnInterface = t.vpnInterface := rfl

@[simp] theorem isRunning_hevStop : t.hevStop.isRunning = t.isRunning := rfl

@[simp] theorem vpnInterface_startRouter :
    t.startRouter.vpnInterface = t.vpnInterface := rfl

@[simp] theorem isRunning_startRouter : t.startRouter.isRunning = t.isRunning := rfl

@[simp] theorem vpnInterface_stopRouter : t.stopRouter.vpnInterface = t.vpnInterface := by
  unfold stopRouter
  split <;> rfl

@[simp] theorem isRunning_stopRouter : t.stopRouter.isRunning = t.isRunning := by
  unfold stopRouter
  split <;> rfl

def engines (t : Tun) : Nat := t.hevRunning.toNat + t.startedRouters.length

end Tun

/-! ## The hand-over -/

structure HandOver where
  wantHev : Bool
  hevSocksPort : Nat
  deriving DecidableEq, Repr

def HandOver.of (available chainReady : Bool) (chainMode : UpstreamMode) : HandOver where
  wantHev := chainReady && chainMode != .none && available
  hevSocksPort := if chainMode = .xray then xraySocksPort else aetherSocksPort

inductive HevStart where
  | started
  | refused
  | configFails
  deriving DecidableEq, Repr

inductive HandOverAt where
  | idle
  | compareFlag (h : HandOver)
  | checkFlag (h : HandOver)
  | comparePort (h : HandOver)
  | sameEngine
  | takeInterface (h : HandOver)
  | checkRestart (h : HandOver)
  | restartStopHev (h : HandOver)
  | restartClearFlag (h : HandOver)
  | stopRouter (h : HandOver)
  | clearRouter (h : HandOver)
  | startHev (h : HandOver)
  | storePort (h : HandOver)
  | storeFlag
  | startFallback
  | storeFallback (router : Nat)
  | clearFlag
  | stopHev
  | clearHevFlag
  | startRouter
  | storeRouter (router : Nat)
  deriving DecidableEq, Repr

def HandOverAt.step (result : HevStart) (t : Tun) : HandOverAt → Tun × HandOverAt
  | .idle => (t, .idle)
  | .compareFlag h => (t, if h.wantHev = t.usingHevEngine then .checkFlag h else .takeInterface h)
  | .checkFlag h => (t, if t.usingHevEngine then .comparePort h else .sameEngine)
  | .comparePort h =>
    (t, if h.hevSocksPort = t.activeHevSocksPort then .sameEngine else .takeInterface h)
  -- at most the mode of the router changes
  | .sameEngine => (t, .idle)
  | .takeInterface h =>
    (t, if t.vpnInterface then if h.wantHev then .checkRestart h else .stopHev else .idle)
  | .checkRestart h => (t, if t.usingHevEngine then .restartStopHev h else .stopRouter h)
  | .restartStopHev h => (t.hevStop, .restartClearFlag h)
  | .restartClearFlag h => ({ t with usingHevEngine := false }, .stopRouter h)
  | .stopRouter h => (t.stopRouter, .clearRouter h)
  | .clearRouter h => ({ t with packetRouter := none }, .startHev h)
  | .startHev h =>
    match result with
    | .configFails => (t, .idle)
    | .started => ({ t with hevRunning := true }, .storePort h)
    -- a start while it runs returns at once
    | .refused => if t.hevRunning then (t, .storePort h) else (t, .startFallback)
  | .storePort h => ({ t with activeHevSocksPort := h.hevSocksPort }, .storeFlag)
  | .storeFlag => ({ t with usingHevEngine := true }, .idle)
  | .startFallback => (t.startRouter, .storeFallback t.nextRouter)
  | .storeFallback router => ({ t with packetRouter := some router }, .clearFlag)
  | .clearFlag => ({ t with usingHevEngine := false }, .idle)
  | .stopHev => (t.hevStop, .clearHevFlag)
  | .clearHevFlag => ({ t with usingHevEngine := false }, .startRouter)
  | .startRouter => (t.startRouter, .storeRouter t.nextRouter)
  | .storeRouter router => ({ t with packetRouter := some router }, .idle)

/-! ## Start, reset and stop -/

inductive ControlAt where
  | idle
  | establish
  | storeInterface
  | setRunning
  | startRouter
  | storeRouter (router : Nat)
  | finishSetup
  | clearRunning (again : Bool)
  | readFlag (again : Bool)
  | stopHev (again : Bool)
  | clearFlag (again : Bool)
  | stopRouter (again : Bool)
  | clearRouter (again : Bool)
  | clearInterface (again : Bool)
  | finishTeardown (again : Bool)
  deriving DecidableEq, Repr

/-- The next step of `setupVpn` or `teardownVpn`. With `ok` false an exception is
thrown, or there is no interface to be had; `setupVpn` then tears down. -/
def ControlAt.step (ok : Bool) (t : Tun) : ControlAt → Tun × ControlAt
  | .idle => (t, .idle)
  | .establish => (t, if ok then .storeInterface else .clearRunning false)
  | .storeInterface => ({ t with vpnInterface := true }, .setRunning)
  | .setRunning => ({ t with isRunning := true }, .startRouter)
  | .startRouter => if ok then (t.startRouter, .storeRouter t.nextRouter) else (t, .clearRunning false)
  | .storeRouter router => ({ t with packetRouter := some router }, .finishSetup)
  | .finishSetup => (t, if ok then .idle else .clearRunning false)
  | .clearRunning again => ({ t with isRunning := false }, .readFlag again)
  | .readFlag again => (t, if t.usingHevEngine then .stopHev again else .stopRouter again)
  | .stopHev again => (t.hevStop, .clearFlag again)
  | .clearFlag again => ({ t with usingHevEngine := false }, .stopRouter again)
  | .stopRouter again => (t.stopRouter, .clearRouter again)
  | .clearRouter again => ({ t with packetRouter := none }, .clearInterface again)
  | .clearInterface again => ({ t with vpnInterface := false }, .finishTeardown again)
  | .finishTeardown again => (t, if again then .establish else .idle)

/-! ## Runs -/

structure EngineState where
  tun : Tun
  control : ControlAt
  handOver : HandOverAt
  tornDown : Bool
  deriving DecidableEq, Repr

inductive EngineEvent where
  | start
  | reset
  | stop
  | control (ok : Bool)
  | handOver (chainReady : Bool) (chainMode : UpstreamMode)
  | handOverStep (result : HevStart)
  deriving DecidableEq, Repr

namespace EngineState

def create : EngineState := ⟨.create, .idle, .idle, true⟩

def begin (s : EngineState) (control : ControlAt) : EngineState :=
  { s with control := control, tornDown := s.tornDown && control != .establish }

def controlStep (ok : Bool) (s : EngineState) : EngineState :=
  let (tun, control) := s.control.step ok s.tun
  let returned := s.control = .finishTeardown true ∨ s.control = .finishTeardown false
  { s with
    tun := tun
    control := control
    tornDown := (s.tornDown || decide returned) && control != .establish }

def handOverStep (result : HevStart) (s : EngineState) : EngineState :=
  let (tun, handOver) := s.handOver.step result s.tun
  { s with tun := tun, handOver := handOver }

/-- An operation or a hand-over that finds its mutex taken waits, and is an
event when it gets it. -/
def step (available : Bool) (s : EngineState) : EngineEvent → EngineState
  | .start => if s.control = .idle ∧ s.tun.isRunning = false then s.begin .establish else s
  | .reset =>
    if s.control = .idle then
      s.begin (if s.tun.isRunning then .clearRunning true else .establish)
    else s
  | .stop => if s.control = .idle then s.begin (.clearRunning false) else s
  | .control ok => s.controlStep ok
  | .handOver chainReady chainMode =>
    if s.handOver = .idle then
      { s with handOver := .compareFlag (.of available chainReady chainMode) }
    else s
  | .handOverStep result => s.handOverStep result

def run (available : Bool) (events : List EngineEvent) : EngineState :=
  exec (step available) create events

def OneEngine (s : EngineState) : Prop :=
  s.tun.engines ≤ 1 ∧ (s.tornDown = true → s.tun.engines = 0)

instance (s : EngineState) : Decidable s.OneEngine := inferInstanceAs (Decidable (_ ∧ _))

end EngineState

end BigRocket.Service
