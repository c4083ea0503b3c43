/-
The two embedded engines, mirrors of each other: one record and one set of
functions with the engine as a parameter. An attempt is named by its generation,
and a step of it is what it does between two points where others can come in;
`ok = false` is an exception, and a cancelled coroutine is one whose generation
is not the current one. Phases and deadlines are left out.
-/
import Mathlib

namespace BigRocket.Service

inductive Engine where
  | aether
  | xray
  deriving DecidableEq, Repr

inductive Stage where
  | preparing
  | holding
  | started
  | failing
  | ended
  deriving DecidableEq, Repr

structure Attempt where
  port : Nat
  stage : Stage
  alive : Bool
  deriving DecidableEq, Repr

structure Runtime where
  generation : Nat
  job : Option Nat
  process : Option Nat
  activePort : Option Nat
  activeConfigFingerprint : Nat
  trafficReady : Bool
  attempts : Nat → Option Attempt

namespace Runtime

def create : Runtime := ⟨0, none, none, none, 0, false, fun _ => none⟩

def aliveAt (r : Runtime) (g : Nat) : Bool := (r.attempts g).any (·.alive)

def unfinished (r : Runtime) (g : Nat) : Bool := (r.attempts g).any (·.stage ≠ .ended)

def isRunning (r : Runtime) : Bool := r.process.any r.aliveAt

def jobActive (r : Runtime) : Bool := r.job.any r.unfinished

def setAttempt (r : Runtime) (g : Nat) (a : Attempt) : Runtime :=
  { r with attempts := Function.update r.attempts g (some a) }

/-- The first half of `start`: the guard, the new generation and the launch.
There is no result where the guard returns. -/
def start (e : Engine) (port : Nat) (r : Runtime) : Option Runtime :=
  if r.jobActive || (e = .xray && r.isRunning) then none
  else
    some (setAttempt
      { r with
        generation := r.generation + 1
        trafficReady := false
        activePort := if e = .aether then some port else r.activePort }
      (r.generation + 1) ⟨port, .preparing, false⟩)

def register (g : Nat) (r : Runtime) : Runtime :=
  if r.generation = g then { r with job := some g } else r

def stop (r : Runtime) : Runtime :=
  { r with
    generation := r.generation + 1
    trafficReady := false
    job := none
    process := none
    activePort := none
    activeConfigFingerprint := 0 }

def kill (g : Nat) (r : Runtime) : Runtime :=
  match r.attempts g with
  | some a => r.setAttempt g { a with alive := false }
  | none => r

def needsRestart (e : Engine) (port savedConfig : Nat) (r : Runtime) : Bool :=
  r.isRunning && (some port ≠ r.activePort ||
    (e = .xray && savedConfig ≠ r.activeConfigFingerprint))

/-- The lock of `handleStartFailure`; `engine` is the process of the attempt,
if it has one. -/
def handleStartFailure (e : Engine) (g : Nat) (engine : Option Nat) (r : Runtime) : Runtime :=
  if r.generation = g then
    if r.process = engine then
      { r with
        trafficReady := false
        process := none
        activePort := if e = .xray then none else r.activePort
        activeConfigFingerprint := if e = .xray then 0 else r.activeConfigFingerprint }
    else { r with trafficReady := false }
  else r

/-- The next step of an attempt. `config` is the hash of the configuration
that Xray's has read. -/
def attemptStep (e : Engine) (g : Nat) (ok : Bool) (config : Nat) (r : Runtime) : Runtime :=
  match r.attempts g with
  | none => r
  | some a =>
    match a.stage with
    | .preparing =>
      if ok then
        if r.generation = g then
          setAttempt
            { r with
              process := some g
              activePort := if e = .xray then some a.port else r.activePort
              activeConfigFingerprint :=
                if e = .xray then config else r.activeConfigFingerprint }
            g { a with stage := .holding }
        else r.setAttempt g { a with stage := .ended }
      else (r.handleStartFailure e g none).setAttempt g { a with stage := .ended }
    | .holding =>
      if ok then r.setAttempt g { a with stage := .started, alive := true }
      else (r.handleStartFailure e g (some g)).setAttempt g { a with stage := .failing }
    | .started =>
      if ok then
        if r.generation = g then
          setAttempt { r with trafficReady := true } g { a with stage := .ended }
        else r.setAttempt g { a with stage := .ended, alive := false }
      else (r.handleStartFailure e g (some g)).setAttempt g { a with stage := .failing }
    | .failing => r.setAttempt g { a with stage := .ended, alive := false }
    | .ended => r

def becomesReady (g : Nat) (ok : Bool) (r : Runtime) : Bool :=
  ok && r.generation = g && (r.attempts g).any (·.stage = .started)

def monitor (g : Nat) (r : Runtime) : Runtime :=
  if r.generation = g ∧ r.process = some g ∧ r.unfinished g = false ∧ r.aliveAt g = false then
    { r with trafficReady := false, process := none }
  else r

end Runtime

end BigRocket.Service
