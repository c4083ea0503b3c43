/-
`UpstreamPolicy` and `UpstreamSupervisor`. A tick reads the answers of the host
and returns what it does as `Deeds`; the other calls come at any time. Times are
integers, 0 for "not set". Texts for the user are left out.
-/
import BigRocket.Service.UpstreamChoice

namespace BigRocket.Service

open Lib

inductive RuntimePhase where
  | idle
  | starting
  | verifying
  | ready
  | failed
  deriving DecidableEq, Repr

def RuntimePhase.text : RuntimePhase → String
  | .idle => "idle"
  | .starting => "starting"
  | .verifying => "verifying"
  | .ready => "ready"
  | .failed => "failed"

structure RuntimeStatus where
  phase : RuntimePhase
  deadlineMs : Int := 0
  processAlive : Bool := false
  error : Option String := none
  deriving DecidableEq, Repr

namespace UpstreamPolicy

def stuckGraceMs : Int := 10000
def convergeAfterMs : Int := 4000
def probeIntervalMs : Int := 10000
def probeFailuresToRestart : Nat := 3
def stableMs : Int := 60000
def alertAfterMs : Int := 15000
def chainBudgetMs : Int := 180000

def backoffMs (attempt : Nat) : Int := [2000, 4000, 8000, 15000, 30000].getD (min (attempt - 1) 4) 0

def label : Engine → String
  | .aether => "Aether"
  | .xray => "Xray"

def stagesFor : UpstreamChoice → List Engine
  | .none => []
  | .aether => [.aether]
  | .xray => [.xray]
  | .aetherXray => [.aether, .xray]
  | .xrayAether => [.xray, .aether]

inductive Verdict where
  | healthy
  | progressing
  | needsConverge
  | failed (reason : String)
  deriving DecidableEq, Repr

def failureOf (now : Int) (stage : Engine) (st : RuntimeStatus) : Option String :=
  if st.phase = .failed then some (label stage ++ ": " ++ st.error.getD "failed")
  else if st.phase = .ready ∧ st.processAlive = false then some (label stage ++ ": process died")
  else if (st.phase = .starting ∨ st.phase = .verifying) ∧ st.deadlineMs > 0 ∧
      now > st.deadlineMs + stuckGraceMs then
    some (label stage ++ ": stuck in " ++ st.phase.text)
  else none

def judge (now : Int) (stages : List (Engine × RuntimeStatus)) : Verdict :=
  match stages.findSome? fun entry => failureOf now entry.1 entry.2 with
  | some reason => .failed reason
  | none =>
    if stages.all fun entry => entry.2.phase = .ready then .healthy
    else
      let firstPending := stages.findIdx fun entry => entry.2.phase ≠ .ready
      let predecessorsReady := (stages.take firstPending).all fun entry => entry.2.phase = .ready
      if ((stages[firstPending]?).any fun entry => entry.2.phase = .idle) && predecessorsReady then
        .needsConverge
      else .progressing

end UpstreamPolicy

open UpstreamPolicy

inductive UpstreamLevel where
  | ok
  | working
  | retrying
  | waitingNetwork
  deriving DecidableEq, Repr

structure UpstreamStatus where
  level : UpstreamLevel
  attempt : Nat := 0
  sinceMs : Int := 0
  deriving DecidableEq, Repr

structure HostAnswers where
  isVpnRunning : Bool
  choice : UpstreamChoice
  stageStatus : Engine → RuntimeStatus
  /-- `hasUsablePath()` before a probe. -/
  usableForProbe : Bool
  probeChain : Bool
  /-- `hasUsablePath()` in `onFailed`. -/
  hasUsablePath : Bool

structure Deeds where
  verdict : Option Verdict := none
  probe : Option Bool := none
  stalls : Option String := none
  converges : Bool := false
  restarts : Option String := none
  published : Option UpstreamStatus := none
  showsAlert : Bool := false
  clearsAlert : Bool := false

structure UpstreamSupervisor where
  attempt : Nat := 0
  pendingRestartAt : Int := 0
  failingSince : Int := 0
  readySince : Int := 0
  workingSince : Int := 0
  idleSince : Int := 0
  probeFailures : Nat := 0
  lastProbeAt : Int := 0
  alertShown : Bool := false
  stalledReason : Option String := none

namespace UpstreamSupervisor

def resetCounters (s : UpstreamSupervisor) : UpstreamSupervisor := { alertShown := s.alertShown }

def alertDue (now : Int) (s : UpstreamSupervisor) : Bool :=
  !s.alertShown && s.failingSince ≠ 0 && now - s.failingSince ≥ alertAfterMs

def maybeAlert (now : Int) (s : UpstreamSupervisor) : UpstreamSupervisor :=
  { s with alertShown := s.alertShown || s.alertDue now }

def workingStatus (s : UpstreamSupervisor) : UpstreamStatus :=
  { level := .working
    attempt := s.attempt
    sinceMs := if s.failingSince ≠ 0 then s.failingSince else s.workingSince }

def schedule (now : Int) (s : UpstreamSupervisor) : UpstreamSupervisor :=
  let s := { s with
    workingSince := 0
    readySince := 0
    probeFailures := 0
    idleSince := 0
    failingSince := if s.failingSince = 0 then now else s.failingSince }
  if s.pendingRestartAt = 0 then
    { s with attempt := s.attempt + 1, pendingRestartAt := now + backoffMs (s.attempt + 1) }
  else s

def retry (now : Int) (reason : String) (h : HostAnswers) (s : UpstreamSupervisor) :
    UpstreamSupervisor × Deeds :=
  let status (level : UpstreamLevel) : UpstreamStatus :=
    { level, attempt := s.attempt, sinceMs := s.failingSince }
  if h.hasUsablePath = false then
    (s.maybeAlert now, { published := some (status .waitingNetwork), showsAlert := s.alertDue now })
  else if now ≥ s.pendingRestartAt then
    ({ s.maybeAlert now with pendingRestartAt := 0, stalledReason := none },
      { published := some (status .working), showsAlert := s.alertDue now
        restarts := some reason })
  else (s.maybeAlert now, { published := some (status .retrying), showsAlert := s.alertDue now })

def onFailed (now : Int) (reason : String) (h : HostAnswers) (s : UpstreamSupervisor) :
    UpstreamSupervisor × Deeds :=
  (s.schedule now).retry now reason h

def recovered (now : Int) (s : UpstreamSupervisor) : UpstreamSupervisor :=
  let readySince := if s.readySince = 0 then now else s.readySince
  { s with
    workingSince := 0
    idleSince := 0
    pendingRestartAt := 0
    readySince
    alertShown := if s.failingSince ≠ 0 then false else s.alertShown
    failingSince := 0
    attempt := if now - readySince ≥ stableMs then 0 else s.attempt }

def probeTunnel (now : Int) (h : HostAnswers) (s : UpstreamSupervisor) :
    UpstreamSupervisor × Deeds :=
  let fine : Deeds := { published := some { level := .ok } }
  if h.usableForProbe = true ∧ now - s.lastProbeAt ≥ probeIntervalMs then
    let s := { s with lastProbeAt := now }
    if h.probeChain then ({ s with probeFailures := 0 }, { fine with probe := some true })
    else if s.probeFailures + 1 ≥ probeFailuresToRestart then
      let reason := "tunnel stopped carrying traffic"
      let failed := onFailed now reason h
        { s with probeFailures := 0, stalledReason := some reason }
      (failed.1, { failed.2 with probe := some false, stalls := some reason })
    else ({ s with probeFailures := s.probeFailures + 1 }, { fine with probe := some false })
  else (s, fine)

def onHealthy (now : Int) (h : HostAnswers) (s : UpstreamSupervisor) :
    UpstreamSupervisor × Deeds :=
  let probed := (s.recovered now).probeTunnel now h
  (probed.1, { probed.2 with clearsAlert := s.failingSince ≠ 0 && s.alertShown })

def onProgressing (now : Int) (h : HostAnswers) (s : UpstreamSupervisor) :
    UpstreamSupervisor × Deeds :=
  let s := { s with
    readySince := 0
    probeFailures := 0
    workingSince := if s.workingSince = 0 then now else s.workingSince }
  if now - s.workingSince > chainBudgetMs then
    let reason := "chain did not become ready in time"
    let failed := onFailed now reason h
      { s with workingSince := 0, stalledReason := some reason }
    (failed.1, { failed.2 with stalls := some reason })
  else
    (s.maybeAlert now, { published := some s.workingStatus, showsAlert := s.alertDue now })

def onConverge (now : Int) (s : UpstreamSupervisor) : UpstreamSupervisor × Deeds :=
  let idleSince := if s.idleSince = 0 then now else s.idleSince
  let due := now - idleSince ≥ convergeAfterMs
  let s := { s with
    readySince := 0
    idleSince := if due then 0 else idleSince
    workingSince := if s.workingSince = 0 then now else s.workingSince }
  (s, { converges := due, published := some s.workingStatus })

def onVerdict (now : Int) (h : HostAnswers) (s : UpstreamSupervisor) :
    Verdict → UpstreamSupervisor × Deeds
  | .healthy => s.onHealthy now h
  | .progressing => s.onProgressing now h
  | .needsConverge => s.onConverge now
  | .failed reason => s.onFailed now reason h

def tick (now : Int) (h : HostAnswers) (s : UpstreamSupervisor) : UpstreamSupervisor × Deeds :=
  if h.isVpnRunning = false then (s, {})
  else
    let stageKeys := stagesFor h.choice
    if stageKeys = [] then
      let ok : Deeds := { published := some { level := .ok } }
      if s.failingSince ≠ 0 ∨ s.attempt ≠ 0 ∨ s.alertShown = true then
        ({}, { ok with clearsAlert := s.alertShown })
      else (s, ok)
    else
      match s.stalledReason with
      | some reason => s.onFailed now reason h
      | none =>
        let verdict := judge now (stageKeys.map fun stage => (stage, h.stageStatus stage))
        let judged := s.onVerdict now h verdict
        (judged.1, { judged.2 with verdict := some verdict })

def onPathsChanged (now : Int) (s : UpstreamSupervisor) : UpstreamSupervisor :=
  { s with
    pendingRestartAt :=
      if s.pendingRestartAt ≠ 0 then
        if s.pendingRestartAt ≤ now then now + 1000 else min s.pendingRestartAt (now + 1000)
      else s.pendingRestartAt
    lastProbeAt := 0 }

end UpstreamSupervisor

/-! ## Runs -/

inductive SupervisorEvent where
  | tick (now : Int) (h : HostAnswers)
  | onPathsChanged (now : Int)
  | onChoiceChanged
  | stop

namespace SupervisorEvent

def tickTime : SupervisorEvent → Option Int
  | .tick now _ => some now
  | _ => none

end SupervisorEvent

namespace UpstreamSupervisor

def step (s : UpstreamSupervisor) : SupervisorEvent → UpstreamSupervisor × Deeds
  | .tick now h => s.tick now h
  | .onPathsChanged now => (s.onPathsChanged now, {})
  | .onChoiceChanged => (s.resetCounters, {})
  | .stop => ({ s.resetCounters with alertShown := false }, { clearsAlert := s.alertShown })

end UpstreamSupervisor

structure SupervisorStep where
  event : SupervisorEvent
  before : UpstreamSupervisor
  after : UpstreamSupervisor
  deeds : Deeds

def recordStep (run : UpstreamSupervisor × List SupervisorStep) (event : SupervisorEvent) :
    UpstreamSupervisor × List SupervisorStep :=
  let next := run.1.step event
  (next.1, run.2 ++ [⟨event, run.1, next.1, next.2⟩])

def superviseRun (events : List SupervisorEvent) : UpstreamSupervisor × List SupervisorStep :=
  exec recordStep ({}, []) events

end BigRocket.Service
