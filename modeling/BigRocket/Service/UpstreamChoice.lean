/-
Which engines run for which choice: `applyUpstreamChoice` and
`onChainReadinessChanged` as programs over the two runtimes, one thread each.
All steps come in any order; a newer call of the handler ends an older one, but
not inside `start`.
-/
import BigRocket.Service.Runtime
import BigRocket.Service.PacketEngine

namespace BigRocket.Service

open Lib

def bondingPort : Nat := 12347

inductive UpstreamChoice where
  | none
  | aether
  | xray
  | aetherXray
  | xrayAether
  deriving DecidableEq, Repr

/-- The local port through which an engine of the chain dials out; there is
none for an engine outside the chain. -/
def UpstreamChoice.dialPort : UpstreamChoice → Engine → Option Nat
  | .aether, .aether => some bondingPort
  | .xray, .xray => some bondingPort
  | .aetherXray, .aether => some bondingPort
  | .aetherXray, .xray => some aetherSocksPort
  | .xrayAether, .xray => some bondingPort
  | .xrayAether, .aether => some xraySocksPort
  | _, _ => Option.none

/-! ## Programs -/

inductive Test where
  | isRunning (e : Engine)
  | needsRestart (e : Engine) (port : Nat)
  | isTrafficReady (e : Engine)
  | serviceRunning
  deriving DecidableEq, Repr

inductive Program where
  | done
  | branch (test : Test) (yes no : Program)
  | start (e : Engine) (port : Nat) (next : Program)
  | stop (e : Engine) (next : Program)
  deriving DecidableEq, Repr

def stopIfRunning (e : Engine) (next : Program) : Program :=
  .branch (.isRunning e) (.stop e next) next

def startAetherIfNeeded (upstreamPort : Nat) (next : Program) : Program :=
  .branch (.isRunning .aether) next (.start .aether upstreamPort next)

def startXrayIfNeeded (chainPort : Nat) (next : Program) : Program :=
  .branch (.isRunning .xray) next (.start .xray chainPort next)

def applyUpstreamChoice : UpstreamChoice → Program
  | .aether =>
    stopIfRunning .xray <|
    let rest := startAetherIfNeeded bondingPort .done
    .branch (.needsRestart .aether bondingPort) (stopIfRunning .aether rest) rest
  | .xray =>
    stopIfRunning .aether <|
    let rest := startXrayIfNeeded bondingPort .done
    .branch (.needsRestart .xray bondingPort) (.stop .xray rest) rest
  | .aetherXray =>
    let launch := Program.branch (.isTrafficReady .aether)
      (startXrayIfNeeded aetherSocksPort .done) .done
    let aether := startAetherIfNeeded bondingPort launch
    let rest := Program.branch (.needsRestart .aether bondingPort)
      (stopIfRunning .aether aether) aether
    .branch (.needsRestart .xray aetherSocksPort) (.stop .xray rest) rest
  | .xrayAether =>
    let launch := Program.branch (.isTrafficReady .xray)
      (.branch (.isRunning .aether) .done (startAetherIfNeeded xraySocksPort .done)) .done
    let xray := startXrayIfNeeded bondingPort launch
    let rest := Program.branch (.needsRestart .xray bondingPort)
      (stopIfRunning .aether (.stop .xray xray)) xray
    .branch (.needsRestart .aether xraySocksPort) (stopIfRunning .aether rest) rest
  | .none => stopIfRunning .xray (stopIfRunning .aether .done)

def onChainReadinessChanged (choice : UpstreamChoice) (aetherReady xrayReady : Bool) : Program :=
  let second :=
    if choice = .xrayAether ∧ xrayReady then
      Program.branch .serviceRunning
        (.branch (.isRunning .aether) .done (startAetherIfNeeded xraySocksPort .done)) .done
    else .done
  if choice = .aetherXray ∧ aetherReady then
    .branch .serviceRunning (startXrayIfNeeded aetherSocksPort second) second
  else second

/-! ## Threads -/

inductive Thread where
  | idle
  | running (choice : UpstreamChoice) (program : Program)
  | registering (choice : UpstreamChoice) (e : Engine) (g : Nat) (next : Program)
  | killing (choice : UpstreamChoice) (e : Engine) (g : Nat) (next : Program)
  deriving DecidableEq, Repr

structure ChoiceState where
  aether : Runtime
  xray : Runtime
  storedChoice : UpstreamChoice
  savedConfig : Nat
  serviceRunning : Bool
  control : Thread
  handler : Thread
  /-- The choice for which `applyUpstreamChoice` has returned, until it is
  called again. -/
  applied : Option UpstreamChoice

namespace ChoiceState

def create : ChoiceState := ⟨.create, .create, .none, 0, false, .idle, .idle, none⟩

def runtime (s : ChoiceState) : Engine → Runtime
  | .aether => s.aether
  | .xray => s.xray

def setRuntime (s : ChoiceState) (e : Engine) (r : Runtime) : ChoiceState :=
  match e with
  | .aether => { s with aether := r }
  | .xray => { s with xray := r }

def holds (s : ChoiceState) : Test → Bool
  | .isRunning e => (s.runtime e).isRunning
  | .needsRestart e port => (s.runtime e).needsRestart e port s.savedConfig
  | .isTrafficReady e => (s.runtime e).trafficReady
  | .serviceRunning => s.serviceRunning

def threadStep (s : ChoiceState) : Thread → ChoiceState × Thread
  | .idle => (s, .idle)
  | .running _ .done => (s, .idle)
  | .running c (.branch test yes no) => (s, .running c (if s.holds test then yes else no))
  | .running c (.start e port next) =>
    match (s.runtime e).start e port with
    | some r => (s.setRuntime e r, .registering c e r.generation next)
    | none => (s, .running c next)
  | .running c (.stop e next) =>
    (s.setRuntime e (s.runtime e).stop,
      match (s.runtime e).process with
      | some g => .killing c e g next
      | none => .running c next)
  | .registering c e g next => (s.setRuntime e ((s.runtime e).register g), .running c next)
  | .killing c e g next => (s.setRuntime e ((s.runtime e).kill g), .running c next)

inductive Event where
  | storeChoice (choice : UpstreamChoice)
  | saveConfig (config : Nat)
  | setServiceRunning (running : Bool)
  | apply
  | applyStep
  | readiness (aetherReady xrayReady : Bool)
  | readinessStep
  | attempt (e : Engine) (g : Nat) (ok : Bool) (config : Nat)
  | dies (e : Engine) (g : Nat)
  | monitor (e : Engine) (g : Nat)
  deriving DecidableEq, Repr

def returns : Thread → Option UpstreamChoice
  | .running c .done => some c
  | _ => none

def step (s : ChoiceState) : Event → ChoiceState
  | .storeChoice choice => { s with storedChoice := choice }
  | .saveConfig config => { s with savedConfig := config }
  | .setServiceRunning running => { s with serviceRunning := running }
  | .apply =>
    if s.control = .idle then
      { s with
        control := .running s.storedChoice (applyUpstreamChoice s.storedChoice)
        applied := none }
    else s
  | .applyStep =>
    let (s', control) := s.threadStep s.control
    { s' with
      control := control
      applied := (returns s.control).or s.applied }
  | .readiness aetherReady xrayReady =>
    match s.handler with
    | .registering _ _ _ _ => s
    | _ =>
      { s with
        handler := .running s.storedChoice
          (onChainReadinessChanged s.storedChoice aetherReady xrayReady) }
  | .readinessStep =>
    let (s', handler) := s.threadStep s.handler
    { s' with handler := handler }
  | .attempt e g ok config => s.setRuntime e ((s.runtime e).attemptStep e g ok config)
  | .dies e g => s.setRuntime e ((s.runtime e).kill g)
  | .monitor e g => s.setRuntime e ((s.runtime e).monitor g)

def run (events : List Event) : ChoiceState := exec step create events

/-! ## What is asked of a run -/

def RunningMatches (s : ChoiceState) : Prop :=
  ∀ c, s.applied = some c → ∀ e g, (s.runtime e).aliveAt g = true → c.dialPort e ≠ none

/-- While a choice is applied, an engine that becomes ready is one of its
chain, and was started to dial through the port that this asks for. -/
def ReadyMatches (s : ChoiceState) : Event → Prop
  | .attempt e g ok _ =>
    ∀ c, s.applied = some c → (s.runtime e).becomesReady g ok = true →
      ∃ port, ((s.runtime e).attempts g).map (·.port) = some port ∧ c.dialPort e = some port
  | _ => True

end ChoiceState

end BigRocket.Service
