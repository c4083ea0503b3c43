/-
`VirtualPath3Endpoint`, `Path3Adapter` and one direction of a whole link, its
steps in any order. The counters of the package are left out.
-/
import BigRocket.Bonding.Engine

namespace BigRocket.Bonding

/-! ## The endpoint -/

inductive Path3State where
  | created
  | initializing
  | ready
  | active
  | degraded
  | noUpstream
  | stopping
  | stopped
  | failed
  deriving DecidableEq, Repr

structure VirtualPath3Endpoint where
  mtu : Nat := 1400
  inputCapacity : Nat := 1024
  outputCapacity : Nat := 1024
  androidToBonding : List (List UInt8) := []
  bondingToAndroid : List (List UInt8) := []
  currentState : Path3State := .created

namespace VirtualPath3Endpoint

def isActive (e : VirtualPath3Endpoint) : Bool :=
  e.currentState = .active || e.currentState = .degraded

def started : VirtualPath3Endpoint := { currentState := .active }

def injectFromAndroid (packet : List UInt8) (e : VirtualPath3Endpoint) :
    Bool × VirtualPath3Endpoint :=
  if !e.isActive then (false, e)
  else if packet.isEmpty then (false, e)
  else if packet.length > e.mtu then (false, e)
  else if e.androidToBonding.length ≥ e.inputCapacity then (false, e)
  else (true, { e with androidToBonding := e.androidToBonding ++ [packet] })

def receiveFromAndroid (e : VirtualPath3Endpoint) : Option (List UInt8) × VirtualPath3Endpoint :=
  if !e.isActive && e.currentState ≠ .ready then (none, e)
  else
    match e.androidToBonding with
    | [] => (none, e)
    | packet :: rest => (some packet, { e with androidToBonding := rest })

def sendToAndroid (packet : List UInt8) (e : VirtualPath3Endpoint) : Bool × VirtualPath3Endpoint :=
  if !e.isActive && e.currentState ≠ .ready then (false, e)
  else if packet.isEmpty then (false, e)
  else if packet.length > e.mtu then (false, e)
  else if e.bondingToAndroid.length ≥ e.outputCapacity then (false, e)
  else (true, { e with bondingToAndroid := e.bondingToAndroid ++ [packet] })

def readForAndroid (e : VirtualPath3Endpoint) : Option (List UInt8) × VirtualPath3Endpoint :=
  if e.currentState = .stopped || e.currentState = .failed then (none, e)
  else
    match e.bondingToAndroid with
    | [] => (none, e)
    | packet :: rest => (some packet, { e with bondingToAndroid := rest })

end VirtualPath3Endpoint

/-! ## The link -/

/-- Two ends and the network between them. `frames` is what the sender handed to
its scheduler, `injected` and `handed` are the packets of the two endpoints. -/
structure Path3Link where
  nearEnd : VirtualPath3Endpoint
  sender : BondingEngine
  frames : List Frame
  receiver : BondingEngine
  farEnd : VirtualPath3Endpoint
  injected : List (List UInt8)
  handed : List (List UInt8)

inductive LinkEvent where
  | inject (packet : List UInt8)
  | txTurn (clock : Nat → Int64)
  | arrive (now : Int) (path : PathId) (index : Nat)
  | reassemble (now : Int) (resent : Option Nat)
  | rxTurn
  | read

namespace Path3Link

def create (streamId : Int32) (config : BondingConfig) : Path3Link where
  nearEnd := .started
  sender := .started streamId config
  frames := []
  receiver := .started streamId config
  farEnd := .started
  injected := []
  handed := []

variable (crc32 : List UInt8 → UInt32)

/-- One turn of the adapter's `txJob`. An exception of `send` is swallowed. -/
def txTurn (clock : Nat → Int64) (l : Path3Link) : Path3Link :=
  match l.nearEnd.receiveFromAndroid with
  | (none, _) => l
  | (some packet, nearEnd) =>
    match l.sender.send clock packet with
    | .ok (made, sender) => { l with nearEnd, sender, frames := l.frames ++ made }
    | .error _ => { l with nearEnd }

def rxTurn (l : Path3Link) : Path3Link :=
  match l.receiver.receive with
  | (none, _) => l
  | (some reassembled, receiver) =>
    { l with
      receiver
      farEnd := (l.farEnd.sendToAndroid reassembled).2
      handed := l.handed ++ [reassembled] }

def step (l : Path3Link) : LinkEvent → Path3Link
  | .inject packet =>
    match l.nearEnd.injectFromAndroid packet with
    | (true, nearEnd) => { l with nearEnd, injected := l.injected ++ [packet] }
    | (false, _) => l
  | .txTurn clock => l.txTurn clock
  | .arrive now path index =>
    match l.frames[index]? with
    | none => l
    | some frame =>
      match BinaryFrameCodec.encode crc32 frame with
      | .ok datagram => { l with receiver := l.receiver.receiverTurn crc32 now path datagram }
      | .error _ => l
  | .reassemble now resent =>
    let frame := (resent.bind (l.frames[·]?)).map Frame.asRecovered
    { l with receiver := l.receiver.reassemblyTurn now frame }
  | .rxTurn => l.rxTurn
  | .read => { l with farEnd := l.farEnd.readForAndroid.2 }

def run (streamId : Int32) (config : BondingConfig) (events : List LinkEvent) : Path3Link :=
  Lib.exec (step crc32) (create streamId config) events

/-- Everything injected was sent, every frame of it was delivered in time
and everything put out was handed on. -/
structure Lossless (l : Path3Link) : Prop where
  sent : l.nearEnd.androidToBonding = []
  delivered : l.receiver.reorderBuffer.expectedSequence = l.frames.length
  nothingLost : l.receiver.reorderBuffer.permanentlyLostCount = 0
  handedOn : l.receiver.outputQueue = []

end Path3Link

end BigRocket.Bonding
