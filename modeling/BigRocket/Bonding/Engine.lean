/-
`BondingEngineImpl` and its configuration: `send`, and one turn of the receiver
and reassembly loops. Between two engines a frame that was sent arrives any
number of times, at any time and on any path. Only the fields the modelled
functions read are kept.
-/
import BigRocket.Bonding.FrameCodec
import BigRocket.Bonding.FrameProcessor
import BigRocket.Bonding.ReorderBuffer

namespace BigRocket.Bonding

/-! ## Configuration -/

structure BondingConfig where
  maxPayloadSize : Nat := 1200
  reorderWindowSize : Int := 512
  reorderSoftTimeoutMs : Int := 150
  reorderHardTimeoutMs : Int := 800
  recoveryEnabled : Bool := true
  hard_gt_soft : reorderHardTimeoutMs > reorderSoftTimeoutMs := by decide
  payload_range : 1 ≤ maxPayloadSize ∧ maxPayloadSize ≤ 60000 := by decide

def BondingConfig.reorderParams (config : BondingConfig) : ReorderParams where
  windowSize := config.reorderWindowSize
  softTimeoutMs := config.reorderSoftTimeoutMs
  hardTimeoutMs := config.reorderHardTimeoutMs

inductive BondingState where
  | stopped
  | starting
  | active
  | degraded
  | stopping
  | error
  deriving DecidableEq, Repr

def BondingState.name : BondingState → String
  | .stopped => "STOPPED"
  | .starting => "STARTING"
  | .active => "ACTIVE"
  | .degraded => "DEGRADED"
  | .stopping => "STOPPING"
  | .error => "ERROR"

inductive EngineException where
  | illegalState (message : String)
  deriving DecidableEq, Repr

structure PathId where
  value : String
  deriving DecidableEq, Repr

def PathId.wifi : PathId := ⟨"wifi"⟩

def PathId.cellular : PathId := ⟨"cellular"⟩

/-! ## The engine -/

structure BondingEngine where
  config : BondingConfig
  engineState : BondingState
  frameProcessor : FrameProcessor
  reorderBuffer : WindowedReorderBuffer
  outputQueue : List (List UInt8)

namespace BondingEngine

def create (streamId : Int32) (config : BondingConfig) : BondingEngine where
  config
  engineState := .stopped
  frameProcessor := .create streamId config.maxPayloadSize
  reorderBuffer := .create 0
  outputQueue := []

/-- Both transitions of `start` are allowed ones, so a started engine is `ACTIVE`. -/
def start (e : BondingEngine) : Except EngineException BondingEngine :=
  if e.engineState = .stopped then .ok { e with engineState := .active }
  else .error (.illegalState s!"BondingEngine already started (state={e.engineState.name})")

def send (clock : Nat → Int64) (data : List UInt8) (e : BondingEngine) :
    Except EngineException (List Frame × BondingEngine) :=
  if e.engineState = .active ∨ e.engineState = .degraded then
    let made := e.frameProcessor.createFrames clock data
    .ok (made.1, { e with frameProcessor := made.2 })
  else .error (.illegalState s!"Cannot send while engine state is {e.engineState.name}")

/-- `RECEIVE_BUFFER_SIZE` of `UdpPathAdapter`; a longer datagram is cut off. -/
def receiveBufferSize : Nat := 64 * 1024

/-- `UdpPathAdapter.receive` on a datagram: heartbeats stay inside the
adapter. Exceptions are swallowed by the receiver loop like `null`. -/
def adapterReceive (crc32 : List UInt8 → UInt32) (datagram : List UInt8) : Option Frame :=
  match BinaryFrameCodec.decode crc32 (datagram.take receiveBufferSize) with
  | .ok (some frame) =>
    if frame.header.type = .heartbeatAck ∨ frame.header.type = .heartbeat then none
    else some frame
  | _ => none

def receiverTurn (crc32 : List UInt8 → UInt32) (now : Int) (_path : PathId)
    (datagram : List UInt8) (e : BondingEngine) : BondingEngine :=
  match adapterReceive crc32 datagram with
  | none => e
  | some frame =>
    if FrameFlags.has frame.header.flags FrameFlags.control then e
    else { e with reorderBuffer := e.reorderBuffer.push e.config.reorderParams now frame }

/-- One turn of the reassembly loop. `resent` is what the recovery manager,
if there is one, re-injects when it is asked for the missing sequence. -/
def reassemblyTurn (now : Int) (resent : Option Frame) (e : BondingEngine) : BondingEngine :=
  let recovered := if e.config.recoveryEnabled then resent else none
  let read := e.reorderBuffer.readOrdered e.config.reorderParams now recovered
  { e with
    reorderBuffer := read.1
    outputQueue := e.outputQueue ++ read.2.map FrameProcessor.extractPayload }

def receive (e : BondingEngine) : Option (List UInt8) × BondingEngine :=
  match e.outputQueue with
  | [] => (none, e)
  | packet :: rest => (some packet, { e with outputQueue := rest })

end BondingEngine

/-- `SelectiveRecoveryManager.request` resends the cached frame with this flag set. -/
def Frame.asRecovered (f : Frame) : Frame :=
  { f with header := { f.header with flags := f.header.flags ||| FrameFlags.recovery } }

/-! ## A stream and its deliveries -/

namespace BondingEngine

def started (streamId : Int32) (config : BondingConfig) : BondingEngine :=
  { create streamId config with engineState := .active }

theorem start_create (streamId : Int32) (config : BondingConfig) :
    (create streamId config).start = .ok (started streamId config) := rfl

def sendAll : List ((Nat → Int64) × List UInt8) → BondingEngine →
    Except EngineException (List Frame × BondingEngine)
  | [], e => .ok ([], e)
  | (clock, data) :: rest, e => do
      let (frames, e') ← e.send clock data
      let (more, e'') ← sendAll rest e'
      return (frames ++ more, e'')

end BondingEngine

/-- What can happen at the receiving end of a stream of `n` frames: the
datagram of a frame arrives, or the reassembly loop takes a turn. -/
inductive Delivery (n : Nat) where
  | arrive (now : Int) (path : PathId) (index : Fin n)
  | poll (now : Int) (resent : Option (Fin n))

namespace Delivery

variable {n : Nat}

def time : Delivery n → Int
  | arrive now _ _ => now
  | poll now _ => now

def arrival? : Delivery n → Option (Fin n)
  | arrive _ _ index => some index
  | poll _ _ => none

end Delivery

namespace BondingEngine

variable (crc32 : List UInt8 → UInt32) (frames : List Frame)

def deliver (e : BondingEngine) : Delivery frames.length → BondingEngine
  | .arrive now path index =>
    match BinaryFrameCodec.encode crc32 (frames.get index) with
    | .ok datagram => e.receiverTurn crc32 now path datagram
    -- the sender loop fails the path instead of sending
    | .error _ => e
  | .poll now resent => e.reassemblyTurn now (resent.map fun index => (frames.get index).asRecovered)

def deliverAll (e : BondingEngine) (events : List (Delivery frames.length)) : BondingEngine :=
  Lib.exec (deliver crc32 frames) e events

end BondingEngine

end BigRocket.Bonding
