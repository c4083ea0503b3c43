/-
One TCP flow of the netstack and what one pass of `service_tcp` does to it, with
one clock reading in nanoseconds. The floating-point drain rate only sizes the
credit: the budget it gives is an input. The telemetry is left out.
-/
import BigRocket.Net.Address
import BigRocket.Netstack.TcpSocket

namespace BigRocket.Netstack

open Net

def seconds (n : Nat) : Nat := n * 1000000000

def maxRecvChunks : Nat := 128
def tcpWedgeTimeout : Nat := seconds 30
def tcpDrainStallTimeout : Nat := seconds 8
def tcpDrainStallWarn : Nat := seconds 3
def minFlowQueueBytes : Nat := 48 * 1024
def stallFlapWindow : Nat := seconds 60
def stallFlapLimit : Nat := 2
def orphanLinger : Nat := seconds 10

structure TcpLimits where
  connect : Nat
  orphanLinger : Nat
  deriving DecidableEq, Repr

structure Tuning where
  tcpTxBuf : Nat
  tcpRxBuf : Nat
  channelCapacity : Nat
  deriving DecidableEq, Repr

def Tuning.low : Tuning := ⟨64 * 1024, 64 * 1024, 128⟩

def maxTcpPending (tuning : Tuning) : Nat := max (tuning.tcpTxBuf * 2) (64 * 1024)

/-! ## Admission credit -/

structure FlowCredit where
  sent : Nat := 0
  acked : Nat := 0
  cap : Nat := minFlowQueueBytes
  closed : Bool := false
  deriving DecidableEq, Repr

namespace FlowCredit

def outstanding (c : FlowCredit) : Nat := c.sent - c.acked

def publish (acked cap : Nat) (c : FlowCredit) : FlowCredit :=
  { c with
    acked := if acked > c.acked then acked else c.acked
    cap := max cap minFlowQueueBytes }

def close (c : FlowCredit) : FlowCredit := { c with closed := true }

def admits (len : Nat) (expired : Bool) (c : FlowCredit) : Bool :=
  c.closed ∨ c.outstanding = 0 ∨ c.outstanding + len ≤ c.cap ∨ expired

def reserve (len : Nat) (c : FlowCredit) : FlowCredit := { c with sent := c.sent + len }

end FlowCredit

/-! ## The channel to the application -/

structure AppChannel where
  capacity : Nat
  queue : List Piece := []
  closed : Bool := false
  handed : List UInt8 := []
  deriving DecidableEq, Repr

namespace AppChannel

def full (c : AppChannel) : Bool := c.capacity ≤ c.queue.length

def push (piece : Piece) (c : AppChannel) : AppChannel :=
  { c with queue := c.queue ++ [piece], handed := c.handed ++ piece.bytes }

def pop (c : AppChannel) : AppChannel := { c with queue := c.queue.drop 1 }

def close (c : AppChannel) : AppChannel := { c with closed := true, queue := [] }

end AppChannel

/-! ## A flow -/

inductive ConnectResp where
  | waiting
  | abandoned
  | connected
  | failed (message : String)
  deriving DecidableEq, Repr

/-- What the messages of an application did to its flow: a byte went into
`pending`, or `half_closed` was set. -/
inductive Token where
  | byte (b : UInt8)
  | close
  deriving DecidableEq, Repr

def tokenBytes (tokens : List Token) : List UInt8 :=
  tokens.filterMap fun
    | .byte b => some b
    | .close => none

@[simp] theorem tokenBytes_nil : tokenBytes [] = [] := rfl

@[simp] theorem tokenBytes_append (front back : List Token) :
    tokenBytes (front ++ back) = tokenBytes front ++ tokenBytes back := by
  simp [tokenBytes]

@[simp] theorem tokenBytes_map_byte (bytes : List UInt8) :
    tokenBytes (bytes.map .byte) = bytes := by
  simp [tokenBytes, List.filterMap_map]

@[simp] theorem tokenBytes_close : tokenBytes [.close] = [] := rfl

/-- One call of `close()` on the socket, with what was pending, what had been
moved there and what the socket had taken. -/
structure Closing where
  state : SocketState
  appAlive : Bool
  pending : List UInt8
  moved : List UInt8
  given : List UInt8
  deriving DecidableEq, Repr

/-- `allocation` counts the `alloc_port` calls before its own; `applied` and
`closings` are the flow's history. -/
structure TcpState where
  socket : TcpSocket
  localPort : Nat
  remote : SocketAddr
  allocation : Nat
  toApp : AppChannel
  connectResp : ConnectResp := .waiting
  pending : List UInt8 := []
  established : Bool := false
  halfClosed : Bool := false
  connectDeadline : Nat
  orphanedAt : Option Nat := none
  aborted : Bool := false
  carrier : Bool
  lastProgress : Nat
  sendQueueHigh : Nat := 0
  acceptedTotal : Nat := 0
  ackedHigh : Nat := 0
  lastDrain : Nat
  drainWarned : Bool := false
  credit : FlowCredit := {}
  uplinkBudget : Nat := minFlowQueueBytes
  stallCount : Nat := 0
  stallMark : Nat
  applied : List Token := []
  closings : List Closing := []
  deriving DecidableEq, Repr

namespace TcpState

def opened (tuning : Tuning) (limits : TcpLimits) (now : Nat) (localPort : Nat)
    (remote : SocketAddr) (allocation : Nat) (carrier : Bool) : TcpState where
  socket := .connecting tuning.tcpTxBuf tuning.tcpRxBuf
  localPort
  remote
  allocation
  toApp := { capacity := tuning.channelCapacity }
  connectDeadline := now + limits.connect
  carrier
  lastProgress := now
  lastDrain := now
  stallMark := now

/-! ### What happens to a flow between the passes -/

def extend (data : List UInt8) (x : TcpState) : TcpState :=
  { x with pending := x.pending ++ data, applied := x.applied ++ data.map .byte }

def closeByApp (x : TcpState) : TcpState :=
  { x with halfClosed := true, applied := x.applied ++ [.close] }

def callerGone (x : TcpState) : TcpState :=
  if x.connectResp = .waiting then { x with connectResp := .abandoned } else x

def appReads (x : TcpState) : TcpState :=
  if x.connectResp = .connected then { x with toApp := x.toApp.pop } else x

def appGone (x : TcpState) : TcpState :=
  if x.connectResp = .connected then { x with toApp := x.toApp.close } else x

def poll (segment : Segment) (x : TcpState) : TcpState :=
  { x with socket := x.socket.poll segment }

def resetDead (x : TcpState) : TcpState :=
  { x with pending := [], credit := x.credit.close, socket := x.socket.abort }

/-! ### The pass of `service_tcp` -/

def closeSocket (x : TcpState) : TcpState :=
  { x with
    socket := x.socket.close
    closings := x.closings ++
      [⟨x.socket.state, !x.toApp.closed, x.pending, tokenBytes x.applied, x.socket.given⟩] }

def abortSocket (x : TcpState) : TcpState := { x with socket := x.socket.abort }

/-- A `TcpConn` that no caller waits for is dropped with its receiver. -/
def markEstablished (x : TcpState) : TcpState :=
  if !x.established ∧ (x.socket.state = .established ∨ x.socket.state = .closeWait) then
    match x.connectResp with
    | .waiting => { x with established := true, connectResp := .connected }
    | _ => { x with established := true, toApp := x.toApp.close }
  else x

def refuse (message : String) (x : TcpState) : TcpState :=
  { x with
    connectResp := if x.connectResp = .waiting then .failed message else x.connectResp
    credit := x.credit.close }

def sendPending (now : Nat) (x : TcpState) : TcpState :=
  if x.pending = [] then { x with lastProgress := now }
  else if x.socket.canSend then
    let sent := (x.socket.sendSlice x.pending).1
    let socket := (x.socket.sendSlice x.pending).2
    if 0 < sent then
      { x with
        socket
        lastProgress := now
        acceptedTotal := x.acceptedTotal + sent
        pending := x.pending.drop sent }
    else { x with socket }
  else x

/-- Whether the far end still takes what the socket sends. The second
component is `flap_reset`. -/
def checkDrain (now : Nat) (x : TcpState) : TcpState × Bool :=
  let queued := x.socket.sendQueue
  let acked := x.acceptedTotal - queued
  if queued = 0 ∨ acked > x.ackedHigh then
    ({ x with lastDrain := now, ackedHigh := acked, drainWarned := false }, false)
  else if !x.drainWarned ∧ now - x.lastDrain ≥ tcpDrainStallWarn then
    let stallCount := (if now - x.stallMark ≥ stallFlapWindow then 0 else x.stallCount) + 1
    ({ x with drainWarned := true, stallMark := now, stallCount },
      stallCount ≥ stallFlapLimit ∧ !x.carrier)
  else (x, false)

def publishCredit (tuning : Tuning) (rate : Nat) (x : TcpState) : TcpState :=
  let queued := x.socket.sendQueue
  let acked := x.acceptedTotal - queued
  let ceiling := max tuning.tcpTxBuf minFlowQueueBytes
  let budget := max minFlowQueueBytes (min rate ceiling)
  { x with
    sendQueueHigh := queued
    uplinkBudget := budget
    credit := x.credit.publish acked budget }

def resetFlapping (x : TcpState) : TcpState :=
  { x with
    pending := []
    stallCount := 0
    drainWarned := false
    credit := x.credit.close
    socket := x.socket.abort }

def closeHalf (x : TcpState) : TcpState :=
  if x.halfClosed ∧ x.pending = [] then x.closeSocket else x

def deliver : Nat → TcpState → TcpState
  | 0, x => x
  | turns + 1, x =>
    if x.toApp.closed then x
    else if x.toApp.full then x
    else match x.socket.rxBuffer with
      | [] => x
      | piece :: rest =>
        deliver turns
          { x with
            toApp := x.toApp.push piece
            socket := { x.socket with rxBuffer := rest } }

/-- The shutdown of a flow whose application is gone. The second component
says that the flow was reset and waits for the next pass. -/
def orphan (limits : TcpLimits) (now : Nat) (x : TcpState) : TcpState × Bool :=
  let orphanedAt := x.orphanedAt.getD now
  let y := { x with orphanedAt := some orphanedAt }
  if y.socket.canRecv ∨ now - orphanedAt ≥ limits.orphanLinger then
    let z := if y.socket.state ≠ .closed then y.abortSocket else y
    ({ z with aborted := true }, true)
  else (y.closeSocket, false)

/-- The end of the pass over a flow. The second component says that the
flow is removed with its socket. -/
def finish (x : TcpState) : TcpState × Bool :=
  match x.socket.state with
  | .closeWait => (x.closeSocket, false)
  | .timeWait => ({ x with pending := [], credit := x.credit.close }, true)
  | .closed => ({ x with credit := x.credit.close }, true)
  | _ => (x, false)

def uplink (tuning : Tuning) (now rate : Nat) (x : TcpState) : TcpState :=
  let checked := (x.sendPending now).checkDrain now
  let y := checked.1.publishCredit tuning rate
  if checked.2 then y.resetFlapping else y

def serviceEstablished (tuning : Tuning) (limits : TcpLimits) (now rate : Nat) (x : TcpState) :
    TcpState × Bool :=
  let y := (x.uplink tuning now rate).closeHalf.deliver maxRecvChunks
  if y.toApp.closed then
    if (y.orphan limits now).2 then ((y.orphan limits now).1, false)
    else (y.orphan limits now).1.finish
  else y.finish

def service (tuning : Tuning) (limits : TcpLimits) (now rate : Nat) (x : TcpState) :
    TcpState × Bool :=
  if x.aborted then ({ x with credit := x.credit.close }, true)
  else
    let y := x.markEstablished
    if !y.established ∧ (y.socket.state = .closed ∨ y.socket.state = .timeWait) then
      (y.refuse "connection refused", true)
    else if !y.established then
      if y.connectResp = .abandoned ∨ now ≥ y.connectDeadline then
        (y.refuse "connection timed out", true)
      else (y, false)
    else y.serviceEstablished tuning limits now rate

end TcpState

end BigRocket.Netstack
