/-
The user-space network stack of the tunnel. What `run` does in a loop and the
applications' own moves are steps here, in any order. Of UDP sockets the ports
and channel ends are kept; the packets between smoltcp and the tunnel are left
out.
-/
import BigRocket.Lib.History
import BigRocket.Netstack.Backlog

namespace BigRocket.Netstack

open Lib Net

def maxBacklogBytes : Nat := 512 * 1024

structure UdpState where
  localPort : Nat
  allocation : Nat
  appGone : Bool := false
  deriving DecidableEq, Repr

/-- `allocations` counts the calls of `alloc_port`; `ended` keeps each flow
as it was when `service_tcp` removed it. -/
structure NetStack where
  tuning : Tuning
  limits : TcpLimits
  tcpConns : Nat → Option TcpState := fun _ => none
  udpConns : Nat → Option UdpState := fun _ => none
  nextId : Nat := 1
  nextPort : Nat := 49152
  allocations : Nat := 0
  ended : Nat → Option TcpState := fun _ => none

namespace NetStack

def setTcp (id : Nat) (x : TcpState) (s : NetStack) : NetStack :=
  { s with tcpConns := Function.update s.tcpConns id (some x) }

def allocPort (s : NetStack) : NetStack :=
  { s with
    nextPort := if s.nextPort ≥ 65000 then 49152 else s.nextPort + 1
    allocations := s.allocations + 1 }

/-- `handle_cmd` of an `OpenTcp`; `refusal` is the error of the socket's
`connect`. The second component is the answer at once. -/
def openTcp (now : Nat) (dst : SocketAddr) (carrier : Bool) (refusal : Option String)
    (s : NetStack) : NetStack × Option String :=
  let t := s.allocPort
  match refusal with
  | some e => (t, some ("connect: " ++ e))
  | none =>
    let flow : TcpState :=
      .opened s.tuning s.limits now s.nextPort dst s.allocations carrier
    ({ t.setTcp s.nextId flow with nextId := s.nextId + 1 }, none)

def openUdp (refusal : Option String) (s : NetStack) : NetStack × (Nat ⊕ String) :=
  let t := s.allocPort
  match refusal with
  | some e => (t, .inr ("bind: " ++ e))
  | none =>
    ({ t with
        udpConns := Function.update s.udpConns s.nextId (some ⟨s.nextPort, s.allocations, false⟩)
        nextId := s.nextId + 1 },
      .inl s.nextId)

def onTcp (id : Nat) (f : TcpState → TcpState) (s : NetStack) : NetStack :=
  match s.tcpConns id with
  | some x => s.setTcp id (f x)
  | none => s

def tryHandleData (s : NetStack) : DataIn → NetStack × Option DataIn
  | .tcp id data =>
    match s.tcpConns id with
    | none => (s, none)
    | some x =>
      let max := maxTcpPending s.tuning
      if x.pending.length ≥ max then (s, some (.tcp id data))
      else
        let space := max - x.pending.length
        if data.length ≤ space then (s.setTcp id (x.extend data.bytes), none)
        else
          (s.setTcp id (x.extend (data.bytes.take space)), some (.tcp id (data.drop space)))
  | .tcpClose id => (s.onTcp id TcpState.closeByApp, none)
  | .udp _ _ _ => (s, none)
  | .udpClose id => ({ s with udpConns := Function.update s.udpConns id none }, none)

def ingest (w : NetStack × Backlog) (d : DataIn) : NetStack × Backlog :=
  if w.2.holds (dataInId d) then (w.1, w.2.push d)
  else
    match w.1.tryHandleData d with
    | (s, some back) => (s, w.2.push back)
    | (s, none) => (s, w.2)

/-- One turn of the loop of `drain_backlog`; `w.2` has what was kept so far
with its blocked ids and its bytes. -/
def drainNext (w : NetStack × Backlog) (d : DataIn) : NetStack × Backlog :=
  let id := dataInId d
  if id ∈ w.2.blocked then
    (w.1,
      { w.2 with
        queue := w.2.queue ++ [d]
        bytes := min (w.2.bytes + dataInBytes d) (usizeLimit - 1) })
  else
    match w.1.tryHandleData d with
    | (s, some back) =>
      (s,
        { queue := w.2.queue ++ [back]
          blocked := insert id w.2.blocked
          bytes := min (w.2.bytes + dataInBytes back) (usizeLimit - 1) })
    | (s, none) => (s, w.2)

def drainBacklog (w : NetStack × Backlog) : NetStack × Backlog :=
  w.2.queue.foldl drainNext (w.1, {})

def serviced (now rate : Nat) (x : TcpState) (s : NetStack) : TcpState × Bool :=
  x.service s.tuning s.limits now rate

def serviceTcp (now : Nat) (rate : Nat → Nat) (s : NetStack) : NetStack :=
  { s with
    tcpConns := fun id =>
      match s.tcpConns id with
      | some x => if (s.serviced now (rate id) x).2 then none else some (s.serviced now (rate id) x).1
      | none => none
    ended := fun id =>
      match s.tcpConns id with
      | some x =>
        if (s.serviced now (rate id) x).2 then some (s.serviced now (rate id) x).1 else s.ended id
      | none => s.ended id }

def serviceUdp (s : NetStack) : NetStack :=
  { s with udpConns := fun id => (s.udpConns id).filter fun x => !x.appGone }

/-! ## Reaping -/

def stalled (now : Nat) (s : NetStack) (id : Nat) : Bool :=
  match s.tcpConns id with
  | some x => !x.carrier ∧ 0 < x.sendQueueHigh ∧ now - x.lastDrain ≥ tcpDrainStallTimeout
  | none => false

def wedged (now : Nat) (s : NetStack) (id : Nat) : Bool :=
  match s.tcpConns id with
  | some x => !x.carrier ∧ now - x.lastProgress ≥ tcpWedgeTimeout
  | none => true

def resetFlow (w : NetStack × Backlog) (id : Nat) : NetStack × Backlog :=
  (w.1.onTcp id TcpState.resetDead, w.2.purge id)

def reapStalled (now : Nat) (w : NetStack × Backlog) : NetStack × Backlog :=
  ((List.range w.1.nextId).filter (w.1.stalled now)).foldl resetFlow w

def reapBlocked (now : Nat) (w : NetStack × Backlog) : NetStack × Backlog :=
  ((w.2.blocked.sort (· ≤ ·)).filter (w.1.wedged now)).foldl resetFlow w

def reapWedged (now : Nat) (w : NetStack × Backlog) : NetStack × Backlog :=
  reapBlocked now (reapStalled now w)

end NetStack

/-! ## The loop and what goes on around it -/

inductive StackEvent where
  | openTcp (now : Nat) (dst : SocketAddr) (carrier : Bool) (refusal : Option String)
  | openUdp (refusal : Option String)
  | callerGone (id : Nat)
  | reserve (id : Nat) (data : Chunk) (expired : Bool)
  | enqueue (index : Nat)
  | sendClose (id : Nat)
  | sendUdp (id : Nat) (dst : SocketAddr) (data : Chunk)
  | sendUdpClose (id : Nat)
  | appReads (id : Nat)
  | appGone (id : Nat)
  | udpAppGone (id : Nat)
  | poll (id : Nat) (segment : Segment)
  | serviceTcp (now : Nat) (rate : Nat → Nat)
  | serviceUdp
  | drainBacklog
  | drainAppData (budget : Nat)
  | reapWedged (now : Nat)

/-- The stack with the loop's backlog and data channel. `waiting` are messages
with their credit and no place in the channel yet; `sent` is all that the channel
ever took. -/
structure StackLoop where
  stack : NetStack
  backlog : Backlog := {}
  dataIn : List DataIn := []
  waiting : List DataIn := []
  sent : List DataIn := []

namespace StackLoop

def create (tuning : Tuning) (limits : TcpLimits) : StackLoop :=
  { stack := { tuning, limits } }

def withStack (f : NetStack → NetStack) (l : StackLoop) : StackLoop :=
  { l with stack := f l.stack }

def withBacklog (f : NetStack × Backlog → NetStack × Backlog) (l : StackLoop) : StackLoop :=
  { l with stack := (f (l.stack, l.backlog)).1, backlog := (f (l.stack, l.backlog)).2 }

def hasPlace (l : StackLoop) : Bool := l.dataIn.length < l.stack.tuning.channelCapacity

def send (d : DataIn) (l : StackLoop) : StackLoop :=
  if dataInId d < l.stack.nextId ∧ l.hasPlace then
    { l with dataIn := l.dataIn ++ [d], sent := l.sent ++ [d] }
  else l

/-- `TcpConn::send` up to the channel. The credit of a flow that is gone is
closed and lets everything pass. -/
def reserve (id : Nat) (data : Chunk) (expired : Bool) (l : StackLoop) : StackLoop :=
  if id < l.stack.nextId then
    match l.stack.tcpConns id with
    | some x =>
      if x.credit.admits data.length expired then
        { l with
          stack := l.stack.setTcp id { x with credit := x.credit.reserve data.length }
          waiting := l.waiting ++ [.tcp id data] }
      else l
    | none => { l with waiting := l.waiting ++ [.tcp id data] }
  else l

def enqueue (index : Nat) (l : StackLoop) : StackLoop :=
  match l.waiting[index]? with
  | some d =>
    if l.hasPlace then
      { l with
        waiting := l.waiting.eraseIdx index
        dataIn := l.dataIn ++ [d]
        sent := l.sent ++ [d] }
    else l
  | none => l

def drainAppData : Nat → StackLoop → StackLoop
  | 0, l => l
  | budget + 1, l =>
    if l.backlog.bytes < maxBacklogBytes then
      match l.dataIn with
      | [] => l
      | d :: rest =>
        drainAppData budget ({ l with dataIn := rest }.withBacklog (NetStack.ingest · d))
    else l

def step (l : StackLoop) : StackEvent → StackLoop
  | .openTcp now dst carrier refusal => l.withStack fun s => (s.openTcp now dst carrier refusal).1
  | .openUdp refusal => l.withStack fun s => (s.openUdp refusal).1
  | .callerGone id => l.withStack (NetStack.onTcp id TcpState.callerGone)
  | .reserve id data expired => l.reserve id data expired
  | .enqueue index => l.enqueue index
  | .sendClose id => l.send (.tcpClose id)
  | .sendUdp id dst data => l.send (.udp id dst data)
  | .sendUdpClose id => l.send (.udpClose id)
  | .appReads id => l.withStack (NetStack.onTcp id TcpState.appReads)
  | .appGone id => l.withStack (NetStack.onTcp id TcpState.appGone)
  | .udpAppGone id =>
    l.withStack fun s =>
      { s with
        udpConns := fun i =>
          if i = id then (s.udpConns i).map ({ · with appGone := true }) else s.udpConns i }
  | .poll id segment => l.withStack (NetStack.onTcp id (TcpState.poll segment))
  | .serviceTcp now rate => l.withStack (NetStack.serviceTcp now rate)
  | .serviceUdp => l.withStack NetStack.serviceUdp
  | .drainBacklog => l.withBacklog NetStack.drainBacklog
  | .drainAppData budget => l.drainAppData budget
  | .reapWedged now => l.withBacklog (NetStack.reapWedged now)

def run (tuning : Tuning) (limits : TcpLimits) (events : List StackEvent) : StackLoop :=
  exec step (create tuning limits) events

end StackLoop

end BigRocket.Netstack
