/-
`TcpRelayEngine` with its sessions and coroutines, cut where a thread can wait;
steps come in any order, and one whose coroutine is not at that point does
nothing. A `TcpSession` is known by the order of its creation and exists when no
map holds it. The traffic counters are left out.
-/
import BigRocket.Lib.History

namespace BigRocket.Relay

inductive IpProtocol where
  | icmp
  | tcp
  | udp
  | unknown
  deriving DecidableEq, Repr

structure SessionKey where
  protocol : IpProtocol
  sourceIp : String
  sourcePort : Nat
  destinationIp : String
  destinationPort : Nat
  deriving DecidableEq, Repr

namespace TcpFlag

def fin : Nat := 0x01
def syn : Nat := 0x02
def rst : Nat := 0x04
def psh : Nat := 0x08
def ack : Nat := 0x10

end TcpFlag

def maxTcpSegmentPayload : Nat := 1360
def tcpWriteQueueCapacity : Nat := 64
def defaultClientWindow : Int := 65535
def windowWaitStepMs : Nat := 20
def windowWaitMaxMs : Nat := 5000
def maxConcurrentTcpSessions : Nat := 200
def tcpIdleTimeoutMs : Int := 90000

/-- What `forwardTcpPacket` takes from a packet of the TUN device, with the
network the router chose for it. `tcpSeq` and `tcpAck` are the 32-bit fields. -/
structure ClientPacket where
  key : SessionKey
  tcpFlags : Nat
  tcpSeq : Int
  tcpAck : Int
  tcpWindow : Int
  data : List UInt8
  targetNetwork : Nat
  deriving DecidableEq, Repr

def ClientPacket.has (flag : Nat) (p : ClientPacket) : Bool := p.tcpFlags &&& flag != 0

/-- The arguments of `buildTcpResponsePacket`; the addresses are the flow's,
swapped. -/
structure TunPacket where
  key : SessionKey
  seqNumber : Int
  ackNumber : Int
  flags : Nat
  data : List UInt8
  deriving DecidableEq, Repr

structure PendingWrite where
  payload : List UInt8
  clientNextSeqAfter : Int
  deriving DecidableEq, Repr

/-! ## A session and its two coroutines -/

/-- Where `listenForTcpResponses` is: `sending` holds what is left of the
block read last and how long this chunk has waited for the window. -/
inductive ReaderState where
  | unlaunched
  | launched
  | reading
  | sending (block : List UInt8) (waitedMs : Nat)
  | finished
  deriving DecidableEq, Repr

/-- Where `runSocketWriter` is. A writer whose write failed ends with the
chunk it could not write. -/
inductive WriterState where
  | unlaunched
  | launched
  | idle
  | writing (pending : PendingWrite)
  | finished (failed : Option PendingWrite)
  deriving DecidableEq, Repr

/-- A `TcpSession` with its socket and where its coroutines are. `firstSeq` is the
number of the client's first byte; `accepted` and `written` are the chunks that
`writeChannel` and the socket took. -/
structure TcpSession where
  key : SessionKey
  network : Nat
  serverSeq : Int
  clientNextSeq : Int
  clientAckedSeq : Int
  clientWindow : Int
  lastActivityMs : Int
  writeChannel : List PendingWrite := []
  channelClosed : Bool := false
  socketClosed : Bool := false
  outputShutdown : Bool := false
  reader : ReaderState := .unlaunched
  readerCancelled : Bool := false
  writer : WriterState := .unlaunched
  writerCancelled : Bool := false
  firstSeq : Int
  accepted : List (List UInt8) := []
  written : List (List UInt8) := []
  deriving DecidableEq, Repr

/-- What one step of a reader or writer does: the session after it, the
packets for the TUN device, and whether the coroutine reaches its `finally`. -/
structure Turn where
  session : TcpSession
  packets : List TunPacket := []
  exits : Bool := false

inductive ReaderEvent where
  | starts
  | reads (block : List UInt8)
  | sends (now : Int)
  | endOfStream
  | fails
  deriving DecidableEq, Repr

inductive WriterEvent where
  | starts
  | takes
  | writes (now : Int)
  | fails
  | ends
  deriving DecidableEq, Repr

namespace TcpSession

def absent : TcpSession where
  key := ⟨.unknown, "", 0, "", 0⟩
  network := 0
  serverSeq := 0
  clientNextSeq := 0
  clientAckedSeq := 0
  clientWindow := 0
  lastActivityMs := 0
  channelClosed := true
  socketClosed := true
  firstSeq := 0

def response (flags : Nat) (data : List UInt8) (x : TcpSession) : TunPacket :=
  ⟨x.key, x.serverSeq, x.clientNextSeq, flags, data⟩

def ack (x : TcpSession) : TunPacket := x.response TcpFlag.ack []

/-- One turn of the loop of `writeChunkedRespectingWindow`: wait once more
for the window, give up, or send a chunk. -/
def writeChunkedRespectingWindow (now : Int) (block : List UInt8) (waitedMs : Nat)
    (x : TcpSession) : Turn :=
  let allowed := x.clientAckedSeq + x.clientWindow - x.serverSeq
  if allowed ≤ 0 then
    if waitedMs ≥ windowWaitMaxMs then
      { session := { x with reader := .finished }, exits := true }
    else { session := { x with reader := .sending block (waitedMs + windowWaitStepMs) } }
  else
    let chunkSize := min maxTcpSegmentPayload (min block.length allowed.toNat)
    let rest := block.drop chunkSize
    { session :=
        { x with
          serverSeq := x.serverSeq + chunkSize
          lastActivityMs := now
          reader := if rest.isEmpty then .reading else .sending rest 0 }
      packets := [x.response (TcpFlag.psh ||| TcpFlag.ack) (block.take chunkSize)] }

/-- A job cancelled before it is dispatched never enters its body, so its
`finally` does not run; `getInputStream` of a closed socket throws. -/
def listenForTcpResponses (x : TcpSession) : ReaderEvent → Turn
  | .starts =>
    if x.reader ≠ .launched then { session := x }
    else if x.readerCancelled then { session := { x with reader := .finished } }
    else if x.socketClosed then { session := { x with reader := .finished }, exits := true }
    else { session := { x with reader := .reading } }
  | .reads block =>
    if x.reader = .reading ∧ !x.socketClosed ∧ 0 < block.length ∧ block.length ≤ 16384 then
      { session := { x with reader := .sending block 0 } }
    else { session := x }
  | .sends now =>
    match x.reader with
    | .sending block waitedMs => x.writeChunkedRespectingWindow now block waitedMs
    | _ => { session := x }
  | .endOfStream =>
    if x.reader = .reading ∧ !x.socketClosed then
      { session := { x with serverSeq := x.serverSeq + 1, reader := .finished }
        packets := [x.response (TcpFlag.fin ||| TcpFlag.ack) []]
        exits := true }
    else { session := x }
  -- a read or a TUN write throws, the loop finds the socket closed, or the
  -- delay is cancelled
  | .fails =>
    match x.reader with
    | .reading | .sending _ _ => { session := { x with reader := .finished }, exits := true }
    | _ => { session := x }

def takesBytes (x : TcpSession) : Bool := !x.socketClosed && !x.outputShutdown

def runSocketWriter (x : TcpSession) : WriterEvent → Turn
  | .starts =>
    if x.writer ≠ .launched then { session := x }
    else if x.writerCancelled then { session := { x with writer := .finished none } }
    else if x.takesBytes then { session := { x with writer := .idle } }
    else { session := { x with writer := .finished none }, exits := true }
  | .takes =>
    match x.writer, x.writeChannel with
    | .idle, pending :: rest =>
      { session := { x with writer := .writing pending, writeChannel := rest } }
    | _, _ => { session := x }
  | .writes now =>
    match x.writer with
    | .writing pending =>
      if x.takesBytes then
        let y :=
          { x with
            writer := .idle
            clientNextSeq := pending.clientNextSeqAfter
            lastActivityMs := now
            written := x.written ++ [pending.payload] }
        { session := y, packets := [y.ack] }
      else { session := x }
    | _ => { session := x }
  | .fails =>
    match x.writer with
    | .writing pending =>
      { session := { x with writer := .finished (some pending) }, exits := true }
    | _ => { session := x }
  -- the channel is closed and drained, or its receive is cancelled
  | .ends =>
    if x.writer = .idle ∧ (x.writerCancelled ∨ x.channelClosed ∧ x.writeChannel = []) then
      { session := { x with writer := .finished none }, exits := true }
    else { session := x }

def heardFrom (now : Int) (p : ClientPacket) (x : TcpSession) : TcpSession :=
  { x with
    clientAckedSeq :=
      if p.has TcpFlag.ack ∧ p.tcpAck > x.clientAckedSeq then p.tcpAck else x.clientAckedSeq
    clientWindow := p.tcpWindow
    lastActivityMs := now }

def channelFull (x : TcpSession) : Bool :=
  x.channelClosed || x.writeChannel.length ≥ tcpWriteQueueCapacity

def enqueue (p : ClientPacket) (x : TcpSession) : TcpSession :=
  { x with
    writeChannel := x.writeChannel ++ [⟨p.data, p.tcpSeq + p.data.length⟩]
    accepted := x.accepted ++ [p.data] }

/-- The client's FIN: `shutdownOutput` of a closed socket throws, and the
exception is swallowed. -/
def finished (p : ClientPacket) (x : TcpSession) : TcpSession :=
  { x with
    clientNextSeq := p.tcpSeq + p.data.length + 1
    outputShutdown := x.outputShutdown || !x.socketClosed }

end TcpSession

/-! ## The engine -/

inductive OpenerPhase where
  | launched
  | connecting
  | stored (session : Nat) (serverIsn : Int)
  | done
  deriving DecidableEq, Repr

structure Opener where
  key : SessionKey
  synSeq : Int
  synWindow : Int
  targetNetwork : Nat
  phase : OpenerPhase
  deriving DecidableEq, Repr

abbrev SessionMap := AList (fun _ : SessionKey => Nat)

namespace SessionMap

def get (m : SessionMap) (key : SessionKey) : Option Nat := m.lookup key

def put (m : SessionMap) (key : SessionKey) (i : Nat) : SessionMap := AList.insert key i m

def remove (m : SessionMap) (key : SessionKey) : SessionMap := AList.erase key m

def holds (m : SessionMap) (i : Nat) : Bool := m.entries.any fun entry => entry.2 = i

end SessionMap

inductive UpstreamMode where
  | none
  | aether
  | xray
  deriving DecidableEq, Repr

/-- The engine's maps and settings, the session objects, the opening coroutines
and what was written to the TUN device. -/
structure TcpRelay where
  sessions : SessionMap
  socketJobs : SessionMap
  writerJobs : SessionMap
  upstreamMode : UpstreamMode
  reaperTun : Bool
  reaperRuns : Bool
  session : Nat → TcpSession
  created : Nat
  opener : Nat → Opener
  opened : Nat
  tun : List TunPacket

instance neZero_serverIsn : NeZero 0xFFFFFFF := ⟨by decide⟩

inductive OpenerEvent where
  | evicts (victim : SessionKey)
  | connects (now : Int) (serverIsn : Fin 0xFFFFFFF)
  | connectFails
  | launches
  | synAckFails
  deriving DecidableEq, Repr

inductive RelayEvent where
  | packet (now : Int) (p : ClientPacket)
  | opener (o : Nat) (e : OpenerEvent)
  | reader (i : Nat) (e : ReaderEvent)
  | writer (i : Nat) (e : WriterEvent)
  | reap (now : Int) (key : SessionKey)
  | networkLost (deadNetwork : Nat) (key : SessionKey)
  | setTunOutputStream (present : Bool)
  | setUpstreamMode (mode : UpstreamMode)
  | clear
  deriving DecidableEq, Repr

namespace TcpRelay

def create : TcpRelay where
  sessions := ∅
  socketJobs := ∅
  writerJobs := ∅
  upstreamMode := .none
  reaperTun := false
  reaperRuns := true
  session := fun _ => .absent
  created := 0
  opener := fun _ => ⟨TcpSession.absent.key, 0, 0, 0, .done⟩
  opened := 0
  tun := []

def set (i : Nat) (x : TcpSession) (r : TcpRelay) : TcpRelay :=
  { r with session := Function.update r.session i x }

def write (packets : List TunPacket) (r : TcpRelay) : TcpRelay :=
  { r with tun := r.tun ++ packets }

/-! ### Ending a session -/

def cancelReader (key : SessionKey) (r : TcpRelay) : TcpRelay :=
  match r.socketJobs.get key with
  | none => r
  | some i =>
    { r.set i { r.session i with readerCancelled := true } with
      socketJobs := r.socketJobs.remove key }

def cancelWriter (key : SessionKey) (r : TcpRelay) : TcpRelay :=
  match r.writerJobs.get key with
  | none => r
  | some i =>
    { r.set i { r.session i with writerCancelled := true } with
      writerJobs := r.writerJobs.remove key }

def removeSession (key : SessionKey) (r : TcpRelay) : TcpRelay :=
  match r.sessions.get key with
  | none => r
  | some i =>
    { r.set i { r.session i with channelClosed := true, socketClosed := true } with
      sessions := r.sessions.remove key }

def closeSession (key : SessionKey) (r : TcpRelay) : TcpRelay :=
  ((r.cancelReader key).cancelWriter key).removeSession key

def sendRst (i : Nat) (r : TcpRelay) : TcpRelay :=
  r.write [(r.session i).response (TcpFlag.rst ||| TcpFlag.ack) []]

/-! ### The TUN thread -/

def openSession (p : ClientPacket) (r : TcpRelay) : TcpRelay :=
  { r with
    opener :=
      Function.update r.opener r.opened ⟨p.key, p.tcpSeq, p.tcpWindow, p.targetNetwork, .launched⟩
    opened := r.opened + 1 }

def forwardDataToSocket (p : ClientPacket) (i : Nat) (r : TcpRelay) : TcpRelay :=
  if (r.session i).channelFull then r.closeSession p.key
  else r.set i ((r.session i).enqueue p)

def handleFin (p : ClientPacket) (i : Nat) (r : TcpRelay) : TcpRelay :=
  let x := (r.session i).finished p
  (r.set i x).write [x.ack]

def handleSegment (now : Int) (p : ClientPacket) (i : Nat) (r : TcpRelay) : TcpRelay :=
  let heard := r.set i ((r.session i).heardFrom now p)
  let forwarded := if 0 < p.data.length then heard.forwardDataToSocket p i else heard
  if p.has TcpFlag.fin then forwarded.handleFin p i else forwarded

def forwardTcpPacket (now : Int) (p : ClientPacket) (r : TcpRelay) : TcpRelay :=
  if p.has TcpFlag.rst then r.closeSession p.key
  else
    match r.sessions.get p.key with
    | none =>
      if p.has TcpFlag.syn && !p.has TcpFlag.ack then r.openSession p else r
    | some i => r.handleSegment now p i

/-! ### The coroutines -/

def setPhase (o : Nat) (phase : OpenerPhase) (r : TcpRelay) : TcpRelay :=
  { r with opener := Function.update r.opener o { r.opener o with phase } }

/-- `minByOrNull` may return any of the sessions that were idle longest. -/
def isLeastRecent (i : Nat) (r : TcpRelay) : Bool :=
  r.sessions.entries.all
    fun entry => (r.session i).lastActivityMs ≤ (r.session entry.2).lastActivityMs

/-- `none` when `victim` is not what `minByOrNull` can return. -/
def evictLruSessionIfAtCapacity (victim : SessionKey) (r : TcpRelay) : Option TcpRelay :=
  if r.sessions.entries.length < maxConcurrentTcpSessions then some r
  else
    match r.sessions.get victim with
    | none => none
    | some i =>
      if r.isLeastRecent i then some ((r.sendRst i).closeSession victim) else none

def newSession (now serverIsn : Int) (opener : Opener) : TcpSession where
  key := opener.key
  network := opener.targetNetwork
  serverSeq := serverIsn + 1
  clientNextSeq := opener.synSeq + 1
  clientAckedSeq := serverIsn + 1
  clientWindow := if opener.synWindow > 0 then opener.synWindow else defaultClientWindow
  lastActivityMs := now
  firstSeq := opener.synSeq + 1

/-- The `catch` of `openSession`: whatever is stored under the key goes. -/
def openFailed (o : Nat) (r : TcpRelay) : TcpRelay :=
  let opener := r.opener o
  let rst : TunPacket := ⟨opener.key, 0, opener.synSeq + 1, TcpFlag.rst ||| TcpFlag.ack, []⟩
  { (r.write [rst]).setPhase o .done with sessions := r.sessions.remove opener.key }

def openerStep (o : Nat) (r : TcpRelay) : OpenerEvent → TcpRelay
  | .evicts victim =>
    if (r.opener o).phase = .launched then
      match r.evictLruSessionIfAtCapacity victim with
      | none => r
      | some evicted => evicted.setPhase o .connecting
    else r
  | .connects now serverIsn =>
    let opener := r.opener o
    if opener.phase = .connecting then
      { (r.set r.created (newSession now serverIsn.val opener)).setPhase o
          (.stored r.created serverIsn.val) with
        created := r.created + 1
        sessions := r.sessions.put opener.key r.created }
    else r
  | .connectFails =>
    if (r.opener o).phase = .connecting then r.openFailed o else r
  | .launches =>
    match (r.opener o).phase with
    | .stored i serverIsn =>
      let x := r.session i
      let synAck : TunPacket :=
        ⟨x.key, serverIsn, x.clientNextSeq, TcpFlag.syn ||| TcpFlag.ack, []⟩
      { ((r.write [synAck]).set i { x with reader := .launched, writer := .launched }).setPhase
          o .done with
        socketJobs := r.socketJobs.put x.key i
        writerJobs := r.writerJobs.put x.key i }
    | _ => r
  | .synAckFails =>
    match (r.opener o).phase with
    | .stored i _ => (r.set i { r.session i with socketClosed := true }).openFailed o
    | _ => r

def coroutineStep (i : Nat) (turn : Turn) (r : TcpRelay) : TcpRelay :=
  let after := (r.set i turn.session).write turn.packets
  if turn.exits then after.closeSession (r.session i).key else after

/-! ### The reaper, a lost network, and the end of everything -/

/-- The session stored at the key is ended if it meets the condition, with
or without a RST for its client. -/
def resetIf (notify : Bool) (cond : TcpSession → Bool) (key : SessionKey) (r : TcpRelay) :
    TcpRelay :=
  match r.sessions.get key with
  | none => r
  | some i =>
    if cond (r.session i) then
      if notify then (r.sendRst i).closeSession key else r.closeSession key
    else r

def reap (now : Int) (key : SessionKey) (r : TcpRelay) : TcpRelay :=
  if r.reaperRuns then
    r.resetIf r.reaperTun
      (fun x => x.socketClosed || now - x.lastActivityMs ≥ tcpIdleTimeoutMs) key
  else r

def handleNetworkLost (deadNetwork : Nat) (key : SessionKey) (r : TcpRelay) : TcpRelay :=
  r.resetIf true (fun x => x.network = deadNetwork) key

def endAll (closeChannels : Bool) (r : TcpRelay) : TcpRelay :=
  { r with
    sessions := ∅
    socketJobs := ∅
    writerJobs := ∅
    session := fun i =>
      let x := r.session i
      { x with
        readerCancelled := x.readerCancelled || r.socketJobs.holds i
        writerCancelled := x.writerCancelled || r.writerJobs.holds i
        channelClosed := x.channelClosed || closeChannels && r.sessions.holds i
        socketClosed := x.socketClosed || r.sessions.holds i } }

def setUpstreamMode (mode : UpstreamMode) (r : TcpRelay) : TcpRelay :=
  if r.upstreamMode = mode then r else { r.endAll false with upstreamMode := mode }

def clear (r : TcpRelay) : TcpRelay := { r.endAll true with reaperRuns := false }

def step (r : TcpRelay) : RelayEvent → TcpRelay
  | .packet now p => r.forwardTcpPacket now p
  | .opener o e => r.openerStep o e
  | .reader i e => r.coroutineStep i ((r.session i).listenForTcpResponses e)
  | .writer i e => r.coroutineStep i ((r.session i).runSocketWriter e)
  | .reap now key => r.reap now key
  | .networkLost deadNetwork key => r.handleNetworkLost deadNetwork key
  | .setTunOutputStream present => { r with reaperTun := present }
  | .setUpstreamMode mode => r.setUpstreamMode mode
  | .clear => r.clear

def run (events : List RelayEvent) : TcpRelay := Lib.exec step create events

end TcpRelay

end BigRocket.Relay
