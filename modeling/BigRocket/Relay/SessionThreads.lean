/-
The threads that work on one session, cut at every access to `clientNextSeq` and
every write to the TUN device: a packet carries the number of the moment it is
built, and another thread may write first. A TUN write may throw; `sendAck` and
`sendRst` then go on. A thread that finds no room in the channel closes the
session, which is `ends`.
-/
import BigRocket.Relay.TcpRelay

namespace BigRocket.Relay

inductive FinStage where
  | idle
  | assigned
  | built (packet : TunPacket)
  | acknowledged
  deriving DecidableEq, Repr

/-- Where the writer is in the body of its loop; `inLoop` is anywhere else,
which its `WriterState` tells. -/
inductive WriterStage where
  | inLoop
  | wrote (pending : PendingWrite)
  | assigned
  | built (packet : TunPacket)
  deriving DecidableEq, Repr

/-- One session with its threads. `waiting` are the packets that other threads
have built and not written, `tun` those written for the session, in order. -/
structure SessionThreads where
  session : TcpSession
  fin : FinStage := .idle
  writer : WriterStage := .inLoop
  waiting : List TunPacket := []
  tun : List TunPacket := []
  deriving DecidableEq, Repr

/-- What a thread does next. `succeeds` says whether the TUN write returns. -/
inductive ThreadEvent where
  | hears (now : Int) (p : ClientPacket)
  | queues (p : ClientPacket)
  | finAssigns (p : ClientPacket)
  | finBuilds
  | finSends (succeeds : Bool)
  | finShutsOutput
  | writerTurn (e : WriterEvent)
  | writerWrites
  | writerAssigns (now : Int)
  | writerBuilds
  | writerSends (succeeds : Bool)
  | readerTurn (e : ReaderEvent)
  | builds (seqNumber : Int) (flags : Nat) (data : List UInt8)
  | buildsOpeningRst
  | sends (n : Nat) (succeeds : Bool)
  | launches
  | ends (readerCancelled writerCancelled channelClosed socketClosed : Bool)
  deriving DecidableEq, Repr

namespace SessionThreads

def emit (packet : TunPacket) (succeeds : Bool) (t : SessionThreads) : SessionThreads :=
  if succeeds then { t with tun := t.tun ++ [packet] } else t

def finAssigns (p : ClientPacket) (t : SessionThreads) : SessionThreads :=
  match t.fin with
  | .idle =>
    { t with
      session := { t.session with clientNextSeq := p.tcpSeq + p.data.length + 1 }
      fin := .assigned }
  | _ => t

def finBuilds (t : SessionThreads) : SessionThreads :=
  match t.fin with
  | .assigned => { t with fin := .built t.session.ack }
  | _ => t

def finSends (succeeds : Bool) (t : SessionThreads) : SessionThreads :=
  match t.fin with
  | .built packet => { t.emit packet succeeds with fin := .acknowledged }
  | _ => t

def finShutsOutput (t : SessionThreads) : SessionThreads :=
  match t.fin with
  | .acknowledged =>
    { t with
      session :=
        { t.session with outputShutdown := t.session.outputShutdown || !t.session.socketClosed }
      fin := .idle }
  | _ => t

def writerTurn (e : WriterEvent) (t : SessionThreads) : SessionThreads :=
  match t.writer, e with
  | .inLoop, .starts | .inLoop, .takes | .inLoop, .fails | .inLoop, .ends =>
    { t with session := (t.session.runSocketWriter e).session }
  | _, _ => t

def writerWrites (t : SessionThreads) : SessionThreads :=
  match t.writer, t.session.writer with
  | .inLoop, .writing pending =>
    if t.session.takesBytes then
      { t with
        session := { t.session with written := t.session.written ++ [pending.payload] }
        writer := .wrote pending }
    else t
  | _, _ => t

def writerAssigns (now : Int) (t : SessionThreads) : SessionThreads :=
  match t.writer with
  | .wrote pending =>
    { t with
      session :=
        { t.session with clientNextSeq := pending.clientNextSeqAfter, lastActivityMs := now }
      writer := .assigned }
  | _ => t

def writerBuilds (t : SessionThreads) : SessionThreads :=
  match t.writer with
  | .assigned => { t with writer := .built t.session.ack }
  | _ => t

def writerSends (succeeds : Bool) (t : SessionThreads) : SessionThreads :=
  match t.writer with
  | .built packet =>
    { t.emit packet succeeds with
      session := { t.session with writer := .idle }
      writer := .inLoop }
  | _ => t

def builds (packets : List TunPacket) (t : SessionThreads) : SessionThreads :=
  { t with waiting := t.waiting ++ packets }

def openingRst (t : SessionThreads) : TunPacket :=
  ⟨t.session.key, 0, t.session.firstSeq, TcpFlag.rst ||| TcpFlag.ack, []⟩

def sends (n : Nat) (succeeds : Bool) (t : SessionThreads) : SessionThreads :=
  match t.waiting[n]? with
  | none => t
  | some packet => { t.emit packet succeeds with waiting := t.waiting.eraseIdx n }

/-- The TUN thread handles one packet after the other, so while it is in the
branch for a FIN it hears and queues nothing. -/
def step (t : SessionThreads) : ThreadEvent → SessionThreads
  | .hears now p =>
    if t.fin = .idle then { t with session := t.session.heardFrom now p } else t
  | .queues p => if t.fin = .idle then { t with session := t.session.enqueue p } else t
  | .finAssigns p => t.finAssigns p
  | .finBuilds => t.finBuilds
  | .finSends succeeds => t.finSends succeeds
  | .finShutsOutput => t.finShutsOutput
  | .writerTurn e => t.writerTurn e
  | .writerWrites => t.writerWrites
  | .writerAssigns now => t.writerAssigns now
  | .writerBuilds => t.writerBuilds
  | .writerSends succeeds => t.writerSends succeeds
  | .readerTurn e =>
    { t.builds (t.session.listenForTcpResponses e).packets with
      session := (t.session.listenForTcpResponses e).session }
  | .builds seqNumber flags data =>
    t.builds [⟨t.session.key, seqNumber, t.session.clientNextSeq, flags, data⟩]
  | .buildsOpeningRst => t.builds [t.openingRst]
  | .sends n succeeds => t.sends n succeeds
  | .launches =>
    if t.session.reader = .unlaunched ∧ t.session.writer = .unlaunched then
      { t with session := { t.session with reader := .launched, writer := .launched } }
    else t
  | .ends readerCancelled writerCancelled channelClosed socketClosed =>
    { t with
      session :=
        { t.session with readerCancelled, writerCancelled, channelClosed, socketClosed } }

def run (x : TcpSession) (events : List ThreadEvent) : SessionThreads :=
  Lib.exec step { session := x } events

def acks (t : SessionThreads) : List Int := t.tun.map TunPacket.ackNumber

end SessionThreads

end BigRocket.Relay
