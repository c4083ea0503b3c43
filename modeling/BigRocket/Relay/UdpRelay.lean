/-
`UdpRelayEngine` with its sockets and proxy associations, known by their
numbers. How each call of the platform ends is part of the event; `openUdp`
closes what it opened when it throws. A listener ends by `closeSession` of its
key (`close`). Returning datagrams and counters are left out.
-/
import BigRocket.Relay.TcpRelay

namespace BigRocket.Relay

def maxConcurrentUdpSessions : Nat := 200

structure UdpSession where
  socket : Nat
  network : Nat
  aetherAssociation : Option Nat
  lastActivityMs : Int
  deriving DecidableEq, Repr

structure UdpPacket where
  key : SessionKey
  dataLength : Nat
  targetNetwork : Nat
  deriving DecidableEq, Repr

/-- How the platform's calls end in one call of `forwardUdpPacket`; `victim`
is what `minByOrNull` finds. -/
structure UdpAnswers where
  creates : Bool := true
  protects : Bool := true
  binds : Bool := true
  setsTimeout : Bool := true
  associates : Bool := true
  sends : Bool := true
  victim : SessionKey
  deriving DecidableEq, Repr

abbrev UdpSessionMap := AList (fun _ : SessionKey => UdpSession)

structure UdpRelay where
  activeSessions : UdpSessionMap
  upstreamMode : UpstreamMode
  openSockets : Finset Nat
  openAssociations : Finset Nat
  created : Nat

inductive UdpEvent where
  | forward (now : Int) (p : UdpPacket) (answers : UdpAnswers)
  | close (key : SessionKey)
  | networkLost (deadNetwork : Nat)
  | setUpstreamMode (mode : UpstreamMode)
  | clear
  deriving DecidableEq, Repr

namespace UdpRelay

def create : UdpRelay where
  activeSessions := ∅
  upstreamMode := .none
  openSockets := ∅
  openAssociations := ∅
  created := 0

def release (s : UdpSession) (r : UdpRelay) : UdpRelay :=
  { r with
    openSockets := r.openSockets.erase s.socket
    openAssociations := r.openAssociations \ s.aetherAssociation.toFinset }

def closeSession (key : SessionKey) (r : UdpRelay) : UdpRelay :=
  match r.activeSessions.lookup key with
  | none => r
  | some s => { r.release s with activeSessions := r.activeSessions.erase key }

def handleNetworkLost (deadNetwork : Nat) (r : UdpRelay) : UdpRelay :=
  r.activeSessions.entries.foldl
    (fun r entry => if entry.2.network = deadNetwork then r.closeSession entry.1 else r) r

def clear (r : UdpRelay) : UdpRelay :=
  { r.activeSessions.entries.foldl (fun r entry => r.release entry.2) r with activeSessions := ∅ }

def setUpstreamMode (mode : UpstreamMode) (r : UdpRelay) : UdpRelay :=
  if r.upstreamMode = mode then r else { r with upstreamMode := mode }.clear

/-- `minByOrNull` may return any of the sessions that were idle longest. -/
def isLeastRecent (s : UdpSession) (r : UdpRelay) : Bool :=
  r.activeSessions.entries.all fun entry => s.lastActivityMs ≤ entry.2.lastActivityMs

/-- `none` when `victim` is not what `minByOrNull` can return. -/
def evictIfAtCapacity (victim : SessionKey) (r : UdpRelay) : Option UdpRelay :=
  if r.activeSessions.entries.length < maxConcurrentUdpSessions then some r
  else
    match r.activeSessions.lookup victim with
    | none => none
    | some s => if r.isLeastRecent s then some (r.closeSession victim) else none

def openSocket (r : UdpRelay) : UdpRelay :=
  { r with openSockets := insert r.created r.openSockets, created := r.created + 1 }

def openAssociation (r : UdpRelay) : UdpRelay :=
  { r with openAssociations := insert r.created r.openAssociations, created := r.created + 1 }

def store (key : SessionKey) (s : UdpSession) (r : UdpRelay) : UdpRelay :=
  { r with activeSessions := r.activeSessions.insert key s }

/-- The part of `forwardUdpPacket` that makes a session; the flag says
whether it got to the end or threw. -/
def openSession (now : Int) (p : UdpPacket) (answers : UdpAnswers) (r : UdpRelay) :
    UdpRelay × Bool :=
  if !answers.creates then (r, false)
  else
    let socket := r.created
    let opened := r.openSocket
    if !answers.protects then (opened, false)
    else if r.upstreamMode = .none && !answers.binds then (opened, false)
    else if !answers.setsTimeout then (opened, false)
    else if r.upstreamMode = .none then
      (opened.store p.key ⟨socket, p.targetNetwork, none, now⟩, true)
    else if !answers.associates then (opened, false)
    else
      (opened.openAssociation.store p.key ⟨socket, p.targetNetwork, some opened.created, now⟩, true)

def current (key : SessionKey) (r : UdpRelay) : Option UdpSession :=
  (r.activeSessions.lookup key).filter fun s => s.socket ∈ r.openSockets

/-- The session of the flow is found or made; the eviction may be none that
`minByOrNull` can return. -/
def findSession (now : Int) (p : UdpPacket) (answers : UdpAnswers) (r : UdpRelay) :
    Option (UdpRelay × Bool) :=
  match r.current p.key with
  | some _ => some (r, true)
  | none => (r.evictIfAtCapacity answers.victim).map (openSession now p answers)

def touch (now : Int) (key : SessionKey) (r : UdpRelay) : UdpRelay :=
  match r.activeSessions.lookup key with
  | none => r
  | some s => r.store key { s with lastActivityMs := now }

def forwardUdpPacket (now : Int) (p : UdpPacket) (answers : UdpAnswers) (r : UdpRelay) : UdpRelay :=
  match r.findSession now p answers with
  | none => r
  -- the `catch`: whatever is stored at the key goes
  | some (found, false) => found.closeSession p.key
  | some (found, true) =>
    let touched := found.touch now p.key
    if 0 < p.dataLength && !answers.sends then touched.closeSession p.key else touched

def step (r : UdpRelay) : UdpEvent → UdpRelay
  | .forward now p answers => r.forwardUdpPacket now p answers
  | .close key => r.closeSession key
  | .networkLost deadNetwork => r.handleNetworkLost deadNetwork
  | .setUpstreamMode mode => r.setUpstreamMode mode
  | .clear => r.clear

def run (events : List UdpEvent) : UdpRelay := Lib.exec step create events

end UdpRelay

end BigRocket.Relay
