/-
A TCP connection that `handleConnect` of `BondingSocksServer` has opened: two
jobs that run `pipe`, and the joins behind them. A read that waits as long as
the timeout of its socket ends its pipe only; through Aether the remote socket
has no timeout.
-/
import BigRocket.Service.PacketEngine

namespace BigRocket.Service.ConnectRelay

def relayReadTimeoutMs : Nat := 20000

def bufferSize : Nat := 16 * 1024

inductive Direction where
  | upload
  | download
  deriving DecidableEq

def Direction.other : Direction → Direction
  | upload => download
  | download => upload

inductive Phase where
  | reading (since : Nat)
  | writing (buffer : List UInt8)
  | ended
  deriving DecidableEq

structure Pipe where
  phase : Phase
  sent : List UInt8
  arrived : List UInt8
  endOfStream : Bool
  forwarded : List UInt8

namespace Pipe

variable (p : Pipe)

def send (bytes : List UInt8) : Pipe :=
  if p.endOfStream then p
  else { p with sent := p.sent ++ bytes, arrived := p.arrived ++ bytes }

def finish : Pipe := { p with endOfStream := true }

/-- `from.read(buffer)`: what has arrived, as much of it as the platform hands
over; the end of the stream, when all has been read; or nothing, and it waits. -/
def read (n : Nat) : Pipe :=
  match p.phase with
  | .reading _ =>
    let size := min (max n 1) bufferSize
    if p.arrived ≠ [] then
      { p with phase := .writing (p.arrived.take size), arrived := p.arrived.drop size }
    else if p.endOfStream then { p with phase := .ended }
    else p
  | _ => p

def write (now : Nat) : Pipe :=
  match p.phase with
  | .writing buffer => { p with phase := .reading now, forwarded := p.forwarded ++ buffer }
  | _ => p

def fail : Pipe := { p with phase := .ended }

def timesOut (soTimeout : Option Nat) (now : Nat) : Bool :=
  match p.phase, soTimeout with
  | .reading since, some timeout => p.arrived = [] && !p.endOfStream && since + timeout ≤ now
  | _, _ => false

def wait (soTimeout : Option Nat) (now : Nat) : Pipe :=
  if p.timesOut soTimeout now then { p with phase := .ended } else p

end Pipe

structure Relay where
  mode : UpstreamMode
  now : Nat
  pipe : Direction → Pipe
  /-- a read or a write has failed, or the sockets were closed under the pipes -/
  failed : Bool

inductive Event where
  | sends (d : Direction) (bytes : List UInt8)
  | finishes (d : Direction)
  | reads (d : Direction) (n : Nat)
  | writes (d : Direction)
  | fails (d : Direction)
  | passes (ms : Nat)

def soTimeout (mode : UpstreamMode) : Direction → Option Nat
  | .upload => some relayReadTimeoutMs
  | .download => if mode = .aether then none else some relayReadTimeoutMs

def connected (mode : UpstreamMode) : Relay where
  mode := mode
  now := 0
  pipe _ := { phase := .reading 0, sent := [], arrived := [], endOfStream := false, forwarded := [] }
  failed := false

namespace Relay

variable (s : Relay)

def closed : Prop := ∀ d, (s.pipe d).phase = .ended

theorem closed_iff : (s.pipe .upload).phase = .ended ∧ (s.pipe .download).phase = .ended ↔
    s.closed := by
  constructor
  · rintro ⟨hup, hdown⟩ (_ | _)
    · exact hup
    · exact hdown
  · intro h
    exact ⟨h .upload, h .download⟩

instance : Decidable s.closed := decidable_of_iff _ s.closed_iff

def setPipe (d : Direction) (p : Pipe) : Relay := { s with pipe := Function.update s.pipe d p }

def timesOut (now : Nat) (d : Direction) : Bool :=
  (s.pipe d).timesOut (soTimeout s.mode d) now

def step (e : Event) : Relay :=
  if s.closed then s
  else match e with
    | .sends d bytes => s.setPipe d ((s.pipe d).send bytes)
    | .finishes d => s.setPipe d (s.pipe d).finish
    | .reads d n => s.setPipe d ((s.pipe d).read n)
    | .writes d => s.setPipe d ((s.pipe d).write s.now)
    | .fails d =>
      if (s.pipe d).phase = .ended then s
      else { s.setPipe d (s.pipe d).fail with failed := true }
    | .passes ms =>
      { s with
        now := s.now + ms
        pipe := fun d => (s.pipe d).wait (soTimeout s.mode d) (s.now + ms) }

end Relay

end BigRocket.Service.ConnectRelay
