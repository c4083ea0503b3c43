/-
The bond frame of the package `bonding.frame`. Header fields keep the widths of
the source; sequence ARITHMETIC happens on the integer value `Frame.seq`,
without wrap-around.
-/
import Mathlib

namespace BigRocket.Bonding

/-- The protocol packet types. The ordinal is the byte on the wire, so the
order of the constructors is part of the format. -/
inductive MessageType where
  | data
  | hello
  | helloAck
  | heartbeat
  | heartbeatAck
  | sync
  | ack
  | recoveryRequest
  | recoveryData
  | error
  deriving DecidableEq, Repr

def MessageType.entries : List MessageType :=
  [.data, .hello, .helloAck, .heartbeat, .heartbeatAck, .sync, .ack,
   .recoveryRequest, .recoveryData, .error]

def MessageType.ordinal : MessageType → Nat
  | .data => 0
  | .hello => 1
  | .helloAck => 2
  | .heartbeat => 3
  | .heartbeatAck => 4
  | .sync => 5
  | .ack => 6
  | .recoveryRequest => 7
  | .recoveryData => 8
  | .error => 9

/-- `VALUES.getOrNull(byte)`: an unknown ordinal is `none`, not an exception. -/
def MessageType.fromWire (byte : Nat) : Option MessageType := MessageType.entries[byte]?

theorem MessageType.ordinal_of_fromWire {n : Nat} {t : MessageType}
    (h : fromWire n = some t) : t.ordinal = n := by
  have hn : n < 10 := (List.getElem?_eq_some_iff.mp h).1
  interval_cases n <;> cases h <;> rfl

/-! ## Flags -/

def FrameFlags.recovery : Int32 := (1 : Int32) <<< (0 : Int32)

def FrameFlags.ackRequired : Int32 := (1 : Int32) <<< (1 : Int32)

def FrameFlags.priority : Int32 := (1 : Int32) <<< (2 : Int32)

def FrameFlags.control : Int32 := (1 : Int32) <<< (3 : Int32)

def FrameFlags.has (flags flag : Int32) : Bool := (flags &&& flag) != 0

/-! ## Header and frame -/

def currentVersion : Int32 := 1

structure FrameHeader where
  version : Int32
  type : MessageType
  streamId : Int32
  sequence : Int64
  timestamp : Int64
  payloadSize : Int32
  flags : Int32
  checksum : Int64
  deriving DecidableEq, Repr

structure Frame where
  header : FrameHeader
  payload : List UInt8
  deriving DecidableEq, Repr

def Frame.seq (f : Frame) : Int := f.header.sequence.toInt

/-- An empty DATA frame with this sequence number, all that the reorder
buffer looks at. -/
def Frame.bare (sequence : Int64) : Frame where
  header :=
    { version := currentVersion, type := .data, streamId := 0, sequence, timestamp := 0,
      payloadSize := 0, flags := 0, checksum := 0 }
  payload := []

end BigRocket.Bonding
