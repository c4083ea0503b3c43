/-
`FrameProcessor`: a byte array is cut into DATA frames, numbered from one
counter. `clock offset` is the reading of the clock when the chunk at `offset`
is stamped.
-/
import BigRocket.Bonding.Frame

namespace BigRocket.Bonding

structure FrameProcessor where
  streamId : Int32
  maxPayloadSize : Nat
  nextSequence : Int64

namespace FrameProcessor

def create (streamId : Int32) (maxPayloadSize : Nat) : FrameProcessor :=
  { streamId, maxPayloadSize, nextSequence := 0 }

/-- The frame one turn of the loop makes; the checksum is filled in by `encode`. -/
def dataFrame (p : FrameProcessor) (timestamp : Int64) (payload : List UInt8) : Frame where
  header :=
    { version := currentVersion
      type := .data
      streamId := p.streamId
      sequence := p.nextSequence
      timestamp
      payloadSize := Int32.ofNat payload.length
      flags := 0
      checksum := 0 }
  payload

def increment (p : FrameProcessor) : FrameProcessor :=
  { p with nextSequence := p.nextSequence + 1 }

def createFramesLoop (clock : Nat → Int64) (data : List UInt8) :
    Nat → Nat → FrameProcessor → List Frame × FrameProcessor
  | 0, _, p => ([], p)
  | fuel + 1, offset, p =>
    if offset < data.length then
      let chunkSize := min p.maxPayloadSize (data.length - offset)
      let payload := (data.drop offset).take chunkSize
      let rest := createFramesLoop clock data fuel (offset + chunkSize) p.increment
      (p.dataFrame (clock offset) payload :: rest.1, rest.2)
    else ([], p)

def createFrames (clock : Nat → Int64) (data : List UInt8) (p : FrameProcessor) :
    List Frame × FrameProcessor :=
  if data.isEmpty then ([], p) else createFramesLoop clock data data.length 0 p

def extractPayload (frame : Frame) : List UInt8 := frame.payload

end FrameProcessor

end BigRocket.Bonding
