/-
`BinaryFrameCodec` over a big-endian byte buffer. Reading THROWS when too few
bytes are left, so `decode` lives in `Except`: the `null` of the source is `.ok
none`. `crc32` is a parameter.
-/
import BigRocket.Lib.ByteBuffer
import BigRocket.Bonding.Frame

namespace BigRocket.Bonding

open Lib

namespace BinaryFrameCodec

def magic : Int32 := 0x42523031

def headerSize : Nat := 42

def maxPayloadSize : Nat := 64 * 1024

inductive EncodeException where
  | illegalArgument (message : String)
  deriving DecidableEq, Repr

def fieldBytes (header : FrameHeader) : List UInt8 :=
  putByte (UInt8.ofNat header.version.toUInt32.toNat) ++
    (putByte (UInt8.ofNat header.type.ordinal) ++
      (putInt header.streamId ++
        (putLong header.sequence ++
          (putLong header.timestamp ++
            (putInt header.payloadSize ++ putInt header.flags)))))

section
variable (crc32 : List UInt8 → UInt32)

/-- CRC32 over the fields and the payload, widened to an unsigned `Long`. -/
def computeChecksum (header : FrameHeader) (payload : List UInt8) : Int64 :=
  (crc32 (fieldBytes header ++ payload)).toUInt64.toInt64

def encode (frame : Frame) : Except EncodeException (List UInt8) :=
  let header := frame.header
  if header.payloadSize.toInt ≠ frame.payload.length then
    .error (.illegalArgument ("FrameHeader.payloadSize (" ++ toString header.payloadSize.toInt ++
      ") does not match actual payload size (" ++ toString frame.payload.length ++ ")"))
  else if frame.payload.length > maxPayloadSize then
    .error (.illegalArgument
      ("Payload exceeds MAX_PAYLOAD_SIZE (" ++ toString maxPayloadSize ++ ")"))
  else
    .ok (putInt magic ++ (fieldBytes header ++
      (putLong (computeChecksum crc32 header frame.payload) ++ frame.payload)))

def decode (data : List UInt8) : Except BufferException (Option Frame) := do
  if data.length < headerSize then return none
  let (magicRead, buffer) ← getInt data
  if magicRead ≠ magic then return none
  let (versionByte, buffer) ← getByte buffer
  let version : Int32 := Int32.ofNat versionByte.toNat
  if version ≠ currentVersion then return none
  let (typeByte, buffer) ← getByte buffer
  let some type := MessageType.fromWire typeByte.toNat | return none
  let (streamId, buffer) ← getInt buffer
  let (sequence, buffer) ← getLong buffer
  let (timestamp, buffer) ← getLong buffer
  let (payloadSize, buffer) ← getInt buffer
  if payloadSize.toInt < 0 ∨ payloadSize.toInt > maxPayloadSize then return none
  if (data.length : Int) - headerSize ≠ payloadSize.toInt then return none
  let (flags, buffer) ← getInt buffer
  let (checksum, buffer) ← getLong buffer
  let (payload, _) ← getBytes payloadSize.toInt.toNat buffer
  let header : FrameHeader :=
    { version, type, streamId, sequence, timestamp, payloadSize, flags, checksum }
  let expectedChecksum := computeChecksum crc32 header payload
  if expectedChecksum ≠ checksum then return none
  return some { header, payload }

end

end BinaryFrameCodec

end BigRocket.Bonding
