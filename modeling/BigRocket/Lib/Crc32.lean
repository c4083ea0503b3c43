/-
The CRC-32 of `java.util.zip`, for fixed runs; the frame codec is correct for
ANY checksum function.
-/
import Mathlib

namespace BigRocket.Lib

def crc32Bit (crc : UInt32) : UInt32 :=
  if crc &&& 1 = 1 then (crc >>> 1) ^^^ 0xEDB88320 else crc >>> 1

def crc32Byte (crc : UInt32) (byte : UInt8) : UInt32 :=
  crc32Bit^[8] (crc ^^^ byte.toUInt32)

def crc32 (bytes : List UInt8) : UInt32 :=
  bytes.foldl crc32Byte 0xFFFFFFFF ^^^ 0xFFFFFFFF

-- the check value of the algorithm, the ASCII digits "123456789"
example : crc32 [49, 50, 51, 52, 53, 54, 55, 56, 57] = 0xCBF43926 := by decide +kernel

end BigRocket.Lib
