/-
`IpPacketBuilder` and `IpPacketParser`. A builder is a table of positions and
bytes in the order of the source; it throws (`none`) on a text that is no
address and on a slice that starts before its array. `parse` throws where it
reads behind the buffer, and returns null (`some none`) for what is no IPv4
packet.
-/
import BigRocket.Lib.Kotlin
import BigRocket.Lib.Patch
import BigRocket.Service.SessionTracker

namespace BigRocket.Service

open Lib Lib.Kotlin
open Relay (IpProtocol)

def lowBytes (w : Nat) (v : Int) : List UInt8 := beBytes w (v % 256 ^ w).toNat

namespace IpPacketBuilder

def parseOctet (jvm : Jvm) (part : Text) : Option UInt8 :=
  (toIntOrNull jvm part).map fun n => UInt8.ofNat (coerceIn n 0 255).toNat

def parseIpAddress (jvm : Jvm) (ip : Text) : Option (List UInt8) :=
  let parts := ip.splitOn '.'
  if parts.length ≠ 4 then none else parts.mapM (parseOctet jvm)

def wordSum : List UInt8 → Nat
  | high :: low :: rest => (high.toNat <<< 8 ||| low.toNat) + wordSum rest
  | [high] => high.toNat <<< 8
  | [] => 0

theorem foldCarries_decreases {sum : Nat} (h : ¬ sum >>> 16 = 0) :
    (sum &&& 0xFFFF) + sum >>> 16 < sum := by
  rw [show (0xFFFF : Nat) = 2 ^ 16 - 1 from rfl, Nat.and_two_pow_sub_one_eq_mod]
  omega

def foldCarries (sum : Nat) : Nat :=
  if sum >>> 16 = 0 then sum else foldCarries ((sum &&& 0xFFFF) + sum >>> 16)
termination_by sum
decreasing_by exact foldCarries_decreases ‹_›

def computeIpChecksum (data : List UInt8) (offset length : Nat) : Nat :=
  (foldCarries (wordSum ((data.drop offset).take length)) ^^^ 0xFFFF) &&& 0xFFFF

def computeTransportChecksum (srcIpBytes dstIpBytes : List UInt8) (protocol : Nat)
    (transportData : List UInt8) (transportOffset transportLen : Nat) : Nat :=
  let sum := wordSum srcIpBytes + wordSum dstIpBytes + (protocol &&& 0xFF) +
    (transportLen &&& 0xFFFF) + wordSum ((transportData.drop transportOffset).take transportLen)
  let checksum := (foldCarries sum ^^^ 0xFFFF) &&& 0xFFFF
  if checksum = 0 ∧ protocol = 17 then 0xFFFF else checksum

def ipHeader (totalLen protocol : Nat) (srcIpBytes dstIpBytes : List UInt8) :
    List (Nat × List UInt8) :=
  [(0, [0x45]),
    (1, [0x00]),
    (2, lowBytes 2 totalLen),
    (4, lowBytes 2 0),
    (6, lowBytes 2 0x4000), -- Don't Fragment
    (8, [64]),
    (9, [UInt8.ofNat protocol]),
    (10, lowBytes 2 0),
    (12, srcIpBytes),
    (16, dstIpBytes)]

def writeIpHeader (packet : List UInt8) (totalLen protocol : Nat)
    (srcIpBytes dstIpBytes : List UInt8) : List UInt8 :=
  let packet := writes packet (ipHeader totalLen protocol srcIpBytes dstIpBytes)
  overwrite packet 10 (lowBytes 2 (computeIpChecksum packet 0 20))

def udpHeader (srcPort dstPort : Int) (udpLen : Nat) : List (Nat × List UInt8) :=
  [(20, lowBytes 2 srcPort),
    (22, lowBytes 2 dstPort),
    (24, lowBytes 2 udpLen),
    (26, lowBytes 2 0)]

def buildUdpResponsePacket (jvm : Jvm) (srcIp : Text) (srcPort : Int) (dstIp : Text)
    (dstPort : Int) (data : List UInt8) (dataLength : Int) : Option (List UInt8) := do
  let safeDataLength := (min (max dataLength 0) data.length).toNat
  let udpLen := 8 + safeDataLength
  let totalLen := 20 + udpLen
  let srcIpBytes ← parseIpAddress jvm srcIp
  let dstIpBytes ← parseIpAddress jvm dstIp
  let packet := writeIpHeader (List.replicate totalLen 0) totalLen 17 srcIpBytes dstIpBytes
  let packet := writes packet (udpHeader srcPort dstPort udpLen)
  let packet := overwrite packet 28 (data.take safeDataLength)
  return overwrite packet 26
    (lowBytes 2 (computeTransportChecksum srcIpBytes dstIpBytes 17 packet 20 udpLen))

def tcpHeader (srcPort dstPort seqNumber ackNumber flags : Int) : List (Nat × List UInt8) :=
  [(20, lowBytes 2 srcPort),
    (22, lowBytes 2 dstPort),
    (24, lowBytes 4 seqNumber),
    (28, lowBytes 4 ackNumber),
    (32, [0x50]), -- Data Offset: 5 dwords (20 bytes)
    (33, lowBytes 1 flags),
    (34, lowBytes 2 64240), -- Window Size
    (36, lowBytes 2 0),
    (38, lowBytes 2 0)]

def copyPayload (data : List UInt8) (dataOffset : Int) (safeDataLength : Nat) :
    Option (List UInt8) :=
  if safeDataLength > 0 then
    if dataOffset < 0 then none
    else slice data dataOffset.toNat (dataOffset.toNat + safeDataLength)
  else some []

def buildTcpResponsePacket (jvm : Jvm) (srcIp : Text) (srcPort : Int) (dstIp : Text)
    (dstPort seqNumber ackNumber flags : Int) (data : List UInt8) (dataLength dataOffset : Int) :
    Option (List UInt8) := do
  let safeDataLength := (min (max dataLength 0) (max (data.length - dataOffset) 0)).toNat
  let tcpHeaderLen := 20
  let tcpLen := tcpHeaderLen + safeDataLength
  let totalLen := 20 + tcpLen
  let srcIpBytes ← parseIpAddress jvm srcIp
  let dstIpBytes ← parseIpAddress jvm dstIp
  let packet := writeIpHeader (List.replicate totalLen 0) totalLen 6 srcIpBytes dstIpBytes
  let packet := writes packet (tcpHeader srcPort dstPort seqNumber ackNumber flags)
  let payload ← copyPayload data dataOffset safeDataLength
  let packet := overwrite packet 40 payload
  return overwrite packet 36
    (lowBytes 2 (computeTransportChecksum srcIpBytes dstIpBytes 6 packet 20 tcpLen))

end IpPacketBuilder

structure ParsedIpPacket where
  version : Nat
  protocol : IpProtocol
  sourceIp : Text
  destinationIp : Text
  sourcePort : Nat
  destinationPort : Nat
  payloadOffset : Nat
  payloadLength : Nat
  tcpFlags : Nat := 0
  tcpSeq : Nat := 0
  tcpAck : Nat := 0
  tcpWindow : Nat := 0
  tcpHeaderLength : Nat := 0

namespace ParsedIpPacket

def dataOffset (p : ParsedIpPacket) : Nat :=
  if p.protocol = .tcp then p.payloadOffset + p.tcpHeaderLength else p.payloadOffset + 8

def dataLength (p : ParsedIpPacket) : Nat := p.payloadLength - (p.dataOffset - p.payloadOffset)

end ParsedIpPacket

namespace IpPacketParser

def protocolFromCode (code : Nat) : IpProtocol :=
  if code = 1 then .icmp else if code = 6 then .tcp else if code = 17 then .udp else .unknown

/-- `joinToString(".") { (it.toInt() and 0xFF).toString() }` -/
def dotted (bytes : List UInt8) : Text :=
  ['.'].intercalate (bytes.map fun b => Nat.toDigits 10 b.toNat)

def readPorts (buffer : List UInt8) (length ihl : Nat) (protocol : IpProtocol) :
    Option (Nat × Nat) :=
  if (protocol = .tcp ∨ protocol = .udp) ∧ length ≥ ihl + 4 then do
    let srcPort ← numberAt 2 buffer ihl
    let dstPort ← numberAt 2 buffer (ihl + 2)
    return (srcPort, dstPort)
  else some (0, 0)

def readTcp (buffer : List UInt8) (length ihl : Nat) (p : ParsedIpPacket) :
    Option ParsedIpPacket :=
  if p.protocol = .tcp ∧ length ≥ ihl + 20 then do
    let tcpSeq ← numberAt 4 buffer (ihl + 4)
    let tcpAck ← numberAt 4 buffer (ihl + 8)
    let dataOffsetByte ← numberAt 1 buffer (ihl + 12)
    let tcpHeaderLength := (dataOffsetByte >>> 4 &&& 0x0F) * 4
    let tcpFlags ← numberAt 1 buffer (ihl + 13)
    let tcpWindow ← numberAt 2 buffer (ihl + 14)
    return { p with
      tcpSeq, tcpAck, tcpFlags, tcpWindow
      -- fall back to a sane minimum rather than reject the packet
      tcpHeaderLength :=
        if tcpHeaderLength < 20 ∨ length < ihl + tcpHeaderLength then 20 else tcpHeaderLength }
  else some p

def parse (buffer : List UInt8) (length : Nat) : Option (Option ParsedIpPacket) :=
  if length < 20 then some none
  else do
    let versionAndIhl ← numberAt 1 buffer 0
    let version := versionAndIhl >>> 4
    if version ≠ 4 then some none
    else
      let ihl := (versionAndIhl &&& 0x0F) * 4
      if length < ihl then some none
      else do
        let protocolCode ← numberAt 1 buffer 9
        let protocol := protocolFromCode protocolCode
        let srcIpBytes ← slice buffer 12 16
        let dstIpBytes ← slice buffer 16 20
        let (sourcePort, destinationPort) ← readPorts buffer length ihl protocol
        let parsed ← readTcp buffer length ihl {
          version, protocol
          sourceIp := dotted srcIpBytes
          destinationIp := dotted dstIpBytes
          sourcePort, destinationPort
          payloadOffset := ihl
          payloadLength := length - ihl }
        return some parsed

end IpPacketParser

end BigRocket.Service
