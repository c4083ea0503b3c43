/-
`parse` reads back what the builders wrote.
-/
import BigRocket.Service.IpPacket

namespace BigRocket.Service

open Lib Lib.Kotlin

@[simp] theorem length_lowBytes (w : Nat) (v : Int) : (lowBytes w v).length = w :=
  length_beBytes w _

theorem beNat_lowBytes {w n : Nat} (h : n < 256 ^ w) : beNat (lowBytes w n) = n := by
  have hmod : ((n : Int) % 256 ^ w).toNat = n := by
    rw [Int.emod_eq_of_lt (by omega) (by exact_mod_cast h), Int.toNat_natCast]
  rw [lowBytes, hmod, beNat_beBytes, Nat.mod_eq_of_lt h]

/-! ## Addresses -/

namespace IpPacketBuilder

open IpPacketParser (dotted)

variable {jvm : Jvm}

theorem parseOctet_toDigits (b : UInt8) : parseOctet jvm (Nat.toDigits 10 b.toNat) = some b := by
  have hb : b.toNat < 256 := b.toNat_lt
  have hcoerce : (coerceIn b.toNat 0 255).toNat = b.toNat := by
    rw [coerceIn, min_eq_left (by omega), max_eq_right (by omega), Int.toNat_natCast]
  rw [parseOctet, toIntOrNull_toDigits (by omega), Option.map_some, hcoerce, UInt8.ofNat_toNat]

theorem not_mem_dot_toDigits (n : Nat) : '.' ∉ Nat.toDigits 10 n := by
  intro h
  exact absurd (Nat.isDigit_of_mem_toDigits (by decide) (by decide) h) (by decide)

theorem mapM_parseOctet (bytes : List UInt8) :
    (bytes.map fun b => Nat.toDigits 10 b.toNat).mapM (parseOctet jvm) = some bytes := by
  induction bytes with
  | nil => rfl
  | cons b bytes ih =>
    rw [List.map_cons, List.mapM_cons, parseOctet_toDigits, ih]
    rfl

theorem parseIpAddress_dotted {bytes : List UInt8} (h : bytes.length = 4) :
    parseIpAddress jvm (dotted bytes) = some bytes := by
  have hsplit : (dotted bytes).splitOn '.' = bytes.map fun b => Nat.toDigits 10 b.toNat := by
    apply List.splitOn_intercalate
    · intro part hpart
      obtain ⟨b, -, rfl⟩ := List.mem_map.mp hpart
      exact not_mem_dot_toDigits b.toNat
    · intro hnil
      rw [List.map_eq_nil_iff.mp hnil] at h
      cases h
  rw [parseIpAddress, hsplit]
  simp only [List.length_map, h, ne_eq, not_true_eq_false, if_false]
  exact mapM_parseOctet bytes

/-! ## The headers -/

def ipFields (protocol : Nat) (src dst : List UInt8) : List (Nat × List UInt8) :=
  [(0, [0x45]), (9, [UInt8.ofNat protocol]), (12, src), (16, dst)]

def tcpFields (srcPort dstPort seqNumber ackNumber flags : Int) : List (Nat × List UInt8) :=
  [(20, lowBytes 2 srcPort), (22, lowBytes 2 dstPort), (24, lowBytes 4 seqNumber),
    (28, lowBytes 4 ackNumber), (32, [0x50]), (33, lowBytes 1 flags), (34, lowBytes 2 64240)]

def udpFields (srcPort dstPort : Int) : List (Nat × List UInt8) :=
  [(20, lowBytes 2 srcPort), (22, lowBytes 2 dstPort)]

variable {packet src dst : List UInt8}

variable (totalLen protocol : Nat)

theorem inside_ipHeader (hsrc : src.length = 4) (hdst : dst.length = 4) {size : Nat}
    (hsize : 20 ≤ size) : Inside (ipHeader totalLen protocol src dst) size := by
  simp [Inside, ipHeader, hsrc, hdst]
  omega

theorem length_writeIpHeader (hsrc : src.length = 4) (hdst : dst.length = 4)
    (hroom : 20 ≤ packet.length) :
    (writeIpHeader packet totalLen protocol src dst).length = packet.length := by
  have hwrites := length_writes (inside_ipHeader totalLen protocol hsrc hdst hroom)
  rw [writeIpHeader, length_overwrite, hwrites]
  rw [hwrites, length_lowBytes]
  omega

theorem holds_writeIpHeader (hsrc : src.length = 4) (hdst : dst.length = 4)
    (hroom : 20 ≤ packet.length) :
    Holds (writeIpHeader packet totalLen protocol src dst) (ipFields protocol src dst) := by
  have hinside := inside_ipHeader totalLen protocol hsrc hdst hroom
  have hapart : (ipHeader totalLen protocol src dst).Pairwise Apart := by
    simp [ipHeader, Apart, hsrc, hdst]
  have hsub : ipFields protocol src dst ⊆ ipHeader totalLen protocol src dst := by
    simp [ipFields, ipHeader]
  refine ((holds_writes hinside hapart).mono hsub).overwrite ?_ ?_
  · rw [length_writes hinside, length_lowBytes]
    omega
  · simp [ipFields, Apart, hsrc]

/-- Behind the IPv4 header a transport header of its own is written, then the
payload, then the checksum of the transport, which stands in no field. -/
theorem holds_transport {protocol : Nat} (header fields : List (Nat × List UInt8))
    (size sumAt : Nat) (payload : List UInt8) (checksum : Int)
    (hip : Holds packet (ipFields protocol src dst)) (hsrc : src.length = 4) (hdst : dst.length = 4)
    (hinside : Inside header size) (hbehind : ∀ patch ∈ header, 20 ≤ patch.1)
    (hapart : header.Pairwise Apart) (hsub : fields ⊆ header)
    (hsum : 20 ≤ sumAt ∧ sumAt + 2 ≤ size)
    (hfields : ∀ field ∈ fields, field.1 + field.2.length ≤ sumAt ∨ sumAt + 2 ≤ field.1)
    (hlength : packet.length = size + payload.length) :
    Holds (overwrite (overwrite (writes packet header) size payload) sumAt (lowBytes 2 checksum))
        (ipFields protocol src dst ++ fields ++ [(size, payload)]) ∧
      (overwrite (overwrite (writes packet header) size payload) sumAt
        (lowBytes 2 checksum)).length = packet.length := by
  have hinside' : Inside header packet.length := fun patch hpatch =>
    (hinside patch hpatch).trans (by omega)
  have hwritten := length_writes hinside'
  have hroom : size + payload.length ≤ (writes packet header).length := by omega
  have hroom' : sumAt + (lowBytes 2 checksum).length ≤
      (overwrite (writes packet header) size payload).length := by
    rw [length_overwrite hroom, length_lowBytes]
    omega
  -- the IPv4 header ends where the transport starts
  have hipEnd : ∀ field ∈ ipFields protocol src dst, field.1 + field.2.length ≤ 20 := by
    simp [ipFields, hsrc, hdst]
  have hip' : Holds (writes packet header) (ipFields protocol src dst) :=
    hip.writes hinside' fun field hfield patch hpatch =>
      .inl ((hipEnd field hfield).trans (hbehind patch hpatch))
  have hboth := hip'.append ((holds_writes hinside' hapart).mono hsub)
  have hend : ∀ field ∈ ipFields protocol src dst ++ fields, field.1 + field.2.length ≤ size := by
    intro field hfield
    rcases List.mem_append.mp hfield with hfield | hfield
    · exact (hipEnd field hfield).trans (by omega)
    · exact hinside field (hsub hfield)
  refine ⟨((hboth.overwrite hroom fun field hfield => .inl (hend field hfield)).append
    (holds_overwrite hroom)).overwrite hroom' fun field hfield => ?_, ?_⟩
  · rcases List.mem_append.mp hfield with hfield | hfield
    · rcases List.mem_append.mp hfield with hfield | hfield
      · exact .inl ((hipEnd field hfield).trans hsum.1)
      · exact hfields field hfield
    · rw [List.mem_singleton.mp hfield]
      exact .inr hsum.2
  · rw [length_overwrite hroom', length_overwrite hroom, hwritten]

/-! ## The builders -/

theorem fresh_packet (hsrc : src.length = 4) (hdst : dst.length = 4) (htotal : 20 ≤ totalLen) :
    Holds (writeIpHeader (List.replicate totalLen 0) totalLen protocol src dst)
        (ipFields protocol src dst) ∧
      (writeIpHeader (List.replicate totalLen 0) totalLen protocol src dst).length = totalLen := by
  have hlength : (List.replicate totalLen (0 : UInt8)).length = totalLen := List.length_replicate
  exact ⟨holds_writeIpHeader totalLen protocol hsrc hdst (by omega),
    (length_writeIpHeader totalLen protocol hsrc hdst (by omega)).trans hlength⟩

theorem copyPayload_slice (pre payload post : List UInt8) :
    copyPayload (pre ++ payload ++ post) pre.length payload.length = some payload := by
  unfold copyPayload
  split
  · rw [if_neg (by omega), Int.toNat_natCast, slice, if_pos (by simp), List.append_assoc,
      List.drop_left, Nat.add_sub_cancel_left, List.take_left]
  · rw [List.length_eq_zero_iff.mp (by omega : payload.length = 0)]

theorem buildTcpResponsePacket_holds (jvm : Jvm)
    (srcPort dstPort seqNumber ackNumber flags : Int) (hsrc : src.length = 4)
    (hdst : dst.length = 4) (pre payload post : List UInt8) :
    ∃ packet, buildTcpResponsePacket jvm (dotted src) srcPort (dotted dst) dstPort seqNumber
        ackNumber flags (pre ++ payload ++ post) payload.length pre.length = some packet ∧
      packet.length = 40 + payload.length ∧
      Holds packet (ipFields 6 src dst ++ tcpFields srcPort dstPort seqNumber ackNumber flags ++
        [(40, payload)]) := by
  have hsafe : (min (max (payload.length : Int) 0)
      (max (((pre ++ payload ++ post).length : Int) - pre.length) 0)).toNat = payload.length := by
    simp only [List.length_append, Nat.cast_add]
    omega
  obtain ⟨hip, hlength⟩ :=
    fresh_packet (20 + (20 + payload.length)) 6 hsrc hdst (by omega)
  have hall : ∀ checksum, _ ∧ _ := fun checksum =>
    holds_transport (tcpHeader srcPort dstPort seqNumber ackNumber flags)
      (tcpFields srcPort dstPort seqNumber ackNumber flags) 40 36 payload checksum hip hsrc hdst
      (by simp [Inside, tcpHeader]) (by simp [tcpHeader]) (by simp [tcpHeader, Apart])
      (by simp [tcpFields, tcpHeader]) (by decide) (by simp [tcpFields]) (by omega)
  rw [buildTcpResponsePacket, hsafe, parseIpAddress_dotted hsrc, parseIpAddress_dotted hdst]
  simp only [Option.bind_eq_bind, Option.bind_some, copyPayload_slice]
  exact ⟨_, rfl, by rw [(hall _).2]; omega, (hall _).1⟩

theorem buildUdpResponsePacket_holds (jvm : Jvm) (srcPort dstPort : Int)
    (hsrc : src.length = 4) (hdst : dst.length = 4) (payload post : List UInt8) :
    ∃ packet, buildUdpResponsePacket jvm (dotted src) srcPort (dotted dst) dstPort
        (payload ++ post) payload.length = some packet ∧
      packet.length = 28 + payload.length ∧
      Holds packet (ipFields 17 src dst ++ udpFields srcPort dstPort ++ [(28, payload)]) := by
  have hsafe : (min (max (payload.length : Int) 0) ((payload ++ post).length : Int)).toNat =
      payload.length := by
    simp only [List.length_append, Nat.cast_add]
    omega
  obtain ⟨hip, hlength⟩ :=
    fresh_packet (20 + (8 + payload.length)) 17 hsrc hdst (by omega)
  have hall : ∀ checksum, _ ∧ _ := fun checksum =>
    holds_transport (udpHeader srcPort dstPort (8 + payload.length : Nat))
      (udpFields srcPort dstPort) 28 26 payload checksum hip hsrc hdst
      (by simp [Inside, udpHeader]) (by simp [udpHeader]) (by simp [udpHeader, Apart])
      (by simp [udpFields, udpHeader]) (by decide) (by simp [udpFields]) (by omega)
  rw [buildUdpResponsePacket, hsafe, parseIpAddress_dotted hsrc, parseIpAddress_dotted hdst]
  simp only [Option.bind_eq_bind, Option.bind_some, List.take_left]
  exact ⟨_, rfl, by rw [(hall _).2]; omega, (hall _).1⟩

end IpPacketBuilder

/-! ## The parser -/

namespace IpPacketParser

open IpPacketBuilder

variable {packet src dst payload : List UInt8}

theorem parse_ip {protocol : Nat} (hsrc : src.length = 4) (hdst : dst.length = 4)
    (hprotocol : protocol < 256) (hlength : 20 ≤ packet.length)
    (h : Holds packet (ipFields protocol src dst)) :
    parse packet packet.length =
      (readPorts packet packet.length 20 (protocolFromCode protocol)).bind fun ports =>
        (readTcp packet packet.length 20 {
          version := 4, protocol := protocolFromCode protocol
          sourceIp := dotted src, destinationIp := dotted dst
          sourcePort := ports.1, destinationPort := ports.2
          payloadOffset := 20, payloadLength := packet.length - 20 }).bind fun parsed =>
            some (some parsed) := by
  have hversion : numberAt 1 packet 0 = some 0x45 := h.numberAt [0x45] (by simp [ipFields]) rfl rfl
  have hcode : numberAt 1 packet 9 = some protocol :=
    h.numberAt [UInt8.ofNat protocol] (by simp [ipFields]) rfl
      (by simp [beNat, Nat.mod_eq_of_lt hprotocol])
  have hsource : slice packet 12 16 = some src := h.slice (by simp [ipFields]) (by rw [hsrc])
  have hdestination : slice packet 16 20 = some dst := h.slice (by simp [ipFields]) (by rw [hdst])
  rw [parse, if_neg (by omega), hversion]
  simp only [Option.bind_eq_bind, Option.bind_some, hcode, hsource, hdestination]
  rw [if_neg (by decide), if_neg (by simp; omega)]
  rfl

variable {srcPort dstPort : Int}

theorem readPorts_eq {protocol : Relay.IpProtocol} (hprotocol : protocol = .tcp ∨ protocol = .udp)
    (hlength : 24 ≤ packet.length) (h : Holds packet (udpFields srcPort dstPort)) :
    readPorts packet packet.length 20 protocol =
      some (beNat (lowBytes 2 srcPort), beNat (lowBytes 2 dstPort)) := by
  have hsrcPort : numberAt 2 packet 20 = some (beNat (lowBytes 2 srcPort)) :=
    h.numberAt (lowBytes 2 srcPort) (by simp [udpFields]) (length_lowBytes ..) rfl
  have hdstPort : numberAt 2 packet 22 = some (beNat (lowBytes 2 dstPort)) :=
    h.numberAt (lowBytes 2 dstPort) (by simp [udpFields]) (length_lowBytes ..) rfl
  rw [readPorts, if_pos ⟨hprotocol, hlength⟩, hsrcPort, hdstPort]
  rfl

theorem parse_tcp {seqNumber ackNumber flags : Int} (hsrc : src.length = 4)
    (hdst : dst.length = 4) (hlength : packet.length = 40 + payload.length)
    (hip : Holds packet (ipFields 6 src dst))
    (htcp : Holds packet (tcpFields srcPort dstPort seqNumber ackNumber flags)) :
    parse packet packet.length = some (some {
      version := 4, protocol := .tcp, sourceIp := dotted src, destinationIp := dotted dst
      sourcePort := beNat (lowBytes 2 srcPort), destinationPort := beNat (lowBytes 2 dstPort)
      payloadOffset := 20, payloadLength := 20 + payload.length
      tcpFlags := beNat (lowBytes 1 flags), tcpSeq := beNat (lowBytes 4 seqNumber)
      tcpAck := beNat (lowBytes 4 ackNumber), tcpWindow := 64240, tcpHeaderLength := 20 }) := by
  have hports := readPorts_eq (.inl rfl) (by omega)
    (htcp.mono (show udpFields srcPort dstPort ⊆ _ by simp [udpFields, tcpFields]))
  have hseq : numberAt 4 packet 24 = some (beNat (lowBytes 4 seqNumber)) :=
    htcp.numberAt (lowBytes 4 seqNumber) (by simp [tcpFields]) (length_lowBytes ..) rfl
  have hack : numberAt 4 packet 28 = some (beNat (lowBytes 4 ackNumber)) :=
    htcp.numberAt (lowBytes 4 ackNumber) (by simp [tcpFields]) (length_lowBytes ..) rfl
  have hoffset : numberAt 1 packet 32 = some 0x50 :=
    htcp.numberAt [0x50] (by simp [tcpFields]) rfl rfl
  have hflags : numberAt 1 packet 33 = some (beNat (lowBytes 1 flags)) :=
    htcp.numberAt (lowBytes 1 flags) (by simp [tcpFields]) (length_lowBytes ..) rfl
  have hwindow : numberAt 2 packet 34 = some 64240 :=
    htcp.numberAt (lowBytes 2 64240) (by simp [tcpFields]) rfl rfl
  rw [parse_ip hsrc hdst (by decide) (by omega) hip, show protocolFromCode 6 = .tcp from rfl,
    hports, Option.bind_some, readTcp, if_pos ⟨rfl, by omega⟩]
  simp [hseq, hack, hoffset, hflags, hwindow, hlength]
  omega

theorem parse_udp (hsrc : src.length = 4) (hdst : dst.length = 4)
    (hlength : packet.length = 28 + payload.length) (hip : Holds packet (ipFields 17 src dst))
    (hudp : Holds packet (udpFields srcPort dstPort)) :
    parse packet packet.length = some (some {
      version := 4, protocol := .udp, sourceIp := dotted src, destinationIp := dotted dst
      sourcePort := beNat (lowBytes 2 srcPort), destinationPort := beNat (lowBytes 2 dstPort)
      payloadOffset := 20, payloadLength := 8 + payload.length }) := by
  rw [parse_ip hsrc hdst (by decide) (by omega) hip, show protocolFromCode 17 = .udp from rfl,
    readPorts_eq (.inr rfl) (by omega) hudp, Option.bind_some, readTcp, if_neg (by simp)]
  simp [hlength]
  omega

/-- **Built packets parse back**, and the data range holds the slice. -/
theorem parse_built (jvm : Jvm) (src dst : Vector UInt8 4) (srcPort dstPort : UInt16)
    (seqNumber ackNumber : UInt32) (flags : UInt8) (pre payload post : List UInt8) :
    (∃ packet parsed,
      buildTcpResponsePacket jvm (dotted src.toList) srcPort.toNat (dotted dst.toList)
          dstPort.toNat seqNumber.toNat ackNumber.toNat flags.toNat (pre ++ payload ++ post)
          payload.length pre.length = some packet ∧
        parse packet packet.length = some (some parsed) ∧ parsed.protocol = .tcp ∧
        parsed.sourceIp = dotted src.toList ∧ parsed.destinationIp = dotted dst.toList ∧
        parsed.sourcePort = srcPort.toNat ∧ parsed.destinationPort = dstPort.toNat ∧
        parsed.tcpSeq = seqNumber.toNat ∧ parsed.tcpAck = ackNumber.toNat ∧
        parsed.tcpFlags = flags.toNat ∧
        slice packet parsed.dataOffset (parsed.dataOffset + parsed.dataLength) = some payload) ∧
    ∃ packet parsed,
      buildUdpResponsePacket jvm (dotted src.toList) srcPort.toNat (dotted dst.toList)
          dstPort.toNat (payload ++ post) payload.length = some packet ∧
        parse packet packet.length = some (some parsed) ∧ parsed.protocol = .udp ∧
        parsed.sourceIp = dotted src.toList ∧ parsed.destinationIp = dotted dst.toList ∧
        parsed.sourcePort = srcPort.toNat ∧ parsed.destinationPort = dstPort.toNat ∧
        slice packet parsed.dataOffset (parsed.dataOffset + parsed.dataLength) = some payload := by
  have hsrc : src.toList.length = 4 := src.length_toList
  have hdst : dst.toList.length = 4 := dst.length_toList
  have hsrcPort : beNat (lowBytes 2 srcPort.toNat) = srcPort.toNat := beNat_lowBytes srcPort.toNat_lt
  have hdstPort : beNat (lowBytes 2 dstPort.toNat) = dstPort.toNat := beNat_lowBytes dstPort.toNat_lt
  constructor
  · obtain ⟨packet, hbuild, hlength, h⟩ := buildTcpResponsePacket_holds jvm srcPort.toNat
      dstPort.toNat seqNumber.toNat ackNumber.toNat flags.toNat hsrc hdst pre payload post
    refine ⟨packet, _, hbuild, parse_tcp hsrc hdst hlength (h.mono (by simp)) (h.mono (by simp)),
      rfl, rfl, rfl, hsrcPort, hdstPort, beNat_lowBytes seqNumber.toNat_lt,
      beNat_lowBytes ackNumber.toNat_lt, beNat_lowBytes flags.toNat_lt, ?_⟩
    exact h.slice (by simp [ParsedIpPacket.dataOffset])
      (by simp [ParsedIpPacket.dataLength, ParsedIpPacket.dataOffset])
  · obtain ⟨packet, hbuild, hlength, h⟩ := buildUdpResponsePacket_holds jvm srcPort.toNat
      dstPort.toNat hsrc hdst payload post
    refine ⟨packet, _, hbuild, parse_udp hsrc hdst hlength (h.mono (by simp)) (h.mono (by simp)),
      rfl, rfl, rfl, hsrcPort, hdstPort, ?_⟩
    exact h.slice (by simp [ParsedIpPacket.dataOffset])
      (by simp [ParsedIpPacket.dataLength, ParsedIpPacket.dataOffset])

end IpPacketParser

end BigRocket.Service
