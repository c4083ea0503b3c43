/-
What `parse` makes of packets that nobody built with care: header lengths below
twenty and segments too short for their header.
-/
import BigRocket.Service.IpPacketTheorems

namespace BigRocket.Service

open Lib
open Option (bind_eq_some_iff isSome_iff_exists isSome_of_eq_some)
open Relay (IpProtocol)

/-- The least length of a transport header; for the other protocols it is
the one that `dataOffset` takes them to have. -/
def minTransportHeader : IpProtocol → Nat
  | .tcp => 20
  | _ => 8

namespace ParsedIpPacket

variable {p : ParsedIpPacket} {length : Nat}

def transportHeaderLength (p : ParsedIpPacket) : Nat :=
  if p.protocol = .tcp then p.tcpHeaderLength else 8

structure Within (p : ParsedIpPacket) (length : Nat) : Prop where
  ipHeader : 20 ≤ p.payloadOffset
  transportHeader : minTransportHeader p.protocol ≤ p.transportHeaderLength
  transportInside : p.payloadOffset + p.transportHeaderLength ≤ length
  dataBehind : p.payloadOffset + p.transportHeaderLength ≤ p.dataOffset
  dataInside : p.dataOffset + p.dataLength ≤ length

theorem dataOffset_eq : p.dataOffset = p.payloadOffset + p.transportHeaderLength := by
  rw [dataOffset, transportHeaderLength]
  split
  · rfl
  · rfl

theorem within_iff (hpayload : p.payloadLength = length - p.payloadOffset) :
    p.Within length ↔ 20 ≤ p.payloadOffset ∧
      minTransportHeader p.protocol ≤ p.transportHeaderLength ∧
      p.payloadOffset + p.transportHeaderLength ≤ length := by
  constructor
  · intro h
    exact ⟨h.ipHeader, h.transportHeader, h.transportInside⟩
  · rintro ⟨hip, htransport, hinside⟩
    refine ⟨hip, htransport, hinside, dataOffset_eq.ge, ?_⟩
    rw [dataLength, dataOffset_eq, hpayload]
    omega

end ParsedIpPacket

namespace IpPacketParser

variable {buffer : List UInt8} {length : Nat} {p : ParsedIpPacket}

def ihl (first : Nat) : Nat := (first &&& 0x0F) * 4

/-! ## The reads -/

theorem readPorts_take (ihl : Nat) (protocol : IpProtocol) :
    readPorts (buffer.take length) length ihl protocol = readPorts buffer length ihl protocol := by
  unfold readPorts
  split
  · next h => rw [numberAt_take (by omega), numberAt_take (by omega)]
  · rfl

theorem readTcp_take (ihl : Nat) :
    readTcp (buffer.take length) length ihl p = readTcp buffer length ihl p := by
  unfold readTcp
  split
  · next h =>
      rw [numberAt_take (by omega), numberAt_take (by omega), numberAt_take (by omega),
        numberAt_take (by omega), numberAt_take (by omega)]
  · rfl

theorem parse_take (buffer : List UInt8) (length : Nat) :
    parse (buffer.take length) length = parse buffer length := by
  unfold parse
  split
  · rfl
  · simp only [readPorts_take, readTcp_take]
    rw [numberAt_take (by omega), numberAt_take (by omega), slice_take (by omega),
      slice_take (by omega)]

theorem readPorts_isSome_iff (ihl : Nat) (protocol : IpProtocol) :
    (readPorts buffer length ihl protocol).isSome ↔
      ((protocol = .tcp ∨ protocol = .udp) ∧ length ≥ ihl + 4 → ihl + 4 ≤ buffer.length) := by
  unfold readPorts
  split
  · next h =>
      simp only [h, and_self, forall_const]
      constructor
      · intro hsome
        obtain ⟨ports, hports⟩ := isSome_iff_exists.mp hsome
        obtain ⟨srcPort, -, hports⟩ := bind_eq_some_iff.mp hports
        obtain ⟨dstPort, hdst, -⟩ := bind_eq_some_iff.mp hports
        have := numberAt_isSome_iff.mp (isSome_of_eq_some hdst)
        omega
      · intro hroom
        obtain ⟨srcPort, hsrc⟩ := isSome_iff_exists.mp
          (numberAt_isSome_iff.mpr (show ihl + 2 ≤ buffer.length by omega))
        obtain ⟨dstPort, hdst⟩ := isSome_iff_exists.mp
          (numberAt_isSome_iff.mpr (show ihl + 2 + 2 ≤ buffer.length by omega))
        rw [hsrc, hdst]
        rfl
  · next h => simp only [h, Option.isSome_some, false_imp_iff]

theorem readTcp_eq_some {ihl : Nat} {p' : ParsedIpPacket}
    (h : readTcp buffer length ihl p = some p') (hzero : p.tcpHeaderLength = 0) :
    p'.protocol = p.protocol ∧ p'.payloadOffset = p.payloadOffset ∧
      p'.payloadLength = p.payloadLength ∧
      (p.protocol = .tcp → ihl + 20 ≤ length →
        20 ≤ p'.tcpHeaderLength ∧ ihl + p'.tcpHeaderLength ≤ length) ∧
      (¬ (p.protocol = .tcp ∧ ihl + 20 ≤ length) → p'.tcpHeaderLength = 0) := by
  unfold readTcp at h
  split at h
  · next hread =>
      obtain ⟨tcpSeq, -, h⟩ := bind_eq_some_iff.mp h
      obtain ⟨tcpAck, -, h⟩ := bind_eq_some_iff.mp h
      obtain ⟨offset, -, h⟩ := bind_eq_some_iff.mp h
      obtain ⟨tcpFlags, -, h⟩ := bind_eq_some_iff.mp h
      obtain ⟨tcpWindow, -, h⟩ := bind_eq_some_iff.mp h
      cases h
      refine ⟨rfl, rfl, rfl, fun _ hroom => ?_, fun hnot => absurd hread hnot⟩
      simp only
      split
      · exact ⟨le_rfl, hroom⟩
      · omega
  · next hread =>
      cases h
      exact ⟨rfl, rfl, rfl, fun htcp hroom => absurd ⟨htcp, hroom⟩ hread, fun _ => hzero⟩

theorem readTcp_isSome_iff (ihl : Nat) :
    (readTcp buffer length ihl p).isSome ↔
      (p.protocol = .tcp ∧ length ≥ ihl + 20 → ihl + 16 ≤ buffer.length) := by
  unfold readTcp
  split
  · next h =>
      simp only [h, and_self, forall_const]
      constructor
      · intro hsome
        obtain ⟨parsed, hparsed⟩ := isSome_iff_exists.mp hsome
        obtain ⟨tcpSeq, -, hparsed⟩ := bind_eq_some_iff.mp hparsed
        obtain ⟨tcpAck, -, hparsed⟩ := bind_eq_some_iff.mp hparsed
        obtain ⟨offset, -, hparsed⟩ := bind_eq_some_iff.mp hparsed
        obtain ⟨tcpFlags, -, hparsed⟩ := bind_eq_some_iff.mp hparsed
        obtain ⟨tcpWindow, hwindow, -⟩ := bind_eq_some_iff.mp hparsed
        have := numberAt_isSome_iff.mp (isSome_of_eq_some hwindow)
        omega
      · intro hroom
        have hread : ∀ w pos, pos + w ≤ ihl + 16 → ∃ n, numberAt w buffer pos = some n :=
          fun w pos hpos => isSome_iff_exists.mp (numberAt_isSome_iff.mpr (by omega))
        obtain ⟨tcpSeq, hseq⟩ := hread 4 (ihl + 4) (by omega)
        obtain ⟨tcpAck, hack⟩ := hread 4 (ihl + 8) (by omega)
        obtain ⟨offset, hoffset⟩ := hread 1 (ihl + 12) (by omega)
        obtain ⟨tcpFlags, hflags⟩ := hread 1 (ihl + 13) (by omega)
        obtain ⟨tcpWindow, hwindow⟩ := hread 2 (ihl + 14) (by omega)
        rw [hseq, hack, hoffset, hflags, hwindow]
        rfl
  · next h => simp only [h, Option.isSome_some, false_imp_iff]

/-! ## The whole parser -/

def parseBody (buffer : List UInt8) (length first : Nat) : Option ParsedIpPacket := do
  let code ← numberAt 1 buffer 9
  let src ← slice buffer 12 16
  let dst ← slice buffer 16 20
  let ports ← readPorts buffer length (ihl first) (protocolFromCode code)
  readTcp buffer length (ihl first) {
    version := first >>> 4
    protocol := protocolFromCode code
    sourceIp := dotted src
    destinationIp := dotted dst
    sourcePort := ports.1
    destinationPort := ports.2
    payloadOffset := ihl first
    payloadLength := length - ihl first }

theorem parse_of_first {first : Nat} (hlength : 20 ≤ length)
    (hfirst : numberAt 1 buffer 0 = some first) :
    parse buffer length =
      if first >>> 4 ≠ 4 ∨ length < ihl first then some none
      else (parseBody buffer length first).map some := by
  rw [parse, if_neg (by omega), hfirst]
  simp only [Option.bind_eq_bind, Option.bind_some, parseBody, ihl]
  by_cases hversion : first >>> 4 = 4
  · by_cases hihl : length < (first &&& 15) * 4
    · simp [hversion, hihl]
    · simp only [hversion, hihl, ne_eq, not_true_eq_false, or_self, if_false, Option.map_bind,
        Function.comp_def]
      simp only [Option.map_eq_bind]
      rfl
  · simp [hversion]

theorem parse_of_short (hlength : length < 20) : parse buffer length = some none := if_pos hlength

theorem parse_of_no_first (hlength : 20 ≤ length) (hfirst : numberAt 1 buffer 0 = none) :
    parse buffer length = none := by
  rw [parse, if_neg (by omega), hfirst]
  rfl

def Readable (buffer : List UInt8) (length ihl : Nat) (protocol : IpProtocol) : Prop :=
  20 ≤ buffer.length ∧
    ((protocol = .tcp ∨ protocol = .udp) ∧ length ≥ ihl + 4 → ihl + 4 ≤ buffer.length) ∧
    (protocol = .tcp ∧ length ≥ ihl + 20 → ihl + 16 ≤ buffer.length)

theorem parseBody_eq_some {first : Nat} (h : parseBody buffer length first = some p) :
    ∃ code, numberAt 1 buffer 9 = some code ∧
      Readable buffer length (ihl first) (protocolFromCode code) ∧
      p.protocol = protocolFromCode code ∧ p.payloadOffset = ihl first ∧
      p.payloadLength = length - ihl first ∧
      (p.protocol = .tcp → ihl first + 20 ≤ length →
        20 ≤ p.tcpHeaderLength ∧ ihl first + p.tcpHeaderLength ≤ length) ∧
      (¬ (p.protocol = .tcp ∧ ihl first + 20 ≤ length) → p.tcpHeaderLength = 0) := by
  obtain ⟨code, hcode, h⟩ := bind_eq_some_iff.mp h
  obtain ⟨src, -, h⟩ := bind_eq_some_iff.mp h
  obtain ⟨dst, hdst, h⟩ := bind_eq_some_iff.mp h
  obtain ⟨ports, hports, h⟩ := bind_eq_some_iff.mp h
  obtain ⟨hprotocol, hoffset, hpayload, hheader, hnone⟩ := readTcp_eq_some h rfl
  refine ⟨code, hcode, ⟨?_, ?_, ?_⟩, hprotocol, hoffset, hpayload, ?_, ?_⟩
  · exact (slice_isSome_iff (by omega)).mp (isSome_of_eq_some hdst)
  · exact (readPorts_isSome_iff _ _).mp (isSome_of_eq_some hports)
  · exact (readTcp_isSome_iff _).mp (isSome_of_eq_some h)
  · rw [hprotocol]
    exact hheader
  · rw [hprotocol]
    exact hnone

theorem parseBody_isSome {first code : Nat} (hcode : numberAt 1 buffer 9 = some code)
    (h : Readable buffer length (ihl first) (protocolFromCode code)) :
    (parseBody buffer length first).isSome := by
  obtain ⟨hroom, hports, htcp⟩ := h
  obtain ⟨src, hsrc⟩ : ∃ src, slice buffer 12 16 = some src :=
    isSome_iff_exists.mp ((slice_isSome_iff (by omega)).mpr (by omega))
  obtain ⟨dst, hdst⟩ : ∃ dst, slice buffer 16 20 = some dst :=
    isSome_iff_exists.mp ((slice_isSome_iff (by omega)).mpr hroom)
  obtain ⟨ports, hports⟩ := isSome_iff_exists.mp ((readPorts_isSome_iff _ _).mpr hports)
  rw [parseBody, hcode, hsrc, hdst]
  simp only [Option.bind_eq_bind, Option.bind_some, hports]
  exact (readTcp_isSome_iff _).mpr htcp

/-- `parse` does not throw on the bytes of the packet alone, so it reads
nothing else, and the ranges of what it returns are those of a packet of the
length. -/
def ParseSafe (buffer : List UInt8) (length : Nat) : Prop :=
  (parse (buffer.take length) length).isSome ∧
    ∀ p, parse buffer length = some (some p) → p.Within length

/-- `parse` declines the packet, or its headers are whole and the buffer holds
their fields. -/
def SoundLengths (buffer : List UInt8) (length : Nat) : Prop :=
  length < 20 ∨ ∃ first, numberAt 1 buffer 0 = some first ∧
    (first >>> 4 ≠ 4 ∨ length < ihl first ∨ ∃ code, numberAt 1 buffer 9 = some code ∧
      20 ≤ ihl first ∧ ihl first + minTransportHeader (protocolFromCode code) ≤ length ∧
      Readable buffer length (ihl first) (protocolFromCode code))

theorem within_iff_of_parseBody {first code : Nat} (hcode : numberAt 1 buffer 9 = some code)
    (h : parseBody buffer length first = some p) :
    p.Within length ↔
      20 ≤ ihl first ∧ ihl first + minTransportHeader (protocolFromCode code) ≤ length := by
  obtain ⟨code', hcode', -, hprotocol, hoffset, hpayload, hheader, hnone⟩ := parseBody_eq_some h
  obtain rfl : code' = code := Option.some.inj (hcode'.symm.trans hcode)
  rw [ParsedIpPacket.within_iff (by rw [hpayload, hoffset]), hoffset, hprotocol,
    ParsedIpPacket.transportHeaderLength, hprotocol]
  rw [hprotocol] at hheader hnone
  by_cases htcp : protocolFromCode code' = .tcp
  · simp only [htcp, minTransportHeader, if_true, forall_const, true_and] at hheader hnone ⊢
    by_cases hroom : ihl first + 20 ≤ length
    · omega
    · omega
  · have hmin : minTransportHeader (protocolFromCode code') = 8 := by
      unfold minTransportHeader
      split
      · next heq => exact absurd heq htcp
      · rfl
    rw [if_neg htcp, hmin]
    omega

/-- **Which packets are parsed safely**, with nothing behind the packet read:
those whose lengths are sound. -/
theorem parse_safe_iff (buffer : List UInt8) (length : Nat) :
    ParseSafe buffer length ↔ SoundLengths buffer length := by
  rw [ParseSafe, parse_take, SoundLengths]
  by_cases hlength : length < 20
  · simp [parse_of_short hlength, hlength]
  cases hfirst : numberAt 1 buffer 0 with
  | none =>
    rw [parse_of_no_first (not_lt.mp hlength) hfirst]
    simp [hlength]
  | some first =>
    rw [parse_of_first (by omega) hfirst]
    by_cases hdeclined : first >>> 4 ≠ 4 ∨ length < ihl first
    · rw [if_pos hdeclined]
      refine iff_of_true ⟨rfl, nofun⟩ (.inr ⟨first, rfl, ?_⟩)
      exact hdeclined.imp_right .inl
    rw [if_neg hdeclined, Option.isSome_map]
    obtain ⟨hversion, hihl⟩ := not_or.mp hdeclined
    constructor
    · rintro ⟨hsome, hwithin⟩
      obtain ⟨p, hp⟩ := isSome_iff_exists.mp hsome
      obtain ⟨code, hcode, hreadable, -⟩ := parseBody_eq_some hp
      have hok := (within_iff_of_parseBody hcode hp).mp (hwithin p (by rw [hp]; rfl))
      exact .inr ⟨first, rfl, .inr (.inr ⟨code, hcode, hok.1, hok.2, hreadable⟩)⟩
    · rintro (hshort | ⟨first', hfirst', hcases⟩)
      · exact absurd hshort hlength
      cases hfirst'
      rcases hcases with hnot | hnot | ⟨code, hcode, hip, htransport, hreadable⟩
      · exact absurd hnot hversion
      · exact absurd hnot hihl
      · refine ⟨parseBody_isSome hcode hreadable, fun p hp => ?_⟩
        obtain ⟨body, hbody, hsome⟩ := Option.map_eq_some_iff.mp hp
        cases hsome
        exact (within_iff_of_parseBody hcode hbody).mpr ⟨hip, htransport⟩

def headless : List UInt8 := [0x40, 0, 0, 20, 0, 0, 0, 0, 64, 6, 0, 0, 10, 0, 0, 2, 10, 0, 0, 1]

def portsOnly : List UInt8 :=
  [0x45, 0, 0, 24, 0, 0, 0, 0, 64, 6, 0, 0, 10, 0, 0, 2, 10, 0, 0, 1, 0x12, 0x34, 0x01, 0xBB]

/-- The header without a length is returned as one of no bytes; the truncated
segment is returned with its own ports for its data. -/
theorem parse_unsafe :
    (∃ p, parse headless 20 = some (some p) ∧ p.payloadOffset = 0 ∧ p.sourcePort = 0x4000 ∧
      p.tcpHeaderLength = 20) ∧
    (∃ p, parse portsOnly 24 = some (some p) ∧ p.dataOffset = 20 ∧ p.dataLength = 4 ∧
      p.transportHeaderLength = 0) ∧
    ¬ ParseSafe headless 20 ∧ ¬ ParseSafe portsOnly 24 := by
  refine ⟨⟨_, rfl, by decide⟩, ⟨_, rfl, by decide⟩, fun h => ?_, fun h => ?_⟩
  · exact absurd (h.2 _ rfl).ipHeader (by decide)
  · exact absurd (h.2 _ rfl).transportHeader (by decide)

end IpPacketParser

end BigRocket.Service
