/-
The packets of the builders pass a receiver's test.
-/
import BigRocket.Lib.OnesComplement
import BigRocket.Service.IpPacketTheorems

namespace BigRocket.Service

open Lib Lib.Kotlin
open List hiding Vector
open Lib.OnesComplement (Folds words)

namespace IpPacketBuilder

/-! ## The sums of the source -/

theorem shiftLeft_or (high low : UInt8) :
    high.toNat <<< 8 ||| low.toNat = high.toNat * 256 + low.toNat := by
  have hlow : low.toNat < 2 ^ 8 := low.toNat_lt
  rw [← Nat.shiftLeft_add_eq_or_of_lt hlow, Nat.shiftLeft_eq]

theorem wordSum_eq_sum_words (bytes : List UInt8) : wordSum bytes = (words bytes).sum := by
  fun_induction wordSum bytes with
  | case1 high low rest ih => rw [words, sum_cons, ih, shiftLeft_or]
  | case2 high => rw [words, sum_singleton, Nat.shiftLeft_eq]
  | case3 => rfl

theorem wordSum_append {front : List UInt8} (heven : Even front.length) (back : List UInt8) :
    wordSum (front ++ back) = wordSum front + wordSum back := by
  simp only [wordSum_eq_sum_words, OnesComplement.words_append heven, sum_append]

theorem folds_foldCarries (n : Nat) : Folds n (foldCarries n) := by
  fun_induction foldCarries n with
  | case1 n hnone =>
    exact OnesComplement.folds_self (by omega)
  | case2 n hcarry ih =>
    -- the carry weighs 2 ^ 16, which is one modulo `0xFFFF`
    have hfold : (n &&& 0xFFFF) + n >>> 16 = n % 2 ^ 16 + n / 2 ^ 16 := by
      rw [show (0xFFFF : Nat) = 2 ^ 16 - 1 from rfl, Nat.and_two_pow_sub_one_eq_mod,
        Nat.shiftRight_eq_div_pow]
    rw [hfold] at ih ⊢
    refine ⟨ih.le, ih.modEq.trans ?_, ih.zero.trans ?_⟩
    · show (n % 2 ^ 16 + n / 2 ^ 16) % 0xFFFF = n % 0xFFFF
      omega
    · omega

theorem xor_ones {v : Nat} (h : v ≤ 0xFFFF) : (v ^^^ 0xFFFF) &&& 0xFFFF = 0xFFFF - v := by
  have hxor : v ^^^ (2 ^ 16 - 1) = 2 ^ 16 - (v + 1) := by
    refine Nat.eq_of_testBit_eq fun i => ?_
    rw [Nat.testBit_xor, Nat.testBit_two_pow_sub_one, Nat.testBit_two_pow_sub_succ (by omega)]
    by_cases hi : i < 16
    · simp [hi]
    · have hhigh : v.testBit i = false :=
        Nat.testBit_lt_two_pow (lt_of_lt_of_le (by omega : v < 2 ^ 16)
          (Nat.pow_le_pow_right (by omega) (by omega)))
      simp [hi, hhigh]
  rw [show (0xFFFF : Nat) = 2 ^ 16 - 1 from rfl, hxor, Nat.and_two_pow_sub_one_eq_mod]
  omega

/-! ## A checksum over two zero bytes -/

theorem wordSum_lowBytes (n : Nat) : wordSum (lowBytes 2 n) = n % 2 ^ 16 := by
  have hn : ((n : Int) % 256 ^ 2).toNat = n % 2 ^ 16 := by omega
  have hhigh : (UInt8.ofNat (n % 2 ^ 16 / 256)).toNat = n % 2 ^ 16 / 256 := by
    rw [UInt8.toNat_ofNat', Nat.mod_eq_of_lt (by omega)]
  have hlow : (UInt8.ofNat (n % 2 ^ 16)).toNat = n % 2 ^ 16 % 256 := UInt8.toNat_ofNat'
  rw [lowBytes, hn, wordSum_eq_sum_words]
  simp only [beBytes, pow_one, pow_zero, Nat.div_one, words, sum_cons, sum_nil, hhigh,
    hlow]
  omega

variable {bytes packet src dst : List UInt8} {pos n c : Nat}

theorem wordSum_overwrite (hzero : (bytes.drop pos).take 2 = [0, 0]) (heven : Even pos)
    (hc : c ≤ 0xFFFF) : wordSum (overwrite bytes pos (lowBytes 2 c)) = wordSum bytes + c := by
  have hlength : pos ≤ bytes.length := by
    by_contra hlt
    rw [drop_eq_nil_of_le (by omega)] at hzero
    cases hzero
  have hfront : Even (bytes.take pos).length := by
    rw [length_take, min_eq_left hlength]
    exact heven
  have hsplit : bytes = bytes.take pos ++ ([0, 0] ++ bytes.drop (pos + 2)) := by
    rw [← hzero, ← drop_drop, take_append_drop, take_append_drop]
  have hsum : wordSum bytes = wordSum (bytes.take pos) + wordSum (bytes.drop (pos + 2)) := by
    conv_lhs => rw [hsplit]
    rw [wordSum_append hfront, wordSum_append (by simp)]
    simp [wordSum]
  rw [overwrite, length_lowBytes, append_assoc, wordSum_append hfront,
    wordSum_append (by rw [length_lowBytes]; exact even_two), wordSum_lowBytes, hsum]
  omega

theorem drop_overwrite (hn : n ≤ pos) (hpos : pos ≤ packet.length) (patch : List UInt8) :
    (overwrite packet pos patch).drop n = overwrite (packet.drop n) (pos - n) patch := by
  have hfront : n ≤ (packet.take pos).length := by
    rw [length_take]
    omega
  rw [overwrite, overwrite, append_assoc, append_assoc,
    drop_append_of_le_length hfront, drop_take, drop_drop]
  congr 3
  omega

theorem take_overwrite {patch : List UInt8} (hn : pos + patch.length ≤ n)
    (hpos : pos ≤ packet.length) :
    (overwrite packet pos patch).take n = overwrite (packet.take n) pos patch := by
  rw [overwrite, overwrite, append_assoc, append_assoc, take_append, take_append,
    length_take, min_eq_left hpos, take_take, take_take, drop_take,
    min_eq_right (by omega), min_eq_left (by omega),
    take_of_length_le (by omega : patch.length ≤ n - pos), Nat.sub_sub]

/-! ## The receiver -/

def HeaderVerifies (packet : List UInt8) : Prop :=
  OnesComplement.sum (words (packet.take 20)) = 0xFFFF

/-- The pseudo-header that the receiver takes from the packet: the addresses,
a zero, the protocol and the length of the segment. -/
def pseudoHeader (packet : List UInt8) : List UInt8 :=
  (packet.drop 12).take 4 ++ (packet.drop 16).take 4 ++ [0] ++ (packet.drop 9).take 1 ++
    lowBytes 2 (packet.length - 20 : Nat)

def TransportVerifies (packet : List UInt8) : Prop :=
  OnesComplement.sum (words (pseudoHeader packet ++ packet.drop 20)) = 0xFFFF

theorem sum_eq_ones_iff (bytes : List UInt8) :
    OnesComplement.sum (words bytes) = 0xFFFF ↔ 0 < wordSum bytes ∧ 0xFFFF ∣ wordSum bytes := by
  rw [OnesComplement.sum_words_eq_ones_iff, wordSum_eq_sum_words]

theorem headerVerifies_overwrite (hzero : (packet.drop 10).take 2 = [0, 0])
    (hlength : 20 ≤ packet.length) :
    HeaderVerifies (overwrite packet 10 (lowBytes 2 (computeIpChecksum packet 0 20))) := by
  have hfolds := folds_foldCarries (wordSum (packet.take 20))
  have hchecksum : computeIpChecksum packet 0 20 = 0xFFFF - foldCarries (wordSum (packet.take 20)) :=
    xor_ones hfolds.le
  have hzero' : ((packet.take 20).drop 10).take 2 = [0, 0] := by
    rw [drop_take, take_take, min_eq_left (by omega), hzero]
  rw [HeaderVerifies, sum_eq_ones_iff, take_overwrite (by simp) (by omega),
    wordSum_overwrite hzero' (by decide) (by omega), hchecksum]
  exact hfolds.add_complement

theorem computeTransportChecksum_completes (src dst data : List UInt8)
    (protocol offset length : Nat) :
    let sum := wordSum src + wordSum dst + (protocol &&& 0xFF) + (length &&& 0xFFFF) +
      wordSum ((data.drop offset).take length)
    let checksum := computeTransportChecksum src dst protocol data offset length
    checksum ≤ 0xFFFF ∧ (protocol = 17 → checksum ≠ 0) ∧
      0 < sum + checksum ∧ 0xFFFF ∣ sum + checksum := by
  intro sum checksum
  have hfolds := folds_foldCarries sum
  have hcomplement := hfolds.add_complement
  have hle := hfolds.le
  have hchecksum : checksum = if 0xFFFF - foldCarries sum = 0 ∧ protocol = 17 then 0xFFFF
      else 0xFFFF - foldCarries sum := by
    rw [← xor_ones hle]
    rfl
  rw [hchecksum]
  split
  · next hudp => exact ⟨le_rfl, fun _ => by omega, by omega, by omega⟩
  · next hplain => exact ⟨by omega, fun h17 hzero => hplain ⟨hzero, h17⟩, hcomplement⟩

variable {protocol sumAt length : Nat} {payload : List UInt8}

theorem wordSum_pseudoHeader (hprotocol : protocol < 256) (hsrc : src.length = 4)
    (hdst : dst.length = 4) (h : Holds packet (ipFields protocol src dst)) (back : List UInt8) :
    wordSum (pseudoHeader packet ++ back) =
      wordSum src + wordSum dst + (protocol &&& 0xFF) + (packet.length - 20 &&& 0xFFFF) +
        wordSum back := by
  have hsource : (packet.drop 12).take 4 = src := by
    rw [← hsrc]
    exact h.take_drop (by simp [ipFields])
  have hdestination : (packet.drop 16).take 4 = dst := by
    rw [← hdst]
    exact h.take_drop (by simp [ipFields])
  have hprotocolField : (9, [UInt8.ofNat protocol]) ∈ ipFields protocol src dst := by
    simp [ipFields]
  have hcode : (packet.drop 9).take 1 = [UInt8.ofNat protocol] := h.take_drop hprotocolField
  have hwords : pseudoHeader packet ++ back = src ++ (dst ++ ([0, UInt8.ofNat protocol] ++
      (lowBytes 2 (packet.length - 20 : Nat) ++ back))) := by
    rw [pseudoHeader, hsource, hdestination, hcode]
    simp only [append_assoc, cons_append, nil_append]
  have hprotocolSum : wordSum [0, UInt8.ofNat protocol] = protocol &&& 0xFF := by
    rw [show (0xFF : Nat) = 2 ^ 8 - 1 from rfl, Nat.and_two_pow_sub_one_eq_mod]
    simp [wordSum, Nat.mod_eq_of_lt hprotocol]
  have hlengthSum : wordSum (lowBytes 2 (packet.length - 20 : Nat)) =
      packet.length - 20 &&& 0xFFFF := by
    rw [wordSum_lowBytes, show (0xFFFF : Nat) = 2 ^ 16 - 1 from rfl,
      Nat.and_two_pow_sub_one_eq_mod]
  rw [hwords, wordSum_append (by rw [hsrc]; decide), wordSum_append (by rw [hdst]; decide),
    wordSum_append (by simp), wordSum_append (by rw [length_lowBytes]; exact even_two),
    hprotocolSum, hlengthSum]
  omega

theorem transportVerifies_overwrite (hprotocol : protocol < 256) (hsrc : src.length = 4)
    (hdst : dst.length = 4) (h : Holds packet (ipFields protocol src dst))
    (hlength : packet.length = 20 + length) (hzero : (packet.drop sumAt).take 2 = [0, 0])
    (heven : Even sumAt) (hsum : 20 ≤ sumAt ∧ sumAt + 2 ≤ packet.length) :
    TransportVerifies (overwrite packet sumAt
      (lowBytes 2 (computeTransportChecksum src dst protocol packet 20 length))) := by
  obtain ⟨hle, -, hpos, hdvd⟩ := computeTransportChecksum_completes src dst packet protocol 20 length
  generalize computeTransportChecksum src dst protocol packet 20 length = checksum at *
  have hroom : sumAt + (lowBytes 2 checksum).length ≤ packet.length := by
    exact hsum.2
  have hfields : Holds (overwrite packet sumAt (lowBytes 2 checksum)) (ipFields protocol src dst) :=
    h.overwrite hroom (by simp [ipFields, Apart, hsrc, hdst]; omega)
  have hsegment : ((packet.drop 20).drop (sumAt - 20)).take 2 = [0, 0] := by
    rw [drop_drop, Nat.add_sub_cancel' hsum.1, hzero]
  have hall : (packet.drop 20).take length = packet.drop 20 :=
    take_of_length_le (by rw [length_drop]; omega)
  have heven' : Even (sumAt - 20) := (Nat.even_sub hsum.1).mpr (iff_of_true heven (by decide))
  rw [TransportVerifies, sum_eq_ones_iff, wordSum_pseudoHeader hprotocol hsrc hdst hfields,
    length_overwrite hroom, drop_overwrite hsum.1 (by omega), wordSum_overwrite hsegment heven' hle,
    hlength, Nat.add_sub_cancel_left]
  rw [hall] at hpos hdvd
  rw [← Nat.add_assoc]
  exact ⟨hpos, hdvd⟩

/-! ## The builders -/

theorem headerVerifies_writeIpHeader (totalLen protocol : Nat) (hsrc : src.length = 4)
    (hdst : dst.length = 4) (hroom : 20 ≤ packet.length) :
    HeaderVerifies (writeIpHeader packet totalLen protocol src dst) := by
  have hinside := inside_ipHeader totalLen protocol hsrc hdst hroom
  have hapart : (ipHeader totalLen protocol src dst).Pairwise Apart := by
    simp [ipHeader, Apart, hsrc, hdst]
  have hmem : (10, lowBytes 2 0) ∈ ipHeader totalLen protocol src dst := by simp [ipHeader]
  have hzero := (holds_writes hinside hapart).take_drop hmem
  exact headerVerifies_overwrite hzero (by rw [length_writes hinside]; exact hroom)

theorem HeaderVerifies.of_slice {packet' : List UInt8} (h : HeaderVerifies packet)
    (hslice : slice packet' 0 20 = slice packet 0 20) (hlength : 20 ≤ packet.length) :
    HeaderVerifies packet' := by
  have hsome : slice packet 0 20 = some (packet.take 20) := if_pos ⟨by omega, hlength⟩
  have htake := (window_of_slice (hslice.trans hsome)).1.take_drop
  rw [drop_zero, length_take, min_eq_left hlength] at htake
  rw [HeaderVerifies, htake]
  exact h

theorem verifies_of_zeros (hprotocol : protocol < 256) (hsrc : src.length = 4)
    (hdst : dst.length = 4) (hheader : HeaderVerifies packet)
    (hfields : Holds packet (ipFields protocol src dst))
    (hzeros : Holds packet [(sumAt, lowBytes 2 0)]) (heven : Even sumAt)
    (hlength : packet.length = 20 + length) (hsum : 20 ≤ sumAt ∧ sumAt + 2 ≤ packet.length)
    {checksum : Nat}
    (hchecksum : computeTransportChecksum src dst protocol packet 20 length = checksum) :
    HeaderVerifies (overwrite packet sumAt (lowBytes 2 checksum)) ∧
      TransportVerifies (overwrite packet sumAt (lowBytes 2 checksum)) ∧
      numberAt 2 (overwrite packet sumAt (lowBytes 2 checksum)) sumAt = some checksum := by
  have hroom : sumAt + (lowBytes 2 checksum).length ≤ packet.length := by
    exact hsum.2
  have hle : checksum ≤ 0xFFFF := by
    rw [← hchecksum]
    exact (computeTransportChecksum_completes src dst packet protocol 20 length).1
  refine ⟨hheader.of_slice ?_ (by omega), ?_, ?_⟩
  · rw [slice_overwrite_of_disjoint hroom (.inl hsum.1)]
  · have hzero := hzeros.take_drop (mem_singleton_self _)
    rw [← hchecksum]
    exact transportVerifies_overwrite hprotocol hsrc hdst hfields hlength hzero heven hsum
  · exact (holds_overwrite hroom).numberAt (lowBytes 2 checksum) (by simp) (length_lowBytes ..)
      (beNat_lowBytes (by omega))

/-- A transport header behind the IPv4 header, and the payload behind both,
leave the IPv4 header alone, and the zeros of the transport header stay. -/
theorem zeros_of_layout {size : Nat} {header : List (Nat × List UInt8)} (hsrc : src.length = 4)
    (hdst : dst.length = 4) (hheader : HeaderVerifies packet)
    (hip : Holds packet (ipFields protocol src dst)) (hinside : Inside header size)
    (hbehind : ∀ patch ∈ header, 20 ≤ patch.1) (hapart : header.Pairwise Apart)
    (hmem : (sumAt, lowBytes 2 0) ∈ header) (hlength : packet.length = size + payload.length) :
    HeaderVerifies (overwrite (writes packet header) size payload) ∧
      Holds (overwrite (writes packet header) size payload) (ipFields protocol src dst) ∧
      Holds (overwrite (writes packet header) size payload) [(sumAt, lowBytes 2 0)] ∧
      (overwrite (writes packet header) size payload).length = size + payload.length := by
  have hsumAt : 20 ≤ sumAt ∧ sumAt + 2 ≤ size := ⟨hbehind _ hmem, hinside _ hmem⟩
  have hinside' : Inside header packet.length := fun patch hpatch =>
    (hinside patch hpatch).trans (by omega)
  have hwritten := length_writes hinside'
  have hroom : size + payload.length ≤ (writes packet header).length := by omega
  have hipEnd : ∀ field ∈ ipFields protocol src dst, field.1 + field.2.length ≤ 20 := by
    simp [ipFields, hsrc, hdst]
  refine ⟨hheader.of_slice ?_ (by omega), ?_, ?_, by rw [length_overwrite hroom]; omega⟩
  · rw [slice_overwrite_of_disjoint hroom (.inl (by omega)),
      slice_writes_of_outside hinside' fun patch hpatch => .inl (hbehind patch hpatch)]
  · exact (hip.writes hinside' fun field hfield patch hpatch =>
      .inl ((hipEnd field hfield).trans (hbehind patch hpatch))).overwrite hroom
        fun field hfield => .inl ((hipEnd field hfield).trans (by omega))
  · exact ((holds_writes hinside' hapart).mono (by simpa using hmem)).overwrite hroom
      (by simp [Apart, hsumAt.2])

theorem verifies_of_layout {size : Nat} {header : List (Nat × List UInt8)}
    (hprotocol : protocol < 256) (hsrc : src.length = 4) (hdst : dst.length = 4)
    (hinside : Inside header size) (hbehind : ∀ patch ∈ header, 20 ≤ patch.1)
    (hapart : header.Pairwise Apart) (hmem : (sumAt, lowBytes 2 0) ∈ header) (heven : Even sumAt)
    (hsize : size + payload.length = 20 + length) {unsummed : List UInt8}
    (hunsummed : overwrite (writes (writeIpHeader (List.replicate (20 + length) 0) (20 + length)
      protocol src dst) header) size payload = unsummed)
    {checksum : Nat}
    (hchecksum : computeTransportChecksum src dst protocol unsummed 20 length = checksum) :
    HeaderVerifies (overwrite unsummed sumAt (lowBytes 2 checksum)) ∧
      TransportVerifies (overwrite unsummed sumAt (lowBytes 2 checksum)) ∧
      numberAt 2 (overwrite unsummed sumAt (lowBytes 2 checksum)) sumAt = some checksum := by
  obtain ⟨hip, hfresh⟩ := fresh_packet (20 + length) protocol hsrc hdst (by omega)
  have hheader : HeaderVerifies (writeIpHeader (List.replicate (20 + length) 0) (20 + length)
      protocol src dst) :=
    headerVerifies_writeIpHeader _ protocol hsrc hdst (by simp)
  obtain ⟨hheader', hfields, hzeros, hlength⟩ :=
    zeros_of_layout hsrc hdst hheader hip hinside hbehind hapart hmem (hfresh.trans hsize.symm)
  rw [hunsummed] at hheader' hfields hzeros hlength
  have hroom : sumAt + 2 ≤ size := hinside _ hmem
  exact verifies_of_zeros hprotocol hsrc hdst hheader' hfields hzeros heven (hlength.trans hsize)
    ⟨hbehind _ hmem, by omega⟩ hchecksum

variable {jvm : Jvm} {srcIp dstIp : Text} {data : List UInt8}

theorem length_mapM_parseOctet {parts : List Text} (h : parts.mapM (parseOctet jvm) = some bytes) :
    bytes.length = parts.length := by
  induction parts generalizing bytes with
  | nil =>
    cases h
    rfl
  | cons part parts ih =>
    rw [mapM_cons] at h
    obtain ⟨b, -, h⟩ := Option.bind_eq_some_iff.mp h
    obtain ⟨rest, hrest, h⟩ := Option.bind_eq_some_iff.mp h
    cases h
    rw [length_cons, length_cons, ih hrest]

theorem length_parseIpAddress (h : parseIpAddress jvm srcIp = some src) : src.length = 4 := by
  simp only [parseIpAddress] at h
  split at h
  · cases h
  · next hparts =>
      rw [length_mapM_parseOctet h]
      omega

theorem length_copyPayload {offset : Int} (h : copyPayload data offset n = some payload) :
    payload.length = n := by
  unfold copyPayload at h
  split at h
  · split at h
    · cases h
    · rw [(window_of_slice h).2.1]
      omega
  · cases h
    simp only [length_nil]
    omega

theorem buildTcpResponsePacket_verifies
    {srcPort dstPort seqNumber ackNumber flags dataLength dataOffset : Int}
    (h : buildTcpResponsePacket jvm srcIp srcPort dstIp dstPort seqNumber ackNumber flags data
      dataLength dataOffset = some packet) : HeaderVerifies packet ∧ TransportVerifies packet := by
  unfold buildTcpResponsePacket at h
  generalize (min (max dataLength 0) (max (data.length - dataOffset) 0)).toNat = n at h
  obtain ⟨src, hsrc, h⟩ := Option.bind_eq_some_iff.mp h
  obtain ⟨dst, hdst, h⟩ := Option.bind_eq_some_iff.mp h
  obtain ⟨payload, hpayload, h⟩ := Option.bind_eq_some_iff.mp h
  have hlength := length_copyPayload hpayload
  have hinside : Inside (tcpHeader srcPort dstPort seqNumber ackNumber flags) 40 := by
    simp [Inside, tcpHeader]
  have hmem : (36, lowBytes 2 0) ∈ tcpHeader srcPort dstPort seqNumber ackNumber flags := by
    simp [tcpHeader]
  have hsize : 40 + payload.length = 20 + (20 + n) := by omega
  have hboth := verifies_of_layout (by decide : 6 < 256) (length_parseIpAddress hsrc)
    (length_parseIpAddress hdst) hinside (by simp [tcpHeader]) (by simp [tcpHeader, Apart]) hmem
    (by decide) hsize rfl rfl
  rw [← Option.some.inj h]
  exact ⟨hboth.1, hboth.2.1⟩

theorem buildUdpResponsePacket_verifies {srcPort dstPort dataLength : Int}
    (h : buildUdpResponsePacket jvm srcIp srcPort dstIp dstPort data dataLength = some packet) :
    HeaderVerifies packet ∧ TransportVerifies packet ∧
      ∃ checksum, numberAt 2 packet 26 = some checksum ∧ checksum ≠ 0 := by
  unfold buildUdpResponsePacket at h
  have hn : (min (max dataLength 0) data.length).toNat ≤ data.length := by omega
  generalize (min (max dataLength 0) (data.length : Int)).toNat = n at h hn
  obtain ⟨src, hsrc, h⟩ := Option.bind_eq_some_iff.mp h
  obtain ⟨dst, hdst, h⟩ := Option.bind_eq_some_iff.mp h
  have hinside : Inside (udpHeader srcPort dstPort (8 + n)) 28 := by simp [Inside, udpHeader]
  have hmem : (26, lowBytes 2 0) ∈ udpHeader srcPort dstPort (8 + n) := by simp [udpHeader]
  have hsize : 28 + (data.take n).length = 20 + (8 + n) := by
    rw [length_take]
    omega
  have hall := verifies_of_layout (by decide : 17 < 256) (length_parseIpAddress hsrc)
    (length_parseIpAddress hdst) hinside (by simp [udpHeader]) (by simp [udpHeader, Apart]) hmem
    (by decide) hsize rfl rfl
  have hnonzero := (computeTransportChecksum_completes src dst (overwrite (writes (writeIpHeader
    (List.replicate (20 + (8 + n)) 0) (20 + (8 + n)) 17 src dst) (udpHeader srcPort dstPort (8 + n)))
      28 (data.take n)) 17 20 (8 + n)).2.1 rfl
  rw [← Option.some.inj h]
  exact ⟨hall.1, hall.2.1, _, hall.2.2, hnonzero⟩

/-- **Every packet that is built verifies**: the header, the segment with its
pseudo-header, and a UDP packet has a checksum. -/
theorem built_packets_verify (jvm : Jvm) (src dst : Vector UInt8 4)
    (srcPort dstPort seqNumber ackNumber flags : Int) (pre payload post : List UInt8) :
    (∃ packet, buildTcpResponsePacket jvm (IpPacketParser.dotted src.toList) srcPort
        (IpPacketParser.dotted dst.toList) dstPort seqNumber ackNumber flags
        (pre ++ payload ++ post) payload.length pre.length = some packet ∧
      HeaderVerifies packet ∧ TransportVerifies packet) ∧
    ∃ packet, buildUdpResponsePacket jvm (IpPacketParser.dotted src.toList) srcPort
        (IpPacketParser.dotted dst.toList) dstPort (payload ++ post) payload.length = some packet ∧
      HeaderVerifies packet ∧ TransportVerifies packet ∧
      ∃ checksum, numberAt 2 packet 26 = some checksum ∧ checksum ≠ 0 := by
  constructor
  · obtain ⟨packet, hbuilt, -⟩ := buildTcpResponsePacket_holds jvm srcPort dstPort seqNumber
      ackNumber flags src.length_toList dst.length_toList pre payload post
    exact ⟨packet, hbuilt, buildTcpResponsePacket_verifies hbuilt⟩
  · obtain ⟨packet, hbuilt, -⟩ := buildUdpResponsePacket_holds jvm srcPort dstPort
      src.length_toList dst.length_toList payload post
    exact ⟨packet, hbuilt, buildUdpResponsePacket_verifies hbuilt⟩

end IpPacketBuilder

end BigRocket.Service
