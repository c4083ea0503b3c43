/-
A packet comes out of its datagram as it went in: the first byte of a bare
packet is never read as context id 0.
-/
import BigRocket.Masque.Datagram
import BigRocket.Masque.CapsuleTheorems

namespace BigRocket.Masque

open Lib List

/-- An IPv4 packet whose header says that it has at least 20 bytes, or an
IPv6 packet, of at least 20 bytes. -/
def IsIpPacket : List UInt8 → Prop
  | [] => False
  | first :: rest =>
    (first >>> 4 = 4 ∧ 20 ≤ (first &&& 0x0f).toNat * 4 ∨ first >>> 4 = 6) ∧
      20 ≤ (first :: rest).length

instance (packet : List UInt8) : Decidable (IsIpPacket packet) :=
  match packet with
  | [] => inferInstanceAs (Decidable False)
  | _ :: _ => inferInstanceAs (Decidable (_ ∧ _))

/-! ## The two readings -/

theorem firstByte_varint {first : UInt8}
    (h : first >>> 4 = 4 ∧ 20 ≤ (first &&& 0x0f).toNat * 4 ∨ first >>> 4 = 6) :
    varintParseLen first = 2 ∧ 0 < first.toNat % 64 := by
  have hall : ∀ first : UInt8, (first >>> 4 = 4 ∧ 20 ≤ (first &&& 0x0f).toNat * 4 ∨ first >>> 4 = 6) →
      varintParseLen first = 2 ∧ 0 < first.toNat % 64 := by decide +kernel
  exact hall first h

variable (streamId : UInt64) {packet : List UInt8}

theorem looksLikeIpPacket_of_isIpPacket (h : IsIpPacket packet) :
    looksLikeIpPacket packet = true := by
  cases packet with
  | nil => exact h.elim
  | cons first rest =>
    obtain ⟨hversion, hlength⟩ := h
    rw [looksLikeIpPacket, Bool.and_eq_true]
    refine ⟨?_, decide_eq_true hlength⟩
    rcases hversion with ⟨hfour, -⟩ | hsix
    · simp [hfour]
    · simp [hsix]

theorem getVarint_packet (h : IsIpPacket packet) :
    ∃ ctx rest, getVarint packet = .ok (ctx, rest) ∧ ctx ≠ connectIpContextId := by
  match packet, h with
  | [first], ⟨_, hlength⟩ => exact absurd hlength (by simp)
  | first :: second :: rest, ⟨hversion, _⟩ =>
    obtain ⟨hlen, htop⟩ := firstByte_varint hversion
    have hsecond := second.toNat_lt
    rw [getVarint_cons, hlen, if_neg (by simp)]
    refine ⟨_, _, rfl, ?_⟩
    simp only [take_succ_cons, take_zero, beNat, length_cons, length_nil,
      connectIpContextId]
    omega

theorem stripDatagramContext_bare (h : IsIpPacket packet) :
    stripDatagramContext packet = some packet := by
  have hne : packet ≠ [] := by
    rintro rfl
    exact h
  obtain ⟨ctx, rest, hread, hctx⟩ := getVarint_packet h
  simp only [stripDatagramContext, if_neg hne, hread, if_neg hctx,
    looksLikeIpPacket_of_isIpPacket h, if_true]

theorem stripDatagramContext_behind {ctx : List UInt8} (h : IsIpPacket packet)
    (hctx : getVarint (ctx ++ packet) = .ok (connectIpContextId, packet)) :
    stripDatagramContext (ctx ++ packet) = some packet := by
  have hne : ctx ++ packet ≠ [] := by
    intro hnil
    rw [(append_eq_nil_iff.mp hnil).2] at h
    exact h
  have hinner : (ctx ++ packet).drop ((ctx ++ packet).length - packet.length) = packet := by
    rw [length_append, Nat.add_sub_cancel, drop_left]
  simp only [stripDatagramContext, if_neg hne, hctx, if_true, hinner,
    looksLikeIpPacket_of_isIpPacket h]

/-! ## Behind a stream's id -/

theorem OctetsMut.tryPut_fits (written bytes : List UInt8) (room : Nat) :
    (OctetsMut.mk written (bytes.length + room)).tryPut bytes = .ok ⟨written ++ bytes, room⟩ := by
  simp [OctetsMut.tryPut]

theorem quarterStreamId_lt : quarterStreamId streamId < varintLimit := by
  have hlt := streamId.toNat_lt
  rw [quarterStreamId, varintLimit]
  omega

theorem encodeIpDatagram_eq (packet : List UInt8) :
    encodeIpDatagram streamId packet =
      .ok (putVarint (quarterStreamId streamId) ++ (putVarint connectIpContextId ++ packet)) := by
  have hqsid := quarterStreamId_lt streamId
  have hctx : connectIpContextId < varintLimit := by decide
  have hroom : varintLen (quarterStreamId streamId) + varintLen connectIpContextId + packet.length =
      (putVarint (quarterStreamId streamId)).length +
        ((putVarint connectIpContextId).length + (packet.length + 0)) := by
    rw [length_putVarint hqsid, length_putVarint hctx]
    omega
  simp only [encodeIpDatagram, hroom, OctetsMut.tryPut_fits, oct, bind, Except.bind, pure,
    Except.pure]
  simp [OctetsMut.bytes]

theorem decodeIpDatagram_eq (expectStreamId : UInt64) (packet : List UInt8) :
    decodeIpDatagram
        (putVarint (quarterStreamId streamId) ++ (putVarint connectIpContextId ++ packet))
        expectStreamId =
      .ok (if quarterStreamId streamId = quarterStreamId expectStreamId then some packet
        else none) := by
  have hread := getVarint_putVarint (quarterStreamId_lt streamId)
    (putVarint connectIpContextId ++ packet)
  have hctx := getVarint_putVarint (by decide : connectIpContextId < varintLimit) packet
  have hrest := getBytes_ok packet.length packet le_rfl
  simp only [decodeIpDatagram, hread, oct, bind, Except.bind]
  by_cases hsame : quarterStreamId streamId = quarterStreamId expectStreamId
  · simp only [hsame, ne_eq, not_true, if_false, hctx, hrest, if_true, take_length]
    rfl
  · simp only [hsame, ne_eq, not_false_iff, if_true, if_false]
    rfl

/-! ## Both ways -/

/-- **Contexts are stripped exactly**: of a capsule, with context id 0 or without,
and of a QUIC datagram for the streams with the same quarter alone. -/
theorem contexts_stripped (packet : List UInt8) :
    (IsIpPacket packet →
      stripDatagramContext packet = some packet ∧
        stripDatagramContext (putVarint connectIpContextId ++ packet) = some packet ∧
        ∀ ctx, getVarint (ctx ++ packet) = .ok (connectIpContextId, packet) →
          stripDatagramContext (ctx ++ packet) = some packet) ∧
    ∀ sid sid' : UInt64, ∃ datagram, encodeIpDatagram sid packet = .ok datagram ∧
      (decodeIpDatagram datagram sid' = .ok (some packet) ↔ sid.toNat / 4 = sid'.toNat / 4) := by
  constructor
  · intro h
    have hzero := getVarint_putVarint (by decide : connectIpContextId < varintLimit) packet
    exact ⟨stripDatagramContext_bare h, stripDatagramContext_behind h hzero,
      fun ctx hctx => stripDatagramContext_behind h hctx⟩
  · intro sid sid'
    refine ⟨_, encodeIpDatagram_eq sid packet, ?_⟩
    rw [decodeIpDatagram_eq, quarterStreamId, quarterStreamId]
    by_cases hsame : sid.toNat / 4 = sid'.toNat / 4
    · simp [hsame]
    · simp [hsame]

theorem contexts_stripped_twoByteContext :
    stripDatagramContext
        ([0x40, 0] ++ [0x45, 0, 0, 20, 0, 0, 0, 0, 64, 17, 0, 0, 10, 0, 0, 1, 10, 0, 0, 2]) =
      some [0x45, 0, 0, 20, 0, 0, 0, 0, 64, 17, 0, 0, 10, 0, 0, 1, 10, 0, 0, 2] :=
  ((contexts_stripped [0x45, 0, 0, 20, 0, 0, 0, 0, 64, 17, 0, 0, 10, 0, 0, 1, 10, 0, 0, 2]).1
    (by decide)).2.2 [0x40, 0] rfl

end BigRocket.Masque
