/-
`BinaryFrameCodec` is a bijection between the frames it admits and the byte
arrays it accepts. `wireBytes h p` is the normal form both directions go
through.
-/
import BigRocket.Bonding.FrameCodec
import BigRocket.Lib.Except

namespace BigRocket.Bonding.BinaryFrameCodec

open Lib List

def wireBytes (header : FrameHeader) (payload : List UInt8) : List UInt8 :=
  putInt magic ++ (fieldBytes header ++ (putLong header.checksum ++ payload))

/-- The admission conditions the two directions share: version 1 and a
payload length that agrees with its field and stays under the ceiling. -/
structure Admissible (f : Frame) : Prop where
  version : f.header.version = currentVersion
  payloadSize : f.header.payloadSize.toInt = f.payload.length
  bounded : f.payload.length ≤ maxPayloadSize

def withChecksum (crc32 : List UInt8 → UInt32) (f : Frame) : Frame :=
  { f with header := { f.header with checksum := computeChecksum crc32 f.header f.payload } }

theorem length_fieldBytes (header : FrameHeader) : (fieldBytes header).length = 30 := by
  simp [fieldBytes]

theorem length_wireBytes (header : FrameHeader) (payload : List UInt8) :
    (wireBytes header payload).length = headerSize + payload.length := by
  simp only [wireBytes, length_append, length_putInt, length_fieldBytes, length_putLong,
    headerSize]
  omega

/-! ## Inverting the reader

`decode` is a chain of reads and of guards that return `null`. One lemma
for each kind of link, so that its two inversions below are flat. -/

theorem guard_eq_some {ε α : Type} {c : Prop} [Decidable c] {k : Except ε (Option α)} {a : α}
    (h : (if c then pure none else k) = .ok (some a)) : ¬ c ∧ k = .ok (some a) := by
  split at h
  · cases h
  · next hc => exact ⟨hc, h⟩

section
variable (crc32 : List UInt8 → UInt32)

/-! ## Encoding -/

variable {f : Frame}

theorem encode_eq_ok (h : Admissible f) :
    encode crc32 f = .ok (wireBytes (withChecksum crc32 f).header f.payload) := by
  have hsize : ¬ f.payload.length > maxPayloadSize := Nat.not_lt.mpr h.bounded
  simp only [encode, h.payloadSize, ne_eq, not_true_eq_false, if_false, hsize]
  rfl

/-! ## Decoding -/

theorem version_byte_read {v : Int32} (h : v = currentVersion) :
    Int32.ofNat (UInt8.ofNat v.toUInt32.toNat).toNat = currentVersion := by
  subst h
  rfl

theorem type_byte_read (t : MessageType) :
    MessageType.fromWire (UInt8.ofNat t.ordinal).toNat = some t := by
  cases t <;> rfl

theorem version_byte_of {b : UInt8} (h : Int32.ofNat b.toNat = currentVersion) :
    UInt8.ofNat (Int32.ofNat b.toNat).toUInt32.toNat = b := by
  have hsmall : b.toNat < 2 ^ 31 := lt_trans b.toNat_lt (by decide)
  have hone : (b.toNat : Int) = 1 := by
    have := congrArg Int32.toInt h
    rwa [Int32.toInt_ofNat_of_lt hsmall] at this
  have hb : b = 1 := UInt8.toNat_inj.mp (by simpa using hone)
  subst hb
  rfl

theorem decode_wireBytes (h : Admissible f) :
    decode crc32 (wireBytes f.header f.payload) =
      .ok (if computeChecksum crc32 f.header f.payload = f.header.checksum
        then some f else none) := by
  have hlen := length_wireBytes f.header f.payload
  have hshort : ¬ (wireBytes f.header f.payload).length < headerSize := by omega
  have hrest : ((wireBytes f.header f.payload).length : Int) - headerSize
      = f.header.payloadSize.toInt := by rw [hlen, h.payloadSize]; push_cast; omega
  have hrange : ¬ (f.header.payloadSize.toInt < 0 ∨
      f.header.payloadSize.toInt > maxPayloadSize) := by
    have := h.bounded
    omega
  have hpay : f.header.payloadSize.toInt.toNat = f.payload.length := by
    rw [h.payloadSize, Int.toNat_natCast]
  have hget : getBytes f.payload.length f.payload = .ok (f.payload, []) := by
    simpa using getBytes_append f.payload []
  have hheader : { f.header with version := currentVersion } = f.header := by
    rw [← h.version]
  unfold decode
  rw [if_neg hshort, hrest, wireBytes, getInt_putInt, ok_bind]
  simp only [ne_eq, not_true_eq_false, if_false]
  rw [fieldBytes]
  simp only [append_assoc, getByte_putByte, ok_bind]
  rw [version_byte_read h.version]
  simp only [type_byte_read]
  rw [getInt_putInt, ok_bind, getLong_putLong, ok_bind, getLong_putLong, ok_bind,
    getInt_putInt, ok_bind, if_neg hrange, if_neg (not_not.mpr rfl), getInt_putInt, ok_bind,
    getLong_putLong, ok_bind, hpay, hget, ok_bind]
  simp only [hheader]
  by_cases hck : computeChecksum crc32 f.header f.payload = f.header.checksum
  · rw [if_neg (not_not.mpr hck), if_pos hck]
    rfl
  · rw [if_pos hck, if_neg hck]
    rfl

theorem decode_eq_some {data : List UInt8} (h : decode crc32 data = .ok (some f)) :
    data = wireBytes f.header f.payload ∧ Admissible f ∧
      computeChecksum crc32 f.header f.payload = f.header.checksum := by
  obtain ⟨hlen, h⟩ := guard_eq_some h
  obtain ⟨⟨m, b1⟩, hm, h⟩ := bind_eq_ok h
  obtain ⟨hmagic, h⟩ := guard_eq_some h
  obtain ⟨⟨vb, b2⟩, hvb, h⟩ := bind_eq_ok h
  obtain ⟨hver, h⟩ := guard_eq_some h
  obtain ⟨⟨tb, b3⟩, htb, h⟩ := bind_eq_ok h
  cases htype : MessageType.fromWire tb.toNat with
  | none =>
    simp only [htype] at h
    cases h
  | some type =>
    simp only [htype] at h
    obtain ⟨⟨sid, b4⟩, hsid, h⟩ := bind_eq_ok h
    obtain ⟨⟨sq, b5⟩, hsq, h⟩ := bind_eq_ok h
    obtain ⟨⟨ts, b6⟩, hts, h⟩ := bind_eq_ok h
    obtain ⟨⟨ps, b7⟩, hps, h⟩ := bind_eq_ok h
    obtain ⟨hrange, h⟩ := guard_eq_some h
    obtain ⟨hsize, h⟩ := guard_eq_some h
    obtain ⟨⟨fl, b8⟩, hfl, h⟩ := bind_eq_ok h
    obtain ⟨⟨ck, b9⟩, hck, h⟩ := bind_eq_ok h
    obtain ⟨⟨payload, b10⟩, hpay, h⟩ := bind_eq_ok h
    obtain ⟨hsum, h⟩ := guard_eq_some h
    cases h
    have hm' := getInt_eq_ok hm
    have hvb' := getByte_eq_ok hvb
    have htb' := getByte_eq_ok htb
    have hsid' := getInt_eq_ok hsid
    have hsq' := getLong_eq_ok hsq
    have hts' := getLong_eq_ok hts
    have hps' := getInt_eq_ok hps
    have hfl' := getInt_eq_ok hfl
    have hck' := getLong_eq_ok hck
    obtain ⟨hpay', hpaylen⟩ := getBytes_eq_ok hpay
    simp only at hm' hvb' htb' hsid' hsq' hts' hps' hfl' hck' hpay'
    have hmagic' : m = magic := not_not.mp hmagic
    have hsize' : (data.length : Int) - headerSize = ps.toInt := not_not.mp hsize
    have hver' : Int32.ofNat vb.toNat = currentVersion := not_not.mp hver
    have htype' : UInt8.ofNat type.ordinal = tb := by
      rw [MessageType.ordinal_of_fromWire htype, UInt8.ofNat_toNat]
    have hdata : data = wireBytes
        { version := Int32.ofNat vb.toNat, type := type, streamId := sid, sequence := sq,
          timestamp := ts, payloadSize := ps, flags := fl, checksum := ck } (payload ++ b10) := by
      simp only [wireBytes, fieldBytes, append_assoc, version_byte_of hver', htype']
      rw [hm', hvb', htb', hsid', hsq', hts', hps', hfl', hck', hpay', hmagic']
    -- the length check leaves nothing behind the payload
    have htail : b10 = [] := by
      have hl := congrArg List.length hdata
      rw [length_wireBytes, length_append, hpaylen] at hl
      have : b10.length = 0 := by omega
      exact length_eq_zero_iff.mp this
    subst htail
    rw [append_nil] at hdata
    refine ⟨hdata, ⟨hver', ?_, ?_⟩, not_not.mp hsum⟩
    · show ps.toInt = (payload.length : Int)
      omega
    · show payload.length ≤ maxPayloadSize
      omega

/-! ## The bijection -/

theorem decode_encode (h : Admissible f) :
    ∃ bytes, encode crc32 f = .ok bytes ∧
      decode crc32 bytes = .ok (some (withChecksum crc32 f)) := by
  have hadm : Admissible (withChecksum crc32 f) := ⟨h.version, h.payloadSize, h.bounded⟩
  refine ⟨_, encode_eq_ok crc32 h, ?_⟩
  have hdec := decode_wireBytes crc32 hadm
  -- the checksum is not one of the fields the checksum covers
  have hsum : computeChecksum crc32 (withChecksum crc32 f).header (withChecksum crc32 f).payload
      = (withChecksum crc32 f).header.checksum := rfl
  rw [if_pos hsum] at hdec
  exact hdec

theorem encode_of_decode {data : List UInt8} (h : decode crc32 data = .ok (some f)) :
    encode crc32 f = .ok data := by
  obtain ⟨hdata, hadm, hsum⟩ := decode_eq_some crc32 h
  rw [encode_eq_ok crc32 hadm, withChecksum, hsum, ← hdata]

/-! ## No exception -/

theorem bind_returns {ε α β : Type} {x : Except ε α} {k : α → Except ε β} {a : α}
    (hx : x = .ok a) (hk : ∃ r, k a = .ok r) : ∃ r, (x >>= k) = .ok r := by
  subst hx
  exact hk

theorem guard_returns {ε α : Type} {c : Prop} [Decidable c] {k : Except ε (Option α)}
    (hk : ¬ c → ∃ r, k = .ok r) : ∃ r, (if c then pure none else k) = .ok r := by
  by_cases hc : c
  · exact ⟨none, if_pos hc⟩
  · obtain ⟨r, hr⟩ := hk hc
    exact ⟨r, (if_neg hc).trans hr⟩

theorem decode_ok (data : List UInt8) : ∃ r, decode crc32 data = .ok r := by
  refine guard_returns fun hlen => ?_
  have hlen' : 42 ≤ data.length := not_lt.mp hlen
  obtain ⟨m, b1, hm, h1⟩ := getInt_ok data (by omega)
  refine bind_returns hm (guard_returns fun _ => ?_)
  obtain ⟨vb, b2, hvb, h2⟩ := getByte_ok b1 (by omega)
  refine bind_returns hvb (guard_returns fun _ => ?_)
  obtain ⟨tb, b3, htb, h3⟩ := getByte_ok b2 (by omega)
  refine bind_returns htb ?_
  cases htype : MessageType.fromWire tb.toNat with
  | none => exact ⟨none, by simp only [htype]; rfl⟩
  | some type =>
    simp only [htype]
    obtain ⟨sid, b4, hsid, h4⟩ := getInt_ok b3 (by omega)
    refine bind_returns hsid ?_
    obtain ⟨sq, b5, hsq, h5⟩ := getLong_ok b4 (by omega)
    refine bind_returns hsq ?_
    obtain ⟨ts, b6, hts, h6⟩ := getLong_ok b5 (by omega)
    refine bind_returns hts ?_
    obtain ⟨ps, b7, hps, h7⟩ := getInt_ok b6 (by omega)
    refine bind_returns hps (guard_returns fun _ => guard_returns fun hsize => ?_)
    have hsize' : (data.length : Int) - 42 = ps.toInt := not_not.mp hsize
    obtain ⟨fl, b8, hfl, h8⟩ := getInt_ok b7 (by omega)
    refine bind_returns hfl ?_
    obtain ⟨ck, b9, hck, h9⟩ := getLong_ok b8 (by omega)
    refine bind_returns hck ?_
    refine bind_returns (getBytes_ok ps.toInt.toNat b9 (by omega)) ?_
    exact guard_returns fun _ => ⟨_, rfl⟩

/-- **`BinaryFrameCodec` is a bijection on valid frames**, up to the checksum, and
answers every other array with `null`. -/
theorem binaryFrameCodec_bijection :
    (∀ f : Frame, f.header.version = currentVersion →
      f.header.payloadSize.toInt = f.payload.length → f.payload.length ≤ 65536 →
      ∃ bytes, encode crc32 f = .ok bytes ∧
        decode crc32 bytes = .ok (some { f with header := { f.header with
          checksum := computeChecksum crc32 f.header f.payload } })) ∧
    (∀ (data : List UInt8) (f : Frame), decode crc32 data = .ok (some f) →
      encode crc32 f = .ok data) ∧
    (∀ data : List UInt8, (∃ f, decode crc32 data = .ok (some f)) ∨
      decode crc32 data = .ok none) := by
  refine ⟨fun f hv hs hb => decode_encode crc32 ⟨hv, hs, hb⟩,
    fun data f h => encode_of_decode crc32 h, fun data => ?_⟩
  obtain ⟨r, hr⟩ := decode_ok crc32 data
  cases r with
  | none => exact .inr hr
  | some f => exact .inl ⟨f, hr⟩

end

end BigRocket.Bonding.BinaryFrameCodec
