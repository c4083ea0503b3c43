/-
The writer is undone by the first reader, and the two readers agree on every
datagram but a fragment.
-/
import BigRocket.Service.SocksUdp

namespace BigRocket.Service

open Lib List Option

variable {data : List UInt8}

theorem length_copyOfRange (data : List UInt8) (start stop : Nat) (h : stop ≤ data.length) :
    (copyOfRange data start stop).length = stop - start := by
  rw [copyOfRange, length_take, length_drop]
  omega

theorem InetAddress.getByAddress_bytes (a : InetAddress) : getByAddress a.bytes = some a := by
  obtain ⟨bytes, h4 | ⟨h16, hmapped⟩⟩ := a
  · simp [getByAddress, h4]
  · simp [getByAddress, h16, hmapped]

theorem InetAddress.isSome_getByAddress {bytes : List UInt8}
    (h : bytes.length = 4 ∨ bytes.length = 16) : (getByAddress bytes).isSome = true := by
  unfold getByAddress
  rcases h with h | h
  · simp [h]
  · simp only [h, show ¬ (16 = 4) by decide, dite_false, dite_true]
    split <;> rfl

/-! ## The writer and the first reader -/

theorem port_of_bytes (port : UInt16) :
    (UInt8.ofNat (port.toNat >>> 8 &&& 0xFF)).toNat <<< 8 |||
      (UInt8.ofNat (port.toNat &&& 0xFF)).toNat = port.toNat := by
  have hlt : port.toNat < 65536 := port.toNat_lt
  have hhigh : port.toNat >>> 8 &&& 0xFF = port.toNat / 256 := by
    rw [Nat.shiftRight_eq_div_pow, show (0xFF : Nat) = 2 ^ 8 - 1 from rfl,
      Nat.and_two_pow_sub_one_eq_mod]
    omega
  have hlow : port.toNat &&& 0xFF = port.toNat % 256 := by
    rw [show (0xFF : Nat) = 2 ^ 8 - 1 from rfl, Nat.and_two_pow_sub_one_eq_mod]
  rw [hhigh, hlow, UInt8.toNat_ofNat', UInt8.toNat_ofNat',
    ← Nat.shiftLeft_add_eq_or_of_lt (by omega), Nat.shiftLeft_eq]
  omega

namespace BondingSocksServer

variable {names : InetNames}

variable {offset : Nat} {payload : List UInt8}

theorem decodeSocksUdp_of_decodeHost {host : Text} (hshort : 4 ≤ data.length)
    (h0 : byteAt data 0 = 0) (h1 : byteAt data 1 = 0)
    (hhost : decodeHost names data = some (host, offset)) (hlength : offset + 2 ≤ data.length) :
    decodeSocksUdp names data = some {
      host
      port := (byteAt data offset).toNat <<< 8 ||| (byteAt data (offset + 1)).toNat
      payload := data.drop (offset + 2) } := by
  rw [decodeSocksUdp, if_neg (by omega), if_neg (by simp [h0, h1]), hhost, bind_some,
    if_neg (by simp only; omega)]

theorem decodeHost_address (names : InetNames) (a : InetAddress) (b₀ b₁ b₂ : UInt8)
    (rest : List UInt8) :
    decodeHost names ((b₀ :: b₁ :: b₂ :: (if a.bytes.length = 16 then 0x04 else 0x01) ::
        a.bytes) ++ rest) =
      some (names.hostAddress a, 4 + a.bytes.length) := by
  have hback := a.getByAddress_bytes
  have htake : (a.bytes ++ rest).take a.bytes.length = a.bytes := take_left
  rcases a.sized with h4 | ⟨h16, -⟩
  · rw [h4] at htake ⊢
    simp [decodeHost, byteAt, copyOfRange, h4, htake, hback]
  · rw [h16] at htake ⊢
    simp [decodeHost, byteAt, copyOfRange, h16, htake, hback]

theorem decodeSocksUdp_address (a : InetAddress) (payload : List UInt8) (high low : UInt8) :
    decodeSocksUdp names (([0, 0, 0, if a.bytes.length = 16 then 0x04 else 0x01] : List UInt8) ++
        a.bytes ++ [high, low] ++ payload) =
      some {
        host := names.hostAddress a
        port := high.toNat <<< 8 ||| low.toNat
        payload } := by
  have hhost := decodeHost_address names a 0 0 0 (high :: low :: payload)
  set front : List UInt8 := 0 :: 0 :: 0 :: (if a.bytes.length = 16 then 0x04 else 0x01) :: a.bytes
    with hfront
  have hlength : 4 + a.bytes.length = front.length := by
    simp only [hfront, length_cons]
    omega
  have hdata : ([0, 0, 0, if a.bytes.length = 16 then 0x04 else 0x01] : List UInt8) ++ a.bytes ++
      [high, low] ++ payload = front ++ high :: low :: payload := by
    simp [hfront]
  rw [hdata, decodeSocksUdp_of_decodeHost (by simp; omega) rfl rfl hhost (by simp; omega), hlength]
  simp [byteAt, drop_append]

theorem decodeSocksUdp_encodeSocksUdp (names : InetNames) (a : InetAddress) (port : UInt16)
    (payload : List UInt8) :
    (encodeSocksUdp names (names.hostAddress a) port.toNat payload).bind (decodeSocksUdp names) =
      some { host := names.hostAddress a, port := port.toNat, payload } := by
  rw [encodeSocksUdp, names.getByName_hostAddress, map_some, bind_some,
    decodeSocksUdp_address, port_of_bytes]

/-! ## The two readers -/

theorem decodeHost_eq (names : InetNames) (h : AetherUpstream.addressEnd data = some offset)
    (hlength : offset + 2 ≤ data.length) : ∃ host, decodeHost names data = some (host, offset) := by
  unfold AetherUpstream.addressEnd at h
  unfold decodeHost
  simp only at h ⊢
  split at h
  · rename_i hatyp
    cases h
    obtain ⟨a, ha⟩ := isSome_iff_exists.mp (InetAddress.isSome_getByAddress
      (.inl (length_copyOfRange data 4 8 (by omega))))
    refine ⟨names.hostAddress a, ?_⟩
    rw [if_pos hatyp, if_neg (by omega), ha]
    rfl
  · rename_i hatyp
    rw [if_neg hatyp]
    split at h
    · rename_i hatyp'
      split at h
      · cases h
      · rename_i hlong
        cases h
        rw [if_pos hatyp', if_neg hlong, if_neg (by omega)]
        exact ⟨_, congrArg some (Prod.ext rfl (by omega))⟩
    · rename_i hatyp'
      rw [if_neg hatyp']
      split at h
      · rename_i hatyp''
        cases h
        obtain ⟨a, ha⟩ := isSome_iff_exists.mp (InetAddress.isSome_getByAddress
          (.inr (length_copyOfRange data 4 20 (by omega))))
        refine ⟨names.hostAddress a, ?_⟩
        rw [if_pos hatyp'', if_neg (by omega), ha]
        rfl
      · cases h

theorem addressEnd_of_decodeHost {host : Text} (h : decodeHost names data = some (host, offset)) :
    AetherUpstream.addressEnd data = some offset := by
  unfold decodeHost at h
  unfold AetherUpstream.addressEnd
  simp only at h ⊢
  split at h
  · rename_i hatyp
    rw [if_pos hatyp]
    split at h
    · cases h
    · obtain ⟨a, -, heq⟩ := map_eq_some_iff.mp h
      cases heq
      rfl
  · rename_i hatyp
    rw [if_neg hatyp]
    split at h
    · rename_i hatyp'
      rw [if_pos hatyp']
      split at h
      · cases h
      · rename_i hlong
        rw [if_neg hlong]
        split at h
        · cases h
        · cases h
          exact congrArg some (by omega)
    · rename_i hatyp'
      rw [if_neg hatyp']
      split at h
      · rename_i hatyp''
        rw [if_pos hatyp'']
        split at h
        · cases h
        · obtain ⟨a, -, heq⟩ := map_eq_some_iff.mp h
          cases heq
          rfl
      · cases h

inductive SocksAddress : List UInt8 → Prop
  | ipv4 (ip : List UInt8) : ip.length = 4 → SocksAddress (1 :: ip)
  | domain (len : UInt8) (name : List UInt8) : name.length = len.toNat →
      SocksAddress (3 :: len :: name)
  | ipv6 (ip : List UInt8) : ip.length = 16 → SocksAddress (4 :: ip)

def IsRequest (frag : UInt8) (data : List UInt8) : Prop :=
  ∃ address high low payload, SocksAddress address ∧
    data = 0 :: 0 :: frag :: (address ++ high :: low :: payload)

def IsFragment (data : List UInt8) : Prop :=
  ∃ frag, frag ≠ 0 ∧ IsRequest frag data

theorem SocksAddress.addressEnd {address : List UInt8} (h : SocksAddress address)
    (b₀ b₁ b₂ : UInt8) (rest : List UInt8) :
    AetherUpstream.addressEnd (b₀ :: b₁ :: b₂ :: (address ++ rest)) =
      some (3 + address.length) := by
  cases h with
  | ipv4 ip hip => simp [AetherUpstream.addressEnd, byteAt, hip]
  | domain len name hname =>
    simp only [AetherUpstream.addressEnd, byteAt, cons_append, getD_cons_succ,
      getD_cons_zero, length_cons, hname]
    simp
    omega
  | ipv6 ip hip => simp [AetherUpstream.addressEnd, byteAt, hip]

theorem exists_cons_cons_cons (h : 3 ≤ data.length) :
    ∃ b₀ b₁ b₂ more, data = b₀ :: b₁ :: b₂ :: more := by
  match data, h with
  | b₀ :: b₁ :: b₂ :: more, _ => exact ⟨b₀, b₁, b₂, more, rfl⟩

theorem socksAddress_take {b₀ b₁ b₂ : UInt8} {more : List UInt8}
    (hend : AetherUpstream.addressEnd (b₀ :: b₁ :: b₂ :: more) = some offset)
    (hlength : offset + 2 ≤ more.length + 3) :
    3 ≤ offset ∧ SocksAddress (more.take (offset - 3)) := by
  obtain _ | ⟨atyp, rest⟩ := more
  · simp [AetherUpstream.addressEnd, byteAt] at hend
  · simp only [AetherUpstream.addressEnd, byteAt, getD_cons_succ, getD_cons_zero,
      length_cons] at hend hlength
    split at hend
    · rename_i hatyp
      cases hend
      exact ⟨by omega, hatyp ▸ .ipv4 (rest.take 4) (by rw [length_take]; omega)⟩
    · split at hend
      · rename_i hatyp
        split at hend
        · cases hend
        · cases hend
          obtain _ | ⟨len, name⟩ := rest
          · simp at hlength
          · simp only [getD_cons_zero, length_cons] at hlength
            refine ⟨by omega, ?_⟩
            rw [getD_cons_zero, show 4 + (1 + len.toNat) - 3 = len.toNat + 2 by omega, hatyp]
            exact .domain len (name.take len.toNat) (by rw [length_take]; omega)
      · split at hend
        · rename_i hatyp
          cases hend
          exact ⟨by omega, hatyp ▸ .ipv6 (rest.take 16) (by rw [length_take]; omega)⟩
        · cases hend

theorem addressEnd_iff (b₀ b₁ b₂ : UInt8) {more : List UInt8} :
    (∃ offset, AetherUpstream.addressEnd (b₀ :: b₁ :: b₂ :: more) = some offset ∧
        offset + 2 ≤ more.length + 3 ∧
        (b₀ :: b₁ :: b₂ :: more).drop (offset + 2) = payload) ↔
      ∃ address high low, SocksAddress address ∧ more = address ++ high :: low :: payload := by
  constructor
  · rintro ⟨offset, hend, hlength, rfl⟩
    obtain ⟨hthree, haddress⟩ := socksAddress_take hend hlength
    obtain ⟨i, rfl⟩ := Nat.exists_eq_add_of_le' hthree
    refine ⟨more.take i, more[i], more[i + 1], haddress, ?_⟩
    have hdrop : (b₀ :: b₁ :: b₂ :: more).drop (i + 3 + 2) = more.drop (i + 1 + 1) := rfl
    rw [hdrop, ← drop_eq_getElem_cons, ← drop_eq_getElem_cons, take_append_drop]
  · rintro ⟨address, high, low, haddress, rfl⟩
    refine ⟨3 + address.length, haddress.addressEnd .., by simp; omega, ?_⟩
    rw [show 3 + address.length + 2 = (address.length + 2) + 3 by omega]
    simp [drop_append]

theorem parseReply_eq_some_iff :
    AetherUpstream.parseReply data = some payload ↔
      ∃ address high low, SocksAddress address ∧
        data = 0 :: 0 :: 0 :: (address ++ high :: low :: payload) := by
  constructor
  · intro h
    unfold AetherUpstream.parseReply at h
    split at h
    · cases h
    · rename_i hhead
      simp only [not_or, not_not] at hhead
      obtain ⟨hshort, h0, h1, h2⟩ := hhead
      obtain ⟨offset, hend, h⟩ := bind_eq_some_iff.mp h
      split at h
      · cases h
      · rename_i hlength
        obtain ⟨b₀, b₁, b₂, more, rfl⟩ := exists_cons_cons_cons (by omega : 3 ≤ data.length)
        obtain ⟨address, high, low, haddress, rfl⟩ :=
          (addressEnd_iff b₀ b₁ b₂).mp ⟨offset, hend, not_lt.mp hlength, Option.some.inj h⟩
        refine ⟨address, high, low, haddress, ?_⟩
        rw [show b₀ = 0 from h0, show b₁ = 0 from h1, show b₂ = 0 from h2]
  · rintro ⟨address, high, low, haddress, rfl⟩
    obtain ⟨offset, hend, hlength, hpayload⟩ :=
      (addressEnd_iff 0 0 0).mpr ⟨address, high, low, haddress, rfl⟩
    rw [AetherUpstream.parseReply, if_neg, hend, bind_some, if_neg, hpayload]
    · simpa using hlength
    · simp only [byteAt, length_cons, length_append, getD_cons_zero,
        getD_cons_succ, ne_eq, not_true_eq_false, or_false]
      omega

theorem decodeSocksUdp_eq_some_iff :
    (decodeSocksUdp names data).map DecodedUdp.payload = some payload ↔
      ∃ frag address high low, SocksAddress address ∧
        data = 0 :: 0 :: frag :: (address ++ high :: low :: payload) := by
  constructor
  · intro h
    obtain ⟨decoded, hdecoded, rfl⟩ := map_eq_some_iff.mp h
    unfold decodeSocksUdp at hdecoded
    split at hdecoded
    · cases hdecoded
    · split at hdecoded
      · cases hdecoded
      · rename_i hhead
        simp only [not_or, not_not] at hhead
        obtain ⟨h0, h1⟩ := hhead
        obtain ⟨⟨host, offset⟩, hhost, hdecoded⟩ := bind_eq_some_iff.mp hdecoded
        split at hdecoded
        · cases hdecoded
        · rename_i hlength
          cases hdecoded
          obtain ⟨b₀, b₁, b₂, more, rfl⟩ := exists_cons_cons_cons (by omega : 3 ≤ data.length)
          obtain ⟨address, high, low, haddress, hmore⟩ := (addressEnd_iff b₀ b₁ b₂).mp
            ⟨offset, addressEnd_of_decodeHost hhost, not_lt.mp hlength, rfl⟩
          refine ⟨b₂, address, high, low, haddress, ?_⟩
          rw [show b₀ = 0 from h0, show b₁ = 0 from h1] at hmore ⊢
          exact congrArg (fun rest => 0 :: 0 :: b₂ :: rest) hmore
  · rintro ⟨frag, address, high, low, haddress, rfl⟩
    obtain ⟨offset, hend, hlength, hpayload⟩ :=
      (addressEnd_iff 0 0 frag).mpr ⟨address, high, low, haddress, rfl⟩
    obtain ⟨host, hhost⟩ := decodeHost_eq names hend hlength
    rw [decodeSocksUdp_of_decodeHost (by simp; omega) rfl rfl hhost hlength, map_some,
      hpayload]

/-- **The codecs** agree with the writer, and with each other exactly where the
datagram is no fragment. -/
theorem socksUdp_codecs_agree_iff (names : InetNames) (a : InetAddress) (port : UInt16)
    (payload data : List UInt8) :
    (encodeSocksUdp names (names.hostAddress a) port.toNat payload).bind (decodeSocksUdp names) =
        some { host := names.hostAddress a, port := port.toNat, payload } ∧
      ((decodeSocksUdp names data).map DecodedUdp.payload = AetherUpstream.parseReply data ↔
        ¬ IsFragment data) := by
  refine ⟨decodeSocksUdp_encodeSocksUdp names a port payload, ?_, ?_⟩
  · rintro hagree ⟨frag, hfrag, address, high, low, rest, haddress, hdata⟩
    rw [decodeSocksUdp_eq_some_iff.mpr ⟨frag, address, high, low, haddress, hdata⟩] at hagree
    obtain ⟨address', high', low', -, hdata'⟩ := parseReply_eq_some_iff.mp hagree.symm
    rw [hdata, List.cons.injEq, List.cons.injEq, List.cons.injEq] at hdata'
    exact hfrag hdata'.2.2.1
  · intro hwhole
    refine Option.ext fun rest => ?_
    rw [decodeSocksUdp_eq_some_iff, parseReply_eq_some_iff]
    constructor
    · rintro ⟨frag, address, high, low, haddress, hdata⟩
      have hzero : frag = 0 := not_not.mp fun h =>
        hwhole ⟨frag, h, address, high, low, rest, haddress, hdata⟩
      exact ⟨address, high, low, haddress, hzero ▸ hdata⟩
    · rintro ⟨address, high, low, haddress, hdata⟩
      exact ⟨0, address, high, low, haddress, hdata⟩

theorem getByAddress_map_chars (a : InetAddress) :
    InetAddress.getByAddress
      ((a.bytes.map fun b => Char.ofNat b.toNat).map fun c => UInt8.ofNat c.toNat) = some a := by
  have hbyte : ∀ b : UInt8, UInt8.ofNat (Char.ofNat b.toNat).toNat = b := by decide +kernel
  rw [List.map_map, show ((fun c => UInt8.ofNat c.toNat) ∘ fun b : UInt8 => Char.ofNat b.toNat) =
    id from funext hbyte, List.map_id, a.getByAddress_bytes]

def bytewise : InetNames where
  hostAddress a := a.bytes.map fun b => Char.ofNat b.toNat
  getByName host := InetAddress.getByAddress (host.map fun c => UInt8.ofNat c.toNat)
  getByName_hostAddress := getByAddress_map_chars

theorem fragment_taken_whole :
    decodeSocksUdp bytewise [0, 0, 2, 1, 1, 2, 3, 4, 0, 80, 7] =
        some { host := ['\x01', '\x02', '\x03', '\x04'], port := 80, payload := [7] } ∧
      AetherUpstream.parseReply [0, 0, 2, 1, 1, 2, 3, 4, 0, 80, 7] = none := by
  decide +kernel

end BondingSocksServer

end BigRocket.Service
