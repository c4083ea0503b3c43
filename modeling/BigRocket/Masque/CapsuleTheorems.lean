/-
The parser does not see how the stream of capsules was cut. Address requests
keep no payload, though, and other payloads are parsed, which can fail.
-/
import BigRocket.Masque.Capsule
import BigRocket.Lib.Except

namespace BigRocket.Masque

open Lib List

/-! ## What is written -/

def RawCapsule.Valid {usizeBits : Nat} (c : RawCapsule usizeBits) : Prop :=
  c.kind < varintLimit ∧ c.payload.length < varintLimit

def RawCapsule.encode {usizeBits : Nat} (c : RawCapsule usizeBits) : List UInt8 :=
  putVarint c.kind ++ (putVarint c.payload.length ++ c.payload)

theorem OctetsMut.put_fits (written bytes : List UInt8) (room : Nat) :
    (OctetsMut.mk written (bytes.length + room)).put bytes = ⟨written ++ bytes, room⟩ := by
  simp [OctetsMut.put]

theorem appendCapsule_eq {usizeBits : Nat} (c : RawCapsule usizeBits) (h : c.Valid)
    (out : List UInt8) :
    appendCapsule out c.kind c.payload = some (out ++ c.encode) := by
  obtain ⟨hkind, hlen⟩ := h
  have hroom : capsuleLen c.kind c.payload =
      (putVarint c.kind).length + ((putVarint c.payload.length).length +
        (c.payload.length + 0)) := by
    rw [capsuleLen, length_putVarint hkind, length_putVarint hlen]
    omega
  rw [appendCapsule, if_pos ⟨hkind, hlen⟩, hroom]
  dsimp only
  rw [OctetsMut.put_fits, OctetsMut.put_fits, OctetsMut.put_fits]
  simp [OctetsMut.bytes, RawCapsule.encode]

theorem appendCapsules_eq_some {usizeBits : Nat} {capsules : List (RawCapsule usizeBits)}
    {out stream : List UInt8} (h : appendCapsules out capsules = some stream) :
    (∀ c ∈ capsules, c.Valid) ∧ stream = out ++ (capsules.map RawCapsule.encode).flatten := by
  induction capsules generalizing out with
  | nil =>
    cases h
    exact ⟨fun c hc => absurd hc not_mem_nil, by simp⟩
  | cons c capsules ih =>
    have hvalid : c.Valid := by
      by_contra hnot
      have hpanic : appendCapsule out c.kind c.payload = none := if_neg hnot
      rw [appendCapsules, hpanic] at h
      cases h
    rw [appendCapsules, appendCapsule_eq c hvalid] at h
    obtain ⟨hrest, hstream⟩ := ih h
    refine ⟨forall_mem_cons.mpr ⟨hvalid, hrest⟩, ?_⟩
    rw [hstream, map_cons, flatten_cons, append_assoc]

/-! ## What is read -/

namespace CapsuleParser

variable {usizeBits : Nat}

theorem take_of_next {buf rest : List UInt8} {result : Except AetherError Capsule}
    (h : next usizeBits ⟨buf⟩ = (result.map some, ⟨rest⟩)) :
    take usizeBits buf = some (result, rest) := by
  rw [take, h]
  cases result <;> rfl

theorem take_whole (c : RawCapsule usizeBits) (h : c.Valid) (rest : List UInt8) :
    take usizeBits (c.encode ++ rest) = some (Capsule.ofPayload c.kind c.payload, rest) := by
  apply take_of_next
  have hlen : c.payload.length % 2 ^ usizeBits = c.payload.length := Nat.mod_eq_of_lt c.fits
  have hcap : ¬ (c.payload ++ rest).length < c.payload.length := by simp
  rw [next, RawCapsule.encode, append_assoc, getVarint_putVarint h.1]
  dsimp only
  rw [append_assoc, getVarint_putVarint h.2]
  dsimp only
  rw [hlen, if_neg hcap, getBytes_append]
  rfl

theorem take_part (c : RawCapsule usizeBits) (h : c.Valid) {buf : List UInt8}
    (hpart : buf <+: c.encode) (hne : buf ≠ c.encode) : take usizeBits buf = none := by
  have hnext : next usizeBits ⟨buf⟩ = (.ok none, ⟨buf⟩) := by
    -- the buffer ends in the type, in the length or in the payload
    rcases prefix_append_cases hpart with ⟨hkind, hkindNe⟩ | ⟨behind, rfl, hbehind⟩
    · rw [next, getVarint_part h.1 hkind hkindNe]
    · rw [next, getVarint_putVarint h.1]
      dsimp only
      rcases prefix_append_cases hbehind with ⟨hsize, hsizeNe⟩ | ⟨value, rfl, hvalue⟩
      · rw [getVarint_part h.2 hsize hsizeNe]
      · rw [getVarint_putVarint h.2]
        dsimp only
        have hshort : value.length < c.payload.length :=
          lt_of_le_of_ne hvalue.length_le fun heq => hne (by
            rw [hvalue.eq_of_length heq, RawCapsule.encode])
        rw [Nat.mod_eq_of_lt c.fits, if_pos hshort]
  rw [take, hnext]

theorem take_selfDelimiting (usizeBits : Nat) :
    SelfDelimiting (take usizeBits) RawCapsule.encode
      (fun c : RawCapsule usizeBits => Capsule.ofPayload c.kind c.payload) RawCapsule.Valid where
  whole c rest h := take_whole c h rest
  part c _ h hpart hne := take_part c h hpart hne
  nothing := rfl
  nonempty c h hnil := by
    have hkind : putVarint c.kind = [] := (append_eq_nil_iff.mp hnil).1
    obtain ⟨_, _, first, tail, -, -, -, hput, -, -⟩ := putVarint_eq h.1
    rw [hput] at hkind
    cases hkind

theorem take_shortens {buf rest : List UInt8} {result : Except AetherError Capsule}
    (h : take usizeBits buf = some (result, rest)) : rest.length < buf.length := by
  unfold take next at h
  cases hkind : getVarint buf with
  | error e => simp [hkind] at h
  | ok kind =>
    cases hsize : getVarint kind.2 with
    | error e => simp [hkind, hsize] at h
    | ok size =>
      have hless := length_of_getVarint hkind
      have hless' := length_of_getVarint hsize
      simp only [hkind, hsize] at h
      by_cases hcap : size.2.length < size.1 % 2 ^ usizeBits
      · simp [hcap] at h
      · rw [if_neg hcap, getBytes_ok _ _ (Nat.not_lt.mp hcap)] at h
        have hrest : rest = size.2.drop (size.1 % 2 ^ usizeBits) := by
          simp only [oct] at h
          cases hvalue : Capsule.ofPayload kind.1 (size.2.take (size.1 % 2 ^ usizeBits)) with
          | error e => simp [hvalue, Except.map] at h; exact h.2.symm
          | ok capsule => simp [hvalue, Except.map] at h; exact h.2.symm
        rw [hrest, length_drop]
        omega

theorem next_drain (p : CapsuleParser) :
    take usizeBits (p.drain usizeBits).2.buf = none :=
  drainFuel_exhausts (fun _ _ _ h => take_shortens h) le_rfl

/-! ## Whole streams -/

theorem feed_eq {chunks : List (List UInt8)} {p : CapsuleParser}
    (h : WithinLimit usizeBits p chunks) :
    feed usizeBits p chunks =
      ((Lib.feed (take usizeBits) p.buf chunks).1,
        ⟨(Lib.feed (take usizeBits) p.buf chunks).2⟩) := by
  induction chunks generalizing p with
  | nil => rfl
  | cons chunk chunks ih =>
    obtain ⟨hpush, hrest⟩ := h
    have hbuf : p.push chunk = ⟨p.buf ++ chunk⟩ := if_neg (by omega)
    rw [hbuf] at hrest
    simp only [feed, Lib.feed, hbuf, ih hrest]
    rfl

/-- **However a stream of capsules is cut**, within the limit, the parser brings
one result for each, in order. -/
theorem feed_capsules (usizeBits : Nat) (capsules : List (RawCapsule usizeBits))
    (stream : List UInt8) (hstream : appendCapsules [] capsules = some stream)
    (chunks : List (List UInt8)) (hcut : chunks.flatten = stream)
    (hlimit : WithinLimit usizeBits new chunks) :
    feed usizeBits new chunks =
        (capsules.map fun c => Capsule.ofPayload c.kind c.payload, new) ∧
      ∀ c ∈ capsules,
        (c.kind = capsuleDatagram →
          Capsule.ofPayload c.kind c.payload = .ok (.datagram c.payload)) ∧
        (c.kind ∉ [capsuleAddressAssign, capsuleAddressRequest, capsuleRouteAdvertisement,
            capsuleDatagram] →
          Capsule.ofPayload c.kind c.payload = .ok (.unknown c.kind c.payload)) := by
  obtain ⟨hvalid, rfl⟩ := appendCapsules_eq_some hstream
  constructor
  · have hfeed := (take_selfDelimiting usizeBits).feed_flatten hvalid hcut
    rw [feed_eq hlimit]
    show ((Lib.feed (take usizeBits) [] chunks).1,
      CapsuleParser.mk (Lib.feed (take usizeBits) [] chunks).2) = _
    rw [hfeed]
    rfl
  · intro c _
    constructor
    · intro hkind
      rw [hkind]
      rfl
    · intro hkind
      simp only [mem_cons, not_mem_nil, or_false, not_or] at hkind
      obtain ⟨hassign, hrequest, hroute, hdatagram⟩ := hkind
      rw [Capsule.ofPayload, if_neg hassign, if_neg hrequest, if_neg hroute, if_neg hdatagram]

theorem short_fits (payload : List UInt8) (h : payload.length ≤ 2) :
    payload.length < 2 ^ 64 :=
  lt_of_le_of_lt h (by decide)

theorem feed_capsules_cut :
    ∃ capsules : List (RawCapsule 64),
      appendCapsules [] capsules = some [0, 2, 7, 8, 5, 1, 9] ∧
      WithinLimit 64 new [[0], [2, 7], [8, 5, 1, 9]] ∧
      (feed 64 new [[0], [2, 7], [8, 5, 1, 9]]).1 =
        [.ok (.datagram [7, 8]), .ok (.unknown 5 [9])] := by
  let capsules : List (RawCapsule 64) :=
    [⟨0, [7, 8], short_fits _ (by decide)⟩, ⟨5, [9], short_fits _ (by decide)⟩]
  have hstream : appendCapsules [] capsules = some [0, 2, 7, 8, 5, 1, 9] := by decide +kernel
  have hlimit : WithinLimit 64 new [[0], [2, 7], [8, 5, 1, 9]] := by decide +kernel
  refine ⟨capsules, hstream, hlimit, ?_⟩
  rw [(feed_capsules 64 capsules _ hstream _ rfl hlimit).1]
  rfl

theorem feed_loses_payload :
    (∃ capsule capsule' : RawCapsule 64,
      (capsule.kind, capsule.payload) ≠ (capsule'.kind, capsule'.payload) ∧
      appendCapsules [] [capsule] = some [2, 1, 7] ∧
      appendCapsules [] [capsule'] = some [2, 0] ∧
      WithinLimit 64 new [[2, 1, 7]] ∧ WithinLimit 64 new [[2, 0]] ∧
      feed 64 new [[2, 1, 7]] = feed 64 new [[2, 0]]) ∧
    (∃ capsule : RawCapsule 64,
      appendCapsules [] [capsule] = some [1, 1, 0] ∧ WithinLimit 64 new [[1, 1, 0]] ∧
      (feed 64 new [[1, 1, 0]]).1 = [.error (.capsule "BufferTooShortError")]) := by
  refine ⟨⟨⟨2, [7], short_fits _ (by decide)⟩, ⟨2, [], short_fits _ (by decide)⟩, by decide,
    by decide +kernel, by decide +kernel, by decide +kernel, by decide +kernel, rfl⟩,
    ⟨⟨1, [0], short_fits _ (by decide)⟩, by decide +kernel, by decide +kernel, rfl⟩⟩

end CapsuleParser

end BigRocket.Masque
