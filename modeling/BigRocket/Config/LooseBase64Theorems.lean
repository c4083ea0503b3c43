/-
The project's decoder reads back every text in base64. The buffer has four
states, told apart by the number of bits that are pending: 0, 6, 4 and 2.
-/
import BigRocket.Lib.Base64
import BigRocket.Config.LinkSyntax

namespace BigRocket.Config

open Lib Lib.Kotlin List

namespace LooseBase64

variable {t : State} {v pending : Nat} {out bytes : List UInt8} {variant : Base64.Variant}

/-! ## One character -/

def Reads (t : State) (bits pending : Nat) (out : List UInt8) : Prop :=
  t.bits = bits ∧ t.buffer % 2 ^ bits = pending ∧ t.out = out

theorem buffer_push (b : Nat) (hv : v < 64) :
    (b <<< 6 ||| v) &&& 0xFFFFFF = (b * 64 + v) % 16777216 := by
  have hor : b <<< 6 ||| v = b <<< 6 + v := (Nat.shiftLeft_add_eq_or_of_lt hv b).symm
  have hand : (b <<< 6 + v) &&& 0xFFFFFF = (b <<< 6 + v) % 2 ^ 24 :=
    Nat.and_two_pow_sub_one_eq_mod _ 24
  rw [hor, hand, Nat.shiftLeft_eq]
  norm_num

theorem byte_shift (b k : Nat) : b >>> k &&& 0xFF = b / 2 ^ k % 256 := by
  rw [Nat.shiftRight_eq_div_pow]
  exact Nat.and_two_pow_sub_one_eq_mod _ 8

theorem reads_push_zero (h : Reads t 0 pending out) (hv : v < 64) :
    Reads (t.push v) 6 v out := by
  obtain ⟨hbits, -, hout⟩ := h
  have hbuffer := buffer_push t.buffer hv
  simp only [State.push, hbits, hbuffer, hout]
  refine ⟨rfl, ?_, rfl⟩
  show (t.buffer * 64 + v) % 16777216 % 64 = v
  omega

theorem reads_push_six (h : Reads t 6 pending out) (hv : v < 64) :
    Reads (t.push v) 4 (v % 16) (out ++ [UInt8.ofNat (pending * 4 + v / 16)]) := by
  obtain ⟨hbits, hpending, hout⟩ := h
  have hbuffer := buffer_push t.buffer hv
  have hpending' : t.buffer % 64 = pending := hpending
  have hbyte : (t.buffer * 64 + v) % 16777216 / 2 ^ 4 % 256 = pending * 4 + v / 16 := by omega
  simp only [State.push, hbits, hbuffer, byte_shift, hout]
  refine ⟨rfl, ?_, ?_⟩
  · show (t.buffer * 64 + v) % 16777216 % 16 = v % 16
    omega
  · exact congrArg (fun n => out ++ [UInt8.ofNat n]) hbyte

theorem reads_push_four (h : Reads t 4 pending out) (hv : v < 64) :
    Reads (t.push v) 2 (v % 4) (out ++ [UInt8.ofNat (pending * 16 + v / 4)]) := by
  obtain ⟨hbits, hpending, hout⟩ := h
  have hbuffer := buffer_push t.buffer hv
  have hpending' : t.buffer % 16 = pending := hpending
  have hbyte : (t.buffer * 64 + v) % 16777216 / 2 ^ 2 % 256 = pending * 16 + v / 4 := by omega
  simp only [State.push, hbits, hbuffer, byte_shift, hout]
  refine ⟨rfl, ?_, ?_⟩
  · show (t.buffer * 64 + v) % 16777216 % 4 = v % 4
    omega
  · exact congrArg (fun n => out ++ [UInt8.ofNat n]) hbyte

theorem reads_push_two (h : Reads t 2 pending out) (hv : v < 64) :
    Reads (t.push v) 0 0 (out ++ [UInt8.ofNat (pending * 64 + v)]) := by
  obtain ⟨hbits, hpending, hout⟩ := h
  have hbuffer := buffer_push t.buffer hv
  have hpending' : t.buffer % 4 = pending := hpending
  have hbyte : (t.buffer * 64 + v) % 16777216 / 2 ^ 0 % 256 = pending * 64 + v := by omega
  simp only [State.push, hbits, hbuffer, byte_shift, hout]
  refine ⟨rfl, Nat.mod_one _, ?_⟩
  exact congrArg (fun n => out ++ [UInt8.ofNat n]) hbyte

theorem reverse_symbol (variant : Base64.Variant) (v : Nat) (hv : v < 64) :
    reverse (Base64.symbol variant v) = some v := by
  obtain ⟨urlSafe, pad⟩ := variant
  cases urlSafe with
  | false =>
    have hall : ∀ v < 64, reverse (Base64.symbol ⟨false, false⟩ v) = some v := by decide +kernel
    exact hall v hv
  | true =>
    have hall : ∀ v < 64, reverse (Base64.symbol ⟨true, false⟩ v) = some v := by decide +kernel
    exact hall v hv

theorem pushAll_symbol (hv : v < 64) (s : Text) :
    t.pushAll (Base64.symbol variant v :: s) = (t.push v).pushAll s := by
  rw [State.pushAll, reverse_symbol variant v hv]
  rfl

/-! ## One byte

A byte is complete with the character that has its lowest bits; what that
character has beyond them is pending. -/

theorem reads_first (h : Reads t 0 pending out) (a : UInt8) {x : Nat} (hx : x < 16) :
    Reads ((t.push (a.toNat / 4)).push (a.toNat % 4 * 16 + x)) 4 x (out ++ [a]) := by
  have ha := a.toNat_lt
  have hbyte : a.toNat / 4 * 4 + (a.toNat % 4 * 16 + x) / 16 = a.toNat := by omega
  have hrest : (a.toNat % 4 * 16 + x) % 16 = x := by omega
  have hread := reads_push_six (reads_push_zero h (v := a.toNat / 4) (by omega))
    (v := a.toNat % 4 * 16 + x) (by omega)
  rwa [hbyte, hrest, UInt8.ofNat_toNat] at hread

theorem reads_second (b : UInt8) (h : Reads t 4 (b.toNat / 16) out) {x : Nat} (hx : x < 4) :
    Reads (t.push (b.toNat % 16 * 4 + x)) 2 x (out ++ [b]) := by
  have hbyte : b.toNat / 16 * 16 + (b.toNat % 16 * 4 + x) / 4 = b.toNat := by omega
  have hrest : (b.toNat % 16 * 4 + x) % 4 = x := by omega
  have hread := reads_push_four h (v := b.toNat % 16 * 4 + x) (by omega)
  rwa [hbyte, hrest, UInt8.ofNat_toNat] at hread

theorem reads_third (c : UInt8) (h : Reads t 2 (c.toNat / 64) out) :
    Reads (t.push (c.toNat % 64)) 0 0 (out ++ [c]) := by
  have hbyte : c.toNat / 64 * 64 + c.toNat % 64 = c.toNat := by omega
  have hread := reads_push_two h (v := c.toNat % 64) (by omega)
  rwa [hbyte, UInt8.ofNat_toNat] at hread

/-! ## All characters -/

theorem pushAll_map_symbol (variant : Base64.Variant) {numbers : List Nat}
    (hnumbers : ∀ v ∈ numbers, v < 64) :
    t.pushAll (numbers.map (Base64.symbol variant)) = some (numbers.foldl State.push t) := by
  induction numbers generalizing t with
  | nil => rfl
  | cons v rest ih =>
    rw [forall_mem_cons] at hnumbers
    rw [map_cons, pushAll_symbol hnumbers.1, ih hnumbers.2, foldl_cons]

theorem foldl_push_sextets (bytes : List UInt8) (h : Reads t 0 pending out) :
    ((Base64.sextets bytes).foldl State.push t).out = out ++ bytes := by
  induction bytes using Base64.sextets.induct generalizing t pending out with
  | case1 => rw [append_nil]; exact h.2.2
  | case2 a => exact (reads_first h a (x := 0) (by decide)).2.2
  | case3 a b =>
    have hb := b.toNat_lt
    have hfirst := reads_first h a (x := b.toNat / 16) (by omega)
    have hout := (reads_second b hfirst (x := 0) (by decide)).2.2
    rwa [append_assoc] at hout
  | case4 a b c rest ih =>
    have hb := b.toNat_lt
    have hc := c.toNat_lt
    have hfirst := reads_first h a (x := b.toNat / 16) (by omega)
    have hsecond := reads_second b hfirst (x := c.toNat / 64) (by omega)
    have hout := ih (reads_third c hsecond)
    simp only [Base64.sextets, foldl_cons, hout, append_assoc]
    rfl

theorem pushAll_sextets (variant : Base64.Variant) (bytes : List UInt8)
    (h : Reads t 0 pending out) :
    ∃ t', t.pushAll ((Base64.sextets bytes).map (Base64.symbol variant)) = some t' ∧
      t'.out = out ++ bytes :=
  ⟨_, pushAll_map_symbol variant Base64.sextets_lt, foldl_push_sextets bytes h⟩

/-! ## The whole text -/

theorem symbol_visible (variant : Base64.Variant) :
    ∀ v < 64, isVisible (Base64.symbol variant v) = true ∧ Base64.symbol variant v ≠ '=' := by
  obtain ⟨urlSafe, pad⟩ := variant
  cases urlSafe <;> decide +revert

theorem mem_encode {c : Char} (h : c ∈ Base64.encode variant bytes) :
    (∃ v < 64, c = Base64.symbol variant v) ∨ c = '=' := by
  rcases mem_append.mp h with hsymbol | hpad
  · obtain ⟨v, hv, rfl⟩ := mem_map.mp hsymbol
    exact .inl ⟨v, Base64.sextets_lt v hv, rfl⟩
  · unfold Base64.padding at hpad
    split at hpad
    · exact .inr (eq_of_mem_replicate hpad)
    · cases hpad

theorem isVisible_of_mem_encode {c : Char} (h : c ∈ Base64.encode variant bytes) :
    isVisible c = true := by
  rcases mem_encode h with ⟨v, hv, rfl⟩ | rfl
  · exact (symbol_visible variant v hv).1
  · decide

theorem filter_whitespace_of_isVisible {s : Text} (h : ∀ c ∈ s, isVisible c = true) :
    (s.filter fun c => !isWhitespace c) = s := by
  rw [filter_eq_self]
  intro c hc
  rw [isWhitespace_of_isVisible (h c hc)]
  rfl

theorem trimEndOf_encode :
    trimEndOf ['='] (Base64.encode variant bytes) =
      (Base64.sextets bytes).map (Base64.symbol variant) := by
  have hlast : ∀ c ∈ ((Base64.sextets bytes).map (Base64.symbol variant)).getLast?,
      (['='].contains c) = false := by
    intro c hc
    obtain ⟨v, hv, rfl⟩ := mem_map.mp (mem_of_getLast? hc)
    have hne := (symbol_visible variant v (Base64.sextets_lt v hv)).2
    simpa using hne
  have hpad : ∀ c ∈ Base64.padding variant bytes, (['='].contains c) = true := by
    intro c hc
    unfold Base64.padding at hc
    split at hc
    · rw [eq_of_mem_replicate hc]
      decide
    · cases hc
  rw [trimEndOf, Base64.encode, rdropWhile_append_of_all hpad, rdropWhile_of_getLast hlast]

theorem decode_encode (hne : bytes ≠ []) : decode (Base64.encode variant bytes) = some bytes := by
  have hreads : Reads { buffer := 0, bits := 0, out := [] } 0 0 [] := ⟨rfl, rfl, rfl⟩
  obtain ⟨t, hpush, hout⟩ := pushAll_sextets variant bytes hreads
  have hle := Base64.length_le_sextets bytes
  have hmod := Base64.length_sextets_mod bytes
  have hpos : 0 < bytes.length := length_pos_iff.mpr hne
  have hgood : ¬ ((Base64.sextets bytes).map (Base64.symbol variant) = [] ∨
      ((Base64.sextets bytes).map (Base64.symbol variant)).length % 4 = 1) := by
    rw [map_eq_nil_iff, length_map]
    rintro (hempty | hone)
    · rw [hempty, length_nil] at hle
      omega
    · exact hmod hone
  rw [decode, filter_whitespace_of_isVisible fun _ hc => isVisible_of_mem_encode hc,
    trimEndOf_encode]
  simp only [if_neg hgood, hpush]
  show some t.out = some bytes
  rw [hout, nil_append]

end LooseBase64

end BigRocket.Config
