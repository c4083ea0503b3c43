/-
`LooseBase64.decode` on arrays: when it returns, and what. After `k` characters
of the alphabet `6 * k / 8` bytes are written.
-/
import BigRocket.Config.LooseBase64Array
import BigRocket.Config.LooseBase64Theorems

namespace BigRocket.Config

open List Option

open Lib Lib.Kotlin Lib.Utf16

namespace LooseBase64

/-! ## The table -/

def isSymbol (u : UInt16) : Bool := u.toNat < 128 && (reverse (Char.ofNat u.toNat)).isSome

theorem reverseTable_eq :
    reverseTable = (List.range 128).map fun code =>
      (reverse (Char.ofNat code)).elim (-1) fun v => (v : Int) := by
  decide +kernel

theorem lookUp_of_lt {code : Nat} (h : code < 128) :
    lookUp code = .ok ((reverse (Char.ofNat code)).elim (-1) fun v => (v : Int)) := by
  rw [lookUp, if_pos h, reverseTable_eq]
  simp [h]

theorem lookUp_of_le {code : Nat} (h : 128 ≤ code) : lookUp code = .ok (-1) := by
  rw [lookUp, if_neg (by omega)]

theorem lt_of_reverse {c : Char} {v : Nat} (h : reverse c = some v) : c.toNat < 128 := by
  unfold reverse at h
  split at h
  · rename_i hc
    rw [hc]
    decide
  · split at h
    · rename_i hc
      rw [hc]
      decide
    · have hmem : c ∈ alphabet := by
        by_contra hnot
        rw [idxOf?_eq_none_iff.mpr hnot] at h
        cases h
      have hall : (alphabet.all fun c => c.toNat < 128) = true := by decide +kernel
      simpa using all_eq_true.mp hall c hmem

namespace ArrayState

variable {t : ArrayState} {st : State} {u : UInt16} {v : Nat}

/-! ## One round -/

theorem read_of_not_isSymbol (h : isSymbol u = false) : t.read u = .ok none := by
  by_cases hlt : u.toNat < 128
  · have hnone : reverse (Char.ofNat u.toNat) = none := by
      simpa [isSymbol, hlt] using h
    simp [read, lookUp_of_lt hlt, hnone, bind, Except.bind, pure, Except.pure]
  · simp [read, lookUp_of_le (Nat.le_of_not_lt hlt), bind, Except.bind, pure, Except.pure]

structure Mirrors (t : ArrayState) (st : State) : Prop where
  buffer : t.buffer = st.buffer
  bits : t.bits = st.bits
  room : t.n ≤ t.out.length
  out : t.out.take t.n = st.out

theorem read_symbol_eq (hlt : u.toNat < 128) (hv : reverse (Char.ofNat u.toNat) = some v) :
    t.read u =
      if 8 ≤ t.bits + 6 then
        if t.n < t.out.length then
          .ok (some { buffer := (t.buffer <<< 6 ||| v) &&& 0xFFFFFF, bits := t.bits + 6 - 8
                      n := t.n + 1
                      out := t.out.set t.n (UInt8.ofNat
                        (((t.buffer <<< 6 ||| v) &&& 0xFFFFFF) >>> (t.bits + 6 - 8) &&& 0xFF)) })
        else .error .arrayIndexOutOfBounds
      else .ok (some { t with buffer := (t.buffer <<< 6 ||| v) &&& 0xFFFFFF, bits := t.bits + 6 }) := by
  have hneg : ¬ ((v : Int) < 0) := by omega
  simp only [read, lookUp_of_lt hlt, hv, Option.elim, bind, Except.bind, pure, Except.pure,
    if_neg hneg, Int.toNat_natCast, throw, throwThe, MonadExceptOf.throw]

theorem take_set_length {out : List UInt8} {n : Nat} (h : n < out.length) (b : UInt8) :
    (out.set n b).take (n + 1) = out.take n ++ [b] := by
  rw [take_add_one, getElem?_set_self h, take_set_of_le le_rfl]
  rfl

theorem mirrors_read (h : Mirrors t st) (hlt : u.toNat < 128)
    (hv : reverse (Char.ofNat u.toNat) = some v)
    (hroom : 8 ≤ t.bits + 6 → t.n < t.out.length) :
    ∃ t', t.read u = .ok (some t') ∧ Mirrors t' (st.push v) ∧ t'.out.length = t.out.length := by
  rw [read_symbol_eq hlt hv]
  by_cases hfull : 8 ≤ t.bits + 6
  · rw [if_pos hfull, if_pos (hroom hfull)]
    have hfull' : 8 ≤ st.bits + 6 := h.bits ▸ hfull
    refine ⟨_, rfl, ⟨?_, ?_, ?_, ?_⟩, ?_⟩
    · simp only [State.push, if_pos hfull', h.buffer]
    · simp only [State.push, if_pos hfull', h.bits]
    · simp only [length_set]
      exact hroom hfull
    · simp only [State.push, if_pos hfull', take_set_length (hroom hfull), h.out, h.buffer, h.bits]
    · simp
  · rw [if_neg hfull]
    have hfull' : ¬ 8 ≤ st.bits + 6 := h.bits ▸ hfull
    refine ⟨_, rfl, ⟨?_, ?_, h.room, ?_⟩, rfl⟩
    · simp only [State.push, if_neg hfull', h.buffer]
    · simp only [State.push, if_neg hfull', h.bits]
    · simp only [State.push, if_neg hfull', h.out]

/-! ## All rounds -/

def Counts (t : ArrayState) (k : Nat) : Prop := 8 * t.n + t.bits = 6 * k ∧ t.bits < 8

theorem counts_read {k : Nat} (hcounts : t.Counts k) (hroom : t.n ≤ t.out.length)
    (hlt : u.toNat < 128) (hv : reverse (Char.ofNat u.toNat) = some v) :
    (∃ t', t.read u = .ok (some t') ∧ t'.Counts (k + 1) ∧ t'.n ≤ t'.out.length ∧
      t'.out.length = t.out.length) ∨
    (t.read u = .error .arrayIndexOutOfBounds ∧ t.out.length < 6 * (k + 1) / 8) := by
  obtain ⟨htotal, hpending⟩ := hcounts
  rw [read_symbol_eq hlt hv]
  split
  · split
    · rename_i hfull hfree
      refine .inl ⟨_, rfl, ⟨?_, ?_⟩, ?_, length_set⟩
      · simp only
        omega
      · simp only
        omega
      · simpa using hfree
    · exact .inr ⟨rfl, by omega⟩
  · refine .inl ⟨_, rfl, ⟨?_, ?_⟩, hroom, rfl⟩
    · simp only
      omega
    · simp only
      omega

theorem isSymbol_iff : isSymbol u = true ↔
    u.toNat < 128 ∧ ∃ v, reverse (Char.ofNat u.toNat) = some v := by
  simp [isSymbol, isSome_iff_exists]

/-- The loop returns if the array has room for the bytes that the characters
up to the first one outside the alphabet give, and throws otherwise. -/
theorem readAll_returns_iff {k : Nat} (s : List UInt16) (hcounts : t.Counts k)
    (hroom : t.n ≤ t.out.length) :
    (∃ r, t.readAll s = .ok r) ↔ 6 * (k + (s.takeWhile isSymbol).length) / 8 ≤ t.out.length := by
  induction s generalizing t k with
  | nil =>
    obtain ⟨htotal, hpending⟩ := hcounts
    simp only [takeWhile_nil, length_nil]
    exact ⟨fun _ => by omega, fun _ => ⟨_, rfl⟩⟩
  | cons u rest ih =>
    cases hsymbol : isSymbol u with
    | false =>
      obtain ⟨htotal, hpending⟩ := hcounts
      rw [takeWhile_cons_of_neg (by simp [hsymbol]), readAll,
        read_of_not_isSymbol hsymbol, length_nil]
      exact ⟨fun _ => by omega, fun _ => ⟨none, rfl⟩⟩
    | true =>
      obtain ⟨hlt, v, hv⟩ := isSymbol_iff.mp hsymbol
      have hshift : k + ((rest.takeWhile isSymbol).length + 1) =
          k + 1 + (rest.takeWhile isSymbol).length := by omega
      rw [takeWhile_cons_of_pos hsymbol, length_cons, hshift, readAll]
      rcases counts_read hcounts hroom hlt hv with
        ⟨t', hread, hcounts', hroom', hlength⟩ | ⟨hread, hfull⟩
      · rw [hread, ← hlength]
        exact ih hcounts' hroom'
      · rw [hread]
        constructor
        · rintro ⟨r, hr⟩
          cases hr
        · omega

theorem readAll_encode {s : Text} {r : Option ArrayState} (h : Mirrors t st)
    (hr : t.readAll (encode s) = .ok r) :
    r.map (fun t => t.out.take t.n) = (st.pushAll s).map State.out := by
  induction s generalizing t st with
  | nil =>
    cases hr
    exact congrArg some h.out
  | cons c s ih =>
    rw [encode_cons] at hr
    cases hv : reverse c with
    | some v =>
      have hlt := lt_of_reverse hv
      obtain ⟨hchar, hnat⟩ := encodeChar_of_lt (c := c) (by omega)
      have hof : reverse (Char.ofNat (UInt16.ofNat c.toNat).toNat) = some v := by
        rw [hnat, Char.ofNat_toNat, hv]
      rw [hchar, singleton_append, readAll] at hr
      have hroom : 8 ≤ t.bits + 6 → t.n < t.out.length := by
        intro hfull
        by_contra hno
        rw [read_symbol_eq (by omega) hof, if_pos hfull, if_neg hno] at hr
        cases hr
      obtain ⟨t', hread, hmirrors, -⟩ := mirrors_read h (by omega) hof hroom
      rw [hread] at hr
      rw [State.pushAll, hv]
      exact ih hmirrors hr
    | none =>
      have hnot : ∃ u rest, encodeChar c = u :: rest ∧ isSymbol u = false := by
        rcases encodeChar_cases c with ⟨u, hchar, hnat⟩ | ⟨-, high, low, hchar, hhigh, -⟩
        · refine ⟨u, [], hchar, ?_⟩
          rw [isSymbol, hnat, Char.ofNat_toNat, hv]
          simp
        · refine ⟨high, [low], hchar, ?_⟩
          rw [isSymbol, decide_eq_false (by omega)]
          rfl
      obtain ⟨u, rest, hchar, hsymbol⟩ := hnot
      rw [hchar, cons_append, readAll, read_of_not_isSymbol hsymbol] at hr
      cases hr
      rw [State.pushAll, hv]
      rfl

end ArrayState

/-! ## The whole function -/

theorem isWhitespace_eq (c : Char) : isWhitespace c = isWhitespaceCode c.toNat := rfl

theorem isWhitespaceCode_surrogate {n : Nat} (h : 0xD800 ≤ n) : isWhitespaceCode n = false := by
  simp only [isWhitespaceCode, Bool.or_eq_false_iff, Bool.and_eq_false_iff, decide_eq_false_iff_not]
  omega

theorem contains_pad (c : Char) : (['='].contains c) = decide (c.toNat = '='.toNat) := by
  by_cases h : c = '='
  · subst h
    rfl
  · have hne : c.toNat ≠ '='.toNat := fun hnat => h (Char.toNat_inj.mp hnat)
    simpa [h] using hne

variable {s : Text} {text : JvmString} {length : Nat}

theorem stripped_encode (h : text.units = encode s) :
    stripped text = encode (trimEndOf ['='] (s.filter fun c => !isWhitespace c)) := by
  have hfilter := filter_encode (p := fun c => !isWhitespace c) (q := fun n => !isWhitespaceCode n)
    (fun c => congrArg (!·) (isWhitespace_eq c))
    (fun n hn => by rw [isWhitespaceCode_surrogate hn]; rfl) s
  have hdrop := rdropWhile_encode (p := fun c => ['='].contains c)
    (q := fun n => n = '='.toNat) contains_pad
    (fun n hn => decide_eq_false (by show n ≠ 61; omega)) (s.filter fun c => !isWhitespace c)
  rw [stripped, h, hfilter]
  exact hdrop

theorem length_stripped_le (text : JvmString) : (stripped text).length ≤ text.units.length :=
  (( rdropWhile_prefix _ _).sublist.trans filter_sublist).length_le

theorem isAscii_of_pushAll {t t' : State} (h : t.pushAll s = some t') : Text.IsAscii s := by
  induction s generalizing t with
  | nil => exact fun c hc => absurd hc not_mem_nil
  | cons c s ih =>
    obtain ⟨v, hv, hrest⟩ := bind_eq_some_iff.mp h
    intro d hd
    rcases mem_cons.mp hd with rfl | hd
    · exact lt_of_reverse hv
    · exact ih hrest d hd

def ArrayState.start (size : Nat) : ArrayState := ⟨0, 0, 0, List.replicate size 0⟩

theorem decodeArray_eq (text : JvmString) :
    decodeArray text =
      if stripped text = [] ∨ (stripped text).length % 4 = 1 then .ok none
      else if arraySize (stripped text).length < 0 then .error .negativeArraySize
      else ((ArrayState.start (arraySize (stripped text).length).toNat).readAll
        (stripped text)).map (Option.map fun t => t.out.take t.n) := by
  rw [decodeArray]
  split
  · rfl
  · split
    · rfl
    · rw [ArrayState.start]
      generalize ArrayState.readAll _ _ = result
      cases result with
      | error e => rfl
      | ok found =>
        cases found with
        | none => rfl
        | some t => rfl

theorem decode_eq (s : Text) :
    decode s =
      if trimEndOf ['='] (s.filter fun c => !isWhitespace c) = [] ∨
          (trimEndOf ['='] (s.filter fun c => !isWhitespace c)).length % 4 = 1 then none
      else (({ buffer := 0, bits := 0, out := [] } : State).pushAll
        (trimEndOf ['='] (s.filter fun c => !isWhitespace c))).map State.out := by
  rw [decode]
  split
  · rfl
  · rw [map_eq_bind]
    rfl

theorem mirrors_start (size : Nat) :
    (ArrayState.start size).Mirrors { buffer := 0, bits := 0, out := [] } :=
  ⟨rfl, rfl, Nat.zero_le _, rfl⟩

theorem decode_of_ok (h : text.units = encode s) {r : Option (List UInt8)}
    (hok : decodeArray text = .ok r) : r = decode s := by
  rw [decodeArray_eq, stripped_encode h] at hok
  rw [decode_eq]
  generalize trimEndOf ['='] (s.filter fun c => !isWhitespace c) = body at hok ⊢
  generalize hfound : (({ buffer := 0, bits := 0, out := [] } : State).pushAll body) = found
  have hloop : ∀ size, ((ArrayState.start size).readAll (encode body)).map
      (Option.map fun t => t.out.take t.n) = .ok r → r = found.map State.out := by
    intro size hr
    cases hall : (ArrayState.start size).readAll (encode body) with
    | error e =>
      rw [hall] at hr
      cases hr
    | ok last =>
      rw [hall] at hr
      cases hr
      rw [← hfound]
      exact ArrayState.readAll_encode (mirrors_start size) hall
  cases found with
  | none =>
    rw [map_none, ite_self]
    split at hok
    · cases hok
      rfl
    · split at hok
      · cases hok
      · exact hloop _ hok
  | some last =>
    -- the text is ASCII, so its length is the same in units and in characters
    have hlength : (encode body).length = body.length :=
      length_encode_of_isAscii (isAscii_of_pushAll hfound)
    have hempty : encode body = [] ↔ body = [] := by
      rw [← length_eq_zero_iff, hlength, length_eq_zero_iff]
    simp only [hempty, hlength] at hok
    split
    · rename_i hnone
      rw [if_pos hnone] at hok
      cases hok
      rfl
    · rename_i hsome
      rw [if_neg hsome] at hok
      split at hok
      · cases hok
      · exact hloop _ hok

/-! ## The size of the array -/

theorem tdiv_four_of_neg (n : Nat) : (-(n : Int)).tdiv 4 = -((n / 4 : Nat) : Int) := by
  rw [Int.neg_tdiv]
  rfl

theorem arraySize_small (h : length < 715827883) : arraySize length = (length * 3 / 4 : Nat) := by
  have hmod : length * 3 % 2 ^ 32 = length * 3 := Nat.mod_eq_of_lt (by omega)
  simp only [arraySize, hmod]
  rw [if_pos (by omega)]
  rfl

theorem arraySize_negative (hlow : 715827883 ≤ length) (hhigh : length < 1431655765) :
    arraySize length < 0 := by
  have hmod : length * 3 % 2 ^ 32 = length * 3 := Nat.mod_eq_of_lt (by omega)
  have hneg : ((length * 3 : Nat) : Int) - 2 ^ 32 = -((2 ^ 32 - length * 3 : Nat) : Int) := by omega
  simp only [arraySize, hmod]
  rw [if_neg (by omega), hneg, tdiv_four_of_neg]
  omega

theorem arraySize_wrapped (hlow : 1431655765 ≤ length) (hhigh : length < 2 ^ 31) :
    arraySize length = ((length * 3 - 2 ^ 32) / 4 : Nat) := by
  rcases Nat.eq_or_lt_of_le hlow with rfl | hlow
  · decide
  · have hmod : length * 3 % 2 ^ 32 = length * 3 - 2 ^ 32 := by omega
    simp only [arraySize, hmod]
    rw [if_pos (by omega)]
    rfl

/-- The array has room for the bytes: three times the number of characters is
below 2 ^ 31, or a character outside the alphabet comes early enough. A text whose
length leaves one over four is not looked at. -/
def Fits (text : JvmString) : Prop :=
  let length := (stripped text).length
  let symbols := ((stripped text).takeWhile isSymbol).length
  length % 4 = 1 ∨ length < 715827883 ∨
    (1431655765 ≤ length ∧ symbols * 3 / 4 ≤ (length * 3 - 2 ^ 32) / 4)

theorem start_returns_iff (size : Nat) (s : List UInt16) :
    (∃ r, (ArrayState.start size).readAll s = .ok r) ↔
      (s.takeWhile isSymbol).length * 3 / 4 ≤ size := by
  have hiff := ArrayState.readAll_returns_iff (t := ArrayState.start size) (k := 0) s
    ⟨rfl, Nat.zero_lt_succ 7⟩ (Nat.zero_le _)
  rw [hiff, ArrayState.start, length_replicate]
  omega

theorem map_returns_iff {α β ε : Type} (f : α → β) (x : Except ε α) :
    (∃ r, x.map f = .ok r) ↔ ∃ r, x = .ok r := by
  cases x with
  | error e => exact ⟨fun ⟨r, hr⟩ => (by cases hr), fun ⟨r, hr⟩ => (by cases hr)⟩
  | ok a => exact ⟨fun _ => ⟨a, rfl⟩, fun _ => ⟨f a, rfl⟩⟩

theorem returns_iff_fits (text : JvmString) : (∃ r, decodeArray text = .ok r) ↔ Fits text := by
  have hbound := lt_of_le_of_lt (length_stripped_le text) text.bounded
  have hsymbols : ((stripped text).takeWhile isSymbol).length ≤ (stripped text).length :=
    ( takeWhile_prefix isSymbol).length_le
  rw [decodeArray_eq, Fits]
  generalize stripped text = s at hbound hsymbols ⊢
  by_cases hnone : s = [] ∨ s.length % 4 = 1
  · rw [if_pos hnone]
    refine iff_of_true ⟨none, rfl⟩ ?_
    rcases hnone with rfl | hone
    · exact .inr (.inl (by decide))
    · exact .inl hone
  · rw [if_neg hnone]
    by_cases hsmall : s.length < 715827883
    · rw [arraySize_small hsmall, if_neg (by omega), Int.toNat_natCast, map_returns_iff,
        start_returns_iff]
      exact iff_of_true (by omega) (.inr (.inl hsmall))
    · by_cases hlarge : s.length < 1431655765
      · rw [if_pos (arraySize_negative (by omega) hlarge)]
        refine iff_of_false (fun ⟨r, hr⟩ => (by cases hr)) ?_
        omega
      · rw [arraySize_wrapped (by omega) hbound, if_neg (by omega), Int.toNat_natCast,
          map_returns_iff, start_returns_iff]
        omega

/-! ## Decoding -/

/-- `decode` returns, and gives the bytes back if the text is their base64,
in either alphabet, padded or not, with whitespace anywhere. -/
def DecodesRight (text : JvmString) : Prop :=
  (∃ r, decodeArray text = .ok r) ∧
    ∀ (variant : Base64.Variant) (bytes : List UInt8) (s : Text), bytes ≠ [] →
      text.units = encode s →
      (s.filter fun c => !isWhitespace c) = Base64.encode variant bytes →
      decodeArray text = .ok (some bytes)

theorem decode_of_filter {t : Text}
    (h : (s.filter fun c => !isWhitespace c) = t.filter fun c => !isWhitespace c) :
    decode s = decode t := by
  rw [decode_eq, decode_eq, h]

theorem length_replicate_lt {n : Nat} (h : n < 2 ^ 31) :
    (List.replicate n (65 : UInt16)).length < 2 ^ 31 := by
  rw [length_replicate]
  exact h

def letters (n : Nat) (h : n < 2 ^ 31) : JvmString :=
  ⟨List.replicate n 65, length_replicate_lt h⟩

theorem stripped_letters (n : Nat) (h : n < 2 ^ 31) :
    stripped (letters n h) = List.replicate n 65 := by
  have hkept : (List.replicate n (65 : UInt16)).filter (fun u => !isWhitespaceCode u.toNat) =
      List.replicate n 65 := filter_replicate_of_pos rfl
  rw [stripped, letters, hkept, rdropWhile_eq_self_iff]
  intro hne
  rw [getLast_replicate]
  decide

theorem manyLetters_lt : 715827884 < 2 ^ 31 := by decide

/-- Three times the length of the text is negative as an `Int`, and so is the
size of the array. -/
def manyLetters : JvmString := letters 715827884 manyLetters_lt

end LooseBase64

end BigRocket.Config
