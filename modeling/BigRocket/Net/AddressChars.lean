/-
What the text of an address looks like.
-/
import BigRocket.Lib.TextForms
import BigRocket.Net.AddressText

namespace BigRocket.Net

open Lib List Option

/-! ## Characters -/

def isHex (c : Char) : Bool := (toDigit 16 c).isSome

def isAddressChar (c : Char) : Bool := isHex c || c = ':' || c = '.'

variable {s rest : Text} {c : Char} {limit index : Nat} {ip : IpAddr}

theorem toDigit_lt {radix : Nat} (h : (toDigit radix c).isSome = true) : c.toNat < 128 := by
  have hrange : ('0' ≤ c ∧ c ≤ '9') ∨ ('a' ≤ c ∧ c ≤ 'z') ∨ ('A' ≤ c ∧ c ≤ 'Z') := by
    unfold toDigit at h
    split at h
    · next hdigit => exact .inl hdigit
    · split at h
      · next hlower => exact .inr (.inl hlower)
      · split at h
        · next hupper => exact .inr (.inr hupper)
        · simp at h
  rcases hrange with ⟨-, h⟩ | ⟨-, h⟩ | ⟨-, h⟩ <;>
  · have hle : c.toNat ≤ _ := h
    exact lt_of_le_of_lt hle (by decide)

theorem isHex_lt (h : isHex c = true) : c.toNat < 128 := toDigit_lt h

theorem isHex_of_decimal (h : (toDigit 10 c).isSome = true) : isHex c = true :=
  Text.forall_ascii (P := fun c => (toDigit 10 c).isSome = true → isHex c = true)
    (by decide +kernel) (toDigit_lt h) h

theorem isHex_toLower (h : isHex c = true) : isHex c.toLower = true :=
  Text.forall_ascii (P := fun c => isHex c = true → isHex c.toLower = true)
    (by decide +kernel) (isHex_lt h) h

theorem isAddressChar_of_isHex (h : isHex c = true) : isAddressChar c = true := by
  rw [isAddressChar, h]
  rfl

theorem isAddressChar_lt (h : isAddressChar c = true) : c.toNat < 128 := by
  simp only [isAddressChar, Bool.or_eq_true, decide_eq_true_eq] at h
  rcases h with (h | rfl) | rfl
  · exact isHex_lt h
  · decide
  · decide

theorem not_isWhitespace_of_isAddressChar (h : isAddressChar c = true) :
    Text.isWhitespace c = false :=
  Text.forall_ascii (P := fun c => isAddressChar c = true → Text.isWhitespace c = false)
    (by decide +kernel) (isAddressChar_lt h) h

/-! ## What the readers use up -/

def Used (kind : Char → Bool) (s rest : Text) : Prop :=
  ∃ used, s = used ++ rest ∧ ∀ c ∈ used, kind c = true

section Used

variable {kind kind' : Char → Bool} {s rest rest' : Text}

theorem Used.refl (kind : Char → Bool) (s : Text) : Used kind s s := ⟨[], rfl, by simp⟩

theorem Used.trans (h : Used kind s rest) (h' : Used kind rest rest') : Used kind s rest' := by
  obtain ⟨used, rfl, hused⟩ := h
  obtain ⟨used', rfl, hused'⟩ := h'
  refine ⟨used ++ used', (append_assoc _ _ _).symm, ?_⟩
  intro c hc
  rcases mem_append.mp hc with hc | hc
  · exact hused c hc
  · exact hused' c hc

theorem Used.mono (h : Used kind s rest) (himp : ∀ c, kind c = true → kind' c = true) :
    Used kind' s rest := by
  obtain ⟨used, rfl, hused⟩ := h
  exact ⟨used, rfl, fun c hc => himp c (hused c hc)⟩

theorem Used.cons {c : Char} (hc : kind c = true) (h : Used kind s rest) :
    Used kind (c :: s) rest := by
  obtain ⟨used, rfl, hused⟩ := h
  exact ⟨c :: used, rfl, forall_mem_cons.mpr ⟨hc, hused⟩⟩

theorem Used.forall (h : Used kind s []) : ∀ c ∈ s, kind c = true := by
  obtain ⟨used, rfl, hused⟩ := h
  simpa using hused

end Used

theorem readGivenChar_eq_some (h : readGivenChar c s = some rest) : s = c :: rest := by
  cases s with
  | nil => cases h
  | cons d tail =>
    rw [readGivenChar] at h
    split at h
    · next heq =>
        cases h
        rw [heq]
    · cases h

theorem readNumber_eq_some {radix maxDigits n : Nat} {zero : Bool}
    (h : readNumber radix maxDigits limit zero s = some (n, rest)) :
    ∃ used, s = used ++ rest ∧ used ≠ [] ∧ ∀ c ∈ used, (toDigit radix c).isSome = true := by
  unfold readNumber at h
  dsimp only at h
  split at h
  · cases h
  · next hlength =>
      split at h
      · cases h
      · split at h
        · cases h
          refine ⟨s.takeWhile fun c => (toDigit radix c).isSome, ?_, ?_, ?_⟩
          · exact (prefix_iff_eq_append.mp ( takeWhile_prefix _)).symm
          · intro hnil
            rw [hnil] at hlength
            simp at hlength
          · intro c hc
            exact mem_takeWhile_imp (p := fun c => (toDigit radix c).isSome) hc
        · cases h

def isDecimalChar (c : Char) : Bool := (toDigit 10 c).isSome || c = '.'

theorem readOctet_used {n : Nat} (h : readOctet index s = some (n, rest)) :
    Used isDecimalChar s rest := by
  have hnumber : ∀ {s rest : Text}, readNumber 10 3 256 false s = some (n, rest) →
      Used isDecimalChar s rest := by
    intro s rest h
    obtain ⟨used, hs, -, hused⟩ := readNumber_eq_some h
    refine ⟨used, hs, fun c hc => ?_⟩
    rw [isDecimalChar, hused c hc]
    rfl
  unfold readOctet readSeparator at h
  split at h
  · obtain ⟨tail, htail, h⟩ := bind_eq_some_iff.mp h
    rw [readGivenChar_eq_some htail]
    exact (hnumber h).cons (by decide)
  · exact hnumber h

theorem readIpv4Addr_used {addr : BitVec 32} (h : readIpv4Addr s = some (addr, rest)) :
    Used isDecimalChar s rest := by
  obtain ⟨⟨_, s₁⟩, h₁, h⟩ := bind_eq_some_iff.mp h
  obtain ⟨⟨_, s₂⟩, h₂, h⟩ := bind_eq_some_iff.mp h
  obtain ⟨⟨_, s₃⟩, h₃, h⟩ := bind_eq_some_iff.mp h
  obtain ⟨⟨_, s₄⟩, h₄, h⟩ := bind_eq_some_iff.mp h
  cases h
  exact (((readOctet_used h₁).trans (readOctet_used h₂)).trans (readOctet_used h₃)).trans
    (readOctet_used h₄)

theorem isAddressChar_of_isDecimalChar (h : isDecimalChar c = true) : isAddressChar c = true := by
  simp only [isDecimalChar, Bool.or_eq_true, decide_eq_true_eq] at h
  rcases h with h | rfl
  · exact isAddressChar_of_isHex (isHex_of_decimal h)
  · rfl

theorem readSeparator_used {α : Type} {inner : Text → Option (α × Text)} {a : α}
    (hinner : ∀ s, inner s = some (a, rest) → Used isAddressChar s rest)
    (h : readSeparator ':' index inner s = some (a, rest)) : Used isAddressChar s rest := by
  unfold readSeparator at h
  split at h
  · obtain ⟨tail, htail, h⟩ := bind_eq_some_iff.mp h
    rw [readGivenChar_eq_some htail]
    exact (hinner tail h).cons rfl
  · exact hinner s h

theorem readGroups_used (limit : Nat) : ∀ (left index : Nat) (s : Text),
    Used isAddressChar s (readGroups limit left index s).2.2 := by
  intro left
  induction left with
  | zero => exact fun index s => Used.refl _ _
  | succ left ih =>
    intro index s
    rw [readGroups]
    split
    · next v4 rest hembedded =>
        split at hembedded
        · exact readSeparator_used
            (fun s h => (readIpv4Addr_used h).mono fun c => isAddressChar_of_isDecimalChar)
            hembedded
        · cases hembedded
    · split
      · next group rest hgroup =>
          refine (readSeparator_used (fun s h => ?_) hgroup).trans (ih (index + 1) rest)
          obtain ⟨used, hs, -, hused⟩ := readNumber_eq_some h
          exact ⟨used, hs, fun c hc => isAddressChar_of_isHex (hused c hc)⟩
      · exact Used.refl _ _

theorem readIpv6Addr_used {addr : BitVec 128} (h : readIpv6Addr s = some (addr, rest)) :
    Used isAddressChar s rest := by
  have hhead := readGroups_used 8 8 0 s
  unfold readIpv6Addr at h
  dsimp only at h
  split at h
  · cases h
    exact hhead
  · split at h
    · cases h
    · obtain ⟨rest₁, h₁, h⟩ := bind_eq_some_iff.mp h
      obtain ⟨rest₂, h₂, h⟩ := bind_eq_some_iff.mp h
      have htail := readGroups_used (8 - ((readGroups 8 8 0 s).1.length + 1))
        (8 - ((readGroups 8 8 0 s).1.length + 1)) 0 rest₂
      cases h
      rw [readGivenChar_eq_some h₁, readGivenChar_eq_some h₂] at hhead
      exact hhead.trans ((htail.cons rfl).cons rfl)

theorem parseIpAddr_eq_some (h : parseIpAddr s = some ip) :
    (∃ addr, readIpv4Addr s = some (addr, [])) ∨ ∃ addr, readIpv6Addr s = some (addr, []) := by
  unfold parseIpAddr readIpAddr at h
  cases hv4 : readIpv4Addr s with
  | some v4 =>
    rw [hv4] at h
    obtain ⟨addr, rest⟩ := v4
    cases rest with
    | nil => exact .inl ⟨addr, rfl⟩
    | cons c rest => cases h
  | none =>
    rw [hv4] at h
    cases hv6 : readIpv6Addr s with
    | none => rw [hv6] at h; cases h
    | some v6 =>
      rw [hv6] at h
      obtain ⟨addr, rest⟩ := v6
      cases rest with
      | nil => exact .inr ⟨addr, rfl⟩
      | cons c rest => cases h

theorem isAddressChar_of_parseIpAddr (h : parseIpAddr s = some ip) :
    ∀ c ∈ s, isAddressChar c = true := by
  rcases parseIpAddr_eq_some h with ⟨addr, hv4⟩ | ⟨addr, hv6⟩
  · exact ((readIpv4Addr_used hv4).mono fun c => isAddressChar_of_isDecimalChar).forall
  · exact (readIpv6Addr_used hv6).forall

/-! ## How an IPv6 text begins -/

theorem readSeparator_zero {α : Type} (inner : Text → Option (α × Text)) (s : Text) :
    readSeparator ':' 0 inner s = inner s := rfl

theorem readGroups_first (hlimit : 1 < limit) (left : Nat) (s : Text) :
    (∃ v4 rest, readIpv4Addr s = some (v4, rest) ∧
      readGroups limit (left + 1) 0 s = ([v4.toNat / 65536, v4.toNat % 65536], true, rest)) ∨
    (∃ group rest, readNumber 16 4 65536 true s = some (group, rest) ∧
      readGroups limit (left + 1) 0 s =
        (group :: (readGroups limit left 1 rest).1, (readGroups limit left 1 rest).2.1,
          (readGroups limit left 1 rest).2.2)) ∨
    (readNumber 16 4 65536 true s = none ∧ readGroups limit (left + 1) 0 s = ([], false, s)) := by
  rw [readGroups]
  simp only [readSeparator_zero, Nat.zero_add, hlimit, if_true]
  cases hv4 : readIpv4Addr s with
  | some v4 => exact .inl ⟨v4.1, v4.2, rfl, rfl⟩
  | none =>
    cases hnumber : readNumber 16 4 65536 true s with
    | some number => exact .inr (.inl ⟨number.1, number.2, rfl, rfl⟩)
    | none => exact .inr (.inr ⟨rfl, rfl⟩)

theorem readGroups_noColon {left : Nat} (hindex : 0 < index) (h : readGivenChar ':' s = none) :
    readGroups limit left index s = ([], false, s) := by
  cases left with
  | zero => rfl
  | succ left =>
    have hsep : ∀ {α : Type} (inner : Text → Option (α × Text)),
        readSeparator ':' index inner s = none := by
      intro α inner
      rw [readSeparator, if_pos hindex, h]
      rfl
    rw [readGroups]
    simp only [hsep, ite_self]

theorem readIpv6Addr_begins {addr : BitVec 128} (h : readIpv6Addr s = some (addr, rest)) :
    (∃ used tail, s = used ++ ':' :: tail ∧ used ≠ [] ∧ ∀ c ∈ used, isHex c = true) ∨
      ∃ tail, s = ':' :: ':' :: tail ∧ (tail.head? = some ':' → rest = tail) := by
  unfold readIpv6Addr at h
  rcases readGroups_first (by decide : 1 < 8) 7 s with ⟨v4, rest₁, -, hgroups⟩ |
    ⟨group, rest₁, hnumber, hgroups⟩ | ⟨hnumber, hgroups⟩
  · rw [hgroups] at h
    simp at h
  · left
    obtain ⟨used, hs, hne, hused⟩ := readNumber_eq_some hnumber
    cases hcolon : readGivenChar ':' rest₁ with
    | some tail => exact ⟨used, tail, by rw [hs, readGivenChar_eq_some hcolon], hne, hused⟩
    | none =>
      rw [hgroups, readGroups_noColon Nat.one_pos hcolon] at h
      simp [hcolon] at h
  · right
    rw [hgroups] at h
    obtain ⟨rest₁, h₁, h⟩ := bind_eq_some_iff.mp h
    obtain ⟨tail, h₂, h⟩ := bind_eq_some_iff.mp h
    refine ⟨tail, by rw [readGivenChar_eq_some h₁, readGivenChar_eq_some h₂], fun hhead => ?_⟩
    obtain ⟨more, rfl⟩ : ∃ more, tail = ':' :: more := by
      cases tail with
      | nil => cases hhead
      | cons c more => exact ⟨more, by rw [Option.some.inj hhead]⟩
    cases h
    rfl

theorem parseIpAddr_begins (h : parseIpAddr s = some ip) :
    ':' ∉ s ∨
      (∃ used tail, s = used ++ ':' :: tail ∧ used ≠ [] ∧ ∀ c ∈ used, isHex c = true) ∨
      ∃ tail, s = ':' :: ':' :: tail ∧ tail.head? ≠ some ':' := by
  rcases parseIpAddr_eq_some h with ⟨addr, hv4⟩ | ⟨addr, hv6⟩
  · left
    intro hcolon
    exact absurd ((readIpv4Addr_used hv4).forall ':' hcolon) (by decide)
  · right
    rcases readIpv6Addr_begins hv6 with hgroup | ⟨tail, hs, hstop⟩
    · exact .inl hgroup
    · refine .inr ⟨tail, hs, fun hhead => ?_⟩
      rw [← hstop hhead] at hhead
      cases hhead

end BigRocket.Net
