/-
`get` with a range, and big-endian numbers read at a position. `Window base
inner outer` says that `inner` stands in `outer` from `base` on.
-/
import Mathlib

namespace BigRocket.Lib

open List

def slice {α : Type} (buf : List α) (start stop : Nat) : Option (List α) :=
  if start ≤ stop ∧ stop ≤ buf.length then some ((buf.drop start).take (stop - start)) else none

def Window {α : Type} (base : Nat) (inner outer : List α) : Prop :=
  inner <+: outer.drop base ∧ base ≤ outer.length

section Window

variable {α : Type} {inner middle outer : List α} {base base' : Nat}

theorem window_of_slice {start stop : Nat} (h : slice outer start stop = some inner) :
    Window start inner outer ∧ inner.length = stop - start ∧ stop ≤ outer.length := by
  unfold slice at h
  split at h
  · next hbounds =>
      cases h
      refine ⟨⟨ take_prefix _ _, by omega⟩, ?_, hbounds.2⟩
      rw [length_take, length_drop]
      omega
  · cases h

theorem Window.trans (h : Window base inner middle) (h' : Window base' middle outer) :
    Window (base' + base) inner outer := by
  obtain ⟨⟨after, hafter⟩, hbase⟩ := h
  obtain ⟨⟨after', hafter'⟩, hbase'⟩ := h'
  have hlength : middle.length + after'.length = outer.length - base' := by
    rw [← length_append, hafter', length_drop]
  refine ⟨⟨after ++ after', ?_⟩, by omega⟩
  rw [← append_assoc, hafter, ← drop_append_of_le_length hbase, hafter', drop_drop]

theorem Window.length_le (h : Window base inner outer) : base + inner.length ≤ outer.length := by
  have hle := h.1.length_le
  rw [length_drop] at hle
  have hbase := h.2
  omega

theorem Window.getElem? (h : Window base inner outer) {i : Nat} {a : α}
    (ha : inner[i]? = some a) : outer[base + i]? = some a := by
  obtain ⟨⟨after, hafter⟩, -⟩ := h
  have hi : i < inner.length := (List.getElem?_eq_some_iff.mp ha).1
  rw [← getElem?_drop, ← hafter, getElem?_append_left hi]
  exact ha

theorem Window.take_drop (h : Window base inner outer) :
    (outer.drop base).take inner.length = inner := by
  obtain ⟨⟨after, hafter⟩, -⟩ := h
  rw [← hafter, take_left]

end Window

/-! ## Numbers -/

def be16 (buf : List UInt8) (pos : Nat) : Option Nat := do
  let hi ← buf[pos]?
  let lo ← buf[pos + 1]?
  return hi.toNat <<< 8 ||| lo.toNat

def be24 (buf : List UInt8) (pos : Nat) : Option Nat := do
  let a ← buf[pos]?
  let b ← buf[pos + 1]?
  let c ← buf[pos + 2]?
  return a.toNat <<< 16 ||| b.toNat <<< 8 ||| c.toNat

theorem be16_eq_some {buf : List UInt8} {pos v : Nat} (h : be16 buf pos = some v) :
    ∃ hi lo, buf[pos]? = some hi ∧ buf[pos + 1]? = some lo ∧ v = hi.toNat <<< 8 ||| lo.toNat := by
  obtain ⟨hi, hhi, h⟩ := Option.bind_eq_some_iff.mp h
  obtain ⟨lo, hlo, h⟩ := Option.bind_eq_some_iff.mp h
  cases h
  exact ⟨hi, lo, hhi, hlo, rfl⟩

theorem be16_window {base : Nat} {inner outer : List UInt8} (hw : Window base inner outer)
    {pos v : Nat} (h : be16 inner pos = some v) : be16 outer (base + pos) = some v := by
  obtain ⟨hi, lo, hhi, hlo, rfl⟩ := be16_eq_some h
  have hlo' : outer[base + pos + 1]? = some lo := hw.getElem? hlo
  rw [be16, hw.getElem? hhi, hlo']
  rfl

end BigRocket.Lib
