/-
Bytes written over others in a buffer of a fixed size, and ranges and numbers
read from it.
-/
import BigRocket.Lib.ByteBuffer
import BigRocket.Lib.Slice

namespace BigRocket.Lib

open List

def overwrite {α : Type} (buf : List α) (pos : Nat) (bytes : List α) : List α :=
  buf.take pos ++ bytes ++ buf.drop (pos + bytes.length)

section Overwrite

variable {α : Type} {buf bytes : List α} {pos start stop : Nat}

theorem length_overwrite (h : pos + bytes.length ≤ buf.length) :
    (overwrite buf pos bytes).length = buf.length := by
  simp only [overwrite, length_append, length_take, length_drop]
  omega

theorem getElem?_overwrite (h : pos + bytes.length ≤ buf.length) (i : Nat) :
    (overwrite buf pos bytes)[i]? =
      if pos ≤ i ∧ i < pos + bytes.length then bytes[i - pos]? else buf[i]? := by
  have htake : (buf.take pos).length = pos := by
    rw [length_take]
    omega
  rw [overwrite, append_assoc, getElem?_append, htake]
  split
  · rw [if_neg (by omega), getElem?_take_of_lt (by omega)]
  · rw [getElem?_append]
    split
    · rw [if_pos (by omega)]
    · rw [if_neg (by omega), getElem?_drop]
      congr 1
      omega

theorem slice_ext {buf' : List α} (hlength : buf.length = buf'.length)
    (h : ∀ i, start ≤ i → i < stop → buf[i]? = buf'[i]?) :
    slice buf start stop = slice buf' start stop := by
  unfold slice
  rw [hlength]
  split
  · congr 1
    refine ext_getElem? fun i => ?_
    rw [getElem?_take, getElem?_take]
    split
    · rw [getElem?_drop, getElem?_drop]
      exact h _ (by omega) (by omega)
    · rfl
  · rfl

theorem slice_overwrite_of_disjoint (h : pos + bytes.length ≤ buf.length)
    (hdisjoint : stop ≤ pos ∨ pos + bytes.length ≤ start) :
    slice (overwrite buf pos bytes) start stop = slice buf start stop := by
  refine slice_ext (length_overwrite h) fun i hstart hstop => ?_
  rw [getElem?_overwrite h, if_neg (by omega)]

theorem slice_overwrite_self (h : pos + bytes.length ≤ buf.length)
    (hstop : stop = pos + bytes.length) :
    slice (overwrite buf pos bytes) pos stop = some bytes := by
  have htake : (buf.take pos).length = pos := by
    rw [length_take]
    omega
  rw [slice, if_pos ⟨by omega, by rw [length_overwrite h]; omega⟩, overwrite, append_assoc,
    drop_append, drop_eq_nil_of_le (by omega), htake, Nat.sub_self, drop_zero,
    nil_append, hstop, Nat.add_sub_cancel_left, take_left]

def writes (buf : List α) (patches : List (Nat × List α)) : List α :=
  patches.foldl (fun buf patch => overwrite buf patch.1 patch.2) buf

variable {patches : List (Nat × List α)}

def Inside (patches : List (Nat × List α)) (size : Nat) : Prop :=
  ∀ patch ∈ patches, patch.1 + patch.2.length ≤ size

def Outside (patches : List (Nat × List α)) (start stop : Nat) : Prop :=
  ∀ patch ∈ patches, stop ≤ patch.1 ∨ patch.1 + patch.2.length ≤ start

theorem Inside.overwrite {patch : Nat × List α} (h : Inside (patch :: patches) buf.length) :
    Inside patches (overwrite buf patch.1 patch.2).length := by
  rw [length_overwrite (h patch (by simp))]
  exact fun other hother => h other (mem_cons_of_mem patch hother)

theorem length_writes (h : Inside patches buf.length) :
    (writes buf patches).length = buf.length := by
  induction patches generalizing buf with
  | nil => rfl
  | cons patch patches ih =>
    exact (ih h.overwrite).trans (length_overwrite (h patch (by simp)))

theorem slice_writes_of_outside (h : Inside patches buf.length)
    (houtside : Outside patches start stop) :
    slice (writes buf patches) start stop = slice buf start stop := by
  induction patches generalizing buf with
  | nil => rfl
  | cons patch patches ih =>
    have hrest : Outside patches start stop := fun other hother =>
      houtside other (mem_cons_of_mem patch hother)
    exact (ih h.overwrite hrest).trans
      (slice_overwrite_of_disjoint (h patch (by simp)) (houtside patch (by simp)))

def Apart (first second : Nat × List α) : Prop :=
  first.1 + first.2.length ≤ second.1 ∨ second.1 + second.2.length ≤ first.1

def Holds (buf : List α) (fields : List (Nat × List α)) : Prop :=
  ∀ field ∈ fields, slice buf field.1 (field.1 + field.2.length) = some field.2

theorem holds_writes (h : Inside patches buf.length) (hapart : patches.Pairwise Apart) :
    Holds (writes buf patches) patches := by
  induction patches generalizing buf with
  | nil => exact nofun
  | cons patch patches ih =>
    have hroom := h patch (by simp)
    obtain ⟨hfirst, hrest⟩ := pairwise_cons.mp hapart
    intro field hfield
    rcases mem_cons.mp hfield with rfl | hfield
    · exact (slice_writes_of_outside h.overwrite hfirst).trans (slice_overwrite_self hroom rfl)
    · exact ih h.overwrite hrest field hfield

variable {fields fields' : List (Nat × List α)}

theorem Holds.mono (h : Holds buf fields) (hsub : fields' ⊆ fields) : Holds buf fields' :=
  fun field hfield => h field (hsub hfield)

theorem Holds.append (h : Holds buf fields) (h' : Holds buf fields') :
    Holds buf (fields ++ fields') := by
  intro field hfield
  rcases mem_append.mp hfield with hfield | hfield
  · exact h field hfield
  · exact h' field hfield

theorem Holds.overwrite (h : Holds buf fields) (hroom : pos + bytes.length ≤ buf.length)
    (hapart : ∀ field ∈ fields, Apart field (pos, bytes)) :
    Holds (overwrite buf pos bytes) fields := by
  intro field hfield
  rw [slice_overwrite_of_disjoint hroom (hapart field hfield)]
  exact h field hfield

theorem Holds.writes (h : Holds buf fields) (hinside : Inside patches buf.length)
    (hapart : ∀ field ∈ fields, ∀ patch ∈ patches, Apart field patch) :
    Holds (writes buf patches) fields := by
  intro field hfield
  rw [slice_writes_of_outside hinside (hapart field hfield)]
  exact h field hfield

theorem holds_overwrite (hroom : pos + bytes.length ≤ buf.length) :
    Holds (Lib.overwrite buf pos bytes) [(pos, bytes)] := by
  intro field hfield
  rw [mem_singleton.mp hfield]
  exact slice_overwrite_self hroom rfl

theorem Holds.slice (h : Holds buf fields) (hmem : (pos, bytes) ∈ fields)
    (hstop : stop = pos + bytes.length) : slice buf pos stop = some bytes := by
  rw [hstop]
  exact h (pos, bytes) hmem

theorem Holds.take_drop (h : Holds buf fields) (hmem : (pos, bytes) ∈ fields) :
    (buf.drop pos).take bytes.length = bytes :=
  (window_of_slice (h.slice hmem rfl)).1.take_drop

theorem slice_isSome_iff (hle : start ≤ stop) :
    (slice buf start stop).isSome ↔ stop ≤ buf.length := by
  simp only [slice, hle, true_and]
  split <;> simp_all

theorem slice_take {size : Nat} (h : stop ≤ size) :
    slice (buf.take size) start stop = slice buf start stop := by
  have hbound : stop ≤ (buf.take size).length ↔ stop ≤ buf.length := by
    rw [length_take]
    omega
  simp only [slice, hbound]
  refine if_congr Iff.rfl (congrArg some ?_) rfl
  rw [drop_take, take_take, min_eq_left (by omega)]

end Overwrite

/-! ## Numbers -/

def numberAt (w : Nat) (buf : List UInt8) (pos : Nat) : Option Nat :=
  (slice buf pos (pos + w)).map beNat

variable {w pos : Nat} {buf : List UInt8}

theorem numberAt_isSome_iff : (numberAt w buf pos).isSome ↔ pos + w ≤ buf.length := by
  rw [numberAt, Option.isSome_map, slice_isSome_iff (Nat.le_add_right pos w)]

theorem numberAt_take {size : Nat} (h : pos + w ≤ size) :
    numberAt w (buf.take size) pos = numberAt w buf pos := by
  rw [numberAt, numberAt, slice_take h]

theorem Holds.numberAt {n : Nat} {fields : List (Nat × List UInt8)} (h : Holds buf fields)
    (bytes : List UInt8) (hmem : (pos, bytes) ∈ fields) (hw : bytes.length = w)
    (hn : beNat bytes = n) : numberAt w buf pos = some n := by
  rw [Lib.numberAt, h.slice hmem (by rw [hw]), Option.map_some, hn]

end BigRocket.Lib
