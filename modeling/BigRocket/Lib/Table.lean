/-
Tables from ids to entries, and keys that no two entries of a table share.
-/
import Mathlib

namespace BigRocket.Lib

open Function (update update_of_ne update_self)

variable {ι α κ : Type}

def UniqueKeys (table : ι → Option α) (key : α → κ) : Prop :=
  ∀ i j x y, table i = some x → table j = some y → key x = key y → i = j

def EntriesKept (same : α → α → Prop) (before after : ι → Option α) : Prop :=
  ∀ i y, after i = some y → ∃ x, before i = some x ∧ same x y

variable {key : α → κ} {same : α → α → Prop} {first before after : ι → Option α}

theorem uniqueKeys_empty : UniqueKeys (fun _ : ι => none) key := by
  intro i j x y hx
  cases hx

theorem UniqueKeys.kept (h : UniqueKeys before key) (hkept : EntriesKept same before after)
    (hkey : ∀ x y, same x y → key y = key x) : UniqueKeys after key := by
  intro i j x y hx hy heq
  obtain ⟨x', hx', hxSame⟩ := hkept i x hx
  obtain ⟨y', hy', hySame⟩ := hkept j y hy
  exact h i j x' y' hx' hy' (by rw [← hkey x' x hxSame, heq, hkey y' y hySame])

theorem EntriesKept.of_eq (hsame : ∀ x, same x x) (h : after = before) :
    EntriesKept same before after := by
  intro i y hy
  exact ⟨y, h ▸ hy, hsame y⟩

theorem EntriesKept.trans (htrans : ∀ x y z, same x y → same y z → same x z)
    (hfirst : EntriesKept same first before) (hsecond : EntriesKept same before after) :
    EntriesKept same first after := by
  intro i z hz
  obtain ⟨y, hy, hyz⟩ := hsecond i z hz
  obtain ⟨x, hx, hxy⟩ := hfirst i y hy
  exact ⟨x, hx, htrans x y z hxy hyz⟩

theorem uniqueKeys_update_iff [DecidableEq ι] {table : ι → Option α} {new : ι} {v : α}
    (h : UniqueKeys table key) (hfresh : table new = none) :
    UniqueKeys (update table new (some v)) key ↔
      ∀ i x, table i = some x → key v ≠ key x := by
  constructor
  · intro hafter i x hx heq
    have hne : i ≠ new := by
      rintro rfl
      rw [hfresh] at hx
      cases hx
    have hold : update table new (some v) i = some x := by
      rw [update_of_ne hne, hx]
    exact hne (hafter new i v x (update_self ..) hold heq).symm
  · intro hnew i j x y hx hy heq
    by_cases hi : i = new <;> by_cases hj : j = new
    · rw [hi, hj]
    · subst hi
      rw [update_self] at hx
      rw [update_of_ne hj] at hy
      cases hx
      exact absurd heq (hnew j y hy)
    · subst hj
      rw [update_of_ne hi] at hx
      rw [update_self] at hy
      cases hy
      exact absurd heq.symm (hnew i x hx)
    · rw [update_of_ne hi] at hx
      rw [update_of_ne hj] at hy
      exact h i j x y hx hy heq

end BigRocket.Lib
