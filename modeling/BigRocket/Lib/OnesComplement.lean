/-
Sums of 16-bit words in one's complement. `Folds n v` says that `v` is the word
of the integer `n`, however the carries were folded.
-/
import Mathlib

namespace BigRocket.Lib.OnesComplement

open List

def add (a b : Nat) : Nat := if a + b ≤ 0xFFFF then a + b else a + b - 0xFFFF

def sum (words : List Nat) : Nat := words.foldl add 0

def words : List UInt8 → List Nat
  | high :: low :: rest => (high.toNat * 256 + low.toNat) :: words rest
  | [high] => [high.toNat * 256]
  | [] => []

structure Folds (n v : Nat) : Prop where
  le : v ≤ 0xFFFF
  modEq : v ≡ n [MOD 0xFFFF]
  zero : v = 0 ↔ n = 0

section Folds

variable {n v w : Nat}

theorem folds_self (h : n ≤ 0xFFFF) : Folds n n := ⟨h, rfl, Iff.rfl⟩

theorem Folds.unique (h : Folds n v) (h' : Folds n w) : v = w := by
  have hmod : v % 0xFFFF = w % 0xFFFF := h.modEq.trans h'.modEq.symm
  have hzero : v = 0 ↔ w = 0 := h.zero.trans h'.zero.symm
  have hv := h.le
  have hw := h'.le
  omega

theorem Folds.add (h : Folds n v) (hw : w ≤ 0xFFFF) : Folds (n + w) (add v w) := by
  have hv := h.le
  have hmod : v % 0xFFFF = n % 0xFFFF := h.modEq
  have hzero := h.zero
  unfold OnesComplement.add
  split
  · refine ⟨by omega, h.modEq.add_right w, by omega⟩
  · refine ⟨by omega, ?_, by omega⟩
    show (v + w - 0xFFFF) % 0xFFFF = (n + w) % 0xFFFF
    omega

theorem folds_ones_iff : Folds n 0xFFFF ↔ 0 < n ∧ 0xFFFF ∣ n := by
  constructor
  · intro h
    have hmod : 0xFFFF % 0xFFFF = n % 0xFFFF := h.modEq
    have hzero := h.zero
    exact ⟨by omega, by omega⟩
  · rintro ⟨hpos, hdvd⟩
    refine ⟨le_rfl, ?_, by omega⟩
    show 0xFFFF % 0xFFFF = n % 0xFFFF
    omega

theorem Folds.add_complement (h : Folds n v) :
    0 < n + (0xFFFF - v) ∧ 0xFFFF ∣ n + (0xFFFF - v) := by
  have hmod : v % 0xFFFF = n % 0xFFFF := h.modEq
  have hzero := h.zero
  have hle := h.le
  constructor
  · omega
  · omega

end Folds

/-! ## Words and bytes -/

theorem folds_foldl_add {words : List Nat} (h : ∀ w ∈ words, w ≤ 0xFFFF) {n v : Nat}
    (hv : Folds n v) : Folds (n + words.sum) (words.foldl add v) := by
  induction words generalizing n v with
  | nil => simpa using hv
  | cons w words ih =>
    have hnext := ih (fun w' hw' => h w' (mem_cons_of_mem w hw')) (hv.add (h w (by simp)))
    rw [sum_cons, ← Nat.add_assoc]
    exact hnext

theorem folds_sum {words : List Nat} (h : ∀ w ∈ words, w ≤ 0xFFFF) : Folds words.sum (sum words) := by
  have hsum := folds_foldl_add h (folds_self (Nat.zero_le _))
  rw [Nat.zero_add] at hsum
  exact hsum

theorem le_of_mem_words (bytes : List UInt8) : ∀ w ∈ words bytes, w ≤ 0xFFFF := by
  fun_induction words bytes with
  | case1 high low rest ih =>
    intro w hw
    have hhigh := high.toNat_lt
    have hlow := low.toNat_lt
    rcases mem_cons.mp hw with rfl | hw
    · omega
    · exact ih w hw
  | case2 high =>
    intro w hw
    have hhigh := high.toNat_lt
    rw [mem_singleton.mp hw]
    omega
  | case3 => exact nofun

theorem words_append {front : List UInt8} (heven : Even front.length) (back : List UInt8) :
    words (front ++ back) = words front ++ words back := by
  fun_induction words front with
  | case1 high low rest ih =>
    have hrest : Even rest.length := by
      simpa [Nat.even_add_one] using heven
    simp [words, ih hrest]
  | case2 high => simp at heven
  | case3 => rfl

theorem sum_words_eq_ones_iff (bytes : List UInt8) :
    sum (words bytes) = 0xFFFF ↔ 0 < (words bytes).sum ∧ 0xFFFF ∣ (words bytes).sum := by
  have hfolds := folds_sum (le_of_mem_words bytes)
  rw [← folds_ones_iff]
  constructor
  · intro h
    exact h ▸ hfolds
  · intro h
    exact hfolds.unique h

end BigRocket.Lib.OnesComplement
