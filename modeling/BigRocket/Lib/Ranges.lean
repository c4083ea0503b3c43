/-
Closed ranges of numbers, merged where they touch and found again by binary
search.
-/
import Mathlib

namespace BigRocket.Lib

open List

/-! ## Binary search -/

section PartitionPoint

variable {α : Type} (p : α → Bool) (xs : List α)

/-- The loop of a binary search: `size` elements from `base` on are left, and
each turn asks the one in the middle. -/
def narrow : Nat → Nat → Nat → Nat
  | 0, base, _ => base
  | turns + 1, base, size =>
    if size > 1 then
      narrow turns (if (xs[base + size / 2]?).any p then base + size / 2 else base)
        (size - size / 2)
    else base

/-- `partition_point`: how many elements satisfy `p`, in a list in which
those come first. -/
def partitionPoint : Nat :=
  let base := narrow p xs xs.length 0 xs.length
  if (xs[base]?).any p then base + 1 else base

variable {p xs} {k : Nat}

def Partitioned (p : α → Bool) (xs : List α) (k : Nat) : Prop :=
  k ≤ xs.length ∧ ∀ i, i < xs.length → ((xs[i]?).any p = true ↔ i < k)

theorem narrow_spec (h : Partitioned p xs k) (turns base size : Nat) (hturns : size ≤ turns)
    (hbase : base = 0 ∨ base < k) (hk : k ≤ base + size) (hsize : base + size ≤ xs.length) :
    (narrow p xs turns base size = 0 ∨ narrow p xs turns base size < k) ∧
      k ≤ narrow p xs turns base size + 1 := by
  induction turns generalizing base size with
  | zero =>
    exact ⟨hbase, by omega⟩
  | succ turns ih =>
    unfold narrow
    split
    case isTrue hlarge =>
      have hmid := h.2 (base + size / 2) (by omega)
      split
      case isTrue hp =>
        exact ih _ _ (by omega) (.inr (hmid.mp hp)) (by omega) (by omega)
      case isFalse hp =>
        have hnot : ¬ base + size / 2 < k := fun hlt => hp (hmid.mpr hlt)
        exact ih _ _ (by omega) hbase (by omega) (by omega)
    case isFalse => exact ⟨hbase, by omega⟩

theorem partitionPoint_eq (h : Partitioned p xs k) : partitionPoint p xs = k := by
  obtain ⟨hlow, hhigh⟩ := narrow_spec h xs.length 0 xs.length le_rfl (.inl rfl)
    (by simpa using h.1) (by simp)
  unfold partitionPoint
  dsimp only
  split
  case isTrue hp =>
    have hlt : narrow p xs xs.length 0 xs.length < xs.length := by
      by_contra hge
      rw [getElem?_eq_none (by omega)] at hp
      cases hp
    have := (h.2 _ hlt).mp hp
    omega
  case isFalse hp =>
    by_cases hlt : narrow p xs xs.length 0 xs.length < xs.length
    · have hnot := mt (h.2 _ hlt).mpr hp
      omega
    · have := h.1
      omega

end PartitionPoint

/-! ## Merging -/

abbrev Range : Type := Nat × Nat

namespace Range

def Has (r : Range) (x : Nat) : Prop := r.1 ≤ x ∧ x ≤ r.2

def Le (a b : Range) : Prop := a.1 < b.1 ∨ a.1 = b.1 ∧ a.2 ≤ b.2

instance : DecidableRel Le := fun _ _ => inferInstanceAs (Decidable (_ ∨ _))

instance : Std.Total Le where
  total a b := by unfold Le; omega

instance : IsTrans Range Le where
  trans a b c hab hbc := by unfold Le at *; omega

theorem Le.start_le {a b : Range} (h : Le a b) : a.1 ≤ b.1 := by
  unfold Le at h
  omega

def sort (ranges : List Range) : List Range := ranges.insertionSort Le

/-- One turn of the loop: a range that starts inside the last one, or right
behind it, only moves its end. -/
def absorb (merged : List Range) (r : Range) : List Range :=
  match merged.getLast? with
  | some last =>
    if r.1 ≤ last.2 + 1 then
      if r.2 > last.2 then merged.dropLast ++ [(last.1, r.2)] else merged
    else merged ++ [r]
  | none => merged ++ [r]

def merge (sorted : List Range) : List Range := sorted.foldl absorb []

def Covers (ranges : List Range) (x : Nat) : Prop := ∃ r ∈ ranges, Has r x

def Separated (ranges : List Range) : Prop :=
  ranges.Pairwise fun a b => a.1 ≤ b.1 ∧ a.2 + 1 < b.1

@[simp] theorem covers_nil (x : Nat) : ¬ Covers [] x := by
  simp [Covers]

@[simp] theorem covers_append {xs ys : List Range} {x : Nat} :
    Covers (xs ++ ys) x ↔ Covers xs x ∨ Covers ys x := by
  simp [Covers, or_and_right, exists_or]

variable {r : Range} {merged sorted : List Range}

@[simp] theorem covers_singleton {x : Nat} : Covers [r] x ↔ Has r x := by
  simp [Covers]

theorem has_join {a b : Range} (hstart : a.1 ≤ b.1) (htouch : b.1 ≤ a.2 + 1) (x : Nat) :
    Has (a.1, max a.2 b.2) x ↔ Has a x ∨ Has b x := by
  simp only [Has]
  omega

theorem absorb_cases (merged : List Range) (r : Range) :
    absorb merged r = merged ++ [r] ∧ (∀ a ∈ merged.getLast?, a.2 + 1 < r.1) ∨
      ∃ front last, merged = front ++ [last] ∧ r.1 ≤ last.2 + 1 ∧
        absorb merged r = front ++ [(last.1, max last.2 r.2)] := by
  rcases eq_nil_or_concat' merged with rfl | ⟨front, last, rfl⟩
  · exact .inl ⟨rfl, by simp⟩
  · have hlast : (front ++ [last]).getLast? = some last := getLast?_concat
    unfold absorb
    rw [hlast]
    dsimp only
    split
    case isTrue htouch =>
      refine .inr ⟨front, last, rfl, htouch, ?_⟩
      split
      case isTrue hlonger => rw [dropLast_concat, max_eq_right (le_of_lt hlonger)]
      case isFalse hshorter => rw [max_eq_left (not_lt.mp hshorter)]
    case isFalse hapart =>
      exact .inl ⟨rfl, by simpa using hapart⟩

theorem absorb_covers (hstarts : ∀ a ∈ merged, a.1 ≤ r.1) (x : Nat) :
    Covers (absorb merged r) x ↔ Covers merged x ∨ Has r x := by
  rcases absorb_cases merged r with ⟨heq, -⟩ | ⟨front, last, rfl, htouch, heq⟩
  · rw [heq, covers_append, covers_singleton]
  · have hstart : last.1 ≤ r.1 := hstarts last (by simp)
    rw [heq, covers_append, covers_singleton, has_join hstart htouch, covers_append,
      covers_singleton, or_assoc]

theorem absorb_starts (hstarts : ∀ a ∈ merged, a.1 ≤ r.1) : ∀ a ∈ absorb merged r, a.1 ≤ r.1 := by
  intro a ha
  rcases absorb_cases merged r with ⟨heq, -⟩ | ⟨front, last, rfl, -, heq⟩
  · rw [heq] at ha
    rcases mem_append.mp ha with hold | hnew
    · exact hstarts a hold
    · rw [mem_singleton.mp hnew]
  · rw [heq] at ha
    rcases mem_append.mp ha with hold | hnew
    · exact hstarts a (mem_append_left _ hold)
    · rw [mem_singleton.mp hnew]
      exact hstarts last (by simp)

theorem separated_absorb (h : Separated merged) (hstarts : ∀ a ∈ merged, a.1 ≤ r.1) :
    Separated (absorb merged r) := by
  rcases absorb_cases merged r with ⟨heq, hgap⟩ | ⟨front, last, rfl, -, heq⟩
  · rw [heq]
    refine pairwise_append.mpr ⟨h, pairwise_singleton _ _, ?_⟩
    intro a ha b hb
    rw [mem_singleton.mp hb]
    refine ⟨hstarts a ha, ?_⟩
    rcases eq_nil_or_concat' merged with rfl | ⟨front, last, rfl⟩
    · cases ha
    · have hlast := hgap last (by simp)
      rcases mem_append.mp ha with hfront | hend
      · have hapart := (pairwise_append.mp h).2.2 a hfront last (by simp)
        have := hstarts last (by simp)
        omega
      · rw [mem_singleton.mp hend]
        exact hlast
  · rw [heq]
    obtain ⟨hfront, -, hapart⟩ := pairwise_append.mp h
    refine pairwise_append.mpr ⟨hfront, pairwise_singleton _ _, ?_⟩
    intro a ha b hb
    rw [mem_singleton.mp hb]
    exact hapart a ha last (by simp)

theorem foldl_absorb (hsorted : sorted.Pairwise Le) (h : Separated merged)
    (hstarts : ∀ a ∈ merged, ∀ r ∈ sorted, a.1 ≤ r.1) :
    Separated (sorted.foldl absorb merged) ∧
      ∀ x, Covers (sorted.foldl absorb merged) x ↔ Covers merged x ∨ Covers sorted x := by
  induction sorted generalizing merged with
  | nil => exact ⟨h, fun x => by simp⟩
  | cons r rest ih =>
    obtain ⟨hfirst, hrest⟩ := pairwise_cons.mp hsorted
    have hr : ∀ a ∈ merged, a.1 ≤ r.1 := fun a ha => hstarts a ha r (by simp)
    obtain ⟨hseparated, hcovers⟩ := ih hrest (separated_absorb h hr) fun a ha b hb =>
      (absorb_starts hr a ha).trans (hfirst b hb).start_le
    refine ⟨hseparated, fun x => ?_⟩
    have hcons : Covers (r :: rest) x ↔ Has r x ∨ Covers rest x := by simp [Covers]
    rw [foldl_cons, hcovers, absorb_covers hr, hcons, or_assoc]

theorem separated_merge (h : sorted.Pairwise Le) : Separated (merge sorted) :=
  (foldl_absorb h .nil (by simp)).1

theorem merge_covers (h : sorted.Pairwise Le) (x : Nat) :
    Covers (merge sorted) x ↔ Covers sorted x := by
  rw [merge, (foldl_absorb h .nil (by simp)).2 x]
  simp

theorem pairwise_sort (ranges : List Range) : (sort ranges).Pairwise Le :=
  pairwise_insertionSort Le ranges

theorem sort_covers (ranges : List Range) (x : Nat) : Covers (sort ranges) x ↔ Covers ranges x := by
  simp [Covers, sort]

/-! ## Looking a number up -/

def lookup (ranges : List Range) (x : Nat) : Bool :=
  let idx := partitionPoint (fun r => r.1 ≤ x) ranges
  idx > 0 && (ranges[idx - 1]?).any fun r => r.2 ≥ x

theorem Separated.partitioned {ranges : List Range} (h : Separated ranges) (x : Nat) :
    ∃ k, Partitioned (fun r => decide (r.1 ≤ x)) ranges k := by
  induction ranges with
  | nil => exact ⟨0, by simp, by simp⟩
  | cons r rest ih =>
    obtain ⟨hfirst, hrest⟩ := pairwise_cons.mp h
    by_cases hr : r.1 ≤ x
    · obtain ⟨k, hlength, hk⟩ := ih hrest
      refine ⟨k + 1, by simpa using hlength, ?_⟩
      intro i hi
      cases i with
      | zero => simp [hr]
      | succ i => simpa using hk i (by simpa using hi)
    · refine ⟨0, by simp, ?_⟩
      intro i hi
      cases i with
      | zero => simp [hr]
      | succ i =>
        have hi' : i < rest.length := by simpa using hi
        have := (hfirst rest[i] (getElem_mem hi')).1
        simp [hi']
        omega

theorem lookup_iff {ranges : List Range} (h : Separated ranges) (x : Nat) :
    lookup ranges x = true ↔ Covers ranges x := by
  obtain ⟨k, hlength, hk⟩ := h.partitioned x
  have hstart : ∀ i (hi : i < ranges.length), ranges[i].1 ≤ x ↔ i < k := by
    intro i hi
    simpa [hi] using hk i hi
  unfold lookup
  rw [partitionPoint_eq ⟨hlength, hk⟩]
  constructor
  · intro hfound
    simp only [gt_iff_lt, Bool.and_eq_true, decide_eq_true_eq] at hfound
    obtain ⟨hpos, hreach⟩ := hfound
    have hi : k - 1 < ranges.length := by omega
    rw [getElem?_eq_getElem hi] at hreach
    refine ⟨ranges[k - 1], getElem_mem hi, (hstart _ hi).mpr (by omega), ?_⟩
    simpa using hreach
  · rintro ⟨r, hr, hle, hge⟩
    obtain ⟨i, hi, rfl⟩ := mem_iff_getElem.mp hr
    have hik : i < k := (hstart i hi).mp hle
    have hlast : i = k - 1 := by
      -- A later range would start behind the end of this one.
      by_contra hne
      have hk1 : k - 1 < ranges.length := by omega
      have hapart := (pairwise_iff_getElem.mp h) i (k - 1) hi hk1 (by omega)
      have := (hstart (k - 1) hk1).mpr (by omega)
      omega
    subst hlast
    simp [hi, hge]
    omega

end Range

end BigRocket.Lib
