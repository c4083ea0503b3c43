/-
Texts of which some ASCII characters are written as percent escapes
(`PercentForm`).
-/
import BigRocket.Lib.Percent

namespace BigRocket.Lib

open List

inductive PercentForm : Text → Text → Prop
  | nil : PercentForm [] []
  | keep {c : Char} {s t : Text} (hc : c ≠ '%') (rest : PercentForm s t) :
      PercentForm (c :: s) (c :: t)
  | escape {c a b : Char} {s t : Text} (hascii : c.toNat < 128)
      (hhigh : hexValue a = some (c.toNat / 16)) (hlow : hexValue b = some (c.toNat % 16))
      (rest : PercentForm s t) : PercentForm (c :: s) ('%' :: a :: b :: t)

namespace PercentForm

variable {s t : Text} {c : Char}

theorem refl (h : '%' ∉ s) : PercentForm s s := by
  induction s with
  | nil => exact .nil
  | cons c s ih =>
    have hc : c ≠ '%' := fun heq => h (heq ▸ mem_cons_self ..)
    exact .keep hc (ih fun hmem => h (mem_cons_of_mem c hmem))

theorem append {s' t' : Text} (h : PercentForm s t) (h' : PercentForm s' t') :
    PercentForm (s ++ s') (t ++ t') := by
  induction h with
  | nil => exact h'
  | keep hc rest ih => exact .keep hc ih
  | escape hascii hhigh hlow rest ih => exact .escape hascii hhigh hlow ih

theorem mem (h : PercentForm s t) (hc : c ∈ t) :
    c ∈ s ∨ c = '%' ∨ (hexValue c).isSome = true := by
  induction h with
  | nil => exact .inl hc
  | keep hne rest ih =>
    rcases mem_cons.mp hc with rfl | hc
    · exact .inl (mem_cons_self ..)
    · exact (ih hc).imp_left (mem_cons_of_mem _)
  | escape hascii hhigh hlow rest ih =>
    simp only [mem_cons] at hc
    rcases hc with rfl | rfl | rfl | hc
    · exact .inr (.inl rfl)
    · exact .inr (.inr (by rw [hhigh]; rfl))
    · exact .inr (.inr (by rw [hlow]; rfl))
    · exact (ih hc).imp_left (mem_cons_of_mem _)

theorem percent_mem (h : PercentForm s t) (hne : t ≠ s) : '%' ∈ t := by
  induction h with
  | nil => exact absurd rfl hne
  | keep hc rest ih =>
    exact mem_cons_of_mem _ (ih fun heq => hne (congrArg _ heq))
  | escape hascii hhigh hlow rest ih => exact mem_cons_self ..

variable {jvm : Jvm}

theorem decodeFrom_percent {run : List UInt8} {a b : Char} (hascii : c.toNat < 128)
    (hhigh : hexValue a = some (c.toNat / 16)) (hlow : hexValue b = some (c.toNat % 16))
    (t : Text) :
    decodeFrom jvm run ('%' :: a :: b :: t) =
      decodeFrom jvm (run ++ String.utf8EncodeChar c) t := by
  rw [Utf8.utf8EncodeChar_ascii hascii]
  simp only [decodeFrom, hhigh, hlow, Option.bind_eq_bind, Option.bind_some, Nat.div_add_mod]

theorem decodeFrom_form (h : PercentForm s t) (hplus : '+' ∉ t) (pending : Text) :
    decodeFrom jvm (Utf8.encode pending) t = some (pending ++ s) := by
  induction h generalizing pending with
  | nil => rw [decodeFrom, jvm.newString_encode, append_nil]
  | @keep c s t hc rest ih =>
    have hrest : decodeFrom jvm [] t = some s :=
      ih (fun hmem => hplus (mem_cons_of_mem c hmem)) []
    have hne : c ≠ '+' := fun heq => hplus (heq ▸ mem_cons_self ..)
    rw [decodeFrom_cons hc hne, hrest, jvm.newString_encode]
    rfl
  | @escape c a b s t hascii hhigh hlow rest ih =>
    have hrun : Utf8.encode pending ++ String.utf8EncodeChar c =
        Utf8.encode (pending ++ [c]) := by simp
    have hrest := ih (fun hmem => hplus (by simp [hmem])) (pending ++ [c])
    rw [decodeFrom_percent hascii hhigh hlow, hrun, hrest, append_assoc]
    rfl

theorem urlDecode_form (h : PercentForm s t) (hplus : '+' ∉ t) :
    urlDecode jvm t = some s := decodeFrom_form h hplus []

/-! ## The plus sign -/

def escapePlus (t : Text) : Text := t.flatMap fun c => if c = '+' then "%2B".toList else [c]

theorem plus_notMem_escapePlus (t : Text) : '+' ∉ escapePlus t := by
  intro hmem
  obtain ⟨c, -, hc⟩ := mem_flatMap.mp hmem
  split at hc
  · exact absurd hc (by decide)
  · rename_i hne
    exact hne (mem_singleton.mp hc).symm

theorem escapePlus_cons_of_ne (hc : c ≠ '+') (t : Text) :
    escapePlus (c :: t) = c :: escapePlus t := by
  rw [escapePlus, flatMap_cons, if_neg hc]
  rfl

theorem ne_plus_of_hexValue {n : Nat} (h : hexValue c = some n) : c ≠ '+' := by
  rintro rfl
  cases h

theorem escapePlus_form (h : PercentForm s t) : PercentForm s (escapePlus t) := by
  induction h with
  | nil => exact .nil
  | @keep c s t hc rest ih =>
    by_cases hplus : c = '+'
    · subst hplus
      exact .escape (by decide) (by decide) (by decide) ih
    · rw [escapePlus_cons_of_ne hplus]
      exact .keep hc ih
  | escape hascii hhigh hlow rest ih =>
    rw [escapePlus_cons_of_ne (by decide), escapePlus_cons_of_ne (ne_plus_of_hexValue hhigh),
      escapePlus_cons_of_ne (ne_plus_of_hexValue hlow)]
    exact .escape hascii hhigh hlow ih

end PercentForm

end BigRocket.Lib
