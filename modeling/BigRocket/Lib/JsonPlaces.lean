/-
What holds at every depth of a JSON value, level by level. `EverywhereBut`
leaves out the places that a relation names.
-/
import BigRocket.Lib.Json
import BigRocket.Lib.LinkedMap

namespace BigRocket.Lib

open List Option

/-! ## Entries of an edited object -/

namespace JsonObject

variable (o : JsonObject) (key k : String) (value : Json)

theorem opt_remove : (o.remove key).opt k = if k = key then none else o.opt k := by
  unfold remove opt
  induction o with
  | nil => simp
  | cons e o ih =>
    by_cases he : e.1 = key
    · rw [filter_cons_of_neg (by simp [he]), ih]
      by_cases hk : k = key
      · rw [if_pos hk, if_pos hk]
      · have hne : (k == e.1) = false := by simp [he, hk]
        rw [if_neg hk, if_neg hk, lookup_cons, hne]
    · rw [filter_cons_of_pos (by simp [he]), lookup_cons, lookup_cons, ih]
      by_cases hk : k = e.1
      · simp [hk, he]
      · have hne : (k == e.1) = false := by simp [hk]
        rw [hne]

theorem opt_put : (o.put key value).opt k = if k = key then some value else o.opt k := by
  unfold put has opt
  cases hold : List.lookup key o with
  | some old =>
    rw [isSome_some, if_pos rfl, LinkedMap.lookup_replace, hold]
    rfl
  | none =>
    rw [isSome_none, if_neg Bool.false_ne_true, lookup_append]
    by_cases hk : k = key
    · rw [if_pos hk, hk, hold]
      simp
    · have hne : (k == key) = false := by simp [hk]
      simp [hk, hne, lookup_cons]

theorem opt_put_self : (o.put key value).opt key = some value := by
  rw [opt_put, if_pos rfl]

variable {o key}

theorem opt_of_optJSONObject {fields : JsonObject} (h : o.optJSONObject key = some fields) :
    o.opt key = some (.obj fields) := by
  unfold optJSONObject at h
  split at h
  · next hopt =>
      cases h
      exact hopt
  · cases h

end JsonObject

namespace Json

theorem at?_append (j : Json) (front back : List Step) :
    j.at? (front ++ back) = (j.at? front).bind fun v => v.at? back := by
  induction front generalizing j with
  | nil => rfl
  | cons s front ih =>
    simp only [cons_append, at?, bind_assoc]
    congr 1
    funext v
    exact ih v

/-! ## One level at a time -/

/-- Every entry of every object in the value satisfies `P`, but for those at
the places `R`. -/
def EverywhereBut (R : List Step → Prop) (P : String → Json → Prop) (j : Json) : Prop :=
  ∀ path k v, j.at? (path ++ [.key k]) = some v → ¬ R (path ++ [.key k]) → P k v

def EntryBut (R : List Step → Prop) (P : String → Json → Prop) (k : String)
    (value : Option Json) : Prop :=
  ∀ v, value = some v →
    (¬ R [.key k] → P k v) ∧ EverywhereBut (fun path => R (.key k :: path)) P v

section Levels

variable {R R' : List Step → Prop} {P : String → Json → Prop} {j : Json} {k : String}
  {value : Option Json}

theorem everywhere_iff_everywhereBut :
    Everywhere P j ↔ EverywhereBut (fun _ => False) P j := by
  simp only [Everywhere, EverywhereBut, not_false_eq_true, true_implies]

theorem EverywhereBut.mono (h : EverywhereBut R P j) (himp : ∀ path, R path → R' path) :
    EverywhereBut R' P j := by
  intro path k v hv hR
  exact h path k v hv fun hplace => hR (himp _ hplace)

theorem everywhereBut_congr (h : ∀ path, R path ↔ R' path) :
    EverywhereBut R P j ↔ EverywhereBut R' P j :=
  ⟨fun hbut => hbut.mono fun path => (h path).mp, fun hbut => hbut.mono fun path => (h path).mpr⟩

theorem everywhereBut_obj (fields : JsonObject) :
    EverywhereBut R P (.obj fields) ↔ ∀ k, EntryBut R P k (fields.opt k) := by
  constructor
  · intro h k v hv
    refine ⟨h [] k v (by simp [at?, step, hv]), ?_⟩
    intro path k' v' hv' hR
    exact h (.key k :: path) k' v' (by simpa [at?, step, hv] using hv') hR
  · intro h path k v hv hR
    cases path with
    | nil =>
      refine (h k v ?_).1 hR
      simpa [at?, step] using hv
    | cons s path =>
      obtain ⟨inner, hstep, hrest⟩ := bind_eq_some_iff.mp hv
      cases s with
      | key k' => exact (h k' inner hstep).2 path k v hrest hR
      | index i => cases hstep

theorem entryBut_none : EntryBut R P k none := by
  intro v hv
  cases hv

theorem entryBut_some {v : Json} : EntryBut R P k (some v) ↔
    (¬ R [.key k] → P k v) ∧ EverywhereBut (fun path => R (.key k :: path)) P v := by
  constructor
  · exact fun h => h v rfl
  · intro h w hw
    cases hw
    exact h

theorem entryBut_place (h : ∀ path, R (.key k :: path)) : EntryBut R P k value := by
  intro v _
  refine ⟨fun hR => absurd (h []) hR, ?_⟩
  intro path k' v' _ hR
  exact absurd (h _) hR

theorem entryBut_congr (h : ∀ path, R (.key k :: path) ↔ R' (.key k :: path)) :
    EntryBut R P k value ↔ EntryBut R' P k value := by
  unfold EntryBut
  simp only [h [], everywhereBut_congr h]

theorem everywhere_obj (fields : JsonObject) :
    Everywhere P (.obj fields) ↔
      ∀ k v, fields.opt k = some v → P k v ∧ Everywhere P v := by
  simp only [everywhere_iff_everywhereBut, everywhereBut_obj, EntryBut, not_false_eq_true,
    true_implies]

theorem everywhereBut_absent {s : Step} (h : j.step s = none) :
    EverywhereBut (fun path => [s] <+: path) P j ↔ Everywhere P j := by
  constructor
  · intro hbut path k v hv
    refine hbut path k v hv ?_
    rintro ⟨rest, hrest⟩
    rw [← hrest] at hv
    simp [at?, h] at hv
  · exact fun hall path k v hv _ => hall path k v hv

def without (field : String) : Json → Json
  | .obj fields => .obj (JsonObject.remove fields field)
  | v => v

theorem everywhere_without (field : String) (v : Json) :
    Everywhere P (without field v) ↔ EverywhereBut (fun path => [.key field] <+: path) P v := by
  cases v with
  | obj fields =>
    rw [without, everywhere_iff_everywhereBut, everywhereBut_obj, everywhereBut_obj]
    refine forall_congr' fun k => ?_
    rw [JsonObject.opt_remove]
    by_cases hk : k = field
    · rw [if_pos hk]
      exact iff_of_true entryBut_none (entryBut_place (by simp [cons_prefix_cons, hk]))
    · rw [if_neg hk]
      apply entryBut_congr
      simp [cons_prefix_cons, Ne.symm hk]
  | _ => exact (everywhereBut_absent rfl).symm

theorem everywhere_arr (items : List Json) :
    Everywhere P (.arr items) ↔ ∀ v ∈ items, Everywhere P v := by
  constructor
  · intro h v hv path k w hw
    obtain ⟨i, hi⟩ := mem_iff_getElem?.mp hv
    exact h (.index i :: path) k w (by simpa [at?, step, hi] using hw)
  · intro h path k v hv
    cases path with
    | nil => cases hv
    | cons s path =>
      obtain ⟨inner, hstep, hrest⟩ := bind_eq_some_iff.mp hv
      cases s with
      | key k' => cases hstep
      | index i => exact h inner (mem_of_getElem? hstep) path k v hrest

theorem everywhere_leaf {j : Json} (h : ∀ s, j.step s = none) : Everywhere P j := by
  intro path k v hv
  cases path <;> simp [at?, h] at hv

theorem everywhere_str (s : Text) : Everywhere P (.str s) := everywhere_leaf fun _ => rfl

theorem everywhere_num (n : JsonNumber) : Everywhere P (.num n) := everywhere_leaf fun _ => rfl

theorem everywhere_bool (b : Bool) : Everywhere P (.bool b) := everywhere_leaf fun _ => rfl

theorem everywhere_nil : Everywhere P (.obj []) :=
  (everywhere_obj []).mpr fun _ _ h => by cases h

theorem everywhere_put {fields : JsonObject} {key : String} {value : Json}
    (hfields : Everywhere P (.obj fields)) (hkey : P key value) (hvalue : Everywhere P value) :
    Everywhere P (.obj (fields.put key value)) := by
  rw [everywhere_obj] at hfields ⊢
  intro k v hv
  rw [JsonObject.opt_put] at hv
  by_cases hk : k = key
  · rw [if_pos hk] at hv
    cases hv
    rw [hk]
    exact ⟨hkey, hvalue⟩
  · rw [if_neg hk] at hv
    exact hfields k v hv

end Levels

end Json

end BigRocket.Lib
