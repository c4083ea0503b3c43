/-
Maps that keep the order in which their keys came, as `LinkedHashMap` does.
-/
import Mathlib

namespace BigRocket.Lib

open List

@[ext] structure LinkedMap (κ α : Type) where
  entries : List (κ × α)
  nodup : (entries.map Prod.fst).Nodup
  deriving DecidableEq

namespace LinkedMap

variable {κ α : Type}

def keys (m : LinkedMap κ α) : List κ := m.entries.map Prod.fst

def empty : LinkedMap κ α where
  entries := []
  nodup := nodup_nil

theorem nodup_append {m : LinkedMap κ α} {key : κ} (h : key ∉ m.keys) (value : α) :
    ((m.entries ++ [(key, value)]).map Prod.fst).Nodup := by
  rw [List.map_append, List.nodup_append]
  refine ⟨m.nodup, nodup_singleton key, ?_⟩
  intro a ha b hb
  rw [map_singleton, mem_singleton] at hb
  rintro rfl
  rw [hb] at ha
  exact h ha

variable [DecidableEq κ]

def get? (m : LinkedMap κ α) (key : κ) : Option α := m.entries.lookup key

def putIfAbsent (m : LinkedMap κ α) (key : κ) (value : α) : LinkedMap κ α :=
  if h : key ∈ m.keys then m
  else { entries := m.entries ++ [(key, value)], nodup := nodup_append h value }

variable (entries : List (κ × α)) (key : κ)

theorem map_fst_replace (value : α) :
    (entries.map fun e => if e.1 = key then (key, value) else e).map Prod.fst =
      entries.map Prod.fst := by
  rw [map_map]
  apply map_congr_left
  intro e _
  simp only [Function.comp_apply]
  split
  · rename_i h
    exact h.symm
  · rfl

def put (m : LinkedMap κ α) (key : κ) (value : α) : LinkedMap κ α :=
  if h : key ∈ m.keys then
    { entries := m.entries.map fun e => if e.1 = key then (key, value) else e,
      nodup := (map_fst_replace m.entries key value).symm ▸ m.nodup }
  else { entries := m.entries ++ [(key, value)], nodup := nodup_append h value }

theorem lookup_replace [BEq κ] [LawfulBEq κ] (k : κ) (value : α) :
    (entries.map fun e => if e.1 = key then (key, value) else e).lookup k =
      if k = key then (entries.lookup key).map fun _ => value else entries.lookup k := by
  induction entries with
  | nil => simp
  | cons e entries ih =>
    rw [map_cons, lookup_cons, lookup_cons, lookup_cons, ih]
    by_cases he : e.1 = key
    · by_cases hk : k = key
      · simp [he, hk]
      · have hne : (k == key) = false := by simp [hk]
        simp [he, hk, hne]
    · by_cases hk : k = key
      · have hne : (key == e.1) = false := by simp [Ne.symm he]
        simp [he, hk, hne]
      · simp [he, hk]

theorem get?_put_ne (m : LinkedMap κ α) {key k : κ} (value : α) (hk : k ≠ key) :
    (m.put key value).get? k = m.get? k := by
  unfold put get?
  split
  · rw [lookup_replace, if_neg hk]
  · have hne : (k == key) = false := by simp [hk]
    rw [lookup_append, lookup_cons, hne]
    simp

@[simp] theorem get?_empty (k : κ) : (empty : LinkedMap κ α).get? k = none := rfl

theorem lookup_isSome_iff : (entries.lookup key).isSome ↔ key ∈ entries.map Prod.fst := by
  induction entries with
  | nil => simp
  | cons e entries ih =>
    rw [lookup_cons, map_cons, mem_cons, ← ih]
    by_cases hk : key = e.1
    · simp [hk]
    · have hne : (key == e.1) = false := by simp [hk]
      simp [hk, hne]

theorem get?_put (m : LinkedMap κ α) (key k : κ) (value : α) :
    (m.put key value).get? k = if k = key then some value else m.get? k := by
  by_cases hk : k = key
  · subst hk
    rw [if_pos rfl]
    unfold put get?
    split
    · rename_i h
      obtain ⟨old, hold⟩ := Option.isSome_iff_exists.mp ((lookup_isSome_iff m.entries k).mpr h)
      rw [lookup_replace, if_pos rfl, hold]
      rfl
    · rename_i h
      have hnone : m.entries.lookup k = none := by
        by_contra hsome
        exact h ((lookup_isSome_iff m.entries k).mp (Option.isSome_iff_ne_none.mpr hsome))
      rw [lookup_append, hnone]
      simp
  · rw [if_neg hk, get?_put_ne m value hk]

theorem entries_putIfAbsent {m : LinkedMap κ α} {key : κ} (h : key ∉ m.keys) (value : α) :
    (m.putIfAbsent key value).entries = m.entries ++ [(key, value)] := by
  rw [putIfAbsent, dif_neg h]

end LinkedMap

end BigRocket.Lib
