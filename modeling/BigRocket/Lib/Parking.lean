/-
One queue of parked messages with many lanes. What a consumer gives back of a
message is parked, and every later message of its key behind it: what was taken
from a lane, followed by what is parked of it, only grows at its end.
-/
import Mathlib

namespace BigRocket.Lib

open List

variable {σ μ κ τ : Type} [DecidableEq κ]

structure Parking (μ κ : Type) where
  queue : List μ
  blocked : Finset κ

namespace Parking

def empty : Parking μ κ := ⟨[], ∅⟩

variable (key : μ → κ) (content : μ → List τ) (place : σ → μ → σ × Option μ)

def push (q : Parking μ κ) (m : μ) : Parking μ κ := ⟨q.queue ++ [m], insert (key m) q.blocked⟩

def park (q : Parking μ κ) : Option μ → Parking μ κ
  | none => q
  | some back => q.push key back

def offer (w : σ × Parking μ κ) (m : μ) : σ × Parking μ κ :=
  if key m ∈ w.2.blocked then (w.1, w.2.push key m)
  else ((place w.1 m).1, w.2.park key (place w.1 m).2)

def sweep (w : σ × Parking μ κ) : σ × Parking μ κ :=
  w.2.queue.foldl (offer key place) (w.1, empty)

def Exact (q : Parking μ κ) : Prop := q.blocked = (q.queue.map key).toFinset

def lane (k : κ) (queue : List μ) : List τ :=
  (queue.filter fun m => key m = k).flatMap content

variable {key content place}

variable (k : κ) {q : Parking μ κ}

@[simp] theorem lane_nil : lane key content k [] = [] := rfl

@[simp] theorem lane_append (front back : List μ) :
    lane key content k (front ++ back) = lane key content k front ++ lane key content k back := by
  simp [lane]

theorem lane_singleton_self (m : μ) : lane key content (key m) [m] = content m := by
  simp [lane]

theorem lane_singleton_ne {k : κ} {m : μ} (h : key m ≠ k) : lane key content k [m] = [] := by
  simp [lane, h]

theorem lane_cons (m : μ) (rest : List μ) :
    lane key content k (m :: rest) = lane key content k [m] ++ lane key content k rest := by
  rw [← lane_append, singleton_append]

theorem lane_eq_nil {k : κ} {queue : List μ} (h : ∀ m ∈ queue, key m ≠ k) :
    lane key content k queue = [] := by
  rw [lane, filter_eq_nil_iff.mpr (by simpa using h), flatMap_nil]

@[simp] theorem exact_empty : Exact key (empty : Parking μ κ) := by
  simp [Exact, empty]

theorem Exact.push (h : Exact key q) (m : μ) : Exact key (q.push key m) := by
  simp only [Exact] at h
  ext k
  simp [Parking.push, h, eq_comm]

theorem Exact.park (h : Exact key q) (back : Option μ) : Exact key (q.park key back) := by
  cases back with
  | none => exact h
  | some m => exact h.push m

variable (place) in
theorem Exact.offer {w : σ × Parking μ κ} (h : Exact key w.2) (m : μ) :
    Exact key (offer key place w m).2 := by
  unfold Parking.offer
  split
  · exact h.push m
  · exact h.park _

theorem Exact.lane_eq_nil (h : Exact key q) {k : κ} (hk : k ∉ q.blocked) :
    lane key content k q.queue = [] := by
  apply Parking.lane_eq_nil
  intro m hm hkey
  apply hk
  rw [h, mem_toFinset, ← hkey]
  exact mem_map_of_mem hm

/-! ## Conservation -/

variable (key content place) in
/-- The consumer as one lane sees it, while the lane is `Live`: of each message it
takes a front part, and gives the rest back. -/
structure Places (k : κ) (Live : σ → Prop) (taken : σ → List τ) : Prop where
  key_back : ∀ s m back, (place s m).2 = some back → key back = key m
  live : ∀ s m, Live s → Live (place s m).1
  other : ∀ s m, key m ≠ k → taken (place s m).1 = taken s
  own : ∀ s m, Live s → key m = k →
    taken (place s m).1 ++ (place s m).2.elim [] content = taken s ++ content m

section Conservation

variable {k : κ} {Live : σ → Prop} {taken : σ → List τ}

def total (key : μ → κ) (content : μ → List τ) (k : κ) (taken : σ → List τ)
    (w : σ × Parking μ κ) : List τ :=
  taken w.1 ++ lane key content k w.2.queue

theorem lane_park {q : Parking μ κ} {m : μ} {back : Option μ}
    (hkey : ∀ b, back = some b → key b = key m) :
    lane key content k (q.park key back).queue =
      lane key content k q.queue ++ if key m = k then back.elim [] content else [] := by
  cases back with
  | none => simp [Parking.park]
  | some b =>
    have hb : key b = key m := hkey b rfl
    by_cases hk : key m = k
    · subst hk
      simp [Parking.park, Parking.push, ← hb, lane_singleton_self]
    · have hne : key b ≠ k := by rwa [hb]
      simp [Parking.park, Parking.push, hk, lane_singleton_ne hne]

variable {w : σ × Parking μ κ}

theorem Places.total_offer (hp : Places key content place k Live taken) (hexact : Exact key w.2)
    (hlive : Live w.1) (m : μ) :
    total key content k taken (offer key place w m) =
      total key content k taken w ++ lane key content k [m] := by
  unfold Parking.offer
  split
  case isTrue hblocked =>
    simp [total, Parking.push]
  case isFalse hfree =>
    simp only [total]
    rw [lane_park (hp.key_back w.1 m)]
    by_cases hk : key m = k
    · -- nothing of the lane is parked, so what comes back is next in line
      have hnil : lane key content k w.2.queue = [] := hexact.lane_eq_nil (hk ▸ hfree)
      have hone : lane key content k [m] = content m := by rw [← hk, lane_singleton_self]
      rw [hnil, hone, if_pos hk]
      simpa using hp.own w.1 m hlive hk
    · rw [hp.other w.1 m hk, if_neg hk, lane_singleton_ne hk]
      simp

theorem Places.live_offer (hp : Places key content place k Live taken) (hlive : Live w.1) (m : μ) :
    Live (offer key place w m).1 := by
  unfold Parking.offer
  split
  · exact hlive
  · exact hp.live w.1 m hlive

theorem Places.foldl_offer (hp : Places key content place k Live taken) (queue : List μ)
    (hexact : Exact key w.2) (hlive : Live w.1) :
    Exact key (queue.foldl (offer key place) w).2 ∧ Live (queue.foldl (offer key place) w).1 ∧
      total key content k taken (queue.foldl (offer key place) w) =
        total key content k taken w ++ lane key content k queue := by
  induction queue generalizing w with
  | nil => simpa using ⟨hexact, hlive⟩
  | cons m rest ih =>
    obtain ⟨hexact', hlive', htotal⟩ := ih (hexact.offer place m) (hp.live_offer hlive m)
    refine ⟨hexact', hlive', ?_⟩
    rw [foldl_cons, htotal, hp.total_offer hexact hlive, lane_cons k m rest,
      append_assoc]

theorem Places.total_sweep (hp : Places key content place k Live taken) (hlive : Live w.1) :
    Live (sweep key place w).1 ∧
      total key content k taken (sweep key place w) = total key content k taken w := by
  obtain ⟨-, hlive', htotal⟩ := hp.foldl_offer w.2.queue (w := (w.1, empty)) exact_empty hlive
  refine ⟨hlive', ?_⟩
  rw [Parking.sweep, htotal]
  simp [total, empty]

end Conservation

end Parking

end BigRocket.Lib
