/-
What an in-order delivery layer is for. In an `InOrderLog` position `i` says
what became of sequence `start + i`; an implementation refines the log by one
log step for each of its own.
-/
import Mathlib

namespace BigRocket.Lib

open List

variable {α : Type} {seq : α → Int} {start : Int}

structure InOrderLog (seq : α → Int) (start : Int) where
  outcomes : List (Option α)
  inOrder : ∀ (i : Nat) (a : α), outcomes[i]? = some (some a) → seq a = start + i

namespace InOrderLog

def next (log : InOrderLog seq start) : Int := start + log.outcomes.length

def delivered (log : InOrderLog seq start) : List α := log.outcomes.reduceOption

def lost (log : InOrderLog seq start) : Nat := log.outcomes.countP Option.isNone

/-! ## The two steps -/

def empty (seq : α → Int) (start : Int) : InOrderLog seq start where
  outcomes := []
  inOrder := by simp

def deliver (log : InOrderLog seq start) (a : α) (h : seq a = log.next) :
    InOrderLog seq start where
  outcomes := log.outcomes ++ [some a]
  inOrder := by
    intro i b hb
    rcases Nat.lt_trichotomy i log.outcomes.length with hlt | heq | hgt
    · rw [getElem?_append_left hlt] at hb
      exact log.inOrder i b hb
    · subst heq
      simp only [getElem?_concat_length, Option.some.injEq] at hb
      rw [← hb, h, next]
    · rw [getElem?_eq_none (by simp; omega)] at hb
      cases hb

def giveUp (log : InOrderLog seq start) (n : Nat) : InOrderLog seq start where
  outcomes := log.outcomes ++ List.replicate n none
  inOrder := by
    intro i b hb
    by_cases hlt : i < log.outcomes.length
    · rw [getElem?_append_left hlt] at hb
      exact log.inOrder i b hb
    · rw [getElem?_append_right (by omega), getElem?_replicate] at hb
      split at hb <;> simp at hb

@[simp] theorem next_empty : (empty seq start).next = start := by simp [next, empty]

variable (log : InOrderLog seq start) (a : α) (n : Nat)

@[simp] theorem next_deliver (h : seq a = log.next) : (log.deliver a h).next = log.next + 1 := by
  simp only [next, deliver, length_append, length_singleton]
  push_cast
  ring

@[simp] theorem next_giveUp : (log.giveUp n).next = log.next + n := by
  simp only [next, giveUp, length_append, length_replicate]
  push_cast
  ring

@[simp] theorem delivered_empty : (empty seq start).delivered = [] := rfl

@[simp] theorem delivered_deliver (h : seq a = log.next) :
    (log.deliver a h).delivered = log.delivered ++ [a] := by
  simp [delivered, deliver, reduceOption_append]

@[simp] theorem delivered_giveUp : (log.giveUp n).delivered = log.delivered := by
  simp only [delivered, giveUp, reduceOption_append, reduceOption_replicate_none,
    append_nil]

@[simp] theorem lost_empty : (empty seq start).lost = 0 := rfl

@[simp] theorem lost_deliver (h : seq a = log.next) : (log.deliver a h).lost = log.lost := by
  simp [lost, deliver]

@[simp] theorem lost_giveUp : (log.giveUp n).lost = log.lost + n := by
  simp only [lost, giveUp, countP_append, countP_replicate, Option.isNone_none,
    if_true]

/-! ## What a log guarantees -/

theorem delivered_increasing : (log.delivered.map seq).Pairwise (· < ·) := by
  rw [delivered, pairwise_map, List.reduceOption, pairwise_filterMap]
  rw [pairwise_iff_getElem]
  intro i j hi hj hij a ha b hb
  have hai : seq a = start + i := by
    apply log.inOrder
    rw [getElem?_eq_getElem hi]
    exact congrArg some ha
  have hbj : seq b = start + j := by
    apply log.inOrder
    rw [getElem?_eq_getElem hj]
    exact congrArg some hb
  omega

theorem next_eq : log.next - start = log.delivered.length + log.lost := by
  have hlen : log.outcomes.length = log.delivered.length + log.lost := by
    unfold delivered lost
    induction log.outcomes with
    | nil => rfl
    | cons o os ih =>
      cases o with
      | none => simp [ih]; omega
      | some a => simp [ih]; omega
  rw [next, hlen]
  push_cast
  ring

theorem delivered_map_sublist {β : Type} (content : α → β) (sent : List β)
    (hlen : log.outcomes.length ≤ sent.length)
    (hsent : ∀ (i : Nat) (a : α), log.outcomes[i]? = some (some a) → sent[i]? = some (content a)) :
    (log.delivered.map content).Sublist sent := by
  unfold delivered
  generalize log.outcomes = os at hlen hsent
  induction os generalizing sent with
  | nil => simp
  | cons o os ih =>
    cases sent with
    | nil => simp at hlen
    | cons b sent =>
      have htail := ih sent (by simpa using hlen)
        (fun i a h => by simpa using hsent (i + 1) a (by simpa using h))
      cases o with
      | none =>
        exact htail.cons b
      | some a =>
        have hhead : b = content a := by simpa using hsent 0 a rfl
        rw [reduceOption_cons_of_some, map_cons, hhead]
        exact htail.cons_cons (content a)

theorem delivered_map_eq_iff {β : Type} (content : α → β) (sent : List β)
    (hlen : log.outcomes.length ≤ sent.length)
    (hsent : ∀ (i : Nat) (a : α), log.outcomes[i]? = some (some a) → sent[i]? = some (content a)) :
    log.delivered.map content = sent ↔ log.lost = 0 ∧ log.next = start + sent.length := by
  have hcount := log.next_eq
  have hnext : log.next = start + log.outcomes.length := rfl
  constructor
  · intro heq
    have hall : log.delivered.length = sent.length := by rw [← heq, length_map]
    omega
  · intro hboth
    apply (log.delivered_map_sublist content sent hlen hsent).eq_of_length
    rw [length_map]
    omega

end InOrderLog

end BigRocket.Lib
