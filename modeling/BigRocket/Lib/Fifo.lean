/-
A first-in first-out queue with its history: `Ordered` when what it passed on,
followed by what it holds, is what it accepted.
-/
import Mathlib

namespace BigRocket.Lib

open List

structure Fifo (α : Type) where
  accepted : List α
  passed : List α
  held : List α
  deriving DecidableEq, Repr

namespace Fifo

variable {α : Type}

def empty : Fifo α := ⟨[], [], []⟩

def accept (a : α) (q : Fifo α) : Fifo α :=
  { q with accepted := q.accepted ++ [a], held := q.held ++ [a] }

def pass (q : Fifo α) : Fifo α :=
  { q with passed := q.passed ++ q.held.take 1, held := q.held.drop 1 }

def Ordered (q : Fifo α) : Prop := q.accepted = q.passed ++ q.held

@[simp] theorem ordered_empty : (empty : Fifo α).Ordered := rfl

variable {q : Fifo α}

theorem Ordered.accept (h : q.Ordered) (a : α) : (q.accept a).Ordered := by
  simp only [Ordered] at h
  simp [Ordered, Fifo.accept, h]

theorem Ordered.pass (h : q.Ordered) : q.pass.Ordered := by
  simp only [Ordered, Fifo.pass, append_assoc, take_append_drop]
  exact h

theorem Ordered.passed_prefix_accepted (h : q.Ordered) : q.passed <+: q.accepted := by
  rw [show q.accepted = q.passed ++ q.held from h]
  exact prefix_append q.passed q.held

theorem Ordered.passed_eq_iff (h : q.Ordered) : q.passed = q.accepted ↔ q.held = [] := by
  rw [show q.accepted = q.passed ++ q.held from h]
  exact self_eq_append_right

end Fifo

end BigRocket.Lib
