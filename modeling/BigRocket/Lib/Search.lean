/-
A loop over growing positions that ends by returning something. When each `Turn`
that goes on stands below a limit and moves forward, as many rounds as there are
positions are enough (`search_rounds`).
-/
import Mathlib

namespace BigRocket.Lib

inductive Turn (α : Type) where
  | done (result : Option α)
  | next (pos : Nat)
  deriving DecidableEq, Repr

variable {α β : Type}

def Turn.run : Turn α → (Nat → Option α) → Option α
  | .done result, _ => result
  | .next pos, goOn => goOn pos

def search (turn : Nat → Turn α) : Nat → Nat → Option α
  | 0, _ => none
  | rounds + 1, pos => (turn pos).run fun pos => search turn rounds pos

def Forward (limit : Nat) (turn : Nat → Turn α) : Prop :=
  ∀ pos pos', turn pos = .next pos' → pos < pos' ∧ pos < limit

variable {turn : Nat → Turn α} {pos : Nat}

theorem search_done {result : Option α} (h : turn pos = .done result) (rounds : Nat) :
    search turn (rounds + 1) pos = result := by
  rw [search, h, Turn.run]

theorem search_next {pos' : Nat} (h : turn pos = .next pos') (rounds : Nat) :
    search turn (rounds + 1) pos = search turn rounds pos' := by
  rw [search, h, Turn.run]

theorem search_rounds {limit : Nat} (hturn : Forward limit turn) {rounds rounds' : Nat}
    (h : limit - pos < rounds) (h' : limit - pos < rounds') :
    search turn rounds pos = search turn rounds' pos := by
  induction rounds generalizing rounds' pos with
  | zero => omega
  | succ rounds ih =>
    obtain ⟨rounds', rfl⟩ : ∃ k, rounds' = k + 1 := ⟨rounds' - 1, by omega⟩
    cases hpos : turn pos with
    | done result => rw [search_done hpos, search_done hpos]
    | next pos' =>
      obtain ⟨hmove, hlimit⟩ := hturn pos pos' hpos
      rw [search_next hpos, search_next hpos]
      exact ih (by omega) (by omega)

theorem search_unfold {limit : Nat} (hturn : Forward limit turn) (pos : Nat) :
    search turn (limit + 1) pos = (turn pos).run (search turn (limit + 1)) := by
  cases hpos : turn pos with
  | done result => exact search_done hpos limit
  | next pos' =>
    obtain ⟨hmove, hlimit⟩ := hturn pos pos' hpos
    rw [search_next hpos]
    exact search_rounds hturn (by omega) (by omega)

theorem search_simulation {turn' : Nat → Turn β} {R : Nat → Nat → Prop} {a : α} {found : β → Prop}
    (hdone : ∀ pos pos', R pos pos' → turn pos = .done (some a) →
      ∃ b, turn' pos' = .done (some b) ∧ found b)
    (hnext : ∀ pos pos' next, R pos pos' → turn pos = .next next →
      ∃ next', turn' pos' = .next next' ∧ R next next')
    {rounds rounds' pos' : Nat} (hrounds : rounds ≤ rounds') (hpos : R pos pos')
    (h : search turn rounds pos = some a) : ∃ b, search turn' rounds' pos' = some b ∧ found b := by
  induction rounds generalizing rounds' pos pos' with
  | zero => cases h
  | succ rounds ih =>
    obtain ⟨rounds', rfl⟩ : ∃ k, rounds' = k + 1 := ⟨rounds' - 1, by omega⟩
    cases hturn : turn pos with
    | done result =>
      rw [search_done hturn] at h
      obtain ⟨b, hb, hfound⟩ := hdone pos pos' hpos (by rw [hturn, h])
      exact ⟨b, search_done hb rounds', hfound⟩
    | next next =>
      rw [search_next hturn] at h
      obtain ⟨next', hturn', hR⟩ := hnext pos pos' next hpos hturn
      rw [search_next hturn']
      exact ih (by omega) hR h

end BigRocket.Lib
