/-
How the WireGuard tasks of `wireguard.rs` ask for a new session. The send task
and the health task raise a shared flag; the timer task takes it down on every
tick, adds what `update_timers` reports, and makes a session at most once in
`REKEY_MIN_GAP`. A request it takes down before that is not kept.

Times are milliseconds. A flag raised while a tick is at work is seen by the
next one, so a tick is one event.
-/
import BigRocket.Lib.History

namespace BigRocket.Tunnel

open Lib

def rekeyMinGap : Nat := 3000

structure Rekey where
  rekeyNow : Bool
  lastRekey : Nat
  fresh : List Nat
  owed : Bool
  deriving DecidableEq

inductive RekeyEvent where
  | raise
  /-- A tick, with what `update_timers` says; the clock is read when the gap is
  checked, and once more, `spent` later, for a fresh session. -/
  | tick (now spent : Nat) (expired : Bool)

namespace Rekey

def due (now : Nat) (s : Rekey) : Prop := rekeyMinGap ≤ now - s.lastRekey

instance (now : Nat) (s : Rekey) : Decidable (s.due now) := Nat.decLe _ _

def step (s : Rekey) : RekeyEvent → Rekey
  | .raise => { s with rekeyNow := true, owed := true }
  | .tick now spent expired =>
    if (s.rekeyNow || expired) ∧ s.due now then
      { rekeyNow := false
        lastRekey := now + spent
        fresh := (now + spent) :: s.fresh
        owed := false }
    else { s with rekeyNow := false, owed := s.owed || expired }

/-- `first` is what `last_rekey` is set to at the start, a gap back if the
clock can go there. -/
def run (first : Nat) (events : List RekeyEvent) : Rekey :=
  exec step ⟨false, first, [], false⟩ events

/-- A tick makes a session if one has been asked for and the gap has passed. -/
def Served (first : Nat) (before : List RekeyEvent) (e : RekeyEvent) : Prop :=
  match e with
  | .raise => True
  | .tick now spent expired =>
    ((run first before).owed || expired) = true → (run first before).due now →
      (run first (before ++ [e])).fresh = (now + spent) :: (run first before).fresh

/-- A request that an earlier tick took down is there again, or the session has
expired, on a tick after the gap. -/
def Renewed (first : Nat) (before : List RekeyEvent) (e : RekeyEvent) : Prop :=
  match e with
  | .raise => True
  | .tick now _ expired =>
    (run first before).owed = true → (run first before).due now →
      ((run first before).rekeyNow || expired) = true

instance (first : Nat) (before : List RekeyEvent) (e : RekeyEvent) :
    Decidable (Served first before e) := by
  cases e <;> simp only [Served] <;> infer_instance

def Spaced (s : Rekey) : Prop := s.fresh.IsChain fun later earlier => earlier + rekeyMinGap ≤ later

theorem spaced_run (first : Nat) (events : List RekeyEvent) :
    (run first events).Spaced ∧
      ∀ t ∈ (run first events).fresh.head?, t = (run first events).lastRekey := by
  induction events using List.reverseRecOn with
  | nil => simp [run, Spaced]
  | append_singleton events e ih =>
    obtain ⟨hspaced, hlast⟩ := ih
    rw [run, exec_concat, ← run]
    cases e with
    | raise => exact ⟨hspaced, hlast⟩
    | tick now spent expired =>
      rw [step]
      split
      · next hfresh =>
          refine ⟨?_, by simp⟩
          have hdue : rekeyMinGap ≤ now - (run first events).lastRekey := hfresh.2
          have hgap : 0 < rekeyMinGap := by decide
          refine List.isChain_cons.mpr ⟨?_, hspaced⟩
          intro t ht
          rw [hlast t ht]
          omega
      · exact ⟨hspaced, hlast⟩

theorem served_iff_renewed {first : Nat} {before : List RekeyEvent} {e : RekeyEvent} :
    Served first before e ↔ Renewed first before e := by
  cases e with
  | raise => exact Iff.rfl
  | tick now spent expired =>
    simp only [Served, Renewed, run, exec_concat, step]
    split
    · next h => simp [h.1]
    · next h =>
        by_cases hdue : (exec step ⟨false, first, [], false⟩ before).due now
        · simp_all
        · simp [hdue]

theorem rekey_served_iff (first : Nat) (events : List RekeyEvent) :
    AlongRun (Served first) events ∧ (run first events).Spaced ↔ AlongRun (Renewed first) events := by
  constructor
  · intro h
    exact h.1.mono fun _ _ => served_iff_renewed.mp
  · intro h
    exact ⟨h.mono fun _ _ => served_iff_renewed.mpr, (spaced_run first events).1⟩

theorem rekey_lost :
    ¬ AlongRun (Served 0)
      [.raise, .tick 3000 0 false, .raise, .tick 3250 0 false, .tick 6000 0 false] := by
  decide

end Rekey

end BigRocket.Tunnel
