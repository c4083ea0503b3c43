/-
The ECH key that the sessions of one process share: `EchSession`, `use_ech` and
`adopt_ech_retry` of `tls.rs`.

The count and the key have a lock each. `start` and `drop` hold the count's lock
while they wait for the key's, and a retry takes the key's alone, so it may come
between the two halves of either. One event is one section under a lock.
-/
import BigRocket.Lib.History

namespace BigRocket.Tls

open Lib

abbrev EchKey : Type := List UInt8

structure EchState where
  sessions : Nat
  key : Option EchKey
  pending : Option (Option EchKey)
  /-- Since the count was last zero, a session with a key has begun to start. -/
  asked : Bool
  keyed : Bool
  deriving DecidableEq

inductive EchEvent where
  | start (ech : Option EchKey)
  | drop
  | useEch
  | adoptEchRetry (retry : EchKey)

namespace EchState

def create : EchState := ⟨0, none, none, false, false⟩

def start (ech : Option EchKey) (s : EchState) : EchState :=
  if s.pending.isSome then s
  else
    { s with
      sessions := s.sessions + 1
      pending := if ech.isSome ∨ s.sessions + 1 = 1 then some ech else none
      asked := s.asked || ech.isSome }

def drop (s : EchState) : EchState :=
  if s.pending.isSome ∨ s.sessions = 0 then s
  else if s.sessions - 1 = 0 then ⟨0, s.key, some none, false, false⟩
  else { s with sessions := s.sessions - 1 }

def useEch (s : EchState) : EchState :=
  match s.pending with
  | some ech => { s with key := ech, pending := none, keyed := s.keyed || ech.isSome }
  | none => s

def adoptEchRetry (retry : EchKey) (s : EchState) : EchState :=
  if s.key.isSome then { s with key := some retry } else s

def step (s : EchState) : EchEvent → EchState
  | .start ech => s.start ech
  | .drop => s.drop
  | .useEch => s.useEch
  | .adoptEchRetry retry => s.adoptEchRetry retry

def run (events : List EchEvent) : EchState := exec step create events

/-! ## The invariant -/

structure Shared (s : EchState) : Prop where
  quiet : s.sessions = 0 → s.pending = none → s.key = none
  fresh : s.sessions = 0 → s.asked = false
  begun : s.keyed = true → s.asked = true
  kept : s.keyed = true → s.key.isSome = true
  none_given : s.asked = false → 0 < s.sessions → s.key = none
  /-- Only the last drop, or a first start that finds no key, takes it away. -/
  pends : ∀ ech, s.pending = some ech → s.asked = ech.isSome
  sets : s.asked = true → s.keyed = true ∨ ∃ k, s.pending = some (some k)

variable {s : EchState}

theorem shared_start (h : s.Shared) (ech : Option EchKey) : (s.start ech).Shared := by
  unfold start
  split
  · exact h
  · next hfree =>
      have hfree : s.pending = none := by simpa using hfree
      obtain ⟨quiet, fresh, begun, kept, none_given, -, sets⟩ := h
      cases ech <;> constructor <;> simp_all
      grind

theorem shared_drop (h : s.Shared) : s.drop.Shared := by
  unfold drop
  split
  · exact h
  · obtain ⟨quiet, fresh, begun, kept, none_given, pends, sets⟩ := h
    split
    · constructor <;> simp_all
    · constructor <;> simp_all
      grind

theorem shared_useEch (h : s.Shared) : s.useEch.Shared := by
  unfold useEch
  split
  · next ech hpending =>
      obtain ⟨quiet, fresh, begun, kept, none_given, pends, sets⟩ := h
      have hasked := pends ech hpending
      cases ech <;> constructor <;> simp_all
  · exact h

theorem shared_adoptEchRetry (h : s.Shared) (retry : EchKey) : (s.adoptEchRetry retry).Shared := by
  unfold adoptEchRetry
  split
  · obtain ⟨quiet, fresh, begun, kept, none_given, pends, sets⟩ := h
    constructor <;> simp_all <;> grind
  · exact h

theorem shared_step (h : s.Shared) (e : EchEvent) : (s.step e).Shared := by
  cases e with
  | start ech => exact shared_start h ech
  | drop => exact shared_drop h
  | useEch => exact shared_useEch h
  | adoptEchRetry retry => exact shared_adoptEchRetry h retry

theorem shared_run (events : List EchEvent) : (run events).Shared := by
  induction events using List.reverseRecOn with
  | nil => constructor <;> simp [run, create]
  | append_singleton events e ih =>
    rw [run, exec_concat]
    exact shared_step ih e

theorem sessions_share_key (events : List EchEvent) :
    ((run events).sessions = 0 → (run events).pending = none → (run events).key = none) ∧
      ((run events).keyed = true → 0 < (run events).sessions → (run events).key.isSome = true) ∧
      ((run events).asked = false → 0 < (run events).sessions → (run events).key = none) :=
  have h := shared_run events
  ⟨h.quiet, fun hkeyed _ => h.kept hkeyed, h.none_given⟩

/-- A retry between the two halves of the last drop is overwritten. -/
example : (run [.start (some [1]), .useEch, .drop, .adoptEchRetry [2], .useEch]).key = none := by
  decide

end EchState

end BigRocket.Tls
