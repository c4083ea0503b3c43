/-
The stream of `fragment.rs`, which passes writes on in pieces. What the stream
below does with a piece, whether a delay is over and what is drawn at random
are arguments of a call.
-/
import BigRocket.Lib.History
import BigRocket.Tls.Fragment

namespace BigRocket.Tls

open Lib

structure Rng where
  randomRange : Nat → Nat → Nat
  mem_range : ∀ {lo hi}, lo ≤ hi → lo ≤ randomRange lo hi ∧ randomRange lo hi ≤ hi

inductive Poll where
  | pending
  | failed (error : String)
  | ready (n : Nat)
  deriving DecidableEq, Repr

/-- In milliseconds. -/
def FragmentConfig.pickDelay (cfg : FragmentConfig) (rng : Rng) : Nat :=
  if cfg.delayMaxMs = 0 then 0
  else if cfg.delayMaxMs ≤ cfg.delayMinMs then cfg.delayMinMs
  else rng.randomRange cfg.delayMinMs cfg.delayMaxMs

/-- `inner` has the bytes that the stream below took. -/
structure FragmentingStream where
  inner : List UInt8 := []
  cfg : FragmentConfig
  fragmenting : Bool := cfg.enabled
  firstWrite : Bool := true
  pendingDelay : Option Nat := none

/-- A `poll_write`: `answer` is for what reaches the stream below, which takes
no more bytes than it is given. -/
structure WriteCall where
  buf : List UInt8
  delayOver : Bool
  lengths : Rng
  delays : Rng
  answer : Poll

inductive StreamCall where
  | pollRead
  | pollWrite (call : WriteCall)

namespace FragmentingStream

def writeInner (s : FragmentingStream) (buf : List UInt8) : Poll → FragmentingStream × Poll
  | .ready n => ({ s with inner := s.inner ++ buf.take n }, .ready (min n buf.length))
  | other => (s, other)

def pollWrite (s : FragmentingStream) (call : WriteCall) : FragmentingStream × Poll :=
  if call.buf.isEmpty || !s.fragmenting then s.writeInner call.buf call.answer
  else if s.pendingDelay.isSome && !call.delayOver then (s, .pending)
  else
    let s := { s with pendingDelay := none }
    let chunkLen := s.cfg.chunkLen call.lengths.randomRange s.firstWrite call.buf
    match s.writeInner (call.buf.take chunkLen) call.answer with
    | (s, .ready n) =>
      if n > 0 then
        let delay := s.cfg.pickDelay call.delays
        ({ s with firstWrite := false, pendingDelay := if delay = 0 then none else some delay },
          .ready n)
      else (s, .ready n)
    | other => other

/-- The bytes that the caller may take for written. -/
def accepted (buf : List UInt8) : Poll → List UInt8
  | .ready n => buf.take n
  | _ => []

/-- The stream with all that was accepted so far. -/
def step (w : FragmentingStream × List UInt8) : StreamCall → FragmentingStream × List UInt8
  | .pollRead => ({ w.1 with fragmenting := false }, w.2)
  | .pollWrite call =>
    ((w.1.pollWrite call).1, w.2 ++ accepted call.buf (w.1.pollWrite call).2)

def run (cfg : FragmentConfig) (calls : List StreamCall) : FragmentingStream × List UInt8 :=
  exec step ({ cfg }, []) calls

/-- No more is reported than there is, and the stream below took just that. -/
def Reports (s : FragmentingStream) (buf : List UInt8) (r : FragmentingStream × Poll) : Prop :=
  r.1.inner = s.inner ++ accepted buf r.2 ∧ ∀ n, r.2 = .ready n → n ≤ buf.length

end FragmentingStream

section Lengths

variable (cfg : FragmentConfig) (rng : Rng)

theorem pickChunkLen_mem {remaining : Nat} (h : 0 < remaining) :
    cfg.pickChunkLen rng.randomRange remaining ∈ Set.Icc 1 remaining := by
  rw [FragmentConfig.pickChunkLen, Set.mem_Icc]
  split
  · omega
  · rename_i hlt
    have hmem := rng.mem_range (not_le.mp hlt).le
    omega

theorem chunkLen_mem (firstWrite : Bool) {buf : List UInt8} (h : 0 < buf.length) :
    cfg.chunkLen rng.randomRange firstWrite buf ∈ Set.Icc 1 buf.length := by
  have hpick := pickChunkLen_mem cfg rng h
  unfold FragmentConfig.chunkLen
  dsimp only
  split
  · split
    · rename_i hinside
      exact ⟨hinside.1, hinside.2.le⟩
    · exact hpick
  · exact hpick

end Lengths

namespace FragmentingStream

theorem reports_writeInner (s : FragmentingStream) (buf : List UInt8) (len : Nat)
    (answer : Poll) : s.Reports buf (s.writeInner (buf.take len) answer) := by
  cases answer with
  | pending => simp [Reports, writeInner, accepted]
  | failed error => simp [Reports, writeInner, accepted]
  | ready n =>
    simp only [Reports, writeInner, accepted, List.length_take, List.take_take, ← min_assoc,
      ← List.take_eq_take_min, Poll.ready.injEq, true_and]
    omega

theorem reports_pollWrite (s : FragmentingStream) (call : WriteCall) :
    s.Reports call.buf (s.pollWrite call) := by
  unfold pollWrite
  split
  · simpa using s.reports_writeInner call.buf call.buf.length call.answer
  · split
    · simp [Reports, accepted]
    · have hpiece := { s with pendingDelay := none }.reports_writeInner call.buf
        (s.cfg.chunkLen call.lengths.randomRange s.firstWrite call.buf) call.answer
      dsimp only
      split
      · rename_i heq
        rw [heq] at hpiece
        split <;> exact hpiece
      · exact hpiece

/-- The stream below takes exactly the bytes that are reported to the caller as
written, in their order, and each piece has a byte and no more than are left. -/
theorem fragments_keep_stream (cfg : FragmentConfig) (calls : List StreamCall) :
    (run cfg calls).1.inner = (run cfg calls).2 ∧
      (∀ call, (run cfg calls).1.Reports call.buf ((run cfg calls).1.pollWrite call)) ∧
      ∀ (rng : Rng) (remaining : Nat) (firstWrite : Bool) (b : UInt8) (rest : List UInt8),
        cfg.pickChunkLen rng.randomRange (remaining + 1) ∈ Set.Icc 1 (remaining + 1) ∧
        cfg.chunkLen rng.randomRange firstWrite (b :: rest) ∈ Set.Icc 1 (b :: rest).length := by
  refine ⟨?_, reports_pollWrite _, fun rng remaining firstWrite b rest => ?_⟩
  · induction calls using List.reverseRecOn with
    | nil => rfl
    | append_singleton calls call ih =>
      rw [run, exec_concat]
      cases call with
      | pollRead => exact ih
      | pollWrite call => exact (reports_pollWrite _ call).1.trans (congrArg (· ++ _) ih)
  · exact ⟨pickChunkLen_mem cfg rng (by omega), chunkLen_mem cfg rng firstWrite (by simp)⟩

end FragmentingStream

end BigRocket.Tls
