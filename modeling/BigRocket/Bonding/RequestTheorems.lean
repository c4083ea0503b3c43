/-
Whether a sequence that `WindowedReorderBuffer` gives up on was asked for. One
flag and one timer serve a gap of any width, so of a wider gap only the first
sequence is ever asked for.
-/
import BigRocket.Bonding.SkipTheorems

namespace BigRocket.Bonding

open Lib List

namespace WindowedReorderBuffer

variable (p : ReorderParams) (now : Int) (recovered : Option Frame) (b : WindowedReorderBuffer)

/-! ## What a read has at hand -/

/-- The buffered sequences, and the one the callback brings if it is called. -/
def atHand : List Int :=
  b.buffered.keys ++
    if softTimeoutDue p now b then (recovered.toList.filter (Accepts p b ·)).map Frame.seq else []

theorem mem_atHand (k : Int) :
    k ∈ atHand p now recovered b ↔ k ∈ (b.checkSoftTimeout p now recovered).buffered := by
  unfold atHand checkSoftTimeout fireSoftTimeout
  rw [mem_append, ← AList.mem_keys]
  by_cases hdue : softTimeoutDue p now b = true
  · rw [if_pos hdue, if_pos hdue]
    cases recovered with
    | none => simp
    | some frame =>
      simp only [mem_push, Option.toList_some, mem_map, mem_filter,
        mem_singleton, decide_eq_true_eq]
      constructor
      · rintro (hk | ⟨_, ⟨rfl, hacc⟩, rfl⟩)
        · exact Or.inl hk
        · exact Or.inr ⟨rfl, hacc⟩
      · rintro (hk | ⟨rfl, hacc⟩)
        · exact Or.inl hk
        · exact Or.inr ⟨frame, ⟨rfl, hacc⟩, rfl⟩
  · rw [if_neg hdue, if_neg hdue]
    simp

/-! ## The flag -/

theorem softTimeoutDue_iff :
    softTimeoutDue p now b = true ↔ b.gapFirstObservedAtMs ≠ 0 ∧ b.softTimeoutFired = false ∧
      p.softTimeoutMs ≤ now - b.gapFirstObservedAtMs := by
  simp [softTimeoutDue, and_assoc]

variable {p now recovered b}

theorem fired_push {frame : Frame} (h : (b.push p now frame).softTimeoutFired = true) :
    b.softTimeoutFired = true ∧ ¬ (b.expectedSequence = frame.seq ∧ Accepts p b frame) := by
  rcases push_cases p now frame b with ⟨hacc, _, _, he⟩ | ⟨-, -, he⟩ | ⟨-, hseq, he⟩ <;>
    rw [he] at h
  · exact ⟨h, fun hexp => hacc hexp.2⟩
  · cases h
  · exact ⟨h, fun hexp => hseq hexp.1.symm⟩

theorem fired_push_gap {frame : Frame} (h : (b.push p now frame).softTimeoutFired = true)
    (harmed : b.gapFirstObservedAtMs ≠ 0) (hmissing : b.expectedSequence ∉ b.buffered) :
    (b.push p now frame).gapFirstObservedAtMs = b.gapFirstObservedAtMs ∧
      b.expectedSequence ∉ (b.push p now frame).buffered := by
  have hother := (fired_push h).2
  constructor
  · rw [push_gapFirstObservedAtMs]
    split_ifs with hacc hseq
    · exact absurd ⟨hseq.symm, hacc⟩ hother
    · rfl
    · rfl
  · rw [mem_push]
    rintro (hin | hpushed)
    · exact hmissing hin
    · exact hother hpushed

theorem drain_fired (fuel : Nat) : (drain fuel b).1.softTimeoutFired = b.softTimeoutFired :=
  drain_induction (P := fun b' _ => b'.softTimeoutFired = b.softTimeoutFired)
    (fun _ _ _ h _ => h) fuel b [] rfl

theorem fired_readOrdered (h : (b.readOrdered p now recovered).1.softTimeoutFired = true) :
    b.checkTimeout p now recovered = b.checkSoftTimeout p now recovered ∧
      (b.checkSoftTimeout p now recovered).softTimeoutFired = true := by
  unfold readOrdered at h
  rw [drain_fired] at h
  unfold checkTimeout at h ⊢
  by_cases hdue : hardTimeoutDue p now b = true
  · rw [if_pos hdue] at h
    cases h
  · rw [if_neg hdue] at h ⊢
    exact ⟨rfl, h⟩

theorem fired_checkSoftTimeout (h : (b.checkSoftTimeout p now recovered).softTimeoutFired = true) :
    softTimeoutDue p now b = true ∨ b.softTimeoutFired = true := by
  unfold checkSoftTimeout at h
  by_cases hdue : softTimeoutDue p now b = true
  · exact Or.inl hdue
  · rw [if_neg hdue] at h
    exact Or.inr h

theorem fired_readOrdered_gap (h : (b.readOrdered p now recovered).1.softTimeoutFired = true)
    (harmed : b.gapFirstObservedAtMs ≠ 0) (hmissing : b.expectedSequence ∉ b.buffered) :
    (b.readOrdered p now recovered).1.expectedSequence = b.expectedSequence ∧
      (b.readOrdered p now recovered).1.gapFirstObservedAtMs = b.gapFirstObservedAtMs ∧
      b.expectedSequence ∉ (b.readOrdered p now recovered).1.buffered := by
  obtain ⟨hsoft, hfired⟩ := fired_readOrdered h
  have hgap : (b.checkSoftTimeout p now recovered).gapFirstObservedAtMs =
        b.gapFirstObservedAtMs ∧
      b.expectedSequence ∉ (b.checkSoftTimeout p now recovered).buffered := by
    rcases checkSoftTimeout_cases p now b recovered with he | he | ⟨frame, -, -, he⟩
    · rw [he]
      exact ⟨rfl, hmissing⟩
    · rw [he]
      exact ⟨rfl, hmissing⟩
    · rw [he] at hfired ⊢
      exact fired_push_gap hfired harmed hmissing
  -- the head is still missing, so the loop does not turn
  have hstuck : (b.checkSoftTimeout p now recovered).buffered.lookup
      (b.checkSoftTimeout p now recovered).expectedSequence = none := by
    rw [checkSoftTimeout_expectedSequence, AList.lookup_eq_none]
    exact hgap.2
  unfold readOrdered
  rw [hsoft, drain_none _ hstuck]
  exact ⟨checkSoftTimeout_expectedSequence p now b recovered, hgap.1, hgap.2⟩

theorem Skips.eq_expectedSequence {s : Int} (hwin : InWindow p b) (h : Skips p now recovered b s)
    (hnext : b.expectedSequence + 1 ∈ atHand p now recovered b) : s = b.expectedSequence := by
  have hlow := h.1
  have hhigh := (h.cause hwin).2.2 _ ((mem_atHand p now recovered b _).mp hnext)
  omega

end WindowedReorderBuffer

namespace BufferRun

open WindowedReorderBuffer

variable (p : ReorderParams) (startSequence : Int)

/-- The sequence was handed to `onMissingSequence` by a read of the run, when
it was missing and a later frame had waited behind it for `softTimeoutMs`. -/
def AskedFor (ops : List BufferOp) (s : Int) : Prop :=
  ∃ before now recovered after, ops = before ++ .readOrdered now recovered :: after ∧
    missingReported p now (run p startSequence before).buffer = some s ∧
    s ∉ (run p startSequence before).buffer.buffered ∧
    ∃ τ frame, s < frame.seq ∧ τ ≤ now - p.softTimeoutMs ∧
      WaitingSince p startSequence before τ frame

/-- Every sequence that this operation gives up on was asked for, by an
earlier read or by this one, which asks before it gives up. -/
def SkipsAskedFor (ops : List BufferOp) : BufferOp → Prop
  | .push _ _ => True
  | .readOrdered now recovered =>
    ∀ s, Skips p now recovered (run p startSequence ops).buffer s →
      AskedFor p startSequence (ops ++ [.readOrdered now recovered]) s

/-- A read that calls `onMissingSequence` finds the expected frame missing; one
that gives up finds only that one missing, and the frame that armed the timer
buffered. -/
def AsksInTime (ops : List BufferOp) : BufferOp → Prop
  | .push _ _ => True
  | .readOrdered now recovered =>
    let b := (run p startSequence ops).buffer
    (softTimeoutDue p now b = true → b.expectedSequence ∉ b.buffered) ∧
    (hardTimeoutDue p now b = true → b.expectedSequence ∉ atHand p now recovered b →
      atHand p now recovered b ≠ [] →
        b.expectedSequence + 1 ∈ atHand p now recovered b ∧
          ∀ frame ∈ armedBy p startSequence ops, frame.seq ∈ b.buffered)

instance (ops : List BufferOp) : (op : BufferOp) → Decidable (AsksInTime p startSequence ops op)
  | .push _ _ => inferInstanceAs (Decidable True)
  | .readOrdered _ _ =>
    inferInstanceAs (Decidable ((_ → _) ∧ (_ → _ → _ → _ ∧ ∀ frame ∈ _, _)))

/-! ## What the flag stands for -/

/-- After `before` the soft timeout was due at `now`, over the same missing
sequence and with the same timer as after `ops`. -/
structure FiredAt (ops before : List BufferOp) (now : Int) : Prop where
  due : softTimeoutDue p now (run p startSequence before).buffer = true
  missing : (run p startSequence before).buffer.expectedSequence ∉
    (run p startSequence before).buffer.buffered
  sequence : (run p startSequence before).buffer.expectedSequence =
    (run p startSequence ops).buffer.expectedSequence
  armed : armedBy p startSequence before = armedBy p startSequence ops

def FiredInv (ops : List BufferOp) : Prop :=
  (run p startSequence ops).buffer.softTimeoutFired = true →
    (run p startSequence ops).buffer.gapFirstObservedAtMs ≠ 0 ∧
    (run p startSequence ops).buffer.expectedSequence ∉
      (run p startSequence ops).buffer.buffered ∧
    ∃ before now recovered after, ops = before ++ .readOrdered now recovered :: after ∧
      FiredAt p startSequence ops before now

variable {p startSequence} {ops : List BufferOp}

theorem armedBy_concat_of_timer {op : BufferOp}
    (hbefore : (run p startSequence ops).buffer.gapFirstObservedAtMs ≠ 0)
    (hsame : (run p startSequence (ops ++ [op])).buffer.gapFirstObservedAtMs =
      (run p startSequence ops).buffer.gapFirstObservedAtMs) :
    armedBy p startSequence (ops ++ [op]) = armedBy p startSequence ops := by
  rw [armedBy_concat, hsame, if_neg hbefore, if_neg hbefore]

theorem FiredInv.concat {op : BufferOp} (h : FiredInv p startSequence ops)
    (hfired : (run p startSequence ops).buffer.softTimeoutFired = true)
    (hseq : (run p startSequence (ops ++ [op])).buffer.expectedSequence =
      (run p startSequence ops).buffer.expectedSequence)
    (htimer : (run p startSequence (ops ++ [op])).buffer.gapFirstObservedAtMs =
      (run p startSequence ops).buffer.gapFirstObservedAtMs)
    (hmissing : (run p startSequence ops).buffer.expectedSequence ∉
      (run p startSequence (ops ++ [op])).buffer.buffered) :
    FiredInv p startSequence (ops ++ [op]) := by
  intro _
  obtain ⟨harmed, -, before, now, recovered, after, rfl, hat⟩ := h hfired
  refine ⟨by rw [htimer]; exact harmed, by rw [hseq]; exact hmissing,
    before, now, recovered, after ++ [op], by simp, ?_⟩
  exact { due := hat.due
          missing := hat.missing
          sequence := by rw [hat.sequence, hseq]
          armed := by rw [hat.armed, armedBy_concat_of_timer harmed htimer] }

theorem firedInv_push (h : FiredInv p startSequence ops) (now : Int) (frame : Frame) :
    FiredInv p startSequence (ops ++ [.push now frame]) := by
  intro hafter
  have hpushed := hafter
  rw [run_concat] at hpushed
  have hfired := (fired_push hpushed).1
  obtain ⟨harmed, hmissing, -⟩ := h hfired
  have hgap := fired_push_gap hpushed harmed hmissing
  refine h.concat hfired ?_ ?_ ?_ hafter <;> rw [run_concat]
  · exact push_expectedSequence p now frame _
  · exact hgap.1
  · exact hgap.2

theorem firedInv_readOrdered (h : FiredInv p startSequence ops) (now : Int)
    (recovered : Option Frame)
    (hcond : AsksInTime p startSequence ops (.readOrdered now recovered)) :
    FiredInv p startSequence (ops ++ [.readOrdered now recovered]) := by
  intro hafter
  have hread := hafter
  rw [run_concat] at hread
  rcases fired_checkSoftTimeout (fired_readOrdered hread).2 with hdue | hfired
  · -- this read raises the flag
    have harmed := softTimeoutDue_armed p now _ hdue
    have hmissing := hcond.1 hdue
    have hgap := fired_readOrdered_gap hread harmed hmissing
    rw [run_concat]
    refine ⟨?_, ?_, ops, now, recovered, [], rfl, hdue, hmissing, ?_, ?_⟩
    · simp only [step]
      rw [hgap.2.1]
      exact harmed
    · simp only [step]
      rw [hgap.1]
      exact hgap.2.2
    · rw [run_concat]
      exact hgap.1.symm
    · refine (armedBy_concat_of_timer harmed ?_).symm
      rw [run_concat]
      exact hgap.2.1
  · -- the flag was up, and the gap is the one it was raised for
    obtain ⟨harmed, hmissing, -⟩ := h hfired
    have hgap := fired_readOrdered_gap hread harmed hmissing
    refine h.concat hfired ?_ ?_ ?_ hafter <;> rw [run_concat]
    · exact hgap.1
    · exact hgap.2.1
    · exact hgap.2.2

theorem run_firedInv (hcond : AlongRun (AsksInTime p startSequence) ops) :
    FiredInv p startSequence ops := by
  refine exec_invariant ?_ ?_ hcond
  · intro h
    cases h
  · intro ops op hinv hop
    cases op with
    | push now frame => exact firedInv_push hinv now frame
    | readOrdered now recovered => exact firedInv_readOrdered hinv now recovered hop

/-! ## A skipped sequence was asked for -/

theorem FiredAt.waiting {before : List BufferOp} {now : Int}
    (h : FiredAt p startSequence ops before now) (hclock : Chronological before)
    (hthere : ∀ frame ∈ armedBy p startSequence ops,
      frame.seq ∈ (run p startSequence ops).buffer.buffered) :
    ∃ τ frame, (run p startSequence ops).buffer.expectedSequence < frame.seq ∧
      τ ≤ now - p.softTimeoutMs ∧ WaitingSince p startSequence before τ frame := by
  obtain ⟨harmed, -, hexpired⟩ := (softTimeoutDue_iff p now _).mp h.due
  obtain ⟨frame, hframe, -, hplace⟩ := run_armedInv before hclock harmed
  have hlower := (run_inWindow p startSequence ops).lower _ (hthere frame (h.armed ▸ hframe))
  have hsequence := h.sequence
  rcases hplace with hpassed | ⟨hahead, f, τ, hf, hτ, hwait⟩
  · omega
  · have hseq : f.seq = frame.seq := (run_inWindow p startSequence before).ofSeq _ _ hf
    exact ⟨τ, f, by omega, by omega, hwait⟩

theorem firedAt_of_hardTimeoutDue (hsoft : p.softTimeoutMs < p.hardTimeoutMs)
    (hinv : FiredInv p startSequence ops) {now : Int} {recovered : Option Frame}
    (hcond : AsksInTime p startSequence ops (.readOrdered now recovered))
    (hdue : hardTimeoutDue p now (run p startSequence ops).buffer = true) :
    ∃ before now' recovered' after, ops ++ [.readOrdered now recovered] =
        before ++ .readOrdered now' recovered' :: after ∧
      (∃ rest, ops = before ++ rest) ∧ FiredAt p startSequence ops before now' := by
  obtain ⟨harmed, hexpired⟩ := (hardTimeoutDue_iff p now _).mp hdue
  cases hflag : (run p startSequence ops).buffer.softTimeoutFired with
  | true =>
    obtain ⟨-, -, before, now', recovered', after, hops, hat⟩ := hinv hflag
    exact ⟨before, now', recovered', after ++ [.readOrdered now recovered], by simp [hops],
      ⟨_, hops⟩, hat⟩
  | false =>
    have hask : softTimeoutDue p now (run p startSequence ops).buffer = true :=
      (softTimeoutDue_iff p now _).mpr ⟨harmed, hflag, by omega⟩
    exact ⟨ops, now, recovered, [], rfl, ⟨[], by simp⟩, hask, hcond.1 hask, rfl, rfl⟩

/-- **What is given up on was asked for, if the gap is one sequence wide** and the
frame that armed the timer still waits behind it. -/
theorem skips_askedFor_of_asksInTime (p : ReorderParams) (startSequence : Int)
    (ops : List BufferOp) (hsoft : p.softTimeoutMs < p.hardTimeoutMs)
    (hclock : Chronological ops) (hcond : AlongRun (AsksInTime p startSequence) ops) :
    AlongRun (SkipsAskedFor p startSequence) ops := by
  intro before op after hops
  subst hops
  cases op with
  | push now frame => trivial
  | readOrdered now recovered =>
    intro s hskip
    have hread := hcond before _ after rfl
    have hwin := run_inWindow p startSequence before
    obtain ⟨hdue, hopen, -⟩ := hskip.cause hwin
    have hhead : (run p startSequence before).buffer.expectedSequence ∉
        atHand p now recovered (run p startSequence before).buffer := by
      rw [mem_atHand]
      exact hopen.1
    have hsome : atHand p now recovered (run p startSequence before).buffer ≠ [] := by
      obtain ⟨k, hk⟩ := exists_mem_of_ne_nil _ hopen.2
      exact ne_nil_of_mem ((mem_atHand p now recovered _ k).mpr (AList.mem_keys.mpr hk))
    obtain ⟨hnext, hthere⟩ := hread.2 hdue hhead hsome
    obtain rfl := hskip.eq_expectedSequence hwin hnext
    have hinv : FiredInv p startSequence before :=
      run_firedInv (hcond.initial (prefix_append _ _))
    obtain ⟨asked, now', recovered', rest, hsplit, ⟨more, hasked⟩, hat⟩ :=
      firedAt_of_hardTimeoutDue hsoft hinv hread hdue
    have hpast : Chronological asked := by
      rw [hasked] at hclock
      exact hclock.of_append.of_append
    refine ⟨asked, now', recovered', rest, hsplit, ?_, ?_, hat.waiting hpast hthere⟩
    · rw [missingReported, if_pos hat.due, hat.sequence]
    · rw [← hat.sequence]
      exact hat.missing

theorem skips_askedFor_of_one_missing :
    AlongRun (SkipsAskedFor ⟨512, 150, 800⟩ 0)
      [.push 2 (.bare 1), .readOrdered 152 none, .readOrdered 802 none] :=
  skips_askedFor_of_asksInTime ⟨512, 150, 800⟩ 0
    [.push 2 (.bare 1), .readOrdered 152 none, .readOrdered 802 none]
    (by decide) (by decide) (by decide)

theorem second_missing_never_asked :
    ¬ AlongRun (SkipsAskedFor ⟨512, 150, 800⟩ 0)
      [.push 2 (.bare 2), .readOrdered 152 none, .readOrdered 802 none] := by
  intro hasked
  obtain ⟨before, now, recovered, after, hops, hreported, -⟩ :=
    hasked [.push 2 (.bare 2), .readOrdered 152 none] (.readOrdered 802 none) [] rfl 1
      (by constructor <;> decide)
  -- before every read of the run the expected sequence is 0
  have hbefore : before ∈ [BufferOp.push 2 (.bare 2), .readOrdered 152 none].inits := by
    rw [mem_inits]
    rcases prefix_concat_iff.mp ⟨_, hops.symm⟩ with rfl | hearlier
    · simp at hops
    · exact hearlier
  have hzero : ∀ before ∈ [BufferOp.push 2 (.bare 2), .readOrdered 152 none].inits,
      (run ⟨512, 150, 800⟩ 0 before).buffer.expectedSequence = 0 := by decide
  unfold missingReported at hreported
  rw [hzero before hbefore] at hreported
  split_ifs at hreported
  simp at hreported

end BufferRun

end BigRocket.Bonding
