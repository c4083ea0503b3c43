/-
When a waiting frame is delivered although the frames before it never come.
`WindowedReorderBuffer` has ONE timer for all gaps, and the expected frame
clears it also when a second gap is open.
-/
import BigRocket.Bonding.ReorderBufferTheorems

namespace BigRocket.Bonding

open Lib List

namespace WindowedReorderBuffer

variable (p : ReorderParams) (now : Int) (b : WindowedReorderBuffer)

/-! ## The timer under a poll -/

theorem hardTimeoutDue_iff :
    hardTimeoutDue p now b = true ↔
      b.gapFirstObservedAtMs ≠ 0 ∧ now - b.gapFirstObservedAtMs ≥ p.hardTimeoutMs := by
  simp [hardTimeoutDue]

theorem softTimeoutDue_armed (h : softTimeoutDue p now b = true) : b.gapFirstObservedAtMs ≠ 0 := by
  simp only [softTimeoutDue, Bool.and_eq_true, decide_eq_true_eq] at h
  exact h.1.1

variable (recovered : Option Frame)

theorem checkSoftTimeout_timer :
    (checkSoftTimeout p now recovered b).gapFirstObservedAtMs = b.gapFirstObservedAtMs ∨
      (checkSoftTimeout p now recovered b).gapFirstObservedAtMs = 0 := by
  rcases checkSoftTimeout_cases p now b recovered with h | h | ⟨frame, -, hdue, h⟩ <;> rw [h]
  · exact Or.inl rfl
  · exact Or.inl rfl
  · have harmed := softTimeoutDue_armed p now b hdue
    rw [push_gapFirstObservedAtMs]
    split_ifs
    · exact Or.inr rfl
    · exact Or.inl rfl
    · exact Or.inl rfl

theorem drain_timer (fuel : Nat) :
    (drain fuel b).1.gapFirstObservedAtMs = b.gapFirstObservedAtMs :=
  drain_induction (P := fun b' _ => b'.gapFirstObservedAtMs = b.gapFirstObservedAtMs)
    (fun _ _ _ hb _ => hb) fuel b [] rfl

theorem readOrdered_timer (h : (b.readOrdered p now recovered).1.gapFirstObservedAtMs ≠ 0) :
    (b.readOrdered p now recovered).1.gapFirstObservedAtMs = b.gapFirstObservedAtMs ∧
      now - b.gapFirstObservedAtMs < p.hardTimeoutMs := by
  unfold readOrdered at h ⊢
  rw [drain_timer] at h ⊢
  unfold checkTimeout at h ⊢
  by_cases hdue : hardTimeoutDue p now b = true
  · rw [if_pos hdue] at h
    exact absurd (giveUpGap_gapFirstObservedAtMs _) h
  · rw [if_neg hdue] at h ⊢
    rcases checkSoftTimeout_timer p now b recovered with hsame | hzero
    · rw [hsame] at h
      refine ⟨hsame, ?_⟩
      by_contra hexpired
      exact hdue ((hardTimeoutDue_iff p now b).mpr ⟨h, by omega⟩)
    · exact absurd hzero h

theorem readOrdered_stuck :
    (b.readOrdered p now recovered).1.buffered.lookup
      (b.readOrdered p now recovered).1.expectedSequence = none :=
  drain_stuck _ _ le_rfl

/-! ## Polls with nothing arriving between them -/

structure SameGap (b b' : WindowedReorderBuffer) : Prop where
  buffered : b'.buffered = b.buffered
  expectedSequence : b'.expectedSequence = b.expectedSequence
  timer : b'.gapFirstObservedAtMs = b.gapFirstObservedAtMs

variable {p now b}

theorem SameGap.refl (b : WindowedReorderBuffer) : SameGap b b := ⟨rfl, rfl, rfl⟩

theorem SameGap.trans {b' b'' : WindowedReorderBuffer} (h : SameGap b b') (h' : SameGap b' b'') :
    SameGap b b'' :=
  ⟨h'.buffered.trans h.buffered, h'.expectedSequence.trans h.expectedSequence,
    h'.timer.trans h.timer⟩

theorem sameGap_checkSoftTimeout : SameGap b (b.checkSoftTimeout p now none) := by
  rcases checkSoftTimeout_cases p now b none with h | h | ⟨frame, hnone, -, -⟩
  · rw [h]
    exact SameGap.refl b
  · rw [h]
    exact ⟨rfl, rfl, rfl⟩
  · cases hnone

/-- A poll before the hard timeout, with the head missing, returns nothing
and changes at most the soft-timeout flag. -/
theorem readOrdered_waiting (hstuck : b.buffered.lookup b.expectedSequence = none)
    (hdue : ¬ hardTimeoutDue p now b = true) :
    (b.readOrdered p now none).2 = [] ∧ SameGap b (b.readOrdered p now none).1 := by
  have hsoft : SameGap b (b.checkSoftTimeout p now none) := sameGap_checkSoftTimeout
  have hhead : (b.checkSoftTimeout p now none).buffered.lookup
      (b.checkSoftTimeout p now none).expectedSequence = none := by
    rw [hsoft.buffered, hsoft.expectedSequence]
    exact hstuck
  unfold readOrdered checkTimeout
  rw [if_neg hdue, drain_none _ hhead]
  exact ⟨rfl, hsoft⟩

theorem readOrdered_expired (hwin : InWindow p b) (hdue : hardTimeoutDue p now b = true)
    {k : Int} (hk : k ∈ b.buffered) : (b.readOrdered p now none).2 ≠ [] := by
  have hsoft : SameGap b (b.checkSoftTimeout p now none) := sameGap_checkSoftTimeout
  unfold readOrdered checkTimeout
  rw [if_pos hdue]
  rcases giveUpGap_cases (b.checkSoftTimeout p now none) with
    ⟨next, hmem, -, -, hexp, -⟩ | ⟨hbelow, -, -⟩
  · -- the jump lands on a buffered key, so the loop takes at least that frame
    obtain ⟨head, hhead⟩ := Option.isSome_iff_exists.mp (AList.lookup_isSome.mpr hmem)
    have hlook : (b.checkSoftTimeout p now none).giveUpGap.buffered.lookup
        (b.checkSoftTimeout p now none).giveUpGap.expectedSequence = some head := by
      rw [giveUpGap_buffered, hexp]
      exact hhead
    exact drain_ne_nil hlook
  · have hlow := hwin.lower k hk
    have hlt := hbelow k (by rw [hsoft.buffered]; exact hk)
    rw [hsoft.expectedSequence] at hlt
    omega

def afterPolls (p : ReorderParams) (b : WindowedReorderBuffer) (polls : Nat → Int) :
    Nat → WindowedReorderBuffer
  | 0 => b
  | n + 1 => ((afterPolls p b polls n).readOrdered p (polls n) none).1

def DeliversAt (p : ReorderParams) (b : WindowedReorderBuffer) (polls : Nat → Int) (n : Nat) :
    Prop :=
  ((afterPolls p b polls n).readOrdered p (polls n) none).2 ≠ []

/-- Polling goes on for ever from `t₁` on, two polls at most `d` apart. -/
structure PollSchedule (t₁ d : Int) (polls : Nat → Int) : Prop where
  first : t₁ ≤ polls 0 ∧ polls 0 ≤ t₁ + d
  next : ∀ n, polls n ≤ polls (n + 1) ∧ polls (n + 1) ≤ polls n + d
  unbounded : ∀ t, ∃ n, t ≤ polls n

/-- Every schedule that starts at `t₁` has a delivering poll within
`hardTimeoutMs` and one poll interval. -/
def GivenUpInTime (p : ReorderParams) (t₁ : Int) (b : WindowedReorderBuffer) : Prop :=
  ∀ d polls, PollSchedule t₁ d polls →
    ∃ n, polls n ≤ t₁ + p.hardTimeoutMs + d ∧ DeliversAt p b polls n

theorem afterPolls_waiting (hstuck : b.buffered.lookup b.expectedSequence = none)
    (polls : Nat → Int) (n : Nat) (hdue : ∀ m < n, ¬ hardTimeoutDue p (polls m) b = true) :
    SameGap b (afterPolls p b polls n) := by
  induction n with
  | zero => exact SameGap.refl b
  | succ n ih =>
    have hprev := ih (fun m hm => hdue m (by omega))
    have hnow : ¬ hardTimeoutDue p (polls n) (afterPolls p b polls n) = true := by
      rw [hardTimeoutDue_iff, hprev.timer, ← hardTimeoutDue_iff]
      exact hdue n (by omega)
    have hhead : (afterPolls p b polls n).buffered.lookup
        (afterPolls p b polls n).expectedSequence = none := by
      rw [hprev.buffered, hprev.expectedSequence]
      exact hstuck
    exact hprev.trans (readOrdered_waiting hhead hnow).2

theorem readOrdered_timer_off (hstuck : b.buffered.lookup b.expectedSequence = none)
    (hoff : b.gapFirstObservedAtMs = 0) (polls : Nat → Int) (n : Nat) :
    ¬ DeliversAt p b polls n := by
  have hnever : ∀ t, ¬ hardTimeoutDue p t b = true := by
    intro t hdue
    exact ((hardTimeoutDue_iff p t b).mp hdue).1 hoff
  have hsame := afterPolls_waiting hstuck polls n (fun m _ => hnever (polls m))
  have hnow : ¬ hardTimeoutDue p (polls n) (afterPolls p b polls n) = true := by
    rw [hardTimeoutDue_iff, hsame.timer, ← hardTimeoutDue_iff]
    exact hnever (polls n)
  have hhead : (afterPolls p b polls n).buffered.lookup
      (afterPolls p b polls n).expectedSequence = none := by
    rw [hsame.buffered, hsame.expectedSequence]
    exact hstuck
  intro hdelivers
  exact hdelivers (readOrdered_waiting hhead hnow).1

theorem pollSchedule_every_ms (t₁ : Int) : PollSchedule t₁ 1 (fun n => t₁ + n) where
  first := by omega
  next := by
    omega
  unbounded := by
    intro t
    exact ⟨(t - t₁).toNat, by omega⟩

theorem not_givenUpInTime (hstuck : b.buffered.lookup b.expectedSequence = none)
    (hoff : b.gapFirstObservedAtMs = 0) (t₁ : Int) : ¬ GivenUpInTime p t₁ b := by
  intro hgiven
  obtain ⟨n, -, hdelivers⟩ := hgiven 1 _ (pollSchedule_every_ms t₁)
  exact readOrdered_timer_off hstuck hoff _ n hdelivers

theorem givenUpInTime_of_armed (hwin : InWindow p b)
    (hstuck : b.buffered.lookup b.expectedSequence = none) {k : Int} (hk : k ∈ b.buffered)
    (harmed : b.gapFirstObservedAtMs ≠ 0) {t₁ : Int} (hpast : b.gapFirstObservedAtMs ≤ t₁)
    (hyoung : t₁ - b.gapFirstObservedAtMs < p.hardTimeoutMs) : GivenUpInTime p t₁ b := by
  intro d polls hsched
  have hexists : ∃ n, b.gapFirstObservedAtMs + p.hardTimeoutMs ≤ polls n := hsched.unbounded _
  have hreached := Nat.find_spec hexists
  have hearlier : ∀ m < Nat.find hexists, polls m < b.gapFirstObservedAtMs + p.hardTimeoutMs := by
    intro m hm
    exact not_le.mp (Nat.find_min hexists hm)
  generalize Nat.find hexists = n at hreached hearlier
  have hwaiting : SameGap b (afterPolls p b polls n) := by
    apply afterPolls_waiting hstuck
    intro m hm hdue
    have := hearlier m hm
    have := ((hardTimeoutDue_iff p (polls m) b).mp hdue).2
    omega
  refine ⟨n, ?_, ?_⟩
  · cases n with
    | zero =>
      have := hsched.first.2
      omega
    | succ n =>
      have := hearlier n (Nat.lt_succ_self n)
      have := (hsched.next n).2
      omega
  · apply readOrdered_expired (k := k)
    · exact ⟨by rw [hwaiting.buffered]; exact hwin.ofSeq,
        by rw [hwaiting.buffered, hwaiting.expectedSequence]; exact hwin.lower,
        by rw [hwaiting.buffered, hwaiting.expectedSequence]; exact hwin.upper⟩
    · rw [hardTimeoutDue_iff, hwaiting.timer]
      exact ⟨harmed, by omega⟩
    · rw [hwaiting.buffered]
      exact hk

end WindowedReorderBuffer

theorem Chronological.of_append {before after : List BufferOp}
    (h : Chronological (before ++ after)) : Chronological before := by
  unfold Chronological at h ⊢
  rw [map_append, pairwise_append] at h
  exact h.1

namespace BufferRun

open WindowedReorderBuffer

variable (p : ReorderParams) (startSequence : Int)

/-! ## The timer in a run -/

theorem run_timer_from_push (ops : List BufferOp)
    (h : (run p startSequence ops).buffer.gapFirstObservedAtMs ≠ 0) :
    ∃ frame, .push (run p startSequence ops).buffer.gapFirstObservedAtMs frame ∈ ops := by
  induction ops using List.reverseRecOn with
  | nil => exact absurd rfl h
  | append_singleton ops op ih =>
    rw [run_concat] at h ⊢
    cases op with
    | push now frame =>
      simp only [step] at h ⊢
      rw [push_gapFirstObservedAtMs] at h ⊢
      split_ifs at h ⊢ with hacc hseq hoff
      · exact absurd rfl h
      · exact ⟨frame, by simp⟩
      · obtain ⟨f, hf⟩ := ih hoff
        exact ⟨f, by simp [hf]⟩
      · obtain ⟨f, hf⟩ := ih h
        exact ⟨f, by simp [hf]⟩
    | readOrdered now recovered =>
      simp only [step] at h ⊢
      obtain ⟨hsame, -⟩ := readOrdered_timer p now _ recovered h
      rw [hsame] at h ⊢
      obtain ⟨f, hf⟩ := ih h
      exact ⟨f, by simp [hf]⟩

theorem time_le_of_chronological {ops : List BufferOp} {op last : BufferOp}
    (h : Chronological (ops ++ [last])) (hop : op ∈ ops) : op.time ≤ last.time := by
  unfold Chronological at h
  rw [map_append, pairwise_append] at h
  exact h.2.2 op.time (mem_map_of_mem hop) last.time (by simp)

/-- **A waiting frame is delivered in time exactly when the timer is on**, by
every unbroken schedule of polls. -/
theorem waiting_frame_givenUpInTime_iff_timer_on (ops : List BufferOp) (t₁ : Int)
    (recovered : Option Frame) (hclock : Chronological (ops ++ [.readOrdered t₁ recovered]))
    (hwaits : (run p startSequence (ops ++ [.readOrdered t₁ recovered])).buffer.buffered.keys ≠ []) :
    GivenUpInTime p t₁ (run p startSequence (ops ++ [.readOrdered t₁ recovered])).buffer ↔
      (run p startSequence (ops ++ [.readOrdered t₁ recovered])).buffer.gapFirstObservedAtMs
        ≠ 0 := by
  obtain ⟨k, hk⟩ := exists_mem_of_ne_nil _ hwaits
  have hwin := run_inWindow p startSequence (ops ++ [.readOrdered t₁ recovered])
  rw [run_concat] at hk hwin ⊢
  have hstuck := readOrdered_stuck p t₁ (run p startSequence ops).buffer recovered
  constructor
  · intro hgiven hoff
    exact not_givenUpInTime hstuck hoff t₁ hgiven
  · intro harmed
    obtain ⟨hsame, hyoung⟩ := readOrdered_timer p t₁ _ recovered harmed
    have hold : (run p startSequence ops).buffer.gapFirstObservedAtMs ≠ 0 := by
      rw [← hsame]
      exact harmed
    obtain ⟨frame, hpush⟩ := run_timer_from_push p startSequence ops hold
    have hpast := time_le_of_chronological hclock hpush
    rw [← hsame] at hpast hyoung
    exact givenUpInTime_of_armed hwin hstuck (AList.mem_keys.mpr hk) harmed hpast hyoung

theorem waiting_frame_givenUpInTime_of_one_frame :
    GivenUpInTime ⟨512, 150, 800⟩ 3
      (run ⟨512, 150, 800⟩ 0 [.push 1 (.bare 3), .readOrdered 3 none]).buffer :=
  (waiting_frame_givenUpInTime_iff_timer_on ⟨512, 150, 800⟩ 0 [.push 1 (.bare 3)] 3 none
    (by decide) (by decide)).mpr (by decide)

/-- Frame 3 arrives and starts the timer, then frame 0 clears it. The poll
delivers frame 0 and leaves frame 3 waiting for 1 and 2, with no timer. -/
theorem reorderBuffer_stalls_behind_second_gap :
    (run ⟨512, 150, 800⟩ 0
      [.push 1 (.bare 3), .push 2 (.bare 0), .readOrdered 3 none]).buffer.buffered.keys = [3] ∧
    ¬ GivenUpInTime ⟨512, 150, 800⟩ 3
      (run ⟨512, 150, 800⟩ 0
        [.push 1 (.bare 3), .push 2 (.bare 0), .readOrdered 3 none]).buffer :=
  ⟨by decide, not_givenUpInTime (by decide) (by decide) 3⟩

end BufferRun

end BigRocket.Bonding
