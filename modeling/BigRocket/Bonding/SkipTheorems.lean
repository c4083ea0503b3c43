/-
How long a gap was open when `WindowedReorderBuffer` skipped it. The timer is
armed by ANY frame ahead, and delivery does not clear it, so a later gap
inherits an old start.
-/
import BigRocket.Bonding.GapTimerTheorems

namespace BigRocket.Bonding

open Lib List

namespace WindowedReorderBuffer

variable (p : ReorderParams) (now : Int) (recovered : Option Frame) (b : WindowedReorderBuffer)

def Skips (s : Int) : Prop :=
  b.expectedSequence ≤ s ∧ s < (b.checkTimeout p now recovered).expectedSequence

/-- When the hard check is made the head is missing and something waits behind it. -/
def GapOpen : Prop :=
  b.expectedSequence ∉ (b.checkSoftTimeout p now recovered).buffered ∧
    (b.checkSoftTimeout p now recovered).buffered.keys ≠ []

instance : Decidable (GapOpen p now recovered b) := inferInstanceAs (Decidable (_ ∧ _))

/-! ## What a poll leaves in the map -/

theorem checkTimeout_buffered :
    (b.checkTimeout p now recovered).buffered = (b.checkSoftTimeout p now recovered).buffered := by
  unfold checkTimeout
  by_cases hdue : hardTimeoutDue p now b = true
  · rw [if_pos hdue]
    exact giveUpGap_buffered _
  · rw [if_neg hdue]

variable {p now recovered b}

variable {k : Int} {f : Frame}

theorem mem_checkSoftTimeout (hk : k ∈ b.buffered) :
    k ∈ (b.checkSoftTimeout p now recovered).buffered := by
  rcases checkSoftTimeout_cases p now b recovered with h | h | ⟨frame, -, -, h⟩ <;> rw [h]
  · exact hk
  · exact hk
  · exact (mem_push p now frame _ k).mpr (Or.inl hk)

theorem lookup_checkSoftTimeout
    (h : (b.checkSoftTimeout p now recovered).buffered.lookup k = some f) :
    b.buffered.lookup k = some f ∨
      (k = f.seq ∧ recovered = some f ∧ softTimeoutDue p now b = true) := by
  rcases checkSoftTimeout_cases p now b recovered with he | he | ⟨frame, hrec, hdue, he⟩ <;>
    rw [he] at h
  · exact Or.inl h
  · exact Or.inl h
  · rcases lookup_push p now frame _ h with hold | ⟨hk, rfl, -⟩
    · exact Or.inl hold
    · exact Or.inr ⟨hk, hrec, hdue⟩

theorem lookup_checkSoftTimeout_of_ahead (h : b.buffered.lookup k = some f)
    (hk : k ≠ b.expectedSequence) :
    (b.checkSoftTimeout p now recovered).buffered.lookup k = some f := by
  rcases checkSoftTimeout_cases p now b recovered with he | he | ⟨frame, -, -, he⟩ <;> rw [he]
  · exact h
  · exact h
  · exact lookup_push_of_ahead p now frame _ h hk

theorem lookup_drain (fuel : Nat) (h : (drain fuel b).1.buffered.lookup k = some f) :
    b.buffered.lookup k = some f := by
  have hloop := drain_induction
    (P := fun b' _ => ∀ f, b'.buffered.lookup k = some f → b.buffered.lookup k = some f)
    (by
      intro b' _ head hb' _ f hf
      by_cases hk : k = b'.expectedSequence
      · subst hk
        rw [advance, AList.lookup_erase] at hf
        cases hf
      · rw [advance, AList.lookup_erase_ne hk] at hf
        exact hb' f hf)
    fuel b [] (fun _ hf => hf)
  exact hloop f h

theorem mem_drain (fuel : Nat) (h : k ∈ b.buffered ∨ k < b.expectedSequence) :
    k ∈ (drain fuel b).1.buffered ∨ k < (drain fuel b).1.expectedSequence :=
  drain_induction (P := fun b' _ => k ∈ b'.buffered ∨ k < b'.expectedSequence)
    (by
      rintro b' _ head (hk | hk) _
      · by_cases hhead : k = b'.expectedSequence
        · right
          simp only [advance]
          omega
        · exact Or.inl (AList.mem_erase.mpr ⟨hhead, hk⟩)
      · right
        simp only [advance]
        omega)
    fuel b [] h

theorem expectedSequence_le_checkTimeout :
    b.expectedSequence ≤ (b.checkTimeout p now recovered).expectedSequence := by
  unfold checkTimeout
  by_cases hdue : hardTimeoutDue p now b = true
  · rw [if_pos hdue]
    rcases giveUpGap_cases (b.checkSoftTimeout p now recovered) with
      ⟨next, -, hle, -, hexp, -⟩ | ⟨-, hexp, -⟩
    · rw [hexp]
      simpa using hle
    · simp [hexp]
  · rw [if_neg hdue]
    simp

theorem Skips.cause {s : Int} (hwin : InWindow p b) (h : Skips p now recovered b s) :
    hardTimeoutDue p now b = true ∧ GapOpen p now recovered b ∧
      ∀ k ∈ (b.checkSoftTimeout p now recovered).buffered, s < k := by
  obtain ⟨hlow, hhigh⟩ := h
  unfold checkTimeout at hhigh
  by_cases hdue : hardTimeoutDue p now b = true
  · rw [if_pos hdue] at hhigh
    rcases giveUpGap_cases (b.checkSoftTimeout p now recovered) with
      ⟨next, hmem, -, hleast, hexp, -⟩ | ⟨-, hexp, -⟩
    · rw [hexp] at hhigh
      rw [checkSoftTimeout_expectedSequence] at hleast
      refine ⟨hdue, ⟨?_, ?_⟩, ?_⟩
      · intro hhead
        have := hleast _ hhead le_rfl
        omega
      · exact ne_nil_of_mem (AList.mem_keys.mp hmem)
      · intro k hk
        have hlower := (hwin.checkSoftTimeout now recovered).lower k hk
        rw [checkSoftTimeout_expectedSequence] at hlower
        have := hleast k hk hlower
        omega
    · rw [hexp, checkSoftTimeout_expectedSequence] at hhigh
      omega
  · rw [if_neg hdue, checkSoftTimeout_expectedSequence] at hhigh
    omega

end WindowedReorderBuffer

/-! ## Which frame armed the timer -/

def BufferOp.arrival : BufferOp → Option Frame
  | .push _ frame => some frame
  | .readOrdered _ _ => none

structure TimerHistory where
  run : BufferRun
  armedBy : Option Frame

def TimerHistory.step (p : ReorderParams) (h : TimerHistory) (op : BufferOp) : TimerHistory where
  run := h.run.step p op
  armedBy :=
    if (h.run.step p op).buffer.gapFirstObservedAtMs = 0 then none
    else if h.run.buffer.gapFirstObservedAtMs = 0 then op.arrival
    else h.armedBy

namespace BufferRun

open WindowedReorderBuffer

variable (p : ReorderParams) (startSequence : Int)

def armedBy (ops : List BufferOp) : Option Frame :=
  (exec (TimerHistory.step p) ⟨create startSequence, none⟩ ops).armedBy

theorem armedBy_concat (ops : List BufferOp) (op : BufferOp) :
    armedBy p startSequence (ops ++ [op]) =
      if (run p startSequence (ops ++ [op])).buffer.gapFirstObservedAtMs = 0 then none
      else if (run p startSequence ops).buffer.gapFirstObservedAtMs = 0 then op.arrival
      else armedBy p startSequence ops := by
  have hrun : ∀ ops, (exec (TimerHistory.step p) ⟨create startSequence, none⟩ ops).run =
      run p startSequence ops := by
    intro ops
    induction ops using List.reverseRecOn with
    | nil => rfl
    | append_singleton ops op ih =>
      rw [exec_concat, run_concat, ← ih]
      rfl
  unfold armedBy
  rw [exec_concat, run_concat, ← hrun ops]
  rfl

/-! ## Since when a frame waits -/

/-- The operation puts `frame` into the buffer at time `τ`: a `push`, or the
callback of a read whose soft timeout is due. -/
def Pushes (b : WindowedReorderBuffer) (op : BufferOp) (τ : Int) (frame : Frame) : Prop :=
  op = .push τ frame ∨
    (op = .readOrdered τ (some frame) ∧ softTimeoutDue p τ b = true)

/-- `frame` was pushed at `τ` and has been in the buffer after every
operation since. -/
def WaitingSince (ops : List BufferOp) (τ : Int) (frame : Frame) : Prop :=
  ∃ before op after, ops = before ++ op :: after ∧
    Pushes p (run p startSequence before).buffer op τ frame ∧
    ∀ passed, passed <+: after →
      (run p startSequence (before ++ op :: passed)).buffer.buffered.lookup frame.seq = some frame

/-- A skip at this operation, if any, is a patient one: some frame beyond
the skipped sequence has waited for `hardTimeoutMs`. -/
def PatientSkips (ops : List BufferOp) : BufferOp → Prop
  | .push _ _ => True
  | .readOrdered now recovered =>
    ∀ s, Skips p now recovered (run p startSequence ops).buffer s →
      ∃ τ frame, s < frame.seq ∧ τ ≤ now - p.hardTimeoutMs ∧
        WaitingSince p startSequence ops τ frame

/-- A read that finds the hard timeout expired over an open gap finds the
frame that armed the timer still buffered. -/
def TimerFresh (ops : List BufferOp) : BufferOp → Prop
  | .push _ _ => True
  | .readOrdered now recovered =>
    hardTimeoutDue p now (run p startSequence ops).buffer = true →
      GapOpen p now recovered (run p startSequence ops).buffer →
        ∀ frame ∈ armedBy p startSequence ops,
          frame.seq ∈ (run p startSequence ops).buffer.buffered

instance (ops : List BufferOp) : (op : BufferOp) → Decidable (TimerFresh p startSequence ops op)
  | .push _ _ => inferInstanceAs (Decidable True)
  | .readOrdered _ _ => inferInstanceAs (Decidable (_ → _ → ∀ frame ∈ _, _))

variable {p startSequence} {ops : List BufferOp}

theorem WaitingSince.concat {op : BufferOp} {τ : Int} {frame : Frame}
    (h : WaitingSince p startSequence ops τ frame)
    (hstill : (run p startSequence (ops ++ [op])).buffer.buffered.lookup frame.seq = some frame) :
    WaitingSince p startSequence (ops ++ [op]) τ frame := by
  obtain ⟨before, pushed, after, rfl, hpush, hsince⟩ := h
  refine ⟨before, pushed, after ++ [op], by simp, hpush, ?_⟩
  intro passed hpassed
  rcases prefix_concat_iff.mp hpassed with rfl | hpassed
  · simpa using hstill
  · exact hsince passed hpassed

theorem waitingSince_last {op : BufferOp} {τ : Int} {frame : Frame}
    (hpush : Pushes p (run p startSequence ops).buffer op τ frame)
    (hthere : (run p startSequence (ops ++ [op])).buffer.buffered.lookup frame.seq = some frame) :
    WaitingSince p startSequence (ops ++ [op]) τ frame := by
  refine ⟨ops, op, [], rfl, hpush, ?_⟩
  intro passed hpassed
  rw [prefix_nil] at hpassed
  subst hpassed
  exact hthere

variable (s : BufferRun) (op : BufferOp) {k : Int} {f : Frame}

theorem lookup_step (h : (step p s op).buffer.buffered.lookup k = some f) :
    s.buffer.buffered.lookup k = some f ∨ (k = f.seq ∧ Pushes p s.buffer op op.time f) := by
  cases op with
  | push now frame =>
    rcases lookup_push p now frame s.buffer h with hold | ⟨hk, rfl, -⟩
    · exact Or.inl hold
    · exact Or.inr ⟨hk, Or.inl rfl⟩
  | readOrdered now recovered =>
    have hchecked := lookup_drain _ h
    rw [checkTimeout_buffered] at hchecked
    rcases lookup_checkSoftTimeout hchecked with hold | ⟨hk, rfl, hdue⟩
    · exact Or.inl hold
    · exact Or.inr ⟨hk, Or.inr ⟨rfl, hdue⟩⟩

theorem lookup_step_of_ahead {f' : Frame} (hbefore : s.buffer.buffered.lookup k = some f)
    (hk : k ≠ s.buffer.expectedSequence)
    (hafter : (step p s op).buffer.buffered.lookup k = some f') : f' = f := by
  cases op with
  | push now frame =>
    have hkept := lookup_push_of_ahead p now frame s.buffer hbefore hk
    simp only [step] at hafter
    rw [hkept] at hafter
    exact (Option.some.inj hafter).symm
  | readOrdered now recovered =>
    have hchecked := lookup_drain _ hafter
    rw [checkTimeout_buffered, lookup_checkSoftTimeout_of_ahead hbefore hk] at hchecked
    exact (Option.some.inj hchecked).symm

theorem waitingSince_of_buffered (h : (run p startSequence ops).buffer.buffered.lookup k = some f) :
    ∃ op ∈ ops, WaitingSince p startSequence ops op.time f := by
  induction ops using List.reverseRecOn generalizing k f with
  | nil => cases h
  | append_singleton ops op ih =>
    have hseq := (run_inWindow p startSequence (ops ++ [op])).ofSeq k f h
    subst hseq
    rw [run_concat] at h
    rcases lookup_step _ op h with hold | ⟨-, hpush⟩
    · obtain ⟨op₀, hop₀, hwait⟩ := ih hold
      exact ⟨op₀, by simp [hop₀], hwait.concat (by rw [run_concat]; exact h)⟩
    · exact ⟨op, by simp, waitingSince_last hpush (by rw [run_concat]; exact h)⟩

/-! ## What one operation does to the timer and to a waiting frame -/

theorem timer_step (hbefore : s.buffer.gapFirstObservedAtMs ≠ 0)
    (hafter : (step p s op).buffer.gapFirstObservedAtMs ≠ 0) :
    (step p s op).buffer.gapFirstObservedAtMs = s.buffer.gapFirstObservedAtMs := by
  cases op with
  | push now frame =>
    simp only [step] at hafter ⊢
    rw [push_gapFirstObservedAtMs] at hafter ⊢
    split_ifs at hafter ⊢
    · exact absurd rfl hafter
    · rfl
    · rfl
  | readOrdered now recovered => exact (readOrdered_timer p now _ recovered hafter).1

theorem timer_arms (hbefore : s.buffer.gapFirstObservedAtMs = 0)
    (hafter : (step p s op).buffer.gapFirstObservedAtMs ≠ 0) :
    ∃ now frame, op = .push now frame ∧ Accepts p s.buffer frame ∧
      frame.seq ≠ s.buffer.expectedSequence ∧
      (step p s op).buffer.gapFirstObservedAtMs = now := by
  cases op with
  | push now frame =>
    simp only [step] at hafter ⊢
    rw [push_gapFirstObservedAtMs] at hafter ⊢
    split_ifs at hafter ⊢ with hacc hseq
    · exact absurd rfl hafter
    · exact ⟨now, frame, rfl, hacc, hseq, rfl⟩
    · exact absurd hbefore hafter
  | readOrdered now recovered =>
    have hsame := (readOrdered_timer p now _ recovered hafter).1
    simp only [step] at hafter
    rw [hsame] at hafter
    exact absurd hbefore hafter

theorem drain_expectedSequence_le (b : WindowedReorderBuffer) (fuel : Nat) :
    b.expectedSequence ≤ (b.drain fuel).1.expectedSequence :=
  drain_induction (P := fun b' _ => b.expectedSequence ≤ b'.expectedSequence)
    (by
      intro b' _ _ hb' _
      simp only [advance]
      omega)
    fuel b [] le_rfl

theorem expectedSequence_le_step :
    s.buffer.expectedSequence ≤ (step p s op).buffer.expectedSequence := by
  cases op with
  | push now frame => simp [step]
  | readOrdered now recovered =>
    calc s.buffer.expectedSequence
        ≤ (s.buffer.checkTimeout p now recovered).expectedSequence :=
          expectedSequence_le_checkTimeout
      _ ≤ _ := drain_expectedSequence_le _ _

theorem mem_step (hk : k ∈ s.buffer.buffered) :
    k ∈ (step p s op).buffer.buffered ∨ k < (step p s op).buffer.expectedSequence := by
  cases op with
  | push now frame => exact Or.inl ((mem_push p now frame s.buffer k).mpr (Or.inl hk))
  | readOrdered now recovered =>
    apply mem_drain
    left
    rw [checkTimeout_buffered]
    exact mem_checkSoftTimeout hk

theorem ahead_step {s : BufferRun} (hwin : InWindow p s.buffer) (op : BufferOp)
    (hahead : s.buffer.expectedSequence < k) (hk : k ∈ (step p s op).buffer.buffered) :
    (step p s op).buffer.expectedSequence < k := by
  cases op with
  | push now frame => simpa [step] using hahead
  | readOrdered now recovered =>
    have hlow := (hwin.readOrdered now recovered).lower k hk
    have hne : k ≠ (s.buffer.readOrdered p now recovered).1.expectedSequence := by
      intro heq
      have hstuck := readOrdered_stuck p now s.buffer recovered
      rw [← heq, AList.lookup_eq_none] at hstuck
      exact hstuck hk
    simp only [step]
    omega

/-! ## The timer and the frame that armed it -/

variable (p startSequence)

/-- A running timer shows when `armedBy` arrived; that frame is passed, or
is ahead and its place has been taken since then. -/
def ArmedInv (ops : List BufferOp) : Prop :=
  (run p startSequence ops).buffer.gapFirstObservedAtMs ≠ 0 →
    ∃ frame, armedBy p startSequence ops = some frame ∧
      .push (run p startSequence ops).buffer.gapFirstObservedAtMs frame ∈ ops ∧
      (frame.seq < (run p startSequence ops).buffer.expectedSequence ∨
        ((run p startSequence ops).buffer.expectedSequence < frame.seq ∧
          ∃ f τ, (run p startSequence ops).buffer.buffered.lookup frame.seq = some f ∧
            τ ≤ (run p startSequence ops).buffer.gapFirstObservedAtMs ∧
            WaitingSince p startSequence ops τ f))

variable {p startSequence}

theorem armedInv_of_armed {op : BufferOp} (hclock : Chronological (ops ++ [op]))
    (hbefore : (run p startSequence ops).buffer.gapFirstObservedAtMs = 0) :
    ArmedInv p startSequence (ops ++ [op]) := by
  intro hafter
  have harmed := armedBy_concat p startSequence ops op
  rw [if_neg hafter, if_pos hbefore] at harmed
  rw [run_concat] at hafter
  obtain ⟨now, frame, rfl, hacc, hseq, htimer⟩ := timer_arms _ op hbefore hafter
  have hmem : frame.seq ∈ (run p startSequence (ops ++ [.push now frame])).buffer.buffered := by
    rw [run_concat]
    exact (mem_push p now frame _ frame.seq).mpr (Or.inr ⟨rfl, hacc⟩)
  obtain ⟨f, hf⟩ := Option.isSome_iff_exists.mp (AList.lookup_isSome.mpr hmem)
  obtain ⟨op₀, hop₀, hwait⟩ := waitingSince_of_buffered hf
  have htime : op₀.time ≤ now := by
    rcases mem_append.mp hop₀ with hop₀ | hop₀
    · exact time_le_of_chronological hclock hop₀
    · rw [mem_singleton] at hop₀
      subst hop₀
      exact le_rfl
  have hahead : (run p startSequence (ops ++ [.push now frame])).buffer.expectedSequence <
      frame.seq := by
    have := hacc.1
    simp only [run_concat, step, push_expectedSequence]
    omega
  rw [← run_concat] at htimer
  exact ⟨frame, harmed, by rw [htimer]; simp,
    Or.inr ⟨hahead, f, op₀.time, hf, by rw [htimer]; exact htime, hwait⟩⟩

theorem ArmedInv.concat (h : ArmedInv p startSequence ops) (op : BufferOp)
    (hbefore : (run p startSequence ops).buffer.gapFirstObservedAtMs ≠ 0) :
    ArmedInv p startSequence (ops ++ [op]) := by
  intro hafter
  have harmed := armedBy_concat p startSequence ops op
  rw [if_neg hafter, if_neg hbefore] at harmed
  have htimer : (run p startSequence (ops ++ [op])).buffer.gapFirstObservedAtMs =
      (run p startSequence ops).buffer.gapFirstObservedAtMs := by
    rw [run_concat] at hafter ⊢
    exact timer_step _ op hbefore hafter
  obtain ⟨frame, hframe, hpush, hplace⟩ := h hbefore
  refine ⟨frame, by rw [harmed, hframe], by rw [htimer]; simp [hpush], ?_⟩
  have hgrow : (run p startSequence ops).buffer.expectedSequence ≤
      (run p startSequence (ops ++ [op])).buffer.expectedSequence := by
    rw [run_concat]
    exact expectedSequence_le_step _ op
  rcases hplace with hpassed | ⟨hahead, f, τ, hf, hτ, hwait⟩
  · exact Or.inl (by omega)
  · have hmem : frame.seq ∈ (run p startSequence ops).buffer.buffered :=
      AList.lookup_isSome.mp (by rw [hf]; rfl)
    have hcases := mem_step (p := p) _ op hmem
    rw [← run_concat] at hcases
    rcases hcases with hstays | hpassed
    · -- the frame stays: same entry, still ahead, still waiting
      right
      obtain ⟨f', hf'⟩ := Option.isSome_iff_exists.mp (AList.lookup_isSome.mpr hstays)
      have hsame : f' = f := by
        rw [run_concat] at hf'
        exact lookup_step_of_ahead _ op hf (by omega) hf'
      subst hsame
      have hseq := (run_inWindow p startSequence ops).ofSeq _ _ hf
      refine ⟨?_, f', τ, hf', by rw [htimer]; exact hτ, hwait.concat (by rw [hseq]; exact hf')⟩
      rw [run_concat] at hstays ⊢
      exact ahead_step (run_inWindow p startSequence ops) op hahead hstays
    · exact Or.inl hpassed

theorem run_armedInv (ops : List BufferOp) (hclock : Chronological ops) :
    ArmedInv p startSequence ops := by
  induction ops using List.reverseRecOn with
  | nil =>
    intro h
    exact absurd rfl h
  | append_singleton ops op ih =>
    by_cases hbefore : (run p startSequence ops).buffer.gapFirstObservedAtMs = 0
    · exact armedInv_of_armed hclock hbefore
    · exact (ih hclock.of_append).concat op hbefore

/-- **No premature loss while the timer is fresh**: a later frame had waited for
`hardTimeoutMs` behind every sequence that is given up on. -/
theorem skips_patient_of_timerFresh (p : ReorderParams) (startSequence : Int)
    (ops : List BufferOp) (hclock : Chronological ops)
    (hfresh : AlongRun (TimerFresh p startSequence) ops) :
    AlongRun (PatientSkips p startSequence) ops := by
  intro before op after hops
  have hcond := hfresh before op after hops
  have hbefore : Chronological before := by
    rw [hops] at hclock
    exact hclock.of_append
  cases op with
  | push now frame => trivial
  | readOrdered now recovered =>
    intro s hskip
    have hwin := run_inWindow p startSequence before
    obtain ⟨hdue, hopen, hbeyond⟩ := hskip.cause hwin
    obtain ⟨harmed, hexpired⟩ := (hardTimeoutDue_iff p now _).mp hdue
    obtain ⟨frame, hframe, -, hplace⟩ := run_armedInv before hbefore harmed
    have hmem := hcond hdue hopen frame hframe
    rcases hplace with hpassed | ⟨-, f, τ, hf, hτ, hwait⟩
    · have := hwin.lower _ hmem
      omega
    · have hseq : f.seq = frame.seq := hwin.ofSeq _ _ hf
      refine ⟨τ, f, ?_, by omega, hwait⟩
      rw [hseq]
      exact hbeyond _ (mem_checkSoftTimeout hmem)

theorem skips_patient_of_one_waiting_frame :
    AlongRun (PatientSkips ⟨512, 150, 800⟩ 0) [.push 2 (.bare 5), .readOrdered 802 none] :=
  skips_patient_of_timerFresh ⟨512, 150, 800⟩ 0 [.push 2 (.bare 5), .readOrdered 802 none]
    (by decide) (by decide)

/-- Frames 0 and 1 are delivered at 3, but frame 1 has armed the timer at 2. Frame
5 arrives at 802, and the poll of the same millisecond skips the gap. -/
theorem fresh_gap_skipped_by_stale_timer :
    ¬ AlongRun (PatientSkips ⟨512, 150, 800⟩ 0)
      [.push 1 (.bare 0), .push 2 (.bare 1), .readOrdered 3 none, .push 802 (.bare 5),
        .readOrdered 802 none] := by
  intro hpatient
  obtain ⟨τ, frame, hbeyond, hτ, hwait⟩ :=
    hpatient [.push 1 (.bare 0), .push 2 (.bare 1), .readOrdered 3 none, .push 802 (.bare 5)]
      (.readOrdered 802 none) [] rfl 2 (by constructor <;> decide)
  obtain ⟨before, op, after, hops, hpush, -⟩ := hwait
  have hop : op ∈ [BufferOp.push 1 (.bare 0), .push 2 (.bare 1), .readOrdered 3 none,
      .push 802 (.bare 5)] := by
    rw [hops]
    simp
  -- the only frame beyond 2 came at 802
  rcases hpush with rfl | ⟨rfl, -⟩
  · simp only [mem_cons, BufferOp.push.injEq, reduceCtorEq, not_mem_nil, or_false,
      false_or] at hop
    rcases hop with ⟨-, rfl⟩ | ⟨-, rfl⟩ | ⟨rfl, -⟩
    · exact absurd hbeyond (by decide)
    · exact absurd hbeyond (by decide)
    · exact absurd hτ (by decide)
  · simp at hop

end BufferRun

end BigRocket.Bonding
