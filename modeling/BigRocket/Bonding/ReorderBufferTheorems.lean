/-
`WindowedReorderBuffer` delivers in order, within its window, and accounts for
every sequence it passes. `Records` is the refinement of the log.
-/
import BigRocket.Lib.InOrder
import BigRocket.Bonding.ReorderBuffer

namespace BigRocket.Bonding

open Lib List

/-! ## The sorted map -/

namespace FrameMap

variable (m : FrameMap) {key : Int}

theorem mem_putIfAbsent (key k : Int) (frame : Frame) :
    k ∈ putIfAbsent m key frame ↔ k = key ∨ k ∈ m := by
  unfold putIfAbsent
  cases hlook : m.lookup key with
  | none => exact AList.mem_insert m
  | some old =>
    have hmem : key ∈ m := AList.lookup_isSome.mp (by rw [hlook]; rfl)
    constructor
    · intro hk
      exact Or.inr hk
    · rintro (rfl | hk)
      · exact hmem
      · exact hk

theorem lookup_putIfAbsent_ne {k : Int} (frame : Frame) (hne : k ≠ key) :
    (putIfAbsent m key frame).lookup k = m.lookup k := by
  unfold putIfAbsent
  cases m.lookup key with
  | none => exact AList.lookup_insert_ne hne
  | some old => rfl

theorem lookup_putIfAbsent_self (key : Int) (frame : Frame) :
    (putIfAbsent m key frame).lookup key = some ((m.lookup key).getD frame) := by
  unfold putIfAbsent
  cases hlook : m.lookup key with
  | none => exact AList.lookup_insert m
  | some old => simpa using hlook

theorem ceilingKey_eq_some {m : FrameMap} {n : Int} :
    ceilingKey m key = some n ↔ n ∈ m ∧ key ≤ n ∧ ∀ k ∈ m, key ≤ k → n ≤ k := by
  unfold ceilingKey
  rw [min?_eq_some_iff]
  simp only [mem_filter, decide_eq_true_eq, ← AList.mem_keys, and_imp, and_assoc]

theorem ceilingKey_eq_none {m : FrameMap} : ceilingKey m key = none ↔ ∀ k ∈ m, k < key := by
  unfold ceilingKey
  rw [min?_eq_none_iff, filter_eq_nil_iff]
  simp only [decide_eq_true_eq, ← AList.mem_keys, not_le]

end FrameMap

namespace WindowedReorderBuffer

variable (p : ReorderParams) (now : Int) (frame : Frame) (b : WindowedReorderBuffer)

/-! ## What `push` changes -/

def Accepts (frame : Frame) : Prop :=
  b.expectedSequence ≤ frame.seq ∧ frame.seq < b.expectedSequence + p.windowSize

instance : Decidable (Accepts p b frame) :=
  inferInstanceAs (Decidable (_ ∧ _))

/-- A refused frame is only counted; an accepted one is stored, and clears
or arms the timer. -/
theorem push_cases :
    (¬ Accepts p b frame ∧
      ∃ old far, b.push p now frame =
        { b with droppedTooOldCount := old, droppedTooFarAheadCount := far }) ∨
    (Accepts p b frame ∧ frame.seq = b.expectedSequence ∧
      b.push p now frame =
        { b with
          buffered := b.buffered.insert frame.seq frame
          gapFirstObservedAtMs := 0
          softTimeoutFired := false }) ∨
    (Accepts p b frame ∧ frame.seq ≠ b.expectedSequence ∧
      b.push p now frame =
        { b with
          buffered := FrameMap.putIfAbsent b.buffered frame.seq frame
          gapFirstObservedAtMs :=
            if b.gapFirstObservedAtMs = 0 then now else b.gapFirstObservedAtMs }) := by
  unfold push Accepts
  by_cases hold : frame.seq < b.expectedSequence
  · rw [if_pos hold]
    exact Or.inl ⟨by omega, _, _, rfl⟩
  · rw [if_neg hold]
    by_cases hfar : frame.seq ≥ b.expectedSequence + p.windowSize
    · rw [if_pos hfar]
      exact Or.inl ⟨by omega, _, _, rfl⟩
    · rw [if_neg hfar]
      by_cases hseq : frame.seq = b.expectedSequence
      · rw [if_pos hseq]
        exact Or.inr (Or.inl ⟨by omega, hseq, rfl⟩)
      · rw [if_neg hseq]
        exact Or.inr (Or.inr ⟨by omega, hseq, rfl⟩)

@[simp] theorem push_expectedSequence :
    (b.push p now frame).expectedSequence = b.expectedSequence := by
  rcases push_cases p now frame b with ⟨-, _, _, h⟩ | ⟨-, -, h⟩ | ⟨-, -, h⟩ <;> rw [h]

@[simp] theorem push_permanentlyLostCount :
    (b.push p now frame).permanentlyLostCount = b.permanentlyLostCount := by
  rcases push_cases p now frame b with ⟨-, _, _, h⟩ | ⟨-, -, h⟩ | ⟨-, -, h⟩ <;> rw [h]

theorem push_buffered :
    (b.push p now frame).buffered =
      if Accepts p b frame then
        if frame.seq = b.expectedSequence then b.buffered.insert frame.seq frame
        else FrameMap.putIfAbsent b.buffered frame.seq frame
      else b.buffered := by
  rcases push_cases p now frame b with ⟨hacc, _, _, h⟩ | ⟨hacc, hseq, h⟩ | ⟨hacc, hseq, h⟩
  · rw [h, if_neg hacc]
  · rw [h, if_pos hacc, if_pos hseq]
  · rw [h, if_pos hacc, if_neg hseq]

theorem push_gapFirstObservedAtMs :
    (b.push p now frame).gapFirstObservedAtMs =
      if Accepts p b frame then
        if frame.seq = b.expectedSequence then 0
        else if b.gapFirstObservedAtMs = 0 then now else b.gapFirstObservedAtMs
      else b.gapFirstObservedAtMs := by
  rcases push_cases p now frame b with ⟨hacc, _, _, h⟩ | ⟨hacc, hseq, h⟩ | ⟨hacc, hseq, h⟩
  · rw [h, if_neg hacc]
  · rw [h, if_pos hacc, if_pos hseq]
  · rw [h, if_pos hacc, if_neg hseq]

theorem mem_push (k : Int) :
    k ∈ (b.push p now frame).buffered ↔ k ∈ b.buffered ∨ (k = frame.seq ∧ Accepts p b frame) := by
  rw [push_buffered]
  split_ifs with hacc hseq
  · rw [AList.mem_insert]
    tauto
  · rw [FrameMap.mem_putIfAbsent]
    tauto
  · tauto

variable (recovered : Option Frame) {k : Int}

theorem lookup_push_ne (hne : k ≠ frame.seq) :
    (b.push p now frame).buffered.lookup k = b.buffered.lookup k := by
  rw [push_buffered]
  split_ifs
  · exact AList.lookup_insert_ne hne
  · exact FrameMap.lookup_putIfAbsent_ne b.buffered frame hne
  · rfl

theorem lookup_push {f : Frame} (h : (b.push p now frame).buffered.lookup k = some f) :
    b.buffered.lookup k = some f ∨ (k = frame.seq ∧ f = frame ∧ Accepts p b frame) := by
  by_cases hk : k = frame.seq
  · subst hk
    rw [push_buffered] at h
    split_ifs at h with hacc hseq
    · rw [AList.lookup_insert] at h
      cases h
      exact Or.inr ⟨rfl, rfl, hacc⟩
    · rw [FrameMap.lookup_putIfAbsent_self] at h
      cases hold : b.buffered.lookup frame.seq with
      | none =>
        rw [hold] at h
        cases h
        exact Or.inr ⟨rfl, rfl, hacc⟩
      | some old =>
        rw [hold] at h
        exact Or.inl h
    · exact Or.inl h
  · rw [lookup_push_ne p now frame b hk] at h
    exact Or.inl h

theorem lookup_push_of_ahead {f : Frame} (h : b.buffered.lookup k = some f)
    (hk : k ≠ b.expectedSequence) : (b.push p now frame).buffered.lookup k = some f := by
  by_cases hseq : k = frame.seq
  · subst hseq
    rw [push_buffered]
    split_ifs
    · rw [FrameMap.lookup_putIfAbsent_self, h]
      rfl
    · exact h
  · rw [lookup_push_ne p now frame b hseq]
    exact h

/-! ## What the two timeout checks change -/

theorem checkSoftTimeout_cases :
    checkSoftTimeout p now recovered b = b ∨
    checkSoftTimeout p now recovered b = { b with softTimeoutFired := true } ∨
    ∃ frame, recovered = some frame ∧ softTimeoutDue p now b = true ∧
      checkSoftTimeout p now recovered b =
        push p now frame { b with softTimeoutFired := true } := by
  unfold checkSoftTimeout fireSoftTimeout
  by_cases hdue : softTimeoutDue p now b = true
  · rw [if_pos hdue]
    cases recovered with
    | none => exact Or.inr (Or.inl rfl)
    | some frame => exact Or.inr (Or.inr ⟨frame, rfl, hdue, rfl⟩)
  · rw [if_neg hdue]
    exact Or.inl rfl

@[simp] theorem checkSoftTimeout_expectedSequence :
    (checkSoftTimeout p now recovered b).expectedSequence = b.expectedSequence := by
  rcases checkSoftTimeout_cases p now b recovered with h | h | ⟨frame, -, -, h⟩ <;> rw [h]
  exact push_expectedSequence p now frame _

@[simp] theorem checkSoftTimeout_permanentlyLostCount :
    (checkSoftTimeout p now recovered b).permanentlyLostCount = b.permanentlyLostCount := by
  rcases checkSoftTimeout_cases p now b recovered with h | h | ⟨frame, -, -, h⟩ <;> rw [h]
  exact push_permanentlyLostCount p now frame _

@[simp] theorem giveUpGap_buffered : (giveUpGap b).buffered = b.buffered := by
  unfold giveUpGap
  cases FrameMap.ceilingKey b.buffered b.expectedSequence <;> rfl

@[simp] theorem giveUpGap_gapFirstObservedAtMs : (giveUpGap b).gapFirstObservedAtMs = 0 := rfl

theorem giveUpGap_cases :
    (∃ next, next ∈ b.buffered ∧ b.expectedSequence ≤ next ∧
      (∀ k ∈ b.buffered, b.expectedSequence ≤ k → next ≤ k) ∧
      (giveUpGap b).expectedSequence = next ∧
      (giveUpGap b).permanentlyLostCount =
        b.permanentlyLostCount + (next - b.expectedSequence)) ∨
    ((∀ k ∈ b.buffered, k < b.expectedSequence) ∧
      (giveUpGap b).expectedSequence = b.expectedSequence ∧
      (giveUpGap b).permanentlyLostCount = b.permanentlyLostCount) := by
  unfold giveUpGap
  cases hceil : FrameMap.ceilingKey b.buffered b.expectedSequence with
  | none => exact Or.inr ⟨FrameMap.ceilingKey_eq_none.mp hceil, rfl, rfl⟩
  | some next =>
    obtain ⟨hmem, hle, hleast⟩ := FrameMap.ceilingKey_eq_some.mp hceil
    exact Or.inl ⟨next, hmem, hle, hleast, rfl, rfl⟩

/-! ## The delivery loop -/

section Drain

variable {b}

theorem drain_none (fuel : Nat) (h : b.buffered.lookup b.expectedSequence = none) :
    drain fuel b = (b, []) := by
  cases fuel with
  | zero => rfl
  | succ fuel => simp only [drain, h]

theorem drain_some (fuel : Nat) {head : Frame}
    (h : b.buffered.lookup b.expectedSequence = some head) :
    drain (fuel + 1) b = ((drain fuel b.advance).1, head :: (drain fuel b.advance).2) := by
  simp only [drain, h]

theorem drain_induction {P : WindowedReorderBuffer → List Frame → Prop}
    (hturn : ∀ b out head, P b out → b.buffered.lookup b.expectedSequence = some head →
      P b.advance (out ++ [head])) :
    ∀ (fuel : Nat) (b : WindowedReorderBuffer) (out : List Frame), P b out →
      P (drain fuel b).1 (out ++ (drain fuel b).2)
  | 0, b, out, hP => by simpa [drain] using hP
  | fuel + 1, b, out, hP => by
      cases hhead : b.buffered.lookup b.expectedSequence with
      | none =>
        rw [drain_none (fuel + 1) hhead]
        simpa using hP
      | some head =>
        rw [drain_some fuel hhead]
        have hnext := drain_induction hturn fuel b.advance (out ++ [head])
          (hturn b out head hP hhead)
        simpa using hnext

theorem drain_stuck : ∀ (fuel : Nat) (b : WindowedReorderBuffer), b.buffered.keys.length ≤ fuel →
    (drain fuel b).1.buffered.lookup (drain fuel b).1.expectedSequence = none
  | 0, b, hfuel => by
      have hkeys : b.buffered.keys = [] := eq_nil_of_length_eq_zero (by omega)
      rw [drain, AList.lookup_eq_none, AList.mem_keys, hkeys]
      exact not_mem_nil
  | fuel + 1, b, hfuel => by
      cases hhead : b.buffered.lookup b.expectedSequence with
      | none =>
        rw [drain_none (fuel + 1) hhead]
        exact hhead
      | some head =>
        rw [drain_some fuel hhead]
        apply drain_stuck fuel b.advance
        have hmem : b.expectedSequence ∈ b.buffered.keys :=
          AList.mem_keys.mp (AList.lookup_isSome.mp (by rw [hhead]; rfl))
        have herase : b.advance.buffered.keys = b.buffered.keys.erase b.expectedSequence :=
          AList.keys_erase b.expectedSequence b.buffered
        rw [herase, length_erase_of_mem hmem]
        omega

theorem drain_ne_nil {head : Frame} (h : b.buffered.lookup b.expectedSequence = some head) :
    (drain b.buffered.keys.length b).2 ≠ [] := by
  have hmem : b.expectedSequence ∈ b.buffered.keys :=
    AList.mem_keys.mp (AList.lookup_isSome.mp (by rw [h]; rfl))
  cases hlen : b.buffered.keys.length with
  | zero =>
    rw [eq_nil_of_length_eq_zero hlen] at hmem
    cases hmem
  | succ fuel =>
    rw [drain_some fuel h]
    exact cons_ne_nil _ _

end Drain

/-! ## The window -/

structure InWindow (b : WindowedReorderBuffer) : Prop where
  ofSeq : ∀ k f, b.buffered.lookup k = some f → f.seq = k
  lower : ∀ k ∈ b.buffered, b.expectedSequence ≤ k
  upper : ∀ k ∈ b.buffered, k < b.expectedSequence + p.windowSize

namespace InWindow

variable {p now b}

theorem create (startSequence : Int) : InWindow p (WindowedReorderBuffer.create startSequence) where
  ofSeq := by
    intro k f hf
    cases hf
  lower := by
    intro k hk
    exact absurd hk (AList.notMem_empty k)
  upper := by
    intro k hk
    exact absurd hk (AList.notMem_empty k)

theorem push (h : InWindow p b) (now : Int) (frame : Frame) : InWindow p (b.push p now frame) where
  ofSeq := by
    intro k f hf
    rcases lookup_push p now frame b hf with hf | ⟨rfl, rfl, -⟩
    · exact h.ofSeq k f hf
    · rfl
  lower := by
    intro k hk
    rw [push_expectedSequence]
    rcases (mem_push p now frame b k).mp hk with hk | ⟨rfl, hacc⟩
    · exact h.lower k hk
    · exact hacc.1
  upper := by
    intro k hk
    rw [push_expectedSequence]
    rcases (mem_push p now frame b k).mp hk with hk | ⟨rfl, hacc⟩
    · exact h.upper k hk
    · exact hacc.2

theorem checkSoftTimeout (h : InWindow p b) (now : Int) (recovered : Option Frame) :
    InWindow p (b.checkSoftTimeout p now recovered) := by
  have hfired : InWindow p { b with softTimeoutFired := true } := ⟨h.ofSeq, h.lower, h.upper⟩
  rcases checkSoftTimeout_cases p now b recovered with he | he | ⟨frame, -, -, he⟩ <;> rw [he]
  · exact h
  · exact hfired
  · exact hfired.push now frame

theorem giveUpGap (h : InWindow p b) : InWindow p b.giveUpGap := by
  rcases giveUpGap_cases b with ⟨next, hmem, hle, hleast, hexp, -⟩ | ⟨hbelow, hexp, -⟩
  · refine ⟨?_, ?_, ?_⟩
    · rw [giveUpGap_buffered]
      exact h.ofSeq
    · intro k hk
      rw [giveUpGap_buffered] at hk
      rw [hexp]
      exact hleast k hk (h.lower k hk)
    · intro k hk
      rw [giveUpGap_buffered] at hk
      have := h.upper k hk
      omega
  · refine ⟨?_, ?_, ?_⟩
    · rw [giveUpGap_buffered]
      exact h.ofSeq
    · rw [giveUpGap_buffered, hexp]
      exact h.lower
    · rw [giveUpGap_buffered, hexp]
      exact h.upper

theorem checkTimeout (h : InWindow p b) (now : Int) (recovered : Option Frame) :
    InWindow p (b.checkTimeout p now recovered) := by
  have hsoft := h.checkSoftTimeout now recovered
  unfold WindowedReorderBuffer.checkTimeout
  by_cases hdue : hardTimeoutDue p now b = true
  · rw [if_pos hdue]
    exact hsoft.giveUpGap
  · rw [if_neg hdue]
    exact hsoft

theorem advance (h : InWindow p b) : InWindow p b.advance where
  ofSeq := by
    intro k f hf
    by_cases hk : k = b.expectedSequence
    · subst hk
      rw [WindowedReorderBuffer.advance, AList.lookup_erase] at hf
      cases hf
    · rw [WindowedReorderBuffer.advance, AList.lookup_erase_ne hk] at hf
      exact h.ofSeq k f hf
  lower := by
    intro k hk
    obtain ⟨hne, hk⟩ := AList.mem_erase.mp hk
    have := h.lower k hk
    simp only [WindowedReorderBuffer.advance]
    omega
  upper := by
    intro k hk
    obtain ⟨hne, hk⟩ := AList.mem_erase.mp hk
    have := h.upper k hk
    simp only [WindowedReorderBuffer.advance]
    omega

theorem drain (h : InWindow p b) (fuel : Nat) : InWindow p (b.drain fuel).1 :=
  drain_induction (P := fun b _ => InWindow p b) (fun _ _ _ hb _ => hb.advance) fuel b [] h

theorem readOrdered (h : InWindow p b) (now : Int) (recovered : Option Frame) :
    InWindow p (b.readOrdered p now recovered).1 :=
  (h.checkTimeout now recovered).drain _

theorem length_le (h : InWindow p b) (hw : 0 ≤ p.windowSize) :
    (b.buffered.keys.length : Int) ≤ p.windowSize := by
  have hsub : b.buffered.keys.toFinset ⊆
      Finset.Ico b.expectedSequence (b.expectedSequence + p.windowSize) := by
    intro k hk
    rw [mem_toFinset, ← AList.mem_keys] at hk
    exact Finset.mem_Ico.mpr ⟨h.lower k hk, h.upper k hk⟩
  have hcard := Finset.card_le_card hsub
  rw [toFinset_card_of_nodup b.buffered.keys_nodup, Int.card_Ico] at hcard
  omega

end InWindow

/-! ## The log -/

/-- The log's history is the buffer's: same position, same output, same
number of sequences given up. -/
structure Records {startSequence : Int} (log : InOrderLog Frame.seq startSequence)
    (b : WindowedReorderBuffer) (delivered : List Frame) : Prop where
  next : log.next = b.expectedSequence
  output : log.delivered = delivered
  lost : (log.lost : Int) = b.permanentlyLostCount

namespace Records

variable {startSequence : Int} {log : InOrderLog Frame.seq startSequence} {delivered : List Frame}
variable {p now b}

theorem create : Records (InOrderLog.empty Frame.seq startSequence)
    (WindowedReorderBuffer.create startSequence) [] where
  next := InOrderLog.next_empty
  output := rfl
  lost := rfl

theorem push (h : Records log b delivered) (now : Int) (frame : Frame) :
    Records log (b.push p now frame) delivered where
  next := by rw [push_expectedSequence, h.next]
  output := h.output
  lost := by rw [push_permanentlyLostCount, h.lost]

theorem checkTimeout (h : Records log b delivered) (now : Int) (recovered : Option Frame) :
    ∃ log' : InOrderLog Frame.seq startSequence,
      Records log' (b.checkTimeout p now recovered) delivered := by
  have hsoft : Records log (b.checkSoftTimeout p now recovered) delivered :=
    ⟨by rw [checkSoftTimeout_expectedSequence, h.next], h.output,
      by rw [checkSoftTimeout_permanentlyLostCount, h.lost]⟩
  unfold WindowedReorderBuffer.checkTimeout
  by_cases hdue : hardTimeoutDue p now b = true
  · rw [if_pos hdue]
    rcases giveUpGap_cases (b.checkSoftTimeout p now recovered) with
      ⟨next, -, hle, -, hexp, hlost⟩ | ⟨-, hexp, hlost⟩
    · -- the jump over `next - expectedSequence` sequences is one `giveUp`
      refine ⟨log.giveUp (next - (b.checkSoftTimeout p now recovered).expectedSequence).toNat,
        ?_, ?_, ?_⟩
      · rw [InOrderLog.next_giveUp, hsoft.next, hexp]
        omega
      · rw [InOrderLog.delivered_giveUp, h.output]
      · rw [InOrderLog.lost_giveUp, hlost, ← hsoft.lost]
        push_cast
        omega
    · exact ⟨log, by rw [hsoft.next, hexp], h.output, by rw [hsoft.lost, hlost]⟩
  · rw [if_neg hdue]
    exact ⟨log, hsoft⟩

theorem drain (h : Records log b delivered) (hwin : InWindow p b) (fuel : Nat) :
    ∃ log' : InOrderLog Frame.seq startSequence,
      Records log' (b.drain fuel).1 (delivered ++ (b.drain fuel).2) := by
  have hloop := drain_induction
    (P := fun b out => InWindow p b ∧
      ∃ log' : InOrderLog Frame.seq startSequence, Records log' b out)
    (by
      rintro b out head ⟨hwin, log', hrec⟩ hhead
      have hseq : head.seq = log'.next := by
        rw [hrec.next]
        exact hwin.ofSeq _ _ hhead
      refine ⟨hwin.advance, log'.deliver head hseq, ?_, ?_, ?_⟩
      · rw [InOrderLog.next_deliver, hrec.next]
        rfl
      · rw [InOrderLog.delivered_deliver, hrec.output]
      · rw [InOrderLog.lost_deliver, hrec.lost]
        rfl)
    fuel b delivered ⟨hwin, log, h⟩
  exact hloop.2

theorem readOrdered (h : Records log b delivered) (hwin : InWindow p b) (now : Int)
    (recovered : Option Frame) :
    ∃ log' : InOrderLog Frame.seq startSequence,
      Records log' (b.readOrdered p now recovered).1
        (delivered ++ (b.readOrdered p now recovered).2) := by
  obtain ⟨log₁, h₁⟩ := h.checkTimeout (p := p) now recovered
  exact h₁.drain (hwin.checkTimeout now recovered) _

end Records

end WindowedReorderBuffer

/-! ## Every run -/

namespace BufferRun

open WindowedReorderBuffer

variable (p : ReorderParams) (startSequence : Int) (ops : List BufferOp)

theorem step_preserves {s : BufferRun} (op : BufferOp) (hwin : InWindow p s.buffer)
    {log : InOrderLog Frame.seq startSequence} (hrec : Records log s.buffer s.delivered) :
    InWindow p (step p s op).buffer ∧
      ∃ log' : InOrderLog Frame.seq startSequence,
        Records log' (step p s op).buffer (step p s op).delivered := by
  cases op with
  | push now frame => exact ⟨hwin.push now frame, log, hrec.push now frame⟩
  | readOrdered now recovered =>
    exact ⟨hwin.readOrdered now recovered, hrec.readOrdered hwin now recovered⟩

theorem run_preserves :
    InWindow p (run p startSequence ops).buffer ∧
      ∃ log : InOrderLog Frame.seq startSequence,
        Records log (run p startSequence ops).buffer (run p startSequence ops).delivered := by
  induction ops using List.reverseRecOn with
  | nil => exact ⟨InWindow.create startSequence, _, Records.create⟩
  | append_singleton ops op ih =>
    obtain ⟨hwin, log, hrec⟩ := ih
    rw [run_concat]
    exact step_preserves p startSequence op hwin hrec

theorem run_inWindow : InWindow p (run p startSequence ops).buffer :=
  (run_preserves p startSequence ops).1

theorem run_records : ∃ log : InOrderLog Frame.seq startSequence,
    Records log (run p startSequence ops).buffer (run p startSequence ops).delivered :=
  (run_preserves p startSequence ops).2

/-- **In order, in the window, all accounted for**, whatever arrives and whenever
it is polled. -/
theorem reorderBuffer_inOrder_window_accounting (hwindow : 1 ≤ p.windowSize) :
    ((run p startSequence ops).delivered.map Frame.seq).Pairwise (· < ·) ∧
    (∀ k ∈ (run p startSequence ops).buffer.buffered.keys,
      (run p startSequence ops).buffer.expectedSequence ≤ k ∧
      k < (run p startSequence ops).buffer.expectedSequence + p.windowSize) ∧
    ((run p startSequence ops).buffer.buffered.keys.length : Int) ≤ p.windowSize ∧
    (run p startSequence ops).buffer.expectedSequence - startSequence =
      (run p startSequence ops).delivered.length +
        (run p startSequence ops).buffer.permanentlyLostCount := by
  have hwin := run_inWindow p startSequence ops
  obtain ⟨log, hrec⟩ := run_records p startSequence ops
  refine ⟨?_, ?_, ?_, ?_⟩
  · rw [← hrec.output]
    exact log.delivered_increasing
  · intro k hk
    exact ⟨hwin.lower k hk, hwin.upper k hk⟩
  · exact hwin.length_le (by omega)
  · rw [← hrec.next, ← hrec.output, ← hrec.lost]
    exact log.next_eq

theorem reorderBuffer_inOrder_window_accounting_four :
    (run ⟨4, 150, 800⟩ 0 [.push 10 (.bare 1), .push 11 (.bare 0), .push 12 (.bare 1),
      .readOrdered 13 none]).delivered = [.bare 0, .bare 1] ∧
    ([Frame.bare 0, .bare 1].map Frame.seq).Pairwise (· < ·) :=
  ⟨by decide,
    (reorderBuffer_inOrder_window_accounting ⟨4, 150, 800⟩ 0
      [.push 10 (.bare 1), .push 11 (.bare 0), .push 12 (.bare 1), .readOrdered 13 none]
      (by decide)).1⟩

end BufferRun

end BigRocket.Bonding
