/-
A reorder buffer that is fed the frames of ONE stream: a frame is `Genuine` when
it carries payload number `i` under sequence `i`.
-/
import BigRocket.Bonding.SkipTheorems

namespace BigRocket.Bonding

open Lib List

def Genuine (sent : List (List UInt8)) (f : Frame) : Prop :=
  ∃ i : Nat, f.seq = i ∧ sent[i]? = some f.payload

def BufferOp.frame? : BufferOp → Option Frame
  | .push _ frame => some frame
  | .readOrdered _ recovered => recovered

def Carries (sent : List (List UInt8)) (ops : List BufferOp) : Prop :=
  ∀ op ∈ ops, ∀ f ∈ op.frame?, Genuine sent f

theorem Genuine.lt {sent : List (List UInt8)} {f : Frame} (h : Genuine sent f) :
    f.seq < sent.length := by
  obtain ⟨i, hseq, hi⟩ := h
  have := (List.getElem?_eq_some_iff.mp hi).1
  omega

namespace BufferRun

open WindowedReorderBuffer

variable {p : ReorderParams} {sent : List (List UInt8)} {ops : List BufferOp}

/-! ## Only frames of the stream -/

structure StreamInv (sent : List (List UInt8)) (b : WindowedReorderBuffer)
    (delivered : List Frame) : Prop where
  buffered : ∀ k f, b.buffered.lookup k = some f → Genuine sent f
  delivered : ∀ f ∈ delivered, Genuine sent f
  within : b.expectedSequence ≤ sent.length

variable {k : Int} {b : WindowedReorderBuffer} {recovered : Option Frame} {out : List Frame}

theorem StreamInv.push (h : StreamInv sent b out) (now : Int) {frame : Frame}
    (hframe : Genuine sent frame) :
    StreamInv sent (b.push p now frame) out where
  buffered := by
    intro k f hf
    rcases lookup_push p now frame b hf with hf | ⟨-, rfl, -⟩
    · exact h.buffered k f hf
    · exact hframe
  delivered := h.delivered
  within := by simpa using h.within

theorem StreamInv.checkTimeout (h : StreamInv sent b out) (hwin : InWindow p b) (now : Int)
    (hrec : ∀ f ∈ recovered, Genuine sent f) :
    StreamInv sent (b.checkTimeout p now recovered) out := by
  have hbuffered : ∀ k f, (b.checkTimeout p now recovered).buffered.lookup k = some f →
      Genuine sent f := by
    intro k f hf
    rw [checkTimeout_buffered] at hf
    rcases lookup_checkSoftTimeout hf with hf | ⟨-, hf, -⟩
    · exact h.buffered k f hf
    · exact hrec f hf
  refine ⟨hbuffered, h.delivered, ?_⟩
  have hwin' := hwin.checkTimeout now recovered
  unfold WindowedReorderBuffer.checkTimeout at hbuffered hwin' ⊢
  split
  · next hdue =>
      rw [if_pos hdue] at hbuffered hwin'
      rcases giveUpGap_cases (b.checkSoftTimeout p now recovered) with
        ⟨next, hmem, -, -, hexp, -⟩ | ⟨-, hexp, -⟩
      · obtain ⟨f, hf⟩ := Option.isSome_iff_exists.mp (AList.lookup_isSome.mpr hmem)
        rw [giveUpGap_buffered] at hbuffered
        have hseq := hwin'.ofSeq next f (by rw [giveUpGap_buffered]; exact hf)
        have hlt := (hbuffered next f hf).lt
        rw [hexp]
        omega
      · rw [hexp]
        simpa using h.within
  · simpa using h.within

theorem StreamInv.drain (h : StreamInv sent b out) (hwin : InWindow p b) (fuel : Nat) :
    StreamInv sent (b.drain fuel).1 (out ++ (b.drain fuel).2) := by
  have hloop := drain_induction (P := fun b out => InWindow p b ∧ StreamInv sent b out)
    (by
      rintro b out head ⟨hwin, h⟩ hhead
      have hgenuine := h.buffered _ _ hhead
      have hseq := hwin.ofSeq _ _ hhead
      refine ⟨hwin.advance, ?_, ?_, ?_⟩
      · intro k f hf
        by_cases hk : k = b.expectedSequence
        · subst hk
          rw [advance, AList.lookup_erase] at hf
          cases hf
        · rw [advance, AList.lookup_erase_ne hk] at hf
          exact h.buffered k f hf
      · intro f hf
        rcases mem_append.mp hf with hf | hf
        · exact h.delivered f hf
        · rw [mem_singleton] at hf
          rw [hf]
          exact hgenuine
      · have hlt := hgenuine.lt
        simp only [advance]
        omega)
    fuel b out ⟨hwin, h⟩
  exact hloop.2

theorem run_streamInv (hcarries : Carries sent ops) :
    StreamInv sent (run p 0 ops).buffer (run p 0 ops).delivered := by
  induction ops using List.reverseRecOn with
  | nil =>
    refine ⟨?_, ?_, ?_⟩
    · intro k f hf
      cases hf
    · simp [create]
    · simp [create, WindowedReorderBuffer.create]
  | append_singleton ops op ih =>
    have hprev := ih (fun o ho => hcarries o (by simp [ho]))
    have hlast := hcarries op (by simp)
    have hwin := run_inWindow p 0 ops
    rw [run_concat]
    cases op with
    | push now frame => exact hprev.push now (hlast frame rfl)
    | readOrdered now recovered =>
      exact (hprev.checkTimeout hwin now hlast).drain (hwin.checkTimeout now recovered) _

theorem run_stream_log (p : ReorderParams) (hcarries : Carries sent ops) :
    ∃ log : InOrderLog Frame.seq 0,
      Records log (run p 0 ops).buffer (run p 0 ops).delivered ∧
      log.outcomes.length ≤ sent.length ∧
      ∀ (i : Nat) (f : Frame), log.outcomes[i]? = some (some f) → sent[i]? = some f.payload := by
  obtain ⟨log, hrec⟩ := run_records p 0 ops
  have hinv : StreamInv sent (run p 0 ops).buffer (run p 0 ops).delivered := run_streamInv hcarries
  refine ⟨log, hrec, ?_, ?_⟩
  · have hnext : log.next = 0 + log.outcomes.length := rfl
    have := hinv.within
    rw [hrec.next] at hnext
    omega
  · intro i f hf
    have hmem : f ∈ (run p 0 ops).delivered := by
      rw [← hrec.output, InOrderLog.delivered, reduceOption_mem_iff]
      exact mem_of_getElem? hf
    obtain ⟨j, hseq, hj⟩ := hinv.delivered f hmem
    have hi := log.inOrder i f hf
    have hij : j = i := by omega
    rw [← hij]
    exact hj

theorem run_delivered_sublist (p : ReorderParams) (hcarries : Carries sent ops) :
    ((run p 0 ops).delivered.map Frame.payload).Sublist sent := by
  obtain ⟨log, hrec, hlen, hsent⟩ := run_stream_log p hcarries
  rw [← hrec.output]
  exact log.delivered_map_sublist Frame.payload sent hlen hsent

theorem run_delivered_eq_iff (p : ReorderParams) (hcarries : Carries sent ops) :
    (run p 0 ops).delivered.map Frame.payload = sent ↔
      (run p 0 ops).buffer.permanentlyLostCount = 0 ∧
        (run p 0 ops).buffer.expectedSequence = sent.length := by
  obtain ⟨log, hrec, hlen, hsent⟩ := run_stream_log p hcarries
  rw [← hrec.output, log.delivered_map_eq_iff Frame.payload sent hlen hsent, ← hrec.lost,
    ← hrec.next, zero_add]
  norm_cast

/-! ## Every arrival counts -/

def Arrived (ops : List BufferOp) (k : Int) : Prop :=
  ∃ now frame, .push now frame ∈ ops ∧ frame.seq = k

def FirstInWindow (p : ReorderParams) (ops : List BufferOp) : BufferOp → Prop
  | .push _ frame =>
    ¬ Arrived ops frame.seq →
      frame.seq < (run p 0 ops).buffer.expectedSequence + p.windowSize
  | .readOrdered _ _ => True

theorem Arrived.concat (h : Arrived ops k) (op : BufferOp) : Arrived (ops ++ [op]) k := by
  obtain ⟨now, frame, hmem, hseq⟩ := h
  exact ⟨now, frame, by simp [hmem], hseq⟩

theorem arrived_concat {op : BufferOp} (h : Arrived (ops ++ [op]) k) :
    Arrived ops k ∨ ∃ now frame, op = .push now frame ∧ frame.seq = k := by
  obtain ⟨now, frame, hmem, hseq⟩ := h
  rcases mem_append.mp hmem with hmem | hmem
  · exact Or.inl ⟨now, frame, hmem, hseq⟩
  · rw [mem_singleton] at hmem
    exact Or.inr ⟨now, frame, hmem.symm, hseq⟩

theorem run_arrived (hwindow : AlongRun (FirstInWindow p) ops) (h : Arrived ops k) :
    k ∈ (run p 0 ops).buffer.buffered ∨ k < (run p 0 ops).buffer.expectedSequence := by
  induction ops using List.reverseRecOn generalizing k with
  | nil =>
    obtain ⟨now, frame, hmem, -⟩ := h
    cases hmem
  | append_singleton ops op ih =>
    obtain ⟨hbefore, hfirst⟩ := alongRun_concat.mp hwindow
    have hkeeps : ∀ k, Arrived ops k → k ∈ (run p 0 (ops ++ [op])).buffer.buffered ∨
        k < (run p 0 (ops ++ [op])).buffer.expectedSequence := by
      intro k hk
      rw [run_concat]
      rcases ih hbefore hk with hin | hpassed
      · exact mem_step _ op hin
      · exact Or.inr (lt_of_lt_of_le hpassed (expectedSequence_le_step _ op))
    by_cases hold : Arrived ops k
    · exact hkeeps k hold
    · rcases arrived_concat h with h | ⟨now, frame, rfl, rfl⟩
      · exact absurd h hold
      · have hupper := hfirst hold
        simp only [run_concat, step, push_expectedSequence]
        by_cases hlow : (run p 0 ops).buffer.expectedSequence ≤ frame.seq
        · left
          exact (mem_push p now frame _ frame.seq).mpr (Or.inr ⟨rfl, hlow, hupper⟩)
        · exact Or.inr (by omega)

theorem run_reaches_end {now : Int}
    (hcarries : Carries sent (ops ++ [.readOrdered now recovered]))
    (hwindow : AlongRun (FirstInWindow p) (ops ++ [.readOrdered now recovered]))
    (hall : ∀ i : Nat, i < sent.length → Arrived ops i) :
    (run p 0 (ops ++ [.readOrdered now recovered])).buffer.expectedSequence = sent.length := by
  have hinv : StreamInv sent (run p 0 (ops ++ [.readOrdered now recovered])).buffer _ :=
    run_streamInv hcarries
  obtain ⟨log, hrec⟩ := run_records p 0 (ops ++ [.readOrdered now recovered])
  have hnonneg : (run p 0 (ops ++ [.readOrdered now recovered])).buffer.expectedSequence =
      0 + log.outcomes.length := hrec.next.symm
  have hle := hinv.within
  by_contra hne
  have hlt : log.outcomes.length < sent.length := by omega
  -- the expected frame itself has arrived, so it is buffered, but a poll took the head
  have harrived := (hall log.outcomes.length hlt).concat (.readOrdered now recovered)
  rcases run_arrived hwindow harrived with hin | hpassed
  · have hstuck := readOrdered_stuck p now (run p 0 ops).buffer recovered
    rw [AList.lookup_eq_none] at hstuck
    apply hstuck
    simp only [run_concat, step] at hin hnonneg
    rw [hnonneg, zero_add]
    exact hin
  · omega

/-! ## Losses are skips -/

def NoSkip (p : ReorderParams) (ops : List BufferOp) : BufferOp → Prop
  | .push _ _ => True
  | .readOrdered now recovered => ∀ s, ¬ Skips p now recovered (run p 0 ops).buffer s

theorem drain_permanentlyLostCount (b : WindowedReorderBuffer) (fuel : Nat) :
    (b.drain fuel).1.permanentlyLostCount = b.permanentlyLostCount :=
  drain_induction (P := fun b' _ => b'.permanentlyLostCount = b.permanentlyLostCount)
    (fun _ _ _ hb _ => hb) fuel b [] rfl

theorem checkTimeout_permanentlyLostCount (b : WindowedReorderBuffer) (now : Int)
    (recovered : Option Frame) :
    (b.checkTimeout p now recovered).permanentlyLostCount =
      b.permanentlyLostCount +
        ((b.checkTimeout p now recovered).expectedSequence - b.expectedSequence) := by
  unfold WindowedReorderBuffer.checkTimeout
  split
  · rcases giveUpGap_cases (b.checkSoftTimeout p now recovered) with
      ⟨next, -, -, -, hexp, hlost⟩ | ⟨-, hexp, hlost⟩
    · rw [hexp, hlost]
      simp
    · rw [hexp, hlost]
      simp
  · simp

theorem run_lost_nonneg (p : ReorderParams) (ops : List BufferOp) :
    0 ≤ (run p 0 ops).buffer.permanentlyLostCount := by
  obtain ⟨log, hrec⟩ := run_records p 0 ops
  rw [← hrec.lost]
  omega

theorem run_lost_eq_zero_iff (p : ReorderParams) (ops : List BufferOp) :
    (run p 0 ops).buffer.permanentlyLostCount = 0 ↔ AlongRun (NoSkip p) ops := by
  induction ops using List.reverseRecOn with
  | nil => simp [create, WindowedReorderBuffer.create]
  | append_singleton ops op ih =>
    rw [alongRun_concat, ← ih, run_concat]
    cases op with
    | push now frame => simp [step, NoSkip]
    | readOrdered now recovered =>
      have hnonneg := run_lost_nonneg p ops
      have hgrow : (run p 0 ops).buffer.expectedSequence ≤
          ((run p 0 ops).buffer.checkTimeout p now recovered).expectedSequence :=
        expectedSequence_le_checkTimeout
      have hcount := checkTimeout_permanentlyLostCount (p := p) (run p 0 ops).buffer now recovered
      have hstep : (step p (run p 0 ops) (.readOrdered now recovered)).buffer.permanentlyLostCount
          = ((run p 0 ops).buffer.checkTimeout p now recovered).permanentlyLostCount :=
        drain_permanentlyLostCount _ _
      constructor
      · intro hzero
        refine ⟨by omega, ?_⟩
        rintro s ⟨hlow, hhigh⟩
        omega
      · intro hboth
        obtain ⟨hzero, hnoskip⟩ := hboth
        have hsame := hnoskip (run p 0 ops).buffer.expectedSequence
        simp only [Skips, le_refl, true_and, not_lt] at hsame
        omega

theorem skips_of_expired {now : Int} (hwin : InWindow p b) (hdue : hardTimeoutDue p now b = true)
    (hopen : GapOpen p now recovered b) : Skips p now recovered b b.expectedSequence := by
  refine ⟨le_rfl, ?_⟩
  obtain ⟨hmissing, hsome⟩ := hopen
  have hwin' := hwin.checkSoftTimeout now recovered
  unfold WindowedReorderBuffer.checkTimeout
  rw [if_pos hdue]
  rcases giveUpGap_cases (b.checkSoftTimeout p now recovered) with
    ⟨next, hmem, hle, -, hexp, -⟩ | ⟨hbelow, -, -⟩
  · rw [checkSoftTimeout_expectedSequence] at hle
    have hne : next ≠ b.expectedSequence := by
      rintro rfl
      exact hmissing hmem
    omega
  · obtain ⟨k, hk⟩ := exists_mem_of_ne_nil _ hsome
    have := hwin'.lower k hk
    have := hbelow k hk
    omega

/-- Every gap is closed in time: a sequence that arrives for the first time
after a later one arrives within `hardTimeoutMs` of it. -/
def GapsClose (p : ReorderParams) (ops : List BufferOp) : Prop :=
  ∀ before t₂ late after, ops = before ++ .push t₂ late :: after →
    ¬ Arrived before late.seq →
    ∀ t₁ early, .push t₁ early ∈ before → late.seq < early.seq → t₂ < t₁ + p.hardTimeoutMs

theorem Arrived.first (h : Arrived ops k) :
    ∃ before now frame after, ops = before ++ .push now frame :: after ∧ frame.seq = k ∧
      ¬ Arrived before k := by
  induction ops using List.reverseRecOn with
  | nil =>
    obtain ⟨now, frame, hmem, -⟩ := h
    cases hmem
  | append_singleton ops op ih =>
    by_cases hold : Arrived ops k
    · obtain ⟨before, now, frame, after, rfl, hseq, hfirst⟩ := ih hold
      exact ⟨before, now, frame, after ++ [op], by simp, hseq, hfirst⟩
    · rcases arrived_concat h with h | ⟨now, frame, rfl, hseq⟩
      · exact absurd h hold
      · exact ⟨ops, now, frame, [], rfl, hseq, hold⟩

theorem Arrived.after_read {now : Int} {before after : List BufferOp}
    (h : Arrived (before ++ .readOrdered now recovered :: after) k) (hnot : ¬ Arrived before k) :
    ∃ between t late rest,
      before ++ .readOrdered now recovered :: after =
        (before ++ .readOrdered now recovered :: between) ++ .push t late :: rest ∧
      late.seq = k ∧ ¬ Arrived (before ++ .readOrdered now recovered :: between) k := by
  obtain ⟨front, t, late, rest, hsplit, hseq, hfirst⟩ := h.first
  rcases append_eq_append_iff.mp hsplit with ⟨c, rfl, hc⟩ | ⟨c, rfl, hc⟩
  · cases c with
    | nil => simp at hc
    | cons op between =>
      obtain ⟨rfl, -⟩ : .readOrdered now recovered = op ∧ after = between ++ .push t late :: rest := by
        simpa using hc
      exact ⟨between, t, late, rest, by simpa using hsplit, hseq, hfirst⟩
  · cases c with
    | nil => simp at hc
    | cons op between =>
      obtain ⟨rfl, -⟩ : .push t late = op ∧ rest = between ++ .readOrdered now recovered :: after := by
        simpa using hc
      exact absurd ⟨t, late, by simp, hseq⟩ hnot

theorem noSkip_of_timerFresh (hclock : Chronological ops) (hcarries : Carries sent ops)
    (hwindow : AlongRun (FirstInWindow p) ops) (hgaps : GapsClose p ops)
    (hall : ∀ i : Nat, i < sent.length → Arrived ops i)
    (hfresh : AlongRun (TimerFresh p 0) ops) : AlongRun (NoSkip p) ops := by
  intro before op after hops
  subst hops
  cases op with
  | push now frame => trivial
  | readOrdered now recovered =>
    intro s hskip
    have hwin := run_inWindow p 0 before
    have hbefore : AlongRun (FirstInWindow p) before :=
      hwindow.initial (prefix_append _ _)
    have hpast : Chronological before := hclock.of_append
    obtain ⟨hdue, hopen, hbeyond⟩ := hskip.cause hwin
    obtain ⟨harmed, hexpired⟩ := (hardTimeoutDue_iff p now _).mp hdue
    obtain ⟨frame, hframe, hpush, -⟩ := run_armedInv before hpast harmed
    have hsbelow : s < frame.seq :=
      hbeyond _ (mem_checkSoftTimeout (hfresh before _ after rfl hdue hopen frame hframe))
    -- the skipped sequence is one of the stream, and has not arrived yet
    have hframelt : frame.seq < sent.length :=
      (hcarries _ (mem_append_left _ hpush) frame rfl).lt
    obtain ⟨log, hrec⟩ := run_records p 0 before
    have hnonneg : (run p 0 before).buffer.expectedSequence = 0 + log.outcomes.length :=
      hrec.next.symm
    have hslow := hskip.1
    have hs : Arrived (before ++ .readOrdered now recovered :: after) s := by
      have := hall s.toNat (by omega)
      rwa [Int.toNat_of_nonneg (by omega)] at this
    have hnot : ¬ Arrived before s := by
      intro harrived
      rcases run_arrived hbefore harrived with hin | hpassed
      · exact absurd (hbeyond s (mem_checkSoftTimeout hin)) (lt_irrefl s)
      · omega
    obtain ⟨between, t, late, rest, hsplit, rfl, hfirst⟩ := hs.after_read hnot
    have hclose := hgaps _ t late rest hsplit hfirst _ frame (mem_append_left _ hpush) hsbelow
    have hlater : now ≤ t := by
      rw [hsplit] at hclock
      unfold Chronological at hclock
      rw [map_append, pairwise_append] at hclock
      exact hclock.2.2 now (by simp [BufferOp.time]) t (by simp [BufferOp.time])
    omega

theorem timerFresh_of_noSkip (h : AlongRun (NoSkip p) ops) : AlongRun (TimerFresh p 0) ops := by
  refine h.mono ?_
  intro before op hnoskip
  cases op with
  | push now frame => trivial
  | readOrdered now recovered =>
    intro hdue hopen
    exact absurd (skips_of_expired (run_inWindow p 0 before) hdue hopen) (hnoskip _)

/-! ## Byte streams -/

theorem eq_of_sublist_of_flatten_eq {xs ys : List (List UInt8)} (hsub : xs.Sublist ys)
    (hnonempty : ∀ y ∈ ys, y ≠ []) (hflat : xs.flatten = ys.flatten) : xs = ys := by
  have hlength : xs.flatten.length = ys.flatten.length := by rw [hflat]
  clear hflat
  induction hsub with
  | slnil => rfl
  | @cons xs ys y hsub ih =>
    have hle : xs.flatten.length ≤ ys.flatten.length := hsub.flatten.length_le
    have hpos : 0 < y.length := length_pos_iff.mpr (hnonempty y (by simp))
    simp only [flatten_cons, length_append] at hlength
    omega
  | @cons_cons xs ys y hsub ih =>
    simp only [flatten_cons, length_append] at hlength
    rw [ih (fun z hz => hnonempty z (by simp [hz])) (by omega)]

end BufferRun

end BigRocket.Bonding
