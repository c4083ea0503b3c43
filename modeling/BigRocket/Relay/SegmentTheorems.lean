/-
How a block read upstream is cut into segments.
-/
import BigRocket.Relay.DownloadTheorems
import BigRocket.Relay.StepTheorems

namespace BigRocket.Relay

open Lib List

structure Segment where
  packet : TunPacket
  windowEnd : Int
  deriving DecidableEq, Repr

namespace Segment

def Contiguous : Int → List Segment → Prop
  | _, [] => True
  | start, s :: rest =>
    s.packet.seqNumber = start ∧ Contiguous (start + s.packet.data.length) rest

def payload (segments : List Segment) : List UInt8 :=
  (segments.map fun s => s.packet.data).flatten

structure Fits (s : Segment) : Prop where
  nonempty : 1 ≤ s.packet.data.length
  short : s.packet.data.length ≤ maxTcpSegmentPayload
  inside : s.packet.seqNumber + s.packet.data.length ≤ s.windowEnd

theorem contiguous_concat {start : Int} {segments : List Segment} {s : Segment}
    (h : Contiguous start segments)
    (hs : s.packet.seqNumber = start + (payload segments).length) :
    Contiguous start (segments ++ [s]) := by
  induction segments generalizing start with
  | nil => exact ⟨by simpa [payload] using hs, trivial⟩
  | cons first rest ih =>
    refine ⟨h.1, ih h.2 ?_⟩
    rw [hs]
    simp [payload]
    ring

end Segment

namespace TcpSession

def emits (x : TcpSession) : ReaderEvent → List Segment
  | .sends now =>
    (x.listenForTcpResponses (.sends now)).packets.map
      fun packet => ⟨packet, x.clientAckedSeq + x.clientWindow⟩
  | _ => []

def download (x : TcpSession) : Int × ReaderState := (x.serverSeq, x.reader)

theorem clientLeaves_download : ClientLeaves download where
  heardFrom _ _ _ := rfl
  enqueue _ _ := rfl
  finished _ _ := rfl
  ended _ _ _ _ _ := rfl

theorem download_runSocketWriter (x : TcpSession) (e : WriterEvent) :
    (x.runSocketWriter e).session.download = x.download := by
  cases e with
  | starts => simp only [runSocketWriter]; split_ifs <;> rfl
  | takes => simp only [runSocketWriter]; split <;> rfl
  | writes now =>
    simp only [runSocketWriter]
    split
    · split_ifs <;> rfl
    · rfl
  | fails => simp only [runSocketWriter]; split <;> rfl
  | ends => simp only [runSocketWriter]; split_ifs <;> rfl

structure Sent (start : Int) (block : List UInt8) (segments : List Segment) (x : TcpSession) :
    Prop where
  contiguous : Segment.Contiguous start segments
  fits : ∀ s ∈ segments, s.Fits
  initial : Segment.payload segments <+: block
  sending : ∀ rest waitedMs, x.reader = .sending rest waitedMs →
    Segment.payload segments ++ rest = block ∧ rest ≠ [] ∧
      x.serverSeq = start + (Segment.payload segments).length
  returned : x.reader = .reading → Segment.payload segments = block

variable {x y : TcpSession} {start : Int} {block rest : List UInt8} {waitedMs : Nat}
  {segments : List Segment}

theorem Sent.of_download (h : Sent start block segments x) (hsame : y.download = x.download) :
    Sent start block segments y := by
  obtain ⟨hseq, hreader⟩ := Prod.mk.inj hsame
  refine ⟨h.contiguous, h.fits, h.initial, ?_, ?_⟩
  · rw [hseq, hreader]
    exact h.sending
  · rw [hreader]
    exact h.returned

theorem Sent.finished (h : Sent start block segments x) (hreader : y.reader = .finished) :
    Sent start block segments y := by
  refine ⟨h.contiguous, h.fits, h.initial, ?_, ?_⟩
  · rw [hreader]
    exact nofun
  · rw [hreader]
    exact nofun

theorem Sent.chunk (h : Sent start block segments x) (hreader : x.reader = .sending rest waitedMs)
    {n : Nat} (hn : 1 ≤ n) (hlength : n ≤ rest.length) (hmax : n ≤ maxTcpSegmentPayload)
    (hallowed : (n : Int) ≤ x.allowed) (flags : Nat)
    (hseq : y.serverSeq = x.serverSeq + n)
    (hreader' : y.reader = if (rest.drop n).isEmpty then .reading else .sending (rest.drop n) 0) :
    Sent start block
      (segments ++ [⟨x.response flags (rest.take n), x.clientAckedSeq + x.clientWindow⟩]) y := by
  obtain ⟨hblock, -, hnext⟩ := h.sending rest waitedMs hreader
  have htake : (rest.take n).length = n := by
    rw [length_take, min_eq_left hlength]
  have hfits : Segment.Fits ⟨x.response flags (rest.take n), x.clientAckedSeq + x.clientWindow⟩ := by
    refine ⟨htake.symm ▸ hn, htake.symm ▸ hmax, ?_⟩
    rw [allowed] at hallowed
    simp only [response, htake]
    omega
  have hpayload : Segment.payload (segments ++
      [⟨x.response flags (rest.take n), x.clientAckedSeq + x.clientWindow⟩]) =
        Segment.payload segments ++ rest.take n := by
    simp [Segment.payload, response]
  have hall : Segment.payload segments ++ rest.take n ++ rest.drop n = block := by
    rw [append_assoc, take_append_drop, hblock]
  refine ⟨Segment.contiguous_concat h.contiguous hnext, ?_, ?_, ?_, ?_⟩
  · intro s hs
    rcases mem_append.mp hs with hs | hs
    · exact h.fits s hs
    · rw [mem_singleton.mp hs]
      exact hfits
  · rw [hpayload]
    exact ⟨_, hall⟩
  · intro rest' waitedMs' hsending
    rw [hreader'] at hsending
    split at hsending
    · cases hsending
    · next hleft =>
        cases hsending
        rw [hpayload, length_append, htake, hseq, hnext]
        exact ⟨hall, by simpa using hleft, by push_cast; ring⟩
  · intro hreading
    rw [hreader'] at hreading
    split at hreading
    · next hnone =>
        rw [isEmpty_iff.mp hnone, append_nil] at hall
        rw [hpayload, hall]
    · cases hreading

theorem Sent.sends (h : Sent start block segments x) (hreader : x.reader = .sending rest waitedMs)
    (now : Int) :
    Sent start block (segments ++ x.emits (.sends now))
      (x.listenForTcpResponses (.sends now)).session := by
  obtain ⟨hblock, hrest, hseq⟩ := h.sending rest waitedMs hreader
  have hlisten : x.listenForTcpResponses (.sends now) =
      x.writeChunkedRespectingWindow now rest waitedMs := by
    simp only [listenForTcpResponses, hreader]
  rw [emits, hlisten, writeChunkedRespectingWindow_eq]
  split_ifs with hclosed hwaited
  · simpa using h.finished rfl
  · simp only [map_nil, append_nil]
    refine ⟨h.contiguous, h.fits, h.initial, fun rest' waitedMs' heq => ?_, fun heq => ?_⟩
    · cases heq
      exact ⟨hblock, hrest, hseq⟩
    · cases heq
  · have hpos := length_pos_iff.mpr hrest
    have hmax : 0 < maxTcpSegmentPayload := by decide
    exact h.chunk hreader (by omega) (by omega) (by omega) (by omega) _ rfl rfl

theorem Sent.listen (h : Sent start block segments x) (hreader : x.reader = .sending rest waitedMs)
    (e : ReaderEvent) :
    Sent start block (segments ++ x.emits e) (x.listenForTcpResponses e).session := by
  cases e with
  | sends now => exact h.sends hreader now
  | starts => simpa [emits, listenForTcpResponses, hreader] using h
  | reads other => simpa [emits, listenForTcpResponses, hreader] using h
  | endOfStream => simpa [emits, listenForTcpResponses, hreader] using h
  | fails =>
    have hnone : segments ++ x.emits .fails = segments := append_nil segments
    rw [hnone]
    exact h.finished (by simp [listenForTcpResponses, hreader])

theorem not_unlaunched_of_sending (hreader : x.reader = .sending rest waitedMs) :
    x.unlaunched = false := by
  simp [unlaunched, hreader]

end TcpSession

/-! ## Every run -/

namespace TcpRelay

variable {r : TcpRelay} {i : Nat}

def emits (r : TcpRelay) (i : Nat) : RelayEvent → List Segment
  | .reader j e => if j = i then (r.session i).emits e else []
  | _ => []

def emitted (i : Nat) : TcpRelay → List RelayEvent → List Segment
  | _, [] => []
  | r, e :: events => r.emits i e ++ emitted i (r.step e) events

theorem emitted_concat (r : TcpRelay) (events : List RelayEvent) (e : RelayEvent) :
    emitted i r (events ++ [e]) = emitted i r events ++ (exec step r events).emits i e := by
  induction events generalizing r with
  | nil => simp [emitted]
  | cons first events ih =>
    rw [cons_append, emitted, ih, emitted, append_assoc]
    rfl

def Sending (r : TcpRelay) (i : Nat) : Prop :=
  ∃ rest waitedMs, (r.session i).reader = .sending rest waitedMs

instance (r : TcpRelay) (i : Nat) : Decidable (r.Sending i) :=
  match h : (r.session i).reader with
  | .sending rest waitedMs => .isTrue ⟨rest, waitedMs, h⟩
  | .unlaunched | .launched | .reading | .finished => .isFalse (by simp [Sending, h])

theorem sent_step (hc : Settled r) {start : Int} {block : List UInt8}
    {segments : List Segment} (h : (r.session i).Sent start block segments) (hsending : r.Sending i)
    (e : RelayEvent) :
    ((r.step e).session i).Sent start block (segments ++ r.emits i e) := by
  obtain ⟨rest, waitedMs, hreader⟩ := hsending
  by_cases hown : ∃ e', e = .reader i e'
  · obtain ⟨e', rfl⟩ := hown
    have hturn : ((r.step (.reader i e')).session i).download =
        ((r.session i).listenForTcpResponses e').session.download := by
      rw [step, TcpSession.clientLeaves_download.coroutineStep, if_pos rfl]
    rw [emits, if_pos rfl]
    exact (h.listen hreader e').of_download hturn
  · have hnone : r.emits i e = [] := by
      cases e with
      | reader j e' => exact if_neg fun hj => hown ⟨e', by rw [hj]⟩
      | _ => rfl
    have hsame : ((r.step e).session i).download = (r.session i).download := by
      rcases TcpSession.clientLeaves_download.step (r := r) e i with
        hsame | ⟨e', rfl, -⟩ | ⟨e', rfl, hturn⟩ | ⟨o, e', rfl, hbirth⟩
      · exact hsame
      · exact absurd ⟨e', rfl⟩ hown
      · exact hturn.trans (TcpSession.download_runSocketWriter _ e')
      · have hun := hc.unlaunched_of_births hbirth
        rw [TcpSession.not_unlaunched_of_sending hreader] at hun
        cases hun
    rw [hnone, append_nil]
    exact h.of_download hsame

theorem sent_reads {block : List UInt8} (hreading : (r.session i).reader = .reading)
    (hread : ((r.step (.reader i (.reads block))).session i).reader = .sending block 0) :
    ((r.step (.reader i (.reads block))).session i).Sent (r.session i).serverSeq block [] := by
  have hview : ((r.step (.reader i (.reads block))).session i).download =
      ((r.session i).listenForTcpResponses (.reads block)).session.download := by
    rw [step, TcpSession.clientLeaves_download.coroutineStep, if_pos rfl]
  have htaken : (r.session i).reader = .reading ∧ !(r.session i).socketClosed ∧
      0 < block.length ∧ block.length ≤ 16384 := by
    by_contra hnot
    have hsame := (Prod.mk.inj hview).2
    rw [hread, TcpSession.listenForTcpResponses, if_neg hnot, hreading] at hsame
    cases hsame
  rw [TcpSession.listenForTcpResponses, if_pos htaken] at hview
  refine ⟨trivial, by simp, nil_prefix, fun rest waitedMs hsending => ?_, fun hreading' => ?_⟩
  · rw [hread] at hsending
    cases hsending
    refine ⟨rfl, length_pos_iff.mp htaken.2.2.1, ?_⟩
    rw [(Prod.mk.inj hview).1]
    simp [Segment.payload]
  · rw [hread] at hreading'
    cases hreading'

/-- **Download segmentation**: the segments follow one another, none is empty, too
long or beyond the window read for it, and together they begin the block. -/
theorem block_segmented (before during : List RelayEvent) (i : Nat) (block : List UInt8)
    (hreading : ((run before).session i).reader = .reading)
    (hread : ((run (before ++ [RelayEvent.reader i (.reads block)])).session i).reader =
      .sending block 0)
    (hgoing : ∀ front, front <+: during → front ≠ during →
      (run (before ++ RelayEvent.reader i (.reads block) :: front)).Sending i) :
    Segment.Contiguous ((run before).session i).serverSeq
        (emitted i (run (before ++ [RelayEvent.reader i (.reads block)])) during) ∧
      (∀ s ∈ emitted i (run (before ++ [RelayEvent.reader i (.reads block)])) during, s.Fits) ∧
      Segment.payload (emitted i (run (before ++ [RelayEvent.reader i (.reads block)])) during) <+:
        block ∧
      (((run (before ++ RelayEvent.reader i (.reads block) :: during)).session i).reader = .reading →
        Segment.payload (emitted i (run (before ++ [RelayEvent.reader i (.reads block)])) during) =
          block) := by
  have hrun : ∀ front, run (before ++ RelayEvent.reader i (.reads block) :: front) =
      exec step (run (before ++ [RelayEvent.reader i (.reads block)])) front := fun front => by
    rw [run, run, ← exec_append, append_assoc, singleton_append]
  have hsent : ((run (before ++ RelayEvent.reader i (.reads block) :: during)).session i).Sent
      ((run before).session i).serverSeq block
      (emitted i (run (before ++ [RelayEvent.reader i (.reads block)])) during) := by
    induction during using List.reverseRecOn with
    | nil =>
      have hfirst : run (before ++ [RelayEvent.reader i (.reads block)]) =
          (run before).step (.reader i (.reads block)) := exec_concat ..
      rw [hfirst] at hread ⊢
      exact sent_reads hreading hread
    | append_singleton during e ih =>
      have hstill := hgoing during (prefix_append during [e]) (by simp)
      have hbefore := ih fun front hfront hne => by
        refine hgoing front (hfront.trans (prefix_append during [e])) fun heq => hne ?_
        exact hfront.eq_of_length_le (by rw [heq, length_append]; omega)
      have hnext : run (before ++ RelayEvent.reader i (.reads block) :: (during ++ [e])) =
          (run (before ++ RelayEvent.reader i (.reads block) :: during)).step e := by
        rw [hrun (during ++ [e]), hrun during, exec_concat]
      rw [hnext, emitted_concat, ← hrun during]
      exact sent_step (run_consistent _) hbefore hstill e
  exact ⟨hsent.contiguous, hsent.fits, hsent.initial, hsent.returned⟩

/-- A window of two bytes: a block of three goes out in two segments, the
second after the client has acknowledged the first. -/
def narrowDownload : List RelayEvent :=
  [.packet 11 { sampleAck 8 with tcpWindow := 2 }, .reader 0 (.sends 12), .reader 0 (.sends 13),
    .packet 14 { sampleAck 10 with tcpWindow := 2 }, .reader 0 (.sends 15)]

theorem block_segmented_narrow :
    (emitted 0 (run (establish 0 0 0 ++ [RelayEvent.reader 0 (.reads [1, 2, 3])])) narrowDownload).map
        (fun s => (s.packet.seqNumber, s.packet.data, s.windowEnd)) =
          [(8, [1, 2], 10), (10, [3], 12)] ∧
      Segment.payload
        (emitted 0 (run (establish 0 0 0 ++ [RelayEvent.reader 0 (.reads [1, 2, 3])])) narrowDownload) =
          [1, 2, 3] := by
  refine ⟨by decide +kernel, (block_segmented (establish 0 0 0) narrowDownload 0 [1, 2, 3]
    (by decide +kernel) (by decide +kernel) ?_).2.2.2 (by decide +kernel)⟩
  intro front hfront hne
  have hshort : front.length < 5 := lt_of_le_of_ne hfront.length_le
    fun heq => hne (hfront.eq_of_length heq)
  have hall : ∀ k < 5,
      (run (establish 0 0 0 ++
        RelayEvent.reader 0 (.reads [1, 2, 3]) :: narrowDownload.take k)).Sending 0 := by
    decide +kernel
  have hgoing := hall front.length hshort
  rw [← prefix_iff_eq_take.mp hfront] at hgoing
  exact hgoing

end TcpRelay

end BigRocket.Relay
