/-
What one engine sends is what the other engine puts out.
-/
import BigRocket.Lib.Crc32
import BigRocket.Bonding.Engine
import BigRocket.Bonding.FrameProcessorTheorems
import BigRocket.Bonding.StreamTheorems

namespace BigRocket.Bonding

open Lib List

namespace BondingEngine

/-! ## Sending -/

/-- What the frames of a stream have in common: numbered from 0, each a
well-formed DATA frame. -/
structure IsStream (maxPayloadSize : Nat) (frames : List Frame) : Prop where
  numbered : FrameProcessor.Numbered 0 frames
  wellFormed : ∀ f ∈ frames, FrameProcessor.WellFormed maxPayloadSize f

theorem IsStream.seq_get {maxPayloadSize : Nat} {frames : List Frame}
    (h : IsStream maxPayloadSize frames) (hfits : frames.length ≤ 2 ^ 63)
    (index : Fin frames.length) : (frames.get index).seq = index.val := by
  have hget : frames[index.val]? = some (frames.get index) := by simp
  exact h.numbered.seq hget (lt_of_lt_of_le index.isLt hfits)

variable {f : Frame}

theorem IsStream.genuine {maxPayloadSize : Nat} {frames : List Frame}
    (h : IsStream maxPayloadSize frames) (hfits : frames.length ≤ 2 ^ 63)
    (index : Fin frames.length)
    (hsequence : f.header.sequence = (frames.get index).header.sequence)
    (hpayload : f.payload = (frames.get index).payload) : Genuine (frames.map Frame.payload) f := by
  refine ⟨index, ?_, ?_⟩
  · rw [← h.seq_get hfits index]
    unfold Frame.seq
    rw [hsequence]
  · simp [hpayload]

theorem send_active {e : BondingEngine} (h : e.engineState = .active) (clock : Nat → Int64)
    (data : List UInt8) :
    e.send clock data = .ok ((e.frameProcessor.createFrames clock data).1,
      { e with frameProcessor := (e.frameProcessor.createFrames clock data).2 }) := by
  unfold send
  rw [if_pos (Or.inl h)]

theorem sendAll_ok (sends : List ((Nat → Int64) × List UInt8)) (e : BondingEngine)
    (hactive : e.engineState = .active) (hpos : 0 < e.frameProcessor.maxPayloadSize) :
    ∃ frames e', sendAll sends e = .ok (frames, e') ∧
      (frames.map Frame.payload).flatten = (sends.map Prod.snd).flatten ∧
      FrameProcessor.Numbered e.frameProcessor.nextSequence frames ∧
      ∀ f ∈ frames, FrameProcessor.WellFormed e.frameProcessor.maxPayloadSize f := by
  induction sends generalizing e with
  | nil => exact ⟨[], e, rfl, rfl, by intro i f hf; simp at hf, by simp⟩
  | cons first rest ih =>
    obtain ⟨clock, data⟩ := first
    have hprocessor := FrameProcessor.createFrames_processor clock data e.frameProcessor
    obtain ⟨more, e', hrest, hflat, hnum, hwf⟩ :=
      ih { e with frameProcessor := (e.frameProcessor.createFrames clock data).2 } hactive
        (by rw [hprocessor]; exact hpos)
    rw [hprocessor] at hnum hwf
    refine ⟨(e.frameProcessor.createFrames clock data).1 ++ more, e', ?_, ?_, ?_, ?_⟩
    · unfold sendAll
      rw [send_active hactive]
      simp only [bind, Except.bind, hrest]
      rfl
    · rw [map_append, flatten_append, hflat, map_cons, flatten_cons,
        FrameProcessor.createFrames_payloads clock data e.frameProcessor hpos]
    · exact (FrameProcessor.createFrames_numbered clock data e.frameProcessor).append hnum
    · intro f hf
      rcases mem_append.mp hf with hf | hf
      · exact FrameProcessor.createFrames_wellFormed clock data e.frameProcessor hpos f hf
      · exact hwf f hf

theorem sendAll_started {streamId : Int32} {config : BondingConfig}
    {sends : List ((Nat → Int64) × List UInt8)} {frames : List Frame} {e' : BondingEngine}
    (h : sendAll sends (started streamId config) = .ok (frames, e')) :
    (frames.map Frame.payload).flatten = (sends.map Prod.snd).flatten ∧
      IsStream config.maxPayloadSize frames := by
  obtain ⟨frames', e'', hok, hflat, hnum, hwf⟩ :=
    sendAll_ok sends (started streamId config) rfl config.payload_range.1
  rw [h] at hok
  cases hok
  exact ⟨hflat, hnum, hwf⟩

/-! ## The wire -/

variable (crc32 : List UInt8 → UInt32)

theorem adapterReceive_encode {maxPayloadSize : Nat}
    (hwf : FrameProcessor.WellFormed maxPayloadSize f) (hmax : maxPayloadSize ≤ 60000) :
    ∃ datagram, BinaryFrameCodec.encode crc32 f = .ok datagram ∧
      adapterReceive crc32 datagram = some (BinaryFrameCodec.withChecksum crc32 f) := by
  have hadm := hwf.admissible hmax
  obtain ⟨datagram, henc, hdec⟩ := BinaryFrameCodec.decode_encode crc32 hadm
  refine ⟨datagram, henc, ?_⟩
  have hlen : datagram.length ≤ receiveBufferSize := by
    rw [BinaryFrameCodec.encode_eq_ok crc32 hadm] at henc
    cases henc
    have := hwf.bounded
    rw [BinaryFrameCodec.length_wireBytes]
    unfold BinaryFrameCodec.headerSize receiveBufferSize
    omega
  have htype : (BinaryFrameCodec.withChecksum crc32 f).header.type = .data := hwf.type
  unfold adapterReceive
  rw [take_of_length_le hlen, hdec]
  simp [htype]

theorem receiverTurn_encode {maxPayloadSize : Nat}
    (hwf : FrameProcessor.WellFormed maxPayloadSize f) (hmax : maxPayloadSize ≤ 60000) :
    ∃ datagram, BinaryFrameCodec.encode crc32 f = .ok datagram ∧
      ∀ now path (e : BondingEngine), e.receiverTurn crc32 now path datagram =
        { e with
          reorderBuffer :=
            e.reorderBuffer.push e.config.reorderParams now
              (BinaryFrameCodec.withChecksum crc32 f) } := by
  obtain ⟨datagram, henc, hrecv⟩ := adapterReceive_encode crc32 hwf hmax
  have hflags : FrameFlags.has (BinaryFrameCodec.withChecksum crc32 f).header.flags
      FrameFlags.control = false := by
    show FrameFlags.has f.header.flags FrameFlags.control = false
    rw [hwf.flags]
    decide
  refine ⟨datagram, henc, ?_⟩
  simp [receiverTurn, hrecv, hflags]

/-! ## A delivery is an operation of the reorder buffer -/

variable (config : BondingConfig) (frames : List Frame)

def bufferOp : Delivery frames.length → BufferOp
  | .arrive now _ index => .push now (BinaryFrameCodec.withChecksum crc32 (frames.get index))
  | .poll now resent =>
    .readOrdered now
      (if config.recoveryEnabled then resent.map fun index => (frames.get index).asRecovered
        else none)

variable {config frames} {maxPayloadSize : Nat}

theorem deliverAll_run (hstream : IsStream maxPayloadSize frames) (hmax : maxPayloadSize ≤ 60000)
    (streamId : Int32) (events : List (Delivery frames.length)) :
    (deliverAll crc32 frames (started streamId config) events).config = config ∧
      (deliverAll crc32 frames (started streamId config) events).reorderBuffer =
        (BufferRun.run config.reorderParams 0
          (events.map (bufferOp crc32 config frames))).buffer ∧
      (deliverAll crc32 frames (started streamId config) events).outputQueue =
        (BufferRun.run config.reorderParams 0
          (events.map (bufferOp crc32 config frames))).delivered.map Frame.payload := by
  induction events using List.reverseRecOn with
  | nil => exact ⟨rfl, rfl, rfl⟩
  | append_singleton events event ih =>
    obtain ⟨hconfig, hbuffer, hout⟩ := ih
    unfold deliverAll at hconfig hbuffer hout ⊢
    rw [exec_concat, map_append, map_singleton, BufferRun.run_concat]
    cases event with
    | arrive now path index =>
      obtain ⟨datagram, henc, hturn⟩ :=
        receiverTurn_encode crc32 (hstream.wellFormed _ (frames.get_mem index)) hmax
      simp only [deliver, henc, hturn]
      exact ⟨hconfig, by rw [hconfig, hbuffer]; rfl, hout⟩
    | poll now resent =>
      simp only [deliver, reassemblyTurn, hconfig, hbuffer, hout]
      refine ⟨trivial, rfl, ?_⟩
      simp only [bufferOp, BufferRun.step, map_append]
      rfl

theorem carries_bufferOps (hstream : IsStream maxPayloadSize frames)
    (hfits : frames.length ≤ 2 ^ 63) (events : List (Delivery frames.length)) :
    Carries (frames.map Frame.payload) (events.map (bufferOp crc32 config frames)) := by
  intro op hop f hf
  obtain ⟨event, -, rfl⟩ := mem_map.mp hop
  cases event with
  | arrive now path index =>
    cases hf
    exact hstream.genuine hfits index rfl rfl
  | poll now resent =>
    simp only [bufferOp, BufferOp.frame?] at hf
    split at hf
    · cases resent with
      | none => cases hf
      | some index =>
        cases hf
        exact hstream.genuine hfits index rfl rfl
    · cases hf

/-! ## Timely delivery -/

variable (frames)

/-- What a stream is promised up to a last poll: the clock does not go back, every
frame arrives, none beyond the window, and a late one within `hardTimeoutMs` of a
later one. -/
structure TimelyDelivery (receiver : BondingEngine) (events : List (Delivery frames.length))
    (last : Int) : Prop where
  clock : (events.map Delivery.time ++ [last]).Pairwise (· ≤ ·)
  every : ∀ index, ∃ event ∈ events, event.arrival? = some index
  window : AlongRun
    (fun before event => ∀ index, event.arrival? = some index →
      (∀ e ∈ before, e.arrival? ≠ some index) →
      (index.val : Int) < (deliverAll crc32 frames receiver before).reorderBuffer.expectedSequence +
        receiver.config.reorderWindowSize) events
  gaps : AlongRun
    (fun before event => ∀ index, event.arrival? = some index →
      (∀ e ∈ before, e.arrival? ≠ some index) →
      ∀ e ∈ before, ∀ later, e.arrival? = some later → index < later →
        event.time < e.time + receiver.config.reorderHardTimeoutMs) events

variable {frames}

theorem time_bufferOp (event : Delivery frames.length) :
    (bufferOp crc32 config frames event).time = event.time := by
  cases event <;> rfl

theorem push_eq_bufferOp (hstream : IsStream maxPayloadSize frames)
    (hfits : frames.length ≤ 2 ^ 63) {event : Delivery frames.length} {now : Int}
    (h : bufferOp crc32 config frames event = .push now f) :
    ∃ index, event.arrival? = some index ∧ event.time = now ∧ f.seq = index.val := by
  cases event with
  | arrive t path index =>
    cases h
    exact ⟨index, rfl, rfl, hstream.seq_get hfits index⟩
  | poll t resent => cases h

theorem arrived_bufferOps (hstream : IsStream maxPayloadSize frames)
    (hfits : frames.length ≤ 2 ^ 63) (events : List (Delivery frames.length))
    (index : Fin frames.length) :
    BufferRun.Arrived (events.map (bufferOp crc32 config frames)) index.val ↔
      ∃ event ∈ events, event.arrival? = some index := by
  constructor
  · intro hpush
    obtain ⟨now, f, hmem, hseq⟩ := hpush
    obtain ⟨event, hevent, hop⟩ := mem_map.mp hmem
    obtain ⟨index', harrival, -, hseq'⟩ := push_eq_bufferOp crc32 hstream hfits hop
    have hsame : index' = index := Fin.ext (by omega)
    exact ⟨event, hevent, hsame ▸ harrival⟩
  · rintro ⟨event, hevent, harrival⟩
    cases event with
    | arrive now path index' =>
      cases harrival
      exact ⟨now, _, mem_map_of_mem hevent, hstream.seq_get hfits index⟩
    | poll now resent => cases harrival

variable {receiver : BondingConfig} {streamId : Int32} {events : List (Delivery frames.length)}
  {last : Int}

theorem TimelyDelivery.chronological
    (h : TimelyDelivery crc32 frames (started streamId receiver) events last)
    (resent : Option (Fin frames.length)) :
    Chronological ((events ++ [Delivery.poll last resent]).map (bufferOp crc32 receiver frames)) := by
  unfold Chronological
  have htimes : (events ++ [Delivery.poll last resent]).map
      (BufferOp.time ∘ bufferOp crc32 receiver frames) = events.map Delivery.time ++ [last] := by
    rw [map_append]
    congr 1
    exact map_congr_left (fun event _ => time_bufferOp crc32 event)
  rw [map_map, htimes]
  exact h.clock

theorem TimelyDelivery.firstInWindow
    (h : TimelyDelivery crc32 frames (started streamId receiver) events last)
    (hstream : IsStream maxPayloadSize frames) (hmax : maxPayloadSize ≤ 60000)
    (hfits : frames.length ≤ 2 ^ 63) (resent : Option (Fin frames.length)) :
    AlongRun (BufferRun.FirstInWindow receiver.reorderParams)
      ((events ++ [Delivery.poll last resent]).map (bufferOp crc32 receiver frames)) := by
  rw [map_append, map_singleton, alongRun_concat]
  refine ⟨?_, trivial⟩
  intro before op after hops
  obtain ⟨front, rest, rfl, rfl, hrest⟩ := map_eq_append_iff.mp hops
  obtain ⟨event, rest, rfl, rfl, rfl⟩ := map_eq_cons_iff.mp hrest
  cases hop : bufferOp crc32 receiver frames event with
  | readOrdered now recovered => trivial
  | push now f =>
    intro hfirst
    obtain ⟨index, harrival, -, hseq⟩ := push_eq_bufferOp crc32 hstream hfits hop
    have hbound := h.window front event rest rfl index harrival (by
      intro e he hsame
      apply hfirst
      rw [hseq, arrived_bufferOps crc32 hstream hfits]
      exact ⟨e, he, hsame⟩)
    obtain ⟨-, hbuffer, -⟩ := @deliverAll_run crc32 receiver frames _ hstream hmax streamId front
    rw [hbuffer] at hbound
    rw [hseq]
    exact hbound

theorem TimelyDelivery.gapsClose
    (h : TimelyDelivery crc32 frames (started streamId receiver) events last)
    (hstream : IsStream maxPayloadSize frames) (hfits : frames.length ≤ 2 ^ 63)
    (resent : Option (Fin frames.length)) :
    BufferRun.GapsClose receiver.reorderParams
      ((events ++ [Delivery.poll last resent]).map (bufferOp crc32 receiver frames)) := by
  intro before t₂ late after hops hfirst t₁ early hearly hbelow
  obtain ⟨front, rest, hevents, rfl, hrest⟩ := map_eq_append_iff.mp hops
  obtain ⟨event, rest, rfl, hop, rfl⟩ := map_eq_cons_iff.mp hrest
  obtain ⟨index, harrival, htime, hseq⟩ := push_eq_bufferOp crc32 hstream hfits hop
  obtain ⟨e, he, hop'⟩ := mem_map.mp hearly
  obtain ⟨later, hlater, htime', hseq'⟩ := push_eq_bufferOp crc32 hstream hfits hop'
  -- the event is an arrival, so it is not the last poll
  obtain ⟨rest', hrest'⟩ : ∃ rest', events = front ++ event :: rest' := by
    rcases eq_nil_or_concat rest with rfl | ⟨rest', x, rfl⟩
    · have hlast := append_inj_right' hevents rfl
      cases hlast
      cases harrival
    · refine ⟨rest', ?_⟩
      have hcut : events ++ [Delivery.poll last resent] = (front ++ event :: rest') ++ [x] := by
        simpa using hevents
      exact append_inj_left' hcut rfl
  have hclose := h.gaps front event rest' hrest' index harrival (by
    intro x hx hsame
    apply hfirst
    rw [hseq, arrived_bufferOps crc32 hstream hfits]
    exact ⟨x, hx, hsame⟩) e he later hlater (by
      exact Fin.lt_def.mpr (by omega))
  rw [← htime, ← htime']
  exact hclose

/-- **The bonded stream is complete exactly when no poll meets a stale timer**,
however its frames are spread over the paths, reordered and repeated, in time. -/
theorem bondedStream_complete_iff_timerFresh (sender receiver : BondingConfig) (streamId : Int32)
    (sends : List ((Nat → Int64) × List UInt8)) (frames : List Frame) (sender' : BondingEngine)
    (hsend : sendAll sends (started streamId sender) = .ok (frames, sender'))
    (hfits : frames.length ≤ 2 ^ 63) (events : List (Delivery frames.length)) (last : Int)
    (resent : Option (Fin frames.length))
    (htimely : TimelyDelivery crc32 frames (started streamId receiver) events last) :
    (deliverAll crc32 frames (started streamId receiver)
        (events ++ [Delivery.poll last resent])).outputQueue.flatten =
      (sends.map Prod.snd).flatten ↔
    AlongRun (BufferRun.TimerFresh receiver.reorderParams 0)
      ((events ++ [Delivery.poll last resent]).map (bufferOp crc32 receiver frames)) := by
  obtain ⟨hflat, hstream⟩ := sendAll_started hsend
  have hmax := sender.payload_range.2
  obtain ⟨-, -, hout⟩ := @deliverAll_run crc32 receiver frames _ hstream hmax streamId
    (events ++ [Delivery.poll last resent])
  have hclock := htimely.chronological crc32 resent
  have hwindow := htimely.firstInWindow crc32 hstream hmax hfits resent
  have hgaps := htimely.gapsClose crc32 hstream hfits resent
  have hcarries : Carries (frames.map Frame.payload)
      ((events ++ [Delivery.poll last resent]).map (bufferOp crc32 receiver frames)) :=
    carries_bufferOps crc32 hstream hfits _
  have hall : ∀ i : Nat, i < (frames.map Frame.payload).length →
      BufferRun.Arrived (events.map (bufferOp crc32 receiver frames)) i := by
    intro i hi
    rw [length_map] at hi
    exact (arrived_bufferOps crc32 hstream hfits events ⟨i, hi⟩).mpr (htimely.every ⟨i, hi⟩)
  have hnonempty : ∀ payload ∈ frames.map Frame.payload, payload ≠ [] := by
    intro payload hpayload
    obtain ⟨f, hf, rfl⟩ := mem_map.mp hpayload
    exact (hstream.wellFormed f hf).nonempty
  have hsublist := BufferRun.run_delivered_sublist receiver.reorderParams hcarries
  have hcomplete := BufferRun.run_delivered_eq_iff receiver.reorderParams hcarries
  rw [map_append, map_singleton, bufferOp] at hcarries hwindow hclock hgaps
  rw [map_append, map_singleton, bufferOp] at hsublist hcomplete hout ⊢
  have hend := BufferRun.run_reaches_end hcarries hwindow hall
  rw [hout, ← hflat]
  constructor
  · intro hbytes
    have hlost := (hcomplete.mp
      (BufferRun.eq_of_sublist_of_flatten_eq hsublist hnonempty hbytes)).1
    exact BufferRun.timerFresh_of_noSkip ((BufferRun.run_lost_eq_zero_iff _ _).mp hlost)
  · intro hfresh
    have hnoskip := BufferRun.noSkip_of_timerFresh hclock hcarries hwindow hgaps
      (fun i hi => (hall i hi).concat _) hfresh
    rw [hcomplete.mpr ⟨(BufferRun.run_lost_eq_zero_iff _ _).mpr hnoskip, hend⟩]

/-! Four one-byte sends under the default configuration. -/

def byteFrame (sequence : Int64) (byte : UInt8) : Frame :=
  FrameProcessor.dataFrame ⟨7, 1200, sequence⟩ 0 [byte]

def fourFrames : List Frame := [byteFrame 0 10, byteFrame 1 11, byteFrame 2 12, byteFrame 3 13]

def fourSends : List ((Nat → Int64) × List UInt8) :=
  [(fun _ => 0, [10]), (fun _ => 0, [11]), (fun _ => 0, [12]), (fun _ => 0, [13])]

theorem bondedStream_complete_of_reordered :
    (deliverAll Lib.crc32 fourFrames (started 7 {})
      ([.arrive 1 .wifi ⟨1, by decide⟩, .arrive 2 .cellular ⟨0, by decide⟩, .poll 3 none,
        .arrive 4 .wifi ⟨2, by decide⟩, .arrive 5 .cellular ⟨2, by decide⟩,
        .arrive 6 .wifi ⟨3, by decide⟩] ++ [Delivery.poll 7 none])).outputQueue.flatten =
      (fourSends.map Prod.snd).flatten :=
  (bondedStream_complete_iff_timerFresh Lib.crc32 {} {} 7 fourSends fourFrames
    { started 7 {} with frameProcessor := ⟨7, 1200, 4⟩ } rfl (by decide)
    [.arrive 1 .wifi ⟨1, by decide⟩, .arrive 2 .cellular ⟨0, by decide⟩, .poll 3 none,
      .arrive 4 .wifi ⟨2, by decide⟩, .arrive 5 .cellular ⟨2, by decide⟩,
      .arrive 6 .wifi ⟨3, by decide⟩] 7 none
    ⟨by decide, by decide, by decide +kernel, by decide +kernel⟩).mpr (by decide +kernel)

/-- Frame 1 has left its timer running. Frame 3 arrives one millisecond before
frame 2, and the poll between them gives frame 2 up. -/
theorem bondedStream_loses_frame_to_stale_timer :
    sendAll fourSends (started 7 {}) =
      .ok (fourFrames, { started 7 {} with frameProcessor := ⟨7, 1200, 4⟩ }) ∧
    TimelyDelivery Lib.crc32 fourFrames (started 7 {})
      [.arrive 1 .wifi ⟨0, by decide⟩, .arrive 2 .cellular ⟨1, by decide⟩, .poll 3 none,
        .arrive 802 .wifi ⟨3, by decide⟩, .poll 802 none,
        .arrive 803 .cellular ⟨2, by decide⟩] 804 ∧
    (deliverAll Lib.crc32 fourFrames (started 7 {})
      [.arrive 1 .wifi ⟨0, by decide⟩, .arrive 2 .cellular ⟨1, by decide⟩, .poll 3 none,
        .arrive 802 .wifi ⟨3, by decide⟩, .poll 802 none, .arrive 803 .cellular ⟨2, by decide⟩,
        .poll 804 none]).outputQueue.flatten ≠
      (fourSends.map Prod.snd).flatten :=
  ⟨rfl, ⟨by decide, by decide, by decide +kernel, by decide +kernel⟩, by decide +kernel⟩

end BondingEngine

end BigRocket.Bonding
