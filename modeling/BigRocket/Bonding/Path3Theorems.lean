/-
When packet boundaries survive a link. The rx job hands each FRAME to the
endpoint as a packet, so a packet comes out whole exactly when it fits
`maxPayloadSize`.
-/
import BigRocket.Bonding.Path3
import BigRocket.Bonding.EndToEndTheorems

namespace BigRocket.Bonding

open Lib List Option

/-! ## A growing stream -/

variable {sent : List (List UInt8)}

theorem Genuine.append {f : Frame} (h : Genuine sent f) (more : List (List UInt8)) :
    Genuine (sent ++ more) f := by
  obtain ⟨i, hseq, hi⟩ := h
  have hlt := (List.getElem?_eq_some_iff.mp hi).1
  exact ⟨i, hseq, by rw [getElem?_append_left hlt]; exact hi⟩

theorem Carries.append {ops : List BufferOp} (h : Carries sent ops) (more : List (List UInt8)) :
    Carries (sent ++ more) ops := by
  intro op hop f hf
  exact (h op hop f hf).append more

theorem Carries.concat {ops : List BufferOp} (h : Carries sent ops) {op : BufferOp}
    (hop : ∀ f ∈ op.frame?, Genuine sent f) : Carries sent (ops ++ [op]) := by
  intro o ho
  rcases mem_append.mp ho with ho | ho
  · exact h o ho
  · rw [mem_singleton] at ho
    rw [ho]
    exact hop

namespace Path3Link

/-! ## Packets and their pieces -/

/-- The pieces a packet is cut into: all of it, and in one piece exactly
when it fits one payload. -/
structure Cut (maxPayloadSize : Nat) (packet : List UInt8) (pieces : List (List UInt8)) :
    Prop where
  nonempty : packet ≠ []
  whole : pieces.flatten = packet
  single : pieces = [packet] ↔ packet.length ≤ maxPayloadSize

variable (crc32 : List UInt8 → UInt32) (streamId : Int32) {packet : List UInt8}
  {maxPayloadSize : Nat}

theorem Cut.length_pos {pieces : List (List UInt8)} (h : Cut maxPayloadSize packet pieces) :
    0 < pieces.length := by
  apply length_pos_iff.mpr
  rintro rfl
  exact h.nonempty h.whole.symm

theorem length_le_pieces {packets : List (List UInt8)} {pieces : List (List (List UInt8))}
    (h : List.Forall₂ (Cut maxPayloadSize) packets pieces) :
    packets.length ≤ pieces.flatten.length := by
  induction h with
  | nil => simp
  | cons hcut _ ih =>
    have := hcut.length_pos
    simp only [length_cons, flatten_cons, length_append]
    omega

theorem pieces_eq_packets_iff {packets : List (List UInt8)} {pieces : List (List (List UInt8))}
    (h : List.Forall₂ (Cut maxPayloadSize) packets pieces) :
    pieces.flatten = packets ↔ ∀ packet ∈ packets, packet.length ≤ maxPayloadSize := by
  induction h with
  | nil => simp
  | @cons packet ps packets pieces hcut hrest ih =>
    simp only [flatten_cons, forall_mem_cons, ← ih]
    constructor
    · intro heq
      -- one piece for each packet, or there would be more pieces than packets
      have hcount := length_le_pieces hrest
      have hpos := hcut.length_pos
      have hlen := congrArg List.length heq
      simp only [length_append, length_cons] at hlen
      obtain ⟨piece, rfl⟩ := length_eq_one_iff.mp (show ps.length = 1 by omega)
      simp only [singleton_append, List.cons.injEq] at heq
      obtain ⟨rfl, htail⟩ := heq
      exact ⟨hcut.single.mp rfl, htail⟩
    · intro hboth
      obtain ⟨hfits, htail⟩ := hboth
      rw [hcut.single.mpr hfits, htail]
      rfl

theorem cut_createFrames (clock : Nat → Int64) (p : FrameProcessor) (hpos : 0 < p.maxPayloadSize)
    (hpacket : packet ≠ []) :
    Cut p.maxPayloadSize packet ((p.createFrames clock packet).1.map Frame.payload) where
  nonempty := hpacket
  whole := FrameProcessor.createFrames_payloads clock packet p hpos
  single := FrameProcessor.createFrames_payloads_eq_singleton_iff clock packet p hpos hpacket

/-! ## The sending end -/

structure SenderInv (config : BondingConfig) (l : Path3Link) : Prop where
  nearActive : l.nearEnd.currentState = .active
  active : l.sender.engineState = .active
  payloadSize : l.sender.frameProcessor.maxPayloadSize = config.maxPayloadSize
  counter : l.sender.frameProcessor.nextSequence = Int64.ofNat l.frames.length
  stream : BondingEngine.IsStream config.maxPayloadSize l.frames
  queued : ∀ packet ∈ l.nearEnd.androidToBonding, packet ≠ []
  cut : ∃ taken pieces, l.injected = taken ++ l.nearEnd.androidToBonding ∧
    l.frames.map Frame.payload = pieces.flatten ∧
    List.Forall₂ (Cut config.maxPayloadSize) taken pieces

variable {config : BondingConfig} {l : Path3Link}

theorem SenderInv.create : SenderInv config (create streamId config) where
  nearActive := rfl
  active := rfl
  payloadSize := rfl
  counter := rfl
  stream :=
    { numbered := by
        intro i f hf
        simp [Path3Link.create] at hf
      wellFormed := by
        intro f hf
        cases hf }
  queued := by
    intro packet hp
    cases hp
  cut := ⟨[], [], rfl, rfl, List.Forall₂.nil⟩

theorem injectFromAndroid_true {e e' : VirtualPath3Endpoint}
    (h : e.injectFromAndroid packet = (true, e')) :
    packet ≠ [] ∧ e' = { e with androidToBonding := e.androidToBonding ++ [packet] } := by
  unfold VirtualPath3Endpoint.injectFromAndroid at h
  split at h
  · cases h
  · split at h
    · cases h
    · next hempty =>
        split at h
        · cases h
        · split at h
          · cases h
          · cases h
            exact ⟨by simpa using hempty, rfl⟩

theorem receiveFromAndroid_active {e : VirtualPath3Endpoint} (h : e.currentState = .active) :
    e.receiveFromAndroid =
      match e.androidToBonding with
      | [] => (none, e)
      | packet :: rest => (some packet, { e with androidToBonding := rest }) := by
  cases hqueue : e.androidToBonding with
  | nil =>
    simp [VirtualPath3Endpoint.receiveFromAndroid, VirtualPath3Endpoint.isActive, h, hqueue]
  | cons packet rest =>
    simp [VirtualPath3Endpoint.receiveFromAndroid, VirtualPath3Endpoint.isActive, h, hqueue]

theorem SenderInv.inject (h : SenderInv config l) {nearEnd : VirtualPath3Endpoint}
    (hinj : l.nearEnd.injectFromAndroid packet = (true, nearEnd)) :
    SenderInv config { l with nearEnd, injected := l.injected ++ [packet] } := by
  obtain ⟨hpacket, rfl⟩ := injectFromAndroid_true hinj
  obtain ⟨taken, pieces, hsplit, hframes, hcut⟩ := h.cut
  refine ⟨h.nearActive, h.active, h.payloadSize, h.counter, h.stream, ?_, taken, pieces, ?_,
    hframes, hcut⟩
  · intro q hq
    rcases mem_append.mp hq with hq | hq
    · exact h.queued q hq
    · rw [mem_singleton] at hq
      rw [hq]
      exact hpacket
  · simp [hsplit]

theorem SenderInv.txTurn (h : SenderInv config l) (clock : Nat → Int64) :
    SenderInv config (l.txTurn clock) := by
  unfold Path3Link.txTurn
  rw [receiveFromAndroid_active h.nearActive]
  cases hqueue : l.nearEnd.androidToBonding with
  | nil => exact h
  | cons packet rest =>
    have hpos : 0 < l.sender.frameProcessor.maxPayloadSize := by
      rw [h.payloadSize]
      exact config.payload_range.1
    have hpacket : packet ≠ [] := h.queued packet (by simp [hqueue])
    have hprocessor := FrameProcessor.createFrames_processor clock packet l.sender.frameProcessor
    have hnumbered := FrameProcessor.createFrames_numbered clock packet l.sender.frameProcessor
    have hwf := FrameProcessor.createFrames_wellFormed clock packet l.sender.frameProcessor hpos
    have hpieces := cut_createFrames clock l.sender.frameProcessor hpos hpacket
    obtain ⟨taken, pieces, hsplit, hframes, hcut⟩ := h.cut
    simp only [BondingEngine.send_active h.active]
    rw [h.payloadSize] at hwf hpieces
    rw [h.counter] at hnumbered
    refine ⟨h.nearActive, h.active, ?_, ?_, ⟨?_, ?_⟩, ?_, ?_⟩
    · rw [hprocessor]
      exact h.payloadSize
    · rw [hprocessor]
      simp only [h.counter, length_append, Int64.ofNat_add]
    · exact h.stream.numbered.append (by rw [Int64.zero_add]; exact hnumbered)
    · intro f hf
      rcases mem_append.mp hf with hf | hf
      · exact h.stream.wellFormed f hf
      · exact hwf f hf
    · intro q hq
      exact h.queued q (by simp [hqueue, hq])
    · refine ⟨taken ++ [packet],
        pieces ++ [(l.sender.frameProcessor.createFrames clock packet).1.map Frame.payload],
        ?_, ?_, ?_⟩
      · simp [hsplit, hqueue]
      · simp [hframes]
      · exact rel_append hcut (List.Forall₂.cons hpieces List.Forall₂.nil)

/-! ## The receiving end -/

/-- Until the sequence counter wraps, the receiver's buffer is a run over frames
of the stream, and what it delivered was handed on or waits in the output queue.
-/
structure ReceiverInv (config : BondingConfig) (l : Path3Link) : Prop where
  config_eq : l.receiver.config = config
  history : l.frames.length ≤ 2 ^ 63 → ∃ ops,
    l.receiver.reorderBuffer = (BufferRun.run config.reorderParams 0 ops).buffer ∧
    l.handed ++ l.receiver.outputQueue =
      (BufferRun.run config.reorderParams 0 ops).delivered.map Frame.payload ∧
    Carries (l.frames.map Frame.payload) ops

theorem ReceiverInv.create : ReceiverInv config (create streamId config) where
  config_eq := rfl
  history := by
    intro _
    refine ⟨[], rfl, rfl, ?_⟩
    intro op hop
    cases hop

theorem ReceiverInv.grow (h : ReceiverInv config l) (more : List Frame)
    (nearEnd : VirtualPath3Endpoint) (sender : BondingEngine) (injected : List (List UInt8)) :
    ReceiverInv config { l with nearEnd, sender, frames := l.frames ++ more, injected } where
  config_eq := h.config_eq
  history := by
    intro hfits
    simp only [length_append] at hfits
    obtain ⟨ops, hbuffer, hout, hcarries⟩ := h.history (by omega)
    refine ⟨ops, hbuffer, hout, ?_⟩
    rw [map_append]
    exact hcarries.append _

theorem ReceiverInv.push (h : ReceiverInv config l) (now : Int) {f : Frame}
    (hf : l.frames.length ≤ 2 ^ 63 → Genuine (l.frames.map Frame.payload) f) :
    ReceiverInv config
      { l with
        receiver :=
          { l.receiver with
            reorderBuffer := l.receiver.reorderBuffer.push l.receiver.config.reorderParams now f } }
    where
  config_eq := h.config_eq
  history := by
    intro hfits
    obtain ⟨ops, hbuffer, hout, hcarries⟩ := h.history hfits
    refine ⟨ops ++ [.push now f], ?_, ?_, ?_⟩
    · simp only [BufferRun.run_concat, BufferRun.step, hbuffer, h.config_eq]
    · simpa only [BufferRun.run_concat, BufferRun.step] using hout
    · apply hcarries.concat
      intro g hg
      cases hg
      exact hf hfits

theorem ReceiverInv.reassemblyTurn (h : ReceiverInv config l) (now : Int) {resent : Option Frame}
    (hresent : l.frames.length ≤ 2 ^ 63 →
      ∀ f ∈ resent, Genuine (l.frames.map Frame.payload) f) :
    ReceiverInv config { l with receiver := l.receiver.reassemblyTurn now resent } where
  config_eq := h.config_eq
  history := by
    intro hfits
    obtain ⟨ops, hbuffer, hout, hcarries⟩ := h.history hfits
    refine ⟨ops ++ [.readOrdered now (if config.recoveryEnabled then resent else none)], ?_, ?_, ?_⟩
    · simp only [BondingEngine.reassemblyTurn, BufferRun.run_concat, BufferRun.step, hbuffer,
        h.config_eq]
    · simp only [BondingEngine.reassemblyTurn, BufferRun.run_concat, BufferRun.step, hbuffer,
        h.config_eq, map_append, ← hout, append_assoc]
      rfl
    · apply hcarries.concat
      intro f hf
      split at hf
      · exact hresent hfits f hf
      · cases hf

theorem ReceiverInv.rxTurn (h : ReceiverInv config l) : ReceiverInv config l.rxTurn := by
  unfold Path3Link.rxTurn BondingEngine.receive
  cases hqueue : l.receiver.outputQueue with
  | nil => exact h
  | cons packet rest =>
    refine ⟨h.config_eq, ?_⟩
    intro hfits
    obtain ⟨ops, hbuffer, hout, hcarries⟩ := h.history hfits
    refine ⟨ops, hbuffer, ?_, hcarries⟩
    rw [← hout, hqueue]
    simp

/-! ## Every run -/

theorem step_preserves (hs : SenderInv config l) (hr : ReceiverInv config l) (event : LinkEvent) :
    SenderInv config (step crc32 l event) ∧ ReceiverInv config (step crc32 l event) := by
  cases event with
  | inject packet =>
    simp only [step]
    split
    · next hinj => exact ⟨hs.inject hinj, hr.config_eq, hr.history⟩
    · exact ⟨hs, hr⟩
  | txTurn clock =>
    refine ⟨hs.txTurn clock, ?_⟩
    show ReceiverInv config (l.txTurn clock)
    unfold Path3Link.txTurn
    split
    · exact hr
    · split
      · exact hr.grow _ _ _ _
      · exact ⟨hr.config_eq, hr.history⟩
  | arrive now path index =>
    simp only [step]
    cases hget : l.frames[index]? with
    | none => exact ⟨hs, hr⟩
    | some frame =>
      obtain ⟨hlt, hframe⟩ := List.getElem?_eq_some_iff.mp hget
      have hwf := hs.stream.wellFormed frame (mem_of_getElem? hget)
      obtain ⟨datagram, henc, hturn⟩ :=
        BondingEngine.receiverTurn_encode crc32 hwf config.payload_range.2
      simp only [henc, hturn]
      refine ⟨⟨hs.nearActive, hs.active, hs.payloadSize, hs.counter, hs.stream, hs.queued,
        hs.cut⟩, hr.push now ?_⟩
      intro hfits
      apply hs.stream.genuine hfits ⟨index, hlt⟩ <;> simp [← hframe, BinaryFrameCodec.withChecksum]
  | reassemble now resent =>
    refine ⟨⟨hs.nearActive, hs.active, hs.payloadSize, hs.counter, hs.stream, hs.queued,
      hs.cut⟩, hr.reassemblyTurn now ?_⟩
    intro hfits f hf
    obtain ⟨g, hg, rfl⟩ := mem_map.mp hf
    obtain ⟨index, -, hget⟩ := bind_eq_some_iff.mp hg
    obtain ⟨hlt, hframe⟩ := List.getElem?_eq_some_iff.mp hget
    apply hs.stream.genuine hfits ⟨index, hlt⟩ <;> simp [← hframe, Frame.asRecovered]
  | rxTurn =>
    refine ⟨?_, hr.rxTurn⟩
    show SenderInv config l.rxTurn
    unfold Path3Link.rxTurn
    split
    · exact hs
    · exact ⟨hs.nearActive, hs.active, hs.payloadSize, hs.counter, hs.stream, hs.queued, hs.cut⟩
  | read =>
    exact ⟨⟨hs.nearActive, hs.active, hs.payloadSize, hs.counter, hs.stream, hs.queued, hs.cut⟩,
      hr.config_eq, hr.history⟩

theorem run_preserves (config : BondingConfig) (events : List LinkEvent) :
    SenderInv config (run crc32 streamId config events) ∧
      ReceiverInv config (run crc32 streamId config events) := by
  unfold run
  induction events using List.reverseRecOn with
  | nil => exact ⟨SenderInv.create streamId, ReceiverInv.create streamId⟩
  | append_singleton events event ih =>
    rw [exec_concat]
    exact step_preserves crc32 ih.1 ih.2 event

/-- Whatever the paths lose, repeat or put out of order: until the sequence
counter wraps, what is handed on are pieces of the packets that were injected, in
their order and each at most once. -/
theorem handed_sublist_pieces (config : BondingConfig) (events : List LinkEvent) :
    let l := run crc32 streamId config events
    2 ^ 63 < l.frames.length ∨ ∃ taken pieces, taken <+: l.injected ∧
      List.Forall₂ (Cut config.maxPayloadSize) taken pieces ∧ l.handed.Sublist pieces.flatten := by
  intro l
  obtain ⟨hs, hr⟩ := run_preserves crc32 streamId config events
  rcases Nat.lt_or_ge (2 ^ 63) l.frames.length with hwrapped | hfits
  · exact .inl hwrapped
  · obtain ⟨taken, pieces, hinjected, hframes, hcut⟩ := hs.cut
    obtain ⟨ops, -, hout, hcarries⟩ := hr.history hfits
    refine .inr ⟨taken, pieces, ⟨_, hinjected.symm⟩, hcut, ?_⟩
    have hdelivered := BufferRun.run_delivered_sublist config.reorderParams hcarries
    rw [← hout, hframes] at hdelivered
    exact (sublist_append_left _ _).trans hdelivered

theorem handed_eq_injected_iff (config : BondingConfig) (events : List LinkEvent)
    (hlossless : Lossless (run crc32 streamId config events))
    (hfits : (run crc32 streamId config events).frames.length ≤ 2 ^ 63) :
    (run crc32 streamId config events).handed = (run crc32 streamId config events).injected ↔
      ∀ packet ∈ (run crc32 streamId config events).injected,
        packet.length ≤ config.maxPayloadSize := by
  obtain ⟨hs, hr⟩ := run_preserves crc32 streamId config events
  obtain ⟨taken, pieces, hinjected, hframes, hcut⟩ := hs.cut
  rw [hlossless.sent, append_nil] at hinjected
  obtain ⟨ops, hbuffer, hout, hcarries⟩ := hr.history hfits
  rw [hlossless.handedOn, append_nil] at hout
  have hall := (BufferRun.run_delivered_eq_iff config.reorderParams hcarries).mpr
    ⟨by rw [← hbuffer]; exact hlossless.nothingLost,
      by rw [← hbuffer, hlossless.delivered, length_map]⟩
  rw [hout, hall, hframes, hinjected]
  exact pieces_eq_packets_iff hcut

/-- **Packet boundaries survive exactly up to the payload size**, in lossless runs
with the default configuration. -/
theorem path3_boundaries_survive_iff (crc32 : List UInt8 → UInt32) (streamId : Int32)
    (events : List LinkEvent) (hlossless : Lossless (run crc32 streamId {} events))
    (hfits : (run crc32 streamId {} events).frames.length ≤ 2 ^ 63) :
    (run crc32 streamId {} events).handed = (run crc32 streamId {} events).injected ↔
      ∀ packet ∈ (run crc32 streamId {} events).injected, packet.length ≤ 1200 :=
  handed_eq_injected_iff crc32 streamId {} events hlossless hfits

theorem path3_boundaries_survive_of_small :
    (run Lib.crc32 7 {} [.inject [1, 2], .inject [3], .txTurn (fun _ => 0), .txTurn (fun _ => 0),
      .arrive 1 .wifi 1, .arrive 2 .cellular 0, .reassemble 3 none, .rxTurn, .rxTurn]).handed =
    (run Lib.crc32 7 {} [.inject [1, 2], .inject [3], .txTurn (fun _ => 0), .txTurn (fun _ => 0),
      .arrive 1 .wifi 1, .arrive 2 .cellular 0, .reassemble 3 none, .rxTurn, .rxTurn]).injected :=
  (path3_boundaries_survive_iff Lib.crc32 7
    [.inject [1, 2], .inject [3], .txTurn (fun _ => 0), .txTurn (fun _ => 0),
      .arrive 1 .wifi 1, .arrive 2 .cellular 0, .reassemble 3 none, .rxTurn, .rxTurn]
    ⟨by decide +kernel, by decide +kernel, by decide +kernel, by decide +kernel⟩
    (by decide +kernel)).mpr (by decide +kernel)

def packetJourney (packet : List UInt8) : List LinkEvent :=
  [.inject packet, .txTurn (fun _ => 0)] ++
    [.arrive 1 .wifi 0, .arrive 2 .cellular 1, .reassemble 3 none, .rxTurn, .rxTurn]

theorem packetJourney_sent (hlong : 1200 < packet.length) (hmtu : packet.length ≤ 1400) :
    exec (step crc32) (create 7 {}) [.inject packet, .txTurn (fun _ => 0)] =
      { create 7 {} with
        sender := { BondingEngine.started 7 {} with frameProcessor := ⟨7, 1200, 2⟩ }
        frames :=
          [FrameProcessor.dataFrame ⟨7, 1200, 0⟩ 0 (packet.take 1200),
            FrameProcessor.dataFrame ⟨7, 1200, 1⟩ 0 (packet.drop 1200)]
        injected := [packet] } := by
  have hpacket : packet.isEmpty = false := by
    rw [isEmpty_eq_false_iff]
    rintro rfl
    simp at hlong
  have hinject : VirtualPath3Endpoint.started.injectFromAndroid packet =
      (true, { VirtualPath3Endpoint.started with androidToBonding := [packet] }) := by
    simp [VirtualPath3Endpoint.injectFromAndroid, VirtualPath3Endpoint.started,
      VirtualPath3Endpoint.isActive, hpacket, Nat.not_lt.mpr hmtu]
  have hmade : (BondingEngine.started 7 {}).frameProcessor.createFrames (fun _ => 0) packet =
      ([FrameProcessor.dataFrame ⟨7, 1200, 0⟩ 0 (packet.take 1200),
        FrameProcessor.dataFrame ⟨7, 1200, 1⟩ 0 (packet.drop 1200)], ⟨7, 1200, 2⟩) :=
    FrameProcessor.createFrames_two (fun _ => 0) packet (FrameProcessor.create 7 1200) hlong
      (show packet.length ≤ 2 * 1200 by omega)
  show txTurn (fun _ => 0) (step crc32 (create 7 {}) (.inject packet)) = _
  simp only [step, create, hinject]
  unfold txTurn
  rw [receiveFromAndroid_active rfl]
  simp only [BondingEngine.send_active
    (show (BondingEngine.started 7 {}).engineState = .active from rfl),
    hmade]
  rfl

theorem twoFrames_read (a b : List UInt8) :
    (((WindowedReorderBuffer.create 0).push ({} : BondingConfig).reorderParams 1
      (BinaryFrameCodec.withChecksum crc32 (FrameProcessor.dataFrame ⟨7, 1200, 0⟩ 0 a))).push
        ({} : BondingConfig).reorderParams 2
        (BinaryFrameCodec.withChecksum crc32
          (FrameProcessor.dataFrame ⟨7, 1200, 1⟩ 0 b))).readOrdered
            ({} : BondingConfig).reorderParams 3 none =
      ({ WindowedReorderBuffer.create 0 with expectedSequence := 2, gapFirstObservedAtMs := 2 },
        [BinaryFrameCodec.withChecksum crc32 (FrameProcessor.dataFrame ⟨7, 1200, 0⟩ 0 a),
          BinaryFrameCodec.withChecksum crc32 (FrameProcessor.dataFrame ⟨7, 1200, 1⟩ 0 b)]) := by
  rfl

theorem packetJourney_splits (hlong : 1200 < packet.length) (hmtu : packet.length ≤ 1400) :
    Lossless (run crc32 7 {} (packetJourney packet)) ∧
    (run crc32 7 {} (packetJourney packet)).injected = [packet] ∧
    (run crc32 7 {} (packetJourney packet)).handed =
      [packet.take 1200, packet.drop 1200] := by
  have hstart : run crc32 7 {} (packetJourney packet) = _ := exec_append _ _ _ _
  rw [packetJourney_sent crc32 hlong hmtu] at hstart
  have hwf : ∀ f ∈ (FrameProcessor.createFrames (fun _ => 0) packet (.create 7 1200)).1,
      FrameProcessor.WellFormed 1200 f :=
    FrameProcessor.createFrames_wellFormed (fun _ => 0) packet (.create 7 1200)
      (show 0 < 1200 by decide)
  rw [FrameProcessor.createFrames_two (fun _ => 0) packet (FrameProcessor.create 7 1200) hlong
      (show packet.length ≤ 2 * 1200 by omega)] at hwf
  obtain ⟨d₀, henc₀, hturn₀⟩ := BondingEngine.receiverTurn_encode crc32
    (hwf (FrameProcessor.dataFrame ⟨7, 1200, 0⟩ 0 (packet.take 1200)) (by simp; exact Or.inl rfl))
    (by decide)
  obtain ⟨d₁, henc₁, hturn₁⟩ := BondingEngine.receiverTurn_encode crc32
    (hwf (FrameProcessor.dataFrame ⟨7, 1200, 1⟩ 0 (packet.drop 1200)) (by simp; exact Or.inr rfl))
    (by decide)
  simp only [exec, foldl_cons, foldl_nil, step, getElem?_cons_zero,
    getElem?_cons_succ, henc₀, hturn₀, henc₁, hturn₁, bind_none, map_none,
    create, BondingEngine.started, BondingEngine.create, BondingEngine.reassemblyTurn,
    ite_self, twoFrames_read] at hstart
  rw [hstart]
  exact ⟨⟨rfl, rfl, rfl, rfl⟩, rfl, rfl⟩

theorem path3_splits_large_packet :
    Lossless (run Lib.crc32 7 {} (packetJourney (List.replicate 1201 0))) ∧
    (run Lib.crc32 7 {} (packetJourney (List.replicate 1201 0))).handed ≠
      (run Lib.crc32 7 {} (packetJourney (List.replicate 1201 0))).injected := by
  have hlen : (List.replicate 1201 (0 : UInt8)).length = 1201 := length_replicate
  obtain ⟨hlossless, hinjected, hhanded⟩ := packetJourney_splits Lib.crc32
    (show 1200 < (List.replicate 1201 (0 : UInt8)).length by omega) (by omega)
  refine ⟨hlossless, ?_⟩
  rw [hinjected, hhanded]
  intro heq
  have hcount := congrArg List.length heq
  simp only [length_cons, length_nil] at hcount
  omega

end Path3Link

end BigRocket.Bonding
