/-
From the client's segments to the upstream socket: what is written, and what is
still queued when the socket goes.
-/
import BigRocket.Lib.Fifo
import BigRocket.Relay.SessionTheorems

namespace BigRocket.Relay

open Lib List

/-! ## The queue of a session -/

namespace TcpSession

def inHand (x : TcpSession) : List PendingWrite :=
  match x.writer with
  | .writing pending | .finished (some pending) => [pending]
  | _ => []

def unwritten (x : TcpSession) : List (List UInt8) :=
  (x.inHand ++ x.writeChannel).map PendingWrite.payload

def upload (x : TcpSession) : Fifo (List UInt8) := ⟨x.accepted, x.written, x.unwritten⟩

variable (x : TcpSession)

theorem upload_heardFrom (now : Int) (p : ClientPacket) :
    (x.heardFrom now p).upload = x.upload := rfl

theorem upload_finished (p : ClientPacket) : (x.finished p).upload = x.upload := rfl

theorem upload_torn (a b c : Bool) : (x.torn a b c).upload = x.upload := rfl

theorem upload_enqueue (p : ClientPacket) : (x.enqueue p).upload = x.upload.accept p.data := by
  simp [upload, enqueue, Fifo.accept, unwritten, inHand]

theorem upload_listenForTcpResponses (e : ReaderEvent) :
    (x.listenForTcpResponses e).session.upload = x.upload := by
  cases e with
  | starts => simp only [listenForTcpResponses]; split_ifs <;> rfl
  | reads block => simp only [listenForTcpResponses]; split_ifs <;> rfl
  | endOfStream => simp only [listenForTcpResponses]; split_ifs <;> rfl
  | fails => simp only [listenForTcpResponses]; split <;> rfl
  | sends now =>
    simp only [listenForTcpResponses]
    split
    · unfold writeChunkedRespectingWindow
      dsimp only
      split_ifs <;> rfl
    · rfl

theorem upload_runSocketWriter (e : WriterEvent) :
    (x.runSocketWriter e).session.upload = x.upload ∨
      (x.runSocketWriter e).exits = false ∧
        (x.runSocketWriter e).session.upload = x.upload.pass := by
  cases e with
  | starts =>
    left
    simp only [runSocketWriter]
    split_ifs <;> simp_all [upload, unwritten, inHand]
  | takes =>
    left
    simp only [runSocketWriter]
    split
    · next hwriter hchannel => simp [upload, unwritten, inHand, hwriter, hchannel]
    · rfl
  | writes now =>
    simp only [runSocketWriter]
    split
    · next pending hwriter =>
        split_ifs
        · right
          simp [upload, unwritten, inHand, hwriter, Fifo.pass]
        · exact .inl rfl
    · exact .inl rfl
  | fails =>
    left
    simp only [runSocketWriter]
    split
    · next pending hwriter => simp [upload, unwritten, inHand, hwriter]
    · rfl
  | ends =>
    left
    simp only [runSocketWriter]
    split_ifs with hends
    · simp [upload, unwritten, inHand, hends.1]
    · rfl

end TcpSession

namespace TcpRelay

variable {r : TcpRelay}

theorem upload_closeSession (key : SessionKey) (j : Nat) :
    ((r.closeSession key).session j).upload = (r.session j).upload := by
  rw [closeSession_eq]
  exact (r.session j).upload_torn _ _ _

def Accepts (r : TcpRelay) (p : ClientPacket) (i : Nat) : Prop :=
  p.has TcpFlag.rst = false ∧ r.sessions.get p.key = some i ∧ 0 < p.data.length ∧
    (r.session i).channelFull = false

variable (now : Int) (p : ClientPacket) (i j : Nat)

theorem upload_forwardDataToSocket :
    ((r.forwardDataToSocket p i).session j).upload =
      if j = i ∧ (r.session i).channelFull = false then (r.session j).upload.accept p.data
      else (r.session j).upload := by
  unfold forwardDataToSocket
  split_ifs with hfull hj hj
  · simp [hfull] at hj
  · exact upload_closeSession p.key j
  · rw [hj.1, set_session_self, TcpSession.upload_enqueue]
  · have hne : j ≠ i := by simpa [hfull] using hj
    simp [set_session, hne]

theorem upload_handleSegment :
    ((r.handleSegment now p i).session j).upload =
      if j = i ∧ 0 < p.data.length ∧ (r.session i).channelFull = false then
        (r.session j).upload.accept p.data
      else (r.session j).upload := by
  have hheard : ∀ k, ((r.set i ((r.session i).heardFrom now p)).session k).upload =
      (r.session k).upload :=
    set_session_proj TcpSession.upload ((r.session i).upload_heardFrom now p)
  have hfin : ∀ r' : TcpRelay, ((r'.handleFin p i).session j).upload = (r'.session j).upload :=
    fun r' => set_session_proj TcpSession.upload ((r'.session i).upload_finished p) j
  have hdata : (((r.set i ((r.session i).heardFrom now p)).forwardDataToSocket p i).session j).upload
      = if j = i ∧ (r.session i).channelFull = false then (r.session j).upload.accept p.data
        else (r.session j).upload := by
    rw [upload_forwardDataToSocket, set_session_self, hheard]
    rfl
  unfold handleSegment
  by_cases hlen : 0 < p.data.length
  · simp only [hlen, if_true, true_and]
    split
    · rw [hfin, hdata]
    · exact hdata
  · simp only [hlen, if_false, false_and, and_false]
    split
    · rw [hfin, hheard]
    · exact hheard j

theorem upload_forwardTcpPacket :
    ((r.forwardTcpPacket now p).session j).upload = (r.session j).upload ∨
      Accepts r p j ∧
        ((r.forwardTcpPacket now p).session j).upload = (r.session j).upload.accept p.data := by
  unfold forwardTcpPacket
  split
  · exact .inl (upload_closeSession p.key j)
  · next hrst =>
      rcases hget : r.sessions.get p.key with _ | i
      · split_ifs <;> exact .inl rfl
      · rw [upload_handleSegment]
        split_ifs with haccept
        · obtain ⟨rfl, hdata, hfull⟩ := haccept
          exact .inr ⟨⟨by simpa using hrst, hget, hdata, hfull⟩, rfl⟩
        · exact .inl rfl

theorem upload_coroutineStep (turn : Turn) (hturn : turn.session.upload = (r.session i).upload) :
    ((r.coroutineStep i turn).session j).upload = (r.session j).upload := by
  have hset := set_session_proj TcpSession.upload hturn j
  unfold coroutineStep
  split_ifs
  · rw [upload_closeSession]
    exact hset
  · exact hset

theorem upload_writerStep (e : WriterEvent) :
    ((r.coroutineStep i ((r.session i).runSocketWriter e)).session j).upload =
        (r.session j).upload ∨
      ((r.coroutineStep i ((r.session i).runSocketWriter e)).session j).upload =
        (r.session j).upload.pass := by
  rcases (r.session i).upload_runSocketWriter e with hsame | ⟨hexit, hpass⟩
  · exact .inl (upload_coroutineStep i j _ hsame)
  · simp only [coroutineStep, hexit, Bool.false_eq_true, if_false, write_session, set_session]
    split_ifs with hj
    · subst hj
      exact .inr hpass
    · exact .inl rfl

theorem upload_resetIf (notify : Bool) (cond : TcpSession → Bool) (key : SessionKey) (j : Nat) :
    ((r.resetIf notify cond key).session j).upload = (r.session j).upload := by
  unfold resetIf
  split
  · rfl
  · split_ifs
    · exact upload_closeSession key j
    · exact upload_closeSession key j
    · rfl

theorem upload_reap (key : SessionKey) (j : Nat) :
    ((r.reap now key).session j).upload = (r.session j).upload := by
  unfold reap
  split_ifs
  · exact upload_resetIf _ _ key j
  · rfl

theorem upload_endAll (closeChannels : Bool) (j : Nat) :
    ((r.endAll closeChannels).session j).upload = (r.session j).upload := rfl

theorem upload_setUpstreamMode (mode : UpstreamMode) (j : Nat) :
    ((r.setUpstreamMode mode).session j).upload = (r.session j).upload := by
  unfold setUpstreamMode
  split_ifs
  · rfl
  · exact upload_endAll false j

theorem upload_openerStep (hc : Settled r) (o j : Nat) (e : OpenerEvent) :
    ((r.openerStep o e).session j).upload = (r.session j).upload ∨
      j = r.created ∧ ((r.openerStep o e).session j).upload = .empty := by
  cases e with
  | evicts victim =>
    left
    rcases evicts_cases r o victim with heq | ⟨-, heq | ⟨i, -, heq⟩⟩ <;> rw [heq]
    · rfl
    · exact upload_closeSession victim j
  | connects now serverIsn =>
    by_cases hphase : (r.opener o).phase = .connecting
    · rw [connects_session hphase]
      split_ifs with hj
      · exact .inr ⟨hj, rfl⟩
      · exact .inl rfl
    · simp [openerStep, hphase]
  | connectFails =>
    left
    simp only [openerStep]
    split_ifs <;> rfl
  | launches =>
    left
    simp only [openerStep]
    split
    · next i isn hphase =>
        obtain ⟨-, -, hun, -⟩ := hc.opener o i isn hphase
        simp only [TcpSession.unlaunched, Bool.and_eq_true, decide_eq_true_eq] at hun
        refine set_session_proj TcpSession.upload ?_ j
        simp [TcpSession.upload, TcpSession.unwritten, TcpSession.inHand, hun.2]
    · rfl
  | synAckFails =>
    left
    simp only [openerStep]
    split
    · next i isn hphase =>
        have hset := set_session_proj (r := r) (i := i) TcpSession.upload
          (y := { r.session i with socketClosed := true }) rfl j
        exact hset
    · rfl

theorem step_upload (hc : Settled r) (e : RelayEvent) (j : Nat) :
    ((r.step e).session j).upload = (r.session j).upload ∨
      (∃ now p, e = .packet now p ∧ Accepts r p j ∧
        ((r.step e).session j).upload = (r.session j).upload.accept p.data) ∨
      ((r.step e).session j).upload = (r.session j).upload.pass ∨
      j = r.created ∧ ((r.step e).session j).upload = .empty := by
  cases e with
  | packet now p =>
    rcases r.upload_forwardTcpPacket now p j with hsame | haccept
    · exact .inl hsame
    · exact .inr (.inl ⟨now, p, rfl, haccept⟩)
  | opener o e =>
    rcases upload_openerStep hc o j e with hsame | hnew
    · exact .inl hsame
    · exact .inr (.inr (.inr hnew))
  | reader i e =>
    exact .inl (upload_coroutineStep i j _ ((r.session i).upload_listenForTcpResponses e))
  | writer i e =>
    rcases r.upload_writerStep i j e with hsame | hpass
    · exact .inl hsame
    · exact .inr (.inr (.inl hpass))
  | reap now key => exact .inl (upload_reap now key j)
  | networkLost deadNetwork key => exact .inl (upload_resetIf _ _ key j)
  | setTunOutputStream present => exact .inl rfl
  | setUpstreamMode mode => exact .inl (upload_setUpstreamMode mode j)
  | clear => exact .inl (upload_endAll true j)

theorem step_upload_ordered (hc : Settled r)
    (h : ∀ j, (r.session j).upload.Ordered) (e : RelayEvent) (j : Nat) :
    ((r.step e).session j).upload.Ordered := by
  rcases step_upload hc e j with heq | ⟨_, p, -, -, heq⟩ | heq | ⟨-, heq⟩ <;> rw [heq]
  · exact h j
  · exact (h j).accept p.data
  · exact (h j).pass
  · exact Fifo.ordered_empty

theorem run_upload_ordered (events : List RelayEvent) (j : Nat) :
    ((run events).session j).upload.Ordered := by
  induction events using List.reverseRecOn generalizing j with
  | nil => rfl
  | append_singleton events e ih =>
    rw [run, exec_concat]
    exact step_upload_ordered (run_consistent events) ih e j

/-! ## The bytes written are the client's stream -/

end TcpRelay

namespace TcpSession

def bytesAccepted (x : TcpSession) : Nat := x.accepted.flatten.length

/-- A segment that a client with this byte stream can send, less than half the
sequence space away from what was accepted. -/
def Conforming (stream : List UInt8) (x : TcpSession) (p : ClientPacket) : Prop :=
  ∃ offset ≤ stream.length,
    p.tcpSeq = (x.firstSeq + offset) % 2 ^ 32 ∧
      p.data = (stream.drop offset).take p.data.length ∧
      offset < x.bytesAccepted + 2 ^ 31 ∧ x.bytesAccepted < offset + 2 ^ 31

def StartsAtEnd (x : TcpSession) (p : ClientPacket) : Prop :=
  p.tcpSeq = (x.firstSeq + x.bytesAccepted) % 2 ^ 32

/-- What the socket got is an initial part of the stream, and all of it once
all of it was accepted and nothing is on the way. -/
structure UploadExact (stream : List UInt8) (x : TcpSession) : Prop where
  inSequence : x.written.flatten <+: stream
  complete : x.bytesAccepted = stream.length → x.unwritten = [] → x.written.flatten = stream

instance (stream : List UInt8) (x : TcpSession) (p : ClientPacket) :
    Decidable (x.Conforming stream p) :=
  inferInstanceAs (Decidable (∃ offset ≤ stream.length, _))

instance (x : TcpSession) (p : ClientPacket) : Decidable (x.StartsAtEnd p) :=
  inferInstanceAs (Decidable (_ = _))

theorem data_of_conforming {stream : List UInt8} {x : TcpSession} {p : ClientPacket}
    (hclient : x.Conforming stream p) (hstart : x.StartsAtEnd p) :
    p.data = (stream.drop x.bytesAccepted).take p.data.length := by
  obtain ⟨offset, -, hseq, hdata, hnear, hnear'⟩ := hclient
  have hoffset : offset = x.bytesAccepted := by
    unfold StartsAtEnd at hstart
    omega
  rwa [hoffset] at hdata

theorem uploadExact_of_accepted {stream : List UInt8} {x : TcpSession} (h : x.upload.Ordered)
    (haccepted : x.accepted.flatten <+: stream) : UploadExact stream x := by
  have hinitial : x.written.flatten <+: x.accepted.flatten := by
    obtain ⟨rest, hrest⟩ := h.passed_prefix_accepted
    exact ⟨rest.flatten, by rw [← flatten_append]; exact congrArg List.flatten hrest⟩
  refine ⟨hinitial.trans haccepted, ?_⟩
  intro hlength hdrained
  have hwritten : x.written = x.accepted := h.passed_eq_iff.mpr hdrained
  rw [hwritten]
  exact haccepted.eq_of_length hlength

end TcpSession

namespace TcpRelay

def SegmentsFor (i : Nat) (cond : TcpSession → ClientPacket → Prop) (r : TcpRelay) :
    RelayEvent → Prop
  | .packet _ p => Accepts r p i → cond (r.session i) p
  | _ => True

instance (p : ClientPacket) (i : Nat) : Decidable (Accepts r p i) :=
  inferInstanceAs (Decidable (_ ∧ _ ∧ _ ∧ _))

instance (i : Nat) (cond : TcpSession → ClientPacket → Prop) [∀ x p, Decidable (cond x p)]
    (e : RelayEvent) : Decidable (SegmentsFor i cond r e) := by
  refine e.casesOn ?_ ?_ ?_ ?_ ?_ ?_ ?_ ?_ ?_ <;> intros <;> dsimp only [SegmentsFor] <;>
    infer_instance

theorem step_accepted_initial (hc : Settled r) {i : Nat} {stream : List UInt8}
    (h : (r.session i).accepted.flatten <+: stream) {e : RelayEvent}
    (hclient : SegmentsFor i (TcpSession.Conforming stream) r e)
    (hstart : SegmentsFor i TcpSession.StartsAtEnd r e) :
    ((r.step e).session i).accepted.flatten <+: stream := by
  have haccepted : ∀ x : TcpSession, x.accepted = x.upload.accepted := fun _ => rfl
  rw [haccepted] at h ⊢
  rcases step_upload hc e i with heq | ⟨now, p, rfl, haccepts, heq⟩ | heq | ⟨-, heq⟩ <;> rw [heq]
  · exact h
  · have hdata := TcpSession.data_of_conforming (hclient haccepts) (hstart haccepts)
    obtain ⟨rest, rfl⟩ := h
    simp only [TcpSession.bytesAccepted, haccepted, drop_left] at hdata
    simp only [Fifo.accept, flatten_append, flatten_singleton]
    rw [prefix_append_right_inj, hdata]
    exact take_prefix _ _
  · exact h
  · exact nil_prefix

/-- **The bytes written upstream are the client's stream, in order and each
once**, if each data segment begins where the bytes accepted before it end. -/
theorem upload_exact_of_segments_in_sequence (events : List RelayEvent) (i : Nat)
    (stream : List UInt8)
    (hclient : AlongRun
      (fun before e => SegmentsFor i (TcpSession.Conforming stream) (run before) e) events)
    (hstart : AlongRun
      (fun before e => SegmentsFor i TcpSession.StartsAtEnd (run before) e) events) :
    ∀ before, before <+: events → TcpSession.UploadExact stream ((run before).session i) := by
  intro before hbefore
  refine TcpSession.uploadExact_of_accepted (run_upload_ordered before i) ?_
  have hboth : AlongRun (fun before e =>
      SegmentsFor i (TcpSession.Conforming stream) (run before) e ∧
        SegmentsFor i TcpSession.StartsAtEnd (run before) e) before := by
    intro front e back heq
    exact ⟨hclient.initial hbefore front e back heq, hstart.initial hbefore front e back heq⟩
  refine exec_invariant (I := fun events => ((run events).session i).accepted.flatten <+: stream)
    nil_prefix ?_ hboth
  rintro front e hfront ⟨hconforms, hstarts⟩
  rw [run, exec_concat]
  exact step_accepted_initial (run_consistent front) hfront hconforms hstarts

def retransmission : List RelayEvent :=
  establish 0 0 0 ++
    [.packet 10 sampleData, .writer 0 .takes, .packet 1010 sampleData, .writer 0 (.writes 1200),
      .writer 0 .takes, .writer 0 (.writes 1210)]

theorem retransmission_written_twice :
    AlongRun (fun before e =>
        SegmentsFor 0 (TcpSession.Conforming [0x47, 0x45, 0x54]) (run before) e) retransmission ∧
      ((run retransmission).session 0).written.flatten = [0x47, 0x45, 0x54, 0x47, 0x45, 0x54] ∧
      ¬ TcpSession.UploadExact [0x47, 0x45, 0x54] ((run retransmission).session 0) := by
  have hwritten : ((run retransmission).session 0).written.flatten =
      [0x47, 0x45, 0x54, 0x47, 0x45, 0x54] := by
    decide +kernel
  refine ⟨by decide +kernel, hwritten, ?_⟩
  intro h
  have hlength := h.inSequence.length_le
  rw [hwritten] at hlength
  simp at hlength

def twoSegments : List RelayEvent :=
  establish 0 0 0 ++
    [.packet 10 sampleData, .packet 20 { sampleData with tcpSeq := 1004, data := [0x20, 0x2f] },
      .writer 0 .takes, .writer 0 (.writes 30), .writer 0 .takes, .writer 0 (.writes 40)]

theorem upload_exact_of_two_segments :
    ((run twoSegments).session 0).written.flatten = [0x47, 0x45, 0x54, 0x20, 0x2f] := by
  have hexact := upload_exact_of_segments_in_sequence twoSegments 0 [0x47, 0x45, 0x54, 0x20, 0x2f]
    (by decide +kernel) (by decide +kernel) twoSegments prefix_rfl
  exact hexact.complete (by decide +kernel) (by decide +kernel)

end TcpRelay

end BigRocket.Relay
