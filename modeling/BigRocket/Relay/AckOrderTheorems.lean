/-
The order in which a session's acknowledgement numbers reach the TUN device.
They can only go back where `clientNextSeq` is set back, or where a packet that
was built waits while it moves on; both do happen.
-/
import BigRocket.Relay.CloseTheorems
import BigRocket.Relay.SessionThreads

namespace BigRocket.Relay

open Lib List Option

/-- `b` is not behind `a`, as numbers of 32 bits that wrap around are
compared. -/
def SeqLe (a b : Int) : Prop := (b - a) % 2 ^ 32 < 2 ^ 31

instance (a b : Int) : Decidable (SeqLe a b) := inferInstanceAs (Decidable (_ < _))

theorem SeqLe.refl (a : Int) : SeqLe a a := by
  simp [SeqLe]

def FinStage.packet : FinStage → Option TunPacket
  | .built packet => some packet
  | _ => none

def WriterStage.packet : WriterStage → Option TunPacket
  | .built packet => some packet
  | _ => none

def WriterStage.next : WriterStage → Option Int
  | .wrote pending => some pending.clientNextSeqAfter
  | _ => none

namespace TcpSession

variable (x : TcpSession)

theorem runSocketWriter_clientNextSeq {e : WriterEvent} (he : ∀ now, e ≠ .writes now) :
    (x.runSocketWriter e).session.clientNextSeq = x.clientNextSeq := by
  cases e with
  | writes now => exact absurd rfl (he now)
  | starts =>
    simp only [runSocketWriter]
    split_ifs <;> rfl
  | takes =>
    simp only [runSocketWriter]
    split <;> rfl
  | fails =>
    simp only [runSocketWriter]
    split <;> rfl
  | ends =>
    simp only [runSocketWriter]
    split_ifs <;> rfl

theorem listenForTcpResponses_clientNextSeq (e : ReaderEvent) :
    (x.listenForTcpResponses e).session.clientNextSeq = x.clientNextSeq ∧
      ∀ p ∈ (x.listenForTcpResponses e).packets, p.ackNumber = x.clientNextSeq := by
  cases e with
  | starts =>
    simp only [listenForTcpResponses]
    split_ifs <;> simp
  | reads block =>
    simp only [listenForTcpResponses]
    split_ifs <;> simp
  | sends now =>
    simp only [listenForTcpResponses]
    split
    · simp only [writeChunkedRespectingWindow]
      split_ifs <;> simp [response]
    · simp
  | endOfStream =>
    simp only [listenForTcpResponses]
    split_ifs <;> simp [response]
  | fails =>
    simp only [listenForTcpResponses]
    split <;> simp

end TcpSession

namespace SessionThreads

variable {t t' : SessionThreads}

def unwritten (t : SessionThreads) : List TunPacket :=
  t.fin.packet.toList ++ t.writer.packet.toList ++ t.waiting

theorem mem_unwritten {p : TunPacket} :
    p ∈ t.unwritten ↔ t.fin.packet = some p ∨ t.writer.packet = some p ∨ p ∈ t.waiting := by
  simp [unwritten]

structure InOrder (t : SessionThreads) : Prop where
  chain : t.acks.IsChain SeqLe
  last : ∀ a ∈ t.acks.getLast?, SeqLe a t.session.clientNextSeq
  unwritten : ∀ p ∈ t.unwritten, p.ackNumber = t.session.clientNextSeq

/-- `clientNextSeq` may be set to `next`: it is that already, or no packet of
the session waits and `next` is not behind the last number written. -/
def MayAssign (next : Int) (t : SessionThreads) : Prop :=
  next = t.session.clientNextSeq ∨
    t.unwritten = [] ∧ ∀ a ∈ t.acks.getLast?, SeqLe a next

/-- The writer and the branch for a FIN set `clientNextSeq` only when they
may, and an opening fails before anything else was acknowledged. -/
def Orderly (t : SessionThreads) : ThreadEvent → Prop
  | .finAssigns p => t.fin = .idle → t.MayAssign (p.tcpSeq + p.data.length + 1)
  | .writerAssigns _ => ∀ next ∈ t.writer.next, t.MayAssign next
  | .buildsOpeningRst => t.session.firstSeq = t.session.clientNextSeq
  | _ => True

instance (next : Int) (t : SessionThreads) : Decidable (t.MayAssign next) :=
  inferInstanceAs (Decidable (_ ∨ _))

instance (t : SessionThreads) : DecidablePred t.Orderly := fun e => by
  cases e <;> simp only [Orderly] <;> infer_instance

/-! ## One step -/

theorem InOrder.of_same (h : InOrder t)
    (hseq : t'.session.clientNextSeq = t.session.clientNextSeq) (htun : t'.tun = t.tun)
    (hwaits : ∀ p ∈ t'.unwritten, p ∈ t.unwritten ∨ p.ackNumber = t.session.clientNextSeq) :
    InOrder t' := by
  have hacks : t'.acks = t.acks := by rw [acks, htun, acks]
  refine ⟨hacks ▸ h.chain, ?_, fun p hp => ?_⟩
  · rw [hacks, hseq]
    exact h.last
  · rw [hseq]
    exact (hwaits p hp).elim (h.unwritten p) id

theorem InOrder.emit (h : InOrder t) {packet : TunPacket}
    (hpacket : packet.ackNumber = t.session.clientNextSeq) (succeeds : Bool) :
    InOrder (t.emit packet succeeds) := by
  unfold SessionThreads.emit
  split_ifs
  · have hacks : (t.tun ++ [packet]).map TunPacket.ackNumber =
        t.acks ++ [t.session.clientNextSeq] := by
      rw [map_append, map_singleton, hpacket, acks]
    refine ⟨?_, ?_, h.unwritten⟩
    · simp only [acks, hacks]
      refine h.chain.append (isChain_singleton _) ?_
      intro a ha b hb
      rw [head?_cons, mem_some_iff] at hb
      exact hb ▸ h.last a ha
    · simp only [acks, hacks, getLast?_concat, mem_some_iff]
      rintro a rfl
      exact SeqLe.refl _
  · exact h

theorem InOrder.assign (h : InOrder t) {next : Int} (hmay : t.MayAssign next)
    (hseq : t'.session.clientNextSeq = next) (htun : t'.tun = t.tun)
    (hwaits : ∀ p ∈ t'.unwritten, p ∈ t.unwritten) : InOrder t' := by
  rcases hmay with rfl | ⟨hnone, hlast⟩
  · exact h.of_same hseq htun fun p hp => .inl (hwaits p hp)
  · have hacks : t'.acks = t.acks := by rw [acks, htun, acks]
    refine ⟨hacks ▸ h.chain, ?_, fun p hp => ?_⟩
    · rw [hacks, hseq]
      exact hlast
    · have hp' := hwaits p hp
      rw [hnone] at hp'
      cases hp'

theorem InOrder.finAssigns (h : InOrder t) {p : ClientPacket} (ho : t.Orderly (.finAssigns p)) :
    InOrder (t.finAssigns p) := by
  unfold SessionThreads.finAssigns
  split
  · next hfin =>
      refine h.assign (ho hfin) rfl rfl fun q hq => ?_
      rw [mem_unwritten] at hq ⊢
      exact .inr (hq.resolve_left (some_ne_none q).symm)
  · exact h

theorem InOrder.finBuilds (h : InOrder t) : InOrder t.finBuilds := by
  unfold SessionThreads.finBuilds
  split
  · refine h.of_same rfl rfl fun q hq => ?_
    rw [mem_unwritten] at hq ⊢
    rcases hq with hq | hq
    · exact .inr (some_inj.mp hq ▸ rfl)
    · exact .inl (.inr hq)
  · exact h

theorem InOrder.finSends (h : InOrder t) (succeeds : Bool) : InOrder (t.finSends succeeds) := by
  unfold SessionThreads.finSends
  split
  · next packet hfin =>
      have hpacket := h.unwritten packet (mem_unwritten.mpr (.inl (by rw [hfin]; rfl)))
      refine (h.emit hpacket succeeds).of_same rfl rfl fun q hq => ?_
      rw [mem_unwritten] at hq ⊢
      exact .inl (.inr (hq.resolve_left (some_ne_none q).symm))
  · exact h

theorem InOrder.finShutsOutput (h : InOrder t) : InOrder t.finShutsOutput := by
  unfold SessionThreads.finShutsOutput
  split
  · refine h.of_same rfl rfl fun q hq => ?_
    rw [mem_unwritten] at hq ⊢
    exact .inl (.inr (hq.resolve_left (some_ne_none q).symm))
  · exact h

theorem InOrder.writerTurn (h : InOrder t) (e : WriterEvent) : InOrder (t.writerTurn e) := by
  have hturn : (∀ now, e ≠ .writes now) →
      InOrder { t with session := (t.session.runSocketWriter e).session } := fun he =>
    h.of_same (t.session.runSocketWriter_clientNextSeq he) rfl fun q hq => .inl hq
  unfold SessionThreads.writerTurn
  split
  · exact hturn (by simp)
  · exact hturn (by simp)
  · exact hturn (by simp)
  · exact hturn (by simp)
  · exact h

theorem InOrder.writerWrites (h : InOrder t) : InOrder t.writerWrites := by
  unfold SessionThreads.writerWrites
  split
  · split_ifs
    · refine h.of_same rfl rfl fun q hq => ?_
      rw [mem_unwritten] at hq ⊢
      exact .inl (hq.imp_right fun hq => .inr (hq.resolve_left (some_ne_none q).symm))
    · exact h
  · exact h

theorem InOrder.writerAssigns (h : InOrder t) {now : Int} (ho : t.Orderly (.writerAssigns now)) :
    InOrder (t.writerAssigns now) := by
  unfold SessionThreads.writerAssigns
  split
  · next pending hwriter =>
      refine h.assign (ho _ (by rw [hwriter]; rfl)) rfl rfl fun q hq => ?_
      rw [mem_unwritten] at hq ⊢
      exact hq.imp_right fun hq => .inr (hq.resolve_left (some_ne_none q).symm)
  · exact h

theorem InOrder.writerBuilds (h : InOrder t) : InOrder t.writerBuilds := by
  unfold SessionThreads.writerBuilds
  split
  · refine h.of_same rfl rfl fun q hq => ?_
    rw [mem_unwritten] at hq ⊢
    rcases hq with hq | hq | hq
    · exact .inl (.inl hq)
    · exact .inr (some_inj.mp hq ▸ rfl)
    · exact .inl (.inr (.inr hq))
  · exact h

theorem InOrder.writerSends (h : InOrder t) (succeeds : Bool) :
    InOrder (t.writerSends succeeds) := by
  unfold SessionThreads.writerSends
  split
  · next packet hwriter =>
      have hpacket := h.unwritten packet (mem_unwritten.mpr (.inr (.inl (by rw [hwriter]; rfl))))
      refine (h.emit hpacket succeeds).of_same ?_ rfl fun q hq => ?_
      · simp only [SessionThreads.emit]
        split_ifs <;> rfl
      · rw [mem_unwritten] at hq ⊢
        exact .inl (hq.imp_right fun hq => .inr (hq.resolve_left (some_ne_none q).symm))
  · exact h

theorem InOrder.builds (h : InOrder t) {packets : List TunPacket}
    (hpackets : ∀ p ∈ packets, p.ackNumber = t.session.clientNextSeq) :
    InOrder (t.builds packets) := by
  refine h.of_same rfl rfl fun q hq => ?_
  rw [mem_unwritten] at hq ⊢
  rcases hq with hq | hq | hq
  · exact .inl (.inl hq)
  · exact .inl (.inr (.inl hq))
  · rcases mem_append.mp hq with hq | hq
    · exact .inl (.inr (.inr hq))
    · exact .inr (hpackets q hq)

theorem InOrder.sends (h : InOrder t) (n : Nat) (succeeds : Bool) :
    InOrder (t.sends n succeeds) := by
  unfold SessionThreads.sends
  split
  · exact h
  · next packet hn =>
      have hmem : packet ∈ t.waiting := mem_of_getElem? hn
      have hpacket := h.unwritten packet (mem_unwritten.mpr (.inr (.inr hmem)))
      have hfields : (t.emit packet succeeds).fin = t.fin ∧
          (t.emit packet succeeds).writer = t.writer ∧
          (t.emit packet succeeds).waiting = t.waiting := by
        unfold SessionThreads.emit
        split_ifs <;> exact ⟨rfl, rfl, rfl⟩
      refine (h.emit hpacket succeeds).of_same rfl rfl fun q hq => ?_
      rw [mem_unwritten] at hq ⊢
      rw [hfields.2.2]
      exact .inl (hq.imp_right (Or.imp_right fun hq => (eraseIdx_sublist _ _).subset hq))

theorem InOrder.step (h : InOrder t) {e : ThreadEvent} (ho : t.Orderly e) : InOrder (t.step e) := by
  have hsame : ∀ y : TcpSession, y.clientNextSeq = t.session.clientNextSeq →
      InOrder { t with session := y } := fun y hy => h.of_same hy rfl fun q hq => .inl hq
  cases e with
  | hears now p =>
    simp only [SessionThreads.step]
    split_ifs
    · exact hsame _ rfl
    · exact h
  | queues p =>
    simp only [SessionThreads.step]
    split_ifs
    · exact hsame _ rfl
    · exact h
  | finAssigns p => exact h.finAssigns ho
  | finBuilds => exact h.finBuilds
  | finSends succeeds => exact h.finSends succeeds
  | finShutsOutput => exact h.finShutsOutput
  | writerTurn e => exact h.writerTurn e
  | writerWrites => exact h.writerWrites
  | writerAssigns now => exact h.writerAssigns ho
  | writerBuilds => exact h.writerBuilds
  | writerSends succeeds => exact h.writerSends succeeds
  | readerTurn e =>
    obtain ⟨hseq, hpackets⟩ := t.session.listenForTcpResponses_clientNextSeq e
    exact (h.builds hpackets).of_same hseq rfl fun q hq => .inl hq
  | builds seqNumber flags data => exact h.builds (by simp)
  | buildsOpeningRst =>
    have hopening : t.openingRst.ackNumber = t.session.clientNextSeq := ho
    exact h.builds (by simp [hopening])
  | sends n succeeds => exact h.sends n succeeds
  | launches =>
    simp only [SessionThreads.step]
    split_ifs
    · exact hsame _ rfl
    · exact h
  | ends readerCancelled writerCancelled channelClosed socketClosed => exact hsame _ rfl

/-! ## Runs -/

/-- **Acknowledgements do not go back in an orderly run**, in whatever order
the threads of the session take their steps. -/
theorem acks_inOrder_of_orderly (x : TcpSession) (events : List ThreadEvent)
    (horderly : AlongRun (fun before e => (run x before).Orderly e) events) :
    (run x events).acks.IsChain SeqLe := by
  refine (exec_invariant (I := fun before => InOrder (run x before)) ?_ ?_ horderly).chain
  · exact ⟨isChain_nil, by simp [run, acks], by simp [run, unwritten, FinStage.packet,
      WriterStage.packet]⟩
  · intro before e h ho
    rw [run, exec_concat]
    exact h.step ho

def sampleSession : TcpSession :=
  TcpRelay.newSession 0 7 ⟨TcpRelay.sampleKey, 1000, 65535, 0, .connecting⟩

def nextData : ClientPacket := { TcpRelay.sampleData with tcpSeq := 1004 }

def writerBody (now : Int) : List ThreadEvent :=
  [.writerWrites, .writerAssigns now, .writerBuilds, .writerSends true]

def writerWorks : List ThreadEvent := .writerTurn .takes :: writerBody 10

def finWorks (p : ClientPacket) : List ThreadEvent :=
  [.finAssigns p, .finBuilds, .finSends true, .finShutsOutput]

def finAfterData : List ThreadEvent :=
  [.launches, .writerTurn .starts, .queues TcpRelay.sampleData] ++ writerWorks ++
    finWorks TcpRelay.sampleFin

theorem acks_inOrder_finAfterData :
    (run sampleSession finAfterData).acks = [1004, 1005] ∧
      (run sampleSession finAfterData).acks.IsChain SeqLe :=
  ⟨by decide +kernel, acks_inOrder_of_orderly sampleSession finAfterData (by decide +kernel)⟩

def finOvertakes : List ThreadEvent :=
  [.launches, .writerTurn .starts, .queues TcpRelay.sampleData, .writerTurn .takes, .writerWrites,
    .finAssigns TcpRelay.sampleFin, .finBuilds, .finSends true,
    .writerAssigns 10, .writerBuilds, .writerSends true]

def segmentRepeated : List ThreadEvent :=
  [.launches, .writerTurn .starts, .queues TcpRelay.sampleData, .queues nextData,
    .queues TcpRelay.sampleData] ++ writerWorks ++ writerWorks ++ writerWorks

theorem acks_go_back :
    (run sampleSession finOvertakes).acks = [1005, 1004] ∧
      ¬ (run sampleSession finOvertakes).acks.IsChain SeqLe ∧
      (run sampleSession segmentRepeated).acks = [1004, 1007, 1004] ∧
      ¬ (run sampleSession segmentRepeated).acks.IsChain SeqLe := by
  have hfin : (run sampleSession finOvertakes).acks = [1005, 1004] := by decide +kernel
  have hrepeated : (run sampleSession segmentRepeated).acks = [1004, 1007, 1004] := by
    decide +kernel
  refine ⟨hfin, ?_, hrepeated, ?_⟩
  · decide
  · decide

/-! ## The engine's sessions -/

structure AtRest (t : SessionThreads) : Prop where
  fin : t.fin = .idle
  writer : t.writer = .inLoop

theorem exec_finWorks (h : AtRest t) (p : ClientPacket) :
    exec step t (finWorks p) =
      { t with
        session := t.session.finished p
        tun := t.tun ++ [(t.session.finished p).ack] } := by
  obtain ⟨session, fin, writer, waiting, tun⟩ := t
  obtain rfl : fin = .idle := h.fin
  rfl

theorem exec_writerBody (h : AtRest t) (now : Int) :
    exec step t (writerBody now) =
      { t with
        session := (t.session.runSocketWriter (.writes now)).session
        tun := t.tun ++ (t.session.runSocketWriter (.writes now)).packets } := by
  obtain ⟨session, fin, writer, waiting, tun⟩ := t
  obtain rfl : writer = .inLoop := h.writer
  cases hwriter : session.writer with
  | writing pending =>
    by_cases htakes : session.takesBytes = true
    · simp [exec, writerBody, step, SessionThreads.writerWrites, SessionThreads.writerAssigns,
        SessionThreads.writerBuilds, SessionThreads.writerSends, SessionThreads.emit,
        TcpSession.runSocketWriter, hwriter, htakes, TcpSession.ack, TcpSession.response]
    · simp [exec, writerBody, step, SessionThreads.writerWrites, SessionThreads.writerAssigns,
        SessionThreads.writerBuilds, SessionThreads.writerSends, TcpSession.runSocketWriter,
        hwriter, htakes]
  | _ =>
    simp [exec, writerBody, step, SessionThreads.writerWrites, SessionThreads.writerAssigns,
      SessionThreads.writerBuilds, SessionThreads.writerSends, TcpSession.runSocketWriter,
      hwriter]

def Reached (x : TcpSession) : Prop :=
  ∃ first events, (first = .absent ∨ ∃ now isn opener, first = TcpRelay.newSession now isn opener) ∧
    (run first events).session = x ∧ AtRest (run first events)

variable {x : TcpSession}

theorem Reached.more {y : TcpSession} (h : Reached x) (events : List ThreadEvent)
    (hmore : ∀ t : SessionThreads, t.session = x → AtRest t →
      (exec step t events).session = y ∧ AtRest (exec step t events)) :
    Reached y := by
  obtain ⟨first, before, hfirst, hx, hrest⟩ := h
  obtain ⟨hy, hrest'⟩ := hmore _ hx hrest
  refine ⟨first, before ++ events, hfirst, ?_⟩
  rw [run, exec_append]
  exact ⟨hy, hrest'⟩

theorem Reached.one {y : TcpSession} (h : Reached x) (e : ThreadEvent)
    (hone : ∀ t : SessionThreads, t.session = x → AtRest t →
      (t.step e).session = y ∧ (t.step e).fin = t.fin ∧ (t.step e).writer = t.writer) :
    Reached y := by
  refine h.more [e] fun t hx hrest => ?_
  obtain ⟨hy, hfin, hwriter⟩ := hone t hx hrest
  exact ⟨hy, hfin.trans hrest.fin, hwriter.trans hrest.writer⟩

theorem Reached.writerTurn (h : Reached x) (e : WriterEvent) (he : ∀ now, e ≠ .writes now) :
    Reached (x.runSocketWriter e).session := by
  refine h.one (.writerTurn e) fun t hx hrest => ?_
  have hturn : t.writerTurn e = { t with session := (t.session.runSocketWriter e).session } := by
    cases e with
    | writes now => exact absurd rfl (he now)
    | _ => simp only [SessionThreads.writerTurn, hrest.writer]
  rw [step, hturn]
  exact ⟨by rw [hx], rfl, rfl⟩

theorem reached_kept : SessionKept (fun _ => True) Reached where
  absent := ⟨.absent, [], .inl rfl, rfl, rfl, rfl⟩
  made := fun now serverIsn opener _ =>
    ⟨_, [], .inr ⟨now, serverIsn.val, opener, rfl⟩, rfl, rfl, rfl⟩
  launched := by
    intro x hunlaunched h
    refine h.one .launches fun t hx _ => ?_
    have hboth : t.session.reader = .unlaunched ∧ t.session.writer = .unlaunched := by
      rw [hx]
      simpa [TcpSession.unlaunched] using hunlaunched
    rw [step, if_pos hboth]
    exact ⟨by rw [hx], rfl, rfl⟩
  heardFrom := by
    intro x now p _ h
    refine h.one (.hears now p) fun t hx hrest => ?_
    rw [step, if_pos hrest.fin]
    exact ⟨by rw [hx], rfl, rfl⟩
  enqueue := by
    intro x p _ h
    refine h.one (.queues p) fun t hx hrest => ?_
    rw [step, if_pos hrest.fin]
    exact ⟨by rw [hx], rfl, rfl⟩
  finished := by
    intro x p _ h
    refine h.more (finWorks p) fun t hx hrest => ?_
    rw [exec_finWorks hrest]
    exact ⟨by rw [hx], hrest.fin, hrest.writer⟩
  reader := by
    intro x e h
    refine h.one (.readerTurn e) fun t hx _ => ?_
    exact ⟨by rw [← hx]; rfl, rfl, rfl⟩
  writer := by
    intro x e h
    cases e with
    | writes now =>
      refine h.more (writerBody now) fun t hx hrest => ?_
      rw [exec_writerBody hrest now]
      exact ⟨by rw [hx], hrest.fin, hrest.writer⟩
    | starts => exact h.writerTurn .starts (by simp)
    | takes => exact h.writerTurn .takes (by simp)
    | fails => exact h.writerTurn .fails (by simp)
    | ends => exact h.writerTurn .ends (by simp)
  ended := by
    intro x readerCancelled writerCancelled channelClosed socketClosed h
    refine h.one (.ends readerCancelled writerCancelled channelClosed socketClosed)
      fun t hx _ => ?_
    exact ⟨by rw [← hx]; rfl, rfl, rfl⟩

theorem session_reached (events : List RelayEvent) (i : Nat) :
    Reached ((TcpRelay.run events).session i) :=
  reached_kept.run (alongRun_const.mpr fun e _ => by cases e <;> trivial) i

end SessionThreads

end BigRocket.Relay
