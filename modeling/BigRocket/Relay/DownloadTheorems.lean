/-
The client's window, and how far a download can go: `serverSeq` counts on beyond
32 bits, `clientAckedSeq` does not.
-/
import BigRocket.Relay.SessionTheorems

namespace BigRocket.Relay

open Lib List

/-- The ranges of the fields that `IpPacketParser` reads: 32 bits of
acknowledgement, 16 bits of window. -/
structure ClientPacket.Parsed (p : ClientPacket) : Prop where
  ack : 0 ≤ p.tcpAck ∧ p.tcpAck < 2 ^ 32
  window : 0 ≤ p.tcpWindow ∧ p.tcpWindow ≤ 65535

instance (p : ClientPacket) : Decidable p.Parsed :=
  decidable_of_iff ((0 ≤ p.tcpAck ∧ p.tcpAck < 2 ^ 32) ∧ (0 ≤ p.tcpWindow ∧ p.tcpWindow ≤ 65535))
    ⟨fun h => ⟨h.1, h.2⟩, fun h => ⟨h.1, h.2⟩⟩

namespace TcpSession

def allowed (x : TcpSession) : Int := x.clientAckedSeq + x.clientWindow - x.serverSeq

/-- `allowed` is the number the loop computes: it waits or gives up when it
is not positive, and sends at most that much when it is. -/
theorem writeChunkedRespectingWindow_eq (now : Int) (block : List UInt8) (waitedMs : Nat)
    (x : TcpSession) :
    x.writeChunkedRespectingWindow now block waitedMs =
      if x.allowed ≤ 0 then
        if waitedMs ≥ windowWaitMaxMs then
          { session := { x with reader := .finished }, exits := true }
        else { session := { x with reader := .sending block (waitedMs + windowWaitStepMs) } }
      else
        let chunkSize := min maxTcpSegmentPayload (min block.length x.allowed.toNat)
        { session :=
            { x with
              serverSeq := x.serverSeq + chunkSize
              lastActivityMs := now
              reader :=
                if (block.drop chunkSize).isEmpty then .reading
                else .sending (block.drop chunkSize) 0 }
          packets := [x.response (TcpFlag.psh ||| TcpFlag.ack) (block.take chunkSize)] } := rfl

/-! ## The numbers of a session -/

/-- What is true of a session's numbers whatever its client sends. A reader
that has ended may have counted the FIN. -/
structure Numbered (x : TcpSession) : Prop where
  serverSeq_nonneg : 0 ≤ x.serverSeq
  acked_nonneg : 0 ≤ x.clientAckedSeq
  acked_lt : x.clientAckedSeq < 2 ^ 32
  window : 0 ≤ x.clientWindow ∧ x.clientWindow ≤ 65535
  serverSeq_le : x.serverSeq ≤ 2 ^ 32 + 65535
  sending : x.reader ≠ .finished → x.serverSeq ≤ 2 ^ 32 + 65534

variable {x : TcpSession}

theorem Numbered.of_eq {y : TcpSession} (h : Numbered x) (hseq : y.serverSeq = x.serverSeq)
    (hacked : y.clientAckedSeq = x.clientAckedSeq) (hwindow : y.clientWindow = x.clientWindow)
    (hreader : y.reader ≠ .finished → x.reader ≠ .finished) : Numbered y where
  serverSeq_nonneg := hseq ▸ h.serverSeq_nonneg
  acked_nonneg := hacked ▸ h.acked_nonneg
  acked_lt := hacked ▸ h.acked_lt
  window := hwindow ▸ h.window
  serverSeq_le := hseq ▸ h.serverSeq_le
  sending := fun hy => hseq ▸ h.sending (hreader hy)

theorem Numbered.heardFrom (h : Numbered x) (now : Int) {p : ClientPacket} (hp : p.Parsed) :
    Numbered (x.heardFrom now p) where
  serverSeq_nonneg := h.serverSeq_nonneg
  acked_nonneg := by
    simp only [TcpSession.heardFrom]
    split_ifs
    · exact hp.ack.1
    · exact h.acked_nonneg
  acked_lt := by
    simp only [TcpSession.heardFrom]
    split_ifs
    · exact hp.ack.2
    · exact h.acked_lt
  window := hp.window
  serverSeq_le := h.serverSeq_le
  sending := h.sending

theorem Numbered.writeChunked (h : Numbered x) (now : Int) {block : List UInt8} {waitedMs : Nat}
    (hreader : x.reader = .sending block waitedMs) :
    Numbered (x.writeChunkedRespectingWindow now block waitedMs).session := by
  have hsending : x.reader ≠ .finished := by simp [hreader]
  rw [writeChunkedRespectingWindow_eq]
  split_ifs with hclosed hwaited
  · exact h.of_eq rfl rfl rfl (fun _ => hsending)
  · exact h.of_eq rfl rfl rfl (fun _ => hsending)
  · have hacked := h.acked_lt
    have hwindow := h.window.2
    have hseq := h.serverSeq_nonneg
    have hchunk : ((min maxTcpSegmentPayload (min block.length x.allowed.toNat) : Nat) : Int)
        ≤ x.allowed := by omega
    have hinside : x.serverSeq + (min maxTcpSegmentPayload (min block.length x.allowed.toNat) : Nat)
        ≤ 2 ^ 32 + 65534 := by
      simp only [allowed] at hchunk ⊢
      omega
    exact ⟨by simp only; omega, h.acked_nonneg, h.acked_lt, h.window, by simp only; omega,
      fun _ => hinside⟩

theorem Numbered.listenForTcpResponses (h : Numbered x) (e : ReaderEvent) :
    Numbered (x.listenForTcpResponses e).session := by
  cases e with
  | starts =>
    simp only [TcpSession.listenForTcpResponses]
    split_ifs with hidle
    · exact h
    all_goals exact h.of_eq rfl rfl rfl (fun _ => by simp [not_not.mp hidle])
  | reads block =>
    simp only [TcpSession.listenForTcpResponses]
    split_ifs with hreads
    · exact h.of_eq rfl rfl rfl (fun _ => by simp [hreads.1])
    · exact h
  | sends now =>
    simp only [TcpSession.listenForTcpResponses]
    split
    · next hx => exact h.writeChunked now hx
    · exact h
  | endOfStream =>
    simp only [TcpSession.listenForTcpResponses]
    split_ifs with hends
    · -- the FIN takes one more number
      have hseq := h.sending (by simp [hends.1])
      have hnonneg := h.serverSeq_nonneg
      exact ⟨by simp only; omega, h.acked_nonneg, h.acked_lt, h.window, by simp only; omega,
        fun hne => absurd rfl hne⟩
    · exact h
  | fails =>
    simp only [TcpSession.listenForTcpResponses]
    split
    · exact h.of_eq rfl rfl rfl (fun hne => absurd rfl hne)
    · exact h.of_eq rfl rfl rfl (fun hne => absurd rfl hne)
    · exact h

theorem Numbered.runSocketWriter (h : Numbered x) (e : WriterEvent) :
    Numbered (x.runSocketWriter e).session := by
  cases e with
  | starts =>
    simp only [TcpSession.runSocketWriter]
    split_ifs <;> exact h.of_eq rfl rfl rfl id
  | takes =>
    simp only [TcpSession.runSocketWriter]
    split <;> exact h.of_eq rfl rfl rfl id
  | writes now =>
    simp only [TcpSession.runSocketWriter]
    split
    · split_ifs <;> exact h.of_eq rfl rfl rfl id
    · exact h
  | fails =>
    simp only [TcpSession.runSocketWriter]
    split <;> exact h.of_eq rfl rfl rfl id
  | ends =>
    simp only [TcpSession.runSocketWriter]
    split_ifs <;> exact h.of_eq rfl rfl rfl id

theorem numbered_newSession (now : Int) (serverIsn : Fin 0xFFFFFFF) {opener : Opener}
    (hfrom : opener.FromPacket ClientPacket.Parsed) :
    Numbered (TcpRelay.newSession now serverIsn.val opener) := by
  obtain ⟨p, hp, heq⟩ := hfrom
  have hisn : (serverIsn.val : Int) < 0xFFFFFFF := by exact_mod_cast serverIsn.isLt
  have hwindow : opener.synWindow ≤ 65535 := by
    rw [heq]
    exact hp.window.2
  have hclient : 0 ≤ (TcpRelay.newSession now serverIsn.val opener).clientWindow ∧
      (TcpRelay.newSession now serverIsn.val opener).clientWindow ≤ 65535 := by
    simp only [TcpRelay.newSession, defaultClientWindow]
    split_ifs <;> omega
  refine ⟨?_, ?_, ?_, hclient, ?_, ?_⟩ <;> simp only [TcpRelay.newSession]
  · omega
  · omega
  · omega
  · omega
  · intro _
    omega

theorem numbered_kept : SessionKept ClientPacket.Parsed Numbered where
  absent := ⟨by decide, by decide, by decide, by decide, by decide, fun _ => by decide⟩
  made := fun now serverIsn _ hfrom => numbered_newSession now serverIsn hfrom
  launched := by
    intro x hun h
    simp only [unlaunched, Bool.and_eq_true, decide_eq_true_eq] at hun
    exact h.of_eq rfl rfl rfl (fun _ => by simp [hun.1])
  heardFrom := fun x now p hp h => h.heardFrom now hp
  enqueue := fun x p _ h => h.of_eq rfl rfl rfl id
  finished := fun x p _ h => h.of_eq rfl rfl rfl id
  reader := fun x e h => h.listenForTcpResponses e
  writer := fun x e h => h.runSocketWriter e
  ended := fun x _ _ _ _ h => h.of_eq rfl rfl rfl id

end TcpSession

namespace TcpRelay

variable {r : TcpRelay}

theorem run_numbered {events : List RelayEvent}
    (hpackets : AlongRun (fun _ e => e.Meets ClientPacket.Parsed) events) (j : Nat) :
    ((run events).session j).Numbered :=
  TcpSession.numbered_kept.run hpackets j

/-! ## What an acknowledgement opens -/

theorem allowed_closeSession (key : SessionKey) (j : Nat) :
    ((r.closeSession key).session j).allowed = (r.session j).allowed := by
  rw [closeSession_eq]
  rfl

theorem allowed_handleSegment (now : Int) (p : ClientPacket) (i : Nat) :
    ((r.handleSegment now p i).session i).allowed = ((r.session i).heardFrom now p).allowed := by
  have hdata : ∀ r' : TcpRelay,
      ((r'.forwardDataToSocket p i).session i).allowed = (r'.session i).allowed := by
    intro r'
    unfold forwardDataToSocket
    split_ifs
    · exact allowed_closeSession p.key i
    · rw [set_session_self]
      rfl
  have hfin : ∀ r' : TcpRelay,
      ((r'.handleFin p i).session i).allowed = (r'.session i).allowed := by
    intro r'
    exact set_session_proj (y := (r'.session i).finished p) TcpSession.allowed rfl i
  unfold handleSegment
  dsimp only
  split_ifs <;> simp [hdata, hfin]

/-- The client acknowledges all that was sent to it, and is granted its
whole window, exactly when the number it acknowledges has not wrapped. -/
theorem allowed_heardFrom_iff {x : TcpSession} (hx : x.Numbered) (now : Int) {p : ClientPacket}
    (hack : p.has TcpFlag.ack = true) (hall : p.tcpAck = x.serverSeq % 2 ^ 32) :
    (x.heardFrom now p).allowed = p.tcpWindow ↔
      x.serverSeq < 2 ^ 32 ∧ x.clientAckedSeq ≤ x.serverSeq := by
  have hseq := hx.serverSeq_nonneg
  have hacked := hx.acked_lt
  simp only [TcpSession.allowed, TcpSession.heardFrom, hack, true_and, hall]
  split_ifs <;> omega

/-- **The window opens fully exactly before the wrap**: the sequence number is
below 2^32 and no acknowledgement was ever ahead of it. -/
theorem window_open_iff_before_wrap {events : List RelayEvent}
    (hpackets : AlongRun (fun _ e => e.Meets ClientPacket.Parsed) events) (now : Int)
    {p : ClientPacket} {i : Nat} (hget : (run events).sessions.get p.key = some i)
    (hrst : p.has TcpFlag.rst = false) (hack : p.has TcpFlag.ack = true)
    (hall : p.tcpAck = ((run events).session i).serverSeq % 2 ^ 32) :
    ((run (events ++ [.packet now p])).session i).allowed = p.tcpWindow ↔
      ((run events).session i).serverSeq < 2 ^ 32 ∧
        ((run events).session i).clientAckedSeq ≤ ((run events).session i).serverSeq := by
  have hafter : run (events ++ [.packet now p]) = (run events).handleSegment now p i := by
    rw [run, exec_concat]
    simp only [step, forwardTcpPacket, hrst, Bool.false_eq_true, if_false]
    rw [show (exec step create events).sessions.get p.key = some i from hget]
    rfl
  rw [hafter, allowed_handleSegment]
  exact allowed_heardFrom_iff (run_numbered hpackets i) now hack hall

def sampleAck (ack : Int) : ClientPacket := ⟨sampleKey, TcpFlag.ack, 1001, ack, 65535, [], 0⟩

theorem establish_parsed : ∀ e ∈ establish 0 0 0, e.Meets ClientPacket.Parsed := by
  intro e he
  simp only [establish, mem_cons, not_mem_nil, or_false] at he
  rcases he with rfl | rfl | rfl | rfl | rfl | rfl <;> simp only [RelayEvent.Meets]
  decide

theorem window_open_after_handshake :
    ((run (establish 0 0 0 ++ [.packet 0 (sampleAck 8)])).session 0).allowed = 65535 :=
  (window_open_iff_before_wrap (alongRun_const.mpr establish_parsed) 0 (p := sampleAck 8) (i := 0)
    (by decide +kernel) (by decide +kernel) (by decide +kernel) (by decide +kernel)).mpr
    (by decide +kernel)

/-! ### A download that reaches the wrap -/

def kilobyte : List UInt8 := List.replicate 1024 0

theorem length_kilobyte : kilobyte.length = 1024 := length_replicate

def downloadBlock : List RelayEvent := [.reader 0 (.reads kilobyte), .reader 0 (.sends 0)]

def acknowledgedBlocks : Nat → List RelayEvent
  | 0 => establish 0 0 0
  | n + 1 => acknowledgedBlocks n ++ downloadBlock ++ [.packet 0 (sampleAck (8 + 1024 * (n + 1)))]

def downloading (sent acked : Nat) : TcpSession where
  key := sampleKey
  network := 0
  serverSeq := 8 + 1024 * sent
  clientNextSeq := 1001
  clientAckedSeq := 8 + 1024 * acked
  clientWindow := 65535
  lastActivityMs := 0
  reader := .reading
  writer := .idle
  firstSeq := 1001

theorem downloadBlock_session {r : TcpRelay} {n : Nat} (hsession : r.session 0 = downloading n n) :
    (exec step r downloadBlock).sessions = r.sessions ∧
      (exec step r downloadBlock).session 0 = downloading (n + 1) n := by
  have hallowed : (8 + 1024 * n + 65535 - (8 + 1024 * n) : Int) = 65535 := by ring
  have hread : (downloading n n).listenForTcpResponses (.reads kilobyte) =
      { session := { downloading n n with reader := .sending kilobyte 0 } } := by
    simp [TcpSession.listenForTcpResponses, downloading, length_kilobyte]
  have hsend : (({ downloading n n with reader := .sending kilobyte 0 } :
      TcpSession).listenForTcpResponses (.sends 0)).session = downloading (n + 1) n ∧
      (({ downloading n n with reader := .sending kilobyte 0 } :
        TcpSession).listenForTcpResponses (.sends 0)).exits = false := by
    simp [TcpSession.listenForTcpResponses, TcpSession.writeChunkedRespectingWindow, downloading,
      length_kilobyte, hallowed, maxTcpSegmentPayload]
    ring
  simp [exec, downloadBlock, step, coroutineStep, hsession, hread, hsend.1, hsend.2]

theorem sampleAck_flags (ack : Int) :
    (sampleAck ack).has TcpFlag.rst = false ∧ (sampleAck ack).has TcpFlag.ack = true ∧
      (sampleAck ack).has TcpFlag.fin = false := by
  simp [ClientPacket.has, sampleAck, TcpFlag.rst, TcpFlag.ack, TcpFlag.fin]

theorem sampleAck_session {r : TcpRelay} (hget : r.sessions.get sampleKey = some 0) (ack : Int) :
    (r.step (.packet 0 (sampleAck ack))).sessions = r.sessions ∧
      (r.step (.packet 0 (sampleAck ack))).session 0 =
        (r.session 0).heardFrom 0 (sampleAck ack) := by
  obtain ⟨hrst, -, hfin⟩ := sampleAck_flags ack
  have hkey : r.sessions.get (sampleAck ack).key = some 0 := hget
  have hdata : (sampleAck ack).data = [] := rfl
  simp [step, forwardTcpPacket, hrst, hkey, handleSegment, hfin, hdata]

theorem acknowledgedBlocks_session (n : Nat) :
    (run (acknowledgedBlocks n)).sessions.get sampleKey = some 0 ∧
      (run (acknowledgedBlocks n)).session 0 = downloading n n := by
  induction n with
  | zero => exact ⟨by decide +kernel, by decide +kernel⟩
  | succ n ih =>
    obtain ⟨hget, hsession⟩ := ih
    obtain ⟨hsessions, hsent⟩ := downloadBlock_session hsession
    rw [← hsessions] at hget
    obtain ⟨hsame, hheard⟩ := sampleAck_session hget (8 + 1024 * (n + 1))
    have hrun : run (acknowledgedBlocks (n + 1)) =
        (exec step (run (acknowledgedBlocks n)) downloadBlock).step
          (.packet 0 (sampleAck (8 + 1024 * (n + 1)))) := by
      rw [acknowledgedBlocks, run, exec_concat, exec_append]
      rfl
    rw [hrun, hsame, hheard, hsent]
    have hack := (sampleAck_flags (8 + 1024 * (n + 1))).2.1
    refine ⟨hget, ?_⟩
    simp only [TcpSession.heardFrom, hack, true_and]
    simp [downloading, sampleAck]

theorem downloadBlock_parsed : ∀ e ∈ downloadBlock, e.Meets ClientPacket.Parsed := by
  simp [downloadBlock, RelayEvent.Meets]

theorem acknowledgedBlocks_parsed (n : Nat) (hn : 8 + 1024 * n < 2 ^ 32) :
    ∀ e ∈ acknowledgedBlocks n, e.Meets ClientPacket.Parsed := by
  induction n with
  | zero => exact establish_parsed
  | succ n ih =>
    intro e he
    simp only [acknowledgedBlocks, mem_append, mem_singleton] at he
    rcases he with (he | he) | rfl
    · exact ih (by omega) e he
    · exact downloadBlock_parsed e he
    · exact ⟨by simp only [sampleAck]; omega, by simp [sampleAck]⟩

def wrappingDownload : List RelayEvent := acknowledgedBlocks (2 ^ 22 - 1) ++ downloadBlock

theorem window_shrinks_at_wrap :
    (∀ e ∈ wrappingDownload, e.Meets ClientPacket.Parsed) ∧
      (run wrappingDownload).sessions.get sampleKey = some 0 ∧
      (sampleAck 8).tcpAck = ((run wrappingDownload).session 0).serverSeq % 2 ^ 32 ∧
      ((run (wrappingDownload ++ [.packet 0 (sampleAck 8)])).session 0).allowed = 64511 ∧
      (sampleAck 8).tcpWindow = 65535 := by
  obtain ⟨hget, hsession⟩ := acknowledgedBlocks_session (2 ^ 22 - 1)
  obtain ⟨hsessions, hsent⟩ := downloadBlock_session hsession
  have hrun : run wrappingDownload =
      exec step (run (acknowledgedBlocks (2 ^ 22 - 1))) downloadBlock := by
    rw [wrappingDownload, run, exec_append]
    rfl
  rw [← hsessions, ← hrun] at hget
  obtain ⟨-, hheard⟩ := sampleAck_session hget 8
  rw [← hrun] at hsent
  refine ⟨?_, hget, ?_, ?_, rfl⟩
  · intro e he
    rcases mem_append.mp he with he | he
    · exact acknowledgedBlocks_parsed _ (by norm_num) e he
    · exact downloadBlock_parsed e he
  · rw [hsent]
    decide
  · rw [run, exec_concat]
    have hafter := hheard
    rw [hsent] at hafter
    rw [show exec step create wrappingDownload = run wrappingDownload from rfl, hafter]
    decide

end TcpRelay

end BigRocket.Relay
