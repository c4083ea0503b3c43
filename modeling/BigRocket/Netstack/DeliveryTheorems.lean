/-
The download path of the netstack: from a flow's socket into the channel of its
application, and what is left unread when `service_tcp` removes the flow.
-/
import BigRocket.Netstack.FlowTheorems
import BigRocket.Netstack.NetStackTheorems

namespace BigRocket.Netstack

open Lib Net Relation List

/-! ## The socket -/

namespace TcpSocket

def Sending (k : TcpSocket) : Prop :=
  k.txBuffer = [] ∨ k.reset = true ∨ k.state = .established ∨ k.state = .finWait1 ∨
    k.state = .closeWait ∨ k.state = .closing ∨ k.state = .lastAck

variable {k : TcpSocket}

theorem Sending.poll (h : k.Sending) (segment : Segment) : (k.poll segment).Sending := by
  cases segment with
  | acked count =>
    simp only [TcpSocket.poll]
    split
    · exact h
    · rcases h with hempty | hrest
      · exact .inl (by simp [hempty])
      · exact .inr hrest
  | _ =>
    unfold Sending at h ⊢
    simp only [TcpSocket.poll]
    repeat' split
    all_goals simp_all

theorem Sending.close (h : k.Sending) : k.close.Sending := by
  unfold Sending at h ⊢
  unfold TcpSocket.close
  split <;> simp_all

theorem Sending.sendSlice (h : k.Sending) (data : List UInt8) : (k.sendSlice data).2.Sending := by
  unfold TcpSocket.sendSlice
  split
  case isTrue hmay =>
    have hstate : k.state = .established ∨ k.state = .closeWait := by simpa [maySend] using hmay
    rcases hstate with hs | hs <;> simp [Sending, hs]
  case isFalse => exact h

theorem close_ended (hlisten : k.state ≠ .listen) (hsyn : k.state ≠ .synSent)
    (h : k.close.state = .closed ∨ k.close.state = .timeWait) :
    k.state = .closed ∨ k.state = .timeWait := by
  unfold TcpSocket.close at h
  split at h
  case h_1 hs => exact absurd hs hlisten
  case h_2 hs => exact absurd hs hsyn
  all_goals first | exact h | simp at h

theorem poll_received (segment : Segment) (k : TcpSocket) :
    ∃ arrived, piecesBytes (k.poll segment).rxBuffer = piecesBytes k.rxBuffer ++ arrived ∧
      (k.poll segment).received = k.received ++ arrived := by
  have hsame (j : TcpSocket) (hrx : j.rxBuffer = k.rxBuffer) (hre : j.received = k.received) :
      ∃ arrived, piecesBytes j.rxBuffer = piecesBytes k.rxBuffer ++ arrived ∧
        j.received = k.received ++ arrived := ⟨[], by simp [hrx], by simp [hre]⟩
  cases segment with
  | data piece joins =>
    simp only [TcpSocket.poll]
    split
    · exact ⟨piece.bytes, piecesBytes_append_piece piece joins k.rxBuffer, rfl⟩
    · exact hsame k rfl rfl
  | _ =>
    apply hsame <;> simp only [TcpSocket.poll] <;> repeat' split
    all_goals rfl

end TcpSocket

/-! ## A flow at every moment -/

namespace TcpState

structure Sound (x : TcpState) : Prop where
  received : x.toApp.handed ++ piecesBytes x.socket.rxBuffer = x.socket.received
  sending : x.socket.Sending
  connected : x.established = true →
    x.socket.state ≠ .listen ∧ x.socket.state ≠ .synSent ∧ x.socket.state ≠ .synReceived
  aborted : x.aborted = true → x.toApp.closed = true

/-- What holds of a flow that no pass has found connected: the handshake is
under way and nothing was received, or it is just over, or it failed. -/
def Connecting (x : TcpState) : Prop :=
  x.established = false →
    (x.socket.state = .established ∨ x.socket.state = .closeWait) ∨
      ((x.socket.state = .synSent ∨ x.socket.state = .synReceived) ∧ x.socket.rxBuffer = []) ∨
      (x.socket.state = .closed ∧ x.socket.reset = true)

theorem sound_poll {x : TcpState} (h : x.Sound) (segment : Segment) : (x.poll segment).Sound where
  received := by
    obtain ⟨arrived, hrx, hre⟩ := x.socket.poll_received segment
    simp only [poll]
    rw [hrx, hre, ← h.received, append_assoc]
  sending := h.sending.poll segment
  connected hest := by
    obtain ⟨h1, h2, h3⟩ := h.connected hest
    cases segment <;> simp only [poll, TcpSocket.poll] <;> repeat' split
    all_goals simp_all
  aborted := h.aborted

theorem connecting_poll {x : TcpState} (h : x.Connecting) (segment : Segment) :
    (x.poll segment).Connecting := by
  intro hest
  have hstate := h hest
  cases segment with
  | data piece joins =>
    simp only [poll, TcpSocket.poll]
    split
    case isTrue hreceives =>
      -- of the states of a connecting flow only ESTABLISHED receives
      have hreceives : x.socket.state = .established ∨ x.socket.state = .finWait1 ∨
          x.socket.state = .finWait2 := by simpa [TcpSocket.receives] using hreceives.1
      rcases hreceives with h | h | h <;> simp_all
    case isFalse => exact hstate
  | _ =>
    simp only [poll, TcpSocket.poll]
    repeat' split
    all_goals simp_all

variable (turns : Nat) {y : TcpState}

theorem sound_flowMove {x : TcpState} (hmove : FlowMove x y) (h : x.Sound) : y.Sound := by
  obtain ⟨hreceived, hsending, hconnected, haborted⟩ := h
  cases hmove with
  | poll segment => exact sound_poll ⟨hreceived, hsending, hconnected, haborted⟩ segment
  | extend data => exact ⟨hreceived, hsending, hconnected, haborted⟩
  | closeByApp => exact ⟨hreceived, hsending, hconnected, haborted⟩
  | reserve len => exact ⟨hreceived, hsending, hconnected, haborted⟩
  | callerGone =>
    unfold callerGone
    split <;> exact ⟨hreceived, hsending, hconnected, haborted⟩
  | appReads =>
    unfold appReads
    split <;> exact ⟨hreceived, hsending, hconnected, haborted⟩
  | appGone =>
    unfold appGone
    split
    · exact ⟨hreceived, hsending, hconnected, fun _ => rfl⟩
    · exact ⟨hreceived, hsending, hconnected, haborted⟩
  | resetDead => exact ⟨hreceived, .inr (.inl rfl), by simp [resetDead], haborted⟩

theorem connecting_flowMove {x : TcpState} (hmove : FlowMove x y) (h : x.Connecting) :
    y.Connecting := by
  cases hmove with
  | poll segment => exact connecting_poll h segment
  | callerGone => unfold callerGone; split <;> exact h
  | appReads => unfold appReads; split <;> exact h
  | appGone => unfold appGone; split <;> exact h
  | resetDead => exact fun _ => .inr (.inr ⟨rfl, rfl⟩)
  | extend data => exact h
  | closeByApp => exact h
  | reserve len => exact h

/-! ## The delivery loop -/

theorem deliver_open {x : TcpState} (hopen : x.toApp.closed = false) :
    (x.deliver turns).toApp.closed = false ∧
      (x.deliver turns).socket.rxBuffer =
        x.socket.rxBuffer.drop (min turns (x.toApp.capacity - x.toApp.queue.length)) := by
  induction turns generalizing x with
  | zero => simpa [deliver] using hopen
  | succ turns ih =>
    unfold deliver
    rw [if_neg (by simp [hopen])]
    split
    case isTrue hfull =>
      have hnone : x.toApp.capacity - x.toApp.queue.length = 0 := by
        simpa [AppChannel.full, Nat.sub_eq_zero_iff_le] using hfull
      simpa [hnone] using hopen
    case isFalse hroom =>
      have hplace : x.toApp.queue.length < x.toApp.capacity := by
        simpa [AppChannel.full] using hroom
      split
      case h_1 hempty => simpa [hempty] using hopen
      case h_2 piece rest hrx =>
        obtain ⟨hopen', hrest⟩ := ih
          (x := { x with
            toApp := x.toApp.push piece, socket := { x.socket with rxBuffer := rest } }) hopen
        refine ⟨hopen', ?_⟩
        rw [hrest, hrx]
        have hcount : min (turns + 1) (x.toApp.capacity - x.toApp.queue.length) =
            min turns (x.toApp.capacity - (x.toApp.queue ++ [piece]).length) + 1 := by
          simp only [length_append, length_singleton]
          omega
        rw [hcount, drop_succ_cons]
        rfl

theorem deliver_empty {x : TcpState} (h : x.socket.rxBuffer = []) : x.deliver turns = x := by
  cases turns with
  | zero => rfl
  | succ turns =>
    unfold deliver
    simp [h]

theorem deliver_full {x : TcpState} (hfull : x.toApp.full = true) : x.deliver turns = x := by
  cases turns with
  | zero => rfl
  | succ turns =>
    unfold deliver
    simp [hfull]

theorem deliver_single {x : TcpState} {piece : Piece} (hopen : x.toApp.closed = false)
    (hroom : x.toApp.full = false) (hrx : x.socket.rxBuffer = [piece]) :
    x.deliver (turns + 1) =
      { x with toApp := x.toApp.push piece, socket := { x.socket with rxBuffer := [] } } := by
  unfold deliver
  rw [if_neg (by simp [hopen]), if_neg (by simp [hroom]), hrx]
  exact deliver_empty turns rfl

theorem deliver_received (x : TcpState) :
    (x.deliver turns).toApp.handed ++ piecesBytes (x.deliver turns).socket.rxBuffer =
      x.toApp.handed ++ piecesBytes x.socket.rxBuffer := by
  induction turns generalizing x with
  | zero => rfl
  | succ turns ih =>
    unfold deliver
    split
    · rfl
    · split
      · rfl
      · split
        · rfl
        case h_2 piece rest hrx =>
          rw [ih, hrx]
          simp [AppChannel.push]

theorem sound_closeSocket {x : TcpState} (h : x.Sound) : x.closeSocket.Sound where
  received := by simpa [closeSocket] using h.received
  sending := h.sending.close
  connected hest := by
    simp only [closeSocket, TcpSocket.close]
    split <;> simp_all
  aborted := h.aborted

theorem sound_passMove {x : TcpState} (hmove : PassMove x y) (h : x.Sound) : y.Sound := by
  cases hmove with
  | closeSocket => exact sound_closeSocket h
  | markEstablished =>
    unfold markEstablished
    split
    case isTrue hmark =>
      have hstate : x.socket.state ≠ .listen ∧ x.socket.state ≠ .synSent ∧
          x.socket.state ≠ .synReceived := by
        rcases hmark.2 with hs | hs <;> simp [hs]
      split
      · exact ⟨h.received, h.sending, fun _ => hstate, h.aborted⟩
      · exact ⟨h.received, h.sending, fun _ => hstate, fun _ => rfl⟩
    case isFalse => exact h
  | sendPending now =>
    rcases x.sendPending_eq now with ⟨_, heq, -⟩ | ⟨-, -, _, heq⟩
    · rw [heq]
      exact ⟨h.received, h.sending, h.connected, h.aborted⟩
    · rw [heq]
      exact ⟨by simpa using h.received, h.sending.sendSlice _, by simpa using h.connected,
        h.aborted⟩
  | checkDrain now =>
    obtain ⟨_, _, _, _, _, heq⟩ := x.checkDrain_eq now
    rw [heq]
    exact ⟨h.received, h.sending, h.connected, h.aborted⟩
  | deliver turns =>
    have hreceived := x.deliver_received turns
    obtain ⟨toApp, rest, heq⟩ := deliver_eq turns x
    have haborted : x.aborted = true → (x.deliver turns).toApp.closed = true := by
      intro ha
      have hclosed := h.aborted ha
      unfold deliver
      split
      · exact hclosed
      · rw [if_pos hclosed]
        exact hclosed
    rw [heq] at hreceived haborted ⊢
    exact ⟨hreceived.trans h.received, h.sending, h.connected, haborted⟩
  | publishCredit tuning rate => exact ⟨h.received, h.sending, h.connected, h.aborted⟩
  | orphanedAt t => exact ⟨h.received, h.sending, h.connected, h.aborted⟩
  | aborted hclosed => exact ⟨h.received, h.sending, h.connected, fun _ => hclosed⟩
  | resetFlapping => exact ⟨h.received, .inr (.inl rfl), by simp [resetFlapping], h.aborted⟩
  | abortSocket => exact ⟨h.received, .inr (.inl rfl), by simp [abortSocket], h.aborted⟩

theorem sound_kept : StackLoop.FlowKept Sound where
  opened _ _ _ _ _ _ _ := ⟨rfl, .inl rfl, by simp [opened], by simp [opened]⟩
  move _ _ := sound_flowMove

theorem connecting_kept : StackLoop.FlowKept Connecting where
  opened _ _ _ _ _ _ _ := fun _ => .inr (.inl ⟨.inl rfl, rfl⟩)
  move _ _ := connecting_flowMove

/-! ## The end of a flow -/

variable {tuning : Tuning} {limits : TcpLimits} {now rate : Nat} {x : TcpState}

theorem uplink_download (tuning : Tuning) (now rate : Nat) (x : TcpState) :
    (x.uplink tuning now rate).toApp = x.toApp ∧
      (x.uplink tuning now rate).socket.rxBuffer = x.socket.rxBuffer ∧
      ((x.uplink tuning now rate).socket.reset = true ∨
        ((x.uplink tuning now rate).socket.reset = x.socket.reset ∧
          (x.uplink tuning now rate).socket.state = x.socket.state)) := by
  have hsend : (x.sendPending now).toApp = x.toApp ∧
      (x.sendPending now).socket.rxBuffer = x.socket.rxBuffer ∧
      (x.sendPending now).socket.reset = x.socket.reset ∧
      (x.sendPending now).socket.state = x.socket.state := by
    rcases x.sendPending_eq now with ⟨_, heq, -⟩ | ⟨-, -, _, heq⟩ <;> rw [heq] <;> simp
  obtain ⟨_, _, _, _, _, hcheck⟩ := (x.sendPending now).checkDrain_eq now
  rw [uplink_eq, hcheck]
  split
  · exact ⟨hsend.1, hsend.2.1, .inl rfl⟩
  · exact ⟨hsend.1, hsend.2.1, .inr hsend.2.2⟩

theorem closeHalf_download (x : TcpState) :
    x.closeHalf.toApp = x.toApp ∧ x.closeHalf.socket.rxBuffer = x.socket.rxBuffer ∧
      x.closeHalf.socket.reset = x.socket.reset ∧
      (x.closeHalf.socket.state = x.socket.state ∨
        x.closeHalf.socket.state = x.socket.close.state) := by
  unfold closeHalf
  split
  · exact ⟨rfl, by simp [closeSocket], by simp [closeSocket], .inr rfl⟩
  · exact ⟨rfl, rfl, rfl, .inl rfl⟩

variable (tuning limits now rate) in
theorem beforeFinish_closed (hclosed : x.toApp.closed = true) :
    (x.beforeFinish tuning limits now rate).toApp.closed = true := by
  have hhalf : (x.uplink tuning now rate).closeHalf.toApp.closed = true := by
    rw [(closeHalf_download _).1, (uplink_download tuning now rate x).1]
    exact hclosed
  have hdeliver : ((x.uplink tuning now rate).closeHalf.deliver maxRecvChunks).toApp.closed =
      true := by
    rw [maxRecvChunks, deliver, if_pos hhalf]
    exact hhalf
  unfold beforeFinish
  rw [if_pos hdeliver]
  unfold orphan
  dsimp only
  split
  · split <;> exact hdeliver
  · exact hdeliver

variable (tuning limits now rate) in
theorem beforeFinish_open (hopen : x.toApp.closed = false) :
    (x.beforeFinish tuning limits now rate).toApp.closed = false ∧
      (x.beforeFinish tuning limits now rate).socket.rxBuffer =
        x.socket.rxBuffer.drop
          (min maxRecvChunks (x.toApp.capacity - x.toApp.queue.length)) ∧
      (x.beforeFinish tuning limits now rate).socket.reset =
        (x.uplink tuning now rate).socket.reset ∧
      ((x.beforeFinish tuning limits now rate).socket.state =
          (x.uplink tuning now rate).socket.state ∨
        (x.beforeFinish tuning limits now rate).socket.state =
          (x.uplink tuning now rate).socket.close.state) := by
  obtain ⟨huApp, huRx, -⟩ := uplink_download tuning now rate x
  obtain ⟨hhApp, hhRx, hhReset, hhState⟩ := (x.uplink tuning now rate).closeHalf_download
  have hhOpen : (x.uplink tuning now rate).closeHalf.toApp.closed = false := by
    rw [hhApp, huApp]
    exact hopen
  obtain ⟨hdOpen, hdRx⟩ := deliver_open maxRecvChunks hhOpen
  have hz : x.beforeFinish tuning limits now rate =
      (x.uplink tuning now rate).closeHalf.deliver maxRecvChunks := by
    unfold beforeFinish
    rw [if_neg (by simp [hdOpen])]
  obtain ⟨toApp, rest, hdeliver⟩ := deliver_eq maxRecvChunks (x.uplink tuning now rate).closeHalf
  rw [hz]
  refine ⟨hdOpen, by rw [hdRx, hhRx, huRx, hhApp, huApp], ?_⟩
  rw [hdeliver]
  exact ⟨hhReset, hhState⟩

theorem uplink_idle (hempty : x.socket.txBuffer = []) (hsend : x.socket.canSend = false) :
    (x.uplink tuning now rate).socket = x.socket := by
  have hsocket : (x.sendPending now).socket = x.socket := by
    rcases x.sendPending_eq now with ⟨_, heq, -⟩ | ⟨-, hcan, -⟩
    · rw [heq]
    · rw [hsend] at hcan; cases hcan
  have hcheck : ((x.sendPending now).checkDrain now).2 = false := by
    unfold checkDrain
    rw [if_pos (by simp [hsocket, TcpSocket.sendQueue, hempty])]
  obtain ⟨_, _, _, _, _, heq⟩ := (x.sendPending now).checkDrain_eq now
  rw [uplink_eq, if_neg (by simp [hcheck]), heq]
  exact hsocket

variable (tuning limits now rate) in
theorem service_removes (hsound : x.Sound) (hest : x.established = true)
    (hopen : x.toApp.closed = false) (hreset : x.socket.reset = false)
    (hstate : x.socket.state = .closed ∨ x.socket.state = .timeWait) :
    ∃ y, x.service tuning limits now rate = (y, true) ∧ y.toApp.closed = false ∧
      y.socket.reset = false ∧
      y.socket.rxBuffer = x.socket.rxBuffer.drop
        (min maxRecvChunks (x.toApp.capacity - x.toApp.queue.length)) := by
  have haborted : x.aborted = false := by
    by_contra h
    rw [hsound.aborted (by simpa using h)] at hopen
    cases hopen
  have hempty : x.socket.txBuffer = [] := by
    rcases hsound.sending with h | h | h | h | h | h | h
    · exact h
    · rw [hreset] at h; cases h
    all_goals rcases hstate with hs | hs <;> rw [hs] at h <;> cases h
  have hsend : x.socket.canSend = false := by
    rcases hstate with hs | hs <;> simp [TcpSocket.canSend, TcpSocket.maySend, hs]
  have hclose : x.socket.close = x.socket := by
    rcases hstate with hs | hs <;> simp [TcpSocket.close, hs]
  obtain ⟨hzOpen, hzRx, hzReset, hzState⟩ := x.beforeFinish_open tuning limits now rate hopen
  rw [uplink_idle hempty hsend] at hzReset hzState
  have hzState : (x.beforeFinish tuning limits now rate).socket.state = .closed ∨
      (x.beforeFinish tuning limits now rate).socket.state = .timeWait := by
    rw [hclose, or_self] at hzState
    rw [hzState]
    exact hstate
  have hservice : x.service tuning limits now rate =
      (x.beforeFinish tuning limits now rate).finish := by
    have hestablished : x.service tuning limits now rate =
        x.serviceEstablished tuning limits now rate := by
      unfold service
      simp [haborted, markEstablished_of_established hest, hest]
    rcases serviceEstablished_cases tuning limits now rate x with h | ⟨-, hclosed⟩
    · exact hestablished.trans h
    · rw [(deliver_open maxRecvChunks _).1] at hclosed
      · cases hclosed
      · rw [(closeHalf_download _).1, (uplink_download tuning now rate x).1]
        exact hopen
  rcases finish_cases (x.beforeFinish tuning limits now rate) with
    ⟨rest, hfinish, -⟩ | ⟨-, hwait⟩ | ⟨-, -, hne, hne'⟩
  · rw [hfinish] at hservice
    exact ⟨_, hservice, hzOpen, hzReset.trans hreset, hzRx⟩
  · rcases hzState with h | h <;> rw [h] at hwait <;> cases hwait
  · rcases hzState with h | h
    · exact absurd h hne
    · exact absurd h hne'

theorem established_of_ended (hest : x.markEstablished.established = true)
    (hends : x.markEstablished.socket.state = .closed ∨
      x.markEstablished.socket.state = .timeWait) : x.established = true := by
  by_contra hnot
  unfold markEstablished at hest hends
  split at hest
  case isTrue hmark =>
    rw [if_pos hmark] at hends
    have hsocket : x.socket.state = .closed ∨ x.socket.state = .timeWait := by
      split at hends <;> exact hends
    rcases hmark.2 with hs | hs <;> simp [hs] at hsocket
  case isFalse => exact hnot hest

/-- **A flow that goes was done with**, unless its application was gone or its
connection reset: it never received anything, or what is unread did not fit into
the channel. -/
theorem removed_cases (hsound : x.Sound) (hconnecting : x.Connecting)
    (hservice : x.service tuning limits now rate = (y, true)) (hopen : y.toApp.closed = false)
    (hreset : y.socket.reset = false) :
    y.socket.rxBuffer = [] ∨
      (x.established = true ∧ x.toApp.closed = false ∧ x.socket.reset = false ∧
        (x.socket.state = .closed ∨ x.socket.state = .timeWait) ∧
        y.socket.rxBuffer = x.socket.rxBuffer.drop
          (min maxRecvChunks (x.toApp.capacity - x.toApp.queue.length))) := by
  rcases service_removed hservice with ⟨haborted, rfl⟩ | ⟨hnot, message, rfl⟩ |
    ⟨hest, z, rest, hz, hstate, rfl⟩
  · rw [hsound.aborted haborted] at hopen
    cases hopen
  · have hsame := markEstablished_of_not hnot
    rw [hsame] at hnot hreset ⊢
    rcases hconnecting hnot with hs | ⟨-, hempty⟩ | ⟨-, hwas⟩
    · -- a pass that finds the flow connected marks it
      have hmarked : x.markEstablished.established = true := by
        unfold markEstablished
        rw [if_pos ⟨by simp [hnot], hs⟩]
        split <;> rfl
      rw [hsame, hnot] at hmarked
      cases hmarked
    · exact .inl hempty
    · rw [show x.socket.reset = false from hreset] at hwas
      cases hwas
  · have hmarkSound : x.markEstablished.Sound := sound_passMove (.markEstablished x) hsound
    have hmarkOpen : x.markEstablished.toApp.closed = false := by
      by_contra h
      have hclosed := x.markEstablished.beforeFinish_closed tuning limits now rate (by simpa using h)
      rw [← hz] at hclosed
      rw [show z.toApp.closed = false from hopen] at hclosed
      cases hclosed
    obtain ⟨-, hzRx, hzReset, hzState⟩ :=
      x.markEstablished.beforeFinish_open tuning limits now rate hmarkOpen
    obtain ⟨-, -, hup⟩ := uplink_download tuning now rate x.markEstablished
    rw [← hz] at hzRx hzReset hzState
    rw [← hzReset, show z.socket.reset = false from hreset] at hup
    obtain ⟨hmarkReset, hmarkState⟩ := hup.resolve_left (by simp)
    obtain ⟨hlisten, hsyn, -⟩ := hmarkSound.connected hest
    rw [← hmarkState] at hlisten hsyn
    have hends : x.markEstablished.socket.state = .closed ∨
        x.markEstablished.socket.state = .timeWait := by
      rw [← hmarkState]
      rcases hzState with h | h
      · rwa [h] at hstate
      · exact TcpSocket.close_ended hlisten hsyn (by rwa [h] at hstate)
    have hest' : x.established = true := established_of_ended hest hends
    rw [markEstablished_of_established hest'] at hmarkOpen hmarkReset hends hzRx
    exact .inr ⟨hest', hmarkOpen, hmarkReset.symm, hends, hzRx⟩

theorem removed_received (hsound : x.Sound)
    (hservice : x.service tuning limits now rate = (y, true)) :
    y.toApp.handed ++ piecesBytes y.socket.rxBuffer = y.socket.received := by
  have hmark : x.markEstablished.Sound := sound_passMove (.markEstablished x) hsound
  rcases service_removed hservice with ⟨-, rfl⟩ | ⟨-, message, rfl⟩ | ⟨-, z, rest, hz, -, rfl⟩
  · exact hsound.received
  · exact hmark.received
  · have hzSound : z.Sound := by
      rw [hz]
      exact (passMoves_beforeFinish _ _ _ _ _).keeps (fun _ _ => sound_passMove) hmark
    exact hzSound.received

end TcpState

/-! ## Every run -/

namespace StackLoop

open NetStack TcpState

theorem run_sound (tuning : Tuning) (limits : TcpLimits) (events : List StackEvent) :
    LiveFlows Sound (run tuning limits events).stack :=
  run_live sound_kept
    (fun _ _ _ _ _ _ hservice hx => (service_kept hservice).keeps (fun _ _ => sound_passMove) hx)
    tuning limits events

/-- While a flow lives, no byte of its download is lost, repeated or overtaken:
what its application was handed, followed by what waits in the socket, is what
the peer sent. -/
theorem download_conserved (tuning : Tuning) (limits : TcpLimits) (events : List StackEvent) :
    LiveFlows (fun x => x.toApp.handed ++ piecesBytes x.socket.rxBuffer = x.socket.received ∧
      (x.aborted = true → x.toApp.closed = true)) (run tuning limits events).stack := by
  intro id x hx
  have hsound := run_sound tuning limits events id x hx
  exact ⟨hsound.received, hsound.aborted⟩

theorem run_connecting (tuning : Tuning) (limits : TcpLimits) (events : List StackEvent) :
    LiveFlows Connecting (run tuning limits events).stack := by
  refine run_live connecting_kept ?_ tuning limits events
  intro _ _ _ _ x y hservice hx hest
  have hsame : y = x := service_connecting hservice hest
  rw [hsame] at hest ⊢
  exact hx hest

/-- Nothing that a flow received is unread, unless its application was gone
or its connection reset. -/
def Delivered (y : TcpState) : Prop :=
  y.toApp.closed = false → y.socket.reset = false →
    y.socket.rxBuffer = [] ∧ y.toApp.handed = y.socket.received

/-- A pass that finds the socket of an established flow ended, with the
application there and no reset, can hand on all that is unread. -/
def RestFits (l : StackLoop) : StackEvent → Prop
  | .serviceTcp _ _ => ∀ id x, l.stack.tcpConns id = some x → x.established = true →
      x.toApp.closed = false → x.socket.reset = false →
      x.socket.state = .closed ∨ x.socket.state = .timeWait →
      x.socket.rxBuffer.length ≤ min maxRecvChunks (x.toApp.capacity - x.toApp.queue.length)
  | _ => True

variable {l : StackLoop}

theorem delivered_step (hsound : LiveFlows Sound l.stack)
    (hconnecting : LiveFlows Connecting l.stack) (hbefore : EndedFlows Delivered l.stack)
    (e : StackEvent) : EndedFlows Delivered (l.step e).stack ↔ RestFits l e := by
  constructor
  · intro hafter
    cases e with
    | serviceTcp now rate =>
      intro id x hx hest hopen hreset hstate
      obtain ⟨y, hservice, hyOpen, hyReset, hyRx⟩ :=
        service_removes l.stack.tuning l.stack.limits now (rate id) (hsound id x hx) hest hopen
          hreset hstate
      have hended : (l.step (.serviceTcp now rate)).stack.ended id = some y := by
        simp [step, withStack, NetStack.serviceTcp, serviced, hx, hservice]
      have hempty := (hafter id y hended hyOpen hyReset).1
      rw [hyRx] at hempty
      exact drop_eq_nil_iff.mp hempty
    | _ => trivial
  · intro hfits
    refine EndedFlows.step hbefore ?_
    rintro now rate rfl id x y hx hservice hopen hreset
    have hreceived := removed_received (hsound id x hx) hservice
    have hempty : y.socket.rxBuffer = [] := by
      rcases removed_cases (hsound id x hx) (hconnecting id x hx) hservice hopen hreset with
        h | ⟨hest, hxOpen, hxReset, hstate, hrest⟩
      · exact h
      · rw [hrest]
        exact drop_eq_nil_iff.mpr (hfits id x hx hest hxOpen hxReset hstate)
    rw [hempty] at hreceived
    exact ⟨hempty, by simpa using hreceived⟩

/-- **A download is complete exactly if the rest fits whenever its socket is
found ended.** -/
theorem download_complete_iff_restFits (tuning : Tuning) (limits : TcpLimits)
    (events : List StackEvent) :
    (∀ before, before <+: events → EndedFlows Delivered (run tuning limits before).stack) ↔
      AlongRun (fun before e => RestFits (run tuning limits before) e) events := by
  refine forall_prefix_iff_alongRun
    (P := fun events => EndedFlows Delivered (run tuning limits events).stack) ?_ ?_ events
  · intro id y hy
    cases hy
  · intro before e hbefore
    rw [run, exec_concat]
    exact delivered_step (run_sound tuning limits before) (run_connecting tuning limits before)
      hbefore e

/-! ## A slow reader -/

def oneByte : Piece := ⟨[120], by decide⟩

/-- The handshake, then `count` bytes, each serviced as it arrives, and none
read by the application. -/
def slowReader : Nat → List StackEvent
  | 0 => [.openTcp 0 sampleRemote false none, .poll 1 .synAck, .serviceTcp 1 fun _ => 0]
  | count + 1 => slowReader count ++ [.poll 1 (.data oneByte true), .serviceTcp 1 fun _ => 0]

def unreadFlow (count : Nat) (state : SocketState) (arrived : List Piece) : TcpState :=
  { TcpState.opened .low sampleLimits 0 49152 sampleRemote 0 false with
    socket :=
      { TcpSocket.connecting (64 * 1024) (64 * 1024) with
        state
        rxBuffer := arrived
        received := List.replicate count 120 ++ piecesBytes arrived }
    toApp :=
      { capacity := 128, queue := List.replicate count oneByte
        handed := List.replicate count 120 }
    connectResp := .connected
    established := true
    lastProgress := 1
    lastDrain := 1 }

variable {count : Nat}

theorem deliver_unreadFlow (h : count < 128) :
    (unreadFlow count .established [oneByte]).deliver maxRecvChunks =
      unreadFlow (count + 1) .established [] := by
  have hroom : (unreadFlow count .established [oneByte]).toApp.full = false := by
    simp [unreadFlow, AppChannel.full, h]
  have hqueue : List.replicate (count + 1) oneByte = List.replicate count oneByte ++ [oneByte] :=
    replicate_succ'
  have hbytes : List.replicate (count + 1) (120 : UInt8) = List.replicate count 120 ++ [120] :=
    replicate_succ'
  rw [maxRecvChunks, deliver_single _ rfl hroom rfl]
  unfold unreadFlow
  rw [hqueue, hbytes, piecesBytes_nil, append_nil]
  rfl

theorem poll_unreadFlow (count : Nat) :
    (unreadFlow count .established []).poll (.data oneByte true) =
      unreadFlow count .established [oneByte] := by
  unfold unreadFlow
  rw [piecesBytes_nil, append_nil]
  rfl

theorem service_unreadFlow (h : count < 128) :
    ((unreadFlow count .established []).poll (.data oneByte true)).service .low sampleLimits 1 0 =
      (unreadFlow (count + 1) .established [], false) := by
  have hservice : (unreadFlow count .established [oneByte]).service .low sampleLimits 1 0 =
      (unreadFlow count .established [oneByte]).serviceEstablished .low sampleLimits 1 0 := rfl
  have hbefore : ((unreadFlow count .established [oneByte]).uplink .low 1 0).closeHalf =
      unreadFlow count .established [oneByte] := rfl
  rw [poll_unreadFlow, hservice, serviceEstablished, hbefore, deliver_unreadFlow h]
  rfl

theorem slowReader_flow (count : Nat) (h : count ≤ 128) :
    HasFlow .low sampleLimits 1 (unreadFlow count .established [])
      (run .low sampleLimits (slowReader count)) := by
  induction count with
  | zero => exact ⟨rfl, rfl, rfl⟩
  | succ count ih =>
    have hbefore := ih (Nat.le_of_succ_le h)
    rw [run, slowReader, exec_append]
    exact (hbefore.poll (.data oneByte true)).service 1 (fun _ => 0) (service_unreadFlow h)

theorem service_full_closeWait (h : 128 ≤ count) :
    (unreadFlow count .closeWait [oneByte]).service .low sampleLimits 1 0 =
      ((unreadFlow count .closeWait [oneByte]).closeSocket, false) := by
  have hfull : (unreadFlow count .closeWait [oneByte]).toApp.full = true := by
    simp [unreadFlow, AppChannel.full, h]
  have hservice : (unreadFlow count .closeWait [oneByte]).service .low sampleLimits 1 0 =
      (unreadFlow count .closeWait [oneByte]).serviceEstablished .low sampleLimits 1 0 := rfl
  have hbefore : ((unreadFlow count .closeWait [oneByte]).uplink .low 1 0).closeHalf =
      unreadFlow count .closeWait [oneByte] := rfl
  rw [hservice, serviceEstablished, hbefore, deliver_full maxRecvChunks hfull]
  rfl

def closedFlow (count : Nat) : TcpState :=
  (unreadFlow count .closeWait [oneByte]).closeSocket.poll .finAcked

theorem service_closedFlow (h : 128 ≤ count) :
    (closedFlow count).service .low sampleLimits 1 0 =
      ({ closedFlow count with credit := (closedFlow count).credit.close }, true) := by
  have hfull : (closedFlow count).toApp.full = true := by
    have happ : (closedFlow count).toApp = (unreadFlow count .closeWait [oneByte]).toApp := rfl
    rw [happ]
    simp [unreadFlow, AppChannel.full, h]
  have hservice : (closedFlow count).service .low sampleLimits 1 0 =
      (closedFlow count).serviceEstablished .low sampleLimits 1 0 := rfl
  have hbefore : ((closedFlow count).uplink .low 1 0).closeHalf = closedFlow count := rfl
  rw [hservice, serviceEstablished, hbefore, deliver_full maxRecvChunks hfull]
  rfl

/-- One more byte arrives with the peer's FIN, our FIN is acknowledged, and
the flow goes. -/
def lastByte : List StackEvent :=
  [.poll 1 (.data oneByte true), .poll 1 .fin, .serviceTcp 1 (fun _ => 0), .poll 1 .finAcked,
    .serviceTcp 1 (fun _ => 0)]

theorem lastByte_unread (h : 128 ≤ count)
    (hflow : HasFlow .low sampleLimits 1 (unreadFlow count .established []) l) :
    (exec step l lastByte).stack.ended 1 =
      some { closedFlow count with credit := (closedFlow count).credit.close } := by
  have harrived := hflow.poll (.data oneByte true)
  rw [poll_unreadFlow] at harrived
  have hwait := harrived.poll .fin
  have hclosed := (hwait.service 1 (fun _ => 0) (service_full_closeWait h)).poll .finAcked
  exact hclosed.removed 1 (fun _ => 0) (service_closedFlow h)

theorem slowReader_truncated :
    ∃ y, (run .low sampleLimits (slowReader 128 ++ lastByte)).stack.ended 1 = some y ∧
      y.toApp.closed = false ∧ y.socket.reset = false ∧ y.socket.rxBuffer = [oneByte] ∧
      ¬ Delivered y := by
  have hended := lastByte_unread le_rfl (slowReader_flow 128 le_rfl)
  have hrun : run .low sampleLimits (slowReader 128 ++ lastByte) =
      exec step (run .low sampleLimits (slowReader 128)) lastByte :=
    exec_append _ _ _ _
  rw [hrun]
  refine ⟨_, hended, rfl, rfl, rfl, ?_⟩
  intro hdelivered
  have hempty := (hdelivered rfl rfl).1
  cases hempty

end StackLoop

end BigRocket.Netstack
