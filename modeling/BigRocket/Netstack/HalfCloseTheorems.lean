/-
The calls of `close()` on the sockets of the netstack, and what is left in
`pending` when they happen.
-/
import BigRocket.Netstack.UploadTheorems

namespace BigRocket.Netstack

open Lib Net Relation List

/-- Nothing is pending when the socket of a live application is closed, and
if a FIN follows, the socket has all that was ever moved into `pending`. -/
def Closing.Complete (c : Closing) : Prop :=
  c.appAlive = true → c.pending = [] ∧
    (c.state = .established ∨ c.state = .closeWait → c.given = c.moved)

namespace TcpState

def Orderly (x : TcpState) : Prop := ∀ c ∈ x.closings, Closing.Complete c

def AbortClosed (x : TcpState) : Prop := x.socket.aborted = true → x.socket.state = .closed

theorem abortClosed_flowMove {x y : TcpState} (hmove : FlowMove x y) (h : x.AbortClosed) :
    y.AbortClosed := by
  cases hmove with
  | poll segment =>
    intro haborted
    have hclosed : x.socket.state = .closed := h (by simpa [poll] using haborted)
    cases segment <;> simp [poll, TcpSocket.poll, TcpSocket.receives, hclosed]
  | callerGone => unfold callerGone; split <;> exact h
  | appReads => unfold appReads; split <;> exact h
  | appGone => unfold appGone; split <;> exact h
  | resetDead => exact fun _ => rfl
  | extend data => exact h
  | closeByApp => exact h
  | reserve len => exact h

theorem abortClosed_passMove {x y : TcpState} (hmove : PassMove x y) (h : x.AbortClosed) :
    y.AbortClosed := by
  cases passMove_effect hmove with
  | books _ => exact h
  | taken =>
    intro haborted
    simpa using h (by simpa using haborted)
  | closeSocket =>
    intro haborted
    have hclosed : x.socket.state = .closed := h (by simpa [closeSocket] using haborted)
    simp [closeSocket, TcpSocket.close, hclosed]
  | publishCredit tuning rate => exact h
  | resetFlapping => exact fun _ => rfl
  | abortSocket => exact fun _ => rfl

theorem abortClosed_kept : StackLoop.FlowKept AbortClosed where
  opened _ _ _ _ _ _ _ := by simp [AbortClosed, opened, TcpSocket.connecting]
  move _ _ := abortClosed_flowMove

/-! ## The three closes -/

theorem orderly_closeSocket {x : TcpState} (h : x.Orderly) (hacc : x.Accounted)
    (habort : x.AbortClosed) (hpending : x.toApp.closed = false → x.pending = []) :
    x.closeSocket.Orderly := by
  intro c hc
  rcases mem_append.mp hc with hold | hnew
  · exact h c hold
  · rw [mem_singleton.mp hnew]
    intro halive
    have hempty : x.pending = [] := hpending (by simpa using halive)
    refine ⟨hempty, fun hstate => ?_⟩
    have hkept : x.socket.aborted = false := by
      by_contra haborted
      have hclosed := habort (by simpa using haborted)
      rcases hstate with hs | hs <;> simp [hclosed] at hs
    have hmoved := hacc.moved hkept
    rwa [hempty, append_nil] at hmoved

theorem orderly_closeHalf {x : TcpState} (h : x.Orderly) (hacc : x.Accounted)
    (habort : x.AbortClosed) : x.closeHalf.Orderly := by
  unfold closeHalf
  split
  case isTrue hhalf => exact orderly_closeSocket h hacc habort fun _ => hhalf.2
  case isFalse => exact h

theorem sendPending_all {x : TcpState} (now : Nat) (hstate : x.socket.state = .closeWait)
    (hfits : x.pending.length ≤ x.socket.room) : (x.sendPending now).pending = [] := by
  have hmay : x.socket.maySend = true := by simp [TcpSocket.maySend, hstate]
  rcases x.sendPending_eq now with ⟨_, heq, hwhy⟩ | ⟨-, -, _, heq⟩
  · rw [heq]
    rcases hwhy with hempty | hcannot
    · exact hempty
    · have hnone : x.socket.room = 0 := by
        simpa [TcpSocket.canSend, hmay] using hcannot
      have hempty : x.pending = [] := eq_nil_of_length_eq_zero (by omega)
      exact hempty
  · rw [heq]
    simp [TcpSocket.sendSlice, hmay, hfits]

variable {tuning : Tuning} {limits : TcpLimits} {now rate : Nat} {x : TcpState}

theorem uplink_closings (tuning : Tuning) (now rate : Nat) (x : TcpState) :
    (x.uplink tuning now rate).closings = x.closings ∧
      (x.uplink tuning now rate).toApp = x.toApp ∧
      ((x.uplink tuning now rate).socket.state = .closeWait →
        x.socket.state = .closeWait ∧
          (x.uplink tuning now rate).pending = (x.sendPending now).pending) := by
  have hsend : (x.sendPending now).closings = x.closings ∧ (x.sendPending now).toApp = x.toApp ∧
      (x.sendPending now).socket.state = x.socket.state := by
    rcases x.sendPending_eq now with ⟨_, heq, -⟩ | ⟨-, -, _, heq⟩ <;> rw [heq] <;> simp
  obtain ⟨_, _, _, _, _, hcheck⟩ := (x.sendPending now).checkDrain_eq now
  rw [uplink_eq, hcheck]
  split
  · refine ⟨hsend.1, hsend.2.1, ?_⟩
    simp [resetFlapping]
  · refine ⟨hsend.1, hsend.2.1, fun hstate => ⟨?_, rfl⟩⟩
    rw [← hsend.2.2]
    exact hstate

/-- What is pending in CLOSE-WAIT fits into the send buffer, while the
application is there. -/
def PendingFits (x : TcpState) : Prop :=
  x.toApp.closed = false → x.socket.state = .closeWait → x.pending.length ≤ x.socket.room

instance (x : TcpState) : Decidable x.PendingFits :=
  inferInstanceAs (Decidable (_ → _))

theorem orderly_deliver {x : TcpState} (turns : Nat) (h : x.Orderly) :
    (x.deliver turns).Orderly := by
  obtain ⟨toApp, rest, heq⟩ := deliver_eq turns x
  rw [heq]
  exact h

theorem deliver_closed (turns : Nat) (x : TcpState) :
    (x.deliver turns).toApp.closed = x.toApp.closed := by
  induction turns generalizing x with
  | zero => rfl
  | succ turns ih =>
    unfold deliver
    split
    · rfl
    · split
      · rfl
      · split
        · rfl
        · exact ih _

theorem orderly_orphan (hclosed : x.toApp.closed = true) (h : x.Orderly) (hacc : x.Accounted)
    (habort : x.AbortClosed) : (x.orphan limits now).1.Orderly := by
  have hmark := PassMove.orphanedAt x (x.orphanedAt.getD now)
  unfold orphan
  dsimp only
  split
  · split <;> exact h
  · refine orderly_closeSocket h (accounted_passMove hmark hacc)
      (abortClosed_passMove hmark habort) ?_
    intro hopen
    rw [show x.toApp.closed = false from hopen] at hclosed
    cases hclosed

variable (tuning limits now rate) in
theorem orderly_beforeFinish (h : x.Orderly) (hacc : x.Accounted) (habort : x.AbortClosed)
    (hfits : x.PendingFits) :
    (x.beforeFinish tuning limits now rate).Orderly ∧
      ((x.beforeFinish tuning limits now rate).toApp.closed = false →
        (x.beforeFinish tuning limits now rate).socket.state = .closeWait →
        (x.beforeFinish tuning limits now rate).pending = []) := by
  obtain ⟨huClosings, huApp, huState⟩ := uplink_closings tuning now rate x
  have hmoves := passMoves_uplink tuning now rate x
  have huOrderly : (x.uplink tuning now rate).Orderly := by
    rw [Orderly, huClosings]
    exact h
  have huAcc := hmoves.keeps (fun _ _ => accounted_passMove) hacc
  have huAbort := hmoves.keeps (fun _ _ => abortClosed_passMove) habort
  have hhOrderly := orderly_closeHalf huOrderly huAcc huAbort
  have hdOrderly := orderly_deliver maxRecvChunks hhOrderly
  have hdMoves := passMoves_deliver tuning now rate x
  unfold beforeFinish
  dsimp only
  split
  case isTrue hclosed =>
    refine ⟨orderly_orphan hclosed hdOrderly (hdMoves.keeps (fun _ _ => accounted_passMove) hacc)
      (hdMoves.keeps (fun _ _ => abortClosed_passMove) habort), fun hopen => ?_⟩
    have hsame : ((((x.uplink tuning now rate).closeHalf.deliver maxRecvChunks).orphan
        limits now).1).toApp.closed = true := by
      unfold orphan
      dsimp only
      split
      · split <;> exact hclosed
      · exact hclosed
    rw [hsame] at hopen
    cases hopen
  case isFalse hopen =>
    refine ⟨hdOrderly, fun _ hstate => ?_⟩
    obtain ⟨toApp, rest, heq⟩ := deliver_eq maxRecvChunks (x.uplink tuning now rate).closeHalf
    rw [heq] at hstate ⊢
    rw [deliver_closed] at hopen
    -- the half close of the application would have left CLOSE-WAIT
    unfold closeHalf at hstate hopen ⊢
    split at hstate
    case isTrue hhalf =>
      rw [if_pos hhalf]
      exact hhalf.2
    case isFalse hhalf =>
      rw [if_neg hhalf] at hopen ⊢
      obtain ⟨hwait, hpending⟩ := huState hstate
      rw [huApp] at hopen
      have hsent := sendPending_all now hwait (hfits (by simpa using hopen) hwait)
      exact hpending.trans hsent

theorem orderly_finish (h : x.Orderly) (hacc : x.Accounted) (habort : x.AbortClosed)
    (hpending : x.toApp.closed = false → x.socket.state = .closeWait → x.pending = []) :
    x.finish.1.Orderly := by
  rcases x.finish_cases with ⟨rest, heq, -⟩ | ⟨heq, hstate⟩ | ⟨heq, -⟩
  · rw [heq]
    exact h
  · rw [heq]
    exact orderly_closeSocket h hacc habort fun hopen => hpending hopen hstate
  · rw [heq]
    exact h

theorem orderly_service (h : x.Orderly) (hacc : x.Accounted) (habort : x.AbortClosed)
    (hfits : x.PendingFits) : (x.service tuning limits now rate).1.Orderly := by
  have hmark := PassMove.markEstablished x
  have hmClosings : x.markEstablished.Orderly := by
    unfold markEstablished
    split
    · split <;> exact h
    · exact h
  have hmAcc := accounted_passMove hmark hacc
  have hmAbort := abortClosed_passMove hmark habort
  have hmFits : x.markEstablished.PendingFits := by
    unfold markEstablished
    split
    · split
      · exact hfits
      · intro hopen
        cases hopen
    · exact hfits
  unfold service
  split
  · exact h
  · dsimp only
    split
    · exact hmClosings
    · split
      · split <;> exact hmClosings
      · obtain ⟨hzOrderly, hzPending⟩ :=
          orderly_beforeFinish tuning limits now rate hmClosings hmAcc hmAbort hmFits
        have hzMoves := passMoves_beforeFinish tuning limits now rate x.markEstablished
        rcases serviceEstablished_cases tuning limits now rate x.markEstablished with
          heq | ⟨heq, -⟩
        · rw [heq]
          exact orderly_finish hzOrderly (hzMoves.keeps (fun _ _ => accounted_passMove) hmAcc)
            (hzMoves.keeps (fun _ _ => abortClosed_passMove) hmAbort) hzPending
        · rw [heq]
          exact hzOrderly

end TcpState

/-! ## Every run -/

namespace StackLoop

open NetStack TcpState

theorem orderly_flowMove {x y : TcpState} (hmove : FlowMove x y) (h : x.Orderly) :
    y.Orderly := by
  cases hmove with
  | callerGone => unfold callerGone; split <;> exact h
  | appReads => unfold appReads; split <;> exact h
  | appGone => unfold appGone; split <;> exact h
  | _ => exact h

theorem orderly_kept : FlowKept TcpState.Orderly where
  opened _ _ _ _ _ _ _ := by simp [TcpState.Orderly, opened]
  move _ _ := orderly_flowMove

theorem run_abortClosed (tuning : Tuning) (limits : TcpLimits) (events : List StackEvent) :
    LiveFlows AbortClosed (run tuning limits events).stack :=
  run_live abortClosed_kept
    (fun _ _ _ _ _ _ hservice hx =>
      (service_kept hservice).keeps (fun _ _ => abortClosed_passMove) hx)
    tuning limits events

/-- Every pass finds that what is pending in CLOSE-WAIT fits into the send
buffer. -/
def UploadFits (l : StackLoop) : StackEvent → Prop
  | .serviceTcp _ _ => LiveFlows PendingFits l.stack
  | _ => True

/-- **Every close is in order while the uploads fit**: nothing is pending, and
before a FIN the socket had all that was ever moved into `pending`. -/
theorem closings_complete_of_uploadFits (tuning : Tuning) (limits : TcpLimits)
    (events : List StackEvent)
    (hfits : AlongRun (fun before e => UploadFits (run tuning limits before) e) events) :
    ∀ before, before <+: events →
      LiveFlows TcpState.Orderly (run tuning limits before).stack ∧
        EndedFlows TcpState.Orderly (run tuning limits before).stack := by
  intro before hbefore
  refine exec_invariant
    (I := fun events => LiveFlows TcpState.Orderly (run tuning limits events).stack ∧
      EndedFlows TcpState.Orderly (run tuning limits events).stack) ?_ ?_ (hfits.initial hbefore)
  · constructor <;>
    · intro id x hx
      cases hx
  · intro front e hfront he
    obtain ⟨hlive, hended⟩ := hfront
    have hservice : ∀ now rate, e = .serviceTcp now rate → ∀ id x,
        (run tuning limits front).stack.tcpConns id = some x →
        ((run tuning limits front).stack.serviced now (rate id) x).1.Orderly := by
      rintro now rate rfl id x hx
      exact orderly_service (hlive id x hx) (run_accounted tuning limits front id x hx)
        (run_abortClosed tuning limits front id x hx) (he id x hx)
    rw [run, exec_concat]
    constructor
    · refine LiveFlows.step orderly_kept hlive ?_
      intro now rate heq id x y hx hy
      have horderly := hservice now rate heq id x hx
      rwa [show (run tuning limits front).stack.serviced now (rate id) x = (y, false) from hy]
        at horderly
    · refine EndedFlows.step hended ?_
      intro now rate heq id x y hx hy
      have horderly := hservice now rate heq id x hx
      rwa [show (run tuning limits front).stack.serviced now (rate id) x = (y, true) from hy]
        at horderly

def isServiceTcp : StackEvent → Bool
  | .serviceTcp _ _ => true
  | _ => false

/-- The ids in use are below `nextId`, so a fixed run can be checked. -/
def UploadFitsBelow (l : StackLoop) (e : StackEvent) : Prop :=
  isServiceTcp e = true → ∀ id < l.stack.nextId, ∀ x ∈ l.stack.tcpConns id, PendingFits x

instance (l : StackLoop) (e : StackEvent) : Decidable (UploadFitsBelow l e) :=
  inferInstanceAs (Decidable (_ → _))

theorem UploadFitsBelow.uploadFits {e : StackEvent} (h : UploadFitsBelow l e)
    (hids : IdsGiven l.stack) : UploadFits l e := by
  cases e with
  | serviceTcp now rate =>
    intro id x hx
    exact h rfl id (hids.2 id x hx).2 x hx
  | _ => trivial

def shortUpload : List StackEvent :=
  [.openTcp 0 sampleRemote false none, .poll 1 .synAck, .serviceTcp 1 fun _ => 0,
    .reserve 1 ⟨[71, 69, 84], by decide⟩ false, .enqueue 0, .drainAppData 1, .poll 1 .fin,
    .serviceTcp 2 fun _ => 0]

theorem shortUpload_complete :
    AlongRun (fun before e => UploadFits (run .low sampleLimits before) e) shortUpload ∧
      LiveFlows TcpState.Orderly (run .low sampleLimits shortUpload).stack ∧
      ((run .low sampleLimits shortUpload).stack.tcpConns 1).map TcpState.closings =
        some [⟨.closeWait, true, [], [71, 69, 84], [71, 69, 84]⟩] := by
  have hbelow : AlongRun (fun before e => UploadFitsBelow (run .low sampleLimits before) e)
      shortUpload := by decide +kernel
  have hfits : AlongRun (fun before e => UploadFits (run .low sampleLimits before) e)
      shortUpload :=
    hbelow.mono fun before e h => h.uploadFits (run_idsGiven .low sampleLimits before)
  refine ⟨hfits, ?_, by decide +kernel⟩
  exact (closings_complete_of_uploadFits .low sampleLimits shortUpload hfits _
    prefix_rfl).1

/-! ## A peer that half closes a long upload -/

def relayChunk : Chunk := ⟨List.replicate 16384 0, by rw [length_replicate]; decide⟩

theorem length_relayChunk : relayChunk.bytes.length = 16384 := length_replicate

def carrierFlow (taken pending : List UInt8) (sent : Nat) (state : SocketState) : TcpState :=
  { TcpState.opened .low sampleLimits 0 49152 sampleRemote 0 true with
    socket :=
      { TcpSocket.connecting (64 * 1024) (64 * 1024) with
        state, txBuffer := taken, given := taken }
    toApp := { capacity := 128 }
    connectResp := .connected
    established := true
    pending
    lastProgress := 1
    sendQueueHigh := taken.length
    acceptedTotal := taken.length
    lastDrain := 1
    credit := { sent, cap := 64 * 1024 }
    uplinkBudget := 64 * 1024
    applied := (taken ++ pending).map .byte }

variable {pending : List UInt8} {sent : Nat}

theorem uplink_carrierFlow (hsome : pending ≠ []) (hfits : pending.length ≤ 64 * 1024) :
    (carrierFlow [] pending sent .established).uplink .low 1 (64 * 1024) =
      carrierFlow pending [] sent .established := by
  have hslice : (carrierFlow [] pending sent .established).socket.sendSlice pending =
      (pending.length, (carrierFlow pending [] sent .established).socket) := by
    simp [TcpSocket.sendSlice, TcpSocket.maySend, carrierFlow, TcpSocket.room,
      TcpSocket.connecting, hfits]
  have hsend := sendPending_taken 1 (x := carrierFlow [] pending sent .established) hsome rfl
    hslice (length_pos_iff.mpr hsome)
  have hcheck : ((carrierFlow [] pending sent .established).sendPending 1).checkDrain 1 =
      ((carrierFlow [] pending sent .established).sendPending 1, false) := by
    rw [hsend]
    unfold checkDrain
    simp [carrierFlow, TcpSocket.sendQueue, hsome, tcpDrainStallWarn, seconds, opened]
  rw [uplink_eq, hcheck, hsend]
  simp [publishCredit, FlowCredit.publish, carrierFlow, TcpSocket.sendQueue, Tuning.low,
    minFlowQueueBytes]

theorem service_carrierFlow (hsome : pending ≠ []) (hfits : pending.length ≤ 64 * 1024) :
    (carrierFlow [] pending sent .established).service .low sampleLimits 1 (64 * 1024) =
      (carrierFlow pending [] sent .established, false) := by
  have hservice : (carrierFlow [] pending sent .established).service .low sampleLimits 1
        (64 * 1024) =
      (carrierFlow [] pending sent .established).serviceEstablished .low sampleLimits 1
        (64 * 1024) := rfl
  have hrest : (carrierFlow pending [] sent .established).closeHalf.deliver maxRecvChunks =
      carrierFlow pending [] sent .established := rfl
  rw [hservice, serviceEstablished, uplink_carrierFlow hsome hfits, hrest]
  rfl

theorem service_closeWait_full (taken : List UInt8) (sent : Nat) (hsome : pending ≠ [])
    (hfull : taken.length = 64 * 1024) :
    ∃ y, (carrierFlow taken pending sent .closeWait).service .low sampleLimits (seconds 22)
          (64 * 1024) = (y, false) ∧
      y.closings =
        [⟨.closeWait, true, pending, tokenBytes ((taken ++ pending).map .byte), taken⟩] := by
  have hcan : (carrierFlow taken pending sent .closeWait).socket.canSend = false := by
    simp [TcpSocket.canSend, TcpSocket.room, carrierFlow, TcpSocket.connecting, hfull]
  have hsend := sendPending_blocked (seconds 22) (x := carrierFlow taken pending sent .closeWait)
    hsome hcan
  have hcheck : ((carrierFlow taken pending sent .closeWait).checkDrain (seconds 22)).2 = false := by
    unfold checkDrain
    simp [carrierFlow, TcpSocket.sendQueue, hfull, tcpDrainStallWarn, seconds, opened]
  obtain ⟨_, _, _, _, _, heq⟩ :=
    (carrierFlow taken pending sent .closeWait).checkDrain_eq (seconds 22)
  have hservice : (carrierFlow taken pending sent .closeWait).service .low sampleLimits
        (seconds 22) (64 * 1024) =
      (carrierFlow taken pending sent .closeWait).serviceEstablished .low sampleLimits
        (seconds 22) (64 * 1024) := rfl
  have huplink : (carrierFlow taken pending sent .closeWait).uplink .low (seconds 22) (64 * 1024) =
      publishCredit .low (64 * 1024)
        ((carrierFlow taken pending sent .closeWait).checkDrain (seconds 22)).1 := by
    rw [uplink_eq, hsend, if_neg (by simp [hcheck])]
  rw [hservice, serviceEstablished, huplink, heq]
  exact ⟨_, rfl, rfl⟩

/-- `TcpConn::send` of one chunk, up to `pending`; `expired` when the credit
never came and the sender waited for its deadline. -/
def sendChunk (data : Chunk) (expired : Bool) : List StackEvent :=
  [.reserve 1 data expired, .enqueue 0, .drainAppData 1]

structure Carries (taken pending : List UInt8) (sent : Nat) (l : StackLoop) : Prop where
  hasFlow : HasFlow .low sampleLimits 1 (carrierFlow taken pending sent .established) l
  known : 1 < l.stack.nextId
  idle : Idle l

theorem Carries.chunk {taken : List UInt8} (h : Carries taken pending sent l) (data : Chunk)
    (expired : Bool) (hadmits : sent = 0 ∨ sent + data.length ≤ 64 * 1024 ∨ expired = true)
    (hroom : pending.length < 128 * 1024) (hfits : pending.length + data.length ≤ 128 * 1024) :
    Carries taken (pending ++ data.bytes) (sent + data.length)
      (exec step l (sendChunk data expired)) := by
  have htuning := h.hasFlow.tuning
  have hexec := exec_chunk h.hasFlow.flow h.known h.idle (by simp [htuning, Tuning.low]) data
    expired
    (by simpa [FlowCredit.admits, FlowCredit.outstanding, carrierFlow] using hadmits)
    (by simpa [htuning, maxTcpPending, Tuning.low, carrierFlow] using hroom)
    (by simpa [htuning, maxTcpPending, Tuning.low, carrierFlow] using hfits)
  have hnext : TcpState.extend data.bytes
      { carrierFlow taken pending sent .established with
        credit := (carrierFlow taken pending sent .established).credit.reserve data.length } =
      carrierFlow taken (pending ++ data.bytes) (sent + data.length) .established := by
    simp [TcpState.extend, carrierFlow, FlowCredit.reserve]
  rw [sendChunk, hexec, hnext]
  exact ⟨⟨by simp, htuning, h.hasFlow.limits⟩, h.known,
    ⟨h.idle.dataIn, h.idle.waiting, h.idle.backlog⟩⟩

theorem Carries.fill (h : Carries [] pending sent l) (hsome : pending ≠ [])
    (hfits : pending.length ≤ 64 * 1024) :
    Carries pending [] sent (l.step (.serviceTcp 1 fun _ => 64 * 1024)) :=
  ⟨h.hasFlow.service 1 _ (service_carrierFlow hsome hfits), h.known,
    ⟨h.idle.dataIn, h.idle.waiting, h.idle.backlog⟩⟩

def carrierOpened : List StackEvent :=
  [.openTcp 0 sampleRemote true none, .poll 1 .synAck, .serviceTcp 1 fun _ => 64 * 1024]

/-- Four chunks fill the send buffer. The fifth waits for its deadline and
then goes into `pending`, where the peer's FIN finds it. -/
def longUpload (data : Chunk) : List StackEvent :=
  sendChunk data false ++ sendChunk data false ++ sendChunk data false ++ sendChunk data false ++
    [.serviceTcp 1 fun _ => 64 * 1024] ++ sendChunk data true ++
    [.poll 1 .fin] ++ [.serviceTcp (seconds 22) fun _ => 64 * 1024]

theorem longUpload_closing {data : Chunk} (hlength : data.bytes.length = 16384)
    (h : Carries [] [] 0 l) :
    ∃ y, (exec step l (longUpload data)).stack.tcpConns 1 = some y ∧
      ∃ c ∈ y.closings, c.state = .closeWait ∧ c.appAlive = true ∧ c.pending = data.bytes := by
  have hlen : data.length = 16384 := hlength
  have hsome : data.bytes ≠ [] := ne_nil_of_length_pos (by omega)
  have hone := h.chunk data false (by simp) (by simp) (by simp [hlen])
  have htwo := hone.chunk data false (by simp [hlen]) (by simp [hlength])
    (by simp [hlength, hlen])
  have hthree := htwo.chunk data false (by simp [hlen]) (by simp [hlength])
    (by simp [hlength, hlen])
  have hfour := hthree.chunk data false (by simp [hlen])
    (by simp [hlength]) (by simp [hlength, hlen])
  have hfull := hfour.fill (by simp [hsome]) (by simp [hlength])
  have hfifth := hfull.chunk data true (by simp) (by simp) (by simp [hlen])
  obtain ⟨y, hservice, hclosings⟩ := service_closeWait_full
    ([] ++ data.bytes ++ data.bytes ++ data.bytes ++ data.bytes)
    (0 + data.length + data.length + data.length + data.length + data.length) hsome
    (by simp [hlength])
  have hend := (hfifth.hasFlow.poll .fin).service (seconds 22) (fun _ => 64 * 1024) hservice
  refine ⟨y, ?_, _, by rw [hclosings]; exact mem_singleton_self _, rfl, rfl, rfl⟩
  rw [longUpload, exec_concat, exec_concat, exec_append, exec_concat, exec_append, exec_append,
    exec_append]
  exact hend.flow

theorem longUpload_truncated :
    ∃ y, (run .low sampleLimits (carrierOpened ++ longUpload relayChunk)).stack.tcpConns 1 = some y ∧
      (∃ c ∈ y.closings, c.state = .closeWait ∧ c.appAlive = true ∧
        c.pending = relayChunk.bytes) ∧
      ¬ TcpState.Orderly y := by
  have hopened : Carries [] [] 0 (run .low sampleLimits carrierOpened) :=
    ⟨⟨rfl, rfl, rfl⟩, by decide, ⟨rfl, rfl, rfl⟩⟩
  have hrun : run .low sampleLimits (carrierOpened ++ longUpload relayChunk) =
      exec step (run .low sampleLimits carrierOpened) (longUpload relayChunk) :=
    exec_append _ _ _ _
  obtain ⟨y, hy, c, hc, hstate, halive, hpending⟩ := longUpload_closing length_relayChunk hopened
  rw [hrun]
  refine ⟨y, hy, ⟨c, hc, hstate, halive, hpending⟩, fun horderly => ?_⟩
  have hempty := (horderly c hc halive).1
  have hlength := length_relayChunk
  rw [← hpending, hempty] at hlength
  cases hlength

end StackLoop

end BigRocket.Netstack
