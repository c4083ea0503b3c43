/-
The admission credit of a flow against the bytes that are under way for it;
`acked` is published once per pass.
-/
import BigRocket.Netstack.UploadTheorems

namespace BigRocket.Netstack

open Lib Net Relation List Option

namespace TcpSocket

theorem sendQueue_poll_le (segment : Segment) (k : TcpSocket) :
    (k.poll segment).sendQueue ≤ k.sendQueue := by
  cases segment <;> simp only [poll] <;> repeat' split
  all_goals first | exact le_rfl | simp [sendQueue]

theorem sendSlice_counts (data : List UInt8) (k : TcpSocket) :
    (k.sendSlice data).2.given.length = k.given.length + (k.sendSlice data).1 ∧
      (k.sendSlice data).2.sendQueue = k.sendQueue + (k.sendSlice data).1 := by
  unfold sendSlice
  split <;> simp [sendQueue]

end TcpSocket

namespace TcpState

def peerAcked (x : TcpState) : Nat := x.acceptedTotal - x.socket.sendQueue

structure Metered (x : TcpState) : Prop where
  taken : x.acceptedTotal = x.socket.given.length
  queued : x.socket.sendQueue ≤ x.acceptedTotal
  acked : x.credit.acked ≤ x.peerAcked

variable {x y : TcpState}

theorem Metered.of_le (hx : x.Metered) (htotal : y.acceptedTotal = x.acceptedTotal)
    (hgiven : y.socket.given = x.socket.given) (hqueue : y.socket.sendQueue ≤ x.socket.sendQueue)
    (hacked : y.credit.acked = x.credit.acked) : y.Metered ∧ x.credit.acked ≤ y.credit.acked := by
  obtain ⟨htaken, hqueued, hle⟩ := hx
  unfold peerAcked at hle
  refine ⟨⟨by rw [htotal, hgiven, htaken], by omega, ?_⟩, hacked.ge⟩
  unfold peerAcked
  omega

theorem metered_flowMove (h : FlowMove x y) (hx : x.Metered) :
    y.Metered ∧ x.credit.acked ≤ y.credit.acked := by
  cases h with
  | callerGone => unfold callerGone; split <;> exact hx.of_le rfl rfl le_rfl rfl
  | appReads => unfold appReads; split <;> exact hx.of_le rfl rfl le_rfl rfl
  | appGone => unfold appGone; split <;> exact hx.of_le rfl rfl le_rfl rfl
  | poll segment =>
    exact hx.of_le rfl (x.socket.poll_given segment) (x.socket.sendQueue_poll_le segment) rfl
  | _ => exact hx.of_le rfl rfl le_rfl rfl

theorem metered_passMove (h : PassMove x y) (hx : x.Metered) :
    y.Metered ∧ x.credit.acked ≤ y.credit.acked := by
  cases passMove_effect h with
  | taken =>
    obtain ⟨htaken, hqueued, hle⟩ := hx
    obtain ⟨hgiven, hqueue⟩ := x.socket.sendSlice_counts x.pending
    unfold peerAcked at hle
    refine ⟨⟨by simp only [hgiven, htaken], by simp only [hqueue]; omega, ?_⟩, le_rfl⟩
    simp only [peerAcked, hqueue]
    omega
  | publishCredit tuning rate =>
    obtain ⟨htaken, hqueued, hle⟩ := hx
    refine ⟨⟨htaken, hqueued, ?_⟩, ?_⟩ <;>
      simp only [peerAcked, publishCredit, FlowCredit.publish] at hle ⊢ <;> split <;> omega
  | closeSocket =>
    exact hx.of_le rfl (by simp [closeSocket]) (by simp [closeSocket, TcpSocket.sendQueue]) rfl
  | _ => exact hx.of_le rfl rfl le_rfl rfl

theorem sent_passMove (h : PassMove x y) : y.credit.sent = x.credit.sent := by
  cases passMove_effect h <;> rfl

/-! ## What a pass publishes -/

def Published (x : TcpState) : Prop := x.credit.acked = x.peerAcked

variable {tuning : Tuning} {limits : TcpLimits} {now rate : Nat}

theorem published_uplink (hx : x.Metered) : (x.uplink tuning now rate).Published := by
  have hsent := (metered_passMove (.sendPending x now) hx).1
  have hchecked := (metered_passMove (.checkDrain _ now) hsent).1.acked
  have hpublished :
      (((x.sendPending now).checkDrain now).1.publishCredit tuning rate).Published := by
    simp only [Published, peerAcked, publishCredit, FlowCredit.publish] at hchecked ⊢
    split <;> omega
  rw [uplink_eq]
  split <;> exact hpublished

theorem published_closeSocket (h : x.Published) : x.closeSocket.Published := by
  simpa [Published, peerAcked, closeSocket, TcpSocket.sendQueue] using h

theorem published_beforeFinish (hx : x.Metered) :
    (x.beforeFinish tuning limits now rate).Published := by
  have hclosed : (x.uplink tuning now rate).closeHalf.Published := by
    unfold closeHalf
    split
    · exact published_closeSocket (published_uplink hx)
    · exact published_uplink hx
  have hdelivered : ((x.uplink tuning now rate).closeHalf.deliver maxRecvChunks).Published := by
    obtain ⟨toApp, rest, heq⟩ := deliver_eq maxRecvChunks (x.uplink tuning now rate).closeHalf
    rw [heq]
    exact hclosed
  unfold beforeFinish orphan
  dsimp only
  split
  · split
    · split <;> exact hdelivered
    · exact published_closeSocket hdelivered
  · exact hdelivered

theorem published_service (h : x.service tuning limits now rate = (y, false)) (hx : x.Metered)
    (hquiet : x.established = false → x.acceptedTotal = 0) : y.Published := by
  by_cases hy : y.established = false
  · obtain rfl := service_connecting h hy
    have hle := hx.acked
    have hzero := hquiet hy
    simp only [Published, peerAcked] at hle ⊢
    omega
  · have hpublished : ∀ {z : TcpState}, z.Metered →
        z.serviceEstablished tuning limits now rate = (y, false) → y.Published := by
      intro z hz hservice
      have hbefore : (z.beforeFinish tuning limits now rate).Published := published_beforeFinish hz
      rcases serviceEstablished_cases tuning limits now rate z with heq | ⟨heq, -⟩
      · rw [heq] at hservice
        rcases finish_cases (z.beforeFinish tuning limits now rate) with
          ⟨rest, hfinish, -⟩ | ⟨hfinish, -⟩ | ⟨hfinish, -⟩ <;> rw [hfinish] at hservice <;>
          cases hservice
        · exact published_closeSocket hbefore
        · exact hbefore
      · rw [heq] at hservice
        cases hservice
        exact hbefore
    unfold service at h
    split at h
    · cases h
    · dsimp only at h
      split at h
      · cases h
      · split at h
        case isTrue hconnecting =>
          split at h
          · cases h
          · cases h
            exact absurd (by simpa using hconnecting) hy
        case isFalse =>
          exact hpublished (metered_passMove (.markEstablished x) hx).1 h

theorem metered_kept :
    StackLoop.FlowKept fun x => x.Metered ∧ (x.established = false → x.acceptedTotal = 0) where
  opened := by
    intros
    exact ⟨⟨rfl, le_rfl, le_rfl⟩, fun _ => rfl⟩
  move x y hmove h := by
    refine ⟨(metered_flowMove hmove h.1).1, ?_⟩
    cases hmove with
    | callerGone => unfold callerGone; split <;> exact h.2
    | appReads => unfold appReads; split <;> exact h.2
    | appGone => unfold appGone; split <;> exact h.2
    | _ => exact h.2

end TcpState

/-! ## What the senders have reserved -/

namespace NetStack

def sentOf (id : Nat) (s : NetStack) : Option Nat := (s.tcpConns id).map (·.credit.sent)

variable {id : Nat}

theorem sentOf_setTcp {s : NetStack} {x y : TcpState} {other : Nat} (hx : s.tcpConns other = some x)
    (hy : y.credit.sent = x.credit.sent) : sentOf id (s.setTcp other y) = sentOf id s := by
  by_cases hid : id = other
  · subst hid
    simp [sentOf, hx, hy]
  · simp [sentOf, setTcp_tcpConns_ne hid]

theorem sentOf_onTcp {f : TcpState → TcpState} (hf : ∀ x, (f x).credit.sent = x.credit.sent)
    (other : Nat) (s : NetStack) : sentOf id (s.onTcp other f) = sentOf id s := by
  unfold onTcp
  split
  case h_1 x hx => exact sentOf_setTcp hx (hf x)
  case h_2 => rfl

theorem sentOf_tryHandleData (s : NetStack) (d : DataIn) :
    sentOf id (s.tryHandleData d).1 = sentOf id s := by
  cases d with
  | tcp other data =>
    simp only [tryHandleData]
    split
    case h_1 => rfl
    case h_2 x hx =>
      split
      · rfl
      · split <;> exact sentOf_setTcp hx rfl
  | tcpClose other => exact sentOf_onTcp (f := TcpState.closeByApp) (fun _ => rfl) other s
  | udp other dst data => rfl
  | udpClose other => rfl

theorem sentOf_ingest (w : NetStack × Backlog) (d : DataIn) :
    sentOf id (ingest w d).1 = sentOf id w.1 := by
  have hsent : sentOf id (w.1.tryHandleData d).1 = sentOf id w.1 := sentOf_tryHandleData w.1 d
  unfold ingest
  split
  · rfl
  · split
    case h_1 heq => rwa [heq] at hsent
    case h_2 heq => rwa [heq] at hsent

theorem sentOf_foldl {α : Type} {f : NetStack × Backlog → α → NetStack × Backlog}
    (hf : ∀ w a, sentOf id (f w a).1 = sentOf id w.1) (list : List α) (w : NetStack × Backlog) :
    sentOf id (list.foldl f w).1 = sentOf id w.1 := by
  induction list generalizing w with
  | nil => rfl
  | cons a rest ih => rw [foldl_cons, ih, hf]

theorem sentOf_reapWedged (now : Nat) (w : NetStack × Backlog) :
    sentOf id (reapWedged now w).1 = sentOf id w.1 := by
  have hreset (w : NetStack × Backlog) (other : Nat) :
      sentOf id (resetFlow w other).1 = sentOf id w.1 :=
    sentOf_onTcp (f := TcpState.resetDead) (fun _ => rfl) other w.1
  rw [reapWedged, reapBlocked, sentOf_foldl hreset, reapStalled, sentOf_foldl hreset]

end NetStack

namespace StackLoop

open NetStack

theorem sentOf_drainAppData (id budget : Nat) (l : StackLoop) :
    sentOf id (l.drainAppData budget).stack = sentOf id l.stack := by
  induction budget generalizing l with
  | zero => rfl
  | succ budget ih =>
    unfold drainAppData
    split
    · split
      · rfl
      · rw [ih]
        exact sentOf_ingest _ _
    · rfl

theorem drainAppData_sent (budget : Nat) (l : StackLoop) :
    (l.drainAppData budget).sent = l.sent ∧ (l.drainAppData budget).waiting = l.waiting := by
  induction budget generalizing l with
  | zero => exact ⟨rfl, rfl⟩
  | succ budget ih =>
    unfold drainAppData
    split
    · split
      · exact ⟨rfl, rfl⟩
      · exact ih _
    · exact ⟨rfl, rfl⟩

/-- What a flow's senders reserved is what the channel took from them and
what still waits for a place there. -/
def Charged (l : StackLoop) : Prop :=
  ∀ id n, sentOf id l.stack = some n →
    n = (bytesOf id l.sent).length + (bytesOf id l.waiting).length

variable {l m : StackLoop}

theorem Charged.quiet (h : l.Charged)
    (hcredit : ∀ id n, sentOf id m.stack = some n → sentOf id l.stack = some n)
    (hsent : ∀ id, (bytesOf id m.sent).length = (bytesOf id l.sent).length)
    (hwaiting : m.waiting = l.waiting) : m.Charged := by
  intro id n hn
  rw [hsent, hwaiting]
  exact h id n (hcredit id n hn)

theorem Charged.onTcp (h : l.Charged) (id : Nat) {f : TcpState → TcpState}
    (hf : ∀ x, (f x).credit.sent = x.credit.sent) :
    (l.withStack (NetStack.onTcp id f)).Charged :=
  h.quiet (fun _ _ hn => by rwa [withStack, sentOf_onTcp hf] at hn) (fun _ => rfl) rfl

theorem bytesOf_append (id : Nat) (front back : List DataIn) :
    bytesOf id (front ++ back) = bytesOf id front ++ bytesOf id back := by
  rw [bytesOf, laneOf_append, tokenBytes_append]
  rfl

theorem bytesOf_singleton (id : Nat) (d : DataIn) :
    bytesOf id [d] = if dataInId d = id then tokenBytes (dataInTokens d) else [] := by
  split
  case isTrue hid =>
    subst hid
    rw [bytesOf, laneOf, Parking.lane_singleton_self]
  case isFalse hid =>
    rw [bytesOf, laneOf, Parking.lane_singleton_ne hid]
    rfl

theorem Charged.send (h : l.Charged) {d : DataIn} (hd : tokenBytes (dataInTokens d) = []) :
    (l.send d).Charged := by
  unfold StackLoop.send
  split
  · exact h.quiet (fun _ _ hn => hn) (fun id => by simp [bytesOf_append, bytesOf_singleton, hd]) rfl
  · exact h

theorem length_bytesOf_eraseIdx (id : Nat) {queue : List DataIn} {index : Nat} {d : DataIn}
    (hd : queue[index]? = some d) :
    (bytesOf id queue).length =
      (bytesOf id [d]).length + (bytesOf id (queue.eraseIdx index)).length := by
  induction queue generalizing index with
  | nil => cases hd
  | cons first rest ih =>
    have hcons (queue : List DataIn) :
        bytesOf id (first :: queue) = bytesOf id [first] ++ bytesOf id queue :=
      bytesOf_append id [first] queue
    cases index with
    | zero =>
      obtain rfl : first = d := by simpa using hd
      simp [hcons rest]
    | succ index =>
      have hrest := ih (by simpa using hd)
      rw [eraseIdx_cons_succ, hcons rest, hcons (rest.eraseIdx index), length_append,
        length_append]
      omega

theorem Charged.enqueue (h : l.Charged) (index : Nat) : (l.enqueue index).Charged := by
  unfold StackLoop.enqueue
  split
  case h_1 d hd =>
    split
    · intro id n hn
      have hold := h id n hn
      rw [length_bytesOf_eraseIdx id hd] at hold
      dsimp only
      rw [bytesOf_append, length_append]
      omega
    · exact h
  case h_2 => exact h

theorem Charged.reserve (h : l.Charged) (id : Nat) (data : Chunk) (expired : Bool) :
    (l.reserve id data expired).Charged := by
  have hself : bytesOf id [.tcp id data] = data.bytes := by
    simp [bytesOf_singleton, dataInId, dataInTokens]
  have hother {other : Nat} (hid : other ≠ id) : bytesOf other [.tcp id data] = [] := by
    simp [bytesOf_singleton, dataInId, hid.symm]
  unfold StackLoop.reserve
  split
  · split
    case h_1 x hx =>
      split
      · intro other n hn
        dsimp only at hn ⊢
        rw [bytesOf_append, length_append]
        by_cases hid : other = id
        · subst hid
          simp only [sentOf, setTcp_tcpConns_self, map_some, Option.some.injEq] at hn
          have hold := h other x.credit.sent (by simp [sentOf, hx])
          rw [hself, ← hn]
          simp only [FlowCredit.reserve, Chunk.length]
          omega
        · rw [hother hid]
          exact h other n (by simpa only [sentOf, setTcp_tcpConns_ne hid] using hn)
      · exact h
    case h_2 hgone =>
      intro other n hn
      have hid : other ≠ id := by
        rintro rfl
        simp [sentOf, hgone] at hn
      rw [bytesOf_append, hother hid, append_nil]
      exact h other n hn
  · exact h

theorem Charged.step (h : l.Charged) (horder : l.InOrder) (e : StackEvent) :
    (l.step e).Charged := by
  cases e with
  | openTcp now dst carrier refusal =>
    intro id n hn
    obtain ⟨x, hx, rfl⟩ := map_eq_some_iff.mp hn
    rcases tcpConns_openTcp hx with hold | ⟨-, rfl, rfl⟩
    · exact h id _ (by rw [sentOf, hold]; rfl)
    · -- no message can be for a flow that was not there yet
      have hnil (queue : List DataIn) (hall : ∀ d ∈ queue, dataInId d < l.stack.nextId) :
          bytesOf l.stack.nextId queue = [] := by
        rw [bytesOf, laneOf, Parking.lane_eq_nil fun d hd heq => (hall d hd).ne heq]
        rfl
      simp only [StackLoop.step, withStack, hnil _ horder.sent, hnil _ horder.waiting]
      rfl
  | openUdp refusal =>
    refine h.quiet (fun id n hn => ?_) (fun _ => rfl) rfl
    rwa [StackLoop.step, withStack, sentOf, openUdp_tcpConns] at hn
  | callerGone id =>
    exact h.onTcp id fun x => by unfold TcpState.callerGone; split <;> rfl
  | reserve id data expired => exact h.reserve id data expired
  | enqueue index => exact h.enqueue index
  | sendClose id => exact h.send rfl
  | sendUdp id dst data => exact h.send rfl
  | sendUdpClose id => exact h.send rfl
  | appReads id => exact h.onTcp id fun x => by unfold TcpState.appReads; split <;> rfl
  | appGone id => exact h.onTcp id fun x => by unfold TcpState.appGone; split <;> rfl
  | udpAppGone id => exact h.quiet (fun _ _ hn => hn) (fun _ => rfl) rfl
  | poll id segment => exact h.onTcp id fun x => rfl
  | serviceTcp now rate =>
    refine h.quiet (fun id n hn => ?_) (fun _ => rfl) rfl
    obtain ⟨y, hy, rfl⟩ := map_eq_some_iff.mp hn
    obtain ⟨x, hx, hservice⟩ := tcpConns_serviceTcp hy
    have hsent : y.credit.sent = x.credit.sent :=
      PassMoves.keeps (Q := fun y => y.credit.sent = x.credit.sent)
        (fun _ _ hmove hold => (TcpState.sent_passMove hmove).trans hold)
        (TcpState.service_kept hservice) rfl
    rw [sentOf, hx, hsent]
    rfl
  | serviceUdp => exact h.quiet (fun _ _ hn => hn) (fun _ => rfl) rfl
  | drainBacklog =>
    refine h.quiet (fun id n hn => ?_) (fun _ => rfl) rfl
    simp only [StackLoop.step, withBacklog, NetStack.drainBacklog, drainNext_eq_ingest] at hn
    rwa [sentOf_foldl sentOf_ingest] at hn
  | drainAppData budget =>
    refine h.quiet (fun id n hn => ?_) (fun id => ?_) (drainAppData_sent budget l).2
    · rwa [StackLoop.step, sentOf_drainAppData] at hn
    · rw [StackLoop.step, (drainAppData_sent budget l).1]
  | reapWedged now =>
    refine h.quiet (fun id n hn => ?_) (fun _ => rfl) rfl
    simp only [StackLoop.step, withBacklog] at hn
    rwa [sentOf_reapWedged] at hn

variable (tuning : Tuning) (limits : TcpLimits) (events : List StackEvent)

theorem run_charged : (run tuning limits events).Charged := by
  induction events using List.reverseRecOn with
  | nil => intro id n hn; cases hn
  | append_singleton events e ih =>
    rw [run, exec_concat]
    exact ih.step (run_inOrder tuning limits events) e

theorem run_metered :
    LiveFlows (fun x => x.Metered ∧ (x.established = false → x.acceptedTotal = 0))
      (run tuning limits events).stack := by
  refine run_live TcpState.metered_kept (fun _ _ _ _ x y hservice hx => ?_) tuning limits events
  refine ⟨((TcpState.service_kept hservice).keeps
    (fun _ _ hmove h => (TcpState.metered_passMove hmove h).1) hx.1), fun hy => ?_⟩
  obtain rfl := TcpState.service_connecting hservice hy
  exact hx.2 hy

/-! ## The credit -/

/-- The bytes of a flow in the channel, with those whose sender waits for a
place there, in the backlog, in `pending` and in the send queue. -/
def underWay (id : Nat) (x : TcpState) (l : StackLoop) : Nat :=
  (bytesOf id l.waiting).length + (bytesOf id l.dataIn).length +
    (bytesOf id l.backlog.queue).length + x.pending.length + x.socket.sendQueue

structure Credited (l : StackLoop) : Prop where
  outstanding : ∀ id x, l.stack.tcpConns id = some x → x.socket.aborted = false →
    x.credit.outstanding = l.underWay id x + (x.peerAcked - x.credit.acked)
  afterPass : ∀ now rate id x, (l.step (.serviceTcp now rate)).stack.tcpConns id = some x →
    x.socket.aborted = false →
    x.credit.outstanding = (l.step (.serviceTcp now rate)).underWay id x
  acked : ∀ e id x y, l.stack.tcpConns id = some x → (l.step e).stack.tcpConns id = some y →
    x.credit.acked ≤ y.credit.acked
  reserved : ∀ id x data expired, l.stack.tcpConns id = some x → x.credit.closed = false →
    x.credit.admits data.length false = true →
    ∃ y, (l.step (.reserve id data expired)).stack.tcpConns id = some y ∧
      y.credit.outstanding ≤ max x.credit.cap data.length

theorem run_outstanding {id : Nat} {x : TcpState}
    (hx : (run tuning limits events).stack.tcpConns id = some x)
    (haborted : x.socket.aborted = false) :
    x.credit.outstanding =
      (run tuning limits events).underWay id x + (x.peerAcked - x.credit.acked) := by
  have hcharged := run_charged tuning limits events id x.credit.sent (by rw [sentOf, hx]; rfl)
  obtain ⟨htaken, hqueued, hacked⟩ := (run_metered tuning limits events id x hx).1
  have hmoved := (run_accounted tuning limits events id x hx).moved haborted
  have htokens := (run_inOrder tuning limits events).conserved id ⟨x, hx, haborted⟩
  simp only [appliedOf, hx] at htokens
  have hbytes := congrArg (List.length ∘ tokenBytes) htokens
  simp only [Function.comp_apply, tokenBytes_append, ← hmoved, length_append] at hbytes
  simp only [FlowCredit.outstanding, underWay, TcpState.peerAcked, bytesOf] at *
  omega

theorem acked_le_step {l : StackLoop} (hids : IdsGiven l.stack)
    (hmetered : LiveFlows TcpState.Metered l.stack) (e : StackEvent) {id : Nat} {x y : TcpState}
    (hx : l.stack.tcpConns id = some x) (hy : (l.step e).stack.tcpConns id = some y) :
    x.credit.acked ≤ y.credit.acked := by
  have hstack := step_stack l e
  have hmoves (h : Moves l.stack (l.step e).stack) : x.credit.acked ≤ y.credit.acked := by
    obtain ⟨z, hz, hzy⟩ := h.before hy
    obtain rfl : x = z := by simpa [hx] using hz
    exact (FlowMoves.keeps (Q := fun y => y.Metered ∧ x.credit.acked ≤ y.credit.acked)
      (fun _ _ hmove h => ⟨(TcpState.metered_flowMove hmove h.1).1,
        h.2.trans (TcpState.metered_flowMove hmove h.1).2⟩) hzy ⟨hmetered id x hx, le_rfl⟩).2
  cases e with
  | openTcp now dst carrier refusal =>
    rw [hstack] at hy
    rcases tcpConns_openTcp hy with hold | ⟨-, hid, -⟩
    · obtain rfl : x = y := by simpa [hx] using hold
      exact le_rfl
    · exact absurd (hids.2 id x hx).2 (by omega)
  | openUdp refusal =>
    rw [hstack, openUdp_tcpConns, hx] at hy
    cases hy
    exact le_rfl
  | serviceTcp now rate =>
    rw [hstack] at hy
    obtain ⟨z, hz, hservice⟩ := tcpConns_serviceTcp hy
    obtain rfl : x = z := by simpa [hx] using hz
    exact (PassMoves.keeps (Q := fun y => y.Metered ∧ x.credit.acked ≤ y.credit.acked)
      (fun _ _ hmove h => ⟨(TcpState.metered_passMove hmove h.1).1,
        h.2.trans (TcpState.metered_passMove hmove h.1).2⟩) (TcpState.service_kept hservice)
      ⟨hmetered id x hx, le_rfl⟩).2
  | _ => exact hmoves hstack

/-- **The admission credit is conserved**: what is outstanding is what the four
queues of a flow hold and what was acknowledged since the last pass. -/
theorem run_credited : (run tuning limits events).Credited where
  outstanding _ _ := run_outstanding tuning limits events
  afterPass now rate id x hx haborted := by
    have hrun : (run tuning limits events).step (.serviceTcp now rate) =
        run tuning limits (events ++ [.serviceTcp now rate]) := (exec_concat ..).symm
    obtain ⟨y, hy, hservice⟩ := tcpConns_serviceTcp hx
    obtain ⟨hmetered, hquiet⟩ := run_metered tuning limits events id y hy
    have hpublished : x.credit.acked = x.peerAcked :=
      TcpState.published_service hservice hmetered hquiet
    rw [hrun] at hx ⊢
    rw [run_outstanding tuning limits _ hx haborted, hpublished, Nat.sub_self, Nat.add_zero]
  acked e _ _ _ hx hy :=
    acked_le_step (run_idsGiven tuning limits events)
      (fun id x hx => (run_metered tuning limits events id x hx).1) e hx hy
  reserved id x data expired hx hopen hadmits := by
    have hid := ((run_idsGiven tuning limits events).2 id x hx).2
    have hadmits' : x.credit.admits data.length expired = true := by
      simp only [FlowCredit.admits, Bool.false_eq_true, decide_eq_true_eq] at hadmits ⊢
      tauto
    refine ⟨{ x with credit := x.credit.reserve data.length }, ?_, ?_⟩
    · simp [StackLoop.step, StackLoop.reserve, hid, hx, hadmits']
    · simp only [FlowCredit.admits, hopen, Bool.false_eq_true, false_or, or_false,
        decide_eq_true_eq] at hadmits
      simp only [FlowCredit.outstanding, FlowCredit.reserve] at hadmits ⊢
      omega

def ackedUpload : List StackEvent :=
  [.openTcp 0 sampleRemote false none, .poll 1 .synAck, .serviceTcp 1 (fun _ => 0),
    .reserve 1 ⟨[72, 73], by decide⟩ false, .enqueue 0, .drainAppData 1,
    .serviceTcp 2 (fun _ => 0), .poll 1 (.acked 2)]

theorem outstanding_beforePass :
    ∃ x, (run .low sampleLimits ackedUpload).stack.tcpConns 1 = some x ∧
      x.socket.aborted = false ∧ x.credit.outstanding = 2 ∧
      (run .low sampleLimits ackedUpload).underWay 1 x = 0 := by
  have hflow : ((run .low sampleLimits ackedUpload).stack.tcpConns 1).any (fun x =>
      x.socket.aborted = false ∧ x.credit.outstanding = 2 ∧
        (run .low sampleLimits ackedUpload).underWay 1 x = 0) = true := by
    decide +kernel
  obtain ⟨x, hx, hfacts⟩ := (any_eq_true _ _).mp hflow
  exact ⟨x, hx, of_decide_eq_true hfacts⟩

end StackLoop

end BigRocket.Netstack
