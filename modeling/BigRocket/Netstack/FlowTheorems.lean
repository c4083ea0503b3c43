/-
What a pass of `service_tcp` can do to one flow, said once.
-/
import BigRocket.Netstack.Flow

namespace BigRocket.Netstack

open Relation

inductive PassMove : TcpState → TcpState → Prop
  | markEstablished (x : TcpState) : PassMove x x.markEstablished
  | sendPending (x : TcpState) (now : Nat) : PassMove x (x.sendPending now)
  | checkDrain (x : TcpState) (now : Nat) : PassMove x (x.checkDrain now).1
  | publishCredit (x : TcpState) (tuning : Tuning) (rate : Nat) :
      PassMove x (x.publishCredit tuning rate)
  | resetFlapping (x : TcpState) : PassMove x x.resetFlapping
  | closeSocket (x : TcpState) : PassMove x x.closeSocket
  | deliver (x : TcpState) (turns : Nat) : PassMove x (x.deliver turns)
  | orphanedAt (x : TcpState) (at_ : Nat) : PassMove x { x with orphanedAt := some at_ }
  | abortSocket (x : TcpState) : PassMove x x.abortSocket
  | aborted (x : TcpState) (h : x.toApp.closed = true) : PassMove x { x with aborted := true }

abbrev PassMoves : TcpState → TcpState → Prop := ReflTransGen PassMove

theorem PassMoves.keeps {Q : TcpState → Prop} (hQ : ∀ x y, PassMove x y → Q x → Q y)
    {x y : TcpState} (h : PassMoves x y) (hx : Q x) : Q y := by
  induction h with
  | refl => exact hx
  | tail _ hmove ih => exact hQ _ _ hmove ih

namespace TcpState

theorem deliver_eq (turns : Nat) (x : TcpState) :
    ∃ toApp rest,
      x.deliver turns = { x with toApp, socket := { x.socket with rxBuffer := rest } } := by
  induction turns generalizing x with
  | zero => exact ⟨x.toApp, x.socket.rxBuffer, rfl⟩
  | succ turns ih =>
    unfold deliver
    split
    · exact ⟨x.toApp, x.socket.rxBuffer, rfl⟩
    · split
      · exact ⟨x.toApp, x.socket.rxBuffer, rfl⟩
      · split
        · exact ⟨x.toApp, x.socket.rxBuffer, rfl⟩
        case h_2 piece rest _ =>
          obtain ⟨toApp, rest', heq⟩ :=
            ih { x with
              toApp := x.toApp.push piece, socket := { x.socket with rxBuffer := rest } }
          exact ⟨toApp, rest', heq⟩

theorem sendPending_eq (now : Nat) (x : TcpState) :
    (∃ lastProgress, x.sendPending now = { x with lastProgress } ∧
        (x.pending = [] ∨ x.socket.canSend = false)) ∨
      (x.pending ≠ [] ∧ x.socket.canSend = true ∧ ∃ lastProgress,
        x.sendPending now =
          { x with
            socket := (x.socket.sendSlice x.pending).2
            lastProgress
            acceptedTotal := x.acceptedTotal + (x.socket.sendSlice x.pending).1
            pending := x.pending.drop (x.socket.sendSlice x.pending).1 }) := by
  unfold sendPending
  dsimp only
  split
  case isTrue hempty => exact .inl ⟨now, rfl, .inl hempty⟩
  case isFalse hpending =>
    split
    case isTrue hsend =>
      refine .inr ⟨hpending, hsend, ?_⟩
      split
      · exact ⟨now, rfl⟩
      case isFalse hnone =>
        have hzero : (x.socket.sendSlice x.pending).1 = 0 := by omega
        exact ⟨x.lastProgress, by simp [hzero]⟩
    case isFalse hsend => exact .inl ⟨x.lastProgress, rfl, .inr (by simpa using hsend)⟩

theorem sendPending_taken {x : TcpState} (now : Nat) {count : Nat} {socket : TcpSocket}
    (hsome : x.pending ≠ []) (hcan : x.socket.canSend = true)
    (hslice : x.socket.sendSlice x.pending = (count, socket)) (hpos : 0 < count) :
    x.sendPending now =
      { x with
        socket
        lastProgress := now
        acceptedTotal := x.acceptedTotal + count
        pending := x.pending.drop count } := by
  unfold sendPending
  rw [if_neg hsome, if_pos hcan, hslice]
  exact if_pos hpos

theorem sendPending_blocked {x : TcpState} (now : Nat) (hsome : x.pending ≠ [])
    (hcan : x.socket.canSend = false) : x.sendPending now = x := by
  unfold sendPending
  rw [if_neg hsome, if_neg (by simp [hcan])]

theorem checkDrain_eq (now : Nat) (x : TcpState) :
    ∃ lastDrain ackedHigh drainWarned stallMark stallCount,
      (x.checkDrain now).1 =
        { x with lastDrain, ackedHigh, drainWarned, stallMark, stallCount } := by
  unfold checkDrain
  dsimp only
  split
  · exact ⟨_, _, _, _, _, rfl⟩
  · split <;> exact ⟨_, _, _, _, _, rfl⟩

/-- What `reserve`, the passes and the channel to the application never
change: the endpoints, and what the application's messages did. -/
structure SameFlow (x y : TcpState) : Prop where
  localPort : y.localPort = x.localPort
  remote : y.remote = x.remote
  allocation : y.allocation = x.allocation
  applied : y.applied = x.applied
  halfClosed : y.halfClosed = x.halfClosed

theorem SameFlow.refl (x : TcpState) : SameFlow x x := ⟨rfl, rfl, rfl, rfl, rfl⟩

variable {y : TcpState}

theorem SameFlow.trans {x z : TcpState} (hxy : SameFlow x y) (hyz : SameFlow y z) :
    SameFlow x z where
  localPort := hyz.localPort.trans hxy.localPort
  remote := hyz.remote.trans hxy.remote
  allocation := hyz.allocation.trans hxy.allocation
  applied := hyz.applied.trans hxy.applied
  halfClosed := hyz.halfClosed.trans hxy.halfClosed

/-- What a part of a pass can leave of a flow: its own books and the channel
to the application, or one of the changes to the socket. -/
inductive PassEffect (x : TcpState) : TcpState → Prop
  | books {toApp connectResp established orphanedAt aborted lastProgress ackedHigh lastDrain
      drainWarned stallCount stallMark rxBuffer}
      (hkept : x.established = true → established = true) :
      PassEffect x
        { x with
          toApp, connectResp, established, orphanedAt, aborted, lastProgress, ackedHigh, lastDrain
          drainWarned, stallCount, stallMark, socket := { x.socket with rxBuffer } }
  | taken {lastProgress} :
      PassEffect x
        { x with
          socket := (x.socket.sendSlice x.pending).2
          lastProgress
          acceptedTotal := x.acceptedTotal + (x.socket.sendSlice x.pending).1
          pending := x.pending.drop (x.socket.sendSlice x.pending).1 }
  | publishCredit (tuning : Tuning) (rate : Nat) : PassEffect x (x.publishCredit tuning rate)
  | closeSocket : PassEffect x x.closeSocket
  | resetFlapping : PassEffect x x.resetFlapping
  | abortSocket : PassEffect x x.abortSocket

theorem passMove_effect {x : TcpState} (h : PassMove x y) : PassEffect x y := by
  cases h with
  | markEstablished =>
    unfold markEstablished
    split
    · split <;> exact .books fun _ => rfl
    · exact .books id
  | sendPending now =>
    rcases x.sendPending_eq now with ⟨_, heq, -⟩ | ⟨-, -, _, heq⟩ <;> rw [heq]
    · exact .books id
    · exact .taken
  | checkDrain now =>
    obtain ⟨_, _, _, _, _, heq⟩ := x.checkDrain_eq now
    rw [heq]
    exact .books id
  | deliver turns =>
    obtain ⟨toApp, rest, heq⟩ := deliver_eq turns x
    rw [heq]
    exact .books id
  | publishCredit tuning rate => exact .publishCredit tuning rate
  | resetFlapping => exact .resetFlapping
  | closeSocket => exact .closeSocket
  | orphanedAt t => exact .books id
  | abortSocket => exact .abortSocket
  | aborted _ => exact .books id

theorem sameFlow_of_passMove {x : TcpState} (h : PassMove x y) : SameFlow x y := by
  cases passMove_effect h <;> exact ⟨rfl, rfl, rfl, rfl, rfl⟩

theorem sameFlow_of_passMoves {x : TcpState} (h : PassMoves x y) : SameFlow x y := by
  induction h with
  | refl => exact .refl x
  | tail _ hmove ih => exact ih.trans (sameFlow_of_passMove hmove)

variable (tuning : Tuning) (limits : TcpLimits) (now rate : Nat) (x : TcpState)

theorem uplink_eq :
    x.uplink tuning now rate =
      if ((x.sendPending now).checkDrain now).2 then
        (((x.sendPending now).checkDrain now).1.publishCredit tuning rate).resetFlapping
      else ((x.sendPending now).checkDrain now).1.publishCredit tuning rate := rfl

theorem passMoves_uplink : PassMoves x (x.uplink tuning now rate) := by
  have hsend : PassMoves x (x.sendPending now) := .single (.sendPending x now)
  have hcheck := hsend.tail (.checkDrain (x.sendPending now) now)
  have hpublish := hcheck.tail (.publishCredit _ tuning rate)
  rw [uplink_eq]
  split
  · exact hpublish.tail (.resetFlapping _)
  · exact hpublish

theorem passMoves_closeHalf : PassMoves x x.closeHalf := by
  unfold closeHalf
  split
  · exact .single (.closeSocket x)
  · exact .refl

theorem passMoves_deliver :
    PassMoves x ((x.uplink tuning now rate).closeHalf.deliver maxRecvChunks) :=
  ((passMoves_uplink tuning now rate x).trans (passMoves_closeHalf _)).tail (.deliver _ _)

theorem passMoves_orphan (hclosed : x.toApp.closed = true) : PassMoves x (x.orphan limits now).1 := by
  have hmark : PassMoves x { x with orphanedAt := some (x.orphanedAt.getD now) } :=
    .single (.orphanedAt x _)
  unfold orphan
  dsimp only
  split
  · split
    · exact (hmark.tail (.abortSocket _)).tail (.aborted _ hclosed)
    · exact hmark.tail (.aborted _ hclosed)
  · exact hmark.tail (.closeSocket _)

/-- The flow before `finish`, which is the same whether the application is
there or not, except for what `orphan` does. -/
def beforeFinish : TcpState :=
  let y := (x.uplink tuning now rate).closeHalf.deliver maxRecvChunks
  if y.toApp.closed then (y.orphan limits now).1 else y

theorem passMoves_beforeFinish : PassMoves x (x.beforeFinish tuning limits now rate) := by
  have hdeliver := passMoves_deliver tuning now rate x
  unfold beforeFinish
  dsimp only
  split
  case isTrue hclosed => exact hdeliver.trans (passMoves_orphan limits now _ hclosed)
  case isFalse => exact hdeliver

theorem finish_cases :
    (∃ rest, x.finish = ({ x with pending := rest, credit := x.credit.close }, true) ∧
        (x.socket.state = .closed ∨ x.socket.state = .timeWait)) ∨
      (x.finish = (x.closeSocket, false) ∧ x.socket.state = .closeWait) ∨
      (x.finish = (x, false) ∧ x.socket.state ≠ .closeWait ∧ x.socket.state ≠ .closed ∧
        x.socket.state ≠ .timeWait) := by
  unfold finish
  split
  case h_1 hstate => exact .inr (.inl ⟨rfl, hstate⟩)
  case h_2 hstate => exact .inl ⟨[], rfl, .inr hstate⟩
  case h_3 hstate => exact .inl ⟨x.pending, rfl, .inl hstate⟩
  case h_4 h1 h2 h3 => exact .inr (.inr ⟨rfl, h1, h3, h2⟩)

theorem passMoves_finish (h : x.finish = (y, false)) : PassMoves x y := by
  rcases x.finish_cases with ⟨rest, heq, -⟩ | ⟨heq, -⟩ | ⟨heq, -⟩
  · rw [heq] at h; cases h
  · rw [heq] at h; cases h
    exact .single (.closeSocket x)
  · rw [heq] at h; cases h
    exact .refl

theorem serviceEstablished_cases :
    x.serviceEstablished tuning limits now rate = (x.beforeFinish tuning limits now rate).finish ∨
      (x.serviceEstablished tuning limits now rate =
          (x.beforeFinish tuning limits now rate, false) ∧
        ((x.uplink tuning now rate).closeHalf.deliver maxRecvChunks).toApp.closed = true) := by
  unfold serviceEstablished beforeFinish
  dsimp only
  split
  case isTrue hclosed =>
    split
    · exact .inr ⟨rfl, hclosed⟩
    · exact .inl rfl
  case isFalse => exact .inl rfl

variable {tuning limits now rate x}

theorem serviceEstablished_kept (h : x.serviceEstablished tuning limits now rate = (y, false)) :
    PassMoves x y := by
  have hbefore := passMoves_beforeFinish tuning limits now rate x
  rcases serviceEstablished_cases tuning limits now rate x with heq | ⟨heq, -⟩
  · rw [heq] at h
    exact hbefore.trans (passMoves_finish _ h)
  · rw [heq] at h; cases h
    exact hbefore

theorem established_of_passMove {x : TcpState} (h : PassMove x y) (hx : x.established = true) :
    y.established = true := by
  cases passMove_effect h with
  | books hkept => exact hkept hx
  | _ => exact hx

theorem markEstablished_of_not (h : x.markEstablished.established = false) :
    x.markEstablished = x := by
  unfold markEstablished at h ⊢
  split at h
  · split at h <;> cases h
  · rename_i hnot
    rw [if_neg hnot]

theorem markEstablished_of_established (h : x.established = true) : x.markEstablished = x := by
  unfold markEstablished
  rw [if_neg (by simp [h])]

theorem service_connecting (h : x.service tuning limits now rate = (y, false))
    (hy : y.established = false) : y = x := by
  unfold service at h
  split at h
  · cases h
  · dsimp only at h
    split at h
    · cases h
    · split at h
      case isTrue hconnecting =>
        split at h
        · cases h
        · cases h
          exact markEstablished_of_not (by simpa using hconnecting)
      case isFalse hestablished =>
        have hkept := (serviceEstablished_kept h).keeps (fun _ _ => established_of_passMove)
          (by simpa using hestablished)
        rw [hkept] at hy
        cases hy

theorem service_kept (h : x.service tuning limits now rate = (y, false)) : PassMoves x y := by
  have hmark : PassMoves x x.markEstablished := .single (.markEstablished x)
  unfold service at h
  split at h
  · cases h
  · dsimp only at h
    split at h
    · cases h
    · split at h
      · split at h
        · cases h
        · cases h
          exact hmark
      · exact hmark.trans (serviceEstablished_kept h)

/-- **A flow that goes** was reset as an orphan, never got connected, or was
established and has its socket CLOSED or in TIME-WAIT at the end of the pass. -/
theorem service_removed (h : x.service tuning limits now rate = (y, true)) :
    (x.aborted = true ∧ y = { x with credit := x.credit.close }) ∨
      (x.markEstablished.established = false ∧ ∃ message, y = x.markEstablished.refuse message) ∨
      (x.markEstablished.established = true ∧
        ∃ z rest, z = x.markEstablished.beforeFinish tuning limits now rate ∧
          (z.socket.state = .closed ∨ z.socket.state = .timeWait) ∧
          y = { z with pending := rest, credit := z.credit.close }) := by
  unfold service at h
  split at h
  case isTrue haborted => cases h; exact .inl ⟨haborted, rfl⟩
  case isFalse =>
    dsimp only at h
    split at h
    case isTrue hrefused => cases h; exact .inr (.inl ⟨by simpa using hrefused.1, _, rfl⟩)
    case isFalse =>
      split at h
      case isTrue hwaiting =>
        split at h
        · cases h; exact .inr (.inl ⟨by simpa using hwaiting, _, rfl⟩)
        · cases h
      case isFalse hestablished =>
        refine .inr (.inr ⟨by simpa using hestablished, ?_⟩)
        rcases serviceEstablished_cases tuning limits now rate x.markEstablished with
          heq | ⟨heq, -⟩
        · rw [heq] at h
          rcases finish_cases (x.markEstablished.beforeFinish tuning limits now rate) with
            ⟨rest, hfinish, hstate⟩ | ⟨hfinish, -⟩ | ⟨hfinish, -⟩
          · rw [hfinish] at h; cases h
            exact ⟨_, rest, rfl, hstate, rfl⟩
          · rw [hfinish] at h; cases h
          · rw [hfinish] at h; cases h
        · rw [heq] at h; cases h

end TcpState

end BigRocket.Netstack
