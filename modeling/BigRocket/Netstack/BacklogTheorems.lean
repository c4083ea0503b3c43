/-
What one flow and the backlog in front of it do with the messages of the data
channel.
-/
import BigRocket.Netstack.FlowTheorems
import BigRocket.Netstack.NetStackTheorems

namespace BigRocket.Netstack

open Lib Net Relation List

/-! ## One flow -/

namespace TcpState

/-- What was moved into `pending` is in the socket or still there, and the
flow is half closed exactly when it was told so. -/
structure Accounted (x : TcpState) : Prop where
  moved : x.socket.aborted = false → x.socket.given ++ x.pending = tokenBytes x.applied
  halfClosed : x.halfClosed = true ↔ Token.close ∈ x.applied

theorem byte_ne_close (data : List UInt8) : Token.close ∉ data.map Token.byte := by
  simp

variable {x y : TcpState}

theorem accounted_move (h : FlowMove x y) (hx : x.Accounted) : y.Accounted := by
  obtain ⟨hmoved, hhalf⟩ := hx
  cases h with
  | extend data =>
    refine ⟨fun h => ?_, ?_⟩
    · have heq := hmoved h
      simp only [extend, tokenBytes_append, tokenBytes_map_byte, ← heq, append_assoc]
    · simpa [extend] using hhalf
  | closeByApp =>
    refine ⟨fun h => ?_, by simp [closeByApp]⟩
    have heq := hmoved h
    simpa [closeByApp] using heq
  | callerGone =>
    unfold callerGone
    split <;> exact ⟨hmoved, hhalf⟩
  | reserve len => exact ⟨hmoved, hhalf⟩
  | appReads =>
    unfold appReads
    split <;> exact ⟨hmoved, hhalf⟩
  | appGone =>
    unfold appGone
    split <;> exact ⟨hmoved, hhalf⟩
  | poll segment => exact ⟨by simpa [poll] using hmoved, hhalf⟩
  | resetDead => exact ⟨by simp [resetDead], hhalf⟩

theorem accounted_kept : StackLoop.FlowKept Accounted where
  opened tuning limits now port dst allocation carrier := ⟨fun _ => rfl, by simp [opened]⟩
  move _ _ := accounted_move

theorem Accounted.of_eq (hx : x.Accounted) (hsame : SameFlow x y)
    (hgiven : y.socket.given = x.socket.given) (haborted : y.socket.aborted = x.socket.aborted)
    (hpending : y.pending = x.pending) : y.Accounted where
  moved := by
    rw [hgiven, haborted, hpending, hsame.applied]
    exact hx.moved
  halfClosed := by
    rw [hsame.applied, hsame.halfClosed]
    exact hx.halfClosed

theorem accounted_passMove (h : PassMove x y) (hx : x.Accounted) : y.Accounted := by
  have hsame := sameFlow_of_passMove h
  cases passMove_effect h with
  | taken =>
    refine ⟨fun h => ?_, hx.halfClosed⟩
    rw [x.socket.sendSlice_given x.pending]
    exact hx.moved (by simpa using h)
  | closeSocket => exact hx.of_eq hsame (by simp [closeSocket]) (by simp [closeSocket]) rfl
  | books _ => exact hx.of_eq hsame rfl rfl rfl
  | publishCredit tuning rate => exact hx.of_eq hsame rfl rfl rfl
  | resetFlapping =>
    -- the socket is aborted, so nothing is claimed of `pending` any more
    exact ⟨by simp [resetFlapping], hx.halfClosed⟩
  | abortSocket => exact ⟨by simp [abortSocket], hx.halfClosed⟩

theorem aborted_of_flowMove (h : FlowMove x y) (hx : x.socket.aborted = true) :
    y.socket.aborted = true := by
  cases h with
  | callerGone => unfold callerGone; split <;> exact hx
  | appReads => unfold appReads; split <;> exact hx
  | appGone => unfold appGone; split <;> exact hx
  | poll segment => simpa [poll] using hx
  | resetDead => rfl
  | extend data => exact hx
  | closeByApp => exact hx
  | reserve len => exact hx

theorem aborted_of_passMove (h : PassMove x y) (hx : x.socket.aborted = true) :
    y.socket.aborted = true := by
  cases passMove_effect h with
  | books _ => exact hx
  | taken => simpa using hx
  | publishCredit tuning rate => exact hx
  | closeSocket => simpa [closeSocket] using hx
  | resetFlapping => rfl
  | abortSocket => rfl

end TcpState

/-! ## The flow as the consumer of its messages -/

namespace NetStack

def appliedOf (id : Nat) (s : NetStack) : List Token :=
  match s.tcpConns id with
  | some x => x.applied
  | none => []

def Unaborted (id : Nat) (s : NetStack) : Prop :=
  ∃ x, s.tcpConns id = some x ∧ x.socket.aborted = false

variable (ids : List Nat) {w : NetStack × Backlog} {d : DataIn} {id other : Nat} {P : Nat → Prop}

theorem tryHandleData_other {s : NetStack} (h : dataInId d ≠ id) :
    (s.tryHandleData d).1.tcpConns id = s.tcpConns id := by
  have hset (x : TcpState) : (s.setTcp (dataInId d) x).tcpConns id = s.tcpConns id :=
    setTcp_tcpConns_ne (Ne.symm h) x s
  cases d with
  | tcp other data =>
    simp only [tryHandleData]
    split
    · rfl
    · split
      · rfl
      · split <;> exact hset _
  | tcpClose other =>
    simp only [tryHandleData, onTcp]
    split
    · exact hset _
    · rfl
  | udp other dst data => rfl
  | udpClose other => rfl

theorem tryHandleData_own {s : NetStack} {x : TcpState} (hx : s.tcpConns (dataInId d) = some x) :
    ∃ y, (s.tryHandleData d).1.tcpConns (dataInId d) = some y ∧ y.socket = x.socket ∧
      y.applied ++ (s.tryHandleData d).2.elim [] dataInTokens = x.applied ++ dataInTokens d := by
  cases d with
  | tcp id data =>
    simp only [dataInId] at hx
    simp only [tryHandleData, hx, dataInId]
    split
    · exact ⟨x, hx, rfl, rfl⟩
    · split
      · exact ⟨_, setTcp_tcpConns_self .., rfl, by simp [TcpState.extend, dataInTokens]⟩
      · refine ⟨_, setTcp_tcpConns_self .., rfl, ?_⟩
        simp [TcpState.extend, dataInTokens]
  | tcpClose id =>
    simp only [dataInId] at hx
    refine ⟨x.closeByApp, ?_, rfl, by simp [tryHandleData, TcpState.closeByApp, dataInTokens]⟩
    simp [tryHandleData, onTcp, hx, dataInId]
  | udp id dst data => exact ⟨x, hx, rfl, rfl⟩
  | udpClose id => exact ⟨x, hx, rfl, by simp [tryHandleData, dataInTokens]⟩

theorem places_tryHandleData (id : Nat) :
    Parking.Places dataInId dataInTokens tryHandleData id (Unaborted id) (appliedOf id) where
  key_back s d back h := (tryHandleData_back h).1
  live s d h := by
    obtain ⟨x, hx, haborted⟩ := h
    by_cases hid : dataInId d = id
    · subst hid
      obtain ⟨y, hy, hsocket, -⟩ := tryHandleData_own hx
      exact ⟨y, hy, by rw [hsocket]; exact haborted⟩
    · exact ⟨x, by rw [tryHandleData_other hid]; exact hx, haborted⟩
  other s d h := by rw [appliedOf, tryHandleData_other h, appliedOf]
  own s d h hid := by
    subst hid
    obtain ⟨x, hx, -⟩ := h
    obtain ⟨y, hy, -, happlied⟩ := tryHandleData_own hx
    simp only [appliedOf, hx, hy]
    exact happlied

/-! ## The backlog as a parking queue -/

def parked (w : NetStack × Backlog) : NetStack × Parking DataIn Nat := (w.1, w.2.parking)

theorem parked_ingest (w : NetStack × Backlog) (d : DataIn) :
    parked (ingest w d) = Parking.offer dataInId tryHandleData (parked w) d := by
  unfold ingest Parking.offer
  by_cases hblocked : dataInId d ∈ w.2.blocked
  · simp [parked, Backlog.holds, Backlog.parking, hblocked, Backlog.push, Parking.push]
  · simp only [parked, Backlog.holds, Backlog.parking, hblocked, decide_false,
      Bool.false_eq_true, if_false]
    cases hplace : w.1.tryHandleData d with
    | mk s back => cases back <;> rfl

theorem parked_foldl_ingest (queue : List DataIn) (w : NetStack × Backlog) :
    parked (queue.foldl ingest w) =
      queue.foldl (Parking.offer dataInId tryHandleData) (parked w) := by
  induction queue generalizing w with
  | nil => rfl
  | cons d rest ih => rw [foldl_cons, foldl_cons, ih, parked_ingest]

theorem parked_drainBacklog (w : NetStack × Backlog) :
    parked (drainBacklog w) = Parking.sweep dataInId tryHandleData (parked w) := by
  rw [drainBacklog, drainNext_eq_ingest, parked_foldl_ingest]
  rfl

theorem total_parked (id : Nat) (w : NetStack × Backlog) :
    Parking.total dataInId dataInTokens id (appliedOf id) (parked w) =
      appliedOf id w.1 ++ laneOf id w.2.queue := rfl

theorem applied_ingest (hexact : w.2.Exact) (hlive : Unaborted id w.1) (d : DataIn) :
    appliedOf id (ingest w d).1 ++ laneOf id (ingest w d).2.queue =
      appliedOf id w.1 ++ laneOf id w.2.queue ++ laneOf id [d] := by
  have htotal := (places_tryHandleData id).total_offer (w := parked w) hexact.blocked hlive d
  rwa [← parked_ingest, total_parked, total_parked] at htotal

theorem applied_drainBacklog (hlive : Unaborted id w.1) :
    appliedOf id (drainBacklog w).1 ++ laneOf id (drainBacklog w).2.queue =
      appliedOf id w.1 ++ laneOf id w.2.queue := by
  obtain ⟨-, htotal⟩ := (places_tryHandleData id).total_sweep (w := parked w) hlive
  rwa [← parked_drainBacklog, total_parked, total_parked] at htotal

/-! ## The count of the backlog -/

/-- Ingesting a message keeps the backlog exact, and adds at most the
message, as long as that fits into a `usize`. -/
theorem exact_ingest (h : w.2.Exact) (hfits : queueBytes w.2.queue + dataInBytes d < usizeLimit) :
    (ingest w d).2.Exact ∧
      queueBytes (ingest w d).2.queue ≤ queueBytes w.2.queue + dataInBytes d := by
  unfold ingest
  split
  · exact ⟨h.push hfits, by simp [Backlog.push]⟩
  · split
    case h_1 s back hplace =>
      have hless : dataInBytes back ≤ dataInBytes d := (tryHandleData_back (by rw [hplace])).2
      exact ⟨h.push (by omega), by simpa [Backlog.push] using hless⟩
    case h_2 => exact ⟨h, Nat.le_add_right _ _⟩

theorem exact_foldl_ingest (queue : List DataIn) (h : w.2.Exact)
    (hfits : queueBytes w.2.queue + queueBytes queue < usizeLimit) :
    (queue.foldl ingest w).2.Exact ∧
      queueBytes (queue.foldl ingest w).2.queue ≤ queueBytes w.2.queue + queueBytes queue := by
  induction queue generalizing w with
  | nil => exact ⟨h, Nat.le_refl _⟩
  | cons d rest ih =>
    rw [queueBytes_cons] at hfits ⊢
    obtain ⟨hexact, hle⟩ := exact_ingest (w := w) h (d := d) (by omega)
    obtain ⟨hexact', hle'⟩ := ih hexact (by omega)
    exact ⟨hexact', by rw [foldl_cons]; omega⟩

theorem exact_drainBacklog (hfits : queueBytes w.2.queue < usizeLimit) :
    (drainBacklog w).2.Exact ∧ queueBytes (drainBacklog w).2.queue ≤ queueBytes w.2.queue := by
  rw [drainBacklog, drainNext_eq_ingest]
  simpa using exact_foldl_ingest w.2.queue (w := (w.1, {})) Backlog.exact_empty (by simpa using hfits)

theorem exact_foldl_resetFlow (h : w.2.Exact) (hfits : queueBytes w.2.queue < usizeLimit) :
    (ids.foldl resetFlow w).2.Exact ∧
      queueBytes (ids.foldl resetFlow w).2.queue ≤ queueBytes w.2.queue := by
  induction ids generalizing w with
  | nil => exact ⟨h, Nat.le_refl _⟩
  | cons id rest ih =>
    have hle : queueBytes (w.2.purge id).queue ≤ queueBytes w.2.queue :=
      queueBytes_filter_le _ _
    obtain ⟨hexact, hle'⟩ := ih (w := resetFlow w id) (h.purge id hfits) (hle.trans_lt hfits)
    exact ⟨hexact, hle'.trans hle⟩

theorem exact_reapWedged (now : Nat) (h : w.2.Exact) (hfits : queueBytes w.2.queue < usizeLimit) :
    (reapWedged now w).2.Exact ∧ queueBytes (reapWedged now w).2.queue ≤ queueBytes w.2.queue := by
  obtain ⟨hexact, hle⟩ : (reapStalled now w).2.Exact ∧
      queueBytes (reapStalled now w).2.queue ≤ queueBytes w.2.queue :=
    exact_foldl_resetFlow _ h hfits
  obtain ⟨hexact', hle'⟩ : (reapWedged now w).2.Exact ∧
      queueBytes (reapWedged now w).2.queue ≤ queueBytes (reapStalled now w).2.queue :=
    exact_foldl_resetFlow _ hexact (hle.trans_lt hfits)
  exact ⟨hexact', hle'.trans hle⟩

/-! ## Whose messages wait -/

def ParkedFor (P : Nat → Prop) (b : Backlog) : Prop := ∀ d ∈ b.queue, P (dataInId d)

theorem parkedFor_ingest (h : ParkedFor P w.2) (hd : P (dataInId d)) :
    ParkedFor P (ingest w d).2 := by
  have hpush (e : DataIn) (he : P (dataInId e)) : ParkedFor P (w.2.push e) := by
    intro d' hd'
    rcases mem_append.mp hd' with hold | hnew
    · exact h d' hold
    · rw [mem_singleton.mp hnew]
      exact he
  unfold ingest
  split
  · exact hpush d hd
  · split
    case h_1 s back hplace =>
      have hid : dataInId back = dataInId d := (tryHandleData_back (by rw [hplace])).1
      exact hpush back (hid ▸ hd)
    case h_2 => exact h

theorem parkedFor_foldl_ingest {queue : List DataIn} (h : ParkedFor P w.2)
    (hqueue : ∀ d ∈ queue, P (dataInId d)) : ParkedFor P (queue.foldl ingest w).2 := by
  induction queue generalizing w with
  | nil => exact h
  | cons d rest ih =>
    exact ih (parkedFor_ingest h (hqueue d (by simp)))
      (fun d' hd' => hqueue d' (mem_cons_of_mem d hd'))

theorem parkedFor_drainBacklog (h : ParkedFor P w.2) : ParkedFor P (drainBacklog w).2 := by
  rw [drainBacklog, drainNext_eq_ingest]
  exact parkedFor_foldl_ingest (w := (w.1, {})) (by simp [ParkedFor]) h

theorem parkedFor_foldl_resetFlow (h : ParkedFor P w.2) :
    ParkedFor P (ids.foldl resetFlow w).2 := by
  induction ids generalizing w with
  | nil => exact h
  | cons id rest ih => exact ih (fun d hd => h d (mem_filter.mp hd).1)

/-! ## Resetting flows -/

theorem resetFlow_unaborted (h : Unaborted other (resetFlow w id).1) :
    (resetFlow w id).1.tcpConns other = w.1.tcpConns other ∧
      laneOf other (resetFlow w id).2.queue = laneOf other w.2.queue := by
  by_cases hid : other = id
  · subst hid
    obtain ⟨y, hy, haborted⟩ := h
    simp only [resetFlow, onTcp] at hy
    split at hy
    · rw [setTcp_tcpConns_self] at hy
      cases hy
      cases haborted
    case h_2 hnone => rw [hnone] at hy; cases hy
  · refine ⟨?_, Backlog.laneOf_purge hid⟩
    simp only [resetFlow, onTcp]
    split
    · exact setTcp_tcpConns_ne hid _ _
    · rfl

theorem foldl_resetFlow_unaborted (h : Unaborted other (ids.foldl resetFlow w).1) :
    (ids.foldl resetFlow w).1.tcpConns other = w.1.tcpConns other ∧
      laneOf other (ids.foldl resetFlow w).2.queue = laneOf other w.2.queue := by
  induction ids generalizing w with
  | nil => exact ⟨rfl, rfl⟩
  | cons id rest ih =>
    obtain ⟨hflow, hlane⟩ := ih h
    have hnow : Unaborted other (resetFlow w id).1 := by
      obtain ⟨y, hy, haborted⟩ := h
      exact ⟨y, by rw [← hflow]; exact hy, haborted⟩
    obtain ⟨hflow', hlane'⟩ := resetFlow_unaborted hnow
    exact ⟨hflow.trans hflow', hlane.trans hlane'⟩

theorem reapWedged_unaborted {now : Nat} (h : Unaborted other (reapWedged now w).1) :
    (reapWedged now w).1.tcpConns other = w.1.tcpConns other ∧
      laneOf other (reapWedged now w).2.queue = laneOf other w.2.queue := by
  obtain ⟨hflow, hlane⟩ := foldl_resetFlow_unaborted _ (w := reapStalled now w) h
  have hfirst : Unaborted other (reapStalled now w).1 := by
    obtain ⟨y, hy, haborted⟩ := h
    exact ⟨y, by rw [← hflow]; exact hy, haborted⟩
  obtain ⟨hflow', hlane'⟩ := foldl_resetFlow_unaborted _ (w := w) hfirst
  exact ⟨hflow.trans hflow', hlane.trans hlane'⟩

end NetStack

end BigRocket.Netstack
