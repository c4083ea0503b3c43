/-
What a step of the netstack can do to its flows, said once.
-/
import BigRocket.Lib.Table
import BigRocket.Netstack.NetStack

namespace BigRocket.Netstack

open Lib Net Relation

/-! ## The moves of a flow -/

inductive FlowMove : TcpState → TcpState → Prop
  | extend (x : TcpState) (data : List UInt8) : FlowMove x (x.extend data)
  | closeByApp (x : TcpState) : FlowMove x x.closeByApp
  | callerGone (x : TcpState) : FlowMove x x.callerGone
  | reserve (x : TcpState) (len : Nat) : FlowMove x { x with credit := x.credit.reserve len }
  | appReads (x : TcpState) : FlowMove x x.appReads
  | appGone (x : TcpState) : FlowMove x x.appGone
  | poll (x : TcpState) (segment : Segment) : FlowMove x (x.poll segment)
  | resetDead (x : TcpState) : FlowMove x x.resetDead

abbrev FlowMoves : TcpState → TcpState → Prop := ReflTransGen FlowMove

theorem FlowMoves.keeps {Q : TcpState → Prop} (hQ : ∀ x y, FlowMove x y → Q x → Q y)
    {x y : TcpState} (h : FlowMoves x y) (hx : Q x) : Q y := by
  induction h with
  | refl => exact hx
  | tail _ hmove ih => exact hQ _ _ hmove ih

def UdpState.Same (x y : UdpState) : Prop :=
  y.localPort = x.localPort ∧ y.allocation = x.allocation

/-- Each UDP socket of the later state was there before, with its port. -/
abbrev NetStack.UdpKept (s t : NetStack) : Prop :=
  EntriesKept UdpState.Same s.udpConns t.udpConns

structure NetStack.Moves (s t : NetStack) : Prop where
  flows : ∀ id, Option.Rel FlowMoves (s.tcpConns id) (t.tcpConns id)
  udp : UdpKept s t
  ended : t.ended = s.ended
  tuning : t.tuning = s.tuning
  limits : t.limits = s.limits
  nextId : t.nextId = s.nextId
  nextPort : t.nextPort = s.nextPort
  allocations : t.allocations = s.allocations

namespace NetStack

variable {s t u : NetStack}

theorem udpKept_of_eq (h : t.udpConns = s.udpConns) : UdpKept s t :=
  .of_eq (fun _ => ⟨rfl, rfl⟩) h

theorem udpKept_trans (hst : UdpKept s t) (htu : UdpKept t u) : UdpKept s u :=
  hst.trans (fun _ _ _ hxy hyz => ⟨hyz.1.trans hxy.1, hyz.2.trans hxy.2⟩) htu

theorem Moves.setUdp (conns : Nat → Option UdpState)
    (hudp : UdpKept s { s with udpConns := conns }) : Moves s { s with udpConns := conns } where
  flows id := by
    cases h : s.tcpConns id with
    | none => exact .none
    | some x => exact .some .refl
  udp := hudp
  ended := rfl
  tuning := rfl
  limits := rfl
  nextId := rfl
  nextPort := rfl
  allocations := rfl

theorem Moves.refl (s : NetStack) : Moves s s :=
  .setUdp s.udpConns (udpKept_of_eq rfl)

theorem Moves.trans (hst : Moves s t) (htu : Moves t u) : Moves s u where
  flows id := by
    have h1 := hst.flows id
    have h2 := htu.flows id
    cases hs : s.tcpConns id with
    | none =>
      rw [hs] at h1
      generalize t.tcpConns id = y at h1 h2
      cases h1
      exact h2
    | some x =>
      rw [hs] at h1
      generalize t.tcpConns id = y at h1 h2
      cases h1 with
      | some hxy =>
        generalize u.tcpConns id = z at h2
        cases h2 with
        | some hyz => exact .some (hxy.trans hyz)
  udp := udpKept_trans hst.udp htu.udp
  ended := htu.ended.trans hst.ended
  tuning := htu.tuning.trans hst.tuning
  limits := htu.limits.trans hst.limits
  nextId := htu.nextId.trans hst.nextId
  nextPort := htu.nextPort.trans hst.nextPort
  allocations := htu.allocations.trans hst.allocations

variable (w : NetStack × Backlog) {id : Nat}

theorem Moves.before (h : Moves s t) {y : TcpState} (hy : t.tcpConns id = some y) :
    ∃ x, s.tcpConns id = some x ∧ FlowMoves x y := by
  have hrel := h.flows id
  rw [hy] at hrel
  cases hx : s.tcpConns id with
  | none => rw [hx] at hrel; cases hrel
  | some x =>
    rw [hx] at hrel
    cases hrel with
    | some hmoves => exact ⟨x, rfl, hmoves⟩

@[simp] theorem setTcp_tcpConns_self (id : Nat) (x : TcpState) (s : NetStack) :
    (s.setTcp id x).tcpConns id = some x := by
  simp [setTcp]

theorem setTcp_tcpConns_ne {other : Nat} (h : other ≠ id) (x : TcpState) (s : NetStack) :
    (s.setTcp id x).tcpConns other = s.tcpConns other := by
  simp [setTcp, h]

theorem Moves.setTcp {x y : TcpState} (hx : s.tcpConns id = some x) (hmove : FlowMove x y) :
    Moves s (s.setTcp id y) where
  flows other := by
    by_cases hid : other = id
    · subst hid
      rw [hx, setTcp_tcpConns_self]
      exact .some (.single hmove)
    · rw [setTcp_tcpConns_ne hid]
      exact (Moves.refl s).flows other
  udp := udpKept_of_eq rfl
  ended := rfl
  tuning := rfl
  limits := rfl
  nextId := rfl
  nextPort := rfl
  allocations := rfl

theorem Moves.onTcp (id : Nat) {f : TcpState → TcpState} (hf : ∀ x, FlowMove x (f x))
    (s : NetStack) : Moves s (s.onTcp id f) := by
  unfold NetStack.onTcp
  split
  case h_1 x hx => exact .setTcp hx (hf x)
  case h_2 => exact .refl s

theorem Moves.tryHandleData (s : NetStack) (d : DataIn) : Moves s (s.tryHandleData d).1 := by
  cases d with
  | tcp id data =>
    simp only [NetStack.tryHandleData]
    split
    case h_1 => exact .refl s
    case h_2 x hx =>
      split
      · exact .refl s
      · split
        · exact .setTcp hx (.extend x _)
        · exact .setTcp hx (.extend x _)
  | tcpClose id => exact .onTcp id .closeByApp s
  | udp id dst data => exact .refl s
  | udpClose id =>
    refine .setUdp _ fun other y hy => ⟨y, ?_, rfl, rfl⟩
    by_cases hid : other = id
    · simp [hid] at hy
    · simpa [hid] using hy

theorem Moves.ingest (d : DataIn) : Moves w.1 (ingest w d).1 := by
  have hmoves := Moves.tryHandleData w.1 d
  unfold NetStack.ingest
  split
  · exact .refl w.1
  · split
    case h_1 heq => rwa [heq] at hmoves
    case h_2 heq => rwa [heq] at hmoves

theorem Moves.foldl {α : Type} {f : NetStack × Backlog → α → NetStack × Backlog}
    (hf : ∀ w a, Moves w.1 (f w a).1) (list : List α) (w : NetStack × Backlog) :
    Moves w.1 (list.foldl f w).1 := by
  induction list generalizing w with
  | nil => exact .refl w.1
  | cons a rest ih => exact (hf w a).trans (ih (f w a))

theorem tryHandleData_back {s : NetStack} {d back : DataIn}
    (hback : (s.tryHandleData d).2 = some back) :
    dataInId back = dataInId d ∧ dataInBytes back ≤ dataInBytes d := by
  cases d with
  | tcp id data =>
    simp only [NetStack.tryHandleData] at hback
    split at hback
    · cases hback
    · split at hback
      · cases hback
        exact ⟨rfl, le_rfl⟩
      · split at hback
        · cases hback
        · cases hback
          refine ⟨rfl, ?_⟩
          simp [dataInBytes, Chunk.length]
  | tcpClose id => cases hback
  | udp id dst data => cases hback
  | udpClose id => cases hback

theorem drainNext_eq_ingest : drainNext = ingest := by
  funext w d
  unfold drainNext ingest
  by_cases hblocked : dataInId d ∈ w.2.blocked
  · simp [Backlog.holds, Backlog.push, hblocked]
  · simp only [hblocked, Backlog.holds, if_false, decide_false, Bool.false_eq_true]
    cases hplace : w.1.tryHandleData d with
    | mk s back =>
      cases back with
      | none => rfl
      | some back =>
        have hid : dataInId back = dataInId d := (tryHandleData_back (by rw [hplace])).1
        simp [Backlog.push, hid]

theorem Moves.drainBacklog : Moves w.1 (drainBacklog w).1 := by
  rw [NetStack.drainBacklog, drainNext_eq_ingest]
  exact Moves.foldl Moves.ingest w.2.queue (w.1, {})

theorem Moves.resetFlow (id : Nat) : Moves w.1 (resetFlow w id).1 :=
  .onTcp id .resetDead w.1

theorem Moves.reapWedged (now : Nat) (w : NetStack × Backlog) : Moves w.1 (reapWedged now w).1 :=
  (Moves.foldl Moves.resetFlow _ w).trans (Moves.foldl Moves.resetFlow _ _)

end NetStack

/-! ## The steps -/

namespace StackLoop

open NetStack

theorem moves_send (d : DataIn) (l : StackLoop) : Moves l.stack (l.send d).stack := by
  unfold send
  split <;> exact .refl l.stack

theorem moves_reserve (id : Nat) (data : Chunk) (expired : Bool) (l : StackLoop) :
    Moves l.stack (l.reserve id data expired).stack := by
  unfold reserve
  split
  · split
    case h_1 x hx =>
      split
      · exact .setTcp hx (.reserve x data.length)
      · exact .refl l.stack
    case h_2 => exact .refl l.stack
  · exact .refl l.stack

theorem moves_enqueue (index : Nat) (l : StackLoop) : Moves l.stack (l.enqueue index).stack := by
  unfold enqueue
  split
  · split <;> exact .refl l.stack
  · exact .refl l.stack

theorem moves_drainAppData (budget : Nat) (l : StackLoop) :
    Moves l.stack (l.drainAppData budget).stack := by
  induction budget generalizing l with
  | zero => exact .refl l.stack
  | succ budget ih =>
    unfold drainAppData
    split
    · split
      case h_1 => exact .refl l.stack
      case h_2 d rest _ =>
        have hfirst : Moves l.stack
            ({ l with dataIn := rest }.withBacklog (NetStack.ingest · d)).stack :=
          Moves.ingest (l.stack, l.backlog) d
        exact hfirst.trans (ih _)
    · exact .refl l.stack

theorem udpKept_appGone (id : Nat) (s : NetStack) :
    UdpKept s
      { s with
        udpConns := fun i =>
          if i = id then (s.udpConns i).map ({ · with appGone := true }) else s.udpConns i } := by
  intro other y hy
  dsimp only at hy
  split at hy
  · obtain ⟨x, hx, rfl⟩ := Option.map_eq_some_iff.mp hy
    exact ⟨x, hx, rfl, rfl⟩
  · exact ⟨y, hy, rfl, rfl⟩

theorem udpKept_serviceUdp (s : NetStack) : UdpKept s s.serviceUdp := by
  intro id y hy
  exact ⟨y, (Option.filter_eq_some_iff.mp hy).1, rfl, rfl⟩

theorem step_stack (l : StackLoop) (e : StackEvent) :
    match e with
    | .openTcp now dst carrier refusal =>
      (l.step e).stack = (l.stack.openTcp now dst carrier refusal).1
    | .openUdp refusal => (l.step e).stack = (l.stack.openUdp refusal).1
    | .serviceTcp now rate => (l.step e).stack = l.stack.serviceTcp now rate
    | _ => Moves l.stack (l.step e).stack := by
  cases e with
  | openTcp now dst carrier refusal => rfl
  | openUdp refusal => rfl
  | serviceTcp now rate => rfl
  | callerGone id => exact .onTcp id .callerGone l.stack
  | reserve id data expired => exact moves_reserve id data expired l
  | enqueue index => exact moves_enqueue index l
  | sendClose id => exact moves_send _ l
  | sendUdp id dst data => exact moves_send _ l
  | sendUdpClose id => exact moves_send _ l
  | appReads id => exact .onTcp id .appReads l.stack
  | appGone id => exact .onTcp id .appGone l.stack
  | udpAppGone id => exact .setUdp _ (udpKept_appGone id l.stack)
  | poll id segment => exact .onTcp id (.poll · segment) l.stack
  | serviceUdp => exact .setUdp _ (udpKept_serviceUdp l.stack)
  | drainBacklog => exact Moves.drainBacklog (l.stack, l.backlog)
  | drainAppData budget => exact moves_drainAppData budget l
  | reapWedged now => exact Moves.reapWedged now (l.stack, l.backlog)

/-! ## Invariants of the flows -/

structure FlowKept (Q : TcpState → Prop) : Prop where
  opened : ∀ tuning limits now port dst allocation carrier,
    Q (.opened tuning limits now port dst allocation carrier)
  move : ∀ x y, FlowMove x y → Q x → Q y

def LiveFlows (Q : TcpState → Prop) (s : NetStack) : Prop :=
  ∀ id x, s.tcpConns id = some x → Q x

def EndedFlows (R : TcpState → Prop) (s : NetStack) : Prop :=
  ∀ id x, s.ended id = some x → R x

variable {Q R : TcpState → Prop} {l : StackLoop} {e : StackEvent}

theorem LiveFlows.moves {s t : NetStack} (hQ : FlowKept Q) (h : LiveFlows Q s)
    (hmoves : Moves s t) : LiveFlows Q t := by
  intro id y hy
  obtain ⟨x, hx, hxy⟩ := hmoves.before hy
  exact FlowMoves.keeps hQ.move hxy (h id x hx)

theorem tcpConns_openTcp {s : NetStack} {now : Nat} {dst : SocketAddr} {carrier : Bool}
    {refusal : Option String} {id : Nat} {x : TcpState}
    (h : (s.openTcp now dst carrier refusal).1.tcpConns id = some x) :
    s.tcpConns id = some x ∨
      (refusal = none ∧ id = s.nextId ∧
        x = .opened s.tuning s.limits now s.nextPort dst s.allocations carrier) := by
  unfold NetStack.openTcp at h
  split at h
  · exact .inl h
  · by_cases hid : id = s.nextId
    · subst hid
      simp only [setTcp_tcpConns_self, Option.some.injEq] at h
      exact .inr ⟨rfl, rfl, h.symm⟩
    · rw [setTcp_tcpConns_ne hid] at h
      exact .inl h

theorem LiveFlows.openTcp {s : NetStack} (hQ : FlowKept Q) (h : LiveFlows Q s) (now : Nat)
    (dst : SocketAddr) (carrier : Bool) (refusal : Option String) :
    LiveFlows Q (s.openTcp now dst carrier refusal).1 := by
  intro id x hx
  rcases tcpConns_openTcp hx with hold | ⟨-, -, rfl⟩
  · exact h id x hold
  · exact hQ.opened ..

theorem nextId_le_openTcp (now : Nat) (dst : SocketAddr) (carrier : Bool)
    (refusal : Option String) (s : NetStack) :
    s.nextId ≤ (s.openTcp now dst carrier refusal).1.nextId := by
  unfold NetStack.openTcp
  split
  · exact le_rfl
  · exact Nat.le_succ _

theorem nextId_le_openUdp (refusal : Option String) (s : NetStack) :
    s.nextId ≤ (s.openUdp refusal).1.nextId := by
  unfold NetStack.openUdp
  split
  · exact le_rfl
  · exact Nat.le_succ _

theorem openUdp_tcpConns (refusal : Option String) (s : NetStack) :
    (s.openUdp refusal).1.tcpConns = s.tcpConns := by
  unfold NetStack.openUdp
  split <;> rfl

theorem tcpConns_serviceTcp {s : NetStack} {now : Nat} {rate : Nat → Nat} {id : Nat}
    {y : TcpState} (h : (s.serviceTcp now rate).tcpConns id = some y) :
    ∃ x, s.tcpConns id = some x ∧ s.serviced now (rate id) x = (y, false) := by
  simp only [NetStack.serviceTcp] at h
  split at h
  case h_1 x hx =>
    split at h
    · cases h
    case isFalse hkept =>
      cases h
      exact ⟨x, hx, Prod.ext rfl (Bool.eq_false_of_not_eq_true hkept)⟩
  case h_2 => cases h

theorem ended_serviceTcp {s : NetStack} {now : Nat} {rate : Nat → Nat} {id : Nat}
    {y : TcpState} (h : (s.serviceTcp now rate).ended id = some y) :
    s.ended id = some y ∨
      ∃ x, s.tcpConns id = some x ∧ s.serviced now (rate id) x = (y, true) := by
  simp only [NetStack.serviceTcp] at h
  split at h
  case h_1 x hx =>
    split at h
    case isTrue hremoved =>
      cases h
      exact .inr ⟨x, hx, Prod.ext rfl hremoved⟩
    · exact .inl h
  case h_2 => exact .inl h

theorem LiveFlows.step (hQ : FlowKept Q) (h : LiveFlows Q l.stack)
    (hservice : ∀ now rate, e = .serviceTcp now rate → ∀ id x y,
      l.stack.tcpConns id = some x → l.stack.serviced now (rate id) x = (y, false) → Q y) :
    LiveFlows Q (l.step e).stack := by
  have hstack := step_stack l e
  cases e with
  | openTcp now dst carrier refusal =>
    exact h.openTcp hQ now dst carrier refusal
  | openUdp refusal =>
    intro id x hx
    rw [hstack, openUdp_tcpConns] at hx
    exact h id x hx
  | serviceTcp now rate =>
    intro id y hy
    obtain ⟨x, hx, hy⟩ := tcpConns_serviceTcp hy
    exact hservice now rate rfl id x y hx hy
  | _ => exact h.moves hQ hstack

theorem EndedFlows.step (h : EndedFlows R l.stack)
    (hservice : ∀ now rate, e = .serviceTcp now rate → ∀ id x y,
      l.stack.tcpConns id = some x → l.stack.serviced now (rate id) x = (y, true) → R y) :
    EndedFlows R (l.step e).stack := by
  have hstack := step_stack l e
  intro id y hy
  cases e with
  | openTcp now dst carrier refusal =>
    rw [hstack] at hy
    apply h id y
    unfold NetStack.openTcp at hy
    split at hy <;> exact hy
  | openUdp refusal =>
    rw [hstack] at hy
    apply h id y
    unfold NetStack.openUdp at hy
    split at hy <;> exact hy
  | serviceTcp now rate =>
    rcases ended_serviceTcp hy with hold | ⟨x, hx, hy⟩
    · exact h id y hold
    · exact hservice now rate rfl id x y hx hy
  | _ =>
    rw [hstack.ended] at hy
    exact h id y hy

theorem run_live (hQ : FlowKept Q)
    (hservice : ∀ tuning limits now rate x y,
      x.service tuning limits now rate = (y, false) → Q x → Q y)
    (tuning : Tuning) (limits : TcpLimits) (events : List StackEvent) :
    LiveFlows Q (run tuning limits events).stack := by
  induction events using List.reverseRecOn with
  | nil => intro id x hx; cases hx
  | append_singleton events e ih =>
    rw [run, exec_concat]
    refine LiveFlows.step hQ ih ?_
    intro now rate _ id x y hx hy
    exact hservice _ _ now (rate id) x y hy (ih id x hx)

def IdsGiven (s : NetStack) : Prop :=
  0 < s.nextId ∧ ∀ id x, s.tcpConns id = some x → 0 < id ∧ id < s.nextId

theorem IdsGiven.step (h : IdsGiven l.stack) (e : StackEvent) : IdsGiven (l.step e).stack := by
  obtain ⟨hpos, hlive⟩ := h
  have hstack := step_stack l e
  cases e with
  | openTcp now dst carrier refusal =>
    have hnext := nextId_le_openTcp now dst carrier refusal l.stack
    refine ⟨hpos.trans_le hnext, fun id x hx => ?_⟩
    rcases tcpConns_openTcp hx with hold | ⟨rfl, rfl, -⟩
    · exact ⟨(hlive id x hold).1, (hlive id x hold).2.trans_le hnext⟩
    · exact ⟨hpos, Nat.lt_succ_self _⟩
  | openUdp refusal =>
    rw [hstack]
    have hnext := nextId_le_openUdp refusal l.stack
    refine ⟨hpos.trans_le hnext, fun id x hx => ?_⟩
    rw [openUdp_tcpConns] at hx
    exact ⟨(hlive id x hx).1, (hlive id x hx).2.trans_le hnext⟩
  | serviceTcp now rate =>
    refine ⟨hpos, fun id y hy => ?_⟩
    obtain ⟨x, hx, -⟩ := tcpConns_serviceTcp hy
    exact hlive id x hx
  | _ =>
    refine ⟨hstack.nextId ▸ hpos, fun id y hy => ?_⟩
    obtain ⟨x, hx, -⟩ := hstack.before hy
    exact hstack.nextId ▸ hlive id x hx

theorem run_idsGiven (tuning : Tuning) (limits : TcpLimits) (events : List StackEvent) :
    IdsGiven (run tuning limits events).stack := by
  induction events using List.reverseRecOn with
  | nil => exact ⟨Nat.one_pos, fun id x hx => by cases hx⟩
  | append_singleton events e ih =>
    rw [run, exec_concat]
    exact IdsGiven.step ih e

/-! ## One flow followed through a run -/

def sampleRemote : SocketAddr := ⟨.ofOctets 203 0 113 7, 443⟩

def sampleLimits : TcpLimits := ⟨seconds 30, orphanLinger⟩

structure HasFlow (tuning : Tuning) (limits : TcpLimits) (id : Nat) (x : TcpState)
    (l : StackLoop) : Prop where
  flow : l.stack.tcpConns id = some x
  tuning : l.stack.tuning = tuning
  limits : l.stack.limits = limits

variable {tuning : Tuning} {limits : TcpLimits} {id : Nat} {x y : TcpState}

theorem HasFlow.poll (h : HasFlow tuning limits id x l) (segment : Segment) :
    HasFlow tuning limits id (x.poll segment) (l.step (.poll id segment)) where
  flow := by simp [StackLoop.step, withStack, onTcp, h.flow]
  tuning := by simpa [StackLoop.step, withStack, onTcp, h.flow, setTcp] using h.tuning
  limits := by simpa [StackLoop.step, withStack, onTcp, h.flow, setTcp] using h.limits

theorem HasFlow.service (h : HasFlow tuning limits id x l) (now : Nat) (rate : Nat → Nat)
    (hservice : x.service tuning limits now (rate id) = (y, false)) :
    HasFlow tuning limits id y (l.step (.serviceTcp now rate)) where
  flow := by
    simp [StackLoop.step, withStack, NetStack.serviceTcp, serviced, h.flow, h.tuning, h.limits,
      hservice]
  tuning := h.tuning
  limits := h.limits

structure Idle (l : StackLoop) : Prop where
  dataIn : l.dataIn = []
  waiting : l.waiting = []
  backlog : l.backlog = {}

theorem exec_chunk (hflow : l.stack.tcpConns id = some x) (hid : id < l.stack.nextId)
    (hidle : Idle l) (hplace : 0 < l.stack.tuning.channelCapacity) (data : Chunk) (expired : Bool)
    (hadmits : x.credit.admits data.length expired = true)
    (hroom : x.pending.length < maxTcpPending l.stack.tuning)
    (hfits : x.pending.length + data.length ≤ maxTcpPending l.stack.tuning) :
    exec StackLoop.step l [.reserve id data expired, .enqueue 0, .drainAppData 1] =
      { l with
        stack := l.stack.setTcp id
          (TcpState.extend data.bytes { x with credit := x.credit.reserve data.length })
        sent := l.sent ++ [.tcp id data] } := by
  have hreserve : l.step (.reserve id data expired) =
      { l with
        stack := l.stack.setTcp id { x with credit := x.credit.reserve data.length }
        waiting := [.tcp id data] } := by
    simp [StackLoop.step, StackLoop.reserve, hid, hflow, hadmits, hidle.waiting]
  have htake : data.length ≤ maxTcpPending l.stack.tuning - x.pending.length := by omega
  simp only [exec, List.foldl_cons, List.foldl_nil]
  rw [hreserve]
  simp [StackLoop.step, StackLoop.enqueue, hasPlace, setTcp, hplace, hidle.dataIn, hidle.backlog,
    drainAppData, maxBacklogBytes, withBacklog, NetStack.ingest, Backlog.holds, tryHandleData,
    Nat.not_le.mpr hroom, htake, hidle.waiting]

theorem HasFlow.removed (h : HasFlow tuning limits id x l) (now : Nat) (rate : Nat → Nat)
    (hservice : x.service tuning limits now (rate id) = (y, true)) :
    (l.step (.serviceTcp now rate)).stack.ended id = some y := by
  simp [StackLoop.step, withStack, NetStack.serviceTcp, serviced, h.flow, h.tuning, h.limits,
    hservice]

end StackLoop

end BigRocket.Netstack
