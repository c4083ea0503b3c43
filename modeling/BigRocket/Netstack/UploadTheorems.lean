/-
The upload path of the netstack over whole runs: from the data channel through
the backlog into a flow's `pending` and on into its socket.
-/
import BigRocket.Netstack.BacklogTheorems

namespace BigRocket.Netstack

open Lib Net Relation List

/-! ## Every run -/

namespace StackLoop

open NetStack

/-- The upload path in order: the backlog counts right, no message is for a
flow to come, and no message of a flow is lost, repeated or overtaken. -/
structure InOrder (l : StackLoop) : Prop where
  exact : l.backlog.Exact
  bound : queueBytes l.backlog.queue < maxBacklogBytes + 2 ^ 63
  parked : ParkedFor (· < l.stack.nextId) l.backlog
  waiting : ∀ d ∈ l.waiting, dataInId d < l.stack.nextId
  dataIn : ∀ d ∈ l.dataIn, dataInId d < l.stack.nextId
  sent : ∀ d ∈ l.sent, dataInId d < l.stack.nextId
  conserved : ∀ id, Unaborted id l.stack →
    appliedOf id l.stack ++ laneOf id l.backlog.queue ++ laneOf id l.dataIn = laneOf id l.sent

variable (tuning : Tuning) (limits : TcpLimits)

theorem inOrder_create :
    InOrder (create tuning limits) where
  exact := Backlog.exact_empty
  bound := by simp [create, maxBacklogBytes]
  parked := by intro d hd; cases hd
  waiting := by intro d hd; cases hd
  dataIn := by intro d hd; cases hd
  sent := by intro d hd; cases hd
  conserved id h := by
    obtain ⟨x, hx, -⟩ := h
    cases hx

variable {l : StackLoop}

theorem InOrder.quiet (h : l.InOrder) {s : NetStack} (hnext : l.stack.nextId ≤ s.nextId)
    (hflows : ∀ id, Unaborted id s →
      (Unaborted id l.stack ∧ appliedOf id s = appliedOf id l.stack) ∨
        (l.stack.nextId ≤ id ∧ appliedOf id s = [])) :
    InOrder { l with stack := s } where
  exact := h.exact
  bound := h.bound
  parked d hd := (h.parked d hd).trans_le hnext
  waiting d hd := (h.waiting d hd).trans_le hnext
  dataIn d hd := (h.dataIn d hd).trans_le hnext
  sent d hd := (h.sent d hd).trans_le hnext
  conserved id hlive := by
    rcases hflows id hlive with ⟨hold, happlied⟩ | ⟨hnew, happlied⟩
    · rw [happlied]
      exact h.conserved id hold
    · -- no message can be for a flow that was not there yet
      have hnil (queue : List DataIn) (hall : ∀ d ∈ queue, dataInId d < l.stack.nextId) :
          laneOf id queue = [] :=
        Parking.lane_eq_nil fun d hd heq => absurd (hall d hd) (by omega)
      rw [happlied, hnil _ h.parked, hnil _ h.dataIn, hnil _ h.sent]
      rfl

theorem InOrder.onTcp (h : l.InOrder) (id : Nat) {f : TcpState → TcpState}
    (happlied : ∀ x, (f x).applied = x.applied)
    (haborted : ∀ x, x.socket.aborted = true → (f x).socket.aborted = true) :
    InOrder { l with stack := l.stack.onTcp id f } := by
  unfold NetStack.onTcp
  split
  case h_1 x hx =>
    refine h.quiet le_rfl fun other hlive => .inl ?_
    obtain ⟨y, hy, hy'⟩ := hlive
    by_cases hid : other = id
    · subst hid
      rw [setTcp_tcpConns_self] at hy
      cases hy
      have hx' : x.socket.aborted = false := by
        by_contra htrue
        rw [haborted x (by simpa using htrue)] at hy'
        cases hy'
      exact ⟨⟨x, hx, hx'⟩, by simp [appliedOf, hx, happlied]⟩
    · rw [setTcp_tcpConns_ne hid] at hy
      exact ⟨⟨y, hy, hy'⟩, by simp [appliedOf, setTcp_tcpConns_ne hid]⟩
  case h_2 => exact h

theorem InOrder.openTcp (h : l.InOrder) (now : Nat) (dst : SocketAddr) (carrier : Bool)
    (refusal : Option String) :
    InOrder { l with stack := (l.stack.openTcp now dst carrier refusal).1 } := by
  have hnext := nextId_le_openTcp now dst carrier refusal l.stack
  refine h.quiet hnext fun id hlive => ?_
  obtain ⟨y, hy, hy'⟩ := hlive
  rcases tcpConns_openTcp hy with hold | ⟨-, hid, rfl⟩
  · exact .inl ⟨⟨y, hold, hy'⟩, by simp [appliedOf, hy, hold]⟩
  · exact .inr ⟨hid.ge, by simp [appliedOf, hy, TcpState.opened]⟩

theorem InOrder.openUdp (h : l.InOrder) (refusal : Option String) :
    InOrder { l with stack := (l.stack.openUdp refusal).1 } := by
  have hnext := nextId_le_openUdp refusal l.stack
  refine h.quiet hnext fun id hlive => .inl ?_
  simpa only [Unaborted, appliedOf, openUdp_tcpConns, and_true] using hlive

theorem InOrder.serviceTcp (h : l.InOrder) (now : Nat) (rate : Nat → Nat) :
    InOrder { l with stack := l.stack.serviceTcp now rate } := by
  refine h.quiet le_rfl fun id hlive => .inl ?_
  obtain ⟨y, hy, hy'⟩ := hlive
  obtain ⟨x, hx, hservice⟩ := tcpConns_serviceTcp hy
  have hmoves : PassMoves x y := TcpState.service_kept hservice
  have hx' : x.socket.aborted = false := by
    by_contra htrue
    rw [hmoves.keeps (fun _ _ => TcpState.aborted_of_passMove) (by simpa using htrue)] at hy'
    cases hy'
  refine ⟨⟨x, hx, hx'⟩, ?_⟩
  simp [appliedOf, hx, hy, (TcpState.sameFlow_of_passMoves hmoves).applied]

theorem InOrder.accept (h : l.InOrder) {d : DataIn} (hd : dataInId d < l.stack.nextId) :
    InOrder { l with dataIn := l.dataIn ++ [d], sent := l.sent ++ [d] } where
  exact := h.exact
  bound := h.bound
  parked := h.parked
  waiting := h.waiting
  dataIn d' hd' := by
    rcases mem_append.mp hd' with hold | hnew
    · exact h.dataIn d' hold
    · rw [mem_singleton.mp hnew]; exact hd
  sent d' hd' := by
    rcases mem_append.mp hd' with hold | hnew
    · exact h.sent d' hold
    · rw [mem_singleton.mp hnew]; exact hd
  conserved id hlive := by
    have hold := h.conserved id hlive
    rw [laneOf_append, laneOf_append, ← hold]
    simp only [append_assoc]

theorem InOrder.withWaiting (h : l.InOrder) {waiting : List DataIn}
    (hw : ∀ d ∈ waiting, dataInId d < l.stack.nextId) : InOrder { l with waiting } where
  exact := h.exact
  bound := h.bound
  parked := h.parked
  waiting := hw
  dataIn := h.dataIn
  sent := h.sent
  conserved := h.conserved

theorem InOrder.send (h : l.InOrder) (d : DataIn) : (l.send d).InOrder := by
  unfold StackLoop.send
  split
  case isTrue hsend => exact h.accept hsend.1
  case isFalse => exact h

theorem InOrder.enqueue (h : l.InOrder) (index : Nat) : (l.enqueue index).InOrder := by
  unfold StackLoop.enqueue
  split
  case h_1 d hd =>
    split
    · have hd' : dataInId d < l.stack.nextId := h.waiting d (mem_of_getElem? hd)
      have hrest : ∀ d ∈ l.waiting.eraseIdx index, dataInId d < l.stack.nextId :=
        fun d hd => h.waiting d (mem_of_mem_eraseIdx hd)
      exact (h.accept hd').withWaiting hrest
    · exact h
  case h_2 => exact h

theorem InOrder.reserve (h : l.InOrder) (id : Nat) (data : Chunk) (expired : Bool) :
    (l.reserve id data expired).InOrder := by
  unfold StackLoop.reserve
  split
  case isTrue hid =>
    have hwait : ∀ d ∈ l.waiting ++ [.tcp id data], dataInId d < l.stack.nextId := by
      intro d hd
      rcases mem_append.mp hd with hold | hnew
      · exact h.waiting d hold
      · rw [mem_singleton.mp hnew]; exact hid
    split
    case h_1 x hx =>
      split
      · have hstack := h.onTcp id (f := fun x => { x with credit := x.credit.reserve data.length })
          (fun _ => rfl) (fun _ hx => hx)
        rw [NetStack.onTcp, hx] at hstack
        exact hstack.withWaiting hwait
      · exact h
    case h_2 => exact h.withWaiting hwait
  case isFalse => exact h

theorem unaborted_before {s t : NetStack} (hmoves : Moves s t) {id : Nat}
    (h : Unaborted id t) : Unaborted id s := by
  obtain ⟨y, hy, hy'⟩ := h
  obtain ⟨x, hx, hxy⟩ := hmoves.before hy
  refine ⟨x, hx, ?_⟩
  by_contra htrue
  rw [hxy.keeps (fun _ _ => TcpState.aborted_of_flowMove) (by simpa using htrue)] at hy'
  cases hy'

theorem InOrder.withBacklog {f : NetStack × Backlog → NetStack × Backlog}
    (hmoves : Moves l.stack (f (l.stack, l.backlog)).1)
    (hexact : (f (l.stack, l.backlog)).2.Exact)
    (hbound : queueBytes (f (l.stack, l.backlog)).2.queue < maxBacklogBytes + 2 ^ 63)
    (hparked : ParkedFor (· < l.stack.nextId) (f (l.stack, l.backlog)).2)
    (hwaiting : ∀ d ∈ l.waiting, dataInId d < l.stack.nextId)
    (hdataIn : ∀ d ∈ l.dataIn, dataInId d < l.stack.nextId)
    (hsent : ∀ d ∈ l.sent, dataInId d < l.stack.nextId)
    (hconserved : ∀ id, Unaborted id (f (l.stack, l.backlog)).1 → Unaborted id l.stack →
      appliedOf id (f (l.stack, l.backlog)).1 ++ laneOf id (f (l.stack, l.backlog)).2.queue ++
        laneOf id l.dataIn = laneOf id l.sent) : (l.withBacklog f).InOrder := by
  have hnext : (f (l.stack, l.backlog)).1.nextId = l.stack.nextId := hmoves.nextId
  refine ⟨hexact, hbound, ?_, ?_, ?_, ?_, fun id hlive =>
    hconserved id hlive (unaborted_before hmoves hlive)⟩ <;> simp only [StackLoop.withBacklog, hnext]
  · exact hparked
  · exact hwaiting
  · exact hdataIn
  · exact hsent

theorem InOrder.ingest (h : l.InOrder) (hroom : l.backlog.bytes < maxBacklogBytes) {d : DataIn}
    {rest : List DataIn} (hdata : l.dataIn = d :: rest) :
    ({ l with dataIn := rest }.withBacklog (NetStack.ingest · d)).InOrder := by
  have hd : dataInId d < l.stack.nextId := h.dataIn d (by simp [hdata])
  have hlight := dataInBytes_lt d
  have hbytes : queueBytes l.backlog.queue < maxBacklogBytes := by rw [← h.exact.bytes]; exact hroom
  obtain ⟨hexact, hle⟩ := exact_ingest (w := (l.stack, l.backlog)) h.exact (d := d)
    (by simp only [usizeLimit, maxBacklogBytes] at *; omega)
  refine .withBacklog (.ingest (l.stack, l.backlog) d) hexact
    (hle.trans_lt (by simp only [maxBacklogBytes] at *; omega)) (parkedFor_ingest h.parked hd)
    h.waiting (fun d' hd' => h.dataIn d' (by rw [hdata]; exact mem_cons_of_mem d hd')) h.sent
    fun id _ hbefore => ?_
  have htotal := applied_ingest (w := (l.stack, l.backlog)) h.exact hbefore d
  have hold := h.conserved id hbefore
  rw [hdata, laneOf_cons, ← append_assoc, ← htotal] at hold
  exact hold

theorem InOrder.drainAppData (h : l.InOrder) (budget : Nat) : (l.drainAppData budget).InOrder := by
  induction budget generalizing l with
  | zero => exact h
  | succ budget ih =>
    unfold StackLoop.drainAppData
    split
    case isTrue hroom =>
      split
      case h_1 => exact h
      case h_2 d rest hdata => exact ih (h.ingest hroom hdata)
    case isFalse => exact h

theorem InOrder.drainBacklog (h : l.InOrder) :
    (l.withBacklog NetStack.drainBacklog).InOrder := by
  have hbound := h.bound
  obtain ⟨hexact, hle⟩ := exact_drainBacklog (w := (l.stack, l.backlog))
    (by simp only [usizeLimit, maxBacklogBytes] at *; omega)
  refine .withBacklog (.drainBacklog (l.stack, l.backlog)) hexact (hle.trans_lt hbound)
    (parkedFor_drainBacklog h.parked) h.waiting h.dataIn h.sent fun id _ hbefore => ?_
  have hold := h.conserved id hbefore
  rw [← applied_drainBacklog (w := (l.stack, l.backlog)) hbefore] at hold
  exact hold

theorem InOrder.reapWedged (h : l.InOrder) (now : Nat) :
    (l.withBacklog (NetStack.reapWedged now)).InOrder := by
  have hbound := h.bound
  obtain ⟨hexact, hle⟩ := exact_reapWedged now (w := (l.stack, l.backlog)) h.exact
    (by simp only [usizeLimit, maxBacklogBytes] at *; omega)
  refine .withBacklog (.reapWedged now (l.stack, l.backlog)) hexact (hle.trans_lt hbound)
    (parkedFor_foldl_resetFlow _ (parkedFor_foldl_resetFlow _ h.parked)) h.waiting h.dataIn h.sent
    fun id hlive hbefore => ?_
  obtain ⟨hflow, hlane⟩ := reapWedged_unaborted hlive
  simpa only [appliedOf, hflow, hlane] using h.conserved id hbefore

theorem InOrder.step (h : l.InOrder) (e : StackEvent) : (l.step e).InOrder := by
  cases e with
  | openTcp now dst carrier refusal => exact h.openTcp now dst carrier refusal
  | openUdp refusal => exact h.openUdp refusal
  | callerGone id =>
    refine h.onTcp id (fun x => ?_) (fun x => TcpState.aborted_of_flowMove (.callerGone x))
    unfold TcpState.callerGone
    split <;> rfl
  | reserve id data expired => exact h.reserve id data expired
  | enqueue index => exact h.enqueue index
  | sendClose id => exact h.send _
  | sendUdp id dst data => exact h.send _
  | sendUdpClose id => exact h.send _
  | appReads id =>
    refine h.onTcp id (fun x => ?_) (fun x => TcpState.aborted_of_flowMove (.appReads x))
    unfold TcpState.appReads
    split <;> rfl
  | appGone id =>
    refine h.onTcp id (fun x => ?_) (fun x => TcpState.aborted_of_flowMove (.appGone x))
    unfold TcpState.appGone
    split <;> rfl
  | udpAppGone id => exact h.quiet le_rfl fun id hlive => .inl ⟨hlive, rfl⟩
  | poll id segment =>
    exact h.onTcp id (fun x => rfl) (fun x => TcpState.aborted_of_flowMove (.poll x segment))
  | serviceTcp now rate => exact h.serviceTcp now rate
  | serviceUdp => exact h.quiet le_rfl fun id hlive => .inl ⟨hlive, rfl⟩
  | drainBacklog => exact h.drainBacklog
  | drainAppData budget => exact h.drainAppData budget
  | reapWedged now => exact h.reapWedged now

theorem run_inOrder (events : List StackEvent) : (run tuning limits events).InOrder := by
  induction events using List.reverseRecOn with
  | nil => exact inOrder_create tuning limits
  | append_singleton events e ih =>
    rw [run, exec_concat]
    exact ih.step e

theorem run_accounted (events : List StackEvent) :
    LiveFlows TcpState.Accounted (run tuning limits events).stack :=
  run_live TcpState.accounted_kept
    (fun _ _ _ _ _ _ hservice hx =>
      (TcpState.service_kept hservice).keeps (fun _ _ => TcpState.accounted_passMove) hx)
    tuning limits events

theorem close_applied {id : Nat} {queue : List DataIn} {front back : List Token}
    (hlane : laneOf id queue = front ++ back) (hclose : Token.close ∈ front) :
    ∃ before after, queue = before ++ .tcpClose id :: after ∧ laneOf id before <+: front := by
  induction queue generalizing front with
  | nil =>
    have hnil : front = [] := (append_eq_nil_iff.mp hlane.symm).1
    simp [hnil] at hclose
  | cons d rest ih =>
    by_cases hd : d = .tcpClose id
    · exact ⟨[], rest, by rw [hd]; rfl, nil_prefix⟩
    · -- any other message carries no close, so the one applied comes later
      have hnot : Token.close ∉ laneOf id [d] := by
        by_cases hid : dataInId d = id
        · subst hid
          rw [laneOf, Parking.lane_singleton_self]
          cases d with
          | tcp id data => exact TcpState.byte_ne_close _
          | tcpClose id => exact absurd rfl hd
          | udp id dst data => simp [dataInTokens]
          | udpClose id => simp [dataInTokens]
        · rw [laneOf, Parking.lane_singleton_ne hid]
          exact not_mem_nil
      rw [laneOf_cons] at hlane
      rcases append_eq_append_iff.mp hlane with ⟨front', rfl, hrest⟩ | ⟨back', hfirst, -⟩
      · have hclose' : Token.close ∈ front' := by
          rcases mem_append.mp hclose with h | h
          · exact absurd h hnot
          · exact h
        obtain ⟨before, after, rfl, hbefore⟩ := ih hrest hclose'
        refine ⟨d :: before, after, rfl, ?_⟩
        rw [laneOf_cons]
        exact (prefix_append_right_inj _).mpr hbefore
      · rw [hfirst] at hnot
        exact absurd (mem_append_left _ hclose) hnot

/-- **The upload path loses and reorders nothing**, and a flow is half closed only
after all its data had reached `pending`. -/
theorem upload_conserved (tuning : Tuning) (limits : TcpLimits) (events : List StackEvent) :
    (∀ id x, (run tuning limits events).stack.tcpConns id = some x → x.socket.aborted = false →
      x.socket.given ++ x.pending ++ bytesOf id (run tuning limits events).backlog.queue ++
          bytesOf id (run tuning limits events).dataIn =
        bytesOf id (run tuning limits events).sent ∧
      (x.halfClosed = true → ∃ before after,
        (run tuning limits events).sent = before ++ .tcpClose id :: after ∧
          bytesOf id before <+: x.socket.given ++ x.pending)) ∧
    (run tuning limits events).backlog.blocked =
      ((run tuning limits events).backlog.queue.map dataInId).toFinset ∧
    (run tuning limits events).backlog.bytes =
      queueBytes (run tuning limits events).backlog.queue := by
  have hinOrder := run_inOrder tuning limits events
  refine ⟨?_, hinOrder.exact.blocked, hinOrder.exact.bytes⟩
  intro id x hx haborted
  have haccounted := run_accounted tuning limits events id x hx
  have hmoved := haccounted.moved haborted
  have htokens := hinOrder.conserved id ⟨x, hx, haborted⟩
  simp only [appliedOf, hx] at htokens
  constructor
  · have hbytes := congrArg tokenBytes htokens
    rw [tokenBytes_append, tokenBytes_append, ← hmoved] at hbytes
    exact hbytes
  · intro hhalf
    rw [append_assoc] at htokens
    obtain ⟨before, after, hsent, hbefore⟩ :=
      close_applied htokens.symm (haccounted.halfClosed.mp hhalf)
    refine ⟨before, after, hsent, ?_⟩
    rw [hmoved]
    exact hbefore.filterMap _

def sampleUpload : List StackEvent :=
  [.openTcp 0 sampleRemote false none, .poll 1 .synAck, .serviceTcp 1 (fun _ => 0),
    .reserve 1 ⟨[71, 69], by decide⟩ false, .enqueue 0, .drainAppData 1,
    .serviceTcp 2 (fun _ => 0),
    .reserve 1 ⟨[84], by decide⟩ false, .enqueue 0, .drainAppData 1,
    .reserve 1 ⟨[32], by decide⟩ false, .enqueue 0, .sendClose 1]

theorem upload_conserved_sample :
    ∃ x, (run .low sampleLimits sampleUpload).stack.tcpConns 1 = some x ∧
      x.socket.given = [71, 69] ∧ x.pending = [84] ∧
      x.socket.given ++ x.pending ++ bytesOf 1 (run .low sampleLimits sampleUpload).backlog.queue ++
        bytesOf 1 (run .low sampleLimits sampleUpload).dataIn =
          bytesOf 1 (run .low sampleLimits sampleUpload).sent := by
  have hflow : ((run .low sampleLimits sampleUpload).stack.tcpConns 1).any (fun x =>
      x.socket.aborted = false ∧ x.socket.given = [71, 69] ∧ x.pending = [84]) = true := by
    decide +kernel
  obtain ⟨x, hx, hfacts⟩ := (Option.any_eq_true _ _).mp hflow
  obtain ⟨haborted, hgiven, hpending⟩ := of_decide_eq_true hfacts
  exact ⟨x, hx, hgiven, hpending, ((upload_conserved _ _ _).1 1 x hx haborted).1⟩

/-! ## A message at the head of the channel -/

theorem drainAppData_suffix (budget : Nat) (l : StackLoop) :
    (l.drainAppData budget).dataIn <:+ l.dataIn := by
  induction budget generalizing l with
  | zero => exact suffix_refl _
  | succ budget ih =>
    unfold drainAppData
    split
    · split
      · exact suffix_refl _
      · next d rest hdata =>
          rw [hdata]
          exact (ih _).trans (suffix_cons d rest)
    · exact suffix_refl _

theorem applied_prefix_of_flowMove {x y : TcpState} (h : FlowMove x y) :
    x.applied <+: y.applied := by
  cases h with
  | extend data => exact prefix_append _ _
  | closeByApp => exact prefix_append _ _
  | callerGone => unfold TcpState.callerGone; split <;> exact prefix_refl _
  | appReads => unfold TcpState.appReads; split <;> exact prefix_refl _
  | appGone => unfold TcpState.appGone; split <;> exact prefix_refl _
  | _ => exact prefix_refl _

/-- What the pass made of the message at the head of the channel: it was taken
out, and its flow has as much of it as there was room for. -/
def Ingested (id : Nat) (data : Chunk) (x : TcpState) (rest : List DataIn) (l after : StackLoop) :
    Prop :=
  after.dataIn <:+ rest ∧ ∃ y, after.stack.tcpConns id = some y ∧
    x.applied ++
      (data.bytes.take (maxTcpPending l.stack.tuning - x.pending.length)).map .byte <+: y.applied

variable {id : Nat} {data : Chunk} {x : TcpState} {rest : List DataIn}

theorem ingest_room {b : Backlog} {s : NetStack} (hflow : s.tcpConns id = some x)
    (hfree : b.holds id = false) (hroom : x.pending.length < maxTcpPending s.tuning) :
    (NetStack.ingest (s, b) (.tcp id data)).1 = s.setTcp id
      (x.extend (data.bytes.take (maxTcpPending s.tuning - x.pending.length))) := by
  simp only [NetStack.ingest, dataInId, hfree, tryHandleData, hflow, if_neg (not_le.mpr hroom)]
  by_cases hfits : data.length ≤ maxTcpPending s.tuning - x.pending.length
  · simp [if_pos hfits, take_of_length_le (show data.bytes.length ≤ _ from hfits)]
  · simp [if_neg hfits]

/-- **One stuck flow does not stop the others** exactly while the backlog is below
`MAX_BACKLOG_BYTES`. -/
theorem ingested_iff_belowBound {budget : Nat} (hbudget : 0 < budget)
    (hhead : l.dataIn = .tcp id data :: rest) (hflow : l.stack.tcpConns id = some x)
    (hfree : l.backlog.holds id = false) (hroom : x.pending.length < maxTcpPending l.stack.tuning) :
    Ingested id data x rest l (l.drainAppData budget) ↔ l.backlog.bytes < maxBacklogBytes := by
  obtain ⟨budget, rfl⟩ := Nat.exists_eq_succ_of_ne_zero hbudget.ne'
  constructor
  · rintro ⟨hsuffix, -⟩
    by_contra hfull
    rw [drainAppData, if_neg hfull, hhead] at hsuffix
    have hlength := hsuffix.length_le
    simp at hlength
  · intro hbelow
    rw [drainAppData, if_pos hbelow, hhead]
    refine ⟨drainAppData_suffix _ _, ?_⟩
    have hstack := @ingest_room _ data _ _ _ hflow hfree hroom
    have hmoved := (moves_drainAppData budget
      (withBacklog (NetStack.ingest · (.tcp id data)) { l with dataIn := rest })).flows id
    simp only [withBacklog, hstack, setTcp_tcpConns_self] at hmoved ⊢
    generalize (drainAppData budget _).stack.tcpConns id = after at hmoved ⊢
    cases hmoved with
    | some hmoves =>
      refine ⟨_, rfl, ?_⟩
      exact FlowMoves.keeps (Q := fun y => _ <+: y.applied)
        (fun _ _ hmove hx => hx.trans (applied_prefix_of_flowMove hmove)) hmoves
        (prefix_refl _)

def oneMessage (backlog : Backlog) : StackLoop where
  stack := NetStack.setTcp 2
    (.opened .low sampleLimits 0 49153 sampleRemote 1 false)
    { tuning := .low, limits := sampleLimits }
  backlog
  dataIn := [.tcp 2 ⟨[71], by decide⟩]

theorem ingested_emptyBacklog :
    Ingested 2 ⟨[71], by decide⟩ (.opened .low sampleLimits 0 49153 sampleRemote 1 false) []
      (oneMessage {}) ((oneMessage {}).drainAppData 1) :=
  (ingested_iff_belowBound (by decide) rfl (setTcp_tcpConns_self ..) rfl (by decide)).mpr
    (by decide)

theorem drainAppData_full (h : maxBacklogBytes ≤ l.backlog.bytes) (budget : Nat) :
    l.drainAppData budget = l := by
  cases budget with
  | zero => rfl
  | succ budget => exact if_neg h.not_gt

theorem boundStops_otherFlow :
    let parked : Chunk := ⟨List.replicate maxBacklogBytes 0, by
      rw [length_replicate]; decide⟩
    let l := oneMessage ⟨[.tcp 1 parked], {1}, maxBacklogBytes⟩
    l.backlog.Exact ∧ l.backlog.holds 2 = false ∧ ∀ budget, l.drainAppData budget = l := by
  intro parked l
  -- kept folded, since the kernel would count the half megabyte out
  have hexact (d : DataIn) : Backlog.Exact ⟨[d], {dataInId d}, dataInBytes d⟩ := ⟨rfl, by simp⟩
  have hbytes : dataInBytes (.tcp 1 parked) = maxBacklogBytes := length_replicate
  have hparked := hexact (.tcp 1 parked)
  rw [hbytes] at hparked
  exact ⟨hparked, by simp [l, oneMessage, Backlog.holds], drainAppData_full le_rfl⟩

end StackLoop

end BigRocket.Netstack
