/-
What is still queued when an upstream socket stops taking bytes. A RST of the
client, an eviction and the failure of the session's own write are excused.
-/
import BigRocket.Relay.UploadTheorems

namespace BigRocket.Relay

open Lib List

/-! ## Which sockets stop taking bytes -/

namespace TcpSession

variable (x : TcpSession)

theorem takesBytes_torn (reader writer session : Bool) :
    (x.torn reader writer session).takesBytes = (x.takesBytes && !session) := by
  simp only [torn, takesBytes]
  cases x.socketClosed <;> cases x.outputShutdown <;> cases session <;> rfl

theorem takesBytes_heardFrom (now : Int) (p : ClientPacket) :
    (x.heardFrom now p).takesBytes = x.takesBytes := rfl

theorem takesBytes_enqueue (p : ClientPacket) : (x.enqueue p).takesBytes = x.takesBytes := rfl

theorem takesBytes_finished (p : ClientPacket) : (x.finished p).takesBytes = false := by
  simp only [finished, takesBytes]
  cases x.socketClosed <;> simp

theorem takesBytes_of_life {x y : TcpSession} (hlife : SameLife x y)
    (houtput : y.outputShutdown = x.outputShutdown) : y.takesBytes = x.takesBytes := by
  simp [takesBytes, hlife.socketClosed, houtput]

end TcpSession

def RelayEvent.payload : RelayEvent → List UInt8
  | .packet _ p => p.data
  | _ => []

namespace TcpRelay

variable {r : TcpRelay}

theorem takesBytes_closeSession (key : SessionKey) (j : Nat) :
    ((r.closeSession key).session j).takesBytes =
      ((r.session j).takesBytes && !decide (r.sessions.get key = some j)) := by
  rw [closeSession_eq]
  exact (r.session j).takesBytes_torn _ _ _

variable {i : Nat}

theorem takesBytes_forwardDataToSocket {p : ClientPacket} (hget : r.sessions.get p.key = some i)
    (j : Nat) :
    ((r.forwardDataToSocket p i).session j).takesBytes =
      ((r.session j).takesBytes && !(decide (i = j) && (r.session i).channelFull)) := by
  unfold forwardDataToSocket
  split_ifs with hfull
  · simp [takesBytes_closeSession, hget, hfull]
  · have hset := set_session_proj TcpSession.takesBytes ((r.session i).takesBytes_enqueue p) j
    simpa [hfull] using hset

theorem takesBytes_handleFin (p : ClientPacket) (i j : Nat) :
    ((r.handleFin p i).session j).takesBytes = ((r.session j).takesBytes && !decide (i = j)) := by
  by_cases hj : j = i
  · simp [hj, handleFin, TcpSession.takesBytes_finished]
  · simp [handleFin, set_session, hj, Ne.symm hj]

theorem takesBytes_handleSegment {p : ClientPacket} (now : Int)
    (hget : r.sessions.get p.key = some i) (j : Nat) :
    ((r.handleSegment now p i).session j).takesBytes =
      ((r.session j).takesBytes && !(decide (i = j) && (p.has TcpFlag.fin ||
        decide (0 < p.data.length) && (r.session i).channelFull))) := by
  have hheard := set_session_proj TcpSession.takesBytes
    ((r.session i).takesBytes_heardFrom now p) j
  have hfull : ((r.session i).heardFrom now p).channelFull = (r.session i).channelFull := rfl
  unfold handleSegment
  by_cases hdata : 0 < p.data.length <;> by_cases hfin : p.has TcpFlag.fin = true
  · simp only [hdata, hfin, if_true]
    rw [takesBytes_handleFin, takesBytes_forwardDataToSocket (by exact hget), hheard]
    cases decide (i = j) <;> simp
  · simp only [hdata, hfin, if_true, if_false, Bool.false_eq_true]
    rw [takesBytes_forwardDataToSocket (by exact hget), hheard, set_session_self, hfull]
    simp
  · simp only [hdata, hfin, if_false, if_true]
    rw [takesBytes_handleFin, hheard]
    simp
  · simp only [hdata, hfin, if_false]
    simpa using hheard

theorem takesBytes_coroutineStep {turn : Turn}
    (hturn : turn.session.takesBytes = (r.session i).takesBytes) (j : Nat) :
    ((r.coroutineStep i turn).session j).takesBytes =
      ((r.session j).takesBytes &&
        !(turn.exits && decide (r.sessions.get (r.session i).key = some j))) := by
  have hset := set_session_proj TcpSession.takesBytes hturn j
  unfold coroutineStep
  split_ifs with hexit
  · rw [takesBytes_closeSession, write_session, hset, hexit, Bool.true_and]
    rfl
  · simpa [hexit] using hset

theorem takesBytes_resetIf (notify : Bool) (cond : TcpSession → Bool) (key : SessionKey) (j : Nat) :
    ((r.resetIf notify cond key).session j).takesBytes =
      ((r.session j).takesBytes &&
        !(decide (r.sessions.get key = some j) && cond (r.session j))) := by
  unfold resetIf
  rcases hget : r.sessions.get key with _ | i
  · simp
  · simp only [Option.some.injEq]
    by_cases hj : i = j
    · subst hj
      split_ifs with hcond
      · simp [takesBytes_closeSession, sendRst, hget, hcond]
      · simp [takesBytes_closeSession, hget, hcond]
      · simp [hcond]
    · split_ifs
      · simp [takesBytes_closeSession, sendRst, hget, hj]
      · simp [takesBytes_closeSession, hget, hj]
      · simp [hj]

theorem takesBytes_endAll (closeChannels : Bool) (j : Nat) :
    ((r.endAll closeChannels).session j).takesBytes =
      ((r.session j).takesBytes && !r.sessions.holds j) := by
  simp only [endAll, TcpSession.takesBytes]
  cases (r.session j).socketClosed <;> cases (r.session j).outputShutdown <;>
    cases r.sessions.holds j <;> rfl

/-! ## The steps that shut a socket -/

def Shuts (r : TcpRelay) (j : Nat) : RelayEvent → Prop
  | .packet _ p =>
    p.has TcpFlag.rst = false ∧ r.sessions.get p.key = some j ∧
      (p.has TcpFlag.fin = true ∨ 0 < p.data.length ∧ (r.session j).channelFull = true)
  | .opener o .synAckFails => OpenerPhase.holds j (r.opener o).phase = true
  | .opener _ _ => False
  | .reader i e =>
    ((r.session i).listenForTcpResponses e).exits = true ∧
      r.sessions.get (r.session i).key = some j
  | .writer i e =>
    ((r.session i).runSocketWriter e).exits = true ∧
      r.sessions.get (r.session i).key = some j ∧ ¬ (e = .fails ∧ i = j)
  | .reap now key =>
    r.reaperRuns = true ∧ r.sessions.get key = some j ∧
      ((r.session j).socketClosed || now - (r.session j).lastActivityMs ≥ tcpIdleTimeoutMs) = true
  | .networkLost deadNetwork key =>
    r.sessions.get key = some j ∧ (r.session j).network = deadNetwork
  | .setTunOutputStream _ => False
  | .setUpstreamMode mode => r.upstreamMode ≠ mode ∧ r.sessions.holds j = true
  | .clear => r.sessions.holds j = true

def Excused (j : Nat) : RelayEvent → Prop
  | .packet _ p => p.has TcpFlag.rst = true
  | .opener _ (.evicts _) => True
  | .writer i .fails => i = j
  | _ => False

theorem takesBytes_openerStep (hc : Settled r) {j : Nat}
    (hj : (r.session j).takesBytes = true) (o : Nat) {e : OpenerEvent}
    (hevicts : ∀ victim, e ≠ .evicts victim) :
    ((r.openerStep o e).session j).takesBytes = false ↔ Shuts r j (.opener o e) := by
  cases e with
  | evicts victim => exact absurd rfl (hevicts victim)
  | connects now serverIsn =>
    simp only [Shuts, iff_false, Bool.not_eq_false]
    by_cases hphase : (r.opener o).phase = .connecting
    · have hne : j ≠ r.created := by
        rintro rfl
        simp [TcpSession.takesBytes, (hc.fresh r.created le_rfl).1] at hj
      rw [connects_session hphase, if_neg hne]
      exact hj
    · simpa [openerStep, hphase] using hj
  | connectFails =>
    simp only [Shuts, iff_false, Bool.not_eq_false, openerStep]
    split_ifs <;> exact hj
  | launches =>
    simp only [Shuts, iff_false, Bool.not_eq_false, openerStep]
    split
    · next i isn hphase =>
        have hset := set_session_proj (r := r) (i := i) TcpSession.takesBytes
          (y := { r.session i with reader := .launched, writer := .launched }) rfl j
        exact hset.trans hj
    · exact hj
  | synAckFails =>
    simp only [Shuts, openerStep]
    split
    · next i isn hphase =>
        simp only [openFailed, TcpRelay.setPhase, TcpRelay.write, set_session, hphase,
          OpenerPhase.holds, decide_eq_true_eq]
        split_ifs with hji
        · simp [TcpSession.takesBytes, hji]
        · simp [hj, Ne.symm hji]
    · next hphase =>
        simp only [hj, Bool.true_eq_false, false_iff]
        intro hholds
        rcases hp : (r.opener o).phase with _ | _ | ⟨i, isn⟩ | _ <;> rw [hp] at hholds
        · cases hholds
        · cases hholds
        · exact hphase i isn hp
        · cases hholds

theorem shuts_iff (hc : Settled r) {j : Nat}
    (hj : (r.session j).takesBytes = true) (e : RelayEvent) :
    ((r.step e).session j).takesBytes = false ∧ ¬ Excused j e ↔ Shuts r j e := by
  cases e with
  | packet now p =>
    simp only [Excused, Shuts, step, Bool.not_eq_true]
    by_cases hrst : p.has TcpFlag.rst = true
    · simp [hrst]
    · simp only [hrst, forwardTcpPacket, Bool.false_eq_true, if_false]
      rcases hget : r.sessions.get p.key with _ | i
      · simp only [reduceCtorEq, false_and, and_false, iff_false]
        intro hshut
        obtain ⟨hafter, -⟩ := hshut
        split_ifs at hafter <;> simp_all [openSession]
      · simp only [takesBytes_handleSegment now hget, hj, Bool.true_and, Option.some.injEq]
        by_cases hij : i = j
        · subst hij
          cases p.has TcpFlag.fin <;> simp
        · simp [hij]
  | opener o e =>
    by_cases hevicts : ∃ victim, e = .evicts victim
    · obtain ⟨victim, rfl⟩ := hevicts
      simp [Excused, Shuts]
    · have hnot : ∀ victim, e ≠ .evicts victim := fun victim h => hevicts ⟨victim, h⟩
      have hexcuse : ¬ Excused j (.opener o e) := by
        cases e <;> simp_all [Excused]
      rw [← takesBytes_openerStep hc hj o hnot]
      simp only [hexcuse, not_false_iff, and_true, step]
  | reader i e =>
    have hturn := (r.session i).listenForTcpResponses_spec e
    simp only [step, takesBytes_coroutineStep (TcpSession.takesBytes_of_life hturn.life hturn.output)]
    simp [Excused, Shuts, hj]
  | writer i e =>
    have hturn := (r.session i).runSocketWriter_spec e
    simp only [step, takesBytes_coroutineStep (TcpSession.takesBytes_of_life hturn.life hturn.output)]
    cases e <;> simp [Excused, Shuts, hj, and_assoc]
  | reap now key =>
    have hopen : (r.session j).socketClosed = false := by
      simp only [TcpSession.takesBytes, Bool.and_eq_true, Bool.not_eq_true'] at hj
      exact hj.1
    by_cases hruns : r.reaperRuns = true
    · simp [step, reap, hruns, takesBytes_resetIf, Excused, Shuts, hj, hopen]
    · simp [step, reap, hruns, Excused, Shuts, hj]
  | networkLost deadNetwork key =>
    simp [step, handleNetworkLost, takesBytes_resetIf, Excused, Shuts, hj]
  | setTunOutputStream present => simp [step, Excused, Shuts, hj]
  | setUpstreamMode mode =>
    by_cases hmode : r.upstreamMode = mode
    · simp [step, setUpstreamMode, hmode, Excused, Shuts, hj]
    · simp [step, setUpstreamMode, hmode, takesBytes_endAll, Excused, Shuts, hj]
  | clear => simp [step, clear, takesBytes_endAll, Excused, Shuts, hj]

/-! ## A close never overtakes queued upload data -/

/-- Whenever a step, not excused, ends the upload of a session, every chunk
the session accepted has been written. -/
def ShutAfterUpload (r : TcpRelay) (e : RelayEvent) : Prop :=
  ∀ j, (r.session j).takesBytes = true → ((r.step e).session j).takesBytes = false →
    ¬ Excused j e → ((r.step e).session j).written = ((r.step e).session j).accepted

/-- A step that ends an upload finds the channel empty and no chunk in the
writer's hands, and brings no payload itself. -/
def NothingOnTheWay (r : TcpRelay) (e : RelayEvent) : Prop :=
  ∀ j, (r.session j).takesBytes = true → Shuts r j e →
    (r.session j).unwritten = [] ∧ e.payload = []

theorem unwritten_ne_nil_of_full (hc : Settled r) {key : SessionKey} {j : Nat}
    (hget : r.sessions.get key = some j) (hfull : (r.session j).channelFull = true) :
    (r.session j).unwritten ≠ [] := by
  have hopen := ((hc.session key j hget).2.2 trivial).2.1
  simp only [TcpSession.channelFull, hopen, Bool.false_or, decide_eq_true_eq] at hfull
  intro hnil
  simp only [TcpSession.unwritten, map_eq_nil_iff, append_eq_nil_iff] at hnil
  simp [hnil.2, tcpWriteQueueCapacity] at hfull

theorem unwritten_of_shuts (hc : Settled r) {j : Nat}
    (hj : (r.session j).takesBytes = true) {e : RelayEvent} (hshuts : Shuts r j e) :
    ((r.step e).session j).unwritten = [] ↔ (r.session j).unwritten = [] ∧ e.payload = [] := by
  have hheld : ∀ x : TcpSession, x.unwritten = x.upload.held := fun _ => rfl
  have hsame : ((r.step e).session j).upload = (r.session j).upload → e.payload = [] →
      (((r.step e).session j).unwritten = [] ↔
        (r.session j).unwritten = [] ∧ e.payload = []) := by
    intro hupload hpayload
    rw [hheld, hheld, hupload, hpayload]
    simp
  cases e with
  | packet now p =>
    obtain ⟨hrst, hget, -⟩ := hshuts
    have hstep : r.step (.packet now p) = r.handleSegment now p j := by
      simp [step, forwardTcpPacket, hrst, hget]
    by_cases hdata : p.data = []
    · refine hsame ?_ hdata
      rw [hstep, upload_handleSegment, if_neg (by simp [hdata])]
    · -- the payload is queued now, or the channel was full of others
      have hpayload : RelayEvent.payload (.packet now p) ≠ [] := hdata
      simp only [hpayload, and_false, iff_false]
      rw [hheld, hstep, upload_handleSegment]
      split_ifs with haccept
      · simp [Fifo.accept]
      · have hfull : (r.session j).channelFull = true := by
          simpa [length_pos_iff.mpr hdata] using haccept
        exact unwritten_ne_nil_of_full hc hget hfull
  | opener o e =>
    refine hsame ?_ rfl
    rcases upload_openerStep hc o j e with hupload | ⟨rfl, -⟩
    · exact hupload
    · simp [TcpSession.takesBytes, (hc.fresh r.created le_rfl).1] at hj
  | reader i e =>
    exact hsame (upload_coroutineStep i j _ ((r.session i).upload_listenForTcpResponses e)) rfl
  | writer i e =>
    refine hsame ?_ rfl
    rcases (r.session i).upload_runSocketWriter e with hupload | ⟨hexit, -⟩
    · exact upload_coroutineStep i j _ hupload
    · exact absurd hshuts.1 (by simp [hexit])
  | reap now key => exact hsame (upload_reap now key j) rfl
  | networkLost deadNetwork key => exact hsame (upload_resetIf _ _ key j) rfl
  | setTunOutputStream present => exact hsame rfl rfl
  | setUpstreamMode mode => exact hsame (upload_setUpstreamMode mode j) rfl
  | clear => exact hsame (upload_endAll true j) rfl

theorem shutAfterUpload_iff (hc : Settled r)
    (hordered : ∀ j, (r.session j).upload.Ordered) (e : RelayEvent) :
    ShutAfterUpload r e ↔ NothingOnTheWay r e := by
  have hwritten : ∀ j, ((r.step e).session j).written = ((r.step e).session j).accepted ↔
      ((r.step e).session j).unwritten = [] :=
    fun j => (step_upload_ordered hc hordered e j).passed_eq_iff
  constructor
  · intro h j hj hshuts
    obtain ⟨hafter, hexcuse⟩ := (shuts_iff hc hj e).mpr hshuts
    exact (unwritten_of_shuts hc hj hshuts).mp ((hwritten j).mp (h j hj hafter hexcuse))
  · intro h j hj hafter hexcuse
    have hshuts := (shuts_iff hc hj e).mp ⟨hafter, hexcuse⟩
    exact (hwritten j).mpr ((unwritten_of_shuts hc hj hshuts).mpr (h j hj hshuts))

/-- **A close overtakes no queued upload data, exactly when every close finds
nothing on the way**: the channel empty, the writer idle and no payload. -/
theorem close_after_upload_iff_nothingOnTheWay (events : List RelayEvent) :
    AlongRun (fun before e => ShutAfterUpload (run before) e) events ↔
      AlongRun (fun before e => NothingOnTheWay (run before) e) events := by
  simp only [fun before e =>
    shutAfterUpload_iff (run_consistent before) (run_upload_ordered before) e]

def queuedThenFin : List RelayEvent := establish 0 0 0 ++ [.packet 10 sampleData]

def sampleFin : ClientPacket :=
  ⟨sampleKey, TcpFlag.fin ||| TcpFlag.ack, 1004, 8, 65535, [], 0⟩

theorem fin_overtakes_queued_data :
    ((run queuedThenFin).session 0).accepted = [[0x47, 0x45, 0x54]] ∧
      (((run queuedThenFin).step (.packet 11 sampleFin)).session 0).outputShutdown = true ∧
      (((run queuedThenFin).step (.packet 11 sampleFin)).session 0).written = [] ∧
      ¬ ShutAfterUpload (run queuedThenFin) (.packet 11 sampleFin) := by
  refine ⟨by decide +kernel, by decide +kernel, by decide +kernel, ?_⟩
  intro h
  have hwritten := h 0 (by decide +kernel) (by decide +kernel) (by simp [Excused]; decide +kernel)
  exact absurd hwritten (by decide +kernel)

end TcpRelay

end BigRocket.Relay
