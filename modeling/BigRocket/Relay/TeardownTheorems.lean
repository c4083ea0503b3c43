/-
Which ends of a session its client hears of, by a RST or a FIN.
-/
import BigRocket.Relay.SessionTheorems

namespace BigRocket.Relay

open Lib List

def TunPacket.ends (p : TunPacket) : Bool := p.flags &&& (TcpFlag.fin ||| TcpFlag.rst) != 0

theorem TunPacket.told_end {p : TunPacket} (flags : Nat) (hflags : p.flags = flags)
    (h : (flags &&& (TcpFlag.fin ||| TcpFlag.rst) != 0) = true) :
    ([p].filter TunPacket.ends).map TunPacket.key = [p.key] := by
  have hends : p.ends = true := by rw [ends, hflags, h]
  rw [filter_cons_of_pos hends, filter_nil, map_singleton]

theorem TunPacket.told_none {p : TunPacket} (flags : Nat) (hflags : p.flags = flags)
    (h : (flags &&& (TcpFlag.fin ||| TcpFlag.rst) != 0) = false) :
    ([p].filter TunPacket.ends).map TunPacket.key = [] := by
  have hends : ¬ p.ends = true := by rw [ends, hflags, h]; exact Bool.false_ne_true
  rw [filter_cons_of_neg hends, filter_nil, map_nil]

namespace TcpSession

/-- The reader goes to its `finally` for another reason than the end of the data.
-/
def readerGivesUp (x : TcpSession) : ReaderEvent → Bool
  | .starts => x.reader = .launched && !x.readerCancelled && x.socketClosed
  | .sends _ =>
    match x.reader with
    | .sending _ waitedMs =>
      x.clientAckedSeq + x.clientWindow - x.serverSeq ≤ 0 && windowWaitMaxMs ≤ waitedMs
    | _ => false
  | .fails =>
    match x.reader with
    | .reading | .sending _ _ => true
    | _ => false
  | .reads _ | .endOfStream => false

def writerGivesUp (x : TcpSession) : WriterEvent → Bool
  | .starts => x.writer = .launched && !x.writerCancelled && !x.takesBytes
  | .fails =>
    match x.writer with
    | .writing _ => true
    | _ => false
  | .ends => x.writer = .idle && (x.writerCancelled || x.channelClosed && x.writeChannel = [])
  | .takes | .writes _ => false

def sendsFin (x : TcpSession) : ReaderEvent → Bool
  | .endOfStream => x.reader = .reading && !x.socketClosed
  | _ => false

def told (turn : Turn) : List SessionKey := (turn.packets.filter TunPacket.ends).map TunPacket.key

variable (x : TcpSession)

theorem writeChunkedRespectingWindow_ending (now : Int) (block : List UInt8) (waitedMs : Nat) :
    (x.writeChunkedRespectingWindow now block waitedMs).exits =
        (decide (x.clientAckedSeq + x.clientWindow - x.serverSeq ≤ 0) &&
          decide (windowWaitMaxMs ≤ waitedMs)) ∧
      told (x.writeChunkedRespectingWindow now block waitedMs) = [] := by
  unfold writeChunkedRespectingWindow
  dsimp only
  split_ifs with hclosed hwaited
  · exact ⟨by rw [decide_eq_true hclosed, decide_eq_true hwaited]; rfl, rfl⟩
  · exact ⟨by rw [decide_eq_true hclosed, decide_eq_false hwaited]; rfl, rfl⟩
  · exact ⟨by rw [decide_eq_false hclosed]; rfl,
      TunPacket.told_none (TcpFlag.psh ||| TcpFlag.ack) rfl (by decide)⟩
  · exact ⟨by rw [decide_eq_false hclosed]; rfl,
      TunPacket.told_none (TcpFlag.psh ||| TcpFlag.ack) rfl (by decide)⟩

/-- A reader that ends gives up, or it sends the FIN, which is the only packet
of a reader that tells of an end. -/
theorem listenForTcpResponses_ending (e : ReaderEvent) :
    (x.listenForTcpResponses e).exits = (x.readerGivesUp e || x.sendsFin e) ∧
      told (x.listenForTcpResponses e) = if x.sendsFin e then [x.key] else [] := by
  cases e with
  | starts =>
    simp only [listenForTcpResponses, readerGivesUp, sendsFin]
    split_ifs <;> simp_all [told]
  | reads block =>
    simp only [listenForTcpResponses, readerGivesUp, sendsFin]
    split_ifs <;> simp_all [told]
  | sends now =>
    cases hreader : x.reader with
    | sending block waitedMs =>
      have hchunk := x.writeChunkedRespectingWindow_ending now block waitedMs
      simpa only [listenForTcpResponses, readerGivesUp, sendsFin, hreader, Bool.or_false,
        Bool.false_eq_true, if_false] using hchunk
    | _ => simp [listenForTcpResponses, readerGivesUp, sendsFin, told, hreader]
  | endOfStream =>
    by_cases hends : x.reader = .reading ∧ !x.socketClosed
    · have hfin : x.sendsFin .endOfStream = true := by simpa [sendsFin] using hends
      rw [listenForTcpResponses, if_pos hends, hfin, if_pos rfl]
      exact ⟨rfl, TunPacket.told_end (TcpFlag.fin ||| TcpFlag.ack) rfl (by decide)⟩
    · have hfin : x.sendsFin .endOfStream = false := by simpa [sendsFin] using hends
      rw [listenForTcpResponses, if_neg hends, hfin]
      exact ⟨rfl, rfl⟩
  | fails =>
    cases hreader : x.reader <;>
      simp [listenForTcpResponses, readerGivesUp, sendsFin, told, hreader]

/-- A writer that ends gives up, and it writes acknowledgements only. -/
theorem runSocketWriter_ending (e : WriterEvent) :
    (x.runSocketWriter e).exits = x.writerGivesUp e ∧ told (x.runSocketWriter e) = [] := by
  cases e with
  | starts =>
    simp only [runSocketWriter, writerGivesUp]
    split_ifs <;> simp_all [told]
  | takes =>
    simp only [runSocketWriter, writerGivesUp]
    split <;> exact ⟨rfl, rfl⟩
  | writes now =>
    simp only [runSocketWriter, writerGivesUp]
    split
    · split_ifs
      · exact ⟨rfl, TunPacket.told_none TcpFlag.ack rfl (by decide)⟩
      · exact ⟨rfl, rfl⟩
    · exact ⟨rfl, rfl⟩
  | fails =>
    cases hwriter : x.writer <;> simp [runSocketWriter, writerGivesUp, told, hwriter]
  | ends =>
    simp only [runSocketWriter, writerGivesUp]
    split_ifs <;> simp_all [told]

end TcpSession

namespace TcpRelay

variable {r : TcpRelay} {key : SessionKey}

/-! ## What is written and what is removed -/

def toldBetween (r r' : TcpRelay) : List SessionKey :=
  ((r'.tun.drop r.tun.length).filter TunPacket.ends).map TunPacket.key

def Established (r : TcpRelay) (key : SessionKey) (i : Nat) : Prop :=
  r.sessions.get key = some i ∧ (r.session i).unlaunched = false

def Requested (key : SessionKey) : RelayEvent → Prop
  | .packet _ p => p.has TcpFlag.rst = true ∧ p.key = key
  | .clear => True
  | _ => False

/-- The step takes away what is stored at the key and writes no FIN or RST. -/
def Silences (r : TcpRelay) (key : SessionKey) : RelayEvent → Prop
  | .packet _ p =>
    p.key = key ∧ p.has TcpFlag.rst = false ∧ 0 < p.data.length ∧
      (r.sessions.get key).any (fun i => (r.session i).channelFull) = true
  | .opener o (.connects _ _) => (r.opener o).phase = .connecting ∧ (r.opener o).key = key
  | .reader i e => (r.session i).key = key ∧ (r.session i).readerGivesUp e = true
  | .writer i e => (r.session i).key = key ∧ (r.session i).writerGivesUp e = true
  | .setUpstreamMode mode => r.upstreamMode ≠ mode
  | _ => False

instance (r : TcpRelay) (key : SessionKey) : DecidablePred (Silences r key) := fun e => by
  rcases e with _ | ⟨_, _ | _⟩ | _ | _ | _ | _ | _ | _ | _ <;> simp only [Silences] <;> infer_instance

/-- After the step the map is `stored`, and it wrote FIN and RST packets for
the flows `told`. -/
structure Effect (r : TcpRelay) (stored : SessionMap) (told : List SessionKey) (r' : TcpRelay) :
    Prop where
  sessions : r'.sessions = stored
  tun : ∃ packets, r'.tun = r.tun ++ packets ∧
    (packets.filter TunPacket.ends).map TunPacket.key = told

namespace Effect

variable {r r' r'' : TcpRelay} {stored stored' : SessionMap} {told told' : List SessionKey}

theorem toldBetween_eq (h : Effect r stored told r') : toldBetween r r' = told := by
  obtain ⟨packets, htun, htold⟩ := h.tun
  rw [toldBetween, htun, drop_left, htold]

theorem trans (h : Effect r stored told r') (h' : Effect r' stored' told' r'') :
    Effect r stored' (told ++ told') r'' := by
  obtain ⟨packets, htun, htold⟩ := h.tun
  obtain ⟨packets', htun', htold'⟩ := h'.tun
  refine ⟨h'.sessions, packets ++ packets', ?_, ?_⟩
  · rw [htun', htun, append_assoc]
  · rw [filter_append, map_append, htold, htold']

theorem still (hsessions : r'.sessions = r.sessions) (htun : r'.tun = r.tun) :
    Effect r r.sessions [] r' :=
  ⟨hsessions, [], by rw [htun, append_nil], rfl⟩

theorem write (r : TcpRelay) {packets : List TunPacket}
    (htold : (packets.filter TunPacket.ends).map TunPacket.key = told) :
    Effect r r.sessions told (r.write packets) :=
  ⟨rfl, packets, rfl, htold⟩

theorem set (r : TcpRelay) (i : Nat) (x : TcpSession) : Effect r r.sessions [] (r.set i x) :=
  still rfl rfl

theorem closeSession (r : TcpRelay) (key : SessionKey) :
    Effect r (r.sessions.remove key) [] (r.closeSession key) := by
  rw [closeSession_eq]
  exact ⟨rfl, [], (append_nil _).symm, rfl⟩

theorem reset (hc : Settled r) {i : Nat} (hi : r.sessions.get key = some i) :
    Effect r (r.sessions.remove key) [key] ((r.sendRst i).closeSession key) := by
  obtain ⟨-, hkey, -⟩ := hc.session key i hi
  have hrst : Effect r r.sessions [key] (r.sendRst i) := by
    rw [← hkey]
    exact write r (TunPacket.told_end (TcpFlag.rst ||| TcpFlag.ack) rfl (by decide))
  exact hrst.trans (closeSession (r.sendRst i) key)

end Effect

/-! ## The effect of each step -/

theorem handleSegment_effect (now : Int) (p : ClientPacket) (i : Nat) :
    Effect r
      (if 0 < p.data.length ∧ (r.session i).channelFull = true then r.sessions.remove p.key
        else r.sessions) []
      (r.handleSegment now p i) := by
  have hheard := Effect.set r i ((r.session i).heardFrom now p)
  have hdata : 0 < p.data.length → Effect (r.set i ((r.session i).heardFrom now p))
      (if 0 < p.data.length ∧ (r.session i).channelFull = true then r.sessions.remove p.key
        else r.sessions) []
      ((r.set i ((r.session i).heardFrom now p)).forwardDataToSocket p i) := by
    intro hlength
    have hfull : ((r.set i ((r.session i).heardFrom now p)).session i).channelFull =
        (r.session i).channelFull := by
      rw [set_session_self]
      rfl
    unfold forwardDataToSocket
    rw [hfull]
    by_cases hchannel : (r.session i).channelFull = true
    · rw [if_pos hchannel, if_pos ⟨hlength, hchannel⟩]
      exact Effect.closeSession _ p.key
    · rw [if_neg hchannel, if_neg (fun h => hchannel h.2)]
      exact Effect.set _ i _
  have hfin : ∀ r' : TcpRelay, Effect r' r'.sessions [] (r'.handleFin p i) := fun r' =>
    (Effect.set r' i _).trans (Effect.write _ (TunPacket.told_none TcpFlag.ack rfl (by decide)))
  have hforwarded : Effect r
      (if 0 < p.data.length ∧ (r.session i).channelFull = true then r.sessions.remove p.key
        else r.sessions) []
      (if 0 < p.data.length then (r.set i ((r.session i).heardFrom now p)).forwardDataToSocket p i
        else r.set i ((r.session i).heardFrom now p)) := by
    by_cases hlength : 0 < p.data.length
    · rw [if_pos hlength]
      exact hheard.trans (hdata hlength)
    · rw [if_neg hlength, if_neg (fun h => hlength h.1)]
      exact hheard
  unfold handleSegment
  by_cases hfinFlag : p.has TcpFlag.fin = true
  · rw [if_pos hfinFlag, ← hforwarded.sessions]
    exact hforwarded.trans (hfin _)
  · rw [if_neg hfinFlag]
    exact hforwarded

variable (i : Nat) {e : RelayEvent}

theorem coroutineStep_effect (turn : Turn) :
    Effect r (if turn.exits then r.sessions.remove (r.session i).key else r.sessions)
      (TcpSession.told turn) (r.coroutineStep i turn) := by
  have hturn : Effect r r.sessions (TcpSession.told turn)
      ((r.set i turn.session).write turn.packets) :=
    (Effect.set r i turn.session).trans (Effect.write _ rfl)
  unfold coroutineStep
  split_ifs
  · have hclosed := hturn.trans
      (Effect.closeSession ((r.set i turn.session).write turn.packets) (r.session i).key)
    rwa [append_nil] at hclosed
  · exact hturn

theorem openFailed_effect (o : Nat) :
    Effect r (r.sessions.remove (r.opener o).key) [(r.opener o).key] (r.openFailed o) :=
  ⟨rfl, _, rfl, TunPacket.told_end (TcpFlag.rst ||| TcpFlag.ack) rfl (by decide)⟩

/-! ## What a step means for one flow -/

/-- What a step does to the flow `key`: `stored` is what the map holds for it
afterwards, `told` whether a FIN or RST for it was written. -/
inductive Outcome (r : TcpRelay) (e : RelayEvent) (key : SessionKey) (stored : Option Nat) :
    Bool → Prop where
  | kept (hnot : ¬ Silences r key e) (hstored : stored = r.sessions.get key) :
      Outcome r e key stored false
  | requested (hnot : ¬ Silences r key e) (hreq : Requested key e) (hstored : stored = none) :
      Outcome r e key stored false
  | told (hnot : ¬ Silences r key e) (hstored : stored = none) : Outcome r e key stored true
  | silenced (hsilences : Silences r key e) (hgone : ∀ i, i < r.created → stored ≠ some i) :
      Outcome r e key stored false

def StepOutcome (r : TcpRelay) (e : RelayEvent) (key : SessionKey) : Prop :=
  Outcome r e key ((r.step e).sessions.get key) (decide (key ∈ toldBetween r (r.step e)))

theorem Effect.outcome {stored : SessionMap} {told : List SessionKey}
    (h : Effect r stored told (r.step e))
    (hout : Outcome r e key (stored.get key) (decide (key ∈ told))) : StepOutcome r e key := by
  rw [StepOutcome, h.sessions, h.toldBetween_eq]
  exact hout

theorem outcome_of_quiet (h : Effect r r.sessions [] (r.step e)) (hnot : ¬ Silences r key e) :
    StepOutcome r e key :=
  h.outcome (.kept hnot rfl)

theorem outcome_of_same (hsame : r.step e = r) (hnot : ¬ Silences r key e) : StepOutcome r e key :=
  outcome_of_quiet (Effect.still (by rw [hsame]) (by rw [hsame])) hnot

theorem outcome_of_closed {k : SessionKey} (h : Effect r (r.sessions.remove k) [] (r.step e))
    (hcause : Silences r k e ∨ ¬ Silences r k e ∧ Requested k e)
    (hother : key ≠ k → ¬ Silences r key e) : StepOutcome r e key := by
  refine h.outcome ?_
  rw [SessionMap.get_remove]
  split_ifs with hkey
  · subst hkey
    rcases hcause with hsilences | ⟨hnot, hreq⟩
    · exact .silenced hsilences (by simp)
    · exact .requested hnot hreq rfl
  · exact .kept (hother hkey) rfl

theorem outcome_of_told {k : SessionKey} (h : Effect r (r.sessions.remove k) [k] (r.step e))
    (hnot : ¬ Silences r key e) : StepOutcome r e key := by
  refine h.outcome ?_
  rw [SessionMap.get_remove]
  split_ifs with hkey
  · subst hkey
    rw [decide_eq_true (mem_singleton_self key)]
    exact .told hnot rfl
  · rw [decide_eq_false (by simpa using hkey)]
    exact .kept hnot rfl

theorem packet_outcome (now : Int) (p : ClientPacket) : StepOutcome r (.packet now p) key := by
  by_cases hrst : p.has TcpFlag.rst = true
  · have heffect : Effect r (r.sessions.remove p.key) [] (r.step (.packet now p)) := by
      rw [step, forwardTcpPacket, if_pos hrst]
      exact Effect.closeSession r p.key
    have hnot : ∀ k, ¬ Silences r k (.packet now p) := by
      intro k hsilences
      exact absurd hsilences.2.1 (by simp [hrst])
    exact outcome_of_closed heffect (.inr ⟨hnot _, hrst, rfl⟩) (fun _ => hnot _)
  rcases hget : r.sessions.get p.key with _ | i
  · have heffect : Effect r r.sessions [] (r.step (.packet now p)) := by
      rw [step, forwardTcpPacket, if_neg hrst, hget]
      split_ifs
      · exact Effect.still rfl rfl
      · exact Effect.still rfl rfl
    refine outcome_of_quiet heffect fun hsilences => ?_
    obtain ⟨rfl, -, -, hfull⟩ := hsilences
    simp [hget] at hfull
  · have heffect : Effect r
        (if 0 < p.data.length ∧ (r.session i).channelFull = true then r.sessions.remove p.key
          else r.sessions) [] (r.step (.packet now p)) := by
      rw [step, forwardTcpPacket, if_neg hrst, hget]
      exact handleSegment_effect now p i
    split_ifs at heffect with hfull
    · refine outcome_of_closed heffect (.inl ⟨rfl, by simpa using hrst, hfull.1, ?_⟩) ?_
      · simpa [hget] using hfull.2
      · exact fun hne hsilences => hne hsilences.1.symm
    · refine outcome_of_quiet heffect fun hsilences => ?_
      obtain ⟨rfl, -, hlength, hany⟩ := hsilences
      exact hfull ⟨hlength, by simpa [hget] using hany⟩

theorem opener_outcome (hc : Settled r) (o : Nat) (e : OpenerEvent) :
    StepOutcome r (.opener o e) key := by
  cases e with
  | evicts victim =>
    have hnot : ¬ Silences r key (.opener o (.evicts victim)) := id
    rcases evicts_cases r o victim with heq | ⟨-, heq | ⟨i, hi, heq⟩⟩
    · exact outcome_of_same heq hnot
    · exact outcome_of_quiet (by rw [step, heq]; exact Effect.still rfl rfl) hnot
    · have heffect : Effect r (r.sessions.remove victim) [victim]
          (r.step (.opener o (.evicts victim))) := by
        rw [step, heq]
        obtain ⟨hsessions, htun⟩ := Effect.reset hc hi
        exact ⟨hsessions, htun⟩
      exact outcome_of_told heffect hnot
  | connects now serverIsn =>
    by_cases hphase : (r.opener o).phase = .connecting
    · have heffect : Effect r (r.sessions.put (r.opener o).key r.created) []
          (r.step (.opener o (.connects now serverIsn))) := by
        simp only [step, openerStep, if_pos hphase]
        exact ⟨rfl, [], (append_nil _).symm, rfl⟩
      refine heffect.outcome ?_
      rw [SessionMap.get_put]
      split_ifs with hkey
      · exact .silenced ⟨hphase, hkey.symm⟩ fun i hi heq => hi.ne' (Option.some_inj.mp heq)
      · exact .kept (fun hsilences => hkey hsilences.2.symm) rfl
    · have heffect : Effect r r.sessions [] (r.step (.opener o (.connects now serverIsn))) := by
        simp only [step, openerStep, if_neg hphase]
        exact Effect.still rfl rfl
      exact outcome_of_quiet heffect fun hsilences => hphase hsilences.1
  | connectFails =>
    by_cases hphase : (r.opener o).phase = .connecting
    · have heffect : r.step (.opener o .connectFails) = r.openFailed o := by
        simp only [step, openerStep, if_pos hphase]
      exact outcome_of_told (heffect ▸ openFailed_effect o) id
    · have heffect : r.step (.opener o .connectFails) = r := by
        simp only [step, openerStep, if_neg hphase]
      exact outcome_of_same heffect id
  | launches =>
    have heffect : Effect r r.sessions [] (r.step (.opener o .launches)) := by
      simp only [step, openerStep]
      split
      · exact ⟨rfl, _, rfl, TunPacket.told_none (TcpFlag.syn ||| TcpFlag.ack) rfl (by decide)⟩
      · exact Effect.still rfl rfl
    exact outcome_of_quiet heffect id
  | synAckFails =>
    rcases hphase : (r.opener o).phase with _ | _ | ⟨i, isn⟩ | _
    · exact outcome_of_same (by simp only [step, openerStep, hphase]) id
    · exact outcome_of_same (by simp only [step, openerStep, hphase]) id
    · have heffect : r.step (.opener o .synAckFails) =
          (r.set i { r.session i with socketClosed := true }).openFailed o := by
        simp only [step, openerStep, hphase]
      have htold := (Effect.set r i { r.session i with socketClosed := true }).trans
        (openFailed_effect (r := r.set i { r.session i with socketClosed := true }) o)
      exact outcome_of_told (heffect ▸ htold) id
    · exact outcome_of_same (by simp only [step, openerStep, hphase]) id

theorem reader_outcome (e : ReaderEvent) : StepOutcome r (.reader i e) key := by
  obtain ⟨hexits, htold⟩ := (r.session i).listenForTcpResponses_ending e
  have heffect := coroutineStep_effect (r := r) i ((r.session i).listenForTcpResponses e)
  rw [hexits, htold] at heffect
  by_cases hgives : (r.session i).readerGivesUp e = true
  · have hfin : (r.session i).sendsFin e = false := by
      cases e <;> first | rfl | cases hgives
    rw [hgives, hfin] at heffect
    exact outcome_of_closed heffect (.inl ⟨rfl, hgives⟩) fun hne hsilences => hne hsilences.1.symm
  · have hnot : ¬ Silences r key (.reader i e) := fun hsilences => hgives hsilences.2
    rw [Bool.not_eq_true] at hgives
    rw [hgives, Bool.false_or] at heffect
    split_ifs at heffect
    · exact outcome_of_told heffect hnot
    · exact outcome_of_quiet heffect hnot

theorem writer_outcome (e : WriterEvent) : StepOutcome r (.writer i e) key := by
  obtain ⟨hexits, htold⟩ := (r.session i).runSocketWriter_ending e
  have heffect := coroutineStep_effect (r := r) i ((r.session i).runSocketWriter e)
  rw [hexits, htold] at heffect
  split_ifs at heffect with hgives
  · exact outcome_of_closed heffect (.inl ⟨rfl, hgives⟩) fun hne hsilences => hne hsilences.1.symm
  · exact outcome_of_quiet heffect fun hsilences => hgives hsilences.2

theorem resetIf_outcome (hc : Settled r) (k : SessionKey)
    (cond : TcpSession → Bool) (hstep : r.step e = r.resetIf true cond k)
    (hnot : ¬ Silences r key e) : StepOutcome r e key := by
  rcases hget : r.sessions.get k with _ | i
  · have hsame : r.step e = r := by rw [hstep, resetIf, hget]
    exact outcome_of_same hsame hnot
  · by_cases hcond : cond (r.session i) = true
    · have hreset : r.step e = (r.sendRst i).closeSession k := by
        simp only [hstep, resetIf, hget, hcond, if_true]
      exact outcome_of_told (hreset ▸ Effect.reset hc hget) hnot
    · have hsame : r.step e = r := by simp only [hstep, resetIf, hget, if_neg hcond]
      exact outcome_of_same hsame hnot

def WorkingTun (r : TcpRelay) : RelayEvent → Prop
  | .reap _ _ => r.reaperTun = true
  | _ => True

instance (r : TcpRelay) : DecidablePred (WorkingTun r) := fun e => by
  cases e <;> simp only [WorkingTun] <;> infer_instance

theorem step_outcome (hc : Settled r) (htun : WorkingTun r e)
    (key : SessionKey) : StepOutcome r e key := by
  cases e with
  | packet now p => exact packet_outcome now p
  | opener o e => exact opener_outcome hc o e
  | reader i e => exact reader_outcome i e
  | writer i e => exact writer_outcome i e
  | reap now k =>
    have htun' : r.reaperTun = true := htun
    by_cases hruns : r.reaperRuns = true
    · have hreset : r.step (.reap now k) = r.resetIf true
          (fun x => x.socketClosed || now - x.lastActivityMs ≥ tcpIdleTimeoutMs) k := by
        rw [step, reap, if_pos hruns, htun']
      exact resetIf_outcome hc k _ hreset id
    · have hsame : r.step (.reap now k) = r := by rw [step, reap, if_neg hruns]
      exact outcome_of_same hsame id
  | networkLost deadNetwork k =>
    exact resetIf_outcome hc k (fun x => x.network = deadNetwork) rfl id
  | setTunOutputStream present => exact outcome_of_quiet (Effect.still rfl rfl) id
  | setUpstreamMode mode =>
    by_cases hmode : r.upstreamMode = mode
    · have hsame : r.step (.setUpstreamMode mode) = r := by
        rw [step, setUpstreamMode, if_pos hmode]
      exact outcome_of_same hsame fun hne => hne hmode
    · have heffect : Effect r ∅ [] (r.step (.setUpstreamMode mode)) := by
        rw [step, setUpstreamMode, if_neg hmode]
        exact ⟨rfl, [], (append_nil _).symm, rfl⟩
      exact heffect.outcome (.silenced hmode fun i _ => Option.some_ne_none i |>.symm)
  | clear =>
    have heffect : Effect r ∅ [] (r.step .clear) := ⟨rfl, [], (append_nil _).symm, rfl⟩
    exact heffect.outcome (.requested id trivial rfl)

theorem not_requested_of_silences (h : Silences r key e) : ¬ Requested key e := by
  cases e with
  | packet now p => exact fun hreq => absurd hreq.1 (by simp [h.2.1])
  | clear => exact h.elim
  | _ => exact id

/-! ## Runs -/

structure Later (r r' : TcpRelay) : Prop where
  tun : r.tun <+: r'.tun
  created : r.created ≤ r'.created

theorem later_keptByOperations (r : TcpRelay) : KeptByOperations (Later r) := by
  refine keptByOperations_of_sameLife (fun _ _ _ _ h => ⟨h.tun, h.created⟩)
    (fun _ packets h => ⟨h.tun.trans (prefix_append _ packets), h.created⟩) ?_
    (fun _ _ h => ⟨h.tun, h.created⟩) (fun _ _ h => ⟨h.tun, h.created⟩)
    (fun _ _ h => ⟨h.tun, h.created⟩) (fun _ _ _ _ h => ⟨h.tun, h.created⟩)
  intro r' key h
  rw [closeSession_eq]
  exact ⟨h.tun, h.created⟩

theorem Later.step {r₀ : TcpRelay} (h : Later r₀ r) (e : RelayEvent) : Later r₀ (r.step e) := by
  have hfailed : ∀ o, Later r₀ (r.openFailed o) :=
    fun o => ⟨h.tun.trans (prefix_append _ _), h.created⟩
  refine (later_keptByOperations r₀).step h e fun o e' _ hevicts => ?_
  cases e' with
  | evicts victim => exact absurd rfl (hevicts victim)
  | connects now serverIsn =>
    simp only [openerStep]
    split_ifs
    · exact ⟨h.tun, h.created.trans (Nat.le_succ _)⟩
    · exact h
  | connectFails =>
    simp only [openerStep]
    split_ifs
    · exact hfailed o
    · exact h
  | launches =>
    simp only [openerStep]
    split
    · exact ⟨h.tun.trans (prefix_append _ _), h.created⟩
    · exact h
  | synAckFails =>
    simp only [openerStep]
    split
    · exact ⟨(hfailed o).tun, h.created⟩
    · exact h

theorem run_concat (events : List RelayEvent) (e : RelayEvent) :
    run (events ++ [e]) = (run events).step e :=
  exec_concat step create events e

theorem run_later (before during : List RelayEvent) :
    Later (run before) (run (before ++ during)) := by
  induction during using List.reverseRecOn with
  | nil =>
    rw [append_nil]
    exact ⟨prefix_rfl, le_rfl⟩
  | append_singleton during e ih =>
    rw [← append_assoc, run_concat]
    exact ih.step e

theorem toldBetween_trans {r' r'' : TcpRelay} (h : Later r r') (h' : Later r' r'') :
    toldBetween r r'' = toldBetween r r' ++ toldBetween r' r'' := by
  obtain ⟨packets, hpackets⟩ := h.tun
  obtain ⟨more, hmore⟩ := h'.tun
  simp only [toldBetween, ← hmore, ← hpackets, append_assoc, drop_left]
  rw [← append_assoc, drop_left, filter_append, map_append]

theorem gone_of_told (hc : Settled r) (htun : WorkingTun r e)
    (htold : key ∈ toldBetween r (r.step e)) : (r.step e).sessions.get key = none := by
  have hout := step_outcome hc htun key
  rw [StepOutcome, decide_eq_true htold] at hout
  cases hout with
  | told _ hstored => exact hstored

theorem not_stored_step (hc : Settled r) (htun : WorkingTun r e) {i : Nat}
    (hi : i < r.created) (hnot : r.sessions.get key ≠ some i) :
    (r.step e).sessions.get key ≠ some i := by
  have hout := step_outcome hc htun key
  rw [StepOutcome] at hout
  generalize decide (key ∈ toldBetween r (r.step e)) = told at hout
  cases hout with
  | kept _ hstored => exact hstored ▸ hnot
  | requested _ _ hstored => simp [hstored]
  | told _ hstored => simp [hstored]
  | silenced _ hgone => exact hgone i hi

theorem not_told_since {since during : List RelayEvent} {i : Nat}
    (htun : AlongRun (fun before e => WorkingTun (run before) e) (since ++ during))
    (hi : (run since).sessions.get key = some i)
    (hstored : (run (since ++ during)).sessions.get key = some i) :
    key ∉ toldBetween (run since) (run (since ++ during)) := by
  have hcreated : i < (run since).created := ((run_consistent since).session key i hi).1
  induction during using List.reverseRecOn with
  | nil => simp [toldBetween]
  | append_singleton during e ih =>
    rw [← append_assoc] at htun hstored ⊢
    obtain ⟨hbefore, hlast⟩ := alongRun_concat.mp htun
    have hc := run_consistent (since ++ during)
    have hlater := run_later since during
    rw [run_concat] at hstored ⊢
    -- the session was stored before this event, or it would not be now
    have hthen : (run (since ++ during)).sessions.get key = some i := by
      by_contra hnot
      exact not_stored_step hc hlast (hcreated.trans_le hlater.created) hnot hstored
    rw [toldBetween_trans hlater (Later.step ⟨prefix_rfl, le_rfl⟩ e), mem_append]
    rintro (htold | htold)
    · exact ih hbefore hthen htold
    · exact absurd ((gone_of_told hc hlast htold).symm.trans hstored) (by simp)

/-- An established session that the event removes, other than at the client's
or the owner's request, was told of its end since it was stored. -/
def ToldOfEnd (before : List RelayEvent) (e : RelayEvent) : Prop :=
  ∀ key i, Established (run before) key i → (run (before ++ [e])).sessions.get key ≠ some i →
    Requested key e ∨ ∃ since, since <+: before ∧ (run since).sessions.get key = some i ∧
      key ∈ toldBetween (run since) (run (before ++ [e]))

def NoSilentEnd (r : TcpRelay) (e : RelayEvent) : Prop :=
  ∀ entry ∈ r.sessions.entries, (r.session entry.2).unlaunched = false → ¬ Silences r entry.1 e

instance (r : TcpRelay) (e : RelayEvent) : Decidable (NoSilentEnd r e) :=
  inferInstanceAs (Decidable (∀ entry ∈ r.sessions.entries,
    (r.session entry.2).unlaunched = false → ¬ Silences r entry.1 e))

theorem noSilentEnd_iff : NoSilentEnd r e ↔ ∀ key i, Established r key i → ¬ Silences r key e := by
  constructor
  · intro h key i hestablished
    exact h ⟨key, i⟩ (AList.mem_lookup_iff.mp hestablished.1) hestablished.2
  · intro h entry hentry hlaunched
    exact h entry.1 entry.2 ⟨AList.mem_lookup_iff.mpr hentry, hlaunched⟩

theorem told_since_iff {before : List RelayEvent} {i : Nat}
    (htun : AlongRun (fun before e => WorkingTun (run before) e) (before ++ [e]))
    (hi : (run before).sessions.get key = some i) :
    (∃ since, since <+: before ∧ (run since).sessions.get key = some i ∧
      key ∈ toldBetween (run since) (run (before ++ [e]))) ↔
      key ∈ toldBetween (run before) ((run before).step e) := by
  rw [run_concat]
  constructor
  · rintro ⟨since, ⟨during, rfl⟩, hsince, htold⟩
    have hstep : Later (run (since ++ during)) ((run (since ++ during)).step e) :=
      Later.step ⟨prefix_rfl, le_rfl⟩ e
    have hnot := not_told_since (alongRun_concat.mp htun).1 hsince hi
    rw [toldBetween_trans (run_later since during) hstep] at htold
    exact (mem_append.mp htold).resolve_left hnot
  · intro htold
    exact ⟨before, prefix_rfl, hi, htold⟩

theorem toldOfEnd_iff {before : List RelayEvent}
    (htun : AlongRun (fun before e => WorkingTun (run before) e) (before ++ [e])) :
    ToldOfEnd before e ↔ NoSilentEnd (run before) e := by
  have hc := run_consistent before
  rw [noSilentEnd_iff, ToldOfEnd]
  refine forall_congr' fun key => forall_congr' fun i => imp_congr_right fun hestablished => ?_
  have hcreated : i < (run before).created := (hc.session key i hestablished.1).1
  rw [told_since_iff htun hestablished.1, run_concat]
  have hout := step_outcome hc (alongRun_concat.mp htun).2 key
  rw [StepOutcome] at hout
  rw [← decide_eq_true_iff (p := key ∈ toldBetween (run before) ((run before).step e))]
  generalize decide (key ∈ toldBetween (run before) ((run before).step e)) = told at hout ⊢
  cases hout with
  | kept hnot hstored =>
    exact iff_of_true (fun hne => absurd (hstored.trans hestablished.1) hne) hnot
  | requested hnot hreq _ => exact iff_of_true (fun _ => .inl hreq) hnot
  | told hnot _ => exact iff_of_true (fun _ => .inr rfl) hnot
  | silenced hsilences hgone =>
    refine iff_of_false (fun h => ?_) (not_not_intro hsilences)
    rcases h (hgone i hcreated) with hreq | htold
    · exact not_requested_of_silences hsilences hreq
    · exact Bool.false_ne_true htold

/-- **No silent teardown, exactly when no event ends a session silently**, in a
run in which the reaper has a stream to write to. -/
theorem toldOfEnd_iff_noSilentEnd (events : List RelayEvent)
    (htun : AlongRun (fun before e => WorkingTun (run before) e) events) :
    AlongRun ToldOfEnd events ↔
      AlongRun (fun before e => NoSilentEnd (run before) e) events := by
  have hupTo : ∀ before e after, events = before ++ e :: after →
      AlongRun (fun before e => WorkingTun (run before) e) (before ++ [e]) :=
    fun before e after heq => htun.initial ⟨after, by simp [heq]⟩
  constructor
  · intro h before e after heq
    exact (toldOfEnd_iff (hupTo before e after heq)).mp (h before e after heq)
  · intro h before e after heq
    exact (toldOfEnd_iff (hupTo before e after heq)).mpr (h before e after heq)


def oneSession : List RelayEvent := .setTunOutputStream true :: establish 0 0 0

theorem toldOfEnd_reaped :
    Established (run oneSession) sampleKey 0 ∧
      (run (oneSession ++ [.reap 90000 sampleKey])).sessions.get sampleKey = none ∧
      AlongRun ToldOfEnd (oneSession ++ [.reap 90000 sampleKey]) := by
  refine ⟨⟨by decide +kernel, by decide +kernel⟩, by decide +kernel, ?_⟩
  exact (toldOfEnd_iff_noSilentEnd _ (by decide +kernel)).mpr (by decide +kernel)

/-- The upstream connection is reset: the reader's read throws, the session is
gone, and all its client ever got is the SYN/ACK. -/
theorem upstreamReset_untold :
    Established (run oneSession) sampleKey 0 ∧
      (run (oneSession ++ [.reader 0 .fails])).sessions.get sampleKey = none ∧
      (run (oneSession ++ [.reader 0 .fails])).tun.map TunPacket.flags =
        [TcpFlag.syn ||| TcpFlag.ack] ∧
      ¬ AlongRun ToldOfEnd (oneSession ++ [.reader 0 .fails]) := by
  refine ⟨⟨by decide +kernel, by decide +kernel⟩, by decide +kernel, by decide +kernel, ?_⟩
  intro h
  have htold := (toldOfEnd_iff (by decide +kernel)).mp (h oneSession (.reader 0 .fails) [] rfl)
  exact absurd htold (by decide +kernel)

end TcpRelay

end BigRocket.Relay
