/-
What each step of the relay does to its maps and its sessions.
-/
import BigRocket.Relay.TcpRelay

namespace BigRocket.Relay

/-! ## What a turn leaves alone -/

def ReaderState.runs : ReaderState → Bool
  | .unlaunched | .finished => false
  | _ => true

def WriterState.runs : WriterState → Bool
  | .unlaunched | .finished _ => false
  | _ => true

namespace TcpSession

def readerRuns (x : TcpSession) : Bool := x.reader.runs

def writerRuns (x : TcpSession) : Bool := x.writer.runs

def unlaunched (x : TcpSession) : Bool := x.reader = .unlaunched && x.writer = .unlaunched

/-- The same flow; between the two nothing was closed or cancelled and no
coroutine was launched. -/
structure SameLife (x y : TcpSession) : Prop where
  key : y.key = x.key
  socketClosed : y.socketClosed = x.socketClosed
  channelClosed : y.channelClosed = x.channelClosed
  readerCancelled : y.readerCancelled = x.readerCancelled
  writerCancelled : y.writerCancelled = x.writerCancelled
  unlaunched : y.unlaunched = x.unlaunched
  readerRuns : y.readerRuns → x.readerRuns
  writerRuns : y.writerRuns → x.writerRuns

structure Stays (x y : TcpSession) : Prop where
  reader : x.readerRuns → x.readerCancelled = false → y.readerRuns
  writer : x.writerRuns → x.writerCancelled = false → y.writerRuns

structure TurnSpec (x : TcpSession) (turn : Turn) : Prop where
  life : SameLife x turn.session
  output : turn.session.outputShutdown = x.outputShutdown
  -- an uncancelled coroutine ends only through its `finally`
  stays : turn.exits = false → Stays x turn.session
  exits : turn.exits = true → x.readerRuns ∨ x.writerRuns

theorem heardFrom_sameLife (now : Int) (p : ClientPacket) (x : TcpSession) :
    SameLife x (x.heardFrom now p) :=
  ⟨rfl, rfl, rfl, rfl, rfl, rfl, id, id⟩

theorem enqueue_sameLife (p : ClientPacket) (x : TcpSession) : SameLife x (x.enqueue p) :=
  ⟨rfl, rfl, rfl, rfl, rfl, rfl, id, id⟩

theorem finished_sameLife (p : ClientPacket) (x : TcpSession) : SameLife x (x.finished p) :=
  ⟨rfl, rfl, rfl, rfl, rfl, rfl, id, id⟩

theorem stays_of_eq {x y : TcpSession} (hreader : y.reader = x.reader)
    (hwriter : y.writer = x.writer) : Stays x y := by
  refine ⟨?_, ?_⟩
  · intro hruns _
    simpa [readerRuns, hreader] using hruns
  · intro hruns _
    simpa [writerRuns, hwriter] using hruns

namespace TurnSpec

variable {x : TcpSession}

theorem unchanged (x : TcpSession) : TurnSpec x { session := x } where
  life := ⟨rfl, rfl, rfl, rfl, rfl, rfl, id, id⟩
  output := rfl
  stays := fun _ => stays_of_eq rfl rfl
  exits := fun h => absurd h Bool.false_ne_true

theorem ofReader {reader : ReaderState} {seq now : Int} {packets : List TunPacket} {exits : Bool}
    (hruns : x.reader.runs = true) (hlaunched : reader ≠ .unlaunched)
    (hstays : exits = false → x.readerCancelled = false → reader.runs = true) :
    TurnSpec x
      { session := { x with serverSeq := seq, lastActivityMs := now, reader }, packets, exits } := by
  have hbefore : x.reader ≠ .unlaunched := by
    intro h
    simp [h, ReaderState.runs] at hruns
  refine ⟨⟨rfl, rfl, rfl, rfl, rfl, ?_, fun _ => hruns, id⟩, rfl, ?_, fun _ => .inl hruns⟩
  · simp [TcpSession.unlaunched, hbefore, hlaunched]
  · intro hexit
    exact ⟨fun _ => hstays hexit, fun h _ => h⟩

theorem ofWriter {writer : WriterState} {channel : List PendingWrite} {seq now : Int}
    {written : List (List UInt8)} {packets : List TunPacket} {exits : Bool}
    (hruns : x.writer.runs = true) (hlaunched : writer ≠ .unlaunched)
    (hstays : exits = false → x.writerCancelled = false → writer.runs = true) :
    TurnSpec x
      { session :=
          { x with
            clientNextSeq := seq
            lastActivityMs := now
            writeChannel := channel
            writer
            written }
        packets
        exits } := by
  have hbefore : x.writer ≠ .unlaunched := by
    intro h
    simp [h, WriterState.runs] at hruns
  refine ⟨⟨rfl, rfl, rfl, rfl, rfl, ?_, id, fun _ => hruns⟩, rfl, ?_, fun _ => .inr hruns⟩
  · simp [TcpSession.unlaunched, hbefore, hlaunched]
  · intro hexit
    exact ⟨fun h _ => h, fun _ => hstays hexit⟩

end TurnSpec

theorem writeChunkedRespectingWindow_spec (now : Int) {block : List UInt8} {waitedMs : Nat}
    {x : TcpSession} (hx : x.reader = .sending block waitedMs) :
    TurnSpec x (x.writeChunkedRespectingWindow now block waitedMs) := by
  have hruns : x.reader.runs = true := by rw [hx]; rfl
  unfold writeChunkedRespectingWindow
  dsimp only
  split_ifs
  · exact .ofReader hruns (by simp) (by simp)
  · exact .ofReader hruns (by simp) (fun _ _ => rfl)
  · exact .ofReader hruns (by simp) (fun _ _ => rfl)
  · exact .ofReader hruns (by simp) (fun _ _ => rfl)

variable (x : TcpSession)

theorem listenForTcpResponses_spec (e : ReaderEvent) : TurnSpec x (x.listenForTcpResponses e) := by
  cases e with
  | starts =>
    simp only [listenForTcpResponses]
    split_ifs with hidle hcancelled
    · exact .unchanged x
    all_goals have hruns : x.reader.runs = true := by rw [not_not.mp hidle]; rfl
    · exact .ofReader hruns (by simp) (by simp [hcancelled])
    · exact .ofReader hruns (by simp) (by simp)
    · exact .ofReader hruns (by simp) (fun _ _ => rfl)
  | reads block =>
    simp only [listenForTcpResponses]
    split_ifs with hreads
    · exact .ofReader (by rw [hreads.1]; rfl) (by simp) (fun _ _ => rfl)
    · exact .unchanged x
  | sends now =>
    simp only [listenForTcpResponses]
    split
    · next hx => exact writeChunkedRespectingWindow_spec now hx
    · exact .unchanged x
  | endOfStream =>
    simp only [listenForTcpResponses]
    split_ifs with hends
    · exact .ofReader (by rw [hends.1]; rfl) (by simp) (by simp)
    · exact .unchanged x
  | fails =>
    simp only [listenForTcpResponses]
    split
    · next hx => exact .ofReader (by rw [hx]; rfl) (by simp) (by simp)
    · next hx => exact .ofReader (by rw [hx]; rfl) (by simp) (by simp)
    · exact .unchanged x

theorem runSocketWriter_spec (e : WriterEvent) : TurnSpec x (x.runSocketWriter e) := by
  cases e with
  | starts =>
    simp only [runSocketWriter]
    split_ifs with hidle hcancelled
    · exact .unchanged x
    all_goals have hruns : x.writer.runs = true := by rw [not_not.mp hidle]; rfl
    · exact .ofWriter hruns (by simp) (by simp [hcancelled])
    · exact .ofWriter hruns (by simp) (fun _ _ => rfl)
    · exact .ofWriter hruns (by simp) (by simp)
  | takes =>
    simp only [runSocketWriter]
    split
    · next hx _ => exact .ofWriter (by rw [hx]; rfl) (by simp) (fun _ _ => rfl)
    · exact .unchanged x
  | writes now =>
    simp only [runSocketWriter]
    split
    · next hx =>
        split_ifs
        · exact .ofWriter (by rw [hx]; rfl) (by simp) (fun _ _ => rfl)
        · exact .unchanged x
    · exact .unchanged x
  | fails =>
    simp only [runSocketWriter]
    split
    · next hx => exact .ofWriter (by rw [hx]; rfl) (by simp) (by simp)
    · exact .unchanged x
  | ends =>
    simp only [runSocketWriter]
    split_ifs with hends
    · exact .ofWriter (by rw [hends.1]; rfl) (by simp) (by simp)
    · exact .unchanged x

end TcpSession

/-! ## The maps and the objects under each operation -/

namespace SessionMap

variable (m : SessionMap)

theorem get_remove (key k : SessionKey) :
    (m.remove key).get k = if k = key then none else m.get k := by
  split_ifs with hk
  · subst hk
    exact AList.lookup_erase k m
  · exact AList.lookup_erase_ne hk

theorem get_put (key k : SessionKey) (i : Nat) :
    (m.put key i).get k = if k = key then some i else m.get k := by
  split_ifs with hk
  · subst hk
    exact AList.lookup_insert m
  · exact AList.lookup_insert_ne hk

theorem remove_of_get_none {m : SessionMap} {key : SessionKey} (h : m.get key = none) :
    m.remove key = m := by
  apply AList.ext
  exact List.kerase_of_notMem_keys (AList.lookup_eq_none.mp h)

theorem holds_iff (i : Nat) : m.holds i = true ↔ ∃ k, m.get k = some i := by
  simp only [holds, List.any_eq_true, decide_eq_true_eq]
  constructor
  · intro hany
    obtain ⟨⟨k, v⟩, hmem, hv⟩ := hany
    subst hv
    exact ⟨k, AList.mem_lookup_iff.mpr hmem⟩
  · intro hget
    obtain ⟨k, hk⟩ := hget
    exact ⟨⟨k, i⟩, AList.mem_lookup_iff.mp hk, rfl⟩

end SessionMap

namespace TcpRelay

variable (r : TcpRelay)

variable (i : Nat) (ps : List TunPacket) (x : TcpSession)

theorem set_session (j : Nat) (x : TcpSession) :
    (r.set i x).session j = if j = i then x else r.session j := by
  simp [set, Function.update_apply]

@[simp] theorem set_session_self : (r.set i x).session i = x := by
  simp [set]

theorem set_session_proj {r : TcpRelay} {β : Type} (f : TcpSession → β) {i : Nat} {y : TcpSession}
    (h : f y = f (r.session i)) (j : Nat) : f ((r.set i y).session j) = f (r.session j) := by
  rw [set_session]
  split_ifs with hj
  · rw [hj, h]
  · rfl

@[simp] theorem set_sessions : (r.set i x).sessions = r.sessions := rfl
@[simp] theorem set_socketJobs :
    (r.set i x).socketJobs = r.socketJobs := rfl
@[simp] theorem set_writerJobs :
    (r.set i x).writerJobs = r.writerJobs := rfl
@[simp] theorem set_created : (r.set i x).created = r.created := rfl
@[simp] theorem set_opener : (r.set i x).opener = r.opener := rfl

@[simp] theorem write_session : (r.write ps).session = r.session := rfl
@[simp] theorem write_sessions : (r.write ps).sessions = r.sessions := rfl
@[simp] theorem write_socketJobs :
    (r.write ps).socketJobs = r.socketJobs := rfl
@[simp] theorem write_writerJobs :
    (r.write ps).writerJobs = r.writerJobs := rfl
@[simp] theorem write_created : (r.write ps).created = r.created := rfl
@[simp] theorem write_opener : (r.write ps).opener = r.opener := rfl

theorem setPhase_opener (o o' : Nat) (phase : OpenerPhase) :
    (r.setPhase o phase).opener o' =
      if o' = o then { r.opener o with phase } else r.opener o' := by
  simp [setPhase, Function.update_apply]

end TcpRelay

def TcpSession.torn (reader writer session : Bool) (x : TcpSession) : TcpSession :=
  { x with
    readerCancelled := x.readerCancelled || reader
    writerCancelled := x.writerCancelled || writer
    channelClosed := x.channelClosed || session
    socketClosed := x.socketClosed || session }

namespace TcpRelay

variable (r : TcpRelay) (key : SessionKey)

theorem torn_false (x : TcpSession) : x.torn false false false = x := by
  simp [TcpSession.torn]

theorem cancelReader_eq :
    r.cancelReader key =
      { r with
        socketJobs := r.socketJobs.remove key
        session := fun j =>
          (r.session j).torn (r.socketJobs.get key = some j) false false } := by
  unfold cancelReader
  rcases hl : r.socketJobs.get key with _ | i
  · simp [torn_false, SessionMap.remove_of_get_none hl]
  · simp only [set, TcpRelay.mk.injEq, true_and, and_true]
    funext j
    by_cases hj : j = i
    · simp [hj, TcpSession.torn]
    · simp [hj, Ne.symm hj, torn_false]

theorem cancelWriter_eq :
    r.cancelWriter key =
      { r with
        writerJobs := r.writerJobs.remove key
        session := fun j =>
          (r.session j).torn false (r.writerJobs.get key = some j) false } := by
  unfold cancelWriter
  rcases hl : r.writerJobs.get key with _ | i
  · simp [torn_false, SessionMap.remove_of_get_none hl]
  · simp only [set, TcpRelay.mk.injEq, true_and, and_true]
    funext j
    by_cases hj : j = i
    · simp [hj, TcpSession.torn]
    · simp [hj, Ne.symm hj, torn_false]

theorem removeSession_eq :
    r.removeSession key =
      { r with
        sessions := r.sessions.remove key
        session := fun j =>
          (r.session j).torn false false (r.sessions.get key = some j) } := by
  unfold removeSession
  rcases hl : r.sessions.get key with _ | i
  · simp [torn_false, SessionMap.remove_of_get_none hl]
  · simp only [set, TcpRelay.mk.injEq, true_and, and_true]
    funext j
    by_cases hj : j = i
    · simp [hj, TcpSession.torn]
    · simp [hj, Ne.symm hj, torn_false]

/-- **`closeSession` in one equation**: it cancels the jobs and closes the
session that its key leads to, whichever instances they are. -/
theorem closeSession_eq :
    r.closeSession key =
      { r with
        sessions := r.sessions.remove key
        socketJobs := r.socketJobs.remove key
        writerJobs := r.writerJobs.remove key
        session := fun j =>
          (r.session j).torn (r.socketJobs.get key = some j) (r.writerJobs.get key = some j)
            (r.sessions.get key = some j) } := by
  simp [closeSession, cancelReader_eq, cancelWriter_eq, removeSession_eq, TcpSession.torn]

@[simp] theorem closeSession_opener : (r.closeSession key).opener = r.opener := by
  rw [closeSession_eq]

@[simp] theorem closeSession_created : (r.closeSession key).created = r.created := by
  rw [closeSession_eq]

theorem evicts_cases (o : Nat) (victim : SessionKey) :
    r.openerStep o (.evicts victim) = r ∨
      (r.opener o).phase = .launched ∧
        (r.openerStep o (.evicts victim) = r.setPhase o .connecting ∨
          ∃ i, r.sessions.get victim = some i ∧
            r.openerStep o (.evicts victim) =
              ((r.sendRst i).closeSession victim).setPhase o .connecting) := by
  simp only [openerStep]
  split_ifs with hphase
  · unfold evictLruSessionIfAtCapacity
    split_ifs
    · exact .inr ⟨hphase, .inl rfl⟩
    · rcases hl : r.sessions.get victim with _ | i
      · exact .inl rfl
      · by_cases hleast : r.isLeastRecent i = true
        · exact .inr ⟨hphase, .inr ⟨i, rfl, by simp [hleast]⟩⟩
        · exact .inl (by simp [hleast])
  · exact .inl rfl

/-! ## A rule for the steps that open nothing -/

/-- `Q` is kept by the operations that the steps other than an opener's are
made of. -/
structure KeptByTraffic (Q : TcpRelay → Prop) : Prop where
  set : ∀ r i y, TcpSession.SameLife (r.session i) y → TcpSession.Stays (r.session i) y →
    Q r → Q (r.set i y)
  -- a coroutine's last turn and its `finally`
  exit : ∀ r i y packets, TcpSession.SameLife (r.session i) y → Q r →
    Q (((r.set i y).write packets).closeSession (r.session i).key)
  write : ∀ r packets, Q r → Q (r.write packets)
  closeSession : ∀ r key, Q r → Q (r.closeSession key)
  endAll : ∀ r closeChannels, Q r → Q (r.endAll closeChannels)
  openSession : ∀ r p, Q r → Q (r.openSession p)
  -- `Q` is not about the engine's settings
  settings : ∀ r mode reaperTun reaperRuns, Q r →
    Q { r with upstreamMode := mode, reaperTun := reaperTun, reaperRuns := reaperRuns }

structure KeptByOperations (Q : TcpRelay → Prop) : Prop extends KeptByTraffic Q where
  connecting : ∀ r o, (r.opener o).phase = .launched → Q r → Q (r.setPhase o .connecting)

namespace KeptByTraffic

variable {Q : TcpRelay → Prop} (hQ : KeptByTraffic Q) {r : TcpRelay} (h : Q r)

include hQ h

theorem handleSegment (now : Int) (p : ClientPacket) (i : Nat) : Q (r.handleSegment now p i) := by
  have hset : ∀ r' y, TcpSession.SameLife (r'.session i) y → y.reader = (r'.session i).reader →
      y.writer = (r'.session i).writer → Q r' → Q (r'.set i y) := by
    intro r' y hlife hreader hwriter h'
    exact hQ.set r' i y hlife (TcpSession.stays_of_eq hreader hwriter) h'
  have hheard : Q (r.set i ((r.session i).heardFrom now p)) :=
    hset r _ ((r.session i).heardFrom_sameLife now p) rfl rfl h
  have hdata : ∀ r', Q r' → Q (r'.forwardDataToSocket p i) := by
    intro r' h'
    unfold TcpRelay.forwardDataToSocket
    split_ifs
    · exact hQ.closeSession r' p.key h'
    · exact hset r' _ ((r'.session i).enqueue_sameLife p) rfl rfl h'
  have hfin : ∀ r', Q r' → Q (r'.handleFin p i) := by
    intro r' h'
    exact hQ.write _ _ (hset r' _ ((r'.session i).finished_sameLife p) rfl rfl h')
  unfold TcpRelay.handleSegment
  dsimp only
  split_ifs
  · exact hfin _ (hdata _ hheard)
  · exact hfin _ hheard
  · exact hdata _ hheard
  · exact hheard

theorem forwardTcpPacket (now : Int) (p : ClientPacket) : Q (r.forwardTcpPacket now p) := by
  unfold TcpRelay.forwardTcpPacket
  split
  · exact hQ.closeSession r p.key h
  · split
    · split
      · exact hQ.openSession r p h
      · exact h
    · exact hQ.handleSegment h now p _

theorem coroutineStep {i : Nat} {turn : Turn} (hspec : TcpSession.TurnSpec (r.session i) turn) :
    Q (r.coroutineStep i turn) := by
  unfold TcpRelay.coroutineStep
  split_ifs with hexit
  · exact hQ.exit r i turn.session turn.packets hspec.life h
  · have hstays := hspec.stays (by simpa using hexit)
    exact hQ.write _ _ (hQ.set r i turn.session hspec.life hstays h)

theorem resetIf (notify : Bool) (cond : TcpSession → Bool) (key : SessionKey) :
    Q (r.resetIf notify cond key) := by
  unfold TcpRelay.resetIf
  split
  · exact h
  · split_ifs
    · exact hQ.closeSession _ key (hQ.write _ _ h)
    · exact hQ.closeSession r key h
    · exact h

theorem step {e : RelayEvent} (hopener : ∀ o e', e ≠ .opener o e') : Q (r.step e) := by
  cases e with
  | packet now p => exact hQ.forwardTcpPacket h now p
  | opener o e' => exact absurd rfl (hopener o e')
  | reader i e' => exact hQ.coroutineStep h ((r.session i).listenForTcpResponses_spec e')
  | writer i e' => exact hQ.coroutineStep h ((r.session i).runSocketWriter_spec e')
  | reap now key =>
    simp only [TcpRelay.step, reap]
    split_ifs
    · exact hQ.resetIf h _ _ key
    · exact h
  | networkLost deadNetwork key =>
    simp only [TcpRelay.step, handleNetworkLost]
    exact hQ.resetIf h _ _ key
  | setTunOutputStream present => exact hQ.settings r r.upstreamMode present r.reaperRuns h
  | setUpstreamMode mode =>
    simp only [TcpRelay.step, setUpstreamMode]
    split_ifs
    · exact h
    · exact hQ.settings _ mode r.reaperTun r.reaperRuns (hQ.endAll r false h)
  | clear => exact hQ.settings _ r.upstreamMode r.reaperTun false (hQ.endAll r true h)

end KeptByTraffic

namespace KeptByOperations

variable {Q : TcpRelay → Prop} (hQ : KeptByOperations Q) {r : TcpRelay} (h : Q r)

include hQ h

theorem evicts (o : Nat) (victim : SessionKey) : Q (r.openerStep o (.evicts victim)) := by
  rcases evicts_cases r o victim with heq | ⟨hphase, heq | ⟨i, -, heq⟩⟩ <;> rw [heq]
  · exact h
  · exact hQ.connecting r o hphase h
  · have hclosed : Q ((r.sendRst i).closeSession victim) :=
      hQ.closeSession _ victim (hQ.write _ _ h)
    exact hQ.connecting _ o (by simpa [sendRst] using hphase) hclosed

theorem step (e : RelayEvent)
    (hopener : ∀ o e', e = .opener o e' → (∀ victim, e' ≠ .evicts victim) →
      Q (r.openerStep o e')) :
    Q (r.step e) := by
  by_cases hany : ∃ o e', e = .opener o e'
  · obtain ⟨o, e', rfl⟩ := hany
    by_cases hevicts : ∃ victim, e' = .evicts victim
    · obtain ⟨victim, rfl⟩ := hevicts
      exact hQ.evicts h o victim
    · exact hopener o e' rfl (fun victim heq => hevicts ⟨victim, heq⟩)
  · exact hQ.toKeptByTraffic.step h (fun o e' heq => hany ⟨o, e', heq⟩)

end KeptByOperations

theorem keptByOperations_of_sameLife {Q : TcpRelay → Prop}
    (hset : ∀ r i y, TcpSession.SameLife (r.session i) y → Q r → Q (r.set i y))
    (hwrite : ∀ r packets, Q r → Q (r.write packets))
    (hclose : ∀ r key, Q r → Q (r.closeSession key))
    (hend : ∀ r closeChannels, Q r → Q (r.endAll closeChannels))
    (hopen : ∀ r p, Q r → Q (r.openSession p))
    (hphase : ∀ r o, Q r → Q (r.setPhase o .connecting))
    (hsettings : ∀ r mode reaperTun reaperRuns, Q r →
      Q { r with upstreamMode := mode, reaperTun := reaperTun, reaperRuns := reaperRuns }) :
    KeptByOperations Q where
  set := fun r i y hlife _ h => hset r i y hlife h
  exit := fun r i y packets hlife h => hclose _ _ (hwrite _ packets (hset r i y hlife h))
  write := hwrite
  closeSession := hclose
  endAll := hend
  openSession := hopen
  connecting := fun r o _ h => hphase r o h
  settings := hsettings

end TcpRelay

end BigRocket.Relay
