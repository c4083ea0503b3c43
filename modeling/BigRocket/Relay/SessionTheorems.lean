/-
Which upstream sockets are open, and whom the end of a coroutine touches: its
`finally` ends what the maps hold at the flow's key THEN.
-/
import BigRocket.Relay.ConsistencyTheorems

namespace BigRocket.Relay

open Lib

namespace TcpRelay

variable {r : TcpRelay}

/-! ## One open socket per flow -/

/-- At most one upstream socket of a flow is open, and it is the one that
`sessions` holds. -/
structure OneSocketPerKey (r : TcpRelay) : Prop where
  unique : ∀ i j, (r.session i).socketClosed = false → (r.session j).socketClosed = false →
    (r.session i).key = (r.session j).key → i = j
  stored : ∀ i, (r.session i).socketClosed = false → r.sessions.get (r.session i).key = some i

def StoredOpen (r : TcpRelay) : Prop :=
  ∀ i, (r.session i).socketClosed = false → r.sessions.get (r.session i).key = some i

theorem oneSocketPerKey_iff_storedOpen : OneSocketPerKey r ↔ StoredOpen r := by
  constructor
  · intro h
    exact h.stored
  · intro h
    refine ⟨?_, h⟩
    intro i j hi hj hkey
    have hlookup := h i hi
    rw [hkey, h j hj] at hlookup
    exact (Option.some.inj hlookup).symm

theorem storedOpen_keptByOperations : KeptByOperations StoredOpen := by
  refine keptByOperations_of_sameLife ?_ (fun _ _ h => h) ?_ ?_ (fun _ _ h => h) (fun _ _ h => h)
    (fun _ _ _ _ h => h)
  · intro r i y hlife h j
    rw [set_session]
    split_ifs with hj
    · subst hj
      rw [hlife.key, hlife.socketClosed]
      exact h j
    · exact h j
  · intro r key h j
    rw [closeSession_eq]
    simp only [TcpSession.torn, Bool.or_eq_false_iff, decide_eq_false_iff_not, SessionMap.get_remove]
    intro hboth
    obtain ⟨hopen, hother⟩ := hboth
    have hkey : (r.session j).key ≠ key := by
      rintro rfl
      exact hother (h j hopen)
    rw [if_neg hkey]
    exact h j hopen
  · -- what was open was stored, and that is closed now
    intro r closeChannels h j hopen
    simp only [endAll, Bool.or_eq_false_iff] at hopen
    have hholds := (SessionMap.holds_iff r.sessions j).mpr ⟨_, h j hopen.1⟩
    simp [hopen.2] at hholds

/-- What an opener must find in `sessions` so that no socket is left behind. -/
def NoRival (r : TcpRelay) : RelayEvent → Prop
  | .opener o (.connects _ _) | .opener o .connectFails =>
    (r.opener o).phase = .connecting → r.sessions.get (r.opener o).key = none
  | .opener o .synAckFails =>
    match (r.opener o).phase with
    | .stored i _ =>
      r.sessions.get (r.opener o).key = none ∨ r.sessions.get (r.opener o).key = some i
    | _ => True
  | _ => True

theorem connects_storedOpen_iff (hc : Settled r) (h : StoredOpen r) (o : Nat)
    (now : Int) (serverIsn : Fin 0xFFFFFFF) :
    StoredOpen (r.openerStep o (.connects now serverIsn)) ↔
      NoRival r (.opener o (.connects now serverIsn)) := by
  by_cases hphase : (r.opener o).phase = .connecting
  · simp only [StoredOpen, NoRival, connects_session hphase, connects_sessions hphase, hphase,
      true_imp_iff]
    constructor
    · intro hafter
      rcases hl : r.sessions.get (r.opener o).key with _ | j
      · rfl
      -- the session stored there before is still open and no longer found
      obtain ⟨hlt, hkey, hlive⟩ := hc.session _ j hl
      have hne : j ≠ r.created := by omega
      have hstored := hafter j
      simp only [hne, hkey, if_true, if_false, Option.some.injEq] at hstored
      exact absurd (hstored (hlive trivial).1).symm hne
    · intro hnone j
      by_cases hj : j = r.created
      · simp [hj, newSession]
      · simp only [hj, if_false]
        intro hopen
        have hstored := h j hopen
        have hkey : (r.session j).key ≠ (r.opener o).key := by
          intro hkey
          simp [hkey, hnone] at hstored
        rw [if_neg hkey]
        exact hstored
  · simpa [openerStep, NoRival, hphase] using h

theorem connectFails_storedOpen_iff (hc : Settled r) (h : StoredOpen r)
    (o : Nat) :
    StoredOpen (r.openerStep o .connectFails) ↔ NoRival r (.opener o .connectFails) := by
  simp only [openerStep, NoRival]
  split_ifs with hphase
  · constructor
    · intro hafter _
      rcases hl : r.sessions.get (r.opener o).key with _ | j
      · rfl
      obtain ⟨-, hkey, hlive⟩ := hc.session _ j hl
      have hstored := hafter j (hlive trivial).1
      simp only [openFailed, TcpRelay.setPhase, TcpRelay.write, SessionMap.get_remove] at hstored
      rw [if_pos hkey] at hstored
      cases hstored
    · intro hnone j hopen
      have hstored := h j hopen
      have hkey : (r.session j).key ≠ (r.opener o).key := by
        intro hkey
        simp [hkey, hnone hphase] at hstored
      simp only [openFailed, SessionMap.get_remove]
      exact (if_neg hkey).trans hstored
  · simpa [hphase] using h

theorem synAckFails_storedOpen_iff (hc : Settled r) (h : StoredOpen r)
    (o : Nat) :
    StoredOpen (r.openerStep o .synAckFails) ↔ NoRival r (.opener o .synAckFails) := by
  rcases hphase : (r.opener o).phase with _ | _ | ⟨i, isn⟩ | _
  case stored =>
    simp only [openerStep, NoRival, hphase, openFailed, TcpRelay.setPhase, TcpRelay.set,
      TcpRelay.write, StoredOpen, SessionMap.get_remove]
    constructor
    · intro hafter
      rcases hl : r.sessions.get (r.opener o).key with _ | j
      · exact .inl rfl
      by_cases hj : j = i
      · exact .inr (by rw [hj])
      obtain ⟨-, hkey, hlive⟩ := hc.session _ j hl
      have hstored := hafter j
      rw [Function.update_of_ne hj, if_pos hkey] at hstored
      cases hstored (hlive trivial).1
    · intro hown j
      by_cases hj : j = i
      · simp [hj]
      · rw [Function.update_of_ne hj]
        intro hopen
        have hstored := h j hopen
        have hkey : (r.session j).key ≠ (r.opener o).key := by
          intro hkey
          rw [hkey] at hstored
          rcases hown with hnone | hsome
          · simp [hstored] at hnone
          · simp [hstored, hj] at hsome
        rw [if_neg hkey]
        exact hstored
  -- an opener in any other phase does nothing here
  all_goals simpa [openerStep, NoRival, hphase] using h

theorem launches_storedOpen (h : StoredOpen r) (o : Nat) :
    StoredOpen (r.openerStep o .launches) := by
  simp only [openerStep]
  split
  · intro j
    simp only [TcpRelay.setPhase, set_session]
    split_ifs with hj
    · subst hj
      exact h j
    · exact h j
  · exact h

theorem step_storedOpen_iff (hc : Settled r) (h : StoredOpen r)
    (e : RelayEvent) : StoredOpen (r.step e) ↔ NoRival r e := by
  by_cases hopener : ∃ o e', e = .opener o e' ∧ ∀ victim, e' ≠ .evicts victim
  · obtain ⟨o, e', rfl, hevicts⟩ := hopener
    cases e' with
    | evicts victim => exact absurd rfl (hevicts victim)
    | connects now serverIsn => exact connects_storedOpen_iff hc h o now serverIsn
    | connectFails => exact connectFails_storedOpen_iff hc h o
    | launches =>
      simp only [TcpRelay.step, NoRival, iff_true]
      exact launches_storedOpen h o
    | synAckFails => exact synAckFails_storedOpen_iff hc h o
  · have hkept : StoredOpen (r.step e) := by
      refine storedOpen_keptByOperations.step h e ?_
      intro o e' he hevicts
      exact absurd ⟨o, e', he, hevicts⟩ hopener
    have hany : NoRival r e := by
      rcases e with _ | ⟨o, _ | _ | _ | _ | _⟩ | _ | _ | _ | _ | _ | _ | _ <;>
        first | trivial | simp at hopener
    exact ⟨fun _ => hany, fun _ => hkept⟩

def sampleKey : SessionKey := ⟨.tcp, "10.0.0.2", 40000, "203.0.113.7", 443⟩

def sampleSyn : ClientPacket := ⟨sampleKey, TcpFlag.syn, 1000, 0, 65535, [], 0⟩

def repeatedSyn : List RelayEvent :=
  [.packet 0 sampleSyn, .opener 0 (.evicts sampleKey), .packet 1000 sampleSyn,
    .opener 1 (.evicts sampleKey), .opener 0 (.connects 1500 7), .opener 1 (.connects 1600 9)]

/-- Between the two states nothing happened to an object other than `i`, and
every entry for another object is still in its map. -/
structure Isolated (r : TcpRelay) (i : Nat) (r' : TcpRelay) : Prop where
  objects : ∀ j, j ≠ i → r'.session j = r.session j
  sessions : ∀ k j, j ≠ i → r.sessions.get k = some j → r'.sessions.get k = some j
  socketJobs : ∀ k j, j ≠ i → r.socketJobs.get k = some j → r'.socketJobs.get k = some j
  writerJobs : ∀ k j, j ≠ i → r.writerJobs.get k = some j → r'.writerJobs.get k = some j

def TeardownIsolated (r : TcpRelay) : RelayEvent → Prop
  | .reader i e => Isolated r i (r.step (.reader i e))
  | .writer i e => Isolated r i (r.step (.writer i e))
  | _ => True

def OwnEntries (r : TcpRelay) (i : Nat) : Prop :=
  ∀ j, j ≠ i → r.sessions.get (r.session i).key ≠ some j ∧
    r.socketJobs.get (r.session i).key ≠ some j ∧ r.writerJobs.get (r.session i).key ≠ some j

def EndsOwnEntries (r : TcpRelay) : RelayEvent → Prop
  | .reader i e => ((r.session i).listenForTcpResponses e).exits = true → OwnEntries r i
  | .writer i e => ((r.session i).runSocketWriter e).exits = true → OwnEntries r i
  | _ => True

variable {i : Nat}

/-- A step of a coroutine reaches other sessions only through the maps, and
only when it ends. -/
theorem coroutineStep_isolated_iff {turn : Turn} :
    Isolated r i (r.coroutineStep i turn) ↔ (turn.exits = true → OwnEntries r i) := by
  unfold coroutineStep
  split_ifs with hexit
  · rw [closeSession_eq]
    simp only [hexit, true_imp_iff]
    constructor
    · intro h j hj
      refine ⟨?_, ?_, ?_⟩
      · intro hget
        have hkept := h.sessions _ j hj hget
        simp [SessionMap.get_remove] at hkept
      · intro hget
        have hkept := h.socketJobs _ j hj hget
        simp [SessionMap.get_remove] at hkept
      · intro hget
        have hkept := h.writerJobs _ j hj hget
        simp [SessionMap.get_remove] at hkept
    · intro hown
      refine ⟨?_, ?_, ?_, ?_⟩
      · intro j hj
        obtain ⟨h1, h2, h3⟩ := hown j hj
        simp [set_session, hj, h1, h2, h3, torn_false]
      · intro k j hj hget
        have hk : k ≠ (r.session i).key := by
          intro hkey
          subst hkey
          exact (hown j hj).1 hget
        simpa [SessionMap.get_remove, hk] using hget
      · intro k j hj hget
        have hk : k ≠ (r.session i).key := by
          intro hkey
          subst hkey
          exact (hown j hj).2.1 hget
        simpa [SessionMap.get_remove, hk] using hget
      · intro k j hj hget
        have hk : k ≠ (r.session i).key := by
          intro hkey
          subst hkey
          exact (hown j hj).2.2 hget
        simpa [SessionMap.get_remove, hk] using hget
  · refine ⟨fun _ h => absurd h hexit, fun _ => ⟨?_, fun _ _ _ h => h, fun _ _ _ h => h,
      fun _ _ _ h => h⟩⟩
    intro j hj
    simp [set_session, hj]

theorem teardownIsolated_iff (e : RelayEvent) : TeardownIsolated r e ↔ EndsOwnEntries r e := by
  cases e with
  | reader i e => exact coroutineStep_isolated_iff
  | writer i e => exact coroutineStep_isolated_iff
  | packet now p => rfl
  | opener o e => rfl
  | reap now key => rfl
  | networkLost deadNetwork key => rfl
  | setTunOutputStream present => rfl
  | setUpstreamMode mode => rfl
  | clear => rfl

/-! ## A key is taken again only after its coroutines have ended -/

/-- Something of the session still runs: its reader, its writer, or the
coroutine that is about to launch them. -/
def Live (r : TcpRelay) (i : Nat) : Prop :=
  r.Opening i ∨ (r.session i).readerRuns = true ∨ (r.session i).writerRuns = true

def LiveUnique (r : TcpRelay) : Prop :=
  ∀ i j, r.Live i → r.Live j → (r.session i).key = (r.session j).key → i = j

theorem LiveUnique.mono {r' : TcpRelay} (h : LiveUnique r)
    (hlive : ∀ i, r'.Live i → r.Live i)
    (hkey : ∀ i, r'.Live i → (r'.session i).key = (r.session i).key) : LiveUnique r' := by
  intro i j hi hj heq
  rw [hkey i hi, hkey j hj] at heq
  exact h i j (hlive i hi) (hlive j hj) heq

theorem liveUnique_keptByOperations : KeptByOperations LiveUnique := by
  refine keptByOperations_of_sameLife ?_ (fun _ _ h => h) ?_ ?_ ?_ ?_ (fun _ _ _ _ h => h)
  · intro r i y hlife h
    refine h.mono ?_ ?_
    · intro j
      simp only [Live, Opening, set_session, set_opener]
      split_ifs with hj
      · subst hj
        exact Or.imp_right (Or.imp hlife.readerRuns hlife.writerRuns)
      · exact id
    · intro j _
      rw [set_session]
      split_ifs with hj
      · rw [hj, hlife.key]
      · rfl
  · intro r key h
    rw [closeSession_eq]
    exact h.mono (fun _ hj => hj) (fun _ _ => rfl)
  · intro r closeChannels h
    exact h.mono (fun _ hj => hj) (fun _ _ => rfl)
  · intro r p h
    refine h.mono ?_ (fun _ _ => rfl)
    intro j
    refine Or.imp_left ?_
    intro hopening
    obtain ⟨o, isn, ho⟩ := hopening
    simp only [TcpRelay.openSession, Function.update_apply] at ho
    split_ifs at ho
    exact ⟨o, isn, ho⟩
  · intro r o h
    refine h.mono ?_ (fun _ _ => rfl)
    intro j
    refine Or.imp_left ?_
    intro hopening
    obtain ⟨o', isn, ho⟩ := hopening
    rw [setPhase_opener] at ho
    split_ifs at ho
    exact ⟨o', isn, ho⟩

def OpenerPhase.holds (i : Nat) : OpenerPhase → Bool
  | .stored j _ => j = i
  | _ => false

def Ended (r : TcpRelay) (i : Nat) : Prop :=
  (r.session i).readerRuns = false ∧ (r.session i).writerRuns = false ∧
    ∀ o < r.opened, OpenerPhase.holds i (r.opener o).phase = false

/-- A session is stored only when every earlier session of its key has ended. -/
def ReopensAfterEnd (r : TcpRelay) : RelayEvent → Prop
  | .opener o (.connects _ _) =>
    (r.opener o).phase = .connecting →
      ∀ i < r.created, (r.session i).key = (r.opener o).key → Ended r i
  | _ => True

instance (i : Nat) : Decidable (Ended r i) := inferInstanceAs (Decidable (_ ∧ _ ∧ _))

instance (e : RelayEvent) : Decidable (ReopensAfterEnd r e) := by
  rcases e with _ | ⟨_, _ | _⟩ | _ | _ | _ | _ | _ | _ | _ <;> simp only [ReopensAfterEnd] <;>
    infer_instance

theorem not_live_of_ended (hc : Settled r) (h : Ended r i) : ¬ r.Live i := by
  obtain ⟨hreader, hwriter, hopeners⟩ := h
  rintro (⟨o, isn, ho⟩ | hruns | hruns)
  · have hlt : o < r.opened := by
      by_contra hge
      have hdone := hc.unopened o (by omega)
      rw [ho] at hdone
      cases hdone
    have hfree := hopeners o hlt
    rw [ho] at hfree
    simp [OpenerPhase.holds] at hfree
  · simp [hreader] at hruns
  · simp [hwriter] at hruns

theorem lt_created_of_live (hc : Settled r) (h : r.Live i) : i < r.created := by
  by_contra hge
  obtain ⟨-, hlaunch⟩ := hc.fresh i (by omega)
  simp only [TcpSession.unlaunched, Bool.and_eq_true, decide_eq_true_eq] at hlaunch
  rcases h with ⟨o, isn, ho⟩ | hruns | hruns
  · exact hge (hc.opener o i isn ho).1
  · simp [TcpSession.readerRuns, ReaderState.runs, hlaunch.1] at hruns
  · simp [TcpSession.writerRuns, WriterState.runs, hlaunch.2] at hruns

theorem live_of_connects {o j : Nat} {now : Int} {serverIsn : Fin 0xFFFFFFF}
    (hphase : (r.opener o).phase = .connecting) (hj : j ≠ r.created)
    (hlive : (r.openerStep o (.connects now serverIsn)).Live j) : r.Live j := by
  simp only [Live, Opening, connects_stored_iff hphase, connects_session hphase, hj,
    if_false] at hlive
  refine hlive.imp_left ?_
  rintro ⟨o', isn, ⟨-, hnew, -⟩ | hold⟩
  · cases hnew
  · exact ⟨o', isn, hold⟩

theorem connects_liveUnique (hc : Settled r) (h : LiveUnique r) {o : Nat}
    {now : Int} {serverIsn : Fin 0xFFFFFFF}
    (hends : ReopensAfterEnd r (.opener o (.connects now serverIsn))) :
    LiveUnique (r.openerStep o (.connects now serverIsn)) := by
  by_cases hphase : (r.opener o).phase = .connecting
  · -- an older session of the new session's key has ended
    have hold : ∀ j, j ≠ r.created → (r.openerStep o (.connects now serverIsn)).Live j →
        (r.session j).key ≠ (r.opener o).key := by
      intro j hj hlive hkey
      have hlive' := live_of_connects hphase hj hlive
      exact not_live_of_ended hc (hends hphase j (lt_created_of_live hc hlive') hkey) hlive'
    intro i j hi hj hkey
    rw [connects_session hphase, connects_session hphase] at hkey
    by_cases hic : i = r.created <;> by_cases hjc : j = r.created
    · rw [hic, hjc]
    · simp only [hic, hjc, if_true, if_false, newSession] at hkey
      exact absurd hkey.symm (hold j hjc hj)
    · simp only [hic, hjc, if_true, if_false, newSession] at hkey
      exact absurd hkey (hold i hic hi)
    · simp only [hic, hjc, if_false] at hkey
      exact h i j (live_of_connects hphase hic hi) (live_of_connects hphase hjc hj) hkey
  · simpa [openerStep, hphase] using h

theorem launches_liveUnique (h : LiveUnique r) (o : Nat) :
    LiveUnique (r.openerStep o .launches) := by
  simp only [openerStep]
  split
  · next i isn hphase =>
      refine h.mono ?_ ?_
      · intro j
        by_cases hj : j = i
        · intro _
          exact .inl ⟨o, isn, hj ▸ hphase⟩
        · simp only [Live, TcpRelay.setPhase, TcpRelay.set, Function.update_of_ne hj]
          refine Or.imp_left ?_
          intro hopening
          obtain ⟨o', isn', ho'⟩ := hopening
          exact ⟨o', isn', ((setPhase_done_stored o o' j isn').mp ho').2⟩
      · intro j _
        simp only [TcpRelay.setPhase, set_session]
        split_ifs with hj
        · rw [hj]
        · rfl
  · exact h

theorem openFailed_liveUnique (h : LiveUnique r) (o : Nat) : LiveUnique (r.openFailed o) := by
  refine h.mono ?_ (fun _ _ => rfl)
  intro j
  refine Or.imp_left ?_
  intro hopening
  obtain ⟨o', isn, ho'⟩ := hopening
  exact ⟨o', isn, ((setPhase_done_stored o o' j isn).mp ho').2⟩

theorem step_liveUnique (hc : Settled r) (h : LiveUnique r) {e : RelayEvent}
    (hends : ReopensAfterEnd r e) : LiveUnique (r.step e) := by
  refine liveUnique_keptByOperations.step h e ?_
  rintro o e' rfl hevicts
  cases e' with
  | evicts victim => exact absurd rfl (hevicts victim)
  | connects now serverIsn => exact connects_liveUnique hc h hends
  | launches => exact launches_liveUnique h o
  | connectFails =>
    simp only [openerStep]
    split_ifs
    · exact openFailed_liveUnique h o
    · exact h
  | synAckFails =>
    simp only [openerStep]
    split
    · next i isn hphase =>
        apply openFailed_liveUnique
        refine h.mono ?_ ?_
        · intro j
          simp only [Live, Opening, set_session, set_opener]
          split_ifs with hj
          · subst hj
            exact id
          · exact id
        · intro j _
          rw [set_session]
          split_ifs with hj
          · rw [hj]
          · rfl
    · exact h

theorem ownEntries_of_liveUnique (hc : Settled r) (h : LiveUnique r)
    (hi : r.Live i) : OwnEntries r i := by
  intro j hj
  refine ⟨?_, ?_, ?_⟩
  · intro hget
    obtain ⟨-, hkey, hlive⟩ := hc.session _ j hget
    have hjlive : r.Live j := (hlive trivial).2.2.imp_right fun hruns => .inl hruns.1
    exact hj (h j i hjlive hi hkey)
  · intro hget
    obtain ⟨-, hkey, -, hlive⟩ := hc.socketJob _ j hget
    exact hj (h j i (.inr (.inl (hlive trivial).1)) hi hkey)
  · intro hget
    obtain ⟨-, hkey, -, hlive⟩ := hc.writerJob _ j hget
    exact hj (h j i (.inr (.inr (hlive trivial).1)) hi hkey)

theorem endsOwnEntries_of_liveUnique (hc : Settled r) (h : LiveUnique r)
    (e : RelayEvent) : EndsOwnEntries r e := by
  cases e with
  | reader i e =>
    intro hexit
    exact ownEntries_of_liveUnique hc h
      (.inr (((r.session i).listenForTcpResponses_spec e).exits hexit))
  | writer i e =>
    intro hexit
    exact ownEntries_of_liveUnique hc h
      (.inr (((r.session i).runSocketWriter_spec e).exits hexit))
  | packet now p => trivial
  | opener o e => trivial
  | reap now key => trivial
  | networkLost deadNetwork key => trivial
  | setTunOutputStream present => trivial
  | setUpstreamMode mode => trivial
  | clear => trivial

/-- **A coroutine's end stays with its own session**, in every run in which a key
is taken again only after all of its earlier session has ended. -/
theorem teardown_stays_with_its_session (events : List RelayEvent) :
    (AlongRun (fun before e => TeardownIsolated (run before) e) events ↔
      AlongRun (fun before e => EndsOwnEntries (run before) e) events) ∧
    (AlongRun (fun before e => ReopensAfterEnd (run before) e) events →
      AlongRun (fun before e => TeardownIsolated (run before) e) events) := by
  simp only [teardownIsolated_iff, true_and]
  refine alongRun_of_invariant (I := fun before => LiveUnique (run before)) ?_ ?_ ?_
  · rintro i j (⟨o, isn, ho⟩ | hruns | hruns)
    · cases ho
    · cases hruns
    · cases hruns
  · intro before e h hends
    rw [run, exec_concat]
    exact step_liveUnique (run_consistent before) h hends
  · intro before e h _
    exact endsOwnEntries_of_liveUnique (run_consistent before) h e

def establish (o i : Nat) (now : Int) : List RelayEvent :=
  [.packet now sampleSyn, .opener o (.evicts sampleKey), .opener o (.connects now 7),
    .opener o .launches, .reader i .starts, .writer i .starts]

example : AlongRun (fun before e => ReopensAfterEnd (run before) e)
    (establish 0 0 0 ++ [.reader 0 .endOfStream, .writer 0 .ends] ++ establish 1 1 100) := by
  decide +kernel

def sampleData : ClientPacket :=
  ⟨sampleKey, TcpFlag.psh ||| TcpFlag.ack, 1001, 8, 65535, [0x47, 0x45, 0x54], 0⟩

/-- The first session's writer hangs in a write when the remote end closes;
the client then opens the same flow again. -/
def reusedKey : List RelayEvent :=
  establish 0 0 0 ++ [.packet 10 sampleData, .writer 0 .takes, .reader 0 .endOfStream] ++
    establish 1 1 100

/-- The first session's writer ends at last, and takes the second session's
socket and reader with it. -/
theorem staleWriter_closes_new_session :
    ((run reusedKey).session 1).socketClosed = false ∧
      (run reusedKey).sessions.get sampleKey = some 1 ∧
      (((run reusedKey).step (.writer 0 .fails)).session 1).socketClosed = true ∧
      (((run reusedKey).step (.writer 0 .fails)).session 1).readerCancelled = true ∧
      ¬ TeardownIsolated (run reusedKey) (.writer 0 .fails) := by
  have hopen : ((run reusedKey).session 1).socketClosed = false := by decide +kernel
  have hclosed : (((run reusedKey).step (.writer 0 .fails)).session 1).socketClosed = true := by
    decide +kernel
  refine ⟨hopen, by decide +kernel, hclosed, by decide +kernel, ?_⟩
  intro h
  have hsame := h.objects 1 (by decide)
  rw [hsame, hopen] at hclosed
  cases hclosed

end TcpRelay

end BigRocket.Relay
