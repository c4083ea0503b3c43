/-
What is true of the relay's maps, its session objects and its openers in every
run.
-/
import BigRocket.Relay.TcpRelayTheorems

namespace BigRocket.Relay

open Function

namespace TcpRelay

variable (r : TcpRelay) (key : SessionKey)

/-! ## What every run keeps -/

def Opening (i : Nat) : Prop := ∃ o serverIsn, (r.opener o).phase = .stored i serverIsn

/-- The numbers not used yet, and the sessions in an opener's hands: each is
one opener's, and nothing of it was launched or cancelled. -/
structure Openers (r : TcpRelay) : Prop where
  fresh : ∀ i, r.created ≤ i →
    (r.session i).socketClosed = true ∧ (r.session i).unlaunched = true
  unopened : ∀ o, r.opened ≤ o → (r.opener o).phase = .done
  opener : ∀ o i serverIsn, (r.opener o).phase = .stored i serverIsn →
    i < r.created ∧ (r.session i).key = (r.opener o).key ∧ (r.session i).unlaunched = true ∧
      (r.session i).readerCancelled = false ∧ (r.session i).writerCancelled = false
  unique : ∀ o o' i isn isn', (r.opener o).phase = .stored i isn →
    (r.opener o').phase = .stored i isn' → o = o'

/-- The maps against the objects; `P` are the keys at which no coroutine is
just ending. -/
structure Consistent (P : SessionKey → Prop) (r : TcpRelay) : Prop extends Openers r where
  session : ∀ k i, r.sessions.get k = some i →
    i < r.created ∧ (r.session i).key = k ∧
      (P k → (r.session i).socketClosed = false ∧ (r.session i).channelClosed = false ∧
        (r.Opening i ∨ (r.session i).readerRuns ∧ (r.session i).readerCancelled = false))
  socketJob : ∀ k i, r.socketJobs.get k = some i →
    i < r.created ∧ (r.session i).key = k ∧ (r.session i).unlaunched = false ∧
      (P k → (r.session i).readerRuns ∧ (r.session i).readerCancelled = false)
  writerJob : ∀ k i, r.writerJobs.get k = some i →
    i < r.created ∧ (r.session i).key = k ∧ (r.session i).unlaunched = false ∧
      (P k → (r.session i).writerRuns ∧ (r.session i).writerCancelled = false)

variable {r key}

/-- No coroutine is just ending. -/
abbrev Settled : TcpRelay → Prop := Consistent (fun _ => True)

theorem create_consistent : Settled create where
  fresh := fun _ _ => ⟨rfl, rfl⟩
  unopened := fun _ _ => rfl
  opener := by intro o i isn h; cases h
  unique := by intro o o' i isn isn' h; cases h
  session := by intro k i h; cases h
  socketJob := by intro k i h; cases h
  writerJob := by intro k i h; cases h

/-! ### A change of one object -/

namespace Openers

variable (h : Openers r)

include h

theorem set {i : Nat} {y : TcpSession} (hlife : TcpSession.SameLife (r.session i) y) :
    Openers (r.set i y) := by
  obtain ⟨hkey, hsocket, -, hrc, hwc, hlaunch, -, -⟩ := hlife
  refine ⟨?_, h.unopened, ?_, h.unique⟩
  · intro j hj
    rw [set_session]
    split_ifs with hji
    · subst hji
      rw [hsocket, hlaunch]
      exact h.fresh j hj
    · exact h.fresh j hj
  · intro o j isn ho
    rw [set_session]
    split_ifs with hji
    · subst hji
      rw [hkey, hlaunch, hrc, hwc]
      exact h.opener o j isn ho
    · exact h.opener o j isn ho

theorem not_done_lt {o : Nat} (hdone : (r.opener o).phase ≠ .done) : o < r.opened := by
  by_contra hge
  exact hdone (h.unopened o (by omega))

theorem ne_of_stored {o o' i j : Nat} {isn isn' : Int} (ho : (r.opener o).phase = .stored i isn)
    (ho' : (r.opener o').phase = .stored j isn') (hne : o' ≠ o) : j ≠ i := by
  intro hji
  subst hji
  exact hne (h.unique o' o j isn' isn ho' ho)

end Openers

namespace Consistent

variable {P : SessionKey → Prop}

theorem mono {Q : SessionKey → Prop} (h : Consistent P r) (hPQ : ∀ k, Q k → P k) :
    Consistent Q r where
  toOpeners := h.toOpeners
  session := fun k i hl =>
    let ⟨h1, h2, h3⟩ := h.session k i hl
    ⟨h1, h2, fun hk => h3 (hPQ k hk)⟩
  socketJob := fun k i hl =>
    let ⟨h1, h2, h3, h4⟩ := h.socketJob k i hl
    ⟨h1, h2, h3, fun hk => h4 (hPQ k hk)⟩
  writerJob := fun k i hl =>
    let ⟨h1, h2, h3, h4⟩ := h.writerJob k i hl
    ⟨h1, h2, h3, fun hk => h4 (hPQ k hk)⟩

theorem write (h : Consistent P r) (packets : List TunPacket) : Consistent P (r.write packets) :=
  ⟨⟨h.fresh, h.unopened, h.opener, h.unique⟩, h.session, h.socketJob, h.writerJob⟩

theorem set (h : Consistent P r) {i : Nat} {y : TcpSession}
    (hlife : TcpSession.SameLife (r.session i) y)
    (hstays : P y.key → TcpSession.Stays (r.session i) y) : Consistent P (r.set i y) := by
  refine ⟨h.toOpeners.set hlife, ?_, ?_, ?_⟩ <;> intro k j hl
  · obtain ⟨hlt, hk, hlive⟩ := h.session k j hl
    rw [set_session]
    split_ifs with hji
    · subst hji
      rw [hlife.key, hlife.socketClosed, hlife.channelClosed, hlife.readerCancelled]
      refine ⟨hlt, hk, fun hP => ?_⟩
      obtain ⟨hsocket, hchannel, hruns⟩ := hlive hP
      refine ⟨hsocket, hchannel, hruns.imp_right fun ⟨hruns, hcancel⟩ => ?_⟩
      exact ⟨(hstays (by rwa [hlife.key, hk])).reader hruns hcancel, hcancel⟩
    · exact ⟨hlt, hk, hlive⟩
  · obtain ⟨hlt, hk, hun, hlive⟩ := h.socketJob k j hl
    rw [set_session]
    split_ifs with hji
    · subst hji
      rw [hlife.key, hlife.unlaunched, hlife.readerCancelled]
      refine ⟨hlt, hk, hun, fun hP => ?_⟩
      obtain ⟨hruns, hcancel⟩ := hlive hP
      exact ⟨(hstays (by rwa [hlife.key, hk])).reader hruns hcancel, hcancel⟩
    · exact ⟨hlt, hk, hun, hlive⟩
  · obtain ⟨hlt, hk, hun, hlive⟩ := h.writerJob k j hl
    rw [set_session]
    split_ifs with hji
    · subst hji
      rw [hlife.key, hlife.unlaunched, hlife.writerCancelled]
      refine ⟨hlt, hk, hun, fun hP => ?_⟩
      obtain ⟨hruns, hcancel⟩ := hlive hP
      exact ⟨(hstays (by rwa [hlife.key, hk])).writer hruns hcancel, hcancel⟩
    · exact ⟨hlt, hk, hun, hlive⟩

/-! ### The end of a session -/

theorem closeSession_session_of_ne (h : Consistent P r) {i : Nat} (hkey : (r.session i).key ≠ key) :
    (r.closeSession key).session i = r.session i := by
  have hsession : r.sessions.get key ≠ some i := fun hl => hkey (h.session key i hl).2.1
  have hreader : r.socketJobs.get key ≠ some i := fun hl => hkey (h.socketJob key i hl).2.1
  have hwriter : r.writerJobs.get key ≠ some i := fun hl => hkey (h.writerJob key i hl).2.1
  rw [closeSession_eq]
  simp [hsession, hreader, hwriter, torn_false]

theorem closeSession_openers (h : Consistent P r) : Openers (r.closeSession key) := by
  rw [closeSession_eq]
  refine ⟨?_, h.unopened, ?_, h.unique⟩
  · intro i hi
    obtain ⟨hsocket, hlaunch⟩ := h.fresh i hi
    exact ⟨by simp [TcpSession.torn, hsocket], hlaunch⟩
  · intro o i isn ho
    obtain ⟨hlt, hk, hun, hrc, hwc⟩ := h.opener o i isn ho
    -- a registered job was launched, and this session's jobs were not
    have hreader : r.socketJobs.get key ≠ some i := by
      intro hl
      simp [(h.socketJob key i hl).2.2.1] at hun
    have hwriter : r.writerJobs.get key ≠ some i := by
      intro hl
      simp [(h.writerJob key i hl).2.2.1] at hun
    exact ⟨hlt, hk, hun, by simp [TcpSession.torn, hrc, hreader],
      by simp [TcpSession.torn, hwc, hwriter]⟩

theorem closeSession (h : Consistent (· ≠ key) r) :
    Settled (r.closeSession key) := by
  have hmaps : ∀ (m : SessionMap) (k : SessionKey) (i : Nat), (m.remove key).get k = some i →
      k ≠ key ∧ m.get k = some i := by
    intro m k i hl
    rw [SessionMap.get_remove] at hl
    split_ifs at hl with hk
    exact ⟨hk, hl⟩
  refine ⟨h.closeSession_openers, ?_, ?_, ?_⟩ <;> intro k i hl
  · obtain ⟨hk, hl⟩ := hmaps r.sessions k i (by rwa [closeSession_eq] at hl)
    obtain ⟨hlt, hkey, hlive⟩ := h.session k i hl
    rw [h.closeSession_session_of_ne (hkey.trans_ne hk)]
    simp only [Opening, closeSession_opener, closeSession_created]
    exact ⟨hlt, hkey, fun _ => hlive hk⟩
  · obtain ⟨hk, hl⟩ := hmaps r.socketJobs k i (by rwa [closeSession_eq] at hl)
    obtain ⟨hlt, hkey, hun, hlive⟩ := h.socketJob k i hl
    rw [h.closeSession_session_of_ne (hkey.trans_ne hk), closeSession_created]
    exact ⟨hlt, hkey, hun, fun _ => hlive hk⟩
  · obtain ⟨hk, hl⟩ := hmaps r.writerJobs k i (by rwa [closeSession_eq] at hl)
    obtain ⟨hlt, hkey, hun, hlive⟩ := h.writerJob k i hl
    rw [h.closeSession_session_of_ne (hkey.trans_ne hk), closeSession_created]
    exact ⟨hlt, hkey, hun, fun _ => hlive hk⟩

theorem endAll (h : Consistent P r) (closeChannels : Bool) :
    Settled (r.endAll closeChannels) := by
  refine ⟨⟨?_, h.unopened, ?_, h.unique⟩, ?_, ?_, ?_⟩
  · intro i hi
    obtain ⟨hsocket, hlaunch⟩ := h.fresh i hi
    exact ⟨by simp [TcpRelay.endAll, hsocket], hlaunch⟩
  · intro o i isn ho
    obtain ⟨hlt, hk, hun, hrc, hwc⟩ := h.opener o i isn ho
    have hreader : r.socketJobs.holds i = false := by
      by_contra hholds
      obtain ⟨k, hl⟩ := (SessionMap.holds_iff _ _).mp (by simpa using hholds)
      simp [(h.socketJob k i hl).2.2.1] at hun
    have hwriter : r.writerJobs.holds i = false := by
      by_contra hholds
      obtain ⟨k, hl⟩ := (SessionMap.holds_iff _ _).mp (by simpa using hholds)
      simp [(h.writerJob k i hl).2.2.1] at hun
    exact ⟨hlt, hk, hun, by simp [TcpRelay.endAll, hrc, hreader],
      by simp [TcpRelay.endAll, hwc, hwriter]⟩
  · intro k i hl
    cases hl
  · intro k i hl
    cases hl
  · intro k i hl
    cases hl

/-! ### Openers -/

theorem withOpener (h : Settled r) {o n : Nat} {q : Opener}
    (hn : r.opened ≤ n) (ho : o < n) (hbefore : ∀ i isn, (r.opener o).phase ≠ .stored i isn)
    (hafter : ∀ i isn, q.phase ≠ .stored i isn) :
    Settled { r with opener := update r.opener o q, opened := n } := by
  have hphase : ∀ o' i isn, (update r.opener o q o').phase = .stored i isn ↔
      (r.opener o').phase = .stored i isn := by
    intro o' i isn
    rw [update_apply]
    split_ifs with ho'
    · simp [ho', hbefore i isn, hafter i isn]
    · rfl
  refine ⟨⟨h.fresh, ?_, ?_, ?_⟩, ?_, h.socketJob, h.writerJob⟩
  · intro o' (ho' : n ≤ o')
    have hne : o' ≠ o := by omega
    simpa [hne] using h.unopened o' (by omega)
  · intro o' i isn ho'
    have hold := (hphase o' i isn).mp ho'
    have hne : o' ≠ o := by
      intro heq
      exact hbefore i isn (heq ▸ hold)
    simpa [hne] using h.opener o' i isn hold
  · intro o1 o2 i isn isn' h1 h2
    exact h.unique o1 o2 i isn isn' ((hphase _ _ _).mp h1) ((hphase _ _ _).mp h2)
  · intro k i hl
    simp only [Opening, hphase]
    exact h.session k i hl

theorem setPhase (h : Settled r) {o : Nat} {phase : OpenerPhase}
    (hdone : (r.opener o).phase ≠ .done) (hbefore : ∀ i isn, (r.opener o).phase ≠ .stored i isn)
    (hafter : ∀ i isn, phase ≠ .stored i isn) :
    Settled (r.setPhase o phase) :=
  h.withOpener le_rfl (h.not_done_lt hdone) hbefore hafter

theorem keptByOperations : KeptByOperations Settled where
  set := fun r i y hlife hstays h => h.set hlife (fun _ => hstays)
  exit := by
    intro r i y packets hlife h
    -- the ending coroutine breaks `Consistent` at its own key only
    have hoff : Consistent (· ≠ (r.session i).key) r := h.mono fun _ _ => trivial
    exact ((hoff.set hlife fun hk => absurd hlife.key hk).write packets).closeSession
  write := fun r packets h => h.write packets
  closeSession := fun r key h => (h.mono fun _ _ => trivial).closeSession
  endAll := fun r closeChannels h => h.endAll closeChannels
  openSession := by
    intro r p h
    have hdone := h.unopened r.opened le_rfl
    exact h.withOpener (by omega) (by omega) (by simp [hdone]) (by simp)
  connecting := by
    intro r o hphase h
    exact h.setPhase (by simp [hphase]) (by simp [hphase]) (by simp)
  settings := fun r _ _ _ h =>
    ⟨⟨h.fresh, h.unopened, h.opener, h.unique⟩, h.session, h.socketJob, h.writerJob⟩

end Consistent

/-! ### A connect that returns -/

section Connects

variable {o : Nat} {now : Int} {serverIsn : Fin 0xFFFFFFF}

theorem connects_session (hphase : (r.opener o).phase = .connecting) (j : Nat) :
    (r.openerStep o (.connects now serverIsn)).session j =
      if j = r.created then newSession now serverIsn.val (r.opener o) else r.session j := by
  simp [openerStep, hphase, setPhase, set_session]

theorem connects_sessions (hphase : (r.opener o).phase = .connecting) (k : SessionKey) :
    (r.openerStep o (.connects now serverIsn)).sessions.get k =
      if k = (r.opener o).key then some r.created else r.sessions.get k := by
  simp [openerStep, hphase, SessionMap.get_put]

theorem connects_opener (hphase : (r.opener o).phase = .connecting) (o' : Nat) :
    (r.openerStep o (.connects now serverIsn)).opener o' =
      if o' = o then { r.opener o with phase := .stored r.created serverIsn.val }
      else r.opener o' := by
  simp [openerStep, hphase, setPhase, update_apply]

theorem connects_rest (hphase : (r.opener o).phase = .connecting) :
    (r.openerStep o (.connects now serverIsn)).created = r.created + 1 ∧
      (r.openerStep o (.connects now serverIsn)).opened = r.opened ∧
      (r.openerStep o (.connects now serverIsn)).socketJobs = r.socketJobs ∧
      (r.openerStep o (.connects now serverIsn)).writerJobs = r.writerJobs := by
  simp [openerStep, hphase, setPhase, set]

theorem connects_stored_iff (hphase : (r.opener o).phase = .connecting) (o' i : Nat) (isn : Int) :
    ((r.openerStep o (.connects now serverIsn)).opener o').phase = .stored i isn ↔
      o' = o ∧ i = r.created ∧ isn = serverIsn.val ∨ (r.opener o').phase = .stored i isn := by
  rw [connects_opener hphase]
  split_ifs with ho
  · simp [ho, hphase, eq_comm]
  · simp [ho]

theorem Openers.connects (h : Openers r) (hphase : (r.opener o).phase = .connecting) :
    Openers (r.openerStep o (.connects now serverIsn)) := by
  obtain ⟨hcreated, hopened, -, -⟩ := connects_rest (r := r) (o := o) hphase
  refine ⟨?_, ?_, ?_, ?_⟩
  · intro i hi
    rw [hcreated] at hi
    rw [connects_session hphase, if_neg (by omega)]
    exact h.fresh i (by omega)
  · intro o' ho'
    rw [hopened] at ho'
    have hne : o' ≠ o := by
      intro heq
      simp [← heq, h.unopened o' ho'] at hphase
    rw [connects_opener hphase, if_neg hne]
    exact h.unopened o' ho'
  · intro o' i isn ho'
    rw [connects_session hphase, connects_opener hphase, hcreated]
    rcases (connects_stored_iff hphase o' i isn).mp ho' with ⟨rfl, rfl, -⟩ | hold
    · simp [newSession, TcpSession.unlaunched]
    · obtain ⟨hlt, hrest⟩ := h.opener o' i isn hold
      have hne : o' ≠ o := by
        intro heq
        simp [← heq, hold] at hphase
      rw [if_neg (by omega), if_neg hne]
      exact ⟨by omega, hrest⟩
  · intro o1 o2 i isn isn' h1 h2
    rcases (connects_stored_iff hphase o1 i isn).mp h1 with ⟨rfl, rfl, -⟩ | hold1 <;>
      rcases (connects_stored_iff hphase o2 _ isn').mp h2 with ⟨rfl, hnew, -⟩ | hold2
    · rfl
    · have := (h.opener o2 _ isn' hold2).1
      omega
    · have := (h.opener o1 i isn hold1).1
      omega
    · exact h.unique o1 o2 i isn isn' hold1 hold2

theorem Consistent.connects (h : Settled r)
    (hphase : (r.opener o).phase = .connecting) :
    Settled (r.openerStep o (.connects now serverIsn)) := by
  obtain ⟨hcreated, -, hreaders, hwriters⟩ := connects_rest (r := r) (o := o) hphase
  refine ⟨h.toOpeners.connects hphase, ?_, ?_, ?_⟩ <;> intro k i hl
  · rw [connects_sessions hphase] at hl
    rw [connects_session hphase, hcreated]
    simp only [Opening, connects_stored_iff hphase]
    split_ifs at hl with hk
    · cases hl
      simp only [if_true]
      exact ⟨by omega, hk.symm, fun _ => ⟨rfl, rfl, .inl ⟨o, serverIsn.val, by simp⟩⟩⟩
    · obtain ⟨hlt, hkey, hlive⟩ := h.session k i hl
      rw [if_neg (by omega)]
      refine ⟨by omega, hkey, fun _ => ?_⟩
      obtain ⟨hsocket, hchannel, hruns⟩ := hlive trivial
      refine ⟨hsocket, hchannel, hruns.imp_left fun ⟨o', isn, ho'⟩ => ?_⟩
      exact ⟨o', isn, .inr ho'⟩
  · rw [hreaders] at hl
    obtain ⟨hlt, hrest⟩ := h.socketJob k i hl
    rw [connects_session hphase, hcreated, if_neg (by omega)]
    exact ⟨by omega, hrest⟩
  · rw [hwriters] at hl
    obtain ⟨hlt, hrest⟩ := h.writerJob k i hl
    rw [connects_session hphase, hcreated, if_neg (by omega)]
    exact ⟨by omega, hrest⟩

end Connects

/-! ### An opener that lets go of its session -/

theorem setPhase_done_stored (o o' i : Nat) (isn : Int) :
    ((r.setPhase o .done).opener o').phase = .stored i isn ↔
      o' ≠ o ∧ (r.opener o').phase = .stored i isn := by
  rw [setPhase_opener]
  split_ifs with ho
  · simp [ho]
  · simp [ho]

section LetsGo

variable {o i : Nat} {isn : Int} (hphase : (r.opener o).phase = .stored i isn) {y : TcpSession}

include hphase

theorem Openers.letsGo (h : Openers r) : Openers ((r.set i y).setPhase o .done) := by
  have hi := (h.opener o i isn hphase).1
  refine ⟨?_, ?_, ?_, ?_⟩
  · intro j (hj : r.created ≤ j)
    have hne : j ≠ i := by omega
    simpa [TcpRelay.setPhase, TcpRelay.set, hne] using h.fresh j hj
  · intro o' (ho' : r.opened ≤ o')
    have hne : o' ≠ o := by
      intro heq
      simp [← heq, h.unopened o' ho'] at hphase
    simpa [TcpRelay.setPhase, hne] using h.unopened o' ho'
  · intro o' j isn' ho'
    obtain ⟨hne, hold⟩ := (setPhase_done_stored o o' j isn').mp ho'
    have hj : j ≠ i := h.ne_of_stored hphase hold hne
    simpa [TcpRelay.setPhase, TcpRelay.set, hne, hj] using h.opener o' j isn' hold
  · intro o1 o2 j isn1 isn2 h1 h2
    obtain ⟨-, hold1⟩ := (setPhase_done_stored o o1 j isn1).mp h1
    obtain ⟨-, hold2⟩ := (setPhase_done_stored o o2 j isn2).mp h2
    exact h.unique o1 o2 j isn1 isn2 hold1 hold2

theorem opening_letsGo {j : Nat} (hj : j ≠ i) (hopening : r.Opening j) :
    ((r.set i y).setPhase o .done).Opening j := by
  obtain ⟨o', isn', ho'⟩ := hopening
  refine ⟨o', isn', (setPhase_done_stored o o' j isn').mpr ⟨?_, ho'⟩⟩
  intro heq
  simp only [heq, hphase, OpenerPhase.stored.injEq] at ho'
  exact hj ho'.1.symm

theorem Consistent.ne_of_job (h : Settled r) {k : SessionKey} {j : Nat}
    (hl : r.socketJobs.get k = some j ∨ r.writerJobs.get k = some j) : j ≠ i := by
  intro hji
  have hun := (h.opener o i isn hphase).2.2.1
  rcases hl with hl | hl
  · simp [← hji, (h.socketJob k j hl).2.2.1] at hun
  · simp [← hji, (h.writerJob k j hl).2.2.1] at hun

end LetsGo

namespace Consistent

variable (h : Settled r) (o : Nat)

include h

theorem launches : Settled (r.openerStep o .launches) := by
  simp only [openerStep]
  split
  · next i isn hphase =>
      obtain ⟨hi, hikey, hun, hrc, hwc⟩ := h.opener o i isn hphase
      obtain ⟨hfresh, hunopened, hopener, hunique⟩ := Openers.letsGo hphase
        (y := { r.session i with reader := .launched, writer := .launched }) h.toOpeners
      refine ⟨⟨hfresh, hunopened, hopener, hunique⟩, ?_, ?_, ?_⟩ <;> intro k j hl
      · obtain ⟨hlt, hkey, hlive⟩ := h.session k j hl
        obtain ⟨hsocket, hchannel, hruns⟩ := hlive trivial
        by_cases hj : j = i
        · subst hj
          simp [TcpRelay.setPhase, hlt, hkey, hsocket, hchannel, hrc, TcpSession.readerRuns,
            ReaderState.runs]
        · have hsame : (update r.session i
              { r.session i with reader := .launched, writer := .launched }) j = r.session j :=
            update_of_ne hj _ _
          simp only [TcpRelay.setPhase, TcpRelay.set, TcpRelay.write, hsame]
          refine ⟨hlt, hkey, fun _ => ⟨hsocket, hchannel, hruns.imp_left ?_⟩⟩
          exact opening_letsGo hphase (y := { r.session i with reader := .launched }) hj
      · rw [SessionMap.get_put] at hl
        split_ifs at hl with hk
        · cases hl
          simp [TcpRelay.setPhase, hi, hk, hrc, TcpSession.readerRuns, ReaderState.runs,
            TcpSession.unlaunched]
        · have hj := h.ne_of_job hphase (.inl hl)
          simpa [TcpRelay.setPhase, TcpRelay.set, hj] using h.socketJob k j hl
      · rw [SessionMap.get_put] at hl
        split_ifs at hl with hk
        · cases hl
          simp [TcpRelay.setPhase, hi, hk, hwc, TcpSession.writerRuns, WriterState.runs,
            TcpSession.unlaunched]
        · have hj := h.ne_of_job hphase (.inr hl)
          simpa [TcpRelay.setPhase, TcpRelay.set, hj] using h.writerJob k j hl
  · exact h

theorem synAckFails : Settled (r.openerStep o .synAckFails) := by
  simp only [openerStep]
  split
  · next i isn hphase =>
      have hikey := (h.opener o i isn hphase).2.1
      obtain ⟨hfresh, hunopened, hopener, hunique⟩ := Openers.letsGo hphase
        (y := { r.session i with socketClosed := true }) h.toOpeners
      refine ⟨⟨hfresh, hunopened, hopener, hunique⟩, ?_, ?_, ?_⟩ <;> intro k j hl
      · simp only [openFailed, SessionMap.get_remove] at hl
        split_ifs at hl with hk
        obtain ⟨hlt, hkey, hlive⟩ := h.session k j hl
        obtain ⟨hsocket, hchannel, hruns⟩ := hlive trivial
        -- the opener's own session has the key that was just removed
        have hj : j ≠ i := by
          intro hji
          exact hk (hkey.symm.trans (hji ▸ hikey))
        have hsame : (update r.session i
            { r.session i with socketClosed := true }) j = r.session j :=
          update_of_ne hj _ _
        simp only [openFailed, TcpRelay.setPhase, TcpRelay.set, TcpRelay.write, hsame]
        refine ⟨hlt, hkey, fun _ => ⟨hsocket, hchannel, hruns.imp_left ?_⟩⟩
        exact opening_letsGo hphase (y := { r.session i with socketClosed := true }) hj
      · have hj := h.ne_of_job hphase (.inl hl)
        simpa [openFailed, TcpRelay.setPhase, TcpRelay.set, hj] using h.socketJob k j hl
      · have hj := h.ne_of_job hphase (.inr hl)
        simpa [openFailed, TcpRelay.setPhase, TcpRelay.set, hj] using h.writerJob k j hl
  · exact h

theorem connectFails : Settled (r.openerStep o .connectFails) := by
  simp only [openerStep]
  split_ifs with hphase
  · have hdone : Settled (r.setPhase o .done) :=
      h.setPhase (by simp [hphase]) (by simp [hphase]) (by simp)
    refine ⟨⟨hdone.fresh, hdone.unopened, hdone.opener, hdone.unique⟩, ?_, hdone.socketJob,
      hdone.writerJob⟩
    intro k i hl
    simp only [openFailed, SessionMap.get_remove] at hl
    split_ifs at hl
    exact hdone.session k i hl
  · exact h

theorem step (e : RelayEvent) : Settled (r.step e) := by
  refine keptByOperations.step h e ?_
  intro o e' _ hevicts
  cases e' with
  | evicts victim => exact absurd rfl (hevicts victim)
  | connects now serverIsn =>
    by_cases hphase : (r.opener o).phase = .connecting
    · exact h.connects hphase
    · simpa [openerStep, hphase] using h
  | connectFails => exact h.connectFails o
  | launches => exact h.launches o
  | synAckFails => exact h.synAckFails o

end Consistent

theorem run_consistent (events : List RelayEvent) : Settled (run events) := by
  induction events using List.reverseRecOn with
  | nil => exact create_consistent
  | append_singleton events e ih =>
    rw [run, Lib.exec_concat]
    exact ih.step e

end TcpRelay

def RelayEvent.Meets (W : ClientPacket → Prop) : RelayEvent → Prop
  | .packet _ p => W p
  | _ => True

def Opener.FromPacket (W : ClientPacket → Prop) (opener : Opener) : Prop :=
  ∃ p, W p ∧ opener = ⟨p.key, p.tcpSeq, p.tcpWindow, p.targetNetwork, opener.phase⟩

/-- `S` is kept by all that can happen to a session object, if the client's
packets meet `W`. -/
structure SessionKept (W : ClientPacket → Prop) (S : TcpSession → Prop) : Prop where
  absent : S .absent
  made : ∀ now (serverIsn : Fin 0xFFFFFFF) opener, opener.FromPacket W →
    S (TcpRelay.newSession now serverIsn.val opener)
  launched : ∀ x, x.unlaunched = true → S x → S { x with reader := .launched, writer := .launched }
  heardFrom : ∀ x now p, W p → S x → S (x.heardFrom now p)
  enqueue : ∀ x p, W p → S x → S (x.enqueue p)
  finished : ∀ x p, W p → S x → S (x.finished p)
  reader : ∀ x e, S x → S (x.listenForTcpResponses e).session
  writer : ∀ x e, S x → S (x.runSocketWriter e).session
  ended : ∀ x readerCancelled writerCancelled channelClosed socketClosed, S x →
    S { x with readerCancelled, writerCancelled, channelClosed, socketClosed }

namespace TcpRelay

variable {r : TcpRelay} {W : ClientPacket → Prop} {S : TcpSession → Prop}

theorem set_session_all {i : Nat} {y : TcpSession} (hy : S y) (h : ∀ j, S (r.session j)) (j : Nat) :
    S ((r.set i y).session j) := by
  rw [set_session]
  split_ifs
  · exact hy
  · exact h j

theorem handleSegment_opener (now : Int) (p : ClientPacket) (i : Nat) :
    (r.handleSegment now p i).opener = r.opener := by
  have hdata : ∀ r' : TcpRelay, (r'.forwardDataToSocket p i).opener = r'.opener := by
    intro r'
    unfold forwardDataToSocket
    split_ifs <;> simp
  unfold handleSegment
  split_ifs <;> simp [handleFin, hdata]

theorem coroutineStep_opener (i : Nat) (turn : Turn) :
    (r.coroutineStep i turn).opener = r.opener := by
  unfold coroutineStep
  split_ifs <;> simp

theorem resetIf_opener (notify : Bool) (cond : TcpSession → Bool) (key : SessionKey) :
    (r.resetIf notify cond key).opener = r.opener := by
  unfold resetIf
  split
  · rfl
  · split_ifs <;> simp [sendRst]

def OpenersFrom (W : ClientPacket → Prop) (r : TcpRelay) : Prop :=
  ∀ o, (r.opener o).phase ≠ .done → (r.opener o).FromPacket W

theorem OpenersFrom.setPhase (h : OpenersFrom W r) {o : Nat} {phase : OpenerPhase}
    (hdone : (r.opener o).phase ≠ .done) : OpenersFrom W (r.setPhase o phase) := by
  intro o'
  rw [setPhase_opener]
  split_ifs with ho
  · intro _
    obtain ⟨p, hp, heq⟩ := h o hdone
    exact ⟨p, hp, by rw [heq]⟩
  · exact h o'

theorem OpenersFrom.of_opener_eq {r' : TcpRelay} (h : OpenersFrom W r)
    (heq : r'.opener = r.opener) : OpenersFrom W r' := by
  intro o
  rw [heq]
  exact h o

theorem OpenersFrom.openSession (h : OpenersFrom W r) {p : ClientPacket} (hp : W p) :
    OpenersFrom W (r.openSession p) := by
  intro o
  simp only [TcpRelay.openSession, update_apply]
  split_ifs
  · intro _
    exact ⟨p, hp, rfl⟩
  · exact h o

theorem OpenersFrom.openerStep (h : OpenersFrom W r) (o : Nat) (e : OpenerEvent) :
    OpenersFrom W (r.openerStep o e) := by
  cases e with
  | evicts victim =>
    rcases evicts_cases r o victim with heq | ⟨hphase, heq | ⟨i, -, heq⟩⟩ <;> rw [heq]
    · exact h
    · exact h.setPhase (by simp [hphase])
    · have hclosed : OpenersFrom W ((r.sendRst i).closeSession victim) :=
        h.of_opener_eq (by simp [sendRst])
      exact hclosed.setPhase (by simp [sendRst, hphase])
  | connects now serverIsn =>
    simp only [TcpRelay.openerStep]
    split_ifs with hphase
    · exact h.setPhase (by simp [hphase])
    · exact h
  | connectFails =>
    simp only [TcpRelay.openerStep]
    split_ifs with hphase
    · exact h.setPhase (by simp [hphase])
    · exact h
  | launches =>
    simp only [TcpRelay.openerStep]
    split
    · next hphase => exact h.setPhase (by simp [hphase])
    · exact h
  | synAckFails =>
    simp only [TcpRelay.openerStep]
    split
    · next hphase => exact h.setPhase (by simp [hphase])
    · exact h

theorem OpenersFrom.step (h : OpenersFrom W r) {e : RelayEvent} (he : e.Meets W) :
    OpenersFrom W (r.step e) := by
  cases e with
  | packet now p =>
    simp only [TcpRelay.step, forwardTcpPacket]
    split
    · exact h.of_opener_eq (by simp)
    · split
      · split
        · exact h.openSession he
        · exact h
      · exact h.of_opener_eq (handleSegment_opener now p _)
  | opener o e => exact h.openerStep o e
  | reader i e => exact h.of_opener_eq (coroutineStep_opener i _)
  | writer i e => exact h.of_opener_eq (coroutineStep_opener i _)
  | reap now key =>
    simp only [TcpRelay.step, reap]
    split_ifs
    · exact h.of_opener_eq (resetIf_opener _ _ key)
    · exact h
  | networkLost deadNetwork key => exact h.of_opener_eq (resetIf_opener _ _ key)
  | setTunOutputStream present => exact h
  | setUpstreamMode mode =>
    simp only [TcpRelay.step, setUpstreamMode]
    split_ifs <;> exact h
  | clear => exact h

theorem run_openersFrom {events : List RelayEvent}
    (hpackets : Lib.AlongRun (fun _ e => e.Meets W) events) : OpenersFrom W (run events) := by
  refine Lib.exec_invariant (I := fun before => OpenersFrom W (run before)) ?_ ?_ hpackets
  · intro o hdone
    exact absurd rfl hdone
  · intro before e h he
    rw [run, Lib.exec_concat]
    exact h.step he

end TcpRelay

namespace SessionKept

open TcpRelay

variable {W : ClientPacket → Prop} {S : TcpSession → Prop} (hS : SessionKept W S) {r : TcpRelay}
  (h : ∀ j, S (r.session j))

include hS h

theorem closeSession (key : SessionKey) (j : Nat) : S ((r.closeSession key).session j) := by
  rw [closeSession_eq]
  exact hS.ended (r.session j) _ _ _ _ (h j)

theorem handleSegment (now : Int) {p : ClientPacket} (hp : W p) (i j : Nat) :
    S ((r.handleSegment now p i).session j) := by
  have hheard : ∀ k, S ((r.set i ((r.session i).heardFrom now p)).session k) :=
    set_session_all (hS.heardFrom _ now p hp (h i)) h
  have hdata : ∀ r' : TcpRelay, (∀ k, S (r'.session k)) →
      ∀ k, S ((r'.forwardDataToSocket p i).session k) := by
    intro r' h' k
    unfold forwardDataToSocket
    split_ifs
    · exact hS.closeSession h' p.key k
    · exact set_session_all (hS.enqueue _ p hp (h' i)) h' k
  have hfin : ∀ r' : TcpRelay, (∀ k, S (r'.session k)) → ∀ k, S ((r'.handleFin p i).session k) := by
    intro r' h' k
    exact set_session_all (hS.finished _ p hp (h' i)) h' k
  unfold TcpRelay.handleSegment
  dsimp only
  split_ifs
  · exact hfin _ (hdata _ hheard) j
  · exact hfin _ hheard j
  · exact hdata _ hheard j
  · exact hheard j

theorem coroutineStep {i : Nat} {turn : Turn} (hturn : S turn.session) (j : Nat) :
    S ((r.coroutineStep i turn).session j) := by
  have hset : ∀ k, S (((r.set i turn.session).write turn.packets).session k) :=
    set_session_all hturn h
  unfold TcpRelay.coroutineStep
  split_ifs
  · exact hS.closeSession hset _ j
  · exact hset j

theorem resetIf (notify : Bool) (cond : TcpSession → Bool) (key : SessionKey) (j : Nat) :
    S ((r.resetIf notify cond key).session j) := by
  unfold TcpRelay.resetIf
  split
  · exact h j
  · split_ifs
    · exact hS.closeSession (r := r.sendRst _) h key j
    · exact hS.closeSession h key j
    · exact h j

theorem openerStep (hc : Settled r) (hfrom : OpenersFrom W r) (o j : Nat)
    (e : OpenerEvent) : S ((r.openerStep o e).session j) := by
  cases e with
  | evicts victim =>
    rcases evicts_cases r o victim with heq | ⟨-, heq | ⟨i, -, heq⟩⟩ <;> rw [heq]
    · exact h j
    · exact h j
    · exact hS.closeSession (r := r.sendRst i) h victim j
  | connects now serverIsn =>
    by_cases hphase : (r.opener o).phase = .connecting
    · rw [connects_session hphase]
      split_ifs
      · exact hS.made now serverIsn _ (hfrom o (by simp [hphase]))
      · exact h j
    · simpa [TcpRelay.openerStep, hphase] using h j
  | connectFails =>
    simp only [TcpRelay.openerStep]
    split_ifs <;> exact h j
  | launches =>
    simp only [TcpRelay.openerStep]
    split
    · next i isn hphase =>
        have hun := (hc.opener o i isn hphase).2.2.1
        exact set_session_all (hS.launched _ hun (h i)) h j
    · exact h j
  | synAckFails =>
    simp only [TcpRelay.openerStep]
    split
    · next i isn _ =>
        have hclosed := hS.ended (r.session i) (r.session i).readerCancelled
          (r.session i).writerCancelled (r.session i).channelClosed true (h i)
        exact set_session_all hclosed h j
    · exact h j

theorem step (hc : Settled r) (hfrom : OpenersFrom W r) {e : RelayEvent}
    (he : e.Meets W) (j : Nat) : S ((r.step e).session j) := by
  cases e with
  | packet now p =>
    simp only [TcpRelay.step, forwardTcpPacket]
    split
    · exact hS.closeSession h p.key j
    · split
      · split <;> exact h j
      · exact hS.handleSegment h now he _ j
  | opener o e => exact hS.openerStep h hc hfrom o j e
  | reader i e => exact hS.coroutineStep h (hS.reader _ e (h i)) j
  | writer i e => exact hS.coroutineStep h (hS.writer _ e (h i)) j
  | reap now key =>
    simp only [TcpRelay.step, reap]
    split_ifs
    · exact hS.resetIf h _ _ key j
    · exact h j
  | networkLost deadNetwork key => exact hS.resetIf h _ _ key j
  | setTunOutputStream present => exact h j
  | setUpstreamMode mode =>
    simp only [TcpRelay.step, setUpstreamMode]
    split_ifs
    · exact h j
    · exact hS.ended (r.session j) _ _ _ _ (h j)
  | clear => exact hS.ended (r.session j) _ _ _ _ (h j)

omit h in
theorem run {events : List RelayEvent} (hpackets : Lib.AlongRun (fun _ e => e.Meets W) events)
    (j : Nat) : S ((TcpRelay.run events).session j) := by
  induction events using List.reverseRecOn generalizing j with
  | nil => exact hS.absent
  | append_singleton events e ih =>
    obtain ⟨hbefore, he⟩ := Lib.alongRun_concat.mp hpackets
    rw [TcpRelay.run, Lib.exec_concat]
    exact hS.step (ih hbefore) (run_consistent events) (run_openersFrom hbefore) he j

end SessionKept

end BigRocket.Relay
