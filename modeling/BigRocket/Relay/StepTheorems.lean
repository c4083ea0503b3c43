/-
What one step of the engine does to one session object.
-/
import BigRocket.Relay.ConsistencyTheorems

namespace BigRocket.Relay

def TcpRelay.Births (r : TcpRelay) (j o : Nat) : OpenerEvent → Prop
  | .connects _ _ => (r.opener o).phase = .connecting ∧ j = r.created
  | .launches => ∃ isn, (r.opener o).phase = .stored j isn
  | _ => False

/-- Neither a packet of the client nor the end of a session changes the view. -/
structure ClientLeaves {β : Type} (f : TcpSession → β) : Prop where
  heardFrom : ∀ x now p, f (TcpSession.heardFrom now p x) = f x
  enqueue : ∀ x p, f (TcpSession.enqueue p x) = f x
  finished : ∀ x p, f (TcpSession.finished p x) = f x
  ended : ∀ (x : TcpSession) readerCancelled writerCancelled channelClosed socketClosed,
    f { x with readerCancelled, writerCancelled, channelClosed, socketClosed } = f x

namespace ClientLeaves

open TcpRelay

variable {β : Type} {f : TcpSession → β} (hf : ClientLeaves f) {r : TcpRelay}

include hf

theorem closeSession (key : SessionKey) (j : Nat) :
    f ((r.closeSession key).session j) = f (r.session j) := by
  rw [closeSession_eq]
  exact hf.ended (r.session j) _ _ _ _

theorem handleSegment (now : Int) (p : ClientPacket) (i j : Nat) :
    f ((r.handleSegment now p i).session j) = f (r.session j) := by
  have hheard : ∀ k, f ((r.set i ((r.session i).heardFrom now p)).session k) = f (r.session k) :=
    set_session_proj f (hf.heardFrom _ now p)
  have hdata : ∀ (r' : TcpRelay) k,
      f ((r'.forwardDataToSocket p i).session k) = f (r'.session k) := by
    intro r' k
    unfold forwardDataToSocket
    split_ifs
    · exact hf.closeSession p.key k
    · exact set_session_proj f (hf.enqueue _ p) k
  have hfin : ∀ (r' : TcpRelay) k, f ((r'.handleFin p i).session k) = f (r'.session k) :=
    fun r' k => set_session_proj f (hf.finished _ p) k
  unfold TcpRelay.handleSegment
  dsimp only
  split_ifs
  · rw [hfin, hdata, hheard]
  · rw [hfin, hheard]
  · rw [hdata, hheard]
  · exact hheard j

theorem forwardTcpPacket (now : Int) (p : ClientPacket) (j : Nat) :
    f ((r.forwardTcpPacket now p).session j) = f (r.session j) := by
  unfold TcpRelay.forwardTcpPacket
  split
  · exact hf.closeSession p.key j
  · split
    · split
      · rfl
      · rfl
    · exact hf.handleSegment now p _ j

theorem coroutineStep (i j : Nat) (turn : Turn) :
    f ((r.coroutineStep i turn).session j) =
      if j = i then f turn.session else f (r.session j) := by
  have hset : f (((r.set i turn.session).write turn.packets).session j) =
      if j = i then f turn.session else f (r.session j) := by
    rw [write_session, set_session]
    split_ifs
    · rfl
    · rfl
  unfold TcpRelay.coroutineStep
  split_ifs at hset ⊢
  · exact (hf.closeSession _ j).trans hset
  · exact (hf.closeSession _ j).trans hset
  · exact hset
  · exact hset

theorem resetIf (notify : Bool) (cond : TcpSession → Bool) (key : SessionKey) (j : Nat) :
    f ((r.resetIf notify cond key).session j) = f (r.session j) := by
  unfold TcpRelay.resetIf
  split
  · rfl
  · split_ifs
    · exact hf.closeSession (r := r.sendRst _) key j
    · exact hf.closeSession key j
    · rfl

theorem openerStep (o j : Nat) (e : OpenerEvent) :
    f ((r.openerStep o e).session j) = f (r.session j) ∨ r.Births j o e := by
  cases e with
  | evicts victim =>
    left
    rcases evicts_cases r o victim with heq | ⟨-, heq | ⟨i, -, heq⟩⟩ <;> rw [heq]
    · rfl
    · exact hf.closeSession (r := r.sendRst i) victim j
  | connects now serverIsn =>
    by_cases hphase : (r.opener o).phase = .connecting
    · rw [connects_session hphase]
      split_ifs with hj
      · exact .inr ⟨hphase, hj⟩
      · exact .inl rfl
    · simp [TcpRelay.openerStep, hphase]
  | connectFails =>
    left
    simp only [TcpRelay.openerStep]
    split_ifs
    · rfl
    · rfl
  | launches =>
    simp only [TcpRelay.openerStep]
    split
    · next i isn hphase =>
        by_cases hj : j = i
        · exact .inr ⟨isn, hj ▸ hphase⟩
        · exact .inl (congrArg f (Function.update_of_ne hj _ _))
    · exact .inl rfl
  | synAckFails =>
    left
    simp only [TcpRelay.openerStep]
    split
    · next i isn _ =>
        exact set_session_proj f (hf.ended (r.session i) (r.session i).readerCancelled
          (r.session i).writerCancelled (r.session i).channelClosed true) j
    · rfl

theorem step (e : RelayEvent) (j : Nat) :
    f ((r.step e).session j) = f (r.session j) ∨
      (∃ e', e = .reader j e' ∧
        f ((r.step e).session j) = f ((r.session j).listenForTcpResponses e').session) ∨
      (∃ e', e = .writer j e' ∧
        f ((r.step e).session j) = f ((r.session j).runSocketWriter e').session) ∨
      ∃ o e', e = .opener o e' ∧ r.Births j o e' := by
  cases e with
  | packet now p => exact .inl (hf.forwardTcpPacket now p j)
  | opener o e' =>
    rcases hf.openerStep o j e' with hsame | hbirth
    · exact .inl hsame
    · exact .inr (.inr (.inr ⟨o, e', rfl, hbirth⟩))
  | reader i e' =>
    have hturn := hf.coroutineStep (r := r) i j ((r.session i).listenForTcpResponses e')
    split_ifs at hturn with hj
    · subst hj
      exact .inr (.inl ⟨e', rfl, hturn⟩)
    · exact .inl hturn
  | writer i e' =>
    have hturn := hf.coroutineStep (r := r) i j ((r.session i).runSocketWriter e')
    split_ifs at hturn with hj
    · subst hj
      exact .inr (.inr (.inl ⟨e', rfl, hturn⟩))
    · exact .inl hturn
  | reap now key =>
    left
    simp only [TcpRelay.step, reap]
    split_ifs
    · exact hf.resetIf _ _ key j
    · rfl
  | networkLost deadNetwork key => exact .inl (hf.resetIf _ _ key j)
  | setTunOutputStream present => exact .inl rfl
  | setUpstreamMode mode =>
    left
    simp only [TcpRelay.step, setUpstreamMode]
    split_ifs
    · rfl
    · exact hf.ended (r.session j) _ _ _ _
  | clear => exact .inl (hf.ended (r.session j) _ _ _ _)

end ClientLeaves

theorem TcpRelay.Consistent.unlaunched_of_births {r : TcpRelay}
    (hc : TcpRelay.Settled r) {j o : Nat} {e : OpenerEvent}
    (h : r.Births j o e) : (r.session j).unlaunched = true := by
  cases e with
  | connects now serverIsn => exact (hc.fresh j h.2.ge).2
  | launches =>
    obtain ⟨isn, hphase⟩ := h
    exact (hc.opener o j isn hphase).2.2.1
  | evicts victim => exact h.elim
  | connectFails => exact h.elim
  | synAckFails => exact h.elim

end BigRocket.Relay
