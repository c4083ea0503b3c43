/-
How many sessions the relay can hold: the size is looked at before the connect,
the session stored after it.
-/
import BigRocket.Relay.SessionTheorems

namespace BigRocket.Relay

open Lib List

namespace SessionMap

def size (m : SessionMap) : Nat := m.entries.length

variable (m : SessionMap)

theorem size_eq_keys : m.size = m.keys.length := by
  simp [size, AList.keys, List.keys]

theorem size_remove_le (key : SessionKey) : (m.remove key).size ≤ m.size :=
  (kerase_sublist key m.entries).length_le

theorem size_remove_of_get {m : SessionMap} {key : SessionKey} {i : Nat}
    (hget : m.get key = some i) : (m.remove key).size + 1 = m.size := by
  have hmem : key ∈ m.keys := by
    rw [← AList.mem_keys, ← AList.lookup_isSome, show AList.lookup key m = some i from hget]
    rfl
  have hpos : 0 < m.keys.length := length_pos_of_mem hmem
  rw [size_eq_keys, size_eq_keys, remove, AList.keys_erase, length_erase_of_mem hmem]
  omega

theorem size_put_le (key : SessionKey) (i : Nat) : (m.put key i).size ≤ m.size + 1 :=
  Nat.succ_le_succ (size_remove_le m key)

theorem size_put_of_get_none {m : SessionMap} {key : SessionKey} (hget : m.get key = none)
    (i : Nat) : (m.put key i).size = m.size + 1 := by
  have hnot : key ∉ m := AList.lookup_eq_none.mp hget
  rw [size, put, AList.entries_insert_of_notMem hnot]
  rfl

end SessionMap

namespace TcpRelay

variable {r : TcpRelay}

/-! ## The openers between the look and the store -/

/-- The openers that have passed `evictLruSessionIfAtCapacity` and have not
stored their session. -/
def connecting (r : TcpRelay) : Finset Nat :=
  (Finset.range r.opened).filter fun o => (r.opener o).phase = .connecting

theorem mem_connecting (o : Nat) :
    o ∈ r.connecting ↔ o < r.opened ∧ (r.opener o).phase = .connecting := by
  simp [connecting]

variable (n : Nat) {o : Nat} {r' : TcpRelay}

theorem connecting_of_opener_eq (hopener : r'.opener = r.opener) (hopened : r'.opened = r.opened) :
    r'.connecting = r.connecting := by
  simp [connecting, hopener, hopened]

theorem connecting_setPhase (ho : o < r.opened) :
    (r.setPhase o .connecting).connecting = insert o r.connecting := by
  ext o'
  rw [Finset.mem_insert, mem_connecting, mem_connecting, setPhase_opener]
  by_cases heq : o' = o
  · simp [heq, setPhase, ho]
  · simp [heq, setPhase]

theorem connecting_setPhase_ne (phase : OpenerPhase) (hphase : phase ≠ .connecting) :
    (r.setPhase o phase).connecting = r.connecting.erase o := by
  ext o'
  rw [Finset.mem_erase, mem_connecting, mem_connecting, setPhase_opener]
  by_cases heq : o' = o
  · simp [heq, hphase]
  · simp [heq, setPhase]

theorem connecting_openSession (p : ClientPacket) :
    (r.openSession p).connecting = r.connecting := by
  ext o
  rw [mem_connecting, mem_connecting]
  by_cases heq : o = r.opened
  · simp [heq, openSession]
  · simp only [openSession, Function.update_of_ne heq]
    have hlt : o < r.opened + 1 ↔ o < r.opened := by omega
    rw [hlt]

theorem connecting_closeSession (key : SessionKey) :
    (r.closeSession key).connecting = r.connecting := by
  rw [closeSession_eq]
  rfl

theorem sessions_closeSession (key : SessionKey) :
    (r.closeSession key).sessions = r.sessions.remove key := by
  rw [closeSession_eq]

/-! ## What each step does to the sum -/

def reserved (r : TcpRelay) : Nat := r.sessions.size + r.connecting.card

/-- No more sessions than `n`, and the same openers between look and store. -/
def WithinFor (n : Nat) (openers : Finset Nat) (r : TcpRelay) : Prop :=
  r.sessions.size ≤ n ∧ r.connecting = openers

theorem withinFor_closeSession {n : Nat} {openers : Finset Nat} (h : WithinFor n openers r)
    (key : SessionKey) : WithinFor n openers (r.closeSession key) := by
  rw [WithinFor, sessions_closeSession, connecting_closeSession]
  exact ⟨(SessionMap.size_remove_le r.sessions key).trans h.1, h.2⟩

theorem withinFor_keptByTraffic (openers : Finset Nat) :
    KeptByTraffic (WithinFor n openers) where
  set := fun _ _ _ _ _ h => h
  exit := fun r i y packets _ h =>
    withinFor_closeSession (r := (r.set i y).write packets) h _
  write := fun _ _ h => h
  closeSession := fun _ key h => withinFor_closeSession h key
  endAll := fun _ _ h => ⟨Nat.zero_le n, h.2⟩
  openSession := fun _ p h => ⟨h.1, (connecting_openSession p).trans h.2⟩
  settings := fun _ _ _ _ h => h

/-- An opener that looks finds its place free: no other opener is between
look and store, or the sessions and those openers together are fewer than
the ceiling. -/
def PlaceFree (r : TcpRelay) : RelayEvent → Prop
  | .opener o (.evicts _) =>
    (r.opener o).phase = .launched →
      r.connecting = ∅ ∨ r.reserved < maxConcurrentTcpSessions
  | _ => True

instance (r : TcpRelay) (e : RelayEvent) : Decidable (PlaceFree r e) := by
  rcases e with _ | ⟨_, _ | _⟩ | _ | _ | _ | _ | _ | _ | _ <;> simp only [PlaceFree] <;>
    infer_instance

theorem evictLru_size {evicted : TcpRelay} {victim : SessionKey}
    (h : r.evictLruSessionIfAtCapacity victim = some evicted) :
    evicted.opener = r.opener ∧ evicted.opened = r.opened ∧
      (evicted.sessions.size = r.sessions.size ∧ r.sessions.size < maxConcurrentTcpSessions ∨
        evicted.sessions.size + 1 = r.sessions.size) := by
  unfold evictLruSessionIfAtCapacity at h
  split_ifs at h with hroom
  · cases h
    exact ⟨rfl, rfl, .inl ⟨rfl, hroom⟩⟩
  · rcases hget : r.sessions.get victim with _ | i
    · simp [hget] at h
    · simp only [hget, Option.ite_none_right_eq_some, Option.some.injEq] at h
      obtain ⟨-, rfl⟩ := h
      rw [closeSession_eq]
      exact ⟨rfl, rfl, .inr (SessionMap.size_remove_of_get hget)⟩

theorem evicts_reserved_le (hc : Settled r)
    (h : r.reserved ≤ maxConcurrentTcpSessions) {victim : SessionKey}
    (hfree : PlaceFree r (.opener o (.evicts victim))) :
    (r.openerStep o (.evicts victim)).reserved ≤ maxConcurrentTcpSessions := by
  simp only [openerStep]
  split_ifs with hphase
  · rcases hevict : r.evictLruSessionIfAtCapacity victim with _ | evicted
    · exact h
    · obtain ⟨hopener, hopened, hsize⟩ := evictLru_size hevict
      have ho : o < evicted.opened := hopened ▸ hc.not_done_lt (by simp [hphase])
      have hsame := connecting_of_opener_eq hopener hopened
      have hnot : o ∉ evicted.connecting := by simp [mem_connecting, hopener, hphase]
      have hsum : (evicted.setPhase o .connecting).reserved =
          evicted.sessions.size + (r.connecting.card + 1) := by
        rw [reserved, connecting_setPhase ho, Finset.card_insert_of_notMem hnot, hsame]
        rfl
      simp only [hsum]
      rw [reserved] at h
      -- a victim makes the place; below the ceiling the place must be free
      rcases hsize with ⟨hsize, hroom⟩ | hsize
      · rcases hfree hphase with hnone | hfew
        · rw [hnone, Finset.card_empty]
          omega
        · rw [reserved] at hfew
          omega
      · omega
  · exact h

theorem leaves_connecting (hc : Settled r)
    (hphase : (r.opener o).phase = .connecting) (phase : OpenerPhase)
    (hother : phase ≠ .connecting) (hopener : r'.opener = (r.setPhase o phase).opener)
    (hopened : r'.opened = r.opened) (hsize : r'.sessions.size ≤ r.sessions.size + 1) :
    r'.reserved ≤ r.reserved := by
  have hmem : o ∈ r.connecting :=
    (mem_connecting o).mpr ⟨hc.not_done_lt (by simp [hphase]), hphase⟩
  have hpos := Finset.card_pos.mpr ⟨o, hmem⟩
  have hsame : r'.connecting = r.connecting.erase o := by
    rw [← connecting_setPhase_ne phase hother]
    exact connecting_of_opener_eq hopener hopened
  rw [reserved, reserved, hsame, Finset.card_erase_of_mem hmem]
  omega

theorem leaves_stored {i : Nat} {isn : Int} (hphase : (r.opener o).phase = .stored i isn)
    (hopener : r'.opener = (r.setPhase o .done).opener) (hopened : r'.opened = r.opened)
    (hsize : r'.sessions.size ≤ r.sessions.size) : r'.reserved ≤ r.reserved := by
  have hnot : o ∉ r.connecting := by simp [mem_connecting, hphase]
  have hsame : r'.connecting = r.connecting := by
    rw [← Finset.erase_eq_of_notMem hnot, ← connecting_setPhase_ne .done (by simp)]
    exact connecting_of_opener_eq hopener hopened
  rw [reserved, reserved, hsame]
  omega

theorem openerStep_reserved_le (hc : Settled r) (o : Nat) {e : OpenerEvent}
    (hevicts : ∀ victim, e ≠ .evicts victim) : (r.openerStep o e).reserved ≤ r.reserved := by
  cases e with
  | evicts victim => exact absurd rfl (hevicts victim)
  | connects now serverIsn =>
    simp only [openerStep]
    split_ifs with hphase
    · exact leaves_connecting hc hphase (.stored r.created serverIsn.val) (by simp) rfl rfl
        (SessionMap.size_put_le _ _ _)
    · exact le_rfl
  | connectFails =>
    simp only [openerStep]
    split_ifs with hphase
    · exact leaves_connecting hc hphase .done (by simp) rfl rfl
        ((SessionMap.size_remove_le _ _).trans (Nat.le_succ _))
    · exact le_rfl
  | launches =>
    simp only [openerStep]
    split
    · next hphase => exact leaves_stored hphase rfl rfl le_rfl
    · exact le_rfl
  | synAckFails =>
    simp only [openerStep]
    split
    · next hphase => exact leaves_stored hphase rfl rfl (SessionMap.size_remove_le _ _)
    · exact le_rfl

theorem step_reserved_le (hc : Settled r)
    (h : r.reserved ≤ maxConcurrentTcpSessions) {e : RelayEvent} (hfree : PlaceFree r e) :
    (r.step e).reserved ≤ maxConcurrentTcpSessions := by
  by_cases hany : ∃ o e', e = .opener o e'
  · obtain ⟨o, e', rfl⟩ := hany
    by_cases hevicts : ∃ victim, e' = .evicts victim
    · obtain ⟨victim, rfl⟩ := hevicts
      exact evicts_reserved_le hc h hfree
    · have hle := openerStep_reserved_le hc o (e := e') (fun victim heq => hevicts ⟨victim, heq⟩)
      exact hle.trans h
  · have hwithin : WithinFor r.sessions.size r.connecting (r.step e) :=
      (withinFor_keptByTraffic _ _).step ⟨le_rfl, rfl⟩ (fun o e' heq => hany ⟨o, e', heq⟩)
    rw [reserved] at h ⊢
    rw [hwithin.2]
    exact (Nat.add_le_add_right hwithin.1 _).trans h

/-- **The ceiling holds while every opener that looks finds its place free.**
In every state of such a run `sessions` holds at most 200 entries. -/
theorem sessions_le_max_of_placeFree (events : List RelayEvent)
    (hfree : AlongRun (fun before e => PlaceFree (run before) e) events) :
    ∀ before, before <+: events → (run before).sessions.size ≤ maxConcurrentTcpSessions := by
  intro before hbefore
  have hreserved : (run before).reserved ≤ maxConcurrentTcpSessions := by
    refine exec_invariant (I := fun events => (run events).reserved ≤ maxConcurrentTcpSessions)
      (by decide) ?_ (hfree.initial hbefore)
    intro front e h he
    rw [run, exec_concat]
    exact step_reserved_le (run_consistent front) h he
  exact (Nat.le_add_right _ _).trans hreserved

theorem sessions_le_max_of_reopening :
    (run (establish 0 0 0 ++ [.reader 0 .endOfStream, .writer 0 .ends] ++
      establish 1 1 100)).sessions.size ≤ 200 :=
  sessions_le_max_of_placeFree _ (by decide +kernel) _ prefix_rfl

/-! ## A burst of openers -/

def burstKey (n : Nat) : SessionKey := ⟨.tcp, "10.0.0.2", 40000 + n, "203.0.113.7", 443⟩

def burstSyn (n : Nat) : ClientPacket := ⟨burstKey n, TcpFlag.syn, 1000, 0, 65535, [], 0⟩

def burstLooks : Nat → List RelayEvent
  | 0 => []
  | n + 1 => burstLooks n ++ [.packet 0 (burstSyn n), .opener n (.evicts (burstKey n))]

def burstConnects : Nat → List RelayEvent
  | 0 => []
  | m + 1 => burstConnects m ++ [.opener m (.connects 0 7)]

theorem burst_look {r : TcpRelay} (hsessions : r.sessions = ∅) (n : Nat) :
    exec step r [.packet 0 (burstSyn n), .opener r.opened (.evicts (burstKey n))] =
      (r.openSession (burstSyn n)).setPhase r.opened .connecting := by
  have hflags : (burstSyn n).has TcpFlag.rst = false ∧ (burstSyn n).has TcpFlag.syn = true ∧
      (burstSyn n).has TcpFlag.ack = false := by
    simp [ClientPacket.has, burstSyn, TcpFlag.rst, TcpFlag.syn, TcpFlag.ack]
  have hpacket : r.step (.packet 0 (burstSyn n)) = r.openSession (burstSyn n) := by
    have hget : r.sessions.get (burstSyn n).key = none := by
      rw [hsessions]
      rfl
    simp [step, forwardTcpPacket, hflags, hget]
  have hevict : (r.openSession (burstSyn n)).evictLruSessionIfAtCapacity (burstKey n) =
      some (r.openSession (burstSyn n)) := by
    simp [evictLruSessionIfAtCapacity, openSession, hsessions, maxConcurrentTcpSessions]
  simp only [exec, foldl_cons, foldl_nil, hpacket]
  simp only [step, openerStep, hevict]
  simp [openSession]

theorem burstLooks_state :
    (run (burstLooks n)).sessions = ∅ ∧ (run (burstLooks n)).opened = n ∧
      ∀ o < n, (run (burstLooks n)).opener o = ⟨burstKey o, 1000, 65535, 0, .connecting⟩ := by
  induction n with
  | zero => exact ⟨rfl, rfl, fun o ho => absurd ho (Nat.not_lt_zero o)⟩
  | succ n ih =>
    obtain ⟨hsessions, hopened, hopener⟩ := ih
    have hrun : run (burstLooks (n + 1)) =
        ((run (burstLooks n)).openSession (burstSyn n)).setPhase n .connecting := by
      have hlook := burst_look hsessions n
      rw [hopened] at hlook
      rw [burstLooks, run, exec_append]
      exact hlook
    rw [hrun]
    refine ⟨hsessions, by simp [setPhase, openSession, hopened], ?_⟩
    intro o ho
    rw [setPhase_opener]
    by_cases heq : o = n
    · simp [heq, openSession, hopened, burstSyn]
    · have hlt : o < n := by omega
      simp [heq, openSession, hopened, hopener o hlt]

theorem burstConnects_state (m : Nat) (hm : m ≤ n) :
    (run (burstLooks n ++ burstConnects m)).sessions.size = m ∧
      (∀ o, m ≤ o → (run (burstLooks n ++ burstConnects m)).sessions.get (burstKey o) = none) ∧
      ∀ o, m ≤ o → o < n →
        (run (burstLooks n ++ burstConnects m)).opener o =
          ⟨burstKey o, 1000, 65535, 0, .connecting⟩ := by
  induction m with
  | zero =>
    obtain ⟨hsessions, -, hopener⟩ := burstLooks_state n
    simp only [burstConnects, append_nil, hsessions]
    exact ⟨rfl, fun _ _ => rfl, fun o _ ho => hopener o ho⟩
  | succ m ih =>
    obtain ⟨hsize, hget, hopener⟩ := ih (by omega)
    have hm' := hopener m le_rfl (by omega)
    have hphase : ((run (burstLooks n ++ burstConnects m)).opener m).phase = .connecting := by
      rw [hm']
    have hrun : run (burstLooks n ++ burstConnects (m + 1)) =
        (run (burstLooks n ++ burstConnects m)).openerStep m (.connects 0 7) := by
      rw [burstConnects, ← append_assoc, run, exec_concat]
      rfl
    rw [hrun]
    refine ⟨?_, ?_, ?_⟩
    · simp only [openerStep, if_true, hm']
      rw [SessionMap.size_put_of_get_none (hget m le_rfl), hsize]
    · intro o ho
      rw [connects_sessions hphase, hm', if_neg (by simp [burstKey]; omega)]
      exact hget o (by omega)
    · intro o ho hlt
      rw [connects_opener hphase, if_neg (by omega)]
      exact hopener o (by omega) hlt

theorem burst_sessions : (run (burstLooks n ++ burstConnects n)).sessions.size = n :=
  (burstConnects_state n n le_rfl).1

theorem burst_passes_ceiling :
    (run (burstLooks 201 ++ burstConnects 201)).sessions.size = 201 ∧
      ¬ (run (burstLooks 201 ++ burstConnects 201)).sessions.size ≤ maxConcurrentTcpSessions := by
  rw [burst_sessions]
  decide

end TcpRelay

end BigRocket.Relay
