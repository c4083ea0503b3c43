/-
Which sockets of the UDP relay are open: the `catch` of `forwardUdpPacket`
closes what is stored at the key, not the new socket.
-/
import BigRocket.Relay.UdpRelay

namespace BigRocket.Relay

open Lib List

/-! ## What stored sessions hold -/

namespace UdpSessionMap

variable {part : UdpSession → Finset Nat} {opens : Finset Nat} {m : UdpSessionMap}
  {key : SessionKey} {s s' : UdpSession} {bound : Nat}

theorem lookup_erase_eq (m : UdpSessionMap) (key k : SessionKey) :
    (m.erase key).lookup k = if k = key then none else m.lookup k := by
  split_ifs with hk
  · subst hk
    exact AList.lookup_erase k m
  · exact AList.lookup_erase_ne hk

theorem lookup_insert_eq (m : UdpSessionMap) (key k : SessionKey) (s : UdpSession) :
    (m.insert key s).lookup k = if k = key then some s else m.lookup k := by
  split_ifs with hk
  · subst hk
    exact AList.lookup_insert m
  · exact AList.lookup_insert_ne hk

def Exactly (part : UdpSession → Finset Nat) (opens : Finset Nat) (m : UdpSessionMap) : Prop :=
  ∀ n, n ∈ opens ↔ ∃ k s, m.lookup k = some s ∧ n ∈ part s

structure Numbered (part : UdpSession → Finset Nat) (bound : Nat) (m : UdpSessionMap) : Prop where
  separate : ∀ k k' s s' n, m.lookup k = some s → m.lookup k' = some s' → n ∈ part s →
    n ∈ part s' → k = k'
  below : ∀ k s n, m.lookup k = some s → n ∈ part s → n < bound

theorem Exactly.empty (part : UdpSession → Finset Nat) : Exactly part ∅ ∅ := by
  simp [Exactly]

theorem Numbered.empty (part : UdpSession → Finset Nat) (bound : Nat) : Numbered part bound ∅ := by
  constructor <;> simp

theorem Exactly.erase (h : Exactly part opens m) (hnum : Numbered part bound m)
    (hs : m.lookup key = some s) : Exactly part (opens \ part s) (m.erase key) := by
  intro n
  simp only [Finset.mem_sdiff, h n, lookup_erase_eq]
  constructor
  · rintro ⟨⟨k, t, hk, hn⟩, hnot⟩
    have hne : k ≠ key := by
      rintro rfl
      cases hs.symm.trans hk
      exact hnot hn
    exact ⟨k, t, by rw [if_neg hne, hk], hn⟩
  · rintro ⟨k, t, hk, hn⟩
    split_ifs at hk with hne
    exact ⟨⟨k, t, hk, hn⟩, fun hn' => hne (hnum.separate k key t s n hk hs hn hn')⟩

theorem Exactly.insert (h : Exactly part opens m) (hnone : m.lookup key = none) (s : UdpSession)
    {opens' : Finset Nat} (hopens : opens' = part s ∪ opens) :
    Exactly part opens' (m.insert key s) := by
  subst hopens
  intro n
  simp only [Finset.mem_union, h n, lookup_insert_eq]
  constructor
  · rintro (hn | ⟨k, t, hk, hn⟩)
    · exact ⟨key, s, if_pos rfl, hn⟩
    · have hne : k ≠ key := by
        rintro rfl
        cases hnone.symm.trans hk
      exact ⟨k, t, by rw [if_neg hne, hk], hn⟩
  · rintro ⟨k, t, hk, hn⟩
    split_ifs at hk
    · cases hk
      exact .inl hn
    · exact .inr ⟨k, t, hk, hn⟩

theorem Exactly.replace (h : Exactly part opens m) (hs : m.lookup key = some s)
    (hpart : part s' = part s) : Exactly part opens (m.insert key s') := by
  intro n
  simp only [h n, lookup_insert_eq]
  constructor
  · rintro ⟨k, t, hk, hn⟩
    by_cases hkey : k = key
    · subst hkey
      cases hs.symm.trans hk
      exact ⟨k, s', if_pos rfl, hpart ▸ hn⟩
    · exact ⟨k, t, by rw [if_neg hkey, hk], hn⟩
  · rintro ⟨k, t, hk, hn⟩
    split_ifs at hk
    · cases hk
      exact ⟨key, s, hs, hpart ▸ hn⟩
    · exact ⟨k, t, hk, hn⟩

theorem Numbered.erase (h : Numbered part bound m) (key : SessionKey) :
    Numbered part bound (m.erase key) := by
  have hkept : ∀ {k t}, (m.erase key).lookup k = some t → m.lookup k = some t := by
    intro k t hk
    rw [lookup_erase_eq] at hk
    split_ifs at hk
    exact hk
  exact ⟨fun k k' t t' n hk hk' => h.separate k k' t t' n (hkept hk) (hkept hk'),
    fun k t n hk => h.below k t n (hkept hk)⟩

theorem Numbered.insert (h : Numbered part bound m) (key : SessionKey) {bound' : Nat}
    (hle : bound ≤ bound') (hnew : ∀ n ∈ part s, bound ≤ n ∧ n < bound') :
    Numbered part bound' (m.insert key s) := by
  refine ⟨fun k k' t t' n hk hk' hn hn' => ?_, fun k t n hk hn => ?_⟩
  · rw [lookup_insert_eq] at hk hk'
    split_ifs at hk hk' with hkey hkey' hkey'
    · exact hkey.trans hkey'.symm
    · cases hk
      exact absurd (h.below k' t' n hk' hn') (not_lt.mpr (hnew n hn).1)
    · cases hk'
      exact absurd (h.below k t n hk hn) (not_lt.mpr (hnew n hn').1)
    · exact h.separate k k' t t' n hk hk' hn hn'
  · rw [lookup_insert_eq] at hk
    split_ifs at hk
    · cases hk
      exact (hnew n hn).2
    · exact (h.below k t n hk hn).trans_le hle

theorem Numbered.replace (h : Numbered part bound m) (hs : m.lookup key = some s)
    (hpart : part s' = part s) : Numbered part bound (m.insert key s') := by
  have hkept : ∀ {k t}, (m.insert key s').lookup k = some t →
      ∃ t', m.lookup k = some t' ∧ part t' = part t := by
    intro k t hk
    rw [lookup_insert_eq] at hk
    split_ifs at hk with hkey
    · cases hk
      exact ⟨s, hkey ▸ hs, hpart.symm⟩
    · exact ⟨t, hk, rfl⟩
  refine ⟨fun k k' t t' n hk hk' hn hn' => ?_, fun k t n hk hn => ?_⟩
  · obtain ⟨u, hu, hpu⟩ := hkept hk
    obtain ⟨u', hu', hpu'⟩ := hkept hk'
    exact h.separate k k' u u' n hu hu' (hpu ▸ hn) (hpu' ▸ hn')
  · obtain ⟨u, hu, hpu⟩ := hkept hk
    exact h.below k u n hu (hpu ▸ hn)

end UdpSessionMap

/-! ## One event -/

namespace UdpSession

def sockets (s : UdpSession) : Finset Nat := {s.socket}

def associations (s : UdpSession) : Finset Nat := s.aetherAssociation.toFinset

end UdpSession

/-- One of the calls between `DatagramSocket()` and the storing of the session
throws. -/
def UdpAnswers.throwsBeforeStored (mode : UpstreamMode) (answers : UdpAnswers) : Bool :=
  !answers.protects || (mode = .none && !answers.binds) || !answers.setsTimeout ||
    (mode ≠ .none && !answers.associates)

namespace UdpRelay

open UdpSessionMap

variable {r : UdpRelay} {key : SessionKey} {s : UdpSession}

def Tidy (r : UdpRelay) : Prop :=
  Numbered UdpSession.sockets r.created r.activeSessions ∧
    Numbered UdpSession.associations r.created r.activeSessions

def NoLeak (r : UdpRelay) : Prop :=
  Exactly UdpSession.sockets r.openSockets r.activeSessions ∧
    Exactly UdpSession.associations r.openAssociations r.activeSessions

def Sound (r : UdpRelay) : Prop := r.Tidy ∧ r.NoLeak

theorem create_sound : create.Sound :=
  ⟨⟨.empty _ 0, .empty _ 0⟩, .empty _, .empty _⟩

theorem Tidy.closeSession (h : r.Tidy) (key : SessionKey) : (r.closeSession key).Tidy := by
  unfold UdpRelay.closeSession
  split
  · exact h
  · exact ⟨h.1.erase key, h.2.erase key⟩

theorem Sound.closeSession (h : r.Sound) (key : SessionKey) : (r.closeSession key).Sound := by
  refine ⟨h.1.closeSession key, ?_⟩
  obtain ⟨htidy, hexact⟩ := h
  unfold UdpRelay.closeSession
  split
  · exact hexact
  · rename_i s hs
    refine ⟨?_, hexact.2.erase htidy.2 hs⟩
    have herased := hexact.1.erase htidy.1 hs
    rwa [UdpSession.sockets, Finset.sdiff_singleton_eq_erase] at herased

theorem Sound.handleNetworkLost (h : r.Sound) (deadNetwork : Nat) :
    (r.handleNetworkLost deadNetwork).Sound := by
  unfold UdpRelay.handleNetworkLost
  generalize r.activeSessions.entries = entries
  induction entries generalizing r with
  | nil => exact h
  | cons entry entries ih =>
    rw [foldl_cons]
    split_ifs
    · exact ih (h.closeSession entry.1)
    · exact ih h

theorem mem_release_openSockets {n : Nat} :
    n ∈ (r.release s).openSockets ↔ n ∉ s.sockets ∧ n ∈ r.openSockets := by
  simp [release, UdpSession.sockets]

theorem mem_release_openAssociations {n : Nat} :
    n ∈ (r.release s).openAssociations ↔ n ∉ s.associations ∧ n ∈ r.openAssociations := by
  rw [release, Finset.mem_sdiff, and_comm, UdpSession.associations]

theorem open_of_releaseAll (entries : List (Sigma fun _ : SessionKey => UdpSession)) (n : Nat) :
    (n ∈ (entries.foldl (fun r entry => r.release entry.2) r).openSockets ↔
      n ∈ r.openSockets ∧ ∀ entry ∈ entries, n ∉ entry.2.sockets) ∧
    (n ∈ (entries.foldl (fun r entry => r.release entry.2) r).openAssociations ↔
      n ∈ r.openAssociations ∧ ∀ entry ∈ entries, n ∉ entry.2.associations) := by
  induction entries generalizing r with
  | nil => simp
  | cons entry entries ih =>
    obtain ⟨hsockets, hassociations⟩ := @ih (r.release entry.2)
    rw [foldl_cons, hsockets, hassociations, mem_release_openSockets,
      mem_release_openAssociations, forall_mem_cons, forall_mem_cons]
    tauto

theorem eq_empty_of_exactly {part : UdpSession → Finset Nat} {opens left : Finset Nat}
    {m : UdpSessionMap} (h : Exactly part opens m)
    (hleft : ∀ n, n ∈ left ↔ n ∈ opens ∧ ∀ entry ∈ m.entries, n ∉ part entry.2) : left = ∅ := by
  refine Finset.eq_empty_of_forall_notMem fun n hn => ?_
  obtain ⟨hopen, hnot⟩ := (hleft n).mp hn
  obtain ⟨k, s, hs, hmem⟩ := (h n).mp hopen
  exact hnot ⟨k, s⟩ (AList.mem_lookup_iff.mp hs) hmem

theorem NoLeak.clear (h : r.NoLeak) : r.clear.Sound := by
  have hsockets := eq_empty_of_exactly h.1 fun n => (open_of_releaseAll _ n).1
  have hassociations := eq_empty_of_exactly h.2 fun n => (open_of_releaseAll _ n).2
  refine ⟨⟨.empty _ _, .empty _ _⟩, ?_, ?_⟩
  · rw [UdpRelay.clear, hsockets]
    exact .empty _
  · rw [UdpRelay.clear, hassociations]
    exact .empty _

theorem Sound.setUpstreamMode (h : r.Sound) (mode : UpstreamMode) :
    (r.setUpstreamMode mode).Sound := by
  unfold UdpRelay.setUpstreamMode
  split
  · exact h
  · exact NoLeak.clear (r := { r with upstreamMode := mode }) h.2

/-! ## A packet -/

theorem evictIfAtCapacity_cases {victim : SessionKey} {evicted : UdpRelay}
    (heq : r.evictIfAtCapacity victim = some evicted) :
    evicted = r ∨ evicted = r.closeSession victim := by
  unfold evictIfAtCapacity at heq
  split_ifs at heq
  · exact .inl (Option.some_inj.mp heq).symm
  · split at heq
    · cases heq
    · split_ifs at heq
      exact .inr (Option.some_inj.mp heq).symm

theorem closeSession_of_none (hnone : r.activeSessions.lookup key = none) :
    r.closeSession key = r := by
  rw [closeSession, hnone]

theorem lookup_closeSession_of_none {k : SessionKey} (hnone : r.activeSessions.lookup k = none) :
    (r.closeSession key).activeSessions.lookup k = none := by
  unfold closeSession
  split
  · exact hnone
  · simp only [lookup_erase_eq, hnone, ite_self]

theorem closeSession_upstreamMode (key : SessionKey) :
    (r.closeSession key).upstreamMode = r.upstreamMode := by
  unfold closeSession
  split <;> rfl

theorem NoLeak.lookup_of_current (h : r.NoLeak) (hnone : r.current key = none) :
    r.activeSessions.lookup key = none := by
  rcases hs : r.activeSessions.lookup key with _ | s
  · rfl
  · have hopen : s.socket ∈ r.openSockets := (h.1 _).mpr ⟨key, s, hs, Finset.mem_singleton_self _⟩
    simp [current, hs, hopen] at hnone

theorem Sound.touch (h : r.Sound) (now : Int) (key : SessionKey) : (r.touch now key).Sound := by
  unfold UdpRelay.touch
  split
  · exact h
  · rename_i s hs
    exact ⟨⟨h.1.1.replace hs rfl, h.1.2.replace hs rfl⟩, h.2.1.replace hs rfl, h.2.2.replace hs rfl⟩

theorem Sound.store_direct (h : r.Sound) (hnone : r.activeSessions.lookup key = none)
    (network : Nat) (now : Int) :
    (r.openSocket.store key ⟨r.created, network, none, now⟩).Sound := by
  refine ⟨⟨h.1.1.insert key (Nat.le_succ _) ?_, h.1.2.insert key (Nat.le_succ _) ?_⟩,
    h.2.1.insert hnone _ (Finset.insert_eq _ _), h.2.2.insert hnone _ (Finset.empty_union _).symm⟩
  · simp [UdpSession.sockets, openSocket, store]
  · simp [UdpSession.associations]

theorem Sound.store_associated (h : r.Sound) (hnone : r.activeSessions.lookup key = none)
    (network : Nat) (now : Int) :
    (r.openSocket.openAssociation.store key
      ⟨r.created, network, some r.openSocket.created, now⟩).Sound := by
  have hle : r.created ≤ r.openSocket.openAssociation.created :=
    (Nat.le_succ _).trans (Nat.le_succ _)
  refine ⟨⟨h.1.1.insert key hle ?_, h.1.2.insert key hle ?_⟩,
    h.2.1.insert hnone _ (Finset.insert_eq _ _), h.2.2.insert hnone _ (Finset.insert_eq _ _)⟩
  · simp [UdpSession.sockets, openSocket, openAssociation, store]
  · simp [UdpSession.associations, openSocket, openAssociation, store]

theorem openSession_cases (h : r.Sound) {p : UdpPacket}
    (hnone : r.activeSessions.lookup p.key = none) (now : Int) (answers : UdpAnswers) :
    (answers.creates = false ∧ r.openSession now p answers = (r, false)) ∨
    (answers.creates = true ∧ answers.throwsBeforeStored r.upstreamMode = true ∧
      r.openSession now p answers = (r.openSocket, false)) ∨
    (answers.throwsBeforeStored r.upstreamMode = false ∧
      ∃ made : UdpRelay, made.Sound ∧ r.openSession now p answers = (made, true)) := by
  have hdirect := h.store_direct hnone p.targetNetwork now
  have hassociated := h.store_associated hnone p.targetNetwork now
  have hthrows : ∀ {c : Bool}, (!c) ≠ true → c = true := by simp
  unfold openSession UdpAnswers.throwsBeforeStored
  split_ifs with hcreates hprotects hbinds htimeout hmode hassociates
  · exact .inl ⟨by simpa using hcreates, rfl⟩
  · exact .inr (.inl ⟨hthrows hcreates, by simp [hprotects], rfl⟩)
  · exact .inr (.inl ⟨hthrows hcreates, by simp [hbinds], rfl⟩)
  · exact .inr (.inl ⟨hthrows hcreates, by simp [htimeout], rfl⟩)
  · exact .inr (.inr ⟨by simp_all, _, hdirect, rfl⟩)
  · exact .inr (.inl ⟨hthrows hcreates, by simp_all, rfl⟩)
  · exact .inr (.inr ⟨by simp_all, _, hassociated, rfl⟩)

theorem Sound.openSocket_leaks (h : r.Sound) : ¬ r.openSocket.NoLeak := by
  intro hexact
  obtain ⟨k, s, hs, hn⟩ := (hexact.1 r.created).mp (Finset.mem_insert_self _ _)
  exact lt_irrefl _ (h.1.1.below k s _ hs hn)

/-- The packet needs a new session, whose socket is created, and a later call
throws before the session is stored. -/
def Strands (r : UdpRelay) : UdpEvent → Prop
  | .forward _ p answers =>
    r.current p.key = none ∧ r.evictIfAtCapacity answers.victim ≠ none ∧
      answers.creates = true ∧ answers.throwsBeforeStored r.upstreamMode = true
  | _ => False

theorem findSession_cases (h : r.Sound) (now : Int) (p : UdpPacket) (answers : UdpAnswers) :
    (r.findSession now p answers = none ∧ ¬ r.Strands (.forward now p answers)) ∨
    (∃ found flag, r.findSession now p answers = some (found, flag) ∧ found.Sound ∧
      ¬ r.Strands (.forward now p answers)) ∨
    ∃ evicted : UdpRelay, evicted.Sound ∧ evicted.activeSessions.lookup p.key = none ∧
      r.findSession now p answers = some (evicted.openSocket, false) ∧
      r.Strands (.forward now p answers) := by
  rcases hcurrent : r.current p.key with _ | s
  · rcases hevict : r.evictIfAtCapacity answers.victim with _ | evicted
    · exact .inl ⟨by simp [findSession, hcurrent, hevict], by simp [Strands, hevict]⟩
    · have hnone := h.2.lookup_of_current hcurrent
      have hsound : evicted.Sound ∧ evicted.activeSessions.lookup p.key = none ∧
          evicted.upstreamMode = r.upstreamMode := by
        rcases evictIfAtCapacity_cases hevict with rfl | rfl
        · exact ⟨h, hnone, rfl⟩
        · exact ⟨h.closeSession _, lookup_closeSession_of_none hnone, closeSession_upstreamMode _⟩
      have hfind : r.findSession now p answers = some (evicted.openSession now p answers) := by
        simp [findSession, hcurrent, hevict]
      obtain ⟨hevicted, hgone, hmode⟩ := hsound
      rw [hfind]
      rcases openSession_cases hevicted hgone now answers with
        ⟨hcreates, heq⟩ | ⟨hcreates, hthrows, heq⟩ | ⟨hthrows, made, hmade, heq⟩
      · exact .inr (.inl ⟨evicted, false, by rw [heq], hevicted, by simp [Strands, hcreates]⟩)
      · exact .inr (.inr ⟨evicted, hevicted, hgone, by rw [heq],
          hcurrent, by simp [hevict], hcreates, hmode ▸ hthrows⟩)
      · exact .inr (.inl ⟨made, true, by rw [heq], hmade,
          by simp [Strands, ← hmode, hthrows]⟩)
  · exact .inr (.inl ⟨r, true, by simp [findSession, hcurrent], h, by simp [Strands, hcurrent]⟩)

theorem forwardUdpPacket_of_found {found : UdpRelay} {flag : Bool} {now : Int} {p : UdpPacket}
    {answers : UdpAnswers} (hfind : r.findSession now p answers = some (found, flag))
    (h : found.Sound) : (r.forwardUdpPacket now p answers).Sound := by
  unfold forwardUdpPacket
  rw [hfind]
  cases flag with
  | false => exact h.closeSession p.key
  | true =>
    split_ifs
    · exact (h.touch now p.key).closeSession p.key
    · exact h.touch now p.key

theorem Sound.forwardUdpPacket (h : r.Sound) (now : Int) (p : UdpPacket) (answers : UdpAnswers) :
    (¬ r.Strands (.forward now p answers) ∧ (r.forwardUdpPacket now p answers).Sound) ∨
      (r.Strands (.forward now p answers) ∧ ¬ (r.forwardUdpPacket now p answers).NoLeak) := by
  rcases findSession_cases h now p answers with
    ⟨hfind, hnot⟩ | ⟨found, flag, hfind, hfound, hnot⟩ | ⟨evicted, hevicted, hgone, hfind, hstrands⟩
  · refine .inl ⟨hnot, ?_⟩
    rw [UdpRelay.forwardUdpPacket, hfind]
    exact h
  · exact .inl ⟨hnot, forwardUdpPacket_of_found hfind hfound⟩
  · refine .inr ⟨hstrands, ?_⟩
    have hforward : r.forwardUdpPacket now p answers = evicted.openSocket := by
      rw [UdpRelay.forwardUdpPacket, hfind]
      exact closeSession_of_none hgone
    rw [hforward]
    exact hevicted.openSocket_leaks

theorem Sound.step (h : r.Sound) (e : UdpEvent) :
    (¬ r.Strands e ∧ (r.step e).Sound) ∨ (r.Strands e ∧ ¬ (r.step e).NoLeak) := by
  cases e with
  | forward now p answers => exact h.forwardUdpPacket now p answers
  | close key => exact .inl ⟨id, h.closeSession key⟩
  | networkLost deadNetwork => exact .inl ⟨id, h.handleNetworkLost deadNetwork⟩
  | setUpstreamMode mode => exact .inl ⟨id, h.setUpstreamMode mode⟩
  | clear => exact .inl ⟨id, h.2.clear⟩

/-! ## Runs -/

/-- After every call exactly the sockets and associations of the stored
sessions are open, if and only if no call strands a socket. -/
theorem noLeak_iff_not_strands (events : List UdpEvent) :
    (∀ before, before <+: events → (run before).NoLeak) ↔
      AlongRun (fun before e => ¬ (run before).Strands e) events := by
  have hany : AlongRun (fun _ _ => True) events := alongRun_const.mpr fun _ _ => trivial
  refine forall_prefix_iff_alongRun_of_invariant (I := fun before => (run before).Sound)
    create_sound create_sound.2 ?_ ?_ hany
  · intro before e hsound _
    rw [run, exec_concat]
    rcases hsound.step e with ⟨hnot, hnext⟩ | ⟨hstrands, hleaks⟩
    · exact iff_of_true hnext.2 hnot
    · exact iff_of_false hleaks (not_not_intro hstrands)
  · intro before e hsound _ hnot
    rw [run, exec_concat]
    rcases hsound.step e with ⟨_, hnext⟩ | ⟨hstrands, _⟩
    · exact hnext
    · exact absurd hstrands hnot

def unprotectedQuery : UdpEvent :=
  .forward 0 ⟨⟨.udp, "10.0.0.2", 40000, "9.9.9.9", 53⟩, 30, 0⟩
    { protects := false, victim := ⟨.udp, "10.0.0.2", 40000, "9.9.9.9", 53⟩ }

theorem unprotectedQuery_leaks :
    (run [unprotectedQuery]).openSockets = {0} ∧
      (run [unprotectedQuery]).activeSessions.entries = [] ∧ ¬ (run [unprotectedQuery]).NoLeak := by
  have hopen : (run [unprotectedQuery]).openSockets = {0} := by decide +kernel
  have hnone : (run [unprotectedQuery]).activeSessions.entries = [] := by decide +kernel
  refine ⟨hopen, hnone, fun hleak => ?_⟩
  obtain ⟨k, s, hs, _⟩ := (hleak.1 0).mp (by rw [hopen]; exact Finset.mem_singleton_self 0)
  have hmem := AList.mem_lookup_iff.mp hs
  cases hmem

end UdpRelay

end BigRocket.Relay
