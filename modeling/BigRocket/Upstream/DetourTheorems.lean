/-
While its guard lives, a detoured socket sends to its shim, except after two
things: its pump has ended, or its local address was attached once more.
-/
import BigRocket.Upstream.Detour

namespace BigRocket.Upstream

open Lib Net Routing Option Function

namespace Detours

variable {s : Detours} {configured : Bool}

/-- Whatever `flush` sends, on the socket of a living guard and to its peer,
goes to its shim. -/
def Detoured (s : Detours) : Prop :=
  ∀ id guard, s.guards id = some guard → ∀ sockets sender target,
    s.flushRound sockets sender guard.peer = some (guard.client, target) → target = guard.shim

variable {id : Nat} {peer : SocketAddr} {guard : DetourGuard}

theorem flushRound_eq {sockets : List SocketAddr} {sender socket target : SocketAddr}
    (h : s.flushRound sockets sender peer = some (socket, target)) :
    target = s.relayTarget socket peer := by
  unfold flushRound at h
  split at h
  · cases h
    rfl
  · cases hhead : sockets.head? with
    | none =>
      rw [hhead] at h
      cases h
    | some first =>
      rw [hhead] at h
      cases h
      rfl

theorem detoured_iff : s.Detoured ↔
    ∀ id guard, s.guards id = some guard → s.relayTarget guard.client guard.peer = guard.shim := by
  constructor
  · intro h id guard hguard
    exact h id guard hguard [guard.client] guard.client _ (by simp [flushRound])
  · intro h id guard hguard sockets sender target hround
    rw [flushRound_eq hround]
    exact h id guard hguard

/-! ## The invariant -/

/-- Each living guard has its entry in the table and its pump running, ids
are given out once, and no shim is a peer that needs the proxy. -/
structure Owns (s : Detours) : Prop where
  entry : ∀ id guard, s.guards id = some guard →
    s.table guard.client = some ⟨id, guard.shim, guard.peer⟩
  pump : ∀ id guard, s.guards id = some guard → s.pumps id = some guard.shim
  fresh : ∀ id guard, s.guards id = some guard → id < s.nextId
  apart : ∀ id guard, s.guards id = some guard → guard.peer ≠ guard.shim

theorem owns_create : Owns create where
  entry _ _ h := nomatch h
  pump _ _ h := nomatch h
  fresh _ _ h := nomatch h
  apart _ _ h := nomatch h

theorem Owns.detoured (h : s.Owns) : s.Detoured := by
  rw [detoured_iff]
  intro id guard hguard
  simp [relayTarget, h.entry id guard hguard]

theorem Owns.client_inj (h : s.Owns) {other : Nat} {guard' : DetourGuard}
    (hguard : s.guards id = some guard) (hother : s.guards other = some guard')
    (hclient : guard.client = guard'.client) : id = other := by
  have hentry := h.entry id guard hguard
  rw [hclient, h.entry other guard' hother] at hentry
  injection hentry with hentry
  injection hentry with hid
  exact hid.symm

/-! ## One event -/

/-- What disturbs a living guard: another detour of its socket, or the end
of its pump. -/
def Disturbs (configured : Bool) (s : Detours) : DetourEvent → Prop
  | .attach client peer _ => configured = true ∧ isPrivate peer.ip = false ∧
      ∃ id guard, s.guards id = some guard ∧ guard.client = client
  | .pumpEnds id => ∃ guard, s.guards id = some guard
  | .dropGuard _ => False

def BindsFresh (s : Detours) : DetourEvent → Prop
  | .attach client _ shimPort => ∀ id, s.pumps id ≠ some ⟨loopback client.ip, shimPort⟩
  | _ => True

theorem isPrivate_loopback (ip : IpAddr) : isPrivate (loopback ip) = true := by
  cases ip with
  | v4 bits => show isPrivate (.v4 0x7f000001) = true; decide
  | v6 bits => show isPrivate (.v6 1) = true; decide

theorem attachDetourVia_of_public (hpeer : isPrivate peer.ip = false) (client : SocketAddr)
    (shimPort : Nat) :
    s.attachDetourVia client peer shimPort =
      { table := update s.table client
          (some ⟨s.nextId, ⟨loopback client.ip, shimPort⟩, peer⟩)
        nextId := s.nextId + 1
        guards := update s.guards s.nextId
          (some ⟨client, peer, ⟨loopback client.ip, shimPort⟩⟩)
        pumps := update s.pumps s.nextId (some ⟨loopback client.ip, shimPort⟩) } := by
  simp [attachDetourVia, hpeer]

theorem Owns.attachDetourVia (h : s.Owns) {client : SocketAddr}
    (hpeer : isPrivate peer.ip = false)
    (hnone : ∀ id guard, s.guards id = some guard → guard.client ≠ client) (shimPort : Nat) :
    (s.attachDetourVia client peer shimPort).Owns := by
  rw [attachDetourVia_of_public hpeer]
  -- a guard of the new state is the new one, or an old one of another socket
  have hold : ∀ id guard, update s.guards s.nextId
      (some ⟨client, peer, ⟨loopback client.ip, shimPort⟩⟩) id = some guard →
      (id = s.nextId ∧ guard = ⟨client, peer, ⟨loopback client.ip, shimPort⟩⟩) ∨
        (id ≠ s.nextId ∧ s.guards id = some guard) := by
    intro id guard hguard
    by_cases hid : id = s.nextId
    · subst hid
      rw [update_self] at hguard
      exact .inl ⟨rfl, (Option.some.inj hguard).symm⟩
    · rw [update_of_ne hid] at hguard
      exact .inr ⟨hid, hguard⟩
  constructor
  · intro id guard hguard
    rcases hold id guard hguard with ⟨rfl, rfl⟩ | ⟨-, hguard⟩
    · exact update_self ..
    · exact (update_of_ne (hnone id guard hguard) ..).trans (h.entry id guard hguard)
  · intro id guard hguard
    rcases hold id guard hguard with ⟨rfl, rfl⟩ | ⟨hid, hguard⟩
    · exact update_self ..
    · exact (update_of_ne hid ..).trans (h.pump id guard hguard)
  · intro id guard hguard
    rcases hold id guard hguard with ⟨rfl, rfl⟩ | ⟨-, hguard⟩
    · exact Nat.lt_succ_self _
    · exact Nat.lt_succ_of_lt (h.fresh id guard hguard)
  · intro id guard hguard
    rcases hold id guard hguard with ⟨rfl, rfl⟩ | ⟨-, hguard⟩
    · intro hsame
      have hshim : peer = ⟨loopback client.ip, shimPort⟩ := hsame
      rw [hshim, isPrivate_loopback] at hpeer
      cases hpeer
    · exact h.apart id guard hguard

theorem Owns.not_detoured_attachDetourVia (h : s.Owns) {client : SocketAddr}
    (hpeer : isPrivate peer.ip = false) (hguard : s.guards id = some guard)
    (hclient : guard.client = client) {shimPort : Nat}
    (hfresh : ∀ id, s.pumps id ≠ some ⟨loopback client.ip, shimPort⟩) :
    ¬ (s.attachDetourVia client peer shimPort).Detoured := by
  rw [attachDetourVia_of_public hpeer, detoured_iff]
  intro hdetoured
  have hid : id ≠ s.nextId := (h.fresh id guard hguard).ne
  have hsame := hdetoured id guard ((update_of_ne hid ..).trans hguard)
  simp only [relayTarget, hclient, update_self, map_some, getD_some] at hsame
  exact hfresh id (by rw [h.pump id guard hguard, hsame])

theorem Owns.forgetDetour (h : s.Owns) (hguard : s.guards id = some guard) :
    s.forgetDetour guard.client id =
      { s with table := update s.table guard.client none } := by
  simp [Detours.forgetDetour, h.entry id guard hguard]

theorem Owns.dropGuard (h : s.Owns) (id : Nat) : (s.dropGuard id).Owns := by
  unfold Detours.dropGuard
  cases hguard : s.guards id with
  | none => exact h
  | some guard =>
    dsimp only
    rw [h.forgetDetour hguard]
    have hold : ∀ other guard', update s.guards id none other = some guard' →
        other ≠ id ∧ s.guards other = some guard' := by
      intro other guard' hother
      by_cases heq : other = id
      · rw [heq, update_self] at hother
        cases hother
      · rw [update_of_ne heq] at hother
        exact ⟨heq, hother⟩
    constructor
    · intro other guard' hother
      obtain ⟨hne, hother⟩ := hold other guard' hother
      have hclient : guard'.client ≠ guard.client :=
        fun hclient => hne (h.client_inj hother hguard hclient)
      exact (update_of_ne hclient ..).trans (h.entry other guard' hother)
    · intro other guard' hother
      obtain ⟨hne, hother⟩ := hold other guard' hother
      exact (update_of_ne hne ..).trans (h.pump other guard' hother)
    · exact fun other guard' hother => h.fresh other guard' (hold other guard' hother).2
    · exact fun other guard' hother => h.apart other guard' (hold other guard' hother).2

theorem Owns.not_detoured_pumpEnds (h : s.Owns) (hguard : s.guards id = some guard) :
    ¬ (s.pumpEnds id).Detoured := by
  rw [detoured_iff]
  intro hdetoured
  have hstep : s.pumpEnds id =
      { s with
        table := update s.table guard.client none
        pumps := update s.pumps id none } := by
    simp [Detours.pumpEnds, hguard, h.pump id guard hguard, h.forgetDetour hguard]
  rw [hstep] at hdetoured
  have hsame := hdetoured id guard hguard
  simp only [relayTarget, update_self, map_none, getD_none] at hsame
  exact h.apart id guard hguard hsame

theorem Owns.pumpEnds_of_none (hguard : s.guards id = none) : s.pumpEnds id = s := by
  simp [Detours.pumpEnds, hguard]

theorem Owns.step (h : s.Owns) {e : DetourEvent} (he : ¬ Disturbs configured s e) :
    (s.step configured e).Owns := by
  cases e with
  | attach client peer shimPort =>
    show (s.attachDetour configured client peer shimPort).Owns
    unfold attachDetour
    split
    case isFalse => exact h
    case isTrue hconfigured =>
      cases hpeer : isPrivate peer.ip with
      | true => simpa [Detours.attachDetourVia, hpeer] using h
      | false =>
        refine h.attachDetourVia hpeer (fun id guard hguard hclient => ?_) shimPort
        exact he ⟨hconfigured, hpeer, id, guard, hguard, hclient⟩
  | pumpEnds id =>
    show (s.pumpEnds id).Owns
    cases hguard : s.guards id with
    | none => rw [Owns.pumpEnds_of_none hguard]; exact h
    | some guard => exact absurd ⟨guard, hguard⟩ he
  | dropGuard id => exact h.dropGuard id

theorem Owns.detoured_step_iff (h : s.Owns) {e : DetourEvent} (hfresh : BindsFresh s e) :
    (s.step configured e).Detoured ↔ ¬ Disturbs configured s e := by
  constructor
  · intro hdetoured hdisturbs
    cases e with
    | attach client peer shimPort =>
      obtain ⟨rfl, hpeer, id, guard, hguard, hclient⟩ := hdisturbs
      exact h.not_detoured_attachDetourVia hpeer hguard hclient hfresh hdetoured
    | pumpEnds id =>
      obtain ⟨guard, hguard⟩ := hdisturbs
      exact h.not_detoured_pumpEnds hguard hdetoured
    | dropGuard id => exact hdisturbs
  · exact fun he => (h.step he).detoured

/-! ## Every run -/

/-- **Nothing goes past a shim** exactly when no pump ends and no socket is
attached once more while the guard lives. -/
theorem detoured_iff_undisturbed (configured : Bool) {events : List DetourEvent}
    (hfresh : AlongRun (fun before e => BindsFresh (run configured before) e) events) :
    (∀ before, before <+: events → (run configured before).Detoured) ↔
      AlongRun (fun before e => ¬ Disturbs configured (run configured before) e) events := by
  refine forall_prefix_iff_alongRun_of_invariant (I := fun before => (run configured before).Owns)
    owns_create owns_create.detoured ?_ ?_ hfresh
  · intro before e howns hbinds
    rw [run, exec_concat]
    exact howns.detoured_step_iff hbinds
  · intro before e howns _ he
    rw [run, exec_concat]
    exact howns.step he

def sampleClient : SocketAddr := ⟨.ofOctets 0 0 0 0, 40000⟩

def samplePeer : SocketAddr := ⟨.ofOctets 162 159 198 1, 443⟩

theorem attached_and_dropped_detoured :
    (run true [.attach sampleClient samplePeer 5000]).relayTarget sampleClient samplePeer =
        ⟨.ofOctets 127 0 0 1, 5000⟩ ∧
      ∀ before, before <+: [.attach sampleClient samplePeer 5000, .dropGuard 1] →
        (run true before).Detoured := by
  refine ⟨by decide, (detoured_iff_undisturbed true ?_).mpr ?_⟩
  · rw [alongRun_iff_forall_get]
    intro i
    fin_cases i
    · intro id hid
      cases hid
    · trivial
  · rw [alongRun_iff_forall_get]
    intro i
    fin_cases i
    · rintro ⟨-, -, id, guard, hguard, -⟩
      cases hguard
    · exact fun h => h

theorem pump_end_leaks :
    (run true [.attach sampleClient samplePeer 5000, .pumpEnds 1]).guards 1 =
        some ⟨sampleClient, samplePeer, ⟨.ofOctets 127 0 0 1, 5000⟩⟩ ∧
      (run true [.attach sampleClient samplePeer 5000, .pumpEnds 1]).flushRound
        [sampleClient] sampleClient samplePeer = some (sampleClient, samplePeer) ∧
      ¬ (run true [.attach sampleClient samplePeer 5000, .pumpEnds 1]).Detoured := by
  refine ⟨by decide, by decide, fun hdetoured => ?_⟩
  have hsame := hdetoured 1 ⟨sampleClient, samplePeer, ⟨.ofOctets 127 0 0 1, 5000⟩⟩ (by decide)
    [sampleClient] sampleClient samplePeer (by decide)
  revert hsame
  decide

end Detours

end BigRocket.Upstream
