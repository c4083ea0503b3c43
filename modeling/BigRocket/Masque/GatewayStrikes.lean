/-
`GatewayStrikes` and the loop of `run_masque`, with no peer forced: which gateway
a tunnel goes through, and which ones rest. Times are seconds. What the gateways
answer is part of a pass, and `hunt_masque_peer` is any function that returns no
address it is told to leave out.
-/
import BigRocket.Lib.History
import BigRocket.Net.Address

namespace BigRocket.Masque

open Lib Net List

def tunnelStayedUp : Nat := 300

def masqueGatewayStrikes : Nat := 2

def masqueGatewayRest : Nat := 300

def countTunnelEnd (inARow lasted : Nat) : Nat :=
  if tunnelStayedUp ≤ lasted then 0 else min (inARow + 1) (2 ^ 32 - 1)

structure GatewayStrikes where
  current : Option SocketAddr
  inARow : Nat
  resting : IpAddr → Option Nat

namespace GatewayStrikes

def usingPeer (peer : SocketAddr) (s : GatewayStrikes) : GatewayStrikes :=
  if s.current ≠ some peer then { s with current := some peer, inARow := 0 } else s

def ended (lasted : Nat) (s : GatewayStrikes) : GatewayStrikes :=
  { s with inARow := countTunnelEnd s.inARow lasted }

def giveUp (now : Nat) (s : GatewayStrikes) : Option SocketAddr × GatewayStrikes :=
  if s.inARow < masqueGatewayStrikes then (none, s)
  else
    match s.current with
    | none => (none, { s with inARow := 0 })
    | some peer =>
      (some peer, ⟨none, 0, Function.update s.resting peer.ip (some (now + masqueGatewayRest))⟩)

def leftOut (now : Nat) (s : GatewayStrikes) : GatewayStrikes :=
  { s with resting := fun ip => (s.resting ip).filter (now < ·) }

end GatewayStrikes

/-! ## The loop -/

/-- What happened, for the statements: a tunnel with the time of the scan that
chose it, if there was one, or a gateway that was given up. -/
inductive GatewayLog where
  | tunnel (peer : SocketAddr) (lasted : Nat) (scanned : Option Nat)
  | gaveUp (peer : SocketAddr) (time : Nat)

structure MasqueRun where
  clock : Nat
  quickPeer : Option SocketAddr
  lastGoodPeer : Option SocketAddr
  strikes : GatewayStrikes
  log : List GatewayLog

structure Pass where
  /-- How long after the last pass this one begins, and its scan after that. -/
  wait : Nat
  verifies : Nat
  responds : Bool
  hunt : (IpAddr → Bool) → Option SocketAddr
  hunt_leftOut : ∀ out peer, hunt out = some peer → out peer.ip = false
  lasted : Nat

namespace MasqueRun

def tunnel (peer : SocketAddr) (lasted : Nat) (scanned : Option Nat) (s : MasqueRun) : MasqueRun :=
  { s with
    clock := s.clock + lasted
    lastGoodPeer := some peer
    strikes := (s.strikes.usingPeer peer).ended lasted
    log := .tunnel peer lasted scanned :: s.log }

def giveUp (s : MasqueRun) : MasqueRun :=
  match s.strikes.giveUp s.clock with
  | (some peer, strikes) =>
    { s with strikes, lastGoodPeer := none, log := .gaveUp peer s.clock :: s.log }
  | (none, strikes) => { s with strikes }

def scan (p : Pass) (s : MasqueRun) : MasqueRun :=
  let now := s.clock + p.verifies
  let s := { s with clock := now, strikes := s.strikes.leftOut now }
  match p.hunt fun ip => (s.strikes.resting ip).isSome with
  | some peer => s.tunnel peer p.lasted (some now)
  | none => s

def pass (s : MasqueRun) (p : Pass) : MasqueRun :=
  let s := giveUp { s with clock := s.clock + p.wait }
  match s.quickPeer with
  | some peer => tunnel peer p.lasted none { s with quickPeer := none }
  | none =>
    match s.lastGoodPeer with
    | some peer => if p.responds then s.tunnel peer p.lasted none else s.scan p
    | none => s.scan p

def run (quickPeer : Option SocketAddr) (passes : List Pass) : MasqueRun :=
  exec pass ⟨0, quickPeer, none, ⟨none, 0, fun _ => none⟩, []⟩ passes

end MasqueRun

/-! ## The count -/

def user : List GatewayLog → Option SocketAddr
  | .tunnel peer _ _ :: _ => some peer
  | _ => none

def streak : List GatewayLog → Nat
  | .tunnel peer lasted _ :: rest =>
    if tunnelStayedUp ≤ lasted then 0 else (if user rest = some peer then streak rest else 0) + 1
  | _ => 0

theorem one_le_streak_iff {log : List GatewayLog} {peer : SocketAddr} :
    1 ≤ streak log ∧ user log = some peer ↔
      ∃ lasted t rest, log = .tunnel peer lasted t :: rest ∧ lasted < tunnelStayedUp := by
  rcases log with _ | ⟨⟨p, l, t⟩ | _, rest⟩
  · simp [streak]
  · by_cases hl : tunnelStayedUp ≤ l <;> simp [streak, user, hl]
    grind
  · simp [streak]

theorem two_le_streak_iff {log : List GatewayLog} {peer : SocketAddr} :
    masqueGatewayStrikes ≤ streak log ∧ user log = some peer ↔
      ∃ l₁ t₁ l₂ t₂ rest, log = .tunnel peer l₁ t₁ :: .tunnel peer l₂ t₂ :: rest ∧
        l₁ < tunnelStayedUp ∧ l₂ < tunnelStayedUp := by
  constructor
  · rintro ⟨htwo, huser⟩
    obtain ⟨l₁, t₁, more, rfl, hl₁⟩ := one_le_streak_iff.mp ⟨Nat.le_of_succ_le htwo, huser⟩
    rw [streak, if_neg (not_le.mpr hl₁)] at htwo
    split at htwo
    · next hmore =>
        obtain ⟨l₂, t₂, rest, rfl, hl₂⟩ := one_le_streak_iff.mp ⟨Nat.le_of_succ_le_succ htwo, hmore⟩
        exact ⟨l₁, t₁, l₂, t₂, rest, rfl, hl₁, hl₂⟩
    · cases htwo
      contradiction
  · rintro ⟨l₁, t₁, l₂, t₂, rest, rfl, hl₁, hl₂⟩
    simp [streak, user, not_le.mpr hl₁, not_le.mpr hl₂, masqueGatewayStrikes]

namespace MasqueRun

/-- The fields say what the log says, and each gateway that was given up less
than a rest ago is in the table. -/
structure Counted (s : MasqueRun) : Prop where
  current : s.strikes.current = user s.log
  inARow : s.strikes.inARow = streak s.log
  few : streak s.log ≤ masqueGatewayStrikes
  resting : ∀ peer t, .gaveUp peer t ∈ s.log → t ≤ s.clock ∧ (t + masqueGatewayRest ≤ s.clock ∨
    ∃ end_, s.strikes.resting peer.ip = some end_ ∧ t + masqueGatewayRest ≤ end_)
  rested : ∀ front peer lasted now back,
    s.log = front ++ .tunnel peer lasted (some now) :: back →
      ∀ other t, .gaveUp other t ∈ back → other.ip = peer.ip → t + masqueGatewayRest ≤ now

variable {s : MasqueRun}

theorem Counted.giveUp_eq (h : s.Counted) (now : Nat) :
    (streak s.log < masqueGatewayStrikes ∧ s.strikes.giveUp now = (none, s.strikes)) ∨
      ∃ peer, (masqueGatewayStrikes ≤ streak s.log ∧ user s.log = some peer) ∧
        s.strikes.giveUp now = (some peer, ⟨none, 0,
          Function.update s.strikes.resting peer.ip (some (now + masqueGatewayRest))⟩) := by
  unfold GatewayStrikes.giveUp
  rw [h.inARow, h.current]
  by_cases hfew : streak s.log < masqueGatewayStrikes
  · exact .inl ⟨hfew, if_pos hfew⟩
  · rw [if_neg hfew]
    rw [not_lt] at hfew
    cases huser : user s.log with
    | none =>
      have hnone : streak s.log = 0 := by
        rcases hlog : s.log with _ | ⟨⟨⟩ | _, _⟩ <;> simp_all [streak, user]
      rw [hnone] at hfew
      cases hfew
    | some peer => exact .inr ⟨peer, ⟨hfew, rfl⟩, rfl⟩

theorem Counted.later (h : s.Counted) (d : Nat) : { s with clock := s.clock + d }.Counted :=
  { h with
    resting := fun peer t ht => by
      have := h.resting peer t ht
      grind }

theorem counted_giveUp (h : s.Counted) :
    s.giveUp.Counted ∧ streak s.giveUp.log < masqueGatewayStrikes := by
  unfold giveUp
  rcases h.giveUp_eq s.clock with ⟨hfew, heq⟩ | ⟨peer, -, heq⟩
  · rw [heq]
    exact ⟨h, hfew⟩
  · rw [heq]
    refine ⟨⟨rfl, rfl, Nat.zero_le _, ?_, ?_⟩, Nat.zero_lt_two⟩
    · intro other t ht
      rcases mem_cons.mp ht with ht | ht
      · cases ht
        exact ⟨le_rfl, .inr ⟨_, Function.update_self .., le_rfl⟩⟩
      · have hold := h.resting other t ht
        by_cases hip : other.ip = peer.ip
        · refine ⟨hold.1, .inr ⟨s.clock + masqueGatewayRest, ?_, Nat.add_le_add_right hold.1 _⟩⟩
          simp [hip]
        · simpa [Function.update_of_ne hip] using hold
    · intro front other lasted now back heq
      rcases cons_eq_append_iff.mp heq with ⟨-, htail⟩ | ⟨front, -, htail⟩
      · cases htail
      · exact h.rested front other lasted now back htail

theorem counted_tunnel (h : s.Counted) (hfew : streak s.log < masqueGatewayStrikes)
    (peer : SocketAddr) (lasted : Nat) (scanned : Option Nat)
    (hrest : ∀ now ∈ scanned, ∀ other t, .gaveUp other t ∈ s.log → other.ip = peer.ip →
      t + masqueGatewayRest ≤ now) : (s.tunnel peer lasted scanned).Counted := by
  have husing : s.strikes.usingPeer peer =
      ⟨some peer, if user s.log = some peer then streak s.log else 0, s.strikes.resting⟩ := by
    unfold GatewayStrikes.usingPeer
    rw [h.current]
    by_cases huser : user s.log = some peer
    · rw [if_neg (not_not.mpr huser), if_pos huser, ← h.inARow, ← huser, ← h.current]
    · rw [if_pos huser, if_neg huser]
  unfold masqueGatewayStrikes at hfew
  unfold tunnel
  rw [husing]
  refine ⟨rfl, ?_, ?_, ?_, ?_⟩
  · simp only [GatewayStrikes.ended, countTunnelEnd, streak]
    split
    · rfl
    · exact Nat.min_eq_left (by split <;> omega)
  · simp only [streak, masqueGatewayStrikes]
    split
    · exact Nat.zero_le _
    · split <;> omega
  · intro other t ht
    have := h.resting other t (by simpa using ht)
    simp only [GatewayStrikes.ended]
    grind
  · intro front other l now back heq
    rcases cons_eq_append_iff.mp heq with ⟨-, htail⟩ | ⟨front, -, htail⟩
    · cases htail
      exact hrest now rfl
    · exact h.rested front other l now back htail

theorem counted_scan (h : s.Counted) (hfew : streak s.log < masqueGatewayStrikes) (p : Pass) :
    (s.scan p).Counted := by
  have hlater := h.later p.verifies
  have hleft : Counted { s with
      clock := s.clock + p.verifies
      strikes := s.strikes.leftOut (s.clock + p.verifies) } := by
    refine { hlater with resting := fun peer t ht => ?_ }
    obtain ⟨hle, hover | ⟨until_, hrest, hend⟩⟩ := hlater.resting peer t ht
    · exact ⟨hle, .inl hover⟩
    · refine ⟨hle, ?_⟩
      by_cases hnow : s.clock + p.verifies < until_
      · exact .inr ⟨until_, by simp_all [GatewayStrikes.leftOut], hend⟩
      · exact .inl (hend.trans (not_lt.mp hnow))
  unfold scan
  dsimp only
  split
  · next peer hhunt =>
      refine counted_tunnel hleft hfew peer p.lasted _ ?_
      rintro _ ⟨⟩ other t ht hip
      obtain ⟨-, hover | ⟨until_, hrest, -⟩⟩ := hleft.resting other t ht
      · exact hover
      · have hout := p.hunt_leftOut _ peer hhunt
        rw [← hip, hrest] at hout
        cases hout
  · exact hleft

theorem counted_pass (h : s.Counted) (p : Pass) : (s.pass p).Counted := by
  obtain ⟨hs, hfew⟩ := counted_giveUp (h.later p.wait)
  unfold pass
  generalize giveUp { s with clock := s.clock + p.wait } = s at hs hfew
  dsimp only
  split
  · have hquick : Counted { s with quickPeer := none } :=
      ⟨hs.current, hs.inARow, hs.few, hs.resting, hs.rested⟩
    exact counted_tunnel hquick hfew _ _ none nofun
  · split
    · split
      · exact counted_tunnel hs hfew _ _ none nofun
      · exact counted_scan hs hfew p
    · exact counted_scan hs hfew p

theorem counted_run (quickPeer : Option SocketAddr) (passes : List Pass) :
    (run quickPeer passes).Counted := by
  induction passes using List.reverseRecOn with
  | nil => constructor <;> simp [run, user, streak]
  | append_singleton passes p ih =>
    rw [run, exec_concat]
    exact counted_pass ih p

/-- **A gateway is given up** exactly when the last two tunnels went through it
and ended early, and **none is scanned for** before it has rested. -/
theorem gateways_rested (quickPeer : Option SocketAddr) (passes : List Pass) :
    (∀ now peer, ((run quickPeer passes).strikes.giveUp now).1 = some peer ↔
      ∃ l₁ t₁ l₂ t₂ rest,
        (run quickPeer passes).log = .tunnel peer l₁ t₁ :: .tunnel peer l₂ t₂ :: rest ∧
          l₁ < tunnelStayedUp ∧ l₂ < tunnelStayedUp) ∧
      ∀ front peer lasted now back,
        (run quickPeer passes).log = front ++ .tunnel peer lasted (some now) :: back →
          ∀ other t, .gaveUp other t ∈ back → other.ip = peer.ip →
            t + masqueGatewayRest ≤ now := by
  have h := counted_run quickPeer passes
  refine ⟨fun now peer => ?_, h.rested⟩
  rw [← two_le_streak_iff]
  rcases h.giveUp_eq now with ⟨hfew, heq⟩ | ⟨other, ⟨hmany, huser⟩, heq⟩
  · simp [heq, not_le.mpr hfew]
  · simp [heq, hmany, huser]

end MasqueRun

end BigRocket.Masque
