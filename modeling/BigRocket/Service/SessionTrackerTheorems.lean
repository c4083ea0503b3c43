/-
When no session is pinned to a network that is gone: a session is migrated only
when the other kind of network is there.
-/
import BigRocket.Service.SessionTracker

namespace BigRocket.Service

open Lib Relay Option

namespace TunPacketRouter

variable {r : TunPacketRouter} {n : Network} {key : SessionKey}

def PinsCurrent (r : TunPacketRouter) : Prop :=
  ∀ key s, r.sessionTracker.activeSessions key = some s → r.IsCurrent s.assignedNetwork

def SelectsCurrent (r : TunPacketRouter) : Prop :=
  r.path3Router.wifiNetwork = r.wifiNetwork ∧ r.path3Router.cellularNetwork = r.cellularNetwork

def AnswersCurrent (r : TunPacketRouter) : Prop :=
  ∀ key now slot n, (r.networkFor key now slot).1 = some n → r.IsCurrent n

/-! ## One call -/

theorem isCurrent_of_selectNetwork {slot : Option Int} (h : r.SelectsCurrent)
    (hn : r.path3Router.selectNetwork slot = some n) : r.IsCurrent n := by
  obtain ⟨hwifi, hcellular⟩ := h
  rw [IsCurrent, ← hwifi, ← hcellular]
  unfold Path3Router.selectNetwork at hn
  split at hn
  · rename_i wifi cellular hw hc
    rw [hw, hc]
    split at hn
    · split at hn
      · exact .inl hn
      · exact .inr hn
    · split at hn
      · exact .inr hn
      · exact .inl hn
  · rename_i hw hc
    rw [hw]
    exact .inl hn
  · exact .inr hn

theorem answersCurrent_iff (h : r.SelectsCurrent) : r.AnswersCurrent ↔ r.PinsCurrent := by
  constructor
  · intro hall key s hs
    apply hall key 0 0 s.assignedNetwork
    simp only [networkFor, NetworkSessionTracker.getOrAssignNetwork, hs]
  · intro hpins key now slot n hn
    unfold networkFor NetworkSessionTracker.getOrAssignNetwork at hn
    split at hn
    · rename_i s hs
      cases hn
      exact hpins key s hs
    · cases hn
    · rename_i target _ htarget
      cases hn
      exact isCurrent_of_selectNetwork h htarget

def movedTo (r : TunPacketRouter) (wifi cellular : Option Network) (n : Network) : Network :=
  match wifi, cellular with
  | none, some fallback => if r.wifiNetwork = some n then fallback else n
  | some fallback, none => if r.cellularNetwork = some n then fallback else n
  | _, _ => n

variable (wifi cellular : Option Network)

theorem activeSessions_updateNetworks :
    (r.updateNetworks wifi cellular).sessionTracker.activeSessions key =
      (r.sessionTracker.activeSessions key).map fun s =>
        { s with assignedNetwork := r.movedTo wifi cellular s.assignedNetwork } := by
  have hid : (fun s : SessionValue => s) = id := rfl
  have hmoves : ∀ (old : Option Network) (fallback : Network),
      (migrateLost r.sessionTracker old none (some fallback)).activeSessions key =
        (r.sessionTracker.activeSessions key).map fun s =>
          { s with
            assignedNetwork := if old = some s.assignedNetwork then fallback
              else s.assignedNetwork } := by
    intro old fallback
    cases old with
    | none => simp [migrateLost]
    | some dead =>
      simp only [migrateLost, NetworkSessionTracker.migrateSessionsFromLostNetwork]
      congr 1
      funext s
      by_cases hs : s.assignedNetwork = dead
      · simp [hs]
      · simp [hs, Ne.symm hs]
  have hstays : ∀ (t : NetworkSessionTracker) (old : Option Network) (n : Network)
      (other : Option Network), migrateLost t old (some n) other = t := by
    intro t old n other
    cases old <;> rfl
  have hnone : ∀ (t : NetworkSessionTracker) (old now : Option Network),
      migrateLost t old now none = t := by
    intro t old now
    cases old with
    | none => rfl
    | some dead => cases now <;> rfl
  cases wifi with
  | none =>
    cases cellular with
    | none => simp [updateNetworks, hnone, movedTo, hid]
    | some fallback => simp only [updateNetworks, hstays, hmoves, movedTo]
  | some w =>
    cases cellular with
    | none => simp only [updateNetworks, hstays, hmoves, movedTo]
    | some fallback => simp [updateNetworks, hstays, movedTo, hid]

/-- The call leaves a session pinned to a network that is not there, or moves
sessions to one. -/
def Strands (r : TunPacketRouter) : RouterEvent → Prop
  | .networks wifi cellular =>
    ∃ key s, r.sessionTracker.activeSessions key = some s ∧
      ¬ (wifi = some s.assignedNetwork ∨ cellular = some s.assignedNetwork ∨
        (r.wifiNetwork = some s.assignedNetwork ∧ wifi = none ∧ cellular ≠ none) ∨
        (r.cellularNetwork = some s.assignedNetwork ∧ cellular = none ∧ wifi ≠ none))
  | .softFailure failed (some fallback) =>
    ¬ r.IsCurrent fallback ∧
      ∃ key s, r.sessionTracker.activeSessions key = some s ∧ s.assignedNetwork = failed
  | _ => False

theorem isCurrent_movedTo_iff :
    (r.updateNetworks wifi cellular).IsCurrent (r.movedTo wifi cellular n) ↔
      wifi = some n ∨ cellular = some n ∨
        (r.wifiNetwork = some n ∧ wifi = none ∧ cellular ≠ none) ∨
        (r.cellularNetwork = some n ∧ cellular = none ∧ wifi ≠ none) := by
  cases wifi with
  | none =>
    cases cellular with
    | none => simp [IsCurrent, updateNetworks, movedTo]
    | some fallback =>
      simp only [IsCurrent, updateNetworks, movedTo]
      by_cases hold : r.wifiNetwork = some n
      · simp [hold]
      · simp [hold]
  | some w =>
    cases cellular with
    | none =>
      simp only [IsCurrent, updateNetworks, movedTo]
      by_cases hold : r.cellularNetwork = some n
      · simp [hold]
      · simp [hold]
    | some fallback => simp [IsCurrent, updateNetworks, movedTo]

theorem pinsCurrent_updateNetworks_iff :
    (r.updateNetworks wifi cellular).PinsCurrent ↔ ¬ r.Strands (.networks wifi cellular) := by
  constructor
  · rintro hpins ⟨key, s, hs, hnot⟩
    apply hnot
    rw [← isCurrent_movedTo_iff]
    apply hpins key { s with assignedNetwork := r.movedTo wifi cellular s.assignedNetwork }
    rw [activeSessions_updateNetworks, hs]
    rfl
  · intro hnot key s' hs'
    rw [activeSessions_updateNetworks] at hs'
    obtain ⟨s, hs, rfl⟩ := map_eq_some_iff.mp hs'
    rw [isCurrent_movedTo_iff]
    by_contra hstranded
    exact hnot ⟨key, s, hs, hstranded⟩

theorem pinsCurrent_softFailure_iff (h : r.PinsCurrent) (failed : Network)
    (fallback : Option Network) :
    (r.notifySoftFailure failed fallback).PinsCurrent ↔
      ¬ r.Strands (.softFailure failed fallback) := by
  cases fallback with
  | none => exact ⟨fun _ => id, fun _ => h⟩
  | some fallback =>
    constructor
    · rintro hpins ⟨hnot, key, s, hs, hfailed⟩
      apply hnot
      apply hpins key { s with assignedNetwork := fallback }
      simp [notifySoftFailure, NetworkSessionTracker.migrateSessionsFromLostNetwork, hs, hfailed]
    · intro hnot key s' hs'
      obtain ⟨s, hs, heq⟩ := map_eq_some_iff.mp hs'
      split at heq
      · rename_i hfailed
        cases heq
        by_contra hfallback
        exact hnot ⟨hfallback, key, s, hs, hfailed⟩
      · cases heq
        exact h key _ hs

theorem pinsCurrent_packet (h : r.PinsCurrent) (hselects : r.SelectsCurrent) (key : SessionKey)
    (now slot : Int) : (r.step (.packet key now slot)).PinsCurrent := by
  intro key' s' hs'
  have hmem : ∀ (t : NetworkSessionTracker) (value : SessionValue),
      (t.put key value).activeSessions key' = some s' →
        (key' = key ∧ s' = value) ∨ t.activeSessions key' = some s' := by
    intro t value hput
    by_cases heq : key' = key
    · subst heq
      simp only [NetworkSessionTracker.put, Function.update_self] at hput
      exact .inl ⟨rfl, (Option.some.inj hput).symm⟩
    · simp only [NetworkSessionTracker.put, Function.update_of_ne heq] at hput
      exact .inr hput
  simp only [step, networkFor] at hs'
  unfold NetworkSessionTracker.getOrAssignNetwork at hs'
  split at hs'
  · rename_i s hs
    rcases hmem _ _ hs' with ⟨rfl, rfl⟩ | hold
    · exact h key' s hs
    · exact h key' s' hold
  · exact h key' s' hs'
  · rename_i target _ htarget
    have hput := (filter_eq_some_iff.mp hs').1
    rcases hmem _ _ hput with ⟨rfl, rfl⟩ | hold
    · exact isCurrent_of_selectNetwork hselects htarget
    · exact h key' s' hold

theorem selectsCurrent_step (h : r.SelectsCurrent) (e : RouterEvent) :
    (r.step e).SelectsCurrent := by
  cases e with
  | networks wifi cellular => exact ⟨rfl, rfl⟩
  | weights wifi cellular => exact h
  | softFailure failed fallback => cases fallback <;> exact h
  | packet key now slot => exact h
  | stop => exact h

theorem pinsCurrent_step_iff (h : r.PinsCurrent) (hselects : r.SelectsCurrent) (e : RouterEvent) :
    (r.step e).PinsCurrent ↔ ¬ r.Strands e := by
  cases e with
  | networks wifi cellular => exact pinsCurrent_updateNetworks_iff wifi cellular
  | weights wifi cellular => exact ⟨fun _ => id, fun _ => h⟩
  | softFailure failed fallback => exact pinsCurrent_softFailure_iff h failed fallback
  | packet key now slot => exact ⟨fun _ => id, fun _ => pinsCurrent_packet h hselects key now slot⟩
  | stop => exact ⟨fun _ => id, fun _ => nofun⟩

/-! ## Every run -/

theorem selectsCurrent_run (events : List RouterEvent) : (run events).SelectsCurrent := by
  induction events using List.reverseRecOn with
  | nil => exact ⟨rfl, rfl⟩
  | append_singleton events e ih =>
    rw [run, exec_concat]
    exact selectsCurrent_step ih e

/-- At every moment of a run each packet that might come goes to a network of
the moment exactly when no call strands a session. -/
theorem answersCurrent_iff_not_strands (events : List RouterEvent) :
    (∀ before, before <+: events → (run before).AnswersCurrent) ↔
      AlongRun (fun before e => ¬ (run before).Strands e) events := by
  apply forall_prefix_iff_alongRun
  · exact (answersCurrent_iff (selectsCurrent_run [])).mpr nofun
  · intro before e hanswers
    have hpins := (answersCurrent_iff (selectsCurrent_run before)).mp hanswers
    rw [answersCurrent_iff (selectsCurrent_run (before ++ [e])), run, exec_concat]
    exact pinsCurrent_step_iff hpins (selectsCurrent_run before) e

open NetworkSessionTracker in
theorem pinned_getOrAssignNetwork {t : NetworkSessionTracker} {now : Int} {sel : Option Network}
    (h : (t.getOrAssignNetwork key now sel).1 = some n) :
    ∃ s, (t.getOrAssignNetwork key now sel).2.activeSessions key = some s ∧
      s.assignedNetwork = n := by
  unfold getOrAssignNetwork at h ⊢
  cases hs : t.activeSessions key with
  | some s => simp_all [put]
  | none => cases sel <;> simp_all [put, cleanupOldSessions, timeoutMs, Option.filter]

def webKey : SessionKey := ⟨.tcp, "10.0.0.2", 40000, "1.1.1.1", 443⟩

theorem pinned_to_lost_network :
    ((run [.networks (some 1) none, .packet webKey 0 0, .networks (some 2) none]).networkFor
        webKey 1 1).1 = some 1 ∧
      ¬ (run [.networks (some 1) none, .packet webKey 0 0, .networks (some 2) none]).IsCurrent 1 ∧
      ((run [.networks (some 1) none, .packet webKey 0 0, .networks none none]).networkFor
        webKey 1 1).1 = some 1 ∧
      ¬ (run [.networks (some 1) none, .packet webKey 0 0, .networks none none]).IsCurrent 1 := by
  decide

end TunPacketRouter

end BigRocket.Service
