/-
The recovery ramp: a path that comes back to `ACTIVE` starts with a small
weight, if `selectPath` was called while it was away.
-/
import BigRocket.Bonding.SmoothingTheorems

namespace BigRocket.Bonding

open Lib List Option

/-! ## State changes and selections, interleaved -/

/-- A path is named by its place in `pathRuntimes`. The watchdog makes two
transitions, and another coroutine may run between them. -/
inductive PathEvent where
  | sendFails (path : Nat)
  | reconnected (path : Nat)
  | activated (path : Nat)
  | stop (disconnects : Nat → Bool)
  | selectPath (targets : PathId → Int)

structure SchedulingEngine where
  pathRuntimes : List PathRuntime
  scheduler : AdaptiveScheduler

namespace SchedulingEngine

def step (e : SchedulingEngine) : PathEvent → SchedulingEngine
  | .sendFails path =>
    { e with pathRuntimes := e.pathRuntimes.modify path (·.transitionTo .failed) }
  | .reconnected path =>
    { e with pathRuntimes := e.pathRuntimes.modify path (·.transitionTo .recovering) }
  | .activated path =>
    { e with pathRuntimes := e.pathRuntimes.modify path (·.transitionTo .active) }
  | .stop disconnects =>
    { e with
      pathRuntimes := e.pathRuntimes.mapIdx fun i p => (p.stop (disconnects i)).getD p }
  | .selectPath targets =>
    { e with scheduler := (e.scheduler.selectPath targets e.pathRuntimes).2 }

def run (start : SchedulingEngine) (events : List PathEvent) : SchedulingEngine :=
  exec step start events

def Several (e : SchedulingEngine) : Prop :=
  2 ≤ (e.pathRuntimes.filter PathRuntime.eligible).length

instance (e : SchedulingEngine) : Decidable e.Several := Nat.decLe _ _

def stateOf (e : SchedulingEngine) (i : Nat) : Option PathState :=
  e.pathRuntimes[i]?.map PathRuntime.state

end SchedulingEngine

/-! ## One call -/

namespace AdaptiveScheduler

variable {s : AdaptiveScheduler} {paths : List PathRuntime} {p : PathRuntime}

theorem smoothedWeights_detect_of_notMem {id : PathId} (h : ∀ q ∈ paths, q.id ≠ id) :
    (paths.foldl detectFreshRecovery s).smoothedWeights id = s.smoothedWeights id := by
  induction paths generalizing s with
  | nil => rfl
  | cons q paths ih =>
    rw [foldl_cons, ih fun r hr => h r (mem_cons_of_mem q hr)]
    simp only [detectFreshRecovery]
    split
    · exact Function.update_of_ne (h q (by simp)).symm _ _
    · rfl

theorem smoothedWeights_detect (hids : DistinctIds paths) (hp : p ∈ paths) :
    (paths.foldl detectFreshRecovery s).smoothedWeights p.id =
      if (s.lastKnownState p.id).any (· ≠ .active) && p.state = .active then
        some s.recoveryStartWeight
      else s.smoothedWeights p.id := by
  induction paths generalizing s with
  | nil => cases hp
  | cons q paths ih =>
    obtain ⟨hnot, hrest⟩ := hids.cons
    rw [foldl_cons]
    rcases mem_cons.mp hp with rfl | hp
    · rw [smoothedWeights_detect_of_notMem hnot]
      simp only [detectFreshRecovery]
      split
      · exact Function.update_self ..
      · rfl
    · have hne : p.id ≠ q.id := hnot p hp
      rw [ih hrest hp]
      simp only [detectFreshRecovery, Function.update_of_ne hne]
      congr 1
      split
      · exact Function.update_of_ne hne _ _
      · rfl

end AdaptiveScheduler

/-! ## Every run -/

namespace SchedulingEngine

open AdaptiveScheduler (DistinctIds)

variable {e start : SchedulingEngine} {event : PathEvent} {i : Nat}

theorem id_transitionTo (next : PathState) (p : PathRuntime) : (p.transitionTo next).id = p.id := by
  unfold PathRuntime.transitionTo
  split
  · rfl
  · rfl

theorem id_stop (disconnects : Bool) (p : PathRuntime) : ((p.stop disconnects).getD p).id = p.id := by
  unfold PathRuntime.stop
  split
  · exact id_transitionTo .closed p
  · rfl

theorem map_id_modify (path : Nat) (next : PathState) (paths : List PathRuntime) :
    (paths.modify path (·.transitionTo next)).map PathRuntime.id = paths.map PathRuntime.id := by
  refine ext_getElem? fun j => ?_
  rw [getElem?_map, getElem?_map, getElem?_modify]
  cases paths[j]? with
  | none => rfl
  | some p =>
    simp only [Option.map_some, Option.map_eq_map]
    split
    · rw [id_transitionTo]
    · rfl

theorem ids_step (e : SchedulingEngine) (event : PathEvent) :
    (e.step event).pathRuntimes.map PathRuntime.id = e.pathRuntimes.map PathRuntime.id := by
  cases event with
  | sendFails path => exact map_id_modify path .failed _
  | reconnected path => exact map_id_modify path .recovering _
  | activated path => exact map_id_modify path .active _
  | stop disconnects =>
    refine ext_getElem? fun j => ?_
    rw [step, getElem?_map, getElem?_map, getElem?_mapIdx]
    cases e.pathRuntimes[j]? with
    | none => rfl
    | some p => exact congrArg some (id_stop (disconnects j) p)
  | selectPath targets => rfl

theorem run_concat (events : List PathEvent) (event : PathEvent) :
    start.run (events ++ [event]) = (start.run events).step event := exec_concat ..

theorem ids_run (start : SchedulingEngine) (events : List PathEvent) :
    (start.run events).pathRuntimes.map PathRuntime.id = start.pathRuntimes.map PathRuntime.id := by
  induction events using List.reverseRecOn with
  | nil => rfl
  | append_singleton events event ih => rw [run_concat, ids_step, ih]

theorem distinctIds_run (h : DistinctIds start.pathRuntimes) (events : List PathEvent) :
    DistinctIds (start.run events).pathRuntimes := by
  rw [DistinctIds, ids_run]
  exact h

theorem parameters_step (e : SchedulingEngine) (event : PathEvent) :
    (e.step event).scheduler.maxWeightStepPerUpdate = e.scheduler.maxWeightStepPerUpdate ∧
      (e.step event).scheduler.recoveryStartWeight = e.scheduler.recoveryStartWeight := by
  cases event with
  | selectPath targets => exact AdaptiveScheduler.parameters_selectPath
  | sendFails path => exact ⟨rfl, rfl⟩
  | reconnected path => exact ⟨rfl, rfl⟩
  | activated path => exact ⟨rfl, rfl⟩
  | stop disconnects => exact ⟨rfl, rfl⟩

theorem parameters_run (start : SchedulingEngine) (events : List PathEvent) :
    (start.run events).scheduler.maxWeightStepPerUpdate = start.scheduler.maxWeightStepPerUpdate ∧
      (start.run events).scheduler.recoveryStartWeight = start.scheduler.recoveryStartWeight := by
  induction events using List.reverseRecOn with
  | nil => exact ⟨rfl, rfl⟩
  | append_singleton events event ih =>
    rw [run_concat]
    exact ⟨(parameters_step _ event).1.trans ih.1, (parameters_step _ event).2.trans ih.2⟩

theorem getElem?_step (event : PathEvent) {p : PathRuntime} (hp : e.pathRuntimes[i]? = some p) :
    ∃ p', (e.step event).pathRuntimes[i]? = some p' ∧ p'.id = p.id := by
  have hids : ((e.step event).pathRuntimes.map PathRuntime.id)[i]? = some p.id := by
    rw [ids_step, getElem?_map, hp]
    rfl
  rw [getElem?_map] at hids
  exact map_eq_some_iff.mp hids

/-- The scheduler saw the path in the call before as it is: active, or not. -/
def Seen (e : SchedulingEngine) (i : Nat) : Prop :=
  ∃ p ∈ e.pathRuntimes[i]?, ∃ state ∈ e.scheduler.lastKnownState p.id,
    state = .active ↔ p.state = .active

/-- The event takes no path into or out of `ACTIVE` that the scheduler has
not seen as it was. -/
def ChangesSeen (start : SchedulingEngine) (before : List PathEvent) (event : PathEvent) : Prop :=
  ∀ i, ((start.run before).stateOf i = some .active ↔
      (start.run (before ++ [event])).stateOf i = some .active) ∨
    (start.run before).Seen i

instance (e : SchedulingEngine) (i : Nat) : Decidable (e.Seen i) :=
  decidable_of_iff (e.pathRuntimes[i]?.any fun p => (e.scheduler.lastKnownState p.id).any fun state =>
      decide (state = .active ↔ p.state = .active))
    (by simp [Seen, Option.any_eq_true])

/-- Beyond the paths nothing changes. -/
instance (start : SchedulingEngine) (before : List PathEvent) (event : PathEvent) :
    Decidable (ChangesSeen start before event) :=
  decidable_of_iff (∀ i < start.pathRuntimes.length, ((start.run before).stateOf i = some .active ↔
      (start.run (before ++ [event])).stateOf i = some .active) ∨ (start.run before).Seen i)
    (by
      refine ⟨fun h i => ?_, fun h i _ => h i⟩
      by_cases hi : i < start.pathRuntimes.length
      · exact h i hi
      · have hnone : ∀ events, (start.run events).stateOf i = none := fun events => by
          have hlength := congrArg List.length (ids_run start events)
          rw [length_map, length_map] at hlength
          rw [stateOf, getElem?_eq_none (by omega), map_none]
        exact .inl (by rw [hnone, hnone]))

def Ramped (e : SchedulingEngine) (i : Nat) : Prop :=
  ∃ p, e.pathRuntimes[i]? = some p ∧
    (e.scheduler.smoothedWeights p.id = some e.scheduler.recoveryStartWeight ∨
      p.state = .active ∧ ∃ state, e.scheduler.lastKnownState p.id = some state ∧ state ≠ .active)

theorem Ramped.detected {p : PathRuntime} (h : e.Ramped i) (hids : DistinctIds e.pathRuntimes)
    (hp : e.pathRuntimes[i]? = some p) :
    (e.pathRuntimes.foldl AdaptiveScheduler.detectFreshRecovery e.scheduler).smoothedWeights p.id =
      some e.scheduler.recoveryStartWeight := by
  obtain ⟨p', hp', hcases⟩ := h
  obtain rfl : p' = p := Option.some.inj (hp'.symm.trans hp)
  rw [AdaptiveScheduler.smoothedWeights_detect hids (mem_of_getElem? hp)]
  rcases hcases with hweight | ⟨hactive, state, hknown, hdown⟩
  · rw [hweight, ite_self]
  · rw [if_pos (by simp [hknown, hdown, hactive])]

theorem scheduler_step (h : ∀ targets, event ≠ .selectPath targets) :
    (e.step event).scheduler = e.scheduler := by
  cases event with
  | selectPath targets => exact absurd rfl (h targets)
  | sendFails path => rfl
  | reconnected path => rfl
  | activated path => rfl
  | stop disconnects => rfl

theorem Ramped.select (h : e.Ramped i) (hids : DistinctIds e.pathRuntimes) (hfew : ¬ e.Several)
    (targets : PathId → Int) : (e.step (.selectPath targets)).Ramped i := by
  have hplace := h
  obtain ⟨p, hp, -⟩ := hplace
  refine ⟨p, hp, .inl ?_⟩
  have hnot : ¬ AdaptiveScheduler.Weighs e.pathRuntimes p.id := fun hweighs => hfew hweighs.1
  rw [(parameters_step e _).2, step, AdaptiveScheduler.smoothedWeights_selectPath, if_neg hnot]
  exact h.detected hids hp

variable {before : List PathEvent}

theorem Ramped.change (h : (start.run before).Ramped i) (hseen : ChangesSeen start before event)
    (hevent : ∀ targets, event ≠ .selectPath targets) :
    (start.run (before ++ [event])).Ramped i := by
  have hchange := hseen i
  rw [run_concat] at hchange ⊢
  obtain ⟨p, hp, hcases⟩ := h
  obtain ⟨p', hp', hid⟩ := getElem?_step event hp
  refine ⟨p', hp', ?_⟩
  rw [scheduler_step hevent, hid]
  rcases hcases with hweight | ⟨hactive, state, hknown, hdown⟩
  · exact .inl hweight
  · refine .inr ⟨?_, state, hknown, hdown⟩
    rcases hchange with hsame | ⟨q, hq, state', hstate', hiff⟩
    · have hstill := hsame.mp (by rw [stateOf, hp, Option.map_some, hactive])
      rw [stateOf, hp', Option.map_some] at hstill
      exact Option.some.inj hstill
    · obtain rfl : q = p := Option.some.inj (hq.symm.trans hp)
      obtain rfl : state' = state := Option.some.inj (hstate'.symm.trans hknown)
      exact absurd (hiff.mpr hactive) hdown

theorem Ramped.concat (h : (start.run before).Ramped i) (hids : DistinctIds start.pathRuntimes)
    (hseen : ChangesSeen start before event)
    (hfew : ∀ targets, event = .selectPath targets → ¬ (start.run before).Several) :
    (start.run (before ++ [event])).Ramped i := by
  by_cases hevent : ∃ targets, event = .selectPath targets
  · obtain ⟨targets, rfl⟩ := hevent
    rw [run_concat]
    exact h.select (distinctIds_run hids before) (hfew targets rfl) targets
  · exact h.change hseen fun targets heq => hevent ⟨targets, heq⟩

theorem ramped_of_back {back : PathEvent} (hseen : ChangesSeen start before back)
    (hdown : (start.run before).stateOf i ≠ some .active)
    (hback : (start.run (before ++ [back])).stateOf i = some .active) :
    (start.run (before ++ [back])).Ramped i := by
  have hchange := hseen i
  obtain ⟨p', hp', hactive⟩ := map_eq_some_iff.mp hback
  rcases hchange with hsame | ⟨p, hp, state, hstate, hiff⟩
  · exact absurd (hsame.mpr hback) hdown
  · have hnot : p.state ≠ .active := fun h => hdown (by rw [stateOf, hp, Option.map_some, h])
    have hevent : ∀ targets, back ≠ .selectPath targets := by
      rintro targets rfl
      rw [run_concat] at hback
      exact hdown hback
    rw [run_concat] at hp' ⊢
    obtain ⟨q, hq, hid⟩ := getElem?_step back hp
    obtain rfl : q = p' := Option.some.inj (hq.symm.trans hp')
    refine ⟨q, hp', .inr ⟨hactive, state, ?_, fun h => hnot (hiff.mp h)⟩⟩
    rw [scheduler_step hevent, hid]
    exact hstate

/-- After a path has left `ACTIVE` for `FAILED` and come back, the first call
with several eligible paths leaves its weight within a step of the start. -/
def RampsUp (start : SchedulingEngine) (events : List PathEvent) : Prop :=
  ∀ (i : Nat) (front : List PathEvent) (leave : PathEvent) (mid : List PathEvent)
    (back : PathEvent) (tail : List PathEvent) (targets : PathId → Int),
    front ++ leave :: mid ++ back :: tail ++ [PathEvent.selectPath targets] <+: events →
    (start.run front).stateOf i = some .active →
    (start.run (front ++ [leave])).stateOf i = some .failed →
    (start.run (front ++ leave :: mid)).stateOf i ≠ some .active →
    (start.run (front ++ leave :: mid ++ [back])).stateOf i = some .active →
    (∀ (pre : List PathEvent) (targets' : PathId → Int),
      pre ++ [PathEvent.selectPath targets'] <+: tail →
      ¬ (start.run (front ++ leave :: mid ++ back :: pre)).Several) →
    (start.run (front ++ leave :: mid ++ back :: tail)).Several →
    ∀ p ∈ (start.run (front ++ leave :: mid ++ back :: tail)).pathRuntimes[i]?,
    ∀ w ∈ (start.run (front ++ leave :: mid ++ back :: tail ++
        [PathEvent.selectPath targets])).scheduler.smoothedWeights p.id,
      w ≤ start.scheduler.recoveryStartWeight + start.scheduler.maxWeightStepPerUpdate

theorem ramped_of_tail {tail : List PathEvent} {back : PathEvent}
    (hids : DistinctIds start.pathRuntimes)
    (hseen : AlongRun (ChangesSeen start) (before ++ back :: tail))
    (hdown : (start.run before).stateOf i ≠ some .active)
    (hback : (start.run (before ++ [back])).stateOf i = some .active)
    (hfew : ∀ pre targets, pre ++ [.selectPath targets] <+: tail →
      ¬ (start.run (before ++ back :: pre)).Several) :
    (start.run (before ++ back :: tail)).Ramped i := by
  induction tail using List.reverseRecOn with
  | nil => exact ramped_of_back (alongRun_concat.mp hseen).2 hdown hback
  | append_singleton tail event ih =>
    rw [← cons_append, ← append_assoc] at hseen ⊢
    obtain ⟨hbefore, hlast⟩ := alongRun_concat.mp hseen
    have hramped := ih hbefore fun pre targets hpre =>
      hfew pre targets (hpre.trans (prefix_append tail [event]))
    exact hramped.concat hids hlast fun targets heq =>
      hfew tail targets (by rw [heq])

/-- **The recovery ramp**, in every run whose events take no path into or out of
`ACTIVE` that the scheduler has not seen as it was. -/
theorem rampsUp_of_changesSeen (start : SchedulingEngine) (hids : DistinctIds start.pathRuntimes)
    (hstep : 0 ≤ start.scheduler.maxWeightStepPerUpdate) (events : List PathEvent)
    (hseen : AlongRun (ChangesSeen start) events) : RampsUp start events := by
  intro i front leave mid back tail targets hinitial _ _ hdown hback hfew _ p hp w hw
  have hseen' := hseen.initial ((prefix_append _ _).trans hinitial)
  have hramped := ramped_of_tail hids hseen' hdown hback hfew
  obtain ⟨hkeptStep, hkeptStart⟩ := parameters_run start (front ++ leave :: mid ++ back :: tail)
  have hdetected := hramped.detected (distinctIds_run hids _) hp
  rw [run_concat, step, mem_def, AdaptiveScheduler.smoothedWeights_selectPath, hdetected,
    hkeptStep, hkeptStart] at hw
  split at hw
  · cases hw
    exact sub_le_iff_le_add'.mp (abs_le.mp (AdaptiveScheduler.abs_moved_sub_le hstep)).2
  · cases hw
    omega

def fastWifi : PathId → Int :=
  AdaptiveScheduler.rawTargets (fun id => if id = .wifi then some MeteredScheduler.fast else none)
    (fun _ => 0) [AdaptiveScheduler.wifi, AdaptiveScheduler.cellular]

def bothUp : SchedulingEngine :=
  ⟨[AdaptiveScheduler.wifi, AdaptiveScheduler.cellular], .create 10 10 10⟩

def blip (frameWhileDown : Bool) : List PathEvent :=
  [PathEvent.selectPath fastWifi, .sendFails 0] ++
    (if frameWhileDown then [PathEvent.selectPath fastWifi] else []) ++
    [PathEvent.reconnected 0, .activated 0, .selectPath fastWifi]

theorem rampsUp_blip_seen :
    (bothUp.run (blip true)).scheduler.smoothedWeights .wifi = some 20 ∧
      RampsUp bothUp (blip true) :=
  ⟨by decide +kernel,
    rampsUp_of_changesSeen bothUp (nodup_iff_pairwise_ne.mpr (by decide)) (by decide) (blip true)
      (by decide +kernel)⟩

theorem blip_not_seen :
    (bothUp.run (blip false)).scheduler.smoothedWeights .wifi = some 85 ∧
      ¬ RampsUp bothUp (blip false) := by
  have hweight : (bothUp.run (blip false)).scheduler.smoothedWeights .wifi = some 85 := by
    decide +kernel
  refine ⟨hweight, fun h => ?_⟩
  have hle := h 0 [.selectPath fastWifi] (.sendFails 0) [.reconnected 0] (.activated 0) [] fastWifi
    prefix_rfl (by decide +kernel) (by decide +kernel) (by decide +kernel) (by decide +kernel)
    (fun pre targets hpre => absurd (prefix_nil.mp hpre) (by simp)) (by decide +kernel)
    AdaptiveScheduler.wifi (by decide +kernel) 85 hweight
  exact absurd hle (by decide)

end SchedulingEngine

end BigRocket.Bonding
