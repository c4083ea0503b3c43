/-
How far a weight moves between two updates of its path: by at most the step in
each call of `selectPath` that weighs it.
-/
import BigRocket.Bonding.BurstTheorems
import BigRocket.Bonding.Scoring

namespace BigRocket.Bonding

open Lib List

namespace AdaptiveScheduler

variable {s : AdaptiveScheduler} {targets : PathId → Int} {paths : List PathRuntime} {id : PathId}

/-! ## One call -/

def moved (step target : Int) (weight : Option Int) : Int :=
  let current := weight.getD target
  current + max (-step) (min step (target - current))

theorem abs_moved_sub_le {step target w : Int} (h : 0 ≤ step) :
    |moved step target (some w) - w| ≤ step := by
  rw [moved, Option.getD_some, abs_le]
  constructor
  · omega
  · omega

theorem smoothedWeights_foldl {ids : List PathId} (hids : ids.Nodup) (s : AdaptiveScheduler)
    (id : PathId) :
    (ids.foldl (smoothWeight targets) s).smoothedWeights id =
      if id ∈ ids then
        some (moved s.maxWeightStepPerUpdate (targets id) (s.smoothedWeights id))
      else s.smoothedWeights id := by
  induction ids generalizing s with
  | nil => rfl
  | cons other ids ih =>
    obtain ⟨hnot, hrest⟩ := nodup_cons.mp hids
    rw [foldl_cons, ih hrest]
    by_cases hid : id = other
    · subst hid
      simp only [hnot, if_false, mem_cons, true_or, if_true, smoothWeight,
        Function.update_self]
      rfl
    · simp [smoothWeight, hid]

/-- The call weighs the path: there are several eligible ones, and it is
among them. -/
def Weighs (paths : List PathRuntime) (id : PathId) : Prop :=
  2 ≤ (paths.filter PathRuntime.eligible).length ∧
    id ∈ (paths.filter PathRuntime.eligible).map PathRuntime.id

instance (paths : List PathRuntime) (id : PathId) : Decidable (Weighs paths id) := instDecidableAnd

theorem smoothedWeights_recordPick (s : AdaptiveScheduler) (id : PathId) :
    (s.recordPick id).smoothedWeights = s.smoothedWeights :=
  recordPick_keeps smoothedWeights (fun _ _ _ => rfl) s id

theorem smoothedWeights_selectAmong (first : PathRuntime) (rest : List PathRuntime) :
    (s.selectAmong targets first rest).2.smoothedWeights =
      (s.recomputeSmoothedWeights targets (first :: rest)).smoothedWeights := by
  unfold selectAmong
  dsimp only
  split
  · exact smoothedWeights_recordPick _ _
  · exact (smoothedWeights_recordPick _ _).trans (smoothedWeights_loop _)

theorem smoothedWeights_selectPath (id : PathId) :
    (s.selectPath targets paths).2.smoothedWeights id =
      if Weighs paths id then
        some (moved s.maxWeightStepPerUpdate (targets id)
          ((paths.foldl detectFreshRecovery s).smoothedWeights id))
      else (paths.foldl detectFreshRecovery s).smoothedWeights id := by
  have hstep : (paths.foldl detectFreshRecovery s).maxWeightStepPerUpdate =
      s.maxWeightStepPerUpdate :=
    foldl_keeps detectFreshRecovery maxWeightStepPerUpdate (fun _ _ => rfl) paths s
  rw [← hstep]
  unfold selectPath
  generalize paths.foldl detectFreshRecovery s = known
  cases heligible : paths.filter PathRuntime.eligible with
  | nil => rw [if_neg (by simp [Weighs, heligible])]
  | cons first rest =>
    cases rest with
    | nil =>
      rw [if_neg (by simp [Weighs, heligible])]
      exact congrFun (smoothedWeights_recordPick known first.id) id
    | cons second rest =>
      have hweighs : Weighs paths id ↔
          id ∈ ((first :: second :: rest).map PathRuntime.id).dedup := by
        simp [Weighs, heligible]
      rw [smoothedWeights_selectAmong, recomputeSmoothedWeights,
        smoothedWeights_foldl (nodup_dedup _)]
      exact if_congr hweighs.symm rfl rfl

/-! ## Steady states -/

def InStates (steady : PathId → PathState) (paths : List PathRuntime) : Prop :=
  ∀ p ∈ paths, p.state = steady p.id

def Knows (steady : PathId → PathState) (s : AdaptiveScheduler) : Prop :=
  ∀ id state, s.lastKnownState id = some state → state = steady id

variable {steady : PathId → PathState}

theorem detectFreshRecovery_of_steady {p : PathRuntime} (hknows : Knows steady s)
    (hp : p.state = steady p.id) :
    (s.detectFreshRecovery p).smoothedWeights = s.smoothedWeights ∧
      Knows steady (s.detectFreshRecovery p) := by
  have hnot : ((s.lastKnownState p.id).any (· ≠ .active) && decide (p.state = .active)) = false := by
    cases hknown : s.lastKnownState p.id with
    | none => rfl
    | some state =>
      have hstate := hknows p.id state hknown
      simp only [Option.any_some, hp, ← hstate]
      by_cases hactive : state = .active
      · simp [hactive]
      · simp [hactive]
  refine ⟨?_, fun id state hid => ?_⟩
  · simp only [detectFreshRecovery, hnot, Bool.false_eq_true, if_false]
  · simp only [detectFreshRecovery, Function.update_apply] at hid
    split at hid
    · next heq =>
        cases hid
        rw [heq, hp]
    · exact hknows id state hid

theorem foldl_detect_of_steady (hknows : Knows steady s) (hpaths : InStates steady paths) :
    (paths.foldl detectFreshRecovery s).smoothedWeights = s.smoothedWeights ∧
      Knows steady (paths.foldl detectFreshRecovery s) := by
  induction paths generalizing s with
  | nil => exact ⟨rfl, hknows⟩
  | cons p paths ih =>
    obtain ⟨hweights, hknows'⟩ := detectFreshRecovery_of_steady hknows (hpaths p (by simp))
    obtain ⟨hrest, hknows''⟩ := ih hknows' fun q hq => hpaths q (mem_cons_of_mem p hq)
    exact ⟨hrest.trans hweights, hknows''⟩

theorem lastKnownState_selectPath :
    (s.selectPath targets paths).2.lastKnownState =
      (paths.foldl detectFreshRecovery s).lastKnownState :=
  selectPath_keeps lastKnownState (fun _ _ _ => rfl) (fun _ _ => rfl)
    (recordPick_keeps _ fun _ _ _ => rfl)

theorem parameters_selectPath :
    (s.selectPath targets paths).2.maxWeightStepPerUpdate = s.maxWeightStepPerUpdate ∧
      (s.selectPath targets paths).2.recoveryStartWeight = s.recoveryStartWeight :=
  ⟨(selectPath_keeps maxWeightStepPerUpdate (fun _ _ _ => rfl) (fun _ _ => rfl)
      (recordPick_keeps _ fun _ _ _ => rfl)).trans
        (foldl_keeps detectFreshRecovery maxWeightStepPerUpdate (fun _ _ => rfl) paths s),
    (selectPath_keeps recoveryStartWeight (fun _ _ _ => rfl) (fun _ _ => rfl)
      (recordPick_keeps _ fun _ _ _ => rfl)).trans
        (foldl_keeps detectFreshRecovery recoveryStartWeight (fun _ _ => rfl) paths s)⟩

end AdaptiveScheduler

/-! ## Runs -/

namespace SchedulerCall

def Updates (id : PathId) : SchedulerCall → Prop
  | .update other _ => other = id
  | .selectPath _ _ => False

def Weighs (id : PathId) : SchedulerCall → Prop
  | .update _ _ => False
  | .selectPath paths _ => AdaptiveScheduler.Weighs paths id

def InStates (steady : PathId → PathState) : SchedulerCall → Prop
  | .update _ _ => True
  | .selectPath paths _ => AdaptiveScheduler.InStates steady paths

instance (id : PathId) : DecidablePred (Updates id)
  | .update other _ => inferInstanceAs (Decidable (other = id))
  | .selectPath _ _ => .isFalse not_false

instance (id : PathId) : DecidablePred (Weighs id)
  | .update _ _ => .isFalse not_false
  | .selectPath paths _ => inferInstanceAs (Decidable (AdaptiveScheduler.Weighs paths id))

end SchedulerCall

namespace MeteredScheduler

open AdaptiveScheduler (Shares Knows)

variable {m : MeteredScheduler} {shares : Shares} {s : AdaptiveScheduler} {c : SchedulerCall}
  {id : PathId} {steady : PathId → PathState} {calls : List SchedulerCall}

theorem weightPercent_step_of_not_weighs (hknows : Knows steady m.scheduler)
    (hstates : c.InStates steady) (hnot : ¬ c.Weighs id) :
    (m.step shares c).weightPercent id = m.weightPercent id := by
  cases c with
  | update other metrics => rfl
  | selectPath paths queueSize =>
    have hnot' : ¬ AdaptiveScheduler.Weighs paths id := hnot
    rw [weightPercent, step, AdaptiveScheduler.smoothedWeights_selectPath, if_neg hnot',
      (AdaptiveScheduler.foldl_detect_of_steady hknows hstates).1, weightPercent]

theorem weightPercent_step_of_weighs (hknows : Knows steady m.scheduler)
    (hstates : c.InStates steady) (hweighs : c.Weighs id)
    (hstep : 0 ≤ m.scheduler.maxWeightStepPerUpdate) {w : Int}
    (hw : m.weightPercent id = some w) :
    ∃ w', (m.step shares c).weightPercent id = some w' ∧
      |w' - w| ≤ m.scheduler.maxWeightStepPerUpdate := by
  cases c with
  | update other metrics => exact absurd hweighs not_false
  | selectPath paths queueSize =>
    have hweighs' : AdaptiveScheduler.Weighs paths id := hweighs
    rw [weightPercent] at hw
    rw [weightPercent, step, AdaptiveScheduler.smoothedWeights_selectPath, if_pos hweighs',
      (AdaptiveScheduler.foldl_detect_of_steady hknows hstates).1, hw]
    exact ⟨_, rfl, AdaptiveScheduler.abs_moved_sub_le hstep⟩

theorem run_concat (calls : List SchedulerCall) (c : SchedulerCall) :
    run shares s (calls ++ [c]) = (run shares s calls).step shares c := exec_concat ..

theorem knows_run (shares : Shares) (hknows : Knows steady s)
    (hstates : ∀ c ∈ calls, c.InStates steady) :
    Knows steady (run shares s calls).scheduler ∧
      (run shares s calls).scheduler.maxWeightStepPerUpdate = s.maxWeightStepPerUpdate := by
  induction calls using List.reverseRecOn with
  | nil => exact ⟨hknows, rfl⟩
  | append_singleton calls c ih =>
    obtain ⟨hbefore, hstep⟩ := ih fun c' hc' => hstates c' (by simp [hc'])
    have hlast := hstates c (by simp)
    rw [run_concat]
    cases c with
    | update other metrics => exact ⟨hbefore, hstep⟩
    | selectPath paths queueSize =>
      refine ⟨?_, AdaptiveScheduler.parameters_selectPath.1.trans hstep⟩
      intro id state hid
      rw [step, AdaptiveScheduler.lastKnownState_selectPath] at hid
      exact (AdaptiveScheduler.foldl_detect_of_steady hbefore hlast).2 id state hid

def sinceUpdate (id : PathId) (calls : List SchedulerCall) : List SchedulerCall :=
  calls.rtakeWhile fun c => ¬ c.Updates id

theorem mem_sinceUpdate {front recent : List SchedulerCall}
    (hrecent : ∀ c ∈ recent, ¬ c.Updates id) (hc : c ∈ recent) :
    c ∈ sinceUpdate id (front ++ recent) := by
  rw [sinceUpdate, List.rtakeWhile, reverse_append,
    takeWhile_append_of_pos (by simpa using hrecent)]
  simp [hc]

def OneWeighing (before : List SchedulerCall) (c : SchedulerCall) : Prop :=
  ∀ id, c.Weighs id → ∀ c' ∈ sinceUpdate id before, ¬ c'.Weighs id

instance (before : List SchedulerCall) : (c : SchedulerCall) → Decidable (OneWeighing before c)
  | .update _ _ => .isTrue fun _ h => absurd h not_false
  | .selectPath paths queueSize =>
    decidable_of_iff (∀ id ∈ (paths.filter PathRuntime.eligible).map PathRuntime.id,
      (SchedulerCall.selectPath paths queueSize).Weighs id →
        ∀ c' ∈ sinceUpdate id before, ¬ c'.Weighs id)
      ⟨fun h id hweighs => h id hweighs.2 hweighs, fun h id _ => h id⟩

section Between

variable {front late : List SchedulerCall} {w : Int}

theorem weightPercent_of_no_weighing (shares : Shares) (hknows : Knows steady s)
    (hstates : ∀ c ∈ front ++ late, c.InStates steady) (hnone : ∀ c ∈ late, ¬ c.Weighs id) :
    (run shares s (front ++ late)).weightPercent id = (run shares s front).weightPercent id := by
  induction late using List.reverseRecOn with
  | nil => rw [append_nil]
  | append_singleton late c ih =>
    rw [← append_assoc] at hstates ⊢
    have hbefore : ∀ c' ∈ front ++ late, c'.InStates steady :=
      fun c' hc' => hstates c' (mem_append_left _ hc')
    rw [run_concat, weightPercent_step_of_not_weighs (knows_run shares hknows hbefore).1
      (hstates c (by simp)) (hnone c (by simp)), ih hbefore fun c' hc' => hnone c' (by simp [hc'])]

theorem weightPercent_of_one_weighing (hknows : Knows steady s)
    (hstep : 0 ≤ s.maxWeightStepPerUpdate)
    (hstates : ∀ c ∈ front ++ late, c.InStates steady) (hupdates : ∀ c ∈ late, ¬ c.Updates id)
    (hone : AlongRun OneWeighing (front ++ late))
    (hw : (run shares s front).weightPercent id = some w) :
    ∃ w', (run shares s (front ++ late)).weightPercent id = some w' ∧
      |w' - w| ≤ s.maxWeightStepPerUpdate := by
  induction late using List.reverseRecOn with
  | nil =>
    rw [append_nil]
    exact ⟨w, hw, by simpa using hstep⟩
  | append_singleton late c ih =>
    rw [← append_assoc] at hstates hone ⊢
    obtain ⟨honeBefore, hlast⟩ := alongRun_concat.mp hone
    have hbefore : ∀ c' ∈ front ++ late, c'.InStates steady :=
      fun c' hc' => hstates c' (mem_append_left _ hc')
    have hlate : ∀ c' ∈ late, ¬ c'.Updates id := fun c' hc' => hupdates c' (by simp [hc'])
    obtain ⟨hknows', hkept⟩ := knows_run shares hknows hbefore
    rw [run_concat]
    by_cases hweighs : c.Weighs id
    · -- the calls before it since the update did not weigh the path
      have hnone : ∀ c' ∈ late, ¬ c'.Weighs id := fun c' hc' =>
        hlast id hweighs c' (mem_sinceUpdate hlate hc')
      have hsame := weightPercent_of_no_weighing shares hknows hbefore hnone
      rw [← hkept]
      exact weightPercent_step_of_weighs hknows' (hstates c (by simp)) hweighs
        (by rw [hkept]; exact hstep) (hsame.trans hw)
    · rw [weightPercent_step_of_not_weighs hknows' (hstates c (by simp)) hweighs]
      exact ih hbefore hlate honeBefore

end Between

/-- Between two updates of a path its weight, once it has one, changes by at
most the step, however many calls there are. -/
def MovesSlowly (shares : Shares) (s : AdaptiveScheduler) (calls : List SchedulerCall) : Prop :=
  ∀ id before metrics early late,
    before ++ SchedulerCall.update id metrics :: early ++ late <+: calls →
    (∀ c ∈ early ++ late, ¬ c.Updates id) →
    ∀ w, (run shares s (before ++ SchedulerCall.update id metrics :: early)).weightPercent id =
        some w →
      ∃ w', (run shares s (before ++ SchedulerCall.update id metrics :: early ++ late)).weightPercent
          id = some w' ∧ |w' - w| ≤ s.maxWeightStepPerUpdate

/-- **Weights move slowly where they are weighed once** between two updates of
their path, whatever the shares. -/
theorem movesSlowly_of_one_weighing (shares : Shares) (step : Int) (cap : Nat) (startWeight : Int)
    (hstep : 0 ≤ step) (steady : PathId → PathState) (calls : List SchedulerCall)
    (hstates : ∀ c ∈ calls, c.InStates steady) (hone : AlongRun OneWeighing calls) :
    MovesSlowly shares (AdaptiveScheduler.create step cap startWeight) calls := by
  intro id before metrics early late hinitial hupdates w hw
  have hstates' : ∀ c ∈ before ++ SchedulerCall.update id metrics :: early ++ late,
      c.InStates steady := fun c hc => hstates c (hinitial.subset hc)
  exact weightPercent_of_one_weighing nofun hstep hstates'
    (fun c hc => hupdates c (mem_append_right early hc)) (hone.initial hinitial) hw

def fast : PathMetrics :=
  { latencyMs := 10, jitterMs := 0, packetLoss := 0, bandwidthEstimate := 100000000 }

def frame : SchedulerCall :=
  .selectPath [AdaptiveScheduler.wifi, AdaptiveScheduler.cellular] fun _ => 0

def frameByFrame : List SchedulerCall :=
  [frame, .update .wifi fast, .update .cellular .initial, frame]

theorem movesSlowly_frameByFrame :
    (run AdaptiveScheduler.rawTargets (.create 10 10 10) frameByFrame).weightPercent .wifi =
        some 60 ∧
      MovesSlowly AdaptiveScheduler.rawTargets (.create 10 10 10) frameByFrame := by
  refine ⟨by decide +kernel, movesSlowly_of_one_weighing AdaptiveScheduler.rawTargets 10 10 10
    (by decide) (fun _ => .active) frameByFrame ?_ ?_⟩
  · intro c hc
    fin_cases hc
    · exact fun p hp => by fin_cases hp <;> rfl
    · exact trivial
    · exact trivial
    · exact fun p hp => by fin_cases hp <;> rfl
  · decide

theorem moves_fast :
    (run AdaptiveScheduler.rawTargets (.create 10 10 10)
        [frame, .update .wifi fast]).weightPercent .wifi = some 50 ∧
      (run AdaptiveScheduler.rawTargets (.create 10 10 10)
        [frame, .update .wifi fast, frame, frame]).weightPercent .wifi = some 70 ∧
      ¬ MovesSlowly AdaptiveScheduler.rawTargets (.create 10 10 10)
        [frame, .update .wifi fast, frame, frame] := by
  have hearly : (run AdaptiveScheduler.rawTargets (.create 10 10 10)
      [frame, .update .wifi fast]).weightPercent .wifi = some 50 := by decide +kernel
  have hlate : (run AdaptiveScheduler.rawTargets (.create 10 10 10)
      [frame, .update .wifi fast, frame, frame]).weightPercent .wifi = some 70 := by decide +kernel
  refine ⟨hearly, hlate, fun h => ?_⟩
  obtain ⟨w', hw', hle⟩ := h .wifi [frame] fast [] [frame, frame] prefix_rfl (by decide) 50 hearly
  obtain rfl : w' = 70 := Option.some.inj (hw'.symm.trans hlate)
  exact absurd hle (by decide)

end MeteredScheduler

end BigRocket.Bonding
