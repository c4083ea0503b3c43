/-
What a `start()` of a stopped engine makes of its paths: `CLOSED` has no
successor, and a refused transition is silent.
-/
import BigRocket.Bonding.Lifecycle

namespace BigRocket.Bonding

open Lib List Option

/-! ## One path -/

namespace PathRuntime

theorem transitionTo_active_iff (p : PathRuntime) :
    (p.transitionTo .active).state = .active ↔ p.state ≠ .closed ∧ p.state ≠ .failed := by
  unfold transitionTo
  cases hstate : p.state <;> simp [PathState.canTransitionTo, hstate]

theorem transitionTo_closed_iff {next : PathState} (hnext : next ≠ .closed) (p : PathRuntime) :
    (p.transitionTo next).state = .closed ↔ p.state = .closed := by
  unfold transitionTo
  split
  case isTrue hallowed =>
    constructor
    · intro h
      exact absurd h hnext
    · intro h
      rw [h] at hallowed
      cases hallowed
  case isFalse => rfl

theorem transitionTo_closed (p : PathRuntime) : (p.transitionTo .closed).state = .closed := by
  unfold transitionTo
  cases hstate : p.state <;> simp [PathState.canTransitionTo, hstate]

theorem closed_watchdogTurn_iff (reconnects : Bool) (p : PathRuntime) :
    (BondingEngineImpl.watchdogTurn reconnects p).state = .closed ↔ p.state = .closed := by
  unfold BondingEngineImpl.watchdogTurn
  split
  · rw [transitionTo_closed_iff (by decide), transitionTo_closed_iff (by decide)]
  · rfl

end PathRuntime

namespace BondingEngineImpl

variable {e : BondingEngineImpl} {ids : List PathId}

/-! ## One call -/

def stateAt (e : BondingEngineImpl) (path : Nat) : Option PathState :=
  e.pathRuntimes[path]?.map PathRuntime.state

theorem step_start (h : e.engineState = .stopped) (connects : Nat → Bool) :
    e.step (.start connects) = ⟨.active, e.pathRuntimes.mapIdx fun i (p : PathRuntime) =>
      (p.start (connects i)).getD (p.transitionTo .failed)⟩ := by
  simp [step, start, transitionTo, h, BondingState.canTransitionTo, Except.toOption]

theorem step_start_of_ne (h : e.engineState ≠ .stopped) (connects : Nat → Bool) :
    e.step (.start connects) = e := by
  simp [step, start, h, Except.toOption]

theorem stop_of_ne (h : e.engineState ≠ .stopped) (disconnects : Nat → Bool) :
    (e.stop disconnects).pathRuntimes = e.pathRuntimes.mapIdx fun i (p : PathRuntime) =>
      (p.stop (disconnects i)).getD p := by
  have hpaths : ∀ (next : BondingState) (r : BondingEngineImpl),
      (r.transitionTo next).pathRuntimes = r.pathRuntimes := by
    intro next r
    unfold transitionTo
    split <;> rfl
  unfold stop
  rw [if_neg h, hpaths, hpaths]

theorem pathRuntimes_updateEngineDegradedState :
    e.updateEngineDegradedState.pathRuntimes = e.pathRuntimes := by
  unfold updateEngineDegradedState transitionTo
  dsimp only
  split
  · split <;> rfl
  · split
    · split <;> rfl
    · rfl

theorem length_step (e : BondingEngineImpl) (event : LifecycleEvent) :
    (e.step event).pathRuntimes.length = e.pathRuntimes.length := by
  cases event with
  | start connects =>
    by_cases h : e.engineState = .stopped
    · rw [step_start h, length_mapIdx]
    · rw [step_start_of_ne h]
  | stop disconnects =>
    by_cases h : e.engineState = .stopped
    · simp [step, stop, h]
    · rw [step, stop_of_ne h, length_mapIdx]
  | sendFails path => simp [step, onPath]
  | watchdog path reconnects => simp [step, onPath]
  | metrics => rw [step, pathRuntimes_updateEngineDegradedState]

structure Restarted (e : BondingEngineImpl) : Prop where
  engine : e.engineState = .active
  paths : ∀ p ∈ e.pathRuntimes, p.state = .active ∧ p ∈ e.pathRuntimes.filter PathRuntime.eligible

theorem restarted_start_iff (h : e.engineState = .stopped) {connects : Nat → Bool}
    (hconnects : ∀ i < e.pathRuntimes.length, connects i = true) :
    Restarted (e.step (.start connects)) ↔
      ∀ p ∈ e.pathRuntimes, p.state ≠ .closed ∧ p.state ≠ .failed := by
  have hpaths : e.step (.start connects) =
      ⟨.active, e.pathRuntimes.map (PathRuntime.transitionTo .active)⟩ := by
    rw [step_start h]
    congr 1
    apply ext_getElem (by simp)
    intro i hi _
    have hconnected := hconnects i (by simpa using hi)
    simp [PathRuntime.start, hconnected]
  rw [hpaths]
  constructor
  · intro hrestarted p hp
    have hstate := (hrestarted.paths (p.transitionTo .active) (mem_map_of_mem hp)).1
    exact (PathRuntime.transitionTo_active_iff p).mp hstate
  · intro hopen
    refine ⟨rfl, fun q hq => ?_⟩
    obtain ⟨p, hp, rfl⟩ := mem_map.mp hq
    have hstate := (PathRuntime.transitionTo_active_iff p).mpr (hopen p hp)
    exact ⟨hstate, mem_filter.mpr ⟨hq, by simp [PathRuntime.eligible, hstate]⟩⟩

/-! ## Closed paths -/

/-- Whether a call closes a path: a `stop()` of a started engine does, when
the adapter disconnects. -/
def Closes (e : BondingEngineImpl) (path : Nat) (event : LifecycleEvent) : Prop :=
  e.engineState ≠ .stopped ∧ ∃ disconnects, event = .stop disconnects ∧ disconnects path = true

theorem stateAt_onPath_closed_iff {f : PathRuntime → PathRuntime}
    (hf : ∀ p, (f p).state = .closed ↔ p.state = .closed) (path other : Nat) :
    (e.onPath path f).stateAt other = some .closed ↔ e.stateAt other = some .closed := by
  simp only [stateAt, onPath, getElem?_modify]
  cases hp : e.pathRuntimes[other]? with
  | none => simp
  | some p =>
    by_cases hother : path = other
    · simpa [hother] using hf p
    · simp [hother]

theorem stateAt_step_closed_iff {path : Nat} (hpath : path < e.pathRuntimes.length)
    (event : LifecycleEvent) :
    (e.step event).stateAt path = some .closed ↔
      e.stateAt path = some .closed ∨ e.Closes path event := by
  have hget : e.pathRuntimes[path]? = some e.pathRuntimes[path] := getElem?_eq_getElem hpath
  cases event with
  | start connects =>
    have hno : ¬ e.Closes path (.start connects) := fun h => by
      obtain ⟨-, disconnects, heq, -⟩ := h
      cases heq
    by_cases h : e.engineState = .stopped
    · rw [step_start h]
      simp only [stateAt, getElem?_mapIdx, hget, map_some, Option.some.injEq,
        hno, or_false]
      unfold PathRuntime.start
      split
      · exact PathRuntime.transitionTo_closed_iff (by decide) _
      · exact PathRuntime.transitionTo_closed_iff (by decide) _
    · rw [step_start_of_ne h]
      simp [hno]
  | stop disconnects =>
    by_cases h : e.engineState = .stopped
    · simp [step, stop, h, Closes]
    · simp only [step, stateAt, stop_of_ne h, getElem?_mapIdx, hget, map_some,
        Option.some.injEq]
      cases hdisconnects : disconnects path with
      | true => simp [PathRuntime.stop, PathRuntime.transitionTo_closed, Closes, h, hdisconnects]
      | false => simp [PathRuntime.stop, Closes, hdisconnects]
  | sendFails other =>
    rw [step, stateAt_onPath_closed_iff fun p =>
      PathRuntime.transitionTo_closed_iff (by decide) p]
    simp [Closes]
  | watchdog other reconnects =>
    rw [step, stateAt_onPath_closed_iff (PathRuntime.closed_watchdogTurn_iff reconnects)]
    simp [Closes]
  | metrics => simp [step, stateAt, pathRuntimes_updateEngineDegradedState, Closes]

/-! ## Every run -/

def ClosedBy (ids : List PathId) (events : List LifecycleEvent) (path : Nat) : Prop :=
  ∃ before event after, events = before ++ event :: after ∧ (run ids before).Closes path event

variable (events : List LifecycleEvent)

theorem run_concat (event : LifecycleEvent) :
    run ids (events ++ [event]) = (run ids events).step event := exec_concat ..

theorem length_run (ids : List PathId) (events : List LifecycleEvent) :
    (run ids events).pathRuntimes.length = ids.length := by
  induction events using List.reverseRecOn with
  | nil => simp [run, create]
  | append_singleton events event ih => rw [run_concat, length_step, ih]

theorem closedBy_concat_iff (event : LifecycleEvent) (path : Nat) :
    ClosedBy ids (events ++ [event]) path ↔
      ClosedBy ids events path ∨ (run ids events).Closes path event := by
  constructor
  · rintro ⟨before, event', after, heq, hcloses⟩
    rcases eq_nil_or_concat' after with rfl | ⟨after', last, rfl⟩
    · obtain ⟨rfl, hlast⟩ := append_inj' heq rfl
      cases hlast
      exact .inr hcloses
    · have hcut : events ++ [event] = (before ++ event' :: after') ++ [last] := by simpa using heq
      exact .inl ⟨before, event', after', (append_inj' hcut rfl).1, hcloses⟩
  · rintro (⟨before, event', after, rfl, hcloses⟩ | hcloses)
    · exact ⟨before, event', after ++ [event], by simp, hcloses⟩
    · exact ⟨events, event, [], rfl, hcloses⟩

/-- A path stands in `CLOSED` exactly when a `stop()` disconnected it. -/
theorem closed_iff_closedBy {path : Nat} (hpath : path < ids.length) :
    (run ids events).stateAt path = some .closed ↔ ClosedBy ids events path := by
  induction events using List.reverseRecOn with
  | nil =>
    have hnew : (run ids []).stateAt path = some .init := by
      simp [run, create, stateAt, PathRuntime.create, hpath]
    have hnone : ¬ ClosedBy ids [] path := by
      rintro ⟨before, event, after, heq, -⟩
      simp at heq
    simp [hnew, hnone]
  | append_singleton events event ih =>
    rw [run_concat, closedBy_concat_iff, ← ih]
    exact stateAt_step_closed_iff (by rw [length_run]; exact hpath) event

def StartsAll (ids : List PathId) (before : List LifecycleEvent) (event : LifecycleEvent) : Prop :=
  (run ids before).engineState = .stopped ∧
    ∃ connects, event = .start connects ∧ ∀ path < ids.length, connects path = true

/-- **Which restarts work**: those before which no path was disconnected by a
`stop()` and none is left `FAILED`. -/
theorem restarts_iff_alongRun (ids : List PathId) (events : List LifecycleEvent) :
    AlongRun (fun before event =>
        StartsAll ids before event → Restarted (run ids (before ++ [event]))) events ↔
      AlongRun (fun before event => StartsAll ids before event → ∀ path < ids.length,
        ¬ ClosedBy ids before path ∧ (run ids before).stateAt path ≠ some .failed) events := by
  have hone : ∀ before event, (StartsAll ids before event → Restarted (run ids (before ++ [event]))) ↔
      (StartsAll ids before event → ∀ path < ids.length,
        ¬ ClosedBy ids before path ∧ (run ids before).stateAt path ≠ some .failed) := by
    intro before event
    apply imp_congr_right
    rintro ⟨hstopped, connects, rfl, hconnects⟩
    rw [run_concat, restarted_start_iff hstopped (by rw [length_run]; exact hconnects),
      forall_mem_iff_forall_getElem]
    constructor
    · intro h path hpath
      have hpath' : path < (run ids before).pathRuntimes.length := by rw [length_run]; exact hpath
      rw [← closed_iff_closedBy before hpath]
      simpa [stateAt, hpath'] using h path hpath'
    · intro h path hpath'
      have hpath : path < ids.length := by rw [← length_run ids before]; exact hpath'
      have hopen := h path hpath
      rw [← closed_iff_closedBy before hpath] at hopen
      simpa [stateAt, hpath'] using hopen
  constructor
  · exact fun h => h.mono fun before event => (hone before event).mp
  · exact fun h => h.mono fun before event => (hone before event).mpr

theorem second_start_has_no_path :
    (run [.wifi, .cellular] [.start fun _ => true, .stop fun _ => true]).engineState = .stopped ∧
      run [.wifi, .cellular]
          [.start fun _ => true, .stop fun _ => true, .start fun _ => true] =
        ⟨.active, [⟨.wifi, .closed⟩, ⟨.cellular, .closed⟩]⟩ ∧
      ¬ Restarted (run [.wifi, .cellular]
          [.start fun _ => true, .stop fun _ => true, .start fun _ => true]) := by
  refine ⟨rfl, rfl, fun h => ?_⟩
  have hwifi := (h.paths ⟨.wifi, .closed⟩ (by decide)).1
  cases hwifi

end BondingEngineImpl

/-! ## The scheduler -/

namespace AdaptiveScheduler

variable {paths : List PathRuntime} {p : PathRuntime}

theorem swrrRound_best_mem (paths : List PathRuntime)
    (found : AdaptiveScheduler × Option (PathRuntime × Int)) {q : PathRuntime × Int}
    (h : (paths.foldl swrrRound found).2 = some q) : q.1 ∈ paths ∨ found.2 = some q := by
  induction paths generalizing found with
  | nil => exact .inr h
  | cons p rest ih =>
    rcases ih (swrrRound found p) h with hmem | hfound
    · exact .inl (mem_cons_of_mem p hmem)
    · unfold swrrRound at hfound
      dsimp only at hfound
      split at hfound
      case h_1 =>
        cases hfound
        exact .inl mem_cons_self
      case h_2 best current hbest =>
        split at hfound
        · cases hfound
          exact .inl mem_cons_self
        · exact .inr (hbest.trans hfound)

theorem swrrPick_mem (s : AdaptiveScheduler) (first : PathRuntime) (rest : List PathRuntime) :
    (s.swrrPick first rest).1 ∈ first :: rest := by
  show (((first :: rest).foldl swrrRound (s, none)).2.map Prod.fst).getD first ∈ first :: rest
  cases hbest : ((first :: rest).foldl swrrRound (s, none)).2 with
  | none => exact mem_cons_self
  | some q =>
    rcases swrrRound_best_mem _ _ hbest with hmem | hnone
    · exact hmem
    · cases hnone

theorem foldl_choice_mem {α : Type*} {choose : Option α → α → Option α}
    (hchoose : ∀ best x, choose best x = some x ∨ choose best x = best) {y : α} (xs : List α)
    (best : Option α) (h : xs.foldl choose best = some y) : y ∈ xs ∨ best = some y := by
  induction xs generalizing best with
  | nil => exact .inr h
  | cons x xs ih =>
    rcases ih _ h with hmem | hbest
    · exact .inl (mem_cons_of_mem x hmem)
    · rcases hchoose best x with htaken | hkept
      · rw [htaken] at hbest
        cases hbest
        exact .inl mem_cons_self
      · rw [hkept] at hbest
        exact .inr hbest

theorem heaviest_mem (s : AdaptiveScheduler) (paths : List PathRuntime)
    (h : s.heaviest paths = some p) : p ∈ paths := by
  refine (foldl_choice_mem ?_ paths none h).resolve_right (some_ne_none p).symm
  intro best x
  cases best with
  | none => exact .inl rfl
  | some q =>
    dsimp only
    split
    · exact .inl rfl
    · exact .inr rfl

theorem selectAmong_mem (targets : PathId → Int) (s : AdaptiveScheduler) (first : PathRuntime)
    (rest : List PathRuntime) : (s.selectAmong targets first rest).1 ∈ first :: rest := by
  unfold selectAmong
  dsimp only
  split
  case isTrue =>
    cases hbest : heaviest _ _ with
    | none => exact mem_cons_self
    | some q => exact (mem_filter.mp (heaviest_mem _ _ hbest)).1
  case isFalse => exact swrrPick_mem _ first rest

theorem selectPath_eligible (targets : PathId → Int) (paths : List PathRuntime)
    (s : AdaptiveScheduler) :
    match (s.selectPath targets paths).1 with
    | none => ∀ p ∈ paths, p.eligible = false
    | some p => p ∈ paths ∧ p.eligible = true := by
  have hmem : ∀ p, p ∈ paths.filter PathRuntime.eligible → p ∈ paths ∧ p.eligible = true :=
    fun p hp => mem_filter.mp hp
  unfold selectPath
  cases hfilter : paths.filter PathRuntime.eligible with
  | nil =>
    intro p hp
    have hnot := filter_eq_nil_iff.mp hfilter p hp
    simpa using hnot
  | cons first rest =>
    rw [hfilter] at hmem
    cases rest with
    | nil => exact hmem first mem_cons_self
    | cons second rest => exact hmem _ (selectAmong_mem targets _ first (second :: rest))

end AdaptiveScheduler

end BigRocket.Bonding
