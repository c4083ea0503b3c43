/-
The cap on consecutive picks of one path. While a single path is eligible the
32-bit counter runs on, and where it wraps the cap is forgotten.
-/
import BigRocket.Bonding.LifecycleTheorems
import BigRocket.Bonding.SchedulerTheorems

namespace BigRocket.Bonding

open Lib List

namespace AdaptiveScheduler

variable {s s' : AdaptiveScheduler} {targets : PathId → Int} {paths : List PathRuntime}
  {q : PathRuntime}

/-! ## What the cap looks at -/

def picks (s : AdaptiveScheduler) : Option PathId × Int × Nat :=
  (s.lastPickedPathId, s.consecutivePickCount, s.maxConsecutivePicks)

theorem foldl_keeps {α β : Type} (step : AdaptiveScheduler → α → AdaptiveScheduler)
    (view : AdaptiveScheduler → β) (h : ∀ s x, view (step s x) = view s) (xs : List α)
    (s : AdaptiveScheduler) : view (xs.foldl step s) = view s := by
  induction xs generalizing s with
  | nil => rfl
  | cons x xs ih => rw [foldl_cons, ih, h]

theorem picks_eq (h : s'.picks = s.picks) :
    s'.lastPickedPathId = s.lastPickedPathId ∧
      s'.consecutivePickCount = s.consecutivePickCount ∧
      s'.maxConsecutivePicks = s.maxConsecutivePicks := by
  simpa [picks] using h

theorem picks_known (paths : List PathRuntime) (s : AdaptiveScheduler) :
    (paths.foldl detectFreshRecovery s).picks = s.picks :=
  foldl_keeps detectFreshRecovery picks (fun _ _ => rfl) paths s

theorem picks_recompute (eligible : List PathRuntime) :
    (s.recomputeSmoothedWeights targets eligible).picks = s.picks :=
  foldl_keeps (smoothWeight targets) picks (fun _ _ => rfl) _ s

theorem swrrPick_keeps {β : Type} (view : AdaptiveScheduler → β)
    (h : ∀ s p value, view (putCurrent s p value) = view s) (first : PathRuntime)
    (rest : List PathRuntime) : view (s.swrrPick first rest).2 = view s := by
  have hloop : view ((first :: rest).foldl swrrRound (s, none)).1 = view s := loop_keeps view h none
  exact (h _ _ _).trans hloop

theorem recordPick_keeps {β : Type} (view : AdaptiveScheduler → β)
    (h : ∀ (s : AdaptiveScheduler) last count,
      view { s with lastPickedPathId := last, consecutivePickCount := count } = view s)
    (s : AdaptiveScheduler) (id : PathId) : view (s.recordPick id) = view s := by
  unfold recordPick
  split
  · exact h s s.lastPickedPathId _
  · exact h s (some id) 1

theorem picks_swrrPick (first : PathRuntime) (rest : List PathRuntime) :
    (s.swrrPick first rest).2.picks = s.picks :=
  swrrPick_keeps picks (fun _ _ _ => rfl) first rest

theorem picks_recordPick (h : s'.picks = s.picks) (id : PathId) :
    (s'.recordPick id).picks = (s.recordPick id).picks := by
  obtain ⟨hlast, hcount, hcap⟩ := picks_eq h
  unfold recordPick
  rw [hlast, hcount]
  split
  · simp [picks, hcap]
  · simp [picks, hcap]

/-! ## One call -/

theorem picks_selectAmong (first : PathRuntime) (rest : List PathRuntime) :
    (s.selectAmong targets first rest).2.picks =
      (s.recordPick (s.selectAmong targets first rest).1.id).picks := by
  unfold selectAmong
  dsimp only
  split
  · exact picks_recordPick (picks_recompute _) _
  · exact picks_recordPick ((picks_swrrPick first rest).trans (picks_recompute _)) _

theorem selectPath_keeps {β : Type} (view : AdaptiveScheduler → β)
    (hcurrent : ∀ s p value, view (putCurrent s p value) = view s)
    (hweight : ∀ s id, view (smoothWeight targets s id) = view s)
    (hpick : ∀ s id, view (recordPick id s) = view s) :
    view (s.selectPath targets paths).2 = view (paths.foldl detectFreshRecovery s) := by
  unfold selectPath
  generalize paths.foldl detectFreshRecovery s = known
  have hamong : ∀ first rest, view (known.selectAmong targets first rest).2 = view known := by
    intro first rest
    have hweighed : view (known.recomputeSmoothedWeights targets (first :: rest)) = view known :=
      foldl_keeps (smoothWeight targets) view hweight _ known
    unfold selectAmong
    dsimp only
    split
    · exact (hpick _ _).trans hweighed
    · exact (hpick _ _).trans ((swrrPick_keeps view hcurrent first rest).trans hweighed)
  cases paths.filter PathRuntime.eligible with
  | nil => rfl
  | cons first rest =>
    cases rest with
    | nil => exact hpick known first.id
    | cons second rest => exact hamong first (second :: rest)

theorem picks_of_none (h : (s.selectPath targets paths).1 = none) :
    (s.selectPath targets paths).2.picks = s.picks := by
  unfold selectPath at h ⊢
  split at h
  · next heligible =>
      exact picks_known paths s
  · cases h
  · cases h

theorem picks_of_some (h : (s.selectPath targets paths).1 = some q) :
    (s.selectPath targets paths).2.picks = (s.recordPick q.id).picks := by
  unfold selectPath at h ⊢
  split at h
  · cases h
  · next only heligible =>
      cases h
      exact picks_recordPick (picks_known paths s) _
  · next first second rest heligible =>
      cases h
      rw [picks_selectAmong]
      exact picks_recordPick (picks_known paths s) _

def HasChoice (paths : List PathRuntime) : Prop :=
  ∃ p ∈ paths, ∃ q ∈ paths, p.eligible ∧ q.eligible ∧ p.id ≠ q.id

instance (paths : List PathRuntime) : Decidable (HasChoice paths) :=
  inferInstanceAs (Decidable (∃ p ∈ paths, ∃ q ∈ paths, p.eligible ∧ q.eligible ∧ p.id ≠ q.id))

theorem foldl_isSome {α : Type} {choose : Option α → α → Option α}
    (hchoose : ∀ best x, (choose best x).isSome) {xs : List α} (h : xs ≠ []) (best : Option α) :
    (xs.foldl choose best).isSome := by
  obtain hnil | ⟨front, x, rfl⟩ := eq_nil_or_concat xs
  · exact absurd hnil h
  · rw [concat_eq_append, foldl_append]
    exact hchoose _ x

theorem heaviest_isSome (h : paths ≠ []) : (s.heaviest paths).isSome := by
  refine foldl_isSome (fun best x => ?_) h none
  cases best with
  | none => rfl
  | some q =>
    dsimp only
    split
    · rfl
    · rfl

theorem selectAmong_switches {first : PathRuntime} {rest : List PathRuntime}
    (hcap : (s.maxConsecutivePicks : Int) ≤ s.consecutivePickCount)
    (hother : ∃ p ∈ first :: rest, s.lastPickedPathId ≠ some p.id) :
    s.lastPickedPathId ≠ some (s.selectAmong targets first rest).1.id := by
  have hpicks : (s.recomputeSmoothedWeights targets (first :: rest)).picks = s.picks :=
    picks_recompute _
  unfold selectAmong
  dsimp only
  generalize s.recomputeSmoothedWeights targets (first :: rest) = weighed at hpicks ⊢
  obtain ⟨hlast, hcount, hmax⟩ := picks_eq hpicks
  rw [if_pos (by rw [hcount, hmax]; exact hcap), hlast]
  obtain ⟨p, hp, hne⟩ := hother
  have hmem : p ∈ (first :: rest).filter fun p => some p.id ≠ s.lastPickedPathId :=
    mem_filter.mpr ⟨hp, by simpa using hne.symm⟩
  obtain ⟨best, hbest⟩ := Option.isSome_iff_exists.mp
    (heaviest_isSome (s := weighed) (ne_nil_of_mem hmem))
  rw [hbest]
  have hnot := (mem_filter.mp (heaviest_mem weighed _ hbest)).2
  exact fun heq => by simp [heq] at hnot

theorem selectPath_switches (hcap : (s.maxConsecutivePicks : Int) ≤ s.consecutivePickCount)
    (hchoice : HasChoice paths) (h : (s.selectPath targets paths).1 = some q) :
    s.lastPickedPathId ≠ some q.id := by
  have hpicks := picks_known paths s
  obtain ⟨p, hp, r, hr, hpe, hre, hne⟩ := hchoice
  have hpmem : p ∈ paths.filter PathRuntime.eligible := mem_filter.mpr ⟨hp, hpe⟩
  have hrmem : r ∈ paths.filter PathRuntime.eligible := mem_filter.mpr ⟨hr, hre⟩
  unfold selectPath at h
  generalize paths.foldl detectFreshRecovery s = known at hpicks h
  obtain ⟨hlast, hcount, hmax⟩ := picks_eq hpicks
  -- two different paths cannot have the same name as the last pick
  have hother : ∃ p ∈ paths.filter PathRuntime.eligible, known.lastPickedPathId ≠ some p.id := by
    by_cases heq : known.lastPickedPathId = some p.id
    · refine ⟨r, hrmem, fun heq' => hne ?_⟩
      exact Option.some.inj (heq.symm.trans heq')
    · exact ⟨p, hpmem, heq⟩
  generalize paths.filter PathRuntime.eligible = eligible at hpmem hrmem hother h
  match eligible with
  | [] => cases h
  | [only] =>
    rw [mem_singleton.mp hpmem, mem_singleton.mp hrmem] at hne
    exact absurd rfl hne
  | first :: second :: rest =>
    cases h
    rw [← hlast]
    exact selectAmong_switches (by rw [hmax, hcount]; exact hcap) hother

/-! ## Every run -/

/-- A call of `selectPath`: the paths as they are then, and the shares their
metrics give them. -/
structure SelectCall where
  targets : PathId → Int
  paths : List PathRuntime

def create (step : Int) (cap : Nat) (startWeight : Int) : AdaptiveScheduler :=
  { maxWeightStepPerUpdate := step, maxConsecutivePicks := cap, recoveryStartWeight := startWeight }

def ask (found : AdaptiveScheduler × List (Option PathRuntime)) (c : SelectCall) :
    AdaptiveScheduler × List (Option PathRuntime) :=
  ((found.1.selectPath c.targets c.paths).2,
    found.2 ++ [(found.1.selectPath c.targets c.paths).1])

def session (s : AdaptiveScheduler) (calls : List SelectCall) :
    AdaptiveScheduler × List (Option PathRuntime) :=
  exec ask (s, []) calls

theorem session_concat (calls : List SelectCall) (c : SelectCall) :
    s.session (calls ++ [c]) = ask (s.session calls) c := exec_concat ..

def LastAll (answers : List (Option PathRuntime)) (n : Nat) (id : PathId) : Prop :=
  n ≤ answers.length ∧ ∀ a ∈ answers.rtake n, a.map PathRuntime.id = some id

variable {n : Nat}

theorem lastAll_concat {answers : List (Option PathRuntime)} {a : Option PathRuntime}
    {id : PathId} (h : LastAll (answers ++ [a]) (n + 1) id) :
    a.map PathRuntime.id = some id ∧ LastAll answers n id := by
  obtain ⟨hlength, hall⟩ := h
  rw [length_append, length_singleton] at hlength
  exact ⟨hall a (by simp), by omega, fun b hb => hall b (by simp [hb])⟩

structure Counts (s : AdaptiveScheduler) (answers : List (Option PathRuntime)) : Prop where
  nonneg : 0 ≤ s.consecutivePickCount
  le : s.consecutivePickCount < 2 ^ 31
  counted : ∀ n id, LastAll answers (n + 1) id →
    s.lastPickedPathId = some id ∧ (n : Int) + 1 ≤ s.consecutivePickCount

variable {found : AdaptiveScheduler × List (Option PathRuntime)} {c : SelectCall}

theorem room_of_same (hcap : found.1.maxConsecutivePicks < 2 ^ 31)
    (hroom : HasChoice c.paths ∨ found.1.consecutivePickCount < 2 ^ 31 - 1)
    (h : (found.1.selectPath c.targets c.paths).1 = some q)
    (hsame : found.1.lastPickedPathId = some q.id) :
    found.1.consecutivePickCount < 2 ^ 31 - 1 := by
  rcases hroom with hchoice | hroom
  · have hbelow : ¬ (found.1.maxConsecutivePicks : Int) ≤ found.1.consecutivePickCount :=
      fun hreached => selectPath_switches hreached hchoice h hsame
    omega
  · exact hroom

theorem Counts.ask (h : Counts found.1 found.2) (hcap : found.1.maxConsecutivePicks < 2 ^ 31)
    (hroom : HasChoice c.paths ∨ found.1.consecutivePickCount < 2 ^ 31 - 1) :
    Counts (ask found c).1 (ask found c).2 := by
  unfold AdaptiveScheduler.ask
  cases hanswer : (found.1.selectPath c.targets c.paths).1 with
  | none =>
    obtain ⟨-, hcount, -⟩ := picks_eq (picks_of_none hanswer)
    refine ⟨by rw [hcount]; exact h.nonneg, by rw [hcount]; exact h.le, fun n id hall => ?_⟩
    cases (lastAll_concat hall).1
  | some q =>
    have hpicks := picks_of_some hanswer
    generalize (found.1.selectPath c.targets c.paths).2 = next at hpicks ⊢
    dsimp only
    by_cases hsame : found.1.lastPickedPathId = some q.id
    · have hlt := room_of_same hcap hroom hanswer hsame
      have hnonneg := h.nonneg
      have hwrap : (found.1.consecutivePickCount + 1).bmod (2 ^ 32) =
          found.1.consecutivePickCount + 1 :=
        Int.bmod_eq_of_le (by omega) (by omega)
      rw [recordPick, if_pos hsame, hwrap] at hpicks
      obtain ⟨hlast, hcount, -⟩ : next.lastPickedPathId = found.1.lastPickedPathId ∧
          next.consecutivePickCount = found.1.consecutivePickCount + 1 ∧ _ := picks_eq hpicks
      refine ⟨by omega, by omega, fun n id hall => ?_⟩
      obtain ⟨hq, hbefore⟩ := lastAll_concat hall
      cases hq
      refine ⟨hlast.trans hsame, ?_⟩
      cases n with
      | zero => omega
      | succ n =>
        have hle := (h.counted n q.id hbefore).2
        push_cast
        omega
    · rw [recordPick, if_neg hsame] at hpicks
      obtain ⟨hlast, hcount, -⟩ : next.lastPickedPathId = some q.id ∧
          next.consecutivePickCount = 1 ∧ _ := picks_eq hpicks
      refine ⟨by omega, by omega, fun n id hall => ?_⟩
      obtain ⟨hq, hbefore⟩ := lastAll_concat hall
      cases hq
      refine ⟨hlast, ?_⟩
      cases n with
      | zero => omega
      | succ n => exact absurd (h.counted n q.id hbefore).1 hsame

theorem maxConsecutivePicks_session (calls : List SelectCall) :
    (s.session calls).1.maxConsecutivePicks = s.maxConsecutivePicks := by
  induction calls using List.reverseRecOn with
  | nil => rfl
  | append_singleton calls c ih =>
    rw [session_concat, ← ih, ask]
    exact (selectPath_keeps maxConsecutivePicks (fun _ _ _ => rfl) (fun _ _ => rfl)
      (recordPick_keeps _ fun _ _ _ => rfl)).trans
        (foldl_keeps detectFreshRecovery maxConsecutivePicks (fun _ _ => rfl) _ _)

/-- The answer is an eligible path, or there is none; and with a choice it is
not the path of the last `cap` answers. -/
def Capped (cap : Nat) (found : AdaptiveScheduler × List (Option PathRuntime)) (c : SelectCall) :
    Prop :=
  ((found.1.selectPath c.targets c.paths).1 = none ↔ ∀ p ∈ c.paths, p.eligible = false) ∧
    (∀ q, (found.1.selectPath c.targets c.paths).1 = some q → q ∈ c.paths ∧ q.eligible = true) ∧
    (HasChoice c.paths → ∀ id, LastAll found.2 cap id →
      (found.1.selectPath c.targets c.paths).1.map PathRuntime.id ≠ some id)

theorem answer_eligible (s : AdaptiveScheduler) (targets : PathId → Int) (paths : List PathRuntime) :
    ((s.selectPath targets paths).1 = none ↔ ∀ p ∈ paths, p.eligible = false) ∧
      ∀ q, (s.selectPath targets paths).1 = some q → q ∈ paths ∧ q.eligible = true := by
  have hspec := selectPath_eligible targets paths s
  generalize (s.selectPath targets paths).1 = answer at hspec ⊢
  cases answer with
  | none => exact ⟨iff_of_true rfl hspec, nofun⟩
  | some p =>
    obtain ⟨hmem, heligible⟩ : p ∈ paths ∧ p.eligible = true := hspec
    refine ⟨iff_of_false nofun fun hnone => ?_, fun q hq => ?_⟩
    · rw [hnone p hmem] at heligible
      cases heligible
    · cases hq
      exact ⟨hmem, heligible⟩

/-- **The burst cap** holds in every run whose calls without a choice find the
counter below its greatest value. -/
theorem burst_capped (step startWeight : Int) (cap : Nat) (hcap : 1 ≤ cap) (hint : cap < 2 ^ 31)
    (calls : List SelectCall)
    (h : AlongRun (fun before c => HasChoice c.paths ∨
      ((create step cap startWeight).session before).1.consecutivePickCount < 2 ^ 31 - 1) calls) :
    AlongRun (fun before c => Capped cap ((create step cap startWeight).session before) c) calls := by
  have hmax : ∀ before,
      ((create step cap startWeight).session before).1.maxConsecutivePicks = cap :=
    maxConsecutivePicks_session
  refine alongRun_of_invariant (I := fun before =>
      Counts ((create step cap startWeight).session before).1
        ((create step cap startWeight).session before).2) ?_ ?_ ?_ h
  · exact ⟨le_rfl, (by decide : (0 : Int) < 2 ^ 31), fun n id hall => absurd hall.1 (by simp [session])⟩
  · intro before c hcounts hroom
    rw [session_concat]
    exact hcounts.ask (by rw [hmax]; exact hint) hroom
  · intro before c hcounts _
    obtain ⟨hnone, hsome⟩ := answer_eligible ((create step cap startWeight).session before).1
      c.targets c.paths
    refine ⟨hnone, hsome, fun hchoice id hall hanswer => ?_⟩
    obtain ⟨q, hq, hid⟩ := Option.map_eq_some_iff.mp hanswer
    obtain ⟨n, rfl⟩ : ∃ n, cap = n + 1 := ⟨cap - 1, by omega⟩
    obtain ⟨hlast, hcount⟩ := hcounts.counted n id hall
    refine selectPath_switches ?_ hchoice hq (hlast.trans (congrArg some hid.symm))
    rw [hmax]
    exact hcount

/-! ## A counter that wraps -/

def wifi : PathRuntime := ⟨.wifi, .active⟩
def cellular : PathRuntime := ⟨.cellular, .active⟩

def mostlyWifi (id : PathId) : Int := if id = .wifi then 90 else 10

theorem burst_capped_one :
    ((create 10 1 10).session [⟨mostlyWifi, [wifi]⟩, ⟨mostlyWifi, [wifi, cellular]⟩]).2 =
        [some wifi, some cellular] ∧
      AlongRun (fun before c => Capped 1 ((create 10 1 10).session before) c)
        [⟨mostlyWifi, [wifi]⟩, ⟨mostlyWifi, [wifi, cellular]⟩] := by
  refine ⟨by decide, burst_capped 10 10 1 (by decide) (by decide) _ ?_⟩
  decide

def wifiOnly (n : Nat) : List SelectCall := List.replicate n ⟨mostlyWifi, [wifi]⟩

def afterWifi (n : Nat) : AdaptiveScheduler :=
  { create 10 10 10 with
    lastKnownState := Function.update (fun _ => none) .wifi (some .active)
    lastPickedPathId := some .wifi
    consecutivePickCount := (n : Int).bmod (2 ^ 32) }

theorem selectPath_afterWifi (n : Nat) :
    (afterWifi n).selectPath mostlyWifi [wifi] = (some wifi, afterWifi (n + 1)) := by
  have hknown : (afterWifi n).detectFreshRecovery wifi = afterWifi n := by
    simp only [detectFreshRecovery, afterWifi, wifi, Function.update_idem, Function.update_self]
    rfl
  have hcount : ((n : Int).bmod (2 ^ 32) + 1).bmod (2 ^ 32) = ((n + 1 : Nat) : Int).bmod (2 ^ 32) := by
    rw [Int.bmod_add_bmod, Nat.cast_succ]
  have hrecord : (afterWifi n).recordPick wifi.id = afterWifi (n + 1) := by
    have hlast : (afterWifi n).lastPickedPathId = some wifi.id := rfl
    rw [recordPick, if_pos hlast, afterWifi, hcount, afterWifi]
  show (some wifi, ((afterWifi n).detectFreshRecovery wifi).recordPick wifi.id) = _
  rw [hknown, hrecord]

theorem session_wifiOnly (n : Nat) :
    (create 10 10 10).session (wifiOnly (n + 1)) =
      (afterWifi (n + 1), List.replicate (n + 1) (some wifi)) := by
  induction n with
  | zero => rfl
  | succ n ih =>
    rw [wifiOnly, replicate_succ', session_concat, ← wifiOnly, ih, ask,
      selectPath_afterWifi, ← replicate_succ']

theorem selectPath_of_below {first second : PathRuntime} {rest : List PathRuntime}
    (heligible : paths.filter PathRuntime.eligible = first :: second :: rest)
    (hbelow : s.consecutivePickCount < s.maxConsecutivePicks) :
    (s.selectPath targets paths).1 =
      some (((paths.foldl detectFreshRecovery s).recomputeSmoothedWeights targets
        (first :: second :: rest)).swrrPick first (second :: rest)).1 := by
  have hpicks : ((paths.foldl detectFreshRecovery s).recomputeSmoothedWeights targets
      (first :: second :: rest)).picks = s.picks :=
    (picks_recompute _).trans (picks_known paths s)
  unfold selectPath
  rw [heligible]
  unfold selectAmong
  dsimp only
  obtain ⟨-, hcount, hmax⟩ := picks_eq hpicks
  rw [if_neg (by rw [hcount, hmax]; omega)]

theorem selectPath_below_cap (h : (n : Int).bmod (2 ^ 32) < 10) :
    ((afterWifi n).selectPath mostlyWifi [wifi, cellular]).1 = some wifi := by
  unfold afterWifi
  have heligible : [wifi, cellular].filter PathRuntime.eligible = wifi :: cellular :: [] := rfl
  rw [selectPath_of_below heligible (by simpa [create] using h)]
  rfl

theorem not_capped_of_wrapped (hn : 10 ≤ n) (h : (n : Int).bmod (2 ^ 32) < 10) :
    LastAll ((create 10 10 10).session (wifiOnly n)).2 10 .wifi ∧
      (((create 10 10 10).session (wifiOnly n)).1.selectPath mostlyWifi [wifi, cellular]).1 =
        some wifi := by
  obtain ⟨n, rfl⟩ : ∃ m, n = m + 1 := ⟨n - 1, by omega⟩
  rw [session_wifiOnly]
  refine ⟨⟨by simpa using hn, fun a ha => ?_⟩, selectPath_below_cap h⟩
  rw [eq_of_mem_replicate (mem_of_mem_drop ha)]
  rfl

theorem burst_not_capped :
    LastAll ((create 10 10 10).session (wifiOnly (2 ^ 31))).2 10 .wifi ∧
      HasChoice [wifi, cellular] ∧
      (((create 10 10 10).session (wifiOnly (2 ^ 31))).1.selectPath mostlyWifi
        [wifi, cellular]).1 = some wifi ∧
      ¬ AlongRun (fun before c => Capped 10 ((create 10 10 10).session before) c)
        (wifiOnly (2 ^ 31) ++ [⟨mostlyWifi, [wifi, cellular]⟩]) := by
  have hwrapped : ((2 ^ 31 : Nat) : Int).bmod (2 ^ 32) < 10 := by decide
  obtain ⟨hall, hanswer⟩ := not_capped_of_wrapped (by decide) hwrapped
  have hchoice : HasChoice [wifi, cellular] := by decide
  refine ⟨hall, hchoice, hanswer, fun h => ?_⟩
  have hcapped := (alongRun_concat.mp h).2
  exact hcapped.2.2 hchoice .wifi hall (congrArg (Option.map PathRuntime.id) hanswer)

end AdaptiveScheduler

end BigRocket.Bonding
