/-
Every split that the calculator gives out is valid and follows the user's
scores, and how the share of a recovered path grows.
-/
import BigRocket.Service.WeightCalculator

namespace BigRocket.Service

open Lib

def NetworkWeights.Split (w : NetworkWeights) : Prop :=
  10 ≤ w.wifiWeight ∧ 10 ≤ w.cellularWeight ∧ w.wifiWeight + w.cellularWeight = 100

def NetworkWeights.share (w : NetworkWeights) : PhysicalPath → Int
  | .wifi => w.wifiWeight
  | .cellular => w.cellularWeight

namespace DynamicWeightCalculator

variable {c : DynamicWeightCalculator}

theorem coerceIn_mem {v low high : Int} (h : low ≤ high) :
    low ≤ coerceIn v low high ∧ coerceIn v low high ≤ high :=
  ⟨le_max_left _ _, max_le h (min_le_right _ _)⟩

/-! ## The sources of a split -/

theorem split_preferredWeights (c : DynamicWeightCalculator) : c.preferredWeights.Split := by
  obtain ⟨hlow, hhigh⟩ := coerceIn_mem
    (v := 50 + coerceIn ((c.cellularUserScore - c.wifiUserScore) * 10) (-40) 40)
    (show (10 : Int) ≤ 90 by decide)
  refine ⟨?_, hlow, ?_⟩
  · simp only [preferredWeights]
    omega
  · simp only [preferredWeights]
    omega

theorem preferredWeights_of_lt :
    (c.cellularUserScore < c.wifiUserScore → 50 < c.preferredWeights.wifiWeight) ∧
      (c.wifiUserScore < c.cellularUserScore → 50 < c.preferredWeights.cellularWeight) := by
  simp only [preferredWeights, coerceIn]
  constructor
  · omega
  · omega

theorem split_recoveryShare {weight : Int} (hlow : 10 ≤ weight) (hhigh : weight ≤ 90)
    (recovery : PhysicalPath) : (recoveryShare recovery weight).Split := by
  cases recovery with
  | wifi =>
    simp only [NetworkWeights.Split, recoveryShare]
    omega
  | cellular =>
    simp only [NetworkWeights.Split, recoveryShare]
    omega

section Quality

variable {K : Type} [Field K] [LinearOrder K] [FloorRing K]

theorem split_qualityWeights (wifiBetter : Bool) (wifiCost cellularCost : Int) :
    (qualityWeights (K := K) wifiBetter wifiCost cellularCost).Split := by
  simp only [qualityWeights, NetworkWeights.Split]
  simp only [coerceIn, maxWeight, minWeight]
  cases wifiBetter with
  | true =>
    omega
  | false =>
    omega

end Quality

/-! ## One call -/

def Ramped (c : DynamicWeightCalculator) : Prop := 10 ≤ c.recoveryWeight ∧ c.recoveryWeight ≤ 90

theorem ramped_of_start (h : c.recoveryWeight = recoveryStartWeight) : c.Ramped := by
  rw [Ramped, h]
  decide

theorem recover_spec (h : c.Ramped) (recovery : PhysicalPath) (wifiBetter cellularBetter : Bool) :
    (c.recover recovery wifiBetter cellularBetter).Ramped ∧
      (c.recover recovery wifiBetter cellularBetter).currentWeights.Split := by
  obtain ⟨hlow, hhigh⟩ := h
  have hpreferred := split_preferredWeights c
  simp only [recover]
  split
  · have hweight : 10 ≤ min (c.recoveryWeight + recoveryStep)
          (if recovery = .wifi then c.preferredWeights.wifiWeight
            else c.preferredWeights.cellularWeight) ∧
        min (c.recoveryWeight + recoveryStep)
          (if recovery = .wifi then c.preferredWeights.wifiWeight
            else c.preferredWeights.cellularWeight) ≤ 90 := by
      simp only [NetworkWeights.Split] at hpreferred
      simp only [recoveryStep]
      split
      · omega
      · omega
    exact ⟨hweight, split_recoveryShare hweight.1 hweight.2 recovery⟩
  · exact ⟨⟨hlow, hhigh⟩, split_recoveryShare hlow hhigh recovery⟩

section Calls

variable {K : Type} [Field K] [LinearOrder K] [FloorRing K]

theorem weigh_spec (h : c.Ramped) (wifiLossRate cellularLossRate : K) :
    (c.weigh wifiLossRate cellularLossRate).Ramped ∧
      (c.weigh wifiLossRate cellularLossRate).currentWeights.Split := by
  simp only [weigh]
  split
  · exact ⟨h, split_preferredWeights c⟩
  · split
    · exact ⟨h, split_preferredWeights c⟩
    · split
      · exact recover_spec h _ _ _
      · exact ⟨h, split_qualityWeights _ _ _⟩

theorem ramped_update (h : c.Ramped) (m : Measurement K) : (c.update m).2.Ramped := by
  simp only [update]
  split
  · exact ramped_of_start rfl
  · split
    · exact h
    · split
      · exact h
      · split
        · exact h
        · exact (weigh_spec (c := c.addSample _) h _ _).1

theorem ramped_step (h : c.Ramped) (e : WeightEvent K) : (c.step e).Ramped := by
  cases e with
  | configureUserScores wifiScore cellularScore => exact ramped_of_start rfl
  | update m => exact ramped_update h m
  | resetForPathRecovery recovered => exact ramped_of_start rfl
  | clear => exact ramped_of_start rfl

theorem update_of_both (h : c.Ramped) {m : Measurement K} (hwifi : m.wifiAvailable = true)
    (hcellular : m.cellularAvailable = true) :
    (c.update m).1.Split ∧
      (c.cellularUserScore < c.wifiUserScore → 50 < (c.update m).1.wifiWeight) ∧
      (c.wifiUserScore < c.cellularUserScore → 50 < (c.update m).1.cellularWeight) := by
  have hpreferred := preferredWeights_of_lt
    (c := c.addSample ⟨max m.wifiLatency 1, max m.cellularLatency 1⟩)
  simp only [update, hwifi, hcellular, Bool.not_true, Bool.and_self, Bool.false_eq_true, if_false]
  split
  · exact ⟨split_preferredWeights _, hpreferred⟩
  · rename_i hequal
    have hscores : c.wifiUserScore = c.cellularUserScore := not_not.mp hequal
    refine ⟨(weigh_spec (c := c.addSample _) h _ _).2, fun hlt => ?_, fun hlt => ?_⟩
    · omega
    · omega

/-- **Each update obeys the rules**: nothing without a path, all for the only one,
and more than half for the one with the higher score. -/
theorem update_obeys (events : List (WeightEvent K)) (m : Measurement K) :
    (((run events).update m).1 = ⟨0, 0⟩ ↔ m.wifiAvailable = false ∧ m.cellularAvailable = false) ∧
    (m.wifiAvailable = true ∨ m.cellularAvailable = true →
      0 ≤ ((run events).update m).1.wifiWeight ∧ 0 ≤ ((run events).update m).1.cellularWeight ∧
        ((run events).update m).1.wifiWeight + ((run events).update m).1.cellularWeight = 100) ∧
    (m.wifiAvailable = true → m.cellularAvailable = false →
      ((run events).update m).1 = ⟨100, 0⟩) ∧
    (m.wifiAvailable = false → m.cellularAvailable = true →
      ((run events).update m).1 = ⟨0, 100⟩) ∧
    (m.wifiAvailable = true → m.cellularAvailable = true →
      10 ≤ ((run events).update m).1.wifiWeight ∧ 10 ≤ ((run events).update m).1.cellularWeight ∧
        ((run events).cellularUserScore < (run events).wifiUserScore →
          50 < ((run events).update m).1.wifiWeight) ∧
        ((run events).wifiUserScore < (run events).cellularUserScore →
          50 < ((run events).update m).1.cellularWeight)) := by
  have hramped : (run events).Ramped := by
    induction events using List.reverseRecOn with
    | nil => exact ramped_of_start rfl
    | append_singleton events e ih =>
      rw [run, exec_concat]
      exact ramped_step ih e
  cases hwifi : m.wifiAvailable with
  | false =>
    cases hcellular : m.cellularAvailable with
    | false => simp [update, hwifi, hcellular]
    | true => simp [update, hwifi, hcellular]
  | true =>
    cases hcellular : m.cellularAvailable with
    | false => simp [update, hwifi, hcellular]
    | true =>
      obtain ⟨⟨hlow, hhigh, hsum⟩, hscores⟩ := update_of_both hramped hwifi hcellular
      refine ⟨⟨fun hzero => ?_, nofun⟩, fun _ => ⟨by omega, by omega, hsum⟩, nofun, nofun,
        fun _ _ => ⟨hlow, hhigh, hscores⟩⟩
      rw [hzero] at hlow
      exact absurd hlow (by decide)

/-! ## A recovered path -/

def answers (c : DynamicWeightCalculator) : List (Measurement K) → List NetworkWeights
  | [] => []
  | m :: rest => (c.update m).1 :: (c.update m).2.answers rest

def Ramps (preferred : Int) : List Int → Prop
  | share :: next :: rest =>
    share < preferred → next ≤ share + recoveryStep ∧ Ramps preferred (next :: rest)
  | _ => True

def RampsIn (c : DynamicWeightCalculator) (p : PhysicalPath) (updates : List (Measurement K)) :
    Prop :=
  let recovered := c.resetForPathRecovery (some p)
  let shares := (recovered.currentWeights :: recovered.answers updates).map (·.share p)
  shares.head? = some recoveryStartWeight ∧ Ramps (c.preferredWeights.share p) shares

theorem share_resetForPathRecovery (c : DynamicWeightCalculator) (p : PhysicalPath) :
    (c.resetForPathRecovery (some p)).currentWeights.share p = recoveryStartWeight := by
  cases p with
  | wifi => rfl
  | cellular => rfl

theorem share_preferredWeights (hequal : c.wifiUserScore = c.cellularUserScore)
    (p : PhysicalPath) : c.preferredWeights.share p = 50 := by
  rw [preferredWeights, hequal, sub_self]
  cases p with
  | wifi => rfl
  | cellular => rfl

theorem update_resetForPathRecovery (hequal : c.wifiUserScore = c.cellularUserScore)
    (p : PhysicalPath) {m : Measurement K} (hwifi : m.wifiAvailable = true)
    (hcellular : m.cellularAvailable = true) :
    ((c.resetForPathRecovery (some p)).update m).1 = c.preferredWeights := by
  simp only [update, hwifi, hcellular, Bool.not_true, Bool.and_self, Bool.false_eq_true, if_false]
  split
  · rename_i hdiffer
    exact absurd hequal hdiffer
  · rfl

/-- **A recovered path ramps in only as long as there is no update**: with
equal scores and both paths there, the first one gives it its full share. -/
theorem rampsIn_iff_no_update (c : DynamicWeightCalculator)
    (hequal : c.wifiUserScore = c.cellularUserScore) (p : PhysicalPath)
    (updates : List (Measurement K))
    (hboth : ∀ m ∈ updates, m.wifiAvailable = true ∧ m.cellularAvailable = true) :
    c.RampsIn p updates ↔ updates = [] := by
  constructor
  · intro h
    cases updates with
    | nil => rfl
    | cons m rest =>
      obtain ⟨hwifi, hcellular⟩ := hboth m (by simp)
      obtain ⟨-, hramps⟩ := h
      simp only [answers, List.map_cons, Ramps, share_resetForPathRecovery,
        update_resetForPathRecovery hequal p hwifi hcellular,
        share_preferredWeights hequal p] at hramps
      have hgrowth := (hramps (by decide)).1
      exact absurd hgrowth (by decide)
  · rintro rfl
    exact ⟨congrArg some (share_resetForPathRecovery c p), trivial⟩

end Calls

theorem rampsIn_recovered :
    create.RampsIn .wifi ([] : List (Measurement ℚ)) :=
  (rampsIn_iff_no_update create rfl .wifi [] (by simp)).mpr rfl

theorem recovered_jumps :
    create.wifiUserScore = create.cellularUserScore ∧
      ((create.resetForPathRecovery (some .wifi)).currentWeights,
        (create.resetForPathRecovery (some .wifi)).answers
          [(⟨true, 30, true, 30, 0, 0⟩ : Measurement ℚ)]) = (⟨10, 90⟩, [⟨50, 50⟩]) ∧
      ¬ create.RampsIn .wifi [(⟨true, 30, true, 30, 0, 0⟩ : Measurement ℚ)] := by
  refine ⟨rfl, rfl, fun h => ?_⟩
  obtain ⟨hgrowth, -⟩ := h.2 (by decide)
  exact absurd hgrowth (by decide)

end DynamicWeightCalculator

end BigRocket.Service
