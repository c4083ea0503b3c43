/-
`DynamicWeightCalculator`, how the traffic is split between Wi-Fi and cellular.
The `Double`s of the source are elements of an ordered field with a floor;
latencies have no bound.
-/
import BigRocket.Service.SessionTracker

namespace BigRocket.Service

open Lib

structure NetworkWeights where
  wifiWeight : Int
  cellularWeight : Int
  deriving DecidableEq, Repr

inductive PhysicalPath where
  | wifi
  | cellular
  deriving DecidableEq, Repr

structure Sample where
  wifiLatencyMs : Int
  cellularLatencyMs : Int
  deriving DecidableEq, Repr

structure DynamicWeightCalculator where
  samples : List Sample
  wifiUserScore : Int
  cellularUserScore : Int
  currentWeights : NetworkWeights
  recoveringPath : Option PhysicalPath
  recoveryWeight : Int
  deriving DecidableEq, Repr

structure Measurement (K : Type) where
  wifiAvailable : Bool
  wifiLatency : Int
  cellularAvailable : Bool
  cellularLatency : Int
  wifiLossRate : K
  cellularLossRate : K

namespace DynamicWeightCalculator

def windowSize : Nat := 5
def maxWeight : Int := 85
def minWeight : Int := 15
def recoveryStartWeight : Int := 10
def recoveryStep : Int := 10

def create : DynamicWeightCalculator where
  samples := []
  wifiUserScore := 1
  cellularUserScore := 1
  currentWeights := ⟨50, 50⟩
  recoveringPath := none
  recoveryWeight := recoveryStartWeight

def preferredWeights (c : DynamicWeightCalculator) : NetworkWeights :=
  let delta := coerceIn ((c.cellularUserScore - c.wifiUserScore) * 10) (-40) 40
  let cellular := coerceIn (50 + delta) 10 90
  ⟨100 - cellular, cellular⟩

def configureUserScores (c : DynamicWeightCalculator) (wifiScore cellularScore : Int) :
    DynamicWeightCalculator :=
  let c := { c with
    wifiUserScore := coerceIn wifiScore 1 5, cellularUserScore := coerceIn cellularScore 1 5
    recoveringPath := none, recoveryWeight := recoveryStartWeight, samples := [] }
  { c with currentWeights := c.preferredWeights }

def median (values : List Int) : Int :=
  ((values.insertionSort (· ≤ ·))[values.length / 2]?).getD 1

def medianAbsoluteDeviation (values : List Int) (m : Int) : Int :=
  if values = [] then 0 else median (values.map fun v => |v - m|)

def clear (c : DynamicWeightCalculator) : DynamicWeightCalculator :=
  { c with
    samples := [], recoveringPath := none, recoveryWeight := recoveryStartWeight
    currentWeights := c.preferredWeights }

def resetForPathRecovery (c : DynamicWeightCalculator) (recovered : Option PhysicalPath) :
    DynamicWeightCalculator :=
  { c with
    samples := [], recoveringPath := recovered, recoveryWeight := recoveryStartWeight
    currentWeights := match recovered with
      | some .wifi => ⟨recoveryStartWeight, 100 - recoveryStartWeight⟩
      | some .cellular => ⟨100 - recoveryStartWeight, recoveryStartWeight⟩
      | none => c.preferredWeights }

section Update

variable {K : Type} [Field K] [LinearOrder K] [FloorRing K]

def truncate (x : K) : Int := if 0 ≤ x then ⌊x⌋ else ⌈x⌉

def cost (latencies : List Int) (lossRate : K) : Int :=
  let m := median latencies
  let stability := medianAbsoluteDeviation latencies m
  let lossDivisor := max (1 - lossRate) (1 / 20)
  max (truncate (((m + stability * 2 : Int) : K) / lossDivisor)) 1

def better (cost other : Int) : Bool := decide ((cost : K) * (11 / 10) < (other : K))

def qualityWeights (wifiBetter : Bool) (wifiCost cellularCost : Int) : NetworkWeights :=
  let wifiQualityScore : K := 1 / (wifiCost : K)
  let cellularQualityScore : K := 1 / (cellularCost : K)
  let total := wifiQualityScore + cellularQualityScore
  let rawWifi := truncate (wifiQualityScore / total * 100)
  let clamped := if wifiBetter then coerceIn rawWifi 51 maxWeight else coerceIn rawWifi minWeight 49
  ⟨clamped, 100 - clamped⟩

def recoveryShare (recovery : PhysicalPath) (weight : Int) : NetworkWeights :=
  match recovery with
  | .wifi => ⟨weight, 100 - weight⟩
  | .cellular => ⟨100 - weight, weight⟩

def recover (c : DynamicWeightCalculator) (recovery : PhysicalPath)
    (wifiBetter cellularBetter : Bool) : DynamicWeightCalculator :=
  let preferred := c.preferredWeights
  if (recovery = .wifi ∧ wifiBetter) ∨ (recovery = .cellular ∧ cellularBetter) then
    let weight := min (c.recoveryWeight + recoveryStep)
      (if recovery = .wifi then preferred.wifiWeight else preferred.cellularWeight)
    let weights := recoveryShare recovery weight
    { c with
      recoveryWeight := weight, currentWeights := weights
      recoveringPath := if weights = preferred then none else c.recoveringPath }
  else { c with currentWeights := recoveryShare recovery c.recoveryWeight }

def addSample (c : DynamicWeightCalculator) (sample : Sample) : DynamicWeightCalculator :=
  { c with
    samples := (if c.samples.length = windowSize then c.samples.tail else c.samples) ++ [sample] }

def weigh (c : DynamicWeightCalculator) (wifiLossRate cellularLossRate : K) :
    DynamicWeightCalculator :=
  let preferred := c.preferredWeights
  if c.samples.length < windowSize then { c with currentWeights := preferred }
  else
    let wifiCost := cost (c.samples.map (·.wifiLatencyMs)) wifiLossRate
    let cellularCost := cost (c.samples.map (·.cellularLatencyMs)) cellularLossRate
    let wifiBetter := better (K := K) wifiCost cellularCost
    let cellularBetter := better (K := K) cellularCost wifiCost
    if !wifiBetter && !cellularBetter then { c with currentWeights := preferred }
    else
      match c.recoveringPath with
      | some recovery => c.recover recovery wifiBetter cellularBetter
      | none =>
        { c with currentWeights := qualityWeights (K := K) wifiBetter wifiCost cellularCost }

def update (c : DynamicWeightCalculator) (m : Measurement K) :
    NetworkWeights × DynamicWeightCalculator :=
  if !m.wifiAvailable && !m.cellularAvailable then (⟨0, 0⟩, c.clear)
  else if !m.cellularAvailable then
    (⟨100, 0⟩, { c with samples := [], recoveringPath := none, currentWeights := ⟨100, 0⟩ })
  else if !m.wifiAvailable then
    (⟨0, 100⟩, { c with samples := [], recoveringPath := none, currentWeights := ⟨0, 100⟩ })
  else
    let c := c.addSample ⟨max m.wifiLatency 1, max m.cellularLatency 1⟩
    if c.wifiUserScore ≠ c.cellularUserScore then
      let c := { c with recoveringPath := none, currentWeights := c.preferredWeights }
      (c.currentWeights, c)
    else
      let c := c.weigh m.wifiLossRate m.cellularLossRate
      (c.currentWeights, c)

end Update

end DynamicWeightCalculator

inductive WeightEvent (K : Type) where
  | configureUserScores (wifiScore cellularScore : Int)
  | update (m : Measurement K)
  | resetForPathRecovery (recovered : Option PhysicalPath)
  | clear

namespace DynamicWeightCalculator

variable {K : Type} [Field K] [LinearOrder K] [FloorRing K]

def step (c : DynamicWeightCalculator) : WeightEvent K → DynamicWeightCalculator
  | .configureUserScores wifiScore cellularScore => c.configureUserScores wifiScore cellularScore
  | .update m => (c.update m).2
  | .resetForPathRecovery recovered => c.resetForPathRecovery recovered
  | .clear => c.clear

def run (events : List (WeightEvent K)) : DynamicWeightCalculator := exec step create events

end DynamicWeightCalculator

end BigRocket.Service
