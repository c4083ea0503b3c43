/-
Which path owns the visible address: `preferredIdentityPath` and
`isIdentityEligible`, beside the weights, since all run under one lock.
-/
import BigRocket.Lib.Kotlin
import BigRocket.Service.WeightCalculator

namespace BigRocket.Service

open Lib

def PhysicalPath.text : PhysicalPath → Text
  | .wifi => "wifi".toList
  | .cellular => "cellular".toList

def PhysicalPath.isUp : PhysicalPath → Bool → Bool → Bool
  | .wifi, wifiAvailable, _ => wifiAvailable
  | .cellular, _, cellularAvailable => cellularAvailable

namespace DynamicWeightCalculator

def preferredPath (c : DynamicWeightCalculator) : Option PhysicalPath :=
  if c.wifiUserScore > c.cellularUserScore then some .wifi
  else if c.cellularUserScore > c.wifiUserScore then some .cellular
  else none

def firstOwner (c : DynamicWeightCalculator) : PhysicalPath :=
  if c.wifiUserScore ≠ c.cellularUserScore then
    if c.wifiUserScore > c.cellularUserScore then .wifi else .cellular
  else
    let wifiMedian := median (c.samples.map (·.wifiLatencyMs))
    let cellularMedian := median (c.samples.map (·.cellularLatencyMs))
    if wifiMedian ≤ cellularMedian then .wifi else .cellular

end DynamicWeightCalculator

structure IdentityCalculator where
  weights : DynamicWeightCalculator
  identityOwner : Option PhysicalPath

inductive IdentityEvent (K : Type) where
  | weights (e : WeightEvent K)
  | preferredIdentityPath (wifiAvailable cellularAvailable : Bool)
  | isIdentityEligible (path : Text)

namespace IdentityCalculator

open DynamicWeightCalculator (windowSize)

def create : IdentityCalculator := ⟨.create, none⟩

def preferredIdentityPath (c : IdentityCalculator) (wifiAvailable cellularAvailable : Bool) :
    Option Text × IdentityCalculator :=
  if !wifiAvailable && !cellularAvailable then (none, { c with identityOwner := none })
  else if wifiAvailable && !cellularAvailable then
    (some PhysicalPath.wifi.text, { c with identityOwner := some .wifi })
  else if !wifiAvailable && cellularAvailable then
    (some PhysicalPath.cellular.text, { c with identityOwner := some .cellular })
  else
    match c.identityOwner with
    | some owner => (some owner.text, c)
    | none =>
      if c.weights.samples.length < windowSize then (none, c)
      else
        let owner := c.weights.firstOwner
        (some owner.text, { c with identityOwner := some owner })

def isIdentityEligible (jvm : Jvm) (c : IdentityCalculator) (path : Text) :
    Bool × IdentityCalculator :=
  let normalized := jvm.lowercase path
  if c.weights.wifiUserScore ≠ c.weights.cellularUserScore then
    (c.weights.preferredPath.map PhysicalPath.text = some normalized, c)
  else
    let selected := c.preferredIdentityPath true true
    (selected.1 = some normalized, selected.2)

section Run

variable {K : Type} [Field K] [LinearOrder K] [FloorRing K]

def ownerAfter (owner : Option PhysicalPath) : WeightEvent K → Option PhysicalPath
  | .configureUserScores _ _ => none
  | .update m => if !m.wifiAvailable && !m.cellularAvailable then none else owner
  | .resetForPathRecovery _ => owner
  | .clear => none

def step (jvm : Jvm) (c : IdentityCalculator) : IdentityEvent K → IdentityCalculator
  | .weights e => ⟨c.weights.step e, ownerAfter c.identityOwner e⟩
  | .preferredIdentityPath wifiAvailable cellularAvailable =>
    (c.preferredIdentityPath wifiAvailable cellularAvailable).2
  | .isIdentityEligible path => (c.isIdentityEligible jvm path).2

def run (jvm : Jvm) (events : List (IdentityEvent K)) : IdentityCalculator :=
  exec (step jvm) create events

end Run

end IdentityCalculator

end BigRocket.Service
