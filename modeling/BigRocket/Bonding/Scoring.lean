/-
`AdaptiveScheduler` with its metrics. The source scores in floating point: what
the weights are moved towards is an argument of a run (`Shares`), and
`rawTargets` is the formula in exact arithmetic.
-/
import BigRocket.Bonding.Lifecycle

namespace BigRocket.Bonding

open Lib

structure PathMetrics where
  latencyMs : Int
  jitterMs : Int
  packetLoss : ℚ
  bandwidthEstimate : Int

namespace PathMetrics

def initial : PathMetrics :=
  { latencyMs := 50, jitterMs := 5, packetLoss := 0, bandwidthEstimate := 1000000 }

end PathMetrics

namespace AdaptiveScheduler

/-! ## Scores and shares -/

def minTotalScore : ℚ := 1 / 10000
def minPathScore : ℚ := 1 / 10000

def scoreFor (metrics : PathMetrics) (queueSize : Nat) (state : PathState) : ℚ :=
  let bandwidthScore : ℚ := metrics.bandwidthEstimate / 100000
  let latencyScore : ℚ := 1000 / (max metrics.latencyMs 1 + 1 : Int)
  let lossScore : ℚ := (1 - max 0 (min 1 metrics.packetLoss)) * 100
  let stabilityScore : ℚ := 500 / (max metrics.jitterMs 0 + 1 : Int)
  let queueScore : ℚ := 100 / (queueSize + 1 : Nat)
  let degradedPenalty : ℚ := if state = .degraded then 1 / 2 else 1
  let recoveringPenalty : ℚ := if state = .recovering then 1 / 4 else 1
  let raw := bandwidthScore + latencyScore + lossScore + stabilityScore + queueScore
  max (raw * degradedPenalty * recoveringPenalty) minPathScore

/-- Largest remainders: what the floors leave of the hundred goes to the
greatest fractions first, one each, in turn. -/
def normalizeToIntegerPercentages (targets : List (PathId × ℚ)) : List (PathId × Int) :=
  let floors := targets.map fun t => (t.1, ⌊t.2⌋)
  let remainder := 100 - (floors.map Prod.snd).sum
  let byFractionDesc := targets.insertionSort fun a b => Int.fract b.2 ≤ Int.fract a.2
  (List.range remainder.toNat).foldl (fun result i =>
    match byFractionDesc[i % byFractionDesc.length]? with
    | none => result
    | some key => result.map fun t => if t.1 = key.1 then (t.1, t.2 + 1) else t) floors

/-- What the weights of the eligible paths are moved towards. -/
abbrev Shares := (PathId → Option PathMetrics) → (PathId → Nat) → List PathRuntime → PathId → Int

def rawTargets : Shares := fun latestMetrics queueSize eligible id =>
  let score := fun p : PathRuntime =>
    scoreFor ((latestMetrics p.id).getD .initial) (queueSize p.id) p.state
  let totalScore := max (eligible.map score).sum minTotalScore
  let shareOf := fun id => (eligible.reverse.find? (·.id = id)).map fun p =>
    (id, score p / totalScore * 100)
  let targetWeights := (eligible.map PathRuntime.id).dedup.filterMap shareOf
  ((normalizeToIntegerPercentages targetWeights).lookup id).getD 0

end AdaptiveScheduler

/-! ## Runs -/

structure MeteredScheduler where
  scheduler : AdaptiveScheduler
  latestMetrics : PathId → Option PathMetrics := fun _ => none

/-- A call on the scheduler; `selectPath` finds the paths in their states and
their queues of a size. -/
inductive SchedulerCall where
  | update (id : PathId) (metrics : PathMetrics)
  | selectPath (paths : List PathRuntime) (queueSize : PathId → Nat)

namespace MeteredScheduler

/-- `none` where the source answers 0, before the path has a weight. -/
def weightPercent (m : MeteredScheduler) (id : PathId) : Option Int :=
  m.scheduler.smoothedWeights id

def step (shares : AdaptiveScheduler.Shares) (m : MeteredScheduler) :
    SchedulerCall → MeteredScheduler
  | .update id metrics =>
    { m with latestMetrics := Function.update m.latestMetrics id (some metrics) }
  | .selectPath paths queueSize =>
    let targets := shares m.latestMetrics queueSize (paths.filter PathRuntime.eligible)
    { m with scheduler := (m.scheduler.selectPath targets paths).2 }

def run (shares : AdaptiveScheduler.Shares) (s : AdaptiveScheduler) (calls : List SchedulerCall) :
    MeteredScheduler :=
  exec (step shares) { scheduler := s } calls

end MeteredScheduler

end BigRocket.Bonding
