/-
The physical strategy of a join (`optimizer/cost.py`).

The cost model knows how each input is distributed only by what is recorded: a
strategy, key names and a partition count.  From that and the estimated sizes it
picks the cheapest of the admissible strategies.  Sizes are exact rationals here;
of an estimate only the size and the distribution matter.
-/
import DistributedSql.HashJoin

namespace DistributedSql

inductive PartitionStrategy
  | single | roundRobin | hash | broadcast | unknown
deriving DecidableEq, Repr

inductive JoinStrategy
  | reuse | broadcast | repartitionLeft | repartitionRight | repartitionBoth
deriving DecidableEq, Repr

/-- `JoinStrategy.value`. -/
def JoinStrategy.value : JoinStrategy → String
  | .reuse => "reuse"
  | .broadcast => "broadcast"
  | .repartitionLeft => "repartition_left"
  | .repartitionRight => "repartition_right"
  | .repartitionBoth => "repartition_both"

structure Distribution where
  strategy : PartitionStrategy := .unknown
  keys : List String := []
  partitionCount : ℕ := 1
deriving DecidableEq, Repr

structure PlanEstimate where
  sizeBytes : ℚ
  distribution : Distribution := {}

/-- `_partitioned_on`. -/
def partitionedOn (py : Python) (distribution : Distribution) (keys : List String) : Bool :=
  distribution.strategy = .single ||
    (distribution.strategy = .hash && !keys.isEmpty &&
      distribution.keys.map py.casefold == keys.map py.casefold)

/-- `_compatible`. -/
def compatible (py : Python) (left right : Distribution) (leftKeys rightKeys : List String) :
    Bool :=
  (left.strategy = .single && right.strategy = .single) ||
    (partitionedOn py left leftKeys && partitionedOn py right rightKeys &&
      left.partitionCount = right.partitionCount)

structure CostModel where
  workerCount : ℕ
  memoryBudgetBytes : ℚ
  broadcastThresholdBytes : ℚ

/-- A strategy with its network cost and the reason given for it. -/
structure Candidate where
  strategy : JoinStrategy
  network : ℚ
  reason : String

/-- The key of `min`: the cost, then the strategy's name. -/
def Candidate.less (left right : Candidate) : Bool :=
  left.network < right.network ||
    (left.network = right.network && left.strategy.value < right.strategy.value)

def Side.name : Side → String
  | .left => "left"
  | .right => "right"

/-- The candidates of `_join_strategy`, in order. -/
def CostModel.candidates (py : Python) (model : CostModel) (left right : PlanEstimate)
    (leftKeys rightKeys : List String) (buildSide : Side) : List Candidate :=
  let build := Side.pick left right buildSide
  (if compatible py left.distribution right.distribution leftKeys rightKeys then
      [⟨.reuse, 0, "both inputs already colocated"⟩] else [])
    ++ (if partitionedOn py left.distribution leftKeys then
      [⟨.repartitionRight, right.sizeBytes, "reuse left partitioning"⟩] else [])
    ++ (if partitionedOn py right.distribution rightKeys then
      [⟨.repartitionLeft, left.sizeBytes, "reuse right partitioning"⟩] else [])
    ++ [⟨.repartitionBoth, left.sizeBytes + right.sizeBytes, "hash repartition both inputs"⟩]
    ++ (if build.sizeBytes ≤ min model.broadcastThresholdBytes model.memoryBudgetBytes then
      [⟨.broadcast, build.sizeBytes * max ((model.workerCount : ℚ) - 1) 0,
        "broadcast " ++ buildSide.name ++ " build input"⟩] else [])

/-- `min(candidates, key=..)`: the first of the least. -/
def leastCandidate : List Candidate → Option Candidate
  | [] => none
  | candidate :: rest =>
      match leastCandidate rest with
      | none => some candidate
      | some least => some (if least.less candidate then least else candidate)

/-- `CostModel._join_strategy`. -/
def CostModel.joinStrategy (py : Python) (model : CostModel) (left right : PlanEstimate)
    (leftKeys rightKeys : List String) (buildSide : Side) : Option Candidate :=
  leastCandidate (model.candidates py left right leftKeys rightKeys buildSide)

structure JoinDecision where
  buildSide : Side
  strategy : JoinStrategy
  leftKeys : List String
  rightKeys : List String
deriving DecidableEq, Repr

/-- The decision of `CostModel.estimate_join`: the smaller input is built, whatever the
join type. -/
def CostModel.joinDecision (py : Python) (model : CostModel) (left right : PlanEstimate)
    (leftKeys rightKeys : List String) : Option JoinDecision :=
  let buildSide := if left.sizeBytes ≤ right.sizeBytes then .left else .right
  (model.joinStrategy py left right leftKeys rightKeys buildSide).map fun candidate =>
    ⟨buildSide, candidate.strategy, leftKeys, rightKeys⟩

/-- `_join_distribution`: what is recorded of a join's output. -/
def joinDistribution (strategy : JoinStrategy) (left right : PlanEstimate)
    (leftKeys rightKeys : List String) (workerCount : ℕ) : Distribution :=
  match strategy with
  | .reuse => left.distribution
  | .repartitionRight => left.distribution
  | .repartitionLeft => right.distribution
  | .broadcast =>
      if left.sizeBytes ≤ right.sizeBytes then right.distribution else left.distribution
  | .repartitionBoth =>
      ⟨.hash, if leftKeys.isEmpty then rightKeys else leftKeys, workerCount⟩

/-- A candidate that is chosen is one of the candidates. -/
theorem mem_of_leastCandidate {candidates : List Candidate} {candidate : Candidate}
    (h : leastCandidate candidates = some candidate) : candidate ∈ candidates := by
  induction candidates generalizing candidate with
  | nil => cases h
  | cons first rest ih =>
    rw [leastCandidate] at h
    cases hrest : leastCandidate rest with
    | none =>
      rw [hrest] at h
      cases h
      exact List.mem_cons_self
    | some least =>
      rw [hrest] at h
      simp only [Option.some.injEq] at h
      split at h
      · exact List.mem_cons_of_mem _ (ih (h ▸ hrest))
      · exact h ▸ List.mem_cons_self

end DistributedSql
