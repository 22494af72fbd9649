/-
Stage graphs (`StagePlanner` in `execution/physical.py`).

The planner cuts a physical plan at its exchanges.  A stage takes its number before the
stages it reads take theirs, and is listed after them.  Of the partition of a task the id
and the ordinal are kept: its location is empty and its strategy unknown.

Main results:
* `fragment_spec` — what cutting a plan adds to the planner;
* `SchedulerRun.not_stuck` — a run of a well-formed graph always finds a stage that is ready;
* `StagePlanner.plan_wellFormed` — the planner makes well-formed graphs.
-/
import DistributedSql.DependencyOrder
import DistributedSql.FailedRuns
import DistributedSql.PhysicalPlans

namespace DistributedSql

/-! ### The planner -/

/-- What `to_protocol` makes of a plan, with the `source_stage_id` and the children that
`fragment` gives it. -/
inductive PlanNode
  | node (plan : PhysicalPlan) (sourceStageId : Option String) (children : List PlanNode)

/-- The plan that a node stands for. -/
def PlanNode.plan : PlanNode → PhysicalPlan
  | .node plan _ _ => plan

/-- A `Stage` as it is planned. -/
structure PlannedStage where
  stageId : String
  queryId : String
  plan : PlanNode
  dependencyStageIds : List String
  partitionCount : ℕ

/-- A `Task` as it is planned. -/
structure PlannedTask where
  taskId : String
  queryId : String
  stageId : String
  partitionId : String
  ordinal : ℕ

/-- `StageGraph`, as the planner makes it. -/
structure PlannedGraph where
  rootStageId : String
  stages : List PlannedStage
  tasks : List PlannedTask

structure StagePlanner where
  queryId : String
  stages : List PlannedStage := []
  tasks : List PlannedTask := []
  nextStage : ℕ := 0

/-- The id of a stage. -/
def stageName (queryId : String) (number : ℕ) : String := queryId ++ "-stage-" ++ padded 3 number

/-- The checks of `Stage` on its fields. -/
def PlannedStage.validated (stage : PlannedStage) : Except PyError PlannedStage :=
  if stage.partitionCount < 1 then
    .error (.valueError "partition_count: Input should be greater than or equal to 1")
  else .ok stage

/-- The task of a stage for one partition. -/
def PlannedStage.task (stage : PlannedStage) (ordinal : ℕ) : PlannedTask where
  taskId := stage.stageId ++ "-task-" ++ padded 5 ordinal
  queryId := stage.queryId
  stageId := stage.stageId
  partitionId := stage.stageId ++ "-partition-" ++ padded 5 ordinal
  ordinal := ordinal

/-- The tasks of a stage. -/
def PlannedStage.tasks (stage : PlannedStage) : List PlannedTask :=
  (List.range stage.partitionCount).map stage.task

namespace StagePlanner

/-- `fragment` of a plan: its node, the stages it reads, and what has become of the planner. -/
abbrev Fragment : Type := StagePlanner → Except PyError (PlanNode × List String × StagePlanner)

/-- `_split`, with the fragment of its plan. -/
def split (fragment : Fragment) (partitionCount : ℕ) (planner : StagePlanner) :
    Except PyError (String × StagePlanner) := do
  let stageId := stageName planner.queryId planner.nextStage
  let (plan, dependencies, planner) ← fragment { planner with nextStage := planner.nextStage + 1 }
  let stage ← PlannedStage.validated ⟨stageId, planner.queryId, plan, dependencies, partitionCount⟩
  return (stageId, { planner with
    stages := planner.stages ++ [stage]
    tasks := planner.tasks ++ stage.tasks })

/-- A node with one child. -/
def unary (plan : PhysicalPlan) (input : Fragment) : Fragment := fun planner => do
  let (child, dependencies, planner) ← input planner
  return (.node plan none [child], dependencies, planner)

/-- `fragment` of `_split`. -/
def fragment : PhysicalPlan → Fragment
  | .scan nodeId tableName tableAlias schema => fun planner =>
      .ok (.node (.scan nodeId tableName tableAlias schema) none [], [], planner)
  | .project nodeId input expressions schema =>
      unary (.project nodeId input expressions schema) (fragment input)
  | .filter nodeId input predicate schema phase =>
      unary (.filter nodeId input predicate schema phase) (fragment input)
  | .aggregate nodeId input groupBy aggregates schema =>
      unary (.aggregate nodeId input groupBy aggregates schema) (fragment input)
  | .join nodeId left right joinType condition schema inputLimit buildSide => fun planner => do
      let (leftChild, leftDependencies, planner) ← fragment left planner
      let (rightChild, rightDependencies, planner) ← fragment right planner
      return (.node (.join nodeId left right joinType condition schema inputLimit buildSide) none
        [leftChild, rightChild], leftDependencies ++ rightDependencies, planner)
  | .limit nodeId input count schema => unary (.limit nodeId input count schema) (fragment input)
  | .order nodeId input orderBy schema =>
      unary (.order nodeId input orderBy schema) (fragment input)
  | .window nodeId input expressions schema =>
      unary (.window nodeId input expressions schema) (fragment input)
  | .groupingSets nodeId input sets aggregates schema =>
      unary (.groupingSets nodeId input sets aggregates schema) (fragment input)
  | .exchange nodeId input strategy keys partitionCount schema => fun planner => do
      let (sourceStage, planner) ← split (fragment input) partitionCount planner
      return (.node (.exchange nodeId input strategy keys partitionCount schema) (some sourceStage)
        [], [sourceStage], planner)

/-- `StagePlanner.plan`. -/
def plan (queryId : String) (plan : PhysicalPlan) (rootPartitionCount : ℕ) :
    Except PyError PlannedGraph := do
  let (rootStageId, planner) ← split (fragment plan) rootPartitionCount { queryId := queryId }
  return ⟨rootStageId, planner.stages, planner.tasks⟩

end StagePlanner

/-! ### What the planner adds -/

/-- Stages that depend on stages before them only, with the numbers from `next` on. -/
structure Added (planner planner' : StagePlanner) (added : List PlannedStage) : Prop where
  queryId : planner'.queryId = planner.queryId
  nextStage : planner'.nextStage = planner.nextStage + added.length
  stages : planner'.stages = planner.stages ++ added
  tasks : planner'.tasks = planner.tasks ++ added.flatMap PlannedStage.tasks
  names : ∃ numbers : List ℕ, numbers.Perm (List.range' planner.nextStage added.length) ∧
    added.map (·.stageId) = numbers.map (stageName planner.queryId)
  order : DependencyOrder PlannedStage.stageId PlannedStage.dependencyStageIds added

/-- What stages are made of: their plans and the numbers of their partitions. -/
def contents (stages : List PlannedStage) : List (PhysicalPlan × ℕ) :=
  stages.map fun stage => (stage.plan.plan, stage.partitionCount)

/-- The inputs of the exchanges in a plan. -/
def exchanged (plan : PhysicalPlan) : List (PhysicalPlan × ℕ) :=
  plan.exchanges.map fun exchange => (exchange.input, exchange.partitionCount)

namespace Added

variable {planner planner' planner'' : StagePlanner} {added added' : List PlannedStage}

theorem nil (planner : StagePlanner) : Added planner planner [] where
  queryId := rfl
  nextStage := rfl
  stages := (List.append_nil _).symm
  tasks := (List.append_nil _).symm
  names := ⟨[], .nil, rfl⟩
  order := .nil

theorem append (h : Added planner planner' added) (h' : Added planner' planner'' added') :
    Added planner planner'' (added ++ added') where
  queryId := h'.queryId.trans h.queryId
  nextStage := by rw [h'.nextStage, h.nextStage, List.length_append, Nat.add_assoc]
  stages := by rw [h'.stages, h.stages, List.append_assoc]
  tasks := by rw [h'.tasks, h.tasks, List.flatMap_append, List.append_assoc]
  names := by
    obtain ⟨numbers, hperm, hnames⟩ := h.names
    obtain ⟨numbers', hperm', hnames'⟩ := h'.names
    refine ⟨numbers ++ numbers', ?_, ?_⟩
    · rw [List.length_append, ← List.range'_append_1, ← h.nextStage]
      exact hperm.append hperm'
    · rw [List.map_append, List.map_append, hnames, hnames', h.queryId]
  order := h.order.append h'.order

/-- A stage that reads stages that have been added. -/
theorem concat (h : Added { planner with nextStage := planner.nextStage + 1 } planner' added)
    {stage : PlannedStage} (hname : stage.stageId = stageName planner.queryId planner.nextStage)
    (hdependencies : ∀ id ∈ stage.dependencyStageIds, id ∈ added.map (·.stageId)) :
    Added planner { planner' with
      stages := planner'.stages ++ [stage]
      tasks := planner'.tasks ++ stage.tasks } (added ++ [stage]) where
  queryId := h.queryId
  nextStage := by
    have hnext : planner'.nextStage = planner.nextStage + 1 + added.length := h.nextStage
    change planner'.nextStage = _
    rw [hnext, List.length_append, List.length_singleton]
    omega
  stages := by
    change planner'.stages ++ [stage] = _
    rw [h.stages, List.append_assoc]
  tasks := by
    change planner'.tasks ++ stage.tasks = _
    rw [h.tasks, List.append_assoc, List.flatMap_append, List.flatMap_singleton]
  names := by
    obtain ⟨numbers, hperm, hnames⟩ := h.names
    refine ⟨numbers ++ [planner.nextStage], ?_, ?_⟩
    · rw [List.length_append, List.length_singleton, List.range'_succ]
      exact (List.perm_append_singleton _ _).trans (hperm.cons _)
    · rw [List.map_append, List.map_append, hnames, List.map_singleton, List.map_singleton, hname]
  order := h.order.concat hdependencies

end Added

/-! ### Cutting a plan -/

namespace StagePlanner

/-- The fragment cuts the plan: it adds a stage for each exchange, and reads some of them. -/
def Cuts (fragment : Fragment) (plan : PhysicalPlan) : Prop :=
  ∀ planner, ∃ node dependencies planner' added,
    fragment planner = .ok (node, dependencies, planner') ∧ node.plan = plan ∧
    Added planner planner' added ∧ (∀ id ∈ dependencies, id ∈ added.map (·.stageId)) ∧
    (contents added).Perm (exchanged plan)

variable {fragment : Fragment} {plan input : PhysicalPlan}

/-- A stage of its own comes after those that its plan is cut into. -/
theorem Cuts.split (h : Cuts fragment plan) {partitionCount : ℕ} (hcount : 0 < partitionCount)
    (planner : StagePlanner) : ∃ planner' added last,
    split fragment partitionCount planner = .ok (last.stageId, planner') ∧
    Added planner planner' (added ++ [last]) ∧ (contents added).Perm (exchanged plan) ∧
    last.plan.plan = plan ∧ last.partitionCount = partitionCount := by
  obtain ⟨node, dependencies, planner', added, hfragment, hplan, hadded, hdependencies, hcontents⟩ :=
    h { planner with nextStage := planner.nextStage + 1 }
  let stage : PlannedStage := ⟨stageName planner.queryId planner.nextStage, planner'.queryId, node,
    dependencies, partitionCount⟩
  have hvalid : stage.validated = .ok stage := if_neg (not_lt.mpr hcount)
  refine ⟨_, added, stage, ?_, hadded.concat rfl hdependencies, hcontents, hplan, rfl⟩
  rw [StagePlanner.split, hfragment, ExceptState.ok_bind]
  dsimp only
  rw [hvalid]
  rfl

theorem Cuts.unary (h : Cuts fragment input) (hexchanges : plan.exchanges = input.exchanges) :
    Cuts (unary plan fragment) plan := by
  intro planner
  obtain ⟨node, dependencies, planner', added, hfragment, -, hadded, hdependencies, hcontents⟩ :=
    h planner
  refine ⟨.node plan none [node], dependencies, planner', added, ?_, rfl, hadded, hdependencies, ?_⟩
  · rw [StagePlanner.unary, hfragment]
    rfl
  · rwa [exchanged, hexchanges]

/-- What cutting a plan adds to the planner. -/
theorem fragment_spec (plan : PhysicalPlan)
    (hcounts : ∀ exchange ∈ plan.exchanges, 0 < exchange.partitionCount) :
    Cuts (StagePlanner.fragment plan) plan := by
  induction plan with
  | scan nodeId tableName tableAlias schema =>
    exact fun planner => ⟨_, _, _, [], rfl, rfl, .nil planner,
      fun _ hmem => absurd hmem List.not_mem_nil, .nil⟩
  | project _ _ _ _ ih => exact (ih hcounts).unary rfl
  | filter _ _ _ _ _ ih => exact (ih hcounts).unary rfl
  | aggregate _ _ _ _ _ ih => exact (ih hcounts).unary rfl
  | limit _ _ _ _ ih => exact (ih hcounts).unary rfl
  | order _ _ _ _ ih => exact (ih hcounts).unary rfl
  | window _ _ _ _ ih => exact (ih hcounts).unary rfl
  | groupingSets _ _ _ _ _ ih => exact (ih hcounts).unary rfl
  | join _ left right _ _ _ _ _ ihLeft ihRight =>
    obtain ⟨hleft, hright⟩ := List.forall_mem_append.mp hcounts
    intro planner
    obtain ⟨leftNode, leftDependencies, planner', added, hleftFragment, -, hadded, hleftMem,
      hleftContents⟩ := ihLeft hleft planner
    obtain ⟨rightNode, rightDependencies, planner'', added', hrightFragment, -, hadded', hrightMem,
      hrightContents⟩ := ihRight hright planner'
    refine ⟨.node _ none [leftNode, rightNode], leftDependencies ++ rightDependencies, planner'',
      added ++ added', ?_, rfl, hadded.append hadded', ?_, ?_⟩
    · exact ExceptState.bind_eq_ok_iff.mpr ⟨_, hleftFragment,
        ExceptState.bind_eq_ok_iff.mpr ⟨_, hrightFragment, rfl⟩⟩
    · intro id hid
      rw [List.map_append]
      exact List.mem_append.mpr ((List.mem_append.mp hid).imp (hleftMem id) (hrightMem id))
    · rw [contents, List.map_append, exchanged, PhysicalPlan.exchanges, List.map_append]
      exact hleftContents.append hrightContents
  | exchange _ input _ _ partitionCount _ ih =>
    obtain ⟨hcount, hinput⟩ := List.forall_mem_cons.mp hcounts
    intro planner
    obtain ⟨planner', added, last, hsplit, hadded, hcontents, hplan, hlast⟩ :=
      (ih hinput).split hcount planner
    refine ⟨.node _ (some last.stageId) [], [last.stageId], planner', added ++ [last], ?_, rfl,
      hadded, ?_, ?_⟩
    · exact ExceptState.bind_eq_ok_iff.mpr ⟨_, hsplit, rfl⟩
    · intro id hid
      rw [List.mem_singleton.mp hid, List.map_append]
      exact List.mem_append_right _ (List.mem_singleton_self _)
    · rw [contents, List.map_append, List.map_singleton, hplan, hlast]
      exact (List.perm_append_singleton _ _).trans (hcontents.cons _)

end StagePlanner

/-! ### Well-formed graphs -/

/-- Stages and tasks have ids of their own, and every stage comes after those it depends on. -/
structure StageGraph.WellFormed (graph : StageGraph) : Prop where
  stageIds : (graph.stages.map (·.stageId)).Nodup
  taskIds : (graph.tasks.map (·.taskId)).Nodup
  root : graph.rootStageId ∈ graph.stages.map (·.stageId)
  order : DependencyOrder Stage.stageId Stage.dependencyStageIds graph.stages

/-- The stage that the scheduler runs. -/
def PlannedStage.toStage (stage : PlannedStage) : Stage where
  stageId := stage.stageId
  queryId := stage.queryId
  dependencyStageIds := stage.dependencyStageIds

/-- The task that the scheduler runs. -/
def PlannedTask.toTask (task : PlannedTask) : Task where
  taskId := task.taskId
  queryId := task.queryId
  stageId := task.stageId
  ordinal := task.ordinal

/-- The graph that the scheduler runs. -/
def PlannedGraph.toStageGraph (graph : PlannedGraph) : StageGraph where
  rootStageId := graph.rootStageId
  stages := graph.stages.map PlannedStage.toStage
  tasks := graph.tasks.map PlannedTask.toTask
  stages_pending := List.forall_mem_map.mpr fun _ _ => rfl
  tasks_pending := List.forall_mem_map.mpr fun _ _ => rfl

/-! ### Runs of well-formed graphs -/

namespace SchedulerRun

variable {V : Type*} {policy : RetryPolicy} {run run' : SchedulerRun V}

/-- The names of stages, and what they depend on. -/
def stageDependencies (stages : Dict String Stage) : List (String × List String) :=
  stages.items.map fun item => (item.1, item.2.dependencyStageIds)

theorem stageDependencies_map {stages : Dict String Stage} {f : String → Stage → Stage}
    (hf : ∀ id stage, (f id stage).dependencyStageIds = stage.dependencyStageIds) :
    stageDependencies (stages.map f) = stageDependencies stages := by
  rw [stageDependencies, Dict.map, List.map_map]
  exact List.map_congr_left fun item _ => Prod.ext rfl (hf item.1 item.2)

theorem stageDependencies_modify (stages : Dict String Stage) (id : String) (state : StageState) :
    stageDependencies (stages.modify id ({ · with state := state })) = stageDependencies stages := by
  refine stageDependencies_map fun id' stage => ?_
  split <;> rfl

theorem stageDependencies_cancelPending (run : SchedulerRun V) :
    stageDependencies run.cancelPending.stages = stageDependencies run.stages := by
  refine stageDependencies_map fun id stage => ?_
  split <;> rfl

/-- A step changes no dependencies, and no stage comes back. -/
theorem stageDependencies_step {event : RunEvent V} (h : run.step policy event = some run') :
    stageDependencies run'.stages = stageDependencies run.stages ∧
      run'.remaining ⊆ run.remaining := by
  cases steps_of_step h with
  | started stage ready =>
    unfold startStage
    split
    · exact ⟨stageDependencies_cancelPending run, List.Subset.refl _⟩
    · exact ⟨stageDependencies_modify _ _ _, List.Subset.refl _⟩
  | completed => exact ⟨stageDependencies_modify _ _ _, List.filter_sublist.subset⟩
  | failed => exact ⟨stageDependencies_modify _ _ _, List.Subset.refl _⟩
  | closed => exact ⟨stageDependencies_modify _ _ _, List.Subset.refl _⟩
  | ended =>
    exact ⟨(stageDependencies_cancelPending _).trans (stageDependencies_modify _ _ _),
      List.Subset.refl _⟩
  | cancelled => exact ⟨rfl, List.Subset.refl _⟩
  | returned => exact ⟨rfl, List.Subset.refl _⟩
  | stuck => exact ⟨rfl, List.Subset.refl _⟩
  | stopped => exact ⟨rfl, List.Subset.refl _⟩
  | interrupted => exact ⟨rfl, List.Subset.refl _⟩
  | moved => exact ⟨rfl, List.Subset.refl _⟩
  | executed => exact ⟨rfl, List.Subset.refl _⟩

/-- Where all dependencies are known, it is known whether they have succeeded. -/
theorem exists_dependenciesSucceeded {stages : Dict String Stage} {dependencies : List String}
    (h : ∀ id ∈ dependencies, ∃ stage, stages.get? id = some stage) :
    ∃ succeeded, dependenciesSucceeded stages dependencies = some succeeded ∧
      ((∀ id ∈ dependencies, ∀ stage, stages.get? id = some stage → stage.state = .succeeded) →
        succeeded = true) := by
  induction dependencies with
  | nil => exact ⟨true, rfl, fun _ => rfl⟩
  | cons first rest ih =>
    obtain ⟨⟨stage, hstage⟩, hrest⟩ := List.forall_mem_cons.mp h
    obtain ⟨succeeded, hsucceeded, hall⟩ := ih hrest
    rw [dependenciesSucceeded, hstage]
    by_cases hstate : stage.state = .succeeded
    · refine ⟨succeeded, (if_pos hstate).trans hsucceeded, fun h => hall fun id hid => ?_⟩
      exact h id (List.mem_cons_of_mem first hid)
    · exact ⟨false, if_neg hstate, fun h => absurd (h first List.mem_cons_self stage hstage) hstate⟩

/-- Where all dependencies are known, a stage is found when its dependencies have succeeded. -/
theorem exists_readyStages {stages : Dict String Stage} (remaining : List String)
    {items : List Stage}
    (h : ∀ stage ∈ items, ∀ id ∈ stage.dependencyStageIds, ∃ other, stages.get? id = some other) :
    ∃ found, readyStages stages remaining items = some found ∧ ∀ stage ∈ items,
      stage.stageId ∈ remaining → (∀ id ∈ stage.dependencyStageIds, ∀ other,
        stages.get? id = some other → other.state = .succeeded) → stage ∈ found := by
  induction items with
  | nil => exact ⟨[], rfl, fun _ hmem => absurd hmem List.not_mem_nil⟩
  | cons first rest ih =>
    obtain ⟨hfirst, hrest⟩ := List.forall_mem_cons.mp h
    obtain ⟨found, hfound, hready⟩ := ih hrest
    obtain ⟨succeeded, hsucceeded, hall⟩ := exists_dependenciesSucceeded hfirst
    by_cases hremaining : first.stageId ∈ remaining
    · refine ⟨if succeeded then first :: found else found, ?_, ?_⟩
      · rw [readyStages, if_pos hremaining, hsucceeded, hfound]
        rfl
      · refine List.forall_mem_cons.mpr ⟨fun _ hdone => ?_, fun stage hmem hleft hdone => ?_⟩
        · rw [hall hdone, if_pos rfl]
          exact List.mem_cons_self
        · have hmem := hready stage hmem hleft hdone
          split
          · exact List.mem_cons_of_mem first hmem
          · exact hmem
    · refine ⟨found, (if_neg hremaining).trans hfound, List.forall_mem_cons.mpr
        ⟨fun hleft => absurd hleft hremaining, hready⟩⟩

/-- What a run keeps of its graph. -/
structure Follows (graph : StageGraph) (run : SchedulerRun V) : Prop where
  stages : stageDependencies run.stages
    = graph.stages.map fun stage => (stage.stageId, stage.dependencyStageIds)
  remaining : ∀ id ∈ run.remaining, id ∈ graph.stages.map (·.stageId)
  control : ∀ name, run.control ≠ .raised (.other name)

/-- As long as stages are left, one of them is found ready. -/
theorem Follows.exists_found {graph : StageGraph} (h : run.Follows graph)
    (hgraph : graph.WellFormed) (hsound : run.Sound policy) (hleft : run.remaining ≠ []) :
    ∃ found, readyStages run.stages run.remaining run.stages.values = some found ∧ found ≠ [] := by
  have horder : DependencyOrder (Prod.fst : String × Stage → String)
      (fun item => item.2.dependencyStageIds) run.stages.items := by
    have hpairs : DependencyOrder Prod.fst Prod.snd (stageDependencies run.stages) := by
      rw [h.stages]
      exact DependencyOrder.map_iff.mpr hgraph.order
    exact DependencyOrder.map_iff.mp hpairs
  have hnames : run.stages.items.map Prod.fst = graph.stages.map (·.stageId) := by
    have hfst := congrArg (List.map Prod.fst) h.stages
    rwa [stageDependencies, List.map_map, List.map_map] at hfst
  have hknown : ∀ id ∈ run.stages.items.map Prod.fst, ∃ stage, run.stages.get? id = some stage := by
    intro id hid
    obtain ⟨item, hitem, rfl⟩ := List.mem_map.mp hid
    exact ⟨item.2, Dict.mem_items.mp hitem⟩
  obtain ⟨id, hid⟩ := List.exists_mem_of_ne_nil _ hleft
  obtain ⟨first, hfirst, hfirstId⟩ := List.mem_map.mp (hnames ▸ h.remaining id hid)
  obtain ⟨item, hitem, hremaining, hdone⟩ := horder.exists_ready (· ∈ run.remaining)
    ⟨first, hfirst, hfirstId ▸ hid⟩
  have hdependencies : ∀ stage ∈ run.stages.values, ∀ id ∈ stage.dependencyStageIds,
      ∃ other, run.stages.get? id = some other := by
    intro stage hstage id hid
    obtain ⟨item, hitem, rfl⟩ := List.mem_map.mp hstage
    exact hknown id (horder.mem hitem id hid)
  obtain ⟨found, hfound, hready⟩ := exists_readyStages run.remaining hdependencies
  refine ⟨found, hfound, List.ne_nil_of_mem (hready item.2 (List.mem_map_of_mem hitem) ?_ ?_)⟩
  · rwa [hsound.stages item.1 item.2 (Dict.mem_items.mp hitem)]
  · intro id hid other hother
    by_contra hstate
    exact (hdone id hid).2 ((hsound.remaining id other hother).mpr hstate)

/-- Only the stage loop raises errors of its own. -/
theorem control_of_step {event : RunEvent V} {name : String}
    (h : run.step policy event = some run') (hraised : run'.control = .raised (.other name)) :
    run.control = .raised (.other name) ∨ run.advance = some run' := by
  cases event with
  | advance => exact Or.inr h
  | cancel =>
    cases h
    exact Or.inl hraised
  | gathered interrupted =>
    change run.gathered interrupted = some run' at h
    unfold gathered at h
    split at h
    · split_ifs at h <;> cases h <;> cases hraised
    · split_ifs at h
      split at h <;> cases h <;> cases hraised
    · cases h
  | settled interrupted =>
    change run.settled interrupted = some run' at h
    unfold settled at h
    split at h
    · split_ifs at h <;> cases h <;> cases hraised
    · cases h
  | coroutine taskId move =>
    simp only [step, Option.bind_eq_bind, Option.bind_eq_some_iff, Option.pure_def] at h
    obtain ⟨task, -, task', -, h⟩ := h
    cases h
    refine Or.inl (Eq.trans ?_ hraised)
    change run.control = run.control.hear task'.task.stageId task'.phase
    unfold RunControl.hear at hraised ⊢
    split at hraised
    · cases hraised
    · rfl
  | execution taskId number execution =>
    simp only [step, Option.bind_eq_bind, Option.bind_eq_some_iff, Option.pure_def] at h
    obtain ⟨task, -, task', -, h⟩ := h
    cases h
    exact Or.inl hraised

theorem Follows.step {graph : StageGraph} (h : run.Follows graph) (hgraph : graph.WellFormed)
    (hsound : run.Sound policy) {event : RunEvent V} (hstep : run.step policy event = some run') :
    run'.Follows graph := by
  obtain ⟨hstages, hremaining⟩ := stageDependencies_step hstep
  refine ⟨hstages.trans h.stages, fun id hid => h.remaining id (hremaining hid),
    fun name hraised => ?_⟩
  rcases control_of_step hstep hraised with hraised | hadvance
  · exact h.control name hraised
  unfold advance at hadvance
  split at hadvance
  · cases hadvance
    exact control_startStage _ _ _ _ hraised
  · split at hadvance
    · cases hadvance
      cases hraised
    next hleft =>
      obtain ⟨found, hfound, hne⟩ := h.exists_found hgraph hsound
        fun hempty => hleft (List.isEmpty_iff.mpr hempty)
      rw [hfound] at hadvance
      dsimp only at hadvance
      split at hadvance
      next hnil =>
        have hlength := congrArg List.length hnil
        rw [List.length_map, List.length_insertionSort] at hlength
        exact hne (List.eq_nil_of_length_eq_zero hlength)
      · cases hadvance
        exact control_startStage _ _ _ _ hraised
  · cases hadvance

theorem exists_start {graph : StageGraph} (hgraph : graph.WellFormed) :
    ∃ first : SchedulerRun V, start graph = some first ∧ first.Follows graph := by
  have hkeys : ((graph.stages.map fun stage => (stage.stageId, stage)).map Prod.fst).Nodup := by
    rw [List.map_map]
    exact hgraph.stageIds
  have hitems : (Dict.empty.update (graph.stages.map fun stage => (stage.stageId, stage))).items
      = graph.stages.map fun stage => (stage.stageId, stage) :=
    Dict.items_update_of_new hkeys fun _ _ => rfl
  obtain ⟨root, hroot, hid⟩ := List.mem_map.mp hgraph.root
  have hget : (Dict.empty.update (graph.stages.map fun stage => (stage.stageId, stage))).get?
      graph.rootStageId = some root := by
    rw [← Dict.mem_items, hitems, ← hid]
    exact List.mem_map_of_mem hroot
  obtain ⟨first, hstart⟩ : ∃ first : SchedulerRun V, start graph = some first :=
    Option.isSome_iff_exists.mp (by rw [start, Option.isSome_map, hget]; rfl)
  refine ⟨first, hstart, ?_⟩
  obtain ⟨root, -, rfl⟩ := Option.map_eq_some_iff.mp hstart
  refine ⟨?_, fun id hid => ?_, fun name hraised => by cases hraised⟩
  · rw [stageDependencies, hitems, List.map_map]
    rfl
  · rwa [Dict.keys, hitems, List.map_map] at hid

/-- A run of a well-formed graph begins, and always finds a stage that is ready. -/
theorem not_stuck {graph : StageGraph} (hgraph : graph.WellFormed) :
    (∃ first : SchedulerRun V, start graph = some first) ∧
      ∀ (events : List (RunEvent V)) (run : SchedulerRun V), Reaches policy graph events run →
        ∀ name, run.control ≠ .raised (.other name) := by
  obtain ⟨first, hstart, hfollows⟩ := exists_start (V := V) hgraph
  refine ⟨⟨first, hstart⟩, fun events run hrun => ?_⟩
  obtain ⟨first', hstart', hrun⟩ := hrun
  cases hstart.symm.trans hstart'
  exact ((Sound.start hstart).invariant hrun hfollows
    fun hsound hfollows hstep => hfollows.step hgraph hsound hstep).2.control

end SchedulerRun

/-! ### Planned graphs -/

theorem stageName_injective (queryId : String) : Function.Injective (stageName queryId) :=
  fun _ _ h => (numbered_inj rfl h).2

namespace Added

variable {planner planner' : StagePlanner} {added : List PlannedStage}

theorem nodup_stageIds (h : Added planner planner' added) : (added.map (·.stageId)).Nodup := by
  obtain ⟨numbers, hperm, hnames⟩ := h.names
  rw [hnames]
  exact (hperm.nodup_iff.mpr List.nodup_range').map (stageName_injective planner.queryId)

/-- A stage and an ordinal make the id of a task. -/
theorem nodup_taskIds (h : Added planner planner' added) :
    ((added.flatMap PlannedStage.tasks).map (·.taskId)).Nodup := by
  have htasks : ∀ stage : PlannedStage, stage.tasks.map (·.taskId)
      = (List.range stage.partitionCount).map fun ordinal => (stage.task ordinal).taskId := by
    intro stage
    rw [PlannedStage.tasks, List.map_map]
    rfl
  rw [List.map_flatMap, List.nodup_flatMap]
  constructor
  · intro stage _
    rw [htasks]
    exact List.nodup_range.map fun _ _ heq => (numbered_inj rfl heq).2
  · refine (List.pairwise_map.mp h.nodup_stageIds).imp fun {stage stage'} hne => ?_
    rw [Function.onFun, htasks, htasks]
    intro id hid hid'
    obtain ⟨ordinal, -, rfl⟩ := List.mem_map.mp hid
    obtain ⟨ordinal', -, heq⟩ := List.mem_map.mp hid'
    exact hne (numbered_inj rfl heq).1.symm

/-- The tasks of a stage are those with its id. -/
theorem filter_tasks (h : Added planner planner' added) {stage : PlannedStage}
    (hstage : stage ∈ added) : (added.flatMap PlannedStage.tasks).filter (fun task => task.stageId = stage.stageId)
      = stage.tasks := by
  have hself : ∀ other : PlannedStage, ∀ task ∈ other.tasks, task.stageId = other.stageId := by
    intro other task htask
    obtain ⟨ordinal, -, rfl⟩ := List.mem_map.mp htask
    rfl
  have hnone : ∀ others : List PlannedStage, stage.stageId ∉ others.map (·.stageId) →
      (others.flatMap PlannedStage.tasks).filter (fun task => task.stageId = stage.stageId)
        = [] := by
    intro others hnot
    refine List.filter_eq_nil_iff.mpr fun task htask heq => ?_
    obtain ⟨other, hother, htask⟩ := List.mem_flatMap.mp htask
    refine hnot (List.mem_map.mpr ⟨other, hother, ?_⟩)
    rw [← hself other task htask, of_decide_eq_true heq]
  have hall : stage.tasks.filter (fun task => task.stageId = stage.stageId) = stage.tasks :=
    List.filter_eq_self.mpr fun task htask => decide_eq_true (hself stage task htask)
  have hnodup := h.nodup_stageIds
  obtain ⟨before, after, rfl⟩ := List.append_of_mem hstage
  rw [List.map_append, List.map_cons] at hnodup
  obtain ⟨hnot, -⟩ := List.nodup_cons.mp (List.nodup_middle.mp hnodup)
  rw [List.mem_append, not_or] at hnot
  rw [List.flatMap_append, List.flatMap_cons, List.filter_append, List.filter_append,
    hnone before hnot.1, hnone after hnot.2, hall, List.nil_append, List.append_nil]

end Added

/-- The planner makes well-formed graphs: a stage for every exchange and then the root, each
with its tasks and after the stages it depends on, so that the scheduler never gets stuck. -/
theorem StagePlanner.plan_wellFormed {V : Type*} {plan : PhysicalPlan}
    (hcounts : ∀ exchange ∈ plan.exchanges, 0 < exchange.partitionCount) {rootPartitionCount : ℕ}
    (hroot : 0 < rootPartitionCount) (queryId : String) (policy : RetryPolicy) :
    ∃ graph, StagePlanner.plan queryId plan rootPartitionCount = .ok graph ∧
      graph.toStageGraph.WellFormed ∧
      (∀ id, ¬Relation.TransGen (fun id id' => ∃ stage ∈ graph.stages, stage.stageId = id' ∧
        id ∈ stage.dependencyStageIds) id id) ∧
      (∃ sources root, graph.stages = sources ++ [root] ∧ graph.rootStageId = root.stageId ∧
        root.plan.plan = plan ∧ root.partitionCount = rootPartitionCount ∧
        (contents sources).Perm (exchanged plan)) ∧
      (∀ stage ∈ graph.stages, (graph.tasks.filter fun task => task.stageId = stage.stageId).map
        (·.ordinal) = List.range stage.partitionCount) ∧
      (∃ first : SchedulerRun V, SchedulerRun.start graph.toStageGraph = some first) ∧
      ∀ (events : List (RunEvent V)) (run : SchedulerRun V),
        SchedulerRun.Reaches policy graph.toStageGraph events run →
        ∀ name, run.control ≠ .raised (.other name) := by
  obtain ⟨planner', sources, root, hsplit, hadded, hcontents, hplan, hcount⟩ :=
    (StagePlanner.fragment_spec plan hcounts).split hroot { queryId := queryId }
  have hstages : planner'.stages = sources ++ [root] := hadded.stages
  have htasks : planner'.tasks = (sources ++ [root]).flatMap PlannedStage.tasks := hadded.tasks
  let graph : PlannedGraph := ⟨root.stageId, planner'.stages, planner'.tasks⟩
  have hwellFormed : graph.toStageGraph.WellFormed := by
    refine ⟨?_, ?_, ?_, DependencyOrder.map_iff.mpr ?_⟩
    · change ((planner'.stages.map PlannedStage.toStage).map (·.stageId)).Nodup
      rw [List.map_map, hstages]
      exact hadded.nodup_stageIds
    · change ((planner'.tasks.map PlannedTask.toTask).map (·.taskId)).Nodup
      rw [List.map_map, htasks]
      exact hadded.nodup_taskIds
    · change root.stageId ∈ (planner'.stages.map PlannedStage.toStage).map (·.stageId)
      rw [List.map_map, hstages]
      exact List.mem_map.mpr ⟨root, List.mem_append_right _ (List.mem_singleton_self root), rfl⟩
    · change DependencyOrder _ _ planner'.stages
      rw [hstages]
      exact hadded.order
  refine ⟨graph, ExceptState.bind_eq_ok_iff.mpr ⟨_, hsplit, rfl⟩, hwellFormed, ?_,
    ⟨sources, root, hstages, rfl, hplan, hcount, hcontents⟩, fun stage hstage => ?_,
    SchedulerRun.not_stuck hwellFormed⟩
  · change ∀ id, ¬Relation.TransGen (fun id id' => ∃ stage ∈ planner'.stages, stage.stageId = id' ∧
        id ∈ stage.dependencyStageIds) id id
    rw [hstages]
    exact hadded.order.acyclic hadded.nodup_stageIds
  · change ((planner'.tasks.filter fun task => task.stageId = stage.stageId).map (·.ordinal)) = _
    rw [htasks, hadded.filter_tasks (hstages ▸ hstage), PlannedStage.tasks, List.map_map]
    exact List.map_id _

/-- `LIMIT 5` over the rows of a table, brought to one place. -/
def limitPlan : PhysicalPlan :=
  .limit "limit_2" (.exchange "exchange_scan_1_limit" (.scan "scan_1" "orders" "o" []) .single [] 3
    []) 5 []

theorem StagePlanner.plan_wellFormed_limit : ∃ graph,
    StagePlanner.plan "query" limitPlan 1 = .ok graph ∧ graph.toStageGraph.WellFormed ∧
      ∃ first : SchedulerRun ℕ, SchedulerRun.start graph.toStageGraph = some first := by
  have hcounts : ∀ exchange ∈ limitPlan.exchanges, 0 < exchange.partitionCount :=
    List.forall_mem_singleton.mpr (by decide)
  obtain ⟨graph, hplan, hgraph, -, -, -, hstart, -⟩ :=
    StagePlanner.plan_wellFormed (V := ℕ) hcounts Nat.one_pos "query" {}
  exact ⟨graph, hplan, hgraph, hstart⟩

/-- The scan has the second number, and comes first. -/
example : ((StagePlanner.plan "query" limitPlan 1).map fun graph =>
    (graph.stages.map fun stage => (stage.stageId, stage.dependencyStageIds),
      graph.tasks.map (·.taskId)))
    = .ok ([("query-stage-001", []), ("query-stage-000", ["query-stage-001"])],
        ["query-stage-001-task-00000", "query-stage-001-task-00001", "query-stage-001-task-00002",
          "query-stage-000-task-00000"]) := by
  decide +kernel

end DistributedSql
