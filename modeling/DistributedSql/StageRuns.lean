/-
One run of a stage graph (`TaskScheduler.run` in `execution/scheduler.py`).

The stage loop, the coroutines of its tasks and the executions of their attempts take
their steps in any order; tasks are slotted into workers in any order.  A graph is as the
planners make it, with nothing of it run.  The order of the stages, which the source takes
from `remaining`, a set, is that of the graph.
-/
import DistributedSql.Dict
import DistributedSql.Runs
import DistributedSql.TaskAttemptsSound

namespace DistributedSql

inductive StageState
  | pending | running | succeeded | failed | canceled
deriving DecidableEq, Repr

structure Stage where
  stageId : String
  queryId : String
  dependencyStageIds : List String := []
  state : StageState := .pending
deriving DecidableEq, Repr

/-- `StageGraph`, of which nothing has run. -/
structure StageGraph where
  rootStageId : String
  stages : List Stage
  tasks : List Task
  stages_pending : ∀ stage ∈ stages, stage.state = .pending
  tasks_pending : ∀ task ∈ tasks, task.state = .pending

/-- What `TaskScheduler.run` raises: what a task raised, `asyncio.CancelledError`, or an
error of its own. -/
inductive RunFailure
  | task (failure : TaskFailure)
  | interrupted
  | other (name : String)

/-- Where `TaskScheduler.run` is; `ready` are the stages it still goes through before it
looks for others. -/
inductive RunControl
  | looping (ready : List String)
  /-- in `asyncio.gather` of the tasks of a stage, of which one may have failed -/
  | gathering (stage : String) (ready : List String) (failure : Option TaskFailure)
  /-- in the second `asyncio.gather`, after `ExecutionCancelled` or `CancelledError` -/
  | settling (stage : String) (cancelled : Bool)
  | returned
  | raised (failure : RunFailure)

structure SchedulerRun (V : Type*) where
  queryId : String
  stages : Dict String Stage
  tasks : Dict String (TaskRun V)
  outcomes : Dict String (TaskOutcome V) := Dict.empty
  /-- the cancellation token is canceled -/
  cancelled : Bool := false
  remaining : List String
  control : RunControl := .looping []

/-- What may happen of a run. -/
inductive RunEvent (V : Type*)
  | cancel
  | advance
  | gathered (interrupted : Bool)
  | settled (interrupted : Bool)
  | coroutine (taskId : String) (event : CoroutineEvent)
  | execution (taskId : String) (number : ℕ) (event : ExecutionEvent V)

/-- Whether all dependencies have succeeded; `none` when one that is looked up is missing. -/
def dependenciesSucceeded (stages : Dict String Stage) : List String → Option Bool
  | [] => some true
  | dependency :: rest => do
      let stage ← stages.get? dependency
      if stage.state = .succeeded then dependenciesSucceeded stages rest else some false

/-- `ready` in `TaskScheduler.run`, before it is sorted. -/
def readyStages (stages : Dict String Stage) (remaining : List String) :
    List Stage → Option (List Stage)
  | [] => some []
  | stage :: rest =>
      if stage.stageId ∈ remaining then do
        let succeeded ← dependenciesSucceeded stages stage.dependencyStageIds
        let ready ← readyStages stages remaining rest
        return if succeeded then stage :: ready else ready
      else readyStages stages remaining rest

/-- What a gather hears of a task of `stageId` that has just taken a step: the first failure. -/
def RunControl.hear {V : Type*} (control : RunControl) (stageId : String) (phase : TaskPhase V) :
    RunControl :=
  match control, phase with
  | .gathering stage ready none, .ended (.error failure) =>
      .gathering stage ready (if stageId = stage then some failure else none)
  | control, _ => control

/-- The stage loop is on. -/
def RunControl.isLive : RunControl → Bool
  | .looping _ | .gathering .. | .settling .. => true
  | .returned | .raised _ => false

theorem RunControl.isLive_hear {V : Type*} (control : RunControl) (stageId : String)
    (phase : TaskPhase V) : (control.hear stageId phase).isLive = control.isLive := by
  unfold hear
  split <;> rfl

namespace TaskRun

variable {V : Type*} (run : TaskRun V)

def outcome? : Option (TaskOutcome V) :=
  match run.phase with
  | .ended (.ok outcome) => some outcome
  | _ => none

def isEnded : Bool :=
  match run.phase with
  | .ended _ => true
  | _ => false

def isStarting : Bool :=
  match run.phase with
  | .starting => true
  | _ => false

/-- The task raised `CancellationConfirmationError`. -/
def isUnconfirmed : Bool :=
  match run.phase with
  | .ended (.error .unconfirmed) => true
  | _ => false

end TaskRun

namespace SchedulerRun

variable {V : Type*}

/-- The run that `TaskScheduler.run` begins, `none` when there is no root stage. -/
def start (graph : StageGraph) : Option (SchedulerRun V) :=
  let stages := Dict.empty.update (graph.stages.map fun stage => (stage.stageId, stage))
  (stages.get? graph.rootStageId).map fun root =>
    { queryId := root.queryId
      stages := stages
      tasks := Dict.empty.update (graph.tasks.map fun task => (task.taskId, { task := task }))
      remaining := stages.keys }

variable (run : SchedulerRun V)

/-- `stage_tasks` in `TaskScheduler.run`. -/
def stageTasks (stage : String) : List (TaskRun V) :=
  (run.tasks.values.filter (·.task.stageId = stage)).insertionSort fun a b =>
    a.task.ordinal ≤ b.task.ordinal

/-- The handler of `TaskScheduler.run` for `ExecutionCancelled`, and its return. -/
def cancelPending : SchedulerRun V :=
  { run with
    stages := run.stages.map fun _ stage =>
      if stage.state = .pending then { stage with state := .canceled } else stage
    tasks := run.tasks.map fun _ task =>
      if task.task.state = .pending then task.cancelTask else task
    control := .returned }

/-- The loop over the ready stages, at one of them. -/
def startStage (stage : String) (ready : List String) : SchedulerRun V :=
  if run.cancelled then run.cancelPending
  else
    { run with
      stages := run.stages.modify stage ({ · with state := .running })
      tasks := run.tasks.map fun _ task =>
        if task.task.stageId = stage then task.schedule else task
      control := .gathering stage ready none }

/-- The stage loop goes on. -/
def advance : Option (SchedulerRun V) :=
  match run.control with
  | .looping (stage :: ready) => some (run.startStage stage ready)
  | .looping [] =>
      if run.remaining.isEmpty then some { run with control := .returned }
      else match readyStages run.stages run.remaining run.stages.values with
        | none => some { run with control := .raised (.other "KeyError") }
        | some found =>
            match (found.insertionSort fun a b => a.stageId ≤ b.stageId).map (·.stageId) with
            | [] => some { run with control := .raised (.other "RuntimeError") }
            | stage :: ready => some (run.startStage stage ready)
  | _ => none

/-- The outcomes of a stage whose tasks have all succeeded, under the ids of their tasks. -/
def stageOutcomes (stage : String) : List (String × TaskOutcome V) :=
  ((run.stageTasks stage).filterMap (·.outcome?)).map fun result => (result.taskId, result)

/-- All tasks of a stage have succeeded. -/
def complete (stage : String) (ready : List String) : SchedulerRun V :=
  { run with
    outcomes := run.outcomes.update (run.stageOutcomes stage)
    stages := run.stages.modify stage ({ · with state := .succeeded })
    remaining := run.remaining.filter (· ≠ stage)
    control := .looping ready }

/-- After `asyncio.gather`.  Every coroutine it waits for has begun before it can wake. -/
def gathered (interrupted : Bool) : Option (SchedulerRun V) :=
  match run.control with
  | .gathering stage ready none =>
      if (run.stageTasks stage).all (·.outcome?.isSome) then
        if interrupted then some { run with control := .settling stage false }
        else some (run.complete stage ready)
      else none
  | .gathering stage _ (some failure) =>
      if (run.stageTasks stage).any (·.isStarting) then none
      else match failure with
        | .cancelled _ => some { run with control := .settling stage true }
        | .interrupted _ => some { run with control := .settling stage false }
        | failure => some
            { run with
              stages := run.stages.modify stage ({ · with state := .failed })
              control := .raised (.task failure) }
  | _ => none

/-- What a canceled or interrupted stage becomes, when all its tasks have ended. -/
def closeStage (stage : String) : SchedulerRun V :=
  { run with
    stages := run.stages.modify stage ({ · with state := .canceled })
    tasks := run.tasks.map fun _ task =>
      if task.task.stageId = stage ∧
          (task.task.state = TaskState.pending ∨ task.task.state = TaskState.running) then
        task.cancelTask
      else task }

/-- After the second `asyncio.gather`, which waits for all tasks of the stage. -/
def settled (interrupted : Bool) : Option (SchedulerRun V) :=
  match run.control with
  | .settling stage cancelled =>
      if (run.stageTasks stage).all (·.isEnded) then
        if interrupted then some { run with control := .raised .interrupted }
        else if (run.stageTasks stage).any (·.isUnconfirmed) then
          some { run.closeStage stage with control := .raised (.task .unconfirmed) }
        else if cancelled then some (run.closeStage stage).cancelPending
        else some { run.closeStage stage with control := .raised .interrupted }
      else none
  | _ => none

/-- One step, `none` when it cannot happen now. -/
def step (policy : RetryPolicy) : RunEvent V → Option (SchedulerRun V)
  | .cancel => some { run with cancelled := true }
  | .advance => run.advance
  | .gathered interrupted => run.gathered interrupted
  | .settled interrupted => run.settled interrupted
  | .coroutine taskId event => do
      let task ← run.tasks.get? taskId
      let task' ← task.step policy run.cancelled event
      return { run with
        tasks := run.tasks.set taskId task'
        control := run.control.hear task'.task.stageId task'.phase }
  | .execution taskId number event => do
      let task ← run.tasks.get? taskId
      let task' ← task.stepExecution run.cancelled number event
      return { run with tasks := run.tasks.set taskId task' }

/-- The ids of all attempts of the run. -/
def attemptIds : List String :=
  run.tasks.values.flatMap fun task => task.attempts.map (·.attempt.attemptId)

/-- `events` take a run of `graph` from its beginning to `run`. -/
def Reaches (policy : RetryPolicy) (graph : StageGraph) (events : List (RunEvent V))
    (run : SchedulerRun V) : Prop :=
  ∃ first, start graph = some first ∧
    Runs (fun run event run' => run.step policy event = some run') first events run

/-! ### What a step does -/

/-- What a step of a run may do. -/
inductive Steps (policy : RetryPolicy) (run : SchedulerRun V) : RunEvent V → SchedulerRun V → Prop
  | cancelled : Steps policy run .cancel { run with cancelled := true }
  | started (stage : String) (ready : List String)
      (hcontrol : run.control = .looping (stage :: ready) ∨ run.control = .looping [] ∧ ∃ found,
        readyStages run.stages run.remaining run.stages.values = some found ∧
        (found.insertionSort fun a b => a.stageId ≤ b.stageId).map (·.stageId) = stage :: ready) :
      Steps policy run .advance (run.startStage stage ready)
  | returned (hcontrol : run.control = .looping []) (hempty : run.remaining = []) :
      Steps policy run .advance { run with control := .returned }
  | stuck (name : String) (hcontrol : run.control = .looping []) :
      Steps policy run .advance { run with control := .raised (.other name) }
  | completed (stage : String) (ready : List String)
      (hcontrol : run.control = .gathering stage ready none)
      (hall : ∀ task ∈ run.stageTasks stage, task.outcome?.isSome = true) :
      Steps policy run (.gathered false) (run.complete stage ready)
  | stopped (interrupted cancelled : Bool) (stage : String) (ready : List String)
      (failure : Option TaskFailure) (hcontrol : run.control = .gathering stage ready failure)
      (hcancelled : cancelled = true → ∃ place, failure = some (.cancelled place)) :
      Steps policy run (.gathered interrupted) { run with control := .settling stage cancelled }
  | failed (interrupted : Bool) (stage : String) (ready : List String) (failure : TaskFailure)
      (hcontrol : run.control = .gathering stage ready (some failure))
      (hbegun : ∀ task ∈ run.stageTasks stage, task.isStarting = false) :
      Steps policy run (.gathered interrupted) { run with
        stages := run.stages.modify stage ({ · with state := .failed })
        control := .raised (.task failure) }
  | interrupted (stage : String) (cancelled : Bool)
      (hcontrol : run.control = .settling stage cancelled) :
      Steps policy run (.settled true) { run with control := .raised .interrupted }
  | closed (stage : String) (cancelled : Bool) (failure : RunFailure)
      (hcontrol : run.control = .settling stage cancelled)
      (hended : ∀ task ∈ run.stageTasks stage, task.isEnded = true) :
      Steps policy run (.settled false)
        { run.closeStage stage with control := .raised failure }
  | ended (stage : String) (hcontrol : run.control = .settling stage true)
      (hended : ∀ task ∈ run.stageTasks stage, task.isEnded = true) :
      Steps policy run (.settled false) (run.closeStage stage).cancelPending
  | moved (taskId : String) (event : CoroutineEvent) (task task' : TaskRun V)
      (hget : run.tasks.get? taskId = some task)
      (htask : task.step policy run.cancelled event = some task') :
      Steps policy run (.coroutine taskId event) { run with
        tasks := run.tasks.set taskId task'
        control := run.control.hear task'.task.stageId task'.phase }
  | executed (taskId : String) (number : ℕ) (event : ExecutionEvent V) (task task' : TaskRun V)
      (hget : run.tasks.get? taskId = some task)
      (htask : task.stepExecution run.cancelled number event = some task') :
      Steps policy run (.execution taskId number event)
        { run with tasks := run.tasks.set taskId task' }

variable {run} {run' : SchedulerRun V} {policy : RetryPolicy} {event : RunEvent V}

private theorem steps_advance (h : run.advance = some run') : Steps policy run .advance run' := by
  unfold advance at h
  split at h
  · next hcontrol =>
    cases h
    exact .started _ _ (Or.inl hcontrol)
  · next hcontrol =>
    split at h
    · next hempty =>
      cases h
      exact .returned hcontrol (List.isEmpty_iff.mp hempty)
    · split at h
      · cases h
        exact .stuck _ hcontrol
      · next hfound =>
        split at h
        · cases h
          exact .stuck _ hcontrol
        · next hsorted =>
          cases h
          exact .started _ _ (Or.inr ⟨hcontrol, _, hfound, hsorted⟩)
  · cases h

private theorem steps_gathered {interrupted : Bool} (h : run.gathered interrupted = some run') :
    Steps policy run (.gathered interrupted) run' := by
  unfold gathered at h
  split at h
  · next hcontrol =>
    split_ifs at h with hall hinterrupted
    · cases h
      exact .stopped _ _ _ _ _ hcontrol nofun
    · cases h
      obtain rfl : interrupted = false := by simpa using hinterrupted
      exact .completed _ _ hcontrol (List.all_eq_true.mp hall)
  · next hcontrol =>
    split_ifs at h with hstarting
    split at h
    · cases h
      exact .stopped _ _ _ _ _ hcontrol fun _ => ⟨_, rfl⟩
    · cases h
      exact .stopped _ _ _ _ _ hcontrol nofun
    · cases h
      refine .failed _ _ _ _ hcontrol fun task hmem => ?_
      rw [← Bool.not_eq_true]
      exact fun h => hstarting (List.any_eq_true.mpr ⟨task, hmem, h⟩)
  · cases h

private theorem steps_settled {interrupted : Bool} (h : run.settled interrupted = some run') :
    Steps policy run (.settled interrupted) run' := by
  unfold settled at h
  split at h
  · next hcontrol =>
    split_ifs at h with hended hinterrupted hunconfirmed hcancelled
    · cases h
      subst hinterrupted
      exact .interrupted _ _ hcontrol
    all_goals
      cases h
      obtain rfl : interrupted = false := by simpa using hinterrupted
    · exact .closed _ _ _ hcontrol (List.all_eq_true.mp hended)
    · exact .ended _ (hcancelled ▸ hcontrol) (List.all_eq_true.mp hended)
    · exact .closed _ _ _ hcontrol (List.all_eq_true.mp hended)
  · cases h

theorem steps_of_step (h : run.step policy event = some run') : Steps policy run event run' := by
  cases event with
  | cancel =>
    cases h
    exact .cancelled
  | advance => exact steps_advance h
  | gathered interrupted => exact steps_gathered h
  | settled interrupted => exact steps_settled h
  | coroutine taskId move =>
    simp only [step, Option.bind_eq_bind, Option.bind_eq_some_iff, Option.pure_def] at h
    obtain ⟨task, hget, task', htask, h⟩ := h
    cases h
    exact .moved taskId move task task' hget htask
  | execution taskId number execution =>
    simp only [step, Option.bind_eq_bind, Option.bind_eq_some_iff, Option.pure_def] at h
    obtain ⟨task, hget, task', htask, h⟩ := h
    cases h
    exact .executed taskId number execution task task' hget htask

/-! ### What a step does to one task -/

/-- What a step of a run may make of the task `id`. -/
inductive TaskStep (policy : RetryPolicy) (token : Bool) (event : RunEvent V) (id : String)
    (task : TaskRun V) : TaskRun V → Prop
  | kept : TaskStep policy token event id task task
  | scheduled : TaskStep policy token event id task task.schedule
  | closed : TaskStep policy token event id task task.cancelTask
  | moved (move : CoroutineEvent) (task' : TaskRun V) (hevent : event = .coroutine id move)
      (hstep : task.step policy token move = some task') :
      TaskStep policy token event id task task'
  | executed (number : ℕ) (execution : ExecutionEvent V) (task' : TaskRun V)
      (hevent : event = .execution id number execution)
      (hstep : task.stepExecution token number execution = some task') :
      TaskStep policy token event id task task'

private theorem rel_map {R : TaskRun V → TaskRun V → Prop} {f : TaskRun V → TaskRun V}
    (task : Option (TaskRun V)) (h : ∀ task, R task (f task)) : Option.Rel R task (task.map f) := by
  cases task with
  | none => exact .none
  | some task => exact .some (h task)

private theorem rel_refl {R : TaskRun V → TaskRun V → Prop} (task : Option (TaskRun V))
    (h : ∀ task, R task task) : Option.Rel R task task := by
  cases task with
  | none => exact .none
  | some task => exact .some (h task)

private theorem taskStep_cancelPending (id : String) :
    Option.Rel (TaskStep policy run.cancelled event id) (run.tasks.get? id)
      (run.cancelPending.tasks.get? id) := by
  rw [show run.cancelPending.tasks.get? id = _ from Dict.get?_map _ _ _]
  refine rel_map _ fun task => ?_
  split_ifs
  · exact .closed
  · exact .kept

private theorem taskStep_startStage (stage : String) (ready : List String) (id : String) :
    Option.Rel (TaskStep policy run.cancelled event id) (run.tasks.get? id)
      ((run.startStage stage ready).tasks.get? id) := by
  unfold startStage
  split
  · exact taskStep_cancelPending id
  · rw [Dict.get?_map]
    refine rel_map _ fun task => ?_
    split_ifs
    · exact .scheduled
    · exact .kept

private theorem taskStep_closeStage (stage : String) (id : String) :
    Option.Rel (TaskStep policy run.cancelled event id) (run.tasks.get? id)
      ((run.closeStage stage).tasks.get? id) := by
  rw [show (run.closeStage stage).tasks.get? id = _ from Dict.get?_map _ _ _]
  refine rel_map _ fun task => ?_
  split_ifs
  · exact .closed
  · exact .kept

private theorem taskStep_ended (stage : String) (id : String) :
    Option.Rel (TaskStep policy run.cancelled event id) (run.tasks.get? id)
      ((run.closeStage stage).cancelPending.tasks.get? id) := by
  rw [show (cancelPending (run.closeStage stage)).tasks.get? id = _ from Dict.get?_map _ _ _,
    show (run.closeStage stage).tasks.get? id = _ from Dict.get?_map _ _ _, Option.map_map]
  refine rel_map _ fun task => ?_
  dsimp only [Function.comp_apply]
  split_ifs with hclosed hpending hpending
  · cases hpending
  · exact .closed
  · exact .closed
  · exact .kept

/-- What a step makes of each task. -/
theorem taskStep_of_step (h : run.step policy event = some run') (id : String) :
    Option.Rel (TaskStep policy run.cancelled event id) (run.tasks.get? id)
      (run'.tasks.get? id) := by
  have hset : ∀ {taskId : String} {task task' : TaskRun V}, run.tasks.get? taskId = some task →
      TaskStep policy run.cancelled event taskId task task' →
      Option.Rel (TaskStep policy run.cancelled event id) (run.tasks.get? id)
        ((run.tasks.set taskId task').get? id) := by
    intro taskId task task' hget htask
    rw [Dict.get?_set]
    split_ifs with hid
    · subst hid
      rw [hget]
      exact .some htask
    · exact rel_refl _ fun _ => .kept
  cases steps_of_step h with
  | started stage ready => exact taskStep_startStage stage ready id
  | closed stage => exact taskStep_closeStage stage id
  | ended stage => exact taskStep_ended stage id
  | moved taskId move task task' hget htask => exact hset hget (.moved move task' rfl htask)
  | executed taskId number execution task task' hget htask =>
    exact hset hget (.executed number execution task' rfl htask)
  | cancelled => exact rel_refl _ fun _ => .kept
  | returned => exact rel_refl _ fun _ => .kept
  | stuck => exact rel_refl _ fun _ => .kept
  | completed => exact rel_refl _ fun _ => .kept
  | stopped => exact rel_refl _ fun _ => .kept
  | failed => exact rel_refl _ fun _ => .kept
  | interrupted => exact rel_refl _ fun _ => .kept

theorem exists_taskStep (h : run.step policy event = some run') {id : String} {task : TaskRun V}
    (hget : run.tasks.get? id = some task) : ∃ task', run'.tasks.get? id = some task' ∧
      TaskStep policy run.cancelled event id task task' := by
  have hrel := taskStep_of_step h id
  rw [hget] at hrel
  generalize run'.tasks.get? id = after at hrel
  cases hrel with
  | some htask => exact ⟨_, rfl, htask⟩

theorem exists_of_taskStep (h : run.step policy event = some run') {id : String} {task' : TaskRun V}
    (hget : run'.tasks.get? id = some task') : ∃ task, run.tasks.get? id = some task ∧
      TaskStep policy run.cancelled event id task task' := by
  have hrel := taskStep_of_step h id
  rw [hget] at hrel
  generalize run.tasks.get? id = before at hrel
  cases hrel with
  | some htask => exact ⟨_, rfl, htask⟩

end SchedulerRun

end DistributedSql
