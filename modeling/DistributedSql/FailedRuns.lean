/-
What a run leaves behind when it raises because of a task (`TaskScheduler.run`).

At the first failure of a stage `asyncio.gather` is left, and the coroutines of the other
tasks of the stage go on.

Main results:
* `leavesNothing_iff` — nothing is running when the run raises, and nothing is executed any
  more, exactly when the coroutines of the stage had all ended, none of them between two
  attempts;
* `not_leavesNothing` — a sibling of the failed task that is still being executed.
-/
import DistributedSql.StageRunsSound

namespace DistributedSql

/-- A coroutine was stopped between two attempts, or by the registry on the way to one. -/
def TaskFailure.isBetween : TaskFailure → Bool
  | .cancelled .between | .interrupted .between | .registry _ => true
  | _ => false

namespace TaskRun

variable {V : Type*} {policy : RetryPolicy} {token : Bool} {run run' : TaskRun V}

/-- The coroutine has ended, and not between two attempts. -/
def Finished (run : TaskRun V) : Prop :=
  ∃ result, run.phase = .ended result ∧ ∀ failure, result = .error failure → failure.isBetween = false

/-- A coroutine that ends between two attempts leaves its task running. -/
theorem running_of_moves (hsound : run.Sound policy token) (h : Moves policy token run run')
    {failure : TaskFailure} (hended : run'.phase = .ended (.error failure))
    (hbetween : failure.isBetween = true) : run'.task.state = .running := by
  obtain ⟨hidle, hlive⟩ := phase_of_moves h
  cases h with
  | began => rfl
  | stopped failure hstops =>
    cases hended
    refine hsound.running hidle (fun hstarting => ?_) hlive
    rcases hstops with ⟨-, rfl⟩ | ⟨hphase | ⟨error, hphase⟩ | hphase, -⟩
    · cases hbetween
    · cases hstarting.symm.trans hphase
    · cases hstarting.symm.trans hphase
    · cases hstarting.symm.trans hphase
  | attempted => cases hended
  | noWorker message =>
    unfold TaskRun.noWorker at hended
    split at hended
    all_goals
      cases hended
      cases hbetween
  | observed => cases hended
  | confirming => cases hended
  | left => cases hended
  | kept => exact absurd hended (hlive _)
  | concluded =>
    unfold TaskRun.conclude at hended
    split at hended
    · split at hended
      · cases hended
        cases hbetween
      · cases hended
    · cases hended
      cases hbetween
    · cases hended
      cases hbetween
    · cases hended
      cases hbetween
    · cases hended
  | failed =>
    unfold TaskRun.fail at hended
    dsimp only at hended
    split at hended
    · cases hended
    · cases hended
      cases hbetween
  | retried hphase => exact hsound.running hidle (fun h => nomatch h.symm.trans hphase) hlive

theorem state_ne_running_of_ended {result : Except TaskFailure (TaskOutcome V)}
    (h : run.EndedSound token result)
    (hfinished : ∀ failure, result = .error failure → failure.isBetween = false) :
    run.task.state ≠ .running := by
  have hstopped : ∀ place, place ≠ .between → run.StoppedAt place →
      run.task.state ≠ .running := by
    intro place hplace hstate
    cases place with
    | start => rcases hstate.2 with hstate | hstate <;> simp [hstate]
    | between => exact absurd rfl hplace
    | attempt =>
      have hstate : run.task.state = .canceled := hstate
      simp [hstate]
  match result, h with
  | .ok _, h => simp [h.1]
  | .error (.cancelled place), h =>
    refine hstopped place ?_ h.2
    rintro rfl
    cases hfinished _ rfl
  | .error (.interrupted place), h =>
    refine hstopped place ?_ h
    rintro rfl
    cases hfinished _ rfl
  | .error .unconfirmed, h =>
    have hstate : run.task.state = .failed := h
    simp [hstate]
  | .error (.failed _), h =>
    have hstate : run.task.state = .failed := h
    simp [hstate]
  | .error (.registry _), _ => cases hfinished _ rfl

/-- A task that has begun is running until its coroutine has finished. -/
theorem state_ne_running_iff (hsound : run.Sound policy token) (hidle : run.phase ≠ .idle)
    (hstarting : run.phase ≠ .starting)
    (hbetween : ∀ failure, run.phase = .ended (.error failure) → failure.isBetween = true →
      run.task.state = .running) :
    run.task.state ≠ .running ↔ run.Finished := by
  constructor
  · intro hstate
    by_cases hended : ∃ result, run.phase = .ended result
    · obtain ⟨result, hended⟩ := hended
      refine ⟨result, hended, fun failure hfailure => ?_⟩
      rw [← Bool.not_eq_true]
      exact fun hstopped => hstate (hbetween failure (hfailure ▸ hended) hstopped)
    · exact absurd (hsound.running hidle hstarting fun result h => hended ⟨result, h⟩) hstate
  · rintro ⟨result, hended, hfinished⟩
    have hphase := hsound.phase
    rw [hended] at hphase
    exact state_ne_running_of_ended hphase.2.2 hfinished

end TaskRun

namespace SchedulerRun

variable {V : Type*} {policy : RetryPolicy} {run run' : SchedulerRun V} {graph : StageGraph}
  {event : RunEvent V} {events : List (RunEvent V)} {failure : TaskFailure}

/-- No task is running, and no execution of an attempt is in progress. -/
def NothingRunning (run : SchedulerRun V) : Prop :=
  ∀ id task, run.tasks.get? id = some task → task.task.state ≠ .running ∧
    TaskRun.Quiet task.attempts

/-- Nothing is running, and no execution of an attempt is ever in progress again. -/
def LeavesNothing (policy : RetryPolicy) (run : SchedulerRun V) : Prop :=
  run.NothingRunning ∧ ∀ events later,
    Runs (fun run event run' => run.step policy event = some run') run events later →
    ∀ id task, later.tasks.get? id = some task → TaskRun.Quiet task.attempts

/-- The coroutines that a run gathers have all ended, none of them between two attempts. -/
def GatherFinished (run : SchedulerRun V) : Prop :=
  match run.control with
  | .gathering stage _ _ => ∀ task ∈ run.stageTasks stage, task.Finished
  | _ => True

/-! ### Tasks that were stopped between two attempts -/

/-- Until the run closes them they are running. -/
def Unclosed (run : SchedulerRun V) : Prop :=
  run.control.isLive = true → ∀ id task failure, run.tasks.get? id = some task →
    task.phase = .ended (.error failure) → failure.isBetween = true → task.task.state = .running

theorem unclosed_startStage (h : run.Unclosed) (hlive : run.control.isLive = true) (stage : String)
    (ready : List String) : (run.startStage stage ready).Unclosed := by
  unfold SchedulerRun.startStage
  split_ifs
  · intro hover
    cases hover
  · intro _ id task' failure hget hended hbetween
    rw [Dict.get?_map] at hget
    obtain ⟨task, htask, rfl⟩ := Option.map_eq_some_iff.mp hget
    split_ifs at hended ⊢
    · cases hended
    · exact h hlive id task failure htask hended hbetween

theorem unclosed_step (hsound : run.Sound policy) (h : run.Unclosed)
    (hstep : run.step policy event = some run') : run'.Unclosed := by
  have hlive : ∀ {control}, run.control = control → control.isLive = true →
      run.control.isLive = true := fun h hlive => h ▸ hlive
  cases steps_of_step hstep with
  | cancelled => exact h
  | started stage ready hcontrol =>
    refine unclosed_startStage h ?_ stage ready
    rcases hcontrol with hcontrol | ⟨hcontrol, -⟩
    · exact hlive hcontrol rfl
    · exact hlive hcontrol rfl
  | completed _ _ hcontrol => exact fun _ => h (hlive hcontrol rfl)
  | stopped _ _ _ _ _ hcontrol => exact fun _ => h (hlive hcontrol rfl)
  | returned => exact fun hover => absurd hover Bool.false_ne_true
  | stuck => exact fun hover => absurd hover Bool.false_ne_true
  | failed => exact fun hover => absurd hover Bool.false_ne_true
  | interrupted => exact fun hover => absurd hover Bool.false_ne_true
  | closed => exact fun hover => absurd hover Bool.false_ne_true
  | ended => exact fun hover => absurd hover Bool.false_ne_true
  | moved taskId move task task' hget htask =>
    intro hlive id other failure hother hended hbetween
    have hlive : run.control.isLive = true := (RunControl.isLive_hear _ _ _).symm.trans hlive
    rw [Dict.get?_set] at hother
    split_ifs at hother with hid
    · cases hother
      exact TaskRun.running_of_moves (hsound.tasks taskId task hget).2 (TaskRun.moves_of_step htask)
        hended hbetween
    · exact h hlive id other failure hother hended hbetween
  | executed taskId number execution task task' hget htask =>
    intro hlive id other failure hother hended hbetween
    rw [Dict.get?_set] at hother
    split_ifs at hother with hid
    · cases hother
      obtain ⟨attempts, -, rfl⟩ := Option.map_eq_some_iff.mp htask
      exact h hlive taskId task failure hget hended hbetween
    · exact h hlive id other failure hother hended hbetween

theorem unclosed_start (hstart : start graph = some run) : run.Unclosed := by
  intro _ id task failure hget hended
  rw [(task_of_start hstart hget).2.2] at hended
  cases hended

theorem unclosed_reaches (h : Reaches policy graph events run) : run.Unclosed := by
  obtain ⟨first, hstart, hrun⟩ := h
  have hfirst : first.Sound policy := .start hstart
  exact (hfirst.invariant hrun (unclosed_start hstart) unclosed_step).2

/-! ### After the run has raised -/

/-- The run is over, and no coroutine of a task is on its way. -/
structure Abandoned (run : SchedulerRun V) : Prop where
  raised : ∃ failure, run.control = .raised failure
  tasks : ∀ id task, run.tasks.get? id = some task →
    task.phase = .idle ∨ ∃ result, task.phase = .ended result

theorem Abandoned.step (h : run.Abandoned) (hstep : run.step policy event = some run') :
    run'.Abandoned := by
  obtain ⟨failure, hraised⟩ := h.raised
  have hover : ∀ {control}, run.control = control → control.isLive = true → run'.Abandoned := by
    rintro _ rfl hlive
    rw [hraised] at hlive
    cases hlive
  cases steps_of_step hstep with
  | cancelled => exact ⟨h.raised, h.tasks⟩
  | started stage ready hcontrol =>
    rcases hcontrol with hcontrol | ⟨hcontrol, -⟩
    · exact hover hcontrol rfl
    · exact hover hcontrol rfl
  | returned hcontrol => exact hover hcontrol rfl
  | stuck _ hcontrol => exact hover hcontrol rfl
  | completed _ _ hcontrol => exact hover hcontrol rfl
  | stopped _ _ _ _ _ hcontrol => exact hover hcontrol rfl
  | failed _ _ _ _ hcontrol => exact hover hcontrol rfl
  | interrupted _ _ hcontrol => exact hover hcontrol rfl
  | closed _ _ _ hcontrol => exact hover hcontrol rfl
  | ended _ hcontrol => exact hover hcontrol rfl
  | moved taskId move task task' hget htask =>
    obtain ⟨hidle, hended⟩ := TaskRun.phase_of_moves (TaskRun.moves_of_step htask)
    rcases h.tasks taskId task hget with hphase | ⟨result, hphase⟩
    · exact absurd hphase hidle
    · exact absurd hphase (hended result)
  | executed taskId number execution task task' hget htask =>
    refine ⟨h.raised, fun id other hother => ?_⟩
    rw [Dict.get?_set] at hother
    split_ifs at hother with hid
    · cases hother
      obtain ⟨attempts, -, rfl⟩ := Option.map_eq_some_iff.mp htask
      exact h.tasks taskId task hget
    · exact h.tasks id other hother

theorem Abandoned.quiet (h : run.Abandoned) (hsound : run.Sound policy) :
    ∀ id task, run.tasks.get? id = some task → TaskRun.Quiet task.attempts := by
  intro id task hget
  have hphase := (hsound.tasks id task hget).2.phase
  rcases h.tasks id task hget with hrun | ⟨result, hrun⟩
  · rw [hrun] at hphase
    rw [hphase.1]
    exact TaskRun.quiet_nil
  · rw [hrun] at hphase
    exact hphase.1

theorem Abandoned.later {later : SchedulerRun V} (h : run.Abandoned) (hsound : run.Sound policy)
    (hrun : Runs (fun run event run' => run.step policy event = some run') run events later) :
    ∀ id task, later.tasks.get? id = some task → TaskRun.Quiet task.attempts := by
  obtain ⟨hlater, h⟩ := hsound.invariant hrun h fun _ h hstep => h.step hstep
  exact h.quiet hlater

/-- A run that has been abandoned leaves nothing when no task is running. -/
theorem Abandoned.leavesNothing (h : run.Abandoned) (hsound : run.Sound policy)
    (hstate : ∀ id task, run.tasks.get? id = some task → task.task.state ≠ .running) :
    run.LeavesNothing policy :=
  ⟨fun id task hget => ⟨hstate id task hget, h.quiet hsound id task hget⟩,
    fun _ _ hrun => h.later hsound hrun⟩

/-! ### How a run raises because of a task -/

/-- A gather that reports a failure, or one of canceled coroutines. -/
inductive Raises (run : SchedulerRun V) (failure : TaskFailure) : SchedulerRun V → Prop
  | gathered (stage : String) (ready : List String)
      (hcontrol : run.control = .gathering stage ready (some failure))
      (hbegun : ∀ task ∈ run.stageTasks stage, task.isStarting = false) :
      Raises run failure { run with
        stages := run.stages.modify stage ({ · with state := .failed })
        control := .raised (.task failure) }
  | settled (stage : String) (cancelled : Bool)
      (hcontrol : run.control = .settling stage cancelled)
      (hended : ∀ task ∈ run.stageTasks stage, task.isEnded = true) :
      Raises run failure { run.closeStage stage with control := .raised (.task failure) }

theorem control_startStage (run : SchedulerRun V) (stage : String) (ready : List String)
    (raised : RunFailure) : (run.startStage stage ready).control ≠ .raised raised := by
  unfold SchedulerRun.startStage
  split_ifs <;> exact nofun

theorem raises_of_step (hlive : run.control.isLive = true)
    (hstep : run.step policy event = some run') (hraised : run'.control = .raised (.task failure)) :
    Raises run failure run' := by
  cases steps_of_step hstep with
  | cancelled =>
    rw [show run.control = _ from hraised] at hlive
    cases hlive
  | started stage ready => exact absurd hraised (control_startStage run stage ready _)
  | returned => cases hraised
  | stuck => cases hraised
  | completed => cases hraised
  | stopped => cases hraised
  | failed _ stage ready _ hcontrol hbegun =>
    cases hraised
    exact .gathered stage ready hcontrol hbegun
  | interrupted => cases hraised
  | closed stage cancelled _ hcontrol hended =>
    cases hraised
    exact .settled stage cancelled hcontrol hended
  | ended => cases hraised
  | moved taskId move task task' =>
    have hhear := RunControl.isLive_hear run.control task'.task.stageId task'.phase
    rw [hlive, show run.control.hear task'.task.stageId task'.phase = _ from hraised] at hhear
    cases hhear
  | executed =>
    rw [show run.control = _ from hraised] at hlive
    cases hlive

/-- When a run raises because of a task, it leaves nothing running exactly when the
coroutines it gathered had all ended, none of them between two attempts. -/
theorem leavesNothing_iff (hrun : Reaches policy graph events run)
    (hlive : run.control.isLive = true) (hstep : run.step policy event = some run')
    (hraised : run'.control = .raised (.task failure)) :
    run'.LeavesNothing policy ↔ run.GatherFinished := by
  have hsound : run.Sound policy := .reaches hrun
  have hsound' := hsound.step hstep
  have hcontrol := hsound.control
  have hunclosed := unclosed_reaches hrun hlive
  have helsewhere : ∀ {active : String}, run.Open (some active) → ∀ id task,
      run.tasks.get? id = some task → task.task.stageId ≠ active →
      (task.phase = .idle ∨ ∃ result, task.phase = .ended result) ∧
        task.task.state ≠ .running := by
    intro active hopen id task hget hid
    rcases hsound.idle_or_ok hopen hget (fun heq => hid (Option.some.inj heq).symm) with
      hidle | ⟨outcome, hended⟩
    · exact ⟨Or.inl hidle, by simp [hopen.idle id task hget hidle]⟩
    · exact ⟨Or.inr ⟨_, hended⟩, by simp [state_of_ok (hsound.tasks id task hget).2 hended]⟩
  cases raises_of_step hlive hstep hraised with
  | gathered stage ready hrunning hbegun =>
    rw [hrunning] at hcontrol
    obtain ⟨hopen, -, hactive, -⟩ := hcontrol
    rw [GatherFinished, hrunning]
    have hiff : ∀ task ∈ run.stageTasks stage, task.task.state ≠ .running ↔ task.Finished := by
      intro task hmem
      obtain ⟨hget, hid⟩ := hsound.get?_of_mem_stageTasks hmem
      refine TaskRun.state_ne_running_iff (hsound.tasks _ task hget).2 (hactive _ task hget hid) ?_
        fun failure hended hbetween => hunclosed _ task failure hget hended hbetween
      intro hstarting
      have hnot := hbegun task hmem
      rw [TaskRun.isStarting, hstarting] at hnot
      cases hnot
    constructor
    · rintro ⟨hnothing, -⟩ task hmem
      obtain ⟨hget, -⟩ := hsound.get?_of_mem_stageTasks hmem
      exact (hiff task hmem).mp (hnothing _ task hget).1
    · intro hfinished
      refine Abandoned.leavesNothing ⟨⟨_, rfl⟩, fun id task hget => ?_⟩ hsound'
        fun id task hget => ?_
      · by_cases hid : task.task.stageId = stage
        · obtain ⟨result, hended, -⟩ := hfinished task (mem_stageTasks_of_get? hget hid)
          exact Or.inr ⟨result, hended⟩
        · exact (helsewhere hopen id task hget hid).1
      · by_cases hid : task.task.stageId = stage
        · have hmem := mem_stageTasks_of_get? hget hid
          exact (hiff task hmem).mpr (hfinished task hmem)
        · exact (helsewhere hopen id task hget hid).2
  | settled stage cancelled hrunning hended =>
    rw [hrunning] at hcontrol
    rw [GatherFinished, hrunning]
    refine iff_of_true (Abandoned.leavesNothing ⟨⟨_, rfl⟩, fun id task' hget => ?_⟩ hsound'
      fun id task' hget => ?_) trivial
    · obtain ⟨task, htask, rfl⟩ := Option.map_eq_some_iff.mp ((Dict.get?_map _ _ _).symm.trans hget)
      have hphase : task.phase = .idle ∨ ∃ result, task.phase = .ended result := by
        by_cases hid : task.task.stageId = stage
        · exact Or.inr (isEnded_eq_true.mp (hended task (mem_stageTasks_of_get? htask hid)))
        · exact (helsewhere hcontrol.1 id task htask hid).1
      split_ifs
      · exact hphase
      · exact hphase
    · obtain ⟨task, htask, rfl⟩ := Option.map_eq_some_iff.mp ((Dict.get?_map _ _ _).symm.trans hget)
      split_ifs with hclosed
      · exact nofun
      · by_cases hid : task.task.stageId = stage
        · exact fun hstate => hclosed ⟨hid, Or.inr hstate⟩
        · exact (helsewhere hcontrol.1 id task htask hid).2

/-- One stage of two tasks. -/
def siblingGraph : StageGraph where
  rootStageId := "scan"
  stages := [{ stageId := "scan", queryId := "query" }]
  tasks :=
    [{ taskId := "scan-0", queryId := "query", stageId := "scan", ordinal := 0 },
      { taskId := "scan-1", queryId := "query", stageId := "scan", ordinal := 1 }]
  stages_pending := by decide
  tasks_pending := by decide

/-- Both tasks execute their only attempt; the first raises, and its coroutine ends. -/
def siblingEvents : List (RunEvent ℕ) :=
  let executing (taskId : String) (turn : ℕ) : List (RunEvent ℕ) :=
    [.coroutine taskId (.choose (.ok ["worker-1", "worker-2"]) turn),
      .execution taskId 0 (.acquire true), .execution taskId 0 .submit, .execution taskId 0 .pick,
      .execution taskId 0 .post, .execution taskId 0 .deliver, .coroutine taskId .wake]
  [.advance, .coroutine "scan-0" .begin, .coroutine "scan-1" .begin]
  ++ executing "scan-0" 0 ++ executing "scan-1" 1 ++
  [.execution "scan-0" 0 (.finish (.error (.raised (.other "ValueError")))),
    .coroutine "scan-0" .wake, .coroutine "scan-0" (.settle false false),
    .coroutine "scan-0" .discarded]

/-- A run raises while another task of the stage is executed. -/
theorem not_leavesNothing : ¬ ∀ (policy : RetryPolicy) (graph : StageGraph)
    (events : List (RunEvent ℕ)) (run run' : SchedulerRun ℕ) (event : RunEvent ℕ)
    (failure : TaskFailure), Reaches policy graph events run → run.control.isLive = true →
    run.step policy event = some run' → run'.control = .raised (.task failure) →
    run'.LeavesNothing policy := by
  obtain ⟨first, run, run', hstart, hfold, hlive, hstep, ⟨failure, hraised⟩, task, hget, hstate⟩ :
      ∃ first run run' : SchedulerRun ℕ, start siblingGraph = some first ∧
      siblingEvents.foldlM (fun run event => run.step { maxAttempts := 1 } event) first = some run ∧
      run.control.isLive = true ∧ run.step { maxAttempts := 1 } (.gathered false) = some run' ∧
      (∃ failure, run'.control = .raised (.task failure)) ∧
      ∃ task, run'.tasks.get? "scan-1" = some task ∧ task.task.state = .running :=
    ⟨_, _, _, rfl, rfl, rfl, rfl, ⟨_, rfl⟩, _, rfl, rfl⟩
  intro h
  have hrun : Reaches { maxAttempts := 1 } siblingGraph siblingEvents run :=
    ⟨first, hstart, Runs.of_foldlM hfold⟩
  exact ((h _ _ _ run run' _ failure hrun hlive hstep hraised).1 "scan-1" task hget).1 hstate

/-- The same run raises with a coroutine of the stage on its way. -/
theorem leavesNothing_iff_sibling : ∃ run run' : SchedulerRun ℕ,
    Reaches { maxAttempts := 1 } siblingGraph siblingEvents run ∧
    run.step { maxAttempts := 1 } (.gathered false) = some run' ∧
    (run'.LeavesNothing { maxAttempts := 1 } ↔ run.GatherFinished) := by
  obtain ⟨first, run, run', hstart, hfold, hlive, hstep, failure, hraised⟩ :
      ∃ first run run' : SchedulerRun ℕ, start siblingGraph = some first ∧
      siblingEvents.foldlM (fun run event => run.step { maxAttempts := 1 } event) first = some run ∧
      run.control.isLive = true ∧ run.step { maxAttempts := 1 } (.gathered false) = some run' ∧
      ∃ failure, run'.control = .raised (.task failure) :=
    ⟨_, _, _, rfl, rfl, rfl, rfl, _, rfl⟩
  have hrun : Reaches { maxAttempts := 1 } siblingGraph siblingEvents run :=
    ⟨first, hstart, Runs.of_foldlM hfold⟩
  exact ⟨run, run', hrun, hstep, leavesNothing_iff hrun hlive hstep hraised⟩

end SchedulerRun

end DistributedSql
