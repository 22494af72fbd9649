/-
What holds of a run of a stage graph between any two steps.

Main results:
* `Sound.step` — every step of the stage loop, of a task and of an execution keeps it;
* `run_safe` — no attempt before its dependencies have succeeded, one execution of a task at
  a time, distinct attempts, and outcomes exactly of the tasks that have succeeded.
-/
import DistributedSql.StageRuns

namespace DistributedSql

namespace SchedulerRun

variable {V : Type*}

/-! ### What holds of a run between any two steps -/

/-- Every stage that `stage` depends on has succeeded. -/
def Unlocked (stages : Dict String Stage) (stage : Stage) : Prop :=
  ∀ dependency ∈ stage.dependencyStageIds, ∃ other, stages.get? dependency = some other ∧
    other.state = .succeeded

/-- These stages may begin. -/
def Ready (run : SchedulerRun V) (ready : List String) : Prop :=
  ready.Nodup ∧ ∀ id ∈ ready, ∃ stage, run.stages.get? id = some stage ∧ stage.state = .pending ∧
    Unlocked run.stages stage

/-- The stage loop is on: but for an active stage, stages have not begun or have succeeded,
and tasks that have not begun are pending. -/
structure Open (run : SchedulerRun V) (active : Option String) : Prop where
  others : ∀ id stage, run.stages.get? id = some stage → active ≠ some id →
    stage.state = .pending ∨ stage.state = .succeeded
  active : ∀ id, active = some id → ∃ stage, run.stages.get? id = some stage ∧
    stage.state = .running
  idle : ∀ id task, run.tasks.get? id = some task → task.phase = .idle →
    task.task.state = .pending

def ControlSound (run : SchedulerRun V) : RunControl → Prop
  | .looping ready => run.Open none ∧ run.Ready ready
  | .gathering active ready failure => run.Open (some active) ∧ run.Ready ready ∧
      (∀ id task, run.tasks.get? id = some task → task.task.stageId = active →
        task.phase ≠ .idle) ∧
      ∀ place, failure = some (.cancelled place) → run.cancelled = true
  | .settling active cancelled => run.Open (some active) ∧ (cancelled = true → run.cancelled = true)
  | .returned => run.cancelled = true ∨ ∀ id stage, run.stages.get? id = some stage →
      stage.state = .succeeded
  | .raised _ => True

/-- What holds of a run between any two steps. -/
structure Sound (policy : RetryPolicy) (run : SchedulerRun V) : Prop where
  tasks : ∀ id task, run.tasks.get? id = some task → task.task.taskId = id ∧
    task.Sound policy run.cancelled
  stages : ∀ id stage, run.stages.get? id = some stage → stage.stageId = id
  remaining : ∀ id stage, run.stages.get? id = some stage →
    (id ∈ run.remaining ↔ stage.state ≠ .succeeded)
  begun : ∀ id task, run.tasks.get? id = some task → task.phase ≠ .idle → ∃ stage,
    run.stages.get? task.task.stageId = some stage ∧ stage.state ≠ .pending ∧
    Unlocked run.stages stage
  succeeded : ∀ id stage, run.stages.get? id = some stage → stage.state = .succeeded →
    ∀ taskId task, run.tasks.get? taskId = some task → task.task.stageId = id →
    ∃ outcome, task.phase = .ended (.ok outcome) ∧ run.outcomes.get? taskId = some outcome
  outcomes : ∀ taskId outcome, run.outcomes.get? taskId = some outcome → ∃ task stage,
    run.tasks.get? taskId = some task ∧ task.phase = .ended (.ok outcome) ∧
    run.stages.get? task.task.stageId = some stage ∧ stage.state = .succeeded
  control : run.ControlSound run.control

variable {policy : RetryPolicy} {run run' : SchedulerRun V}

theorem ControlSound.setControl {control control' : RunControl} (h : run.ControlSound control) :
    ControlSound { run with control := control' } control := by
  match control, h with
  | .looping _, ⟨hopen, hready⟩ => exact ⟨⟨hopen.others, hopen.active, hopen.idle⟩, hready⟩
  | .gathering _ _ _, ⟨hopen, hready, hbegun, hfailure⟩ =>
    exact ⟨⟨hopen.others, hopen.active, hopen.idle⟩, hready, hbegun, hfailure⟩
  | .settling _ _, ⟨hopen, hcancelled⟩ =>
    exact ⟨⟨hopen.others, hopen.active, hopen.idle⟩, hcancelled⟩
  | .returned, h => exact h
  | .raised _, _ => trivial

theorem Sound.setControl (h : run.Sound policy) {control : RunControl}
    (hcontrol : run.ControlSound control) : Sound policy { run with control := control } :=
  ⟨h.tasks, h.stages, h.remaining, h.begun, h.succeeded, h.outcomes, hcontrol.setControl⟩

/-! ### Steps of tasks keep it -/

section Tasks

variable {taskId : String} {task task' : TaskRun V}

theorem get?_set_task (hget : run.tasks.get? taskId = some task) (hfollows : task.Follows task')
    {id : String} {other' : TaskRun V} (h : (run.tasks.set taskId task').get? id = some other') :
    ∃ other, run.tasks.get? id = some other ∧ other.Follows other' := by
  rw [Dict.get?_set] at h
  split_ifs at h with hid
  · cases h
    exact ⟨task, hid ▸ hget, hfollows⟩
  · exact ⟨other', h, .refl other'⟩

theorem exists_set_task (hget : run.tasks.get? taskId = some task) (hfollows : task.Follows task')
    {id : String} {other : TaskRun V} (h : run.tasks.get? id = some other) :
    ∃ other', (run.tasks.set taskId task').get? id = some other' ∧ other.Follows other' := by
  rw [Dict.get?_set]
  split_ifs with hid
  · subst hid
    cases hget.symm.trans h
    exact ⟨task', rfl, hfollows⟩
  · exact ⟨other, h, .refl other⟩

theorem Open.setTask {active : Option String} (h : run.Open active)
    (hget : run.tasks.get? taskId = some task) (hfollows : task.Follows task') :
    Open { run with tasks := run.tasks.set taskId task' } active := by
  refine ⟨h.others, h.active, fun id other' hother' hidle => ?_⟩
  obtain ⟨other, hother, hfollows⟩ := get?_set_task hget hfollows hother'
  rw [hfollows.state (hfollows.idle.mp hidle)]
  exact h.idle id other hother (hfollows.idle.mp hidle)

theorem ControlSound.setTask {control : RunControl} (h : run.ControlSound control)
    (hget : run.tasks.get? taskId = some task) (hfollows : task.Follows task') :
    ControlSound { run with tasks := run.tasks.set taskId task' } control := by
  match control, h with
  | .looping ready, ⟨hopen, hready⟩ => exact ⟨hopen.setTask hget hfollows, hready⟩
  | .gathering active ready failure, ⟨hopen, hready, hbegun, hfailure⟩ =>
    refine ⟨hopen.setTask hget hfollows, hready, fun id other' hother' hstage => ?_, hfailure⟩
    obtain ⟨other, hother, hfollows⟩ := get?_set_task hget hfollows hother'
    exact fun hidle => hbegun id other hother (hfollows.stageId.symm.trans hstage)
      (hfollows.idle.mp hidle)
  | .settling active cancelled, ⟨hopen, hcancelled⟩ =>
    exact ⟨hopen.setTask hget hfollows, hcancelled⟩
  | .returned, h => exact h
  | .raised _, _ => trivial

/-- A task, or an execution of it, takes a step. -/
theorem Sound.setTask (h : run.Sound policy) (hget : run.tasks.get? taskId = some task)
    (hfollows : task.Follows task') (htask : task'.Sound policy run.cancelled) :
    Sound policy { run with tasks := run.tasks.set taskId task' } where
  tasks := by
    intro id other' hother'
    rw [Dict.get?_set] at hother'
    split_ifs at hother' with hid
    · cases hother'
      subst hid
      exact ⟨hfollows.taskId.trans (h.tasks id task hget).1, htask⟩
    · exact h.tasks id other' hother'
  stages := h.stages
  remaining := h.remaining
  begun := by
    intro id other' hother' hphase
    obtain ⟨other, hother, hfollows⟩ := get?_set_task hget hfollows hother'
    rw [hfollows.stageId]
    exact h.begun id other hother (mt hfollows.idle.mpr hphase)
  succeeded := by
    intro id stage hstage hsucceeded taskId' other' hother' hid
    obtain ⟨other, hother, hfollows⟩ := get?_set_task hget hfollows hother'
    obtain ⟨outcome, hended, houtcome⟩ := h.succeeded id stage hstage hsucceeded taskId' other hother
      (hfollows.stageId.symm.trans hid)
    exact ⟨outcome, hfollows.ended _ hended, houtcome⟩
  outcomes := by
    intro taskId' outcome houtcome
    obtain ⟨other, stage, hother, hended, hstage, hsucceeded⟩ := h.outcomes taskId' outcome houtcome
    obtain ⟨other', hother', hfollows⟩ := exists_set_task hget hfollows hother
    exact ⟨other', stage, hother', hfollows.ended _ hended, hfollows.stageId ▸ hstage, hsucceeded⟩
  control := h.control.setTask hget hfollows

/-- What a gather hears of a failure leaves the rest as it is. -/
theorem Sound.hear (h : run.Sound policy) (hget : run.tasks.get? taskId = some task) :
    Sound policy { run with control := run.control.hear task.task.stageId task.phase } := by
  refine h.setControl ?_
  have hcontrol := h.control
  unfold RunControl.hear
  split
  · next stage ready failure hrun hphase =>
    rw [hrun] at hcontrol
    obtain ⟨hopen, hready, hbegun, -⟩ := hcontrol
    refine ⟨hopen, hready, hbegun, fun place hfailure => ?_⟩
    split_ifs at hfailure
    cases hfailure
    have hended := (h.tasks taskId task hget).2.phase
    rw [hphase] at hended
    exact hended.2.2.1
  · exact hcontrol

end Tasks

/-! ### The stage loop keeps it -/

theorem mem_stageTasks {stage : String} {task : TaskRun V} :
    task ∈ run.stageTasks stage ↔ task ∈ run.tasks.values ∧ task.task.stageId = stage := by
  rw [stageTasks, (List.perm_insertionSort _ _).mem_iff, List.mem_filter, decide_eq_true_iff]

theorem mem_stageTasks_of_get? {id stage : String} {task : TaskRun V}
    (h : run.tasks.get? id = some task) (hstage : task.task.stageId = stage) :
    task ∈ run.stageTasks stage :=
  mem_stageTasks.mpr ⟨List.mem_map.mpr ⟨(id, task), Dict.mem_items.mpr h, rfl⟩, hstage⟩

/-- A task of a stage is kept under its id. -/
theorem Sound.get?_of_mem_stageTasks (h : run.Sound policy) {stage : String} {task : TaskRun V}
    (hmem : task ∈ run.stageTasks stage) :
    run.tasks.get? task.task.taskId = some task ∧ task.task.stageId = stage := by
  obtain ⟨hvalue, hstage⟩ := mem_stageTasks.mp hmem
  obtain ⟨⟨id, task⟩, hitem, rfl⟩ := List.mem_map.mp hvalue
  have hget := Dict.mem_items.mp hitem
  rw [(h.tasks id task hget).1]
  exact ⟨hget, hstage⟩

theorem Sound.cancel (h : run.Sound policy) : Sound policy { run with cancelled := true } := by
  refine ⟨fun id task hget => ⟨(h.tasks id task hget).1, (h.tasks id task hget).2.cancel⟩,
    h.stages, h.remaining, h.begun, h.succeeded, h.outcomes, ?_⟩
  have hcontrol := h.control
  show ControlSound _ run.control
  match run.control, hcontrol with
  | .looping _, ⟨hopen, hready⟩ => exact ⟨⟨hopen.others, hopen.active, hopen.idle⟩, hready⟩
  | .gathering _ _ _, ⟨hopen, hready, hbegun, _⟩ =>
    exact ⟨⟨hopen.others, hopen.active, hopen.idle⟩, hready, hbegun, fun _ _ => rfl⟩
  | .settling _ _, ⟨hopen, _⟩ =>
    exact ⟨⟨hopen.others, hopen.active, hopen.idle⟩, fun _ => rfl⟩
  | .returned, _ => exact Or.inl rfl
  | .raised _, _ => trivial

/-- What the stage loop may do to a stage that has not just succeeded. -/
structure StageFollows (stage stage' : Stage) : Prop where
  stageId : stage'.stageId = stage.stageId
  dependencies : stage'.dependencyStageIds = stage.dependencyStageIds
  succeeded : stage'.state = .succeeded ↔ stage.state = .succeeded
  begun : stage.state ≠ .pending → stage'.state ≠ .pending

theorem StageFollows.refl (stage : Stage) : StageFollows stage stage := ⟨rfl, rfl, Iff.rfl, id⟩

/-- What the stage loop may do to a task. -/
structure TaskFollows (policy : RetryPolicy) (run : SchedulerRun V) (stages : Dict String Stage)
    (task task' : TaskRun V) : Prop where
  taskId : task'.task.taskId = task.task.taskId
  stageId : task'.task.stageId = task.task.stageId
  sound : task'.Sound policy run.cancelled
  ended : ∀ result, task.phase = .ended result → task'.phase = .ended result
  begun : task'.phase ≠ .idle → task.phase ≠ .idle ∨ ∃ stage,
    stages.get? task.task.stageId = some stage ∧ stage.state ≠ .pending ∧ Unlocked stages stage

/-- Stages that have succeeded unlock others, whatever becomes of the rest. -/
theorem Unlocked.mono {stages stages' : Dict String Stage} {stage : Stage}
    (h : Unlocked stages stage)
    (hkept : ∀ id other, stages.get? id = some other → other.state = .succeeded →
      ∃ other', stages'.get? id = some other' ∧ other'.state = .succeeded) :
    Unlocked stages' stage := by
  intro dependency hmem
  obtain ⟨other, hother, hsucceeded⟩ := h dependency hmem
  exact hkept dependency other hother hsucceeded

theorem Unlocked.map {stages : Dict String Stage} {stage : Stage} {f : String → Stage → Stage}
    (h : Unlocked stages stage)
    (hf : ∀ id stage, stages.get? id = some stage → StageFollows stage (f id stage)) :
    Unlocked (stages.map f) stage := by
  refine h.mono fun id other hother hsucceeded => ⟨f id other, ?_, ?_⟩
  · rw [Dict.get?_map, hother, Option.map_some]
  · exact (hf id other hother).succeeded.mpr hsucceeded

/-- The stage loop changes stages and tasks, without one that succeeds. -/
theorem Sound.map (h : run.Sound policy) (f : String → Stage → Stage)
    (g : String → TaskRun V → TaskRun V) (control : RunControl)
    (hf : ∀ id stage, run.stages.get? id = some stage → StageFollows stage (f id stage))
    (hg : ∀ id task, run.tasks.get? id = some task →
      TaskFollows policy run (run.stages.map f) task (g id task))
    (hcontrol : ControlSound { run with
      stages := run.stages.map f, tasks := run.tasks.map g, control := control } control) :
    Sound policy { run with
      stages := run.stages.map f, tasks := run.tasks.map g, control := control } := by
  have hstage : ∀ id stage', (run.stages.map f).get? id = some stage' → ∃ stage,
      run.stages.get? id = some stage ∧ StageFollows stage stage' := by
    intro id stage' hget
    rw [Dict.get?_map] at hget
    obtain ⟨stage, hstage, rfl⟩ := Option.map_eq_some_iff.mp hget
    exact ⟨stage, hstage, hf id stage hstage⟩
  have htask : ∀ id task', (run.tasks.map g).get? id = some task' → ∃ task,
      run.tasks.get? id = some task ∧ TaskFollows policy run (run.stages.map f) task task' := by
    intro id task' hget
    rw [Dict.get?_map] at hget
    obtain ⟨task, htask, rfl⟩ := Option.map_eq_some_iff.mp hget
    exact ⟨task, htask, hg id task htask⟩
  refine ⟨fun id task' hget => ?_, fun id stage' hget => ?_, fun id stage' hget => ?_,
    fun id task' hget hphase => ?_, fun id stage' hget hsucceeded taskId task' hget' hid => ?_,
    fun taskId outcome houtcome => ?_, hcontrol⟩
  · obtain ⟨task, hget, hfollows⟩ := htask id task' hget
    exact ⟨hfollows.taskId.trans (h.tasks id task hget).1, hfollows.sound⟩
  · obtain ⟨stage, hget, hfollows⟩ := hstage id stage' hget
    exact hfollows.stageId.trans (h.stages id stage hget)
  · obtain ⟨stage, hget, hfollows⟩ := hstage id stage' hget
    exact (h.remaining id stage hget).trans (not_congr hfollows.succeeded.symm)
  · obtain ⟨task, hget, hfollows⟩ := htask id task' hget
    rw [hfollows.stageId]
    rcases hfollows.begun hphase with hbegun | hbegun
    · obtain ⟨stage, hstage, hpending, hunlocked⟩ := h.begun id task hget hbegun
      have hstage' := hf _ _ hstage
      refine ⟨f task.task.stageId stage, ?_, hstage'.begun hpending, ?_⟩
      · rw [Dict.get?_map, hstage, Option.map_some]
      · rw [Unlocked, hstage'.dependencies]
        exact hunlocked.map hf
    · exact hbegun
  · obtain ⟨stage, hget, hfollows⟩ := hstage id stage' hget
    obtain ⟨task, hget', hfollows'⟩ := htask taskId task' hget'
    obtain ⟨outcome, hended, houtcome⟩ := h.succeeded id stage hget
      (hfollows.succeeded.mp hsucceeded) taskId task hget' (hfollows'.stageId.symm.trans hid)
    exact ⟨outcome, hfollows'.ended _ hended, houtcome⟩
  · obtain ⟨task, stage, hget, hended, hget', hsucceeded⟩ := h.outcomes taskId outcome houtcome
    have hfollows := hg taskId task hget
    refine ⟨g taskId task, f task.task.stageId stage, ?_, hfollows.ended _ hended, ?_,
      (hf _ _ hget').succeeded.mpr hsucceeded⟩
    · rw [Dict.get?_map, hget, Option.map_some]
    · rw [hfollows.stageId, Dict.get?_map, hget', Option.map_some]

/-- A task that stays as it is, or is closed. -/
theorem Sound.taskFollows (h : run.Sound policy) (stages : Dict String Stage) {id : String}
    {task task' : TaskRun V} (hget : run.tasks.get? id = some task)
    (h' : task' = task ∨ task' = task.cancelTask ∧
      (task.phase = .idle ∨ (∃ result, task.phase = .ended result) ∧
        (task.task.state = .pending ∨ task.task.state = .running))) :
    TaskFollows policy run stages task task' := by
  have hsound := (h.tasks id task hget).2
  rcases h' with rfl | ⟨rfl, hphase⟩
  · exact ⟨rfl, rfl, hsound, fun _ hended => hended, Or.inl⟩
  · refine ⟨rfl, rfl, ?_, fun _ hended => hended, Or.inl⟩
    rcases hphase with hidle | ⟨⟨result, hended⟩, hstate⟩
    · exact hsound.cancelIdle hidle
    · exact hsound.cancelEnded hended hstate

/-- A canceled run closes what has not begun. -/
theorem Sound.cancelPending (h : run.Sound policy) (hcancelled : run.cancelled = true)
    (hpending : ∀ id task, run.tasks.get? id = some task → task.task.state = .pending →
      task.phase = .idle) : run.cancelPending.Sound policy := by
  refine h.map _ _ .returned (fun id stage hget => ?_) (fun id task hget => ?_) (Or.inl hcancelled)
  · split_ifs with hstate
    · refine ⟨rfl, rfl, ?_, absurd hstate⟩
      rw [hstate]
      exact iff_of_false nofun nofun
    · exact .refl stage
  · refine h.taskFollows _ hget ?_
    split_ifs with hstate
    · exact Or.inr ⟨rfl, Or.inl (hpending id task hget hstate)⟩
    · exact Or.inl rfl

/-- Outside of the active stage a task has not begun or has succeeded. -/
theorem Sound.idle_or_ok (h : run.Sound policy) {active : Option String} (hopen : run.Open active)
    {id : String} {task : TaskRun V} (hget : run.tasks.get? id = some task)
    (hactive : active ≠ some task.task.stageId) :
    task.phase = .idle ∨ ∃ outcome, task.phase = .ended (.ok outcome) := by
  by_cases hidle : task.phase = .idle
  · exact Or.inl hidle
  · obtain ⟨stage, hstage, hpending, -⟩ := h.begun id task hget hidle
    rcases hopen.others _ stage hstage hactive with hstate | hstate
    · exact absurd hstate hpending
    · obtain ⟨outcome, hended, -⟩ := h.succeeded _ stage hstage hstate id task hget rfl
      exact Or.inr ⟨outcome, hended⟩

theorem state_of_ok {token : Bool} {task : TaskRun V} {outcome : TaskOutcome V}
    (h : task.Sound policy token) (hended : task.phase = .ended (.ok outcome)) :
    task.task.state = .succeeded := by
  have hphase := h.phase
  rw [hended] at hphase
  exact hphase.2.2.1

theorem Sound.startStage (h : run.Sound policy) (hopen : run.Open none) {stage : String}
    {ready : List String} (hready : run.Ready (stage :: ready)) :
    (run.startStage stage ready).Sound policy := by
  have hidle : ∀ id task, run.tasks.get? id = some task → task.task.state ≠ .succeeded →
      task.phase = .idle := by
    intro id task hget hstate
    refine (h.idle_or_ok hopen hget nofun).resolve_right fun ⟨outcome, hended⟩ => ?_
    exact hstate (state_of_ok (h.tasks id task hget).2 hended)
  unfold SchedulerRun.startStage
  split_ifs with hcancelled
  · exact h.cancelPending hcancelled fun id task hget hpending => hidle id task hget (by simp [hpending])
  obtain ⟨hnodup, hunlocked⟩ := hready
  obtain ⟨hnot, hnodup⟩ := List.nodup_cons.mp hnodup
  obtain ⟨first, hfirst, hpending, hfree⟩ := hunlocked stage List.mem_cons_self
  have hf : ∀ id other, run.stages.get? id = some other →
      StageFollows other (if id = stage then { other with state := .running } else other) := by
    intro id other hother
    split_ifs with hid
    · subst hid
      cases hfirst.symm.trans hother
      refine ⟨rfl, rfl, ?_, absurd hpending⟩
      rw [hpending]
      exact iff_of_false nofun nofun
    · exact .refl other
  have hfirst' : (run.stages.modify stage ({ · with state := .running })).get? stage
      = some { first with state := .running } := by
    rw [Dict.get?_modify, if_pos rfl, hfirst, Option.map_some]
  have hscheduled : ∀ id task, run.tasks.get? id = some task → task.task.stageId = stage →
      task.phase = .idle := by
    intro id task hget hstage
    by_contra hphase
    obtain ⟨other, hother, hstate, -⟩ := h.begun id task hget hphase
    rw [hstage] at hother
    cases hfirst.symm.trans hother
    exact hstate hpending
  refine h.map _ _ _ hf (fun id task hget => ?_) ⟨⟨?_, ?_, ?_⟩, ⟨hnodup, ?_⟩, ?_, nofun⟩
  · split_ifs with hstage
    · have hphase := hscheduled id task hget hstage
      refine ⟨rfl, rfl, (h.tasks id task hget).2.schedule hphase (hopen.idle id task hget hphase),
        fun result hended => (nomatch hphase.symm.trans hended), fun _ => Or.inr ?_⟩
      exact ⟨{ first with state := .running }, (congrArg _ hstage).trans hfirst', nofun,
        hfree.map hf⟩
    · exact ⟨rfl, rfl, (h.tasks id task hget).2, fun _ hended => hended, Or.inl⟩
  · intro id other hother hne
    have hid : id ≠ stage := fun hid => hne (hid ▸ rfl)
    rw [Dict.get?_map] at hother
    obtain ⟨other, hget, rfl⟩ := Option.map_eq_some_iff.mp hother
    rw [if_neg hid]
    exact hopen.others id other hget nofun
  · rintro id ⟨⟩
    exact ⟨_, hfirst', rfl⟩
  · intro id task' hget hphase
    rw [Dict.get?_map] at hget
    obtain ⟨task, hget', rfl⟩ := Option.map_eq_some_iff.mp hget
    split_ifs at hphase ⊢ with hstage
    · cases hphase
    · exact hopen.idle id task hget' hphase
  · intro id hmem
    obtain ⟨other, hother, hstate, hfree⟩ := hunlocked id (List.mem_cons_of_mem _ hmem)
    have hid : id ≠ stage := fun hid => hnot (hid ▸ hmem)
    refine ⟨other, ?_, hstate, hfree.map hf⟩
    rw [Dict.get?_map, hother, Option.map_some, if_neg hid]
  · intro id task' hget hstage
    rw [Dict.get?_map] at hget
    obtain ⟨task, hget, rfl⟩ := Option.map_eq_some_iff.mp hget
    split_ifs at hstage ⊢ with hid
    · exact nofun
    · exact absurd hstage hid

theorem unlocked_of_dependenciesSucceeded {stages : Dict String Stage} {dependencies : List String}
    (h : dependenciesSucceeded stages dependencies = some true) :
    ∀ dependency ∈ dependencies, ∃ other, stages.get? dependency = some other ∧
      other.state = .succeeded := by
  induction dependencies with
  | nil => exact fun _ hmem => absurd hmem List.not_mem_nil
  | cons first rest ih =>
    rw [dependenciesSucceeded, Option.bind_eq_bind, Option.bind_eq_some_iff] at h
    obtain ⟨other, hother, h⟩ := h
    split_ifs at h with hstate
    · exact List.forall_mem_cons.mpr ⟨⟨other, hother, hstate⟩, ih h⟩
    · cases h

theorem readyStages_eq_some {stages : Dict String Stage} {remaining : List String}
    {items found : List Stage} (h : readyStages stages remaining items = some found) :
    found.Sublist items ∧ ∀ stage ∈ found, stage.stageId ∈ remaining ∧ Unlocked stages stage := by
  induction items generalizing found with
  | nil =>
    cases h
    exact ⟨List.Sublist.refl [], fun _ hmem => absurd hmem List.not_mem_nil⟩
  | cons stage rest ih =>
    rw [readyStages] at h
    split_ifs at h with hremaining
    · simp only [Option.bind_eq_bind, Option.bind_eq_some_iff, Option.pure_def] at h
      obtain ⟨succeeded, hsucceeded, ready, hready, h⟩ := h
      obtain ⟨hsublist, hunlocked⟩ := ih hready
      cases succeeded with
      | true =>
        cases h
        exact ⟨hsublist.cons_cons stage, List.forall_mem_cons.mpr
          ⟨⟨hremaining, unlocked_of_dependenciesSucceeded hsucceeded⟩, hunlocked⟩⟩
      | false =>
        cases h
        exact ⟨hsublist.cons stage, hunlocked⟩
    · obtain ⟨hsublist, hunlocked⟩ := ih h
      exact ⟨hsublist.cons stage, hunlocked⟩

/-- The stages that `TaskScheduler.run` finds ready may begin. -/
theorem Sound.ready (h : run.Sound policy) (hopen : run.Open none) {found : List Stage}
    (hfound : readyStages run.stages run.remaining run.stages.values = some found) :
    run.Ready ((found.insertionSort fun a b => a.stageId ≤ b.stageId).map (·.stageId)) := by
  obtain ⟨hsublist, hunlocked⟩ := readyStages_eq_some hfound
  have hperm := (List.perm_insertionSort (fun a b : Stage => a.stageId ≤ b.stageId) found).map
    (·.stageId)
  have hkeys : run.stages.values.map (·.stageId) = run.stages.keys := by
    rw [Dict.values, Dict.keys, List.map_map]
    refine List.map_congr_left fun item hitem => ?_
    exact h.stages item.1 item.2 (Dict.mem_items.mp hitem)
  have hnodup : (run.stages.values.map (·.stageId)).Nodup := hkeys.symm ▸ run.stages.nodup
  refine ⟨hperm.nodup_iff.mpr (hnodup.sublist (hsublist.map _)), fun id hmem => ?_⟩
  obtain ⟨stage, hstage, rfl⟩ := List.mem_map.mp (hperm.mem_iff.mp hmem)
  obtain ⟨⟨id, stage⟩, hitem, rfl⟩ := List.mem_map.mp (hsublist.subset hstage)
  have hget := Dict.mem_items.mp hitem
  have hid := h.stages id stage hget
  obtain ⟨hremaining, hfree⟩ := hunlocked stage hstage
  refine ⟨stage, hid ▸ hget, ?_, hfree⟩
  exact (hopen.others id stage hget nofun).resolve_right
    ((h.remaining id stage hget).mp (hid ▸ hremaining))

/-- A loop that finds no stage left has gone through all. -/
theorem Sound.succeeded_of_remaining (h : run.Sound policy) (hempty : run.remaining = [])
    {id : String} {stage : Stage} (hget : run.stages.get? id = some stage) :
    stage.state = .succeeded := by
  by_contra hstate
  have hmem := (h.remaining id stage hget).mpr hstate
  rw [hempty] at hmem
  cases hmem

/-! ### The end of a stage -/

theorem outcome?_eq_some {task : TaskRun V} {outcome : TaskOutcome V} :
    task.outcome? = some outcome ↔ task.phase = .ended (.ok outcome) := by
  unfold TaskRun.outcome?
  split
  · next hphase => rw [hphase]; simp
  · next hphase => exact iff_of_false nofun fun h => hphase _ h

theorem isEnded_eq_true {task : TaskRun V} :
    task.isEnded = true ↔ ∃ result, task.phase = .ended result := by
  unfold TaskRun.isEnded
  split
  · next result hphase => exact iff_of_true rfl ⟨result, hphase⟩
  · next hphase => exact iff_of_false nofun fun ⟨result, h⟩ => hphase result h

theorem Sound.mem_stageOutcomes (h : run.Sound policy) {stage id : String}
    {outcome : TaskOutcome V} : (id, outcome) ∈ run.stageOutcomes stage ↔ ∃ task,
      run.tasks.get? id = some task ∧ task.task.stageId = stage ∧
      task.phase = .ended (.ok outcome) := by
  have htaskId : ∀ {task : TaskRun V}, task.Sound policy run.cancelled →
      task.phase = .ended (.ok outcome) → outcome.taskId = task.task.taskId := by
    intro task htask hended
    have hphase := htask.phase
    rw [hended] at hphase
    obtain ⟨-, -, -, _, _, -, hid, -⟩ := hphase
    exact hid
  constructor
  · intro hmem
    obtain ⟨outcome', hmem', heq⟩ := List.mem_map.mp hmem
    cases heq
    obtain ⟨task, htask, hsome⟩ := List.mem_filterMap.mp hmem'
    obtain ⟨hget, hstage⟩ := h.get?_of_mem_stageTasks htask
    have hended := outcome?_eq_some.mp hsome
    rw [htaskId (h.tasks _ task hget).2 hended]
    exact ⟨task, hget, hstage, hended⟩
  · rintro ⟨task, hget, hstage, hended⟩
    refine List.mem_map.mpr ⟨outcome, List.mem_filterMap.mpr
      ⟨task, mem_stageTasks_of_get? hget hstage, outcome?_eq_some.mpr hended⟩, ?_⟩
    rw [htaskId (h.tasks _ task hget).2 hended, (h.tasks _ task hget).1]

theorem Sound.nodup_stageOutcomes (h : run.Sound policy) (stage : String) :
    ((run.stageOutcomes stage).map Prod.fst).Nodup := by
  have hvalues : (run.tasks.values.map (·.task.taskId)).Nodup := by
    have hkeys : run.tasks.values.map (·.task.taskId) = run.tasks.keys := by
      rw [Dict.values, Dict.keys, List.map_map]
      refine List.map_congr_left fun item hitem => ?_
      exact (h.tasks item.1 item.2 (Dict.mem_items.mp hitem)).1
    exact hkeys ▸ run.tasks.nodup
  have hstage : ((run.stageTasks stage).map (·.task.taskId)).Nodup := by
    have hperm := (List.perm_insertionSort (fun a b : TaskRun V => a.task.ordinal ≤ b.task.ordinal)
      (run.tasks.values.filter (·.task.stageId = stage))).map (·.task.taskId)
    exact hperm.nodup_iff.mpr (hvalues.sublist (List.filter_sublist.map _))
  have hsublist : ((run.stageOutcomes stage).map Prod.fst).Sublist
      ((run.stageTasks stage).map (·.task.taskId)) := by
    have hsound : ∀ task ∈ run.stageTasks stage, task.Sound policy run.cancelled := fun task hmem =>
      (h.tasks _ task (h.get?_of_mem_stageTasks hmem).1).2
    rw [stageOutcomes, List.map_map]
    generalize run.stageTasks stage = tasks at hsound ⊢
    clear hstage hvalues
    induction tasks with
    | nil => exact List.Sublist.refl []
    | cons task tasks ih =>
      obtain ⟨htask, htasks⟩ := List.forall_mem_cons.mp hsound
      rw [List.filterMap_cons, List.map_cons]
      split
      · exact (ih htasks).cons _
      · next outcome hsome =>
        have hphase := htask.phase
        rw [outcome?_eq_some.mp hsome] at hphase
        obtain ⟨-, -, -, _, _, -, hid, -⟩ := hphase
        rw [List.map_cons, ← hid]
        exact (ih htasks).cons_cons _
  exact hstage.sublist hsublist

theorem Sound.complete (h : run.Sound policy) {stage : String} {ready : List String}
    (hopen : run.Open (some stage)) (hready : run.Ready ready)
    (hall : ∀ task ∈ run.stageTasks stage, task.outcome?.isSome = true) :
    (run.complete stage ready).Sound policy := by
  obtain ⟨active, hactive, hrunning⟩ := hopen.active stage rfl
  have hnew : ∀ {id : String} {task : TaskRun V}, run.tasks.get? id = some task →
      task.task.stageId ≠ stage → (run.complete stage ready).outcomes.get? id
        = run.outcomes.get? id := by
    intro id task hget hstage
    refine Dict.get?_update_of_notMem fun hmem => ?_
    obtain ⟨⟨id, outcome⟩, hitem, rfl⟩ := List.mem_map.mp hmem
    obtain ⟨other, hother, hstage', -⟩ := h.mem_stageOutcomes.mp hitem
    cases hget.symm.trans hother
    exact hstage hstage'
  have hstage : ∀ id other', (run.complete stage ready).stages.get? id = some other' → ∃ other,
      run.stages.get? id = some other ∧
      other' = if id = stage then { other with state := .succeeded } else other := by
    intro id other' hget
    have hget' := (Dict.get?_map _ _ _).symm.trans hget
    obtain ⟨other, hother, rfl⟩ := Option.map_eq_some_iff.mp hget'
    exact ⟨other, hother, rfl⟩
  have hkept : ∀ id other, run.stages.get? id = some other →
      (run.complete stage ready).stages.get? id
        = some (if id = stage then { other with state := .succeeded } else other) := by
    intro id other hother
    exact (Dict.get?_map _ _ _).trans (by rw [hother, Option.map_some])
  have hunlocked : ∀ {other : Stage}, Unlocked run.stages other →
      Unlocked (run.complete stage ready).stages other := by
    intro other hfree
    refine hfree.mono fun id other hother hsucceeded => ⟨_, hkept id other hother, ?_⟩
    split_ifs
    · rfl
    · exact hsucceeded
  refine ⟨h.tasks, fun id other' hget => ?_, fun id other' hget => ?_, fun id task hget hphase => ?_,
    fun id other' hget hsucceeded taskId task hget' hid => ?_, fun taskId outcome houtcome => ?_,
    ⟨fun id other' hget _ => ?_, nofun, hopen.idle⟩, hready.1, fun id hmem => ?_⟩
  · obtain ⟨other, hother, rfl⟩ := hstage id other' hget
    split_ifs
    · exact h.stages id other hother
    · exact h.stages id other hother
  · obtain ⟨other, hother, rfl⟩ := hstage id other' hget
    rw [show (run.complete stage ready).remaining = run.remaining.filter (· ≠ stage) from rfl,
      List.mem_filter, h.remaining id other hother]
    split_ifs with hid
    · simp [hid]
    · simp [hid]
  · obtain ⟨other, hother, hpending, hfree⟩ := h.begun id task hget hphase
    refine ⟨_, hkept _ other hother, ?_, ?_⟩
    · split_ifs
      · exact nofun
      · exact hpending
    · split_ifs
      · exact hunlocked hfree
      · exact hunlocked hfree
  · obtain ⟨other, hother, rfl⟩ := hstage id other' hget
    by_cases hidstage : id = stage
    · have hsome := hall task (mem_stageTasks_of_get? hget' (hid.trans hidstage))
      obtain ⟨outcome, houtcome⟩ := Option.isSome_iff_exists.mp hsome
      have hended := outcome?_eq_some.mp houtcome
      refine ⟨outcome, hended, Dict.get?_update_of_mem (h.nodup_stageOutcomes stage) ?_⟩
      exact h.mem_stageOutcomes.mpr ⟨task, hget', hid.trans hidstage, hended⟩
    · rw [if_neg hidstage] at hsucceeded
      obtain ⟨outcome, hended, houtcome⟩ := h.succeeded id other hother hsucceeded taskId task hget' hid
      exact ⟨outcome, hended, (hnew hget' (hid ▸ hidstage)).trans houtcome⟩
  · rcases Dict.mem_of_get?_update houtcome with hmem | hold
    · obtain ⟨task, hget, hid, hended⟩ := h.mem_stageOutcomes.mp hmem
      refine ⟨task, { active with state := .succeeded }, hget, hended, ?_, rfl⟩
      rw [hid, hkept stage active hactive, if_pos rfl]
    · obtain ⟨task, other, hget, hended, hother, hsucceeded⟩ := h.outcomes taskId outcome hold
      refine ⟨task, _, hget, hended, hkept _ other hother, ?_⟩
      split_ifs
      · rfl
      · exact hsucceeded
  · obtain ⟨other, hother, rfl⟩ := hstage id other' hget
    split_ifs with hid
    · exact Or.inr rfl
    · exact hopen.others id other hother fun heq => hid (Option.some.inj heq).symm
  · obtain ⟨other, hother, hpending, hfree⟩ := hready.2 id hmem
    have hid : id ≠ stage := by
      rintro rfl
      cases hactive.symm.trans hother
      cases hrunning.symm.trans hpending
    refine ⟨other, (hkept id other hother).trans (by rw [if_neg hid]), hpending, hunlocked hfree⟩

/-- The active stage ends without success. -/
theorem stageFollows_active {stage : String} (hopen : run.Open (some stage)) (state : StageState)
    (hsucceeded : state ≠ .succeeded) (hpending : state ≠ .pending) :
    ∀ id other, run.stages.get? id = some other →
      StageFollows other (if id = stage then { other with state := state } else other) := by
  intro id other hother
  split_ifs with hid
  · obtain ⟨active, hactive, hrunning⟩ := hopen.active stage rfl
    subst hid
    cases hactive.symm.trans hother
    refine ⟨rfl, rfl, iff_of_false hsucceeded ?_, fun _ => hpending⟩
    rw [hrunning]
    exact nofun
  · exact .refl other

theorem Sound.failStage (h : run.Sound policy) {stage : String} (hopen : run.Open (some stage))
    (failure : RunFailure) : Sound policy { run with
      stages := run.stages.modify stage ({ · with state := .failed })
      control := .raised failure } := by
  have hmap := h.map _ (fun _ task => task) (.raised failure)
    (stageFollows_active hopen StageState.failed nofun nofun)
    (fun id task hget => h.taskFollows _ hget (Or.inl rfl)) trivial
  rwa [Dict.map_id] at hmap

theorem Sound.closeStage (h : run.Sound policy) {stage : String} (hopen : run.Open (some stage))
    (hall : ∀ task ∈ run.stageTasks stage, task.isEnded = true) (failure : RunFailure) :
    Sound policy { run.closeStage stage with control := .raised failure } := by
  refine h.map _ (fun _ task => if task.task.stageId = stage ∧
      (task.task.state = TaskState.pending ∨ task.task.state = TaskState.running) then
    task.cancelTask else task) (.raised failure)
    (stageFollows_active hopen StageState.canceled nofun nofun) (fun id task hget => ?_) trivial
  refine h.taskFollows _ hget ?_
  split_ifs with hclosed
  · have hended := hall task (mem_stageTasks_of_get? hget hclosed.1)
    exact Or.inr ⟨rfl, Or.inr ⟨isEnded_eq_true.mp hended, hclosed.2⟩⟩
  · exact Or.inl rfl

/-- A stage that is closed leaves pending only what has not begun. -/
theorem idle_of_closeStage (h : run.Sound policy) {stage : String} (hopen : run.Open (some stage))
    {id : String} {task' : TaskRun V}
    (hget : (run.closeStage stage).tasks.get? id = some task')
    (hpending : task'.task.state = .pending) : task'.phase = .idle := by
  have hget' := (Dict.get?_map _ _ _).symm.trans hget
  obtain ⟨task, htask, rfl⟩ := Option.map_eq_some_iff.mp hget'
  split_ifs at hpending ⊢ with hclosed
  · cases hpending
  · have hactive : some stage ≠ some task.task.stageId := fun heq =>
      hclosed ⟨(Option.some.inj heq).symm, Or.inl hpending⟩
    refine (h.idle_or_ok hopen htask hactive).resolve_right fun ⟨outcome, hended⟩ => ?_
    cases (state_of_ok (h.tasks id task htask).2 hended).symm.trans hpending

/-- Every step of a run keeps what holds of it. -/
theorem Sound.step (h : run.Sound policy) {event : RunEvent V}
    (hstep : run.step policy event = some run') : run'.Sound policy := by
  have hcontrol := h.control
  cases steps_of_step hstep with
  | cancelled => exact h.cancel
  | started stage ready hlooping =>
    rcases hlooping with hlooping | ⟨hlooping, found, hfound, hsorted⟩
    · rw [hlooping] at hcontrol
      exact h.startStage hcontrol.1 hcontrol.2
    · rw [hlooping] at hcontrol
      have hready := h.ready hcontrol.1 hfound
      rw [hsorted] at hready
      exact h.startStage hcontrol.1 hready
  | returned _ hempty => exact h.setControl (Or.inr fun _ _ => h.succeeded_of_remaining hempty)
  | stuck => exact h.setControl trivial
  | completed stage ready hgathering hall =>
    rw [hgathering] at hcontrol
    obtain ⟨hopen, hready, -, -⟩ := hcontrol
    exact h.complete hopen hready hall
  | stopped _ cancelled stage ready failure hgathering hcancelled =>
    rw [hgathering] at hcontrol
    obtain ⟨hopen, -, -, hfailure⟩ := hcontrol
    refine h.setControl ⟨hopen, fun htrue => ?_⟩
    obtain ⟨place, rfl⟩ := hcancelled htrue
    exact hfailure place rfl
  | failed _ stage ready failure hgathering =>
    rw [hgathering] at hcontrol
    exact h.failStage hcontrol.1 _
  | interrupted => exact h.setControl trivial
  | closed stage _ failure hsettling hended =>
    rw [hsettling] at hcontrol
    exact h.closeStage hcontrol.1 hended failure
  | ended stage hsettling hended =>
    rw [hsettling] at hcontrol
    obtain ⟨hopen, hcancelled⟩ := hcontrol
    have hclosed := h.closeStage hopen hended .interrupted
    exact hclosed.cancelPending (hcancelled rfl) fun id task hget hpending =>
      idle_of_closeStage h hopen hget hpending
  | moved taskId move task task' hget htask =>
    have hset := h.setTask hget (TaskRun.follows_of_step htask)
      ((h.tasks taskId task hget).2.step htask)
    exact hset.hear ((Dict.get?_set _ taskId taskId task').trans (if_pos rfl))
  | executed taskId number execution task task' hget htask =>
    exact h.setTask hget (TaskRun.follows_of_stepExecution htask)
      ((h.tasks taskId task hget).2.stepExecution htask)

/-! ### Runs -/

/-- A run begins with what its graph gives it. -/
theorem stage_of_start {graph : StageGraph} (hstart : start graph = some run) {id : String}
    {stage : Stage} (hget : run.stages.get? id = some stage) :
    stage.stageId = id ∧ stage.state = .pending := by
  obtain ⟨root, -, rfl⟩ := Option.map_eq_some_iff.mp hstart
  rcases Dict.mem_of_get?_update hget with hmem | hempty
  · obtain ⟨stage, hstage, heq⟩ := List.mem_map.mp hmem
    cases heq
    exact ⟨rfl, graph.stages_pending stage hstage⟩
  · cases hempty

theorem task_of_start {graph : StageGraph} (hstart : start graph = some run) {id : String}
    {task : TaskRun V} (hget : run.tasks.get? id = some task) :
    task.task.taskId = id ∧ task.task.state = .pending ∧ task = { task := task.task } := by
  obtain ⟨root, -, rfl⟩ := Option.map_eq_some_iff.mp hstart
  rcases Dict.mem_of_get?_update hget with hmem | hempty
  · obtain ⟨task, htask, heq⟩ := List.mem_map.mp hmem
    cases heq
    exact ⟨rfl, graph.tasks_pending task htask, rfl⟩
  · cases hempty

theorem Sound.start {graph : StageGraph} (hstart : start graph = some run) : run.Sound policy := by
  have hstage := @stage_of_start V run graph hstart
  have htask := @task_of_start V run graph hstart
  obtain ⟨root, -, rfl⟩ := Option.map_eq_some_iff.mp hstart
  refine ⟨fun id task hget => ?_, fun id stage hget => (hstage hget).1,
    fun id stage hget => ?_, fun id task hget hphase => ?_, fun id stage hget hstate => ?_,
    fun taskId outcome hget => ?_, ⟨fun id stage hget _ => Or.inl (hstage hget).2, nofun,
    fun id task hget _ => (htask hget).2.1⟩, List.nodup_nil,
    fun _ hmem => absurd hmem List.not_mem_nil⟩
  · obtain ⟨hid, hpending, htask⟩ := htask hget
    refine ⟨hid, ?_⟩
    rw [htask]
    exact ⟨rfl, fun _ hmem => absurd hmem List.not_mem_nil, rfl, rfl, Or.inl hpending⟩
  · refine iff_of_true ?_ ?_
    · exact List.mem_map.mpr ⟨(id, stage), Dict.mem_items.mpr hget, rfl⟩
    · rw [(hstage hget).2]
      exact nofun
  · rw [(htask hget).2.2] at hphase
    exact absurd rfl hphase
  · cases (hstage hget).2.symm.trans hstate
  · cases hget

theorem Sound.reaches {graph : StageGraph} {events : List (RunEvent V)}
    (h : Reaches policy graph events run) : run.Sound policy := by
  obtain ⟨first, hstart, hrun⟩ := h
  exact hrun.invariant (.start hstart) fun run event run' _ hsound hstep => hsound.step hstep

/-- What steps keep of runs that are sound. -/
theorem Sound.invariant {events : List (RunEvent V)} (h : run.Sound policy)
    (hrun : Runs (fun run event run' => run.step policy event = some run') run events run')
    {P : SchedulerRun V → Prop} (hP : P run)
    (hstep : ∀ {run event run'}, Sound policy run → P run → run.step policy event = some run' →
      P run') : run'.Sound policy ∧ P run' :=
  hrun.invariant (P := fun run => run.Sound policy ∧ P run) ⟨h, hP⟩
    fun _ _ _ _ ⟨h, hP⟩ hlast => ⟨h.step hlast, hstep h hP hlast⟩

/-- An attempt whose execution is in progress is the latest of its task. -/
theorem inProgress_le_one {token : Bool} {task : TaskRun V} (h : task.Sound policy token) :
    task.attempts.countP (·.inProgress) ≤ 1 := by
  have hquiet : ∀ attempts : List (AttemptRun V), TaskRun.Quiet attempts →
      attempts.countP (·.inProgress) = 0 := fun attempts hquiet =>
    List.countP_eq_zero.mpr fun attempt hmem => by simp [hquiet attempt hmem]
  have hexecuting : ∀ {current : AttemptRun V} {earlier : List (AttemptRun V)},
      TaskRun.Executing policy task current earlier → task.attempts.countP (·.inProgress) ≤ 1 := by
    intro current earlier hexecuting
    rw [hexecuting.attempts, List.countP_cons, hquiet earlier hexecuting.quiet]
    split_ifs <;> omega
  have hphase := h.phase
  match task.phase, hphase with
  | .idle, hphase => simp [hphase.1]
  | .starting, hphase => simp [hphase.1]
  | .choosing, hphase => simp [hquiet _ hphase.1]
  | .waiting _, ⟨_, _, h⟩ => exact hexecuting h
  | .confirming _, ⟨_, _, h, _⟩ => exact hexecuting h
  | .settling _ _, ⟨_, _, h, _⟩ => exact hexecuting h
  | .discarding _, ⟨_, _, h, _⟩ => exact hexecuting h
  | .backoff, hphase => simp [hquiet _ hphase.1]
  | .ended _, hphase => simp [hquiet _ hphase.1]

theorem length_le_maxAttempts {token : Bool} {task : TaskRun V} (h : task.Sound policy token) :
    task.attempts.length ≤ policy.maxAttempts := by
  have hexecuting : ∀ {current : AttemptRun V} {earlier : List (AttemptRun V)},
      TaskRun.Executing policy task current earlier →
      task.attempts.length ≤ policy.maxAttempts := by
    intro current earlier hexecuting
    rw [hexecuting.attempts, List.length_cons, hexecuting.number]
    exact hexecuting.bound
  have hphase := h.phase
  match task.phase, hphase with
  | .idle, hphase => simp [hphase.1]
  | .starting, hphase => simp [hphase.1]
  | .choosing, hphase => exact hphase.2.1.trans_le hphase.2.2.1.le
  | .waiting _, ⟨_, _, h⟩ => exact hexecuting h
  | .confirming _, ⟨_, _, h, _⟩ => exact hexecuting h
  | .settling _ _, ⟨_, _, h, _⟩ => exact hexecuting h
  | .discarding _, ⟨_, _, h, _⟩ => exact hexecuting h
  | .backoff, hphase => exact hphase.2.1.trans_le hphase.2.2.1.le
  | .ended _, hphase => exact hphase.2.1

/-- No two attempts of a run have the same id. -/
theorem Sound.nodup_attemptIds (h : run.Sound policy) : run.attemptIds.Nodup := by
  have hitem : ∀ item ∈ run.tasks.items, ∀ id ∈ item.2.attempts.map (·.attempt.attemptId),
      ∃ number, id = attemptName item.1 number := by
    intro item hitem id hmem
    obtain ⟨htaskId, htask⟩ := h.tasks item.1 item.2 (Dict.mem_items.mp hitem)
    rw [htask.ids, List.mem_reverse, htaskId] at hmem
    obtain ⟨number, -, rfl⟩ := List.mem_map.mp hmem
    exact ⟨number, rfl⟩
  have hkeys : run.tasks.items.Pairwise fun a b => a.1 ≠ b.1 := List.pairwise_map.mp run.tasks.nodup
  rw [attemptIds, Dict.values, List.flatMap_map, List.nodup_flatMap]
  refine ⟨fun item hmem => ?_, hkeys.imp_of_mem fun {a b} ha hb hne => ?_⟩
  · obtain ⟨-, htask⟩ := h.tasks item.1 item.2 (Dict.mem_items.mp hmem)
    rw [htask.ids, List.nodup_reverse]
    exact List.nodup_range.map fun _ _ heq => (TaskRun.attemptName_inj heq).2
  · intro id hida hidb
    obtain ⟨number, rfl⟩ := hitem a ha id hida
    obtain ⟨number', heq⟩ := hitem b hb _ hidb
    exact hne (TaskRun.attemptName_inj heq).1

/-- The tasks of a stage that has succeeded have succeeded. -/
theorem Sound.tasks_succeeded (h : run.Sound policy) {id taskId : String} {stage : Stage}
    {task : TaskRun V} (hstage : run.stages.get? id = some stage)
    (hsucceeded : stage.state = .succeeded) (hget : run.tasks.get? taskId = some task)
    (hid : task.task.stageId = id) : task.task.state = .succeeded := by
  obtain ⟨outcome, hended, -⟩ := h.succeeded id stage hstage hsucceeded taskId task hget hid
  exact state_of_ok (h.tasks taskId task hget).2 hended

theorem outcomes_startStage (run : SchedulerRun V) (stage : String) (ready : List String) :
    (run.startStage stage ready).outcomes = run.outcomes := by
  unfold SchedulerRun.startStage
  split_ifs <;> rfl

/-- A stage that completes adds its outcomes, of which none was there. -/
theorem Sound.outcomes_complete (h : run.Sound policy) {stage : String} {ready : List String}
    (hopen : run.Open (some stage)) :
    (run.complete stage ready).outcomes.items = run.outcomes.items ++ run.stageOutcomes stage := by
  obtain ⟨active, hactive, hrunning⟩ := hopen.active stage rfl
  refine Dict.items_update_of_new (h.nodup_stageOutcomes stage) ?_
  rintro ⟨id, outcome⟩ hmem
  obtain ⟨task, hget, hid, -⟩ := h.mem_stageOutcomes.mp hmem
  refine Option.eq_none_iff_forall_ne_some.mpr fun old hold => ?_
  obtain ⟨other, succeeded, hother, -, hstage, hsucceeded⟩ := h.outcomes id old hold
  cases hget.symm.trans hother
  rw [hid] at hstage
  cases hactive.symm.trans hstage
  cases hrunning.symm.trans hsucceeded

/-- A step adds outcomes, and changes none. -/
theorem Sound.outcomes_step (h : run.Sound policy) {event : RunEvent V}
    (hstep : run.step policy event = some run') :
    ∃ added, run'.outcomes.items = run.outcomes.items ++ added := by
  have hsame : run'.outcomes = run.outcomes →
      ∃ added, run'.outcomes.items = run.outcomes.items ++ added :=
    fun heq => ⟨[], by rw [heq, List.append_nil]⟩
  have hcontrol := h.control
  cases steps_of_step hstep with
  | completed stage ready hgathering =>
    rw [hgathering] at hcontrol
    exact ⟨_, h.outcomes_complete hcontrol.1⟩
  | started stage ready => exact hsame (outcomes_startStage run stage ready)
  | cancelled => exact hsame rfl
  | returned => exact hsame rfl
  | stuck => exact hsame rfl
  | stopped => exact hsame rfl
  | failed => exact hsame rfl
  | interrupted => exact hsame rfl
  | closed => exact hsame rfl
  | ended => exact hsame rfl
  | moved => exact hsame rfl
  | executed => exact hsame rfl

/-- No attempt of a stage before all tasks of its dependencies have succeeded; one execution
of a task at a time, no more attempts than allowed, and no two with one id; outcomes of
tasks that have succeeded, by their last attempts, and none that changes; and when a run
returns that is not canceled, an outcome of every task of its stages. -/
theorem run_safe {graph : StageGraph} {events : List (RunEvent V)}
    (hrun : Reaches policy graph events run) :
    (∀ taskId task, run.tasks.get? taskId = some task → task.attempts ≠ [] → ∃ stage,
      run.stages.get? task.task.stageId = some stage ∧
      ∀ dependency ∈ stage.dependencyStageIds, ∀ otherId other,
        run.tasks.get? otherId = some other → other.task.stageId = dependency →
        other.task.state = .succeeded) ∧
    (∀ taskId task, run.tasks.get? taskId = some task →
      task.attempts.countP (·.inProgress) ≤ 1 ∧ task.attempts.length ≤ policy.maxAttempts) ∧
    run.attemptIds.Nodup ∧
    (∀ taskId outcome, run.outcomes.get? taskId = some outcome → ∃ task last earlier,
      run.tasks.get? taskId = some task ∧ task.task.state = .succeeded ∧
      task.attempts = last :: earlier ∧ outcome.taskId = taskId ∧
      outcome.attemptId = last.attempt.attemptId ∧ outcome.workerId = last.worker ∧
      last.phase = .ended (.ok outcome.value)) ∧
    (∀ event run', run.step policy event = some run' →
      ∃ added, run'.outcomes.items = run.outcomes.items ++ added) ∧
    (run.control = .returned → run.cancelled = false → ∀ taskId task stage,
      run.tasks.get? taskId = some task → run.stages.get? task.task.stageId = some stage →
      ∃ outcome, run.outcomes.get? taskId = some outcome) := by
  have hsound : run.Sound policy := .reaches hrun
  refine ⟨fun taskId task hget hattempts => ?_, fun taskId task hget => ?_, hsound.nodup_attemptIds,
    fun taskId outcome houtcome => ?_, fun event run' hstep => hsound.outcomes_step hstep,
    fun hreturned hcancelled taskId task stage hget hstage => ?_⟩
  · have hphase : task.phase ≠ .idle := by
      intro hidle
      have hphase := (hsound.tasks taskId task hget).2.phase
      rw [hidle] at hphase
      exact hattempts hphase.1
    obtain ⟨stage, hstage, -, hunlocked⟩ := hsound.begun taskId task hget hphase
    refine ⟨stage, hstage, fun dependency hmem otherId other hother hid => ?_⟩
    obtain ⟨before, hbefore, hsucceeded⟩ := hunlocked dependency hmem
    exact hsound.tasks_succeeded hbefore hsucceeded hother hid
  · have htask := (hsound.tasks taskId task hget).2
    exact ⟨inProgress_le_one htask, length_le_maxAttempts htask⟩
  · obtain ⟨task, stage, hget, hended, -⟩ := hsound.outcomes taskId outcome houtcome
    obtain ⟨htaskId, htask⟩ := hsound.tasks taskId task hget
    have hphase := htask.phase
    rw [hended] at hphase
    obtain ⟨-, -, hstate, last, earlier, hattempts, hid, hattemptId, hworker, hvalue⟩ := hphase
    exact ⟨task, last, earlier, hget, hstate, hattempts, hid.trans htaskId, hattemptId, hworker,
      hvalue⟩
  · have hcontrol := hsound.control
    rw [hreturned] at hcontrol
    rcases hcontrol with htrue | hall
    · cases hcancelled.symm.trans htrue
    · obtain ⟨outcome, -, houtcome⟩ := hsound.succeeded _ stage hstage (hall _ stage hstage) taskId
        task hget rfl
      exact ⟨outcome, houtcome⟩

/-- Two stages of one task each, one after the other. -/
def sampleGraph : StageGraph where
  rootStageId := "join"
  stages :=
    [{ stageId := "scan", queryId := "query" },
      { stageId := "join", queryId := "query", dependencyStageIds := ["scan"] }]
  tasks :=
    [{ taskId := "scan-0", queryId := "query", stageId := "scan", ordinal := 0 },
      { taskId := "join-0", queryId := "query", stageId := "join", ordinal := 0 }]
  stages_pending := by decide
  tasks_pending := by decide

/-- An attempt that succeeds with `value`, from the choice of its worker. -/
def succeedingAttempt (taskId : String) (number turn value : ℕ) : List (RunEvent ℕ) :=
  [.coroutine taskId (.choose (.ok ["worker-1", "worker-2"]) turn),
    .execution taskId number (.acquire true), .execution taskId number .submit,
    .execution taskId number .pick, .execution taskId number .post,
    .execution taskId number .deliver, .coroutine taskId .wake,
    .execution taskId number (.finish (.ok value)), .coroutine taskId .wake,
    .coroutine taskId (.confirm (.ok true)), .coroutine taskId (.settle false false)]

/-- The first attempt of the scan loses its worker, the second succeeds. -/
def sampleEvents : List (RunEvent ℕ) :=
  [.advance, .coroutine "scan-0" .begin,
    .coroutine "scan-0" (.choose (.ok ["worker-1", "worker-2"]) 0),
    .execution "scan-0" 0 (.acquire true), .execution "scan-0" 0 (.leaseEnds .lost),
    .coroutine "scan-0" .wake, .execution "scan-0" 0 (.finish (.error .interrupted)),
    .coroutine "scan-0" (.settle false false), .coroutine "scan-0" .discarded,
    .coroutine "scan-0" .retry]
  ++ succeedingAttempt "scan-0" 1 1 3
  ++ [.gathered false, .advance, .coroutine "join-0" .begin]
  ++ succeedingAttempt "join-0" 0 2 4
  ++ [.gathered false, .advance]

theorem run_safe_sample : ∃ run : SchedulerRun ℕ,
    Reaches {} sampleGraph sampleEvents run ∧ run.control = .returned ∧
    (∃ outcome, run.outcomes.get? "scan-0" = some outcome) ∧
    ∃ outcome, run.outcomes.get? "join-0" = some outcome := by
  obtain ⟨first, run, hstart, hfold, hreturned, hcancelled, ⟨scan, hscan, hscanStage⟩,
      ⟨join, hjoin, hjoinStage⟩, ⟨scanStage, hstage⟩, joinStage, hstage'⟩ :
      ∃ first run : SchedulerRun ℕ, start sampleGraph = some first ∧
      sampleEvents.foldlM (fun run event => run.step {} event) first = some run ∧
      run.control = .returned ∧ run.cancelled = false ∧
      (∃ task, run.tasks.get? "scan-0" = some task ∧ task.task.stageId = "scan") ∧
      (∃ task, run.tasks.get? "join-0" = some task ∧ task.task.stageId = "join") ∧
      (∃ stage, run.stages.get? "scan" = some stage) ∧
      ∃ stage, run.stages.get? "join" = some stage :=
    ⟨_, _, rfl, rfl, rfl, rfl, ⟨_, rfl, rfl⟩, ⟨_, rfl, rfl⟩, ⟨_, rfl⟩, _, rfl⟩
  have hrun : Reaches {} sampleGraph sampleEvents run := ⟨first, hstart, Runs.of_foldlM hfold⟩
  have houtcome := (run_safe hrun).2.2.2.2.2 hreturned hcancelled
  exact ⟨run, hrun, hreturned, houtcome "scan-0" scan scanStage hscan (hscanStage.symm ▸ hstage),
    houtcome "join-0" join joinStage hjoin (hjoinStage.symm ▸ hstage')⟩

end SchedulerRun

end DistributedSql
