/-
Runs that share one scheduler (`TaskScheduler.run` and `cancel` in
`execution/scheduler.py`).

The scheduler has one cancellation token for a query, that of the run which began last.  A
run that ends takes away the token of its query, whichever run it belongs to.

Main results:
* `cancelReaches_iff` — `cancel` reaches every run of a query that is in progress exactly
  when each of them that is not canceled yet has been the only one to begin or to end since
  it began;
* `not_cancelReaches` — two runs of a query of which the first is not reached.
-/
import DistributedSql.AttemptStates
import DistributedSql.FailedRuns

namespace DistributedSql

/-- `TaskScheduler` with its runs in the order in which they began; its cancellation tokens
are the numbers of the runs they belong to. -/
structure TaskScheduler (V : Type*) where
  cancellations : Dict String ℕ := Dict.empty
  nextWorker : ℕ := 0
  runs : List (SchedulerRun V) := []

/-- What may happen of a scheduler. -/
inductive SchedulerEvent (V : Type*)
  | run (graph : StageGraph)
  | cancel (queryId : String)
  | step (index : ℕ) (event : RunEvent V)

namespace TaskScheduler

variable {V : Type*} (scheduler : TaskScheduler V)

/-- `TaskScheduler.run` registers the token of a new run. -/
def begin (run : SchedulerRun V) : TaskScheduler V :=
  { scheduler with
    cancellations := scheduler.cancellations.set run.queryId scheduler.runs.length
    runs := scheduler.runs ++ [run] }

/-- `TaskScheduler.cancel`. -/
def cancel (queryId : String) : TaskScheduler V :=
  match scheduler.cancellations.get? queryId with
  | some index =>
      { scheduler with
        runs := scheduler.runs.modify index fun run => { run with cancelled := true } }
  | none => scheduler

/-- `_next_worker` after a step of a run, which takes its turn from here.  A token is
canceled by `cancel` only. -/
def turnAfter : RunEvent V → Option ℕ
  | .cancel => none
  | .coroutine _ (.choose (.ok healthy) turn) =>
      if turn ≠ scheduler.nextWorker then none
      else some (if healthy.isEmpty then turn else turn + 1)
  | _ => some scheduler.nextWorker

/-- Whether a step ends a run. -/
def ends (run run' : SchedulerRun V) : Bool := run.control.isLive && !run'.control.isLive

/-- A run has taken a step; the `finally` of `TaskScheduler.run` ends a registration. -/
def put (index turn : ℕ) (run run' : SchedulerRun V) : TaskScheduler V where
  cancellations :=
    if ends run run' then scheduler.cancellations.erase run.queryId else scheduler.cancellations
  nextWorker := turn
  runs := scheduler.runs.set index run'

/-- One step, `none` when it cannot happen now. -/
def step (policy : RetryPolicy) : SchedulerEvent V → Option (TaskScheduler V)
  | .run graph => match SchedulerRun.start graph with
      | some run => some (scheduler.begin run)
      | none => some scheduler
  | .cancel queryId => some (scheduler.cancel queryId)
  | .step index event =>
      match scheduler.runs[index]?, scheduler.turnAfter event with
      | some run, some turn => (run.step policy event).map (scheduler.put index turn run)
      | _, _ => none

/-- `events` take a scheduler to another. -/
def Steps (policy : RetryPolicy) (scheduler : TaskScheduler V) (events : List (SchedulerEvent V))
    (scheduler' : TaskScheduler V) : Prop :=
  Runs (fun scheduler event scheduler' => scheduler.step policy event = some scheduler')
    scheduler events scheduler'

end TaskScheduler

/-! ### A run that is canceled -/

namespace TaskRun

variable {V : Type*} {policy : RetryPolicy} {token : Bool} {run run' : TaskRun V}

/-- Every execution that runs has run before. -/
def StartsNothing (run run' : TaskRun V) : Prop :=
  ∀ number attempt', run'.attempt? number = some attempt' → attempt'.phase = .running →
    ∃ attempt, run.attempt? number = some attempt ∧ attempt.phase = .running

theorem StartsNothing.refl (run : TaskRun V) : run.StartsNothing run :=
  fun _ attempt hget hrunning => ⟨attempt, hget, hrunning⟩

theorem StartsNothing.trans {run'' : TaskRun V} (h : run.StartsNothing run')
    (h' : run'.StartsNothing run'') : run.StartsNothing run'' := by
  intro number attempt'' hget hrunning
  obtain ⟨attempt', hget', hrunning'⟩ := h' number attempt'' hget hrunning
  exact h number attempt' hget' hrunning'

/-- Attempts stay where they are, and those that are new do not run yet. -/
theorem startsNothing_of_forall₂ (added : List (AttemptRun V)) {kept : List (AttemptRun V)}
    (hattempts : run'.attempts = added ++ kept)
    (hadded : ∀ attempt ∈ added, attempt.phase ≠ .running)
    (h : List.Forall₂ (fun attempt' attempt => attempt'.phase = .running → attempt.phase = .running)
      kept run.attempts) : run.StartsNothing run' := by
  intro number attempt' hget hrunning
  rw [attempt?, hattempts, List.reverse_append] at hget
  by_cases hnumber : number < kept.reverse.length
  · rw [List.getElem?_append_left hnumber] at hget
    obtain ⟨attempt, hget', hphase⟩ := exists_getElem?_of_forall₂ (List.forall₂_reverse_iff.mpr h) hget
    exact ⟨attempt, hget', hphase hrunning⟩
  · rw [List.getElem?_append_right (not_lt.mp hnumber)] at hget
    have hmem := List.mem_of_getElem? hget
    exact absurd hrunning (hadded attempt' (List.mem_reverse.mp hmem))

theorem startsNothing_of_eq (h : run'.attempts = run.attempts) : run.StartsNothing run' :=
  startsNothing_of_forall₂ [] h (fun _ hmem => absurd hmem List.not_mem_nil)
    (List.forall₂_same.mpr fun _ _ h => h)

/-- The coroutine starts no execution. -/
theorem startsNothing_of_moves (h : Moves policy token run run') : run.StartsNothing run' := by
  have hcurrent : ∀ (current current' : AttemptRun V) (earlier : List (AttemptRun V)),
      run.attempts = current :: earlier → run'.attempts = current' :: earlier →
      current'.phase = current.phase → run.StartsNothing run' := by
    intro current current' earlier hattempts hattempts' hphase
    refine startsNothing_of_forall₂ [] hattempts' (fun _ hmem => absurd hmem List.not_mem_nil) ?_
    rw [hattempts]
    exact .cons (fun hrunning => hphase ▸ hrunning) (List.forall₂_same.mpr fun _ _ h => h)
  have hadded : ∀ {run' : TaskRun V} (attempt : AttemptRun V),
      run'.attempts = attempt :: run.attempts → attempt.phase ≠ .running →
      run.StartsNothing run' := by
    intro run' attempt hattempts hphase
    refine startsNothing_of_forall₂ [attempt] hattempts (fun _ hmem => ?_)
      (List.forall₂_same.mpr fun _ _ h => h)
    rwa [List.mem_singleton.mp hmem]
  cases h with
  | attempted worker => exact hadded _ rfl nofun
  | noWorker message =>
    unfold TaskRun.noWorker
    split
    · exact startsNothing_of_eq rfl
    · next hnil =>
      refine hadded _ (congrArg _ hnil.symm) ?_
      exact nofun
  | left current earlier _ _ _ hattempts =>
    exact hcurrent current _ earlier hattempts rfl current.requestCancel_phase
  | concluded current earlier _ _ _ _ _ _ hattempts =>
    rcases attempts_conclude run token current earlier (settledResult _ _ _ _ _ _) with
        heq | ⟨state, -, heq⟩
    · exact startsNothing_of_eq heq
    · exact hcurrent current _ earlier hattempts heq rfl
  | failed error current earlier _ hattempts =>
    obtain ⟨detail, heq⟩ := attempts_fail run policy current earlier error
    exact hcurrent current _ earlier hattempts heq rfl
  | began => exact startsNothing_of_eq rfl
  | stopped => exact startsNothing_of_eq rfl
  | observed => exact startsNothing_of_eq rfl
  | confirming => exact startsNothing_of_eq rfl
  | kept => exact startsNothing_of_eq rfl
  | retried => exact startsNothing_of_eq rfl

/-- A step of an execution starts nothing under a canceled token. -/
theorem startsNothing_of_stepExecution {number : ℕ} {event : ExecutionEvent V}
    (h : run.stepExecution true number event = some run') : run.StartsNothing run' := by
  obtain ⟨attempts', hattempts, rfl⟩ := Option.map_eq_some_iff.mp h
  refine startsNothing_of_forall₂ [] rfl (fun _ hmem => absurd hmem List.not_mem_nil) ?_
  refine ((evolves_stepAttempts hattempts).imp fun attempt attempt' hevolves hrunning => ?_).flip
  exact (hevolves.running hrunning).resolve_right nofun

end TaskRun

namespace SchedulerRun

variable {V : Type*} {policy : RetryPolicy} {run run' : SchedulerRun V} {event : RunEvent V}

/-- Every execution that runs has run before. -/
def StartsNothing (run run' : SchedulerRun V) : Prop :=
  ∀ id task', run'.tasks.get? id = some task' →
    ∃ task, run.tasks.get? id = some task ∧ task.StartsNothing task'

theorem StartsNothing.refl (run : SchedulerRun V) : run.StartsNothing run :=
  fun _ task hget => ⟨task, hget, .refl task⟩

theorem StartsNothing.trans {run'' : SchedulerRun V} (h : run.StartsNothing run')
    (h' : run'.StartsNothing run'') : run.StartsNothing run'' := by
  intro id task'' hget''
  obtain ⟨task', hget', hstarts'⟩ := h' id task'' hget''
  obtain ⟨task, hget, hstarts⟩ := h id task' hget'
  exact ⟨task, hget, hstarts.trans hstarts'⟩

/-- A run that is canceled starts nothing. -/
theorem startsNothing_of_step (hcancelled : run.cancelled = true)
    (h : run.step policy event = some run') : run.StartsNothing run' := by
  intro id task' hget'
  obtain ⟨task, hget, htask⟩ := exists_of_taskStep h hget'
  refine ⟨task, hget, ?_⟩
  rw [hcancelled] at htask
  cases htask with
  | kept => exact .refl task'
  | scheduled => exact TaskRun.startsNothing_of_eq rfl
  | closed => exact TaskRun.startsNothing_of_eq rfl
  | moved move _ _ hstep => exact TaskRun.startsNothing_of_moves (TaskRun.moves_of_step hstep)
  | executed number execution _ _ hstep => exact TaskRun.startsNothing_of_stepExecution hstep

/-- What a step leaves of a run: its query, a canceled token, and its end. -/
structure Continues (run run' : SchedulerRun V) : Prop where
  queryId : run'.queryId = run.queryId
  cancelled : run.cancelled = true → run'.cancelled = true
  live : run'.control.isLive = true → run.control.isLive = true

theorem Continues.refl (run : SchedulerRun V) : run.Continues run := ⟨rfl, id, id⟩

theorem continues_startStage (stage : String) (ready : List String)
    (hlive : run.control.isLive = true) : run.Continues (run.startStage stage ready) := by
  unfold SchedulerRun.startStage
  split
  · exact ⟨rfl, id, fun _ => hlive⟩
  · exact ⟨rfl, id, fun _ => hlive⟩

theorem continues_of_step (h : run.step policy event = some run') : run.Continues run' := by
  have hlooping : ∀ {control}, run.control = control → control.isLive = true →
      run.control.isLive = true := fun h hlive => h ▸ hlive
  cases steps_of_step h with
  | cancelled => exact ⟨rfl, fun _ => rfl, id⟩
  | started stage ready hcontrol =>
    refine continues_startStage stage ready ?_
    rcases hcontrol with hcontrol | ⟨hcontrol, -⟩
    · exact hlooping hcontrol rfl
    · exact hlooping hcontrol rfl
  | returned hcontrol => exact ⟨rfl, id, fun _ => hlooping hcontrol rfl⟩
  | stuck _ hcontrol => exact ⟨rfl, id, fun _ => hlooping hcontrol rfl⟩
  | completed _ _ hcontrol => exact ⟨rfl, id, fun _ => hlooping hcontrol rfl⟩
  | stopped _ _ _ _ _ hcontrol => exact ⟨rfl, id, fun _ => hlooping hcontrol rfl⟩
  | failed _ _ _ _ hcontrol => exact ⟨rfl, id, fun _ => hlooping hcontrol rfl⟩
  | interrupted _ _ hcontrol => exact ⟨rfl, id, fun _ => hlooping hcontrol rfl⟩
  | closed _ _ _ hcontrol => exact ⟨rfl, id, fun _ => hlooping hcontrol rfl⟩
  | ended _ hcontrol => exact ⟨rfl, id, fun _ => hlooping hcontrol rfl⟩
  | moved => exact ⟨rfl, id, (RunControl.isLive_hear _ _ _).symm.trans⟩
  | executed => exact ⟨rfl, id, id⟩

end SchedulerRun

namespace TaskScheduler

variable {V : Type*} {policy : RetryPolicy} {scheduler scheduler' : TaskScheduler V}
  {queryId : String} {index : ℕ} {events : List (SchedulerEvent V)}

/-- `cancel` reaches every run of the query that is in progress: its token is canceled, and
from then on it starts no attempt. -/
def CancelReaches (policy : RetryPolicy) (scheduler : TaskScheduler V) (queryId : String) : Prop :=
  ∀ (index : ℕ) (run : SchedulerRun V), scheduler.runs[index]? = some run →
    run.queryId = queryId → run.control.isLive = true →
    ∃ run' : SchedulerRun V, (scheduler.cancel queryId).runs[index]? = some run' ∧
      run'.cancelled = true ∧ ∀ events later, Steps policy (scheduler.cancel queryId) events later →
        ∃ last, later.runs[index]? = some last ∧ run'.StartsNothing last

/-- Whether a step begins a run of the query, or ends one other than `index`. -/
def disturbs (policy : RetryPolicy) (queryId : String) (index : ℕ) (scheduler : TaskScheduler V) :
    SchedulerEvent V → Bool
  | .run graph => (SchedulerRun.start (V := V) graph).any (·.queryId = queryId)
  | .cancel _ => false
  | .step index' event => index' ≠ index && (scheduler.runs[index']?).any fun run =>
      run.queryId = queryId && (run.step policy event).any (ends run)

/-- Run `index` has been the only one of the query to begin or to end since it began. -/
def Undisturbed (policy : RetryPolicy) (queryId : String) (index : ℕ)
    (events : List (SchedulerEvent V)) (scheduler : TaskScheduler V) : Prop :=
  ∃ before graph after first began, events = before ++ .run graph :: after ∧
    Steps policy {} before first ∧ first.runs.length = index ∧
    SchedulerRun.start graph = some began ∧ began.queryId = queryId ∧
    Runs (fun scheduler event scheduler' => scheduler.step policy event = some scheduler' ∧
      scheduler.disturbs policy queryId index event = false) (first.begin began) after scheduler

/-! ### What a step does to one run -/

theorem getElem?_cancel (queryId : String) (index : ℕ) :
    (scheduler.cancel queryId).runs[index]? = (scheduler.runs[index]?).map fun run =>
      if scheduler.cancellations.get? queryId = some index then { run with cancelled := true }
      else run := by
  unfold cancel
  split
  · next other hother =>
    rw [List.getElem?_modify, hother]
    by_cases h : other = index
    · simp [h]
    · simp [h]
  · next hnone => simp [hnone]

theorem cancellations_cancel (queryId : String) :
    (scheduler.cancel queryId).cancellations = scheduler.cancellations := by
  unfold cancel
  split <;> rfl

theorem step_eq_some {event : RunEvent V}
    (h : scheduler.step policy (.step index event) = some scheduler') :
    ∃ run run' turn, scheduler.runs[index]? = some run ∧ run.step policy event = some run' ∧
      scheduler' = scheduler.put index turn run run' := by
  simp only [step] at h
  split at h
  · next run turn hget _ =>
    obtain ⟨run', hstep, rfl⟩ := Option.map_eq_some_iff.mp h
    exact ⟨run, run', turn, hget, hstep, rfl⟩
  · cases h

/-- Runs stay where they are. -/
theorem exists_run_of_step {event : SchedulerEvent V} {run : SchedulerRun V}
    (h : scheduler.step policy event = some scheduler') (hget : scheduler.runs[index]? = some run) :
    ∃ run', scheduler'.runs[index]? = some run' ∧ run.Continues run' ∧
      (run.cancelled = true → run.StartsNothing run') := by
  have hsame : scheduler'.runs[index]? = some run → ∃ run', scheduler'.runs[index]? = some run' ∧
      run.Continues run' ∧ (run.cancelled = true → run.StartsNothing run') :=
    fun hget' => ⟨run, hget', .refl run, fun _ => .refl run⟩
  cases event with
  | run graph =>
    simp only [step] at h
    split at h
    · cases h
      exact hsame ((List.getElem?_append_left (List.getElem?_eq_some_iff.mp hget).1).trans hget)
    · cases h
      exact hsame hget
  | cancel queryId =>
    cases h
    rw [getElem?_cancel, hget]
    split_ifs
    · exact ⟨_, rfl, ⟨rfl, fun _ => rfl, id⟩, fun _ => .refl run⟩
    · exact ⟨_, rfl, .refl run, fun _ => .refl run⟩
  | step other event =>
    obtain ⟨stepped, stepped', turn, hother, hstep, rfl⟩ := step_eq_some h
    by_cases hindex : other = index
    · subst hindex
      cases hget.symm.trans hother
      refine ⟨stepped', ?_, SchedulerRun.continues_of_step hstep,
        fun hcancelled => SchedulerRun.startsNothing_of_step hcancelled hstep⟩
      exact List.getElem?_set_self (List.getElem?_eq_some_iff.mp hget).1
    · exact hsame ((List.getElem?_set_ne hindex).trans hget)

/-- A run that is canceled starts nothing any more. -/
theorem startsNothing_of_steps {run : SchedulerRun V} (h : Steps policy scheduler events scheduler')
    (hget : scheduler.runs[index]? = some run) (hcancelled : run.cancelled = true) :
    ∃ last, scheduler'.runs[index]? = some last ∧ run.StartsNothing last := by
  have hlast : ∃ last, scheduler'.runs[index]? = some last ∧ run.StartsNothing last ∧
      last.cancelled = true := by
    refine Runs.invariant h (P := fun current => ∃ last, current.runs[index]? = some last ∧
      run.StartsNothing last ∧ last.cancelled = true) ⟨run, hget, .refl run, hcancelled⟩ ?_
    rintro current event next - ⟨last, hlast, hstarts, hcancelled⟩ hstep
    obtain ⟨last', hlast', hcontinues, hstarts'⟩ := exists_run_of_step hstep hlast
    exact ⟨last', hlast', hstarts.trans (hstarts' hcancelled), hcontinues.cancelled hcancelled⟩
  obtain ⟨last, hlast, hstarts, -⟩ := hlast
  exact ⟨last, hlast, hstarts⟩

/-! ### Registrations -/

/-- While run `index` is in progress, its token is the one of its query. -/
def Registered (queryId : String) (index : ℕ) (scheduler : TaskScheduler V) : Prop :=
  ∃ run, scheduler.runs[index]? = some run ∧ run.queryId = queryId ∧
    (run.control.isLive = true → scheduler.cancellations.get? queryId = some index)

theorem registered_begin {run : SchedulerRun V} (hquery : run.queryId = queryId) :
    (scheduler.begin run).Registered queryId scheduler.runs.length := by
  refine ⟨run, List.getElem?_concat_length, hquery, fun _ => ?_⟩
  rw [begin, Dict.get?_set, if_pos hquery.symm]

theorem not_ends_of_isLive {run run' : SchedulerRun V} (h : run'.control.isLive = true) :
    ends run run' = false := by
  rw [ends, h, Bool.not_true, Bool.and_false]

theorem disturbs_step {other : ℕ} {event : RunEvent V} {run run' : SchedulerRun V}
    (hget : scheduler.runs[other]? = some run) (hstep : run.step policy event = some run') :
    scheduler.disturbs policy queryId index (.step other event)
      = (decide (other ≠ index) && (decide (run.queryId = queryId) && ends run run')) := by
  simp only [disturbs, hget, hstep, Option.any_some]

/-- Only its own end, and another run of its query, undo a registration. -/
theorem Registered.step {event : SchedulerEvent V} (h : scheduler.Registered queryId index)
    (hstep : scheduler.step policy event = some scheduler')
    (hquiet : scheduler.disturbs policy queryId index event = false) :
    scheduler'.Registered queryId index := by
  obtain ⟨run, hget, hquery, hregistered⟩ := h
  obtain ⟨run', hget', hcontinues, -⟩ := exists_run_of_step hstep hget
  refine ⟨run', hget', hcontinues.queryId.trans hquery, fun hlive => ?_⟩
  have hregistered := hregistered (hcontinues.live hlive)
  cases event with
  | run graph =>
    simp only [TaskScheduler.step] at hstep
    split at hstep
    · next began hstart =>
      cases hstep
      rw [disturbs, hstart, Option.any_some, decide_eq_false_iff_not] at hquiet
      rw [begin, Dict.get?_set, if_neg (Ne.symm hquiet)]
      exact hregistered
    · cases hstep
      exact hregistered
  | cancel other =>
    cases hstep
    rwa [cancellations_cancel]
  | step other event =>
    obtain ⟨stepped, stepped', turn, hother, hrun, rfl⟩ := step_eq_some hstep
    rw [put]
    split_ifs with hends
    · rw [Dict.get?_erase, if_neg]
      · exact hregistered
      · intro hsame
        by_cases hindex : other = index
        · subst hindex
          cases hget.symm.trans hother
          rw [put, List.getElem?_set_self (List.getElem?_eq_some_iff.mp hget).1] at hget'
          cases hget'
          rw [not_ends_of_isLive hlive] at hends
          cases hends
        · rw [disturbs_step hother hrun, hends, hsame] at hquiet
          simp [hindex] at hquiet
    · exact hregistered

theorem Undisturbed.registered (h : Undisturbed policy queryId index events scheduler) :
    scheduler.Registered queryId index := by
  obtain ⟨before, graph, after, first, began, -, -, rfl, -, hquery, hruns⟩ := h
  exact hruns.invariant (registered_begin hquery) fun _ _ _ _ h hlast => h.step hlast.1 hlast.2

/-- An undisturbed run stays so when a step does not disturb it. -/
theorem Undisturbed.concat {event : SchedulerEvent V}
    (h : Undisturbed policy queryId index events scheduler)
    (hstep : scheduler.step policy event = some scheduler')
    (hquiet : scheduler.disturbs policy queryId index event = false) :
    Undisturbed policy queryId index (events ++ [event]) scheduler' := by
  obtain ⟨before, graph, after, first, began, rfl, hbefore, hlength, hstart, hquery, hruns⟩ := h
  exact ⟨before, graph, after ++ [event], first, began, by simp, hbefore, hlength, hstart, hquery,
    hruns.concat ⟨hstep, hquiet⟩⟩

/-- The token of a query is that of an undisturbed run. -/
theorem undisturbed_of_get? (h : Steps policy {} events scheduler)
    (hget : scheduler.cancellations.get? queryId = some index) :
    Undisturbed policy queryId index events scheduler := by
  induction h generalizing index with
  | nil => cases hget
  | @concat events before after event hruns hstep ih =>
    have hkept : before.cancellations.get? queryId = some index →
        before.disturbs policy queryId index event = false →
        Undisturbed policy queryId index (events ++ [event]) after :=
      fun hget hquiet => (ih hget).concat hstep hquiet
    cases event with
    | run graph =>
      simp only [step] at hstep
      split at hstep
      · next began hstart =>
        cases hstep
        rw [begin, Dict.get?_set] at hget
        split_ifs at hget with hquery
        · cases hget
          exact ⟨events, graph, [], before, began, rfl, hruns, rfl, hstart, hquery.symm, .nil⟩
        · refine hkept hget ?_
          rw [disturbs, hstart, Option.any_some, decide_eq_false_iff_not]
          exact Ne.symm hquery
      · next hnone =>
        cases hstep
        refine hkept hget ?_
        rw [disturbs, hnone, Option.any_none]
    | cancel other =>
      cases hstep
      rw [cancellations_cancel] at hget
      exact hkept hget rfl
    | step other event =>
      obtain ⟨stepped, stepped', turn, hother, hrun, rfl⟩ := step_eq_some hstep
      rw [put] at hget
      have hquiet : ∀ ended, ends stepped stepped' = ended →
          (ended = true → stepped.queryId ≠ queryId) →
          before.disturbs policy queryId index (.step other event) = false := by
        intro ended hended hquery
        rw [disturbs_step hother hrun, hended]
        cases ended with
        | false => simp
        | true => simp [hquery rfl]
      split_ifs at hget with hends
      · rw [Dict.get?_erase] at hget
        split_ifs at hget with hquery
        exact hkept hget (hquiet true hends fun _ => Ne.symm hquery)
      · exact hkept hget (hquiet false (by simpa using hends) fun h => absurd h Bool.false_ne_true)

/-- `cancel` reaches all runs of a query that are in progress exactly when each of them that
is not canceled yet is undisturbed. -/
theorem cancelReaches_iff (h : Steps policy {} events scheduler) (queryId : String) :
    scheduler.CancelReaches policy queryId ↔ ∀ index run, scheduler.runs[index]? = some run →
      run.queryId = queryId → run.control.isLive = true → run.cancelled = false →
      Undisturbed policy queryId index events scheduler := by
  constructor
  · intro hreaches index run hget hquery hlive hcancelled
    obtain ⟨run', hget', hcancelled', -⟩ := hreaches index run hget hquery hlive
    refine undisturbed_of_get? h ?_
    by_contra hnot
    rw [getElem?_cancel, hget, Option.map_some, if_neg hnot] at hget'
    cases hget'
    cases hcancelled.symm.trans hcancelled'
  · intro hundisturbed index run hget hquery hlive
    have hget' : ∃ run', (scheduler.cancel queryId).runs[index]? = some run' ∧
        run'.cancelled = true := by
      rw [getElem?_cancel, hget, Option.map_some]
      cases hcancelled : run.cancelled with
      | true =>
        split_ifs
        · exact ⟨_, rfl, rfl⟩
        · exact ⟨_, rfl, hcancelled⟩
      | false =>
        obtain ⟨same, hsame, -, hregistered⟩ :=
          (hundisturbed index run hget hquery hlive hcancelled).registered
        cases hget.symm.trans hsame
        rw [if_pos (hregistered hlive)]
        exact ⟨_, rfl, rfl⟩
    obtain ⟨run', hget', hcancelled⟩ := hget'
    exact ⟨run', hget', hcancelled, fun _ _ hlater => startsNothing_of_steps hlater hget' hcancelled⟩

/-- Two runs of one query, as for the two sides of a join. -/
def sidesEvents : List (SchedulerEvent ℕ) :=
  [.run SchedulerRun.sampleGraph, .step 0 .advance, .run SchedulerRun.siblingGraph,
    .step 1 .advance]

/-- The second of two runs takes the place of the first, which is not reached. -/
theorem not_cancelReaches : ¬ ∀ (policy : RetryPolicy) (events : List (SchedulerEvent ℕ))
    (scheduler : TaskScheduler ℕ) (queryId : String), Steps policy {} events scheduler →
    scheduler.CancelReaches policy queryId := by
  obtain ⟨scheduler, run, run', hfold, hget, hquery, hlive, hget', hcancelled⟩ :
      ∃ (scheduler : TaskScheduler ℕ) (run run' : SchedulerRun ℕ),
      sidesEvents.foldlM (fun scheduler event => scheduler.step {} event) {} = some scheduler ∧
      scheduler.runs[0]? = some run ∧ run.queryId = "query" ∧ run.control.isLive = true ∧
      (scheduler.cancel "query").runs[0]? = some run' ∧ run'.cancelled = false :=
    ⟨_, _, _, rfl, rfl, rfl, rfl, rfl, rfl⟩
  intro h
  obtain ⟨reached, hreached, htrue, -⟩ :=
    h {} sidesEvents scheduler "query" (Runs.of_foldlM hfold) 0 run hget hquery hlive
  cases hget'.symm.trans hreached
  cases hcancelled.symm.trans htrue

/-- A run that is alone is reached. -/
theorem cancelReaches_iff_alone : ∃ scheduler : TaskScheduler ℕ,
    Steps {} {} (sidesEvents.take 2) scheduler ∧ scheduler.runs.length = 1 ∧
    (scheduler.CancelReaches {} "query" ↔ ∀ index run, scheduler.runs[index]? = some run →
      run.queryId = "query" → run.control.isLive = true → run.cancelled = false →
      Undisturbed {} "query" index (sidesEvents.take 2) scheduler) := by
  obtain ⟨scheduler, hfold, hlength⟩ : ∃ scheduler : TaskScheduler ℕ,
      (sidesEvents.take 2).foldlM (fun scheduler event => scheduler.step {} event) {}
        = some scheduler ∧ scheduler.runs.length = 1 := ⟨_, rfl, rfl⟩
  have hsteps : Steps {} {} (sidesEvents.take 2) scheduler := Runs.of_foldlM hfold
  exact ⟨scheduler, hsteps, hlength, cancelReaches_iff hsteps "query"⟩

end TaskScheduler

end DistributedSql
