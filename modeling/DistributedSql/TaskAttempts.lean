/-
One task under the scheduler (`TaskScheduler._run_task`, `_execute_attempt` and
`LogicalWorker.execute` in `execution/scheduler.py`).

A step is what the event loop does of one coroutine up to its next await, or one action of
a thread of a worker.  What the registry answers and what an execution ends with comes
from outside with the step.  An attempt is kept together with its execution, and a task
with its attempts, the latest first.  Runners raise `ExecutionCancelled` only when their
token is canceled.
-/
import DistributedSql.TaskProtocol

namespace DistributedSql

inductive TaskState
  | pending | running | succeeded | failed | canceled
deriving DecidableEq, Repr

/-- `Task`, of its partition the ordinal. -/
structure Task where
  taskId : String
  queryId : String
  stageId : String
  ordinal : ℕ
  state : TaskState := .pending
deriving DecidableEq, Repr

/-- `RetryPolicy`, without its durations. -/
structure RetryPolicy where
  maxAttempts : ℕ := 3
  maxAttempts_pos : 0 < maxAttempts := by decide

/-- `Attempt.error`. -/
inductive AttemptErrorRecord
  | exception (type message : String)
  | detail (detail : ErrorDetail)
deriving DecidableEq, Repr

structure Attempt where
  attemptId : String
  taskId : String
  attemptNumber : ℕ
  workerId : Option String := none
  state : AttemptState := .created
  error : Option AttemptErrorRecord := none
deriving DecidableEq, Repr

/-- What an attempt raises: `ExecutionCancelled`, `asyncio.CancelledError`,
`CancellationConfirmationError`, `WorkerLostError`, `TimeoutError` or anything else. -/
inductive AttemptError
  | cancelled | interrupted | unconfirmed
  | workerLost (message : String)
  | timeout
  | raised (error : TaskError)
deriving DecidableEq, Repr

/-- The error as `public_task_error` sees it. -/
def AttemptError.taskError : AttemptError → TaskError
  | .cancelled => .other "ExecutionCancelled"
  | .interrupted => .other "CancelledError"
  | .unconfirmed => .other "CancellationConfirmationError"
  | .workerLost _ => .other "WorkerLostError"
  | .timeout => .other "TimeoutError"
  | .raised error => error

/-- `_failure_kind`. -/
def AttemptError.failureKind : AttemptError → String
  | .raised (.domain _) => "domain"
  | .workerLost _ => "network"
  | .timeout => "timeout"
  | _ => "worker_execution"

/-! ### The execution of an attempt -/

/-- The coroutine `worker.execute` of an attempt; an attempt for which no worker was found
has none. -/
inductive ExecutionPhase (V : Type*)
  | absent
  | queued
  | running
  | ended (result : Except AttemptError V)

/-- How far the start of a runner has come, which its thread announces to the event loop. -/
inductive StartNotice
  | none | submitted | picked | posted | delivered
deriving DecidableEq

/-- The coroutine `_wait_until_worker_lost` beside an execution. -/
inductive LeaseWatch
  | watching | lost
  | raised (error : TaskError)
deriving DecidableEq

/-- An attempt with what runs for it. -/
structure AttemptRun (V : Type*) where
  attempt : Attempt
  phase : ExecutionPhase V
  cancelRequested : Bool := false
  /-- the event `started` is set -/
  started : Bool := false
  notice : StartNotice := .none
  lease : LeaseWatch := .watching

/-- What may happen of an execution. -/
inductive ExecutionEvent (V : Type*)
  | acquire (active : Bool)
  | announce
  | submit | pick | post | deliver
  | finish (result : Except AttemptError V)
  | leaseEnds (watch : LeaseWatch)

namespace AttemptRun

variable {V : Type*} (run : AttemptRun V)

/-- The worker of an attempt that has one. -/
def worker : String := run.attempt.workerId.getD ""

/-- `_mark_attempt_started`. -/
def markStarted : AttemptRun V :=
  if run.started then run
  else { run with attempt.state := .running, started := true }

/-- `execution.cancel()`, unless it is done. -/
def requestCancel : AttemptRun V :=
  match run.phase with
  | .queued | .running => { run with cancelRequested := true }
  | _ => run

/-- Whether an execution may end with `result`: runners raise `ExecutionCancelled` by
`cancellation.check()` only. -/
def permits (token : Bool) : Except AttemptError V → Bool
  | .error .cancelled => token
  | _ => true

/-- `LogicalWorker.execute` when it has its slot. -/
def acquired (token active : Bool) : ExecutionPhase V :=
  if !active then
    .ended (.error (.workerLost ("Worker " ++ strRepr run.worker ++ " was terminated.")))
  else if token then .ended (.error .cancelled)
  else .running

/-- The execution ends.  A canceled one does not wait for its thread, and a thread that has
not begun does not begin any more. -/
def stop (result : Except AttemptError V) : AttemptRun V :=
  { run with
    phase := .ended result
    notice := if run.notice = .submitted then .none else run.notice }

/-- One step, `none` when it cannot happen now. -/
def step (token : Bool) : ExecutionEvent V → Option (AttemptRun V)
  | .acquire active => match run.phase with
    | .queued => if run.cancelRequested then none
        else some { run with phase := run.acquired token active }
    | _ => none
  | .announce => match run.phase with
    | .running => some run.markStarted
    | _ => none
  | .submit => match run.phase, run.notice with
    | .running, .none => some { run with notice := .submitted }
    | _, _ => none
  | .pick => if run.notice = .submitted then some { run with notice := .picked } else none
  | .post => if run.notice = .picked then some { run with notice := .posted } else none
  | .deliver => if run.notice = .posted then some { run.markStarted with notice := .delivered }
      else none
  | .finish result =>
      if !permits token result then none
      else match run.phase with
        | .queued => if run.cancelRequested then some (run.stop result) else none
        | .running =>
            -- a runner's thread posts its result after its start
            if run.cancelRequested ∨ run.notice = .none ∨ run.notice = .delivered then
              some (run.stop result)
            else none
        | _ => none
  | .leaseEnds watch =>
      if run.lease = .watching ∧ watch ≠ .watching then some { run with lease := watch } else none

end AttemptRun

/-! ### The coroutine of a task -/

structure TaskOutcome (V : Type*) where
  taskId : String
  attemptId : String
  workerId : String
  value : V

/-- Where a coroutine was when it was stopped: not begun, between two attempts, or at one. -/
inductive StopPlace
  | start | between | attempt
deriving DecidableEq

/-- What `_run_task` raises, and where it was stopped; `registry` is what the worker
registry raised while a worker was looked for. -/
inductive TaskFailure
  | cancelled (place : StopPlace)
  | interrupted (place : StopPlace)
  | unconfirmed
  | failed (error : DistributedSQLError)
  | registry (error : TaskError)
deriving DecidableEq

/-- Where the coroutine `_run_task` is. -/
inductive TaskPhase (V : Type*)
  | idle
  | starting
  | choosing
  /-- in an `asyncio.wait` of `_execute_attempt`, the start having been seen or not -/
  | waiting (observed : Bool)
  | confirming (value : V)
  /-- in the `finally` of `_execute_attempt`, on the way out with a result -/
  | settling (result : Except AttemptError V) (workerLost : Bool)
  | discarding (error : AttemptError)
  | backoff
  | ended (result : Except TaskFailure (TaskOutcome V))

/-- A task with its attempts, the latest first, and the coroutine that runs it. -/
structure TaskRun (V : Type*) where
  task : Task
  attempts : List (AttemptRun V) := []
  previousWorkers : List String := []
  attemptNumber : ℕ := 0
  phase : TaskPhase V := .idle

/-- What may happen of the coroutine of a task. -/
inductive CoroutineEvent
  | begin
  | choose (healthy : Except TaskError (List String)) (turn : ℕ)
  | wake
  | timeout
  | confirm (healthy : Except TaskError Bool)
  | settle (unheard unheardLease : Bool)
  | discarded
  | retry
  | interrupt

/-- `attempt_id`. -/
def attemptName (taskId : String) (number : ℕ) : String :=
  taskId ++ "-attempt-" ++ padded 3 number

/-- `_choose_worker`, when `turn` choices have been made; without a healthy worker, the
message of its `WorkerLostError`. -/
def chooseWorker (healthy previousWorkers : List String) (turn : ℕ) : Except String String :=
  let preferred := healthy.filter (· ∉ previousWorkers)
  let candidates := if preferred.isEmpty then healthy else preferred
  match candidates[turn % candidates.length]? with
  | some worker => .ok worker
  | none => .error "No healthy Worker is available."

def lostLease {V : Type*} (run : AttemptRun V) : AttemptError :=
  .workerLost ("Worker " ++ strRepr run.worker ++ " lost its heartbeat lease.")

/-- The error of a canceled execution that the `finally` of `_execute_attempt` raises; an
interrupt may come upon it first. -/
def heardError {V : Type*} (workerLost unheard : Bool) :
    Except AttemptError V → Option AttemptError
  | .ok _ | .error .interrupted => none
  | .error .unconfirmed => if unheard || workerLost then none else some .unconfirmed
  | .error error => if unheard then none else some error

/-- What the `finally` of `_execute_attempt` goes on with: an error of the execution or of
the lease watch replaces what was on its way. -/
def settledResult {V : Type*} (result : Except AttemptError V) (workerLost : Bool)
    (execution : Except AttemptError V) (lease : LeaseWatch) (unheard unheardLease : Bool) :
    Except AttemptError V :=
  match heardError workerLost unheard execution, lease with
  | some error, _ => .error error
  | none, .raised error => if unheardLease then result else .error (.raised error)
  | none, _ => result

/-- An attempt after its error. -/
def AttemptRun.failed {V : Type*} (run : AttemptRun V) (error : AttemptError)
    (detail : ErrorDetail) : AttemptRun V :=
  { run with attempt := { run.attempt with
    state := match error with
      | .workerLost _ => .lost
      | _ => .failed
    error := some (.detail detail) } }

namespace TaskRun

variable {V : Type*} (run : TaskRun V)

/-- The loop of `_run_task` at its top. -/
def attemptLoop (token : Bool) : TaskRun V :=
  { run with phase := if token then .ended (.error (.cancelled .between)) else .choosing }

/-- The context of the errors of a task. -/
def context (attempt : Attempt) : List (String × ContextValue) :=
  [("query_id", .text run.task.queryId), ("stage_id", .text run.task.stageId),
    ("task_id", .text run.task.taskId), ("attempt_id", .text attempt.attemptId),
    ("worker_id", match attempt.workerId with
      | some worker => .text worker
      | none => .none)]

/-- The end of `_run_task`, after its last attempt and last error. -/
def exhausted (last : Attempt) (error : AttemptError) : TaskRun V :=
  let detail := publicTaskError error.taskError
    (run.context last ++ [("attempt_count", .number run.attempts.length),
      ("failure_kind", .text error.failureKind)])
  { run with
    task.state := .failed
    phase := .ended (.error (.failed
      { code := detail.code
        message := detail.message
        statusCode := match error with
          | .raised (.domain error) => error.statusCode
          | _ => 500
        context := detail.context })) }

/-- A new attempt on a worker. -/
def attempt (worker : String) : TaskRun V :=
  let number := run.attempts.length
  { run with
    attempts :=
      { attempt :=
          { attemptId := attemptName run.task.taskId number
            taskId := run.task.taskId
            attemptNumber := number
            workerId := worker }
        phase := .queued } :: run.attempts
    previousWorkers := worker :: run.previousWorkers
    phase := .waiting false }

/-- The handler of `_run_task` when there is no worker to choose. -/
def noWorker (message : String) : TaskRun V :=
  match run.attempts with
  | last :: _ => run.exhausted last.attempt (.workerLost message)
  | [] =>
      let record : Attempt :=
        { attemptId := attemptName run.task.taskId 0
          taskId := run.task.taskId
          attemptNumber := 0
          state := .failed
          error := some (.exception "WorkerLostError" message) }
      exhausted { run with attempts := [{ attempt := record, phase := .absent }] } record
        (.workerLost message)

/-- Into the `finally` of `_execute_attempt`. -/
def settling (current : AttemptRun V) (earlier : List (AttemptRun V))
    (result : Except AttemptError V) (workerLost : Bool) : TaskRun V :=
  { run with
    attempts := current.requestCancel :: earlier
    phase := .settling result workerLost }

/-- The end of the current attempt in `state`, and of the task. -/
def close (current : AttemptRun V) (earlier : List (AttemptRun V)) (state : AttemptState)
    (taskState : TaskState) (result : Except TaskFailure (TaskOutcome V)) : TaskRun V :=
  { run with
    task.state := taskState
    attempts := { current with attempt.state := state } :: earlier
    phase := .ended result }

/-- `_run_task` after `_execute_attempt`. -/
def conclude (token : Bool) (current : AttemptRun V) (earlier : List (AttemptRun V)) :
    Except AttemptError V → TaskRun V
  | .ok value =>
      if token then run.close current earlier .canceled .canceled (.error (.cancelled .attempt))
      else run.close current earlier .succeeded .succeeded (.ok
        { taskId := run.task.taskId
          attemptId := current.attempt.attemptId
          workerId := current.worker
          value := value })
  | .error .cancelled =>
      run.close current earlier .canceled .canceled (.error (.cancelled .attempt))
  | .error .interrupted =>
      run.close current earlier .canceled .canceled (.error (.interrupted .attempt))
  | .error .unconfirmed => run.close current earlier .failed .failed (.error .unconfirmed)
  | .error error => { run with phase := .discarding error }

/-- `_run_task` after `worker.discard`. -/
def fail (policy : RetryPolicy) (current : AttemptRun V) (earlier : List (AttemptRun V))
    (error : AttemptError) : TaskRun V :=
  let detail := publicTaskError error.taskError
    (run.context current.attempt ++ [("failure_kind", .text error.failureKind)])
  let run := { run with attempts := current.failed error detail :: earlier }
  if run.attemptNumber + 1 < policy.maxAttempts then { run with phase := .backoff }
  else run.exhausted current.attempt error

/-- `_execute_attempt` when one of what it waits for is done. -/
def wake (observed : Bool) (current : AttemptRun V) (earlier : List (AttemptRun V)) :
    Option (TaskRun V) :=
  match current.lease, current.phase with
  | .lost, _ => some (run.settling current earlier (.error (lostLease current)) true)
  | .raised error, _ => some (run.settling current earlier (.error (.raised error)) false)
  | .watching, .ended (.ok value) =>
      if observed then some { run with phase := .confirming value }
      else some (run.settling current earlier (.ok value) false)
  | .watching, .ended (.error error) =>
      some (run.settling current earlier (.error error) false)
  | .watching, _ =>
      if current.started && !observed then some { run with phase := .waiting true } else none

/-- `asyncio.CancelledError` at an await; the `finally` of `_execute_attempt` passes it over. -/
def interrupt : Option (TaskRun V) :=
  match run.phase, run.attempts with
  | .starting, _ => some { run with phase := .ended (.error (.interrupted .start)) }
  | .choosing, _ | .discarding _, _ | .backoff, _ =>
      some { run with phase := .ended (.error (.interrupted .between)) }
  | .waiting _, current :: earlier | .confirming _, current :: earlier =>
      some (run.settling current earlier (.error .interrupted) false)
  | .settling _ _, _ => some run
  | _, _ => none

/-- One step of the coroutine, `none` when it cannot happen now. -/
def step (policy : RetryPolicy) (token : Bool) (event : CoroutineEvent) : Option (TaskRun V) :=
  match event, run.phase, run.attempts with
  | .begin, .starting, _ => some ({ run with task.state := .running }.attemptLoop token)
  | .choose (.error error) _, .choosing, _ =>
      some { run with phase := .ended (.error (.registry error)) }
  | .choose (.ok healthy) turn, .choosing, _ =>
      match chooseWorker healthy run.previousWorkers turn with
      | .ok worker => some (run.attempt worker)
      | .error message => some (run.noWorker message)
  | .wake, .waiting observed, current :: earlier => run.wake observed current earlier
  | .timeout, .waiting true, current :: earlier =>
      match current.lease, current.phase with
      | .watching, .queued | .watching, .running =>
          some (run.settling current earlier (.error .timeout) false)
      | _, _ => none
  | .confirm healthy, .confirming value, current :: earlier =>
      match healthy with
      | .ok true => some (run.settling current earlier (.ok value) false)
      | .ok false => some (run.settling current earlier (.error (lostLease current)) false)
      | .error error => some (run.settling current earlier (.error (.raised error)) false)
  | .settle unheard unheardLease, .settling result workerLost, current :: earlier =>
      match current.phase with
      | .ended execution => some (run.conclude token current earlier
          (settledResult result workerLost execution current.lease unheard unheardLease))
      | _ => none
  | .discarded, .discarding error, current :: earlier =>
      some (run.fail policy current earlier error)
  | .retry, .backoff, _ =>
      if token then some { run with phase := .ended (.error (.cancelled .between)) }
      else some ({ run with attemptNumber := run.attemptNumber + 1 }.attemptLoop token)
  | .interrupt, _, _ => run.interrupt
  | _, _, _ => none

/-- The attempt with this number. -/
def attempt? (number : ℕ) : Option (AttemptRun V) := run.attempts.reverse[number]?

/-- `run` creates the coroutine of a task. -/
def schedule : TaskRun V := { run with phase := .starting }

/-- `run` closes a task that was stopped or not begun. -/
def cancelTask : TaskRun V := { run with task.state := .canceled }

/-! ### What a step of the coroutine does -/

/-- Where no attempt is executed though the task has begun and is not over. -/
def Between (phase : TaskPhase V) : Prop :=
  phase = .choosing ∨ (∃ error, phase = .discarding error) ∨ phase = .backoff

/-- Why a coroutine ends outside of an attempt's execution. -/
def Stops (token : Bool) (phase : TaskPhase V) (failure : TaskFailure) : Prop :=
  phase = .starting ∧ failure = .interrupted .start ∨
    Between phase ∧ (failure = .interrupted .between ∨
      failure = .cancelled .between ∧ token = true ∨ ∃ error, failure = .registry error)

/-- The result with which `_execute_attempt` goes into its `finally`. -/
def Leaves (phase : TaskPhase V) (current : AttemptRun V) (result : Except AttemptError V) :
    Prop :=
  (∃ error, result = .error error ∧ error ≠ .cancelled) ∨
    (∃ observed, phase = .waiting observed) ∧ current.phase = .ended result ∨
    ∃ value, phase = .confirming value ∧ result = .ok value

/-- What a step of the coroutine may do. -/
inductive Moves (policy : RetryPolicy) (token : Bool) (run : TaskRun V) : TaskRun V → Prop
  | began (hphase : run.phase = .starting) :
      Moves policy token run ({ run with task.state := .running }.attemptLoop token)
  | stopped (failure : TaskFailure) (hstops : Stops token run.phase failure) :
      Moves policy token run { run with phase := .ended (.error failure) }
  | attempted (worker : String) (hphase : run.phase = .choosing) :
      Moves policy token run (run.attempt worker)
  | noWorker (message : String) (hphase : run.phase = .choosing) :
      Moves policy token run (run.noWorker message)
  | observed (current : AttemptRun V) (earlier : List (AttemptRun V))
      (hphase : run.phase = .waiting false) (hattempts : run.attempts = current :: earlier) :
      Moves policy token run { run with phase := .waiting true }
  | confirming (value : V) (current : AttemptRun V) (earlier : List (AttemptRun V))
      (hphase : run.phase = .waiting true) (hattempts : run.attempts = current :: earlier)
      (hended : current.phase = .ended (.ok value)) :
      Moves policy token run { run with phase := .confirming value }
  | left (current : AttemptRun V) (earlier : List (AttemptRun V))
      (result : Except AttemptError V) (workerLost : Bool)
      (hphase : (∃ observed, run.phase = .waiting observed) ∨ ∃ value, run.phase = .confirming value)
      (hattempts : run.attempts = current :: earlier) (hleaves : Leaves run.phase current result) :
      Moves policy token run (run.settling current earlier result workerLost)
  | kept (result : Except AttemptError V) (workerLost : Bool)
      (hphase : run.phase = .settling result workerLost) : Moves policy token run run
  | concluded (current : AttemptRun V) (earlier : List (AttemptRun V))
      (result execution : Except AttemptError V) (workerLost unheard unheardLease : Bool)
      (hphase : run.phase = .settling result workerLost)
      (hattempts : run.attempts = current :: earlier) (hended : current.phase = .ended execution) :
      Moves policy token run (run.conclude token current earlier
        (settledResult result workerLost execution current.lease unheard unheardLease))
  | failed (error : AttemptError) (current : AttemptRun V) (earlier : List (AttemptRun V))
      (hphase : run.phase = .discarding error) (hattempts : run.attempts = current :: earlier) :
      Moves policy token run (run.fail policy current earlier error)
  | retried (hphase : run.phase = .backoff) (htoken : token = false) :
      Moves policy token run
        ({ run with attemptNumber := run.attemptNumber + 1 }.attemptLoop token)

variable {run} {run' : TaskRun V} {policy : RetryPolicy} {token : Bool}

private theorem moves_wake {observed : Bool} {current : AttemptRun V}
    {earlier : List (AttemptRun V)} (hphase : run.phase = .waiting observed)
    (hattempts : run.attempts = current :: earlier)
    (h : run.wake observed current earlier = some run') : Moves policy token run run' := by
  have hwaiting : (∃ observed, run.phase = .waiting observed) ∨
      ∃ value, run.phase = .confirming value := Or.inl ⟨observed, hphase⟩
  unfold wake at h
  split at h
  · cases h
    exact .left current earlier _ _ hwaiting hattempts (Or.inl ⟨_, rfl, nofun⟩)
  · cases h
    exact .left current earlier _ _ hwaiting hattempts (Or.inl ⟨_, rfl, nofun⟩)
  · next value _ hended =>
    split_ifs at h with hobserved
    · cases h
      exact .confirming value current earlier (hobserved ▸ hphase) hattempts hended
    · cases h
      exact .left current earlier _ _ hwaiting hattempts (Or.inr (Or.inl ⟨⟨_, hphase⟩, hended⟩))
  · next _ hended =>
    cases h
    exact .left current earlier _ _ hwaiting hattempts (Or.inr (Or.inl ⟨⟨_, hphase⟩, hended⟩))
  · split_ifs at h with hstarted
    cases h
    obtain ⟨-, hobserved⟩ := Bool.and_eq_true_iff.mp hstarted
    obtain rfl : observed = false := by simpa using hobserved
    exact .observed current earlier hphase hattempts

private theorem moves_interrupt (h : run.interrupt = some run') : Moves policy token run run' := by
  unfold interrupt at h
  split at h
  · next hphase =>
    cases h
    exact .stopped _ (Or.inl ⟨hphase, rfl⟩)
  · next hphase =>
    cases h
    exact .stopped _ (Or.inr ⟨Or.inl hphase, Or.inl rfl⟩)
  · next error hphase =>
    cases h
    exact .stopped _ (Or.inr ⟨Or.inr (Or.inl ⟨error, hphase⟩), Or.inl rfl⟩)
  · next hphase =>
    cases h
    exact .stopped _ (Or.inr ⟨Or.inr (Or.inr hphase), Or.inl rfl⟩)
  · next hphase hattempts =>
    cases h
    exact .left _ _ _ _ (Or.inl ⟨_, hphase⟩) hattempts (Or.inl ⟨_, rfl, nofun⟩)
  · next hphase hattempts =>
    cases h
    exact .left _ _ _ _ (Or.inr ⟨_, hphase⟩) hattempts (Or.inl ⟨_, rfl, nofun⟩)
  · next hphase =>
    cases h
    exact .kept _ _ hphase
  · cases h

theorem moves_of_step {event : CoroutineEvent} (h : run.step policy token event = some run') :
    Moves policy token run run' := by
  unfold step at h
  split at h
  · next hphase =>
    cases h
    exact .began hphase
  · next hphase =>
    cases h
    exact .stopped _ (Or.inr ⟨Or.inl hphase, Or.inr (Or.inr ⟨_, rfl⟩)⟩)
  · next hphase =>
    split at h
    · cases h
      exact .attempted _ hphase
    · cases h
      exact .noWorker _ hphase
  · next hphase hattempts => exact moves_wake hphase hattempts h
  · next hphase hattempts =>
    split at h
    · cases h
      exact .left _ _ _ _ (Or.inl ⟨_, hphase⟩) hattempts (Or.inl ⟨_, rfl, nofun⟩)
    · cases h
      exact .left _ _ _ _ (Or.inl ⟨_, hphase⟩) hattempts (Or.inl ⟨_, rfl, nofun⟩)
    · cases h
  · next hphase hattempts =>
    split at h
    · cases h
      exact .left _ _ _ _ (Or.inr ⟨_, hphase⟩) hattempts (Or.inr (Or.inr ⟨_, hphase, rfl⟩))
    · cases h
      exact .left _ _ _ _ (Or.inr ⟨_, hphase⟩) hattempts (Or.inl ⟨_, rfl, nofun⟩)
    · cases h
      exact .left _ _ _ _ (Or.inr ⟨_, hphase⟩) hattempts (Or.inl ⟨_, rfl, nofun⟩)
  · next hphase hattempts =>
    split at h
    · next hended =>
      cases h
      exact .concluded _ _ _ _ _ _ _ hphase hattempts hended
    · cases h
  · next hphase hattempts =>
    cases h
    exact .failed _ _ _ hphase hattempts
  · next hphase =>
    split_ifs at h with htoken
    · cases h
      exact .stopped _ (Or.inr ⟨Or.inr (Or.inr hphase), Or.inr (Or.inl ⟨rfl, htoken⟩)⟩)
    · cases h
      exact .retried hphase (by simpa using htoken)
  · exact moves_interrupt h
  · cases h

end TaskRun

/-! ### What a step of an execution does -/

namespace AttemptRun

variable {V : Type*}

@[simp] theorem requestCancel_attempt (run : AttemptRun V) :
    run.requestCancel.attempt = run.attempt := by
  unfold requestCancel
  split <;> rfl

@[simp] theorem requestCancel_phase (run : AttemptRun V) : run.requestCancel.phase = run.phase := by
  unfold requestCancel
  split <;> rfl

/-- The execution coroutine is in progress. -/
def inProgress (run : AttemptRun V) : Bool :=
  match run.phase with
  | .queued | .running => true
  | .absent | .ended _ => false

/-- What a step of its execution leaves of an attempt. -/
structure Evolves (token : Bool) (run run' : AttemptRun V) : Prop where
  attempt : run'.attempt = { run.attempt with state := run'.attempt.state }
  state : run'.attempt.state = run.attempt.state ∨
    run.started = false ∧ run'.attempt.state = .running
  ended : run.inProgress = false → run'.phase = run.phase
  cancelled : run'.phase = .ended (.error .cancelled) → run.phase = run'.phase ∨ token = true
  running : run'.phase = .running → run.phase = .running ∨ token = false

variable {token : Bool} {run run' : AttemptRun V}

theorem Evolves.refl (token : Bool) (run : AttemptRun V) : Evolves token run run :=
  ⟨rfl, Or.inl rfl, fun _ => rfl, fun _ => Or.inl rfl, Or.inl⟩

theorem evolves_markStarted (token : Bool) (run : AttemptRun V) :
    Evolves token run run.markStarted := by
  unfold markStarted
  split_ifs with hstarted
  · exact .refl token run
  · exact ⟨rfl, Or.inr ⟨by simpa using hstarted, rfl⟩, fun _ => rfl, fun _ => Or.inl rfl, Or.inl⟩

theorem Evolves.live (h : Evolves token run run') (hlive : ¬ run.attempt.state.Terminal) :
    ¬ run'.attempt.state.Terminal := by
  rcases h.state with hstate | ⟨-, hstate⟩
  · rwa [hstate]
  · rw [hstate]
    decide

theorem Evolves.attemptId (h : Evolves token run run') :
    run'.attempt.attemptId = run.attempt.attemptId := by rw [h.attempt]

theorem Evolves.worker (h : Evolves token run run') : run'.worker = run.worker := by
  rw [AttemptRun.worker, h.attempt, AttemptRun.worker]

theorem evolves_stop {result : Except AttemptError V} (hprogress : run.inProgress = true)
    (hpermits : permits token result = true) : Evolves token run (run.stop result) := by
  refine ⟨rfl, Or.inl rfl, fun hended => ?_, fun hcancelled => ?_, nofun⟩
  · rw [hprogress] at hended
    cases hended
  · cases hcancelled
    exact Or.inr hpermits

theorem evolves_of_step {event : ExecutionEvent V} (h : run.step token event = some run') :
    Evolves token run run' := by
  cases event with
  | acquire active =>
    simp only [step] at h
    split at h
    · next hphase =>
      split_ifs at h
      cases h
      refine ⟨rfl, Or.inl rfl, fun hover => ?_, fun hended => ?_, fun hrunning => ?_⟩
      · simp [inProgress, hphase] at hover
      · cases token with
        | true => exact Or.inr rfl
        | false => cases active <;> simp [acquired] at hended
      · cases token with
        | true => cases active <;> simp [acquired] at hrunning
        | false => exact Or.inr rfl
    · cases h
  | announce =>
    simp only [step] at h
    split at h
    · cases h
      exact evolves_markStarted token run
    · cases h
  | submit =>
    simp only [step] at h
    split at h
    · cases h
      exact ⟨rfl, Or.inl rfl, fun _ => rfl, fun _ => Or.inl rfl, Or.inl⟩
    · cases h
  | pick =>
    simp only [step] at h
    split_ifs at h
    cases h
    exact ⟨rfl, Or.inl rfl, fun _ => rfl, fun _ => Or.inl rfl, Or.inl⟩
  | post =>
    simp only [step] at h
    split_ifs at h
    cases h
    exact ⟨rfl, Or.inl rfl, fun _ => rfl, fun _ => Or.inl rfl, Or.inl⟩
  | deliver =>
    simp only [step] at h
    split_ifs at h
    cases h
    have hmarked := evolves_markStarted token run
    exact ⟨hmarked.attempt, hmarked.state, hmarked.ended, hmarked.cancelled, hmarked.running⟩
  | finish result =>
    simp only [step] at h
    split at h
    · cases h
    next hpermits =>
    have hpermits : permits token result = true := by simpa using hpermits
    split at h
    · next hphase =>
      split_ifs at h
      cases h
      exact evolves_stop (by rw [inProgress, hphase]) hpermits
    · next hphase =>
      split_ifs at h
      cases h
      exact evolves_stop (by rw [inProgress, hphase]) hpermits
    · cases h
  | leaseEnds watch =>
    simp only [step] at h
    split_ifs at h
    cases h
    exact ⟨rfl, Or.inl rfl, fun _ => rfl, fun _ => Or.inl rfl, Or.inl⟩

end AttemptRun

namespace TaskRun

variable {V : Type*}

/-- A step of the execution of attempt `number`. -/
def stepAttempts (token : Bool) (number : ℕ) (event : ExecutionEvent V) :
    List (AttemptRun V) → Option (List (AttemptRun V))
  | [] => none
  | current :: earlier =>
      if number = earlier.length then (current.step token event).map (· :: earlier)
      else (stepAttempts token number event earlier).map (current :: ·)

/-- A step of an execution of the task. -/
def stepExecution (run : TaskRun V) (token : Bool) (number : ℕ) (event : ExecutionEvent V) :
    Option (TaskRun V) :=
  (stepAttempts token number event run.attempts).map fun attempts =>
    { run with attempts := attempts }

/-- One attempt steps, the others stay. -/
theorem stepAttempts_eq_some {token : Bool} {number : ℕ} {event : ExecutionEvent V}
    {attempts attempts' : List (AttemptRun V)}
    (h : stepAttempts token number event attempts = some attempts') :
    ∃ later run run' earlier, attempts = later ++ run :: earlier ∧ earlier.length = number ∧
      run.step token event = some run' ∧ attempts' = later ++ run' :: earlier := by
  induction attempts generalizing attempts' with
  | nil => cases h
  | cons current earlier ih =>
    rw [stepAttempts] at h
    split_ifs at h with hnumber
    · obtain ⟨run', hstep, rfl⟩ := Option.map_eq_some_iff.mp h
      exact ⟨[], current, run', earlier, rfl, hnumber.symm, hstep, rfl⟩
    · obtain ⟨rest, hrest, rfl⟩ := Option.map_eq_some_iff.mp h
      obtain ⟨later, run, run', earlier, rfl, hlength, hstep, rfl⟩ := ih hrest
      exact ⟨current :: later, run, run', earlier, rfl, hlength, hstep, rfl⟩

theorem evolves_stepAttempts {token : Bool} {number : ℕ} {event : ExecutionEvent V}
    {attempts attempts' : List (AttemptRun V)}
    (h : stepAttempts token number event attempts = some attempts') :
    List.Forall₂ (AttemptRun.Evolves token) attempts attempts' := by
  obtain ⟨later, run, run', earlier, rfl, -, hstep, rfl⟩ := stepAttempts_eq_some h
  have hrefl : ∀ l : List (AttemptRun V), List.Forall₂ (AttemptRun.Evolves token) l l :=
    fun l => List.forall₂_same.mpr fun run _ => .refl token run
  exact List.rel_append (hrefl later) (.cons (AttemptRun.evolves_of_step hstep) (hrefl earlier))

end TaskRun

end DistributedSql
