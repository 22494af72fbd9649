/-
What holds of a task under the scheduler between any two steps, whatever its executions
and its coroutine do.

Main results:
* `Sound.stepExecution`, `Sound.step` — every step of an execution and of the coroutine
  keeps it;
* `attemptName_inj` — no two attempts share their name.
-/
import DistributedSql.TaskAttempts

namespace DistributedSql

namespace TaskRun

variable {V : Type*}

/-! ### What holds of a task between any two steps -/

/-- No execution of these attempts is in progress. -/
def Quiet (attempts : List (AttemptRun V)) : Prop :=
  ∀ run ∈ attempts, run.inProgress = false

/-- `current` is the attempt that is executed or wound up. -/
structure Executing (policy : RetryPolicy) (run : TaskRun V) (current : AttemptRun V)
    (earlier : List (AttemptRun V)) : Prop where
  attempts : run.attempts = current :: earlier
  number : earlier.length = run.attemptNumber
  bound : run.attemptNumber < policy.maxAttempts
  quiet : Quiet earlier
  state : run.task.state = .running
  live : ¬ current.attempt.state.Terminal

/-- The state of a task that was stopped; a run that is canceled closes what it finds. -/
def StoppedAt (run : TaskRun V) : StopPlace → Prop
  | .start => run.attempts = [] ∧ (run.task.state = .pending ∨ run.task.state = .canceled)
  | .between => run.task.state = .running ∨ run.task.state = .canceled
  | .attempt => run.task.state = .canceled

/-- What a coroutine that has ended leaves. -/
def EndedSound (token : Bool) (run : TaskRun V) : Except TaskFailure (TaskOutcome V) → Prop
  | .ok outcome => run.task.state = .succeeded ∧ ∃ current earlier,
      run.attempts = current :: earlier ∧ outcome.taskId = run.task.taskId ∧
      outcome.attemptId = current.attempt.attemptId ∧ outcome.workerId = current.worker ∧
      current.phase = .ended (.ok outcome.value)
  | .error (.cancelled place) => token = true ∧ run.StoppedAt place
  | .error (.interrupted place) => run.StoppedAt place
  | .error .unconfirmed | .error (.failed _) => run.task.state = .failed
  | .error (.registry _) => run.StoppedAt .between

/-- What holds in each phase. -/
def PhaseSound (policy : RetryPolicy) (token : Bool) (run : TaskRun V) : TaskPhase V → Prop
  | .idle => run.attempts = [] ∧ run.attemptNumber = 0 ∧
      (run.task.state = .pending ∨ run.task.state = .canceled)
  | .starting => run.attempts = [] ∧ run.attemptNumber = 0 ∧ run.task.state = .pending
  | .choosing => Quiet run.attempts ∧ run.attempts.length = run.attemptNumber ∧
      run.attemptNumber < policy.maxAttempts ∧ run.task.state = .running
  | .waiting _ => ∃ current earlier, Executing policy run current earlier
  | .confirming value => ∃ current earlier, Executing policy run current earlier ∧
      current.phase = .ended (.ok value)
  | .settling result _ => ∃ current earlier, Executing policy run current earlier ∧
      (∀ value, result = .ok value → current.phase = .ended (.ok value)) ∧
      (result = .error .cancelled → token = true)
  | .discarding _ => ∃ current earlier, Executing policy run current earlier ∧
      current.inProgress = false
  | .backoff => Quiet run.attempts ∧ run.attempts.length = run.attemptNumber + 1 ∧
      run.attemptNumber + 1 < policy.maxAttempts ∧ run.task.state = .running
  | .ended result => Quiet run.attempts ∧ run.attempts.length ≤ policy.maxAttempts ∧
      run.EndedSound token result

/-- What holds of a task between any two steps. -/
structure Sound (policy : RetryPolicy) (token : Bool) (run : TaskRun V) : Prop where
  ids : run.attempts.map (·.attempt.attemptId)
    = ((List.range run.attempts.length).map (attemptName run.task.taskId)).reverse
  permitted : ∀ attempt ∈ run.attempts, attempt.phase = .ended (.error .cancelled) → token = true
  phase : run.PhaseSound policy token run.phase

variable {policy : RetryPolicy} {token : Bool} {run run' : TaskRun V} {current : AttemptRun V}
  {earlier : List (AttemptRun V)}

theorem inProgress_of_ended {attempt : AttemptRun V} {result : Except AttemptError V}
    (h : attempt.phase = .ended result) : attempt.inProgress = false := by
  rw [AttemptRun.inProgress, h]

theorem quiet_nil : Quiet ([] : List (AttemptRun V)) := fun _ h => absurd h List.not_mem_nil

theorem Quiet.cons {attempt : AttemptRun V} {attempts : List (AttemptRun V)}
    (h : attempt.inProgress = false) (hquiet : Quiet attempts) : Quiet (attempt :: attempts) :=
  List.forall_mem_cons.mpr ⟨h, hquiet⟩

theorem EndedSound.cancel {result : Except TaskFailure (TaskOutcome V)}
    (h : run.EndedSound token result) : run.EndedSound true result := by
  match result, h with
  | .ok _, h => exact h
  | .error (.cancelled _), h => exact ⟨rfl, h.2⟩
  | .error (.interrupted _), h => exact h
  | .error .unconfirmed, h => exact h
  | .error (.failed _), h => exact h
  | .error (.registry _), h => exact h

theorem PhaseSound.cancel {phase : TaskPhase V} (h : run.PhaseSound policy token phase) :
    run.PhaseSound policy true phase := by
  match phase, h with
  | .settling _ _, ⟨current, earlier, hexecuting, hvalue, _⟩ =>
    exact ⟨current, earlier, hexecuting, hvalue, fun _ => rfl⟩
  | .ended _, h => exact ⟨h.1, h.2.1, h.2.2.cancel⟩
  | .idle, h => exact h
  | .starting, h => exact h
  | .choosing, h => exact h
  | .waiting _, h => exact h
  | .confirming _, h => exact h
  | .discarding _, h => exact h
  | .backoff, h => exact h

/-- What holds still holds when the token is canceled. -/
theorem Sound.cancel (h : run.Sound policy token) : run.Sound policy true :=
  ⟨h.ids, fun _ _ _ => rfl, h.phase.cancel⟩

/-- A task is running while its coroutine is on its way. -/
theorem Sound.running (hsound : run.Sound policy token) (hidle : run.phase ≠ .idle)
    (hstarting : run.phase ≠ .starting) (hended : ∀ result, run.phase ≠ .ended result) :
    run.task.state = .running := by
  have hphase := hsound.phase
  match hrun : run.phase, hphase with
  | .idle, _ => exact absurd hrun hidle
  | .starting, _ => exact absurd hrun hstarting
  | .choosing, hphase => exact hphase.2.2.2
  | .waiting _, ⟨_, _, hexecuting⟩ => exact hexecuting.state
  | .confirming _, ⟨_, _, hexecuting, _⟩ => exact hexecuting.state
  | .settling _ _, ⟨_, _, hexecuting, _⟩ => exact hexecuting.state
  | .discarding _, ⟨_, _, hexecuting, _⟩ => exact hexecuting.state
  | .backoff, hphase => exact hphase.2.2.2
  | .ended result, _ => exact absurd hrun (hended result)

/-! ### Executions keep it -/

section Executions

variable {attempts attempts' : List (AttemptRun V)}

theorem inProgress_of_evolves {attempt attempt' : AttemptRun V}
    (h : attempt.Evolves token attempt') (hended : attempt.inProgress = false) :
    attempt'.inProgress = false := by
  rwa [AttemptRun.inProgress, h.ended hended, ← AttemptRun.inProgress]

theorem Quiet.evolves (h : List.Forall₂ (AttemptRun.Evolves token) attempts attempts')
    (hquiet : Quiet attempts) : Quiet attempts' := by
  intro attempt' hmem
  obtain ⟨attempt, hattempt, hevolves⟩ := ExceptState.exists_mem_of_forall₂ h hmem
  exact inProgress_of_evolves hevolves (hquiet attempt hattempt)

theorem Executing.evolves (hexecuting : Executing policy run current earlier)
    (h : List.Forall₂ (AttemptRun.Evolves token) run.attempts attempts') :
    ∃ current' earlier', AttemptRun.Evolves token current current' ∧
      Executing policy { run with attempts := attempts' } current' earlier' := by
  rw [hexecuting.attempts] at h
  cases h with
  | @cons _ current' _ earlier' hcurrent hearlier =>
    exact ⟨current', earlier', hcurrent, rfl, hearlier.length_eq ▸ hexecuting.number,
      hexecuting.bound, hexecuting.quiet.evolves hearlier, hexecuting.state,
      hcurrent.live hexecuting.live⟩

theorem ended_of_evolves {attempt attempt' : AttemptRun V} {result : Except AttemptError V}
    (h : attempt.Evolves token attempt') (hended : attempt.phase = .ended result) :
    attempt'.phase = .ended result := by
  rw [h.ended (inProgress_of_ended hended), hended]

theorem StoppedAt.evolves {place : StopPlace} (h : run.StoppedAt place)
    (hattempts : List.Forall₂ (AttemptRun.Evolves token) run.attempts attempts') :
    StoppedAt { run with attempts := attempts' } place := by
  cases place with
  | start =>
    refine ⟨?_, h.2⟩
    rw [h.1] at hattempts
    cases hattempts
    rfl
  | between => exact h
  | attempt => exact h

theorem EndedSound.evolves {result : Except TaskFailure (TaskOutcome V)}
    (h : run.EndedSound token result)
    (hattempts : List.Forall₂ (AttemptRun.Evolves token) run.attempts attempts') :
    EndedSound token { run with attempts := attempts' } result := by
  match result, h with
  | .ok outcome, h =>
    obtain ⟨hstate, current, earlier, hcurrent, htask, hid, hworker, hended⟩ := h
    rw [hcurrent] at hattempts
    cases hattempts with
    | @cons _ current' _ earlier' hevolves =>
      exact ⟨hstate, current', earlier', rfl, htask, hid.trans hevolves.attemptId.symm,
        hworker.trans hevolves.worker.symm, ended_of_evolves hevolves hended⟩
  | .error (.cancelled _), h => exact ⟨h.1, h.2.evolves hattempts⟩
  | .error (.interrupted _), h => exact StoppedAt.evolves h hattempts
  | .error .unconfirmed, h => exact h
  | .error (.failed _), h => exact h
  | .error (.registry _), h =>
    have hstopped : run.StoppedAt .between := h
    exact hstopped.evolves hattempts

theorem PhaseSound.evolves {phase : TaskPhase V} (hphase : run.PhaseSound policy token phase)
    (h : List.Forall₂ (AttemptRun.Evolves token) run.attempts attempts') :
    PhaseSound policy token { run with attempts := attempts' } phase := by
  have hlength := h.length_eq
  match phase, hphase with
  | .idle, hphase =>
    rw [hphase.1] at h
    cases h
    exact ⟨rfl, hphase.2⟩
  | .starting, hphase =>
    rw [hphase.1] at h
    cases h
    exact ⟨rfl, hphase.2⟩
  | .choosing, hphase => exact ⟨hphase.1.evolves h, hlength ▸ hphase.2.1, hphase.2.2⟩
  | .waiting _, ⟨_, _, hexecuting⟩ =>
    obtain ⟨current', earlier', -, hexecuting'⟩ := hexecuting.evolves h
    exact ⟨current', earlier', hexecuting'⟩
  | .confirming _, ⟨_, _, hexecuting, hended⟩ =>
    obtain ⟨current', earlier', hevolves, hexecuting'⟩ := hexecuting.evolves h
    exact ⟨current', earlier', hexecuting', ended_of_evolves hevolves hended⟩
  | .settling _ _, ⟨_, _, hexecuting, hvalue, htoken⟩ =>
    obtain ⟨current', earlier', hevolves, hexecuting'⟩ := hexecuting.evolves h
    exact ⟨current', earlier', hexecuting',
      fun value hok => ended_of_evolves hevolves (hvalue value hok), htoken⟩
  | .discarding _, ⟨_, _, hexecuting, hended⟩ =>
    obtain ⟨current', earlier', hevolves, hexecuting'⟩ := hexecuting.evolves h
    exact ⟨current', earlier', hexecuting', inProgress_of_evolves hevolves hended⟩
  | .backoff, hphase => exact ⟨hphase.1.evolves h, hlength ▸ hphase.2.1, hphase.2.2⟩
  | .ended _, hphase => exact ⟨hphase.1.evolves h, hlength ▸ hphase.2.1, hphase.2.2.evolves h⟩

theorem map_attemptId_of_evolves (h : List.Forall₂ (AttemptRun.Evolves token) attempts attempts') :
    attempts'.map (·.attempt.attemptId) = attempts.map (·.attempt.attemptId) := by
  induction h with
  | nil => rfl
  | cons hevolves _ ih => rw [List.map_cons, List.map_cons, hevolves.attemptId, ih]

theorem Sound.evolves (hsound : run.Sound policy token)
    (h : List.Forall₂ (AttemptRun.Evolves token) run.attempts attempts') :
    Sound policy token { run with attempts := attempts' } := by
  refine ⟨?_, fun attempt' hmem hcancelled => ?_, ?_⟩
  · show attempts'.map _ = ((List.range attempts'.length).map (attemptName run.task.taskId)).reverse
    rw [map_attemptId_of_evolves h, hsound.ids, h.length_eq]
  · obtain ⟨attempt, hattempt, hevolves⟩ := ExceptState.exists_mem_of_forall₂ h hmem
    rcases hevolves.cancelled hcancelled with heq | htoken
    · exact hsound.permitted attempt hattempt (heq.trans hcancelled)
    · exact htoken
  · exact hsound.phase.evolves h

/-- A step of an execution keeps what holds of the task. -/
theorem Sound.stepExecution {number : ℕ} {event : ExecutionEvent V}
    (hsound : run.Sound policy token) (h : run.stepExecution token number event = some run') :
    run'.Sound policy token := by
  obtain ⟨attempts', hattempts, rfl⟩ := Option.map_eq_some_iff.mp h
  exact hsound.evolves (evolves_stepAttempts hattempts)

end Executions

/-! ### The coroutine keeps it -/

theorem sound_attemptLoop (run : TaskRun V) (ids : run.attempts.map (·.attempt.attemptId)
      = ((List.range run.attempts.length).map (attemptName run.task.taskId)).reverse)
    (hpermitted : ∀ attempt ∈ run.attempts,
      attempt.phase = .ended (.error .cancelled) → token = true)
    (hquiet : Quiet run.attempts) (hlength : run.attempts.length = run.attemptNumber)
    (hbound : run.attemptNumber < policy.maxAttempts) (hstate : run.task.state = .running) :
    (run.attemptLoop token).Sound policy token := by
  refine ⟨ids, hpermitted, ?_⟩
  cases token with
  | true => exact ⟨hquiet, hlength.trans_le hbound.le, rfl, Or.inl hstate⟩
  | false => exact ⟨hquiet, hlength, hbound, hstate⟩

theorem sound_exhausted (run : TaskRun V) (ids : run.attempts.map (·.attempt.attemptId)
      = ((List.range run.attempts.length).map (attemptName run.task.taskId)).reverse)
    (hpermitted : ∀ attempt ∈ run.attempts,
      attempt.phase = .ended (.error .cancelled) → token = true)
    (hquiet : Quiet run.attempts) (hlength : run.attempts.length ≤ policy.maxAttempts)
    (last : Attempt) (error : AttemptError) : (run.exhausted last error).Sound policy token :=
  ⟨ids, hpermitted, hquiet, hlength, rfl⟩

theorem Sound.noWorker (hsound : run.Sound policy token) (hphase : run.phase = .choosing)
    (message : String) : (run.noWorker message).Sound policy token := by
  have hchoosing := hsound.phase
  rw [hphase] at hchoosing
  obtain ⟨hquiet, hlength, hbound, -⟩ := hchoosing
  unfold TaskRun.noWorker
  split
  · exact sound_exhausted run hsound.ids hsound.permitted hquiet (by omega) _ _
  · refine sound_exhausted _ rfl ?_ (Quiet.cons rfl quiet_nil) ?_ _ _
    · intro attempt hmem hended
      obtain rfl := List.mem_singleton.mp hmem
      cases hended
    · exact policy.maxAttempts_pos

theorem Sound.attempt (hsound : run.Sound policy token) (hphase : run.phase = .choosing)
    (worker : String) : (run.attempt worker).Sound policy token := by
  have hchoosing := hsound.phase
  rw [hphase] at hchoosing
  obtain ⟨hquiet, hlength, hbound, hstate⟩ := hchoosing
  refine ⟨?_, ?_, _, _, rfl, hlength, hbound, hquiet, hstate,
    fun hterminal => hterminal.1 rfl⟩
  · show attemptName run.task.taskId run.attempts.length :: run.attempts.map _
      = ((List.range (run.attempts.length + 1)).map (attemptName run.task.taskId)).reverse
    rw [hsound.ids, List.range_succ, List.map_append, List.reverse_append]
    rfl
  · intro attempt hmem hended
    rcases List.mem_cons.mp hmem with rfl | hmem
    · cases hended
    · exact hsound.permitted attempt hmem hended

/-- A new version of the current attempt, under its old id. -/
theorem Sound.ids_cons (hsound : run.Sound policy token)
    (hattempts : run.attempts = current :: earlier) {current' : AttemptRun V}
    (hid : current'.attempt.attemptId = current.attempt.attemptId) :
    (current' :: earlier).map (·.attempt.attemptId)
      = ((List.range (current' :: earlier).length).map (attemptName run.task.taskId)).reverse := by
  have hids := hsound.ids
  rw [hattempts] at hids
  rw [List.map_cons, hid]
  exact hids

theorem Sound.permitted_cons (hsound : run.Sound policy token)
    (hattempts : run.attempts = current :: earlier) {current' : AttemptRun V}
    (hphase : current'.phase = current.phase) :
    ∀ attempt ∈ current' :: earlier, attempt.phase = .ended (.error .cancelled) → token = true := by
  intro attempt hmem hended
  rcases List.mem_cons.mp hmem with rfl | hmem
  · exact hsound.permitted current (hattempts ▸ List.mem_cons_self) (hphase ▸ hended)
  · exact hsound.permitted attempt (hattempts ▸ List.mem_cons_of_mem _ hmem) hended

theorem Sound.settling (hsound : run.Sound policy token)
    (hexecuting : Executing policy run current earlier) {result : Except AttemptError V}
    (hvalue : ∀ value, result = .ok value → current.phase = .ended (.ok value))
    (hcancelled : result = .error .cancelled → token = true) (workerLost : Bool) :
    (run.settling current earlier result workerLost).Sound policy token := by
  refine ⟨hsound.ids_cons hexecuting.attempts (by rw [AttemptRun.requestCancel_attempt]),
    hsound.permitted_cons hexecuting.attempts current.requestCancel_phase, _, _,
    ⟨rfl, hexecuting.number, hexecuting.bound, hexecuting.quiet, hexecuting.state, ?_⟩,
    fun value hok => ?_, hcancelled⟩
  · rw [AttemptRun.requestCancel_attempt]
    exact hexecuting.live
  · rw [AttemptRun.requestCancel_phase]
    exact hvalue value hok

theorem Sound.close (hsound : run.Sound policy token)
    (hexecuting : Executing policy run current earlier) (hended : current.inProgress = false)
    {state : AttemptState} {taskState : TaskState} {result : Except TaskFailure (TaskOutcome V)}
    (hresult : EndedSound token (run.close current earlier state taskState result) result) :
    (run.close current earlier state taskState result).Sound policy token := by
  have hbound : earlier.length + 1 ≤ policy.maxAttempts := hexecuting.number ▸ hexecuting.bound
  exact ⟨hsound.ids_cons hexecuting.attempts rfl, hsound.permitted_cons hexecuting.attempts rfl,
    Quiet.cons hended hexecuting.quiet, hbound, hresult⟩

theorem Sound.conclude (hsound : run.Sound policy token)
    (hexecuting : Executing policy run current earlier) (hended : current.inProgress = false)
    {result : Except AttemptError V}
    (hvalue : ∀ value, result = .ok value → current.phase = .ended (.ok value))
    (hcancelled : result = .error .cancelled → token = true) :
    (run.conclude token current earlier result).Sound policy token := by
  unfold TaskRun.conclude
  split
  · next value =>
    split
    · next htoken => exact hsound.close hexecuting hended ⟨htoken, rfl⟩
    · exact hsound.close hexecuting hended
        ⟨rfl, _, _, rfl, rfl, rfl, rfl, hvalue value rfl⟩
  · exact hsound.close hexecuting hended ⟨hcancelled rfl, rfl⟩
  · refine hsound.close hexecuting hended ?_
    exact (rfl : TaskState.canceled = .canceled)
  · refine hsound.close hexecuting hended ?_
    exact (rfl : TaskState.failed = .failed)
  · exact ⟨hsound.ids, hsound.permitted, current, earlier,
      ⟨hexecuting.attempts, hexecuting.number, hexecuting.bound, hexecuting.quiet,
        hexecuting.state, hexecuting.live⟩, hended⟩

theorem Sound.fail (hsound : run.Sound policy token)
    (hexecuting : Executing policy run current earlier) (hended : current.inProgress = false)
    (error : AttemptError) : (run.fail policy current earlier error).Sound policy token := by
  have hnumber := hexecuting.number
  have hbound := hexecuting.bound
  have hquiet : ∀ detail, Quiet (current.failed error detail :: earlier) := fun detail =>
    Quiet.cons (show (current.failed error detail).inProgress = false from hended) hexecuting.quiet
  have hpermitted : ∀ detail, ∀ attempt ∈ current.failed error detail :: earlier,
      attempt.phase = .ended (.error .cancelled) → token = true :=
    fun detail => hsound.permitted_cons hexecuting.attempts rfl
  unfold TaskRun.fail
  dsimp only
  split
  · next hmore =>
    exact ⟨hsound.ids_cons hexecuting.attempts rfl, hpermitted _, hquiet _, congrArg (· + 1) hnumber,
      hmore, hexecuting.state⟩
  · refine sound_exhausted _ (hsound.ids_cons hexecuting.attempts rfl) (hpermitted _) (hquiet _) ?_
      _ _
    show earlier.length + 1 ≤ _
    omega

theorem heardError_eq_some {execution : Except AttemptError V} {workerLost unheard : Bool}
    {error : AttemptError} (h : heardError workerLost unheard execution = some error) :
    execution = .error error := by
  unfold heardError at h
  split at h
  · cases h
  · cases h
  · split at h
    · cases h
    · cases h
      rfl
  · split at h
    · cases h
    · cases h
      rfl

/-- What `_execute_attempt` ends with was on its way, or raised beside it. -/
theorem settledResult_eq (result execution : Except AttemptError V) (workerLost : Bool)
    (lease : LeaseWatch) (unheard unheardLease : Bool) :
    settledResult result workerLost execution lease unheard unheardLease = result ∨
      (∃ error, execution = .error error ∧
        settledResult result workerLost execution lease unheard unheardLease = .error error) ∨
      ∃ error, settledResult result workerLost execution lease unheard unheardLease
        = .error (.raised error) := by
  unfold settledResult
  split
  · next hheard => exact Or.inr (Or.inl ⟨_, heardError_eq_some hheard, rfl⟩)
  · split
    · exact Or.inl rfl
    · exact Or.inr (Or.inr ⟨_, rfl⟩)
  · exact Or.inl rfl

theorem Executing.phase (h : Executing policy run current earlier) (phase : TaskPhase V) :
    Executing policy { run with phase := phase } current earlier :=
  ⟨h.attempts, h.number, h.bound, h.quiet, h.state, h.live⟩

theorem sound_stopped {failure : TaskFailure} (hphase : run.PhaseSound policy token run.phase)
    (hstops : Stops token run.phase failure) :
    PhaseSound policy token { run with phase := .ended (.error failure) }
      (.ended (.error failure)) := by
  rcases hstops with ⟨hrun, rfl⟩ | ⟨hbetween, hfailure⟩
  · rw [hrun] at hphase
    obtain ⟨hattempts, -, hstate⟩ := hphase
    refine ⟨?_, ?_, hattempts, Or.inl hstate⟩
    · exact (show Quiet run.attempts from hattempts ▸ quiet_nil)
    · exact (congrArg List.length hattempts).trans_le (Nat.zero_le _)
  · have hrun : Quiet run.attempts ∧ run.attempts.length ≤ policy.maxAttempts ∧
        run.task.state = .running := by
      rcases hbetween with hrun | ⟨error, hrun⟩ | hrun
      · rw [hrun] at hphase
        obtain ⟨hquiet, hlength, hbound, hstate⟩ := hphase
        exact ⟨hquiet, hlength.trans_le hbound.le, hstate⟩
      · rw [hrun] at hphase
        obtain ⟨current, earlier, hexecuting, hended⟩ := hphase
        have hbound : earlier.length + 1 ≤ policy.maxAttempts := hexecuting.number ▸ hexecuting.bound
        rw [hexecuting.attempts]
        exact ⟨Quiet.cons hended hexecuting.quiet, hbound, hexecuting.state⟩
      · rw [hrun] at hphase
        obtain ⟨hquiet, hlength, hbound, hstate⟩ := hphase
        exact ⟨hquiet, hlength.trans_le hbound.le, hstate⟩
    refine ⟨hrun.1, hrun.2.1, ?_⟩
    rcases hfailure with rfl | ⟨rfl, htoken⟩ | ⟨error, rfl⟩
    · exact Or.inl hrun.2.2
    · exact ⟨htoken, Or.inl hrun.2.2⟩
    · exact Or.inl hrun.2.2

/-- What goes into the `finally` of `_execute_attempt` with a value got it from the execution. -/
theorem PhaseSound.of_leaves {result : Except AttemptError V}
    (hphase : run.PhaseSound policy token run.phase)
    (hrun : (∃ observed, run.phase = .waiting observed) ∨ ∃ value, run.phase = .confirming value)
    (hattempts : run.attempts = current :: earlier) (hleaves : Leaves run.phase current result) :
    Executing policy run current earlier ∧
      ∀ value, result = .ok value → current.phase = .ended (.ok value) := by
  rcases hrun with ⟨observed, hrun⟩ | ⟨value, hrun⟩
  · rw [hrun] at hphase hleaves
    obtain ⟨current', earlier', hexecuting⟩ := hphase
    obtain ⟨rfl, rfl⟩ := List.cons.inj (hattempts.symm.trans hexecuting.attempts)
    refine ⟨hexecuting, fun value hok => ?_⟩
    subst hok
    rcases hleaves with ⟨error, herror, -⟩ | ⟨-, hended⟩ | ⟨value, hconfirming, -⟩
    · cases herror
    · exact hended
    · cases hconfirming
  · rw [hrun] at hphase hleaves
    obtain ⟨current', earlier', hexecuting, hended⟩ := hphase
    obtain ⟨rfl, rfl⟩ := List.cons.inj (hattempts.symm.trans hexecuting.attempts)
    refine ⟨hexecuting, fun value' hok => ?_⟩
    subst hok
    rcases hleaves with ⟨error, herror, -⟩ | ⟨⟨observed, hwaiting⟩, -⟩ | ⟨value, hconfirming, hok⟩
    · cases herror
    · cases hwaiting
    · cases hconfirming
      cases hok
      exact hended

/-- A step of the coroutine keeps what holds of the task. -/
theorem Sound.moves (hsound : run.Sound policy token) (h : Moves policy token run run') :
    run'.Sound policy token := by
  have hphase := hsound.phase
  cases h with
  | began hrun =>
    rw [hrun] at hphase
    obtain ⟨hattempts, hnumber, -⟩ := hphase
    refine sound_attemptLoop _ hsound.ids hsound.permitted ?_ ?_ (hnumber ▸ policy.maxAttempts_pos)
      rfl
    · show Quiet run.attempts
      rw [hattempts]
      exact quiet_nil
    · rw [hattempts, hnumber, List.length_nil]
  | stopped failure hstops => exact ⟨hsound.ids, hsound.permitted, sound_stopped hphase hstops⟩
  | attempted worker hrun => exact hsound.attempt hrun worker
  | noWorker message hrun => exact hsound.noWorker hrun message
  | observed _ _ hrun _ =>
    rw [hrun] at hphase
    obtain ⟨current, earlier, hexecuting⟩ := hphase
    exact ⟨hsound.ids, hsound.permitted, current, earlier, hexecuting.phase _⟩
  | confirming value current earlier hrun hattempts hended =>
    rw [hrun] at hphase
    obtain ⟨current', earlier', hexecuting⟩ := hphase
    obtain ⟨rfl, rfl⟩ := List.cons.inj (hattempts.symm.trans hexecuting.attempts)
    exact ⟨hsound.ids, hsound.permitted, current, earlier, hexecuting.phase _, hended⟩
  | left current earlier result workerLost hrun hattempts hleaves =>
    obtain ⟨hexecuting, hvalue⟩ := hphase.of_leaves hrun hattempts hleaves
    refine hsound.settling hexecuting hvalue (fun hcancelled => ?_) workerLost
    rcases hleaves with ⟨error, rfl, hne⟩ | ⟨-, hended⟩ | ⟨value, -, rfl⟩
    · cases hcancelled
      exact absurd rfl hne
    · exact hsound.permitted current (hattempts ▸ List.mem_cons_self) (hcancelled ▸ hended)
    · cases hcancelled
  | kept => exact hsound
  | concluded current earlier result execution workerLost unheard unheardLease hrun hattempts hended =>
    rw [hrun] at hphase
    obtain ⟨current', earlier', hexecuting, hvalue, htoken⟩ := hphase
    obtain ⟨rfl, rfl⟩ := List.cons.inj (hattempts.symm.trans hexecuting.attempts)
    refine hsound.conclude hexecuting (inProgress_of_ended hended) ?_ ?_
    · intro value hok
      rcases settledResult_eq result execution workerLost current.lease unheard unheardLease with
        heq | ⟨error, -, heq⟩ | ⟨error, heq⟩
      · exact hvalue value (heq.symm.trans hok)
      · cases heq.symm.trans hok
      · cases heq.symm.trans hok
    · intro hcancelled
      rcases settledResult_eq result execution workerLost current.lease unheard unheardLease with
        heq | ⟨error, hexecution, heq⟩ | ⟨error, heq⟩
      · exact htoken (heq.symm.trans hcancelled)
      · cases heq.symm.trans hcancelled
        exact hsound.permitted current (hattempts ▸ List.mem_cons_self) (hexecution ▸ hended)
      · cases heq.symm.trans hcancelled
  | failed error current earlier hrun hattempts =>
    rw [hrun] at hphase
    obtain ⟨current', earlier', hexecuting, hended⟩ := hphase
    obtain ⟨rfl, rfl⟩ := List.cons.inj (hattempts.symm.trans hexecuting.attempts)
    exact hsound.fail hexecuting hended error
  | retried hrun htoken =>
    rw [hrun] at hphase
    obtain ⟨hquiet, hlength, hbound, hstate⟩ := hphase
    exact sound_attemptLoop _ hsound.ids hsound.permitted hquiet hlength hbound hstate

theorem Sound.step {event : CoroutineEvent} (hsound : run.Sound policy token)
    (h : run.step policy token event = some run') : run'.Sound policy token :=
  hsound.moves (moves_of_step h)

/-! ### What the scheduler does to a task -/

theorem Sound.schedule (hsound : run.Sound policy token) (hphase : run.phase = .idle)
    (hstate : run.task.state = .pending) : run.schedule.Sound policy token := by
  have hidle := hsound.phase
  rw [hphase] at hidle
  exact ⟨hsound.ids, hsound.permitted, hidle.1, hidle.2.1, hstate⟩

theorem Sound.cancelIdle (hsound : run.Sound policy token) (hphase : run.phase = .idle) :
    run.cancelTask.Sound policy token := by
  have hidle := hsound.phase
  rw [hphase] at hidle
  refine ⟨hsound.ids, hsound.permitted, ?_⟩
  show PhaseSound policy token run.cancelTask run.phase
  rw [hphase]
  exact ⟨hidle.1, hidle.2.1, Or.inr rfl⟩

theorem Sound.cancelEnded {result : Except TaskFailure (TaskOutcome V)}
    (hsound : run.Sound policy token) (hphase : run.phase = .ended result)
    (hstate : run.task.state = .pending ∨ run.task.state = .running) :
    run.cancelTask.Sound policy token := by
  have hended := hsound.phase
  rw [hphase] at hended
  obtain ⟨hquiet, hlength, hresult⟩ := hended
  have hstopped : ∀ place, run.StoppedAt place → run.cancelTask.StoppedAt place := by
    intro place h
    cases place with
    | start => exact ⟨h.1, Or.inr rfl⟩
    | between => exact Or.inr rfl
    | attempt => rfl
  refine ⟨hsound.ids, hsound.permitted, ?_⟩
  show PhaseSound policy token run.cancelTask run.phase
  rw [hphase]
  refine ⟨hquiet, hlength, ?_⟩
  match result, hresult with
  | .ok _, ⟨hsucceeded, _⟩ => rcases hstate with h | h <;> cases hsucceeded.symm.trans h
  | .error (.cancelled place), ⟨htoken, h⟩ => exact ⟨htoken, hstopped place h⟩
  | .error (.interrupted place), h => exact hstopped place h
  | .error .unconfirmed, hfailed => rcases hstate with h | h <;> cases hfailed.symm.trans h
  | .error (.failed _), hfailed => rcases hstate with h | h <;> cases hfailed.symm.trans h
  | .error (.registry _), h => exact hstopped .between h

/-! ### What no step changes -/

theorem noWorker_task (run : TaskRun V) (message : String) :
    (run.noWorker message).task = { run.task with state := .failed } := by
  unfold TaskRun.noWorker
  split <;> rfl

theorem conclude_task (run : TaskRun V) (result : Except AttemptError V) :
    (run.conclude token current earlier result).task
      = { run.task with state := (run.conclude token current earlier result).task.state } := by
  unfold TaskRun.conclude
  split
  · split <;> rfl
  all_goals rfl

theorem fail_task (run : TaskRun V) (error : AttemptError) :
    (run.fail policy current earlier error).task
      = { run.task with state := (run.fail policy current earlier error).task.state } := by
  unfold TaskRun.fail
  dsimp only
  split <;> rfl

/-- A step of the coroutine changes only the state of its task. -/
theorem task_of_moves (h : Moves policy token run run') :
    run'.task = { run.task with state := run'.task.state } := by
  cases h with
  | noWorker message => rw [noWorker_task]
  | concluded => exact conclude_task run _
  | failed => exact fail_task run _
  | began => rfl
  | stopped => rfl
  | attempted => rfl
  | observed => rfl
  | confirming => rfl
  | left => rfl
  | kept => rfl
  | retried => rfl

/-- Only a coroutine that exists and has not ended takes a step. -/
theorem phase_of_moves (h : Moves policy token run run') :
    run.phase ≠ .idle ∧ ∀ result, run.phase ≠ .ended result := by
  have hne : ∀ {phase : TaskPhase V}, run.phase = phase → phase ≠ .idle →
      (∀ result, phase ≠ .ended result) → run.phase ≠ .idle ∧ ∀ result, run.phase ≠ .ended result :=
    fun heq hidle hended => heq ▸ ⟨hidle, hended⟩
  cases h with
  | began hphase => exact hne hphase nofun nofun
  | stopped failure hstops =>
    rcases hstops with ⟨hphase, -⟩ | ⟨hphase | ⟨error, hphase⟩ | hphase, -⟩
    · exact hne hphase nofun nofun
    · exact hne hphase nofun nofun
    · exact hne hphase nofun nofun
    · exact hne hphase nofun nofun
  | attempted worker hphase => exact hne hphase nofun nofun
  | noWorker message hphase => exact hne hphase nofun nofun
  | observed _ _ hphase => exact hne hphase nofun nofun
  | confirming _ _ _ hphase => exact hne hphase nofun nofun
  | left _ _ _ _ hphase =>
    rcases hphase with ⟨_, hphase⟩ | ⟨_, hphase⟩
    · exact hne hphase nofun nofun
    · exact hne hphase nofun nofun
  | kept _ _ hphase => exact hne hphase nofun nofun
  | concluded _ _ _ _ _ _ _ hphase => exact hne hphase nofun nofun
  | failed _ _ _ hphase => exact hne hphase nofun nofun
  | retried hphase => exact hne hphase nofun nofun

theorem noWorker_phase (run : TaskRun V) (message : String) :
    (run.noWorker message).phase ≠ .idle := by
  unfold TaskRun.noWorker
  split <;> exact nofun

/-- No step of the coroutine leaves it uncreated. -/
theorem phase_ne_idle_of_moves (h : Moves policy token run run') : run'.phase ≠ .idle := by
  cases h with
  | began =>
    unfold TaskRun.attemptLoop
    cases token <;> exact nofun
  | noWorker message => exact noWorker_phase run message
  | kept _ _ hphase => exact fun hidle => nomatch hidle.symm.trans hphase
  | concluded =>
    unfold TaskRun.conclude
    split
    · split <;> exact nofun
    all_goals exact nofun
  | failed =>
    unfold TaskRun.fail
    dsimp only
    split <;> exact nofun
  | retried =>
    unfold TaskRun.attemptLoop
    cases token <;> exact nofun
  | stopped => exact nofun
  | attempted => exact nofun
  | observed => exact nofun
  | confirming => exact nofun
  | left => exact nofun

/-- What a step of a task or of one of its executions keeps of it. -/
structure Follows (run run' : TaskRun V) : Prop where
  taskId : run'.task.taskId = run.task.taskId
  stageId : run'.task.stageId = run.task.stageId
  idle : run'.phase = .idle ↔ run.phase = .idle
  ended : ∀ result, run.phase = .ended result → run'.phase = .ended result
  state : run.phase = .idle → run'.task.state = run.task.state

theorem Follows.refl (run : TaskRun V) : Follows run run :=
  ⟨rfl, rfl, Iff.rfl, fun _ => id, fun _ => rfl⟩

theorem follows_of_step {event : CoroutineEvent} (h : run.step policy token event = some run') :
    Follows run run' := by
  have hmoves := moves_of_step h
  have htask := task_of_moves hmoves
  obtain ⟨hidle, hended⟩ := phase_of_moves hmoves
  exact ⟨by rw [htask], by rw [htask], iff_of_false (phase_ne_idle_of_moves hmoves) hidle,
    fun result hphase => absurd hphase (hended result), fun hphase => absurd hphase hidle⟩

theorem follows_of_stepExecution {number : ℕ} {event : ExecutionEvent V}
    (h : run.stepExecution token number event = some run') : Follows run run' := by
  obtain ⟨attempts, -, rfl⟩ := Option.map_eq_some_iff.mp h
  exact ⟨rfl, rfl, Iff.rfl, fun _ => id, fun _ => rfl⟩

/-! ### Names of attempts -/

/-- Tasks and attempts are told apart by the names of attempts. -/
theorem attemptName_inj {taskId taskId' : String} {number number' : ℕ}
    (h : attemptName taskId number = attemptName taskId' number') :
    taskId = taskId' ∧ number = number' :=
  numbered_inj rfl h

end TaskRun

end DistributedSql
