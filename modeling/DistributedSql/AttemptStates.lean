/-
The recorded states of attempts over a run (`Attempt.state` in `execution/scheduler.py`).

A thread of a `LogicalWorker` announces its start by a callback of the event loop that
nothing takes back.  Delivered to an attempt that has ended unstarted, it sets the attempt
to RUNNING again.

Main results:
* `attempt_states` — as long as no start is delivered so late, states only advance, and the
  earlier attempts of a task that has succeeded have failed or are lost;
* `running_of_deliversLate` — each start that is delivered so late rewrites a state;
* `not_attempt_states` — an attempt that is LOST, and then RUNNING.
-/
import DistributedSql.StageRunsSound

namespace DistributedSql

/-- Forward, or not at all: CREATED to RUNNING, or either to the end. -/
def AttemptState.MovesTo (state state' : AttemptState) : Prop :=
  state' = state ∨ state = .created ∧ state' = .running ∨ ¬ state.Terminal ∧ state'.Terminal

namespace AttemptState

theorem MovesTo.refl (state : AttemptState) : state.MovesTo state := Or.inl rfl

theorem MovesTo.trans {state state' state'' : AttemptState} (h : state.MovesTo state')
    (h' : state'.MovesTo state'') : state.MovesTo state'' := by
  rcases h with rfl | ⟨rfl, rfl⟩ | ⟨hlive, hterminal⟩
  · exact h'
  · rcases h' with rfl | ⟨hcreated, -⟩ | ⟨-, hterminal⟩
    · exact Or.inr (Or.inl ⟨rfl, rfl⟩)
    · cases hcreated
    · exact Or.inr (Or.inr ⟨by decide, hterminal⟩)
  · rcases h' with rfl | ⟨rfl, -⟩ | ⟨hlive', -⟩
    · exact Or.inr (Or.inr ⟨hlive, hterminal⟩)
    · exact absurd rfl hterminal.1
    · exact absurd hterminal hlive'

/-- The end is final. -/
theorem MovesTo.eq_of_terminal {state state' : AttemptState} (h : state.MovesTo state')
    (hterminal : state.Terminal) : state' = state := by
  rcases h with rfl | ⟨rfl, -⟩ | ⟨hlive, -⟩
  · rfl
  · exact absurd rfl hterminal.1
  · exact absurd hterminal hlive

theorem movesTo_running {state : AttemptState} (h : ¬ state.Terminal) : state.MovesTo .running := by
  cases state with
  | created => exact Or.inr (Or.inl ⟨rfl, rfl⟩)
  | running => exact .refl _
  | succeeded => exact absurd (by decide) h
  | failed => exact absurd (by decide) h
  | canceled => exact absurd (by decide) h
  | lost => exact absurd (by decide) h

theorem movesTo_terminal {state state' : AttemptState} (h : ¬ state.Terminal)
    (h' : state'.Terminal) : state.MovesTo state' := Or.inr (Or.inr ⟨h, h'⟩)

end AttemptState

namespace AttemptRun

variable {V : Type*} {token : Bool} {run run' : AttemptRun V}

/-- The same attempt, its state not set back. -/
def Advances (run run' : AttemptRun V) : Prop :=
  run'.attempt.attemptId = run.attempt.attemptId ∧ run.attempt.state.MovesTo run'.attempt.state

theorem Advances.refl (run : AttemptRun V) : run.Advances run := ⟨rfl, .refl _⟩

theorem Advances.trans {run'' : AttemptRun V} (h : run.Advances run') (h' : run'.Advances run'') :
    run.Advances run'' := ⟨h'.1.trans h.1, h.2.trans h'.2⟩

/-- The start of the attempt would come too late. -/
def endedUnstarted (run : AttemptRun V) : Bool := !run.started && decide run.attempt.state.Terminal

/-- An execution changes the state of its attempt by a start only. -/
theorem advances_of_step {event : ExecutionEvent V} (h : run.step token event = some run')
    (hlive : run.inProgress = true → ¬ run.attempt.state.Terminal)
    (hlate : event = .deliver → run.endedUnstarted = false) : run.Advances run' := by
  have hsame : run'.attempt = run.attempt → run.Advances run' := fun hattempt => by
    rw [Advances, hattempt]
    exact ⟨rfl, .refl _⟩
  have hstarted : (run.started = false → ¬ run.attempt.state.Terminal) →
      run'.attempt = run.markStarted.attempt → run.Advances run' := by
    intro hlive hattempt
    unfold markStarted at hattempt
    split_ifs at hattempt with hstarted
    · exact hsame hattempt
    · rw [Advances, hattempt]
      exact ⟨rfl, AttemptState.movesTo_running (hlive (by simpa using hstarted))⟩
  cases event with
  | deliver =>
    simp only [step] at h
    split_ifs at h
    cases h
    have hlate := hlate rfl
    refine hstarted (fun hunstarted hterminal => ?_) rfl
    rw [endedUnstarted, hunstarted, decide_eq_true hterminal] at hlate
    cases hlate
  | announce =>
    simp only [step] at h
    split at h
    · next hphase =>
      cases h
      exact hstarted (fun _ => hlive (by rw [inProgress, hphase])) rfl
    · cases h
  | acquire active =>
    simp only [step] at h
    split at h
    · split_ifs at h
      cases h
      exact hsame rfl
    · cases h
  | submit =>
    simp only [step] at h
    split at h
    · cases h
      exact hsame rfl
    · cases h
  | pick =>
    simp only [step] at h
    split_ifs at h
    cases h
    exact hsame rfl
  | post =>
    simp only [step] at h
    split_ifs at h
    cases h
    exact hsame rfl
  | finish result =>
    simp only [step] at h
    split at h
    · cases h
    · split at h
      · split_ifs at h
        cases h
        exact hsame rfl
      · split_ifs at h
        cases h
        exact hsame rfl
      · cases h
  | leaseEnds watch =>
    simp only [step] at h
    split_ifs at h
    cases h
    exact hsame rfl

end AttemptRun

namespace TaskRun

variable {V : Type*} {policy : RetryPolicy} {token : Bool} {run run' : TaskRun V}
  {current : AttemptRun V} {earlier : List (AttemptRun V)}

/-- Every attempt is kept, its state not set back. -/
def Advances (run run' : TaskRun V) : Prop :=
  ∀ number attempt, run.attempt? number = some attempt →
    ∃ attempt', run'.attempt? number = some attempt' ∧ attempt.Advances attempt'

theorem Advances.refl (run : TaskRun V) : run.Advances run := fun _ attempt h =>
  ⟨attempt, h, .refl attempt⟩

theorem Advances.trans {run'' : TaskRun V} (h : run.Advances run') (h' : run'.Advances run'') :
    run.Advances run'' := by
  intro number attempt hget
  obtain ⟨attempt', hget', hadvances⟩ := h number attempt hget
  obtain ⟨attempt'', hget'', hadvances'⟩ := h' number attempt' hget'
  exact ⟨attempt'', hget'', hadvances.trans hadvances'⟩

theorem exists_getElem?_of_forall₂ {α β : Type*} {R : α → β → Prop} {as : List α} {bs : List β}
    (h : List.Forall₂ R as bs) {n : ℕ} {a : α} (ha : as[n]? = some a) :
    ∃ b, bs[n]? = some b ∧ R a b := by
  induction h generalizing n with
  | nil => simp at ha
  | cons hR _ ih =>
    cases n with
    | zero =>
      cases ha
      exact ⟨_, rfl, hR⟩
    | succ n => exact ih ha

/-- Attempts advance where they stand, and new ones are put before them. -/
theorem advances_of_forall₂ (added : List (AttemptRun V)) {kept : List (AttemptRun V)}
    (hattempts : run'.attempts = added ++ kept)
    (h : List.Forall₂ AttemptRun.Advances run.attempts kept) : run.Advances run' := by
  intro number attempt hget
  obtain ⟨attempt', hget', hadvances⟩ := exists_getElem?_of_forall₂ (List.forall₂_reverse_iff.mpr h) hget
  refine ⟨attempt', ?_, hadvances⟩
  rw [attempt?, hattempts, List.reverse_append,
    List.getElem?_append_left (List.getElem?_eq_some_iff.mp hget').1, hget']

theorem forall₂_refl (attempts : List (AttemptRun V)) :
    List.Forall₂ AttemptRun.Advances attempts attempts :=
  List.forall₂_same.mpr fun attempt _ => .refl attempt

theorem advances_of_eq (h : run'.attempts = run.attempts) : run.Advances run' :=
  advances_of_forall₂ [] h (forall₂_refl _)

/-- The current attempt advances. -/
theorem advances_of_cons {current' : AttemptRun V} (hattempts : run.attempts = current :: earlier)
    (hattempts' : run'.attempts = current' :: earlier) (h : current.Advances current') :
    run.Advances run' := by
  refine advances_of_forall₂ [] hattempts' ?_
  rw [hattempts]
  exact .cons h (forall₂_refl earlier)

/-- An attempt in progress has not ended. -/
theorem Sound.live (hsound : run.Sound policy token) {attempt : AttemptRun V}
    (hmem : attempt ∈ run.attempts) (hprogress : attempt.inProgress = true) :
    ¬ attempt.attempt.state.Terminal := by
  have hquiet : ∀ {attempts : List (AttemptRun V)}, Quiet attempts → attempt ∉ attempts :=
    fun hquiet hmem => by simp [hquiet attempt hmem] at hprogress
  have hexecuting : ∀ {current : AttemptRun V} {earlier : List (AttemptRun V)},
      Executing policy run current earlier → ¬ attempt.attempt.state.Terminal := by
    intro current earlier hexecuting
    rw [hexecuting.attempts] at hmem
    rcases List.mem_cons.mp hmem with rfl | hmem
    · exact hexecuting.live
    · exact absurd hmem (hquiet hexecuting.quiet)
  have hphase := hsound.phase
  match run.phase, hphase with
  | .idle, hphase => exact absurd (hphase.1 ▸ hmem) List.not_mem_nil
  | .starting, hphase => exact absurd (hphase.1 ▸ hmem) List.not_mem_nil
  | .choosing, hphase => exact absurd hmem (hquiet hphase.1)
  | .waiting _, ⟨_, _, h⟩ => exact hexecuting h
  | .confirming _, ⟨_, _, h, _⟩ => exact hexecuting h
  | .settling _ _, ⟨_, _, h, _⟩ => exact hexecuting h
  | .discarding _, ⟨_, _, h, _⟩ => exact hexecuting h
  | .backoff, hphase => exact absurd hmem (hquiet hphase.1)
  | .ended _, hphase => exact absurd hmem (hquiet hphase.1)

/-! ### The coroutine -/

theorem attempts_attemptLoop (run : TaskRun V) (token : Bool) :
    (run.attemptLoop token).attempts = run.attempts := rfl

theorem attempts_noWorker (run : TaskRun V) (message : String) :
    (run.noWorker message).attempts = run.attempts ∨
      run.attempts = [] ∧ ∃ record, (run.noWorker message).attempts = [record] := by
  unfold TaskRun.noWorker
  split
  · exact Or.inl rfl
  · next hnil => exact Or.inr ⟨hnil, _, rfl⟩

/-- What `_run_task` leaves as the current attempt, after its end. -/
theorem attempts_conclude (run : TaskRun V) (token : Bool) (current : AttemptRun V)
    (earlier : List (AttemptRun V)) (result : Except AttemptError V) :
    (run.conclude token current earlier result).attempts = run.attempts ∨
      ∃ state : AttemptState, state.Terminal ∧ (run.conclude token current earlier result).attempts
        = { current with attempt.state := state } :: earlier := by
  unfold TaskRun.conclude
  split
  · split
    · exact Or.inr ⟨.canceled, by decide, rfl⟩
    · exact Or.inr ⟨.succeeded, by decide, rfl⟩
  · exact Or.inr ⟨.canceled, by decide, rfl⟩
  · exact Or.inr ⟨.canceled, by decide, rfl⟩
  · exact Or.inr ⟨.failed, by decide, rfl⟩
  · exact Or.inl rfl

theorem attempts_fail (run : TaskRun V) (policy : RetryPolicy) (current : AttemptRun V)
    (earlier : List (AttemptRun V)) (error : AttemptError) : ∃ detail, (run.fail policy current earlier error).attempts
      = current.failed error detail :: earlier := by
  unfold TaskRun.fail
  dsimp only
  split
  · exact ⟨_, rfl⟩
  · exact ⟨_, rfl⟩

theorem state_failed (current : AttemptRun V) (error : AttemptError) (detail : ErrorDetail) :
    (current.failed error detail).attempt.state = .failed ∨
      (current.failed error detail).attempt.state = .lost := by
  unfold AttemptRun.failed
  dsimp only
  split
  · exact Or.inr rfl
  · exact Or.inl rfl

theorem terminal_of_failed {state : AttemptState} (h : state = .failed ∨ state = .lost) :
    state.Terminal := by
  rcases h with rfl | rfl <;> decide

theorem Sound.executing (hsound : run.Sound policy token) {phase : TaskPhase V}
    (hphase : run.phase = phase) (hattempts : run.attempts = current :: earlier)
    (hexecuting : run.PhaseSound policy token phase → ∃ current earlier,
      Executing policy run current earlier) : Executing policy run current earlier := by
  obtain ⟨current', earlier', h⟩ := hexecuting (hphase ▸ hsound.phase)
  obtain ⟨rfl, rfl⟩ := List.cons.inj (hattempts.symm.trans h.attempts)
  exact h

theorem Sound.executing_of_settling (hsound : run.Sound policy token)
    {result : Except AttemptError V} {workerLost : Bool}
    (hphase : run.phase = .settling result workerLost)
    (hattempts : run.attempts = current :: earlier) : Executing policy run current earlier :=
  hsound.executing hphase hattempts fun ⟨_, _, h, _⟩ => ⟨_, _, h⟩

theorem Sound.executing_of_discarding (hsound : run.Sound policy token) {error : AttemptError}
    (hphase : run.phase = .discarding error) (hattempts : run.attempts = current :: earlier) :
    Executing policy run current earlier :=
  hsound.executing hphase hattempts fun ⟨_, _, h, _⟩ => ⟨_, _, h⟩

/-- The coroutine ends attempts that have not ended. -/
theorem advances_of_moves (hsound : run.Sound policy token) (h : Moves policy token run run') :
    run.Advances run' := by
  cases h with
  | attempted worker => exact advances_of_forall₂ [_] rfl (forall₂_refl _)
  | noWorker message =>
    rcases attempts_noWorker run message with heq | ⟨hnil, record, -⟩
    · exact advances_of_eq heq
    · intro number attempt hget
      simp [attempt?, hnil] at hget
  | left current earlier _ _ _ hattempts =>
    refine advances_of_cons hattempts rfl ?_
    rw [AttemptRun.Advances, AttemptRun.requestCancel_attempt]
    exact ⟨rfl, .refl _⟩
  | concluded current earlier _ _ _ _ _ hphase hattempts =>
    rcases attempts_conclude run token current earlier (settledResult _ _ _ _ _ _) with
        heq | ⟨state, hterminal, heq⟩
    · exact advances_of_eq heq
    · have hlive := (hsound.executing_of_settling hphase hattempts).live
      exact advances_of_cons hattempts heq ⟨rfl, AttemptState.movesTo_terminal hlive hterminal⟩
  | failed error current earlier hphase hattempts =>
    obtain ⟨detail, heq⟩ := attempts_fail run policy current earlier error
    have hlive := (hsound.executing_of_discarding hphase hattempts).live
    refine advances_of_cons hattempts heq ⟨rfl, AttemptState.movesTo_terminal hlive ?_⟩
    exact terminal_of_failed (state_failed current error detail)
  | began => exact advances_of_eq rfl
  | stopped => exact advances_of_eq rfl
  | observed => exact advances_of_eq rfl
  | confirming => exact advances_of_eq rfl
  | kept => exact advances_of_eq rfl
  | retried => exact advances_of_eq rfl

/-! ### Steps of executions -/

private theorem reverse_getElem?_length {α : Type*} (later : List α) (a : α) (earlier : List α) :
    (later ++ a :: earlier).reverse[earlier.length]? = some a := by
  rw [List.reverse_append, List.reverse_cons, List.append_assoc,
    List.getElem?_append_right (by simp), List.length_reverse, Nat.sub_self]
  rfl

theorem forall₂_stepAttempts {number : ℕ} {event : ExecutionEvent V}
    {attempts attempts' : List (AttemptRun V)}
    (h : stepAttempts token number event attempts = some attempts')
    (hlive : ∀ attempt ∈ attempts, attempt.inProgress = true → ¬ attempt.attempt.state.Terminal)
    (hlate : event = .deliver → ∀ attempt, attempts.reverse[number]? = some attempt →
      attempt.endedUnstarted = false) :
    List.Forall₂ AttemptRun.Advances attempts attempts' := by
  obtain ⟨later, attempt, attempt', earlier, rfl, rfl, hstep, rfl⟩ := stepAttempts_eq_some h
  refine List.rel_append (forall₂_refl later) (.cons ?_ (forall₂_refl earlier))
  refine AttemptRun.advances_of_step hstep (hlive attempt ?_) fun hdeliver => ?_
  · exact List.mem_append_right _ List.mem_cons_self
  · exact hlate hdeliver attempt (reverse_getElem?_length later attempt earlier)

/-! ### The attempts before the current one -/

/-- The attempts that a task has given up. -/
def past (run : TaskRun V) : List (AttemptRun V) :=
  match run.phase with
  | .choosing | .backoff => run.attempts
  | _ => run.attempts.tail

/-- They have failed or are lost. -/
def PastFailed (run : TaskRun V) : Prop :=
  ∀ attempt ∈ run.past, attempt.attempt.state = .failed ∨ attempt.attempt.state = .lost

theorem PastFailed.tail (h : run.PastFailed) : ∀ attempt ∈ run.attempts.tail,
    attempt.attempt.state = .failed ∨ attempt.attempt.state = .lost := by
  intro attempt hmem
  refine h attempt ?_
  unfold past
  split
  · exact List.mem_of_mem_tail hmem
  · exact List.mem_of_mem_tail hmem
  · exact hmem

theorem PastFailed.all (h : run.PastFailed) (hphase : run.phase = .choosing ∨ run.phase = .backoff) :
    ∀ attempt ∈ run.attempts, attempt.attempt.state = .failed ∨ attempt.attempt.state = .lost := by
  intro attempt hmem
  refine h attempt ?_
  rcases hphase with hphase | hphase
  · rw [past, hphase]
    exact hmem
  · rw [past, hphase]
    exact hmem

/-- Where nothing is given up but the attempts before the current one. -/
theorem pastFailed_of_tail (hchoosing : run.phase ≠ .choosing) (hbackoff : run.phase ≠ .backoff)
    (h : ∀ attempt ∈ run.attempts.tail,
      attempt.attempt.state = .failed ∨ attempt.attempt.state = .lost) : run.PastFailed := by
  intro attempt hmem
  unfold past at hmem
  split at hmem
  · next hphase => exact absurd hphase hchoosing
  · next hphase => exact absurd hphase hbackoff
  · exact h attempt hmem

theorem pastFailed_of_all (h : ∀ attempt ∈ run.attempts,
    attempt.attempt.state = .failed ∨ attempt.attempt.state = .lost) : run.PastFailed := by
  intro attempt hmem
  unfold past at hmem
  split at hmem
  · exact h attempt hmem
  · exact h attempt hmem
  · exact h attempt (List.mem_of_mem_tail hmem)

/-- A task gives up what has failed or is lost only. -/
theorem PastFailed.moves (h : run.PastFailed) (hsound : run.Sound policy token)
    (hmoves : Moves policy token run run') : run'.PastFailed := by
  cases hmoves with
  | began hphase =>
    have hstarting := hsound.phase
    rw [hphase] at hstarting
    refine pastFailed_of_all fun attempt hmem => ?_
    exact absurd (hstarting.1 ▸ hmem : attempt ∈ []) List.not_mem_nil
  | stopped => exact pastFailed_of_tail nofun nofun h.tail
  | attempted worker hphase => exact pastFailed_of_tail nofun nofun (h.all (Or.inl hphase))
  | noWorker message hphase =>
    unfold TaskRun.noWorker
    split
    · exact pastFailed_of_tail nofun nofun h.tail
    · exact pastFailed_of_tail nofun nofun fun _ hmem => absurd hmem List.not_mem_nil
  | observed => exact pastFailed_of_tail nofun nofun h.tail
  | confirming => exact pastFailed_of_tail nofun nofun h.tail
  | left current earlier _ _ _ hattempts =>
    have htail := h.tail
    rw [hattempts] at htail
    exact pastFailed_of_tail nofun nofun htail
  | kept => exact h
  | concluded current earlier _ _ _ _ _ _ hattempts =>
    have htail := h.tail
    unfold TaskRun.conclude
    split
    · split
      · exact pastFailed_of_tail nofun nofun (by rwa [hattempts] at htail)
      · exact pastFailed_of_tail nofun nofun (by rwa [hattempts] at htail)
    · exact pastFailed_of_tail nofun nofun (by rwa [hattempts] at htail)
    · exact pastFailed_of_tail nofun nofun (by rwa [hattempts] at htail)
    · exact pastFailed_of_tail nofun nofun (by rwa [hattempts] at htail)
    · exact pastFailed_of_tail nofun nofun htail
  | failed error current earlier _ hattempts =>
    have htail := h.tail
    rw [hattempts] at htail
    obtain ⟨detail, heq⟩ := attempts_fail run policy current earlier error
    refine pastFailed_of_all ?_
    rw [heq]
    exact List.forall_mem_cons.mpr ⟨state_failed current error detail, htail⟩
  | retried hphase => exact pastFailed_of_all (h.all (Or.inr hphase))

theorem mem_past_of_forall₂ (hphase : run'.phase = run.phase)
    (h : List.Forall₂ AttemptRun.Advances run.attempts run'.attempts) {attempt' : AttemptRun V}
    (hmem : attempt' ∈ run'.past) : ∃ attempt ∈ run.past, attempt.Advances attempt' := by
  unfold past at hmem ⊢
  rw [hphase] at hmem
  have htail : List.Forall₂ AttemptRun.Advances run.attempts.tail run'.attempts.tail := by
    rw [← List.drop_one, ← List.drop_one]
    exact List.forall₂_drop 1 h
  split at hmem
  · exact ExceptState.exists_mem_of_forall₂ h hmem
  · exact ExceptState.exists_mem_of_forall₂ h hmem
  · exact ExceptState.exists_mem_of_forall₂ htail hmem

theorem PastFailed.advances (h : run.PastFailed) (hphase : run'.phase = run.phase)
    (hattempts : List.Forall₂ AttemptRun.Advances run.attempts run'.attempts) : run'.PastFailed := by
  intro attempt' hmem
  obtain ⟨attempt, hpast, hadvances⟩ := mem_past_of_forall₂ hphase hattempts hmem
  have hstate := h attempt hpast
  rwa [hadvances.2.eq_of_terminal (terminal_of_failed hstate)]

end TaskRun

namespace SchedulerRun

variable {V : Type*} {policy : RetryPolicy} {run run' later first : SchedulerRun V}
  {graph : StageGraph} {event : RunEvent V} {events events' : List (RunEvent V)}

/-- The start of an attempt is delivered that has ended without it. -/
def deliversLate (run : SchedulerRun V) : RunEvent V → Bool
  | .execution taskId number .deliver =>
      ((run.tasks.get? taskId).bind (·.attempt? number)).any (·.endedUnstarted)
  | _ => false

/-- A step that delivers no start too late. -/
def punctualStep (policy : RetryPolicy) (run : SchedulerRun V) (event : RunEvent V) :
    Option (SchedulerRun V) :=
  if run.deliversLate event then none else run.step policy event

/-- `events` take a run to another, and none of them is a start that is delivered too late. -/
def PunctualRuns (policy : RetryPolicy) (run : SchedulerRun V) (events : List (RunEvent V))
    (run' : SchedulerRun V) : Prop :=
  Runs (fun run event run' => run.punctualStep policy event = some run') run events run'

theorem punctualStep_eq_some : run.punctualStep policy event = some run' ↔
    run.deliversLate event = false ∧ run.step policy event = some run' := by
  rw [punctualStep, Option.ite_none_left_eq_some, Bool.not_eq_true]

/-- What a punctual step makes of a task. -/
theorem advances_of_taskStep {id : String} {task task' : TaskRun V}
    (hget : run.tasks.get? id = some task) (hsound : task.Sound policy run.cancelled)
    (hlate : run.deliversLate event = false)
    (h : TaskStep policy run.cancelled event id task task') :
    task.Advances task' ∧ (task.PastFailed → task'.PastFailed) := by
  cases h with
  | kept => exact ⟨.refl task, fun h => h⟩
  | scheduled =>
    exact ⟨TaskRun.advances_of_eq rfl, fun h => TaskRun.pastFailed_of_tail nofun nofun h.tail⟩
  | closed => exact ⟨TaskRun.advances_of_eq rfl, fun h => h⟩
  | moved move task' hevent hstep =>
    have hmoves := TaskRun.moves_of_step hstep
    exact ⟨TaskRun.advances_of_moves hsound hmoves, fun h => h.moves hsound hmoves⟩
  | executed number execution task' hevent hstep =>
    obtain ⟨attempts', hattempts, rfl⟩ := Option.map_eq_some_iff.mp hstep
    have hadvances := TaskRun.forall₂_stepAttempts hattempts (fun _ => hsound.live) <| by
      rintro rfl attempt hattempt
      rw [hevent, deliversLate, hget, Option.bind_some, TaskRun.attempt?, hattempt,
        Option.any_some] at hlate
      exact hlate
    exact ⟨TaskRun.advances_of_forall₂ [] rfl hadvances, fun h => h.advances rfl hadvances⟩

/-- Every attempt of the run is kept, its state not set back. -/
def Advances (run run' : SchedulerRun V) : Prop :=
  ∀ id task, run.tasks.get? id = some task →
    ∃ task', run'.tasks.get? id = some task' ∧ task.Advances task'

theorem Advances.refl (run : SchedulerRun V) : run.Advances run := fun _ task h =>
  ⟨task, h, .refl task⟩

theorem Advances.trans (h : run.Advances run') (h' : run'.Advances later) : run.Advances later := by
  intro id task hget
  obtain ⟨task', hget', hadvances⟩ := h id task hget
  obtain ⟨task'', hget'', hadvances'⟩ := h' id task' hget'
  exact ⟨task'', hget'', hadvances.trans hadvances'⟩

/-- What all tasks have given up has failed or is lost. -/
def PastFailed (run : SchedulerRun V) : Prop :=
  ∀ id task, run.tasks.get? id = some task → task.PastFailed

theorem advances_of_punctualStep (hsound : run.Sound policy)
    (h : run.punctualStep policy event = some run') : run.Advances run' := by
  obtain ⟨hlate, h⟩ := punctualStep_eq_some.mp h
  intro id task hget
  obtain ⟨task', hget', hstep⟩ := exists_taskStep h hget
  exact ⟨task', hget', (advances_of_taskStep hget (hsound.tasks id task hget).2 hlate hstep).1⟩

theorem PastFailed.punctualStep (hpast : run.PastFailed) (hsound : run.Sound policy)
    (h : run.punctualStep policy event = some run') : run'.PastFailed := by
  obtain ⟨hlate, h⟩ := punctualStep_eq_some.mp h
  intro id task' hget'
  obtain ⟨task, hget, hstep⟩ := exists_of_taskStep h hget'
  exact (advances_of_taskStep hget (hsound.tasks id task hget).2 hlate hstep).2 (hpast id task hget)

theorem pastFailed_of_start (hstart : start graph = some run) : run.PastFailed := by
  intro id task hget
  rw [(task_of_start hstart hget).2.2]
  exact TaskRun.pastFailed_of_all fun _ hmem => absurd hmem List.not_mem_nil

/-- What punctual steps keep of runs that are sound. -/
theorem Sound.punctual (h : run.Sound policy) (hruns : PunctualRuns policy run events run')
    {P : SchedulerRun V → Prop} (hP : P run)
    (hstep : ∀ {run event run'}, Sound policy run → P run →
      run.punctualStep policy event = some run' → P run') : run'.Sound policy ∧ P run' :=
  hruns.invariant (P := fun run => run.Sound policy ∧ P run) ⟨h, hP⟩
    fun _ _ _ _ ⟨h, hP⟩ hlast => ⟨h.step (punctualStep_eq_some.mp hlast).2, hstep h hP hlast⟩

/-- As long as no start is delivered too late, attempts only advance between any two moments of
a run, and what a task has attempted before its last attempt, be it the one that succeeds, has
failed or is lost. -/
theorem attempt_states (hstart : start graph = some first)
    (hruns : PunctualRuns policy first events run)
    (hlater : PunctualRuns policy run events' later) :
    run.Advances later ∧ ∀ id task last earlier, run.tasks.get? id = some task →
      task.attempts = last :: earlier → ∀ attempt ∈ earlier,
        attempt.attempt.state = .failed ∨ attempt.attempt.state = .lost := by
  have hfirst : first.Sound policy := .start hstart
  obtain ⟨hsound, hpast⟩ := hfirst.punctual hruns (pastFailed_of_start hstart)
    fun hsound hpast hstep => hpast.punctualStep hsound hstep
  refine ⟨?_, fun id task last earlier hget hattempts => ?_⟩
  · exact (hsound.punctual hlater (.refl run)
      fun hsound hadvances hstep => hadvances.trans (advances_of_punctualStep hsound hstep)).2
  · have htail := (hpast id task hget).tail
    rwa [hattempts] at htail

theorem deliversLate_eq_true (hlate : run.deliversLate event = true) :
    ∃ taskId number task attempt, event = .execution taskId number .deliver ∧
      run.tasks.get? taskId = some task ∧ task.attempt? number = some attempt ∧
      attempt.endedUnstarted = true := by
  unfold deliversLate at hlate
  split at hlate
  · next taskId number =>
    obtain ⟨attempt, hattempt, hended⟩ := (Option.any_eq_true _ _).mp hlate
    obtain ⟨task, hget, hattempt⟩ := Option.bind_eq_some_iff.mp hattempt
    exact ⟨taskId, number, task, attempt, rfl, hget, hattempt, hended⟩
  · cases hlate

/-- A start that is delivered too late sets its attempt back. -/
theorem not_advances_of_deliversLate (hstep : run.step policy event = some run')
    (hlate : run.deliversLate event = true) : ¬ run.Advances run' := by
  obtain ⟨taskId, number, task, attempt, rfl, hget, hattempt, hended⟩ := deliversLate_eq_true hlate
  obtain ⟨hunstarted, hterminal⟩ := Bool.and_eq_true_iff.mp hended
  rw [decide_eq_true_eq] at hterminal
  simp only [SchedulerRun.step, Option.bind_eq_bind, Option.bind_eq_some_iff,
    Option.pure_def] at hstep
  obtain ⟨_, hget', task', htask, hstep⟩ := hstep
  cases hget.symm.trans hget'
  cases hstep
  obtain ⟨attempts', hattempts, rfl⟩ := Option.map_eq_some_iff.mp htask
  obtain ⟨after, current, current', before, hall, rfl, hdeliver, rfl⟩ :=
    TaskRun.stepAttempts_eq_some hattempts
  have hcurrent : task.attempt? before.length = some current := by
    rw [TaskRun.attempt?, hall, TaskRun.reverse_getElem?_length]
  cases hattempt.symm.trans hcurrent
  have hrunning : current'.attempt.state = .running := by
    simp only [AttemptRun.step] at hdeliver
    split_ifs at hdeliver
    cases hdeliver
    rw [AttemptRun.markStarted, if_neg (by simpa using hunstarted)]
  intro hadvances
  obtain ⟨task', hget', hadvances⟩ := hadvances taskId task hget
  rw [Dict.get?_set, if_pos rfl] at hget'
  cases hget'
  obtain ⟨attempt', hattempt', -, hmoves⟩ := hadvances before.length attempt hattempt
  rw [TaskRun.attempt?, TaskRun.reverse_getElem?_length] at hattempt'
  cases hattempt'
  rw [← hmoves.eq_of_terminal hterminal, hrunning] at hterminal
  exact hterminal.2 rfl

/-- The worker of the only attempt is lost while the start of its runner is on its way. -/
def lostEvents : List (RunEvent ℕ) :=
  [.advance, .coroutine "scan-0" .begin,
    .coroutine "scan-0" (.choose (.ok ["worker-1", "worker-2"]) 0),
    .execution "scan-0" 0 (.acquire true), .execution "scan-0" 0 .submit,
    .execution "scan-0" 0 .pick, .execution "scan-0" 0 (.leaseEnds .lost),
    .coroutine "scan-0" .wake, .execution "scan-0" 0 (.finish (.error .interrupted)),
    .coroutine "scan-0" (.settle false false), .coroutine "scan-0" .discarded,
    .execution "scan-0" 0 .post]

/-- An attempt that is LOST, and then RUNNING. -/
theorem not_attempt_states : ¬ ∀ (policy : RetryPolicy) (graph : StageGraph)
    (events events' : List (RunEvent ℕ)) (first run later : SchedulerRun ℕ),
    start graph = some first →
    Runs (fun run event run' => run.step policy event = some run') first events run →
    Runs (fun run event run' => run.step policy event = some run') run events' later →
    run.Advances later := by
  obtain ⟨first, run, later, hstart, hfold, hstep, hlate⟩ : ∃ first run later : SchedulerRun ℕ,
      start sampleGraph = some first ∧
      lostEvents.foldlM (fun run event => run.step {} event) first = some run ∧
      run.step {} (.execution "scan-0" 0 .deliver) = some later ∧
      run.deliversLate (.execution "scan-0" 0 .deliver) = true :=
    ⟨_, _, _, rfl, rfl, rfl, rfl⟩
  intro h
  exact not_advances_of_deliversLate hstep hlate (h {} sampleGraph lostEvents
    [.execution "scan-0" 0 .deliver] first run later hstart (Runs.of_foldlM hfold) (.single hstep))

/-- The run of two stages delivers no start too late; of two attempts of its first task, the
first is lost. -/
theorem attempt_states_sample : ∃ run later : SchedulerRun ℕ, run.Advances later ∧
    (∃ task attempt, run.tasks.get? "scan-0" = some task ∧ task.attempt? 0 = some attempt ∧
      attempt.attempt.state = .created) ∧
    ∃ task last earlier, later.tasks.get? "scan-0" = some task ∧ task.attempts = last :: earlier ∧
      earlier ≠ [] ∧ ∀ attempt ∈ earlier,
        attempt.attempt.state = .failed ∨ attempt.attempt.state = .lost := by
  obtain ⟨first, run, later, hstart, hfold, hfold', hcreated, task, last, lost, hget, hattempts⟩ :
      ∃ first run later : SchedulerRun ℕ, start sampleGraph = some first ∧
      (sampleEvents.take 4).foldlM (fun run event => run.punctualStep {} event) first = some run ∧
      (sampleEvents.drop 4).foldlM (fun run event => run.punctualStep {} event) run = some later ∧
      (∃ task attempt, run.tasks.get? "scan-0" = some task ∧ task.attempt? 0 = some attempt ∧
        attempt.attempt.state = .created) ∧
      ∃ task last lost, later.tasks.get? "scan-0" = some task ∧ task.attempts = [last, lost] :=
    ⟨_, _, _, rfl, rfl, rfl, ⟨_, _, rfl, rfl, rfl⟩, _, _, _, rfl, rfl⟩
  have hruns : PunctualRuns {} first _ run := Runs.of_foldlM hfold
  have hlater : PunctualRuns {} run _ later := Runs.of_foldlM hfold'
  refine ⟨run, later, (attempt_states hstart hruns hlater).1, hcreated, task, last, [lost], hget,
    hattempts, nofun, ?_⟩
  exact (attempt_states hstart (hruns.append hlater) .nil).2 "scan-0" task last [lost] hget hattempts

end SchedulerRun

end DistributedSql
