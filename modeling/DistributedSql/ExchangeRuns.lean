/-
An exchange between workers that fail (`DistributedExecutor._exchange` in
`execution/distributed.py`).

One stage of tasks writes the source partitions into the shuffle store, a second one reads
the target partitions.  The scheduler repeats what fails or gets lost, but a thread of a lost
attempt goes on by itself and may write its files at any later time, while others write and
read.  Here the two runs of the scheduler and the threads of all attempts take their steps in
any order.

Main results:
* `sound_step` — what holds of the store, the attempts and the threads, whatever happens next;
* `exchange_once` — when the exchange ends, its partitions are those of an exchange without
  failures, and hold every row of the sources once.
-/
import DistributedSql.ShuffleStore
import DistributedSql.TaskScheduler

namespace DistributedSql

/-! ### The stages -/

/-- The ids of the tasks that `_run_values` makes. -/
def runTaskId (stageId : String) (ordinal : ℕ) : String := stageId ++ "-task-" ++ padded 5 ordinal

/-- The graph that `_run_values` makes of its runners. -/
def runGraph (queryId stageId : String) (count : ℕ) : StageGraph where
  rootStageId := stageId
  stages := [{ stageId := stageId, queryId := queryId }]
  tasks := (List.range count).map fun ordinal =>
    { taskId := runTaskId stageId ordinal, queryId := queryId, stageId := stageId,
      ordinal := ordinal }
  stages_pending stage hstage := by rw [List.mem_singleton.mp hstage]
  tasks_pending task htask := by
    obtain ⟨ordinal, -, rfl⟩ := List.mem_map.mp htask
    rfl

/-- What `_run_values` returns: the values of all tasks, in their order. -/
def SchedulerRun.values {V : Type*} (run : SchedulerRun V) (stageId : String) (count : ℕ) :
    Option (List V) :=
  match run.control with
  | .returned => (List.range count).mapM fun ordinal =>
      (run.outcomes.get? (runTaskId stageId ordinal)).map (·.value)
  | _ => none

theorem runTaskId_injective (stageId : String) : Function.Injective (runTaskId stageId) :=
  fun _ _ h => (numbered_inj rfl h).2

/-- The attempt whose thread begins its runner. -/
def RunEvent.begins {V : Type*} : RunEvent V → Option (String × ℕ)
  | .execution taskId number .post => some (taskId, number)
  | _ => none

/-- An execution ends with a value, which only its thread has. -/
def RunEvent.returns {V : Type*} : RunEvent V → Bool
  | .execution _ _ (.finish (.ok _)) => true
  | _ => false

/-! ### The exchange -/

/-- The files that `ShuffleStore.write` writes, one after the other. -/
def ShuffleStore.writes (shuffle : ShuffleStore) (attempt : ShuffleAttempt)
    (outputs : List RecordBatch) : List (Location × List UInt8) :=
  outputs.zipIdx.map (fun item =>
      (shuffle.dataLocation attempt item.2, shuffle.writeTable item.1))
    ++ [(shuffle.manifestLocation attempt, shuffle.dumps (shuffle.manifest attempt outputs))]

theorem ShuffleStore.write_eq (shuffle : ShuffleStore) (attempt : ShuffleAttempt)
    (table : RecordBatch) (partitionCount : ℕ) (keys : List Expression) (broadcast : Bool)
    (store : ObjectStore) :
    shuffle.write attempt table partitionCount keys broadcast store
      = (shuffleWrite shuffle.python keys partitionCount broadcast table).map fun outputs =>
          (shuffle.manifest attempt outputs, (shuffle.writes attempt outputs).foldl
            (fun (store : ObjectStore) file => store.write file.1 file.2) store) := by
  unfold ShuffleStore.write
  cases shuffleWrite shuffle.python keys partitionCount broadcast table with
  | error e => rfl
  | ok outputs =>
    refine congrArg Except.ok (Prod.ext rfl ?_)
    simp only [ShuffleStore.writes, List.foldl_append, List.foldl_map]
    rfl

/-- What `_exchange` works with. -/
structure ExchangeRun where
  shuffle : ShuffleStore
  policy : RetryPolicy
  queryId : String
  stageId : String
  /-- the id of the stage that reads -/
  readStageId : String
  keys : List Expression
  partitionCount : ℕ
  broadcast : Bool
  source : List RecordBatch

/-- A thread in `ShuffleStore.write`: the files that it has not written yet. -/
structure WriteThread where
  manifest : ShuffleManifest
  writes : List (Location × List UInt8)

/-- A thread in `ShuffleStore.read_partition`: the manifests whose file it has not read yet. -/
structure ReadThread where
  partition : ℕ
  manifests : List ShuffleManifest
  tables : List RecordBatch

/-- The store, the two runs and the threads of their attempts. -/
structure ExchangeState where
  store : ObjectStore
  writing : SchedulerRun ShuffleManifest
  writers : String × ℕ → Option WriteThread := fun _ => none
  reading : Option (List ShuffleManifest × SchedulerRun RecordBatch) := none
  readers : String × ℕ → Option ReadThread := fun _ => none

/-- What may happen of an exchange. -/
inductive ExchangeEvent
  | writing (event : RunEvent ShuffleManifest)
  | writeFile (taskId : String) (number : ℕ)
  | written (taskId : String) (number : ℕ)
  | read
  | reading (event : RunEvent RecordBatch)
  | readFile (taskId : String) (number : ℕ)
  | hasRead (taskId : String) (number : ℕ)

namespace ExchangeRun

variable (self : ExchangeRun)

/-- The source partition that a task writes. -/
def sourceOf (taskId : String) : Option (RecordBatch × ℕ) :=
  self.source.zipIdx.find? fun item => decide (runTaskId self.stageId item.2 = taskId)

/-- The target partition that a task reads. -/
def targetOf (taskId : String) : Option ℕ :=
  (List.range self.partitionCount).find? fun target =>
    decide (runTaskId self.readStageId target = taskId)

/-- An attempt to write a source partition. -/
def attempt (ordinal number : ℕ) : ShuffleAttempt where
  queryId := self.queryId
  stageId := self.stageId
  taskId := self.stageId ++ "-source-" ++ padded 5 ordinal
  attemptId := attemptName (runTaskId self.stageId ordinal) number

/-- All attempts that the retry policy allows. -/
def attempts : List ShuffleAttempt :=
  (List.range self.source.length).flatMap fun ordinal =>
    (List.range self.policy.maxAttempts).map (self.attempt ordinal)

/-- The thread of an attempt that begins to write, if it does not raise first. -/
def writer (taskId : String) (number : ℕ) : Option WriteThread := do
  let item ← self.sourceOf taskId
  let outputs ← (shuffleWrite self.shuffle.python self.keys self.partitionCount self.broadcast
    item.1).toOption
  return ⟨self.shuffle.manifest (self.attempt item.2 number) outputs,
    self.shuffle.writes (self.attempt item.2 number) outputs⟩

/-- The thread of an attempt that begins to read. -/
def reader (manifests : List ShuffleManifest) (taskId : String) : Option ReadThread :=
  (self.targetOf taskId).map fun target => ⟨target, manifests, []⟩

/-- A thread begins, if the event says so. -/
def beginThread {V T : Type} (event : RunEvent V) (thread : String → ℕ → Option T)
    (threads : String × ℕ → Option T) : String × ℕ → Option T :=
  match event.begins with
  | some attempt => Function.update threads attempt (thread attempt.1 attempt.2)
  | none => threads

/-- `_exchange` when it begins. -/
def begin (store : ObjectStore) : Option ExchangeState :=
  (SchedulerRun.start (runGraph self.queryId self.stageId self.source.length)).map fun run =>
    { store := store, writing := run }

/-- One step, `none` when it cannot happen now. -/
def step (state : ExchangeState) : ExchangeEvent → Option ExchangeState
  | .writing event =>
      if event.returns then none
      else (state.writing.step self.policy event).map fun run =>
        { state with writing := run, writers := beginThread event self.writer state.writers }
  | .writeFile taskId number => do
      let thread ← state.writers (taskId, number)
      match thread.writes with
      | [] => none
      | file :: rest =>
          let thread := { thread with writes := rest }
          some { state with
            store := state.store.write file.1 file.2
            writers := Function.update state.writers (taskId, number) (some thread) }
  | .written taskId number => do
      let thread ← state.writers (taskId, number)
      if thread.writes.isEmpty then
        (state.writing.step self.policy
          (.execution taskId number (.finish (.ok thread.manifest)))).map fun run =>
            { state with writing := run }
      else none
  | .read =>
      match state.reading with
      | some _ => none
      | none => do
          let manifests ← state.writing.values self.stageId self.source.length
          let run ← SchedulerRun.start
            (runGraph self.queryId self.readStageId self.partitionCount)
          return { state with reading := some (manifests, run) }
  | .reading event => do
      let (manifests, run) ← state.reading
      if event.returns then none
      else (run.step self.policy event).map fun run =>
        { state with
          reading := some (manifests, run)
          readers := beginThread event (fun taskId _ => self.reader manifests taskId)
            state.readers }
  | .readFile taskId number => do
      let thread ← state.readers (taskId, number)
      match thread.manifests with
      | [] => none
      | manifest :: rest =>
          match self.shuffle.readFile state.store thread.partition manifest with
          -- the thread raises
          | .error _ =>
              some { state with readers := Function.update state.readers (taskId, number) none }
          | .ok table =>
              let thread := { thread with manifests := rest, tables := thread.tables ++ [table] }
              some { state with
                readers := Function.update state.readers (taskId, number) (some thread) }
  | .hasRead taskId number => do
      let thread ← state.readers (taskId, number)
      let (manifests, run) ← state.reading
      match thread.manifests, concatTables thread.tables with
      | [], .ok table =>
          (run.step self.policy (.execution taskId number (.finish (.ok table)))).map fun run =>
            { state with reading := some (manifests, run) }
      | _, _ => none

/-- The target partitions that `_exchange` returns. -/
def partitions (state : ExchangeState) : Option (List RecordBatch) := do
  let (_, run) ← state.reading
  run.values self.readStageId self.partitionCount

end ExchangeRun

/-! ### The values of attempts -/

/-- Only its thread gives an execution a value. -/
theorem AttemptRun.value_of_step {V : Type*} {token : Bool} {run run' : AttemptRun V}
    {event : ExecutionEvent V} (h : run.step token event = some run') {value : V}
    (hended : run'.phase = .ended (.ok value)) :
    run.phase = .ended (.ok value) ∨ event = .finish (.ok value) := by
  cases event with
  | acquire active =>
    simp only [step] at h
    split at h
    · split_ifs at h
      cases h
      -- with its slot an execution runs, or raises
      cases token <;> cases active <;> cases hended
    · cases h
  | announce =>
    simp only [step] at h
    split at h
    · next hphase =>
      cases h
      unfold markStarted at hended
      split_ifs at hended
      · exact Or.inl hended
      · exact Or.inl hended
    · cases h
  | submit =>
    simp only [step] at h
    split at h
    · cases h
      exact Or.inl hended
    · cases h
  | pick =>
    simp only [step] at h
    split_ifs at h
    cases h
    exact Or.inl hended
  | post =>
    simp only [step] at h
    split_ifs at h
    cases h
    exact Or.inl hended
  | deliver =>
    simp only [step] at h
    split_ifs at h
    cases h
    unfold markStarted at hended
    split_ifs at hended
    · exact Or.inl hended
    · exact Or.inl hended
  | finish result =>
    simp only [step] at h
    split at h
    · cases h
    split at h
    · split_ifs at h
      cases h
      cases hended
      exact Or.inr rfl
    · split_ifs at h
      cases h
      cases hended
      exact Or.inr rfl
    · cases h
  | leaseEnds watch =>
    simp only [step] at h
    split_ifs at h
    cases h
    exact Or.inl hended

namespace TaskRun

variable {V : Type*} {policy : RetryPolicy} {token : Bool} {run run' : TaskRun V}

/-- The coroutine of a task gives no attempt a value. -/
theorem value_of_moves (h : Moves policy token run run') {attempt' : AttemptRun V} {value : V}
    (hmem : attempt' ∈ run'.attempts) (hended : attempt'.phase = .ended (.ok value)) :
    ∃ attempt ∈ run.attempts, attempt.phase = .ended (.ok value) := by
  have hcurrent : ∀ {current current' : AttemptRun V} {earlier : List (AttemptRun V)},
      run.attempts = current :: earlier → run'.attempts = current' :: earlier →
      current'.phase = current.phase →
      ∃ attempt ∈ run.attempts, attempt.phase = .ended (.ok value) := by
    intro current current' earlier hattempts hattempts' hphase
    rw [hattempts'] at hmem
    rw [hattempts]
    rcases List.mem_cons.mp hmem with rfl | hmem
    · exact ⟨current, List.mem_cons_self, hphase ▸ hended⟩
    · exact ⟨attempt', List.mem_cons_of_mem _ hmem, hended⟩
  cases h with
  | attempted worker =>
    rcases List.mem_cons.mp hmem with rfl | hmem
    · cases hended
    · exact ⟨attempt', hmem, hended⟩
  | noWorker message =>
    unfold TaskRun.noWorker at hmem
    split at hmem
    · exact ⟨attempt', hmem, hended⟩
    · -- the attempt for which there is no worker
      rcases List.mem_cons.mp hmem with rfl | hmem
      · cases hended
      · cases hmem
  | left current earlier _ _ _ hattempts =>
    exact hcurrent hattempts rfl current.requestCancel_phase
  | concluded current earlier _ _ _ _ _ _ hattempts =>
    rcases attempts_conclude run token current earlier (settledResult _ _ _ _ _ _) with
        heq | ⟨state, -, heq⟩
    · exact ⟨attempt', heq ▸ hmem, hended⟩
    · exact hcurrent hattempts heq rfl
  | failed error current earlier _ hattempts =>
    obtain ⟨detail, heq⟩ := attempts_fail run policy current earlier error
    exact hcurrent hattempts heq rfl
  | began => exact ⟨attempt', hmem, hended⟩
  | stopped => exact ⟨attempt', hmem, hended⟩
  | observed => exact ⟨attempt', hmem, hended⟩
  | confirming => exact ⟨attempt', hmem, hended⟩
  | kept => exact ⟨attempt', hmem, hended⟩
  | retried => exact ⟨attempt', hmem, hended⟩

end TaskRun

namespace SchedulerRun

variable {V : Type*} {policy : RetryPolicy} {run run' : SchedulerRun V} {event : RunEvent V}

/-- Some attempt of a task has ended with a value. -/
def HasValue (run : SchedulerRun V) (taskId : String) (value : V) : Prop :=
  ∃ task, run.tasks.get? taskId = some task ∧
    ∃ attempt ∈ task.attempts, attempt.phase = .ended (.ok value)

/-- A value is there, or comes from a thread with this step. -/
theorem hasValue_of_step (h : run.step policy event = some run') {taskId : String} {value : V}
    (hvalue : run'.HasValue taskId value) :
    run.HasValue taskId value ∨
      ∃ number, event = .execution taskId number (.finish (.ok value)) := by
  obtain ⟨task', hget', attempt', hmem, hended⟩ := hvalue
  obtain ⟨task, hget, htask⟩ := exists_of_taskStep h hget'
  cases htask with
  | kept => exact Or.inl ⟨task', hget, attempt', hmem, hended⟩
  | scheduled => exact Or.inl ⟨task, hget, attempt', hmem, hended⟩
  | closed => exact Or.inl ⟨task, hget, attempt', hmem, hended⟩
  | moved move _ _ hstep =>
    exact Or.inl ⟨task, hget, TaskRun.value_of_moves (TaskRun.moves_of_step hstep) hmem hended⟩
  | executed number execution _ hevent hstep =>
    obtain ⟨attempts', hattempts, rfl⟩ := Option.map_eq_some_iff.mp hstep
    obtain ⟨later, current, current', earlier, heq, -, hcurrent, rfl⟩ :=
      TaskRun.stepAttempts_eq_some hattempts
    rcases List.mem_append.mp hmem with hmem | hmem
    · exact Or.inl ⟨task, hget, attempt', heq ▸ List.mem_append_left _ hmem, hended⟩
    rcases List.mem_cons.mp hmem with rfl | hmem
    · -- the attempt that takes the step
      rcases AttemptRun.value_of_step hcurrent hended with hended | rfl
      · refine Or.inl ⟨task, hget, current, heq ▸ ?_, hended⟩
        exact List.mem_append_right _ List.mem_cons_self
      · exact Or.inr ⟨number, hevent⟩
    · refine Or.inl ⟨task, hget, attempt', heq ▸ ?_, hended⟩
      exact List.mem_append_right _ (List.mem_cons_of_mem _ hmem)

/-- A run begins without values. -/
theorem not_hasValue_of_start {graph : StageGraph} (hstart : start graph = some run)
    {taskId : String} {value : V} : ¬ run.HasValue taskId value := by
  rintro ⟨task, hget, attempt, hmem, -⟩
  rw [(task_of_start hstart hget).2.2] at hmem
  cases hmem

private theorem forall₂_of_mapM_eq_some {α β : Type*} {f : α → Option β} {l : List α}
    {bs : List β} (h : l.mapM f = some bs) : List.Forall₂ (fun a b => f a = some b) l bs := by
  induction l generalizing bs with
  | nil =>
    cases h
    exact .nil
  | cons a l ih =>
    rw [List.mapM_cons, Option.bind_eq_bind, Option.bind_eq_some_iff] at h
    obtain ⟨b, hb, h⟩ := h
    rw [Option.bind_eq_bind, Option.bind_eq_some_iff] at h
    obtain ⟨rest, hrest, h⟩ := h
    cases h
    exact .cons hb (ih hrest)

/-- The values that a run returns are values of attempts of its tasks. -/
theorem Sound.values {stageId : String} {count : ℕ} {values : List V} (h : run.Sound policy)
    (hvalues : run.values stageId count = some values) :
    List.Forall₂ (fun ordinal value => run.HasValue (runTaskId stageId ordinal) value)
      (List.range count) values := by
  unfold SchedulerRun.values at hvalues
  split at hvalues
  · refine List.Forall₂.imp (fun ordinal value hvalue => ?_) (forall₂_of_mapM_eq_some hvalues)
    obtain ⟨outcome, houtcome, rfl⟩ := Option.map_eq_some_iff.mp hvalue
    obtain ⟨task, -, hget, hended, -⟩ := h.outcomes _ outcome houtcome
    have hphase := (h.tasks _ task hget).2.phase
    rw [hended] at hphase
    obtain ⟨-, -, -, current, earlier, hattempts, -, -, -, hcurrent⟩ := hphase
    exact ⟨task, hget, current, hattempts ▸ List.mem_cons_self, hcurrent⟩
  · cases hvalues

/-- The attempt of a step of an execution is one that the policy allows. -/
theorem Sound.number_lt (h : run.Sound policy) {taskId : String} {number : ℕ}
    {execution : ExecutionEvent V}
    (hstep : run.step policy (.execution taskId number execution) = some run') :
    number < policy.maxAttempts := by
  cases steps_of_step hstep with
  | executed _ _ _ task task' hget htask =>
    obtain ⟨attempts', hattempts, rfl⟩ := Option.map_eq_some_iff.mp htask
    obtain ⟨later, current, current', earlier, heq, hnumber, -, -⟩ :=
      TaskRun.stepAttempts_eq_some hattempts
    have hlength := length_le_maxAttempts (h.tasks taskId task hget).2
    rw [heq, List.length_append, List.length_cons] at hlength
    omega

end SchedulerRun

/-! ### The files of an attempt -/

/-- A source that is partitioned has a partition for each of its rows. -/
theorem shuffleWrite_eq_ok {shuffle : ShuffleStore} {keys : List Expression} {partitionCount : ℕ}
    {broadcast : Bool} {table : RecordBatch} {outputs : List RecordBatch}
    (h : shuffleWrite shuffle.python keys partitionCount broadcast table = .ok outputs) :
    0 < partitionCount ∧
      (!broadcast && decide (1 < partitionCount) && keys.isEmpty) = false ∧
      (∀ row ∈ table.rows, shuffleTargets shuffle.python keys partitionCount broadcast row
        = .ok (shuffle.targets partitionCount keys broadcast row)) ∧
      outputs.length = partitionCount := by
  unfold shuffleWrite at h
  split_ifs at h with hcount hcheck
  obtain ⟨targets, htargets, h⟩ := ExceptState.bind_eq_ok h
  cases h
  refine ⟨by omega, by simpa using hcheck, fun row hrow => ?_, by simp⟩
  obtain ⟨target, htarget⟩ := ExceptState.ok_of_mapM_eq_ok htargets row hrow
  cases broadcast with
  | true => rfl
  | false =>
    -- the keys evaluate, or the row would have no partition
    have hkeys : ∃ values, Expression.evaluateAll shuffle.python row keys = .ok values := by
      cases hvalues : Expression.evaluateAll shuffle.python row keys with
      | ok values => exact ⟨values, rfl⟩
      | error e =>
        simp only [shuffleTargets, shufflePartition, hvalues] at htarget
        cases htarget
    obtain ⟨values, hvalues⟩ := hkeys
    simp only [shuffleTargets, ShuffleStore.targets, shufflePartition, rowValues, hvalues]
    rfl

/-- What a place holds was there, or has been written to it. -/
private theorem mem_of_writes {files : List (Location × List UInt8)} {store : ObjectStore}
    {location : Location} {payload : List UInt8}
    (h : files.foldl (fun (store : ObjectStore) file => store.write file.1 file.2) store location
      = some payload) : (location, payload) ∈ files ∨ store location = some payload := by
  induction files generalizing store with
  | nil => exact Or.inr h
  | cons file files ih =>
    rcases ih h with hmem | hstore
    · exact Or.inl (List.mem_cons_of_mem _ hmem)
    have hstore : store.write file.1 file.2 location = some payload := hstore
    rw [ObjectStore.write_apply] at hstore
    split_ifs at hstore with hlocation
    · cases hstore
      exact Or.inl (hlocation ▸ List.mem_cons_self)
    · exact Or.inr hstore

/-- A file that an attempt writes for a partition is the one of its output. -/
theorem ShuffleStore.mem_writes {shuffle : ShuffleStore} {attempt : ShuffleAttempt}
    {outputs : List RecordBatch} {file : Location × List UInt8}
    (hmem : file ∈ shuffle.writes attempt outputs)
    (hmanifest : file.1 ≠ shuffle.manifestLocation attempt) :
    ∃ p output, outputs[p]? = some output ∧
      file = (shuffle.dataLocation attempt p, shuffle.writeTable output) := by
  rcases List.mem_append.mp hmem with hmem | hmem
  · obtain ⟨item, hitem, rfl⟩ := List.mem_map.mp hmem
    exact ⟨item.2, item.1, List.mem_zipIdx_iff_getElem?.mp hitem, rfl⟩
  · rw [List.mem_singleton] at hmem
    exact absurd (congrArg Prod.fst hmem) hmanifest

/-- An attempt has left its files, when each of them is in the store. -/
theorem ShuffleStore.written_of_writes {shuffle : ShuffleStore} {attempts : List ShuffleAttempt}
    {attempt : ShuffleAttempt} {keys : List Expression} {partitionCount : ℕ} {broadcast : Bool}
    {table : RecordBatch} {outputs : List RecordBatch} {store : ObjectStore}
    (hwrite : shuffleWrite shuffle.python keys partitionCount broadcast table = .ok outputs)
    (hapart : shuffle.Apart attempts partitionCount) (hattempt : attempt ∈ attempts)
    (hstore : ∀ p < partitionCount, ∀ payload,
      (shuffle.dataLocation attempt p, payload) ∈ shuffle.writes attempt outputs →
      store (shuffle.dataLocation attempt p) = some payload) :
    Written shuffle attempt partitionCount (shuffle.targets partitionCount keys broadcast) table
      (shuffle.manifest attempt outputs) store := by
  obtain ⟨hcount, hcheck, htargets, -⟩ := shuffleWrite_eq_ok hwrite
  -- the same files, on an empty store
  obtain ⟨manifest, store', hresult, hwritten, -⟩ :=
    write_spec hcount hcheck htargets hapart hattempt ObjectStore.empty
  rw [ShuffleStore.write_eq, hwrite] at hresult
  cases hresult
  refine hwritten.of_agree fun p hp => ?_
  obtain ⟨file, -, hfile, -⟩ := hwritten.file p hp
  rcases mem_of_writes hfile with hmem | hempty
  · rw [hstore p hp _ hmem, hfile]
  · cases hempty

/-! ### What holds of an exchange -/

namespace ExchangeRun

/-- An attempt that the exchange may make, with the tables of its files. -/
structure Makes (exchange : ExchangeRun) (table : RecordBatch) (ordinal number : ℕ)
    (outputs : List RecordBatch) : Prop where
  source : exchange.source[ordinal]? = some table
  number : number < exchange.policy.maxAttempts
  outputs : shuffleWrite exchange.shuffle.python exchange.keys exchange.partitionCount
    exchange.broadcast table = .ok outputs

/-- A thread writes the files of an attempt, and those that it has written are in the store. -/
def Writes (self : ExchangeRun) (store : ObjectStore) (taskId : String) (thread : WriteThread) :
    Prop :=
  ∃ table ordinal number outputs done, taskId = runTaskId self.stageId ordinal ∧
    self.Makes table ordinal number outputs ∧
    thread.manifest = self.shuffle.manifest (self.attempt ordinal number) outputs ∧
    done ++ thread.writes = self.shuffle.writes (self.attempt ordinal number) outputs ∧
    ∀ p < self.partitionCount, ∀ payload,
      (self.shuffle.dataLocation (self.attempt ordinal number) p, payload) ∈ done →
      store (self.shuffle.dataLocation (self.attempt ordinal number) p) = some payload

/-- The files of this manifest are in the store, with the rows of `table`. -/
def Keeps (self : ExchangeRun) (store : ObjectStore) (table : RecordBatch)
    (manifest : ShuffleManifest) : Prop :=
  ∃ ordinal, self.source[ordinal]? = some table ∧
    self.Writes store (runTaskId self.stageId ordinal) ⟨manifest, []⟩

/-- The rows of `table` for a target partition. -/
def rowsFor (self : ExchangeRun) (target : ℕ) (rows : List Row) : List Row :=
  rows.filter fun row =>
    decide (target ∈ self.shuffle.targets self.partitionCount self.keys self.broadcast row)

/-- These are the rows of `table` for a target partition. -/
def IsFile (self : ExchangeRun) (target : ℕ) (table file : RecordBatch) : Prop :=
  file.names = table.names ∧ file.rows = self.rowsFor target table.rows

/-- A thread that reads has the tables of the first manifests, and keeps the others. -/
def Reads (self : ExchangeRun) (store : ObjectStore) (taskId : String) (thread : ReadThread) :
    Prop :=
  self.targetOf taskId = some thread.partition ∧ ∃ before after, self.source = before ++ after ∧
    List.Forall₂ (self.IsFile thread.partition) before thread.tables ∧
    List.Forall₂ (self.Keeps store) after thread.manifests

/-- The target partition that a task reads. -/
def IsTarget (self : ExchangeRun) (taskId : String) (table : RecordBatch) : Prop :=
  ∃ target files, self.targetOf taskId = some target ∧
    List.Forall₂ (self.IsFile target) self.source files ∧ concatTables files = .ok table

/-- What holds of an exchange between any two steps. -/
structure Sound (exchange : ExchangeRun) (state : ExchangeState) : Prop where
  writing : state.writing.Sound exchange.policy
  writers : ∀ taskId number thread, state.writers (taskId, number) = some thread →
    exchange.Writes state.store taskId thread
  written : ∀ taskId manifest, state.writing.HasValue taskId manifest →
    exchange.Writes state.store taskId ⟨manifest, []⟩
  reading : ∀ manifests run, state.reading = some (manifests, run) → run.Sound exchange.policy ∧
    List.Forall₂ (exchange.Keeps state.store) exchange.source manifests ∧
    ∀ taskId table, run.HasValue taskId table → exchange.IsTarget taskId table
  readers : ∀ taskId number thread, state.readers (taskId, number) = some thread →
    exchange.Reads state.store taskId thread

variable {self : ExchangeRun}

/-! ### The files of different attempts -/

theorem sourceOf_eq_some {taskId : String} {item : RecordBatch × ℕ}
    (h : self.sourceOf taskId = some item) :
    self.source[item.2]? = some item.1 ∧ taskId = runTaskId self.stageId item.2 := by
  have hmem := List.mem_of_find?_eq_some h
  have hid := List.find?_some h
  exact ⟨List.mem_zipIdx_iff_getElem?.mp hmem, (of_decide_eq_true hid).symm⟩

theorem targetOf_eq_some {taskId : String} {target : ℕ} (h : self.targetOf taskId = some target) :
    target < self.partitionCount ∧ taskId = runTaskId self.readStageId target := by
  have hmem := List.mem_of_find?_eq_some h
  have hid := List.find?_some h
  exact ⟨List.mem_range.mp hmem, (of_decide_eq_true hid).symm⟩

section Files

variable {table table' : RecordBatch} {ordinal ordinal' number number' : ℕ}
  {outputs outputs' : List RecordBatch}

theorem Makes.mem_attempts (h : self.Makes table ordinal number outputs) :
    self.attempt ordinal number ∈ self.attempts := by
  have hordinal := (List.getElem?_eq_some_iff.mp h.source).1
  refine List.mem_flatMap.mpr ⟨ordinal, List.mem_range.mpr hordinal, ?_⟩
  exact List.mem_map_of_mem (List.mem_range.mpr h.number)

/-- An attempt has one list of files. -/
theorem Makes.unique (h : self.Makes table ordinal number outputs)
    (h' : self.Makes table' ordinal' number' outputs')
    (hattempt : self.attempt ordinal number = self.attempt ordinal' number') :
    outputs = outputs' := by
  have hname := congrArg ShuffleAttempt.attemptId hattempt
  have hordinal := runTaskId_injective _ (TaskRun.attemptName_inj hname).1
  subst hordinal
  have htable := h.source.symm.trans h'.source
  rw [Option.some.injEq] at htable
  subst htable
  exact Except.ok.inj (h.outputs.symm.trans h'.outputs)

/-- What any attempt writes to the place of a file is what the file has. -/
theorem Makes.payload_unique (hapart : self.shuffle.Apart self.attempts self.partitionCount)
    (h : self.Makes table ordinal number outputs)
    (h' : self.Makes table' ordinal' number' outputs') {p : ℕ} (hp : p < self.partitionCount)
    {file : Location × List UInt8} {payload : List UInt8}
    (hfile : file ∈ self.shuffle.writes (self.attempt ordinal number) outputs)
    (hpayload : (self.shuffle.dataLocation (self.attempt ordinal' number') p, payload) ∈
      self.shuffle.writes (self.attempt ordinal' number') outputs')
    (hlocation : file.1 = self.shuffle.dataLocation (self.attempt ordinal' number') p) :
    file.2 = payload := by
  have hattempt := h.mem_attempts
  have hattempt' := h'.mem_attempts
  have hmanifest := fun {attempt} (hmem : attempt ∈ self.attempts) =>
    ShuffleStore.dataLocation_ne_manifest hapart hattempt' hmem hp
  obtain ⟨q, output, houtput, rfl⟩ := ShuffleStore.mem_writes hfile
    (hlocation ▸ hmanifest hattempt)
  obtain ⟨q', output', houtput', heq⟩ := ShuffleStore.mem_writes hpayload (hmanifest hattempt')
  obtain ⟨hplace, rfl⟩ := Prod.mk.inj heq
  have hlt : ∀ {table ordinal number outputs output q},
      self.Makes table ordinal number outputs → outputs[q]? = some output →
      q < self.partitionCount := fun hmakes hget =>
    (shuffleWrite_eq_ok hmakes.outputs).2.2.2 ▸ (List.getElem?_eq_some_iff.mp hget).1
  obtain ⟨hsame, rfl⟩ := ShuffleStore.dataLocation_inj hapart hattempt hattempt' (hlt h houtput) hp
    hlocation
  obtain ⟨-, rfl⟩ := ShuffleStore.dataLocation_inj hapart hattempt' hattempt' hp (hlt h' houtput')
    hplace
  rw [h.unique h' hsame, houtput', Option.some.injEq] at houtput
  rw [houtput]

end Files

/-! ### Writing -/

section Writing

variable {store : ObjectStore} {taskId : String} {thread : WriteThread}
  {file : Location × List UInt8} {rest : List (Location × List UInt8)}

/-- A thread that begins writes all its files. -/
theorem writes_writer {number : ℕ} (hnumber : number < self.policy.maxAttempts)
    (h : self.writer taskId number = some thread) : self.Writes store taskId thread := by
  unfold writer at h
  rw [Option.bind_eq_bind, Option.bind_eq_some_iff] at h
  obtain ⟨item, hitem, h⟩ := h
  rw [Option.bind_eq_bind, Option.bind_eq_some_iff] at h
  obtain ⟨outputs, houtputs, h⟩ := h
  cases h
  obtain ⟨hsource, hid⟩ := sourceOf_eq_some hitem
  have hwrite : shuffleWrite self.shuffle.python self.keys self.partitionCount self.broadcast item.1
      = .ok outputs := by
    cases hresult : shuffleWrite self.shuffle.python self.keys self.partitionCount self.broadcast
      item.1 with
    | ok result =>
      rw [hresult] at houtputs
      cases houtputs
      rfl
    | error e =>
      rw [hresult] at houtputs
      cases houtputs
  refine ⟨item.1, item.2, number, outputs, [], hid, ⟨hsource, hnumber, hwrite⟩, rfl, rfl, ?_⟩
  exact fun _ _ _ hmem => absurd hmem List.not_mem_nil

/-- The file that a thread writes next is one of an attempt. -/
theorem Writes.makes (h : self.Writes store taskId thread)
    (hthread : thread.writes = file :: rest) :
    ∃ table ordinal number outputs, self.Makes table ordinal number outputs ∧
      file ∈ self.shuffle.writes (self.attempt ordinal number) outputs := by
  obtain ⟨table, ordinal, number, outputs, done, -, hmakes, -, hwrites, -⟩ := h
  refine ⟨table, ordinal, number, outputs, hmakes, hwrites ▸ ?_⟩
  rw [hthread]
  exact List.mem_append_right _ List.mem_cons_self

/-- What any attempt writes leaves the files of a thread as they are. -/
theorem Writes.other (hapart : self.shuffle.Apart self.attempts self.partitionCount)
    (h : self.Writes store taskId thread) {table : RecordBatch} {ordinal number : ℕ}
    {outputs : List RecordBatch} (hmakes : self.Makes table ordinal number outputs)
    (hfile : file ∈ self.shuffle.writes (self.attempt ordinal number) outputs) :
    self.Writes (store.write file.1 file.2) taskId thread := by
  obtain ⟨table', ordinal', number', outputs', done, hid, hmakes', hmanifest, hwrites, hdone⟩ := h
  refine ⟨table', ordinal', number', outputs', done, hid, hmakes', hmanifest, hwrites, ?_⟩
  intro p hp payload hmem
  rw [ObjectStore.write_apply]
  split_ifs with hlocation
  · -- the place is written again, with what it has
    have hpayload := List.mem_append_left thread.writes hmem
    rw [hwrites] at hpayload
    rw [hmakes.payload_unique hapart hmakes' hp hfile hpayload hlocation.symm]
  · exact hdone p hp payload hmem

/-- A thread has written its next file. -/
theorem Writes.next (hapart : self.shuffle.Apart self.attempts self.partitionCount)
    (h : self.Writes store taskId thread) (hthread : thread.writes = file :: rest) :
    self.Writes (store.write file.1 file.2) taskId { thread with writes := rest } := by
  obtain ⟨_, _, _, _, hmakes', hfile⟩ := h.makes hthread
  obtain ⟨table, ordinal, number, outputs, done, hid, hmakes, hmanifest, hwrites, hdone⟩ :=
    h.other hapart hmakes' hfile
  rw [hthread] at hwrites
  refine ⟨table, ordinal, number, outputs, done ++ [file], hid, hmakes, hmanifest, ?_, ?_⟩
  · rw [List.append_assoc]
    exact hwrites
  · intro p hp payload hmem
    rcases List.mem_append.mp hmem with hmem | hmem
    · exact hdone p hp payload hmem
    · rw [← List.mem_singleton.mp hmem]
      exact if_pos rfl

/-- A thread that has written its files leaves them all. -/
theorem Writes.ended (h : self.Writes store taskId thread) (hthread : thread.writes = []) :
    self.Writes store taskId ⟨thread.manifest, []⟩ := by
  obtain ⟨manifest, writes⟩ := thread
  subst hthread
  exact h

/-- The files of a manifest that is kept can be read. -/
theorem Keeps.written (hapart : self.shuffle.Apart self.attempts self.partitionCount)
    {table : RecordBatch} {manifest : ShuffleManifest} (h : self.Keeps store table manifest) :
    ∃ attempt, ShuffleStore.Written self.shuffle attempt self.partitionCount
      (self.shuffle.targets self.partitionCount self.keys self.broadcast) table manifest store := by
  obtain ⟨ordinal, hsource, table', ordinal', number, outputs, done, hid, hmakes, hmanifest,
    hwrites, hdone⟩ := h
  have hordinal := runTaskId_injective _ hid
  subst hordinal
  have htable := hsource.symm.trans hmakes.source
  rw [Option.some.injEq] at htable
  subst htable
  rw [List.append_nil] at hwrites
  obtain rfl : manifest = _ := hmanifest
  refine ⟨self.attempt ordinal number, ?_⟩
  exact ShuffleStore.written_of_writes hmakes.outputs hapart hmakes.mem_attempts (hwrites ▸ hdone)

end Writing

/-! ### Reading -/

section Reading

variable {store : ObjectStore} {taskId : String} {thread : ReadThread}

/-- A thread that begins to read keeps all manifests. -/
theorem reads_reader {manifests : List ShuffleManifest}
    (hkeeps : List.Forall₂ (self.Keeps store) self.source manifests)
    (h : self.reader manifests taskId = some thread) : self.Reads store taskId thread := by
  obtain ⟨target, htarget, rfl⟩ := Option.map_eq_some_iff.mp h
  exact ⟨htarget, [], self.source, rfl, .nil, hkeeps⟩

/-- What may be written leaves what is read. -/
theorem Reads.other {store' : ObjectStore} (h : self.Reads store taskId thread)
    (hstore : ∀ table manifest, self.Keeps store table manifest →
      self.Keeps store' table manifest) :
    self.Reads store' taskId thread := by
  obtain ⟨htarget, before, after, hsource, hread, hkeeps⟩ := h
  exact ⟨htarget, before, after, hsource, hread, hkeeps.imp hstore⟩

/-- A thread reads its next file. -/
theorem Reads.next (hapart : self.shuffle.Apart self.attempts self.partitionCount)
    {names : List String} (hnames : ∀ table ∈ self.source, table.names = names)
    (hparquet : ∀ file : RecordBatch, file.names = names →
      (∀ row ∈ file.rows, row ∈ allRows self.source) →
        self.shuffle.readTable (self.shuffle.writeTable file) = .ok file)
    (h : self.Reads store taskId thread) {manifest : ShuffleManifest}
    {rest : List ShuffleManifest} (hthread : thread.manifests = manifest :: rest)
    {table : RecordBatch}
    (hread : self.shuffle.readFile store thread.partition manifest = .ok table) :
    self.Reads store taskId
      { thread with manifests := rest, tables := thread.tables ++ [table] } := by
  obtain ⟨htarget, before, after, hsource, hbefore, hafter⟩ := h
  rw [hthread] at hafter
  cases hafter with
  | @cons source _ after _ hkeeps hafter =>
  have hmem : source ∈ self.source := hsource ▸ List.mem_append_right _ List.mem_cons_self
  obtain ⟨attempt, hwritten⟩ := hkeeps.written hapart
  obtain ⟨file, hfile, hname, hrows⟩ := ShuffleStore.readFile_eq hwritten
    (fun file hfile hrows => hparquet file (hfile.trans (hnames source hmem)) fun row hrow =>
      List.mem_flatMap.mpr ⟨source, hmem, hrows row hrow⟩) (targetOf_eq_some htarget).1
  rw [hread] at hfile
  cases hfile
  refine ⟨htarget, before ++ [source], after, ?_,
    List.rel_append hbefore (.cons ⟨hname, hrows⟩ .nil), hafter⟩
  rw [hsource, List.append_assoc]
  rfl

/-- A thread that has read all files has its partition. -/
theorem Reads.ended (h : self.Reads store taskId thread) (hthread : thread.manifests = [])
    {table : RecordBatch} (hconcat : concatTables thread.tables = .ok table) :
    self.IsTarget taskId table := by
  obtain ⟨htarget, before, after, hsource, hbefore, hafter⟩ := h
  rw [hthread] at hafter
  cases hafter
  rw [List.append_nil] at hsource
  subst hsource
  exact ⟨thread.partition, thread.tables, htarget, hbefore, hconcat⟩

end Reading

/-! ### Steps -/

/-- A thread was there, or begins with this step. -/
theorem beginThread_eq_some {V T : Type} {event : RunEvent V} {begun : String → ℕ → Option T}
    {threads : String × ℕ → Option T} {taskId : String} {number : ℕ} {thread : T}
    (h : beginThread event begun threads (taskId, number) = some thread) :
    threads (taskId, number) = some thread ∨
      event = .execution taskId number .post ∧ begun taskId number = some thread := by
  unfold beginThread at h
  cases hbegins : event.begins with
  | none =>
    rw [hbegins] at h
    exact Or.inl h
  | some attempt =>
    rw [hbegins] at h
    dsimp only at h
    rw [Function.update_apply] at h
    split_ifs at h with hattempt
    · subst hattempt
      unfold RunEvent.begins at hbegins
      split at hbegins
      · cases hbegins
        exact Or.inr ⟨rfl, h⟩
      · cases hbegins
    · exact Or.inl h

theorem update_eq_some {T : Type} {threads : String × ℕ → Option T} {attempt other : String × ℕ}
    {thread? : Option T} {thread : T}
    (h : Function.update threads attempt thread? other = some thread) :
    threads other = some thread ∨ other = attempt ∧ thread? = some thread := by
  rw [Function.update_apply] at h
  split_ifs at h with hattempt
  · exact Or.inr ⟨hattempt, h⟩
  · exact Or.inl h

section Steps

variable {state state' : ExchangeState} {taskId : String} {number : ℕ}

/-- The first stage or one of its executions takes a step. -/
theorem Sound.stepWriting (h : self.Sound state) {event : RunEvent ShuffleManifest}
    {run : SchedulerRun ShuffleManifest}
    (hrun : state.writing.step self.policy event = some run)
    (hvalue : ∀ taskId number manifest, event = .execution taskId number (.finish (.ok manifest)) →
      self.Writes state.store taskId ⟨manifest, []⟩) :
    self.Sound { state with
      writing := run, writers := beginThread event self.writer state.writers } where
  writing := h.writing.step hrun
  writers := by
    intro taskId number thread hthread
    rcases beginThread_eq_some hthread with hbefore | ⟨rfl, hbegun⟩
    · exact h.writers taskId number thread hbefore
    · exact writes_writer (h.writing.number_lt hrun) hbegun
  written := by
    intro taskId manifest hhas
    rcases SchedulerRun.hasValue_of_step hrun hhas with hhas | ⟨number, hevent⟩
    · exact h.written taskId manifest hhas
    · exact hvalue taskId number manifest hevent
  reading := h.reading
  readers := h.readers

/-- A thread writes its next file. -/
theorem Sound.stepWriteFile (hapart : self.shuffle.Apart self.attempts self.partitionCount)
    (h : self.Sound state) {thread : WriteThread} {file : Location × List UInt8}
    {rest : List (Location × List UInt8)} (hthread : state.writers (taskId, number) = some thread)
    (hwrites : thread.writes = file :: rest) :
    self.Sound { state with
      store := state.store.write file.1 file.2
      writers := Function.update state.writers (taskId, number)
        (some { thread with writes := rest }) } := by
  have hown := h.writers taskId number thread hthread
  obtain ⟨_, _, _, _, hmakes, hfile⟩ := hown.makes hwrites
  have hkeeps : ∀ table manifest, self.Keeps state.store table manifest →
      self.Keeps (state.store.write file.1 file.2) table manifest := by
    rintro table manifest ⟨ordinal, hsource, hleft⟩
    exact ⟨ordinal, hsource, hleft.other hapart hmakes hfile⟩
  refine ⟨h.writing, fun taskId' number' thread' hthread' => ?_, fun taskId' manifest hvalue =>
    (h.written taskId' manifest hvalue).other hapart hmakes hfile,
    fun manifests run hreading => ?_, fun taskId' number' thread' hthread' =>
    (h.readers taskId' number' thread' hthread').other hkeeps⟩
  · rcases update_eq_some hthread' with hbefore | ⟨heq, hnext⟩
    · exact (h.writers taskId' number' thread' hbefore).other hapart hmakes hfile
    · cases heq
      cases hnext
      exact hown.next hapart hwrites
  · obtain ⟨hrun, hmanifests, hvalues⟩ := h.reading manifests run hreading
    exact ⟨hrun, hmanifests.imp hkeeps, hvalues⟩

/-- The second stage or one of its executions takes a step. -/
theorem Sound.stepReading (h : self.Sound state) {manifests : List ShuffleManifest}
    {run run' : SchedulerRun RecordBatch} {event : RunEvent RecordBatch}
    (hreading : state.reading = some (manifests, run))
    (hrun : run.step self.policy event = some run')
    (hvalue : ∀ taskId number table, event = .execution taskId number (.finish (.ok table)) →
      self.IsTarget taskId table) :
    self.Sound { state with
      reading := some (manifests, run')
      readers := beginThread event (fun taskId _ => self.reader manifests taskId)
        state.readers } := by
  obtain ⟨hsound, hmanifests, hvalues⟩ := h.reading manifests run hreading
  refine ⟨h.writing, h.writers, h.written, fun manifests' run'' hreading' => ?_,
    fun taskId' number' thread' hthread' => ?_⟩
  · cases hreading'
    refine ⟨hsound.step hrun, hmanifests, fun taskId table hhas => ?_⟩
    rcases SchedulerRun.hasValue_of_step hrun hhas with hhas | ⟨number, hevent⟩
    · exact hvalues taskId table hhas
    · exact hvalue taskId number table hevent
  · have hthread' : beginThread event (fun taskId _ => self.reader manifests taskId) state.readers
        (taskId', number') = some thread' := hthread'
    rcases beginThread_eq_some hthread' with hbefore | ⟨-, hbegun⟩
    · exact h.readers taskId' number' thread' hbefore
    · exact reads_reader hmanifests hbegun

/-- A thread that reads goes on, or raises. -/
theorem Sound.setReader (h : self.Sound state) {thread? : Option ReadThread}
    (hthread : ∀ thread ∈ thread?, self.Reads state.store taskId thread) :
    self.Sound { state with
      readers := Function.update state.readers (taskId, number) thread? } := by
  refine ⟨h.writing, h.writers, h.written, h.reading, fun taskId' number' thread' hthread' => ?_⟩
  rcases update_eq_some hthread' with hbefore | ⟨heq, hnext⟩
  · exact h.readers taskId' number' thread' hbefore
  · cases heq
    exact hthread thread' hnext

/-- The second stage begins when the first has returned. -/
theorem Sound.stepRead (h : self.Sound state) {manifests : List ShuffleManifest}
    {run : SchedulerRun RecordBatch}
    (hvalues : state.writing.values self.stageId self.source.length = some manifests)
    (hstart : SchedulerRun.start (runGraph self.queryId self.readStageId self.partitionCount)
      = some run) :
    self.Sound { state with reading := some (manifests, run) } := by
  refine ⟨h.writing, h.writers, h.written, fun manifests' run' hreading => ?_, h.readers⟩
  cases hreading
  refine ⟨.start hstart, ?_, fun taskId table hhas =>
    absurd hhas (SchedulerRun.not_hasValue_of_start hstart)⟩
  -- the manifest of each source, at its place
  obtain ⟨hlength, hvalue⟩ := List.forall₂_iff_get.mp (h.writing.values hvalues)
  rw [List.length_range] at hlength
  refine List.forall₂_iff_get.mpr ⟨hlength, fun i hi hi' => ⟨i, ?_, ?_⟩⟩
  · exact List.getElem?_eq_getElem hi
  · have hvalue := hvalue i (by simpa using hi) hi'
    rw [List.get_eq_getElem, List.getElem_range] at hvalue
    exact h.written _ _ hvalue

/-- Whatever happens next, what holds of an exchange goes on to hold. -/
theorem sound_step {names : List String} (hnames : ∀ table ∈ self.source, table.names = names)
    (hapart : self.shuffle.Apart self.attempts self.partitionCount)
    (hparquet : ∀ file : RecordBatch, file.names = names →
      (∀ row ∈ file.rows, row ∈ allRows self.source) →
        self.shuffle.readTable (self.shuffle.writeTable file) = .ok file)
    (h : self.Sound state) {event : ExchangeEvent} (hstep : self.step state event = some state') :
    self.Sound state' := by
  cases event with
  | writing event =>
    simp only [step] at hstep
    split_ifs at hstep with hreturns
    obtain ⟨run, hrun, rfl⟩ := Option.map_eq_some_iff.mp hstep
    refine h.stepWriting hrun fun taskId number manifest hevent => ?_
    rw [hevent] at hreturns
    exact absurd rfl hreturns
  | writeFile taskId number =>
    simp only [step, Option.bind_eq_bind, Option.bind_eq_some_iff] at hstep
    obtain ⟨thread, hthread, hstep⟩ := hstep
    split at hstep
    · cases hstep
    · next hwrites =>
      cases hstep
      exact h.stepWriteFile hapart hthread hwrites
  | written taskId number =>
    simp only [step, Option.bind_eq_bind, Option.bind_eq_some_iff] at hstep
    obtain ⟨thread, hthread, hstep⟩ := hstep
    split_ifs at hstep with hwrites
    obtain ⟨run, hrun, rfl⟩ := Option.map_eq_some_iff.mp hstep
    refine h.stepWriting hrun fun taskId' number' manifest hevent => ?_
    cases hevent
    exact (h.writers taskId number thread hthread).ended (List.isEmpty_iff.mp hwrites)
  | read =>
    simp only [step] at hstep
    split at hstep
    · cases hstep
    · simp only [Option.bind_eq_bind, Option.bind_eq_some_iff] at hstep
      obtain ⟨manifests, hvalues, run, hstart, hstep⟩ := hstep
      cases hstep
      exact h.stepRead hvalues hstart
  | reading event =>
    simp only [step, Option.bind_eq_bind, Option.bind_eq_some_iff] at hstep
    obtain ⟨⟨manifests, run⟩, hreading, hstep⟩ := hstep
    split_ifs at hstep with hreturns
    obtain ⟨run', hrun, rfl⟩ := Option.map_eq_some_iff.mp hstep
    refine h.stepReading hreading hrun fun taskId number table hevent => ?_
    rw [hevent] at hreturns
    exact absurd rfl hreturns
  | readFile taskId number =>
    simp only [step, Option.bind_eq_bind, Option.bind_eq_some_iff] at hstep
    obtain ⟨thread, hthread, hstep⟩ := hstep
    split at hstep
    · cases hstep
    · next hmanifests =>
      split at hstep
      · -- a thread that raises reads no more
        cases hstep
        exact h.setReader nofun
      · next hread =>
        cases hstep
        refine h.setReader fun thread' hthread' => ?_
        cases hthread'
        exact (h.readers taskId number thread hthread).next hapart hnames hparquet hmanifests hread
  | hasRead taskId number =>
    simp only [step, Option.bind_eq_bind, Option.bind_eq_some_iff] at hstep
    obtain ⟨thread, hthread, ⟨manifests, run⟩, hreading, hstep⟩ := hstep
    split at hstep
    · next hmanifests hconcat =>
      obtain ⟨run', hrun, rfl⟩ := Option.map_eq_some_iff.mp hstep
      refine h.stepReading hreading hrun fun taskId' number' table hevent => ?_
      cases hevent
      exact (h.readers taskId number thread hthread).ended hmanifests hconcat
    · cases hstep

end Steps

/-! ### Whole exchanges -/

theorem sound_begin {store : ObjectStore} {state : ExchangeState}
    (h : self.begin store = some state) : self.Sound state := by
  obtain ⟨run, hstart, rfl⟩ := Option.map_eq_some_iff.mp h
  exact ⟨.start hstart, nofun, fun taskId manifest hhas =>
    absurd hhas (SchedulerRun.not_hasValue_of_start hstart), nofun, nofun⟩

/-- The manifests of the sources have the files that are read for a target. -/
private theorem mapM_readFile_eq {target : ℕ} (htarget : target < self.partitionCount)
    {source files : List RecordBatch} {manifests : List (List RecordBatch)}
    (hwrites : List.Forall₂ (fun table outputs => shuffleWrite self.shuffle.python self.keys
      self.partitionCount self.broadcast table = .ok outputs) source manifests)
    (hfiles : List.Forall₂ (self.IsFile target) source files) :
    manifests.mapM (readFile target) = .ok files := by
  induction hwrites generalizing files with
  | nil =>
    cases hfiles
    rfl
  | cons hwrite _ ih =>
    cases hfiles with
    | @cons table file _ files hfile hfiles =>
    obtain ⟨hcount, hcheck, htargets, -⟩ := shuffleWrite_eq_ok hwrite
    obtain ⟨outputs, hresult, -, houtputs⟩ := shuffleWrite_eq hcount hcheck htargets
    rw [hwrite] at hresult
    cases hresult
    obtain ⟨file', hget, hname, hrows⟩ := houtputs target htarget
    have hsame : file' = file := by
      cases file
      cases file'
      obtain rfl := hname.trans hfile.1.symm
      obtain rfl := hrows.trans hfile.2.symm
      rfl
    rw [List.mapM_cons, ih hfiles, readFile, hget, hsame]
    rfl

/-- What is read from the sources is what an exchange without failures gives. -/
theorem exchange_eq_ok {tables : List RecordBatch}
    (hwrite : ∀ table ∈ self.source, ∃ outputs, shuffleWrite self.shuffle.python self.keys
      self.partitionCount self.broadcast table = .ok outputs)
    (htables : List.Forall₂ (fun target table => ∃ files,
      List.Forall₂ (self.IsFile target) self.source files ∧ concatTables files = .ok table)
      (List.range self.partitionCount) tables) :
    exchange self.shuffle.python self.keys self.partitionCount self.broadcast self.source
      = .ok tables := by
  obtain ⟨manifests, hmanifests, hall⟩ := ExceptState.exists_mapM_eq_ok
    (f := shuffleWrite self.shuffle.python self.keys self.partitionCount self.broadcast)
    (l := self.source) (P := fun table outputs => shuffleWrite self.shuffle.python self.keys
      self.partitionCount self.broadcast table = .ok outputs)
    fun table htable => (hwrite table htable).imp fun _ h => ⟨h, h⟩
  rw [exchange, hmanifests, ExceptState.ok_bind]
  have htables := (List.forall₂_and_left _ _).mpr ⟨fun _ => List.mem_range.mp, htables⟩
  refine ExceptState.mapM_eq_ok_iff.mpr (htables.imp fun target table htable => ?_)
  obtain ⟨htarget, files, hfiles, hconcat⟩ := htable
  rw [readPartition, mapM_readFile_eq htarget hall hfiles]
  exact hconcat

/-- Whichever attempts fail or get lost, and whenever their threads go on to write, an exchange
that ends gives the tables of one without failures: every row of the sources once, from its
partition, or once from each partition of a broadcast. -/
theorem exchange_once {names : List String} (hnames : ∀ table ∈ self.source, table.names = names)
    (hapart : self.shuffle.Apart self.attempts self.partitionCount)
    (hparquet : ∀ file : RecordBatch, file.names = names →
      (∀ row ∈ file.rows, row ∈ allRows self.source) →
        self.shuffle.readTable (self.shuffle.writeTable file) = .ok file)
    {store : ObjectStore} {first state : ExchangeState} (hbegin : self.begin store = some first)
    {events : List ExchangeEvent}
    (hrun : Runs (fun state event state' => self.step state event = some state') first events state)
    {tables : List RecordBatch} (htables : self.partitions state = some tables) :
    exchange self.shuffle.python self.keys self.partitionCount self.broadcast self.source
        = .ok tables ∧
      List.Forall₂ (fun target (table : RecordBatch) => table.rows
        = (allRows self.source).filter fun row =>
          target ∈ self.shuffle.targets self.partitionCount self.keys self.broadcast row)
        (List.range self.partitionCount) tables ∧
      (self.broadcast = false → (allRows tables).Perm (allRows self.source)) ∧
      (self.broadcast = true → ∀ table ∈ tables, table.rows = allRows self.source) := by
  have hsound : self.Sound state := hrun.invariant (sound_begin hbegin)
    fun _ _ _ _ hsound hstep => sound_step hnames hapart hparquet hsound hstep
  unfold partitions at htables
  rw [Option.bind_eq_bind, Option.bind_eq_some_iff] at htables
  obtain ⟨⟨manifests, run⟩, hreading, hvalues⟩ := htables
  obtain ⟨hreads, hmanifests, hhas⟩ := hsound.reading manifests run hreading
  -- every task of the second stage has its target
  have htargets : List.Forall₂ (fun target table => ∃ files,
      List.Forall₂ (self.IsFile target) self.source files ∧ concatTables files = .ok table)
      (List.range self.partitionCount) tables := by
    refine (hreads.values hvalues).imp fun ordinal table hvalue => ?_
    obtain ⟨target, files, htarget, hfiles, hconcat⟩ := hhas _ table hvalue
    obtain rfl := runTaskId_injective _ (targetOf_eq_some htarget).2
    exact ⟨files, hfiles, hconcat⟩
  have hwrite : ∀ table ∈ self.source, ∃ outputs, shuffleWrite self.shuffle.python self.keys
      self.partitionCount self.broadcast table = .ok outputs := by
    intro table htable
    obtain ⟨manifest, -, hkeeps⟩ := ExceptState.exists_mem_of_forall₂ hmanifests.flip htable
    obtain ⟨ordinal, hsource, table', ordinal', _, outputs, _, hid, hmakes, -⟩ := hkeeps
    obtain rfl := runTaskId_injective _ hid
    obtain rfl := Option.some.inj (hsource.symm.trans hmakes.source)
    exact ⟨outputs, hmakes.outputs⟩
  have hrows : List.Forall₂ (fun target (table : RecordBatch) => table.rows
      = self.rowsFor target (allRows self.source)) (List.range self.partitionCount) tables := by
    refine htargets.imp fun target table htable => ?_
    obtain ⟨files, hfiles, hconcat⟩ := htable
    obtain ⟨table', hok, -, hrows⟩ := concatTables_filter hnames hfiles
    rw [hconcat] at hok
    cases hok
    exact hrows
  refine ⟨exchange_eq_ok hwrite htargets, hrows, fun hbroadcast => ?_, fun hbroadcast => ?_⟩
  · rw [ShuffleStore.allRows_of_forall₂ hrows]
    simp only [rowsFor, ShuffleStore.targets, hbroadcast, Bool.false_eq_true, if_false]
    refine ShuffleStore.perm_flatMap_filter fun row hrow => Nat.mod_lt _ ?_
    -- there is a partition, or the row's source would not have been written
    obtain ⟨table, htable, -⟩ := List.mem_flatMap.mp hrow
    obtain ⟨outputs, houtputs⟩ := hwrite table htable
    exact (shuffleWrite_eq_ok houtputs).1
  · intro table htable
    obtain ⟨target, htarget, hrows⟩ := ExceptState.exists_mem_of_forall₂ hrows htable
    rw [hrows, rowsFor, List.filter_eq_self]
    intro row _
    simpa only [ShuffleStore.targets, hbroadcast, if_true, decide_eq_true_eq] using htarget

/-! ### A late writer -/

open HashJoinOperator ShuffleStore

/-- Python on the names of two attempts, too: their digests. -/
def attemptPython : Python := { filePython with
  sha256 := fun data =>
    if data = "s1-task-00000-attempt-000".toUTF8 then
      [57, 194, 26, 189, 184, 150, 85, 99, 137, 63, 244, 49, 154, 66, 19, 184, 85, 233, 55, 203, 26,
        123, 244, 26, 111, 15, 193, 95, 16, 230, 240, 220]
    else if data = "s1-task-00000-attempt-001".toUTF8 then
      [198, 185, 174, 229, 44, 191, 166, 140, 76, 5, 87, 230, 81, 157, 53, 108, 105, 32, 29, 241,
        61, 166, 179, 119, 105, 239, 219, 219, 98, 86, 69, 176]
    else filePython.sha256 data }

/-- Two partitions of one source, with two attempts for each task. -/
def lateExchange : ExchangeRun where
  shuffle := { byteStore with python := attemptPython }
  policy := { maxAttempts := 2 }
  queryId := "q1"
  stageId := "s1"
  readStageId := "s2"
  keys := [.column "x" "" ⟨.int64, true⟩]
  partitionCount := 2
  broadcast := false
  source := [intTable "x" [1, 3]]

/-- An attempt gets a worker, and its thread begins. -/
def startedAttempt {V : Type} (taskId : String) (number : ℕ) : List (RunEvent V) :=
  [.coroutine taskId (.choose (.ok ["worker-1", "worker-2"]) number),
    .execution taskId number (.acquire true), .execution taskId number .submit,
    .execution taskId number .pick, .execution taskId number .post,
    .execution taskId number .deliver, .coroutine taskId .wake]

/-- Its worker is lost. -/
def lostAttempt {V : Type} (taskId : String) (number : ℕ) : List (RunEvent V) :=
  [.execution taskId number (.leaseEnds .lost), .coroutine taskId .wake,
    .execution taskId number (.finish (.error .interrupted)),
    .coroutine taskId (.settle false false), .coroutine taskId .discarded, .coroutine taskId .retry]

/-- Its value is there. -/
def endedAttempt {V : Type} (taskId : String) : List (RunEvent V) :=
  [.coroutine taskId .wake, .coroutine taskId (.confirm (.ok true)),
    .coroutine taskId (.settle false false)]

/-- The first attempt writes a file and loses its worker, the second one writes all. -/
def lateWrites : List ExchangeEvent :=
  [[.writing .advance, .writing (.coroutine "s1-task-00000" .begin)],
    (startedAttempt "s1-task-00000" 0).map ExchangeEvent.writing,
    [.writeFile "s1-task-00000" 0],
    (lostAttempt "s1-task-00000" 0).map ExchangeEvent.writing,
    (startedAttempt "s1-task-00000" 1).map ExchangeEvent.writing,
    List.replicate 3 (.writeFile "s1-task-00000" 1),
    [.written "s1-task-00000" 1],
    (endedAttempt "s1-task-00000").map ExchangeEvent.writing,
    [.writing (.gathered false), .writing .advance]].flatten

/-- The thread of the first attempt goes on while the partitions are read. -/
def lateReads : List ExchangeEvent :=
  [[.read, .reading .advance, .reading (.coroutine "s2-task-00000" .begin),
      .reading (.coroutine "s2-task-00001" .begin)],
    (startedAttempt "s2-task-00000" 0).map ExchangeEvent.reading,
    (startedAttempt "s2-task-00001" 0).map ExchangeEvent.reading,
    [.readFile "s2-task-00000" 0, .writeFile "s1-task-00000" 0, .writeFile "s1-task-00000" 0,
      .readFile "s2-task-00001" 0, .hasRead "s2-task-00000" 0, .hasRead "s2-task-00001" 0],
    (endedAttempt "s2-task-00000").map ExchangeEvent.reading,
    (endedAttempt "s2-task-00001").map ExchangeEvent.reading,
    [.reading (.gathered false), .reading .advance]].flatten

theorem exchange_once_late : ∃ first state tables,
    lateExchange.begin ObjectStore.empty = some first ∧
    Runs (fun state event state' => lateExchange.step state event = some state') first
      (lateWrites ++ lateReads) state ∧
    lateExchange.partitions state = some tables ∧
    (allRows tables).Perm (allRows lateExchange.source) := by
  have hends : ((lateExchange.begin ObjectStore.empty >>= fun first =>
      (lateWrites ++ lateReads).foldlM lateExchange.step first)
        >>= lateExchange.partitions).isSome = true := by decide +kernel
  obtain ⟨tables, htables⟩ := Option.isSome_iff_exists.mp hends
  rw [Option.bind_eq_bind, Option.bind_eq_some_iff] at htables
  obtain ⟨state, hstate, htables⟩ := htables
  rw [Option.bind_eq_bind, Option.bind_eq_some_iff] at hstate
  obtain ⟨first, hfirst, hfold⟩ := hstate
  have hrun := Runs.of_foldlM hfold
  have hnames : ∀ table ∈ lateExchange.source, table.names = ["x"] := by decide
  have hapart : lateExchange.shuffle.Apart lateExchange.attempts lateExchange.partitionCount := by
    unfold Apart
    decide +kernel
  have hparquet : ∀ file : RecordBatch, file.names = ["x"] →
      (∀ row ∈ file.rows, row ∈ allRows lateExchange.source) →
        lateExchange.shuffle.readTable (lateExchange.shuffle.writeTable file) = .ok file := by
    intro file hfile hrows
    have hsource : ∀ row ∈ allRows lateExchange.source,
        row ∈ allRows (intSources.map Prod.snd) := by decide +kernel
    exact readTable_byteStore hfile fun row hrow => hsource row (hrows row hrow)
  obtain ⟨-, -, hperm, -⟩ := exchange_once hnames hapart hparquet hfirst hrun htables
  exact ⟨first, state, tables, hfirst, hrun, htables, hperm rfl⟩

end ExchangeRun

end DistributedSql
