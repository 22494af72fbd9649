/-
Remote tasks on one worker (`worker/tasks.py`).

A step is what the event loop does of one coroutine up to its next await, or one action of
a thread that runs `_execute_sync`.  What an action reads, computes or raises comes from
outside with the step, and a write that raises may have left bytes behind.  Deletes
succeed, and every location has a store.

Main results:
* `TaskRecord.sound_step` — what holds of a record, and of the files of its attempt,
  between any two steps of it;
* `task_lifecycle` — in every run records only advance, a record has a result exactly when
  it has succeeded and then its files exist, a canceled or failed one leaves no file, and
  no attempt is executed twice.
-/
import DistributedSql.Dict
import DistributedSql.Runs
import DistributedSql.TaskProtocol

namespace DistributedSql

/-! ### Object stores -/

/-- What the object stores hold. -/
def ObjectStore := Location → Option (List UInt8)

namespace ObjectStore

def empty : ObjectStore := fun _ => none

/-- `write_bytes` and `publish_bytes`. -/
def write (store : ObjectStore) (location : Location) (data : List UInt8) : ObjectStore :=
  fun l => if l = location then some data else store l

def delete (store : ObjectStore) (location : Location) : ObjectStore :=
  fun l => if l = location then none else store l

def deleteAll (store : ObjectStore) (locations : List Location) : ObjectStore :=
  locations.foldl delete store

def «exists» (store : ObjectStore) (location : Location) : Bool := (store location).isSome

theorem write_apply (store : ObjectStore) (location l : Location) (data : List UInt8) :
    store.write location data l = if l = location then some data else store l := rfl

theorem delete_apply (store : ObjectStore) (location l : Location) :
    store.delete location l = if l = location then none else store l := rfl

theorem deleteAll_apply (store : ObjectStore) (locations : List Location) (l : Location) :
    store.deleteAll locations l = if l ∈ locations then none else store l := by
  induction locations generalizing store with
  | nil => rfl
  | cons location rest ih =>
    rw [deleteAll, List.foldl_cons, ← deleteAll, ih, delete_apply]
    by_cases hl : l = location <;> simp [hl]

/-- Both stores hold the same at `locations`. -/
def AgreeOn (locations : List Location) (store store' : ObjectStore) : Prop :=
  ∀ l ∈ locations, store' l = store l

end ObjectStore

/-! ### The work of one attempt -/

/-- What a worker process is given. -/
structure WorkerHost where
  python : Python
  workerId : String
  tempDirectory : Location
  /-- `Path.resolve` -/
  resolve : Location → Location

/-- What the thread of an attempt does, one action after the other. -/
inductive ThreadAction
  | compute
  | check
  | writeFile (partition : ℕ)
  | publishManifest
  | publishOutput
deriving DecidableEq

def ThreadAction.writesFile : ThreadAction → Bool
  | .writeFile _ => true
  | _ => false

/-- How an action ends: with the bytes it wrote and the rows in them, or by raising, the
bytes given being left where it writes. -/
inductive ActionOutcome
  | done (payload : List UInt8) (rowCount : ℕ)
  | raised (error : TaskError) (left : Option (List UInt8))

/-- `_execute_sync`: the actions of an operation. -/
def executeSync (submission : RemoteTaskSubmission) : List ThreadAction :=
  match submission.operation with
  | .shuffleWrite _ partitionCount _ =>
      .compute :: (List.range partitionCount).flatMap (fun partition =>
          [.check, .compute, .writeFile partition])
        ++ [.check, .publishManifest, .check, .compute]
  | _ => [.compute, .check, .compute, .check, .publishOutput, .check, .compute]

namespace WorkerHost

variable (host : WorkerHost)

/-- `_output_location`. -/
def outputLocation (submission : RemoteTaskSubmission) : Location :=
  if submission.outputLocation.anchor = "worker:///" then
    host.resolve { host.tempDirectory with
      parts := host.tempDirectory.parts ++ "results" :: submission.outputLocation.parts }
  else submission.outputLocation

/-- The location of a partition's file. -/
def fileLocation (submission : RemoteTaskSubmission) (root : Location) (partition : ℕ) :
    Location :=
  dataLocation host.python root submission.queryId submission.stageId submission.taskId
    submission.attemptId partition

/-- The location of the attempt's manifest. -/
def manifest (submission : RemoteTaskSubmission) (root : Location) : Location :=
  manifestLocation host.python root submission.queryId submission.stageId submission.taskId
    submission.attemptId

/-- The locations `_cleanup_submission` deletes. -/
def shuffleLocations (submission : RemoteTaskSubmission) : List Location :=
  match submission.operation with
  | .shuffleWrite root partitionCount _ =>
      (List.range partitionCount).map (host.fileLocation submission root)
        ++ [host.manifest submission root]
  | _ => []

/-- Everywhere an attempt may write. -/
def locations (submission : RemoteTaskSubmission) : List Location :=
  host.outputLocation submission :: host.shuffleLocations submission

/-- Where an action writes. -/
def target (submission : RemoteTaskSubmission) : ThreadAction → Option Location
  | .compute | .check => none
  | .writeFile partition => match submission.operation with
    | .shuffleWrite root _ _ => some (host.fileLocation submission root partition)
    | _ => none
  | .publishManifest => match submission.operation with
    | .shuffleWrite root _ _ => some (host.manifest submission root)
    | _ => none
  | .publishOutput => some (host.outputLocation submission)

/-- `hashlib.sha256(payload).hexdigest()`. -/
def checksum (payload : List UInt8) : String :=
  hexText (host.python.sha256 ⟨payload.toArray⟩)

end WorkerHost

/-- A thread that runs `_execute_sync`. -/
structure TaskThread where
  remaining : List ThreadAction
  files : List ShuffleFile := []
  artifact : Option ArtifactReference := none

namespace TaskThread

variable (host : WorkerHost) (submission : RemoteTaskSubmission)

/-- The thread after an action of it has written `payload` at `location`. -/
def written (thread : TaskThread) (action : ThreadAction) (location : Location)
    (payload : List UInt8) (rowCount : ℕ) : TaskThread :=
  match action with
  | .writeFile partition =>
      { thread with
        files := thread.files ++
          [{ partition := partition
             location := location
             rowCount := rowCount
             sizeBytes := payload.length
             checksum := host.checksum payload }] }
  | .publishOutput =>
      { thread with
        artifact := some
          { location := location
            mediaType := "application/vnd.apache.parquet"
            sizeBytes := payload.length
            checksum := host.checksum payload
            rowCount := rowCount } }
  | _ => thread

/-- What `_execute_sync` returns. -/
def result (thread : TaskThread) : RemoteTaskResult where
  taskId := submission.taskId
  attemptId := submission.attemptId
  workerId := host.workerId
  artifact := thread.artifact
  shuffleManifests := match submission.operation with
    | .shuffleWrite _ _ _ =>
      [{ queryId := submission.queryId
         stageId := submission.stageId
         taskId := submission.taskId
         attemptId := submission.attemptId
         files := thread.files }]
    | _ => []

end TaskThread

/-! ### Records -/

/-- Where the coroutine `_execute` of a record is: not begun, waiting for its thread, about
to see what its thread raised, or over. -/
inductive Execution
  | scheduled
  | waiting (thread : TaskThread)
  | raised (error : TaskError)
  | finished

structure TaskRecord where
  submission : RemoteTaskSubmission
  status : RemoteTaskStatus
  /-- the cancellation token is canceled -/
  cancelled : Bool := false
  execution : Execution := .scheduled

/-- What happens next of an execution: it begins, its thread performs its next action, or it
goes on after its thread. -/
inductive ExecutionStep
  | begin
  | act (outcome : ActionOutcome)
  | resume

/-- The part of `_delete_result` about one manifest. -/
def deleteManifest (manifest : ShuffleManifest) (store : ObjectStore) :
    Except TaskError Unit × ObjectStore :=
  let store := store.deleteAll (manifest.files.map (·.location))
  match manifest.files with
  | [] => (.error (.other "IndexError"), store)
  | first :: _ => (.ok (), store.delete (first.location.withName "manifest.json"))

def deleteManifests (store : ObjectStore) :
    List ShuffleManifest → Except TaskError Unit × ObjectStore
  | [] => (.ok (), store)
  | manifest :: rest =>
      match deleteManifest manifest store with
      | (.ok (), store) => deleteManifests store rest
      | (.error error, store) => (.error error, store)

/-- `_delete_result`. -/
def deleteResult (result : RemoteTaskResult) (store : ObjectStore) :
    Except TaskError Unit × ObjectStore :=
  let store := match result.artifact with
    | some artifact => store.delete artifact.location
    | none => store
  deleteManifests store result.shuffleManifests

namespace TaskRecord

variable (host : WorkerHost)

/-- The record of a new submission. -/
def created (submission : RemoteTaskSubmission) : TaskRecord where
  submission := submission
  status :=
    { taskId := submission.taskId, attemptId := submission.attemptId, state := .created }

/-- The record after `record.cancellation.cancel()`. -/
def cancel (record : TaskRecord) : TaskRecord :=
  if record.status.state.Terminal then record else { record with cancelled := true }

/-- The handler of `_execute` for an exception. -/
def fail (record : TaskRecord) (error : TaskError) (store : ObjectStore) :
    TaskRecord × ObjectStore :=
  let submission := record.submission
  let context :=
    [("query_id", .text submission.queryId), ("stage_id", .text submission.stageId),
      ("task_id", .text submission.taskId), ("attempt_id", .text submission.attemptId),
      ("worker_id", .text host.workerId)]
  ({ record with
      status := { record.status with
        error := publicTaskError error context
        state := if record.cancelled then .canceled else .failed }
      execution := .finished },
    (store.deleteAll (host.shuffleLocations submission)).delete (host.outputLocation submission))

/-- The part of `_execute` after its thread has returned. -/
def complete (record : TaskRecord) (result : RemoteTaskResult) (store : ObjectStore) :
    TaskRecord × ObjectStore :=
  if record.cancelled then
    match deleteResult result store with
    | (.ok (), store) =>
        ({ record with
            status := { record.status with state := .canceled }
            execution := .finished },
          store.delete (host.outputLocation record.submission))
    | (.error error, store) => record.fail host error store
  else
    ({ record with
        status := { record.status with result := result, state := .succeeded }
        execution := .finished },
      store)

/-- One action of the thread, before the actions `rest`. -/
def act (record : TaskRecord) (thread : TaskThread) (action : ThreadAction)
    (rest : List ThreadAction) (outcome : ActionOutcome) (store : ObjectStore) :
    TaskRecord × ObjectStore :=
  let thread := { thread with remaining := rest }
  match action, host.target record.submission action, outcome with
  | .check, _, _ =>
      if record.cancelled then
        ({ record with execution := .raised (.other "ExecutionCancelled") }, store)
      else ({ record with execution := .waiting thread }, store)
  | _, none, .done _ _ => ({ record with execution := .waiting thread }, store)
  | _, none, .raised error _ => ({ record with execution := .raised error }, store)
  | action, some location, .done payload rowCount =>
      ({ record with
          execution := .waiting (thread.written host action location payload rowCount) },
        store.write location payload)
  | _, some location, .raised error left =>
      ({ record with execution := .raised error },
        match left with
        | some payload => store.write location payload
        | none => store)

/-- One step of an execution, `none` when it is not its turn. -/
def step (record : TaskRecord) (store : ObjectStore) :
    ExecutionStep → Option (TaskRecord × ObjectStore)
  | .begin => match record.execution with
    | .scheduled =>
        some ({ record with
            status := { record.status with state := .running }
            execution := .waiting { remaining := executeSync record.submission } },
          store)
    | _ => none
  | .act outcome => match record.execution with
    | .waiting thread => match thread.remaining with
      | action :: rest => some (record.act host thread action rest outcome store)
      | [] => none
    | _ => none
  | .resume => match record.execution with
    | .waiting thread => match thread.remaining with
      | [] => some (record.complete host (thread.result host record.submission) store)
      | _ :: _ => none
    | .raised error => some (record.fail host error store)
    | _ => none

end TaskRecord

/-! ### The manager -/

structure WorkerTaskManager where
  records : Dict String TaskRecord := Dict.empty
  store : ObjectStore

/-- What a caller of `cancel` learns before it waits. -/
inductive CancelAnswer
  | unknown
  | over (status : RemoteTaskStatus)
  | waits

namespace WorkerTaskManager

variable (host : WorkerHost) (manager : WorkerTaskManager)

/-- `WorkerTaskManager.submit`. -/
def submit (submission : RemoteTaskSubmission) :
    Except PyError RemoteTaskStatus × WorkerTaskManager :=
  match manager.records.get? submission.attemptId with
  | some existing =>
      if existing.submission ≠ submission then
        (.error (.valueError ("Attempt " ++ strRepr submission.attemptId
          ++ " was submitted with different content")), manager)
      else (.ok existing.status, manager)
  | none =>
      let record := TaskRecord.created submission
      (.ok record.status,
        { manager with records := manager.records.set submission.attemptId record })

/-- `WorkerTaskManager.status`. -/
def status (attemptId : String) : Option RemoteTaskStatus :=
  (manager.records.get? attemptId).map (·.status)

/-- `WorkerTaskManager.cancel` up to its wait for the execution. -/
def cancel (attemptId : String) : CancelAnswer × WorkerTaskManager :=
  match manager.records.get? attemptId with
  | none => (.unknown, manager)
  | some record =>
      if record.status.state.Terminal then (.over record.status, manager)
      else (.waits, { manager with
        records := manager.records.modify attemptId TaskRecord.cancel })

/-- `WorkerTaskManager.cancel` after its wait, which ends with the execution or in time. -/
def cancelled (attemptId : String) (timedOut : Bool) :
    Option (Except DistributedSQLError RemoteTaskStatus) :=
  (manager.records.get? attemptId).bind fun record =>
    match timedOut, record.execution with
    | true, _ => some (.error
        { code := .taskFailed
          message := "Worker Task cancellation was not confirmed before the timeout."
          statusCode := 504
          context :=
            [("query_id", .text record.submission.queryId),
              ("stage_id", .text record.submission.stageId),
              ("task_id", .text record.submission.taskId), ("attempt_id", .text attemptId),
              ("worker_id", .text host.workerId)] })
    | false, .finished => some (.ok record.status)
    | false, _ => none

end WorkerTaskManager

/-- What happens to a manager: a call comes in, or an execution takes a step. -/
inductive TaskEvent
  | submit (submission : RemoteTaskSubmission)
  | status (attemptId : String)
  | cancel (attemptId : String)
  | execute (attemptId : String) (step : ExecutionStep)

/-- The event starts the execution of an attempt. -/
def TaskEvent.begins (attemptId : String) : TaskEvent → Bool
  | .execute id .begin => id = attemptId
  | _ => false

namespace WorkerTaskManager

def step (host : WorkerHost) (manager : WorkerTaskManager) :
    TaskEvent → Option WorkerTaskManager
  | .submit submission => some (manager.submit submission).2
  | .status _ => some manager
  | .cancel attemptId => some (manager.cancel attemptId).2
  | .execute attemptId step =>
      (manager.records.get? attemptId).bind fun record =>
        (record.step host manager.store step).map fun (record, store) =>
          { records := manager.records.modify attemptId fun _ => record, store := store }

/-- `manager` is reached by `events` from a new manager. -/
abbrev Reaches (host : WorkerHost) (store : ObjectStore) (events : List TaskEvent)
    (manager : WorkerTaskManager) : Prop :=
  Runs (fun manager event manager' => manager.step host event = some manager') { store := store }
    events manager

end WorkerTaskManager

/-! ### What a step of an execution does -/

/-- A state goes on to another, or stays. -/
def AttemptState.Advances (state state' : AttemptState) : Prop :=
  state' = state ∨ state = .created ∧ state' = .running ∨ state = .running ∧ state'.Terminal

/-- The result is in the stores. -/
def Published (host : WorkerHost) (store : ObjectStore) (submission : RemoteTaskSubmission)
    (result : RemoteTaskResult) : Prop :=
  match submission.operation with
  | .shuffleWrite root partitionCount _ => ∃ manifest,
      result.shuffleManifests = [manifest] ∧
      manifest.files.map (·.location)
        = (List.range partitionCount).map (host.fileLocation submission root) ∧
      (∀ file ∈ manifest.files, store.exists file.location) ∧
      store.exists (host.manifest submission root)
  | _ => ∃ artifact, result.artifact = some artifact ∧
      artifact.location = host.outputLocation submission ∧ store.exists artifact.location

/-! ### The actions of an attempt -/

/-- The files that a shuffle write writes, in order. -/
theorem writes_executeSync {submission : RemoteTaskSubmission} {root : Location}
    {partitionCount : ℕ} {hpos : 0 < partitionCount}
    (h : submission.operation = .shuffleWrite root partitionCount hpos) :
    (executeSync submission).filter ThreadAction.writesFile
      = (List.range partitionCount).map .writeFile := by
  have hflat : ∀ partitions : List ℕ, (partitions.flatMap fun partition =>
      [ThreadAction.check, .compute, .writeFile partition]).filter ThreadAction.writesFile
        = partitions.map .writeFile := by
    intro partitions
    induction partitions with
    | nil => rfl
    | cons partition rest ih =>
      rw [List.flatMap_cons, List.filter_append, ih]
      rfl
  rw [executeSync, h]
  show ((ThreadAction.compute :: _) ++ _).filter _ = _
  rw [List.filter_append, List.filter_cons_of_neg (by decide), hflat]
  exact List.append_nil _

theorem mem_executeSync_shuffleWrite {submission : RemoteTaskSubmission} {root : Location}
    {partitionCount : ℕ} {hpos : 0 < partitionCount}
    (h : submission.operation = .shuffleWrite root partitionCount hpos) {action : ThreadAction} :
    action ∈ executeSync submission ↔ action = .compute ∨ action = .check ∨
      action = .publishManifest ∨ ∃ partition < partitionCount, action = .writeFile partition := by
  rw [executeSync, h]
  constructor
  · intro hmem
    simp only [List.mem_append, List.mem_cons, List.mem_flatMap, List.mem_range,
      List.not_mem_nil, or_false] at hmem
    grind
  · rintro (rfl | rfl | rfl | ⟨partition, hlt, rfl⟩)
    · simp
    · simp
    · simp
    · simp [hlt]

theorem count_publishOutput_le (submission : RemoteTaskSubmission) :
    (executeSync submission).count .publishOutput ≤ 1 := by
  cases hop : submission.operation with
  | shuffleWrite root partitionCount hpos =>
    have hnot : .publishOutput ∉ executeSync submission := by
      rw [mem_executeSync_shuffleWrite hop]
      simp
    rw [List.count_eq_zero_of_not_mem hnot]
    exact Nat.zero_le 1
  | _ =>
    rw [executeSync, hop]
    decide

/-- Only computations and checks write nothing. -/
theorem target_eq_none {host : WorkerHost} {submission : RemoteTaskSubmission}
    {action : ThreadAction} (h : action ∈ executeSync submission)
    (hnone : host.target submission action = none) : action = .compute ∨ action = .check := by
  cases hop : submission.operation with
  | shuffleWrite root partitionCount hpos =>
    rw [mem_executeSync_shuffleWrite hop] at h
    rcases h with h | h | rfl | ⟨partition, -, rfl⟩
    · exact Or.inl h
    · exact Or.inr h
    · simp [WorkerHost.target, hop] at hnone
    · simp [WorkerHost.target, hop] at hnone
  | _ =>
    rw [executeSync, hop] at h
    simp only [List.mem_cons, List.not_mem_nil, or_false] at h
    rcases h with h | h | h | h | rfl | h | h
    · exact Or.inl h
    · exact Or.inr h
    · exact Or.inl h
    · exact Or.inr h
    · simp [WorkerHost.target] at hnone
    · exact Or.inr h
    · exact Or.inl h

/-- An attempt writes only at its own locations. -/
theorem target_mem_locations {host : WorkerHost} {submission : RemoteTaskSubmission}
    {action : ThreadAction} {location : Location} (h : action ∈ executeSync submission)
    (htarget : host.target submission action = some location) :
    location ∈ host.locations submission := by
  cases hop : submission.operation with
  | shuffleWrite root partitionCount hpos =>
    rw [mem_executeSync_shuffleWrite hop] at h
    rw [WorkerHost.locations, WorkerHost.shuffleLocations, hop]
    rcases h with rfl | rfl | rfl | ⟨partition, hlt, rfl⟩
    · cases htarget
    · cases htarget
    · simp [WorkerHost.target, hop] at htarget
      simp [htarget]
    · simp only [WorkerHost.target, hop, Option.some.injEq] at htarget
      refine List.mem_cons_of_mem _ (List.mem_append_left _ ?_)
      exact List.mem_map.mpr ⟨partition, List.mem_range.mpr hlt, htarget⟩
  | _ =>
    rw [executeSync, hop] at h
    simp only [List.mem_cons, List.not_mem_nil, or_false] at h
    rcases h with rfl | rfl | rfl | rfl | rfl | rfl | rfl <;> simp [WorkerHost.target] at htarget
    rw [← htarget]
    exact List.mem_cons_self

namespace TaskThread

/-- How far a thread has come: what it will not write any more is written. -/
structure Progress (host : WorkerHost) (store : ObjectStore) (submission : RemoteTaskSubmission)
    (thread : TaskThread) : Prop where
  suffix : thread.remaining <:+ executeSync submission
  written : ∀ action ∈ executeSync submission, ∀ location,
    host.target submission action = some location →
      action ∈ thread.remaining ∨ store.exists location
  files : thread.files.map (some ·.location)
      ++ (thread.remaining.filter ThreadAction.writesFile).map (host.target submission)
    = ((executeSync submission).filter ThreadAction.writesFile).map (host.target submission)
  artifact : thread.artifact.map (·.location) =
    if .publishOutput ∈ executeSync submission ∧ .publishOutput ∉ thread.remaining then
      some (host.outputLocation submission) else none

variable {host : WorkerHost} {store : ObjectStore} {submission : RemoteTaskSubmission}
  {thread : TaskThread} {action : ThreadAction} {rest : List ThreadAction}

theorem progress_start : Progress host store submission { remaining := executeSync submission } where
  suffix := List.suffix_rfl
  written _ h _ _ := Or.inl h
  files := rfl
  artifact := (if_neg fun h => h.2 h.1).symm

/-- Progress is about the attempt's own locations. -/
theorem Progress.congr (h : Progress host store submission thread) {store' : ObjectStore}
    (hstore : store.AgreeOn (host.locations submission) store') :
    Progress host store' submission thread where
  suffix := h.suffix
  written action hmem location htarget := by
    refine (h.written action hmem location htarget).imp_right fun hexists => ?_
    rwa [ObjectStore.exists, hstore location (target_mem_locations hmem htarget)]
  files := h.files
  artifact := h.artifact

theorem Progress.mem (h : Progress host store submission thread)
    (hremaining : thread.remaining = action :: rest) : action ∈ executeSync submission :=
  h.suffix.subset (hremaining ▸ List.mem_cons_self)

/-- An action that writes nothing. -/
theorem Progress.skip (h : Progress host store submission thread)
    (hremaining : thread.remaining = action :: rest)
    (hnone : host.target submission action = none) :
    Progress host store submission { thread with remaining := rest } := by
  have haction := target_eq_none (h.mem hremaining) hnone
  obtain ⟨hsuffix, hwritten, hfiles, hartifact⟩ := h
  rw [hremaining] at hsuffix hwritten hfiles hartifact
  refine ⟨(List.suffix_cons action rest).trans hsuffix, fun other hmem location htarget => ?_,
    ?_, ?_⟩
  · refine (hwritten other hmem location htarget).imp_left fun hor => ?_
    refine (List.mem_cons.mp hor).resolve_left ?_
    rintro rfl
    cases hnone.symm.trans htarget
  · rw [← hfiles]
    rcases haction with rfl | rfl <;> rfl
  · rw [hartifact]
    rcases haction with rfl | rfl <;> simp

/-- An action that writes. -/
theorem Progress.wrote (h : Progress host store submission thread)
    (hremaining : thread.remaining = action :: rest) {location : Location}
    (htarget : host.target submission action = some location) (payload : List UInt8)
    (rowCount : ℕ) :
    Progress host (store.write location payload) submission
      (TaskThread.written host { thread with remaining := rest } action location payload
        rowCount) := by
  have hmem := h.mem hremaining
  obtain ⟨hsuffix, hwritten, hfiles, hartifact⟩ := h
  rw [hremaining] at hsuffix hwritten hfiles hartifact
  have hrest : (TaskThread.written host { thread with remaining := rest } action location payload
      rowCount).remaining = rest := by
    cases action <;> rfl
  refine ⟨?_, fun other hother target hother_target => ?_, ?_, ?_⟩
  · rw [hrest]
    exact (List.suffix_cons action rest).trans hsuffix
  · rw [hrest, ObjectStore.exists, ObjectStore.write_apply]
    by_cases hlocation : target = location
    · simp [hlocation]
    · rw [if_neg hlocation]
      refine (hwritten other hother target hother_target).imp_left fun hor => ?_
      refine (List.mem_cons.mp hor).resolve_left ?_
      rintro rfl
      exact hlocation (Option.some.inj (hother_target.symm.trans htarget))
  · rw [hrest, ← hfiles]
    cases action with
    | writeFile partition =>
      rw [List.filter_cons_of_pos rfl, List.map_cons, htarget]
      simp [TaskThread.written]
    | _ => rfl
  · rw [hrest]
    cases action with
    | publishOutput =>
      have honce := count_publishOutput_le submission
      have hnot : .publishOutput ∉ rest := by
        have hle := hsuffix.sublist.count_le (a := ThreadAction.publishOutput)
        rw [List.count_cons_self] at hle
        exact List.count_eq_zero.mp (by omega)
      rw [if_pos ⟨hmem, hnot⟩]
      exact htarget.symm
    | _ => simpa [TaskThread.written] using hartifact

/-- The files of a shuffle write that has come to its end. -/
theorem Progress.files_eq (h : Progress host store submission thread)
    (hdone : thread.remaining = []) {root : Location} {partitionCount : ℕ}
    {hpos : 0 < partitionCount}
    (hop : submission.operation = .shuffleWrite root partitionCount hpos) :
    thread.files.map (·.location)
      = (List.range partitionCount).map (host.fileLocation submission root) := by
  have hfiles := h.files
  rw [hdone, List.filter_nil, List.map_nil, List.append_nil, writes_executeSync hop,
    List.map_map] at hfiles
  have htargets : ∀ partition, (host.target submission ∘ .writeFile) partition
      = some (host.fileLocation submission root partition) := by
    intro partition
    simp only [Function.comp_apply, WorkerHost.target, hop]
  rw [List.map_congr_left fun partition _ => htargets partition] at hfiles
  have hsome := congrArg (List.filterMap id) hfiles
  simpa [List.filterMap_map, Function.comp_def] using hsome

/-- What a thread returns is in the stores. -/
theorem Progress.published (h : Progress host store submission thread)
    (hdone : thread.remaining = []) :
    Published host store submission (thread.result host submission) := by
  have hwritten := h.written
  simp only [hdone, List.not_mem_nil, false_or] at hwritten
  have hartifact := h.artifact
  simp only [hdone, List.not_mem_nil, not_false_eq_true, and_true] at hartifact
  unfold Published result
  cases hop : submission.operation with
  | shuffleWrite root partitionCount hpos =>
    have hfiles := h.files_eq hdone hop
    have hexists : ∀ location ∈ thread.files.map (·.location), store.exists location := by
      rw [hfiles]
      intro location hlocation
      obtain ⟨partition, hlt, rfl⟩ := List.mem_map.mp hlocation
      refine hwritten (.writeFile partition) ?_ _ (by simp only [WorkerHost.target, hop])
      rw [mem_executeSync_shuffleWrite hop]
      exact Or.inr (Or.inr (Or.inr ⟨partition, List.mem_range.mp hlt, rfl⟩))
    refine ⟨_, rfl, hfiles, fun file hfile => hexists _ (List.mem_map.mpr ⟨file, hfile, rfl⟩), ?_⟩
    refine hwritten .publishManifest ?_ _ (by simp only [WorkerHost.target, hop])
    rw [mem_executeSync_shuffleWrite hop]
    exact Or.inr (Or.inr (Or.inl rfl))
  | _ =>
    have hmem : .publishOutput ∈ executeSync submission := by
      rw [executeSync, hop]
      decide
    rw [if_pos hmem] at hartifact
    obtain ⟨artifact, hsome, hlocation⟩ := Option.map_eq_some_iff.mp hartifact
    refine ⟨artifact, hsome, hlocation, ?_⟩
    rw [hlocation]
    exact hwritten _ hmem _ rfl

/-- Deleting what a thread returns empties the places of its shuffle files and touches the
attempt's own places only. -/
theorem Progress.deleteResult (h : Progress host store submission thread)
    (hdone : thread.remaining = []) : ∃ store',
      deleteResult (thread.result host submission) store = (.ok (), store') ∧
      (∀ location ∈ host.shuffleLocations submission, store' location = none) ∧
      ∀ location ∉ host.locations submission, store' location = store location := by
  have hartifact := h.artifact
  simp only [hdone, List.not_mem_nil, not_false_eq_true, and_true] at hartifact
  rw [DistributedSql.deleteResult, result]
  cases hop : submission.operation with
  | shuffleWrite root partitionCount hpos =>
    have hnot : .publishOutput ∉ executeSync submission := by
      rw [mem_executeSync_shuffleWrite hop]
      simp
    rw [if_neg hnot, Option.map_eq_none_iff] at hartifact
    have hfiles := h.files_eq hdone hop
    obtain ⟨first, later, hcons⟩ : ∃ first later, thread.files = first :: later := by
      refine List.exists_cons_of_ne_nil fun hnil => ?_
      have hlength := congrArg List.length hfiles
      simp only [hnil, List.map_nil, List.length_nil, List.length_map, List.length_range] at hlength
      omega
    have hfirst : first.location.withName "manifest.json" = host.manifest submission root := by
      have hhead := congrArg List.head? hfiles
      rw [hcons, List.map_cons, List.head?_cons, List.head?_map, List.head?_range,
        if_neg hpos.ne', Option.map_some] at hhead
      rw [Option.some.inj hhead]
      exact withName_dataLocation _ _ _ _ _ _ _
    have hlocations : host.shuffleLocations submission
        = thread.files.map (·.location) ++ [host.manifest submission root] := by
      rw [WorkerHost.shuffleLocations, hop, hfiles]
    refine ⟨(store.deleteAll (thread.files.map (·.location))).delete
      (host.manifest submission root), ?_, ?_, ?_⟩
    · rw [hartifact]
      simp only [deleteManifests, deleteManifest]
      simp only [hcons, hfirst]
    · intro location hlocation
      rw [ObjectStore.delete_apply, ObjectStore.deleteAll_apply]
      rw [hlocations, List.mem_append, List.mem_singleton] at hlocation
      grind
    · intro location hlocation
      rw [WorkerHost.locations, hlocations, List.mem_cons, List.mem_append, List.mem_singleton]
        at hlocation
      rw [ObjectStore.delete_apply, ObjectStore.deleteAll_apply]
      grind
  | _ =>
    have hmem : .publishOutput ∈ executeSync submission := by
      rw [executeSync, hop]
      decide
    rw [if_pos hmem] at hartifact
    obtain ⟨artifact, hsome, hlocation⟩ := Option.map_eq_some_iff.mp hartifact
    rw [hsome]
    refine ⟨store.delete artifact.location, rfl, fun location hshuffle => ?_,
      fun location houtside => ?_⟩
    · rw [WorkerHost.shuffleLocations, hop] at hshuffle
      cases hshuffle
    · rw [ObjectStore.delete_apply, if_neg]
      rintro rfl
      exact houtside (hlocation ▸ List.mem_cons_self)

end TaskThread

theorem Published.congr {host : WorkerHost} {store store' : ObjectStore}
    {submission : RemoteTaskSubmission} {result : RemoteTaskResult}
    (h : Published host store submission result)
    (hstore : store.AgreeOn (host.locations submission) store') :
    Published host store' submission result := by
  unfold Published at h ⊢
  cases hop : submission.operation with
  | shuffleWrite root partitionCount hpos =>
    simp only [hop] at h ⊢
    obtain ⟨manifest, hmanifest, hfiles, hexists, hpublished⟩ := h
    have hlocations : host.locations submission = host.outputLocation submission
        :: (manifest.files.map (·.location) ++ [host.manifest submission root]) := by
      rw [WorkerHost.locations, WorkerHost.shuffleLocations, hop, hfiles]
    refine ⟨manifest, hmanifest, hfiles, fun file hfile => ?_, ?_⟩
    · rw [ObjectStore.exists, hstore]
      · exact hexists file hfile
      · rw [hlocations]
        exact List.mem_cons_of_mem _ (List.mem_append_left _ (List.mem_map.mpr ⟨file, hfile, rfl⟩))
    · rw [ObjectStore.exists, hstore]
      · exact hpublished
      · rw [hlocations]
        simp
  | _ =>
    simp only [hop] at h ⊢
    obtain ⟨artifact, hartifact, hlocation, hexists⟩ := h
    refine ⟨artifact, hartifact, hlocation, ?_⟩
    rw [ObjectStore.exists, hstore _ (hlocation ▸ List.mem_cons_self)]
    exact hexists

namespace TaskRecord

/-- What holds of a record between any two steps. -/
def Sound (host : WorkerHost) (store : ObjectStore) (record : TaskRecord) : Prop :=
  match record.execution with
  | .scheduled => record.status.state = .created ∧ record.status.result = none
  | .waiting thread => record.status.state = .running ∧ record.status.result = none ∧
      thread.Progress host store record.submission
  | .raised _ => record.status.state = .running ∧ record.status.result = none
  | .finished =>
      (record.status.state = .succeeded ∧
        ∃ result, record.status.result = some result ∧
          Published host store record.submission result) ∨
      ((record.status.state = .canceled ∨ record.status.state = .failed) ∧
        record.status.result = none ∧
        ∀ location ∈ host.locations record.submission, store location = none)

/-- What a step of an execution leaves of its record and of the stores. -/
structure StepEffect (host : WorkerHost) (record : TaskRecord) (store : ObjectStore)
    (record' : TaskRecord) (store' : ObjectStore) : Prop where
  sound : record'.Sound host store'
  submission : record'.submission = record.submission
  running : ¬ record.status.state.Terminal
  advances : record.status.state.Advances record'.status.state
  begun : record'.execution ≠ .scheduled
  frame : ∀ location ∉ host.locations record.submission, store' location = store location

variable {host : WorkerHost} {record record' : TaskRecord} {store store' : ObjectStore}

/-- A record is about its own locations. -/
theorem Sound.congr (h : record.Sound host store)
    (hstore : store.AgreeOn (host.locations record.submission) store') :
    record.Sound host store' := by
  unfold Sound at h ⊢
  cases hexecution : record.execution with
  | scheduled => simpa [hexecution] using h
  | raised error => simpa [hexecution] using h
  | waiting thread =>
    simp only [hexecution] at h ⊢
    exact ⟨h.1, h.2.1, h.2.2.congr hstore⟩
  | finished =>
    simp only [hexecution] at h ⊢
    refine h.imp ?_ ?_
    · rintro ⟨hstate, result, hresult, hpublished⟩
      exact ⟨hstate, result, hresult, hpublished.congr hstore⟩
    · rintro ⟨hstate, hresult, hnone⟩
      exact ⟨hstate, hresult, fun location hmem => (hstore location hmem).trans (hnone location hmem)⟩

theorem Sound.cancel (h : record.Sound host store) : record.cancel.Sound host store := by
  unfold TaskRecord.cancel
  split_ifs
  · exact h
  · exact h

/-- The handler for exceptions leaves nothing of the attempt. -/
theorem fail_effect (error : TaskError) (hstate : record.status.state = .running)
    (hresult : record.status.result = none) {store₀ : ObjectStore}
    (hframe : ∀ location ∉ host.locations record.submission, store location = store₀ location) :
    StepEffect host record store₀ (record.fail host error store).1
      (record.fail host error store).2 where
  sound := by
    refine Or.inr ⟨?_, hresult, fun location hmem => ?_⟩
    · cases hcancelled : record.cancelled
      · exact Or.inr (by rw [fail, hcancelled]; rfl)
      · exact Or.inl (by rw [fail, hcancelled]; rfl)
    · have hlocation : location ∈ host.locations record.submission := hmem
      show ((store.deleteAll _).delete _) location = none
      rw [ObjectStore.delete_apply, ObjectStore.deleteAll_apply]
      rcases List.mem_cons.mp hlocation with h | h
      · rw [if_pos h]
      · rw [if_pos h, ite_self]
  submission := rfl
  running h := h.2 hstate
  advances := by
    refine Or.inr (Or.inr ⟨hstate, ?_⟩)
    show (if record.cancelled then AttemptState.canceled else .failed).Terminal
    split_ifs <;> decide
  begun h := by cases h
  frame location houtside := by
    rw [WorkerHost.locations, List.mem_cons, not_or] at houtside
    show ((store.deleteAll _).delete _) location = _
    rw [ObjectStore.delete_apply, ObjectStore.deleteAll_apply, if_neg houtside.1,
      if_neg houtside.2]
    exact hframe location (by rw [WorkerHost.locations, List.mem_cons, not_or]; exact houtside)

theorem complete_effect {thread : TaskThread} (hstate : record.status.state = .running)
    (hresult : record.status.result = none)
    (hprogress : thread.Progress host store record.submission) (hdone : thread.remaining = []) :
    StepEffect host record store
      (record.complete host (thread.result host record.submission) store).1
      (record.complete host (thread.result host record.submission) store).2 := by
  have hrunning : ¬ record.status.state.Terminal := fun h => h.2 hstate
  unfold complete
  split_ifs with hcancelled
  · obtain ⟨store', hdelete, hnone, hframe⟩ := hprogress.deleteResult hdone
    rw [hdelete]
    refine ⟨Or.inr ⟨Or.inl rfl, hresult, fun location hmem => ?_⟩, rfl, hrunning,
      Or.inr (Or.inr ⟨hstate, (by decide : AttemptState.canceled.Terminal)⟩), (nomatch ·),
      fun location houtside => ?_⟩
    · show store'.delete _ location = none
      rw [ObjectStore.delete_apply]
      rcases List.mem_cons.mp hmem with h | h
      · rw [if_pos h]
      · rw [hnone location h, ite_self]
    · show store'.delete _ location = _
      rw [ObjectStore.delete_apply, hframe location houtside, if_neg]
      rintro rfl
      exact houtside List.mem_cons_self
  · exact ⟨Or.inl ⟨rfl, _, rfl, hprogress.published hdone⟩, rfl, hrunning,
      Or.inr (Or.inr ⟨hstate, (by decide : AttemptState.succeeded.Terminal)⟩), (nomatch ·),
      fun _ _ => rfl⟩

theorem act_effect {thread : TaskThread} {action : ThreadAction} {rest : List ThreadAction}
    (hstate : record.status.state = .running) (hresult : record.status.result = none)
    (hprogress : thread.Progress host store record.submission)
    (hremaining : thread.remaining = action :: rest) (outcome : ActionOutcome) :
    StepEffect host record store (record.act host thread action rest outcome store).1
      (record.act host thread action rest outcome store).2 := by
  have hrunning : ¬ record.status.state.Terminal := fun h => h.2 hstate
  have hraised : ∀ (error : TaskError) (store' : ObjectStore),
      (∀ location ∉ host.locations record.submission, store' location = store location) →
      StepEffect host record store { record with execution := .raised error } store' :=
    fun error store' hframe => ⟨⟨hstate, hresult⟩, rfl, hrunning, Or.inl rfl, (nomatch ·), hframe⟩
  have hwaiting : ∀ (thread' : TaskThread) (store' : ObjectStore),
      thread'.Progress host store' record.submission →
      (∀ location ∉ host.locations record.submission, store' location = store location) →
      StepEffect host record store { record with execution := .waiting thread' } store' :=
    fun thread' store' hprogress' hframe =>
      ⟨⟨hstate, hresult, hprogress'⟩, rfl, hrunning, Or.inl rfl, (nomatch ·), hframe⟩
  have hwrite : ∀ location, host.target record.submission action = some location →
      ∀ payload, ∀ l ∉ host.locations record.submission, store.write location payload l = store l := by
    intro location htarget payload l houtside
    rw [ObjectStore.write_apply, if_neg]
    rintro rfl
    exact houtside (target_mem_locations (hprogress.mem hremaining) htarget)
  unfold act
  split
  case h_1 =>
    split_ifs
    · exact hraised _ _ fun _ _ => rfl
    · exact hwaiting _ _ (hprogress.skip hremaining rfl) fun _ _ => rfl
  case h_2 htarget => exact hwaiting _ _ (hprogress.skip hremaining htarget) fun _ _ => rfl
  case h_3 => exact hraised _ _ fun _ _ => rfl
  case h_4 location payload rowCount _ htarget =>
    exact hwaiting _ _ (hprogress.wrote hremaining htarget payload rowCount)
      (hwrite location htarget payload)
  case h_5 location error left _ htarget =>
    refine hraised error _ fun l houtside => ?_
    cases left with
    | none => rfl
    | some payload => exact hwrite location htarget payload l houtside

theorem step_effect (h : record.Sound host store) {event : ExecutionStep}
    (hstep : record.step host store event = some (record', store')) :
    StepEffect host record store record' store' := by
  unfold Sound at h
  cases event with
  | begin =>
    unfold step at hstep
    cases hexecution : record.execution with
    | scheduled =>
      simp only [hexecution, Option.some.injEq, Prod.mk.injEq] at h hstep
      obtain ⟨rfl, rfl⟩ := hstep
      exact ⟨⟨rfl, h.2, TaskThread.progress_start⟩, rfl, fun hterminal => hterminal.1 h.1,
        Or.inr (Or.inl ⟨h.1, rfl⟩), (nomatch ·), fun _ _ => rfl⟩
    | _ => simp [hexecution] at hstep
  | act outcome =>
    unfold step at hstep
    cases hexecution : record.execution with
    | waiting thread =>
      cases hremaining : thread.remaining with
      | cons action rest =>
        simp only [hexecution, hremaining, Option.some.injEq] at h hstep
        have heffect := act_effect h.1 h.2.1 h.2.2 hremaining outcome
        rwa [hstep] at heffect
      | nil => simp [hexecution, hremaining] at hstep
    | _ => simp [hexecution] at hstep
  | resume =>
    unfold step at hstep
    cases hexecution : record.execution with
    | waiting thread =>
      cases hremaining : thread.remaining with
      | nil =>
        simp only [hexecution, hremaining, Option.some.injEq] at h hstep
        have heffect := complete_effect h.1 h.2.1 h.2.2 hremaining
        rwa [hstep] at heffect
      | cons action rest => simp [hexecution, hremaining] at hstep
    | raised error =>
      simp only [hexecution, Option.some.injEq] at h hstep
      have heffect : StepEffect host record store (record.fail host error store).1
          (record.fail host error store).2 := fail_effect error h.1 h.2 fun _ _ => rfl
      rwa [hstep] at heffect
    | _ => simp [hexecution] at hstep

end TaskRecord

/-! ### Runs of a manager -/

namespace WorkerTaskManager

variable {host : WorkerHost} {manager manager' : WorkerTaskManager} {store : ObjectStore}
  {event : TaskEvent} {events : List TaskEvent} {attemptId : String} {record : TaskRecord}

/-- What an event may do to a manager. -/
inductive EventEffect (host : WorkerHost) (manager : WorkerTaskManager) (event : TaskEvent)
    (manager' : WorkerTaskManager) : Prop
  | kept (hkept : manager' = manager) (hevent : ∀ id, event.begins id = false)
  | created (submission : RemoteTaskSubmission) (hevent : event = .submit submission)
      (hnew : manager.records.get? submission.attemptId = none)
      (hget : ∀ id, manager'.records.get? id = if id = submission.attemptId then
        some (TaskRecord.created submission) else manager.records.get? id)
      (hstore : manager'.store = manager.store)
  | canceled (attemptId : String) (record : TaskRecord) (hevent : event = .cancel attemptId)
      (hrecord : manager.records.get? attemptId = some record)
      (hget : ∀ id, manager'.records.get? id = if id = attemptId then
        some record.cancel else manager.records.get? id)
      (hstore : manager'.store = manager.store)
  | executed (attemptId : String) (step : ExecutionStep) (record record' : TaskRecord)
      (hevent : event = .execute attemptId step)
      (hrecord : manager.records.get? attemptId = some record)
      (hstep : record.step host manager.store step = some (record', manager'.store))
      (hget : ∀ id, manager'.records.get? id = if id = attemptId then
        some record' else manager.records.get? id)

private theorem get?_modify_record {attemptId : String} {record : TaskRecord}
    (hrecord : manager.records.get? attemptId = some record) (f : TaskRecord → TaskRecord)
    (id : String) : (manager.records.modify attemptId f).get? id
      = if id = attemptId then some (f record) else manager.records.get? id := by
  rw [Dict.get?_modify]
  split_ifs with hid
  · rw [hid, hrecord, Option.map_some]
  · rfl

theorem step_effect (h : manager.step host event = some manager') :
    EventEffect host manager event manager' := by
  cases event with
  | status attemptId =>
    cases h
    exact .kept rfl fun _ => rfl
  | submit submission =>
    cases h
    cases hrecord : manager.records.get? submission.attemptId with
    | some existing =>
      refine .kept ?_ fun _ => rfl
      rw [submit, hrecord]
      dsimp only
      split_ifs <;> rfl
    | none =>
      refine .created submission rfl hrecord (fun id => ?_) ?_
      · rw [submit, hrecord]
        exact Dict.get?_set _ _ _ _
      · rw [submit, hrecord]
  | cancel attemptId =>
    cases h
    cases hrecord : manager.records.get? attemptId with
    | none =>
      refine .kept ?_ fun _ => rfl
      rw [cancel, hrecord]
    | some record =>
      by_cases hterminal : record.status.state.Terminal
      · refine .kept ?_ fun _ => rfl
        rw [cancel, hrecord]
        exact congrArg Prod.snd (if_pos hterminal)
      · refine .canceled attemptId record rfl hrecord (fun id => ?_) ?_
        · rw [cancel, hrecord]
          dsimp only
          rw [if_neg hterminal]
          exact get?_modify_record hrecord _ id
        · rw [cancel, hrecord]
          dsimp only
          rw [if_neg hterminal]
  | execute attemptId step =>
    obtain ⟨record, hrecord, hmap⟩ := Option.bind_eq_some_iff.mp h
    obtain ⟨⟨record', store'⟩, hstep, rfl⟩ := Option.map_eq_some_iff.mp hmap
    exact .executed attemptId step record record' rfl hrecord hstep
      (get?_modify_record hrecord _)

/-- Different attempts have different places in the stores. -/
def DistinctLocations (host : WorkerHost) (events : List TaskEvent) : Prop :=
  ∀ a b, .submit a ∈ events → .submit b ∈ events → a.attemptId ≠ b.attemptId →
    (host.locations a).Disjoint (host.locations b)

/-- What holds of a record after `events`. -/
structure RecordSound (host : WorkerHost) (events : List TaskEvent) (store : ObjectStore)
    (attemptId : String) (record : TaskRecord) : Prop where
  attemptId : record.submission.attemptId = attemptId
  submitted : .submit record.submission ∈ events
  sound : record.Sound host store

theorem RecordSound.later (h : RecordSound host events store attemptId record)
    (event : TaskEvent) : RecordSound host (events ++ [event]) store attemptId record :=
  { h with submitted := List.mem_append_left _ h.submitted }

theorem sound_run (hrun : Reaches host store events manager)
    (hdistinct : DistinctLocations host events)
    (h : manager.records.get? attemptId = some record) :
    RecordSound host events manager.store attemptId record := by
  induction hrun generalizing attemptId record with
  | nil => cases h
  | @concat events manager manager' event hrun hlast ih =>
    have hold : ∀ {id record}, manager.records.get? id = some record →
        RecordSound host events manager.store id record := fun h => ih (fun a b ha hb =>
      hdistinct a b (List.mem_append_left _ ha) (List.mem_append_left _ hb)) h
    cases step_effect hlast with
    | kept hkept _ =>
      subst hkept
      exact (hold h).later event
    | created submission hevent hnew hget hstore =>
      rw [hstore]
      rw [hget] at h
      split_ifs at h with hid
      · cases h
        exact ⟨hid.symm, by simp [TaskRecord.created, hevent], rfl, rfl⟩
      · exact (hold h).later event
    | canceled id other hevent hother hget hstore =>
      rw [hstore]
      rw [hget] at h
      split_ifs at h with hid
      · cases h
        subst hid
        have hsound := (hold hother).later event
        have hsubmission : other.cancel.submission = other.submission := by
          rw [TaskRecord.cancel]
          split_ifs <;> rfl
        exact ⟨hsubmission ▸ hsound.attemptId, hsubmission ▸ hsound.submitted,
          hsound.sound.cancel⟩
      · exact (hold h).later event
    | executed id step other other' hevent hother hstep hget =>
      have hsound := hold hother
      have heffect := TaskRecord.step_effect hsound.sound hstep
      rw [hget] at h
      split_ifs at h with hid
      · cases h
        subst hid
        exact ⟨heffect.submission ▸ hsound.attemptId,
          heffect.submission ▸ List.mem_append_left _ hsound.submitted, heffect.sound⟩
      · have hrecord := (hold h).later event
        refine { hrecord with sound := hrecord.sound.congr fun location hmem => ?_ }
        -- the stepping attempt writes elsewhere
        refine heffect.frame location fun hmem' => ?_
        refine hdistinct _ _ hrecord.submitted (List.mem_append_left _ hsound.submitted) ?_ hmem hmem'
        rw [hrecord.attemptId, hsound.attemptId]
        exact hid

/-- Once begun, an execution has begun. -/
theorem begun_step (hrun : Reaches host store events manager)
    (hdistinct : DistinctLocations host events)
    (hstep : manager.step host event = some manager')
    (hrecord : manager.records.get? attemptId = some record)
    (hbegun : record.execution ≠ .scheduled) :
    ∃ record', manager'.records.get? attemptId = some record' ∧ record'.execution ≠ .scheduled := by
  cases step_effect hstep with
  | kept hkept _ => exact ⟨record, hkept ▸ hrecord, hbegun⟩
  | created submission _ hnew hget _ =>
    refine ⟨record, (hget attemptId).trans ((if_neg ?_).trans hrecord), hbegun⟩
    rintro rfl
    cases hnew.symm.trans hrecord
  | canceled id other _ hother hget _ =>
    by_cases hid : attemptId = id
    · subst hid
      cases hother.symm.trans hrecord
      refine ⟨record.cancel, (hget attemptId).trans (if_pos rfl), ?_⟩
      rw [TaskRecord.cancel]
      split_ifs <;> exact hbegun
    · exact ⟨record, (hget attemptId).trans ((if_neg hid).trans hrecord), hbegun⟩
  | executed id step other other' _ hother hstep hget =>
    by_cases hid : attemptId = id
    · have heffect := TaskRecord.step_effect (sound_run hrun hdistinct hother).sound hstep
      exact ⟨other', (hget attemptId).trans (if_pos hid), heffect.begun⟩
    · exact ⟨record, (hget attemptId).trans ((if_neg hid).trans hrecord), hbegun⟩

/-- An execution begins at most once, and not before its record says so. -/
theorem begins_run (hrun : Reaches host store events manager)
    (hdistinct : DistinctLocations host events) (attemptId : String) :
    events.countP (·.begins attemptId) = 0 ∨ events.countP (·.begins attemptId) = 1 ∧
      ∃ record, manager.records.get? attemptId = some record ∧
        record.execution ≠ .scheduled := by
  induction hrun with
  | nil => exact Or.inl rfl
  | @concat events manager manager' event hrun hlast ih =>
    have hdistinct' : DistinctLocations host events := fun a b ha hb =>
      hdistinct a b (List.mem_append_left _ ha) (List.mem_append_left _ hb)
    have hold := ih hdistinct'
    rw [List.countP_append, List.countP_singleton]
    cases hbegins : event.begins attemptId with
    | false =>
      refine hold.imp id fun ⟨hcount, record, hrecord, hbegun⟩ => ⟨hcount, ?_⟩
      exact begun_step hrun hdistinct' hlast hrecord hbegun
    | true =>
      cases step_effect hlast with
      | kept _ hevent => cases (hevent attemptId).symm.trans hbegins
      | created submission hevent => cases hevent ▸ hbegins
      | canceled id other hevent => cases hevent ▸ hbegins
      | executed id step other other' hevent hother hstep hget =>
        subst hevent
        cases step with
        | act outcome => cases hbegins
        | resume => cases hbegins
        | begin =>
          obtain rfl : id = attemptId := of_decide_eq_true hbegins
          have hscheduled : other.execution = .scheduled := by
            rw [TaskRecord.step] at hstep
            split at hstep
            · assumption
            · cases hstep
          have heffect := TaskRecord.step_effect (sound_run hrun hdistinct' hother).sound hstep
          rcases hold with hcount | ⟨-, record, hrecord, hbegun⟩
          · refine Or.inr ⟨by simp [hcount], other', (hget id).trans (if_pos rfl), heffect.begun⟩
          · cases hother.symm.trans hrecord
            exact absurd hscheduled hbegun

/-- What a step leaves of the status of a record. -/
theorem advances_step (hrun : Reaches host store events manager)
    (hdistinct : DistinctLocations host events)
    (hstep : manager.step host event = some manager')
    (hrecord : manager.records.get? attemptId = some record) :
    ∃ record', manager'.records.get? attemptId = some record' ∧
      record'.submission = record.submission ∧
      record.status.state.Advances record'.status.state ∧
      (record.status.state.Terminal → record'.status = record.status) := by
  have hsame : ∀ record', manager'.records.get? attemptId = some record' →
      record'.submission = record.submission → record'.status = record.status → ∃ record',
        manager'.records.get? attemptId = some record' ∧
        record'.submission = record.submission ∧
        record.status.state.Advances record'.status.state ∧
        (record.status.state.Terminal → record'.status = record.status) :=
    fun record' hget hsubmission hstatus =>
      ⟨record', hget, hsubmission, Or.inl (by rw [hstatus]), fun _ => hstatus⟩
  cases step_effect hstep with
  | kept hkept _ => exact hsame record (hkept ▸ hrecord) rfl rfl
  | created submission _ hnew hget _ =>
    refine hsame record ((hget attemptId).trans ((if_neg ?_).trans hrecord)) rfl rfl
    rintro rfl
    cases hnew.symm.trans hrecord
  | canceled id other _ hother hget _ =>
    by_cases hid : attemptId = id
    · subst hid
      cases hother.symm.trans hrecord
      refine hsame record.cancel ((hget attemptId).trans (if_pos rfl)) ?_ ?_
      · rw [TaskRecord.cancel]
        split_ifs <;> rfl
      · rw [TaskRecord.cancel]
        split_ifs <;> rfl
    · exact hsame record ((hget attemptId).trans ((if_neg hid).trans hrecord)) rfl rfl
  | executed id step other other' _ hother hstep hget =>
    by_cases hid : attemptId = id
    · subst hid
      cases hother.symm.trans hrecord
      have heffect := TaskRecord.step_effect (sound_run hrun hdistinct hother).sound hstep
      exact ⟨other', (hget attemptId).trans (if_pos rfl), heffect.submission, heffect.advances,
        fun hterminal => absurd hterminal heffect.running⟩
    · exact hsame record ((hget attemptId).trans ((if_neg hid).trans hrecord)) rfl rfl

/-- A record that a step adds is CREATED. -/
theorem created_step (hstep : manager.step host event = some manager')
    (hnone : manager.records.get? attemptId = none)
    (hrecord : manager'.records.get? attemptId = some record) :
    record.status.state = .created := by
  cases step_effect hstep with
  | kept hkept _ => cases (hkept ▸ hnone).symm.trans hrecord
  | created submission _ _ hget _ =>
    rw [hget] at hrecord
    split_ifs at hrecord
    · cases hrecord
      rfl
    · cases hnone.symm.trans hrecord
  | canceled id other _ hother hget _ =>
    rw [hget] at hrecord
    split_ifs at hrecord with hid
    · cases (hid ▸ hnone).symm.trans hother
    · cases hnone.symm.trans hrecord
  | executed id step other other' _ hother _ hget =>
    rw [hget] at hrecord
    split_ifs at hrecord with hid
    · cases (hid ▸ hnone).symm.trans hother
    · cases hnone.symm.trans hrecord

/-- A status that is over stays as it is. -/
theorem terminal_run {later : List TaskEvent} (hrun : Reaches host store events manager)
    (hlater : Runs (fun manager event manager' => manager.step host event = some manager')
      manager later manager')
    (hdistinct : DistinctLocations host (events ++ later))
    (hrecord : manager.records.get? attemptId = some record)
    (hterminal : record.status.state.Terminal) :
    ∃ record', manager'.records.get? attemptId = some record' ∧
      record'.submission = record.submission ∧ record'.status = record.status := by
  induction hlater with
  | nil => exact ⟨record, hrecord, rfl, rfl⟩
  | @concat later middle last event hmiddle hlast ih =>
    rw [← List.append_assoc] at hdistinct
    have hdistinct' : DistinctLocations host (events ++ later) := fun a b ha hb =>
      hdistinct a b (List.mem_append_left _ ha) (List.mem_append_left _ hb)
    obtain ⟨record', hrecord', hsubmission, hstatus⟩ := ih hdistinct'
    obtain ⟨record'', hrecord'', hsubmission', -, hstatus'⟩ :=
      advances_step (hrun.append hmiddle) hdistinct' hlast hrecord'
    exact ⟨record'', hrecord'', hsubmission'.trans hsubmission,
      (hstatus' (hstatus ▸ hterminal)).trans hstatus⟩

/-- In every run with places of its own for each attempt: results are published, failed
and canceled attempts leave nothing, a repeated submission changes nothing, records start
as CREATED and only advance, and no execution begins twice. -/
theorem task_lifecycle (hrun : Reaches host store events manager)
    (hdistinct : DistinctLocations host events) :
    (∀ attemptId record, manager.records.get? attemptId = some record →
      (record.status.result.isSome ↔ record.status.state = .succeeded) ∧
      (∀ result, record.status.result = some result →
        Published host manager.store record.submission result) ∧
      (record.status.state = .canceled ∨ record.status.state = .failed →
        record.status.result = none ∧
        ∀ location ∈ host.locations record.submission, manager.store location = none) ∧
      manager.submit record.submission = (.ok record.status, manager)) ∧
    (∀ event manager', manager.step host event = some manager' →
      (∀ attemptId record, manager.records.get? attemptId = some record →
        ∃ record', manager'.records.get? attemptId = some record' ∧
          record'.submission = record.submission ∧
          record.status.state.Advances record'.status.state ∧
          (record.status.state.Terminal → record'.status = record.status)) ∧
      ∀ attemptId record, manager.records.get? attemptId = none →
        manager'.records.get? attemptId = some record → record.status.state = .created) ∧
    ∀ attemptId, events.countP (·.begins attemptId) ≤ 1 := by
  refine ⟨fun attemptId record hrecord => ?_, fun event manager' hstep =>
    ⟨fun attemptId record hrecord => advances_step hrun hdistinct hstep hrecord,
      fun attemptId record hnone hrecord => created_step hstep hnone hrecord⟩,
    fun attemptId => ?_⟩
  · have hrecord' := sound_run hrun hdistinct hrecord
    have hsubmit : manager.submit record.submission = (.ok record.status, manager) := by
      rw [submit, hrecord'.attemptId, hrecord]
      exact if_neg (not_not.mpr rfl)
    have hsound := hrecord'.sound
    unfold TaskRecord.Sound at hsound
    cases hexecution : record.execution with
    | scheduled =>
      simp only [hexecution] at hsound
      simp [hsound.1, hsound.2, hsubmit]
    | waiting thread =>
      simp only [hexecution] at hsound
      simp [hsound.1, hsound.2.1, hsubmit]
    | raised error =>
      simp only [hexecution] at hsound
      simp [hsound.1, hsound.2, hsubmit]
    | finished =>
      simp only [hexecution] at hsound
      rcases hsound with ⟨hstate, result, hresult, hpublished⟩ | ⟨hstate, hresult, hnone⟩
      · refine ⟨by simp [hstate, hresult], fun other hother => ?_, ?_, hsubmit⟩
        · cases hresult.symm.trans hother
          exact hpublished
        · rw [hstate]
          rintro (h | h) <;> cases h
      · refine ⟨?_, fun other hother => ?_, fun _ => ⟨hresult, hnone⟩, hsubmit⟩
        · rcases hstate with hstate | hstate <;> simp [hstate, hresult]
        · cases hresult.symm.trans hother
  · rcases begins_run hrun hdistinct attemptId with hcount | ⟨hcount, -⟩ <;> omega

/-- A worker with its results under `/tmp/results`. -/
def sampleHost : WorkerHost where
  python := .ascii
  workerId := "worker-1"
  tempDirectory := ⟨"/", ["tmp"]⟩
  resolve := id

def sampleSubmission (attemptId : String) : RemoteTaskSubmission where
  taskId := "task"
  attemptId := attemptId
  queryId := "query"
  stageId := "stage"
  operation := .sleep
  payload := "\x7b\"seconds\":0.0\x7d"
  outputLocation := ⟨"worker:///", [attemptId]⟩

/-- Attempt `a` is submitted twice and succeeds; `b` is canceled when its result is out. -/
def sampleEvents : List TaskEvent :=
  let work (attemptId : String) : List TaskEvent :=
    .execute attemptId .begin ::
      List.replicate 6 (.execute attemptId (.act (.done [80, 65, 82, 49] 1)))
  [.submit (sampleSubmission "a"), .submit (sampleSubmission "b"),
      .submit (sampleSubmission "a")]
    ++ work "a" ++ work "b" ++
  [.cancel "b", .execute "b" (.act (.done [] 0)), .execute "b" .resume,
    .execute "a" (.act (.done [] 0)), .execute "a" .resume]

theorem distinctLocations_sampleEvents : DistinctLocations sampleHost sampleEvents := by
  have hsubmit : ∀ submission, .submit submission ∈ sampleEvents →
      submission = sampleSubmission "a" ∨ submission = sampleSubmission "b" := by
    intro submission h
    simp [sampleEvents] at h
    grind
  have hlocations : ∀ attemptId, sampleHost.locations (sampleSubmission attemptId)
      = [⟨"/", ["tmp", "results", attemptId]⟩] := fun _ => rfl
  intro a b ha hb hne
  rw [Ne] at hne
  rcases hsubmit a ha with rfl | rfl <;> rcases hsubmit b hb with rfl | rfl
  · exact absurd rfl hne
  · simp [hlocations]
  · simp [hlocations]
  · exact absurd rfl hne

theorem task_lifecycle_sampleEvents : ∃ manager,
    Reaches sampleHost ObjectStore.empty sampleEvents manager ∧
    (∃ record, manager.records.get? "a" = some record ∧ record.status.state = .succeeded ∧
      record.status.result.isSome) ∧
    ∃ record, manager.records.get? "b" = some record ∧ record.status.state = .canceled ∧
      ∀ location ∈ sampleHost.locations record.submission, manager.store location = none := by
  obtain ⟨manager, hfold, ⟨a, ha, hstate⟩, b, hb, hstate'⟩ : ∃ manager, sampleEvents.foldlM
      (fun (manager : WorkerTaskManager) event => manager.step sampleHost event)
      { store := ObjectStore.empty } = some manager ∧
      (∃ a, manager.records.get? "a" = some a ∧ a.status.state = .succeeded) ∧
      ∃ b, manager.records.get? "b" = some b ∧ b.status.state = .canceled :=
    ⟨_, rfl, ⟨_, rfl, rfl⟩, _, rfl, rfl⟩
  have hrun := Runs.of_foldlM hfold
  have hrecords := (task_lifecycle hrun distinctLocations_sampleEvents).1
  exact ⟨manager, hrun, ⟨a, ha, hstate, (hrecords _ a ha).1.mpr hstate⟩, b, hb, hstate',
    ((hrecords _ b hb).2.2.1 (Or.inl hstate')).2⟩

end WorkerTaskManager

end DistributedSql
