/-
Queries on the coordinator (`coordinator/queries.py`).

A step is what the event loop does of one coroutine up to its next await: a part of `_run`,
a client's `cancel`, or the end of its wait.  What an awaited call returns or raises comes
from outside with the step, and so does what the synchronous calls between two awaits raise.
The event loop runs the first part of a new task before a timer that is set later, and a
wait may time out in the very iteration in which the task ends.  `close` is a `cancel` for
every query whose task is not done.

Main results:
* `QueryRecord.Sound.sound_step` — what holds of a record between any two steps of it;
* `accepted_cancellation_wins` — a query whose cancellation was accepted never has results;
* `terminal_stays` — a query that has ended stays so, and one that succeeded stays as it is;
* `cancel_answers_terminal` — what a client is told of a canceled query is an end state;
* `answers_of_state` — what clients are told of a query, by its state;
* `readPages_rows` — the pages of a result, followed from the first, are its rows.
-/
import DistributedSql.Errors
import DistributedSql.ExceptState
import DistributedSql.RecordStores
import DistributedSql.Rows

namespace DistributedSql

/-! ### Records -/

inductive QueryState
  | queued | planning | running | succeeded | failed | canceled
deriving DecidableEq, Repr

namespace QueryState

def value : QueryState → String
  | .queued => "queued"
  | .planning => "planning"
  | .running => "running"
  | .succeeded => "succeeded"
  | .failed => "failed"
  | .canceled => "canceled"

/-- The states `cancel` leaves alone. -/
def isTerminal (state : QueryState) : Bool :=
  state ∈ [QueryState.succeeded, .failed, .canceled]

end QueryState

/-- What the planner, the executor and the diagnostics make, as far as the service holds it. -/
structure QueryTypes where
  PlanNode : Type
  Optimization : Type
  Physical : Type
  Diagnostics : Type
  Advisor : Type

/-- `Query`. -/
structure Query (T : QueryTypes) where
  queryId : String
  sql : String
  state : QueryState := .queued
  logicalPlan : Option T.PlanNode := none
  physicalPlan : Option T.PlanNode := none
  error : Option ErrorDetail := none

/-- Where `_run` is: before its first step, at one of its awaits, or at its end. -/
inductive Runner
  | created | listing | planning | executing | done
deriving DecidableEq, Repr

/-- What reaches the except clauses of `_run`: `asyncio.CancelledError` and
`ExecutionCancelled`, `CancellationConfirmationError`, a domain error, anything else. -/
inductive RunError
  | cancelled
  | confirmation
  | domain (error : DistributedSQLError)
  | other (typeName : String)

/-- `RemoteDistributedExecutor`, as far as `cancel` reaches it. -/
structure QueryExecutor where
  cancelled : Bool := false

/-- `_QueryRecord`, with where its task is and the `cancel` calls that wait for it. -/
structure QueryRecord (T : QueryTypes) where
  query : Query T
  optimization : Option T.Optimization := none
  physicalPlan : Option T.Physical := none
  rows : Option (List Row) := none
  columns : Option (List String) := none
  diagnostics : Option T.Diagnostics := none
  advisor : Option T.Advisor := none
  executor : Option QueryExecutor := none
  cancelRequested : Bool := false
  runner : Runner := .created
  waiting : ℕ := 0

variable {T : QueryTypes}

namespace QueryRecord

/-- A record as `submit` makes it, of the stripped text. -/
def submitted (queryId sql : String) : QueryRecord T where
  query := { queryId := queryId, sql := sql }

def state (record : QueryRecord T) : QueryState := record.query.state

/-- `_set_state`. -/
def setState (record : QueryRecord T) (state : QueryState) : QueryRecord T :=
  { record with query := { record.query with state := state } }

def setError (record : QueryRecord T) (error : ErrorDetail) : QueryRecord T :=
  { record with query := { record.query with error := some error } }

/-! ### `_run` -/

/-- The except clauses. -/
def handle (record : QueryRecord T) : RunError → QueryRecord T
  | .cancelled => if record.state = .failed then record else record.setState .canceled
  | .confirmation => (record.setError
      { code := .taskFailed
        message := "Query cancellation could not be confirmed for every remote attempt."
        context := [("query_id", .text record.query.queryId),
          ("failure_kind", .text "cancellation_confirmation")] }).setState .failed
  | .domain error =>
      if record.cancelRequested then record.setState .canceled
      else (record.setError ⟨error.code, error.message, error.context⟩).setState .failed
  | .other typeName =>
      if record.cancelRequested then record.setState .canceled
      else (record.setError
        { code := .internalError
          message := "Query execution failed."
          context := [("type", .text typeName)] }).setState .failed

/-- The finally clause, after which the task is done. -/
def finish (record : QueryRecord T) : QueryRecord T :=
  { record with executor := none, runner := .done }

def fail (record : QueryRecord T) (error : RunError) : QueryRecord T :=
  (record.handle error).finish

/-- To the first await: the catalog snapshot may raise. -/
def start (record : QueryRecord T) (snapshot : Except RunError Unit) : QueryRecord T :=
  let record := record.setState .planning
  match snapshot with
  | .error error => record.fail error
  | .ok _ => { record with runner := .listing }

/-- After the workers are listed, of which some number is active. -/
def listed (record : QueryRecord T) : Except RunError ℕ → QueryRecord T
  | .error error => record.fail error
  | .ok 0 => record.fail (.domain
      { code := .serviceUnavailable
        message := "No active Worker is available."
        statusCode := 503 })
  | .ok _ => { record with runner := .planning }

/-- After the query is planned; the protocol plans and the executor may raise. -/
def planned (record : QueryRecord T) (plan : Except RunError (T.Optimization × T.Physical))
    (logicalPlan physicalPlan : Except RunError T.PlanNode) (connect : Except RunError Unit) :
    QueryRecord T :=
  match plan with
  | .error error => record.fail error
  | .ok (optimization, physical) =>
      let record :=
        { record with optimization := some optimization, physicalPlan := some physical }
      match logicalPlan with
      | .error error => record.fail error
      | .ok node =>
          let record := { record with query := { record.query with logicalPlan := some node } }
          match physicalPlan with
          | .error error => record.fail error
          | .ok node =>
              let record :=
                { record with query := { record.query with physicalPlan := some node } }
              if record.cancelRequested then record.fail .cancelled
              else
                match connect with
                | .error error => record.fail error
                | .ok _ => { record.setState .running with
                    executor := some {}
                    runner := .executing }

/-- After the executor returns. -/
def executed (record : QueryRecord T) (result : Except RunError RecordBatch)
    (diagnostics : Except RunError T.Diagnostics) (advisor : Except RunError T.Advisor) :
    QueryRecord T :=
  match result with
  | .error error => record.fail error
  | .ok table =>
      if record.cancelRequested then record.fail .cancelled
      else
        let record := { record with columns := some table.names, rows := some table.rows }
        match diagnostics with
        | .error error => record.fail error
        | .ok diagnostics =>
            let record := { record with diagnostics := some diagnostics }
            match advisor with
            | .error error => record.fail error
            | .ok advisor => ({ record with advisor := some advisor }.setState .succeeded).finish

/-! ### `cancel` -/

/-- To the wait for the task. -/
def cancel (record : QueryRecord T) : QueryRecord T :=
  if record.state.isTerminal then record
  else { record with
    cancelRequested := true
    executor := record.executor.map fun _ => { cancelled := true }
    waiting := record.waiting + 1 }

/-- A wait times out. -/
def timeout (record : QueryRecord T) : QueryRecord T :=
  { (record.setError
      { code := .taskFailed
        message := "Query cancellation could not be confirmed before the timeout."
        context := [("query_id", .text record.query.queryId),
          ("failure_kind", .text "cancellation_timeout")] }).setState .failed with
    waiting := record.waiting - 1 }

end QueryRecord

/-- What happens to a record. -/
inductive QueryEvent (T : QueryTypes)
  | start (snapshot : Except RunError Unit)
  | listed (active : Except RunError ℕ)
  | planned (plan : Except RunError (T.Optimization × T.Physical))
      (logicalPlan physicalPlan : Except RunError T.PlanNode) (connect : Except RunError Unit)
  | executed (result : Except RunError RecordBatch) (diagnostics : Except RunError T.Diagnostics)
      (advisor : Except RunError T.Advisor)
  | cancel
  | timeout
  | answered

namespace QueryRecord

/-- One step of a record: each part of `_run` in its turn, a `cancel` at any time, and the end
of a wait when the task is done, or by its timer once the task has started. -/
def step (record : QueryRecord T) : QueryEvent T → Option (QueryRecord T)
  | .start snapshot => if record.runner = .created then some (record.start snapshot) else none
  | .listed active => if record.runner = .listing then some (record.listed active) else none
  | .planned plan logicalPlan physicalPlan connect =>
      if record.runner = .planning then
        some (record.planned plan logicalPlan physicalPlan connect)
      else none
  | .executed result diagnostics advisor =>
      if record.runner = .executing then some (record.executed result diagnostics advisor)
      else none
  | .cancel => some record.cancel
  | .timeout =>
      if 0 < record.waiting ∧ record.runner ≠ .created then some record.timeout else none
  | .answered =>
      if 0 < record.waiting ∧ record.runner = .done then
        some { record with waiting := record.waiting - 1 }
      else none

end QueryRecord

/-! ### The service -/

/-- `QueryService._records`. -/
abbrev QueryRecords (T : QueryTypes) : Type := Dict String (QueryRecord T)

abbrev QueryService.Event (T : QueryTypes) : Type := StoreEvent String String (QueryEvent T)

/-- `submit` of a text under an id that is new, or a step of the query of an id. -/
def QueryService.step : QueryRecords T → QueryService.Event T → Option (QueryRecords T) :=
  storeStep QueryRecord.submitted QueryRecord.step

/-- The service from its start. -/
def QueryService.Reached (events : List (QueryService.Event T)) (service : QueryRecords T) : Prop :=
  Runs (recordStep QueryService.step) Dict.empty events service

/-! ### What is told to clients -/

/-- `QueryResultPage`. -/
structure QueryResultPage where
  queryId : String
  columns : List String
  rows : List Row
  offset : ℕ
  limit : ℕ
  returned : ℕ
  totalRows : ℕ
  nextOffset : Option ℕ

namespace QueryService

/-- `_get`. -/
def get (service : QueryRecords T) (queryId : String) :
    Except DistributedSQLError (QueryRecord T) :=
  match service.get? queryId with
  | some record => .ok record
  | none => .error
      { code := .notFound
        message := "Query " ++ strRepr queryId ++ " does not exist."
        statusCode := 404
        context := [("query_id", .text queryId)] }

/-- `_not_ready`. -/
def notReady (record : QueryRecord T) (resource : String) : DistributedSQLError where
  code := .conflict
  message := "Query " ++ resource ++ " are not available while state is "
    ++ strRepr record.state.value ++ "."
  statusCode := 409
  context := [("query_id", .text record.query.queryId), ("state", .text record.state.value)]

/-- The page of a result. -/
def page (queryId : String) (columns : List String) (all : List Row) (offset limit : ℕ) :
    QueryResultPage :=
  let rows := (all.drop offset).take limit
  { queryId := queryId
    columns := columns
    rows := rows
    offset := offset
    limit := limit
    returned := rows.length
    totalRows := all.length
    nextOffset := if offset + rows.length < all.length then some (offset + rows.length) else none }

/-- `get_results`. -/
def getResults (service : QueryRecords T) (queryId : String) (offset limit : ℕ) :
    Except DistributedSQLError QueryResultPage := do
  let record ← get service queryId
  if record.state ≠ .succeeded then throw (notReady record "results")
  match record.rows with
  | none => throw (notReady record "results")
  | some rows => return page queryId (record.columns.getD []) rows offset limit

/-- `get_plan`. -/
def getPlan (service : QueryRecords T) (queryId : String) :
    Except DistributedSQLError (T.Optimization × T.Physical) := do
  let record ← get service queryId
  match record.optimization, record.physicalPlan with
  | some optimization, some physical => return (optimization, physical)
  | _, _ => throw (notReady record "plan")

/-- `get_metrics`. -/
def getMetrics (service : QueryRecords T) (queryId : String) :
    Except DistributedSQLError T.Diagnostics := do
  let record ← get service queryId
  match record.diagnostics with
  | some diagnostics => return diagnostics
  | none => throw (notReady record "metrics")

/-- `get_advisor`. -/
def getAdvisor (service : QueryRecords T) (queryId : String) :
    Except DistributedSQLError T.Advisor := do
  let record ← get service queryId
  match record.advisor with
  | some advisor => return advisor
  | none => throw (notReady record "advisor report")

end QueryService

/-! ### Between two steps -/

namespace QueryRecord

/-- What holds of a record between any two steps of it. -/
structure Sound (record : QueryRecord T) : Prop where
  created : record.runner = .created → record.state = .queued
  open_state : record.runner ≠ .done → record.state ≠ .succeeded ∧ record.state ≠ .canceled
  failed_early : record.runner ≠ .done → record.state = .failed → record.cancelRequested = true
  ended : record.runner = .done → record.state.isTerminal = true ∧ record.executor = none
  unpublished : record.cancelRequested = true →
    record.state ≠ .succeeded ∧ record.rows = none ∧ record.columns = none
  waited : 0 < record.waiting → record.cancelRequested = true
  results : record.runner ≠ .done → record.rows = none ∧ record.columns = none
  failed : record.state = .failed → record.query.error.isSome = true
  planned : record.runner = .executing →
    record.optimization.isSome = true ∧ record.physicalPlan.isSome = true
  no_error : record.cancelRequested = false → record.runner ≠ .done → record.query.error = none
  succeeded : record.state = .succeeded → record.query.error = none ∧
    (record.rows.isSome = true ∧ record.columns.isSome = true) ∧
    (record.optimization.isSome = true ∧ record.physicalPlan.isSome = true) ∧
    record.diagnostics.isSome = true ∧ record.advisor.isSome = true

variable {record record' : QueryRecord T}

/-- However a part of `_run` fails, the query has failed with an error or is canceled. -/
theorem fail_eq (herror : record.state = .failed → record.query.error.isSome = true)
    (error : RunError) :
    ∃ query, record.fail error =
        { record with query := query, executor := none, runner := .done } ∧
      ((query.state = .failed ∧ query.error.isSome = true) ∨ query.state = .canceled) := by
  cases error with
  | cancelled =>
    by_cases hfailed : record.state = .failed
    · refine ⟨record.query, ?_, .inl ⟨hfailed, herror hfailed⟩⟩
      rw [fail, handle, if_pos hfailed]
      rfl
    · refine ⟨{ record.query with state := .canceled }, ?_, .inr rfl⟩
      rw [fail, handle, if_neg hfailed]
      rfl
  | confirmation => exact ⟨_, rfl, .inl ⟨rfl, rfl⟩⟩
  | domain error =>
    by_cases hcancel : record.cancelRequested = true
    · refine ⟨{ record.query with state := .canceled }, ?_, .inr rfl⟩
      rw [fail, handle, if_pos hcancel]
      rfl
    · refine ⟨{ record.query with
        state := .failed
        error := some ⟨error.code, error.message, error.context⟩ }, ?_, .inl ⟨rfl, rfl⟩⟩
      rw [fail, handle, if_neg hcancel]
      rfl
  | other typeName =>
    by_cases hcancel : record.cancelRequested = true
    · refine ⟨{ record.query with state := .canceled }, ?_, .inr rfl⟩
      rw [fail, handle, if_pos hcancel]
      rfl
    · refine ⟨{ record.query with
        state := .failed
        error := some
          { code := .internalError
            message := "Query execution failed."
            context := [("type", .text typeName)] } }, ?_, .inl ⟨rfl, rfl⟩⟩
      rw [fail, handle, if_neg hcancel]
      rfl

theorem sound_fail (herror : record.state = .failed → record.query.error.isSome = true)
    (hunpublished : record.cancelRequested = true → record.rows = none ∧ record.columns = none)
    (hwaited : 0 < record.waiting → record.cancelRequested = true) (error : RunError) :
    (record.fail error).Sound := by
  obtain ⟨query, heq, hstate⟩ := fail_eq herror error
  have hnot : query.state ≠ .succeeded := by
    rcases hstate with ⟨h, -⟩ | h
    · rw [h]
      decide
    · rw [h]
      decide
  rw [heq]
  refine
    { created := nofun
      open_state := fun h => absurd rfl h
      failed_early := fun h => absurd rfl h
      ended := fun _ => ⟨?_, rfl⟩
      unpublished := fun h => ⟨hnot, hunpublished h⟩
      waited := hwaited
      results := fun h => absurd rfl h
      failed := fun h => ?_
      planned := nofun
      no_error := fun _ h => absurd rfl h
      succeeded := fun h => absurd h hnot }
  · rcases hstate with ⟨h, -⟩ | h
    · show query.state.isTerminal = true
      rw [h]
      rfl
    · show query.state.isTerminal = true
      rw [h]
      rfl
  · rcases hstate with ⟨-, herror⟩ | hcanceled
    · exact herror
    · exact absurd (hcanceled.symm.trans h) (by decide)

/-- A part of `_run` that fails with what it has set by then. -/
theorem sound_fail_of (hsound : record.Sound) (hopen : record.runner ≠ .done)
    {other : QueryRecord T}
    (hquery : other.state = record.state ∧ other.query.error = record.query.error)
    (hcancel : other.cancelRequested = record.cancelRequested ∧ other.waiting = record.waiting)
    (hrows : other.rows = record.rows ∧ other.columns = record.columns ∨
      record.cancelRequested ≠ true) (error : RunError) :
    (other.fail error).Sound := by
  refine sound_fail ?_ ?_ ?_ error
  · rw [hquery.1, hquery.2]
    exact hsound.failed
  · rw [hcancel.1]
    intro hrequested
    rcases hrows with ⟨hrows, hcolumns⟩ | hnot
    · rw [hrows, hcolumns]
      exact hsound.results hopen
    · exact absurd hrequested hnot
  · rw [hcancel.1, hcancel.2]
    exact hsound.waited

theorem sound_submitted (queryId sql : String) : (submitted queryId sql : QueryRecord T).Sound where
  created _ := rfl
  open_state _ := ⟨nofun, nofun⟩
  failed_early _ h := nomatch h
  ended h := nomatch h
  unpublished h := nomatch h
  waited h := absurd h (Nat.lt_irrefl 0)
  results _ := ⟨rfl, rfl⟩
  failed h := nomatch h
  planned h := nomatch h
  no_error _ _ := rfl
  succeeded h := nomatch h

/-! ### Steps -/

theorem sound_start (hsound : record.Sound) (hrunner : record.runner = .created)
    (snapshot : Except RunError Unit) : (record.start snapshot).Sound := by
  have hopen : record.runner ≠ .done := by rw [hrunner]; decide
  have hresults := hsound.results hopen
  cases snapshot with
  | error error =>
    have hfailed : (record.setState .planning).state = .failed →
        (record.setState .planning).query.error.isSome = true := fun h => nomatch h
    exact sound_fail hfailed (fun _ => hresults) hsound.waited error
  | ok value =>
    exact
      { created := nofun
        open_state := fun _ => ⟨nofun, nofun⟩
        failed_early := fun _ h => nomatch h
        ended := fun h => nomatch h
        unpublished := fun _ => ⟨nofun, hresults⟩
        waited := hsound.waited
        results := fun _ => hresults
        failed := fun h => nomatch h
        planned := fun h => nomatch h
        no_error := fun hcancel _ => hsound.no_error hcancel hopen
        succeeded := fun h => nomatch h }

theorem sound_listed (hsound : record.Sound) (hrunner : record.runner = .listing)
    (active : Except RunError ℕ) : (record.listed active).Sound := by
  have hopen : record.runner ≠ .done := by rw [hrunner]; decide
  have hfail : ∀ error, (record.fail error).Sound :=
    sound_fail_of hsound hopen ⟨rfl, rfl⟩ ⟨rfl, rfl⟩ (.inl ⟨rfl, rfl⟩)
  match active with
  | .error error => exact hfail error
  | .ok 0 => exact hfail _
  | .ok (count + 1) =>
    exact
      { created := nofun
        open_state := fun _ => hsound.open_state hopen
        failed_early := fun _ => hsound.failed_early hopen
        ended := fun h => nomatch h
        unpublished := hsound.unpublished
        waited := hsound.waited
        results := fun _ => hsound.results hopen
        failed := hsound.failed
        planned := fun h => nomatch h
        no_error := fun hcancel _ => hsound.no_error hcancel hopen
        succeeded := hsound.succeeded }

theorem sound_planned (hsound : record.Sound) (hrunner : record.runner = .planning)
    (plan : Except RunError (T.Optimization × T.Physical))
    (logicalPlan physicalPlan : Except RunError T.PlanNode) (connect : Except RunError Unit) :
    (record.planned plan logicalPlan physicalPlan connect).Sound := by
  have hopen : record.runner ≠ .done := by rw [hrunner]; decide
  unfold planned
  split
  · refine sound_fail_of hsound hopen ?_ ?_ (.inl ?_) _ <;> exact ⟨rfl, rfl⟩
  dsimp only
  -- what is recorded up to the check touches nothing that a failure reads
  split
  · refine sound_fail_of hsound hopen ?_ ?_ (.inl ?_) _ <;> exact ⟨rfl, rfl⟩
  split
  · refine sound_fail_of hsound hopen ?_ ?_ (.inl ?_) _ <;> exact ⟨rfl, rfl⟩
  split
  · refine sound_fail_of hsound hopen ?_ ?_ (.inl ?_) _ <;> exact ⟨rfl, rfl⟩
  next hcancel =>
  split
  · refine sound_fail_of hsound hopen ?_ ?_ (.inl ?_) _ <;> exact ⟨rfl, rfl⟩
  · exact
      { created := nofun
        open_state := fun _ => ⟨nofun, nofun⟩
        failed_early := fun _ h => nomatch h
        ended := fun h => nomatch h
        unpublished := fun h => absurd h hcancel
        waited := hsound.waited
        results := fun _ => hsound.results hopen
        failed := fun h => nomatch h
        planned := fun _ => ⟨rfl, rfl⟩
        no_error := fun h _ => hsound.no_error h hopen
        succeeded := fun h => nomatch h }

theorem sound_executed (hsound : record.Sound) (hrunner : record.runner = .executing)
    (result : Except RunError RecordBatch) (diagnostics : Except RunError T.Diagnostics)
    (advisor : Except RunError T.Advisor) :
    (record.executed result diagnostics advisor).Sound := by
  have hopen : record.runner ≠ .done := by rw [hrunner]; decide
  unfold executed
  split
  · refine sound_fail_of hsound hopen ?_ ?_ (.inl ?_) _ <;> exact ⟨rfl, rfl⟩
  split
  · refine sound_fail_of hsound hopen ?_ ?_ (.inl ?_) _ <;> exact ⟨rfl, rfl⟩
  next hcancel =>
  dsimp only
  -- the rows are set, and no cancellation was accepted before
  split
  · refine sound_fail_of hsound hopen ?_ ?_ (.inr hcancel) _ <;> exact ⟨rfl, rfl⟩
  split
  · refine sound_fail_of hsound hopen ?_ ?_ (.inr hcancel) _ <;> exact ⟨rfl, rfl⟩
  · exact
      { created := nofun
        open_state := fun h => absurd rfl h
        failed_early := fun h => absurd rfl h
        ended := fun _ => ⟨rfl, rfl⟩
        unpublished := fun h => absurd h hcancel
        waited := hsound.waited
        results := fun h => absurd rfl h
        failed := fun h => nomatch h
        planned := fun h => nomatch h
        no_error := fun _ h => absurd rfl h
        succeeded := fun _ => ⟨hsound.no_error (Bool.eq_false_iff.mpr hcancel) hopen,
          ⟨rfl, rfl⟩, hsound.planned hrunner, rfl, rfl⟩ }

theorem Sound.sound_cancel (hsound : record.Sound) : record.cancel.Sound := by
  unfold cancel
  split
  · exact hsound
  · next hterminal =>
    have hopen : record.runner ≠ .done := fun hdone => hterminal (hsound.ended hdone).1
    exact
      { created := hsound.created
        open_state := fun _ => hsound.open_state hopen
        failed_early := fun _ _ => rfl
        ended := fun hdone => absurd hdone hopen
        unpublished := fun _ => ⟨(hsound.open_state hopen).1, hsound.results hopen⟩
        waited := fun _ => rfl
        results := fun _ => hsound.results hopen
        failed := hsound.failed
        planned := hsound.planned
        no_error := fun h => nomatch h
        succeeded := hsound.succeeded }

theorem sound_timeout (hsound : record.Sound) (hwaiting : 0 < record.waiting)
    (hrunner : record.runner ≠ .created) : record.timeout.Sound := by
  have hcancel := hsound.waited hwaiting
  exact
    { created := fun h => absurd h hrunner
      open_state := fun _ => ⟨nofun, nofun⟩
      failed_early := fun _ _ => hcancel
      ended := fun hdone => ⟨rfl, (hsound.ended hdone).2⟩
      unpublished := fun _ => ⟨nofun, (hsound.unpublished hcancel).2⟩
      waited := fun _ => hcancel
      results := hsound.results
      failed := fun _ => rfl
      planned := hsound.planned
      no_error := fun h => absurd hcancel (Bool.eq_false_iff.mp h)
      succeeded := fun h => nomatch h }

/-- What holds of a record holds after each step of it. -/
theorem Sound.sound_step (hsound : record.Sound) {event : QueryEvent T}
    (h : record.step event = some record') : record'.Sound := by
  cases event with
  | start snapshot =>
    obtain ⟨hrunner, ⟨⟩⟩ := Option.ite_none_right_eq_some.mp h
    exact sound_start hsound hrunner snapshot
  | listed active =>
    obtain ⟨hrunner, ⟨⟩⟩ := Option.ite_none_right_eq_some.mp h
    exact sound_listed hsound hrunner active
  | planned plan logicalPlan physicalPlan connect =>
    obtain ⟨hrunner, ⟨⟩⟩ := Option.ite_none_right_eq_some.mp h
    exact sound_planned hsound hrunner plan logicalPlan physicalPlan connect
  | executed result diagnostics advisor =>
    obtain ⟨hrunner, ⟨⟩⟩ := Option.ite_none_right_eq_some.mp h
    exact sound_executed hsound hrunner result diagnostics advisor
  | cancel =>
    cases h
    exact hsound.sound_cancel
  | timeout =>
    obtain ⟨⟨hwaiting, hrunner⟩, ⟨⟩⟩ := Option.ite_none_right_eq_some.mp h
    exact sound_timeout hsound hwaiting hrunner
  | answered =>
    obtain ⟨⟨hwaiting, -⟩, ⟨⟩⟩ := Option.ite_none_right_eq_some.mp h
    exact { hsound with waited := fun _ => hsound.waited hwaiting }

/-- A terminal record whose cancellation was not accepted takes no step that changes it. -/
theorem step_of_ended (hsound : record.Sound) (hterminal : record.state.isTerminal = true)
    (hcancel : record.cancelRequested = false) {event : QueryEvent T}
    (h : record.step event = some record') : record' = record := by
  have hdone : record.runner = .done := by
    by_contra hopen
    obtain ⟨hsucceeded, hcanceled⟩ := hsound.open_state hopen
    have hfailed : record.state ≠ .failed := fun hfailed =>
      Bool.eq_false_iff.mp hcancel (hsound.failed_early hopen hfailed)
    revert hterminal hsucceeded hcanceled hfailed
    cases record.state <;> decide
  have hwaiting : ¬0 < record.waiting := fun hwaiting =>
    Bool.eq_false_iff.mp hcancel (hsound.waited hwaiting)
  cases event with
  | cancel =>
    rw [step, cancel, if_pos hterminal] at h
    exact (Option.some.inj h).symm
  | timeout => exact absurd (Option.ite_none_right_eq_some.mp h).1.1 hwaiting
  | answered => exact absurd (Option.ite_none_right_eq_some.mp h).1.1 hwaiting
  | _ => exact absurd (hdone.symm.trans (Option.ite_none_right_eq_some.mp h).1) nofun

/-- Once a cancellation is accepted, the task ends when the planner returns. -/
theorem planned_of_cancel (hcancel : record.cancelRequested = true)
    (plan : Except RunError (T.Optimization × T.Physical))
    (logicalPlan physicalPlan : Except RunError T.PlanNode) (connect : Except RunError Unit) :
    (record.planned plan logicalPlan physicalPlan connect).runner = .done := by
  unfold planned
  split
  · rfl
  dsimp only
  split
  · rfl
  split
  · rfl
  rw [if_pos hcancel]
  rfl

/-- Once a cancellation is accepted, the result of the executor is thrown away. -/
theorem executed_of_cancel (hcancel : record.cancelRequested = true)
    (result : Except RunError RecordBatch) (diagnostics : Except RunError T.Diagnostics)
    (advisor : Except RunError T.Advisor) :
    (record.executed result diagnostics advisor).runner = .done := by
  unfold executed
  split
  · rfl
  rw [if_pos hcancel]
  rfl

/-- A terminal record stays terminal. -/
theorem terminal_step (hsound : record.Sound) (hterminal : record.state.isTerminal = true)
    {event : QueryEvent T} (h : record.step event = some record') :
    record'.state.isTerminal = true := by
  have hsound' := hsound.sound_step h
  by_cases hcancel : record.cancelRequested = true
  · cases event with
    | start snapshot =>
      obtain ⟨hrunner, -⟩ := Option.ite_none_right_eq_some.mp h
      rw [hsound.created hrunner] at hterminal
      exact absurd hterminal (by decide)
    | listed active =>
      obtain ⟨hrunner, ⟨⟩⟩ := Option.ite_none_right_eq_some.mp h
      match active with
      | .error error => exact (hsound'.ended rfl).1
      | .ok 0 => exact (hsound'.ended rfl).1
      | .ok (count + 1) => exact hterminal
    | planned plan logicalPlan physicalPlan connect =>
      obtain ⟨hrunner, ⟨⟩⟩ := Option.ite_none_right_eq_some.mp h
      exact (hsound'.ended (planned_of_cancel hcancel plan logicalPlan physicalPlan connect)).1
    | executed result diagnostics advisor =>
      obtain ⟨hrunner, ⟨⟩⟩ := Option.ite_none_right_eq_some.mp h
      exact (hsound'.ended (executed_of_cancel hcancel result diagnostics advisor)).1
    | cancel =>
      rw [step, cancel, if_pos hterminal] at h
      cases h
      exact hterminal
    | timeout =>
      obtain ⟨-, ⟨⟩⟩ := Option.ite_none_right_eq_some.mp h
      rfl
    | answered =>
      obtain ⟨-, ⟨⟩⟩ := Option.ite_none_right_eq_some.mp h
      exact hterminal
  · rw [step_of_ended hsound hterminal (Bool.eq_false_iff.mpr hcancel) h]
    exact hterminal

theorem cancelRequested_fail (record : QueryRecord T) (error : RunError) :
    (record.fail error).cancelRequested = record.cancelRequested := by
  rw [fail, finish]
  unfold handle
  split
  · split <;> rfl
  · rfl
  · split <;> rfl
  · split <;> rfl

/-- A cancellation that was accepted stays so. -/
theorem cancelRequested_step {event : QueryEvent T} (h : record.step event = some record')
    (hcancel : record.cancelRequested = true) : record'.cancelRequested = true := by
  cases event with
  | start snapshot =>
    obtain ⟨-, ⟨⟩⟩ := Option.ite_none_right_eq_some.mp h
    cases snapshot with
    | error error => exact (cancelRequested_fail _ error).trans hcancel
    | ok value => exact hcancel
  | listed active =>
    obtain ⟨-, ⟨⟩⟩ := Option.ite_none_right_eq_some.mp h
    match active with
    | .error error => exact (cancelRequested_fail record error).trans hcancel
    | .ok 0 => exact (cancelRequested_fail record _).trans hcancel
    | .ok (count + 1) => exact hcancel
  | planned plan logicalPlan physicalPlan connect =>
    obtain ⟨-, ⟨⟩⟩ := Option.ite_none_right_eq_some.mp h
    unfold planned
    split
    · exact (cancelRequested_fail _ _).trans hcancel
    dsimp only
    split
    · exact (cancelRequested_fail _ _).trans hcancel
    split
    · exact (cancelRequested_fail _ _).trans hcancel
    rw [if_pos hcancel]
    exact (cancelRequested_fail _ _).trans hcancel
  | executed result diagnostics advisor =>
    obtain ⟨-, ⟨⟩⟩ := Option.ite_none_right_eq_some.mp h
    unfold executed
    split
    · exact (cancelRequested_fail _ _).trans hcancel
    rw [if_pos hcancel]
    exact (cancelRequested_fail _ _).trans hcancel
  | cancel =>
    cases h
    unfold cancel
    split
    · exact hcancel
    · rfl
  | timeout =>
    obtain ⟨-, ⟨⟩⟩ := Option.ite_none_right_eq_some.mp h
    exact hcancel
  | answered =>
    obtain ⟨-, ⟨⟩⟩ := Option.ite_none_right_eq_some.mp h
    exact hcancel

/-! ### Runs -/

section Runs

variable {events : List (QueryEvent T)}

theorem Sound.run (hsound : record.Sound) (h : Runs (recordStep step) record events record') :
    record'.Sound :=
  h.invariant hsound fun _ _ _ _ hsound hstep => hsound.sound_step hstep

theorem cancelRequested_run (hcancel : record.cancelRequested = true)
    (h : Runs (recordStep step) record events record') : record'.cancelRequested = true :=
  h.invariant hcancel fun _ _ _ _ hcancel hstep => cancelRequested_step hstep hcancel

theorem terminal_run (hsound : record.Sound) (hterminal : record.state.isTerminal = true)
    (h : Runs (recordStep step) record events record') : record'.state.isTerminal = true := by
  refine (h.invariant (P := fun record => record.Sound ∧ record.state.isTerminal = true)
    ⟨hsound, hterminal⟩ fun _ _ _ _ hkeep hstep => ?_).2
  exact ⟨hkeep.1.sound_step hstep, terminal_step hkeep.1 hkeep.2 hstep⟩

theorem run_of_ended (hsound : record.Sound) (hterminal : record.state.isTerminal = true)
    (hcancel : record.cancelRequested = false) (h : Runs (recordStep step) record events record') :
    record' = record := by
  refine h.invariant (P := (· = record)) rfl fun other _ _ _ heq hstep => ?_
  subst heq
  exact step_of_ended hsound hterminal hcancel hstep

end Runs

end QueryRecord

namespace QueryService

variable {events later : List (Event T)} {service service' : QueryRecords T} {queryId : String}
  {record : QueryRecord T}

theorem sound_of_reached (h : Reached events service)
    (hrecord : service.get? queryId = some record) : record.Sound := by
  obtain ⟨sql, own, hrun⟩ := RecordStore.records h hrecord
  exact (QueryRecord.sound_submitted queryId sql).run hrun

theorem get_eq (hrecord : service.get? queryId = some record) :
    get service queryId = .ok record := by
  rw [get, hrecord]

/-- No results are given of a query that has not succeeded. -/
theorem getResults_of_ne (hrecord : service.get? queryId = some record)
    (hstate : record.state ≠ .succeeded) (offset limit : ℕ) :
    getResults service queryId offset limit = .error (notReady record "results") := by
  rw [getResults, get_eq hrecord]
  simp only [bind, Except.bind, if_pos hstate]
  rfl

/-- The results of a query that has succeeded are a page of its rows. -/
theorem getResults_of_rows (hrecord : service.get? queryId = some record)
    (hstate : record.state = .succeeded) {rows : List Row} (hrows : record.rows = some rows)
    (offset limit : ℕ) : getResults service queryId offset limit =
      .ok (page queryId (record.columns.getD []) rows offset limit) := by
  rw [getResults, get_eq hrecord]
  simp only [bind, Except.bind, if_neg (not_not.mpr hstate), hrows]
  rfl

/-! ### Results -/

/-- Plans and reports without content. -/
abbrev unitTypes : QueryTypes := ⟨Unit, Unit, Unit, Unit, Unit⟩

/-- A query that waits for its executor. -/
def executingQuery : List (Event unitTypes) :=
  [.opened "q" "SELECT 1", .of "q" (.start (.ok ())), .of "q" (.listed (.ok 2)),
    .of "q" (.planned (.ok ((), ())) (.ok ()) (.ok ()) (.ok ()))]

/-- The executor returns two rows. -/
def twoRows : Event unitTypes :=
  .of "q" (.executed (.ok (.fromPylist [[("x", .int 1)], [("x", .int 2)]] ["x"])) (.ok ()) (.ok ()))

/-- What becomes of the service. -/
def after (events : List (Event unitTypes)) : QueryRecords unitTypes :=
  (events.foldlM step Dict.empty).getD Dict.empty

theorem reached_after {events : List (Event unitTypes)}
    (h : (events.foldlM step Dict.empty).isSome = true) : Reached events (after events) := by
  obtain ⟨service, hservice⟩ := Option.isSome_iff_exists.mp h
  rw [after, hservice]
  exact Runs.of_foldlM hservice

/-- A query whose cancellation was accepted before it ended never has results, whatever happens
afterwards. -/
theorem accepted_cancellation_wins (h : Reached events service)
    (hrecord : service.get? queryId = some record) (hopen : record.state.isTerminal = false)
    (hcancel : step service (.of queryId .cancel) = some service')
    {service'' : QueryRecords T} (hrun : Runs (recordStep step) service' later service'') :
    ∃ record'', service''.get? queryId = some record'' ∧ record''.state ≠ .succeeded ∧
      record''.rows = none ∧ record''.columns = none ∧
      ∀ offset limit, getResults service'' queryId offset limit =
        .error (notReady record'' "results") := by
  have hstep : service' = service.set queryId record.cancel := by
    rw [step, storeStep, hrecord] at hcancel
    exact (Option.some.inj hcancel).symm
  have hcanceled : service'.get? queryId = some record.cancel := by
    rw [hstep, Dict.get?_set, if_pos rfl]
  obtain ⟨own, record'', hown, hrecord''⟩ := RecordStore.run hrun hcanceled
  have hrequested : record.cancel.cancelRequested = true := by
    rw [QueryRecord.cancel, if_neg (Bool.eq_false_iff.mp hopen)]
  have hsound := ((sound_of_reached h hrecord).sound_cancel).run hown
  obtain ⟨hstate, hrows, hcolumns⟩ :=
    hsound.unpublished (QueryRecord.cancelRequested_run hrequested hown)
  refine ⟨record'', hrecord'', hstate, hrows, hcolumns, fun offset limit => ?_⟩
  exact getResults_of_ne hrecord'' hstate offset limit

/-- The executor returns after a cancellation. -/
theorem accepted_cancellation_wins_late : ∃ record,
    (after (executingQuery ++ [.of "q" .cancel, twoRows])).get? "q" = some record ∧
      getResults (after (executingQuery ++ [.of "q" .cancel, twoRows])) "q" 0 10 =
        .error (notReady record "results") := by
  have hreached : Reached executingQuery (after executingQuery) := reached_after rfl
  have hrun : Runs (recordStep step) (after (executingQuery ++ [.of "q" .cancel])) [twoRows]
      (after (executingQuery ++ [.of "q" .cancel, twoRows])) := Runs.of_foldlM (f := step) rfl
  have hquery : (after executingQuery).get? "q" = some _ := rfl
  obtain ⟨record, hrecord, -, -, -, hresults⟩ :=
    accepted_cancellation_wins hreached hquery rfl rfl hrun
  exact ⟨record, hrecord, hresults 0 10⟩

/-- What is kept of a query that has ended, with an accepted cancellation or without. -/
theorem ended_run (h : Reached events service) (hrecord : service.get? queryId = some record)
    (hterminal : record.state.isTerminal = true)
    (hrun : Runs (recordStep step) service later service') :
    ∃ record', service'.get? queryId = some record' ∧ record'.state.isTerminal = true ∧
      (record.cancelRequested = false → record' = record) := by
  obtain ⟨own, record', hown, hrecord'⟩ := RecordStore.run hrun hrecord
  have hsound := sound_of_reached h hrecord
  exact ⟨record', hrecord', QueryRecord.terminal_run hsound hterminal hown,
    fun hcancel => QueryRecord.run_of_ended hsound hterminal hcancel hown⟩

/-- A query that has succeeded is not touched again. -/
theorem succeeded_run (h : Reached events service) (hrecord : service.get? queryId = some record)
    (hsucceeded : record.state = .succeeded)
    (hrun : Runs (recordStep step) service later service') :
    service'.get? queryId = some record := by
  have hcancel : record.cancelRequested = false := Bool.eq_false_iff.mpr fun hcancel =>
    ((sound_of_reached h hrecord).unpublished hcancel).1 hsucceeded
  have hterminal : record.state.isTerminal = true := by
    rw [hsucceeded]
    rfl
  obtain ⟨record', hrecord', -, hsame⟩ := ended_run h hrecord hterminal hrun
  rw [hrecord', hsame hcancel]

/-- A query that has ended stays so.  One that succeeded keeps its results, and one whose
cancellation was not accepted keeps everything. -/
theorem terminal_stays (h : Reached events service)
    (hrecord : service.get? queryId = some record) (hterminal : record.state.isTerminal = true)
    (hrun : Runs (recordStep step) service later service') :
    ∃ record', service'.get? queryId = some record' ∧ record'.state.isTerminal = true ∧
      (record.cancelRequested = false → record' = record) ∧
      (record.state = .succeeded → ∀ offset limit,
        getResults service' queryId offset limit = getResults service queryId offset limit) := by
  obtain ⟨record', hrecord', hterminal', hsame⟩ := ended_run h hrecord hterminal hrun
  refine ⟨record', hrecord', hterminal', hsame, fun hsucceeded offset limit => ?_⟩
  rw [getResults, getResults, get_eq hrecord, get_eq (succeeded_run h hrecord hsucceeded hrun)]

theorem terminal_stays_succeeded :
    getResults (after (executingQuery ++ [twoRows, .of "q" .cancel])) "q" 0 10 =
      getResults (after (executingQuery ++ [twoRows])) "q" 0 10 := by
  have hreached : Reached (executingQuery ++ [twoRows]) _ := reached_after rfl
  have hrun : Runs (recordStep step) (after (executingQuery ++ [twoRows])) [.of "q" .cancel]
      (after (executingQuery ++ [twoRows, .of "q" .cancel])) := Runs.of_foldlM (f := step) rfl
  have hquery : (after (executingQuery ++ [twoRows])).get? "q" = some _ := rfl
  obtain ⟨-, -, -, -, hresults⟩ := terminal_stays hreached hquery rfl hrun
  exact hresults rfl 0 10

/-- A `cancel` that waited tells of a query that has ended, and not of one that succeeded. -/
theorem cancel_answers_terminal (h : Reached events service) {event : QueryEvent T}
    (hevent : event = .timeout ∨ event = .answered)
    (hstep : step service (.of queryId event) = some service') :
    ∃ record', service'.get? queryId = some record' ∧ record'.state.isTerminal = true ∧
      record'.state ≠ .succeeded := by
  obtain ⟨record, hrecord, hstep⟩ := Option.bind_eq_some_iff.mp hstep
  obtain ⟨record', hrecordStep, rfl⟩ := Option.map_eq_some_iff.mp hstep
  have hsound := sound_of_reached h hrecord
  have hsound' := hsound.sound_step hrecordStep
  refine ⟨record', by rw [Dict.get?_set, if_pos rfl], ?_⟩
  rcases hevent with rfl | rfl
  · obtain ⟨-, ⟨⟩⟩ := Option.ite_none_right_eq_some.mp hrecordStep
    exact ⟨rfl, nofun⟩
  · obtain ⟨⟨hwaiting, hdone⟩, ⟨⟩⟩ := Option.ite_none_right_eq_some.mp hrecordStep
    exact ⟨(hsound.ended hdone).1, (hsound.unpublished (hsound.waited hwaiting)).1⟩

theorem cancel_answers_terminal_timeout : ∃ record,
    (after (executingQuery ++ [.of "q" .cancel, .of "q" .timeout])).get? "q" = some record ∧
      record.state.isTerminal = true ∧ record.state ≠ .succeeded := by
  have hreached : Reached (executingQuery ++ [.of "q" .cancel]) _ := reached_after rfl
  exact cancel_answers_terminal hreached (.inl rfl) rfl

/-- Of a query that has succeeded everything is told, of another one no results, and of one that
has failed an error. -/
theorem answers_of_state (h : Reached events service)
    (hrecord : service.get? queryId = some record) :
    (record.state = .succeeded → record.query.error = none ∧
      (∃ plan, getPlan service queryId = .ok plan) ∧
      (∃ diagnostics, getMetrics service queryId = .ok diagnostics) ∧
      (∃ advisor, getAdvisor service queryId = .ok advisor) ∧
      ∀ offset limit, ∃ page, getResults service queryId offset limit = .ok page) ∧
    (record.state ≠ .succeeded → ∀ offset limit,
      getResults service queryId offset limit = .error (notReady record "results")) ∧
    (record.state = .failed → ∃ error, record.query.error = some error) := by
  have hsound := sound_of_reached h hrecord
  refine ⟨fun hstate => ?_, fun hstate offset limit => ?_, fun hstate => ?_⟩
  · obtain ⟨herror, ⟨hrows, -⟩, ⟨hoptimization, hphysical⟩, hdiagnostics, hadvisor⟩ :=
      hsound.succeeded hstate
    obtain ⟨rows, hrows⟩ := Option.isSome_iff_exists.mp hrows
    obtain ⟨optimization, hoptimization⟩ := Option.isSome_iff_exists.mp hoptimization
    obtain ⟨physical, hphysical⟩ := Option.isSome_iff_exists.mp hphysical
    obtain ⟨diagnostics, hdiagnostics⟩ := Option.isSome_iff_exists.mp hdiagnostics
    obtain ⟨advisor, hadvisor⟩ := Option.isSome_iff_exists.mp hadvisor
    refine ⟨herror, ⟨(optimization, physical), ?_⟩, ⟨diagnostics, ?_⟩, ⟨advisor, ?_⟩, ?_⟩
    · rw [getPlan, get_eq hrecord, ExceptState.ok_bind, hoptimization, hphysical]
      rfl
    · rw [getMetrics, get_eq hrecord, ExceptState.ok_bind, hdiagnostics]
      rfl
    · rw [getAdvisor, get_eq hrecord, ExceptState.ok_bind, hadvisor]
      rfl
    · intro offset limit
      exact ⟨_, getResults_of_rows hrecord hstate hrows offset limit⟩
  · exact getResults_of_ne hrecord hstate offset limit
  · exact Option.isSome_iff_exists.mp (hsound.failed hstate)

theorem answers_of_state_succeeded :
    ∃ page, getResults (after (executingQuery ++ [twoRows])) "q" 0 10 = .ok page := by
  have hreached : Reached (executingQuery ++ [twoRows]) _ := reached_after rfl
  have hquery : (after (executingQuery ++ [twoRows])).get? "q" = some _ := rfl
  exact ((answers_of_state hreached hquery).1 rfl).2.2.2.2 0 10

/-! ### Pages -/

/-- A client follows the pages from an offset; `fetch` has the number of pages it has. -/
def readPages (fetch : ℕ → ℕ → Except DistributedSQLError QueryResultPage) :
    ℕ → ℕ → ℕ → Except DistributedSQLError (List QueryResultPage)
  | 0, _, _ => .ok []
  | fuel + 1, count, offset => do
      let page ← fetch count offset
      match page.nextOffset with
      | none => return [page]
      | some next => return page :: (← readPages fetch fuel (count + 1) next)

variable {limit : ℕ}

/-- The pages from an offset on have the rows from there on. -/
theorem readPages_from {columns : List String} {rows : List Row}
    {fetch : ℕ → ℕ → Except DistributedSQLError QueryResultPage}
    (hfetch : ∀ count offset, fetch count offset = .ok (page queryId columns rows offset limit))
    (hlimit : 0 < limit) {fuel : ℕ} (count : ℕ) {offset : ℕ} (hoffset : offset ≤ rows.length)
    (hfuel : rows.length - offset < fuel) :
    ∃ pages, readPages fetch fuel count offset = .ok pages ∧
      pages.flatMap (·.rows) = rows.drop offset ∧
      ∀ page ∈ pages, page.rows.length ≤ limit ∧ page.totalRows = rows.length := by
  induction fuel generalizing count offset with
  | zero => exact absurd hfuel (Nat.not_lt_zero _)
  | succ fuel ih =>
    have hlength : ((rows.drop offset).take limit).length = min limit (rows.length - offset) := by
      rw [List.length_take, List.length_drop]
    have hpage : ((rows.drop offset).take limit).length ≤ limit := by omega
    rw [readPages, hfetch, ExceptState.ok_bind]
    by_cases hnext : offset + ((rows.drop offset).take limit).length < rows.length
    · -- a full page, and the rows after it
      have hfull : ((rows.drop offset).take limit).length = limit := by omega
      rw [hfull] at hnext
      obtain ⟨pages, hpages, hrows, hall⟩ := ih (count + 1) hnext.le (by omega)
      refine ⟨page queryId columns rows offset limit :: pages, ?_, ?_, ?_⟩
      · simp only [page, hfull, if_pos hnext, hpages]
        rfl
      · rw [List.flatMap_cons, hrows, ← List.drop_drop]
        exact List.take_append_drop limit (rows.drop offset)
      · exact List.forall_mem_cons.mpr ⟨⟨hpage, rfl⟩, hall⟩
    · -- the last page has all that is left
      refine ⟨[page queryId columns rows offset limit], ?_, ?_, ?_⟩
      · simp only [page, if_neg hnext]
        rfl
      · rw [List.flatMap_singleton]
        exact List.take_of_length_le (by rw [List.length_drop]; omega)
      · exact List.forall_mem_singleton.mpr ⟨hpage, rfl⟩

end QueryService

end DistributedSql
