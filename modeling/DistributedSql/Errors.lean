/-
Errors that may be shown to a client (`common/exceptions.py`).
-/
import Mathlib

namespace DistributedSql

inductive ErrorCode
  | syntaxError | bindingError | notFound | conflict | invalidRequest | leaseRejected
  | resourceExhausted | taskFailed | serviceUnavailable | internalError
deriving DecidableEq, Repr

/-- A value in the context of an error. -/
inductive ContextValue
  | text (value : String)
  | texts (values : List String)
  | number (value : ℕ)
  | none
deriving DecidableEq, Repr

/-- `DistributedSQLError`. -/
structure DistributedSQLError where
  code : ErrorCode
  message : String
  statusCode : ℕ := 400
  context : List (String × ContextValue) := []
deriving DecidableEq, Repr

/-- `ErrorDetail`. -/
structure ErrorDetail where
  code : ErrorCode
  message : String
  context : List (String × ContextValue) := []
deriving DecidableEq, Repr

/-- What a task may raise: an expected domain error, or anything else. -/
inductive TaskError
  | domain (error : DistributedSQLError)
  | other (name : String)
deriving DecidableEq, Repr

/-- `_PUBLIC_TASK_MESSAGES`. -/
def publicTaskMessage : ErrorCode → String
  | .syntaxError => "Worker SQL syntax validation failed."
  | .bindingError => "Worker SQL binding failed."
  | .notFound => "Worker Task input was not found."
  | .conflict => "Worker Task state conflicts with the request."
  | .invalidRequest => "Worker Task input is invalid."
  | .leaseRejected => "Worker lease was rejected."
  | .resourceExhausted => "Worker resources were exhausted."
  | .taskFailed => "Worker Task execution failed."
  | .serviceUnavailable => "Worker service is unavailable."
  | .internalError => "Worker encountered an internal error."

/-- `_PUBLIC_CONTEXT_KEYS`. -/
def publicContextKeys : List String :=
  ["alias", "attempt_count", "attempt_id", "candidates", "column", "column_name", "column_names",
    "column_count", "end", "expression_type", "failure_kind", "format", "function", "limit_bytes",
    "line", "namespace", "partition", "partition_count", "query_id", "requested_bytes",
    "stage_id", "start", "statement_count", "table", "task_id", "worker_id"]

/-- `public_task_error`: the caller's entries replace the error's own. -/
def publicTaskError (error : TaskError) (context : List (String × ContextValue)) : ErrorDetail :=
  let (code, sourceContext) := match error with
    | .domain e => (e.code, e.context)
    | .other _ => (.taskFailed, [])
  { code := code
    message := publicTaskMessage code
    context := (sourceContext.filter fun entry =>
        entry.1 ∈ publicContextKeys ∧ entry.1 ∉ context.map Prod.fst)
      ++ context.filter fun entry => entry.1 ∈ publicContextKeys }

/-- A character inside `repr` of a string; characters beyond ASCII are taken as printable. -/
def reprChar (quote c : Char) : List Char :=
  if c = quote ∨ c = '\\' then ['\\', c]
  else if c = '\n' then ['\\', 'n']
  else if c = '\r' then ['\\', 'r']
  else if c = '\t' then ['\\', 't']
  else if c.toNat < 32 ∨ c.toNat = 127 then
    ['\\', 'x', Nat.digitChar (c.toNat / 16), Nat.digitChar (c.toNat % 16)]
  else [c]

/-- `repr` of a string. -/
def strRepr (text : String) : String :=
  let single := Char.ofNat 39
  let double := Char.ofNat 34
  let quote := if text.toList.contains single && !text.toList.contains double then double
    else single
  String.ofList (quote :: text.toList.flatMap (reprChar quote) ++ [quote])

end DistributedSql
