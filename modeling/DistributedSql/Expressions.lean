/-
Bound SQL expressions and their scalar evaluation (`planner/expressions.py`,
`planner/types.py`).

`Expression` has one constructor per expression class, with the fields the
class has, and `Expression.evaluate` follows the `evaluate` methods, three-valued
logic and exceptions included.  What the methods take from the Python runtime
without the engine having a say in it (float and decimal arithmetic, `str`,
`casefold`, `hash`, ...) is the record `Python`; nothing is assumed of it here,
so a statement about all of `Python` holds of the real one.
-/
import DistributedSql.Rows

namespace DistributedSql

inductive DataType
  | null | boolean | int32 | int64 | float32 | float64 | decimal | string | binary
  | date | timestamp | list | struct
deriving DecidableEq, Repr

/-- `DataType.value`. -/
def DataType.value : DataType → String
  | .null => "null"
  | .boolean => "boolean"
  | .int32 => "int32"
  | .int64 => "int64"
  | .float32 => "float32"
  | .float64 => "float64"
  | .decimal => "decimal"
  | .string => "string"
  | .binary => "binary"
  | .date => "date"
  | .timestamp => "timestamp"
  | .list => "list"
  | .struct => "struct"

structure TypeInfo where
  dataType : DataType
  nullable : Bool := true
deriving DecidableEq, Repr

inductive UnaryOperator
  | not | negate
deriving DecidableEq, Repr

def UnaryOperator.value : UnaryOperator → String
  | .not => "NOT"
  | .negate => "-"

inductive BinaryOperator
  | add | subtract | multiply | divide | modulo
  | equal | notEqual | lessThan | lessThanOrEqual | greaterThan | greaterThanOrEqual
  | and | or
deriving DecidableEq, Repr

def BinaryOperator.value : BinaryOperator → String
  | .add => "+"
  | .subtract => "-"
  | .multiply => "*"
  | .divide => "/"
  | .modulo => "%"
  | .equal => "="
  | .notEqual => "<>"
  | .lessThan => "<"
  | .lessThanOrEqual => "<="
  | .greaterThan => ">"
  | .greaterThanOrEqual => ">="
  | .and => "AND"
  | .or => "OR"

structure WindowFrame where
  kind : String
  start : String
  stop : String
deriving DecidableEq, Repr

inductive Expression
  | literal (value : SQLValue) (resultType : TypeInfo)
  | column (name source : String) (resultType : TypeInfo)
  | cast (expression : Expression) (target : TypeInfo) (implicit : Bool)
  | unary (operator : UnaryOperator) (expression : Expression) (resultType : TypeInfo)
  | binary (operator : BinaryOperator) (left right : Expression) (resultType : TypeInfo)
  | isNull (expression : Expression) (negated : Bool)
  | inList (expression : Expression) (options : List Expression) (negated : Bool)
  | between (expression low high : Expression) (negated : Bool)
  | like (expression pattern : Expression) (negated : Bool)
  | case (branches : List (Expression × Expression)) (default : Expression)
      (resultType : TypeInfo)
  | scalarFunction (name : String) (arguments : List Expression) (resultType : TypeInfo)
  | aggregateFunction (name : String) (arguments : List Expression) (resultType : TypeInfo)
      (distinct : Bool)
  | windowFunction (function : Expression) (partitionBy : List Expression)
      (orderBy : List (Expression × Bool × Bool)) (frame : Option WindowFrame)

/-- `SortExpression`: the expression, `ascending` and `nulls_first`. -/
structure SortExpression where
  expression : Expression
  ascending : Bool := true
  nullsFirst : Bool := false

/-- The parts of the Python runtime that the engine calls and the model does not compute. -/
structure Python where
  /-- `int(value)` -/
  int : SQLValue → Except PyError ℤ
  /-- `float(value)` -/
  float : SQLValue → Except PyError PyFloat
  /-- `Decimal(text)` -/
  decimal : String → Except PyError PyDecimal
  /-- `str(value)` -/
  str : SQLValue → String
  /-- `date.fromisoformat(text)` -/
  dateFromisoformat : String → Except PyError PyDate
  /-- `datetime.fromisoformat(text)` -/
  datetimeFromisoformat : String → Except PyError PyDateTime
  /-- an arithmetic operator on two floats -/
  floatOperation : BinaryOperator → PyFloat → PyFloat → Except PyError PyFloat
  /-- an arithmetic operator on two decimals, in the default context -/
  decimalOperation : BinaryOperator → PyDecimal → PyDecimal → Except PyError PyDecimal
  /-- `left / right` on ints, a float -/
  intDivide : ℤ → ℤ → Except PyError PyFloat
  /-- an arithmetic operator on operands that are not all numbers -/
  otherOperation : BinaryOperator → SQLValue → SQLValue → Except PyError SQLValue
  /-- `-value` on a decimal, in the default context -/
  decimalNegate : PyDecimal → PyDecimal
  /-- `abs(value)` on a decimal, in the default context -/
  decimalAbs : PyDecimal → PyDecimal
  /-- `round(value, digits)` -/
  round : SQLValue → SQLValue → Except PyError SQLValue
  /-- `text.lower()` -/
  lower : String → String
  /-- `text.upper()` -/
  upper : String → String
  /-- `text.casefold()` -/
  casefold : String → String
  /-- `hash(key)` of a tuple of values -/
  hash : List SQLValue → ℤ
  /-- `len(repr(row).encode("utf-8"))` -/
  reprLength : Row → ℕ
  /-- `hashlib.sha256(data).digest()` -/
  sha256 : ByteArray → List UInt8
  /-- `math.ceil(-items * math.log(rate) / math.log(2) ** 2)` -/
  bloomBits : ℕ → PyFloat → ℤ
  /-- `round(bits / items * math.log(2))` -/
  bloomHashes : ℕ → ℕ → ℤ

/-- A runtime that is right about ints and ASCII text, for running the model on
small inputs: what would need float or decimal arithmetic raises. -/
def Python.ascii : Python where
  int
    | .int i => .ok i
    | .bool b => .ok (if b then 1 else 0)
    | value => .error (.typeError ("int() argument must not be '" ++ value.typeName ++ "'"))
  float
    | .float x => .ok x
    | value => .error (.typeError ("float() argument must not be '" ++ value.typeName ++ "'"))
  decimal _ := .error (.arithmeticError "[<class 'decimal.ConversionSyntax'>]")
  str
    | .str s => s
    | .int i => toString i
    | .bool b => if b then "True" else "False"
    | value => value.typeName
  dateFromisoformat text := .error (.valueError ("Invalid isoformat string: '" ++ text ++ "'"))
  datetimeFromisoformat text := .error (.valueError ("Invalid isoformat string: '" ++ text ++ "'"))
  floatOperation _ _ _ := .error (.arithmeticError "float arithmetic")
  decimalOperation _ _ _ := .error (.arithmeticError "decimal arithmetic")
  intDivide _ _ := .error (.arithmeticError "division by zero")
  otherOperation operator _ _ :=
    .error (.typeError ("unsupported operand type(s) for " ++ operator.value))
  decimalNegate d := d
  decimalAbs d := d
  round value _ := .ok value
  lower := String.toLower
  upper := String.toUpper
  casefold := String.toLower
  hash key := key.length
  reprLength row := row.length
  sha256 _ := List.replicate 32 0
  bloomBits _ _ := 2
  bloomHashes _ _ := 44

namespace Expression

/-! ### SQL text -/

/-- `", ".join(items)`. -/
def commaJoin (items : List String) : String := String.intercalate ", " items

/-- `f"{self.source}.{self.name}" if self.source else self.name`. -/
def qualifiedName (name source : String) : String :=
  if source = "" then name else source ++ "." ++ name

/-- `Literal.sql`. -/
def literalSql (py : Python) : SQLValue → String
  | .null => "NULL"
  | .bool b => if b then "TRUE" else "FALSE"
  | .str s => "'" ++ s.replace "'" "''" ++ "'"
  | value => py.str value

mutual

/-- `Expression.sql`. -/
def sql (py : Python) : Expression → String
  | .literal value _ => literalSql py value
  | .column name source _ => qualifiedName name source
  | .cast expression target _ =>
      "CAST(" ++ expression.sql py ++ " AS " ++ target.dataType.value.toUpper ++ ")"
  | .unary operator expression _ => operator.value ++ " " ++ expression.sql py
  | .binary operator left right _ =>
      "(" ++ left.sql py ++ " " ++ operator.value ++ " " ++ right.sql py ++ ")"
  | .isNull expression negated =>
      "(" ++ expression.sql py ++ " " ++ (if negated then "IS NOT NULL" else "IS NULL") ++ ")"
  | .inList expression options negated =>
      "(" ++ expression.sql py ++ " " ++ (if negated then "NOT IN" else "IN") ++ " ("
        ++ commaJoin (sqlAll py options) ++ "))"
  | .between expression low high negated =>
      "(" ++ expression.sql py ++ " " ++ (if negated then "NOT BETWEEN" else "BETWEEN") ++ " "
        ++ low.sql py ++ " AND " ++ high.sql py ++ ")"
  | .like expression pattern negated =>
      "(" ++ expression.sql py ++ " " ++ (if negated then "NOT LIKE" else "LIKE") ++ " "
        ++ pattern.sql py ++ ")"
  | .case branches default _ =>
      "CASE " ++ String.intercalate " " (sqlBranches py branches) ++ " ELSE " ++ default.sql py
        ++ " END"
  | .scalarFunction name arguments _ =>
      py.upper name ++ "(" ++ commaJoin (sqlAll py arguments) ++ ")"
  | .aggregateFunction name arguments _ distinct =>
      py.upper name ++ "(" ++ (if distinct then "DISTINCT " else "")
        ++ (if arguments.isEmpty then "*" else commaJoin (sqlAll py arguments)) ++ ")"
  | .windowFunction function partitionBy orderBy frame =>
      function.sql py ++ " OVER ("
        ++ String.intercalate " "
          ((if partitionBy.isEmpty then []
              else ["PARTITION BY " ++ commaJoin (sqlAll py partitionBy)])
            ++ (if orderBy.isEmpty then [] else ["ORDER BY " ++ commaJoin (sqlOrder py orderBy)])
            ++ (match frame with
              | none => []
              | some f => [f.kind ++ " BETWEEN " ++ f.start ++ " AND " ++ f.stop]))
        ++ ")"

def sqlAll (py : Python) : List Expression → List String
  | [] => []
  | expression :: rest => expression.sql py :: sqlAll py rest

def sqlBranches (py : Python) : List (Expression × Expression) → List String
  | [] => []
  | (condition, result) :: rest =>
      ("WHEN " ++ condition.sql py ++ " THEN " ++ result.sql py) :: sqlBranches py rest

/-- `SortExpression.sql` on each item. -/
def sqlOrder (py : Python) : List (Expression × Bool × Bool) → List String
  | [] => []
  | (expression, ascending, nullsFirst) :: rest =>
      (expression.sql py ++ " " ++ (if ascending then "ASC" else "DESC") ++ " "
        ++ (if nullsFirst then "NULLS FIRST" else "NULLS LAST")) :: sqlOrder py rest

end

end Expression

/-! ### Operators on values -/

/-- `bool(value)`. -/
def SQLValue.truth : SQLValue → Bool
  | .null => false
  | .bool b => b
  | .int i => i != 0
  | .float x => x.number != .finite 0
  | .decimal d => d.number != .finite 0
  | .str s => s != ""
  | .bytes b => !b.isEmpty
  | .date _ | .datetime _ => true

/-- The `int` a `bool` or an `int` is. -/
def SQLValue.asInt? : SQLValue → Option ℤ
  | .bool b => some (if b then 1 else 0)
  | .int i => some i
  | _ => none

/-- `sql_and`: only the objects `False` and `None` are told apart from the rest. -/
def sqlAnd (left right : SQLValue) : SQLValue :=
  if left = .bool false ∨ right = .bool false then .bool false
  else if left = .null ∨ right = .null then .null
  else .bool true

/-- `sql_or`. -/
def sqlOr (left right : SQLValue) : SQLValue :=
  if left = .bool true ∨ right = .bool true then .bool true
  else if left = .null ∨ right = .null then .null
  else .bool false

def badOperand (operator : String) (value : SQLValue) : PyError :=
  .typeError ("bad operand type for " ++ operator ++ ": '" ++ value.typeName ++ "'")

/-- Unary minus. -/
def negateValue (py : Python) (value : SQLValue) : Except PyError SQLValue :=
  match value with
  | .float x => .ok (.float { x with negative := !x.negative })
  | .decimal d => .ok (.decimal (py.decimalNegate d))
  | value =>
      match value.asInt? with
      | some i => .ok (.int (-i))
      | none => .error (badOperand "unary -" value)

/-- `abs(value)`. -/
def absValue (py : Python) (value : SQLValue) : Except PyError SQLValue :=
  match value with
  | .float x => .ok (.float { x with negative := false })
  | .decimal d => .ok (.decimal (py.decimalAbs d))
  | value =>
      match value.asInt? with
      | some i => .ok (.int i.natAbs)
      | none => .error (badOperand "abs()" value)

/-- An arithmetic operator on two ints; `%` takes the sign of the divisor. -/
def intOperation (py : Python) (operator : BinaryOperator) (left right : ℤ) :
    Except PyError SQLValue :=
  match operator with
  | .add => .ok (.int (left + right))
  | .subtract => .ok (.int (left - right))
  | .multiply => .ok (.int (left * right))
  | .divide => (py.intDivide left right).map .float
  | _ =>
      if right = 0 then .error (.arithmeticError "integer modulo by zero")
      else .ok (.int (left.fmod right))

/-- `_numeric_operation`. -/
def numericOperation (py : Python) (left right : SQLValue) (operator : BinaryOperator) :
    Except PyError SQLValue :=
  match left, right with
  | .decimal _, _ | _, .decimal _ => do
      let leftNumber ← py.decimal (py.str left)
      let rightNumber ← py.decimal (py.str right)
      return .decimal (← py.decimalOperation operator leftNumber rightNumber)
  | .float _, _ | _, .float _ => do
      let leftNumber ← py.float left
      let rightNumber ← py.float right
      return .float (← py.floatOperation operator leftNumber rightNumber)
  | _, _ =>
      match left.asInt?, right.asInt? with
      | some i, some j => intOperation py operator i j
      | _, _ => py.otherOperation operator left right

/-- `Cast.evaluate` on a value that is not NULL. -/
def castValue (py : Python) (target : DataType) (value : SQLValue) : Except PyError SQLValue :=
  match target, value with
  | .int32, _ | .int64, _ => (py.int value).map .int
  | .float32, _ | .float64, _ => (py.float value).map .float
  | .decimal, _ => (py.decimal (py.str value)).map .decimal
  | .string, _ => .ok (.str (py.str value))
  | .boolean, _ => .ok (.bool value.truth)
  | .date, .str text => (py.dateFromisoformat text).map .date
  | .timestamp, .str text => (py.datetimeFromisoformat text).map .datetime
  -- a `datetime` is a `date` too, and loses its time of day here
  | .timestamp, .date d => .ok (.datetime ⟨d, 0, 0, 0, 0, none, rfl⟩)
  | .timestamp, .datetime t => .ok (.datetime ⟨t.date, 0, 0, 0, 0, none, rfl⟩)
  | _, _ => .ok value

/-- `re.fullmatch` of a LIKE pattern: `%` is any text, `_` any character. -/
def likeMatches : List Char → List Char → Bool
  | [], text => text.isEmpty
  | '%' :: pattern, text => text.tails.any (likeMatches pattern)
  | '_' :: pattern, _ :: text => likeMatches pattern text
  | '_' :: _, [] => false
  | c :: pattern, d :: text => c == d && likeMatches pattern text
  | _ :: _, [] => false

/-- A bound of a Python slice, counted from the end when negative. -/
def sliceBound (length : ℕ) (bound : ℤ) : ℕ :=
  if bound < 0 then (length + bound).toNat else bound.toNat

/-- `text[start:stop]`. -/
def pySlice (text : List Char) (start : ℤ) (stop : Option ℤ) : List Char :=
  let first := sliceBound text.length start
  match stop with
  | none => text.drop first
  | some stop => (text.take (sliceBound text.length stop)).drop first

/-- The `substring` branch of `ScalarFunction.evaluate`. -/
def substringValue (py : Python) (values : List SQLValue) : Except PyError SQLValue :=
  match values with
  | text :: start :: rest =>
      match start.asInt? with
      | none => .error (.typeError "slice indices must be integers or None or have an __index__ method")
      | some start =>
          let begin_ := max (start - 1) 0
          match rest with
          | [] => .ok (.str (String.ofList (pySlice (py.str text).toList begin_ none)))
          | length :: _ =>
              match length.asInt? with
              | none =>
                  .error (.typeError
                    "slice indices must be integers or None or have an __index__ method")
              | some length =>
                  .ok (.str (String.ofList
                    (pySlice (py.str text).toList begin_ (some (begin_ + length)))))
  | _ => .error (.indexError "list index out of range")

/-- `ScalarFunction.evaluate` on the argument values. -/
def scalarFunctionValue (py : Python) (name : String) (values : List SQLValue) :
    Except PyError SQLValue :=
  let function := py.lower name
  if function = "coalesce" then .ok ((values.find? fun value => !value.isNull).getD .null)
  else if values.any SQLValue.isNull then .ok .null
  else
    match function, values with
    | "lower", value :: _ => .ok (.str (py.lower (py.str value)))
    | "upper", value :: _ => .ok (.str (py.upper (py.str value)))
    | "length", .str text :: _ => .ok (.int text.length)
    | "length", .bytes data :: _ => .ok (.int data.length)
    | "length", value :: _ =>
        .error (.typeError ("object of type '" ++ value.typeName ++ "' has no len()"))
    | "abs", value :: _ => absValue py value
    | "concat", values => .ok (.str (String.join (values.map py.str)))
    | "substring", values => substringValue py values
    | "round", [value, digits] => py.round value digits
    | "round", value :: _ => py.round value (.int 0)
    | function, _ =>
        if function ∈ ["lower", "upper", "length", "abs", "round"] then
          .error (.indexError "list index out of range")
        else
          .error (.valueError
            ("Function " ++ name ++ " cannot be evaluated as a scalar expression."))

/-- The operators of `Binary.evaluate`, after both sides are evaluated. -/
def binaryValue (py : Python) (operator : BinaryOperator) (left right : SQLValue) :
    Except PyError SQLValue :=
  match operator with
  | .and => .ok (sqlAnd left right)
  | .or => .ok (sqlOr left right)
  | operator =>
      if left = .null ∨ right = .null then .ok .null
      else
        match operator with
        | .equal => .ok (.bool (left.eq right))
        | .notEqual => .ok (.bool !(left.eq right))
        | .lessThan => (left.lt right).map .bool
        | .lessThanOrEqual => (left.le right).map .bool
        | .greaterThan => (left.gt right).map .bool
        | .greaterThanOrEqual => (left.ge right).map .bool
        | operator => numericOperation py left right operator

namespace Expression

/-! ### Evaluation -/

mutual

/-- `Expression.evaluate`. -/
def evaluate (py : Python) (row : Row) : Expression → Except PyError SQLValue
  | .literal value _ => .ok value
  | .column name source _ =>
      match row.get? (qualifiedName name source) with
      | some value => .ok value
      | none => row.getItem name
  | .cast expression target _ => do
      let value ← expression.evaluate py row
      if value.isNull then return .null
      castValue py target.dataType value
  | .unary operator expression _ => do
      let value ← expression.evaluate py row
      if value.isNull then return .null
      match operator with
      | .not => return .bool !value.truth
      | .negate => negateValue py value
  | .binary operator left right _ => do
      let left ← left.evaluate py row
      let right ← right.evaluate py row
      binaryValue py operator left right
  | .isNull expression negated => do
      let value ← expression.evaluate py row
      return .bool (value.isNull != negated)
  | .inList expression options negated => do
      let value ← expression.evaluate py row
      if value.isNull then return .null
      evaluateOptions py row value negated false options
  | .between expression low high negated => do
      let value ← expression.evaluate py row
      let low ← low.evaluate py row
      let high ← high.evaluate py row
      if value.isNull || low.isNull || high.isNull then return .null
      -- `low <= value <= high` stops at the first comparison that fails
      let result ← if ← low.le value then value.le high else .ok false
      return .bool (result != negated)
  | .like expression pattern negated => do
      let value ← expression.evaluate py row
      let pattern ← pattern.evaluate py row
      if value.isNull || pattern.isNull then return .null
      return .bool (likeMatches (py.str pattern).toList (py.str value).toList != negated)
  | .case branches default _ => do
      match ← evaluateBranches py row branches with
      | some result => return result
      | none => default.evaluate py row
  | .scalarFunction name arguments _ => do
      scalarFunctionValue py name (← evaluateAll py row arguments)
  | .aggregateFunction name arguments resultType distinct =>
      match row.get? (sql py (.aggregateFunction name arguments resultType distinct)) with
      | some value => .ok value
      | none => .error (.valueError "Aggregate expressions require an aggregate operator.")
  | .windowFunction function partitionBy orderBy frame =>
      match row.get? (sql py (.windowFunction function partitionBy orderBy frame)) with
      | some value => .ok value
      | none => .error (.valueError "Window expressions require a window operator.")

def evaluateAll (py : Python) (row : Row) : List Expression → Except PyError (List SQLValue)
  | [] => .ok []
  | expression :: rest => do
      let value ← expression.evaluate py row
      return value :: (← evaluateAll py row rest)

/-- The option loop of `InList.evaluate`, carrying `saw_null`. -/
def evaluateOptions (py : Python) (row : Row) (value : SQLValue) (negated sawNull : Bool) :
    List Expression → Except PyError SQLValue
  | [] => .ok (if sawNull then .null else .bool negated)
  | option :: rest => do
      let candidate ← option.evaluate py row
      if candidate.isNull then evaluateOptions py row value negated true rest
      else if candidate.eq value then return .bool !negated
      else evaluateOptions py row value negated sawNull rest

/-- The branch loop of `Case.evaluate`: the result of the first condition that is `True`. -/
def evaluateBranches (py : Python) (row : Row) :
    List (Expression × Expression) → Except PyError (Option SQLValue)
  | [] => .ok none
  | (condition, result) :: rest => do
      if (← condition.evaluate py row) = .bool true then return some (← result.evaluate py row)
      else evaluateBranches py row rest

end

theorem evaluateAll_cons {py : Python} {row : Row} {expression : Expression}
    {rest : List Expression} {values : List SQLValue}
    (h : evaluateAll py row (expression :: rest) = .ok values) :
    ∃ value tail, expression.evaluate py row = .ok value ∧ evaluateAll py row rest = .ok tail ∧
      values = value :: tail := by
  rw [evaluateAll] at h
  cases hv : expression.evaluate py row with
  | error e =>
    rw [hv] at h
    cases h
  | ok value =>
    cases ht : evaluateAll py row rest with
    | error e =>
      rw [hv, ht] at h
      cases h
    | ok tail =>
      rw [hv, ht] at h
      cases h
      exact ⟨value, tail, rfl, rfl, rfl⟩

theorem length_of_evaluateAll {py : Python} {row : Row} {expressions : List Expression}
    {values : List SQLValue} (h : evaluateAll py row expressions = .ok values) :
    values.length = expressions.length := by
  induction expressions generalizing values with
  | nil =>
    cases h
    rfl
  | cons expression rest ih =>
    obtain ⟨value, tail, -, htail, rfl⟩ := evaluateAll_cons h
    rw [List.length_cons, List.length_cons, ih htail]

end Expression

end DistributedSql
