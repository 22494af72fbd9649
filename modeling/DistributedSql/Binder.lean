/-
The binding of SQL expressions (`planner/binder.py`).

`SqlExpression` is the syntax tree the binder is handed, with one constructor for each kind
of node that `_bind_expression` tells apart, and `bindExpression` follows it with its casts,
types and errors.

Main results:
* `bindExpression_bound` — what is bound is made of the fields in scope and the aliases,
  and a type without NULL says so of the parts;
* `bindExpression_resolves` — every column of it is a field of a source in scope.
-/
import DistributedSql.Between

namespace DistributedSql

/-! ### Syntax -/

/-- A boundary of a window frame: an integer literal, the text of a keyword, or else. -/
inductive SqlBoundary
  | int (value : ℕ)
  | text (value : String)
  | other

/-- A window specification, with the sides of its boundaries. -/
structure SqlWindowSpec where
  kind : String
  start : SqlBoundary
  startSide : Option String
  stop : SqlBoundary
  stopSide : Option String

/-- A type name, and the type's text. -/
structure SqlDataType where
  type : String
  text : String

/-- Nodes of the parsed query.  The literal of a float carries what `float` makes of it; an
aggregate has the arguments of its DISTINCT where it has one, and none for a star; other
functions go by their lower-case names, the ranking functions among them. -/
inductive SqlExpression
  | paren (this : SqlExpression)
  | column (table name : String)
  | null
  | boolean (value : Bool)
  | stringLiteral (text : String)
  | intLiteral (value : ℕ)
  | floatLiteral (value : PyFloat)
  | cast (this : SqlExpression) (target : SqlDataType)
  | neg (this : SqlExpression)
  | not (this : SqlExpression)
  | binary (operator : BinaryOperator) (left right : SqlExpression)
  | is (this : SqlExpression) (ofNull : Bool)
  | inList (this : SqlExpression) (expressions : List SqlExpression) (query : Bool)
  | between (this low high : SqlExpression)
  | like (this pattern : SqlExpression)
  | case (this : Option SqlExpression) (ifs : List (SqlExpression × SqlExpression))
      (default : Option SqlExpression)
  | window (this : SqlExpression) (partitionBy : List SqlExpression)
      (orderBy : List (SqlExpression × Bool × Bool)) (spec : Option SqlWindowSpec)
  | aggregate (name : String) (distinct : Bool) (arguments : List SqlExpression)
  | func (key : String) (arguments : List SqlExpression)
  | other (typeName : String)

/-! ### Names -/

/-- `_Source`: a table in FROM.  `alias_or_name` of a table that the catalog has is not empty. -/
structure Source where
  tableName : String
  tableAlias : String
  schema : Schema
  alias_ne : tableAlias ≠ ""

/-- What binding may raise. -/
inductive BinderError
  | sql (error : DistributedSQLError)
  | python (error : PyError)
deriving DecidableEq, Repr

/-- `_binding_error`, raised. -/
def bindingFailure {α : Type} (message : String) (context : List (String × ContextValue) := []) :
    Except BinderError α :=
  .error (.sql (bindingError message context))

/-- A check that ends in `_binding_error` where it fails. -/
def ensure (condition : Prop) [Decidable condition] (message : String)
    (context : List (String × ContextValue) := []) : Except BinderError Unit :=
  if condition then .ok () else bindingFailure message context

/-- An error of the type rules. -/
def sqlResult {α : Type} (result : Except DistributedSQLError α) : Except BinderError α :=
  result.mapError .sql

/-- `_find_field`. -/
def findField (py : Python) (schema : Schema) (name : String) : Option SchemaField :=
  schema.find? fun field => py.casefold field.name = py.casefold name

/-- The column that a field of a source is bound to. -/
def Source.column (source : Source) (field : SchemaField) : Expression :=
  .column field.name source.tableAlias ⟨field.dataType, field.nullable⟩

/-- `_Scope.resolve`. -/
def resolve (py : Python) (scope : List Source) (qualifier name : String) :
    Except BinderError Expression :=
  if qualifier ≠ "" then
    match scope.find? fun source => py.casefold source.tableAlias = py.casefold qualifier with
    | none =>
        bindingFailure ("Unknown table or alias '" ++ qualifier ++ "'.")
          [("qualifier", .text qualifier)]
    | some source =>
        match findField py source.schema name with
        | none =>
            bindingFailure ("Column '" ++ qualifier ++ "." ++ name ++ "' does not exist.")
              [("column", .text (qualifier ++ "." ++ name))]
        | some field => .ok (source.column field)
  else
    match scope.filterMap fun source => (findField py source.schema name).map (source, ·) with
    | [] => bindingFailure ("Column '" ++ name ++ "' does not exist.") [("column", .text name)]
    | [(source, field)] => .ok (source.column field)
    | candidates =>
        bindingFailure ("Column reference '" ++ name ++ "' is ambiguous.")
          [("column", .text name),
            ("candidates", .texts (candidates.map (·.1.tableAlias)))]

/-- The output aliases, by their casefolded names. -/
abbrev Aliases : Type := List (String × Expression)

/-- The branch of `_bind_expression` for columns. -/
def bindColumn (py : Python) (scope : List Source) (aliases : Aliases) (table name : String) :
    Except BinderError Expression :=
  match if table = "" then aliases.lookup (py.casefold name) else none with
  | some expression => .ok expression
  | none => resolve py scope table name

/-! ### Types -/

/-- `literal_type` of an integer. -/
def intType (value : ℕ) : TypeInfo := ⟨if value < 2 ^ 31 then .int32 else .int64, false⟩

/-- `_parse_data_type`. -/
def parseDataType (target : SqlDataType) : Except BinderError DataType :=
  match target.type with
  | "BOOLEAN" => .ok .boolean
  | "INT" => .ok .int32
  | "BIGINT" => .ok .int64
  | "FLOAT" => .ok .float32
  | "DOUBLE" => .ok .float64
  | "DECIMAL" => .ok .decimal
  | "VARCHAR" => .ok .string
  | "TEXT" => .ok .string
  | "BINARY" => .ok .binary
  | "DATE" => .ok .date
  | "TIMESTAMP" => .ok .timestamp
  | _ => bindingFailure ("Type '" ++ target.text ++ "' is not supported.")

/-- `_require_numeric`. -/
def requireNumeric (expression : Expression) : Except BinderError Unit :=
  ensure (expression.typeInfo.dataType.isNumeric = true) "A numeric expression is required."

/-- `_require_string`. -/
def requireString (expression : Expression) : Except BinderError Unit :=
  ensure (expression.typeInfo.dataType = .string) "A string expression is required."

/-- `numeric_result_type`. -/
def numericResultType (left right : TypeInfo) (division : Bool) : Except BinderError TypeInfo := do
  let result ← sqlResult (commonType left right)
  if result.dataType.isNumeric then
    return if division = true ∧ result.dataType ∈ [DataType.int32, .int64] then
      ⟨.float64, result.nullable⟩ else result
  else throw (.python (.typeError "Arithmetic operators require numeric operands."))

/-- The common type of some expressions, beginning with a type. -/
def commonTypeOf : TypeInfo → List Expression → Except DistributedSQLError TypeInfo
  | type, [] => .ok type
  | type, expression :: rest => do commonTypeOf (← commonType type expression.typeInfo) rest

/-! ### Operators -/

/-- `_bind_binary`, after its sides are bound. -/
def bindBinary (operator : BinaryOperator) (left right : Expression) :
    Except BinderError Expression :=
  match operator with
  | .and | .or => sqlResult (bindLogical operator left right)
  | .add | .subtract | .multiply | .divide | .modulo => do
      let (left, right, common) ← sqlResult (coercePair left right)
      let result ← numericResultType left.typeInfo right.typeInfo (operator = .divide)
      return if result.dataType ≠ common.dataType then
        .binary operator (.cast left result true) (.cast right result true) result
      else .binary operator left right result
  | operator => sqlResult (bindComparison operator left right)

/-- The branch for IN. -/
def bindInList (value : Expression) (options : List Expression) : Except BinderError Expression := do
  ensure (options ≠ []) "IN requires at least one value."
  let target ← sqlResult (commonTypeOf value.typeInfo options)
  return .inList (coerce value target) (options.map (coerce · target)) false

/-- The branch for LIKE. -/
def bindLike (value pattern : Expression) : Except BinderError Expression := do
  requireString value
  requireString pattern
  return .like value pattern false

/-- `_bind_case`, after its parts are bound and its results have a type. -/
def bindCase (branches : List (Expression × Expression)) (resultType : TypeInfo)
    (default : Expression) : Except BinderError Expression := do
  let resultType ← sqlResult (commonType resultType default.typeInfo)
  return .case (branches.map fun branch => (branch.1, coerce branch.2 resultType))
    (coerce default resultType) resultType

/-- An expression contains neither aggregates nor windows, or is rejected. -/
def rejectComputed (message : String) (expression : Expression) : Except BinderError Unit :=
  ensure (expression.isComputed = false) message

/-- What `_bind_aggregate` asks of the number of arguments. -/
def checkAggregateArguments (py : Python) (name : String) (count : ℕ) : Except BinderError Unit := do
  ensure (name = "count" ∨ count ≠ 0) (py.upper name ++ "() requires one argument.")
  ensure (count ≤ 1) "Aggregate functions accept one argument."

/-- A check of the arguments of some functions. -/
def checkArguments (applies : Bool) (check : Expression → Except BinderError Unit)
    (arguments : List Expression) : Except BinderError Unit :=
  if applies then arguments.forM check else .ok ()

/-- The type of the first argument. -/
def firstType (arguments : List Expression) : TypeInfo :=
  (arguments.headD (.literal .null ⟨.null, true⟩)).typeInfo

/-- The result type in `_bind_aggregate`. -/
def aggregateType (name : String) (arguments : List Expression) : TypeInfo :=
  if name = "count" then ⟨.int64, false⟩
  else if name = "avg" then ⟨.float64, true⟩
  else ⟨(firstType arguments).dataType, true⟩

/-- `_bind_aggregate`, after its arguments are bound. -/
def bindAggregate (name : String) (distinct : Bool) (arguments : List Expression) :
    Except BinderError Expression := do
  arguments.forM (rejectComputed "Aggregate functions cannot be nested.")
  checkArguments (name ∈ ["sum", "avg"]) requireNumeric arguments
  return .aggregateFunction name arguments (aggregateType name arguments) distinct

/-- The functions that `_bind_scalar_function` allows. -/
def scalarFunctionNames : List String :=
  ["lower", "upper", "length", "abs", "coalesce", "concat", "substring", "round"]

/-- The type of a function that is NULL as soon as an argument is. -/
def strictType (dataType : DataType) (arguments : List Expression) : TypeInfo :=
  ⟨dataType, arguments.any fun argument => argument.typeInfo.nullable⟩

/-- The result type of the functions other than `coalesce`. -/
def scalarFunctionType (name : String) (arguments : List Expression) : TypeInfo :=
  if name ∈ ["abs", "round"] then firstType arguments
  else if name = "length" then strictType .int64 arguments
  else strictType .string arguments

/-- The branch for `coalesce`. -/
def bindCoalesce : List Expression → Except BinderError Expression
  | [] => bindingFailure "COALESCE requires at least one argument."
  | first :: rest => do
      let resultType ← sqlResult (commonTypeOf first.typeInfo rest)
      return .scalarFunction "coalesce" ((first :: rest).map (coerce · resultType)) resultType

/-- `_bind_scalar_function`, after its arguments are bound. -/
def bindScalarFunction (name : String) (arguments : List Expression) :
    Except BinderError Expression := do
  ensure (name ∈ ["lower", "upper", "length", "abs"] → arguments.length = 1)
    ("Function '" ++ name ++ "' expects one argument.")
  ensure (name = "substring" → arguments.length ∈ [2, 3])
    "Function 'substring' expects two or three arguments."
  ensure (name = "round" → arguments.length ∈ [1, 2])
    "Function 'round' expects one or two arguments."
  checkArguments (name ∈ ["lower", "upper", "length", "concat"]) requireString arguments
  checkArguments (name = "substring") requireString (arguments.take 1)
  checkArguments (name = "substring") requireNumeric (arguments.drop 1)
  checkArguments (name ∈ ["abs", "round"]) requireNumeric arguments
  if name = "coalesce" then bindCoalesce arguments
  else return .scalarFunction name arguments (scalarFunctionType name arguments)

/-! ### Windows -/

/-- `text.strip()`. -/
def stripText (text : String) : String :=
  String.ofList ((text.toList.dropWhile Char.isWhitespace).reverse.dropWhile
    Char.isWhitespace).reverse

/-- `boundary` in `_bind_window_frame`. -/
def bindBoundary (value : SqlBoundary) (side : Option String) : Except BinderError String :=
  match value with
  | .int value => .ok (toString value ++ " " ++ side.getD "None")
  | .text value => .ok (stripText (value ++ " " ++ side.getD ""))
  | .other => bindingFailure "Window frame boundaries must be integer ROWS bounds."

/-- `_bind_window_frame`. -/
def bindWindowFrame (py : Python) (spec : SqlWindowSpec) : Except BinderError WindowFrame := do
  let kind := py.upper spec.kind
  ensure (kind = "ROWS") "Only ROWS window frames are supported."
  let start ← bindBoundary spec.start spec.startSide
  let stop ← bindBoundary spec.stop spec.stopSide
  return ⟨kind, start, stop⟩

/-- `ranking_names`, by the lower-case names of the functions. -/
def rankingNames : List (String × String) :=
  [("rownumber", "row_number"), ("rank", "rank"), ("denserank", "dense_rank")]

/-- The ranking functions of `_bind_window`. -/
def bindRanking (key : String) : Except BinderError Expression :=
  match rankingNames.lookup key with
  | some name => .ok (.scalarFunction name [] ⟨.int64, false⟩)
  | none => bindingFailure "Unsupported window function."

/-! ### Expressions -/

mutual

/-- `_bind_expression`, with the aliases it is given. -/
def bindExpression (py : Python) (scope : List Source) (aliases : Aliases) :
    SqlExpression → Except BinderError Expression
  | .paren this => bindExpression py scope aliases this
  | .column table name => bindColumn py scope aliases table name
  | .null => .ok (.literal .null ⟨.null, true⟩)
  | .boolean value => .ok (.literal (.bool value) ⟨.boolean, false⟩)
  | .stringLiteral text => .ok (.literal (.str text) ⟨.string, false⟩)
  | .intLiteral value => .ok (.literal (.int value) (intType value))
  | .floatLiteral value => .ok (.literal (.float value) ⟨.float64, false⟩)
  | .cast this target => do
      let source ← bindExpression py scope aliases this
      return .cast source ⟨← parseDataType target, source.typeInfo.nullable⟩ false
  | .neg this => do
      let operand ← bindExpression py scope aliases this
      requireNumeric operand
      return .unary .negate operand operand.typeInfo
  | .not this => do sqlResult (bindNot (← bindExpression py scope aliases this))
  | .binary operator left right => do
      let left ← bindExpression py scope aliases left
      let right ← bindExpression py scope aliases right
      bindBinary operator left right
  | .is this ofNull => do
      ensure (ofNull = true) "Only IS NULL and IS NOT NULL are supported."
      return .isNull (← bindExpression py scope aliases this) false
  | .inList this expressions query => do
      ensure (query = false) "IN subqueries are not supported."
      let value ← bindExpression py scope aliases this
      let options ← bindAll py scope aliases expressions
      bindInList value options
  | .between this low high => do
      let value ← bindExpression py scope aliases this
      let low ← bindExpression py scope aliases low
      let high ← bindExpression py scope aliases high
      sqlResult (bindBetween value low high)
  | .like this pattern => do
      let value ← bindExpression py scope aliases this
      let pattern ← bindExpression py scope aliases pattern
      bindLike value pattern
  | .case this ifs default => do
      ensure (this.isNone = true) "Only searched CASE expressions are supported."
      let (branches, resultType) ← bindBranches py scope aliases ⟨.null, true⟩ ifs
      let default ← bindDefault py scope aliases default
      bindCase branches resultType default
  | .window this partitionBy orderBy spec => do
      let function ← bindWindowed py scope aliases this
      let partitionBy ← bindAll py scope aliases partitionBy
      let orderBy ← bindWindowOrder py scope aliases orderBy
      let frame ← spec.mapM (bindWindowFrame py)
      return .windowFunction function partitionBy orderBy frame
  | .aggregate name distinct arguments => do
      checkAggregateArguments py name arguments.length
      bindAggregate name distinct (← bindAll py scope aliases arguments)
  | .func key arguments => do
      ensure (key ∈ scalarFunctionNames) ("Function '" ++ key ++ "' is not supported.")
        [("function", .text key)]
      bindScalarFunction key (← bindAll py scope aliases arguments)
  | .other typeName =>
      bindingFailure ("Expression '" ++ typeName ++ "' is not supported.")
        [("expression_type", .text typeName)]

def bindAll (py : Python) (scope : List Source) (aliases : Aliases) :
    List SqlExpression → Except BinderError (List Expression)
  | [] => .ok []
  | expression :: rest => do
      let bound ← bindExpression py scope aliases expression
      return bound :: (← bindAll py scope aliases rest)

/-- The branches of a CASE, and the common type of their results. -/
def bindBranches (py : Python) (scope : List Source) (aliases : Aliases) (resultType : TypeInfo) :
    List (SqlExpression × SqlExpression) →
      Except BinderError (List (Expression × Expression) × TypeInfo)
  | [] => .ok ([], resultType)
  | (condition, result) :: rest => do
      let condition ← bindExpression py scope aliases condition
      sqlResult (requireBoolean condition)
      let result ← bindExpression py scope aliases result
      let resultType ← sqlResult (commonType resultType result.typeInfo)
      let (branches, resultType) ← bindBranches py scope aliases resultType rest
      return ((condition, result) :: branches, resultType)

def bindDefault (py : Python) (scope : List Source) (aliases : Aliases) :
    Option SqlExpression → Except BinderError Expression
  | none => .ok (.literal .null ⟨.null, true⟩)
  | some default => bindExpression py scope aliases default

/-- The function of a window. -/
def bindWindowed (py : Python) (scope : List Source) (aliases : Aliases) :
    SqlExpression → Except BinderError Expression
  | .func key _ => bindRanking key
  | .aggregate name distinct arguments => do
      checkAggregateArguments py name arguments.length
      bindAggregate name distinct (← bindAll py scope aliases arguments)
  | _ => bindingFailure "Unsupported window function."

/-- `_bind_ordered` in a window, where there are no positions to refer to. -/
def bindWindowOrder (py : Python) (scope : List Source) (aliases : Aliases) :
    List (SqlExpression × Bool × Bool) → Except BinderError (List (Expression × Bool × Bool))
  | [] => .ok []
  | (.intLiteral _, _, _) :: _ => bindingFailure "ORDER BY position is outside the select list."
  | (expression, descending, nullsFirst) :: rest => do
      let bound ← bindExpression py scope aliases expression
      return (bound, !descending, nullsFirst) :: (← bindWindowOrder py scope aliases rest)

end

/-! ### What is bound -/

/-- What the binder makes: its nodes, from the columns in scope and the aliases, and what
follows from a type without NULL. -/
inductive Bound (scope : List Source) (aliases : Aliases) : Expression → Prop
  | aliased {name : String} {expression : Expression} (h : (name, expression) ∈ aliases) :
      Bound scope aliases expression
  | column {source : Source} {field : SchemaField} (hsource : source ∈ scope)
      (hfield : field ∈ source.schema) : Bound scope aliases (source.column field)
  | literal {value : SQLValue} {type : TypeInfo} (h : type.nullable = false → value ≠ .null) :
      Bound scope aliases (.literal value type)
  | cast {expression : Expression} {target : TypeInfo} {implicit : Bool}
      (h : Bound scope aliases expression) : Bound scope aliases (.cast expression target implicit)
  | unary {operator : UnaryOperator} {expression : Expression} {type : TypeInfo}
      (h : Bound scope aliases expression)
      (hnull : type.nullable = false → expression.typeInfo.nullable = false) :
      Bound scope aliases (.unary operator expression type)
  | binary {operator : BinaryOperator} {left right : Expression} {type : TypeInfo}
      (hleft : Bound scope aliases left) (hright : Bound scope aliases right)
      (hnull : type.nullable = false →
        left.typeInfo.nullable = false ∧ right.typeInfo.nullable = false) :
      Bound scope aliases (.binary operator left right type)
  | isNull {expression : Expression} {negated : Bool} (h : Bound scope aliases expression) :
      Bound scope aliases (.isNull expression negated)
  | inList {expression : Expression} {options : List Expression} {negated : Bool}
      (h : Bound scope aliases expression) (hoptions : ∀ option ∈ options, Bound scope aliases option) :
      Bound scope aliases (.inList expression options negated)
  | between {expression low high : Expression} {negated : Bool}
      (h : Bound scope aliases expression) (hlow : Bound scope aliases low)
      (hhigh : Bound scope aliases high) :
      Bound scope aliases (.between expression low high negated)
  | like {expression pattern : Expression} {negated : Bool} (h : Bound scope aliases expression)
      (hpattern : Bound scope aliases pattern) :
      Bound scope aliases (.like expression pattern negated)
  | case {branches : List (Expression × Expression)} {default : Expression} {type : TypeInfo}
      (hconditions : ∀ branch ∈ branches, Bound scope aliases branch.1)
      (hresults : ∀ branch ∈ branches, Bound scope aliases branch.2)
      (hdefault : Bound scope aliases default) (hnull : type.nullable = true) :
      Bound scope aliases (.case branches default type)
  | scalarFunction {name : String} {arguments : List Expression} {type : TypeInfo}
      (hname : name ∈ scalarFunctionNames) (hne : name = "coalesce" → arguments ≠ [])
      (harguments : ∀ argument ∈ arguments, Bound scope aliases argument)
      (hnull : type.nullable = false → ∀ argument ∈ (if name = "round" then arguments.take 1
        else arguments), argument.typeInfo.nullable = false) :
      Bound scope aliases (.scalarFunction name arguments type)
  | aggregateFunction {name : String} {arguments : List Expression} {type : TypeInfo}
      {distinct : Bool} (harguments : ∀ argument ∈ arguments, Bound scope aliases argument)
      (hnull : type.nullable = false → name = "count") :
      Bound scope aliases (.aggregateFunction name arguments type distinct)
  | rankingWindow {key name : String} {partitionBy : List Expression}
      {orderBy : List (Expression × Bool × Bool)} {frame : Option WindowFrame}
      (hname : (key, name) ∈ rankingNames)
      (hpartition : ∀ expression ∈ partitionBy, Bound scope aliases expression) :
      Bound scope aliases
        (.windowFunction (.scalarFunction name [] ⟨.int64, false⟩) partitionBy orderBy frame)
  | aggregateWindow {function : Expression} {partitionBy : List Expression}
      {orderBy : List (Expression × Bool × Bool)} {frame : Option WindowFrame}
      (hfunction : Bound scope aliases function) (haggregate : function.isAggregate = true)
      (hpartition : ∀ expression ∈ partitionBy, Bound scope aliases expression) :
      Bound scope aliases (.windowFunction function partitionBy orderBy frame)

section

variable {py : Python} {scope : List Source} {aliases : Aliases}

theorem ensure_eq_ok_iff {condition : Prop} [Decidable condition] {message : String}
    {context : List (String × ContextValue)} {u : Unit} :
    ensure condition message context = .ok u ↔ condition := by
  rw [ensure]
  split
  · exact iff_of_true rfl ‹_›
  · exact iff_of_false (fun h => by cases h) ‹_›

theorem sqlResult_eq_ok {α : Type} {result : Except DistributedSQLError α} {a : α}
    (h : sqlResult result = .ok a) : result = .ok a := by
  cases result with
  | error e => cases h
  | ok b => exact congrArg Except.ok (Except.ok.inj h)

theorem Bound.coerce {expression : Expression} (h : Bound scope aliases expression)
    (target : TypeInfo) : Bound scope aliases (coerce expression target) := by
  rw [DistributedSql.coerce]
  split
  · exact h
  · exact .cast h

@[simp] theorem coerce_nullable (expression : Expression) (target : TypeInfo) :
    (coerce expression target).typeInfo.nullable = expression.typeInfo.nullable := by
  rw [coerce]
  split <;> rfl

/-- A common type without NULL is one of types without NULL. -/
theorem commonType_nullable {left right type : TypeInfo} (h : commonType left right = .ok type)
    (hnull : type.nullable = false) : left.nullable = false ∧ right.nullable = false := by
  rw [← Bool.or_eq_false_iff]
  unfold commonType at h
  dsimp only at h
  split at h
  · cases h
    cases hnull
  · split at h
    · cases h
      cases hnull
    · split at h
      · cases h
        exact hnull
      · split at h
        · cases h
          exact hnull
        · split at h
          · cases h
            exact hnull
          · cases h

theorem commonTypeOf_nullable {type result : TypeInfo} {expressions : List Expression}
    (h : commonTypeOf type expressions = .ok result) (hnull : result.nullable = false) :
    type.nullable = false ∧ ∀ expression ∈ expressions, expression.typeInfo.nullable = false := by
  induction expressions generalizing type with
  | nil =>
    cases h
    exact ⟨hnull, fun _ h => absurd h List.not_mem_nil⟩
  | cons expression rest ih =>
    obtain ⟨common, hcommon, h⟩ := ExceptState.bind_eq_ok h
    obtain ⟨htype, hrest⟩ := ih h
    obtain ⟨hleft, hright⟩ := commonType_nullable hcommon htype
    exact ⟨hleft, List.forall_mem_cons.mpr ⟨hright, hrest⟩⟩

theorem bindColumn_bound {table name : String} {bound : Expression}
    (h : bindColumn py scope aliases table name = .ok bound) : Bound scope aliases bound := by
  unfold bindColumn at h
  split at h
  case h_1 expression halias =>
    cases h
    split at halias
    · obtain ⟨before, after, heq, -⟩ := List.lookup_eq_some_iff.mp halias
      exact .aliased (by
        rw [heq]
        exact List.mem_append_right _ List.mem_cons_self)
    · cases halias
  case h_2 =>
    unfold resolve at h
    split at h
    · split at h
      · cases h
      next source hsource =>
        split at h
        · cases h
        next field hfield =>
          cases h
          exact .column (List.mem_of_find?_eq_some hsource) (List.mem_of_find?_eq_some hfield)
    · split at h
      · cases h
      next source field hmatches =>
        cases h
        have hmem : (source, field) ∈ scope.filterMap fun source =>
            (findField py source.schema name).map (source, ·) := by
          rw [hmatches]
          exact List.mem_cons_self
        obtain ⟨other, hsource, hother⟩ := List.mem_filterMap.mp hmem
        obtain ⟨field', hfield, heq⟩ := Option.map_eq_some_iff.mp hother
        cases heq
        exact .column hsource (List.mem_of_find?_eq_some hfield)
      · cases h

theorem bindBinary_bound {operator : BinaryOperator} {left right bound : Expression}
    (hleft : Bound scope aliases left) (hright : Bound scope aliases right)
    (h : bindBinary operator left right = .ok bound) : Bound scope aliases bound := by
  have hlogical : ∀ {operator}, sqlResult (bindLogical operator left right) = .ok bound →
      Bound scope aliases bound := by
    intro operator h
    obtain ⟨-, -, h⟩ := ExceptState.bind_eq_ok (sqlResult_eq_ok h)
    obtain ⟨-, -, h⟩ := ExceptState.bind_eq_ok h
    cases h
    exact .binary hleft hright Bool.or_eq_false_iff.mp
  have hcomparison : ∀ {operator}, sqlResult (bindComparison operator left right) = .ok bound →
      Bound scope aliases bound := by
    intro operator h
    obtain ⟨common, hcommon, rfl⟩ := bindComparison_eq_ok_iff.mp (sqlResult_eq_ok h)
    refine .binary (hleft.coerce common) (hright.coerce common) fun hnull => ?_
    rw [coerce_nullable, coerce_nullable]
    exact commonType_nullable hcommon hnull
  have harithmetic : ∀ {operator : BinaryOperator} {division : Bool}, (do
      let (left, right, common) ← sqlResult (coercePair left right)
      let result ← numericResultType left.typeInfo right.typeInfo division
      return if result.dataType ≠ common.dataType then
        Expression.binary operator (.cast left result true) (.cast right result true) result
      else .binary operator left right result : Except BinderError Expression) = .ok bound →
      Bound scope aliases bound := by
    intro operator division h
    obtain ⟨⟨left', right', common⟩, hpair, h⟩ := ExceptState.bind_eq_ok h
    obtain ⟨_, -, hpair⟩ := ExceptState.bind_eq_ok (sqlResult_eq_ok hpair)
    cases hpair
    obtain ⟨result, hresult, h⟩ := ExceptState.bind_eq_ok h
    have hnull : result.nullable = false →
        left.typeInfo.nullable = false ∧ right.typeInfo.nullable = false := by
      intro hnull
      obtain ⟨type, htype, hresult⟩ := ExceptState.bind_eq_ok hresult
      rw [← coerce_nullable left common, ← coerce_nullable right common]
      refine commonType_nullable (sqlResult_eq_ok htype) ?_
      split at hresult
      · cases hresult
        split at hnull <;> exact hnull
      · cases hresult
    split at h <;> cases h
    · exact .binary (.cast (hleft.coerce _)) (.cast (hright.coerce _)) fun hresult => by
        simpa [Expression.typeInfo] using hnull hresult
    · exact .binary (hleft.coerce _) (hright.coerce _) fun hresult => by simpa using hnull hresult
  unfold bindBinary at h
  cases operator with
  | and | or => exact hlogical h
  | add | subtract | multiply | divide | modulo => exact harithmetic h
  | equal | notEqual | lessThan | lessThanOrEqual | greaterThan | greaterThanOrEqual =>
    exact hcomparison h

theorem bindInList_bound {value bound : Expression} {options : List Expression}
    (hvalue : Bound scope aliases value) (hoptions : ∀ option ∈ options, Bound scope aliases option)
    (h : bindInList value options = .ok bound) : Bound scope aliases bound := by
  obtain ⟨-, -, h⟩ := ExceptState.bind_eq_ok h
  obtain ⟨target, -, h⟩ := ExceptState.bind_eq_ok h
  cases h
  refine .inList (hvalue.coerce target) fun option hoption => ?_
  obtain ⟨option, hmem, rfl⟩ := List.mem_map.mp hoption
  exact (hoptions option hmem).coerce target

theorem bindBetween_bound {value low high bound : Expression} (hvalue : Bound scope aliases value)
    (hlow : Bound scope aliases low) (hhigh : Bound scope aliases high)
    (h : bindBetween value low high = .ok bound) : Bound scope aliases bound := by
  obtain ⟨⟨value', low', target⟩, hpair, h⟩ := ExceptState.bind_eq_ok h
  obtain ⟨common, -, hpair⟩ := ExceptState.bind_eq_ok hpair
  cases hpair
  cases h
  exact .between (hvalue.coerce _) (hlow.coerce _) (hhigh.coerce _)

theorem bindCase_bound {branches : List (Expression × Expression)} {resultType : TypeInfo}
    {default bound : Expression} (hconditions : ∀ branch ∈ branches, Bound scope aliases branch.1)
    (hresults : ∀ branch ∈ branches, Bound scope aliases branch.2)
    (hdefault : Bound scope aliases default) (hnull : resultType.nullable = true)
    (h : bindCase branches resultType default = .ok bound) : Bound scope aliases bound := by
  obtain ⟨type, htype, h⟩ := ExceptState.bind_eq_ok h
  cases h
  refine .case (fun branch hbranch => ?_) (fun branch hbranch => ?_) (hdefault.coerce type) ?_
  · obtain ⟨branch, hmem, rfl⟩ := List.mem_map.mp hbranch
    exact hconditions branch hmem
  · obtain ⟨branch, hmem, rfl⟩ := List.mem_map.mp hbranch
    exact (hresults branch hmem).coerce type
  · by_contra hfalse
    have := (commonType_nullable (sqlResult_eq_ok htype) (Bool.not_eq_true _ ▸ hfalse)).1
    rw [hnull] at this
    cases this

/-- An aggregate is bound with arguments that contain none, and is NULL at times unless it
counts. -/
theorem bindAggregate_bound {name : String} {distinct : Bool} {arguments : List Expression}
    {bound : Expression} (harguments : ∀ argument ∈ arguments, Bound scope aliases argument)
    (h : bindAggregate name distinct arguments = .ok bound) :
    Bound scope aliases bound ∧ bound.isAggregate = true := by
  obtain ⟨-, -, h⟩ := ExceptState.bind_eq_ok h
  obtain ⟨-, -, h⟩ := ExceptState.bind_eq_ok h
  cases h
  refine ⟨.aggregateFunction harguments fun hnull => ?_, rfl⟩
  unfold aggregateType at hnull
  split at hnull
  · assumption
  · split at hnull <;> cases hnull

theorem bindCoalesce_bound {arguments : List Expression} {bound : Expression}
    (harguments : ∀ argument ∈ arguments, Bound scope aliases argument)
    (h : bindCoalesce arguments = .ok bound) : Bound scope aliases bound := by
  cases arguments with
  | nil => cases h
  | cons first rest =>
    obtain ⟨resultType, htype, h⟩ := ExceptState.bind_eq_ok h
    cases h
    refine .scalarFunction (by decide) (fun _ => List.cons_ne_nil _ _) (fun argument hargument => ?_)
      fun hnull argument hargument => ?_
    · obtain ⟨argument, hmem, rfl⟩ := List.mem_map.mp hargument
      exact (harguments argument hmem).coerce resultType
    · rw [if_neg (by decide)] at hargument
      obtain ⟨argument, hmem, rfl⟩ := List.mem_map.mp hargument
      rw [coerce_nullable]
      obtain ⟨hfirst, hrest⟩ := commonTypeOf_nullable (sqlResult_eq_ok htype) hnull
      rcases List.mem_cons.mp hmem with rfl | hmem
      · exact hfirst
      · exact hrest argument hmem

/-- The type of a function is without NULL only if those of its arguments are, the digits of
`round` apart. -/
theorem scalarFunctionType_nullable {name : String} {arguments : List Expression}
    (hone : name = "abs" → arguments.length = 1)
    (hnull : (scalarFunctionType name arguments).nullable = false) :
    ∀ argument ∈ (if name = "round" then arguments.take 1 else arguments),
      argument.typeInfo.nullable = false := by
  have hfirst : (firstType arguments).nullable = false →
      ∀ argument ∈ arguments.take 1, argument.typeInfo.nullable = false := by
    intro h
    cases arguments with
    | nil => exact fun _ hmem => absurd hmem List.not_mem_nil
    | cons first rest =>
      rw [List.take_succ_cons, List.take_zero, List.forall_mem_singleton]
      exact h
  have hstrict : ∀ {dataType}, (strictType dataType arguments).nullable = false →
      ∀ argument ∈ arguments, argument.typeInfo.nullable = false := by
    intro dataType h argument hargument
    exact Bool.eq_false_iff.mpr (List.any_eq_false.mp h argument hargument)
  unfold scalarFunctionType at hnull
  split at hnull
  next hname =>
    rcases List.mem_cons.mp hname with habs | hround
    · have hall : arguments.take 1 = arguments := List.take_of_length_le (hone habs).le
      rw [if_neg (by rw [habs]; decide)]
      rw [hall] at hfirst
      exact hfirst hnull
    · rw [if_pos (List.mem_singleton.mp hround)]
      exact hfirst hnull
  next hname =>
    rw [if_neg fun hround => hname (by rw [hround]; decide)]
    split at hnull
    · exact hstrict hnull
    · exact hstrict hnull

theorem bindScalarFunction_bound {name : String} {arguments : List Expression} {bound : Expression}
    (hname : name ∈ scalarFunctionNames)
    (harguments : ∀ argument ∈ arguments, Bound scope aliases argument)
    (h : bindScalarFunction name arguments = .ok bound) : Bound scope aliases bound := by
  obtain ⟨_, hone, h⟩ := ExceptState.bind_eq_ok h
  obtain ⟨-, -, h⟩ := ExceptState.bind_eq_ok h
  obtain ⟨-, -, h⟩ := ExceptState.bind_eq_ok h
  obtain ⟨-, -, h⟩ := ExceptState.bind_eq_ok h
  obtain ⟨-, -, h⟩ := ExceptState.bind_eq_ok h
  obtain ⟨-, -, h⟩ := ExceptState.bind_eq_ok h
  obtain ⟨-, -, h⟩ := ExceptState.bind_eq_ok h
  split at h
  · exact bindCoalesce_bound harguments h
  next hcoalesce =>
    cases h
    refine .scalarFunction hname (fun heq => absurd heq hcoalesce) harguments
      (scalarFunctionType_nullable fun habs => ensure_eq_ok_iff.mp hone ?_)
    rw [habs]
    decide

mutual

/-- What is bound is made of the sources in scope and the aliases. -/
theorem bindExpression_bound : ∀ {expression : SqlExpression} {bound : Expression},
    bindExpression py scope aliases expression = .ok bound → Bound scope aliases bound
  | .paren this, bound, h => by
    rw [bindExpression] at h
    exact bindExpression_bound h
  | .column table name, bound, h => by
    rw [bindExpression] at h
    exact bindColumn_bound h
  | .null, _, h => by
    cases h
    exact .literal nofun
  | .boolean value, _, h => by
    cases h
    exact .literal fun _ => SQLValue.noConfusion
  | .stringLiteral text, _, h => by
    cases h
    exact .literal fun _ => SQLValue.noConfusion
  | .intLiteral value, _, h => by
    cases h
    exact .literal fun _ => SQLValue.noConfusion
  | .floatLiteral value, _, h => by
    cases h
    exact .literal fun _ => SQLValue.noConfusion
  | .cast this target, _, h => by
    rw [bindExpression] at h
    obtain ⟨source, hsource, h⟩ := ExceptState.bind_eq_ok h
    obtain ⟨dataType, -, h⟩ := ExceptState.bind_eq_ok h
    cases h
    exact .cast (bindExpression_bound hsource)
  | .neg this, _, h => by
    rw [bindExpression] at h
    obtain ⟨operand, hoperand, h⟩ := ExceptState.bind_eq_ok h
    obtain ⟨-, -, h⟩ := ExceptState.bind_eq_ok h
    cases h
    exact .unary (bindExpression_bound hoperand) id
  | .not this, _, h => by
    rw [bindExpression] at h
    obtain ⟨operand, hoperand, h⟩ := ExceptState.bind_eq_ok h
    obtain ⟨-, -, h⟩ := ExceptState.bind_eq_ok (sqlResult_eq_ok h)
    cases h
    exact .unary (bindExpression_bound hoperand) id
  | .binary operator left right, _, h => by
    rw [bindExpression] at h
    obtain ⟨left', hleft, h⟩ := ExceptState.bind_eq_ok h
    obtain ⟨right', hright, h⟩ := ExceptState.bind_eq_ok h
    exact bindBinary_bound (bindExpression_bound hleft) (bindExpression_bound hright) h
  | .is this ofNull, _, h => by
    rw [bindExpression] at h
    obtain ⟨-, -, h⟩ := ExceptState.bind_eq_ok h
    obtain ⟨operand, hoperand, h⟩ := ExceptState.bind_eq_ok h
    cases h
    exact .isNull (bindExpression_bound hoperand)
  | .inList this expressions query, _, h => by
    rw [bindExpression] at h
    obtain ⟨-, -, h⟩ := ExceptState.bind_eq_ok h
    obtain ⟨value, hvalue, h⟩ := ExceptState.bind_eq_ok h
    obtain ⟨options, hoptions, h⟩ := ExceptState.bind_eq_ok h
    exact bindInList_bound (bindExpression_bound hvalue) (bindAll_bound hoptions) h
  | .between this low high, _, h => by
    rw [bindExpression] at h
    obtain ⟨value, hvalue, h⟩ := ExceptState.bind_eq_ok h
    obtain ⟨low', hlow, h⟩ := ExceptState.bind_eq_ok h
    obtain ⟨high', hhigh, h⟩ := ExceptState.bind_eq_ok h
    exact bindBetween_bound (bindExpression_bound hvalue) (bindExpression_bound hlow)
      (bindExpression_bound hhigh) (sqlResult_eq_ok h)
  | .like this pattern, _, h => by
    rw [bindExpression] at h
    obtain ⟨value, hvalue, h⟩ := ExceptState.bind_eq_ok h
    obtain ⟨pattern', hpattern, h⟩ := ExceptState.bind_eq_ok h
    obtain ⟨-, -, h⟩ := ExceptState.bind_eq_ok h
    obtain ⟨-, -, h⟩ := ExceptState.bind_eq_ok h
    cases h
    exact .like (bindExpression_bound hvalue) (bindExpression_bound hpattern)
  | .case this ifs default, _, h => by
    rw [bindExpression] at h
    obtain ⟨-, -, h⟩ := ExceptState.bind_eq_ok h
    obtain ⟨⟨branches, resultType⟩, hbranches, h⟩ := ExceptState.bind_eq_ok h
    obtain ⟨default', hdefault, h⟩ := ExceptState.bind_eq_ok h
    obtain ⟨hconditions, hresults, hnull⟩ := bindBranches_bound rfl hbranches
    exact bindCase_bound hconditions hresults (bindDefault_bound hdefault) hnull h
  | .window this partitionBy orderBy spec, _, h => by
    rw [bindExpression] at h
    obtain ⟨function, hfunction, h⟩ := ExceptState.bind_eq_ok h
    obtain ⟨partitionBy', hpartition, h⟩ := ExceptState.bind_eq_ok h
    obtain ⟨orderBy', -, h⟩ := ExceptState.bind_eq_ok h
    obtain ⟨frame, -, h⟩ := ExceptState.bind_eq_ok h
    cases h
    rcases bindWindowed_bound hfunction with ⟨key, name, hname, rfl⟩ | ⟨hbound, haggregate⟩
    · exact .rankingWindow hname (bindAll_bound hpartition)
    · exact .aggregateWindow hbound haggregate (bindAll_bound hpartition)
  | .aggregate name distinct arguments, _, h => by
    rw [bindExpression] at h
    obtain ⟨-, -, h⟩ := ExceptState.bind_eq_ok h
    obtain ⟨arguments', harguments, h⟩ := ExceptState.bind_eq_ok h
    exact (bindAggregate_bound (bindAll_bound harguments) h).1
  | .func key arguments, _, h => by
    rw [bindExpression] at h
    obtain ⟨_, hname, h⟩ := ExceptState.bind_eq_ok h
    obtain ⟨arguments', harguments, h⟩ := ExceptState.bind_eq_ok h
    exact bindScalarFunction_bound (ensure_eq_ok_iff.mp hname) (bindAll_bound harguments) h
  | .other typeName, _, h => by cases h

theorem bindAll_bound : ∀ {expressions : List SqlExpression} {bound : List Expression},
    bindAll py scope aliases expressions = .ok bound →
      ∀ expression ∈ bound, Bound scope aliases expression
  | [], _, h => by
    cases h
    exact fun _ hmem => absurd hmem List.not_mem_nil
  | expression :: rest, _, h => by
    rw [bindAll] at h
    obtain ⟨first, hfirst, h⟩ := ExceptState.bind_eq_ok h
    obtain ⟨others, hothers, h⟩ := ExceptState.bind_eq_ok h
    cases h
    exact List.forall_mem_cons.mpr ⟨bindExpression_bound hfirst, bindAll_bound hothers⟩

theorem bindBranches_bound : ∀ {branches : List (SqlExpression × SqlExpression)}
    {resultType : TypeInfo} {bound : List (Expression × Expression) × TypeInfo},
    resultType.nullable = true → bindBranches py scope aliases resultType branches = .ok bound →
      (∀ branch ∈ bound.1, Bound scope aliases branch.1) ∧
        (∀ branch ∈ bound.1, Bound scope aliases branch.2) ∧ bound.2.nullable = true
  | [], _, _, hnull, h => by
    cases h
    exact ⟨fun _ hmem => absurd hmem List.not_mem_nil, fun _ hmem => absurd hmem List.not_mem_nil,
      hnull⟩
  | (condition, result) :: rest, resultType, _, hnull, h => by
    rw [bindBranches] at h
    obtain ⟨condition', hcondition, h⟩ := ExceptState.bind_eq_ok h
    obtain ⟨-, -, h⟩ := ExceptState.bind_eq_ok h
    obtain ⟨result', hresult, h⟩ := ExceptState.bind_eq_ok h
    obtain ⟨type, htype, h⟩ := ExceptState.bind_eq_ok h
    obtain ⟨⟨others, type'⟩, hothers, h⟩ := ExceptState.bind_eq_ok h
    cases h
    have htypenull : type.nullable = true := by
      by_contra hfalse
      have hleft := (commonType_nullable (sqlResult_eq_ok htype) (Bool.not_eq_true _ ▸ hfalse)).1
      rw [hnull] at hleft
      cases hleft
    obtain ⟨hconditions, hresults, htype'⟩ := bindBranches_bound htypenull hothers
    exact ⟨List.forall_mem_cons.mpr ⟨bindExpression_bound hcondition, hconditions⟩,
      List.forall_mem_cons.mpr ⟨bindExpression_bound hresult, hresults⟩, htype'⟩

theorem bindDefault_bound : ∀ {default : Option SqlExpression} {bound : Expression},
    bindDefault py scope aliases default = .ok bound → Bound scope aliases bound
  | none, _, h => by
    cases h
    exact .literal nofun
  | some default, _, h => by
    rw [bindDefault] at h
    exact bindExpression_bound h

/-- The function of a window is a ranking function or an aggregate. -/
theorem bindWindowed_bound : ∀ {expression : SqlExpression} {bound : Expression},
    bindWindowed py scope aliases expression = .ok bound →
      (∃ key name, (key, name) ∈ rankingNames ∧ bound = .scalarFunction name [] ⟨.int64, false⟩) ∨
        Bound scope aliases bound ∧ bound.isAggregate = true
  | .func key _, _, h => by
    rw [bindWindowed, bindRanking] at h
    split at h
    next name hname =>
      cases h
      obtain ⟨before, after, heq, -⟩ := List.lookup_eq_some_iff.mp hname
      exact Or.inl ⟨key, name, by rw [heq]; exact List.mem_append_right _ List.mem_cons_self, rfl⟩
    next => cases h
  | .aggregate name distinct arguments, _, h => by
    rw [bindWindowed] at h
    obtain ⟨-, -, h⟩ := ExceptState.bind_eq_ok h
    obtain ⟨arguments', harguments, h⟩ := ExceptState.bind_eq_ok h
    exact Or.inr (bindAggregate_bound (bindAll_bound harguments) h)
  | .paren _, _, h | .column _ _, _, h | .null, _, h | .boolean _, _, h | .stringLiteral _, _, h
  | .intLiteral _, _, h | .floatLiteral _, _, h | .cast _ _, _, h | .neg _, _, h | .not _, _, h
  | .binary _ _ _, _, h | .is _ _, _, h | .inList _ _ _, _, h | .between _ _ _, _, h
  | .like _ _, _, h | .case _ _ _, _, h | .window _ _ _ _, _, h | .other _, _, h => by cases h

end

/-! ### Columns -/

private theorem forall_walk {P : Expression → Prop} {expression : Expression} (h : P expression)
    (hchildren : ∀ child ∈ expression.children, ∀ item ∈ child.walk, P item) :
    ∀ item ∈ expression.walk, P item := by
  rw [Expression.walk_eq, List.forall_mem_cons, List.forall_mem_flatMap]
  exact ⟨h, hchildren⟩

/-- A column is a field of a source in scope, or stands in an alias. -/
def Resolved (scope : List Source) (aliases : Aliases) (item : Expression) : Prop :=
  item.isColumn = true → (∃ source ∈ scope, ∃ field ∈ source.schema, item = source.column field) ∨
    ∃ entry ∈ aliases, item ∈ entry.2.walk

/-- Every column of a bound expression is resolved. -/
theorem Bound.resolved {expression : Expression} (h : Bound scope aliases expression) :
    ∀ item ∈ expression.walk, Resolved scope aliases item := by
  induction h with
  | aliased hmem => exact fun item hitem _ => Or.inr ⟨_, hmem, hitem⟩
  | column hsource hfield =>
    refine forall_walk (fun _ => Or.inl ⟨_, hsource, _, hfield, rfl⟩) ?_
    exact fun child hchild => absurd hchild List.not_mem_nil
  | literal => exact forall_walk nofun fun child hchild => absurd hchild List.not_mem_nil
  | cast _ ih | isNull _ ih | unary _ _ ih =>
    exact forall_walk nofun (List.forall_mem_singleton.mpr ih)
  | binary _ _ _ ihl ihr | like _ _ ihl ihr =>
    exact forall_walk nofun
      (List.forall_mem_cons.mpr ⟨ihl, List.forall_mem_singleton.mpr ihr⟩)
  | between _ _ _ ih ihl ihh =>
    exact forall_walk nofun (List.forall_mem_cons.mpr
      ⟨ih, List.forall_mem_cons.mpr ⟨ihl, List.forall_mem_singleton.mpr ihh⟩⟩)
  | inList _ _ ih iho => exact forall_walk nofun (List.forall_mem_cons.mpr ⟨ih, iho⟩)
  | case _ _ _ _ ihc ihr ihd =>
    refine forall_walk nofun (List.forall_mem_append.mpr ⟨?_, List.forall_mem_singleton.mpr ihd⟩)
    refine List.forall_mem_flatMap.mpr fun branch hbranch => ?_
    exact List.forall_mem_cons.mpr
      ⟨ihc branch hbranch, List.forall_mem_singleton.mpr (ihr branch hbranch)⟩
  | scalarFunction _ _ _ _ ih | aggregateFunction _ _ ih => exact forall_walk nofun ih
  | rankingWindow _ _ ih =>
    refine forall_walk nofun (List.forall_mem_cons.mpr ⟨?_, ih⟩)
    exact forall_walk nofun fun child hchild => absurd hchild List.not_mem_nil
  | aggregateWindow _ _ _ ihf ih => exact forall_walk nofun (List.forall_mem_cons.mpr ⟨ihf, ih⟩)

/-- Bound without aliases, all columns are fields of sources in scope. -/
theorem bindExpression_resolves {expression : SqlExpression} {bound : Expression}
    (h : bindExpression py scope [] expression = .ok bound) {name source : String}
    {type : TypeInfo} (hcolumn : Expression.column name source type ∈ bound.walk) :
    ∃ owner ∈ scope, ∃ field ∈ owner.schema, .column name source type = owner.column field := by
  rcases (bindExpression_bound h).resolved _ hcolumn rfl with hfield | ⟨entry, hentry, -⟩
  · exact hfield
  · exact absurd hentry List.not_mem_nil

end

end DistributedSql
