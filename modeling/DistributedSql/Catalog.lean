/-
The catalog of tables (`catalog/models.py`, `catalog/repository.py`).

Metadata lie in several SQL tables: the table's own row has a partition strategy and
partition keys, and so has each of its partitions.  A call reads what is there and
writes in one transaction.  Timestamps are left out.

Main results:
* `SQLiteCatalog.createTable`, `SQLiteCatalog.updateTable`, `SQLiteCatalog.deleteTable`,
  `SQLiteCatalog.commitImport` — what each call does and answers.
-/
import DistributedSql.Errors
import DistributedSql.JoinStrategy
import DistributedSql.LogicalPlans
import DistributedSql.TaskProtocol

namespace DistributedSql

inductive TableFormat
  | csv | parquet | avro | orc | iceberg
deriving DecidableEq, Repr

/-- `TableFormat.value` -/
def TableFormat.value : TableFormat → String
  | .csv => "csv"
  | .parquet => "parquet"
  | .avro => "avro"
  | .orc => "orc"
  | .iceberg => "iceberg"

structure Partition where
  partitionId : String
  ordinal : ℕ
  location : Location
  strategy : PartitionStrategy := .unknown
  keys : List String := []
  sizeBytes : Option ℕ := none
  rowCount : Option ℕ := none
  checksum : Option String := none
deriving DecidableEq, Repr

/-- A bound of a column, as JSON gives it back: a number, or anything else. -/
inductive StatisticValue
  | number (value : ℚ)
  | other (text : String)
deriving DecidableEq

structure ColumnStatistics where
  columnName : String
  nullCount : Option ℕ := none
  distinctCount : Option ℕ := none
  minValue : Option StatisticValue := none
  maxValue : Option StatisticValue := none
  averageSizeBytes : Option ℚ≥0 := none

structure Statistics where
  rowCount : Option ℕ := none
  sizeBytes : Option ℕ := none
  columns : List (String × ColumnStatistics) := []
  source : String := "unknown"

/-- A namespace and a name in it. -/
abbrev TableKey : Type := String × String

/-- `TableCreate`, validated. -/
structure TableCreate where
  name : String
  schema : Schema
  format : TableFormat
  location : Location
  partitionStrategy : PartitionStrategy := .unknown
  partitionKeys : List String := []
  properties : List (String × JsonValue) := []
  keys_exist : ∀ key ∈ partitionKeys, key ∈ schema.names

structure TableUpdate where
  schema : Option Schema := none
  format : Option TableFormat := none
  location : Option Location := none
  partitionStrategy : Option PartitionStrategy := none
  partitionKeys : Option (List String) := none
  properties : Option (List (String × JsonValue)) := none

structure CatalogTable where
  nspace : String
  name : String
  schema : Schema
  format : TableFormat
  location : Location
  partitionStrategy : PartitionStrategy
  partitionKeys : List String
  properties : List (String × JsonValue)
  partitions : List Partition
  statistics : Option Statistics

/-- What the catalog and the importer raise.  `columnsDiffer` is the error with status 422 for
a source whose columns are not the table's, and `raised` any exception of a call that fails. -/
inductive CatalogError
  | domain (error : DistributedSQLError)
  | validationError (message : String)
  | columnsDiffer (expected actual : List String)
  | integrityError
  | raised

/-- A row of `catalog_tables`, with its rows of `columns`. -/
structure TableRow where
  schema : Schema
  format : TableFormat
  location : Location
  partitionStrategy : PartitionStrategy
  partitionKeys : List String
  properties : List (String × JsonValue)

/-- `SQLiteCatalog`: the rows of its tables. -/
structure SQLiteCatalog where
  namespaces : List String
  tables : TableKey → Option TableRow
  partitions : TableKey → List Partition
  statistics : TableKey → Option Statistics
  foreign_key : ∀ key, tables key = none → partitions key = [] ∧ statistics key = none

namespace SQLiteCatalog

def empty (namespaces : List String) : SQLiteCatalog :=
  ⟨namespaces, fun _ => none, fun _ => [], fun _ => none, fun _ _ => ⟨rfl, rfl⟩⟩

/-- `SQLiteCatalog._not_found` -/
def notFound (kind field name : String) : CatalogError :=
  .domain
    { code := .notFound
      message := kind ++ " " ++ strRepr name ++ " does not exist."
      statusCode := 404
      context := [(field, .text name)] }

/-- `SQLiteCatalog._conflict` -/
def conflict (kind field name : String) : CatalogError :=
  .domain
    { code := .conflict
      message := kind ++ " " ++ strRepr name ++ " already exists."
      statusCode := 409
      context := [(field, .text name)] }

/-- `f"{namespace}.{name}"` -/
def qualified (key : TableKey) : String := key.1 ++ "." ++ key.2

/-- `SQLiteCatalog._table_from_row` -/
def tableFromRow (catalog : SQLiteCatalog) (key : TableKey) (row : TableRow) : CatalogTable :=
  { nspace := key.1
    name := key.2
    schema := row.schema
    format := row.format
    location := row.location
    partitionStrategy := row.partitionStrategy
    partitionKeys := row.partitionKeys
    properties := row.properties
    partitions := (catalog.partitions key).mergeSort fun p q => p.ordinal ≤ q.ordinal
    statistics := catalog.statistics key }

/-- `SQLiteCatalog.get_table` -/
def getTable (catalog : SQLiteCatalog) (key : TableKey) : Except CatalogError CatalogTable :=
  match catalog.tables key with
  | none => .error (notFound "Table" "table" (qualified key))
  | some row => .ok (catalog.tableFromRow key row)

/-- The catalog with a table's own row written. -/
def setRow (catalog : SQLiteCatalog) (key : TableKey) (row : TableRow) : SQLiteCatalog :=
  { catalog with
    tables := Function.update catalog.tables key (some row)
    foreign_key := by
      intro key' h
      by_cases hkey : key' = key
      · rw [hkey, Function.update_self] at h
        cases h
      · rw [Function.update_of_ne hkey] at h
        exact catalog.foreign_key key' h }

theorem tables_setRow (catalog : SQLiteCatalog) (key : TableKey) (row : TableRow) :
    (catalog.setRow key row).tables key = some row := Function.update_self ..

theorem tables_setRow_of_ne (catalog : SQLiteCatalog) (key : TableKey) (row : TableRow)
    {key' : TableKey} (h : key' ≠ key) : (catalog.setRow key row).tables key' = catalog.tables key' :=
  Function.update_of_ne h ..

@[simp] theorem partitions_setRow (catalog : SQLiteCatalog) (key : TableKey) (row : TableRow) :
    (catalog.setRow key row).partitions = catalog.partitions := rfl

/-- `SQLiteCatalog.create_table` -/
def createTable (catalog : SQLiteCatalog) (nspace : String) (request : TableCreate) :
    Except CatalogError CatalogTable × SQLiteCatalog :=
  let key := (nspace, request.name)
  if nspace ∉ catalog.namespaces then
    (.error (notFound "Namespace" "namespace" nspace), catalog)
  else if (catalog.tables key).isSome then
    (.error (conflict "Table" "table" (qualified key)), catalog)
  else
    let after := catalog.setRow key
      ⟨request.schema, request.format, request.location, request.partitionStrategy,
        request.partitionKeys, request.properties⟩
    (after.getTable key, after)

/-- What `TableUpdate` leaves open is kept. -/
def updatedRow (row : TableRow) (request : TableUpdate) : TableRow :=
  { schema := request.schema.getD row.schema
    format := request.format.getD row.format
    location := request.location.getD row.location
    partitionStrategy := request.partitionStrategy.getD row.partitionStrategy
    partitionKeys := request.partitionKeys.getD row.partitionKeys
    properties := request.properties.getD row.properties }

/-- The keys that `partition_keys_exist` misses. -/
def missingKeys (row : TableRow) : List String :=
  (row.partitionKeys.filter (· ∉ row.schema.names)).dedup.mergeSort (· ≤ ·)

/-- `SQLiteCatalog.update_table` -/
def updateTable (catalog : SQLiteCatalog) (key : TableKey) (request : TableUpdate) :
    Except CatalogError CatalogTable × SQLiteCatalog :=
  match catalog.tables key with
  | none => (.error (notFound "Table" "table" (qualified key)), catalog)
  | some row =>
    let validated := updatedRow row request
    let missing := missingKeys validated
    if !missing.isEmpty then
      (.error (.validationError ("partition keys are not in schema: ["
        ++ Expression.commaJoin (missing.map strRepr) ++ "]")), catalog)
    else
      let after := catalog.setRow key validated
      (after.getTable key, after)

/-- `SQLiteCatalog.delete_table`; what belongs to the table goes with it. -/
def deleteTable (catalog : SQLiteCatalog) (key : TableKey) :
    Except CatalogError Unit × SQLiteCatalog :=
  if (catalog.tables key).isNone then
    (.error (notFound "Table" "table" (qualified key)), catalog)
  else
    (.ok (),
      { catalog with
        tables := Function.update catalog.tables key none
        partitions := Function.update catalog.partitions key []
        statistics := Function.update catalog.statistics key none
        foreign_key := by
          intro key' h
          by_cases hkey : key' = key
          · rw [hkey, Function.update_self, Function.update_self]
            exact ⟨rfl, rfl⟩
          · rw [Function.update_of_ne hkey] at h
            rw [Function.update_of_ne hkey, Function.update_of_ne hkey]
            exact catalog.foreign_key key' h })

/-- The rows that `replace_import_metadata` writes. -/
def writeImport (catalog : SQLiteCatalog) (key : TableKey) (row : TableRow)
    (partitions : List Partition) (statistics : Statistics) : SQLiteCatalog :=
  { catalog with
    tables := Function.update catalog.tables key (some row)
    partitions := Function.update catalog.partitions key partitions
    statistics := Function.update catalog.statistics key (some statistics)
    foreign_key := by
      intro key' h
      by_cases hkey : key' = key
      · rw [hkey, Function.update_self] at h
        cases h
      · rw [Function.update_of_ne hkey] at h
        rw [Function.update_of_ne hkey, Function.update_of_ne hkey]
        exact catalog.foreign_key key' h }

section WriteImport

variable (catalog : SQLiteCatalog) (key : TableKey) (row : TableRow) (partitions : List Partition)
  (statistics : Statistics)

theorem tables_writeImport :
    (catalog.writeImport key row partitions statistics).tables key = some row :=
  Function.update_self ..

theorem partitions_writeImport :
    (catalog.writeImport key row partitions statistics).partitions key = partitions :=
  Function.update_self ..

theorem tables_writeImport_of_ne {key' : TableKey} (h : key' ≠ key) :
    (catalog.writeImport key row partitions statistics).tables key' = catalog.tables key' :=
  Function.update_of_ne h ..

theorem partitions_writeImport_of_ne {key' : TableKey} (h : key' ≠ key) :
    (catalog.writeImport key row partitions statistics).partitions key' = catalog.partitions key' :=
  Function.update_of_ne h ..

end WriteImport

/-- The transaction of `SQLiteCatalog.replace_import_metadata`: partitions of no table, or two
of one name or one ordinal, are refused by the tables' constraints. -/
def commitImport (catalog : SQLiteCatalog) (key : TableKey) (strategy : PartitionStrategy)
    (partitionKeys : List String) (partitions : List Partition) (statistics : Statistics) :
    Except CatalogError Unit × SQLiteCatalog :=
  match catalog.tables key with
  | none => (.error .integrityError, catalog)
  | some row =>
    if ¬(partitions.map (·.partitionId)).Nodup ∨ ¬(partitions.map (·.ordinal)).Nodup then
      (.error .integrityError, catalog)
    else
      (.ok (), catalog.writeImport key
        { row with partitionStrategy := strategy, partitionKeys := partitionKeys }
        partitions statistics)

end SQLiteCatalog

end DistributedSql
