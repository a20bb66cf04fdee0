import Mathlib.Data.List.Basic

/-!
The type system: type identifiers, nullable data types, fields, schemas and join kinds.

A schema is an ordered list of named, typed fields. Nothing forces the names to be distinct: the
output of a join may carry two columns of one name, which is why every operator above the binder
refers to a column by position.
-/

namespace KernelLake.Types

/-- The identifiers of the supported column types. -/
inductive TypeId
  | boolean | int32 | int64 | uint32 | uint64 | float32 | float64 | string | date32 | timestamp
  | decimal
  deriving DecidableEq, Repr

def TypeId.toString : TypeId → String
  | .boolean => "BOOLEAN"
  | .int32 => "INT32"
  | .int64 => "INT64"
  | .uint32 => "UINT32"
  | .uint64 => "UINT64"
  | .float32 => "FLOAT32"
  | .float64 => "FLOAT64"
  | .string => "STRING"
  | .date32 => "DATE32"
  | .timestamp => "TIMESTAMP"
  | .decimal => "DECIMAL"

/-- A type with its nullability; only decimals carry a precision and a scale. -/
structure DataType where
  id : TypeId
  nullable : Bool := true
  precision : Option Int := none
  scale : Option Int := none
  deriving DecidableEq, Repr

def DataType.toString (type : DataType) : String :=
  let decimals :=
    if type.id = .decimal then
      "(" ++ ToString.toString (type.precision.getD 0) ++ ","
        ++ ToString.toString (type.scale.getD 0) ++ ")"
    else ""
  type.id.toString ++ decimals ++ if type.nullable then "" else " NOT NULL"

def booleanType (nullable : Bool := true) : DataType := ⟨.boolean, nullable, none, none⟩
def int32Type (nullable : Bool := true) : DataType := ⟨.int32, nullable, none, none⟩
def int64Type (nullable : Bool := true) : DataType := ⟨.int64, nullable, none, none⟩
def uint32Type (nullable : Bool := true) : DataType := ⟨.uint32, nullable, none, none⟩
def uint64Type (nullable : Bool := true) : DataType := ⟨.uint64, nullable, none, none⟩
def float32Type (nullable : Bool := true) : DataType := ⟨.float32, nullable, none, none⟩
def float64Type (nullable : Bool := true) : DataType := ⟨.float64, nullable, none, none⟩
def stringType (nullable : Bool := true) : DataType := ⟨.string, nullable, none, none⟩
def date32Type (nullable : Bool := true) : DataType := ⟨.date32, nullable, none, none⟩
def timestampType (nullable : Bool := true) : DataType := ⟨.timestamp, nullable, none, none⟩

def decimalType (precision scale : Int) (nullable : Bool := true) : DataType :=
  ⟨.decimal, nullable, some precision, some scale⟩

structure Field where
  name : String
  type : DataType
  deriving DecidableEq, Repr

/-- An ordered list of fields. -/
abbrev Schema := List Field

/-- The position of the first field of a given name. -/
def Schema.findField (schema : Schema) (name : String) : Option Nat :=
  schema.findIdx? (fun field => field.name == name)

/-- The join kinds. The semi and anti joins come only from `EXISTS` and `NOT EXISTS`, and their
output has no column of the right side. -/
inductive JoinType
  | inner | leftOuter | leftSemi | leftAnti
  deriving DecidableEq, Repr

/-- A column whose values come from a file's location rather than from the file. -/
structure PartitionColumn where
  name : String
  type : DataType
  deriving DecidableEq, Repr

end KernelLake.Types
