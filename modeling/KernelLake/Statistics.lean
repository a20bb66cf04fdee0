import KernelLake.Pruning

/-!
Column statistics as Parquet stores them, and their decoding.

A column chunk has a physical type, which decides how its statistics are decoded, and an annotation,
which decides what its stored values mean and how they are ordered. The annotations are those for
which the schema conversion finds a column type.
-/

namespace KernelLake.Statistics

open KernelLake.Expressions KernelLake.Evaluation KernelLake.Pruning
open KernelLake.Library.Doubles

/-- The statistics and the values of one column chunk; a missing value is a null. -/
structure TypedStatistics (α : Type) where
  hasMinMax : Bool
  min : α
  max : α
  values : List (Option α)

inductive TimeUnit
  | millis | micros | nanos
  deriving DecidableEq

/-- What 32-bit integers stand for. A decimal of at most nine digits may be stored in one. -/
inductive Int32LogicalType
  | plain | unsigned | date
  | decimal (scale : Fin 10)
  deriving DecidableEq

/-- What 64-bit integers stand for. A decimal of at most eighteen digits may be stored in one. -/
inductive Int64LogicalType
  | plain | unsigned
  | timestamp (unit : TimeUnit)
  | decimal (scale : Fin 19)
  deriving DecidableEq

/-- A column chunk by its physical type. Byte arrays hold texts, or the digits of decimals as bytes;
single-precision numbers are given by their exact values. -/
inductive ColumnChunk
  | boolean (stats : TypedStatistics Bool)
  | int32 (logicalType : Int32LogicalType) (stats : TypedStatistics Int32)
  | int64 (logicalType : Int64LogicalType) (stats : TypedStatistics Int64)
  | float (stats : TypedStatistics Float)
  | double (stats : TypedStatistics Float)
  | text (stats : TypedStatistics String)
  | decimalBytes (scale : Nat) (stats : TypedStatistics (List UInt8))
  | fixedDecimal (scale : Nat) (stats : TypedStatistics (List UInt8))
  | int96 (stats : TypedStatistics Int)

/-! ## Stored values -/

/-- A big-endian two's-complement integer. -/
def fromBigEndian (bytes : List UInt8) : Int :=
  let magnitude : Nat := bytes.foldl (fun value byte => value * 256 + byte.toNat) 0
  if bytes.head?.any (fun byte => 128 ≤ byte.toNat) then (magnitude : Int) - 256 ^ bytes.length
  else magnitude

def Int32LogicalType.logicalValue : Int32LogicalType → Int32 → Value
  | .plain, raw => .int raw.toInt
  | .unsigned, raw => .int raw.toUInt32.toNat
  | .date, raw => .date raw.toInt
  | .decimal scale, raw => .decimal raw.toInt scale.val

def Int64LogicalType.logicalValue : Int64LogicalType → Int64 → Value
  | .plain, raw => .int raw.toInt
  | .unsigned, raw => .int raw.toUInt64.toNat
  | .timestamp .millis, raw => .timestamp (raw.toInt * 1000)
  | .timestamp .micros, raw => .timestamp raw.toInt
  | .timestamp .nanos, raw => .timestamp (raw.toInt.fdiv 1000)
  | .decimal scale, raw => .decimal raw.toInt scale.val

/-- The column's values, one for each row. -/
def ColumnChunk.rows : ColumnChunk → List Value
  | .boolean stats => stats.values.map (·.elim .null .bool)
  | .int32 logicalType stats => stats.values.map (·.elim .null logicalType.logicalValue)
  | .int64 logicalType stats => stats.values.map (·.elim .null logicalType.logicalValue)
  | .float stats => stats.values.map (·.elim .null .double)
  | .double stats => stats.values.map (·.elim .null .double)
  | .text stats => stats.values.map (·.elim .null .string)
  | .decimalBytes scale stats =>
    stats.values.map (·.elim .null (fun bytes => .decimal (fromBigEndian bytes) scale))
  | .fixedDecimal scale stats =>
    stats.values.map (·.elim .null (fun bytes => .decimal (fromBigEndian bytes) scale))
  | .int96 stats => stats.values.map (·.elim .null .timestamp)

/-! ## Decoding -/

/-- A byte string as text, one character for each byte. -/
def bytesToText (bytes : List UInt8) : String :=
  String.ofList (bytes.map (fun byte => Char.ofNat byte.toNat))

def TypedStatistics.bound {α : Type} (stats : TypedStatistics α) (wantMin : Bool) : α :=
  if wantMin then stats.min else stats.max

/-- The decoded minimum or maximum, by physical type alone. -/
def decodeStatistic (wantMin : Bool) : ColumnChunk → Option LiteralStorage
  | .boolean stats => some (.bool (stats.bound wantMin))
  | .int32 _ stats => some (.int64 (stats.bound wantMin).toInt64)
  | .int64 _ stats => some (.int64 (stats.bound wantMin))
  | .float stats => some (.double (stats.bound wantMin))
  | .double stats => some (.double (stats.bound wantMin))
  | .text stats => some (.string (stats.bound wantMin))
  | .decimalBytes _ stats => some (.string (bytesToText (stats.bound wantMin)))
  | .fixedDecimal .. => none
  | .int96 .. => none

def ColumnChunk.hasMinMax : ColumnChunk → Bool
  | .boolean stats => stats.hasMinMax
  | .int32 _ stats => stats.hasMinMax
  | .int64 _ stats => stats.hasMinMax
  | .float stats => stats.hasMinMax
  | .double stats => stats.hasMinMax
  | .text stats => stats.hasMinMax
  | .decimalBytes _ stats => stats.hasMinMax
  | .fixedDecimal _ stats => stats.hasMinMax
  | .int96 stats => stats.hasMinMax

def extractColumnStatistics (column : ColumnChunk) : ColumnStatistics :=
  if column.hasMinMax then
    match decodeStatistic true column, decodeStatistic false column with
    | some minValue, some maxValue => ⟨true, minValue, maxValue⟩
    | _, _ => {}
  else {}

end KernelLake.Statistics
