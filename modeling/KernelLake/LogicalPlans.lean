import KernelLake.Expressions

/-!
Logical query plans.

A plan is a tree of seven operators over scans. Every expression in it refers to the columns of the
operator's input by position; for a join's residual predicate that input is the left row followed by
the right row.
-/

namespace KernelLake.LogicalPlans

open KernelLake.Types KernelLake.Expressions

structure NamedExpression where
  expr : Expression
  name : String
  deriving DecidableEq

/-- A comparison of a column with a literal which a scan may use to skip parts of its files. The
literal is kept as storage and type, so that nothing but a literal can stand there. -/
structure PushablePredicate where
  columnName : String
  op : BinaryOperator
  literal : LiteralStorage
  literalType : DataType
  deriving DecidableEq

structure LogicalScan where
  sourcePaths : List String
  schema : Schema
  requiredColumns : List String
  pushablePredicates : List PushablePredicate := []
  partitionColumns : List PartitionColumn := []
  deriving DecidableEq

/-- A scan as the planner first builds it: every column is required and nothing is pushed. -/
def LogicalScan.make (sourcePaths : List String) (schema : Schema)
    (partitionColumns : List PartitionColumn := []) : LogicalScan :=
  { sourcePaths, schema, requiredColumns := schema.map Field.name, partitionColumns }

structure SortKey where
  expr : Expression
  ascending : Bool
  deriving DecidableEq

inductive LogicalPlan
  | scan (scan : LogicalScan)
  | join (left right : LogicalPlan) (leftKeyIndex rightKeyIndex : Nat) (joinType : JoinType)
      (residualPredicate : Option Expression)
  | filter (child : LogicalPlan) (predicate : Expression)
  | projection (child : LogicalPlan) (items : List NamedExpression)
  | aggregate (child : LogicalPlan) (groupBy aggregates : List NamedExpression)
  | sort (child : LogicalPlan) (keys : List SortKey)
  | limit (child : LogicalPlan) (limit : Int)
  deriving DecidableEq

/-- The fields a list of named expressions produces. -/
def namedFields (items : List NamedExpression) : Schema :=
  items.map (fun item => ⟨item.name, item.expr.resultType⟩)

/-- A field that may be null because an outer join left it unmatched. -/
def widened (field : Field) : Field :=
  { field with type := { field.type with nullable := true } }

/-- The output schema of a `LogicalJoin`. -/
def joinSchema (left right : Schema) : JoinType → Schema
  | .leftSemi => left
  | .leftAnti => left
  | .leftOuter => left ++ right.map widened
  | .inner => left ++ right

def LogicalPlan.outputSchema : LogicalPlan → Schema
  | .scan source => source.schema
  | .join left right _ _ joinType _ => joinSchema left.outputSchema right.outputSchema joinType
  | .filter child _ => child.outputSchema
  | .projection _ items => namedFields items
  | .aggregate _ groupBy aggregates => namedFields groupBy ++ namedFields aggregates
  | .sort child _ => child.outputSchema
  | .limit child _ => child.outputSchema

/-- The number of columns a plan produces. -/
def LogicalPlan.width (plan : LogicalPlan) : Nat :=
  plan.outputSchema.length

def LogicalPlan.isFilter : LogicalPlan → Bool
  | .filter .. => true
  | _ => false

def LogicalPlan.isAggregate : LogicalPlan → Bool
  | .aggregate .. => true
  | _ => false

theorem joinSchema_length (left right : Schema) (joinType : JoinType) :
    (joinSchema left right joinType).length =
      match joinType with
      | .leftSemi => left.length
      | .leftAnti => left.length
      | .leftOuter => left.length + right.length
      | .inner => left.length + right.length := by
  cases joinType <;> simp [joinSchema]

end KernelLake.LogicalPlans
