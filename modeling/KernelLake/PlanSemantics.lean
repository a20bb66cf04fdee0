import KernelLake.Evaluation
import KernelLake.Library.Relations
import KernelLake.LogicalPlans
import Mathlib.Data.List.Sort

/-!
The rows a logical plan returns.

`rows` is a total function of the table contents: a filter keeps the rows on which its predicate is
`TRUE`, a join is the nested-loop join in left-major order, groups appear in the order of their
first row, and sorting is stable. `evaluate` adds what an execution reports: a plan that evaluates
some expression to an error has no result.
-/

namespace KernelLake.PlanSemantics

open KernelLake.Types KernelLake.Expressions KernelLake.Evaluation KernelLake.LogicalPlans
open KernelLake.Library.Doubles KernelLake.Library.Relations

/-! ## Table contents -/

/-- Whether a value may stand in a column of a type. -/
def Value.hasType (type : DataType) : Value → Bool
  | .null => type.nullable
  | .bool _ => type.id == .boolean
  | .int value => integerFits type.id value
  | .double _ => isFloating type.id
  | .string _ => type.id == .string
  | .date _ => type.id == .date32
  | .timestamp _ => type.id == .timestamp
  | .decimal _ scale => type.id == .decimal && type.scale == some scale
  | .raised => false

def conforms : Schema → Row → Bool
  | [], [] => true
  | field :: fields, value :: values => Value.hasType field.type value && conforms fields values
  | _, _ => false

/-- The contents of every table, as read from its files under a schema. -/
structure Tables where
  contents : List String → Schema → List Row
  conforming : ∀ paths schema, ∀ row ∈ contents paths schema, conforms schema row = true

/-- Tables given by a list of file sets; every other table is empty. -/
structure TableContents where
  paths : List String
  schema : Schema
  rows : List Row
  conforming : ∀ row ∈ rows, conforms schema row = true

def Tables.ofContents (entries : List TableContents) : Tables where
  contents paths schema :=
    entries.flatMap (fun entry => if entry.paths = paths ∧ entry.schema = schema then entry.rows else [])
  conforming paths schema row member := by
    obtain ⟨entry, _, present⟩ := List.mem_flatMap.mp member
    split at present
    · rename_i same
      exact same.2 ▸ entry.conforming row present
    · simp at present

theorem conforms_length {schema : Schema} {row : Row} (fits : conforms schema row = true) :
    row.length = schema.length := by
  induction schema generalizing row with
  | nil =>
    cases row with
    | nil => rfl
    | cons value values => simp [conforms] at fits
  | cons field fields hypothesis =>
    cases row with
    | nil => simp [conforms] at fits
    | cons value values =>
      simp only [conforms, Bool.and_eq_true] at fits
      simp [hypothesis fits.2]

/-! ## Order of values -/

/-- The position of a value's kind in the sort order; nulls come last. -/
def Value.kind : Value → Nat
  | .bool _ => 0
  | .int _ => 1
  | .double _ => 2
  | .string _ => 3
  | .date _ => 4
  | .timestamp _ => 5
  | .decimal .. => 6
  | .raised => 7
  | .null => 8

/-- The rank of a double for sorting: a NaN stands above every number. -/
def sortRank (value : Float) : ℤ ×ₗ ℤ ×ₗ ℤ :=
  (rank value).getD (toLex (3, toLex (0, 0)))

/-- The order sorting uses: one column holds values of one kind and nulls. -/
def sortCompare (left right : Value) : Ordering :=
  (compare (Value.kind left) (Value.kind right)).then <|
    match left, right with
    | .bool a, .bool b => compare a b
    | .int a, .int b => compare a b
    | .double a, .double b =>
      (compare (ofLex (sortRank a)).1 (ofLex (sortRank b)).1).then <|
        (compare (ofLex (ofLex (sortRank a)).2).1 (ofLex (ofLex (sortRank b)).2).1).then <|
          compare (ofLex (ofLex (sortRank a)).2).2 (ofLex (ofLex (sortRank b)).2).2
    | .string a, .string b => compareOfLessAndEq a b
    | .date a, .date b => compare a b
    | .timestamp a, .timestamp b => compare a b
    | .decimal a s, .decimal b t =>
      compareFractions (a * tenTo (-s), tenTo s) (b * tenTo (-t), tenTo t)
    | _, _ => .eq

/-- Whether a row may stand before another under a list of sort keys. -/
def sortedBefore : List SortKey → Row → Row → Bool
  | [], _, _ => true
  | key :: keys, left, right =>
    let ordering := sortCompare (eval key.expr left) (eval key.expr right)
    match if key.ascending then ordering else ordering.swap with
    | .lt => true
    | .gt => false
    | .eq => sortedBefore keys left right

def sortRows (keys : List SortKey) (rows : List Row) : List Row :=
  rows.insertionSort (fun left right => sortedBefore keys left right = true)

/-! ## Operators -/

def filterRows (predicate : Expression) (rows : List Row) : List Row :=
  rows.filter (fun row => (eval predicate row).isTrue)

def projectRow (items : List NamedExpression) (row : Row) : Row :=
  items.map (fun item => eval item.expr row)

/-- The join condition: equal, non-null keys and a residual predicate that is `TRUE`. -/
def joinMatches (leftKeyIndex rightKeyIndex : Nat) (residualPredicate : Option Expression)
    (left right : Row) : Bool :=
  compareValues (left.getD leftKeyIndex .raised) (right.getD rightKeyIndex .raised) = .ordered .eq &&
    match residualPredicate with
    | none => true
    | some predicate => (eval predicate (left ++ right)).isTrue

/-- The row of an outer join, with nulls in place of a missing right row. -/
def nullExtended (rightWidth : Nat) (pair : Row × Option Row) : Row :=
  pair.1 ++ pair.2.getD (List.replicate rightWidth .null)

def joinRows (on : Row → Row → Bool) (joinType : JoinType) (rightWidth : Nat)
    (left right : List Row) : List Row :=
  match joinType with
  | .inner => (innerJoin on left right).map (fun pair => pair.1 ++ pair.2)
  | .leftOuter => (outerJoin on left right).map (nullExtended rightWidth)
  | .leftSemi => semiJoin on left right
  | .leftAnti => antiJoin on left right

/-- The output row of one group: its key, then its aggregates. -/
def groupOutput (aggregates : List NamedExpression) (group : Row × List Row) : Row :=
  group.1 ++ aggregates.map (fun item => evalIn (some group.2) [] item.expr)

/-- The groups of an aggregation. Without keys there is one group, also over no rows. -/
def aggregateGroups (groupBy : List NamedExpression) (rows : List Row) : List (Row × List Row) :=
  if groupBy.isEmpty then [([], rows)] else groupRows (projectRow groupBy) rows

def aggregateRows (groupBy aggregates : List NamedExpression) (rows : List Row) : List Row :=
  (aggregateGroups groupBy rows).map (groupOutput aggregates)

/-- The rows of a plan, in order. -/
def rows (tables : Tables) : LogicalPlan → List Row
  | .scan source => tables.contents source.sourcePaths source.schema
  | .join left right leftKeyIndex rightKeyIndex joinType residualPredicate =>
    joinRows (joinMatches leftKeyIndex rightKeyIndex residualPredicate) joinType right.width
      (rows tables left) (rows tables right)
  | .filter child predicate => filterRows predicate (rows tables child)
  | .projection child items => (rows tables child).map (projectRow items)
  | .aggregate child groupBy aggregates => aggregateRows groupBy aggregates (rows tables child)
  | .sort child keys => sortRows keys (rows tables child)
  | .limit child limit => (rows tables child).take limit.toNat

/-! ## Errors -/

/-- Whether an aggregate raises on a group: its argument is evaluated on every row of it. -/
def aggregateRaises (group : List Row) : Expression → Bool
  | .aggregate function argument type =>
    group.any (fun row => raises row argument)
      || evalIn (some group) [] (.aggregate function argument type) = .raised
  | .countStar _ => false
  | expression => raises [] expression

/-- Whether executing a plan raises an error in any expression it evaluates. -/
def planRaises (tables : Tables) : LogicalPlan → Bool
  | .scan _ => false
  | .join left right leftKeyIndex rightKeyIndex _ residualPredicate =>
    planRaises tables left || planRaises tables right ||
      match residualPredicate with
      | none => false
      | some predicate =>
        (innerJoin (joinMatches leftKeyIndex rightKeyIndex none) (rows tables left)
          (rows tables right)).any (fun pair => raises (pair.1 ++ pair.2) predicate)
  | .filter child predicate =>
    planRaises tables child || (rows tables child).any (fun row => raises row predicate)
  | .projection child items =>
    planRaises tables child ||
      (rows tables child).any (fun row => items.any (fun item => raises row item.expr))
  | .aggregate child groupBy aggregates =>
    planRaises tables child ||
      (rows tables child).any (fun row => groupBy.any (fun item => raises row item.expr)) ||
      (aggregateGroups groupBy (rows tables child)).any
        (fun group => aggregates.any (fun item => aggregateRaises group.2 item.expr))
  | .sort child keys =>
    planRaises tables child ||
      (rows tables child).any (fun row => keys.any (fun key => raises row key.expr))
  | .limit child _ => planRaises tables child

/-- The result of executing a plan. -/
def evaluate (tables : Tables) (plan : LogicalPlan) : Option (List Row) :=
  if planRaises tables plan then none else some (rows tables plan)

/-! ## Widths -/

theorem length_groupKey {groupBy : List NamedExpression} {input : List Row} {group : Row × List Row}
    (member : group ∈ aggregateGroups groupBy input) : group.1.length = groupBy.length := by
  unfold aggregateGroups at member
  split at member
  · rename_i empty
    simp only [List.mem_singleton] at member
    simp [member, List.isEmpty_iff.mp empty]
  · obtain ⟨key, inKeys, rfl⟩ := List.mem_map.mp member
    obtain ⟨row, _, rfl⟩ := List.mem_map.mp (mem_distinct.mp inKeys)
    simp [projectRow]

theorem length_joinRows {on : Row → Row → Bool} {joinType : JoinType} {left right : List Row}
    {leftSchema rightSchema : Schema} (leftWidth : ∀ row ∈ left, row.length = leftSchema.length)
    (rightWidth : ∀ row ∈ right, row.length = rightSchema.length) :
    ∀ row ∈ joinRows on joinType rightSchema.length left right,
      row.length = (joinSchema leftSchema rightSchema joinType).length := by
  intro row member
  cases joinType with
  | inner =>
    obtain ⟨pair, inJoin, rfl⟩ := List.mem_map.mp member
    obtain ⟨inLeft, inRight, -⟩ := mem_innerJoin.mp inJoin
    simp [joinSchema, leftWidth _ inLeft, rightWidth _ inRight]
  | leftOuter =>
    obtain ⟨pair, inJoin, rfl⟩ := List.mem_map.mp member
    have inLeft := leftWidth _ (mem_outerJoin_left inJoin)
    cases paired : pair.2 with
    | none => simp [nullExtended, paired, inLeft, joinSchema]
    | some other =>
      have inRight := rightWidth _ (mem_outerJoin_right inJoin paired)
      simp [nullExtended, paired, inLeft, inRight, joinSchema]
  | leftSemi => exact leftWidth row (List.mem_of_mem_filter member)
  | leftAnti => exact leftWidth row (List.mem_of_mem_filter member)

theorem length_aggregateRows {groupBy aggregates : List NamedExpression} {input : List Row} :
    ∀ row ∈ aggregateRows groupBy aggregates input, row.length = groupBy.length + aggregates.length := by
  intro row member
  obtain ⟨group, inGroups, rfl⟩ := List.mem_map.mp member
  simp [groupOutput, length_groupKey inGroups]

/-- Every row of a plan has the width of its schema. -/
theorem rows_length (tables : Tables) (plan : LogicalPlan) :
    ∀ row ∈ rows tables plan, row.length = plan.width := by
  induction plan with
  | scan source =>
    intro row member
    exact conforms_length (tables.conforming _ _ row member)
  | join left right leftKeyIndex rightKeyIndex joinType residualPredicate leftWidth rightWidth =>
    exact length_joinRows leftWidth rightWidth
  | filter child predicate childWidth =>
    intro row member
    exact childWidth row (List.mem_of_mem_filter member)
  | projection child items _ =>
    intro row member
    obtain ⟨input, _, rfl⟩ := List.mem_map.mp member
    simp [projectRow, LogicalPlan.width, LogicalPlan.outputSchema, namedFields]
  | aggregate child groupBy aggregates _ =>
    intro row member
    rw [length_aggregateRows row member]
    simp [LogicalPlan.width, LogicalPlan.outputSchema, namedFields]
  | sort child keys childWidth =>
    intro row member
    exact childWidth row ((List.mem_insertionSort _).mp member)
  | limit child limit childWidth =>
    intro row member
    exact childWidth row (List.mem_of_mem_take member)

end KernelLake.PlanSemantics
