import KernelLake.PlannedRows
import KernelLake.QueryBindingProofs

/-!
Aggregate queries mean what they say per group.

The planner replaces keys and aggregates by columns of the aggregation's output. It recognises them by
their structural keys, so this is right as long as expressions it takes for one another have one
value; and every column that is left over must be a grouping key.
-/

namespace KernelLake.AggregatePlanning

open KernelLake.Types KernelLake.Expressions KernelLake.Evaluation KernelLake.ExpressionText
open KernelLake.LogicalPlans KernelLake.PlanSemantics KernelLake.SqlAst KernelLake.Binder
open KernelLake.QueryBinding KernelLake.LogicalPlanner KernelLake.PlannedRows
open KernelLake.QueryBindingProofs
open KernelLake.Library.Relations KernelLake.Library.Results

/-! ## Values per group -/

/-- A row of a group; the rows of a group agree on its keys. -/
def representative (group : Row × List Row) : Row :=
  group.2.headD []

/-- The value of an expression for a group: aggregates over its rows, columns from one of them. -/
def groupValue (group : Row × List Row) (expression : Expression) : Value :=
  evalIn (some group.2) (representative group) expression

/-- An aggregate query evaluated group by group. -/
def directRows (query : BoundQuery) (input : List Row) : List Row :=
  ((aggregateGroups (groupPositions query.groupBy).groupBy input).filter
    (fun group => query.having.all (fun predicate => (groupValue group predicate).isTrue))).map
      (fun group => query.selectList.map (fun item => groupValue group item.expr))

/-! ## Expressions up to names -/

mutual

/-- An expression without the names and types of its columns, on which its value does not depend. -/
def withoutNames : Expression → Expression
  | .column _ columnIndex _ => .column "" columnIndex (booleanType false)
  | .literal value type => .literal value type
  | .binary op left right type => .binary op (withoutNames left) (withoutNames right) type
  | .unary op operand type => .unary op (withoutNames operand) type
  | .cast operand type => .cast (withoutNames operand) type
  | .extract part operand type => .extract part (withoutNames operand) type
  | .substring operand start length type => .substring (withoutNames operand) start length type
  | .between value lower upper => .between (withoutNames value) (withoutNames lower) (withoutNames upper)
  | .like value pattern negated => .like (withoutNames value) pattern negated
  | .caseWhen branches type => .caseWhen (branchesWithoutNames branches) type
  | .aggregate function argument type => .aggregate function (withoutNames argument) type
  | .countStar type => .countStar type

def branchesWithoutNames : CaseBranches → CaseBranches
  | .done => .done
  | .otherwise result => .otherwise (withoutNames result)
  | .when condition result rest =>
    .when (withoutNames condition) (withoutNames result) (branchesWithoutNames rest)

end

mutual

theorem evalIn_withoutNames (group : Option (List Row)) (row : Row) :
    (expression : Expression) → evalIn group row (withoutNames expression) = evalIn group row expression
  | .column .. => rfl
  | .literal .. => rfl
  | .binary _ left right _ => by
    rw [withoutNames, evalIn, evalIn, evalIn_withoutNames group row left,
      evalIn_withoutNames group row right]
  | .unary _ operand _ => by rw [withoutNames, evalIn, evalIn, evalIn_withoutNames group row operand]
  | .cast operand _ => by rw [withoutNames, evalIn, evalIn, evalIn_withoutNames group row operand]
  | .extract _ operand _ => by rw [withoutNames, evalIn, evalIn, evalIn_withoutNames group row operand]
  | .substring operand _ _ _ => by rw [withoutNames, evalIn, evalIn, evalIn_withoutNames group row operand]
  | .between value lower upper => by
    rw [withoutNames, evalIn, evalIn, evalIn_withoutNames group row value,
      evalIn_withoutNames group row lower, evalIn_withoutNames group row upper]
  | .like value _ _ => by rw [withoutNames, evalIn, evalIn, evalIn_withoutNames group row value]
  | .caseWhen branches _ => by
    rw [withoutNames, evalIn, evalIn, evalBranchesIn_withoutNames group row branches]
  | .aggregate function argument type => by
    have same : ∀ member, evalIn none member (withoutNames argument) = evalIn none member argument :=
      fun member => evalIn_withoutNames none member argument
    simp only [withoutNames, evalIn, same]
  | .countStar _ => rfl

theorem evalBranchesIn_withoutNames (group : Option (List Row)) (row : Row) :
    (branches : CaseBranches) →
      evalBranchesIn group row (branchesWithoutNames branches) = evalBranchesIn group row branches
  | .done => rfl
  | .otherwise result => by
    rw [branchesWithoutNames, evalBranchesIn, evalBranchesIn, evalIn_withoutNames group row result]
  | .when condition result rest => by
    rw [branchesWithoutNames, evalBranchesIn, evalBranchesIn, evalIn_withoutNames group row condition,
      evalIn_withoutNames group row result, evalBranchesIn_withoutNames group row rest]

end

theorem evalIn_eq_of_withoutNames {first second : Expression}
    (same : withoutNames first = withoutNames second) (group : Option (List Row)) (row : Row) :
    evalIn group row first = evalIn group row second := by
  rw [← evalIn_withoutNames, same, evalIn_withoutNames]

/-! ## Aggregate calls -/

mutual

/-- Whether an expression contains an aggregate call. -/
def hasAggregate : Expression → Bool
  | .column .. => false
  | .literal .. => false
  | .binary _ left right _ => hasAggregate left || hasAggregate right
  | .unary _ operand _ => hasAggregate operand
  | .cast operand _ => hasAggregate operand
  | .extract _ operand _ => hasAggregate operand
  | .substring operand _ _ _ => hasAggregate operand
  | .between value lower upper => hasAggregate value || hasAggregate lower || hasAggregate upper
  | .like value _ _ => hasAggregate value
  | .caseWhen branches _ => branchesHaveAggregate branches
  | .aggregate .. => true
  | .countStar _ => true

def branchesHaveAggregate : CaseBranches → Bool
  | .done => false
  | .otherwise result => hasAggregate result
  | .when condition result rest =>
    hasAggregate condition || hasAggregate result || branchesHaveAggregate rest

end

mutual

/-- Without aggregates the group does not matter. -/
theorem evalIn_plain (group : Option (List Row)) (row : Row) :
    (expression : Expression) → hasAggregate expression = false →
      evalIn group row expression = evalIn none row expression
  | .column .., _ => rfl
  | .literal .., _ => rfl
  | .binary _ left right _, plain => by
    simp only [hasAggregate, Bool.or_eq_false_iff] at plain
    simp only [evalIn, evalIn_plain group row left plain.1, evalIn_plain group row right plain.2]
  | .unary _ operand _, plain => by simp only [evalIn, evalIn_plain group row operand plain]
  | .cast operand _, plain => by simp only [evalIn, evalIn_plain group row operand plain]
  | .extract _ operand _, plain => by simp only [evalIn, evalIn_plain group row operand plain]
  | .substring operand _ _ _, plain => by simp only [evalIn, evalIn_plain group row operand plain]
  | .between value lower upper, plain => by
    simp only [hasAggregate, Bool.or_eq_false_iff] at plain
    simp only [evalIn, evalIn_plain group row value plain.1.1, evalIn_plain group row lower plain.1.2,
      evalIn_plain group row upper plain.2]
  | .like value _ _, plain => by simp only [evalIn, evalIn_plain group row value plain]
  | .caseWhen branches _, plain => by simp only [evalIn, evalBranchesIn_plain group row branches plain]
  | .aggregate .., plain => by cases plain
  | .countStar _, plain => by cases plain

theorem evalBranchesIn_plain (group : Option (List Row)) (row : Row) :
    (branches : CaseBranches) → branchesHaveAggregate branches = false →
      evalBranchesIn group row branches = evalBranchesIn none row branches
  | .done, _ => rfl
  | .otherwise result, plain => by simp only [evalBranchesIn, evalIn_plain group row result plain]
  | .when condition result rest, plain => by
    simp only [branchesHaveAggregate, Bool.or_eq_false_iff] at plain
    simp only [evalBranchesIn, evalIn_plain group row condition plain.1.1,
      evalIn_plain group row result plain.1.2, evalBranchesIn_plain group row rest plain.2]

end

/-- An aggregate call has one value for a group, whatever the row. -/
theorem evalIn_aggregate {expression : Expression} (call : isAggregate expression = true)
    (group : List Row) (first second : Row) :
    evalIn (some group) first expression = evalIn (some group) second expression := by
  cases expression with
  | aggregate function argument type => simp only [evalIn]
  | countStar type => simp only [evalIn]
  | _ => cases call

/-! ## Recognised expressions -/

mutual

/-- The subexpressions the planner looks at: it stops at grouping keys and at aggregate calls. -/
def visited (groups : GroupPositions) (expression : Expression) : List Expression :=
  if (keyColumn groups expression).isSome then [expression]
  else
    match expression with
    | .binary op left right type =>
      .binary op left right type :: (visited groups left ++ visited groups right)
    | .unary op operand type => .unary op operand type :: visited groups operand
    | .cast operand type => .cast operand type :: visited groups operand
    | .between value lower upper =>
      .between value lower upper :: (visited groups value ++ visited groups lower ++ visited groups upper)
    | .like value pattern negated => .like value pattern negated :: visited groups value
    | .caseWhen branches type => .caseWhen branches type :: visitedBranches groups branches
    | .extract part operand type => .extract part operand type :: visited groups operand
    | .substring operand start length type => .substring operand start length type :: visited groups operand
    | .aggregate function argument type => [.aggregate function argument type]
    | .countStar type => [.countStar type]
    | .column name columnIndex type => [.column name columnIndex type]
    | .literal value type => [.literal value type]

def visitedBranches (groups : GroupPositions) (branches : CaseBranches) : List Expression :=
  match branches with
  | .done => []
  | .otherwise result => visited groups result
  | .when condition result rest =>
    visited groups condition ++ visited groups result ++ visitedBranches groups rest

end

/-- The subexpressions of a query that the planner looks at. -/
def visitedParts (query : BoundQuery) : List Expression :=
  let groups := groupPositions query.groupBy
  query.selectList.flatMap (fun item => visited groups item.expr) ++
    query.having.toList.flatMap (visited groups)

/-- Among some keys and the subexpressions looked at, what has one structural key is one expression up to
column names, and no grouping key contains an aggregate. -/
structure Recognised (groupBy parts : List Expression) : Prop where
  keys : ∀ part ∈ parts, ∀ key ∈ groupBy,
    structuralKey part = structuralKey key → withoutNames part = withoutNames key
  calls : ∀ part ∈ parts, ∀ other ∈ parts, isAggregate part = true → isAggregate other = true →
    structuralKey part = structuralKey other → withoutNames part = withoutNames other
  plain : ∀ key ∈ groupBy, hasAggregate key = false

/-! ## Groups -/

section Groups

variable {groupBy : List Expression} {input : List Row} {group : Row × List Row}

/-- The key of a group is the value of the grouping keys on its representative. -/
theorem groupKey_representative (member : group ∈ aggregateGroups (groupPositions groupBy).groupBy input) :
    group.1 = projectRow (groupPositions groupBy).groupBy (representative group) := by
  unfold aggregateGroups at member
  split at member
  · rename_i empty
    rw [List.isEmpty_iff.mp empty, List.mem_singleton.mp member]
    rfl
  · obtain ⟨key, inKeys, rfl⟩ := List.mem_map.mp member
    obtain ⟨row, inInput, keyed⟩ := List.mem_map.mp (mem_distinct.mp inKeys)
    -- The group holds the row its key comes from, so its first row is one with that key.
    cases rowsOf : input.filter (fun row => projectRow (groupPositions groupBy).groupBy row = key) with
    | nil => exact absurd (decide_eq_true keyed) (List.filter_eq_nil_iff.mp rowsOf row inInput)
    | cons first rest =>
      have inRows : first ∈ input.filter (fun row => projectRow (groupPositions groupBy).groupBy row = key) :=
        rowsOf ▸ List.mem_cons_self ..
      have firstKeyed : projectRow (groupPositions groupBy).groupBy first = key := by
        simpa using (List.mem_filter.mp inRows).2
      simp [representative, firstKeyed]

theorem keyColumn_eq_some {expression column : Expression}
    (found : keyColumn (groupPositions groupBy) expression = some column) :
    ∃ position key name, groupBy[position]? = some key ∧ structuralKey key = structuralKey expression ∧
      column = .column name position expression.resultType := by
  obtain ⟨position, held, rfl⟩ := Option.map_eq_some_iff.mp found
  obtain ⟨before, after, split, -⟩ := List.lookup_eq_some_iff.mp held
  have member : (structuralKey expression, position) ∈ (groupPositions groupBy).positions := by
    rw [split]
    simp
  simp only [groupPositions, List.mem_reverse, List.mem_map, Prod.mk.injEq] at member
  obtain ⟨⟨key, index⟩, inKeys, same, rfl⟩ := member
  exact ⟨index, key, _, List.mem_zipIdx_iff_getElem?.mp inKeys, same, rfl⟩

/-- An expression the planner does not find among the keys has a structural key of its own. -/
theorem keyColumn_eq_none {expression : Expression}
    (missing : keyColumn (groupPositions groupBy) expression = none) :
    ∀ key ∈ groupBy, structuralKey key ≠ structuralKey expression := by
  intro key member same
  obtain ⟨position, held⟩ := List.mem_iff_getElem?.mp member
  rw [keyColumn, Option.map_eq_none_iff, List.lookup_eq_none_iff] at missing
  refine absurd (missing (structuralKey key, position) ?_) (by simp [same])
  simp only [groupPositions, List.mem_reverse, List.mem_map]
  exact ⟨(key, position), List.mem_zipIdx_iff_getElem?.mpr held, rfl⟩

end Groups

/-! ## Rewriting -/

section Rewriting

/-- The slots hold aggregate calls from `parts`, each at the position kept for its structural key. -/
structure Valid (parts : List Expression) (slots : AggregateSlots) : Prop where
  registered : ∀ item ∈ slots.aggregates, item.expr ∈ parts ∧ isAggregate item.expr = true
  positions : ∀ key position, slots.positions.lookup key = some position →
    ∃ item, slots.aggregates[position]? = some item ∧ structuralKey item.expr = key

/-- A step of the rewriting: the slots stay valid and only grow, and what it gives stays right,
whatever slots are added after it. -/
structure Rewritten (parts : List Expression) (slots slots' : AggregateSlots)
    (right : List NamedExpression → Prop) : Prop where
  valid : Valid parts slots'
  grows : slots.aggregates <+: slots'.aggregates
  value : ∀ final, slots'.aggregates <+: final → right final

variable {groupBy parts : List Expression} {slots slots' slots'' : AggregateSlots}
  {right right' : List NamedExpression → Prop}

theorem Rewritten.refl (valid : Valid parts slots) (always : ∀ final, right final) :
    Rewritten parts slots slots right :=
  ⟨valid, List.prefix_refl _, fun final _ => always final⟩

theorem Rewritten.trans (first : Rewritten parts slots slots' right)
    (second : Rewritten parts slots' slots'' right') :
    Rewritten parts slots slots'' (fun final => right final ∧ right' final) where
  valid := second.valid
  grows := first.grows.trans second.grows
  value final added := ⟨first.value final (second.grows.trans added), second.value final added⟩

theorem Rewritten.imp (step : Rewritten parts slots slots' right)
    (implies : ∀ final, right final → right' final) : Rewritten parts slots slots' right' :=
  ⟨step.valid, step.grows, fun final added => implies final (step.value final added)⟩

/-- The rewritten expression has, on the output row of a group, the value of the original for it. -/
def SameValue (group : Row × List Row) (original rewritten : Expression) (final : List NamedExpression) :
    Prop :=
  evalIn none (groupOutput final group) rewritten = groupValue group original

theorem valid_empty : Valid parts .empty where
  registered _ member := by cases member
  positions _ _ held := by cases held

theorem getElem?_of_grows {before after : List NamedExpression} {position : Nat} {item : NamedExpression}
    (grows : before <+: after) (held : before[position]? = some item) : after[position]? = some item := by
  obtain ⟨added, rfl⟩ := grows
  rw [List.getElem?_append_left (List.getElem?_eq_some_iff.mp held).1, held]

/-- Registering an aggregate call gives a position that holds a call with its structural key. -/
theorem registerAggregate_held {expression : Expression} {name : String} (valid : Valid parts slots)
    (inParts : expression ∈ parts) (call : isAggregate expression = true) :
    Rewritten parts slots (registerAggregate expression name slots).2 (fun final =>
      ∃ item ∈ final[(registerAggregate expression name slots).1]?, item.expr ∈ parts ∧
        isAggregate item.expr = true ∧ structuralKey item.expr = structuralKey expression) := by
  unfold registerAggregate
  split
  · rename_i position held
    refine ⟨valid, List.prefix_refl _, fun final added => ?_⟩
    obtain ⟨item, atPosition, same⟩ := valid.positions _ _ held
    have registered := valid.registered item (List.mem_of_getElem? atPosition)
    exact ⟨item, getElem?_of_grows added atPosition, registered.1, registered.2, same⟩
  · rename_i missing
    refine ⟨⟨?_, ?_⟩, List.prefix_append _ _, fun final added => ?_⟩
    · intro item member
      rcases List.mem_append.mp member with old | new
      · exact valid.registered item old
      · rw [List.mem_singleton.mp new]
        exact ⟨inParts, call⟩
    · intro key position held
      rw [List.lookup_cons] at held
      split at held
      · rename_i same
        refine ⟨⟨expression, name⟩, ?_, (eq_of_beq same).symm⟩
        rw [← Option.some.inj held]
        simp
      · obtain ⟨item, atPosition, same⟩ := valid.positions _ _ held
        exact ⟨item, getElem?_of_grows (List.prefix_append _ _) atPosition, same⟩
    · refine ⟨⟨expression, name⟩, getElem?_of_grows added ?_, inParts, call, rfl⟩
      simp

variable {input : List Row} {group : Row × List Row}

/-- A grouping key's column has the value of the expression it stands for. -/
theorem keyColumn_value (recognised : Recognised groupBy parts)
    (member : group ∈ aggregateGroups (groupPositions groupBy).groupBy input)
    {expression column : Expression} (inParts : expression ∈ parts)
    (found : keyColumn (groupPositions groupBy) expression = some column)
    (final : List NamedExpression) : SameValue group expression column final := by
  obtain ⟨position, key, name, held, same, rfl⟩ := keyColumn_eq_some found
  have inKeys := List.mem_of_getElem? held
  have keyValue : group.1[position]? = some (evalIn none (representative group) key) := by
    rw [groupKey_representative member]
    simp [projectRow, groupPositions, held]
  calc evalIn none (groupOutput final group) (.column name position expression.resultType)
      = evalIn none (representative group) key := by
        have inside := (List.getElem?_eq_some_iff.mp keyValue).1
        simp [evalIn, groupOutput, List.getElem?_append_left inside, keyValue]
    _ = groupValue group key := (evalIn_plain _ _ key (recognised.plain key inKeys)).symm
    _ = groupValue group expression :=
        (evalIn_eq_of_withoutNames (recognised.keys expression inParts key inKeys same.symm) _ _).symm

/-- The column of an aggregate call's slot has the value of the call. -/
theorem registerAs_value (recognised : Recognised groupBy parts)
    (member : group ∈ aggregateGroups (groupPositions groupBy).groupBy input)
    {expression : Expression} {name : String} (valid : Valid parts slots) (inParts : expression ∈ parts)
    (call : isAggregate expression = true) :
    Rewritten parts slots
      (registerAs (groupPositions groupBy).groupBy.length expression name slots).2
      (SameValue group expression
        (registerAs (groupPositions groupBy).groupBy.length expression name slots).1) := by
  refine (registerAggregate_held valid inParts call).imp (fun final held => ?_)
  obtain ⟨item, atPosition, itemInParts, itemCall, same⟩ := held
  have width := length_groupKey member
  calc evalIn none (groupOutput final group) _
      = evalIn (some group.2) [] item.expr := by
        rw [Option.mem_def] at atPosition
        simp [registerAs, slotColumn, evalIn, groupOutput, ← width, List.getElem?_append_right, atPosition]
    _ = evalIn (some group.2) (representative group) item.expr := evalIn_aggregate itemCall _ _ _
    _ = groupValue group expression :=
        evalIn_eq_of_withoutNames (recognised.calls item.expr itemInParts expression inParts itemCall call same) _ _

/-- Nothing is left to do for a column that is grouped: it is a key. -/
theorem keyColumn_of_grouped {name : String} {columnIndex : Nat} {type : DataType}
    (grouped : referencesUngroupedColumn (groupBy.map structuralKey) false (.column name columnIndex type) =
      false) : keyColumn (groupPositions groupBy) (.column name columnIndex type) ≠ none := by
  intro missing
  simp only [referencesUngroupedColumn, Bool.not_false, Bool.true_and, Bool.not_eq_false',
    List.contains_iff_mem, List.mem_map] at grouped
  obtain ⟨key, inKeys, same⟩ := grouped
  exact keyColumn_eq_none missing key inKeys same

mutual

/-- A rewritten expression has the value of the original for every group. -/
theorem rewriteAggregateRefs_value (recognised : Recognised groupBy parts)
    (member : group ∈ aggregateGroups (groupPositions groupBy).groupBy input) (expression : Expression)
    {slots : AggregateSlots} (valid : Valid parts slots)
    (inParts : ∀ part ∈ visited (groupPositions groupBy) expression, part ∈ parts)
    (grouped : referencesUngroupedColumn (groupBy.map structuralKey) false expression = false) :
    Rewritten parts slots (rewriteAggregateRefs (groupPositions groupBy) expression slots).2
      (SameValue group expression (rewriteAggregateRefs (groupPositions groupBy) expression slots).1) := by
  rw [visited.eq_def] at inParts
  rw [rewriteAggregateRefs.eq_def]
  cases found : keyColumn (groupPositions groupBy) expression with
  | some column =>
    simp only [found, Option.isSome_some, if_true, List.forall_mem_singleton] at inParts
    exact .refl valid (keyColumn_value recognised member inParts found)
  | none =>
    simp only [found, Option.isSome_none, Bool.false_eq_true, if_false] at inParts
    cases expression with
    | column name columnIndex type => exact absurd found (keyColumn_of_grouped grouped)
    | literal value type => exact .refl valid (fun _ => rfl)
    | binary op left right type =>
      simp only [List.forall_mem_cons, List.forall_mem_append] at inParts
      simp only [referencesUngroupedColumn, Bool.or_eq_false_iff] at grouped
      have leftStep := rewriteAggregateRefs_value recognised member left valid inParts.2.1 grouped.1
      have rightStep := rewriteAggregateRefs_value recognised member right leftStep.valid inParts.2.2 grouped.2
      refine (leftStep.trans rightStep).imp (fun final values => ?_)
      rw [SameValue, groupValue, evalIn, evalIn, values.1, values.2]
      rfl
    | unary op operand type =>
      rw [List.forall_mem_cons] at inParts
      have step := rewriteAggregateRefs_value recognised member operand valid inParts.2 grouped
      refine step.imp (fun final value => ?_)
      rw [SameValue, groupValue, evalIn, evalIn, value]
      rfl
    | cast operand type =>
      rw [List.forall_mem_cons] at inParts
      have step := rewriteAggregateRefs_value recognised member operand valid inParts.2 grouped
      refine step.imp (fun final value => ?_)
      rw [SameValue, groupValue, evalIn, evalIn, value]
      rfl
    | extract part operand type =>
      rw [List.forall_mem_cons] at inParts
      have step := rewriteAggregateRefs_value recognised member operand valid inParts.2 grouped
      refine step.imp (fun final value => ?_)
      rw [SameValue, groupValue, evalIn, evalIn, value]
      rfl
    | substring operand start length type =>
      rw [List.forall_mem_cons] at inParts
      have step := rewriteAggregateRefs_value recognised member operand valid inParts.2 grouped
      refine step.imp (fun final value => ?_)
      rw [SameValue, groupValue, evalIn, evalIn, value]
      rfl
    | like operand pattern negated =>
      rw [List.forall_mem_cons] at inParts
      have step := rewriteAggregateRefs_value recognised member operand valid inParts.2 grouped
      refine step.imp (fun final value => ?_)
      rw [SameValue, groupValue, evalIn, evalIn, value]
      rfl
    | between value lower upper =>
      simp only [List.forall_mem_cons, List.forall_mem_append] at inParts
      simp only [referencesUngroupedColumn, Bool.or_eq_false_iff] at grouped
      have valueStep := rewriteAggregateRefs_value recognised member value valid inParts.2.1.1 grouped.1.1
      have lowerStep :=
        rewriteAggregateRefs_value recognised member lower valueStep.valid inParts.2.1.2 grouped.1.2
      have upperStep :=
        rewriteAggregateRefs_value recognised member upper lowerStep.valid inParts.2.2 grouped.2
      refine ((valueStep.trans lowerStep).trans upperStep).imp (fun final values => ?_)
      rw [SameValue, groupValue, evalIn, evalIn, values.1.1, values.1.2, values.2]
      rfl
    | caseWhen branches type =>
      rw [List.forall_mem_cons] at inParts
      have step := rewriteBranchRefs_value recognised member branches valid inParts.2 grouped
      refine step.imp (fun final value => ?_)
      rw [SameValue, groupValue, evalIn, evalIn, value]
    | aggregate function argument type =>
      rw [List.forall_mem_singleton] at inParts
      exact registerAs_value recognised member valid inParts rfl
    | countStar type =>
      rw [List.forall_mem_singleton] at inParts
      exact registerAs_value recognised member valid inParts rfl

theorem rewriteBranchRefs_value (recognised : Recognised groupBy parts)
    (member : group ∈ aggregateGroups (groupPositions groupBy).groupBy input) (branches : CaseBranches)
    {slots : AggregateSlots} (valid : Valid parts slots)
    (inParts : ∀ part ∈ visitedBranches (groupPositions groupBy) branches, part ∈ parts)
    (grouped : branchesReferenceUngrouped (groupBy.map structuralKey) false branches = false) :
    Rewritten parts slots (rewriteBranchRefs (groupPositions groupBy) branches slots).2 (fun final =>
      evalBranchesIn none (groupOutput final group)
          (rewriteBranchRefs (groupPositions groupBy) branches slots).1 =
        evalBranchesIn (some group.2) (representative group) branches) := by
  cases branches with
  | done => exact .refl valid (fun _ => rfl)
  | otherwise result => exact rewriteAggregateRefs_value recognised member result valid inParts grouped
  | when condition result rest =>
    simp only [visitedBranches, List.forall_mem_append] at inParts
    simp only [branchesReferenceUngrouped, Bool.or_eq_false_iff] at grouped
    have conditionStep := rewriteAggregateRefs_value recognised member condition valid inParts.1.1 grouped.1.1
    have resultStep :=
      rewriteAggregateRefs_value recognised member result conditionStep.valid inParts.1.2 grouped.1.2
    have restStep := rewriteBranchRefs_value recognised member rest resultStep.valid inParts.2 grouped.2
    refine ((conditionStep.trans resultStep).trans restStep).imp (fun final values => ?_)
    rw [rewriteBranchRefs, evalBranchesIn, evalBranchesIn, values.1.1, values.1.2, values.2]
    rfl

end

/-- An expression the grouping covers: a key itself, or one without a column that is no key. -/
def Covered (groupBy : List Expression) (expression : Expression) : Prop :=
  (keyColumn (groupPositions groupBy) expression).isSome = true ∨
    referencesUngroupedColumn (groupBy.map structuralKey) false expression = false

theorem mem_visited_self (groups : GroupPositions) (expression : Expression) :
    expression ∈ visited groups expression := by
  rw [visited.eq_def]
  split
  · exact List.mem_singleton_self _
  · cases expression <;> exact List.mem_cons_self ..

theorem rewriteSelectItem_value (recognised : Recognised groupBy parts)
    (member : group ∈ aggregateGroups (groupPositions groupBy).groupBy input) {item : NamedExpression}
    (valid : Valid parts slots)
    (inParts : ∀ part ∈ visited (groupPositions groupBy) item.expr, part ∈ parts)
    (covered : Covered groupBy item.expr) :
    Rewritten parts slots (rewriteSelectItem (groupPositions groupBy) item slots).2
      (SameValue group item.expr (rewriteSelectItem (groupPositions groupBy) item slots).1.expr) := by
  have itemInParts := inParts _ (mem_visited_self _ _)
  unfold rewriteSelectItem
  split
  · rename_i call
    exact registerAs_value recognised member valid itemInParts call
  · rcases covered with isKey | grouped
    · obtain ⟨column, found⟩ := Option.isSome_iff_exists.mp isKey
      rw [rewriteAggregateRefs.eq_def, found]
      exact .refl valid (keyColumn_value recognised member itemInParts found)
    · exact rewriteAggregateRefs_value recognised member item.expr valid inParts grouped

theorem rewriteSelectList_value (recognised : Recognised groupBy parts)
    (member : group ∈ aggregateGroups (groupPositions groupBy).groupBy input) {items : List NamedExpression}
    (valid : Valid parts slots)
    (inParts : ∀ part ∈ items.flatMap (fun item => visited (groupPositions groupBy) item.expr), part ∈ parts)
    (covered : ∀ item ∈ items, Covered groupBy item.expr) :
    Rewritten parts slots (rewriteSelectList (groupPositions groupBy) items slots).2 (fun final =>
      projectRow (rewriteSelectList (groupPositions groupBy) items slots).1 (groupOutput final group) =
        items.map (fun item => groupValue group item.expr)) := by
  induction items generalizing slots with
  | nil => exact .refl valid (fun _ => rfl)
  | cons item items hypothesis =>
    rw [List.flatMap_cons, List.forall_mem_append] at inParts
    rw [List.forall_mem_cons] at covered
    have itemStep := rewriteSelectItem_value recognised member valid inParts.1 covered.1
    have restStep := hypothesis itemStep.valid inParts.2 covered.2
    refine (itemStep.trans restStep).imp (fun final values => ?_)
    rw [List.map_cons, ← values.1, ← values.2]
    rfl

theorem rewriteHaving_value (recognised : Recognised groupBy parts)
    (member : group ∈ aggregateGroups (groupPositions groupBy).groupBy input) {having : Option Expression}
    (valid : Valid parts slots)
    (inParts : ∀ part ∈ having.toList.flatMap (visited (groupPositions groupBy)), part ∈ parts)
    (grouped : ∀ predicate ∈ having,
      referencesUngroupedColumn (groupBy.map structuralKey) false predicate = false) :
    Rewritten parts slots (rewriteHaving (groupPositions groupBy) having slots).2 (fun final =>
      (rewriteHaving (groupPositions groupBy) having slots).1.all
          (fun predicate => (eval predicate (groupOutput final group)).isTrue) =
        having.all (fun predicate => (groupValue group predicate).isTrue)) := by
  cases having with
  | none => exact .refl valid (fun _ => rfl)
  | some predicate =>
    have step := rewriteAggregateRefs_value recognised member predicate valid (by simpa using inParts)
      (grouped predicate rfl)
    refine step.imp (fun final value => ?_)
    rw [SameValue] at value
    simp only [rewriteHaving, Option.all_some, eval, value]

end Rewriting

/-! ## Queries -/

/-- The planned aggregation returns what the query says group by group. -/
theorem aggregatedRows_eq {query : BoundQuery} (recognised : Recognised query.groupBy (visitedParts query))
    (covered : ∀ item ∈ query.selectList, Covered query.groupBy item.expr)
    (grouped : ∀ predicate ∈ query.having,
      referencesUngroupedColumn (query.groupBy.map structuralKey) false predicate = false)
    (input : List Row) : aggregatedRows query input = directRows query input := by
  have steps {group : Row × List Row}
      (member : group ∈ aggregateGroups (groupPositions query.groupBy).groupBy input) :=
    have inParts := List.forall_mem_append.mp (fun part (member : part ∈ visitedParts query) => member)
    have items := rewriteSelectList_value recognised member valid_empty inParts.1 covered
    items.trans (rewriteHaving_value recognised member items.valid inParts.2 grouped)
  simp only [aggregatedRows, filterRowsIf_eq, aggregateRows, List.filter_map, List.map_map, directRows,
    Function.comp_def]
  rw [List.filter_congr (fun group member => ((steps member).value _ (List.prefix_refl _)).2)]
  refine List.map_congr_left (fun group member => ?_)
  exact ((steps (List.mem_of_mem_filter member)).value _ (List.prefix_refl _)).1

theorem covered_of_key {groupBy : List Expression} {expression key : Expression} (member : key ∈ groupBy)
    (same : structuralKey key = structuralKey expression) : Covered groupBy expression := by
  refine .inl (Option.isSome_iff_ne_none.mpr (fun missing => ?_))
  exact keyColumn_eq_none missing key member same

section Bound

variable {stmt : AstSelectStatement} {scope : Scope} {isAggregateQuery : Bool} {query : BoundQuery}
  {groupReferences : List Reference} {keys : List GroupKey}

theorem groupByKeys_eq (clauses : ClausesBound stmt scope isAggregateQuery query groupReferences keys) :
    keys.map (fun key => structuralKey key.expr) = query.groupBy.map structuralKey := by
  rw [clauses.groupBy, List.map_map]
  rfl

/-- An item that defines a grouping key is that key; every other one has been checked. -/
theorem key_or_checked (clauses : ClausesBound stmt scope true query groupReferences keys)
    (items : List.Forall₂ (ItemBound scope) stmt.selectList query.selectList) :
    ∀ item ∈ query.selectList, item.expr ∈ query.groupBy ∨
      referencesUngroupedColumn (query.groupBy.map structuralKey) false item.expr = false := by
  intro item member
  obtain ⟨index, held⟩ := List.mem_iff_getElem?.mp member
  by_cases defines : some index ∈ keys.map GroupKey.selectIndex
  · left
    obtain ⟨key, inKeys, isIndex⟩ := List.mem_map.mp defines
    obtain ⟨reference, _, keyRan⟩ := exists_of_mem_mapM clauses.keysBound inKeys
    have inGroupBy : key.expr ∈ query.groupBy := clauses.groupBy ▸ List.mem_map_of_mem inKeys
    rcases bindGroupKey_eq_ok keyRan with ⟨_, noIndex⟩ | ⟨other, otherItem, otherHeld, rfl, _, _⟩
    · rw [noIndex] at isIndex
      cases isIndex
    · obtain rfl := Option.some.inj isIndex
      obtain rfl := Option.some.inj (otherHeld.symm.trans held)
      exact inGroupBy
  · right
    rw [← groupByKeys_eq clauses]
    refine clauses.grouped rfl item ?_
    obtain ⟨inSelectList, isItem⟩ := List.getElem?_eq_some_iff.mp held
    have inWritten : index < stmt.selectList.length := items.length_eq ▸ inSelectList
    have bound := items.get inWritten inSelectList
    refine List.mem_map.mpr ⟨((stmt.selectList[index], item), index), List.mem_filter.mpr ⟨?_, ?_⟩, rfl⟩
    · rw [List.mem_zipIdx_iff_getElem?]
      simp [List.getElem?_zip_eq_some, held]
    · have notStar := bound.notStar
      simp only [List.get_eq_getElem] at notStar
      simp [notStar, defines]

theorem covered_of_items (clauses : ClausesBound stmt scope true query groupReferences keys)
    (items : List.Forall₂ (ItemBound scope) stmt.selectList query.selectList) :
    ∀ item ∈ query.selectList, Covered query.groupBy item.expr := by
  intro item member
  rcases key_or_checked clauses items item member with isKey | checked
  · exact covered_of_key isKey rfl
  · exact .inr checked

theorem having_grouped (clauses : ClausesBound stmt scope isAggregateQuery query groupReferences keys) :
    ∀ predicate ∈ query.having,
      referencesUngroupedColumn (query.groupBy.map structuralKey) false predicate = false := by
  intro predicate isPredicate
  rw [← groupByKeys_eq clauses]
  rcases optionMapM_eq_ok.mp clauses.having with ⟨_, absent⟩ | ⟨_, bound, _, isBound, ran⟩
  · rw [absent] at isPredicate
    cases isPredicate
  · rw [isBound] at isPredicate
    obtain rfl := Option.some.inj isPredicate
    exact (bindHaving_eq_ok ran).2.2

end Bound

/-- A query the binder accepts, over one table or over joined sources. -/
def Accepted (stmt : AstSelectStatement) (query : BoundQuery) : Prop :=
  (∃ inputSchema, bindQuery stmt inputSchema = .ok query) ∨
    ∃ joinSchemas, bindJoinQuery stmt joinSchemas = .ok query

theorem clausesBound_of_accepted {stmt : AstSelectStatement} {query : BoundQuery}
    (accepted : Accepted stmt query) : ∃ scope groupReferences keys,
      ClausesBound stmt scope query.isAggregateQuery query groupReferences keys := by
  rcases accepted with ⟨schema, ran⟩ | ⟨schemas, ran⟩
  · obtain ⟨_, groupReferences, keys, clauses⟩ := bindQuery_eq_ok ran
    exact ⟨_, groupReferences, keys, clauses.isAggregate ▸ clauses⟩
  · obtain ⟨clause, first, rest, steps, _, _, bound⟩ := bindJoinQuery_eq_ok ran
    obtain ⟨groupReferences, keys, clauses⟩ := bound.clausesBound
    exact ⟨_, groupReferences, keys, clauses.isAggregate ▸ clauses⟩

/-- A `*` in the select list stands for grouping keys only. -/
def StarGrouped (stmt : AstSelectStatement) (query : BoundQuery) : Prop :=
  (∃ item ∈ stmt.selectList, isStar item.expr = true) →
    ∀ column ∈ query.selectList, structuralKey column.expr ∈ query.groupBy.map structuralKey

/-- An accepted aggregate query is planned to return what it says group by group, as long as the planner
takes no two expressions for one another and a `*` stands for grouping keys only. -/
theorem finishLogicalPlan_direct {stmt : AstSelectStatement} {query : BoundQuery}
    (accepted : Accepted stmt query) (aggregates : query.isAggregateQuery = true)
    (recognised : Recognised query.groupBy (visitedParts query)) (starGrouped : StarGrouped stmt query)
    (tables : Tables) (plan : LogicalPlan) :
    rows tables (aggregatePlan plan query) = directRows query (rows tables plan) ∧
      rows tables (finishLogicalPlan plan query) =
        limitRowsIf query.limit (sortRows query.orderBy
          (directRows query (filterRowsIf query.condition (rows tables plan)))) := by
  obtain ⟨scope, groupReferences, keys, clauses⟩ := clausesBound_of_accepted accepted
  rw [aggregates] at clauses
  have covered : ∀ item ∈ query.selectList, Covered query.groupBy item.expr := by
    rcases bindSelectList_eq_ok clauses.selectList with ⟨item, isItem, star, _⟩ | items
    · intro column member
      have isKey := starGrouped ⟨item, isItem ▸ List.mem_singleton_self _, star⟩ column member
      obtain ⟨key, inKeys, same⟩ := List.mem_map.mp isKey
      exact covered_of_key inKeys same
    · exact covered_of_items clauses items
  have direct := aggregatedRows_eq recognised covered (having_grouped clauses)
  refine ⟨by rw [rows_aggregatePlan, direct], ?_⟩
  rw [rows_finishLogicalPlan, queryRows, aggregates, if_pos rfl, direct]

def readings : TableContents where
  paths := ["readings.parquet"]
  schema := [⟨"k", int64Type false⟩, ⟨"x", float64Type false⟩]
  rows := [[.int 1, .double 1], [.int 1, .double 2]]
  conforming := by decide

/-- `SELECT k, SUM(x) / COUNT(*) AS mean FROM read_parquet('readings.parquet') GROUP BY k
HAVING SUM(x) > k` -/
def groupedStatement : AstSelectStatement where
  selectList := [⟨.columnRef "k" none, none⟩,
    ⟨.binary .divide (.aggregate .sum (.columnRef "x" none)) .countStar, some "mean"⟩]
  source := ⟨["readings.parquet"], none⟩
  groupBy := [.columnRef "k" none]
  having := some (.binary .greater (.aggregate .sum (.columnRef "x" none)) (.columnRef "k" none))

theorem finishLogicalPlan_direct_grouped :
    ∃ query, bindQuery groupedStatement readings.schema = .ok query ∧ query.isAggregateQuery = true ∧
      ∀ tables plan, rows tables (aggregatePlan plan query) = directRows query (rows tables plan) ∧
        rows tables (finishLogicalPlan plan query) =
          limitRowsIf query.limit (sortRows query.orderBy
            (directRows query (filterRowsIf query.condition (rows tables plan)))) := by
  refine ⟨_, rfl, rfl, ?_⟩
  have accepted : Accepted groupedStatement _ := .inl ⟨readings.schema, rfl⟩
  refine finishLogicalPlan_direct accepted rfl ⟨?_, ?_, ?_⟩ ?_
  · decide +kernel
  · decide +kernel
  · decide +kernel
  · intro starred
    revert starred
    decide +kernel

/-- `SELECT SUM(x * 0.0000001) AS a, SUM(x * 0.0000002) AS b FROM read_parquet('readings.parquet')` -/
def scaledStatement : AstSelectStatement where
  selectList :=
    [⟨.aggregate .sum (.binary .multiply (.columnRef "x" none) (.literal (.float 0.0000001))), some "a"⟩,
      ⟨.aggregate .sum (.binary .multiply (.columnRef "x" none) (.literal (.float 0.0000002))), some "b"⟩]
  source := ⟨["readings.parquet"], none⟩

/-- Both factors have the text `0.000000`, so both sums come from the slot of the first one. -/
theorem scaled_sums_share_slot :
    ¬ ∀ (stmt : AstSelectStatement) (query : BoundQuery) (tables : Tables) (plan : LogicalPlan),
      Accepted stmt query → query.isAggregateQuery = true →
        rows tables (aggregatePlan plan query) = directRows query (rows tables plan) := by
  intro correct
  have wrong := correct scaledStatement _ (.ofContents [readings])
    (.scan (.make ["readings.parquet"] readings.schema [])) (.inl ⟨readings.schema, rfl⟩) rfl
  revert wrong
  decide +kernel

end KernelLake.AggregatePlanning
