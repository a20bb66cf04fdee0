import KernelLake.LogicalPlans
import KernelLake.Simplification
import Mathlib.Data.List.Dedup
import Mathlib.Data.List.Sort

/-!
The plan rules of the optimizer and the scan annotation that follows them.

`rewritePlan` calls itself on plans it has just built (a merged filter, a filter pushed below a
join), so it recurses on a fuel argument here; `rewriteFuel` bounds the depth of those calls, and the
rewrite proofs show that more fuel changes nothing. `annotateScan` fails where the source's bounds-checked field
access throws: a required column that lies outside a scan's schema.
-/

namespace KernelLake.Optimizer

open KernelLake.Types KernelLake.Expressions KernelLake.LogicalPlans KernelLake.Simplification

/-! ## Columns -/

mutual

/-- The indices of the columns an expression refers to. -/
def collectColumns : Expression → List Nat
  | .column _ columnIndex _ => [columnIndex]
  | .literal .. => []
  | .binary _ left right _ => collectColumns left ++ collectColumns right
  | .unary _ operand _ => collectColumns operand
  | .cast operand _ => collectColumns operand
  | .extract _ operand _ => collectColumns operand
  | .substring operand _ _ _ => collectColumns operand
  | .between value lower upper => collectColumns value ++ collectColumns lower ++ collectColumns upper
  | .like value _ _ => collectColumns value
  | .caseWhen branches _ => collectBranchColumns branches
  | .aggregate _ argument _ => collectColumns argument
  | .countStar _ => []

def collectBranchColumns : CaseBranches → List Nat
  | .done => []
  | .otherwise result => collectColumns result
  | .when condition result rest =>
    collectColumns condition ++ collectColumns result ++ collectBranchColumns rest

end

mutual

/-- An expression with every column index reduced by `delta`. It is applied to expressions whose
indices all reach `delta`. Aggregates never occur in a predicate and are left alone. -/
def shiftColumns (delta : Nat) : Expression → Expression
  | .column name columnIndex type => .column name (columnIndex - delta) type
  | .literal value type => .literal value type
  | .binary op left right type => .binary op (shiftColumns delta left) (shiftColumns delta right) type
  | .unary op operand type => .unary op (shiftColumns delta operand) type
  | .cast operand type => .cast (shiftColumns delta operand) type
  | .extract part operand type => .extract part (shiftColumns delta operand) type
  | .substring operand start length type =>
    .substring (shiftColumns delta operand) start length type
  | .between value lower upper =>
    .between (shiftColumns delta value) (shiftColumns delta lower) (shiftColumns delta upper)
  | .like value pattern negated => .like (shiftColumns delta value) pattern negated
  | .caseWhen branches type => .caseWhen (shiftBranchColumns delta branches) type
  | .aggregate function argument type => .aggregate function argument type
  | .countStar type => .countStar type

def shiftBranchColumns (delta : Nat) : CaseBranches → CaseBranches
  | .done => .done
  | .otherwise result => .otherwise (shiftColumns delta result)
  | .when condition result rest =>
    .when (shiftColumns delta condition) (shiftColumns delta result) (shiftBranchColumns delta rest)

end

/-! ## Predicates -/

/-- The expression under any number of casts. -/
def unwrapCast : Expression → Expression
  | .cast operand _ => unwrapCast operand
  | expression => expression

/-- The operator of a comparison with its sides exchanged. -/
def flip : BinaryOperator → BinaryOperator
  | .less => .greater
  | .lessEqual => .greaterEqual
  | .greater => .less
  | .greaterEqual => .lessEqual
  | op => op

/-- A comparison of a column with a literal, casts aside, in either order. -/
def pushableComparison (op : BinaryOperator) (left right : Expression) : Option PushablePredicate :=
  match unwrapCast left, unwrapCast right with
  | .column name _ _, .literal value type => some ⟨name, op, value, type⟩
  | .literal value type, .column name _ _ => some ⟨name, flip op, value, type⟩
  | _, _ => none

def collectPushablePredicates : Expression → List PushablePredicate
  | .binary .and left right _ => collectPushablePredicates left ++ collectPushablePredicates right
  | .binary op left right _ =>
    if isComparison op then (pushableComparison op left right).toList else []
  | _ => []

/-- The conjuncts of a predicate, from left to right. -/
def collectConjuncts : Expression → List Expression
  | .binary .and left right _ => collectConjuncts left ++ collectConjuncts right
  | predicate => [predicate]

/-- A conjunction of a non-empty list of predicates. -/
def conjunction (first : Expression) (rest : List Expression) : Expression :=
  rest.foldl
    (fun result conjunct =>
      .binary .and result conjunct
        (booleanType (result.resultType.nullable || conjunct.resultType.nullable)))
    first

/-- A filter on the conjunction of a list of predicates; none means no filter. -/
def filterAll (child : LogicalPlan) : List Expression → LogicalPlan
  | [] => child
  | first :: rest => .filter child (conjunction first rest)

/-! ## Pushing a filter below a join -/

/-- The side of a join whose columns a conjunct refers to; one that refers to no column has none. -/
def onlyLeft (leftCount : Nat) (conjunct : Expression) : Bool :=
  !(collectColumns conjunct).isEmpty && (collectColumns conjunct).all (fun index => index < leftCount)

def onlyRight (leftCount : Nat) (conjunct : Expression) : Bool :=
  !(collectColumns conjunct).isEmpty && (collectColumns conjunct).all (fun index => leftCount ≤ index)

/-- The conjuncts that go to the left input, to the right input, and that stay above. -/
structure Placement where
  left : List Expression
  right : List Expression
  remaining : List Expression

def placeConjuncts (leftCount : Nat) (joinType : JoinType) (conjuncts : List Expression) :
    Placement where
  left := conjuncts.filter (onlyLeft leftCount)
  right := (conjuncts.filter (fun conjunct =>
    !onlyLeft leftCount conjunct && (onlyRight leftCount conjunct && joinType = .inner))).map
      (shiftColumns leftCount)
  remaining := conjuncts.filter (fun conjunct =>
    !onlyLeft leftCount conjunct && !(onlyRight leftCount conjunct && joinType = .inner))

/-- An input of a join with the conjuncts pushed to it; an input that receives none is kept. -/
def pushInto (rewrite : LogicalPlan → LogicalPlan) (input : LogicalPlan) :
    List Expression → LogicalPlan
  | [] => input
  | first :: rest => rewrite (.filter input (conjunction first rest))

def pushPredicateThroughJoin (rewrite : LogicalPlan → LogicalPlan) (left right : LogicalPlan)
    (leftKeyIndex rightKeyIndex : Nat) (joinType : JoinType) (residualPredicate : Option Expression)
    (predicate : Expression) : Option LogicalPlan :=
  let placement := placeConjuncts left.width joinType (collectConjuncts predicate)
  if placement.left.isEmpty && placement.right.isEmpty then none
  else
    some (filterAll
      (.join (pushInto rewrite left placement.left) (pushInto rewrite right placement.right)
        leftKeyIndex rightKeyIndex joinType residualPredicate)
      placement.remaining)

/-! ## Rewriting -/

/-- Moves a limit below the projections under it. -/
def insertLimit (limit : Int) : LogicalPlan → LogicalPlan
  | .projection child items => .projection (insertLimit limit child) items
  | node => .limit node limit

def simplifyItems (items : List NamedExpression) : List NamedExpression :=
  items.map (fun item => { item with expr := simplifyExpression item.expr })

def simplifyKeys (keys : List SortKey) : List SortKey :=
  keys.map (fun key => { key with expr := simplifyExpression key.expr })

/-- Two adjacent filters as one predicate. -/
def mergedPredicate (outer inner : Expression) : Expression :=
  simplifyExpression
    (.binary .and outer inner (booleanType (outer.resultType.nullable || inner.resultType.nullable)))

/-- The constant a predicate is, if it is one. -/
def constantPredicate : Expression → Option Bool
  | .literal (.bool value) _ => some value
  | _ => none

/-- A filter with a simplified predicate over a rewritten child. -/
def rewriteFilter (rewrite : LogicalPlan → LogicalPlan) (child : LogicalPlan)
    (predicate : Expression) : LogicalPlan :=
  match child with
  | .filter grandchild inner => rewrite (.filter grandchild (mergedPredicate predicate inner))
  | child =>
    match constantPredicate predicate with
    | some true => child
    | some false => .filter child predicate
    | none =>
      match child with
      | .join left right leftKeyIndex rightKeyIndex joinType residualPredicate =>
        (pushPredicateThroughJoin rewrite left right leftKeyIndex rightKeyIndex joinType
          residualPredicate predicate).getD (.filter child predicate)
      | child => .filter child predicate

/-- One unfolding of the rewriter, with `rewrite` for its recursive calls. -/
def rewriteStep (rewrite : LogicalPlan → LogicalPlan) : LogicalPlan → LogicalPlan
  | .scan source => .scan source
  | .join left right leftKeyIndex rightKeyIndex joinType residualPredicate =>
    .join (rewrite left) (rewrite right) leftKeyIndex rightKeyIndex joinType residualPredicate
  | .filter child predicate => rewriteFilter rewrite (rewrite child) (simplifyExpression predicate)
  | .projection child items => .projection (rewrite child) (simplifyItems items)
  | .aggregate child groupBy aggregates =>
    .aggregate (rewrite child) (simplifyItems groupBy) (simplifyItems aggregates)
  | .sort child keys => .sort (rewrite child) (simplifyKeys keys)
  | .limit child limit => insertLimit limit (rewrite child)

def rewriteWith : Nat → LogicalPlan → LogicalPlan
  | 0, node => node
  | fuel + 1, node => rewriteStep (rewriteWith fuel) node

/-- The number of operators other than filters, which rewriting keeps. -/
def operatorCount : LogicalPlan → Nat
  | .scan _ => 1
  | .join left right _ _ _ _ => operatorCount left + operatorCount right + 1
  | .filter child _ => operatorCount child
  | .projection child _ => operatorCount child + 1
  | .aggregate child _ _ => operatorCount child + 1
  | .sort child _ => operatorCount child + 1
  | .limit child _ => operatorCount child + 1

/-- The number of filters at the top of a plan. -/
def topFilters : LogicalPlan → Nat
  | .filter child _ => topFilters child + 1
  | _ => 0

/-- The longest run of adjacent filters anywhere in a plan. -/
def longestRun : LogicalPlan → Nat
  | .scan _ => 0
  | .join left right _ _ _ _ => max (longestRun left) (longestRun right)
  | .filter child predicate => max (longestRun child) (topFilters (.filter child predicate))
  | .projection child _ => longestRun child
  | .aggregate child _ _ => longestRun child
  | .sort child _ => longestRun child
  | .limit child _ => longestRun child

/-- Enough fuel to rewrite a plan. -/
def rewriteFuel (plan : LogicalPlan) : Nat :=
  (operatorCount plan + 1) * (longestRun plan + 3)

def rewritePlan (plan : LogicalPlan) : LogicalPlan :=
  rewriteWith (rewriteFuel plan) plan

/-! ## Scan annotation -/

def collectItemColumns (items : List NamedExpression) : List Nat :=
  items.flatMap (fun item => collectColumns item.expr)

/-- The names of a scan's required columns, sorted; a column outside its schema is an error. -/
def requiredNames (schema : Schema) (required : List Nat) : Option (List String) :=
  (required.dedup.mapM (fun index => (schema[index]?).map Field.name)).map
    (fun names => names.insertionSort (fun left right => left ≤ right))

/-- The required columns of a join's left input: those referred to above and by the residual
predicate, and its key. -/
def leftRequired (leftCount leftKeyIndex : Nat) (referred : List Nat) : List Nat :=
  leftKeyIndex :: referred.filter (fun index => index < leftCount)

def rightRequired (leftCount rightKeyIndex : Nat) (referred : List Nat) : List Nat :=
  rightKeyIndex :: (referred.filter (fun index => leftCount ≤ index)).map (fun index => index - leftCount)

/-- Annotates every scan with the columns the plan above it refers to and with the comparisons the
filters above it make. The references of a filter or a projection directly over an aggregate are to
the aggregate's output, and nothing crosses a join downwards but column references. -/
def annotateScan (required : List Nat) (predicates : List PushablePredicate) :
    LogicalPlan → Option LogicalPlan
  | .filter child predicate =>
    let overAggregate := child.isAggregate
    let required := if overAggregate then required else required ++ collectColumns predicate
    let predicates :=
      if overAggregate then predicates else predicates ++ collectPushablePredicates predicate
    (annotateScan required predicates child).map (.filter · predicate)
  | .sort child keys =>
    (annotateScan (required ++ keys.flatMap (fun key => collectColumns key.expr)) predicates child).map
      (.sort · keys)
  | .aggregate child groupBy aggregates =>
    (annotateScan (required ++ collectItemColumns groupBy ++ collectItemColumns aggregates) predicates
      child).map (.aggregate · groupBy aggregates)
  | .projection child items =>
    let required := if child.isAggregate then required else required ++ collectItemColumns items
    (annotateScan required predicates child).map (.projection · items)
  | .limit child limit => (annotateScan required predicates child).map (.limit · limit)
  | .join left right leftKeyIndex rightKeyIndex joinType residualPredicate =>
    let referred := required ++ residualPredicate.elim [] collectColumns
    do
      let left' ← annotateScan (leftRequired left.width leftKeyIndex referred) [] left
      let right' ← annotateScan (rightRequired left.width rightKeyIndex referred) [] right
      pure (.join left' right' leftKeyIndex rightKeyIndex joinType residualPredicate)
  | .scan source =>
    (requiredNames source.schema required).map
      (fun names => .scan { source with requiredColumns := names, pushablePredicates := predicates })

def optimize (plan : LogicalPlan) : Option LogicalPlan :=
  annotateScan [] [] (rewritePlan plan)

end KernelLake.Optimizer
