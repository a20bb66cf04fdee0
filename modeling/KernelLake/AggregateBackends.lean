import KernelLake.HashAggregationProofs

/-!
The two backends on one grouped aggregation.

The CPU backend projects the group keys and the aggregate arguments under names of their own and
hands the names to Acero, which keeps a null key as a key like any other. The GPU operator asks cuDF
for groupings without saying what to do with null keys, and cuDF's default leaves their rows out.

Both backends read a column by its index; a computed expression has one value on a row, whichever
backend evaluates it.
-/

namespace KernelLake.AggregateBackends

open KernelLake.Types KernelLake.Expressions KernelLake.Evaluation KernelLake.LogicalPlans
open KernelLake.HashAggregation KernelLake.HashAggregationProofs
open KernelLake.Library.Relations KernelLake.Library.Grouping KernelLake.Library.Results

variable {ν : Type}

/-! ## Names for the inputs of an aggregation -/

/-- A compiled expression of the CPU backend. -/
inductive ArrowExpression
  | fieldRef (index : Nat)
  | computed (expr : Expression)

/-- Projected expressions with their names, which the source keeps in two parallel vectors. -/
structure AggregateInputPlan where
  projections : List (String × ArrowExpression)
  projectedIndexToName : List (Nat × String)
  claimedNames : List String
  nextSyntheticId : Nat

def AggregateInputPlan.initial : AggregateInputPlan := ⟨[], [], [], 0⟩

def AggregateInputPlan.project (plan : AggregateInputPlan) (name : String) (expr : ArrowExpression) :
    AggregateInputPlan :=
  { plan with projections := plan.projections ++ [(name, expr)] }

def AggregateInputPlan.claim (plan : AggregateInputPlan) (name : String) : AggregateInputPlan :=
  { plan with claimedNames := name :: plan.claimedNames }

def nextSyntheticName (plan : AggregateInputPlan) : AggregateInputPlan × String :=
  ({ plan with nextSyntheticId := plan.nextSyntheticId + 1 },
    "__kernellake_agg_input_" ++ toString plan.nextSyntheticId)

/-- The name under which a column is projected: that of an earlier use, its own, or a new one where
its own belongs to another column. -/
def ensureColumnProjected (plan : AggregateInputPlan) (columnName : String) (columnIndex : Nat) :
    AggregateInputPlan × String :=
  match plan.projectedIndexToName.lookup columnIndex with
  | some name => (plan, name)
  | none =>
    let (plan, name) :=
      if plan.claimedNames.contains columnName then nextSyntheticName plan else (plan, columnName)
    let plan := (plan.claim name).project name (.fieldRef columnIndex)
    ({ plan with projectedIndexToName := (columnIndex, name) :: plan.projectedIndexToName }, name)

def collidingKeyMessage (name : String) : String :=
  "GROUP BY key '" ++ name ++ "' collides with another projected column name -- not supported by the " ++
    "CPU execution backend"

section Translation

-- Whether the CPU backend compiles a computed expression.
variable (compileExpressionCpu : Expression → Except String Unit)

def resolveAggregateTarget (plan : AggregateInputPlan) :
    Expression → Except String (AggregateInputPlan × String)
  | .column name index _ => .ok (ensureColumnProjected plan name index)
  | expr => do
    let (plan, syntheticName) := nextSyntheticName plan
    compileExpressionCpu expr
    .ok (plan.project syntheticName (.computed expr), syntheticName)

/-- A computed key is projected under the name of its output column. -/
def translateKey (plan : AggregateInputPlan) (item : NamedExpression) :
    Except String (AggregateInputPlan × String) :=
  match item.expr with
  | .column name index _ => .ok (ensureColumnProjected plan name index)
  | expr =>
    if plan.claimedNames.contains item.name then .error (collidingKeyMessage item.name)
    else do
      compileExpressionCpu expr
      .ok ((plan.claim item.name).project item.name (.computed expr), item.name)

/-- Arrow's aggregate functions over groups. Both counts of a column are asked for its valid cells
only. -/
inductive HashAggregateFunction
  | hashSum | hashCount | hashCountDistinct | hashCountAll | hashMin | hashMax | hashMean
  deriving DecidableEq

structure AceroAggregate where
  function : HashAggregateFunction
  target : Option String
  outputName : String

def hashFunction : AggregateFunction → HashAggregateFunction
  | .sum => .hashSum
  | .count => .hashCount
  | .countDistinct => .hashCountDistinct
  | .min => .hashMin
  | .max => .hashMax
  | .avg => .hashMean

def notAggregateNodeMessage (name : String) : String :=
  "HashAggregateNode item '" ++ name ++ "' is not an AggregateExpression"

def translateAggregate (plan : AggregateInputPlan) (item : NamedExpression) :
    Except String (AggregateInputPlan × AceroAggregate) :=
  match item.expr with
  | .countStar _ => .ok (plan, ⟨.hashCountAll, none, item.name⟩)
  | .aggregate function argument _ => do
    let (plan, target) ← resolveAggregateTarget compileExpressionCpu plan argument
    .ok (plan, ⟨hashFunction function, some target, item.name⟩)
  | _ => .error (notAggregateNodeMessage item.name)

/-- The translation of a list of items one after the other, through one plan. -/
def translateEach {α : Type} (translate : AggregateInputPlan → NamedExpression →
    Except String (AggregateInputPlan × α)) (plan : AggregateInputPlan) :
    List NamedExpression → Except String (AggregateInputPlan × List α)
  | [] => .ok (plan, [])
  | item :: items => do
    let (plan, first) ← translate plan item
    let (plan, rest) ← translateEach translate plan items
    .ok (plan, first :: rest)

/-- The declaration handed to Acero. -/
structure AggregateDeclaration where
  projections : List (String × ArrowExpression)
  keys : List String
  aggregates : List AceroAggregate

def translate (groupBy aggregates : List NamedExpression) : Except String AggregateDeclaration := do
  let (plan, keys) ← translateEach (translateKey compileExpressionCpu) .initial groupBy
  let (plan, calls) ← translateEach (translateAggregate compileExpressionCpu) plan aggregates
  .ok ⟨plan.projections, keys, calls⟩

end Translation

/-! ## Acero -/

section Acero

/-- A column is found by its name when exactly one column has it. -/
def findField (names : List String) (name : String) : Except String Nat :=
  if names.count name = 1 then .ok (names.idxOf name)
  else .error ("No match or multiple matches for FieldRef.Name(" ++ name ++ ")")

structure ResolvedAggregate where
  function : HashAggregateFunction
  target : Option Nat

def resolveAggregate (names : List String) (call : AceroAggregate) : Except String ResolvedAggregate :=
  match call.target with
  | none => .ok ⟨call.function, none⟩
  | some name => do .ok ⟨call.function, some (← findField names name)⟩

variable [AddCommMonoidWithOne ν] [LinearOrder ν]
variable (divide : ν → ν → ν)

/-- An aggregate function on the target cells of a group. All of them pass over nulls, and a sum,
minimum, maximum or mean of none is null. -/
def hashAggregate (function : HashAggregateFunction) (cells : List (Cell ν)) : Cell ν :=
  let count := ((cells.filter Option.isSome).length : ν)
  match function with
  | .hashSum => reducePresent (· + ·) cells
  | .hashMin => reducePresent min cells
  | .hashMax => reducePresent max cells
  | .hashCount => some count
  | .hashMean => (reducePresent (· + ·) cells).map (fun total => divide total count)
  | .hashCountDistinct => some ((distinct (cells.filter Option.isSome)).length : ν)
  | .hashCountAll => some (cells.length : ν)

def aggregateGroup (call : ResolvedAggregate) (group : Table ν) : Cell ν :=
  hashAggregate divide call.function
    (group.map (fun row => (call.target.map (fun index => row.getD index none)).getD none))

/-- Acero's aggregation, as documented: one row for each key, keys first, in no particular order.
A null in a key is a value of its own. -/
structure AceroAggregation (ν : Type) [AddCommMonoidWithOne ν] [LinearOrder ν] (divide : ν → ν → ν) where
  aggregate : List Nat → List ResolvedAggregate → Table ν → Table ν
  aggregate_perm : ∀ keys calls table, (aggregate keys calls table).Perm
    ((groupRows (fun row => keys.map (row.getD · none)) table).map
      (fun group => group.1 ++ calls.map (aggregateGroup divide · group.2)))

/-- Acero with groups in order of first appearance. -/
def AceroAggregation.inOrder (ν : Type) [AddCommMonoidWithOne ν] [LinearOrder ν] (divide : ν → ν → ν) :
    AceroAggregation ν divide where
  aggregate keys calls table :=
    (groupRows (fun row => keys.map (row.getD · none)) table).map
      (fun group => group.1 ++ calls.map (aggregateGroup divide · group.2))
  aggregate_perm _ _ _ := .refl _

end Acero

/-! ## The backends -/

section Backends

variable (columnCell : Nat → Row → Cell ν) (compute : Expression → Row → Cell ν)

/-- The cell of an expression on one row. -/
def materialize : Expression → Row → Cell ν
  | .column _ index _ => columnCell index
  | expr => compute expr

def evaluate : ArrowExpression → Row → Cell ν
  | .fieldRef index => columnCell index
  | .computed expr => compute expr

def projectRow (projections : List (String × ArrowExpression)) (row : Row) : List (Cell ν) :=
  projections.map (fun projection => evaluate columnCell compute projection.2 row)

variable [AddCommMonoidWithOne ν] [LinearOrder ν] {divide : ν → ν → ν}

/-- `execute_physical_plan_cpu` of a grouped aggregation. -/
def executeCpu (acero : AceroAggregation ν divide) (compileExpressionCpu : Expression → Except String Unit)
    (groupBy aggregates : List NamedExpression) (rows : List Row) : Except String (Table ν) := do
  let declaration ← translate compileExpressionCpu groupBy aggregates
  let names := declaration.projections.map Prod.fst
  let keys ← declaration.keys.mapM (findField names)
  let calls ← declaration.aggregates.mapM (resolveAggregate names)
  .ok (acero.aggregate keys calls (rows.map (projectRow columnCell compute declaration.projections)))

end Backends

/-! ## What the translation promises -/

section Promises

/-- The compiled form of an expression. -/
def compiledForm : Expression → ArrowExpression
  | .column _ index _ => .fieldRef index
  | expr => .computed expr

/-- Every name recorded for a column is that of its projection. -/
def Indexed (plan : AggregateInputPlan) : Prop :=
  ∀ index name, plan.projectedIndexToName.lookup index = some name →
    (name, .fieldRef index) ∈ plan.projections

/-- A plan grows: what it projects stays projected. -/
def Grows (plan next : AggregateInputPlan) : Prop :=
  Indexed next ∧ ∀ projection ∈ plan.projections, projection ∈ next.projections

theorem grows_trans {first second third : AggregateInputPlan} (toSecond : Grows first second)
    (toThird : Grows second third) : Grows first third :=
  ⟨toThird.1, fun projection member => toThird.2 projection (toSecond.2 projection member)⟩

theorem grows_project {plan : AggregateInputPlan} (indexed : Indexed plan) (name : String)
    (expr : ArrowExpression) : Grows plan (plan.project name expr) := by
  constructor
  · intro index found recorded
    exact List.mem_append_left _ (indexed index found recorded)
  · intro projection member
    exact List.mem_append_left _ member

theorem ensureColumnProjected_grows {plan : AggregateInputPlan} (indexed : Indexed plan)
    (columnName : String) (columnIndex : Nat) :
    Grows plan (ensureColumnProjected plan columnName columnIndex).1 ∧
      ((ensureColumnProjected plan columnName columnIndex).2, .fieldRef columnIndex) ∈
        (ensureColumnProjected plan columnName columnIndex).1.projections := by
  unfold ensureColumnProjected
  cases recorded : plan.projectedIndexToName.lookup columnIndex with
  | some name => exact ⟨⟨indexed, fun _ member => member⟩, indexed columnIndex name recorded⟩
  | none =>
    -- A synthetic name differs from the column's own only in the plan's counter.
    have added : ∀ (source : AggregateInputPlan) (name : String), Indexed source →
        Grows source { (source.claim name).project name (.fieldRef columnIndex) with
          projectedIndexToName := (columnIndex, name) :: source.projectedIndexToName } := by
      intro source name sourceIndexed
      constructor
      · intro index found lookedUp
        rw [List.lookup_cons] at lookedUp
        split at lookedUp
        · rename_i same
          obtain rfl := beq_iff_eq.mp same
          obtain rfl := Option.some.inj lookedUp
          exact List.mem_append_right _ (List.mem_singleton_self _)
        · exact List.mem_append_left _ (sourceIndexed index found lookedUp)
      · intro projection member
        exact List.mem_append_left _ member
    dsimp only
    by_cases claimed : plan.claimedNames.contains columnName = true
    · rw [if_pos claimed]
      refine ⟨added (nextSyntheticName plan).1 (nextSyntheticName plan).2 indexed, ?_⟩
      exact List.mem_append_right _ (List.mem_singleton_self _)
    · rw [if_neg claimed]
      refine ⟨added plan columnName indexed, ?_⟩
      exact List.mem_append_right _ (List.mem_singleton_self _)

variable {compileExpressionCpu : Expression → Except String Unit}

theorem resolveAggregateTarget_grows {plan next : AggregateInputPlan} (indexed : Indexed plan)
    {expr : Expression} {name : String}
    (ran : resolveAggregateTarget compileExpressionCpu plan expr = .ok (next, name)) :
    Grows plan next ∧ (name, compiledForm expr) ∈ next.projections := by
  unfold resolveAggregateTarget at ran
  split at ran
  · rename_i columnName index type
    obtain ⟨rfl, rfl⟩ := Prod.mk.inj (Except.ok.inj ran)
    exact ensureColumnProjected_grows indexed columnName index
  · rename_i notColumn
    simp only [bind_eq_ok] at ran
    obtain ⟨_, _, projected⟩ := ran
    obtain ⟨rfl, rfl⟩ := Prod.mk.inj (Except.ok.inj projected)
    refine ⟨grows_project indexed _ _, List.mem_append_right _ (List.mem_singleton.mpr ?_)⟩
    unfold compiledForm
    split
    · exact absurd rfl (notColumn _ _ _)
    · rfl

theorem translateKey_grows {plan next : AggregateInputPlan} (indexed : Indexed plan)
    {item : NamedExpression} {name : String}
    (ran : translateKey compileExpressionCpu plan item = .ok (next, name)) :
    Grows plan next ∧ (name, compiledForm item.expr) ∈ next.projections := by
  unfold translateKey at ran
  split at ran
  · rename_i columnName index type isColumn
    obtain ⟨rfl, rfl⟩ := Prod.mk.inj (Except.ok.inj ran)
    rw [isColumn]
    exact ensureColumnProjected_grows indexed columnName index
  · rename_i notColumn
    split at ran
    · cases ran
    · simp only [bind_eq_ok] at ran
      obtain ⟨_, _, projected⟩ := ran
      obtain ⟨rfl, rfl⟩ := Prod.mk.inj (Except.ok.inj projected)
      refine ⟨grows_project indexed _ _, List.mem_append_right _ (List.mem_singleton.mpr ?_)⟩
      unfold compiledForm
      split
      · rename_i isColumn
        exact absurd isColumn (notColumn _ _ _)
      · rfl

/-- The function of a call, and the projected argument it is applied to. -/
def CallOf (projections : List (String × ArrowExpression)) (item : NamedExpression)
    (call : AceroAggregate) : Prop :=
  (∃ type, item.expr = .countStar type ∧ call.function = .hashCountAll ∧ call.target = none) ∨
    ∃ function argument type name, item.expr = .aggregate function argument type ∧
      call.function = hashFunction function ∧ call.target = some name ∧
      (name, compiledForm argument) ∈ projections

theorem translateAggregate_grows {plan next : AggregateInputPlan} (indexed : Indexed plan)
    {item : NamedExpression} {call : AceroAggregate}
    (ran : translateAggregate compileExpressionCpu plan item = .ok (next, call)) :
    Grows plan next ∧ CallOf next.projections item call := by
  unfold translateAggregate at ran
  split at ran
  · rename_i type isCount
    obtain ⟨rfl, rfl⟩ := Prod.mk.inj (Except.ok.inj ran)
    exact ⟨⟨indexed, fun _ member => member⟩, .inl ⟨type, isCount, rfl, rfl⟩⟩
  · rename_i function argument type isAggregate
    simp only [bind_eq_ok] at ran
    obtain ⟨⟨resolved, name⟩, targetRan, projected⟩ := ran
    obtain ⟨rfl, rfl⟩ := Prod.mk.inj (Except.ok.inj projected)
    obtain ⟨grows, member⟩ := resolveAggregateTarget_grows indexed targetRan
    exact ⟨grows, .inr ⟨function, argument, type, name, isAggregate, rfl, rfl, member⟩⟩
  · cases ran

/-- What holds of each item after its own translation still holds when all are translated. -/
theorem translateEach_grows {α : Type}
    (translate : AggregateInputPlan → NamedExpression → Except String (AggregateInputPlan × α))
    (holds : List (String × ArrowExpression) → NamedExpression → α → Prop)
    (monotone : ∀ first second item result, (∀ projection ∈ first, projection ∈ second) →
      holds first item result → holds second item result)
    (each : ∀ plan next item result, Indexed plan → translate plan item = .ok (next, result) →
      Grows plan next ∧ holds next.projections item result)
    {items : List NamedExpression} {plan next : AggregateInputPlan} {results : List α}
    (indexed : Indexed plan) (ran : translateEach translate plan items = .ok (next, results)) :
    Grows plan next ∧ List.Forall₂ (holds next.projections) items results := by
  induction items generalizing plan results with
  | nil =>
    obtain ⟨rfl, rfl⟩ := Prod.mk.inj (Except.ok.inj ran)
    exact ⟨⟨indexed, fun _ member => member⟩, .nil⟩
  | cons item items hypothesis =>
    simp only [translateEach, bind_eq_ok] at ran
    obtain ⟨⟨middle, result⟩, firstRan, ⟨last, rest⟩, restRan, built⟩ := ran
    obtain ⟨rfl, rfl⟩ := Prod.mk.inj (Except.ok.inj built)
    obtain ⟨first, firstHolds⟩ := each plan middle item result indexed firstRan
    obtain ⟨others, othersHold⟩ := hypothesis first.1 restRan
    exact ⟨grows_trans first others, .cons (monotone _ _ _ _ others.2 firstHolds) othersHold⟩

/-- Each key and each argument is projected under the name that the declaration gives for it. -/
theorem translate_projects {groupBy aggregates : List NamedExpression} {declaration : AggregateDeclaration}
    (ran : translate compileExpressionCpu groupBy aggregates = .ok declaration) :
    List.Forall₂ (fun item name => (name, compiledForm item.expr) ∈ declaration.projections) groupBy
        declaration.keys ∧
      List.Forall₂ (CallOf declaration.projections) aggregates declaration.aggregates := by
  simp only [translate, bind_eq_ok] at ran
  obtain ⟨⟨keyPlan, names⟩, keysRan, ⟨plan, calls⟩, callsRan, built⟩ := ran
  obtain rfl := Except.ok.inj built
  have empty : Indexed .initial := by
    intro index name recorded
    cases recorded
  obtain ⟨keyGrows, named⟩ := translateEach_grows (translateKey compileExpressionCpu)
    (fun projections item name => (name, compiledForm item.expr) ∈ projections)
    (fun _ _ _ _ within member => within _ member)
    (fun _ _ _ _ indexed keyRan => translateKey_grows indexed keyRan) empty keysRan
  obtain ⟨callGrows, areCalls⟩ := translateEach_grows (translateAggregate compileExpressionCpu) CallOf
    (fun _ _ _ _ within isCall => isCall.imp_right (fun ⟨function, argument, type, name, shape, same, target, member⟩ =>
      ⟨function, argument, type, name, shape, same, target, within _ member⟩))
    (fun _ _ _ _ indexed callRan => translateAggregate_grows indexed callRan) keyGrows.1 callsRan
  exact ⟨named.imp (fun _ _ member => callGrows.2 _ member), areCalls⟩

end Promises

/-! ## The CPU backend groups once -/

section Once

variable {columnCell : Nat → Row → Cell ν} {compute : Expression → Row → Cell ν}

theorem evaluate_compiledForm (expr : Expression) :
    evaluate columnCell compute (compiledForm expr) = materialize columnCell compute expr := by
  cases expr <;> rfl

/-- The cell found by name is that of the expression projected under it. -/
theorem findField_cell {projections : List (String × ArrowExpression)} {name : String} {index : Nat}
    (found : findField (projections.map Prod.fst) name = .ok index) {expr : ArrowExpression}
    (member : (name, expr) ∈ projections) (row : Row) :
    (projectRow columnCell compute projections row).getD index none =
      evaluate columnCell compute expr row := by
  unfold findField at found
  split at found
  · rename_i once
    obtain rfl := Except.ok.inj found
    clear found
    induction projections with
    | nil => cases member
    | cons projection projections hypothesis =>
      rw [List.map_cons, List.count_cons] at once
      rw [List.map_cons, List.idxOf_cons]
      by_cases here : projection.1 = name
      · -- The name occurs nowhere else, so this is the projection meant.
        simp only [here, beq_self_eq_true, if_true] at once
        have absent : name ∉ projections.map Prod.fst := List.count_eq_zero.mp (by omega)
        have same : (name, expr) = projection :=
          (List.mem_cons.mp member).resolve_right (fun inRest => absent (List.mem_map_of_mem inRest))
        subst same
        simp [projectRow]
      · have other : (projection.1 == name) = false := beq_false_of_ne here
        have inRest : (name, expr) ∈ projections := by
          refine (List.mem_cons.mp member).resolve_left (fun same => here ?_)
          rw [← same]
        simp only [other, Bool.false_eq_true, if_false, Nat.add_zero] at once
        rw [other, cond_false]
        exact hypothesis inRest once
  · cases found

theorem findFields_cells {projections : List (String × ArrowExpression)} {items : List NamedExpression}
    {names : List String} {indices : List Nat}
    (found : names.mapM (findField (projections.map Prod.fst)) = .ok indices)
    (named : List.Forall₂ (fun item name => (name, compiledForm item.expr) ∈ projections) items names)
    (row : Row) :
    indices.map ((projectRow columnCell compute projections row).getD · none) =
      items.map (fun item => materialize columnCell compute item.expr row) := by
  rw [mapM_eq_ok] at found
  induction named generalizing indices with
  | nil =>
    rw [List.forall₂_nil_left_iff.mp found]
    rfl
  | cons member _ hypothesis =>
    obtain ⟨index, rest, here, restFound, rfl⟩ := List.forall₂_cons_left_iff.mp found
    rw [List.map_cons, List.map_cons, hypothesis restFound, findField_cell here member,
      evaluate_compiledForm]

variable [AddCommMonoidWithOne ν] [LinearOrder ν] {divide : ν → ν → ν}

/-- Acero's functions compute the aggregates they are named for. -/
theorem hashAggregate_function (function : AggregateFunction) (argument : Expression) (type : DataType)
    (group : List Row) :
    hashAggregate divide (hashFunction function) (group.map (materialize columnCell compute argument)) =
      groupAggregate (materialize columnCell compute) divide (.aggregate function argument type) group := by
  cases function <;> rfl

theorem resolveAggregate_cell {projections : List (String × ArrowExpression)} {item : NamedExpression}
    {call : AceroAggregate} {resolved : ResolvedAggregate}
    (ran : resolveAggregate (projections.map Prod.fst) call = .ok resolved)
    (isCall : CallOf projections item call) (group : List Row) :
    aggregateGroup divide resolved (group.map (projectRow columnCell compute projections)) =
      groupAggregate (materialize columnCell compute) divide item.expr group := by
  unfold resolveAggregate at ran
  rcases isCall with ⟨type, isCount, function, target⟩ |
    ⟨function, argument, type, name, isAggregate, same, target, member⟩
  · rw [target] at ran
    obtain rfl := Except.ok.inj ran
    rw [isCount, aggregateGroup, function, hashAggregate, List.length_map, List.length_map]
    rfl
  · rw [target] at ran
    simp only [bind_eq_ok] at ran
    obtain ⟨index, found, built⟩ := ran
    obtain rfl := Except.ok.inj built
    rw [isAggregate, ← hashAggregate_function function argument type group, aggregateGroup, same,
      List.map_map]
    refine congrArg _ (List.map_congr_left (fun row _ => ?_))
    change (projectRow columnCell compute projections row).getD index none = _
    rw [findField_cell found member, evaluate_compiledForm]

theorem resolveAggregates_cells {projections : List (String × ArrowExpression)}
    {items : List NamedExpression} {calls : List AceroAggregate} {resolved : List ResolvedAggregate}
    (ran : calls.mapM (resolveAggregate (projections.map Prod.fst)) = .ok resolved)
    (areCalls : List.Forall₂ (CallOf projections) items calls) (group : List Row) :
    resolved.map (aggregateGroup divide · (group.map (projectRow columnCell compute projections))) =
      items.map (fun item => groupAggregate (materialize columnCell compute) divide item.expr group) := by
  rw [mapM_eq_ok] at ran
  induction areCalls generalizing resolved with
  | nil =>
    rw [List.forall₂_nil_left_iff.mp ran]
    rfl
  | cons isCall _ hypothesis =>
    obtain ⟨first, rest, here, restRan, rfl⟩ := List.forall₂_cons_left_iff.mp ran
    rw [List.map_cons, List.map_cons, hypothesis restRan, resolveAggregate_cell here isCall]

/-- A grouped aggregation that the CPU backend accepts returns the groups of all rows. -/
theorem executeCpu_perm {acero : AceroAggregation ν divide}
    {compileExpressionCpu : Expression → Except String Unit} {operator : HashAggregateOperator}
    {rows : List Row} {result : Table ν}
    (ran : executeCpu columnCell compute acero compileExpressionCpu operator.groupBy operator.aggregates
      rows = .ok result) :
    result.Perm (groupedOnce (materialize columnCell compute) divide operator rows) := by
  simp only [executeCpu, bind_eq_ok] at ran
  obtain ⟨declaration, translated, keys, keysFound, resolved, callsFound, aggregated⟩ := ran
  obtain rfl := Except.ok.inj aggregated
  obtain ⟨named, areCalls⟩ := translate_projects translated
  refine (acero.aggregate_perm _ _ _).trans (.of_eq ?_)
  rw [groupRows_map, List.map_map, groupedOnce]
  have sameKeys : (fun row => keys.map ((projectRow columnCell compute declaration.projections row).getD · none)) =
      groupKeys (materialize columnCell compute) operator := by
    funext row
    exact findFields_cells keysFound named row
  rw [sameKeys]
  refine List.map_congr_left (fun group _ => ?_)
  rw [Function.comp_apply, resolveAggregates_cells callsFound areCalls]

end Once

/-! ## The GPU operator leaves null keys out -/

section Present

variable (cell : Expression → Row → Cell ν) (operator : HashAggregateOperator)

/-- The rows without a null in their key. -/
def presentRows (rows : List Row) : List Row :=
  rows.filter (fun row => keyPresent (groupKeys cell operator row))

theorem keyPresent_presentRows {rows : List Row} :
    ∀ row ∈ presentRows cell operator rows, keyPresent (groupKeys cell operator row) = true :=
  fun _ member => by simpa using List.of_mem_filter member

theorem take_groupKeys (row : Row) (rest : List (Cell ν)) :
    (groupKeys cell operator row ++ rest).take operator.groupBy.length = groupKeys cell operator row :=
  List.take_left' (List.length_map _)

theorem openAggregate_supported {count : Nat} {compiled next : Compiled} {item : NamedExpression}
    (ran : openAggregate count compiled item = .ok next) :
    columnwise item.expr = true ∨
      count = 1 ∧ ∃ argument type, item.expr = .aggregate .countDistinct argument type := by
  unfold openAggregate at ran
  split at ran
  · rename_i isCount
    rw [isCount]
    exact .inl rfl
  · rename_i function argument type isAggregate
    cases function with
    | countDistinct =>
      right
      by_cases alone : count = 1
      · exact ⟨alone, argument, type, isAggregate⟩
      · simp [alone] at ran
    | _ =>
      rw [isAggregate]
      exact .inl rfl
  · cases ran

theorem openAggregates_supported {count : Nat} {aggregates : List NamedExpression} {compiled next : Compiled}
    (ran : aggregates.foldlM (openAggregate count) compiled = .ok next) :
    ∀ item ∈ aggregates, columnwise item.expr = true ∨
      count = 1 ∧ ∃ argument type, item.expr = .aggregate .countDistinct argument type := by
  induction aggregates generalizing compiled with
  | nil => exact List.forall_mem_nil _
  | cons item aggregates hypothesis =>
    rw [List.foldlM_cons] at ran
    obtain ⟨middle, firstRan, restRan⟩ := bind_eq_ok.mp ran
    exact List.forall_mem_cons.mpr ⟨openAggregate_supported firstRan, hypothesis restRan⟩

/-- An operator that opens has keys and aggregates it supports. -/
theorem supported_of_opened {compiled : Compiled} (opened : operator.openOperator = .ok compiled) :
    operator.groupBy ≠ [] ∧ Supported operator.aggregates := by
  unfold HashAggregateOperator.openOperator at opened
  by_cases keyless : operator.groupBy.isEmpty = true
  · rw [if_pos keyless] at opened
    cases opened
  · rw [if_neg keyless] at opened
    refine ⟨fun none => keyless (List.isEmpty_iff.mpr none), ?_⟩
    have each := openAggregates_supported opened
    by_cases plain : ∀ item ∈ operator.aggregates, columnwise item.expr = true
    · exact .columns plain
    · push Not at plain
      obtain ⟨item, member, notPlain⟩ := plain
      obtain ⟨alone, argument, type, isDistinct⟩ := (each item member).resolve_left notPlain
      obtain ⟨only, sole⟩ := List.length_eq_one_iff.mp alone
      rw [sole] at member
      obtain rfl := List.mem_singleton.mp member
      obtain ⟨expr, name⟩ := item
      cases isDistinct
      rw [sole]
      exact .distinctCount argument type name

variable [AddCommMonoidWithOne ν]

/-- The columns with a present key are those of the rows with a present key. -/
theorem batchColumns_presentRows (compiled : Compiled) (rows : List Row) :
    (batchColumns cell operator compiled rows).filter
        (fun row => keyPresent (row.take operator.groupBy.length)) =
      batchColumns cell operator compiled (presentRows cell operator rows) := by
  unfold batchColumns buildCombinedColumns presentRows
  cases compiled.countDistinctArgument <;>
    simp only [List.filter_map, Function.comp_def, take_groupKeys]

variable [LinearOrder ν] (cudf : CudfGroupby ν) (divide : ν → ν → ν)

theorem groupsOf_presentRows (compiled : Compiled) (rows : List Row) :
    groupsOf operator compiled (batchColumns cell operator compiled (presentRows cell operator rows)) =
      groupsOf operator compiled (batchColumns cell operator compiled rows) := by
  rw [← batchColumns_presentRows]
  simp only [groupsOf, List.filter_map, List.filter_filter, Function.comp_def, splitRow, Bool.and_self]

/-- Grouping the pairs left after duplicates are removed does not see the pairs with a null key. -/
theorem finalize_present {compiled : Compiled} {argument : Expression}
    (mode : compiled.countDistinctArgument = some argument) {progress : Progress ν} {table : Table ν}
    (seen : progress.anyBatchSeen = true) (held : progress.accumulated = some table) {result other : Table ν}
    (finished : finalize cudf operator compiled divide progress = .ok result)
    (otherFinished : finalize cudf operator compiled divide { progress with
      accumulated := some (table.filter (fun row => keyPresent (row.take operator.groupBy.length))) } =
        .ok other) :
    result.Perm other := by
  simp only [finalize, seen, held, mode, Bool.not_true, Bool.false_eq_true, if_false] at finished otherFinished
  rw [← Except.ok.inj finished, ← Except.ok.inj otherFinished]
  have same := cudf.groupby_perm [.countValid] (table.map (splitRow operator.groupBy.length))
  have otherSame := cudf.groupby_perm [.countValid]
    ((table.filter (fun row => keyPresent (row.take operator.groupBy.length))).map
      (splitRow operator.groupBy.length))
  have selected : ((table.filter (fun row => keyPresent (row.take operator.groupBy.length))).map
      (splitRow operator.groupBy.length)).filter (fun entry => keyPresent entry.1) =
        (table.map (splitRow operator.groupBy.length)).filter (fun entry => keyPresent entry.1) := by
    simp only [List.filter_map, List.filter_filter, Function.comp_def, splitRow, Bool.and_self]
  rw [selected] at otherSame
  exact (same.trans otherSame.symm).map _

/-- What the operator returns for rows with any keys: the groups of the rows whose keys have no
null. -/
theorem execute_present {batches : List (List Row)} {result : Table ν}
    (ran : execute cudf cell operator divide batches = .ok result) :
    result.Perm (groupedOnce cell divide operator (presentRows cell operator batches.flatten)) := by
  simp only [execute, bind_eq_ok] at ran
  obtain ⟨compiled, opened, progress, absorbed, flushed, flushRan, finished⟩ := ran
  obtain ⟨keyed, supported⟩ := supported_of_opened operator opened
  obtain ⟨other, opens⟩ := opens cudf cell divide operator keyed supported
  obtain rfl : compiled = other := Except.ok.inj (opened.symm.trans opens.opened)
  have whole : (batches.foldlM (processBatch cudf cell operator compiled) .initial >>=
      flushPending cudf operator compiled) = .ok flushed := bind_eq_ok.mpr ⟨progress, absorbed, flushRan⟩
  rcases run_absorbed cudf cell operator compiled batches with ⟨final, finalRan, outcome⟩ | ⟨_, _, failed⟩
  · obtain rfl : flushed = final := Except.ok.inj (whole.symm.trans finalRan)
    rcases outcome with ⟨unseen, rfl⟩ | ⟨seen, table, held, summary, _⟩
    · simp only [finalize, unseen, Bool.not_false, if_true] at finished
      rw [← Except.ok.inj finished]
      exact .refl _
    · have present : ∀ row ∈ presentRows cell operator batches.flatten,
          keyPresent (groupKeys cell operator row) = true := keyPresent_presentRows cell operator
      cases mode : compiled.countDistinctArgument with
      | none =>
        have kept : table.Perm ((summaryOf operator compiled).summarise
            (batchColumns cell operator compiled (presentRows cell operator batches.flatten))) := by
          simpa only [summaryOf, mode, groupSummary, groupsOf_presentRows] using summary
        obtain ⟨grouped, groupedRan, same⟩ := opens.finishes present seen held kept
        obtain rfl : result = grouped := Except.ok.inj (finished.symm.trans groupedRan)
        exact same
      | some argument =>
        have kept : (table.filter (fun row => keyPresent (row.take operator.groupBy.length))).Perm
            ((summaryOf operator compiled).summarise
              (batchColumns cell operator compiled (presentRows cell operator batches.flatten))) := by
          simp only [summaryOf, mode, distinctSummary] at summary ⊢
          refine (summary.filter _).trans (.of_eq ?_)
          rw [← distinct_filter, batchColumns_presentRows]
        obtain ⟨grouped, groupedRan, same⟩ := @Opens.finishes _ _ _ cudf cell divide operator compiled opens _
          { flushed with accumulated := some _ } _ present seen rfl kept
        exact (finalize_present operator cudf divide mode seen held finished groupedRan).trans same
  · rw [whole] at failed
    cases failed

end Present

/-! ## Where they meet -/

section Agreement

variable [AddCommMonoidWithOne ν] [LinearOrder ν]
variable (cudf : CudfGroupby ν) {divide : ν → ν → ν} (acero : AceroAggregation ν divide)
variable (columnCell : Nat → Row → Cell ν) (compute : Expression → Row → Cell ν)
variable (compileExpressionCpu : Expression → Except String Unit) (operator : HashAggregateOperator)

theorem take_grouped (cell : Expression → Row → Cell ν) {rows : List Row} {row : List (Cell ν)}
    (member : row ∈ groupedOnce cell divide operator rows) :
    ∃ source ∈ rows, row.take operator.groupBy.length = groupKeys cell operator source := by
  obtain ⟨group, inGroups, rfl⟩ := List.mem_map.mp member
  obtain ⟨key, inKeys, rfl⟩ := List.mem_map.mp inGroups
  obtain ⟨source, inRows, rfl⟩ := List.mem_map.mp (mem_distinct.mp inKeys)
  exact ⟨source, inRows, take_groupKeys cell operator source _⟩

/-- When both backends accept an aggregation, they return the same groups exactly when no key has a
null. -/
theorem groupings_agree_iff {batches : List (List Row)} {gpu cpu : Table ν}
    (gpuRan : execute cudf (materialize columnCell compute) operator divide batches = .ok gpu)
    (cpuRan : executeCpu columnCell compute acero compileExpressionCpu operator.groupBy operator.aggregates
      batches.flatten = .ok cpu) :
    gpu.Perm cpu ↔ ∀ row ∈ batches.flatten,
      keyPresent (groupKeys (materialize columnCell compute) operator row) = true := by
  have gpuGroups := execute_present (materialize columnCell compute) operator cudf divide gpuRan
  have cpuGroups := executeCpu_perm cpuRan
  rw [gpuGroups.congr_left, cpuGroups.congr_right]
  constructor
  · intro same row member
    -- The group of the row has its key, and the GPU reports present keys only.
    have grouped : groupKeys (materialize columnCell compute) operator row ++
        operator.aggregates.map (fun item => groupAggregate (materialize columnCell compute) divide item.expr
          (batches.flatten.filter (fun other => groupKeys (materialize columnCell compute) operator other =
            groupKeys (materialize columnCell compute) operator row))) ∈
        groupedOnce (materialize columnCell compute) divide operator batches.flatten := by
      refine List.mem_map.mpr ⟨(_, _), List.mem_map.mpr ⟨_, ?_, rfl⟩, rfl⟩
      exact mem_distinct.mpr (List.mem_map_of_mem member)
    obtain ⟨source, inPresent, taken⟩ := take_grouped operator _ (same.mem_iff.mpr grouped)
    rw [take_groupKeys] at taken
    rw [taken]
    exact keyPresent_presentRows _ operator source inPresent
  · intro present
    rw [presentRows, List.filter_eq_self.mpr present]

end Agreement

/-- The integer in a column. -/
def integerColumn (index : Nat) (row : Row) : Cell Int :=
  match row.getD index .null with
  | .int value => some value
  | _ => none

theorem groupings_agree_sales :
    ∃ gpu cpu,
      execute (.inOrder Int) (materialize integerColumn fun _ _ => none) countedSales (· / ·) salesBatches =
          .ok gpu ∧
        executeCpu integerColumn (fun _ _ => none) (.inOrder Int (· / ·)) (fun _ => .ok ()) countedSales.groupBy
          countedSales.aggregates salesBatches.flatten = .ok cpu ∧
        gpu.Perm cpu :=
  ⟨_, _, rfl, rfl, (groupings_agree_iff (.inOrder Int) (.inOrder Int (· / ·)) integerColumn (fun _ _ => none)
    (fun _ => .ok ()) countedSales rfl rfl).mpr (by decide)⟩

/-- Two sales in no region: the CPU reports them as a group, the GPU does not. -/
theorem groupings_disagree :
    ¬ ∀ (cudf : CudfGroupby Int) (acero : AceroAggregation Int (· / ·))
        (columnCell : Nat → Row → Cell Int) (compute : Expression → Row → Cell Int)
        (compileExpressionCpu : Expression → Except String Unit) (operator : HashAggregateOperator)
        (batches : List (List Row)) (gpu cpu : Table Int),
      execute cudf (materialize columnCell compute) operator (· / ·) batches = .ok gpu →
        executeCpu columnCell compute acero compileExpressionCpu operator.groupBy operator.aggregates
          batches.flatten = .ok cpu →
        gpu.Perm cpu := by
  intro agree
  have same := agree (.inOrder Int) (.inOrder Int (· / ·)) integerColumn (fun _ _ => none) (fun _ => .ok ())
    countedSales [[[.null, .int 10], [.null, .int 20]]] [] [[none, some 30, some 15, some 2, some 2]] rfl rfl
  exact List.cons_ne_nil _ _ (List.nil_perm.mp same)

end KernelLake.AggregateBackends
