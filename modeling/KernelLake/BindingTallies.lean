import KernelLake.AggregatePlanning
import KernelLake.PlannedColumns

/-!
What binding neither adds nor drops.

An expression is marked where one of its parts is. Binding types an expression and inserts casts, so a bound
expression is marked exactly if the written one is, for every kind of mark that columns and aggregate
calls decide. Two marks are of use: having an aggregate call, and having a column.
-/

namespace KernelLake.BindingTallies

open KernelLake.Types KernelLake.Expressions KernelLake.SqlAst KernelLake.Binder KernelLake.BindingProofs
open KernelLake.BindingSteps KernelLake.AggregatePlanning KernelLake.PlannedColumns
open KernelLake.Library.Results

/-! ## Marks -/

/-- Bound expressions that are marked where a part of them is. -/
structure Marks (marked : Expression → Bool) (branchesMarked : CaseBranches → Bool) : Prop where
  literal : ∀ value type, marked (.literal value type) = false
  binary : ∀ op left right type, marked (.binary op left right type) = (marked left || marked right)
  unary : ∀ op operand type, marked (.unary op operand type) = marked operand
  cast : ∀ operand type, marked (.cast operand type) = marked operand
  extract : ∀ part operand type, marked (.extract part operand type) = marked operand
  substring : ∀ operand start length type, marked (.substring operand start length type) = marked operand
  between : ∀ value lower upper, marked (.between value lower upper) =
    (marked value || marked lower || marked upper)
  like : ∀ value pattern negated, marked (.like value pattern negated) = marked value
  caseWhen : ∀ branches type, marked (.caseWhen branches type) = branchesMarked branches
  done : branchesMarked .done = false
  otherwise : ∀ result, branchesMarked (.otherwise result) = marked result
  when : ∀ condition result rest, branchesMarked (.when condition result rest) =
    (marked condition || marked result || branchesMarked rest)

/-- Written expressions that are marked where a part of them is. A pattern is a literal. -/
structure WrittenMarks {Statement : Type} (marked : AstExpr Statement → Bool)
    (listMarked : AstExprList Statement → Bool) (branchesMarked : AstBranches Statement → Bool) : Prop where
  literal : ∀ value, marked (.literal value) = false
  binary : ∀ op left right, marked (.binary op left right) = (marked left || marked right)
  unary : ∀ op operand, marked (.unary op operand) = marked operand
  cast : ∀ operand name precision scale, marked (.cast operand name precision scale) = marked operand
  extract : ∀ part operand, marked (.extract part operand) = marked operand
  substring : ∀ operand start length, marked (.substring operand start length) = marked operand
  between : ∀ value lower upper, marked (.between value lower upper) =
    (marked value || marked lower || marked upper)
  like : ∀ value pattern negated, marked (.like value (.literal pattern) negated) = marked value
  inList : ∀ value list negated, marked (.inList value list negated) = (marked value || listMarked list)
  caseWhen : ∀ condition result rest, marked (.caseWhen condition result rest) =
    (marked condition || marked result || branchesMarked rest)
  nil : listMarked .nil = false
  cons : ∀ head tail, listMarked (.cons head tail) = (marked head || listMarked tail)
  done : branchesMarked .done = false
  otherwise : ∀ result, branchesMarked (.otherwise result) = marked result
  when : ∀ condition result rest, branchesMarked (.when condition result rest) =
    (marked condition || marked result || branchesMarked rest)

section Operators

variable {marked : Expression → Bool} {branchesMarked : CaseBranches → Bool}

/-- Operators over unmarked operands are unmarked. -/
theorem Marks.hereditary (marks : Marks marked branchesMarked) :
    Hereditary (fun expression => marked expression = false) (fun branches => branchesMarked branches = false) where
  literal value type _ := marks.literal value type
  retyped _ _ _ _ := marks.literal _ _
  binary op type _ left right := by rw [marks.binary, left, right, Bool.or_self]
  unary op type _ operand := by rw [marks.unary, operand]
  cast type operand := by rw [marks.cast, operand]
  extract part type _ operand := by rw [marks.extract, operand]
  substring start length type _ operand := by rw [marks.substring, operand]
  between value lower upper := by rw [marks.between, value, lower, upper, Bool.or_self, Bool.or_self]
  like pattern negated value := by rw [marks.like, value]
  caseWhen type _ branches := by rw [marks.caseWhen, branches]
  done := marks.done
  otherwise result := by rw [marks.otherwise, result]
  when condition result rest := by rw [marks.when, condition, result, rest, Bool.or_self, Bool.or_self]

/-- The parts of an unmarked expression are unmarked. -/
theorem Marks.handedDown (marks : Marks marked branchesMarked) :
    HandedDown (fun expression => marked expression = false) (fun branches => branchesMarked branches = false) where
  binary held := Bool.or_eq_false_iff.mp ((marks.binary ..).symm.trans held)
  unary held := (marks.unary ..).symm.trans held
  cast held := (marks.cast ..).symm.trans held
  extract held := (marks.extract ..).symm.trans held
  substring held := (marks.substring ..).symm.trans held
  between held := by
    obtain ⟨inner, upper⟩ := Bool.or_eq_false_iff.mp ((marks.between ..).symm.trans held)
    obtain ⟨value, lower⟩ := Bool.or_eq_false_iff.mp inner
    exact ⟨value, lower, upper⟩
  like held := (marks.like ..).symm.trans held
  caseWhen held := (marks.caseWhen ..).symm.trans held
  otherwise held := (marks.otherwise ..).symm.trans held
  when held := by
    obtain ⟨inner, rest⟩ := Bool.or_eq_false_iff.mp ((marks.when ..).symm.trans held)
    obtain ⟨condition, result⟩ := Bool.or_eq_false_iff.mp inner
    exact ⟨condition, result, rest⟩

theorem marked_castIfNeeded (marks : Marks marked branchesMarked) {expression result : Expression}
    {target : DataType} (ran : castIfNeeded expression target = .ok result) :
    marked result = marked expression := by
  unfold castIfNeeded at ran
  simp only at ran
  split at ran
  · rw [← Except.ok.inj ran]
  · split at ran
    · split at ran
      · split at ran
        · cases ran
        · rw [← Except.ok.inj ran, marks.literal, marks.literal]
      · cases ran
    · rw [← Except.ok.inj ran, marks.cast]

theorem marked_combineBinary (marks : Marks marked branchesMarked) {op : BinaryOperator}
    {left right result : Expression} (ran : combineBinary op left right = .ok result) :
    marked result = (marked left || marked right) := by
  unfold combineBinary at ran
  simp only at ran
  split at ran
  · split at ran
    · cases ran
    · simp only [bind_eq_ok, pure_eq_ok] at ran
      obtain ⟨_, _, left', leftRan, right', rightRan, rfl⟩ := ran
      rw [marks.binary, marked_castIfNeeded marks leftRan, marked_castIfNeeded marks rightRan]
  · split at ran
    · split at ran
      · cases ran
      · rw [← Except.ok.inj ran, marks.binary]
    · split at ran
      · rw [← Except.ok.inj ran, marks.binary]
      · split at ran
        · simp only [bind_eq_ok, pure_eq_ok] at ran
          obtain ⟨_, _, left', leftRan, right', rightRan, rfl⟩ := ran
          rw [marks.binary, marked_castIfNeeded marks leftRan, marked_castIfNeeded marks rightRan]
        · cases ran

theorem marked_combineUnary (marks : Marks marked branchesMarked) {op : UnaryOperator}
    {operand result : Expression} (ran : combineUnary op operand = .ok result) :
    marked result = marked operand := by
  unfold combineUnary at ran
  cases op with
  | not | isNull | isNotNull =>
    first
      | rw [← Except.ok.inj ran, marks.unary]
      | simp only at ran
        split at ran
        · cases ran
        · rw [← Except.ok.inj ran, marks.unary]
  | negate =>
    simp only at ran
    split at ran
    · cases ran
    · split at ran
      · cases ran
      · rw [← Except.ok.inj ran, marks.unary]

theorem marked_unifyBound (marks : Marks marked branchesMarked) {value bound result : Expression}
    {side : String} (ran : unifyBound value bound side = .ok result) : marked result = marked bound := by
  unfold unifyBound at ran
  simp only at ran
  split at ran
  · rw [← Except.ok.inj ran]
  · split at ran
    · obtain ⟨_, _, castRan⟩ := bind_eq_ok.mp ran
      exact marked_castIfNeeded marks castRan
    · cases ran

theorem marked_combineBetween (marks : Marks marked branchesMarked) {value lower upper result : Expression}
    (ran : combineBetween value lower upper = .ok result) :
    marked result = (marked value || marked lower || marked upper) := by
  unfold combineBetween at ran
  obtain ⟨lower', lowerRan, ran⟩ := bind_eq_ok.mp ran
  obtain ⟨upper', upperRan, ran⟩ := bind_eq_ok.mp ran
  have lowerSame := marked_unifyBound marks lowerRan
  have upperSame := marked_unifyBound marks upperRan
  split at ran
  · simp only [bind_eq_ok, pure_eq_ok] at ran
    obtain ⟨_, _, _, _, value'', valueRan, lower'', lowerRan', upper'', upperRan', rfl⟩ := ran
    rw [marks.between, marked_castIfNeeded marks valueRan, marked_castIfNeeded marks lowerRan',
      marked_castIfNeeded marks upperRan', lowerSame, upperSame]
  · rw [← pure_eq_ok.mp ran, marks.between, lowerSame, upperSame]

/-- An aggregate call is over its argument, cast or not. -/
theorem combineAggregate_eq_ok (marks : Marks marked branchesMarked) {function : AggregateFunction}
    {argument result : Expression} (ran : combineAggregate function argument = .ok result) :
    ∃ argument' type, result = .aggregate function argument' type ∧ marked argument' = marked argument := by
  unfold combineAggregate at ran
  cases function with
  | sum =>
    simp only at ran
    split at ran
    · cases ran
    · split at ran
      · exact ⟨argument, _, (Except.ok.inj ran).symm, rfl⟩
      · simp only [bind_eq_ok, pure_eq_ok] at ran
        obtain ⟨argument', castRan, rfl⟩ := ran
        exact ⟨argument', _, rfl, marked_castIfNeeded marks castRan⟩
  | avg =>
    simp only at ran
    split at ran
    · cases ran
    · split at ran
      · cases ran
      · exact ⟨argument, _, (Except.ok.inj ran).symm, rfl⟩
  | count | countDistinct | min | max => exact ⟨argument, _, (Except.ok.inj ran).symm, rfl⟩

theorem marked_combineExtract (marks : Marks marked branchesMarked) {part : DatePart}
    {operand result : Expression} (ran : combineExtract part operand = .ok result) :
    marked result = marked operand := by
  unfold combineExtract at ran
  simp only at ran
  split at ran
  · cases ran
  · rw [← Except.ok.inj ran, marks.extract]

theorem marked_combineSubstring (marks : Marks marked branchesMarked) {operand result : Expression}
    {start length : Int} (ran : combineSubstring operand start length = .ok result) :
    marked result = marked operand := by
  unfold combineSubstring at ran
  simp only at ran
  split at ran
  · cases ran
  · split at ran
    · cases ran
    · split at ran
      · cases ran
      · rw [← Except.ok.inj ran, marks.substring]

/-- Whether a part of a `CASE` is marked, before the results are cast to one type. -/
def partsMarked (marked : Expression → Bool) (branches : List (Expression × Expression))
    (otherwise : Option Expression) : Bool :=
  branches.any (fun branch => marked branch.1 || marked branch.2) || otherwise.any marked

theorem marked_castBranches (marks : Marks marked branchesMarked) {common : DataType}
    {branches : List (Expression × Expression)} {otherwise : Option Expression} {result : CaseBranches}
    (ran : castBranches common branches otherwise = .ok result) :
    branchesMarked result = partsMarked marked branches otherwise := by
  induction branches generalizing result with
  | nil =>
    cases otherwise with
    | none =>
      rw [← pure_eq_ok.mp ran, marks.done]
      rfl
    | some expression =>
      simp only [castBranches, bind_eq_ok, pure_eq_ok] at ran
      obtain ⟨cast, castRan, rfl⟩ := ran
      rw [marks.otherwise, marked_castIfNeeded marks castRan]
      rfl
  | cons branch branches hypothesis =>
    simp only [castBranches, bind_eq_ok, pure_eq_ok] at ran
    obtain ⟨cast, castRan, rest, restRan, rfl⟩ := ran
    rw [marks.when, marked_castIfNeeded marks castRan, hypothesis restRan]
    simp only [partsMarked, List.any_cons, Bool.or_assoc]

theorem marked_combineCase (marks : Marks marked branchesMarked) {first : Expression × Expression}
    {others : List (Expression × Expression)} {otherwise : Option Expression} {result : Expression}
    (ran : combineCase first others otherwise = .ok result) :
    marked result = partsMarked marked (first :: others) otherwise := by
  unfold combineCase at ran
  simp only [bind_eq_ok, pure_eq_ok] at ran
  obtain ⟨common, _, branches, branchesRan, rfl⟩ := ran
  rw [marks.caseWhen, marked_castBranches marks branchesRan]

end Operators

/-! ## Bound expressions -/

section Bound

variable {Statement : Type} {resolve : Reference → Except String Expression} {marked : Expression → Bool}
  {branchesMarked : CaseBranches → Bool} {written : AstExpr Statement → Bool}
  {listWritten : AstExprList Statement → Bool} {branchesWritten : AstBranches Statement → Bool}

/-- Columns and aggregate calls are marked alike before and after binding. -/
structure Agree (resolve : Reference → Except String Expression) (marked : Expression → Bool)
    (written : AstExpr Statement → Bool) : Prop where
  column : ∀ name table column, resolve ⟨name, table⟩ = .ok column →
    marked column = written (.columnRef name table)
  aggregate : ∀ function argument written' type, marked argument = written written' →
    marked (.aggregate function argument type) = written (.aggregate function written')
  countStar : ∀ type, marked (.countStar type) = written .countStar

theorem written_untypedNull (writtenMarks : WrittenMarks written listWritten branchesWritten)
    {expression : AstExpr Statement} (untyped : isUntypedNull expression = true) : written expression = false := by
  unfold isUntypedNull at untyped
  split at untyped
  · exact writtenMarks.literal _
  · cases untyped

theorem written_like (writtenMarks : WrittenMarks written listWritten branchesWritten) {value bound : Expression}
    {writtenValue pattern : AstExpr Statement} {negated : Bool}
    (ran : combineLike value pattern negated = .ok bound) :
    written (.like writtenValue pattern negated) = written writtenValue ∧
      ∃ text, bound = .like value text negated := by
  unfold combineLike at ran
  split at ran
  · cases ran
  · split at ran
    · exact ⟨writtenMarks.like _ _ _, _, (Except.ok.inj ran).symm⟩
    · cases ran

mutual

/-- A bound expression is marked exactly if the written one is. -/
theorem bindWith_marked (marks : Marks marked branchesMarked)
    (writtenMarks : WrittenMarks written listWritten branchesWritten) (agree : Agree resolve marked written)
    (allowAggregates : Bool) : (expression : AstExpr Statement) → (result : Expression) →
      bindWith resolve allowAggregates expression = .ok result → marked result = written expression
  | .columnRef name table, result, ran => by
    simp only [bindWith] at ran
    exact agree.column name table result ran
  | .star, result, ran => by
    rw [bindWith] at ran
    cases ran
  | .literal value, result, ran => by
    simp only [bindWith, Except.ok.injEq] at ran
    rw [← ran, writtenMarks.literal]
    cases value <;> exact marks.literal _ _
  | .binary op left right, result, ran => by
    simp only [bindWith] at ran
    rw [writtenMarks.binary]
    split at ran
    · rename_i untyped
      obtain ⟨right', rightRan, combined⟩ := bind_eq_ok.mp ran
      rw [marked_combineBinary marks combined, makeNull, marks.literal,
        written_untypedNull writtenMarks (Bool.and_eq_true_iff.mp untyped).1,
        bindWith_marked marks writtenMarks agree allowAggregates right right' rightRan]
    · split at ran
      · rename_i untyped
        obtain ⟨left', leftRan, combined⟩ := bind_eq_ok.mp ran
        rw [marked_combineBinary marks combined, makeNull, marks.literal,
          written_untypedNull writtenMarks (Bool.and_eq_true_iff.mp untyped).1,
          bindWith_marked marks writtenMarks agree allowAggregates left left' leftRan]
      · simp only [bind_eq_ok] at ran
        obtain ⟨left', leftRan, right', rightRan, combined⟩ := ran
        rw [marked_combineBinary marks combined,
          bindWith_marked marks writtenMarks agree allowAggregates left left' leftRan,
          bindWith_marked marks writtenMarks agree allowAggregates right right' rightRan]
  | .unary op operand, result, ran => by
    simp only [bindWith, bind_eq_ok] at ran
    obtain ⟨operand', operandRan, combined⟩ := ran
    rw [writtenMarks.unary, marked_combineUnary marks combined,
      bindWith_marked marks writtenMarks agree allowAggregates operand operand' operandRan]
  | .between value lower upper, result, ran => by
    simp only [bindWith, bind_eq_ok] at ran
    obtain ⟨value', valueRan, lower', lowerRan, upper', upperRan, combined⟩ := ran
    rw [writtenMarks.between, marked_combineBetween marks combined,
      bindWith_marked marks writtenMarks agree allowAggregates value value' valueRan,
      bindWith_marked marks writtenMarks agree allowAggregates lower lower' lowerRan,
      bindWith_marked marks writtenMarks agree allowAggregates upper upper' upperRan]
  | .aggregate function argument, result, ran => by
    simp only [bindWith] at ran
    split at ran
    · cases ran
    · split at ran
      · cases ran
      · obtain ⟨argument', argumentRan, combined⟩ := bind_eq_ok.mp ran
        obtain ⟨cast, type, rfl, same⟩ := combineAggregate_eq_ok marks combined
        refine agree.aggregate function cast argument type (same.trans ?_)
        exact bindWith_marked marks writtenMarks agree false argument argument' argumentRan
  | .countStar, result, ran => by
    simp only [bindWith] at ran
    split at ran
    · cases ran
    · rw [← Except.ok.inj ran]
      exact agree.countStar _
  | .like value pattern negated, result, ran => by
    simp only [bindWith, bind_eq_ok] at ran
    obtain ⟨value', valueRan, combined⟩ := ran
    obtain ⟨same, text, rfl⟩ := written_like writtenMarks combined
    rw [marks.like, same, bindWith_marked marks writtenMarks agree allowAggregates value value' valueRan]
  | .inList value list negated, result, ran => by
    simp only [bindWith] at ran
    split at ran
    · cases ran
    · rename_i nonempty
      simp only [bind_eq_ok] at ran
      obtain ⟨value', valueRan, comparison, listRan, built⟩ := ran
      have valueSame := bindWith_marked marks writtenMarks agree allowAggregates value value' valueRan
      have compared : marked (comparison.getD value') = (written value || listWritten list) := by
        rw [bindItems_marked marks writtenMarks agree allowAggregates list value' none comparison listRan,
          Option.getD_none, valueSame]
        cases written value <;> simp [nonempty]
      rw [writtenMarks.inList, ← compared]
      split at built
      · rw [← pure_eq_ok.mp built, marks.unary]
      · rw [← pure_eq_ok.mp built]
  | .inSubquery .., result, ran => by
    rw [bindWith] at ran
    cases ran
  | .caseWhen condition result' rest, result, ran => by
    simp only [bindWith, bind_eq_ok] at ran
    obtain ⟨condition', conditionRan, condition'', checked, bound, resultRan, ⟨others, otherwise⟩, restRan,
      combined⟩ := ran
    obtain ⟨rfl, -⟩ := checkCondition_eq checked
    have restSame := bindBranches_marked marks writtenMarks agree allowAggregates rest others otherwise restRan
    rw [writtenMarks.caseWhen, marked_combineCase marks combined, ← restSame,
      ← bindWith_marked marks writtenMarks agree allowAggregates condition condition' conditionRan,
      ← bindWith_marked marks writtenMarks agree allowAggregates result' bound resultRan]
    simp only [partsMarked, List.any_cons, Bool.or_assoc]
  | .cast operand typeName precision scale, result, ran => by
    simp only [bindWith, bind_eq_ok, pure_eq_ok] at ran
    obtain ⟨operand', operandRan, type, _, rfl⟩ := ran
    rw [writtenMarks.cast, marks.cast,
      bindWith_marked marks writtenMarks agree allowAggregates operand operand' operandRan]
  | .extract part operand, result, ran => by
    simp only [bindWith, bind_eq_ok] at ran
    obtain ⟨operand', operandRan, combined⟩ := ran
    rw [writtenMarks.extract, marked_combineExtract marks combined,
      bindWith_marked marks writtenMarks agree allowAggregates operand operand' operandRan]
  | .substring operand start length, result, ran => by
    simp only [bindWith, bind_eq_ok] at ran
    obtain ⟨operand', operandRan, combined⟩ := ran
    rw [writtenMarks.substring, marked_combineSubstring marks combined,
      bindWith_marked marks writtenMarks agree allowAggregates operand operand' operandRan]
  | .subquery _, result, ran => by
    rw [bindWith] at ran
    cases ran
  | .exists .., result, ran => by
    rw [bindWith] at ran
    cases ran

/-- The comparisons with the items of a list are marked where the value or an item is. -/
theorem bindItems_marked (marks : Marks marked branchesMarked)
    (writtenMarks : WrittenMarks written listWritten branchesWritten) (agree : Agree resolve marked written)
    (allowAggregates : Bool) : (list : AstExprList Statement) → (value : Expression) →
      (sofar result : Option Expression) → bindItems resolve allowAggregates value sofar list = .ok result →
      marked (result.getD value) = (marked (sofar.getD value) || (!list.isEmpty && marked value) || listWritten list)
  | .nil, value, sofar, result, ran => by
    simp only [bindItems, pure_eq_ok] at ran
    rw [← ran, writtenMarks.nil]
    simp [AstExprList.isEmpty]
  | .cons item rest, value, sofar, result, ran => by
    simp only [bindItems, bind_eq_ok] at ran
    obtain ⟨item', itemRan, comparison, combined, next, nextRan, restRan⟩ := ran
    have itemSame : marked item' = written item := by
      split at itemRan
      · rename_i untyped
        rw [← Except.ok.inj itemRan, makeNull, marks.literal, written_untypedNull writtenMarks untyped]
      · exact bindWith_marked marks writtenMarks agree allowAggregates item item' itemRan
    have nextSame : marked next = (marked (sofar.getD value) || marked value || written item) := by
      cases sofar with
      | none =>
        rw [← pure_eq_ok.mp nextRan, marked_combineBinary marks combined, itemSame]
        simp
      | some previous =>
        rw [Option.elim_some] at nextRan
        rw [marked_combineBinary marks nextRan, marked_combineBinary marks combined, itemSame]
        simp [Bool.or_assoc]
    rw [bindItems_marked marks writtenMarks agree allowAggregates rest value (some next) result restRan,
      Option.getD_some, nextSame, writtenMarks.cons]
    cases marked (sofar.getD value) <;> cases marked value <;> cases written item <;>
      simp [AstExprList.isEmpty]

theorem bindBranches_marked (marks : Marks marked branchesMarked)
    (writtenMarks : WrittenMarks written listWritten branchesWritten) (agree : Agree resolve marked written)
    (allowAggregates : Bool) : (branches : AstBranches Statement) →
      (others : List (Expression × Expression)) → (otherwise : Option Expression) →
      bindBranches resolve allowAggregates branches = .ok (others, otherwise) →
      partsMarked marked others otherwise = branchesWritten branches
  | .done, others, otherwise, ran => by
    simp only [bindBranches, pure_eq_ok, Prod.mk.injEq] at ran
    obtain ⟨rfl, rfl⟩ := ran
    rw [writtenMarks.done]
    rfl
  | .otherwise result, others, otherwise, ran => by
    simp only [bindBranches, bind_eq_ok, pure_eq_ok, Prod.mk.injEq] at ran
    obtain ⟨result', resultRan, rfl, rfl⟩ := ran
    rw [writtenMarks.otherwise,
      ← bindWith_marked marks writtenMarks agree allowAggregates result result' resultRan]
    rfl
  | .when condition result rest, others, otherwise, ran => by
    simp only [bindBranches, bind_eq_ok, pure_eq_ok] at ran
    obtain ⟨condition', conditionRan, condition'', checked, result', resultRan, ⟨others', otherwise'⟩,
      restRan, same⟩ := ran
    obtain ⟨rfl, -⟩ := checkCondition_eq checked
    simp only [Prod.mk.injEq] at same
    obtain ⟨rfl, rfl⟩ := same
    rw [writtenMarks.when,
      ← bindWith_marked marks writtenMarks agree allowAggregates condition condition' conditionRan,
      ← bindWith_marked marks writtenMarks agree allowAggregates result result' resultRan,
      ← bindBranches_marked marks writtenMarks agree allowAggregates rest others' otherwise' restRan]
    simp only [partsMarked, List.any_cons, Bool.or_assoc]

end

end Bound

/-! ## Aggregate calls and columns -/

theorem marks_aggregate : Marks hasAggregate branchesHaveAggregate where
  literal _ _ := rfl
  binary _ _ _ _ := rfl
  unary _ _ _ := rfl
  cast _ _ := rfl
  extract _ _ _ := rfl
  substring _ _ _ _ := rfl
  between _ _ _ := rfl
  like _ _ _ := rfl
  caseWhen _ _ := rfl
  done := rfl
  otherwise _ := rfl
  when _ _ _ := rfl

theorem writtenMarks_aggregate {Statement : Type} :
    WrittenMarks (@containsAggregate Statement) listContainsAggregate branchesContainAggregate where
  literal _ := rfl
  binary _ _ _ := rfl
  unary _ _ := rfl
  cast _ _ _ _ := rfl
  extract _ _ := rfl
  substring _ _ _ := rfl
  between _ _ _ := rfl
  like _ _ _ := Bool.or_false _
  inList _ _ _ := rfl
  caseWhen _ _ _ := rfl
  nil := rfl
  cons _ _ := rfl
  done := rfl
  otherwise _ := rfl
  when _ _ _ := rfl

/-- A bound expression has an aggregate call exactly if the written one has. -/
theorem bind_hasAggregate {Statement : Type} {scope : Scope} {allowAggregates : Bool}
    {expression : AstExpr Statement} {bound : Expression}
    (ran : bind scope allowAggregates expression = .ok bound) :
    hasAggregate bound = containsAggregate expression := by
  refine bindWith_marked marks_aggregate writtenMarks_aggregate ⟨fun name table column resolved => ?_,
    fun _ _ _ _ _ => rfl, fun _ => rfl⟩ allowAggregates expression bound ran
  obtain ⟨_, _, _, rfl⟩ := JoinBinding.bindColumnRef_column resolved
  rfl

/-- Whether an expression has a column. -/
def hasColumn (expression : Expression) : Bool :=
  !(columnUses expression).isEmpty

def branchesHaveColumn (branches : CaseBranches) : Bool :=
  !(branchUses branches).isEmpty

def refers {Statement : Type} (expression : AstExpr Statement) : Bool :=
  !(references expression).isEmpty

def listRefers {Statement : Type} (list : AstExprList Statement) : Bool :=
  !(listReferences list).isEmpty

def branchesRefer {Statement : Type} (branches : AstBranches Statement) : Bool :=
  !(branchReferences branches).isEmpty

theorem nonempty_append {α : Type} (first second : List α) :
    (!(first ++ second).isEmpty) = (!first.isEmpty || !second.isEmpty) := by
  cases first <;> rfl

theorem marks_column : Marks hasColumn branchesHaveColumn where
  literal _ _ := rfl
  binary _ _ _ _ := nonempty_append _ _
  unary _ _ _ := rfl
  cast _ _ := rfl
  extract _ _ _ := rfl
  substring _ _ _ _ := rfl
  between _ _ _ := by simp only [hasColumn, columnUses, nonempty_append]
  like _ _ _ := rfl
  caseWhen _ _ := rfl
  done := rfl
  otherwise _ := rfl
  when _ _ _ := by simp only [hasColumn, branchesHaveColumn, branchUses, nonempty_append]

theorem writtenMarks_column {Statement : Type} :
    WrittenMarks (@refers Statement) listRefers branchesRefer where
  literal _ := rfl
  binary _ _ _ := nonempty_append _ _
  unary _ _ := rfl
  cast _ _ _ _ := rfl
  extract _ _ := rfl
  substring _ _ _ := rfl
  between _ _ _ := by simp only [refers, references, nonempty_append]
  like _ _ _ := rfl
  inList _ _ _ := nonempty_append _ _
  caseWhen _ _ _ := by simp only [refers, branchesRefer, references, nonempty_append]
  nil := rfl
  cons _ _ := nonempty_append _ _
  done := rfl
  otherwise _ := rfl
  when _ _ _ := by simp only [refers, branchesRefer, branchReferences, nonempty_append]

/-- A bound expression has a column exactly if the written one refers to one. -/
theorem bind_hasColumn {Statement : Type} {scope : Scope} {allowAggregates : Bool}
    {expression : AstExpr Statement} {bound : Expression}
    (ran : bind scope allowAggregates expression = .ok bound) :
    hasColumn bound = refers expression := by
  refine bindWith_marked marks_column writtenMarks_column ⟨fun name table column resolved => ?_,
    fun _ _ _ _ same => same, fun _ => rfl⟩ allowAggregates expression bound ran
  obtain ⟨_, _, _, rfl⟩ := JoinBinding.bindColumnRef_column resolved
  rfl

end KernelLake.BindingTallies
