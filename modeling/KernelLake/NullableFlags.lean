import KernelLake.AggregateConfinement
import KernelLake.ImplicitCasts
import KernelLake.NullSources

/-!
The flags that binding gives.

Arithmetic, comparisons, disjunctions, casts, `CASE`, `EXTRACT`, `SUBSTRING` and aggregate calls are marked
nullable whenever an operand that can make them NULL is, and neither the split of an `ON` condition nor the
rewriting above an aggregation changes a type. So the NULLs of a planned query are marked if none of its expressions
overlooks a source of NULLs that the tables have.
-/

namespace KernelLake.NullableFlags

open KernelLake.Types KernelLake.Expressions KernelLake.Evaluation KernelLake.LogicalPlans KernelLake.SqlAst
open KernelLake.PlanSemantics KernelLake.Binder KernelLake.BoundTypes KernelLake.QueryBinding
open KernelLake.LogicalPlanner KernelLake.BindingSteps KernelLake.BindingProofs KernelLake.QueryBindingProofs
open KernelLake.BoundQueryTypes KernelLake.PlannedColumns KernelLake.JoinBinding KernelLake.Optimizer
open KernelLake.ImplicitCasts KernelLake.Nullability KernelLake.NullSources KernelLake.Library.Results

/-! ## Operators -/

theorem covers_self (type : DataType) : Covers type [type] :=
  covers_single.mpr id

theorem promoteNumeric_nullable {a b common : DataType} (ran : promoteNumeric a b = .ok common) :
    common.nullable = (a.nullable || b.nullable) := by
  unfold promoteNumeric at ran
  simp only at ran
  repeat' split at ran
  all_goals first
    | cases ran; done
    | rw [← Except.ok.inj ran]; done
    | rw [← Except.ok.inj ran]; rfl

theorem promoteNumeric_covers {a b common : DataType} (ran : promoteNumeric a b = .ok common) :
    Covers common [a, b] := by
  refine covers_pair.mpr (fun strict => ?_)
  rw [promoteNumeric_nullable ran] at strict
  exact Bool.or_eq_false_iff.mp strict

/-- What is cast to a type that takes account of its NULLs is flagged, and the type takes account of the
result's. -/
theorem flagged_castIfNeeded {expression result : Expression} {target : DataType}
    (ran : castIfNeeded expression target = .ok result) (covers : Covers target [expression.resultType])
    (flagged : Flagged expression) : Flagged result ∧ Covers target [result.resultType] := by
  rcases castIfNeeded_cases ran with ⟨_, rfl⟩ | ⟨_, value, rfl⟩ | ⟨_, rfl⟩
  · exact ⟨flagged, covers⟩
  · exact ⟨trivial, covers_self target⟩
  · exact ⟨⟨covers, flagged⟩, covers_self target⟩

theorem flagged_castBoth {left right left' right' : Expression} {common type : DataType}
    (promoted : promoteNumeric left.resultType right.resultType = .ok common)
    (leftRan : castIfNeeded left common = .ok left') (rightRan : castIfNeeded right common = .ok right')
    (leftFlagged : Flagged left) (rightFlagged : Flagged right)
    (narrow : type.nullable = false → common.nullable = false) :
    Covers type [left'.resultType, right'.resultType] ∧ Flagged left' ∧ Flagged right' := by
  have covers := covers_pair.mp (promoteNumeric_covers promoted)
  obtain ⟨leftFlagged', leftCovers⟩ :=
    flagged_castIfNeeded leftRan (covers_single.mpr (fun strict => (covers strict).1)) leftFlagged
  obtain ⟨rightFlagged', rightCovers⟩ :=
    flagged_castIfNeeded rightRan (covers_single.mpr (fun strict => (covers strict).2)) rightFlagged
  refine ⟨covers_pair.mpr (fun strict => ?_), leftFlagged', rightFlagged'⟩
  exact ⟨covers_single.mp leftCovers (narrow strict), covers_single.mp rightCovers (narrow strict)⟩

theorem flagged_combineBinary {op : BinaryOperator} {left right result : Expression}
    (ran : combineBinary op left right = .ok result) (leftFlagged : Flagged left) (rightFlagged : Flagged right) :
    Flagged result := by
  have plain : Covers (booleanType (left.resultType.nullable || right.resultType.nullable))
      [left.resultType, right.resultType] :=
    covers_pair.mpr Bool.or_eq_false_iff.mp
  unfold combineBinary at ran
  simp only at ran
  split at ran
  · split at ran
    · cases ran
    · simp only [bind_eq_ok, pure_eq_ok] at ran
      obtain ⟨common, promoted, left', leftRan, right', rightRan, rfl⟩ := ran
      obtain ⟨covers, flagged⟩ := flagged_castBoth promoted leftRan rightRan leftFlagged rightFlagged id
      exact ⟨fun _ => covers, flagged⟩
  · split at ran
    · split at ran
      · cases ran
      · rw [← Except.ok.inj ran]
        exact ⟨fun _ => plain, leftFlagged, rightFlagged⟩
    · split at ran
      · rw [← Except.ok.inj ran]
        exact ⟨fun _ => plain, leftFlagged, rightFlagged⟩
      · split at ran
        · simp only [bind_eq_ok, pure_eq_ok] at ran
          obtain ⟨common, promoted, left', leftRan, right', rightRan, rfl⟩ := ran
          have narrow : (booleanType (left.resultType.nullable || right.resultType.nullable)).nullable = false →
              common.nullable = false :=
            (promoteNumeric_nullable promoted).trans
          obtain ⟨covers, flagged⟩ := flagged_castBoth promoted leftRan rightRan leftFlagged rightFlagged narrow
          exact ⟨fun _ => covers, flagged⟩
        · cases ran

theorem flagged_combineUnary {op : UnaryOperator} {operand result : Expression}
    (ran : combineUnary op operand = .ok result) (flagged : Flagged operand) : Flagged result := by
  unfold combineUnary at ran
  cases op with
  | not =>
    simp only at ran
    split at ran
    · cases ran
    · rw [← Except.ok.inj ran]
      exact ⟨fun isNegate => (by cases isNegate), flagged⟩
  | negate =>
    simp only at ran
    split at ran
    · cases ran
    · split at ran
      · cases ran
      · rw [← Except.ok.inj ran]
        exact ⟨fun _ => covers_self _, flagged⟩
  | isNull | isNotNull =>
    rw [← Except.ok.inj ran]
    exact ⟨fun isNegate => (by cases isNegate), flagged⟩

theorem flagged_unifyBound {value bound result : Expression} {side : String}
    (ran : unifyBound value bound side = .ok result) (flagged : Flagged bound) : Flagged result := by
  unfold unifyBound at ran
  simp only at ran
  split at ran
  · rwa [← Except.ok.inj ran]
  · split at ran
    · obtain ⟨common, promoted, castRan⟩ := bind_eq_ok.mp ran
      have covers := covers_pair.mp (promoteNumeric_covers promoted)
      exact (flagged_castIfNeeded castRan (covers_single.mpr (fun strict => (covers strict).2)) flagged).1
    · cases ran

theorem flagged_combineBetween {value lower upper result : Expression}
    (ran : combineBetween value lower upper = .ok result) (valueFlagged : Flagged value)
    (lowerFlagged : Flagged lower) (upperFlagged : Flagged upper) : Flagged result := by
  unfold combineBetween at ran
  obtain ⟨lower', lowerRan, ran⟩ := bind_eq_ok.mp ran
  obtain ⟨upper', upperRan, ran⟩ := bind_eq_ok.mp ran
  have lowerFlagged' := flagged_unifyBound lowerRan lowerFlagged
  have upperFlagged' := flagged_unifyBound upperRan upperFlagged
  split at ran
  · simp only [bind_eq_ok, pure_eq_ok] at ran
    obtain ⟨first, firstPromoted, common, promoted, _, valueRan, _, lowerRan', _, upperRan', rfl⟩ := ran
    have outer := covers_pair.mp (promoteNumeric_covers promoted)
    have inner := covers_pair.mp (promoteNumeric_covers firstPromoted)
    refine ⟨(flagged_castIfNeeded valueRan (covers_single.mpr fun strict => ?_) valueFlagged).1,
      (flagged_castIfNeeded lowerRan' (covers_single.mpr fun strict => ?_) lowerFlagged').1,
      (flagged_castIfNeeded upperRan' (covers_single.mpr fun strict => (outer strict).2) upperFlagged').1⟩
    · exact (inner (outer strict).1).1
    · exact (inner (outer strict).1).2
  · rw [← pure_eq_ok.mp ran]
    exact ⟨valueFlagged, lowerFlagged', upperFlagged'⟩

theorem flagged_combineAggregate {function : AggregateFunction} {argument result : Expression}
    (ran : combineAggregate function argument = .ok result) (flagged : Flagged argument) : Flagged result := by
  unfold combineAggregate at ran
  cases function with
  | count =>
    rw [← Except.ok.inj ran]
    exact ⟨fun _ => .inl rfl, flagged⟩
  | countDistinct =>
    rw [← Except.ok.inj ran]
    exact ⟨fun _ => .inr rfl, flagged⟩
  | min | max =>
    rw [← Except.ok.inj ran]
    exact ⟨fun strict => (by cases strict), flagged⟩
  | avg =>
    simp only at ran
    split at ran
    · cases ran
    · split at ran
      · cases ran
      · rw [← Except.ok.inj ran]
        exact ⟨fun strict => (by cases strict), flagged⟩
  | sum =>
    simp only at ran
    split at ran
    · cases ran
    · split at ran
      · rw [← Except.ok.inj ran]
        exact ⟨fun strict => (by cases strict), flagged⟩
      · simp only [bind_eq_ok, pure_eq_ok] at ran
        obtain ⟨argument', castRan, rfl⟩ := ran
        -- Sums are nullable, whatever they add.
        have never {anything : Prop} : (if isFloating argument.resultType.id then float64Type true
            else if argument.resultType.id = .uint64 then uint64Type true
            else int64Type true).nullable = false → anything := by
          repeat' split
          all_goals exact fun strict => by cases strict
        exact ⟨never, (flagged_castIfNeeded castRan (fun strict => never strict) flagged).1⟩

theorem flagged_castBranches {common : DataType} {branches : List (Expression × Expression)}
    {otherwise : Option Expression} {result : CaseBranches}
    (ran : castBranches common branches otherwise = .ok result) (parts : PartsHold Flagged branches otherwise)
    (covers : ∀ expression ∈ caseResults branches otherwise, Covers common [expression.resultType]) :
    BranchesFlagged result ∧ Covers common (resultTypes result) ∧ hasElse result = otherwise.isSome := by
  induction branches generalizing result with
  | nil =>
    cases otherwise with
    | none =>
      rw [← pure_eq_ok.mp ran]
      exact ⟨trivial, fun _ => List.forall_mem_nil _, rfl⟩
    | some expression =>
      simp only [castBranches, bind_eq_ok, pure_eq_ok] at ran
      obtain ⟨cast, castRan, rfl⟩ := ran
      obtain ⟨flagged, castCovers⟩ :=
        flagged_castIfNeeded castRan (covers _ (List.mem_singleton.mpr rfl)) (parts.2 expression rfl)
      exact ⟨flagged, castCovers, rfl⟩
  | cons branch branches hypothesis =>
    simp only [castBranches, bind_eq_ok, pure_eq_ok] at ran
    obtain ⟨cast, castRan, rest, restRan, rfl⟩ := ran
    obtain ⟨first, others⟩ := List.forall_mem_cons.mp parts.1
    obtain ⟨firstCovers, othersCover⟩ := List.forall_mem_cons.mp covers
    obtain ⟨castFlagged, castCovers⟩ := flagged_castIfNeeded castRan firstCovers first.2
    obtain ⟨restFlagged, restCovers, closed⟩ := hypothesis restRan ⟨others, parts.2⟩ othersCover
    refine ⟨⟨first.1, castFlagged, restFlagged⟩, fun strict => ?_, closed⟩
    exact List.forall_mem_cons.mpr ⟨covers_single.mp castCovers strict, restCovers strict⟩

theorem flagged_combineCase {first : Expression × Expression} {others : List (Expression × Expression)}
    {otherwise : Option Expression} {result : Expression} (ran : combineCase first others otherwise = .ok result)
    (parts : PartsHold Flagged (first :: others) otherwise) : Flagged result := by
  unfold combineCase at ran
  simp only [bind_eq_ok, pure_eq_ok] at ran
  obtain ⟨common, unified, branches, branchesRan, rfl⟩ := ran
  have covers : ∀ expression ∈ caseResults (first :: others) otherwise,
      Covers ⟨common.id, first.2.resultType.nullable || otherwise.isNone ||
        (others.map (fun branch => branch.2.resultType) ++ otherwise.toList.map Expression.resultType).any
          DataType.nullable, common.precision, common.scale⟩ [expression.resultType] := by
    intro expression member
    refine covers_single.mpr (fun strict => ?_)
    simp only [Bool.or_eq_false_iff, List.any_eq_false, Bool.not_eq_true] at strict
    obtain ⟨⟨firstStrict, _⟩, othersStrict⟩ := strict
    rcases List.mem_cons.mp member with rfl | inOthers
    · exact firstStrict
    · refine othersStrict _ ?_
      rcases List.mem_append.mp inOthers with inBranches | isElse
      · obtain ⟨branch, isBranch, rfl⟩ := List.mem_map.mp inBranches
        exact List.mem_append_left _ (List.mem_map_of_mem isBranch)
      · exact List.mem_append_right _ (List.mem_map_of_mem isElse)
  obtain ⟨flagged, branchesCovered, closed⟩ := flagged_castBranches branchesRan parts covers
  refine ⟨branchesCovered, fun strict => ?_, flagged⟩
  simp only [Bool.or_eq_false_iff] at strict
  rw [closed]
  exact Option.isNone_eq_false_iff.mp strict.1.2

/-- A choice succeeds by one of its branches. -/
theorem ok_of_ite {condition : Prop} [Decidable condition] {first second : Except String DataType}
    {result : DataType} (ran : (if condition then first else second) = .ok result) :
    first = .ok result ∨ second = .ok result := by
  by_cases holds : condition
  · exact .inl ((if_pos holds).symm.trans ran)
  · exact .inr ((if_neg holds).symm.trans ran)

theorem resolveCastTypeName_nullable {name : String} {precision scale : Int} {nullable : Bool} {target : DataType}
    (ran : resolveCastTypeName name precision scale nullable = .ok target) : target.nullable = nullable := by
  have flag {type : DataType} (isFlag : type.nullable = nullable)
      (same : (Except.ok type : Except String DataType) = .ok target) : target.nullable = nullable := by
    rw [← Except.ok.inj same, isFlag]
  unfold resolveCastTypeName at ran
  -- Eight plain types, then the decimals with their three checks.
  iterate 8
    rcases ok_of_ite ran with ran | ran
    · exact flag rfl ran
  rcases ok_of_ite ran with ran | ran
  · iterate 3
      rcases ok_of_ite ran with ran | ran
      · cases ran
    exact flag rfl ran
  · cases ran

/-- Binding flags what it builds. -/
theorem flagged_closed : ClosedUnderBinding Flagged where
  literal value := by cases value <;> exact trivial
  null _ := trivial
  binary := flagged_combineBinary
  unary := flagged_combineUnary
  notIn _ flagged := ⟨fun isNegate => (by cases isNegate), flagged⟩
  between := flagged_combineBetween
  like _ _ _ flagged := flagged
  extract ran flagged := by
    unfold combineExtract at ran
    simp only at ran
    split at ran
    · cases ran
    · rw [← Except.ok.inj ran]
      exact ⟨covers_single.mpr id, flagged⟩
  substring ran flagged := by
    unfold combineSubstring at ran
    simp only at ran
    repeat' split at ran
    all_goals first
      | cases ran; done
      | rw [← Except.ok.inj ran]; exact ⟨covers_single.mpr id, flagged⟩
  cast ran flagged := by
    refine ⟨covers_single.mpr (fun strict => ?_), flagged⟩
    rwa [resolveCastTypeName_nullable ran] at strict
  caseWhen ran _ := flagged_combineCase ran

theorem flagged_callsClosed : CallsClosed Flagged where
  aggregate := flagged_combineAggregate
  countStar := trivial

theorem bind_flagged {Statement : Type} {scope : Scope} {allowAggregates : Bool} {written : AstExpr Statement}
    {bound : Expression} (ran : bind scope allowAggregates written = .ok bound) : Flagged bound := by
  refine bindWith_closed flagged_closed allowAggregates (fun _ => flagged_callsClosed) written
    (fun reference _ column resolved => ?_) bound ran
  obtain ⟨name, index, type, rfl⟩ := bindColumnRef_column resolved
  trivial

/-! ## Renumbering and rewriting -/

theorem hasElse_shiftBranchColumns (delta : Nat) (branches : CaseBranches) :
    hasElse (shiftBranchColumns delta branches) = hasElse branches := by
  fun_induction hasElse branches with
  | case1 => rfl
  | case2 => rfl
  | case3 condition result rest hypothesis => exact hypothesis

mutual

/-- Renumbering columns changes no flag. -/
theorem flagged_shiftColumns (delta : Nat) : (expression : Expression) → Flagged expression →
    Flagged (shiftColumns delta expression)
  | .column .., _ => trivial
  | .literal .., _ => trivial
  | .binary op left right type, ⟨covers, leftFlagged, rightFlagged⟩ => by
    simp only [shiftColumns, Flagged, resultType_shiftColumns]
    exact ⟨covers, flagged_shiftColumns delta left leftFlagged, flagged_shiftColumns delta right rightFlagged⟩
  | .unary op operand type, ⟨covers, flagged⟩ => by
    simp only [shiftColumns, Flagged, resultType_shiftColumns]
    exact ⟨covers, flagged_shiftColumns delta operand flagged⟩
  | .cast operand type, ⟨covers, flagged⟩ => by
    simp only [shiftColumns, Flagged, resultType_shiftColumns]
    exact ⟨covers, flagged_shiftColumns delta operand flagged⟩
  | .extract part operand type, ⟨covers, flagged⟩ => by
    simp only [shiftColumns, Flagged, resultType_shiftColumns]
    exact ⟨covers, flagged_shiftColumns delta operand flagged⟩
  | .substring operand start length type, ⟨covers, flagged⟩ => by
    simp only [shiftColumns, Flagged, resultType_shiftColumns]
    exact ⟨covers, flagged_shiftColumns delta operand flagged⟩
  | .between value lower upper, ⟨valueFlagged, lowerFlagged, upperFlagged⟩ =>
    ⟨flagged_shiftColumns delta value valueFlagged, flagged_shiftColumns delta lower lowerFlagged,
      flagged_shiftColumns delta upper upperFlagged⟩
  | .like value pattern negated, flagged => flagged_shiftColumns delta value flagged
  | .caseWhen branches type, ⟨covers, closed, flagged⟩ => by
    simp only [shiftColumns, Flagged, resultTypes_shiftBranchColumns, hasElse_shiftBranchColumns]
    exact ⟨covers, closed, branchesFlagged_shiftColumns delta branches flagged⟩
  | .aggregate function argument type, flagged => flagged
  | .countStar type, _ => trivial

theorem branchesFlagged_shiftColumns (delta : Nat) : (branches : CaseBranches) → BranchesFlagged branches →
    BranchesFlagged (shiftBranchColumns delta branches)
  | .done, _ => trivial
  | .otherwise result, flagged => flagged_shiftColumns delta result flagged
  | .when condition result rest, ⟨conditionFlagged, resultFlagged, restFlagged⟩ =>
    ⟨flagged_shiftColumns delta condition conditionFlagged, flagged_shiftColumns delta result resultFlagged,
      branchesFlagged_shiftColumns delta rest restFlagged⟩

end

theorem keyColumn_typed {groups : GroupPositions} {expression column : Expression}
    (isKey : keyColumn groups expression = some column) :
    column.resultType = expression.resultType ∧ Flagged column := by
  obtain ⟨_, _, rfl⟩ := Option.map_eq_some_iff.mp isKey
  exact ⟨rfl, trivial⟩

theorem resultType_rewriteAggregateRefs (groups : GroupPositions) (expression : Expression)
    (slots : AggregateSlots) :
    (rewriteAggregateRefs groups expression slots).1.resultType = expression.resultType := by
  unfold rewriteAggregateRefs
  split
  · rename_i isKey
    exact (keyColumn_typed isKey).1
  · cases expression <;> rfl

theorem resultTypes_rewriteBranchRefs (groups : GroupPositions) (branches : CaseBranches)
    (slots : AggregateSlots) : resultTypes (rewriteBranchRefs groups branches slots).1 = resultTypes branches := by
  fun_induction resultTypes branches generalizing slots with
  | case1 => rfl
  | case2 result => exact congrArg (· :: []) (resultType_rewriteAggregateRefs groups result slots)
  | case3 condition result rest hypothesis =>
    rw [rewriteBranchRefs]
    exact congrArg₂ List.cons (resultType_rewriteAggregateRefs groups result _) (hypothesis _)

theorem hasElse_rewriteBranchRefs (groups : GroupPositions) (branches : CaseBranches) (slots : AggregateSlots) :
    hasElse (rewriteBranchRefs groups branches slots).1 = hasElse branches := by
  fun_induction hasElse branches generalizing slots with
  | case1 => rfl
  | case2 => rfl
  | case3 condition result rest hypothesis =>
    rw [rewriteBranchRefs]
    exact hypothesis _

mutual

/-- Rewriting an expression to an aggregation's output changes no flag. -/
theorem flagged_rewriteAggregateRefs (groups : GroupPositions) : (expression : Expression) → Flagged expression →
    (slots : AggregateSlots) → Flagged (rewriteAggregateRefs groups expression slots).1
  | .column .., _, slots | .literal .., _, slots | .aggregate .., _, slots | .countStar _, _, slots => by
    rw [rewriteAggregateRefs]
    split
    · rename_i isKey
      exact (keyColumn_typed isKey).2
    · exact trivial
  | .binary op left right type, ⟨covers, leftFlagged, rightFlagged⟩, slots => by
    rw [rewriteAggregateRefs]
    split
    · rename_i isKey
      exact (keyColumn_typed isKey).2
    · refine ⟨?_, flagged_rewriteAggregateRefs groups left leftFlagged _,
        flagged_rewriteAggregateRefs groups right rightFlagged _⟩
      rwa [resultType_rewriteAggregateRefs, resultType_rewriteAggregateRefs]
  | .unary _ operand _, ⟨covers, flagged⟩, slots | .cast operand _, ⟨covers, flagged⟩, slots
  | .extract _ operand _, ⟨covers, flagged⟩, slots | .substring operand _ _ _, ⟨covers, flagged⟩, slots => by
    rw [rewriteAggregateRefs]
    split
    · rename_i isKey
      exact (keyColumn_typed isKey).2
    · refine ⟨?_, flagged_rewriteAggregateRefs groups operand flagged slots⟩
      rwa [resultType_rewriteAggregateRefs]
  | .between value lower upper, ⟨valueFlagged, lowerFlagged, upperFlagged⟩, slots => by
    rw [rewriteAggregateRefs]
    split
    · rename_i isKey
      exact (keyColumn_typed isKey).2
    · exact ⟨flagged_rewriteAggregateRefs groups value valueFlagged _,
        flagged_rewriteAggregateRefs groups lower lowerFlagged _,
        flagged_rewriteAggregateRefs groups upper upperFlagged _⟩
  | .like value _ _, flagged, slots => by
    rw [rewriteAggregateRefs]
    split
    · rename_i isKey
      exact (keyColumn_typed isKey).2
    · exact flagged_rewriteAggregateRefs groups value flagged slots
  | .caseWhen branches type, ⟨covers, closed, flagged⟩, slots => by
    rw [rewriteAggregateRefs]
    split
    · rename_i isKey
      exact (keyColumn_typed isKey).2
    · refine ⟨?_, ?_, branchesFlagged_rewriteBranchRefs groups branches flagged slots⟩
      · rwa [resultTypes_rewriteBranchRefs]
      · rwa [hasElse_rewriteBranchRefs]

theorem branchesFlagged_rewriteBranchRefs (groups : GroupPositions) : (branches : CaseBranches) →
    BranchesFlagged branches → (slots : AggregateSlots) →
      BranchesFlagged (rewriteBranchRefs groups branches slots).1
  | .done, _, _ => trivial
  | .otherwise result, flagged, slots => flagged_rewriteAggregateRefs groups result flagged slots
  | .when condition result rest, ⟨conditionFlagged, resultFlagged, restFlagged⟩, slots => by
    rw [rewriteBranchRefs]
    exact ⟨flagged_rewriteAggregateRefs groups condition conditionFlagged _,
      flagged_rewriteAggregateRefs groups result resultFlagged _,
      branchesFlagged_rewriteBranchRefs groups rest restFlagged _⟩

end

theorem handedDown_flagged : HandedDown Flagged BranchesFlagged where
  binary flagged := flagged.2
  unary flagged := flagged.2
  cast flagged := flagged.2
  extract flagged := flagged.2
  substring flagged := flagged.2
  between flagged := flagged
  like flagged := flagged
  caseWhen flagged := flagged.2.2
  otherwise flagged := flagged
  when flagged := flagged

theorem flagged_rewriteSelectList (groups : GroupPositions) {items : List NamedExpression}
    (flagged : ∀ item ∈ items, Flagged item.expr) (slots : AggregateSlots) :
    ∀ item ∈ (rewriteSelectList groups items slots).1, Flagged item.expr := by
  induction items generalizing slots with
  | nil => exact List.forall_mem_nil _
  | cons item rest hypothesis =>
    obtain ⟨itemFlagged, restFlagged⟩ := List.forall_mem_cons.mp flagged
    rw [rewriteSelectList]
    refine List.forall_mem_cons.mpr ⟨?_, hypothesis restFlagged _⟩
    unfold rewriteSelectItem
    split
    · exact trivial
    · exact flagged_rewriteAggregateRefs groups item.expr itemFlagged slots

theorem flagged_rewriteHaving (groups : GroupPositions) {having : Option Expression}
    (flagged : ∀ predicate ∈ having.toList, Flagged predicate) (slots : AggregateSlots) :
    ∀ predicate ∈ (rewriteHaving groups having slots).1.toList, Flagged predicate := by
  cases having with
  | none => exact List.forall_mem_nil _
  | some predicate =>
    exact List.forall_mem_singleton.mpr
      (flagged_rewriteAggregateRefs groups predicate (flagged predicate (List.mem_singleton_self _)) slots)

/-! ## Plans -/

theorem planFlagged_filterIf {predicate : Option Expression} {plan : LogicalPlan} (planFlagged : PlanFlagged plan)
    (flagged : ∀ condition ∈ predicate.toList, Flagged condition) : PlanFlagged (filterIf predicate plan) := by
  cases predicate with
  | none => exact planFlagged
  | some condition => exact ⟨planFlagged, flagged condition (List.mem_singleton_self condition)⟩

theorem planFlagged_sortIf {keys : List SortKey} {plan : LogicalPlan} (planFlagged : PlanFlagged plan)
    (flagged : ∀ key ∈ keys, Flagged key.expr) : PlanFlagged (sortIf keys plan) := by
  unfold sortIf
  split
  · exact planFlagged
  · exact ⟨planFlagged, flagged⟩

theorem planFlagged_limitIf {limit : Option Int} {plan : LogicalPlan} (planFlagged : PlanFlagged plan) :
    PlanFlagged (limitIf limit plan) := by
  cases limit <;> exact planFlagged

theorem planFlagged_finishLogicalPlan {stmt : AstSelectStatement} {scope : Scope} {isAggregateQuery : Bool}
    {query : BoundQuery} {groupReferences : List Reference} {keys : List GroupKey} {source : LogicalPlan}
    (clauses : ClausesBound stmt scope isAggregateQuery query groupReferences keys)
    (sourceFlagged : PlanFlagged source) : PlanFlagged (finishLogicalPlan source query) := by
  obtain ⟨items, groups, sorts⟩ := clauses_hold (fun _ _ _ => trivial) (fun _ => bind_flagged) clauses
  have conditions : ∀ predicate ∈ query.condition.toList ++ query.having.toList, Flagged predicate := by
    intro predicate member
    obtain ⟨⟨_, _, ran⟩, _⟩ := conditions_bound clauses predicate member
    exact bind_flagged ran
  obtain ⟨condition, having⟩ := List.forall_mem_append.mp conditions
  have filtered := planFlagged_filterIf sourceFlagged condition
  have slots : SlotsHold Flagged (plannedSlots query) :=
    slotsHold_plannedSlots handedDown_flagged items
      (fun predicate isHaving => having predicate (Option.mem_toList.mpr isHaving))
  have aggregated : PlanFlagged (aggregatePlan (filterIf query.condition source) query) := by
    refine ⟨planFlagged_filterIf ⟨filtered, List.forall_mem_append.mpr ⟨fun item member => ?_, slots⟩⟩
      (flagged_rewriteHaving _ having _), flagged_rewriteSelectList _ items _⟩
    obtain ⟨key, isKey, rfl⟩ := List.mem_map.mp member
    exact groups key isKey
  unfold finishLogicalPlan
  refine planFlagged_limitIf ?_
  split
  · exact planFlagged_sortIf aggregated sorts
  · exact ⟨planFlagged_sortIf filtered sorts, items⟩

theorem planFlagged_joinChain {plan : LogicalPlan} (planFlagged : PlanFlagged plan)
    {steps : List (BoundJoinStep × JoinInput)}
    (each : ∀ step ∈ steps, (∀ predicate ∈ stepPredicates step.1, Flagged predicate) ∧
      ∀ source, step.2 = .derived source → PlanFlagged source) : PlanFlagged (joinChain plan steps) := by
  induction steps generalizing plan with
  | nil => exact planFlagged
  | cons step rest hypothesis =>
    obtain ⟨⟨predicates, derived⟩, restEach⟩ := List.forall_mem_cons.mp each
    obtain ⟨prefilter, residual⟩ := List.forall_mem_append.mp predicates
    refine hypothesis ⟨planFlagged, planFlagged_filterIf ?_ prefilter, residual⟩ restEach
    obtain ⟨step, input⟩ := step
    cases input with
    | table schema partitionColumns => exact trivial
    | derived source => exact derived source rfl

theorem flagged_conjuncts {predicate : Expression} (flagged : Flagged predicate) :
    ∀ conjunct ∈ collectConjuncts predicate, Flagged conjunct := by
  fun_induction collectConjuncts predicate with
  | case1 left right type leftHypothesis rightHypothesis =>
    obtain ⟨_, leftFlagged, rightFlagged⟩ := flagged
    exact List.forall_mem_append.mpr ⟨leftHypothesis leftFlagged, rightHypothesis rightFlagged⟩
  | case2 predicate => exact List.forall_mem_singleton.mpr flagged

/-- The conditions that an `ON` condition is split into are flagged. -/
theorem joinSteps_flagged {scope : Scope} {count : Nat}
    {written : List (AstJoinStep AstSelectStatement × Schema)} {steps : List BoundJoinStep}
    (ran : bindJoinSteps scope count written = .ok steps) :
    ∀ step ∈ steps, ∀ predicate ∈ stepPredicates step, Flagged predicate := by
  refine bindJoinSteps_hold (fun {_ condition _ _ _ _} _ conditionRan => ?_) ran
  refine extractJoinStepKeys_hold (fun first second => ⟨fun notAnd => absurd rfl notAnd, first, second⟩)
    (fun conjunct member => ?_)
  have flagged := flagged_conjuncts (bind_flagged conditionRan) conjunct member
  exact ⟨flagged_shiftColumns _ conjunct flagged, flagged⟩

/-- Every expression of a planned query is flagged. -/
theorem planFlagged_planned {plan : LogicalPlan} (planned : Planned plan) : PlanFlagged plan := by
  induction planned with
  | @table stmt schema query partitionColumns bound =>
    obtain ⟨_, _, _, clauses⟩ := bindQuery_eq_ok bound
    exact planFlagged_finishLogicalPlan clauses trivial
  | @derived stmt source query _ bound sourceFlagged =>
    obtain ⟨_, _, _, clauses⟩ := bindQuery_eq_ok bound
    exact planFlagged_finishLogicalPlan clauses sourceFlagged
  | @joined stmt inputs query plan _ bound built sourcesFlagged =>
    obtain ⟨clause, firstSchema, restSchemas, steps, _, isCons, joinBound⟩ := bindJoinQuery_eq_ok bound
    obtain ⟨first, rest, rfl, _, _⟩ := List.map_eq_cons_iff.mp isCons
    obtain ⟨_, _, clauses⟩ := joinBound.clausesBound
    simp only [buildJoinPlan, joinBound.join] at built
    split at built
    · cases built
    obtain rfl := Except.ok.inj built
    have scanned : PlanFlagged (.scan (.make clause.first.paths first.schema first.partitionColumns)) := trivial
    refine planFlagged_finishLogicalPlan clauses (planFlagged_joinChain scanned (fun step member => ?_))
    obtain ⟨inSteps, inInputs⟩ := List.of_mem_zip member
    refine ⟨joinSteps_flagged joinBound.stepsBound step.1 inSteps, fun source isDerived => ?_⟩
    exact sourcesFlagged source (List.mem_cons_of_mem _ (isDerived ▸ inInputs))

/-! ## Planned queries -/

/-- The expressions and the output columns of a planned query are NULL only where their types are nullable, if none
overlooks a source of NULLs that the tables have: no column marked non-nullable is one of the right side of a left join
with an unmatched row, no `LIKE` and no `BETWEEN` has an operand that may be NULL, no negation and no conjunction marked
non-nullable has one that its type calls nullable, no `NULL` literal is marked non-nullable, and an `AND` or `OR` has a
truth value on one side at least. Where they are, every part is marked nullable that is sure to be NULL on a row: a
NULL column or literal, and what stands over one and nothing but columns and literals. -/
theorem nullsMarked_of_foreseen {plan : LogicalPlan} (planned : Planned plan) (tables : Tables) :
    (nullsForeseen tables plan = true → nullsMarked tables plan = true) ∧
      (nullsMarked tables plan = true → sureNullsMarked tables plan = true) := by
  refine ⟨fun clear => ?_, sureNullsMarked_of_marked⟩
  rw [nullsMarked_eq (planFlagged_planned planned)]
  exact nullsSpared_of_foreseen clear

/-- `SELECT a.v, b.w FROM a LEFT JOIN b ON a.k = b.k WHERE a.v BETWEEN 1 AND 9` -/
def outerRangeStatement : AstSelectStatement where
  selectList := [⟨.columnRef "v" (some "a"), none⟩, ⟨.columnRef "w" (some "b"), none⟩]
  join := some ⟨⟨["a.parquet"], some "a"⟩,
    [{ source := ⟨["b.parquet"], some "b"⟩, condition := onKey "b", joinType := .leftOuter }]⟩
  condition := some (.between (.columnRef "v" (some "a")) (.literal (.integer 1)) (.literal (.integer 9)))

def orderRow : TableContents where
  paths := ["a.parquet"]
  schema := ordersInput.schema
  rows := [[.int 1, .int 5]]
  conforming := by decide

def lineRow : TableContents where
  paths := ["b.parquet"]
  schema := linesInput.schema
  rows := [[.int 1, .int 7]]
  conforming := by decide

/-- Where every order has a line, nothing is NULL. -/
theorem nullsMarked_of_foreseen_matched :
    ∃ query plan, bindJoinQuery outerRangeStatement ([ordersInput, linesInput].map JoinInput.schema) = .ok query ∧
      buildJoinPlan query [ordersInput, linesInput] = .ok plan ∧
        nullsMarked (.ofContents [orderRow, lineRow]) plan = true ∧
          sureNullsMarked (.ofContents [orderRow, lineRow]) plan = true := by
  have planned : Planned _ := @Planned.joined outerRangeStatement [ordersInput, linesInput] _ _
    (fun source member => by simp [ordersInput, linesInput] at member) rfl rfl
  have foreseen := nullsMarked_of_foreseen planned (.ofContents [orderRow, lineRow])
  have isMarked := foreseen.1 (by decide +kernel)
  exact ⟨_, _, rfl, rfl, isMarked, foreseen.2 isMarked⟩

/-- An order without a line has a NULL in the output column `w`, which is marked non-nullable. -/
theorem unmatched_unmarked :
    ¬ ∀ plan, Planned plan → ∀ tables, nullsMarked tables plan = true := by
  intro sound
  have planned : Planned _ := @Planned.joined outerRangeStatement [ordersInput, linesInput] _ _
    (fun source member => by simp [ordersInput, linesInput] at member) rfl rfl
  have isMarked := sound _ planned (.ofContents [orderRow])
  revert isMarked
  decide +kernel

end KernelLake.NullableFlags
