import KernelLake.Library.Results
import KernelLake.SubqueryResolution

/-!
Replacing the subqueries of an expression.

Two expressions are alike up to replacement if they differ only where the first one has a subquery. One pass over
scalar subqueries and one over those of `IN` make one replacement together.
-/

namespace KernelLake.SubqueryReplacement

open KernelLake.SqlAst KernelLake.SubqueryResolution KernelLake.Library.Results

variable {Statement : Type}

section Relation

variable (onSubquery : Statement → AstExpr Statement → Prop)
variable (onMembership : AstExpr Statement → Statement → Bool → AstExpr Statement → Prop)

mutual

/-- Two expressions that are alike except that the second one has other expressions in place of the first one's
subqueries. -/
inductive Replaced : AstExpr Statement → AstExpr Statement → Prop
  | subquery {statement result} : onSubquery statement result → Replaced (.subquery statement) result
  | inSubquery {value value' subquery negated result} : Replaced value value' →
      onMembership value' subquery negated result → Replaced (.inSubquery value subquery negated) result
  | columnRef {name table} : Replaced (.columnRef name table) (.columnRef name table)
  | star : Replaced .star .star
  | literal {value} : Replaced (.literal value) (.literal value)
  | countStar : Replaced .countStar .countStar
  | exists {subquery negated} : Replaced (.exists subquery negated) (.exists subquery negated)
  | binary {op left left' right right'} : Replaced left left' → Replaced right right' →
      Replaced (.binary op left right) (.binary op left' right')
  | unary {op operand operand'} : Replaced operand operand' → Replaced (.unary op operand) (.unary op operand')
  | cast {operand operand' typeName precision scale} : Replaced operand operand' →
      Replaced (.cast operand typeName precision scale) (.cast operand' typeName precision scale)
  | extract {field operand operand'} : Replaced operand operand' →
      Replaced (.extract field operand) (.extract field operand')
  | substring {operand operand' start length} : Replaced operand operand' →
      Replaced (.substring operand start length) (.substring operand' start length)
  | between {value value' lower lower' upper upper'} : Replaced value value' → Replaced lower lower' →
      Replaced upper upper' → Replaced (.between value lower upper) (.between value' lower' upper')
  | like {value value' pattern pattern' negated} : Replaced value value' → Replaced pattern pattern' →
      Replaced (.like value pattern negated) (.like value' pattern' negated)
  | inList {value value' list list' negated} : Replaced value value' → ListReplaced list list' →
      Replaced (.inList value list negated) (.inList value' list' negated)
  | caseWhen {condition condition' result result' rest rest'} : Replaced condition condition' →
      Replaced result result' → BranchesReplaced rest rest' →
      Replaced (.caseWhen condition result rest) (.caseWhen condition' result' rest')
  | aggregate {function argument argument'} : Replaced argument argument' →
      Replaced (.aggregate function argument) (.aggregate function argument')

inductive ListReplaced : AstExprList Statement → AstExprList Statement → Prop
  | nil : ListReplaced .nil .nil
  | cons {head head' tail tail'} : Replaced head head' → ListReplaced tail tail' →
      ListReplaced (.cons head tail) (.cons head' tail')

inductive BranchesReplaced : AstBranches Statement → AstBranches Statement → Prop
  | done : BranchesReplaced .done .done
  | otherwise {result result'} : Replaced result result' → BranchesReplaced (.otherwise result) (.otherwise result')
  | when {condition condition' result result' rest rest'} : Replaced condition condition' →
      Replaced result result' → BranchesReplaced rest rest' →
      BranchesReplaced (.when condition result rest) (.when condition' result' rest')

end

end Relation

/-- What a subquery is replaced by may stand at its site. -/
structure Answers (onSubquery : Statement → Except String (AstExpr Statement))
    (onMembership : AstExpr Statement → Statement → Bool → Except String (AstExpr Statement))
    (site : Statement → AstExpr Statement → Prop)
    (membershipSite : AstExpr Statement → Statement → Bool → AstExpr Statement → Prop) : Prop where
  sites : ∀ {statement result}, onSubquery statement = .ok result → site statement result
  membershipSites : ∀ {value subquery negated result},
    onMembership value subquery negated = .ok result → membershipSite value subquery negated result

section Run

variable {onSubquery : Statement → Except String (AstExpr Statement)}
variable {onMembership : AstExpr Statement → Statement → Bool → Except String (AstExpr Statement)}

variable {site : Statement → AstExpr Statement → Prop}
variable {membershipSite : AstExpr Statement → Statement → Bool → AstExpr Statement → Prop}
mutual

theorem Answers.replaced (answers : Answers onSubquery onMembership site membershipSite) :
    (expression : AstExpr Statement) → ∀ {result : AstExpr Statement},
    replaceSubqueries onSubquery onMembership expression = .ok result →
    Replaced site membershipSite expression result
  | .subquery statement => fun ran => .subquery (answers.sites ran)
  | .inSubquery value subquery negated => by
    intro ran
    obtain ⟨value', valueRan, ran⟩ := bind_eq_ok.mp ran
    exact .inSubquery (answers.replaced value valueRan) (answers.membershipSites ran)
  | .binary op left right => by
    intro ran
    simp only [replaceSubqueries, bind_eq_ok, pure_eq_ok] at ran
    obtain ⟨left', leftRan, right', rightRan, rfl⟩ := ran
    exact .binary (answers.replaced left leftRan) (answers.replaced right rightRan)
  | .unary op operand => by
    intro ran
    simp only [replaceSubqueries, bind_eq_ok, pure_eq_ok] at ran
    obtain ⟨operand', operandRan, rfl⟩ := ran
    exact .unary (answers.replaced operand operandRan)
  | .cast operand typeName precision scale => by
    intro ran
    simp only [replaceSubqueries, bind_eq_ok, pure_eq_ok] at ran
    obtain ⟨operand', operandRan, rfl⟩ := ran
    exact .cast (answers.replaced operand operandRan)
  | .extract field operand => by
    intro ran
    simp only [replaceSubqueries, bind_eq_ok, pure_eq_ok] at ran
    obtain ⟨operand', operandRan, rfl⟩ := ran
    exact .extract (answers.replaced operand operandRan)
  | .substring operand start length => by
    intro ran
    simp only [replaceSubqueries, bind_eq_ok, pure_eq_ok] at ran
    obtain ⟨operand', operandRan, rfl⟩ := ran
    exact .substring (answers.replaced operand operandRan)
  | .between value lower upper => by
    intro ran
    simp only [replaceSubqueries, bind_eq_ok, pure_eq_ok] at ran
    obtain ⟨value', valueRan, lower', lowerRan, upper', upperRan, rfl⟩ := ran
    exact .between (answers.replaced value valueRan) (answers.replaced lower lowerRan)
      (answers.replaced upper upperRan)
  | .like value pattern negated => by
    intro ran
    simp only [replaceSubqueries, bind_eq_ok, pure_eq_ok] at ran
    obtain ⟨value', valueRan, pattern', patternRan, rfl⟩ := ran
    exact .like (answers.replaced value valueRan) (answers.replaced pattern patternRan)
  | .inList value list negated => by
    intro ran
    simp only [replaceSubqueries, bind_eq_ok, pure_eq_ok] at ran
    obtain ⟨value', valueRan, list', listRan, rfl⟩ := ran
    exact .inList (answers.replaced value valueRan) (answers.listReplaced list listRan)
  | .caseWhen condition result rest => by
    intro ran
    simp only [replaceSubqueries, bind_eq_ok, pure_eq_ok] at ran
    obtain ⟨condition', conditionRan, result', resultRan, rest', restRan, rfl⟩ := ran
    exact .caseWhen (answers.replaced condition conditionRan) (answers.replaced result resultRan)
      (answers.branchesReplaced rest restRan)
  | .aggregate function argument => by
    intro ran
    simp only [replaceSubqueries, bind_eq_ok, pure_eq_ok] at ran
    obtain ⟨argument', argumentRan, rfl⟩ := ran
    exact .aggregate (answers.replaced argument argumentRan)
  | .columnRef name table => by
    intro ran
    cases ran
    exact .columnRef
  | .star => by
    intro ran
    cases ran
    exact .star
  | .literal value => by
    intro ran
    cases ran
    exact .literal
  | .countStar => by
    intro ran
    cases ran
    exact .countStar
  | .exists subquery negated => by
    intro ran
    cases ran
    exact .exists

theorem Answers.listReplaced (answers : Answers onSubquery onMembership site membershipSite) :
    (list : AstExprList Statement) → ∀ {result : AstExprList Statement},
    replaceSubqueriesInList onSubquery onMembership list = .ok result →
    ListReplaced site membershipSite list result
  | .nil => by
    intro ran
    cases ran
    exact .nil
  | .cons head tail => by
    intro ran
    simp only [replaceSubqueriesInList, bind_eq_ok, pure_eq_ok] at ran
    obtain ⟨head', headRan, tail', tailRan, rfl⟩ := ran
    exact .cons (answers.replaced head headRan) (answers.listReplaced tail tailRan)

theorem Answers.branchesReplaced (answers : Answers onSubquery onMembership site membershipSite) :
    (branches : AstBranches Statement) → ∀ {result : AstBranches Statement},
    replaceSubqueriesInBranches onSubquery onMembership branches = .ok result →
    BranchesReplaced site membershipSite branches result
  | .done => by
    intro ran
    cases ran
    exact .done
  | .otherwise result => by
    intro ran
    simp only [replaceSubqueriesInBranches, bind_eq_ok, pure_eq_ok] at ran
    obtain ⟨result', resultRan, rfl⟩ := ran
    exact .otherwise (answers.replaced result resultRan)
  | .when condition result rest => by
    intro ran
    simp only [replaceSubqueriesInBranches, bind_eq_ok, pure_eq_ok] at ran
    obtain ⟨condition', conditionRan, result', resultRan, rest', restRan, rfl⟩ := ran
    exact .when (answers.replaced condition conditionRan) (answers.replaced result resultRan)
      (answers.branchesReplaced rest restRan)

end

end Run

section Passes

variable {onFirst onSecond onBoth : Statement → AstExpr Statement → Prop}
variable {onKept onMembership : AstExpr Statement → Statement → Bool → AstExpr Statement → Prop}

/-- A pass over scalar subqueries leaves those of `IN` to the next one. -/
structure Passes (onFirst onSecond onBoth : Statement → AstExpr Statement → Prop)
    (onKept onMembership : AstExpr Statement → Statement → Bool → AstExpr Statement → Prop) : Prop where
  both : ∀ {statement middle result}, onFirst statement middle → Replaced onSecond onMembership middle result →
    onBoth statement result
  kept : ∀ {value subquery negated result}, onKept value subquery negated result →
    result = .inSubquery value subquery negated

mutual

theorem Passes.replaced (passes : Passes onFirst onSecond onBoth onKept onMembership) :
    (expression : AstExpr Statement) → ∀ {middle result : AstExpr Statement},
    Replaced onFirst onKept expression middle → Replaced onSecond onMembership middle result →
    Replaced onBoth onMembership expression result
  | .subquery _ => by
    intro first second
    cases first with
    | subquery at_site => exact .subquery (passes.both at_site second)
  | .inSubquery value _ _ => by
    intro first second
    cases first with
    | inSubquery valueFirst at_site =>
      cases passes.kept at_site
      cases second with
      | inSubquery valueSecond next => exact .inSubquery (passes.replaced value valueFirst valueSecond) next
  | .columnRef _ _ => by
    intro first second
    cases first
    cases second
    exact .columnRef
  | .star => by
    intro first second
    cases first
    cases second
    exact .star
  | .literal _ => by
    intro first second
    cases first
    cases second
    exact .literal
  | .countStar => by
    intro first second
    cases first
    cases second
    exact .countStar
  | .exists _ _ => by
    intro first second
    cases first
    cases second
    exact .exists
  | .binary _ left right => by
    intro first second
    cases first with
    | binary leftFirst rightFirst =>
      cases second with
      | binary leftSecond rightSecond =>
        exact .binary (passes.replaced left leftFirst leftSecond) (passes.replaced right rightFirst rightSecond)
  | .unary _ operand => by
    intro first second
    cases first with
    | unary operandFirst =>
      cases second with
      | unary operandSecond => exact .unary (passes.replaced operand operandFirst operandSecond)
  | .cast operand _ _ _ => by
    intro first second
    cases first with
    | cast operandFirst =>
      cases second with
      | cast operandSecond => exact .cast (passes.replaced operand operandFirst operandSecond)
  | .extract _ operand => by
    intro first second
    cases first with
    | extract operandFirst =>
      cases second with
      | extract operandSecond => exact .extract (passes.replaced operand operandFirst operandSecond)
  | .substring operand _ _ => by
    intro first second
    cases first with
    | substring operandFirst =>
      cases second with
      | substring operandSecond => exact .substring (passes.replaced operand operandFirst operandSecond)
  | .between value lower upper => by
    intro first second
    cases first with
    | between valueFirst lowerFirst upperFirst =>
      cases second with
      | between valueSecond lowerSecond upperSecond =>
        exact .between (passes.replaced value valueFirst valueSecond) (passes.replaced lower lowerFirst lowerSecond)
          (passes.replaced upper upperFirst upperSecond)
  | .like value pattern _ => by
    intro first second
    cases first with
    | like valueFirst patternFirst =>
      cases second with
      | like valueSecond patternSecond =>
        exact .like (passes.replaced value valueFirst valueSecond)
          (passes.replaced pattern patternFirst patternSecond)
  | .inList value list _ => by
    intro first second
    cases first with
    | inList valueFirst listFirst =>
      cases second with
      | inList valueSecond listSecond =>
        exact .inList (passes.replaced value valueFirst valueSecond) (passes.listReplaced list listFirst listSecond)
  | .caseWhen condition result rest => by
    intro first second
    cases first with
    | caseWhen conditionFirst resultFirst restFirst =>
      cases second with
      | caseWhen conditionSecond resultSecond restSecond =>
        exact .caseWhen (passes.replaced condition conditionFirst conditionSecond)
          (passes.replaced result resultFirst resultSecond) (passes.branchesReplaced rest restFirst restSecond)
  | .aggregate _ argument => by
    intro first second
    cases first with
    | aggregate argumentFirst =>
      cases second with
      | aggregate argumentSecond => exact .aggregate (passes.replaced argument argumentFirst argumentSecond)

theorem Passes.listReplaced (passes : Passes onFirst onSecond onBoth onKept onMembership) :
    (list : AstExprList Statement) → ∀ {middle result : AstExprList Statement},
    ListReplaced onFirst onKept list middle → ListReplaced onSecond onMembership middle result →
    ListReplaced onBoth onMembership list result
  | .nil => by
    intro first second
    cases first
    cases second
    exact .nil
  | .cons head tail => by
    intro first second
    cases first with
    | cons headFirst tailFirst =>
      cases second with
      | cons headSecond tailSecond =>
        exact .cons (passes.replaced head headFirst headSecond) (passes.listReplaced tail tailFirst tailSecond)

theorem Passes.branchesReplaced (passes : Passes onFirst onSecond onBoth onKept onMembership) :
    (branches : AstBranches Statement) → ∀ {middle result : AstBranches Statement},
    BranchesReplaced onFirst onKept branches middle → BranchesReplaced onSecond onMembership middle result →
    BranchesReplaced onBoth onMembership branches result
  | .done => by
    intro first second
    cases first
    cases second
    exact .done
  | .otherwise result => by
    intro first second
    cases first with
    | otherwise resultFirst =>
      cases second with
      | otherwise resultSecond => exact .otherwise (passes.replaced result resultFirst resultSecond)
  | .when condition result rest => by
    intro first second
    cases first with
    | when conditionFirst resultFirst restFirst =>
      cases second with
      | when conditionSecond resultSecond restSecond =>
        exact .when (passes.replaced condition conditionFirst conditionSecond)
          (passes.replaced result resultFirst resultSecond) (passes.branchesReplaced rest restFirst restSecond)

end

end Passes

end KernelLake.SubqueryReplacement
