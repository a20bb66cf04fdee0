import KernelLake.RewriteProofs
import KernelLake.RewriteTermination

/-!
One call of the rewriter reaches a normal form.

`Normal` says of a whole plan that none of the rules for filters, limits and expressions applies anywhere
in it. The rewriter's results are normal, by induction along its calls: what goes below a join comes back
from a call of its own, and what stays above has lost every conjunct a side could take. A normal plan is
its own rewriting, so a second pass changes nothing.
-/

namespace KernelLake.RewriteNormalForm

open KernelLake.Types KernelLake.Expressions KernelLake.LogicalPlans KernelLake.Simplification
open KernelLake.SimplificationProofs KernelLake.Optimizer KernelLake.PlanSemantics
open KernelLake.RewriteProofs KernelLake.RewriteTermination

/-! ## Conjuncts -/

/-- Splitting a conjunction splits each of its members. -/
theorem collectConjuncts_conjunction (first : Expression) (rest : List Expression) :
    collectConjuncts (conjunction first rest) =
      collectConjuncts first ++ rest.flatMap collectConjuncts := by
  unfold conjunction
  induction rest generalizing first with
  | nil => simp
  | cons next rest hypothesis =>
    rw [List.foldl_cons, hypothesis, collectConjuncts, List.flatMap_cons, List.append_assoc]

/-- A conjunct is not split again. -/
theorem collectConjuncts_of_mem {predicate conjunct : Expression}
    (member : conjunct ∈ collectConjuncts predicate) : collectConjuncts conjunct = [conjunct] := by
  fun_induction collectConjuncts predicate with
  | case1 left right type leftIH rightIH =>
    rcases List.mem_append.mp member with member | member
    · exact leftIH member
    · exact rightIH member
  | case2 predicate whole =>
    obtain rfl := List.mem_singleton.mp member
    unfold collectConjuncts
    split
    · exact absurd rfl (whole _ _ _)
    · rfl

theorem collectConjuncts_of_whole {first : Expression} {rest : List Expression}
    (whole : ∀ conjunct ∈ first :: rest, collectConjuncts conjunct = [conjunct]) :
    collectConjuncts (conjunction first rest) = first :: rest := by
  obtain ⟨firstWhole, restWhole⟩ := List.forall_mem_cons.mp whole
  have single : rest.flatMap collectConjuncts = rest.flatMap (fun conjunct => [conjunct]) := by
    apply List.flatMap_congr
    exact restWhole
  rw [collectConjuncts_conjunction, firstWhole, single, List.flatMap_singleton']
  rfl

theorem literal_of_constantPredicate {predicate : Expression} {value : Bool}
    (constant : constantPredicate predicate = some value) :
    ∃ type, predicate = .literal (.bool value) type := by
  unfold constantPredicate at constant
  split at constant
  · obtain rfl := Option.some.inj constant
    exact ⟨_, rfl⟩
  · cases constant

/-- An operand of a binary node is not the node itself. -/
theorem operand_ne_binary (op : BinaryOperator) (left right : Expression) (type : DataType) :
    left ≠ .binary op left right type ∧ right ≠ .binary op left right type := by
  constructor
  · intro same
    have size := congrArg sizeOf same
    simp only [Expression.binary.sizeOf_spec] at size
    omega
  · intro same
    have size := congrArg sizeOf same
    simp only [Expression.binary.sizeOf_spec] at size
    omega

/-- A conjunction that no rule simplifies has no constant on either side. -/
theorem constantPredicate_of_fixed {left right : Expression} {type : DataType}
    (fixed : simplifyBinary .and left right type = .binary .and left right type) :
    constantPredicate left = none ∧ constantPredicate right = none := by
  have leftUndecided : constantPredicate left = none := by
    cases leftEq : constantPredicate left with
    | none => rfl
    | some value =>
      obtain ⟨leftType, rfl⟩ := literal_of_constantPredicate leftEq
      cases value with
      | false => cases fixed
      | true => exact absurd fixed (operand_ne_binary ..).2
  refine ⟨leftUndecided, ?_⟩
  cases rightEq : constantPredicate right with
  | none => rfl
  | some value =>
    obtain ⟨rightType, rfl⟩ := literal_of_constantPredicate rightEq
    simp only [simplifyBinary, isLogical, simplifyLogical, if_true] at fixed
    split at fixed
    · cases leftUndecided
    · cases value with
      | false => cases fixed
      | true => exact absurd fixed (operand_ne_binary ..).1

/-- The conjuncts of a simplified predicate are simplified, and unless it is itself a constant none of
them is one. -/
theorem simplified_of_conjunct {predicate conjunct : Expression} (simple : Simplified predicate)
    (undecided : constantPredicate predicate = none) (member : conjunct ∈ collectConjuncts predicate) :
    Simplified conjunct ∧ constantPredicate conjunct = none := by
  fun_induction collectConjuncts predicate with
  | case1 left right type leftIH rightIH =>
    obtain ⟨leftSimple, rightSimple, fixed⟩ := simple
    obtain ⟨leftUndecided, rightUndecided⟩ := constantPredicate_of_fixed fixed
    rcases List.mem_append.mp member with member | member
    · exact leftIH leftSimple leftUndecided member
    · exact rightIH rightSimple rightUndecided member
  | case2 predicate whole =>
    obtain rfl := List.mem_singleton.mp member
    exact ⟨simple, undecided⟩

theorem simplifyBinary_and_fixed {left right : Expression} (leftUndecided : constantPredicate left = none)
    (rightUndecided : constantPredicate right = none) (type : DataType) :
    simplifyBinary .and left right type = .binary .and left right type := by
  unfold simplifyBinary simplifyLogical
  simp only [isLogical, if_true]
  split
  · cases leftUndecided
  · split
    · cases rightUndecided
    · rfl

/-- A conjunction of simplified predicates, none of them a constant, is simplified. -/
theorem simplified_conjunction {first : Expression} {rest : List Expression}
    (simple : ∀ conjunct ∈ first :: rest, Simplified conjunct ∧ constantPredicate conjunct = none) :
    Simplified (conjunction first rest) ∧ constantPredicate (conjunction first rest) = none := by
  unfold conjunction
  induction rest generalizing first with
  | nil => exact simple first (List.mem_cons_self ..)
  | cons next rest hypothesis =>
    obtain ⟨⟨firstSimple, firstUndecided⟩, others⟩ := List.forall_mem_cons.mp simple
    obtain ⟨⟨nextSimple, nextUndecided⟩, others⟩ := List.forall_mem_cons.mp others
    refine hypothesis (List.forall_mem_cons.mpr ⟨⟨?_, rfl⟩, others⟩)
    exact ⟨firstSimple, nextSimple, simplifyBinary_and_fixed firstUndecided nextUndecided _⟩

/-! ## Normal plans -/

/-- No conjunct of a filter over a join could stand below it. -/
def StaysAbove (leftCount : Nat) (joinType : JoinType) (conjunct : Expression) : Prop :=
  onlyLeft leftCount conjunct = false ∧ (joinType = .inner → onlyRight leftCount conjunct = false)

/-- Where a filter may stand. -/
def FilterPlaced (predicate : Expression) : LogicalPlan → Prop
  | .filter .. => False
  | .join left _ _ _ joinType _ =>
    ∀ conjunct ∈ collectConjuncts predicate, StaysAbove left.width joinType conjunct
  | _ => True

def isProjection : LogicalPlan → Bool
  | .projection .. => true
  | _ => false

/-- No rule of the rewriter applies anywhere in a plan. -/
def Normal : LogicalPlan → Prop
  | .scan _ => True
  | .join left right _ _ _ _ => Normal left ∧ Normal right
  | .filter child predicate =>
    Normal child ∧ Simplified predicate ∧ constantPredicate predicate ≠ some true ∧
      FilterPlaced predicate child
  | .projection child items => Normal child ∧ ∀ item ∈ items, Simplified item.expr
  | .aggregate child groupBy aggregates =>
    Normal child ∧ (∀ item ∈ groupBy, Simplified item.expr) ∧ ∀ item ∈ aggregates, Simplified item.expr
  | .sort child keys => Normal child ∧ ∀ key ∈ keys, Simplified key.expr
  | .limit child _ => Normal child ∧ isProjection child = false

theorem staysAbove_of_unplaced {leftCount : Nat} {joinType : JoinType} {conjunct : Expression}
    (unplaced : (!onlyLeft leftCount conjunct &&
      !(onlyRight leftCount conjunct && decide (joinType = .inner))) = true) :
    StaysAbove leftCount joinType conjunct := by
  simp only [Bool.and_eq_true, Bool.not_eq_true', Bool.and_eq_false_iff, decide_eq_false_iff_not]
    at unplaced
  exact ⟨unplaced.1, fun inner => unplaced.2.resolve_right (fun other => other inner)⟩

theorem simplified_simplifyItems (items : List NamedExpression) :
    ∀ item ∈ simplifyItems items, Simplified item.expr := by
  intro item member
  obtain ⟨original, _, rfl⟩ := List.mem_map.mp member
  exact simplifyExpression_simplified original.expr

theorem simplified_simplifyKeys (keys : List SortKey) :
    ∀ key ∈ simplifyKeys keys, Simplified key.expr := by
  intro key member
  obtain ⟨original, _, rfl⟩ := List.mem_map.mp member
  exact simplifyExpression_simplified original.expr

/-- A limit comes to rest below the projections, above an operator that is none. -/
theorem normal_insertLimit (limit : Int) (plan : LogicalPlan) (normal : Normal plan) :
    Normal (insertLimit limit plan) := by
  induction plan with
  | projection child items hypothesis => exact ⟨hypothesis normal.1, normal.2⟩
  | _ => exact ⟨normal, rfl⟩

/-! ## Results are normal -/

theorem preserves_rewritePlan (tables : Tables) : Preserves tables rewritePlan :=
  ⟨rows_rewritePlan tables, fun plan => (rewriteWith_preserves tables (rewriteFuel plan)).sameWidth plan⟩

theorem normal_pushInto {input : LogicalPlan} {predicates : List Expression} (normal : Normal input)
    (calls : ∀ inner ∈ pushInvocations input predicates, Normal (rewritePlan inner)) :
    Normal (pushInto rewritePlan input predicates) := by
  cases predicates with
  | nil => exact normal
  | cons first rest => exact calls _ (List.mem_singleton.mpr rfl)

/-- What pushing leaves above a join stays there, and what it sends below is normal again. -/
theorem normal_pushed {left right pushed : LogicalPlan} {leftKeyIndex rightKeyIndex : Nat}
    {joinType : JoinType} {residualPredicate : Option Expression} {predicate : Expression}
    (simple : Simplified predicate) (undecided : constantPredicate predicate = none)
    (leftNormal : Normal left) (rightNormal : Normal right)
    (calls : ∀ inner ∈ filterInvocations predicate
      (.join left right leftKeyIndex rightKeyIndex joinType residualPredicate), Normal (rewritePlan inner))
    (ran : pushPredicateThroughJoin rewritePlan left right leftKeyIndex rightKeyIndex joinType
      residualPredicate predicate = some pushed) : Normal pushed := by
  simp only [filterInvocations, undecided, Option.isSome_none, Bool.false_eq_true, if_false] at calls
  obtain ⟨leftCalls, rightCalls⟩ := List.forall_mem_append.mp calls
  unfold pushPredicateThroughJoin at ran
  simp only at ran
  split at ran
  · cases ran
  obtain rfl := Option.some.inj ran
  have joinNormal := And.intro (normal_pushInto leftNormal leftCalls) (normal_pushInto rightNormal rightCalls)
  have remains : ∀ conjunct ∈ (placeConjuncts left.width joinType (collectConjuncts predicate)).remaining,
      (Simplified conjunct ∧ constantPredicate conjunct = none) ∧
        collectConjuncts conjunct = [conjunct] ∧ StaysAbove left.width joinType conjunct := by
    intro conjunct member
    obtain ⟨among, unplaced⟩ := List.mem_filter.mp member
    exact ⟨simplified_of_conjunct simple undecided among, collectConjuncts_of_mem among,
      staysAbove_of_unplaced unplaced⟩
  cases remainingEq : (placeConjuncts left.width joinType (collectConjuncts predicate)).remaining with
  | nil => exact joinNormal
  | cons first rest =>
    rw [remainingEq] at remains
    obtain ⟨conjunctionSimple, conjunctionUndecided⟩ :=
      simplified_conjunction (fun conjunct member => (remains conjunct member).1)
    refine ⟨joinNormal, conjunctionSimple, ?_, ?_⟩
    · rw [conjunctionUndecided]
      exact (Option.some_ne_none true).symm
    · intro conjunct member
      rw [collectConjuncts_of_whole (fun conjunct member => (remains conjunct member).2.1)] at member
      rw [width_pushInto (preserves_rewritePlan (Tables.ofContents []))]
      exact (remains conjunct member).2.2

/-- Where nothing could be pushed, every conjunct stays above. -/
theorem staysAbove_of_not_pushed {left right : LogicalPlan} {leftKeyIndex rightKeyIndex : Nat}
    {joinType : JoinType} {residualPredicate : Option Expression} {predicate : Expression}
    (ran : pushPredicateThroughJoin rewritePlan left right leftKeyIndex rightKeyIndex joinType
      residualPredicate predicate = none) :
    ∀ conjunct ∈ collectConjuncts predicate, StaysAbove left.width joinType conjunct := by
  unfold pushPredicateThroughJoin at ran
  simp only at ran
  split at ran
  · rename_i nothing
    simp only [Bool.and_eq_true, List.isEmpty_iff, placeConjuncts, List.map_eq_nil_iff,
      List.filter_eq_nil_iff] at nothing
    intro conjunct member
    have notLeft := Bool.eq_false_iff.mpr (nothing.1 conjunct member)
    refine ⟨notLeft, fun inner => Bool.eq_false_iff.mpr (fun right => ?_)⟩
    exact nothing.2 conjunct member ⟨by rw [notLeft]; rfl, right, decide_eq_true inner⟩
  · cases ran

theorem normal_rewriteFilter {child : LogicalPlan} {predicate : Expression} (normal : Normal child)
    (simple : Simplified predicate)
    (calls : ∀ inner ∈ filterInvocations predicate child, Normal (rewritePlan inner)) :
    Normal (rewriteFilter rewritePlan child predicate) := by
  unfold rewriteFilter
  split
  · exact calls _ (List.mem_singleton.mpr rfl)
  · rename_i notFilter
    split
    · exact normal
    · rename_i constant
      refine ⟨normal, simple, by simp [constant], ?_⟩
      -- A constant refers to no column, so it stays where it is.
      obtain ⟨type, rfl⟩ := literal_of_constantPredicate constant
      cases child with
      | filter grandchild inner => exact notFilter _ _ rfl
      | join left right leftKeyIndex rightKeyIndex joinType residualPredicate =>
        intro conjunct member
        obtain rfl := List.mem_singleton.mp member
        exact ⟨rfl, fun _ => rfl⟩
      | _ => trivial
    · rename_i undecided
      have undecidedTrue : constantPredicate predicate ≠ some true := by simp [undecided]
      cases child with
      | filter grandchild inner => exact absurd rfl (notFilter _ _)
      | join left right leftKeyIndex rightKeyIndex joinType residualPredicate =>
        simp only
        cases ran : pushPredicateThroughJoin rewritePlan left right leftKeyIndex rightKeyIndex joinType
            residualPredicate predicate with
        | none => exact ⟨normal, simple, undecidedTrue, staysAbove_of_not_pushed ran⟩
        | some pushed => exact normal_pushed simple undecided normal.1 normal.2 calls ran
      | _ => exact ⟨normal, simple, undecidedTrue, trivial⟩

/-- Every result of the rewriter is normal. -/
theorem normal_rewritePlan (plan : LogicalPlan) : Normal (rewritePlan plan) := by
  induction plan using wellFounded_invoked.induction with
  | _ plan hypothesis =>
    rw [RewriteFuel.rewritePlan_eq plan]
    cases plan with
    | scan source => trivial
    | join left right leftKeyIndex rightKeyIndex joinType residualPredicate =>
      have leftNormal := hypothesis left (List.mem_cons_self ..)
      exact ⟨leftNormal, hypothesis right (List.mem_cons_of_mem _ (List.mem_singleton.mpr rfl))⟩
    | filter child predicate =>
      obtain ⟨childNormal, calls⟩ := List.forall_mem_cons.mp hypothesis
      exact normal_rewriteFilter childNormal (simplifyExpression_simplified predicate) calls
    | projection child items =>
      exact ⟨hypothesis child (List.mem_singleton.mpr rfl), simplified_simplifyItems items⟩
    | aggregate child groupBy aggregates =>
      exact ⟨hypothesis child (List.mem_singleton.mpr rfl), simplified_simplifyItems groupBy,
        simplified_simplifyItems aggregates⟩
    | sort child keys =>
      exact ⟨hypothesis child (List.mem_singleton.mpr rfl), simplified_simplifyKeys keys⟩
    | limit child limit =>
      exact normal_insertLimit limit _ (hypothesis child (List.mem_singleton.mpr rfl))

/-! ## Normal plans are kept -/

theorem simplifyItems_of_simplified {items : List NamedExpression}
    (simple : ∀ item ∈ items, Simplified item.expr) : simplifyItems items = items := by
  unfold simplifyItems
  rw [List.map_congr_left (fun item member => by
    rw [simplifyExpression_of_simplified item.expr (simple item member)]), List.map_id']

theorem simplifyKeys_of_simplified {keys : List SortKey} (simple : ∀ key ∈ keys, Simplified key.expr) :
    simplifyKeys keys = keys := by
  unfold simplifyKeys
  rw [List.map_congr_left (fun key member => by
    rw [simplifyExpression_of_simplified key.expr (simple key member)]), List.map_id']

/-- Over a join, a filter whose conjuncts all stay above is not pushed. -/
theorem not_pushed_of_staysAbove {left right : LogicalPlan} {leftKeyIndex rightKeyIndex : Nat}
    {joinType : JoinType} {residualPredicate : Option Expression} {predicate : Expression}
    (above : ∀ conjunct ∈ collectConjuncts predicate, StaysAbove left.width joinType conjunct) :
    pushPredicateThroughJoin rewritePlan left right leftKeyIndex rightKeyIndex joinType
      residualPredicate predicate = none := by
  have nothingLeft : (collectConjuncts predicate).filter (onlyLeft left.width) = [] := by
    apply List.filter_eq_nil_iff.mpr
    intro conjunct member
    rw [(above conjunct member).1]
    exact Bool.false_ne_true
  have nothingRight : (collectConjuncts predicate).filter (fun conjunct =>
      !onlyLeft left.width conjunct && (onlyRight left.width conjunct && joinType = .inner)) = [] := by
    apply List.filter_eq_nil_iff.mpr
    intro conjunct member placed
    simp only [Bool.and_eq_true, decide_eq_true_eq] at placed
    rw [(above conjunct member).2 placed.2.2] at placed
    exact Bool.false_ne_true placed.2.1
  unfold pushPredicateThroughJoin placeConjuncts
  simp only [nothingLeft, nothingRight, List.map_nil, List.isEmpty_nil, Bool.and_self, if_true]

theorem rewriteFilter_of_normal {child : LogicalPlan} {predicate : Expression}
    (undecided : constantPredicate predicate ≠ some true) (placed : FilterPlaced predicate child) :
    rewriteFilter rewritePlan child predicate = .filter child predicate := by
  unfold rewriteFilter
  split
  · exact absurd placed id
  · split
    · rename_i constant
      exact absurd constant undecided
    · rfl
    · split
      · rw [not_pushed_of_staysAbove placed]
        rfl
      · rfl

/-- Rewriting changes no normal plan. -/
theorem rewritePlan_of_normal (plan : LogicalPlan) (normal : Normal plan) : rewritePlan plan = plan := by
  induction plan with
  | scan source => exact RewriteFuel.rewritePlan_eq _
  | join left right leftKeyIndex rightKeyIndex joinType residualPredicate leftIH rightIH =>
    rw [RewriteFuel.rewritePlan_eq, rewriteStep, leftIH normal.1, rightIH normal.2]
  | filter child predicate hypothesis =>
    obtain ⟨childNormal, simple, undecided, placed⟩ := normal
    rw [RewriteFuel.rewritePlan_eq, rewriteStep, hypothesis childNormal,
      simplifyExpression_of_simplified predicate simple]
    exact rewriteFilter_of_normal undecided placed
  | projection child items hypothesis =>
    rw [RewriteFuel.rewritePlan_eq, rewriteStep, hypothesis normal.1, simplifyItems_of_simplified normal.2]
  | aggregate child groupBy aggregates hypothesis =>
    rw [RewriteFuel.rewritePlan_eq, rewriteStep, hypothesis normal.1,
      simplifyItems_of_simplified normal.2.1, simplifyItems_of_simplified normal.2.2]
  | sort child keys hypothesis =>
    rw [RewriteFuel.rewritePlan_eq, rewriteStep, hypothesis normal.1, simplifyKeys_of_simplified normal.2]
  | limit child limit hypothesis =>
    rw [RewriteFuel.rewritePlan_eq, rewriteStep, hypothesis normal.1]
    cases child with
    | projection grandchild items => cases normal.2
    | _ => rfl

/-! ## The pushdown normal form -/

/-- A plan and all plans inside it. -/
def subplans : LogicalPlan → List LogicalPlan
  | .scan source => [.scan source]
  | .join left right leftKeyIndex rightKeyIndex joinType residualPredicate =>
    .join left right leftKeyIndex rightKeyIndex joinType residualPredicate ::
      (subplans left ++ subplans right)
  | .filter child predicate => .filter child predicate :: subplans child
  | .projection child items => .projection child items :: subplans child
  | .aggregate child groupBy aggregates => .aggregate child groupBy aggregates :: subplans child
  | .sort child keys => .sort child keys :: subplans child
  | .limit child limit => .limit child limit :: subplans child

/-- A conjunct refers to columns, and only to such ones. -/
def ReadsOnly (allowed : Nat → Prop) (conjunct : Expression) : Prop :=
  collectColumns conjunct ≠ [] ∧ ∀ index ∈ collectColumns conjunct, allowed index

/-- Nothing is left to merge, to drop or to push at one filter. -/
structure Settled (child : LogicalPlan) (predicate : Expression) : Prop where
  notOverFilter : child.isFilter = false
  notTrue : ∀ type, predicate ≠ .literal (.bool true) type
  keepsLeft : ∀ left right leftKeyIndex rightKeyIndex joinType residualPredicate,
    child = .join left right leftKeyIndex rightKeyIndex joinType residualPredicate →
    ∀ conjunct ∈ collectConjuncts predicate, ¬ ReadsOnly (· < left.width) conjunct
  keepsRight : ∀ left right leftKeyIndex rightKeyIndex residualPredicate,
    child = .join left right leftKeyIndex rightKeyIndex .inner residualPredicate →
    ∀ conjunct ∈ collectConjuncts predicate, ¬ ReadsOnly (left.width ≤ ·) conjunct

theorem onlyLeft_of_readsOnly {leftCount : Nat} {conjunct : Expression}
    (reads : ReadsOnly (· < leftCount) conjunct) : onlyLeft leftCount conjunct = true := by
  simpa [onlyLeft, ReadsOnly] using reads

theorem onlyRight_of_readsOnly {leftCount : Nat} {conjunct : Expression}
    (reads : ReadsOnly (leftCount ≤ ·) conjunct) : onlyRight leftCount conjunct = true := by
  simpa [onlyRight, ReadsOnly] using reads

theorem normal_of_subplan {plan inner : LogicalPlan} (normal : Normal plan)
    (member : inner ∈ subplans plan) : Normal inner := by
  induction plan with
  | scan source =>
    obtain rfl := List.mem_singleton.mp member
    trivial
  | join left right leftKeyIndex rightKeyIndex joinType residualPredicate leftIH rightIH =>
    rcases List.mem_cons.mp member with rfl | member
    · exact normal
    · rcases List.mem_append.mp member with member | member
      · exact leftIH normal.1 member
      · exact rightIH normal.2 member
  | _ =>
    rename_i hypothesis
    rcases List.mem_cons.mp member with rfl | member
    · exact normal
    · exact hypothesis normal.1 member

theorem settled_of_normal {child : LogicalPlan} {predicate : Expression}
    (normal : Normal (.filter child predicate)) : Settled child predicate := by
  obtain ⟨_, _, undecided, placed⟩ := normal
  constructor
  · cases child with
    | filter grandchild inner => exact absurd placed id
    | _ => rfl
  · rintro type rfl
    exact undecided rfl
  · rintro left right leftKeyIndex rightKeyIndex joinType residualPredicate rfl conjunct member reads
    have stays := (placed conjunct member).1
    rw [onlyLeft_of_readsOnly reads] at stays
    cases stays
  · rintro left right leftKeyIndex rightKeyIndex residualPredicate rfl conjunct member reads
    have stays := (placed conjunct member).2 rfl
    rw [onlyRight_of_readsOnly reads] at stays
    cases stays

/-- One call of the rewriter reaches the pushdown normal form: at every filter of its result nothing is
left to merge, to drop or to push below a join, and a second call returns an equal plan. -/
theorem rewritePlan_settled (plan : LogicalPlan) :
    (∀ child predicate, .filter child predicate ∈ subplans (rewritePlan plan) → Settled child predicate) ∧
      rewritePlan (rewritePlan plan) = rewritePlan plan := by
  constructor
  · intro child predicate member
    exact settled_of_normal (normal_of_subplan (normal_rewritePlan plan) member)
  · exact rewritePlan_of_normal _ (normal_rewritePlan plan)

end KernelLake.RewriteNormalForm
