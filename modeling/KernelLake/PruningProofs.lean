import KernelLake.Library.IntegerDoubles
import KernelLake.Pruning
import KernelLake.SimplificationProofs
import Mathlib.Data.List.Nodup
import Mathlib.Data.String.Basic

/-!
When pruning row groups is safe.

Comparing through doubles is monotone, so a refuted predicate is really refuted unless rounding
makes a literal equal to a bound it differs from: `Misjudged` names those predicates, and NaN
literals under `<>`, which every bound compares equal to. A predicate list without them never loses
a row, and for a single predicate the condition is exact.
-/

namespace KernelLake.PruningProofs

open KernelLake.Types KernelLake.Expressions KernelLake.Evaluation KernelLake.LogicalPlans
open KernelLake.Library.Doubles KernelLake.Comparisons KernelLake.SimplificationProofs
open KernelLake.Pruning

/-! ## Rows and bounds -/

/-- A pushed predicate evaluates to `TRUE` on a column's value. -/
def predicateHolds (predicate : PushablePredicate) (value : Value) : Prop :=
  (compareValues value (literalValue predicate.literal predicate.literalType)).truth predicate.op =
    .bool true

instance (predicate : PushablePredicate) (value : Value) : Decidable (predicateHolds predicate value) :=
  inferInstanceAs (Decidable (_ = _))

/-- One double is at most another; a NaN is related to nothing. -/
def doubleAtMost (left right : Float) : Prop :=
  ∃ x y, rank left = some x ∧ rank right = some y ∧ x ≤ y

/-- Recorded statistics bound a value: it is null, or of the recorded type and between the two. -/
def Bounds (stats : ColumnStatistics) (value : Value) : Prop :=
  value = .null ∨
    match stats.minValue, stats.maxValue with
    | .int64 lower, .int64 upper =>
      ∃ number, value.integerPayload = some number ∧ lower.toInt ≤ number ∧ number ≤ upper.toInt
    | .double lower, .double upper =>
      ∃ number, value = .double number ∧ doubleAtMost lower number ∧ doubleAtMost number upper
    | .string lower, .string upper => ∃ text, value = .string text ∧ lower ≤ text ∧ text ≤ upper
    | .bool lower, .bool upper => ∃ truth, value = .bool truth ∧ lower ≤ truth ∧ truth ≤ upper
    | _, _ => False

/-- A row, as a value for every column name, lies within a row group's statistics. -/
def RowBounded (group : RowGroupMetadata) (row : String → Value) : Prop :=
  ∀ name stats, group.statisticsOf name = some stats → stats.hasMinMax = true → Bounds stats (row name)

/-- No row group left out of the selection can hold a row on which all predicates are `TRUE`. -/
def PruningSound (file : FileMetadata) (predicates : List PushablePredicate) : Prop :=
  ∀ group ∈ file.rowGroups, ∀ row, RowBounded group row →
    group.index ∉ (evaluatePruning file predicates).selectedRowGroups →
    ¬ ∀ predicate ∈ predicates, predicateHolds predicate (row predicate.columnName)

/-- Two integers become one double. -/
def sameDouble (left right : Int64) : Prop :=
  compareDoubles (ofInteger left.toInt) (ofInteger right.toInt) = some .eq

/-- A predicate whose comparison with the statistics goes wrong: rounding hides that the relevant
bound and the literal differ, or a NaN literal under `<>` compares equal to every bound. -/
def Misjudged (predicate : PushablePredicate) (stats : ColumnStatistics) : Prop :=
  stats.hasMinMax = true ∧
    match stats.minValue, stats.maxValue, predicate.literal with
    | .int64 lower, .int64 upper, .int64 literal =>
      lower ≤ upper ∧
        match predicate.op with
        | .less => lower < literal ∧ sameDouble lower literal
        | .greater => literal < upper ∧ sameDouble upper literal
        | .notEqual =>
          sameDouble lower literal ∧ sameDouble upper literal ∧ ¬(lower = literal ∧ upper = literal)
        | _ => False
    | .int64 lower, .int64 upper, .double literal =>
      lower ≤ upper ∧ predicate.op = .notEqual ∧ rank literal = none
    | .double lower, .double upper, .double literal =>
      doubleAtMost lower upper ∧ predicate.op = .notEqual ∧ rank literal = none
    | _, _, _ => False

/-! ## Comparing literals -/

theorem log2_of_range {value : Int} (lower : -2 ^ 63 ≤ value) (upper : value < 2 ^ 63) :
    value.natAbs.log2 < 1000 := by
  by_cases zero : value.natAbs = 0
  · simp [zero]
  · have small : value.natAbs < 2 ^ 64 := by omega
    have := (Nat.log2_lt zero).mpr small
    omega

theorem log2_int64 (value : Int64) : value.toInt.natAbs.log2 < 1000 :=
  log2_of_range value.le_toInt value.toInt_lt

theorem doubleOrder_of_ranks {left right : Float} {x y : ℤ ×ₗ ℤ ×ₗ ℤ} (leftRank : rank left = some x)
    (rightRank : rank right = some y) : doubleOrder left right = compare x y := by
  unfold doubleOrder
  rw [compareDoubles_of_ranks leftRank rightRank]
  cases compare x y <;> simp

theorem doubleOrder_of_unranked (left : Float) {right : Float} (unranked : rank right = none) :
    doubleOrder left right = .eq := by
  simp [doubleOrder, compareDoubles_of_unranked_right left unranked]

theorem sameDouble_iff (left right : Int64) :
    sameDouble left right ↔ integerRank left.toInt = integerRank right.toInt := by
  unfold sameDouble
  rw [compareDoubles_ofInteger (log2_int64 left) (log2_int64 right)]
  simp [compare_eq_iff_eq]

theorem compareLiterals_integers (left right : Int64) :
    compareLiterals (.int64 left) (.int64 right) =
      some (compare (integerRank left.toInt) (integerRank right.toInt)) := by
  simp only [compareLiterals, asDouble]
  rw [doubleOrder_of_ranks (rank_ofInteger (log2_int64 left)) (rank_ofInteger (log2_int64 right))]

theorem compareLiterals_strings (left right : String) :
    compareLiterals (.string left) (.string right) = some (compare left right) := by
  simp only [compareLiterals, Option.some.injEq]
  rcases lt_trichotomy left right with below | same | above
  · rw [compare_lt_iff_lt.mpr below, if_pos below]
  · rw [compare_eq_iff_eq.mpr same, same]
    simp
  · rw [compare_gt_iff_gt.mpr above, if_neg above.not_gt, if_pos above]

theorem compareLiterals_bools (left right : Bool) :
    compareLiterals (.bool left) (.bool right) = some (compare left right) := by
  cases left <;> cases right <;> rfl

/-! ## Evaluating predicates -/

theorem compareValues_integers {left right : Value} {a b : Int}
    (leftPayload : left.integerPayload = some a) (rightPayload : right.integerPayload = some b) :
    compareValues left right = .ordered (compare a b) := by
  cases left <;> simp only [Value.integerPayload, reduceCtorEq, Option.some.injEq] at leftPayload <;>
    cases right <;> simp only [Value.integerPayload, reduceCtorEq, Option.some.injEq] at rightPayload <;>
    subst leftPayload <;> subst rightPayload <;> rfl

theorem compareValues_doubles {left right : Value} {a b : Float}
    (leftPayload : left.doublePayload = some a) (rightPayload : right.doublePayload = some b)
    (mixed : left.integerPayload = none ∨ right.integerPayload = none) :
    compareValues left right = .ofDoubles (compareDoubles a b) := by
  cases left <;> simp only [Value.doublePayload, Value.integerPayload, Option.map_some, Option.map_none,
      reduceCtorEq, Option.some.injEq] at leftPayload <;>
    cases right <;> simp only [Value.doublePayload, Value.integerPayload, Option.map_some,
      Option.map_none, reduceCtorEq, Option.some.injEq] at rightPayload <;>
    subst leftPayload <;> subst rightPayload <;>
    simp only [Value.integerPayload, reduceCtorEq, or_self, or_false, or_true] at mixed <;> rfl

theorem predicateHolds_integers {predicate : PushablePredicate} {value : Value} {number : Int}
    {literal : Int64} (payload : value.integerPayload = some number)
    (isLiteral : predicate.literal = .int64 literal) :
    predicateHolds predicate value ↔ Holds predicate.op number literal.toInt := by
  have literalPayload := literalValue_int64_payload literal predicate.literalType
  unfold predicateHolds
  rw [isLiteral, compareValues_integers payload literalPayload, ← accepts_compare]
  simp [Comparison.truth]

/-- A numeric value against a numeric literal, at least one of them a double. -/
theorem compareValues_literal {predicate : PushablePredicate} {value : Value} {number other : Float}
    (payload : value.doublePayload = some number)
    (literalNumber : asDouble predicate.literal = some other)
    (mixed : value.integerPayload = none ∨ ∀ literal, predicate.literal ≠ .int64 literal) :
    compareValues value (literalValue predicate.literal predicate.literalType) =
      .ofDoubles (compareDoubles number other) := by
  have literalPayload : (literalValue predicate.literal predicate.literalType).doublePayload =
      some other := by
    refine literalValue_doublePayload ?_ _
    cases shape : predicate.literal <;> rw [shape] at literalNumber <;> exact literalNumber
  refine compareValues_doubles payload literalPayload ?_
  rcases mixed with absent | absent
  · exact .inl absent
  · right
    cases shape : predicate.literal with
    | int64 literal => exact absurd shape (absent literal)
    | _ => rfl

theorem predicateHolds_doubles {predicate : PushablePredicate} {value : Value} {number other : Float}
    (payload : value.doublePayload = some number)
    (literalNumber : asDouble predicate.literal = some other)
    (mixed : value.integerPayload = none ∨ ∀ literal, predicate.literal ≠ .int64 literal) :
    predicateHolds predicate value ↔
      (Comparison.ofDoubles (compareDoubles number other)).truth predicate.op = .bool true := by
  unfold predicateHolds
  rw [compareValues_literal payload literalNumber mixed]

theorem truth_of_ranks {op : BinaryOperator} {left right : Float} {x y : ℤ ×ₗ ℤ ×ₗ ℤ}
    (leftRank : rank left = some x) (rightRank : rank right = some y) :
    (Comparison.ofDoubles (compareDoubles left right)).truth op = .bool true ↔ Holds op x y := by
  rw [compareDoubles_of_ranks leftRank rightRank, ← accepts_compare]
  simp [Comparison.ofDoubles, Comparison.truth]

theorem truth_of_unranked {op : BinaryOperator} (left : Float) {right : Float}
    (unranked : rank right = none) :
    (Comparison.ofDoubles (compareDoubles left right)).truth op = .bool true ↔ op = .notEqual := by
  rw [compareDoubles_of_unranked_right left unranked]
  simp [Comparison.ofDoubles, Comparison.truth]

theorem predicateHolds_strings {predicate : PushablePredicate} {text literal : String}
    (isLiteral : predicate.literal = .string literal) :
    predicateHolds predicate (.string text) ↔ Holds predicate.op text literal := by
  rw [← accepts_compare, LinearOrder.compare_eq_compareOfLessAndEq]
  simp [predicateHolds, isLiteral, literalValue, compareValues, comparePresent, Comparison.truth]

theorem predicateHolds_bools {predicate : PushablePredicate} {truth literal : Bool}
    (isLiteral : predicate.literal = .bool literal) :
    predicateHolds predicate (.bool truth) ↔ Holds predicate.op truth literal := by
  rw [← accepts_compare]
  simp [predicateHolds, isLiteral, literalValue, compareValues, comparePresent, Comparison.truth]

/-! ## One predicate -/

/-- What it takes to refute a predicate. -/
theorem predicateProvesEmpty_isSome_iff (predicate : PushablePredicate) (stats : ColumnStatistics) :
    (predicateProvesEmpty predicate stats).isSome = true ↔
      stats.hasMinMax = true ∧ predicate.literal ≠ .monostate ∧
        ∃ lower upper, compareLiterals stats.minValue predicate.literal = some lower ∧
          compareLiterals stats.maxValue predicate.literal = some upper ∧
          refutes predicate.op lower upper = true := by
  unfold predicateProvesEmpty
  cases stats.hasMinMax with
  | false => simp
  | true =>
    by_cases absent : predicate.literal = .monostate
    · simp [absent]
    · simp only [Bool.not_true, Bool.false_eq_true, if_false, absent, true_and, ne_eq,
        not_false_eq_true]
      cases compareLiterals stats.minValue predicate.literal with
      | none => simp
      | some lower =>
        cases compareLiterals stats.maxValue predicate.literal with
        | none => simp
        | some upper =>
          by_cases refuted : refutes predicate.op lower upper = true
          · simp [refuted]
          · simp [refuted]

theorem not_predicateHolds_null (predicate : PushablePredicate) : ¬ predicateHolds predicate .null := by
  unfold predicateHolds
  have notRaised : literalValue predicate.literal predicate.literalType ≠ .raised := by
    cases predicate.literal with
    | int64 value =>
      have payload := literalValue_int64_payload value predicate.literalType
      intro raised
      rw [raised] at payload
      cases payload
    | _ => simp [literalValue]
  cases shape : literalValue predicate.literal predicate.literalType <;>
    simp_all [compareValues, Comparison.truth]

/-- A refutation between doubles is right, whatever their types were. -/
theorem refutation_of_ranks {predicate : PushablePredicate} {number : Float}
    {lower upper value literal : ℤ ×ₗ ℤ ×ₗ ℤ} {minimum maximum other : Float}
    (minimumRank : rank minimum = some lower) (maximumRank : rank maximum = some upper)
    (numberRank : rank number = some value) (otherRank : rank other = some literal)
    (above : lower ≤ value) (below : value ≤ upper)
    (refuted : refutes predicate.op (doubleOrder minimum other) (doubleOrder maximum other) = true) :
    ¬ (Comparison.ofDoubles (compareDoubles number other)).truth predicate.op = .bool true := by
  rw [doubleOrder_of_ranks minimumRank otherRank, doubleOrder_of_ranks maximumRank otherRank] at refuted
  rw [truth_of_ranks numberRank otherRank]
  exact not_holds_of_refutes monotone_id above below refuted
    (not_collision_of_injective Function.injective_id _ _ _)

/-- The collisions of integer statistics with an integer literal. -/
theorem misjudged_integers_iff {predicate : PushablePredicate} {stats : ColumnStatistics}
    {lower upper literal : Int64} (isMin : stats.minValue = .int64 lower)
    (isMax : stats.maxValue = .int64 upper) (isLiteral : predicate.literal = .int64 literal) :
    Misjudged predicate stats ↔
      stats.hasMinMax = true ∧ lower.toInt ≤ upper.toInt ∧
        Collision predicate.op integerRank lower.toInt upper.toInt literal.toInt := by
  unfold Misjudged Collision
  rw [isMin, isMax, isLiteral]
  cases predicate.op <;>
    simp only [sameDouble_iff, Int64.le_iff_toInt_le, Int64.lt_iff_toInt_lt, ← Int64.toInt_inj]

/-- Integer statistics and an integer literal. -/
theorem refutation_integers {predicate : PushablePredicate} {stats : ColumnStatistics} {value : Value}
    {lower upper literal : Int64} {number : Int} (isMin : stats.minValue = .int64 lower)
    (isMax : stats.maxValue = .int64 upper) (isLiteral : predicate.literal = .int64 literal)
    (payload : value.integerPayload = some number) (above : lower.toInt ≤ number)
    (below : number ≤ upper.toInt) (refuted : (predicateProvesEmpty predicate stats).isSome = true)
    (judged : ¬ Misjudged predicate stats) : ¬ predicateHolds predicate value := by
  obtain ⟨recorded, _, low, high, lowEq, highEq, refuting⟩ :=
    (predicateProvesEmpty_isSome_iff predicate stats).mp refuted
  rw [isMin, isLiteral, compareLiterals_integers] at lowEq
  rw [isMax, isLiteral, compareLiterals_integers] at highEq
  obtain rfl := Option.some.inj lowEq
  obtain rfl := Option.some.inj highEq
  rw [predicateHolds_integers payload isLiteral]
  refine not_holds_of_refutes (fun _ _ le => integerRank_mono le) above below refuting ?_
  intro collision
  exact judged ((misjudged_integers_iff isMin isMax isLiteral).mpr
    ⟨recorded, above.trans below, collision⟩)

/-- Numeric statistics and a numeric literal, at least one of them a double. -/
theorem refutation_doubles {predicate : PushablePredicate} {stats : ColumnStatistics} {value : Value}
    {minimum maximum number other : Float} {x y z : ℤ ×ₗ ℤ ×ₗ ℤ}
    (isMin : asDouble stats.minValue = some minimum) (isMax : asDouble stats.maxValue = some maximum)
    (isLiteral : asDouble predicate.literal = some other) (payload : value.doublePayload = some number)
    (mixed : value.integerPayload = none ∨ ∀ literal, predicate.literal ≠ .int64 literal)
    (minimumRank : rank minimum = some x) (maximumRank : rank maximum = some y)
    (numberRank : rank number = some z) (above : x ≤ z) (below : z ≤ y)
    (refuted : (predicateProvesEmpty predicate stats).isSome = true)
    (judged : rank other = none → predicate.op ≠ .notEqual) : ¬ predicateHolds predicate value := by
  have comparedAsDoubles {bound : LiteralStorage} {limit : Float} (isBound : asDouble bound = some limit) :
      compareLiterals bound predicate.literal = some (doubleOrder limit other) := by
    cases bound <;> cases shape : predicate.literal <;> rw [shape] at isLiteral <;>
      simp_all [compareLiterals, asDouble]
  obtain ⟨_, _, low, high, lowEq, highEq, refuting⟩ :=
    (predicateProvesEmpty_isSome_iff predicate stats).mp refuted
  rw [comparedAsDoubles isMin] at lowEq
  rw [comparedAsDoubles isMax] at highEq
  obtain rfl := Option.some.inj lowEq
  obtain rfl := Option.some.inj highEq
  rw [predicateHolds_doubles payload isLiteral mixed]
  cases otherRank : rank other with
  | none =>
    rw [truth_of_unranked number otherRank]
    exact judged otherRank
  | some literal =>
    exact refutation_of_ranks minimumRank maximumRank numberRank otherRank above below refuting

/-- A refuted predicate that is not misjudged holds of no value within the statistics. -/
theorem not_predicateHolds_of_refuted {predicate : PushablePredicate} {stats : ColumnStatistics}
    {value : Value} (refuted : (predicateProvesEmpty predicate stats).isSome = true)
    (bounded : Bounds stats value) (judged : ¬ Misjudged predicate stats) :
    ¬ predicateHolds predicate value := by
  rcases bounded with rfl | within
  · exact not_predicateHolds_null predicate
  obtain ⟨recorded, present, low, high, lowEq, highEq, refuting⟩ :=
    (predicateProvesEmpty_isSome_iff predicate stats).mp refuted
  split at within
  · rename_i lower upper isMin isMax
    obtain ⟨number, payload, above, below⟩ := within
    cases shape : predicate.literal with
    | int64 literal => exact refutation_integers isMin isMax shape payload above below refuted judged
    | double literal =>
      have small : number.natAbs.log2 < 1000 :=
        log2_of_range (lower.le_toInt.trans above) (lt_of_le_of_lt below upper.toInt_lt)
      have numberPayload : value.doublePayload = some (ofInteger number) := by
        cases value <;> simp_all [Value.doublePayload, Value.integerPayload]
      refine refutation_doubles (by rw [isMin]; rfl) (by rw [isMax]; rfl) (by rw [shape]; rfl)
        numberPayload (.inr (fun other same => by rw [shape] at same; cases same))
        (rank_ofInteger (log2_int64 lower)) (rank_ofInteger (log2_int64 upper)) (rank_ofInteger small)
        (integerRank_mono above) (integerRank_mono below) refuted ?_
      intro unranked different
      refine judged ⟨recorded, ?_⟩
      rw [isMin, isMax, shape]
      exact ⟨Int64.le_iff_toInt_le.mpr (above.trans below), different, unranked⟩
    | _ =>
      rw [isMin, shape] at lowEq
      cases lowEq
  · rename_i lower upper isMin isMax
    obtain ⟨number, rfl, ⟨x, z, minimumRank, numberRank, above⟩, ⟨z', y, numberRank', maximumRank, below⟩⟩ :=
      within
    obtain rfl : z = z' := Option.some.inj (numberRank.symm.trans numberRank')
    have apply_doubles {other : Float} (isLiteral : asDouble predicate.literal = some other)
        (exactLiteral : rank other = none → predicate.op ≠ .notEqual) :
        ¬ predicateHolds predicate (.double number) :=
      refutation_doubles (by rw [isMin]; rfl) (by rw [isMax]; rfl) isLiteral rfl (.inl rfl)
        minimumRank maximumRank numberRank above below refuted exactLiteral
    cases shape : predicate.literal with
    | int64 literal =>
      refine apply_doubles (by rw [shape]; rfl) (fun unranked => ?_)
      rw [rank_ofInteger (log2_int64 literal)] at unranked
      cases unranked
    | double literal =>
      refine apply_doubles (by rw [shape]; rfl) (fun unranked different => ?_)
      refine judged ⟨recorded, ?_⟩
      rw [isMin, isMax, shape]
      exact ⟨⟨x, y, minimumRank, maximumRank, above.trans below⟩, different, unranked⟩
    | _ =>
      rw [isMin, shape] at lowEq
      cases lowEq
  · rename_i lower upper isMin isMax
    obtain ⟨text, rfl, above, below⟩ := within
    cases shape : predicate.literal with
    | string literal =>
      rw [isMin, shape, compareLiterals_strings] at lowEq
      rw [isMax, shape, compareLiterals_strings] at highEq
      obtain rfl := Option.some.inj lowEq
      obtain rfl := Option.some.inj highEq
      rw [predicateHolds_strings shape]
      exact not_holds_of_refutes monotone_id above below refuting
        (not_collision_of_injective Function.injective_id _ _ _)
    | _ =>
      rw [isMin, shape] at lowEq
      cases lowEq
  · rename_i lower upper isMin isMax
    obtain ⟨truth, rfl, above, below⟩ := within
    cases shape : predicate.literal with
    | bool literal =>
      rw [isMin, shape, compareLiterals_bools] at lowEq
      rw [isMax, shape, compareLiterals_bools] at highEq
      obtain rfl := Option.some.inj lowEq
      obtain rfl := Option.some.inj highEq
      rw [predicateHolds_bools shape]
      exact not_holds_of_refutes monotone_id above below refuting
        (not_collision_of_injective Function.injective_id _ _ _)
    | _ =>
      rw [isMin, shape] at lowEq
      cases lowEq
  · cases within

/-- The literal of a NaN comparison meets every numeric bound as an equal. -/
theorem proves_of_unranked {predicate : PushablePredicate} {stats : ColumnStatistics}
    {minimum maximum literal : Float} (recorded : stats.hasMinMax = true)
    (isMin : asDouble stats.minValue = some minimum) (isMax : asDouble stats.maxValue = some maximum)
    (isLiteral : predicate.literal = .double literal) (different : predicate.op = .notEqual)
    (unranked : rank literal = none) : (predicateProvesEmpty predicate stats).isSome = true := by
  have equalToBound {bound : LiteralStorage} {limit : Float} (isBound : asDouble bound = some limit) :
      compareLiterals bound predicate.literal = some .eq := by
    rw [isLiteral]
    cases bound <;> simp_all [compareLiterals, asDouble, doubleOrder_of_unranked]
  rw [predicateProvesEmpty_isSome_iff]
  refine ⟨recorded, by rw [isLiteral]; simp, .eq, .eq, equalToBound isMin, equalToBound isMax, ?_⟩
  rw [different]
  rfl

/-- A misjudged predicate is refuted although it holds of a value within the statistics. -/
theorem exists_of_misjudged {predicate : PushablePredicate} {stats : ColumnStatistics}
    (misjudged : Misjudged predicate stats) :
    (predicateProvesEmpty predicate stats).isSome = true ∧
      ∃ value, Bounds stats value ∧ predicateHolds predicate value := by
  obtain ⟨recorded, shape⟩ := misjudged
  split at shape
  · rename_i lower upper literal isMin isMax isLiteral
    obtain ⟨_, ordered, collision⟩ :=
      (misjudged_integers_iff isMin isMax isLiteral).mp
        ⟨recorded, by rw [isMin, isMax, isLiteral]; exact shape⟩
    refine ⟨(predicateProvesEmpty_isSome_iff predicate stats).mpr
      ⟨recorded, by rw [isLiteral]; simp, _, _, by rw [isMin, isLiteral, compareLiterals_integers],
        by rw [isMax, isLiteral, compareLiterals_integers], refutes_of_collision collision⟩, ?_⟩
    obtain ⟨number, above, below, holds⟩ := holds_of_collision ordered collision
    refine ⟨.int number, .inr ?_, (predicateHolds_integers rfl isLiteral).mpr holds⟩
    rw [isMin, isMax]
    exact ⟨number, rfl, above, below⟩
  · rename_i lower upper literal isMin isMax isLiteral
    obtain ⟨ordered, different, unranked⟩ := shape
    refine ⟨proves_of_unranked recorded (by rw [isMin]; rfl) (by rw [isMax]; rfl) isLiteral different
      unranked, .int lower.toInt, .inr ?_, ?_⟩
    · rw [isMin, isMax]
      exact ⟨lower.toInt, rfl, le_refl _, Int64.le_iff_toInt_le.mp ordered⟩
    · rw [predicateHolds_doubles rfl (by rw [isLiteral]; rfl)
        (.inr (fun other same => by rw [isLiteral] at same; cases same)), truth_of_unranked _ unranked]
      exact different
  · rename_i lower upper literal isMin isMax isLiteral
    obtain ⟨⟨x, y, lowerRank, upperRank, ordered⟩, different, unranked⟩ := shape
    refine ⟨proves_of_unranked recorded (by rw [isMin]; rfl) (by rw [isMax]; rfl) isLiteral different
      unranked, .double lower, .inr ?_, ?_⟩
    · rw [isMin, isMax]
      exact ⟨lower, rfl, ⟨x, x, lowerRank, lowerRank, le_refl _⟩, ⟨x, y, lowerRank, upperRank, ordered⟩⟩
    · rw [predicateHolds_doubles rfl (by rw [isLiteral]; rfl) (.inl rfl), truth_of_unranked _ unranked]
      exact different
  · cases shape

/-! ## Whole files -/

theorem index_injective (file : FileMetadata) {first second : RowGroupMetadata}
    (inFirst : first ∈ file.rowGroups) (inSecond : second ∈ file.rowGroups)
    (same : first.index = second.index) : first = second := by
  have distinctIndices : (file.rowGroups.map RowGroupMetadata.index).Nodup := by
    rw [file.numbered]
    exact List.nodup_range
  exact List.inj_on_of_nodup_map distinctIndices inFirst inSecond same

theorem skipReason_isSome_iff {group : RowGroupMetadata} {predicates : List PushablePredicate} :
    (skipReason group predicates).isSome = true ↔
      ∃ predicate ∈ predicates, ∃ stats, group.statisticsOf predicate.columnName = some stats ∧
        (predicateProvesEmpty predicate stats).isSome = true := by
  unfold skipReason
  rw [Option.isSome_map, List.findSome?_isSome_iff]
  refine exists_congr (fun predicate => and_congr_right (fun _ => ?_))
  cases group.statisticsOf predicate.columnName <;> simp

theorem skipped_iff (file : FileMetadata) (predicates : List PushablePredicate)
    {group : RowGroupMetadata} (member : group ∈ file.rowGroups) :
    group.index ∉ (evaluatePruning file predicates).selectedRowGroups ↔
      (skipReason group predicates).isSome = true := by
  constructor
  · intro leftOut
    by_contra kept
    refine leftOut (List.mem_map.mpr ⟨group, List.mem_filter.mpr ⟨member, ?_⟩, rfl⟩)
    simpa using kept
  · intro skipped selected
    obtain ⟨other, inSelected, same⟩ := List.mem_map.mp selected
    obtain ⟨inFile, kept⟩ := List.mem_filter.mp inSelected
    rw [index_injective file inFile member same] at kept
    simp [Option.isNone_iff_eq_none] at kept
    rw [kept] at skipped
    cases skipped

/-- A predicate is rightly refuted by the statistics that a row group records for its column. -/
def RightlyRefuted (group : RowGroupMetadata) (predicate : PushablePredicate) : Prop :=
  ∃ stats, group.statisticsOf predicate.columnName = some stats ∧
    (predicateProvesEmpty predicate stats).isSome = true ∧ ¬ Misjudged predicate stats

/-- A row group of a file in which some predicate is refuted has one that is rightly refuted. -/
def Judged (file : FileMetadata) (predicates : List PushablePredicate) : Prop :=
  ∀ group ∈ file.rowGroups, (skipReason group predicates).isSome = true →
    ∃ predicate ∈ predicates, RightlyRefuted group predicate

theorem sound_of_judged {file : FileMetadata} {predicates : List PushablePredicate}
    (judged : Judged file predicates) : PruningSound file predicates := by
  intro group member row bounded leftOut all
  obtain ⟨predicate, chosen, stats, recorded, refuted, right⟩ :=
    judged group member ((skipped_iff file predicates member).mp leftOut)
  have hasMinMax := ((predicateProvesEmpty_isSome_iff predicate stats).mp refuted).1
  exact not_predicateHolds_of_refuted refuted (bounded _ stats recorded hasMinMax) right
    (all predicate chosen)

/-- A single predicate that is refuted in a row group, but not rightly, loses a row. -/
theorem judged_of_sound {file : FileMetadata} {predicate : PushablePredicate}
    (sound : PruningSound file [predicate]) : Judged file [predicate] := by
  intro group member skipped
  obtain ⟨candidate, chosen, stats, recorded, refuted⟩ := skipReason_isSome_iff.mp skipped
  obtain rfl := List.mem_singleton.mp chosen
  refine ⟨candidate, chosen, stats, recorded, refuted, fun misjudged => ?_⟩
  obtain ⟨-, value, bounded, holds⟩ := exists_of_misjudged misjudged
  -- The lost row carries the lost value in the predicate's column and nulls elsewhere.
  refine sound group member (fun name => if name = candidate.columnName then value else .null) ?_
    ((skipped_iff file [candidate] member).mpr skipped) ?_
  · intro name others recordedOthers _
    by_cases same : name = candidate.columnName
    · subst same
      obtain rfl := Option.some.inj (recorded.symm.trans recordedOthers)
      simpa using bounded
    · exact .inl (by simp [same])
  · intro other single
    obtain rfl := List.mem_singleton.mp single
    simpa using holds

/-- A list loses a row exactly where a predicate is misjudged in a row group that admits a row on which all
predicates are `TRUE`. -/
theorem sound_iff_misjudged {file : FileMetadata} {predicates : List PushablePredicate} :
    PruningSound file predicates ↔ ∀ group ∈ file.rowGroups, ∀ row, RowBounded group row →
      (∀ predicate ∈ predicates, predicateHolds predicate (row predicate.columnName)) →
      ∀ predicate ∈ predicates, ∀ stats, group.statisticsOf predicate.columnName = some stats →
        ¬ Misjudged predicate stats := by
  constructor
  · intro sound group member row bounded all predicate chosen stats recorded misjudged
    refine sound group member row bounded ((skipped_iff file predicates member).mpr ?_) all
    exact skipReason_isSome_iff.mpr ⟨predicate, chosen, stats, recorded, (exists_of_misjudged misjudged).1⟩
  · intro harmless group member row bounded leftOut all
    obtain ⟨predicate, chosen, stats, recorded, refuted⟩ :=
      skipReason_isSome_iff.mp ((skipped_iff file predicates member).mp leftOut)
    have hasMinMax := ((predicateProvesEmpty_isSome_iff predicate stats).mp refuted).1
    exact not_predicateHolds_of_refuted refuted (bounded _ stats recorded hasMinMax)
      (harmless group member row bounded all predicate chosen stats recorded) (all predicate chosen)

/-- Pruning loses no row when every row group that is skipped has a predicate that is rightly refuted. For one
predicate this is exact; in a list a misjudged predicate does no harm where the others contradict it. -/
theorem evaluatePruning_loses_no_row (file : FileMetadata) (predicates : List PushablePredicate) :
    (Judged file predicates → PruningSound file predicates) ∧
      (∀ predicate, PruningSound file [predicate] ↔ Judged file [predicate]) ∧
      (PruningSound file predicates ↔ ∀ group ∈ file.rowGroups, ∀ row, RowBounded group row →
        (∀ predicate ∈ predicates, predicateHolds predicate (row predicate.columnName)) →
        ∀ predicate ∈ predicates, ∀ stats, group.statisticsOf predicate.columnName = some stats →
          ¬ Misjudged predicate stats) :=
  ⟨sound_of_judged, fun _ => ⟨judged_of_sound, sound_of_judged⟩, sound_iff_misjudged⟩

/-- One row group of one row: `x` is `2 ^ 53`. -/
def roundedFile : FileMetadata where
  path := "t.parquet"
  rowGroups := [⟨0, 1, [("x", ⟨true, .int64 9007199254740992, .int64 9007199254740992⟩)]⟩]
  numbered := rfl

/-- `WHERE x > 100000000000000000 AND x < 9007199254740993`: the second predicate is misjudged, but the first
is rightly refuted. -/
theorem evaluatePruning_loses_no_row_at_limit :
    PruningSound roundedFile
      [⟨"x", .greater, .int64 100000000000000000, int64Type⟩, ⟨"x", .less, .int64 9007199254740993, int64Type⟩] := by
  refine (evaluatePruning_loses_no_row roundedFile _).1 ?_
  intro group member _
  obtain rfl := List.mem_singleton.mp member
  refine ⟨_, List.mem_cons_self .., _, rfl, by decide +kernel, fun misjudged => ?_⟩
  exact absurd misjudged.2.2.1 (by decide)

/-- `WHERE x < 9007199254740993` skips the row group although its row satisfies the predicate. -/
theorem evaluatePruning_loses_row :
    ¬ ∀ (file : FileMetadata) (predicates : List PushablePredicate), PruningSound file predicates := by
  intro sound
  refine sound roundedFile [⟨"x", .less, .int64 9007199254740993, int64Type⟩] _
    (List.mem_singleton.mpr rfl) (fun _ => .int 9007199254740992) ?_ (by decide +kernel) ?_
  · intro name stats recorded _
    have isX : stats = ⟨true, .int64 9007199254740992, .int64 9007199254740992⟩ := by
      rw [RowGroupMetadata.statisticsOf, List.lookup_cons] at recorded
      split at recorded
      · exact (Option.some.inj recorded).symm
      · cases recorded
    subst isX
    exact .inr ⟨9007199254740992, rfl, by decide, by decide⟩
  · intro predicate chosen
    obtain rfl := List.mem_singleton.mp chosen
    refine (predicateHolds_integers rfl rfl).mpr ?_
    change (9007199254740992 : Int) < (9007199254740993 : Int64).toInt
    decide

end KernelLake.PruningProofs
