import KernelLake.Optimizer
import KernelLake.PruningProofs

/-!
When the predicates pushed to a scan follow from the filter they are taken from.

A pushed predicate is compared with a column's stored value, not with the value the filter computed:
casts are stripped from both sides, and both sides are read as one storage type. `ReadAs` says that
nothing was lost on the way. What can still go wrong then is the comparison itself, where two
numbers become one double or one of them is a NaN; `Collapsed` names exactly those comparisons.
-/

namespace KernelLake.Pushdown

open KernelLake.Types KernelLake.Expressions KernelLake.Evaluation KernelLake.LogicalPlans
open KernelLake.Library.Doubles KernelLake.Comparisons KernelLake.SimplificationProofs
open KernelLake.Optimizer KernelLake.Pruning KernelLake.PruningProofs

/-! ## Extractions -/

/-- A pushed predicate together with the comparison it was taken from: the column's position and
the two sides as the filter evaluates them. -/
structure Extraction where
  predicate : PushablePredicate
  columnIndex : Nat
  columnSide : Expression
  literalSide : Expression

/-- `pushableComparison`, keeping the comparison. -/
def extractComparison (op : BinaryOperator) (left right : Expression) : Option Extraction :=
  match unwrapCast left, unwrapCast right with
  | .column name columnIndex _, .literal value type =>
    some ⟨⟨name, op, value, type⟩, columnIndex, left, right⟩
  | .literal value type, .column name columnIndex _ =>
    some ⟨⟨name, flip op, value, type⟩, columnIndex, right, left⟩
  | _, _ => none

/-- `collectPushablePredicates`, keeping the comparisons. -/
def collectExtractions : Expression → List Extraction
  | .binary .and left right _ => collectExtractions left ++ collectExtractions right
  | .binary op left right _ =>
    if isComparison op then (extractComparison op left right).toList else []
  | _ => []

theorem extractComparison_predicate (op : BinaryOperator) (left right : Expression) :
    (extractComparison op left right).map Extraction.predicate = pushableComparison op left right := by
  unfold extractComparison pushableComparison
  cases unwrapCast left <;> cases unwrapCast right <;> rfl

theorem collectExtractions_predicates (predicate : Expression) :
    (collectExtractions predicate).map Extraction.predicate = collectPushablePredicates predicate := by
  fun_induction collectExtractions predicate with
  | case1 left right type ihLeft ihRight =>
    rw [collectPushablePredicates, List.map_append, ihLeft, ihRight]
  | case2 op left right type notAnd comparison =>
    rw [collectPushablePredicates, if_pos comparison, ← extractComparison_predicate]
    · cases extractComparison op left right <;> rfl
    · exact notAnd
  | case3 op left right type notAnd comparison =>
    rw [collectPushablePredicates, if_neg comparison]
    · rfl
    · exact notAnd
  | case4 predicate noAnd noBinary =>
    cases predicate with
    | binary op left right type => exact absurd rfl (noBinary op left right type)
    | _ => rfl

/-! ## Exchanging the sides of a comparison -/

theorem accepts_flip (op : BinaryOperator) (ordering : Ordering) :
    accepts (flip op) ordering.swap = accepts op ordering := by
  cases op <;> cases ordering <;> rfl

def Comparison.swap : Comparison → Comparison
  | .ordered ordering => .ordered ordering.swap
  | comparison => comparison

theorem Comparison.truth_flip (op : BinaryOperator) (comparison : Comparison) :
    (Comparison.swap comparison).truth (flip op) = comparison.truth op := by
  cases comparison with
  | ordered ordering => simp [Comparison.swap, Comparison.truth, accepts_flip]
  | _ => cases op <;> rfl

theorem compareOfLessAndEq_swap (left right : String) :
    compareOfLessAndEq right left = (compareOfLessAndEq left right).swap := by
  rw [← LinearOrder.compare_eq_compareOfLessAndEq, ← LinearOrder.compare_eq_compareOfLessAndEq,
    compare_swap]

theorem ofDoubles_swap (left right : Float) :
    Comparison.ofDoubles (compareDoubles right left) =
      Comparison.swap (Comparison.ofDoubles (compareDoubles left right)) := by
  rw [compareDoubles_swap left right]
  cases compareDoubles left right <;> rfl

theorem compareFractions_swap (left right : Int × Nat) :
    compareFractions right left = (compareFractions left right).swap := by
  unfold compareFractions
  rw [compare_swap]

theorem ordered_swap {left right : Ordering} (swapped : right = left.swap) :
    Comparison.ordered right = Comparison.swap (.ordered left) :=
  congrArg Comparison.ordered swapped

theorem swap_swap (comparison : Comparison) : Comparison.swap (Comparison.swap comparison) = comparison := by
  cases comparison <;> simp [Comparison.swap]

theorem compareValues_decimal_double (value : Float) (unscaled scale : Int) :
    compareValues (.decimal unscaled scale) (.double value) =
      Comparison.swap (compareValues (.double value) (.decimal unscaled scale)) := by
  simp only [compareValues, comparePresent, Value.integerPayload, decimalScale, Value.doublePayload,
    Option.map_none]
  cases asFraction scale (.double value) with
  | none => rfl
  | some fraction => exact ordered_swap (compareFractions_swap _ _)

theorem compareValues_swap (left right : Value) :
    compareValues right left = Comparison.swap (compareValues left right) := by
  cases left <;> cases right <;>
    first
    | rfl
    | exact ofDoubles_swap _ _
    | exact ordered_swap (compare_swap _ _).symm
    | exact ordered_swap (compareOfLessAndEq_swap _ _)
    | exact ordered_swap (compareFractions_swap _ _)
    | exact compareValues_decimal_double _ _ _
    | rw [compareValues_decimal_double, swap_swap]

/-! ## What a passing row says of the extracted comparisons -/

theorem andValue_eq_true {left right : Value} (both : andValue left right = .bool true) :
    left = .bool true ∧ right = .bool true := by
  have split := isTrue_andValue left right
  rw [both] at split
  simpa [Value.isTrue] using split.symm

theorem extractComparison_true {op : BinaryOperator} {left right : Expression} {row : Row}
    {extraction : Extraction} (extracted : extractComparison op left right = some extraction)
    (holds : (compareValues (eval left row) (eval right row)).truth op = .bool true) :
    (compareValues (eval extraction.columnSide row) (eval extraction.literalSide row)).truth
      extraction.predicate.op = .bool true := by
  unfold extractComparison at extracted
  split at extracted
  · obtain rfl := Option.some.inj extracted
    exact holds
  · obtain rfl := Option.some.inj extracted
    change (compareValues (eval right row) (eval left row)).truth (flip op) = .bool true
    rw [compareValues_swap (eval left row) (eval right row), Comparison.truth_flip]
    exact holds
  · cases extracted

/-- Every extracted comparison is `TRUE` on a row that passes the filter. -/
theorem extraction_true {predicate : Expression} {row : Row}
    (passes : eval predicate row = .bool true) {extraction : Extraction}
    (extracted : extraction ∈ collectExtractions predicate) :
    (compareValues (eval extraction.columnSide row) (eval extraction.literalSide row)).truth
      extraction.predicate.op = .bool true := by
  fun_induction collectExtractions predicate with
  | case1 left right type ihLeft ihRight =>
    have both : andValue (eval left row) (eval right row) = .bool true := by
      simpa [evalIn, binaryValue] using passes
    obtain ⟨leftTrue, rightTrue⟩ := andValue_eq_true both
    rcases List.mem_append.mp extracted with inLeft | inRight
    · exact ihLeft leftTrue inLeft
    · exact ihRight rightTrue inRight
  | case2 op left right type notAnd comparison =>
    refine extractComparison_true (Option.mem_toList.mp extracted) ?_
    cases op <;> first | exact absurd comparison (by decide) | exact passes
  | case3 op left right type notAnd comparison => cases extracted
  | case4 predicate noAnd noBinary => cases extracted

/-! ## Stored values -/

/-- A value as the file statistics hold it: integers, dates, timestamps and the unscaled integers of
decimals in 64 bits. -/
def storedValue : Value → LiteralStorage
  | .bool value => .bool value
  | .int value => .int64 (Int64.ofInt value)
  | .double value => .double value
  | .string value => .string value
  | .date days => .int64 (Int64.ofInt days)
  | .timestamp micros => .int64 (Int64.ofInt micros)
  | .decimal unscaled _ => .int64 (Int64.ofInt unscaled)
  | .null => .monostate
  | .raised => .monostate

/-- A number, in 64 bits if it is an integer, that converts to a given rank. A decimal has none; it is stored as its
units, which are another number unless the scale is zero. -/
def HasRank (value : Value) (place : Option (ℤ ×ₗ ℤ ×ₗ ℤ)) : Prop :=
  value.integerPayload.all inInt64 ∧ ∃ number, value.doublePayload = some number ∧ rank number = place

/-- A stored value reads as the value an expression computed: the same text, the same truth value,
or numbers that convert to the same double. -/
def ReadAs (stored : LiteralStorage) (value : Value) : Prop :=
  match stored with
  | .string text => value = .string text
  | .bool truth => value = .bool truth
  | stored => ∃ number, asDouble stored = some number ∧ HasRank value (rank number)

/-- A strict comparison of two numbers that are one double, or of a NaN. -/
def CollapsedTo (op : BinaryOperator) (left right : LiteralStorage) : Prop :=
  accepts op .eq = false ∧
    ∃ x y, asDouble left = some x ∧ asDouble right = some y ∧
      (rank x = rank y ∨ rank x = none ∨ rank y = none)

/-- An operator holds of two stored values under `compareLiterals`. -/
def HoldsStored (op : BinaryOperator) (left right : LiteralStorage) : Prop :=
  ∃ ordering, compareLiterals left right = some ordering ∧ accepts op ordering = true

theorem compareLiterals_numbers {left right : LiteralStorage} {x y : Float}
    (leftNumber : asDouble left = some x) (rightNumber : asDouble right = some y) :
    compareLiterals left right = some (doubleOrder x y) := by
  cases left <;> cases right <;> simp_all [compareLiterals, asDouble]

theorem doubleOrder_eq_iff (x y : Float) :
    doubleOrder x y = .eq ↔ rank x = rank y ∨ rank x = none ∨ rank y = none := by
  cases leftRank : rank x with
  | none => simp [doubleOrder, compareDoubles_of_unranked_left leftRank]
  | some a =>
    cases rightRank : rank y with
    | none => simp [doubleOrder_of_unranked x rightRank]
    | some b =>
      rw [doubleOrder_of_ranks leftRank rightRank, compare_eq_iff_eq]
      simp

theorem doublePayload_of_integerPayload {value : Value} {number : Int}
    (payload : value.integerPayload = some number) : value.doublePayload = some (ofInteger number) := by
  cases value <;> simp_all [Value.integerPayload, Value.doublePayload]

theorem integerRank_of_hasRank {value : Value} {number : Int} {place : ℤ ×ₗ ℤ ×ₗ ℤ}
    (hasRank : HasRank value (some place)) (payload : value.integerPayload = some number) :
    place = integerRank number := by
  obtain ⟨fits, x, double, xRank⟩ := hasRank
  have small : number.natAbs.log2 < 1000 := by
    simp only [payload, Option.all_some, inInt64, int64Min, int64Max, Bool.and_eq_true] at fits
    exact log2_of_range (of_decide_eq_true fits.1) (Int.lt_add_one_of_le (of_decide_eq_true fits.2))
  rw [doublePayload_of_integerPayload payload] at double
  obtain rfl := Option.some.inj double
  rw [rank_ofInteger small] at xRank
  exact (Option.some.inj xRank).symm

/-- Integers whose ranks differ are ordered as their ranks. -/
theorem compare_integerRank {m n : Int} (different : integerRank m ≠ integerRank n) :
    compare (integerRank m) (integerRank n) = compare m n := by
  rcases lt_trichotomy m n with below | same | above
  · rw [compare_lt_iff_lt.mpr below, compare_lt_iff_lt]
    exact lt_of_le_of_ne (integerRank_mono below.le) different
  · exact absurd (congrArg integerRank same) different
  · rw [compare_gt_iff_gt.mpr above, compare_gt_iff_gt]
    exact lt_of_le_of_ne (integerRank_mono above.le) different.symm

/-- Two numbers whose ranks differ compare as their ranks do, also where integers compare exactly. -/
theorem accepts_of_ranks {op : BinaryOperator} {left right : Value} {a b : ℤ ×ₗ ℤ ×ₗ ℤ}
    (leftRank : HasRank left (some a)) (rightRank : HasRank right (some b)) (different : a ≠ b)
    (holds : (compareValues left right).truth op = .bool true) : accepts op (compare a b) = true := by
  by_cases mixed : left.integerPayload = none ∨ right.integerPayload = none
  · obtain ⟨-, x, leftDouble, xRank⟩ := leftRank
    obtain ⟨-, y, rightDouble, yRank⟩ := rightRank
    rw [compareValues_doubles leftDouble rightDouble mixed, truth_of_ranks xRank yRank] at holds
    exact (accepts_compare op a b).mpr holds
  · obtain ⟨leftPresent, rightPresent⟩ := not_or.mp mixed
    obtain ⟨m, leftInteger⟩ := Option.ne_none_iff_exists'.mp leftPresent
    obtain ⟨n, rightInteger⟩ := Option.ne_none_iff_exists'.mp rightPresent
    obtain rfl := integerRank_of_hasRank leftRank leftInteger
    obtain rfl := integerRank_of_hasRank rightRank rightInteger
    rw [compareValues_integers leftInteger rightInteger] at holds
    rw [compare_integerRank different]
    exact Value.bool.inj holds

theorem holdsStored_iff_of_numbers {op : BinaryOperator} {left right : LiteralStorage} {x y : Float}
    {leftValue rightValue : Value} (leftNumber : asDouble left = some x)
    (rightNumber : asDouble right = some y) (leftRank : HasRank leftValue (rank x))
    (rightRank : HasRank rightValue (rank y))
    (holds : (compareValues leftValue rightValue).truth op = .bool true) :
    HoldsStored op left right ↔ ¬ CollapsedTo op left right := by
  have stored_iff : HoldsStored op left right ↔ accepts op (doubleOrder x y) = true := by
    simp [HoldsStored, compareLiterals_numbers leftNumber rightNumber]
  have collapsed_iff : CollapsedTo op left right ↔
      accepts op .eq = false ∧ doubleOrder x y = .eq := by
    simp [CollapsedTo, leftNumber, rightNumber, doubleOrder_eq_iff]
  rw [stored_iff, collapsed_iff]
  by_cases same : doubleOrder x y = .eq
  · simp [same]
  · simp only [same, and_false, not_false_eq_true, iff_true]
    obtain ⟨different, leftRanked, rightRanked⟩ := by
      simpa [doubleOrder_eq_iff, not_or] using same
    obtain ⟨a, xRank⟩ := Option.ne_none_iff_exists'.mp leftRanked
    obtain ⟨b, yRank⟩ := Option.ne_none_iff_exists'.mp rightRanked
    rw [doubleOrder_of_ranks xRank yRank]
    rw [xRank] at leftRank different
    rw [yRank] at rightRank different
    exact accepts_of_ranks leftRank rightRank (fun equal => different (congrArg some equal)) holds

theorem holdsStored_strings {op : BinaryOperator} {left right : String}
    (holds : (compareValues (.string left) (.string right)).truth op = .bool true) :
    HoldsStored op (.string left) (.string right) := by
  refine ⟨_, compareLiterals_strings left right, ?_⟩
  rw [LinearOrder.compare_eq_compareOfLessAndEq]
  exact Value.bool.inj holds

theorem holdsStored_bools {op : BinaryOperator} {left right : Bool}
    (holds : (compareValues (.bool left) (.bool right)).truth op = .bool true) :
    HoldsStored op (.bool left) (.bool right) :=
  ⟨_, compareLiterals_bools left right, Value.bool.inj holds⟩

theorem not_collapsedTo_of_text {op : BinaryOperator} {left right : LiteralStorage}
    (noNumber : asDouble left = none) : ¬ CollapsedTo op left right := by
  rintro ⟨-, x, y, number, -⟩
  rw [noNumber] at number
  cases number

/-- Where both sides read as computed, a comparison that the filter found `TRUE` holds of the stored
values exactly when it does not collapse. -/
theorem holdsStored_iff_not_collapsedTo {op : BinaryOperator} {left right : LiteralStorage}
    {leftValue rightValue : Value} (leftRead : ReadAs left leftValue)
    (rightRead : ReadAs right rightValue)
    (holds : (compareValues leftValue rightValue).truth op = .bool true) :
    HoldsStored op left right ↔ ¬ CollapsedTo op left right := by
  have number_of_rank {value : Value} {place : Option (ℤ ×ₗ ℤ ×ₗ ℤ)} (hasRank : HasRank value place) :
      value.doublePayload ≠ none := by
    obtain ⟨-, number, payload, -⟩ := hasRank
    simp [payload]
  cases left with
  | string text =>
    obtain rfl : leftValue = .string text := leftRead
    refine iff_of_true ?_ (not_collapsedTo_of_text rfl)
    cases right with
    | string text' =>
      obtain rfl : rightValue = .string text' := rightRead
      exact holdsStored_strings holds
    | bool truth =>
      obtain rfl : rightValue = .bool truth := rightRead
      cases holds
    | _ =>
      obtain ⟨number, -, hasRank⟩ := rightRead
      cases rightValue <;> first | cases holds | exact absurd rfl (number_of_rank hasRank)
  | bool truth =>
    obtain rfl : leftValue = .bool truth := leftRead
    refine iff_of_true ?_ (not_collapsedTo_of_text rfl)
    cases right with
    | bool truth' =>
      obtain rfl : rightValue = .bool truth' := rightRead
      exact holdsStored_bools holds
    | string text =>
      obtain rfl : rightValue = .string text := rightRead
      cases holds
    | _ =>
      obtain ⟨number, -, hasRank⟩ := rightRead
      cases rightValue <;> first | cases holds | exact absurd rfl (number_of_rank hasRank)
  | _ =>
    obtain ⟨x, leftNumber, leftRank⟩ := leftRead
    cases right with
    | string text =>
      obtain rfl : rightValue = .string text := rightRead
      cases leftValue <;> first | cases holds | exact absurd rfl (number_of_rank leftRank)
    | bool truth =>
      obtain rfl : rightValue = .bool truth := rightRead
      cases leftValue <;> first | cases holds | exact absurd rfl (number_of_rank leftRank)
    | _ =>
      obtain ⟨y, rightNumber, rightRank⟩ := rightRead
      exact holdsStored_iff_of_numbers leftNumber rightNumber leftRank rightRank holds

/-! ## Filters -/

/-- The column's stored value on a row. -/
def Extraction.stored (extraction : Extraction) (row : Row) : LiteralStorage :=
  storedValue (row.getD extraction.columnIndex .raised)

/-- The pushed predicate holds of the column's stored value. -/
def Extraction.Implied (extraction : Extraction) (row : Row) : Prop :=
  HoldsStored extraction.predicate.op (extraction.stored row) extraction.predicate.literal

/-- No stripped cast and no storage conversion changes what either side of the comparison reads as. -/
def Extraction.Faithful (extraction : Extraction) (row : Row) : Prop :=
  ReadAs (extraction.stored row) (eval extraction.columnSide row) ∧
    ReadAs extraction.predicate.literal (eval extraction.literalSide row)

/-- The comparison is strict, and its two sides are one double or a NaN. -/
def Extraction.Collapsed (extraction : Extraction) (row : Row) : Prop :=
  CollapsedTo extraction.predicate.op (extraction.stored row) extraction.predicate.literal

/-- The predicates that are pushed to a scan hold of the stored values of every row that passes the
filter, exactly when no comparison collapses, as long as every comparison reads as it was computed. -/
theorem collectPushablePredicates_implied (predicate : Expression) (row : Row) :
    (collectExtractions predicate).map Extraction.predicate = collectPushablePredicates predicate ∧
      (eval predicate row = .bool true →
        (∀ extraction ∈ collectExtractions predicate, extraction.Faithful row) →
          ((∀ extraction ∈ collectExtractions predicate, extraction.Implied row) ↔
            ∀ extraction ∈ collectExtractions predicate, ¬ extraction.Collapsed row)) := by
  refine ⟨collectExtractions_predicates predicate, fun passes faithful => ?_⟩
  refine forall_congr' (fun extraction => forall_congr' (fun extracted => ?_))
  obtain ⟨columnRead, literalRead⟩ := faithful extraction extracted
  exact holdsStored_iff_not_collapsedTo columnRead literalRead (extraction_true passes extracted)

/-- `2.5 > CAST(x AS DOUBLE) AND x <> 3`, the cast one that the binder inserts. -/
def widenedFilter : Expression :=
  .binary .and
    (.binary .greater (makeFloat64 2.5) (.cast (.column "x" 0 int64Type) float64Type) booleanType)
    (.binary .notEqual (.column "x" 0 int64Type) (makeInt64 3) booleanType) booleanType

theorem collectPushablePredicates_implied_widened :
    ∀ extraction ∈ collectExtractions widenedFilter, extraction.Implied [.int 2] := by
  refine ((collectPushablePredicates_implied widenedFilter [.int 2]).2 (by decide +kernel) ?_).mpr ?_
  · refine List.forall_mem_cons.mpr ⟨⟨?_, ?_⟩, List.forall_mem_cons.mpr ⟨⟨?_, ?_⟩, List.forall_mem_nil _⟩⟩
    · exact ⟨_, rfl, by decide +kernel, _, rfl, by decide +kernel⟩
    · exact ⟨_, rfl, by decide +kernel, _, rfl, rfl⟩
    · exact ⟨_, rfl, by decide +kernel, _, rfl, by decide +kernel⟩
    · exact ⟨_, rfl, by decide +kernel, _, rfl, rfl⟩
  · refine List.forall_mem_cons.mpr ⟨?_, List.forall_mem_cons.mpr ⟨?_, List.forall_mem_nil _⟩⟩
    · rintro ⟨-, x, y, isX, isY, same⟩
      obtain rfl := Option.some.inj isX
      obtain rfl := Option.some.inj isY
      revert same
      decide +kernel
    · rintro ⟨-, x, y, isX, isY, same⟩
      obtain rfl := Option.some.inj isX
      obtain rfl := Option.some.inj isY
      revert same
      decide +kernel

/-- `CAST(price AS BIGINT) = 5` -/
def truncatingFilter : Expression :=
  .binary .equal (.cast (.column "price" 0 float64Type) int64Type) (makeInt64 5) booleanType

/-- A price of 5.5 passes the filter, and the pushed predicate `price = 5` does not hold of it. -/
theorem collectPushablePredicates_not_implied :
    ¬ ∀ (predicate : Expression) (row : Row), eval predicate row = .bool true →
      ∀ extraction ∈ collectExtractions predicate, extraction.Implied row := by
  intro implied
  have held := implied truncatingFilter [.double 5.5] (by decide +kernel)
    ⟨⟨"price", .equal, .int64 5, int64Type false⟩, 0, .cast (.column "price" 0 float64Type) int64Type,
      makeInt64 5⟩ (List.mem_singleton.mpr rfl)
  obtain ⟨ordering, compared, accepted⟩ := held
  have above : compareLiterals (.double 5.5) (.int64 5) = some .gt := by decide +kernel
  obtain rfl := Option.some.inj (above.symm.trans compared)
  cases accepted

end KernelLake.Pushdown
