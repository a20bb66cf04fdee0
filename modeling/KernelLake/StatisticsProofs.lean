import KernelLake.Pushdown
import KernelLake.Statistics

/-!
When decoded statistics bound the values of their column.

Decoding looks at the physical type only. It is faithful for columns whose stored integers are their
values: not for decimals, whose scale is lost, not for timestamps in another unit than microseconds,
and for unsigned columns only below half of their range. `Direct` collects these conditions; with
them the decoded bounds hold in every comparison that rounding does not blur.
-/

namespace KernelLake.StatisticsProofs

open KernelLake.Types KernelLake.Expressions KernelLake.Evaluation KernelLake.LogicalPlans
open KernelLake.Library.Doubles KernelLake.Comparisons KernelLake.SimplificationProofs
open KernelLake.Pruning KernelLake.PruningProofs KernelLake.Pushdown KernelLake.Statistics

/-! ## What a writer guarantees -/

/-- The statistics bound every value in an order of the stored values. -/
def Within {α : Type} (atMost : α → α → Prop) (stats : TypedStatistics α) : Prop :=
  stats.hasMinMax = true → ∀ raw, some raw ∈ stats.values → atMost stats.min raw ∧ atMost raw stats.max

/-- Doubles are bounded apart from NaNs, which statistics leave out. -/
def doubleWithin (left right : Float) : Prop :=
  rank left = none ∨ rank right = none ∨ doubleAtMost left right

def int32AtMost : Int32LogicalType → Int32 → Int32 → Prop
  | .unsigned, left, right => left.toUInt32 ≤ right.toUInt32
  | _, left, right => left ≤ right

def int64AtMost : Int64LogicalType → Int64 → Int64 → Prop
  | .unsigned, left, right => left.toUInt64 ≤ right.toUInt64
  | _, left, right => left ≤ right

/-- The recorded bounds are numbers, unless nothing is recorded. -/
def numberBounds (stats : TypedStatistics Float) : Prop :=
  stats.hasMinMax = true → rank stats.min ≠ none ∧ rank stats.max ≠ none

/-- The minimum and maximum are what the format says: bounds in the order of the column's annotation. -/
def Bounded : ColumnChunk → Prop
  | .boolean stats => Within (· ≤ ·) stats
  | .int32 logicalType stats => Within (int32AtMost logicalType) stats
  | .int64 logicalType stats => Within (int64AtMost logicalType) stats
  | .float stats => numberBounds stats ∧ Within doubleWithin stats
  | .double stats => numberBounds stats ∧ Within doubleWithin stats
  | .text stats => Within (· ≤ ·) stats
  | .decimalBytes _ stats =>
    Within (fun left right => fromBigEndian left ≤ fromBigEndian right) stats
  | .fixedDecimal _ stats =>
    Within (fun left right => fromBigEndian left ≤ fromBigEndian right) stats
  | .int96 stats => Within (· ≤ ·) stats

/-! ## What decoding needs -/

/-- The stored integers of a chunk, where it has some, are its values. -/
def Direct : ColumnChunk → Prop
  | .int32 .unsigned stats => 0 ≤ stats.max
  | .int32 (.decimal _) _ => False
  | .int64 .unsigned stats => 0 ≤ stats.max
  | .int64 (.timestamp unit) _ => unit = .micros
  | .int64 (.decimal _) _ => False
  | _ => True

/-- No integer bound differs from the literal, on its own side of it, and becomes the same double. -/
def Separated (stats : ColumnStatistics) (literal : LiteralStorage) : Prop :=
  match stats.minValue, stats.maxValue, literal with
  | .int64 lower, .int64 upper, .int64 literal =>
    ¬(lower < literal ∧ sameDouble lower literal) ∧ ¬(literal < upper ∧ sameDouble upper literal)
  | _, _, _ => True

/-- Under `<>` neither the literal nor a value of the column is a NaN. -/
def NoNaN (column : ColumnChunk) (predicate : PushablePredicate) : Prop :=
  predicate.op = .notEqual →
    (∀ literal, predicate.literal = .double literal → rank literal ≠ none) ∧
      ∀ number, Value.double number ∈ column.rows → rank number ≠ none

/-! ## What decoding promises -/

/-- One ordering is at most another, in the order less, equal, greater. -/
def atMost : Ordering → Ordering → Bool
  | .lt, _ => true
  | .eq, .lt => false
  | .eq, _ => true
  | .gt, .gt => true
  | .gt, _ => false

/-- The decoded bounds stand on either side of a value in the comparison with a literal. -/
def BoundsCompared (stats : ColumnStatistics) (predicate : PushablePredicate) (value : Value) : Prop :=
  ∀ ordering,
    compareValues value (literalValue predicate.literal predicate.literalType) = .ordered ordering →
      (∀ lower, compareLiterals stats.minValue predicate.literal = some lower →
          atMost lower ordering = true) ∧
        ∀ upper, compareLiterals stats.maxValue predicate.literal = some upper →
          atMost ordering upper = true

/-- No row on which the predicate is `TRUE` is refuted by the decoded statistics. -/
def NeverRefuted (column : ColumnChunk) (predicate : PushablePredicate) : Prop :=
  ∀ value ∈ column.rows, predicateHolds predicate value →
    predicateProvesEmpty predicate (extractColumnStatistics column) = none

def DecodedFaithfully (column : ColumnChunk) (predicate : PushablePredicate) : Prop :=
  ((extractColumnStatistics column).hasMinMax = true →
      ∀ value ∈ column.rows, BoundsCompared (extractColumnStatistics column) predicate value) ∧
    NeverRefuted column predicate

theorem atMost_compare {α : Type} [LinearOrder α] {first second : α} (le : first ≤ second)
    (literal : α) : atMost (compare first literal) (compare second literal) = true := by
  rcases lt_trichotomy first literal with below | same | above
  · rw [compare_lt_iff_lt.mpr below]
    rfl
  · subst same
    rw [compare_eq_iff_eq.mpr rfl]
    cases ordering : compare second first with
    | lt => exact absurd (compare_lt_iff_lt.mp ordering) (not_lt_of_ge le)
    | eq => rfl
    | gt => rfl
  · rw [compare_gt_iff_gt.mpr above, compare_gt_iff_gt.mpr (lt_of_lt_of_le above le)]
    rfl

/-- Comparisons on either side of an accepted one do not refute the operator. -/
theorem not_refutes_of_atMost {op : BinaryOperator} {lower ordering upper : Ordering}
    (below : atMost lower ordering = true) (above : atMost ordering upper = true)
    (accepted : accepts op ordering = true) : refutes op lower upper = false := by
  revert lower ordering upper
  cases op <;> decide

/-! ## Bounds of values are bounds of comparisons -/

theorem rank_int64 (value : Int64) : rank (ofInteger value.toInt) = some (integerRank value.toInt) :=
  rank_ofInteger (log2_int64 value)

/-- A lower bound that rounding does not move onto the literal, from below, stays one. -/
theorem atMost_of_lower {lower literal : Int64} {number : Int} (above : lower.toInt ≤ number)
    (separated : ¬(lower < literal ∧ sameDouble lower literal)) :
    atMost (compare (integerRank lower.toInt) (integerRank literal.toInt))
      (compare number literal.toInt) = true := by
  by_cases same : integerRank lower.toInt = integerRank literal.toInt
  · have reached : literal.toInt ≤ lower.toInt := by
      by_contra below
      exact separated ⟨Int64.lt_iff_toInt_lt.mpr (lt_of_not_ge below), (sameDouble_iff _ _).mpr same⟩
    rw [compare_eq_iff_eq.mpr same]
    cases ordering : compare number literal.toInt with
    | lt => exact absurd (compare_lt_iff_lt.mp ordering) (not_lt_of_ge (reached.trans above))
    | eq => rfl
    | gt => rfl
  · rw [compare_integerRank same]
    exact atMost_compare above _

theorem atMost_of_upper {upper literal : Int64} {number : Int} (below : number ≤ upper.toInt)
    (separated : ¬(literal < upper ∧ sameDouble upper literal)) :
    atMost (compare number literal.toInt)
      (compare (integerRank upper.toInt) (integerRank literal.toInt)) = true := by
  by_cases same : integerRank upper.toInt = integerRank literal.toInt
  · have reached : upper.toInt ≤ literal.toInt := by
      by_contra above
      exact separated ⟨Int64.lt_iff_toInt_lt.mpr (lt_of_not_ge above), (sameDouble_iff _ _).mpr same⟩
    rw [compare_eq_iff_eq.mpr same]
    cases ordering : compare number literal.toInt with
    | gt => exact absurd (compare_gt_iff_gt.mp ordering) (not_lt_of_ge (below.trans reached))
    | eq => rfl
    | lt => rfl
  · rw [compare_integerRank same]
    exact atMost_compare below _

/-- Elements of one linear order that all comparisons read off. -/
theorem boundsCompared_of_orders {α : Type} [LinearOrder α] {stats : ColumnStatistics}
    {predicate : PushablePredicate} {value : Value} {lower upper element : α} (literal : α)
    (valueOrder : compareValues value (literalValue predicate.literal predicate.literalType) =
      .ordered (compare element literal))
    (lowerOrder : compareLiterals stats.minValue predicate.literal = some (compare lower literal))
    (upperOrder : compareLiterals stats.maxValue predicate.literal = some (compare upper literal))
    (above : lower ≤ element) (below : element ≤ upper) : BoundsCompared stats predicate value := by
  intro ordering compared
  obtain rfl := Comparison.ordered.inj (valueOrder.symm.trans compared)
  refine ⟨fun first isLower => ?_, fun second isUpper => ?_⟩
  · obtain rfl := Option.some.inj (lowerOrder.symm.trans isLower)
    exact atMost_compare above literal
  · obtain rfl := Option.some.inj (upperOrder.symm.trans isUpper)
    exact atMost_compare below literal

/-- Numbers bounded in rank are bounded in every comparison with a double. -/
theorem boundsCompared_ranks {stats : ColumnStatistics} {predicate : PushablePredicate} {value : Value}
    {minimum maximum number literal : Float} {x y z : ℤ ×ₗ ℤ ×ₗ ℤ}
    (isMin : asDouble stats.minValue = some minimum) (isMax : asDouble stats.maxValue = some maximum)
    (isLiteral : asDouble predicate.literal = some literal)
    (payload : value.doublePayload = some number)
    (mixed : value.integerPayload = none ∨ ∀ literal, predicate.literal ≠ .int64 literal)
    (minimumRank : rank minimum = some x) (maximumRank : rank maximum = some y)
    (numberRank : rank number = some z) (above : x ≤ z) (below : z ≤ y) :
    BoundsCompared stats predicate value := by
  have valueOrder := compareValues_literal payload isLiteral mixed
  cases literalRank : rank literal with
  | none =>
    rw [compareDoubles_of_unranked_right number literalRank] at valueOrder
    intro ordering compared
    cases valueOrder.symm.trans compared
  | some w =>
    rw [compareDoubles_of_ranks numberRank literalRank] at valueOrder
    refine boundsCompared_of_orders w valueOrder ?_ ?_ above below
    · rw [compareLiterals_numbers isMin isLiteral, doubleOrder_of_ranks minimumRank literalRank]
    · rw [compareLiterals_numbers isMax isLiteral, doubleOrder_of_ranks maximumRank literalRank]

theorem boundsCompared_incomparable {stats : ColumnStatistics} {predicate : PushablePredicate}
    {value : Value} (noMin : compareLiterals stats.minValue predicate.literal = none)
    (noMax : compareLiterals stats.maxValue predicate.literal = none) :
    BoundsCompared stats predicate value := by
  intro ordering _
  simp [noMin, noMax]

/-- A value within integer bounds. -/
theorem boundsCompared_integers {stats : ColumnStatistics} {predicate : PushablePredicate}
    {value : Value} {lower upper : Int64} {number : Int} (isMin : stats.minValue = .int64 lower)
    (isMax : stats.maxValue = .int64 upper) (payload : value.integerPayload = some number)
    (above : lower.toInt ≤ number) (below : number ≤ upper.toInt)
    (separated : Separated stats predicate.literal) : BoundsCompared stats predicate value := by
  cases shape : predicate.literal with
  | int64 literal =>
    simp only [Separated, isMin, isMax, shape] at separated
    intro ordering compared
    rw [shape, compareValues_integers payload (literalValue_int64_payload literal _)] at compared
    obtain rfl := Comparison.ordered.inj compared
    rw [isMin, isMax, shape, compareLiterals_integers, compareLiterals_integers]
    refine ⟨fun lower isLower => ?_, fun upper isUpper => ?_⟩
    · obtain rfl := Option.some.inj isLower
      exact atMost_of_lower above separated.1
    · obtain rfl := Option.some.inj isUpper
      exact atMost_of_upper below separated.2
  | double literal =>
    have small : number.natAbs.log2 < 1000 :=
      log2_of_range (lower.le_toInt.trans above) (lt_of_le_of_lt below upper.toInt_lt)
    exact boundsCompared_ranks (by rw [isMin]; rfl) (by rw [isMax]; rfl) (by rw [shape]; rfl)
      (doublePayload_of_integerPayload payload) (.inr (fun other same => by rw [shape] at same; cases same))
      (rank_int64 lower) (rank_int64 upper) (rank_ofInteger small) (integerRank_mono above)
      (integerRank_mono below)
  | _ => exact boundsCompared_incomparable (by rw [isMin, shape]; rfl) (by rw [isMax, shape]; rfl)

/-- A double within bounds that are doubles. -/
theorem boundsCompared_doubles {stats : ColumnStatistics} {predicate : PushablePredicate}
    {lower upper number : Float} (isMin : stats.minValue = .double lower)
    (isMax : stats.maxValue = .double upper) (above : doubleAtMost lower number)
    (below : doubleAtMost number upper) : BoundsCompared stats predicate (.double number) := by
  obtain ⟨x, z, lowerRank, numberRank, least⟩ := above
  obtain ⟨z', y, numberRank', upperRank, greatest⟩ := below
  obtain rfl : z = z' := Option.some.inj (numberRank.symm.trans numberRank')
  have apply_ranks {literal : Float} (isLiteral : asDouble predicate.literal = some literal) :
      BoundsCompared stats predicate (.double number) :=
    boundsCompared_ranks (by rw [isMin]; rfl) (by rw [isMax]; rfl) isLiteral rfl (.inl rfl) lowerRank
      upperRank numberRank least greatest
  cases shape : predicate.literal with
  | int64 literal => exact apply_ranks (by rw [shape]; rfl)
  | double literal => exact apply_ranks (by rw [shape]; rfl)
  | _ => exact boundsCompared_incomparable (by rw [isMin, shape]; rfl) (by rw [isMax, shape]; rfl)

theorem boundsCompared_strings {stats : ColumnStatistics} {predicate : PushablePredicate}
    {lower upper text : String} (isMin : stats.minValue = .string lower)
    (isMax : stats.maxValue = .string upper) (above : lower ≤ text) (below : text ≤ upper) :
    BoundsCompared stats predicate (.string text) := by
  cases shape : predicate.literal with
  | string literal =>
    refine boundsCompared_of_orders literal ?_ ?_ ?_ above below
    · rw [shape]
      exact congrArg Comparison.ordered (LinearOrder.compare_eq_compareOfLessAndEq text literal).symm
    · rw [isMin, shape, compareLiterals_strings]
    · rw [isMax, shape, compareLiterals_strings]
  | _ => exact boundsCompared_incomparable (by rw [isMin, shape]; rfl) (by rw [isMax, shape]; rfl)

theorem boundsCompared_bools {stats : ColumnStatistics} {predicate : PushablePredicate}
    {lower upper truth : Bool} (isMin : stats.minValue = .bool lower)
    (isMax : stats.maxValue = .bool upper) (above : lower ≤ truth) (below : truth ≤ upper) :
    BoundsCompared stats predicate (.bool truth) := by
  cases shape : predicate.literal with
  | bool literal =>
    refine boundsCompared_of_orders literal ?_ ?_ ?_ above below
    · rw [shape]
      rfl
    · rw [isMin, shape, compareLiterals_bools]
    · rw [isMax, shape, compareLiterals_bools]
  | _ => exact boundsCompared_incomparable (by rw [isMin, shape]; rfl) (by rw [isMax, shape]; rfl)

theorem boundsCompared_null (stats : ColumnStatistics) (predicate : PushablePredicate) :
    BoundsCompared stats predicate .null := by
  intro ordering compared
  generalize literalValue predicate.literal predicate.literalType = other at compared
  cases other <;> cases compared

/-- A NaN is unordered with every literal. -/
theorem boundsCompared_unranked (stats : ColumnStatistics) (predicate : PushablePredicate)
    {number : Float} (unranked : rank number = none) :
    BoundsCompared stats predicate (.double number) := by
  intro ordering compared
  cases isLiteral : asDouble predicate.literal with
  | none =>
    cases shape : predicate.literal <;> rw [shape] at compared isLiteral <;>
      first
      | cases compared
      | cases isLiteral
  | some other =>
    rw [compareValues_literal rfl isLiteral (.inl rfl), compareDoubles_of_unranked_left unranked]
      at compared
    cases compared

/-! ## Chunks -/

theorem statistics_of_decoded {column : ColumnChunk} {minValue maxValue : LiteralStorage}
    (isMin : decodeStatistic true column = some minValue)
    (isMax : decodeStatistic false column = some maxValue)
    (recorded : (extractColumnStatistics column).hasMinMax = true) :
    column.hasMinMax = true ∧ (extractColumnStatistics column).minValue = minValue ∧
      (extractColumnStatistics column).maxValue = maxValue := by
  unfold extractColumnStatistics at recorded ⊢
  cases hasMinMax : column.hasMinMax with
  | false =>
    rw [hasMinMax] at recorded
    cases recorded
  | true => simp [isMin, isMax]

theorem mem_map_elim {α : Type} {present : α → Value} {values : List (Option α)} {value : Value}
    (member : value ∈ values.map (·.elim .null present)) :
    value = .null ∨ ∃ raw, some raw ∈ values ∧ value = present raw := by
  obtain ⟨stored, inValues, rfl⟩ := List.mem_map.mp member
  cases stored with
  | none => exact .inl rfl
  | some raw => exact .inr ⟨raw, inValues, rfl⟩

theorem boundsCompared_number {stats : TypedStatistics Float} {column : ColumnChunk}
    (decoded : ∀ wantMin, decodeStatistic wantMin column = some (.double (stats.bound wantMin)))
    (same : column.hasMinMax = stats.hasMinMax)
    (bounded : numberBounds stats ∧ Within doubleWithin stats)
    (recorded : (extractColumnStatistics column).hasMinMax = true) {raw : Float}
    (member : some raw ∈ stats.values) (predicate : PushablePredicate) :
    BoundsCompared (extractColumnStatistics column) predicate (.double raw) := by
  obtain ⟨hasMinMax, isMin, isMax⟩ := statistics_of_decoded (decoded true) (decoded false) recorded
  rw [same] at hasMinMax
  by_cases unranked : rank raw = none
  · exact boundsCompared_unranked _ predicate unranked
  · obtain ⟨minRanked, maxRanked⟩ := bounded.1 hasMinMax
    obtain ⟨above, below⟩ := bounded.2 hasMinMax raw member
    refine boundsCompared_doubles isMin isMax ?_ ?_
    · exact (above.resolve_left minRanked).resolve_left unranked
    · exact (below.resolve_left unranked).resolve_left maxRanked

/-- A signed integer by the unsigned one of the same bits. -/
theorem int32_toInt (value : Int32) :
    value.toInt = if 2 * value.toUInt32.toNat < 2 ^ 32 then (value.toUInt32.toNat : Int)
      else value.toUInt32.toNat - 2 ^ 32 :=
  BitVec.toInt_eq_toNat_cond value.toBitVec

theorem int64_toInt (value : Int64) :
    value.toInt = if 2 * value.toUInt64.toNat < 2 ^ 64 then (value.toUInt64.toNat : Int)
      else value.toUInt64.toNat - 2 ^ 64 :=
  BitVec.toInt_eq_toNat_cond value.toBitVec

/-- The value of a direct 32-bit column is its stored integer, which lies within the decoded bounds. -/
theorem int32_payload {logicalType : Int32LogicalType} {stats : TypedStatistics Int32} {raw : Int32}
    (direct : Direct (.int32 logicalType stats))
    (above : int32AtMost logicalType stats.min raw)
    (below : int32AtMost logicalType raw stats.max) :
    (logicalType.logicalValue raw).integerPayload = some raw.toInt ∧
      stats.min.toInt ≤ raw.toInt ∧ raw.toInt ≤ stats.max.toInt := by
  cases logicalType with
  | unsigned =>
    have upper : 0 ≤ stats.max.toInt := Int32.le_iff_toInt_le.mp direct
    have least : stats.min.toUInt32.toNat ≤ raw.toUInt32.toNat := above
    have greatest : raw.toUInt32.toNat ≤ stats.max.toUInt32.toNat := below
    have small := stats.max.toUInt32.toNat_lt
    have payload : (raw.toUInt32.toNat : Int) = raw.toInt := by
      grind [int32_toInt]
    refine ⟨congrArg some payload, ?_, ?_⟩
    · grind [int32_toInt]
    · grind [int32_toInt]
  | decimal scale => cases direct
  | plain => exact ⟨rfl, Int32.le_iff_toInt_le.mp above, Int32.le_iff_toInt_le.mp below⟩
  | date => exact ⟨rfl, Int32.le_iff_toInt_le.mp above, Int32.le_iff_toInt_le.mp below⟩

theorem int64_payload {logicalType : Int64LogicalType} {stats : TypedStatistics Int64} {raw : Int64}
    (direct : Direct (.int64 logicalType stats))
    (above : int64AtMost logicalType stats.min raw)
    (below : int64AtMost logicalType raw stats.max) :
    (logicalType.logicalValue raw).integerPayload = some raw.toInt ∧
      stats.min.toInt ≤ raw.toInt ∧ raw.toInt ≤ stats.max.toInt := by
  cases logicalType with
  | unsigned =>
    have upper : 0 ≤ stats.max.toInt := Int64.le_iff_toInt_le.mp direct
    have least : stats.min.toUInt64.toNat ≤ raw.toUInt64.toNat := above
    have greatest : raw.toUInt64.toNat ≤ stats.max.toUInt64.toNat := below
    have small := stats.max.toUInt64.toNat_lt
    have payload : (raw.toUInt64.toNat : Int) = raw.toInt := by
      grind [int64_toInt]
    refine ⟨congrArg some payload, ?_, ?_⟩
    · grind [int64_toInt]
    · grind [int64_toInt]
  | decimal scale => cases direct
  | plain => exact ⟨rfl, Int64.le_iff_toInt_le.mp above, Int64.le_iff_toInt_le.mp below⟩
  | timestamp unit =>
    obtain rfl : unit = .micros := direct
    exact ⟨rfl, Int64.le_iff_toInt_le.mp above, Int64.le_iff_toInt_le.mp below⟩

/-- The decoded bounds of a direct chunk stand on either side of each of its values. -/
theorem boundsCompared_of_direct {column : ColumnChunk} (bounded : Bounded column)
    (direct : Direct column) {predicate : PushablePredicate}
    (separated : Separated (extractColumnStatistics column) predicate.literal)
    (recorded : (extractColumnStatistics column).hasMinMax = true) :
    ∀ value ∈ column.rows, BoundsCompared (extractColumnStatistics column) predicate value := by
  intro value member
  cases column with
  | boolean stats =>
    obtain ⟨hasMinMax, isMin, isMax⟩ := statistics_of_decoded rfl rfl recorded
    obtain rfl | ⟨raw, stored, rfl⟩ := mem_map_elim member
    · exact boundsCompared_null _ predicate
    · obtain ⟨above, below⟩ := bounded hasMinMax raw stored
      exact boundsCompared_bools isMin isMax above below
  | int32 logicalType stats =>
    obtain ⟨hasMinMax, isMin, isMax⟩ := statistics_of_decoded rfl rfl recorded
    obtain rfl | ⟨raw, stored, rfl⟩ := mem_map_elim member
    · exact boundsCompared_null _ predicate
    · obtain ⟨above, below⟩ := bounded hasMinMax raw stored
      obtain ⟨payload, least, greatest⟩ := int32_payload direct above below
      refine boundsCompared_integers isMin isMax payload ?_ ?_ separated
      · simpa [TypedStatistics.bound] using least
      · simpa [TypedStatistics.bound] using greatest
  | int64 logicalType stats =>
    obtain ⟨hasMinMax, isMin, isMax⟩ := statistics_of_decoded rfl rfl recorded
    obtain rfl | ⟨raw, stored, rfl⟩ := mem_map_elim member
    · exact boundsCompared_null _ predicate
    · obtain ⟨above, below⟩ := bounded hasMinMax raw stored
      obtain ⟨payload, least, greatest⟩ := int64_payload direct above below
      exact boundsCompared_integers isMin isMax payload least greatest separated
  | float stats =>
    obtain rfl | ⟨raw, stored, rfl⟩ := mem_map_elim member
    · exact boundsCompared_null _ predicate
    · exact boundsCompared_number (fun _ => rfl) rfl bounded recorded stored predicate
  | double stats =>
    obtain rfl | ⟨raw, stored, rfl⟩ := mem_map_elim member
    · exact boundsCompared_null _ predicate
    · exact boundsCompared_number (fun _ => rfl) rfl bounded recorded stored predicate
  | text stats =>
    obtain ⟨hasMinMax, isMin, isMax⟩ := statistics_of_decoded rfl rfl recorded
    obtain rfl | ⟨raw, stored, rfl⟩ := mem_map_elim member
    · exact boundsCompared_null _ predicate
    · obtain ⟨above, below⟩ := bounded hasMinMax raw stored
      exact boundsCompared_strings isMin isMax above below
  | decimalBytes scale stats =>
    -- The bounds are texts: they compare with texts only, and a decimal with numbers only.
    obtain ⟨-, isMin, isMax⟩ := statistics_of_decoded rfl rfl recorded
    obtain rfl | ⟨raw, stored, rfl⟩ := mem_map_elim member
    · exact boundsCompared_null _ predicate
    · cases shape : predicate.literal with
      | string literal =>
        intro ordering compared
        rw [shape] at compared
        cases compared
      | _ => exact boundsCompared_incomparable (by rw [isMin, shape]; rfl) (by rw [isMax, shape]; rfl)
  | fixedDecimal scale stats =>
    simp [extractColumnStatistics, decodeStatistic] at recorded
  | int96 stats =>
    simp [extractColumnStatistics, decodeStatistic] at recorded

theorem log2_of_bound {number : Int} (small : number.natAbs < 2 ^ 80) : number.natAbs.log2 < 1000 := by
  by_cases zero : number.natAbs = 0
  · simp [zero]
  · have := (Nat.log2_lt zero).mpr small
    omega

/-- The integers of a decoded chunk are small enough to have a rank. -/
theorem log2_of_row {column : ColumnChunk} (recorded : (extractColumnStatistics column).hasMinMax = true)
    {value : Value} (member : value ∈ column.rows) {number : Int}
    (payload : value.integerPayload = some number) : number.natAbs.log2 < 1000 := by
  cases column with
  | int32 logicalType stats =>
    obtain rfl | ⟨raw, -, rfl⟩ := mem_map_elim member
    · cases payload
    · have lower := raw.le_toInt
      have upper := raw.toInt_lt
      have unsigned := raw.toUInt32.toNat_lt
      cases logicalType <;> cases payload <;> exact log2_of_bound (by omega)
  | int64 logicalType stats =>
    obtain rfl | ⟨raw, -, rfl⟩ := mem_map_elim member
    · cases payload
    · have lower := raw.le_toInt
      have upper := raw.toInt_lt
      have unsigned := raw.toUInt64.toNat_lt
      have floored : raw.toInt.fdiv 1000 = raw.toInt / 1000 :=
        Int.fdiv_eq_ediv_of_nonneg _ (by decide)
      rcases logicalType with _ | _ | unit | _
      · cases payload
        exact log2_of_bound (by omega)
      · cases payload
        exact log2_of_bound (by omega)
      · cases unit <;> cases payload <;> exact log2_of_bound (by omega)
      · cases payload
  | fixedDecimal scale stats => simp [extractColumnStatistics, decodeStatistic] at recorded
  | int96 stats => simp [extractColumnStatistics, decodeStatistic] at recorded
  | _ =>
    obtain rfl | ⟨raw, -, rfl⟩ := mem_map_elim member <;> cases payload

theorem ofDoubles_unordered {outcome : Option Ordering} (unordered : Comparison.ofDoubles outcome = .unordered) :
    outcome = none := by
  cases outcome with
  | none => rfl
  | some ordering => cases unordered

/-- A decimal and a double are never unordered: the double is rounded first. -/
theorem decimal_double_ordered (unscaled scale : Int) (value : Float) :
    compareValues (.decimal unscaled scale) (.double value) ≠ .unordered := by
  simp only [compareValues, comparePresent, Value.integerPayload, decimalScale, Value.doublePayload,
    Option.map_none]
  cases asFraction scale (.double value) with
  | none => exact fun same => by cases same
  | some fraction => exact fun same => by cases same

theorem double_decimal_ordered (unscaled scale : Int) (value : Float) :
    compareValues (.double value) (.decimal unscaled scale) ≠ .unordered := by
  intro unordered
  apply decimal_double_ordered unscaled scale value
  rw [compareValues_decimal_double, unordered]
  rfl

/-- Values are unordered only as doubles. -/
theorem doubles_of_unordered {left right : Value} (unordered : compareValues left right = .unordered) :
    ∃ a b, left.doublePayload = some a ∧ right.doublePayload = some b ∧ compareDoubles a b = none ∧
      (left.integerPayload = none ∨ right.integerPayload = none) := by
  cases left <;> cases right <;>
    first
    | contradiction
    | exact absurd unordered (decimal_double_ordered _ _ _)
    | exact absurd unordered (double_decimal_ordered _ _ _)
    | exact ⟨_, _, rfl, rfl, ofDoubles_unordered unordered, by simp [Value.integerPayload]⟩

/-- A comparison that is `TRUE` without an order is `<>` on a NaN. -/
theorem unordered_of_holds {predicate : PushablePredicate} {value : Value}
    (small : ∀ number, value.integerPayload = some number → number.natAbs.log2 < 1000)
    (holds : predicateHolds predicate value)
    (unordered : ∀ ordering,
      compareValues value (literalValue predicate.literal predicate.literalType) ≠ .ordered ordering) :
    predicate.op = .notEqual ∧
      ((∃ literal, predicate.literal = .double literal ∧ rank literal = none) ∨
        ∃ number, value = .double number ∧ rank number = none) := by
  have isUnordered : compareValues value (literalValue predicate.literal predicate.literalType) =
      .unordered := by
    unfold predicateHolds at holds
    cases compared : compareValues value (literalValue predicate.literal predicate.literalType) with
    | ordered ordering => exact absurd compared (unordered ordering)
    | unordered => rfl
    | unknown =>
      rw [compared] at holds
      cases holds
    | failed =>
      rw [compared] at holds
      cases holds
  refine ⟨by simpa [predicateHolds, isUnordered, Comparison.truth] using holds, ?_⟩
  obtain ⟨a, b, valuePayload, literalPayload, noOrder, mixed⟩ := doubles_of_unordered isUnordered
  cases rightRank : rank b with
  | none =>
    left
    cases shape : predicate.literal with
    | double literal =>
      rw [shape] at literalPayload
      obtain rfl := Option.some.inj literalPayload
      exact ⟨literal, rfl, rightRank⟩
    | int64 literal =>
      rw [shape, doublePayload_of_integerPayload (literalValue_int64_payload literal _)] at literalPayload
      obtain rfl := Option.some.inj literalPayload
      rw [rank_int64] at rightRank
      cases rightRank
    | _ =>
      rw [shape] at literalPayload
      cases literalPayload
  | some y =>
    right
    have unranked : rank a = none := by
      cases leftRank : rank a with
      | none => rfl
      | some x =>
        rw [compareDoubles_of_ranks leftRank rightRank] at noOrder
        cases noOrder
    cases integer : value.integerPayload with
    | some number =>
      rw [doublePayload_of_integerPayload integer] at valuePayload
      obtain rfl := Option.some.inj valuePayload
      rw [rank_ofInteger (small number integer)] at unranked
      cases unranked
    | none =>
      cases value <;> simp_all [Value.doublePayload, Value.integerPayload]

theorem neverRefuted_of_boundsCompared {column : ColumnChunk} {predicate : PushablePredicate}
    (compared : (extractColumnStatistics column).hasMinMax = true →
      ∀ value ∈ column.rows, BoundsCompared (extractColumnStatistics column) predicate value)
    (numbers : NoNaN column predicate) : NeverRefuted column predicate := by
  intro value member holds
  by_contra refuted
  obtain ⟨recorded, -, lower, upper, isLower, isUpper, refuting⟩ :=
    (predicateProvesEmpty_isSome_iff predicate _).mp (Option.isSome_iff_ne_none.mpr refuted)
  by_cases ordered : ∃ ordering,
      compareValues value (literalValue predicate.literal predicate.literalType) = .ordered ordering
  · obtain ⟨ordering, isOrdering⟩ := ordered
    obtain ⟨below, above⟩ := compared recorded value member ordering isOrdering
    have accepted : accepts predicate.op ordering = true := by
      simpa [predicateHolds, isOrdering, Comparison.truth] using holds
    rw [not_refutes_of_atMost (below lower isLower) (above upper isUpper) accepted] at refuting
    cases refuting
  · obtain ⟨different, unranked⟩ :=
      unordered_of_holds (fun _ => log2_of_row recorded member) holds
        (fun ordering same => ordered ⟨ordering, same⟩)
    obtain ⟨literalRanked, valuesRanked⟩ := numbers different
    rcases unranked with ⟨literal, isLiteral, none⟩ | ⟨number, rfl, none⟩
    · exact literalRanked literal isLiteral none
    · exact valuesRanked number member none

theorem decodedFaithfully_of_direct {column : ColumnChunk} {predicate : PushablePredicate}
    (bounded : Bounded column) (direct : Direct column)
    (separated : Separated (extractColumnStatistics column) predicate.literal)
    (numbers : NoNaN column predicate) : DecodedFaithfully column predicate :=
  ⟨boundsCompared_of_direct bounded direct separated,
    neverRefuted_of_boundsCompared (boundsCompared_of_direct bounded direct separated) numbers⟩

/-! ## Exactness -/

/-- A chunk of one value, which is its minimum and its maximum. -/
def single {α : Type} (raw : α) : TypedStatistics α := ⟨true, raw, raw, [some raw]⟩

theorem within_single {α : Type} {atMost : α → α → Prop} (refl : ∀ raw, atMost raw raw) (raw : α) :
    Within atMost (single raw) := by
  intro _ other member
  obtain rfl : raw = other := by simpa [single, eq_comm] using member
  exact ⟨refl raw, refl raw⟩

theorem int32AtMost_refl (logicalType : Int32LogicalType) (raw : Int32) :
    int32AtMost logicalType raw raw := by
  cases logicalType with
  | unsigned => exact Nat.le_refl raw.toUInt32.toNat
  | _ => exact Int32.le_refl raw

theorem int64AtMost_refl (logicalType : Int64LogicalType) (raw : Int64) :
    int64AtMost logicalType raw raw := by
  cases logicalType with
  | unsigned => exact Nat.le_refl raw.toUInt64.toNat
  | _ => exact Int64.le_refl raw

/-- Every 32-bit column of a kind is decoded faithfully. -/
def Int32Faithful (logicalType : Int32LogicalType) : Prop :=
  ∀ stats predicate, Bounded (.int32 logicalType stats) →
    Separated (extractColumnStatistics (.int32 logicalType stats)) predicate.literal →
      NoNaN (.int32 logicalType stats) predicate → DecodedFaithfully (.int32 logicalType stats) predicate

/-- Every 64-bit column of a kind is decoded faithfully. -/
def Int64Faithful (logicalType : Int64LogicalType) : Prop :=
  ∀ stats predicate, Bounded (.int64 logicalType stats) →
    Separated (extractColumnStatistics (.int64 logicalType stats)) predicate.literal →
      NoNaN (.int64 logicalType stats) predicate → DecodedFaithfully (.int64 logicalType stats) predicate

theorem not_int32Faithful {logicalType : Int32LogicalType} (raw : Int32) (predicate : PushablePredicate)
    (strict : predicate.op ≠ .notEqual) {literal : Float} (isLiteral : predicate.literal = .double literal)
    (holds : predicateHolds predicate (logicalType.logicalValue raw))
    (refuted : (predicateProvesEmpty predicate
      (extractColumnStatistics (.int32 logicalType (single raw)))).isSome = true) :
    ¬ Int32Faithful logicalType := by
  intro faithful
  have kept := (faithful (single raw) predicate (within_single (int32AtMost_refl logicalType) raw)
    (by rw [isLiteral]; trivial) (fun different => absurd different strict)).2 _
    (List.mem_singleton.mpr rfl) holds
  rw [kept] at refuted
  cases refuted

theorem not_int64Faithful {logicalType : Int64LogicalType} (raw : Int64) (predicate : PushablePredicate)
    (strict : predicate.op ≠ .notEqual) {literal : Float} (isLiteral : predicate.literal = .double literal)
    (holds : predicateHolds predicate (logicalType.logicalValue raw))
    (refuted : (predicateProvesEmpty predicate
      (extractColumnStatistics (.int64 logicalType (single raw)))).isSome = true) :
    ¬ Int64Faithful logicalType := by
  intro faithful
  have kept := (faithful (single raw) predicate (within_single (int64AtMost_refl logicalType) raw)
    (by rw [isLiteral]; trivial) (fun different => absurd different strict)).2 _
    (List.mem_singleton.mpr rfl) holds
  rw [kept] at refuted
  cases refuted

/-- The unscaled integer of a quarter, rounded to a scale. -/
def unscaledQuarter (scale : Nat) : Nat := (25 * 10 ^ scale + 50) / 100

/-- `price = 0.25`, as the binder types the literal for a decimal column. -/
def quarterPredicate (scale : Nat) : PushablePredicate :=
  ⟨"price", .equal, .double 0.25, decimalType 18 scale⟩

/-- `x >= 1.0` -/
def positivePredicate : PushablePredicate := ⟨"x", .greaterEqual, .double 1.0, float64Type⟩

theorem int32Faithful_iff (logicalType : Int32LogicalType) :
    Int32Faithful logicalType ↔ logicalType = .plain ∨ logicalType = .date := by
  constructor
  · intro faithful
    cases logicalType with
    | plain => exact .inl rfl
    | date => exact .inr rfl
    | unsigned =>
      exact absurd faithful (not_int32Faithful (-1) positivePredicate (by decide) rfl
        (by decide +kernel) (by decide +kernel))
    | decimal scale =>
      have holds : ∀ scale : Fin 10, predicateHolds (quarterPredicate scale)
          (Int32LogicalType.logicalValue (.decimal scale) (Int32.ofNat (unscaledQuarter scale))) := by
        decide +kernel
      have refuted : ∀ scale : Fin 10, (predicateProvesEmpty (quarterPredicate scale)
          (extractColumnStatistics (.int32 (.decimal scale)
            (single (Int32.ofNat (unscaledQuarter scale)))))).isSome = true := by
        decide +kernel
      exact absurd faithful (not_int32Faithful _ _ (by simp [quarterPredicate]) rfl (holds scale)
        (refuted scale))
  · rintro (rfl | rfl) stats predicate bounded separated numbers
    · exact decodedFaithfully_of_direct bounded trivial separated numbers
    · exact decodedFaithfully_of_direct bounded trivial separated numbers

theorem int64Faithful_iff (logicalType : Int64LogicalType) :
    Int64Faithful logicalType ↔ logicalType = .plain ∨ logicalType = .timestamp .micros := by
  constructor
  · intro faithful
    cases logicalType with
    | plain => exact .inl rfl
    | unsigned =>
      exact absurd faithful (not_int64Faithful (-1) positivePredicate (by decide) rfl
        (by decide +kernel) (by decide +kernel))
    | timestamp unit =>
      cases unit with
      | micros => exact .inr rfl
      | millis =>
        exact absurd faithful (not_int64Faithful 1000 ⟨"x", .greaterEqual, .double 1000000.0, float64Type⟩
          (by decide) rfl (by decide +kernel) (by decide +kernel))
      | nanos =>
        exact absurd faithful (not_int64Faithful 1000000 ⟨"x", .lessEqual, .double 1000.0, float64Type⟩
          (by decide) rfl (by decide +kernel) (by decide +kernel))
    | decimal scale =>
      have holds : ∀ scale : Fin 19, predicateHolds (quarterPredicate scale)
          (Int64LogicalType.logicalValue (.decimal scale) (Int64.ofNat (unscaledQuarter scale))) := by
        decide +kernel
      have refuted : ∀ scale : Fin 19, (predicateProvesEmpty (quarterPredicate scale)
          (extractColumnStatistics (.int64 (.decimal scale)
            (single (Int64.ofNat (unscaledQuarter scale)))))).isSome = true := by
        decide +kernel
      exact absurd faithful (not_int64Faithful _ _ (by simp [quarterPredicate]) rfl (holds scale)
        (refuted scale))
  · rintro (rfl | rfl) stats predicate bounded separated numbers
    · exact decodedFaithfully_of_direct bounded trivial separated numbers
    · exact decodedFaithfully_of_direct bounded rfl separated numbers

/-- Decoded statistics bound a column's values in every comparison and refute no row, for direct
columns; among the integer columns these are the only kinds that are always decoded faithfully. -/
theorem decodeStatistic_faithful (column : ColumnChunk) (predicate : PushablePredicate)
    (narrow : Int32LogicalType) (wide : Int64LogicalType) :
    (Bounded column → Direct column →
        Separated (extractColumnStatistics column) predicate.literal → NoNaN column predicate →
          DecodedFaithfully column predicate) ∧
      (Int32Faithful narrow ↔ narrow = .plain ∨ narrow = .date) ∧
      (Int64Faithful wide ↔ wide = .plain ∨ wide = .timestamp .micros) :=
  ⟨decodedFaithfully_of_direct, int32Faithful_iff narrow, int64Faithful_iff wide⟩

/-- An unsigned column in the lower half of its range. -/
def countColumn : ColumnChunk := .int32 .unsigned ⟨true, 3, 7, [some 5, none]⟩

theorem decodeStatistic_faithful_counts : DecodedFaithfully countColumn positivePredicate := by
  have small : (0 : Int32) ≤ 7 := by decide
  refine (decodeStatistic_faithful countColumn positivePredicate .plain .plain).1 ?_ small trivial
    (fun different => by cases different)
  intro _ raw member
  obtain rfl : raw = 5 := by simpa using member
  have between : (3 : Int32).toUInt32 ≤ (5 : Int32).toUInt32 ∧ (5 : Int32).toUInt32 ≤ (7 : Int32).toUInt32 := by
    decide
  exact between

/-- A `DECIMAL(5, 2)` column stored as `INT32` that holds 10.00. -/
def priceColumn : ColumnChunk := .int32 (.decimal 2) (single 1000)

/-- `price < 19.99` is `TRUE` for 10.00, and the decoded minimum 1000 refutes it. -/
theorem decodeStatistic_loses_scale :
    ¬ ∀ (column : ColumnChunk) (predicate : PushablePredicate), Bounded column →
      DecodedFaithfully column predicate := by
  intro faithful
  have kept := (faithful priceColumn ⟨"price", .less, .double 19.99, decimalType 5 2⟩
    (within_single (int32AtMost_refl _) 1000)).2 (.decimal 1000 2) (List.mem_singleton.mpr rfl)
    (by decide +kernel)
  revert kept
  decide +kernel

end KernelLake.StatisticsProofs
