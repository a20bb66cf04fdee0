import KernelLake.PartitionPruning
import KernelLake.PruningProofs

/-!
When pruning files by partition values is safe.

Under a time transform the literal and the column's values are compared by their periods, and the
period grows with the instant, so a file is skipped only when every instant of its period lies on the
wrong side of the literal. Under `identity` the value itself is compared, as a double or as a C
string: `Misread` says which values and literals that conversion takes for one another.
-/

namespace KernelLake.PartitionPruningProofs

open KernelLake.Types KernelLake.Expressions KernelLake.LogicalPlans KernelLake.Library.Doubles
open KernelLake.Evaluation (Value Comparison literalValue compareValues)
open KernelLake.Comparisons KernelLake.PruningProofs
open KernelLake.Pruning (asDouble doubleOrder)
open KernelLake.IcebergManifests KernelLake.PartitionTransforms KernelLake.PartitionPruning

/-! ## Predicates on values -/

/-- Two values as they are compared: a date and a timestamp as two timestamps. -/
def aligned : Value → Value → Value × Value
  | .date days, .timestamp micros => (.timestamp (days * microsPerDay), .timestamp micros)
  | .timestamp micros, .date days => (.timestamp micros, .timestamp (days * microsPerDay))
  | left, right => (left, right)

/-- A pushed predicate is `TRUE` on a column's value. -/
def predicateTrue (predicate : PushablePredicate) (value : Value) : Prop :=
  let (left, right) := aligned value (literalValue predicate.literal predicate.literalType)
  (compareValues left right).truth predicate.op = .bool true

instance (predicate : PushablePredicate) (value : Value) : Decidable (predicateTrue predicate value) :=
  inferInstanceAs (Decidable (_ = _))

/-- The instant of a date or timestamp. -/
def valueInstant : Value → Option Int
  | .date days => instantOf .date32 days
  | .timestamp micros => instantOf .timestamp micros
  | _ => none

theorem holds_scaled (op : BinaryOperator) (left right : Int) {factor : Int} (positive : 0 < factor) :
    Holds op (left * factor) (right * factor) ↔ Holds op left right := by
  cases op <;> simp [Holds, positive, positive.ne']

theorem truth_ordered (op : BinaryOperator) (left right : Int) :
    (Comparison.ordered (compare left right)).truth op = .bool true ↔ Holds op left right := by
  rw [← accepts_compare]
  simp [Comparison.truth]

/-- Dates and timestamps compare by their instants. -/
theorem predicateTrue_instants {predicate : PushablePredicate} {value : Value} {instant other : Int}
    {raw : Int64} (isInstant : valueInstant value = some instant)
    (isLiteral : predicate.literal = .int64 raw)
    (isOther : instantOf predicate.literalType.id raw.toInt = some other) :
    predicateTrue predicate value ↔ Holds predicate.op instant other := by
  have day : (0 : Int) < microsPerDay := by decide
  unfold predicateTrue
  rw [isLiteral]
  cases kind : predicate.literalType.id with
  | date32 =>
    rw [kind] at isOther
    obtain rfl := Option.some.inj isOther
    simp only [literalValue, kind, if_true]
    cases value with
    | date days =>
      obtain rfl := Option.some.inj isInstant
      rw [holds_scaled _ _ _ day, ← truth_ordered]
      rfl
    | timestamp micros =>
      obtain rfl := Option.some.inj isInstant
      rw [← truth_ordered]
      rfl
    | _ => cases isInstant
  | timestamp =>
    rw [kind] at isOther
    obtain rfl := Option.some.inj isOther
    simp only [literalValue, kind, if_true, reduceCtorEq, if_false]
    cases value with
    | date days =>
      obtain rfl := Option.some.inj isInstant
      rw [← truth_ordered]
      rfl
    | timestamp micros =>
      obtain rfl := Option.some.inj isInstant
      rw [← truth_ordered]
      rfl
    | _ => cases isInstant
  | _ =>
    rw [kind] at isOther
    cases isOther

/-! ## Time transforms -/

theorem compareLiterals_int64 (left right : Int64) :
    compareLiterals (.int64 left) (.int64 right) =
      some (compare (integerRank left.toInt) (integerRank right.toInt)) :=
  compareLiterals_integers left right

/-- A file's partition value under a time transform is the period of a row's source value. A field whose source
column the schema lacks says nothing about rows. -/
def InPartition (metadata : IcebergTableMetadata) (row : String → Value) (field : IcebergPartitionField)
    (value : PartitionFieldValue) : Prop :=
  sourceColumnName metadata field.sourceId ≠ "" →
  match value with
  | .monostate => row (sourceColumnName metadata field.sourceId) = .null
  | .int64 period => ∃ instant, valueInstant (row (sourceColumnName metadata field.sourceId)) = some instant ∧
      InPeriod field.transform period.toInt instant
  | .string _ => False

/-- What it takes for a file to be skipped. -/
theorem partitionValuesProveEmpty_iff {metadata : IcebergTableMetadata} {spec : IcebergPartitionSpec}
    {values : List PartitionFieldValue} {predicates : List PushablePredicate} :
    partitionValuesProveEmpty metadata spec values predicates = true ↔
      ∃ field value, (field, value) ∈ spec.fields.zip values ∧
        ∃ stored, sourceColumnName metadata field.sourceId ≠ "" ∧ toLiteralStorage value = some stored ∧
          ∃ predicate ∈ predicates,
            predicateRulesOut field (sourceColumnName metadata field.sourceId) stored predicate = true := by
  simp only [partitionValuesProveEmpty, List.any_eq_true, Prod.exists]
  refine exists_congr (fun field => exists_congr (fun value => and_congr_right (fun _ => ?_)))
  unfold fieldRulesOut
  by_cases unnamed : sourceColumnName metadata field.sourceId = ""
  · simp [unnamed]
  · cases toLiteralStorage value with
    | none => simp [unnamed]
    | some stored => simp [unnamed]

theorem predicateRulesOut_iff {field : IcebergPartitionField} {columnName : String}
    {stored : LiteralStorage} {predicate : PushablePredicate} :
    predicateRulesOut field columnName stored predicate = true ↔
      predicate.columnName = columnName ∧ predicate.literal ≠ .monostate ∧
        ∃ transformed cmp,
          applyTransform field.transform predicate.literal predicate.literalType = some transformed ∧
          compareLiterals stored transformed = some cmp ∧
          provesEmpty predicate.op cmp (field.transform = "identity") = true := by
  unfold predicateRulesOut
  by_cases named : predicate.columnName = columnName
  · by_cases absent : predicate.literal = .monostate
    · simp [named, absent]
    · simp only [named, absent, ne_eq, not_true_eq_false, not_false_eq_true, if_false, true_and]
      cases applyTransform field.transform predicate.literal predicate.literalType with
      | none => simp
      | some transformed =>
        cases compared : compareLiterals stored transformed with
        | none => simp [compared]
        | some cmp => simp [compared]
  · simp [named]

/-- Under a time transform an operator is refuted only by periods in strict order, which instants that
satisfy it never have. -/
theorem not_holds_of_periods {op : BinaryOperator} {transform : String} {period other instant later : Int}
    (inPeriod : InPeriod transform period instant) (inOther : InPeriod transform other later)
    (refuted : provesEmpty op (compare (integerRank period) (integerRank other)) false = true) :
    ¬ Holds op instant later := by
  have below : integerRank period < integerRank other → ¬ later ≤ instant := by
    intro before notAfter
    exact absurd (integerRank_mono (inPeriod_le inOther inPeriod notAfter)) (not_le_of_gt before)
  have above : integerRank other < integerRank period → ¬ instant ≤ later := by
    intro before notAfter
    exact absurd (integerRank_mono (inPeriod_le inPeriod inOther notAfter)) (not_le_of_gt before)
  intro holds
  cases op with
  | equal =>
    simp only [provesEmpty, bne_iff_ne, ne_eq, compare_eq_iff_eq] at refuted
    rcases lt_or_gt_of_ne refuted with before | after
    · exact below before (le_of_eq holds.symm)
    · exact above after (le_of_eq holds)
  | less =>
    simp only [provesEmpty, Bool.false_eq_true, if_false, beq_iff_eq, compare_gt_iff_gt] at refuted
    exact above refuted holds.le
  | lessEqual =>
    simp only [provesEmpty, beq_iff_eq, compare_gt_iff_gt] at refuted
    exact above refuted holds
  | greater =>
    simp only [provesEmpty, Bool.false_eq_true, if_false, beq_iff_eq, compare_lt_iff_lt] at refuted
    exact below refuted holds.le
  | greaterEqual =>
    simp only [provesEmpty, beq_iff_eq, compare_lt_iff_lt] at refuted
    exact below refuted holds
  | _ => cases refuted

/-- A file that is skipped by time partitions holds no row on which all predicates are `TRUE`. -/
theorem partitionValuesProveEmpty_temporal {metadata : IcebergTableMetadata} {spec : IcebergPartitionSpec}
    {values : List PartitionFieldValue} {predicates : List PushablePredicate} {row : String → Value}
    (temporal : ∀ field ∈ spec.fields, isTimeTransform field.transform = true)
    (inPartition : ∀ field value, (field, value) ∈ spec.fields.zip values →
      InPartition metadata row field value)
    (proved : partitionValuesProveEmpty metadata spec values predicates = true) :
    ∃ predicate ∈ predicates, ¬ predicateTrue predicate (row predicate.columnName) := by
  obtain ⟨field, value, member, stored, present, isStored, predicate, inPredicates, ruledOut⟩ :=
    partitionValuesProveEmpty_iff.mp proved
  refine ⟨predicate, inPredicates, ?_⟩
  obtain ⟨named, -, transformed, cmp, isTransformed, compared, refuted⟩ := predicateRulesOut_iff.mp ruledOut
  have isTime := temporal field (List.of_mem_zip member).1
  have notIdentity : field.transform ≠ "identity" := by
    intro identity
    rw [identity] at isTime
    revert isTime
    decide
  have partitioned := inPartition field value member present
  rw [applyTransform, if_neg notIdentity, if_pos isTime] at isTransformed
  obtain ⟨other, isOther, rfl⟩ := Option.map_eq_some_iff.mp isTransformed
  cases isLiteral : predicate.literal with
  | int64 raw =>
    rw [isLiteral] at isOther
    obtain ⟨⟨later, isLater, inOther⟩, lowest, highest⟩ := applyTimeTransform_inPeriod isOther
    cases value with
    | int64 period =>
      obtain ⟨instant, isInstant, inPeriod⟩ := partitioned
      obtain rfl := Option.some.inj isStored
      have fits : (Int64.ofInt other).toInt = other := by
        have least := raw.le_toInt
        have most := raw.toInt_lt
        exact Int64.toInt_ofInt_of_le (by omega) (by omega)
      rw [compareLiterals_int64, fits] at compared
      rw [named, predicateTrue_instants isInstant isLiteral isLater]
      refine not_holds_of_periods inPeriod inOther ?_
      rw [Option.some.inj compared]
      simpa [notIdentity] using refuted
    | string text => cases partitioned
    | monostate => cases isStored
  | _ =>
    rw [isLiteral] at isOther
    cases isOther

def eventsMetadata : IcebergTableMetadata where
  currentSnapshotId := none
  snapshots := []
  schemaFields := [⟨1, "ts", true, "timestamp"⟩, ⟨2, "id", true, "long"⟩]
  partitionSpecs := []

def monthlySpec : IcebergPartitionSpec := ⟨0, [⟨1, "month"⟩]⟩

def lastInstant (_ : String) : Value := .timestamp (-1)

/-- A file of December 1969 is skipped for `ts >= TIMESTAMP '1970-01-01 00:00:00'`; its last microsecond
is a row of it. -/
theorem partitionValuesProveEmpty_temporal_december :
    partitionValuesProveEmpty eventsMetadata monthlySpec [.int64 (-1)]
        [⟨"ts", .greaterEqual, .int64 0, timestampType false⟩] = true ∧
      ∃ predicate ∈ [(⟨"ts", .greaterEqual, .int64 0, timestampType false⟩ : PushablePredicate)],
        ¬ predicateTrue predicate (lastInstant predicate.columnName) := by
  have proved : partitionValuesProveEmpty eventsMetadata monthlySpec [.int64 (-1)]
      [⟨"ts", .greaterEqual, .int64 0, timestampType false⟩] = true := by decide +kernel
  refine ⟨proved, partitionValuesProveEmpty_temporal (fun field member => ?_)
    (fun field value member => ?_) proved⟩
  · obtain rfl := List.mem_singleton.mp member
    decide
  · obtain ⟨rfl, rfl⟩ := Prod.mk.inj (List.mem_singleton.mp member)
    refine fun _ => ⟨-1, rfl, ?_⟩
    rw [InPeriod, if_neg (by decide), if_neg (by decide), if_pos rfl]
    exact ⟨by decide, by decide⟩

/-! ## Identity partitions -/

/-- The Avro value in which an identity partition stores a column's value. -/
inductive Stores : Value → AvroValue → Prop
  | null : Stores .null .null
  | int (value : Int32) : Stores (.int value.toInt) (.int value)
  | long (value : Int64) : Stores (.int value.toInt) (.long value)
  | string (value : String) : Stores (.string value) (.string value)
  | date (value : Int32) : Stores (.date value.toInt) (.int value)
  | timestamp (value : Int64) : Stores (.timestamp value.toInt) (.long value)

/-- What compares as `seen` is refuted, but what it stands for satisfies the operator. -/
def Disagrees {α β : Type} [LinearOrder α] [LinearOrder β] (op : BinaryOperator) (seen seenLiteral : α)
    (value literal : β) : Prop :=
  refutes op (compare seen seenLiteral) (compare seen seenLiteral) = true ∧ Holds op value literal

/-- A string that is cut off at a zero character, and a literal that separates it from what is left. -/
def Truncated (op : BinaryOperator) (text literal : String) : Prop :=
  match op with
  | .equal => text = literal ∧ cString text ≠ text
  | .notEqual => cString text = literal ∧ text ≠ literal
  | .greater => cString text ≤ literal ∧ literal < text
  | .greaterEqual => cString text < literal ∧ literal ≤ text
  | _ => False

/-- A column's value and a literal that the comparison takes for something else: two integers that become
one double, a timestamp and a date compared as bare numbers, a `NaN` under `<>`, a string cut off. -/
def Misread (predicate : PushablePredicate) (value : Value) : Prop :=
  match value, predicate.literal with
  | .int number, .int64 literal => Collision predicate.op integerRank number number literal.toInt
  | .date days, .int64 literal =>
    if predicate.literalType.id = .timestamp then
      Disagrees predicate.op (integerRank days) (integerRank literal.toInt) (days * microsPerDay) literal.toInt
    else Collision predicate.op integerRank days days literal.toInt
  | .timestamp micros, .int64 literal =>
    if predicate.literalType.id = .date32 then
      Disagrees predicate.op (integerRank micros) (integerRank literal.toInt) micros
        (literal.toInt * microsPerDay)
    else Collision predicate.op integerRank micros micros literal.toInt
  | .int _, .double literal => predicate.op = .notEqual ∧ rank literal = none
  | .date _, .double literal => predicate.op = .notEqual ∧ rank literal = none
  | .timestamp _, .double literal => predicate.op = .notEqual ∧ rank literal = none
  | .string text, .string literal => Truncated predicate.op text literal
  | _, _ => False

theorem provesEmpty_identity (op : BinaryOperator) (cmp : Ordering) :
    provesEmpty op cmp true = refutes op cmp cmp := by
  cases op <;> cases cmp <;> rfl

/-- At a single point a collision is exactly what makes a refuted operator hold. -/
theorem disagrees_iff_collision (op : BinaryOperator) (number literal : Int) :
    Disagrees op (integerRank number) (integerRank literal) number literal ↔
      Collision op integerRank number number literal := by
  constructor
  · rintro ⟨refuted, holds⟩
    by_contra exact_ends
    exact not_holds_of_refutes (fun _ _ le => integerRank_mono le) le_rfl le_rfl refuted exact_ends holds
  · intro collision
    obtain ⟨value, above, below, holds⟩ := holds_of_collision le_rfl collision
    obtain rfl := le_antisymm below above
    exact ⟨refutes_of_collision collision, holds⟩

theorem le_append (before after : List Char) : before ≤ before ++ after := by
  induction before with
  | nil => exact not_lt.mp (List.not_lt_nil _)
  | cons first before hypothesis => exact List.cons_le_cons first hypothesis

theorem cString_le (text : String) : cString text ≤ text := by
  rw [String.le_iff_toList_le, cString, String.toList_ofList]
  obtain ⟨after, whole⟩ := List.takeWhile_prefix (l := text.toList) (· ≠ '\x00')
  conv_rhs => rw [← whole]
  exact le_append _ after

theorem disagrees_iff_truncated (op : BinaryOperator) (text literal : String) :
    Disagrees op (cString text) literal text literal ↔ Truncated op text literal := by
  have cut := cString_le text
  unfold Disagrees Truncated
  cases op with
  | equal =>
    simp only [refutes, Holds, Bool.or_eq_true, beq_iff_eq, compare_gt_iff_gt, compare_lt_iff_lt]
    constructor
    · rintro ⟨apart, rfl⟩
      exact ⟨rfl, fun same => by simp [same] at apart⟩
    · rintro ⟨rfl, apart⟩
      exact ⟨.inr (lt_of_le_of_ne cut apart), rfl⟩
  | notEqual => simp [refutes, Holds]
  | less =>
    simp only [refutes, Holds, bne_iff_ne, ne_eq, compare_lt_iff_lt, not_lt, iff_false, not_and]
    exact fun notBelow below => absurd (lt_of_le_of_lt cut below) (not_lt_of_ge notBelow)
  | lessEqual =>
    simp only [refutes, Holds, beq_iff_eq, compare_gt_iff_gt, iff_false, not_and, not_le]
    exact fun above => lt_of_lt_of_le above cut
  | greater =>
    simp only [refutes, Holds, bne_iff_ne, ne_eq, compare_gt_iff_gt, not_lt]
  | greaterEqual => simp [refutes, Holds, compare_lt_iff_lt]
  | _ => simp [refutes]

/-- The number an integer, date or timestamp is stored as. -/
theorem decode_number {value : Value} {field : AvroValue} {number : Int}
    (stores : Stores value (liveBranch field)) (payload : value.integerPayload = some number) :
    ∃ stored : Int64, toLiteralStorage (decodePartitionField field) = some (.int64 stored) ∧
      stored.toInt = number := by
  unfold decodePartitionField
  generalize liveBranch field = branch at stores
  cases stores with
  | null => cases payload
  | string text => cases payload
  | int value => exact ⟨value.toInt64, rfl, by rw [Int32.toInt_toInt64]; exact Option.some.inj payload⟩
  | date value => exact ⟨value.toInt64, rfl, by rw [Int32.toInt_toInt64]; exact Option.some.inj payload⟩
  | long value => exact ⟨value, rfl, Option.some.inj payload⟩
  | timestamp value => exact ⟨value, rfl, Option.some.inj payload⟩

/-- A stored value refutes a predicate under `identity`. -/
def Refuted (predicate : PushablePredicate) (stored : LiteralStorage) : Prop :=
  ∃ cmp, compareLiterals stored predicate.literal = some cmp ∧ refutes predicate.op cmp cmp = true

theorem predicateTrue_iff_holds {predicate : PushablePredicate} {value : Value}
    (plain : aligned value (literalValue predicate.literal predicate.literalType) =
      (value, literalValue predicate.literal predicate.literalType)) :
    predicateTrue predicate value ↔ predicateHolds predicate value := by
  rw [predicateTrue, plain, predicateHolds]

section Numbers

variable {predicate : PushablePredicate} {value : Value} {number : Int} {stored : Int64}

/-- Integers disagree with their doubles exactly in a collision. -/
theorem refuted_integer {literal : Int64} (payload : value.integerPayload = some number)
    (isNumber : stored.toInt = number) (isLiteral : predicate.literal = .int64 literal)
    (plain : aligned value (literalValue predicate.literal predicate.literalType) =
      (value, literalValue predicate.literal predicate.literalType)) :
    Refuted predicate (.int64 stored) ∧ predicateTrue predicate value ↔
      Collision predicate.op integerRank number number literal.toInt := by
  rw [← disagrees_iff_collision, Disagrees, predicateTrue_iff_holds plain,
    predicateHolds_integers payload isLiteral, Refuted, isLiteral, compareLiterals_int64, isNumber]
  simp

/-- A date against a timestamp, or the other way, is compared by the bare numbers. -/
theorem refuted_instant {literal : Int64} {instant other : Int} (isInstant : valueInstant value = some instant)
    (isNumber : stored.toInt = number) (isLiteral : predicate.literal = .int64 literal)
    (isOther : instantOf predicate.literalType.id literal.toInt = some other) :
    Refuted predicate (.int64 stored) ∧ predicateTrue predicate value ↔
      Disagrees predicate.op (integerRank number) (integerRank literal.toInt) instant other := by
  rw [Disagrees, predicateTrue_instants isInstant isLiteral isOther, Refuted, isLiteral,
    compareLiterals_int64, isNumber]
  simp

/-- Against a double both sides convert alike, so only a `NaN` goes wrong. -/
theorem refuted_double {literal : Float} (payload : value.integerPayload = some number)
    (isNumber : stored.toInt = number) (isLiteral : predicate.literal = .double literal) :
    Refuted predicate (.int64 stored) ∧ predicateTrue predicate value ↔
      predicate.op = .notEqual ∧ rank literal = none := by
  have plain : aligned value (literalValue predicate.literal predicate.literalType) =
      (value, literalValue predicate.literal predicate.literalType) := by
    rw [isLiteral]
    cases value <;> rfl
  have valueDouble : value.doublePayload = some (ofInteger number) := by
    cases value <;> simp_all [Value.integerPayload, Value.doublePayload]
  have literalDouble : asDouble predicate.literal = some literal := by rw [isLiteral]; rfl
  have mixed : ∀ other, predicate.literal ≠ .int64 other := by simp [isLiteral]
  have compared : compareLiterals (.int64 stored) predicate.literal =
      some (doubleOrder (ofInteger number) literal) := by
    rw [isLiteral, ← isNumber]
    rfl
  have ranked := rank_ofInteger (isNumber ▸ log2_int64 stored)
  rw [predicateTrue_iff_holds plain, predicateHolds_doubles valueDouble literalDouble (.inr mixed), Refuted,
    compared]
  cases literalRank : rank literal with
  | none =>
    rw [truth_of_unranked _ literalRank, doubleOrder_of_unranked _ literalRank]
    constructor
    · rintro ⟨-, isNotEqual⟩
      exact ⟨isNotEqual, rfl⟩
    · rintro ⟨isNotEqual, -⟩
      exact ⟨⟨.eq, rfl, by rw [isNotEqual]; rfl⟩, isNotEqual⟩
  | some other =>
    rw [truth_of_ranks ranked literalRank, doubleOrder_of_ranks ranked literalRank]
    simp only [Option.some.injEq, exists_eq_left', reduceCtorEq, and_false, iff_false, not_and]
    intro refuted
    refine not_holds_of_refutes monotone_id le_rfl le_rfl refuted ?_
    exact not_collision_of_injective Function.injective_id _ _ _

end Numbers

theorem refuted_string {predicate : PushablePredicate} {text literal : String}
    (isLiteral : predicate.literal = .string literal) :
    Refuted predicate (.string (cString text)) ∧ predicateTrue predicate (.string text) ↔
      Truncated predicate.op text literal := by
  have plain : aligned (.string text) (literalValue predicate.literal predicate.literalType) =
      (.string text, literalValue predicate.literal predicate.literalType) := rfl
  have compared : compareLiterals (.string (cString text)) predicate.literal =
      some (compare (cString text) literal) := by
    rw [isLiteral]
    exact compareLiterals_strings _ _
  rw [← disagrees_iff_truncated, Disagrees, predicateTrue_iff_holds plain, predicateHolds_strings isLiteral,
    Refuted, compared]
  simp

/-- A number is not compared with a truth value, a string or nothing. -/
theorem not_refuted_number {predicate : PushablePredicate} {stored : Int64}
    (notNumber : asDouble predicate.literal = none) : ¬ Refuted predicate (.int64 stored) := by
  rintro ⟨cmp, compared, -⟩
  have incomparable : compareLiterals (.int64 stored) predicate.literal = none := by
    cases isLiteral : predicate.literal with
    | int64 literal => rw [isLiteral] at notNumber; cases notNumber
    | double literal => rw [isLiteral] at notNumber; cases notNumber
    | _ => rfl
  rw [incomparable] at compared
  cases compared

/-- A value that is refuted although the predicate holds of it is misread, and a misread value is. -/
theorem refuted_iff_misread {predicate : PushablePredicate} {value : Value} {field : AvroValue}
    {stored : LiteralStorage} (stores : Stores value (liveBranch field))
    (isStored : toLiteralStorage (decodePartitionField field) = some stored) :
    Refuted predicate stored ∧ predicateTrue predicate value ↔ Misread predicate value := by
  cases value with
  | null =>
    unfold decodePartitionField at isStored
    generalize liveBranch field = branch at stores isStored
    cases stores
    cases isStored
  | string text =>
    unfold decodePartitionField at isStored
    generalize liveBranch field = branch at stores isStored
    cases stores
    obtain rfl := Option.some.inj isStored
    cases isLiteral : predicate.literal with
    | string literal => simpa [Misread, isLiteral] using refuted_string isLiteral
    | _ => simp [Misread, isLiteral, Refuted, compareLiterals, asDouble]
  | int number =>
    obtain ⟨found, isFound, isNumber⟩ := decode_number stores rfl
    obtain rfl := Option.some.inj (isStored.symm.trans isFound)
    cases isLiteral : predicate.literal with
    | int64 literal => simpa [Misread, isLiteral] using refuted_integer rfl isNumber isLiteral rfl
    | double literal => simpa [Misread, isLiteral] using refuted_double rfl isNumber isLiteral
    | _ =>
      have notRefuted : ¬ Refuted predicate (.int64 found) := not_refuted_number (by rw [isLiteral]; rfl)
      simp [Misread, isLiteral, notRefuted]
  | date days =>
    obtain ⟨found, isFound, isNumber⟩ := decode_number stores rfl
    obtain rfl := Option.some.inj (isStored.symm.trans isFound)
    cases isLiteral : predicate.literal with
    | int64 literal =>
      by_cases isTimestamp : predicate.literalType.id = .timestamp
      · simpa [Misread, isLiteral, isTimestamp] using
          refuted_instant (show valueInstant (.date days) = some _ from rfl) isNumber isLiteral
            (by rw [isTimestamp]; rfl)
      · simp only [Misread, isLiteral, isTimestamp, if_false]
        refine refuted_integer rfl isNumber isLiteral ?_
        rw [isLiteral]
        by_cases isDate : predicate.literalType.id = .date32
        · simp [literalValue, isDate, aligned]
        · simp [literalValue, isDate, isTimestamp, aligned]
    | double literal => simpa [Misread, isLiteral] using refuted_double rfl isNumber isLiteral
    | _ =>
      have notRefuted : ¬ Refuted predicate (.int64 found) := not_refuted_number (by rw [isLiteral]; rfl)
      simp [Misread, isLiteral, notRefuted]
  | timestamp micros =>
    obtain ⟨found, isFound, isNumber⟩ := decode_number stores rfl
    obtain rfl := Option.some.inj (isStored.symm.trans isFound)
    cases isLiteral : predicate.literal with
    | int64 literal =>
      by_cases isDate : predicate.literalType.id = .date32
      · simpa [Misread, isLiteral, isDate] using
          refuted_instant rfl isNumber isLiteral (by rw [isDate]; rfl)
      · simp only [Misread, isLiteral, isDate, if_false]
        refine refuted_integer rfl isNumber isLiteral ?_
        rw [isLiteral]
        by_cases isTimestamp : predicate.literalType.id = .timestamp
        · simp [literalValue, isTimestamp, aligned]
        · simp [literalValue, isDate, isTimestamp, aligned]
    | double literal => simpa [Misread, isLiteral] using refuted_double rfl isNumber isLiteral
    | _ =>
      have notRefuted : ¬ Refuted predicate (.int64 found) := not_refuted_number (by rw [isLiteral]; rfl)
      simp [Misread, isLiteral, notRefuted]
  | _ => cases stores

section Identity

variable {metadata : IcebergTableMetadata} {spec : IcebergPartitionSpec} {stored : List AvroValue}
  {predicates : List PushablePredicate} {row : String → Value}

/-- A file is skipped only if some predicate is not `TRUE` on a row of it. -/
def SkippedRightly (metadata : IcebergTableMetadata) (spec : IcebergPartitionSpec)
    (stored : List AvroValue) (predicates : List PushablePredicate) (row : String → Value) : Prop :=
  partitionValuesProveEmpty metadata spec (stored.map decodePartitionField) predicates = true →
    ∃ predicate ∈ predicates, ¬ predicateTrue predicate (row predicate.columnName)

/-- A predicate is misread against one of the partition values. -/
def MisreadIn (metadata : IcebergTableMetadata) (spec : IcebergPartitionSpec) (stored : List AvroValue)
    (predicates : List PushablePredicate) (row : String → Value) : Prop :=
  ∃ field value, (field, value) ∈ spec.fields.zip stored ∧
    sourceColumnName metadata field.sourceId ≠ "" ∧ ∃ predicate ∈ predicates,
      predicate.columnName = sourceColumnName metadata field.sourceId ∧
        Misread predicate (row predicate.columnName)

theorem rulesOut_identity {field : IcebergPartitionField} (identity : field.transform = "identity")
    {columnName : String} {value : LiteralStorage} {predicate : PushablePredicate} :
    predicateRulesOut field columnName value predicate = true ↔
      predicate.columnName = columnName ∧ Refuted predicate value := by
  rw [predicateRulesOut_iff, Refuted]
  refine and_congr_right (fun _ => ?_)
  simp only [applyTransform, identity, if_true, decide_true, provesEmpty_identity, Option.some.injEq]
  constructor
  · rintro ⟨-, literal, cmp, rfl, compared, refuted⟩
    exact ⟨cmp, compared, refuted⟩
  · rintro ⟨cmp, compared, refuted⟩
    refine ⟨fun absent => ?_, _, cmp, rfl, compared, refuted⟩
    rw [absent] at compared
    cases value <;> cases compared

/-- A predicate is refuted by one of the partition values, and not misread against it. -/
def RightlyRefuted (metadata : IcebergTableMetadata) (spec : IcebergPartitionSpec) (stored : List AvroValue)
    (row : String → Value) (predicate : PushablePredicate) : Prop :=
  ∃ field value, (field, value) ∈ spec.fields.zip stored ∧
    sourceColumnName metadata field.sourceId ≠ "" ∧
    predicate.columnName = sourceColumnName metadata field.sourceId ∧
    (∃ literal, toLiteralStorage (decodePartitionField value) = some literal ∧ Refuted predicate literal) ∧
    ¬ Misread predicate (row predicate.columnName)

/-- Where a predicate is misread, another one is rightly refuted. -/
def Judged (metadata : IcebergTableMetadata) (spec : IcebergPartitionSpec) (stored : List AvroValue)
    (predicates : List PushablePredicate) (row : String → Value) : Prop :=
  MisreadIn metadata spec stored predicates row →
    ∃ predicate ∈ predicates, RightlyRefuted metadata spec stored row predicate

section Pruned

variable (identity : ∀ field ∈ spec.fields, field.transform = "identity")
  (stores : ∀ field value, (field, value) ∈ spec.fields.zip stored →
    sourceColumnName metadata field.sourceId ≠ "" →
    Stores (row (sourceColumnName metadata field.sourceId)) (liveBranch value))
include identity stores

omit identity in
/-- What is rightly refuted is not `TRUE`. -/
theorem not_predicateTrue_of_rightlyRefuted {predicate : PushablePredicate}
    (right : RightlyRefuted metadata spec stored row predicate) :
    ¬ predicateTrue predicate (row predicate.columnName) := by
  obtain ⟨field, value, inZip, named, onColumn, ⟨literal, isLiteral, refuted⟩, notMisread⟩ := right
  intro holds
  rw [onColumn] at holds notMisread
  exact notMisread ((refuted_iff_misread (stores _ value inZip named) isLiteral).mp ⟨refuted, holds⟩)

/-- A misread predicate skips the file, and is `TRUE` on its rows. -/
theorem skipped_of_misread (misread : MisreadIn metadata spec stored predicates row) :
    partitionValuesProveEmpty metadata spec (stored.map decodePartitionField) predicates = true ∧
      ∃ predicate ∈ predicates, predicateTrue predicate (row predicate.columnName) := by
  obtain ⟨field, avro, inZip, named, found, inPredicates, onColumn, misreads⟩ := misread
  have storedValue := stores field avro inZip named
  rw [onColumn] at misreads
  -- A misread value is present, so it has been decoded to something that can be compared.
  have isDecoded : ∃ literal, toLiteralStorage (decodePartitionField avro) = some literal := by
    unfold decodePartitionField
    generalize row (sourceColumnName metadata field.sourceId) = value at storedValue misreads
    generalize liveBranch avro = branch at storedValue
    cases storedValue with
    | null => cases misreads
    | _ => exact ⟨_, rfl⟩
  obtain ⟨literal, isLiteral⟩ := isDecoded
  obtain ⟨refuted, holds⟩ := (refuted_iff_misread storedValue isLiteral).mpr misreads
  refine ⟨partitionValuesProveEmpty_iff.mpr ⟨field, decodePartitionField avro, ?_, literal, named, isLiteral,
    found, inPredicates, (rulesOut_identity (identity _ (List.of_mem_zip inZip).1)).mpr ⟨onColumn, refuted⟩⟩,
    found, inPredicates, onColumn ▸ holds⟩
  rw [List.zip_map_right, List.mem_map]
  exact ⟨(field, avro), inZip, rfl⟩

/-- A file is skipped rightly exactly when a misread predicate stands beside one that is not `TRUE`. -/
theorem skippedRightly_iff : SkippedRightly metadata spec stored predicates row ↔
    (MisreadIn metadata spec stored predicates row →
      ∃ predicate ∈ predicates, ¬ predicateTrue predicate (row predicate.columnName)) := by
  refine ⟨fun rightly misread => rightly (skipped_of_misread identity stores misread).1,
    fun harmless proved => ?_⟩
  obtain ⟨field, value, member, literal, named, isLiteral, predicate, inPredicates, ruledOut⟩ :=
    partitionValuesProveEmpty_iff.mp proved
  rw [List.zip_map_right, List.mem_map] at member
  obtain ⟨⟨field', avro⟩, inZip, isPair⟩ := member
  obtain ⟨rfl, rfl⟩ := Prod.mk.inj isPair
  by_cases holds : predicateTrue predicate (row predicate.columnName)
  · obtain ⟨onColumn, refuted⟩ := (rulesOut_identity (identity _ (List.of_mem_zip inZip).1)).mp ruledOut
    refine harmless ⟨_, avro, inZip, named, predicate, inPredicates, onColumn, ?_⟩
    rw [onColumn] at holds ⊢
    exact (refuted_iff_misread (stores _ avro inZip named) isLiteral).mp ⟨refuted, holds⟩
  · exact ⟨predicate, inPredicates, holds⟩

/-- Under `identity` a file is skipped rightly when a misread predicate stands beside one that is rightly
refuted. For a single predicate this is exact; in a list it is enough that another predicate is not `TRUE` on the
rows of the file. -/
theorem partitionValuesProveEmpty_identity :
    (Judged metadata spec stored predicates row → SkippedRightly metadata spec stored predicates row) ∧
      (∀ predicate, predicates = [predicate] →
        (SkippedRightly metadata spec stored predicates row ↔ Judged metadata spec stored predicates row)) ∧
      (SkippedRightly metadata spec stored predicates row ↔
        (MisreadIn metadata spec stored predicates row →
          ∃ predicate ∈ predicates, ¬ predicateTrue predicate (row predicate.columnName))) := by
  have enough (judged : Judged metadata spec stored predicates row) :
      SkippedRightly metadata spec stored predicates row := by
    refine (skippedRightly_iff identity stores).mpr (fun misread => ?_)
    obtain ⟨predicate, inPredicates, right⟩ := judged misread
    exact ⟨predicate, inPredicates, not_predicateTrue_of_rightlyRefuted stores right⟩
  refine ⟨enough, fun predicate alone => ⟨fun rightly misread => ?_, enough⟩, skippedRightly_iff identity stores⟩
  -- The one predicate is `TRUE`, so skipping the file for it was wrong.
  obtain ⟨-, found, inPredicates, holds⟩ := skipped_of_misread identity stores misread
  obtain ⟨other, isOther, fails⟩ := (skippedRightly_iff identity stores).mp rightly misread
  obtain rfl : other = found := by simp_all
  exact absurd holds fails

end Pruned

end Identity

def byIdSpec : IcebergPartitionSpec := ⟨0, [⟨2, "identity"⟩]⟩

/-- `id < 5 AND id <> 9007199254740992`: the second predicate is misread against the value 9007199254740993, but
the first is rightly refuted. -/
theorem partitionValuesProveEmpty_identity_bound :
    SkippedRightly eventsMetadata byIdSpec [.union (.long 9007199254740993)]
      [⟨"id", .less, .int64 5, int64Type false⟩, ⟨"id", .notEqual, .int64 9007199254740992, int64Type false⟩]
      (fun _ => .int 9007199254740993) := by
  refine (partitionValuesProveEmpty_identity (fun field member => ?_) (fun field value member _ => ?_)).1
    (fun _ => ⟨_, List.mem_cons_self .., _, _, List.mem_singleton.mpr rfl, by decide, rfl,
      ⟨_, rfl, .gt, by decide +kernel, rfl⟩, fun misread => ?_⟩)
  · obtain rfl := List.mem_singleton.mp member
    rfl
  · obtain ⟨rfl, rfl⟩ := Prod.mk.inj (List.mem_singleton.mp member)
    exact .long 9007199254740993
  · exact absurd misread.1 (by decide)

/-- The file's one value differs from the literal, but both become the double 9007199254740992. -/
theorem identity_partition_skipped_wrongly :
    ¬ ∀ (metadata : IcebergTableMetadata) (spec : IcebergPartitionSpec) (stored : List AvroValue)
        (predicates : List PushablePredicate) (row : String → Value),
      (∀ field ∈ spec.fields, field.transform = "identity") →
      (∀ field value, (field, value) ∈ spec.fields.zip stored →
        sourceColumnName metadata field.sourceId ≠ "" →
        Stores (row (sourceColumnName metadata field.sourceId)) (liveBranch value)) →
      SkippedRightly metadata spec stored predicates row := by
  intro rightly
  have skipped := rightly eventsMetadata byIdSpec [.long 9007199254740993]
    [⟨"id", .notEqual, .int64 9007199254740992, int64Type false⟩] (fun _ => .int 9007199254740993)
    (fun field member => by rw [List.mem_singleton.mp member])
    (fun field value member _ => by
      obtain ⟨rfl, rfl⟩ := Prod.mk.inj (List.mem_singleton.mp member)
      exact .long 9007199254740993)
    (by decide +kernel)
  revert skipped
  decide +kernel

end KernelLake.PartitionPruningProofs
