import KernelLake.EvaluationTypes
import KernelLake.Library.Decimals

/-!
The casts that binding inserts.

A cast of a bound expression is one the statement writes or one that some step of binding put around an
operand it was given. The inserted casts of a step are read off its result, by what stands around each
operand there. A step never narrows a number with the casts it inserts, except that a `CASE` casts every
decimal to the type of its first one.
-/

namespace KernelLake.ImplicitCasts

open KernelLake.Types KernelLake.Expressions KernelLake.Evaluation KernelLake.Binder KernelLake.BoundTypes
open KernelLake.BindingSteps KernelLake.EvaluationTypes KernelLake.Library.Results KernelLake.Library.Decimals

/-- A cast, by the type of what is cast and the type it is cast to. -/
structure Conversion where
  source : DataType
  target : DataType
  deriving DecidableEq

mutual

/-- The casts in an expression. -/
def casts : Expression → List Conversion
  | .column .. => []
  | .literal .. => []
  | .binary _ left right _ => casts left ++ casts right
  | .unary _ operand _ => casts operand
  | .cast operand type => ⟨operand.resultType, type⟩ :: casts operand
  | .extract _ operand _ => casts operand
  | .substring operand _ _ _ => casts operand
  | .between value lower upper => casts value ++ casts lower ++ casts upper
  | .like value _ _ => casts value
  | .caseWhen branches _ => branchCasts branches
  | .aggregate _ argument _ => casts argument
  | .countStar _ => []

def branchCasts : CaseBranches → List Conversion
  | .done => []
  | .otherwise result => casts result
  | .when condition result rest => casts condition ++ casts result ++ branchCasts rest

end

/-- The casts around an expression. -/
def wrappings (inner : Expression) : Expression → List Conversion
  | .cast operand type =>
    if .cast operand type = inner then [] else ⟨operand.resultType, type⟩ :: wrappings inner operand
  | _ => []

def branchResults : CaseBranches → List Expression
  | .done => []
  | .otherwise result => [result]
  | .when _ result rest => result :: branchResults rest

/-- The casts that a result has around the operands of its step. -/
def insertedBy : Step → Expression → List Conversion
  | .binary _ left right, .binary _ left' right' _ => wrappings left left' ++ wrappings right right'
  | .between value lower upper, .between value' lower' upper' =>
    wrappings value value' ++ wrappings lower lower' ++ wrappings upper upper'
  | .caseWhen first others otherwise, .caseWhen branches _ =>
    ((caseResults (first :: others) otherwise).zip (branchResults branches)).flatMap
      (fun pair => wrappings pair.1 pair.2)
  | .aggregate _ argument, .aggregate _ argument' _ => wrappings argument argument'
  | _, _ => []

/-- The casts that a step inserts. -/
def inserted (step : Step) : List Conversion :=
  onOk step.run (insertedBy step)

/-- The cast that a step takes over from the statement. -/
def written : Step → List Conversion
  | .cast operand target => [⟨operand.resultType, target⟩]
  | _ => []

/-! ## The numbers of a type -/

def integers (id : TypeId) : Set ℚ :=
  {number | ∃ whole : ℤ, number = whole ∧ integerFits id whole = true}

/-- The numbers that an integer or decimal type represents. -/
def numbers (type : DataType) : Set ℚ :=
  if type.id = .decimal then decimals (type.precision.getD 0) (type.scale.getD 0) else integers type.id

def isExact (id : TypeId) : Bool :=
  isInteger id || id = .decimal

/-- A conversion between integer and decimal types whose target has every number of its source. -/
def Conversion.Widens (conversion : Conversion) : Prop :=
  isExact conversion.source.id = true → isExact conversion.target.id = true →
    numbers conversion.source ⊆ numbers conversion.target

/-- Whether a decimal type has at most as many digits as another, on either side of the point. -/
def fitsDecimal (type common : DataType) : Bool :=
  type.precision.getD 0 ≤ 0 ||
    (type.scale.getD 0 ≤ common.scale.getD 0 &&
      type.precision.getD 0 - type.scale.getD 0 ≤ common.precision.getD 0 - common.scale.getD 0)

def firstDecimal (types : List DataType) : Option DataType :=
  types.find? (fun type => type.id = .decimal)

/-- In a `CASE` every decimal result fits in the type of the first one. -/
def DecimalsFit : Step → Prop
  | .caseWhen first others otherwise =>
    let types := (caseResults (first :: others) otherwise).map Expression.resultType
    ∀ common, firstDecimal types = some common → ∀ type ∈ types, type.id = .decimal →
      fitsDecimal type common = true
  | _ => True

theorem numbers_subset_iff {type common : DataType} (decimal : type.id = .decimal)
    (commonDecimal : common.id = .decimal) :
    numbers type ⊆ numbers common ↔ fitsDecimal type common = true := by
  simp only [numbers, decimal, commonDecimal, if_true, fitsDecimal, Bool.or_eq_true, Bool.and_eq_true,
    decide_eq_true_eq]
  by_cases empty : type.precision.getD 0 ≤ 0
  · exact iff_of_true (decimals_of_empty empty ..) (.inl empty)
  · rw [decimals_subset_iff (not_le.mp empty), or_iff_right empty]

/-- What a number of decimal type is depends on its digits only. -/
theorem numbers_congr {type other : DataType} (id : type.id = other.id) (precision : type.precision = other.precision)
    (scale : type.scale = other.scale) : numbers type = numbers other := by
  rw [numbers, numbers, id, precision, scale]

/-! ## Integer types -/

def includesIntegers : TypeId → TypeId → Bool
  | .int32, .int32 | .int32, .int64 | .int64, .int64 => true
  | .uint32, .uint32 | .uint32, .uint64 | .uint64, .uint64 | .uint32, .int64 => true
  | _, _ => false

theorem inInt64_iff {value : Int} : inInt64 value = true ↔ -2 ^ 63 ≤ value ∧ value ≤ 2 ^ 63 - 1 := by
  simp only [inInt64, Bool.and_eq_true, decide_eq_true_eq]
  rfl

theorem integers_subset {source target : TypeId} (includes : includesIntegers source target = true) :
    integers source ⊆ integers target := by
  rintro number ⟨whole, rfl, fits⟩
  refine ⟨whole, rfl, ?_⟩
  cases source <;> cases target <;> first
    | (cases includes; done)
    | (simp only [integerFits, inInt64_iff, Bool.and_eq_true, decide_eq_true_eq] at fits ⊢; omega)

/-- A type may come to stand for another where numbers meet: it is the other or a wider integer, or it is no
integer type. -/
def widensTo (source target : TypeId) : Bool :=
  source = target || includesIntegers source target || isFloating target || target = .decimal

theorem widensTo_trans {first second third : TypeId} (toSecond : widensTo first second = true)
    (toThird : widensTo second third = true) : widensTo first third = true := by
  cases second <;> cases third <;> first
    | (cases toThird; done)
    | (cases first <;> first | rfl | cases toSecond)

theorem widens_of_widensTo {source target : DataType} (widens : widensTo source.id target.id = true)
    (notDecimal : source.id ≠ .decimal) (stays : target.id = .decimal → source.id = .decimal) :
    Conversion.Widens ⟨source, target⟩ := by
  intro exactSource exactTarget
  have targetInteger : target.id ≠ .decimal := fun decimal => notDecimal (stays decimal)
  rw [numbers, numbers, if_neg notDecimal, if_neg targetInteger]
  by_cases same : source.id = target.id
  · rw [same]
  · apply integers_subset
    simp only at exactTarget
    have notFloating : isFloating target.id = false := by
      apply isFloating_of_isInteger
      simpa [isExact, targetInteger] using exactTarget
    simpa [widensTo, same, notFloating, targetInteger] using widens

/-! ## Meeting types -/

/-- The integer type in which two integer types of one signedness meet. -/
def meetIntegers (first second : TypeId) : TypeId :=
  if first = .uint64 ∨ second = .uint64 then .uint64
  else if first = .int64 ∨ second = .int64 then .int64
  else if first = .uint32 ∨ second = .uint32 then .uint32
  else .int32

theorem widensTo_meetIntegers {first second : TypeId} (firstNumeric : isNumeric first = true)
    (secondNumeric : isNumeric second = true) (whole : (isFloating first || isFloating second) = false)
    (notDecimal : ¬ (first = .decimal ∨ second = .decimal))
    (oneSign : ¬ ((isSigned first && isUnsigned second) || (isUnsigned first && isSigned second)) = true) :
    widensTo first (meetIntegers first second) = true ∧ widensTo second (meetIntegers first second) = true := by
  cases first <;> first
    | (cases firstNumeric; done)
    | cases whole
    | (exact absurd (.inl rfl) notDecimal)
    | (cases second <;> first
        | exact ⟨rfl, rfl⟩
        | (cases secondNumeric; done)
        | (cases whole; done)
        | (exact absurd rfl oneSign)
        | (exact absurd (.inr rfl) notDecimal))

/-- What the common type of two numeric types keeps of them. -/
structure Meets (a b common : DataType) : Prop where
  left : widensTo a.id common.id = true
  right : widensTo b.id common.id = true
  leftDecimal : a.id = .decimal →
    common.id = .decimal ∧ common.precision = a.precision ∧ common.scale = a.scale
  rightDecimal : b.id = .decimal →
    common.id = .decimal ∧ common.precision = b.precision ∧ common.scale = b.scale
  decimal : common.id = .decimal → a.id = .decimal ∨ b.id = .decimal

theorem promoteNumeric_meets {a b common : DataType} (ran : promoteNumeric a b = .ok common)
    (aNumeric : isNumeric a.id = true) (bNumeric : isNumeric b.id = true) : Meets a b common := by
  have decimalTarget (id : TypeId) : widensTo id .decimal = true := by cases id <;> rfl
  unfold promoteNumeric at ran
  simp only at ran
  split at ran
  · rename_i someDecimal
    split at ran
    · rename_i both
      split at ran
      · rename_i same
        obtain rfl := Except.ok.inj ran
        have toDecimal : widensTo a.id a.id = true ∧ widensTo b.id a.id = true := by
          rw [both.1]
          exact ⟨decimalTarget _, decimalTarget _⟩
        exact ⟨toDecimal.1, toDecimal.2, fun _ => ⟨both.1, rfl, rfl⟩, fun _ => ⟨both.1, same⟩, fun _ => .inl both.1⟩
      · cases ran
    · rename_i notBoth
      obtain rfl := Except.ok.inj ran
      by_cases first : a.id = .decimal
      · have second : b.id ≠ .decimal := fun decimal => notBoth ⟨first, decimal⟩
        simp only [if_pos first]
        rw [first]
        exact ⟨decimalTarget _, decimalTarget _, fun _ => ⟨rfl, rfl, rfl⟩, fun decimal => absurd decimal second,
          fun _ => .inl first⟩
      · have second := someDecimal.resolve_left first
        simp only [if_neg first]
        rw [second]
        exact ⟨decimalTarget _, decimalTarget _, fun decimal => absurd decimal first, fun _ => ⟨rfl, rfl, rfl⟩,
          fun _ => .inr second⟩
  · rename_i noDecimal
    obtain ⟨notFirst, notSecond⟩ := not_or.mp noDecimal
    have plain (id : TypeId) (left : widensTo a.id id = true) (right : widensTo b.id id = true)
        (isId : common.id = id) (notDecimal : id ≠ .decimal) : Meets a b common :=
      ⟨isId ▸ left, isId ▸ right, fun decimal => absurd decimal notFirst, fun decimal => absurd decimal notSecond,
        fun decimal => absurd (isId.symm.trans decimal) notDecimal⟩
    split at ran
    · obtain rfl := Except.ok.inj ran
      have toFloat (id : TypeId) : widensTo id .float64 = true := by cases id <;> rfl
      exact plain .float64 (toFloat _) (toFloat _) rfl (by decide)
    · rename_i whole
      split at ran
      · cases ran
      · rename_i oneSign
        obtain ⟨left, right⟩ := widensTo_meetIntegers aNumeric bNumeric (Bool.not_eq_true _ ▸ whole) noDecimal oneSign
        have isMeet : common.id = meetIntegers a.id b.id ∧ meetIntegers a.id b.id ≠ .decimal := by
          unfold meetIntegers
          repeat' split at ran
          all_goals
            obtain rfl := Except.ok.inj ran
            simp [*, uint64Type, int64Type, uint32Type, int32Type]
        exact plain _ left right isMeet.1 isMeet.2

theorem Meets.leftWidens {a b common : DataType} (meets : Meets a b common)
    (stays : common.id = .decimal → a.id = .decimal) : Conversion.Widens ⟨a, common⟩ := by
  by_cases decimal : a.id = .decimal
  · obtain ⟨isDecimal, precision, scale⟩ := meets.leftDecimal decimal
    intro _ _
    exact (numbers_congr (decimal.trans isDecimal.symm) precision.symm scale.symm).subset
  · exact widens_of_widensTo meets.left decimal stays

theorem Meets.symm {a b common : DataType} (meets : Meets a b common) : Meets b a common :=
  ⟨meets.right, meets.left, meets.rightDecimal, meets.leftDecimal, fun decimal => (meets.decimal decimal).symm⟩

/-- What a third type keeps of the common type of two, it keeps of either. -/
theorem Meets.leftWidens_trans {a b first other common : DataType} (meetsFirst : Meets a b first)
    (meets : Meets first other common) (stays : common.id = .decimal → a.id = .decimal) :
    Conversion.Widens ⟨a, common⟩ := by
  by_cases decimal : a.id = .decimal
  · obtain ⟨isDecimal, precision, scale⟩ := meetsFirst.leftDecimal decimal
    obtain ⟨isDecimal', precision', scale'⟩ := meets.leftDecimal isDecimal
    intro _ _
    exact (numbers_congr (decimal.trans isDecimal'.symm) (precision'.trans precision).symm
      (scale'.trans scale).symm).subset
  · exact widens_of_widensTo (widensTo_trans meetsFirst.left meets.left) decimal stays

/-! ## Casts around an operand -/

/-- An expression with casts around it, or a literal in its place. -/
inductive Wrapped (inner : Expression) : Expression → Prop
  | same : Wrapped inner inner
  | retyped (value : LiteralStorage) (type : DataType) : Wrapped inner (.literal value type)
  | cast {middle : Expression} (type : DataType) : Wrapped inner middle → Wrapped inner (.cast middle type)

/-- The casts of a wrapped expression are its own and those around it. -/
theorem casts_wrapped {inner outer : Expression} (wrapped : Wrapped inner outer) :
    ∀ conversion ∈ casts outer, conversion ∈ casts inner ∨ conversion ∈ wrappings inner outer := by
  induction wrapped with
  | same => exact fun conversion member => .inl member
  | retyped value type => exact List.forall_mem_nil _
  | @cast middle type _ hypothesis =>
    intro conversion member
    rw [wrappings]
    split
    · rename_i same
      exact .inl (same ▸ member)
    · rcases List.mem_cons.mp member with rfl | inside
      · exact .inr (List.mem_cons_self ..)
      · exact (hypothesis conversion inside).imp_right (List.mem_cons_of_mem _)

/-- An expression with casts around it that do not narrow. -/
structure WidelyWrapped (inner outer : Expression) : Prop where
  wrapped : Wrapped inner outer
  widens : ∀ conversion ∈ wrappings inner outer, conversion.Widens

theorem wrappings_self (expression : Expression) : wrappings expression expression = [] := by
  cases expression with
  | cast operand type => rw [wrappings, if_pos rfl]
  | _ => rfl

/-- No expression is a cast of itself. -/
theorem wrappings_cast (expression : Expression) (type : DataType) :
    wrappings expression (.cast expression type) = [⟨expression.resultType, type⟩] := by
  have larger : .cast expression type ≠ expression := by
    intro same
    have sizes := congrArg sizeOf same
    simp at sizes
    omega
  rw [wrappings, if_neg larger, wrappings_self]

theorem WidelyWrapped.refl (expression : Expression) : WidelyWrapped expression expression := by
  constructor
  · exact .same
  · rw [wrappings_self]
    exact List.forall_mem_nil _

/-- The outcomes of a cast to a common type: none was needed, a literal was retyped, or a cast was put
around the expression, to a decimal only from a decimal. -/
theorem castIfNeeded_cases {expression result : Expression} {target : DataType}
    (ran : castIfNeeded expression target = .ok result) :
    (sameKind expression.resultType target = true ∧ result = expression) ∨
      (expression.resultType.id ≠ .decimal ∧ ∃ value, result = .literal value target) ∨
      ((target.id = .decimal → expression.resultType.id = .decimal) ∧ result = .cast expression target) := by
  unfold castIfNeeded at ran
  simp only at ran
  split at ran
  · rename_i same
    exact .inl ⟨same, (Except.ok.inj ran).symm⟩
  · split at ran
    · rename_i toDecimal
      split at ran
      · split at ran
        · cases ran
        · exact .inr (.inl ⟨toDecimal.2, _, (Except.ok.inj ran).symm⟩)
      · cases ran
    · rename_i stays
      refine .inr (.inr ⟨fun decimal => ?_, (Except.ok.inj ran).symm⟩)
      by_contra other
      exact stays ⟨decimal, other⟩

theorem castIfNeeded_wrapped {inner expression result : Expression} {target : DataType}
    (ran : castIfNeeded expression target = .ok result) (wrapped : Wrapped inner expression) :
    Wrapped inner result := by
  rcases castIfNeeded_cases ran with ⟨_, rfl⟩ | ⟨_, value, rfl⟩ | ⟨_, rfl⟩
  · exact wrapped
  · exact .retyped value target
  · exact .cast target wrapped

/-- The casts around what was cast to a common type are those around it before and perhaps that one. -/
theorem wrappings_castIfNeeded {inner expression result : Expression} {target : DataType}
    (ran : castIfNeeded expression target = .ok result) :
    ∀ conversion ∈ wrappings inner result, conversion ∈ wrappings inner expression ∨
      conversion = ⟨expression.resultType, target⟩ ∧
        (target.id = .decimal → expression.resultType.id = .decimal) := by
  intro conversion member
  rcases castIfNeeded_cases ran with ⟨_, rfl⟩ | ⟨_, value, rfl⟩ | ⟨stays, rfl⟩
  · exact .inl member
  · cases member
  · rw [wrappings] at member
    split at member
    · cases member
    · rcases List.mem_cons.mp member with rfl | inside
      · exact .inr ⟨rfl, stays⟩
      · exact .inl inside

theorem castIfNeeded_widens {inner expression result : Expression} {target : DataType}
    (ran : castIfNeeded expression target = .ok result) (wrapped : WidelyWrapped inner expression)
    (widens : (target.id = .decimal → expression.resultType.id = .decimal) →
      Conversion.Widens ⟨expression.resultType, target⟩) : WidelyWrapped inner result := by
  constructor
  · exact castIfNeeded_wrapped ran wrapped.wrapped
  · intro conversion member
    rcases wrappings_castIfNeeded ran conversion member with before | ⟨rfl, stays⟩
    · exact wrapped.widens conversion before
    · exact widens stays

/-! ## Steps that never narrow -/

/-- Both operands of an operator are cast to where their types meet. -/
theorem combineBinary_widens {op : BinaryOperator} {left right result : Expression}
    (ran : combineBinary op left right = .ok result) :
    ∃ left' right' type, result = .binary op left' right' type ∧ WidelyWrapped left left' ∧
      WidelyWrapped right right' := by
  have promoted {common : DataType} {left' right' : Expression} (numeric : isNumeric left.resultType.id = true)
      (otherNumeric : isNumeric right.resultType.id = true)
      (commonRan : promoteNumeric left.resultType right.resultType = .ok common)
      (leftRan : castIfNeeded left common = .ok left') (rightRan : castIfNeeded right common = .ok right') :
      WidelyWrapped left left' ∧ WidelyWrapped right right' := by
    have meets := promoteNumeric_meets commonRan numeric otherNumeric
    exact ⟨castIfNeeded_widens leftRan (.refl left) meets.leftWidens,
      castIfNeeded_widens rightRan (.refl right) meets.symm.leftWidens⟩
  unfold combineBinary at ran
  simp only at ran
  split at ran
  · split at ran
    · cases ran
    · rename_i numeric
      simp only [Bool.or_eq_true, Bool.not_eq_true', not_or, Bool.not_eq_false] at numeric
      simp only [bind_eq_ok, pure_eq_ok] at ran
      obtain ⟨common, commonRan, left', leftRan, right', rightRan, rfl⟩ := ran
      exact ⟨left', right', common, rfl, promoted numeric.1 numeric.2 commonRan leftRan rightRan⟩
  · split at ran
    · split at ran
      · cases ran
      · exact ⟨left, right, _, (Except.ok.inj ran).symm, .refl left, .refl right⟩
    · split at ran
      · exact ⟨left, right, _, (Except.ok.inj ran).symm, .refl left, .refl right⟩
      · split at ran
        · rename_i numeric
          simp only [Bool.and_eq_true] at numeric
          simp only [bind_eq_ok, pure_eq_ok] at ran
          obtain ⟨common, commonRan, left', leftRan, right', rightRan, rfl⟩ := ran
          exact ⟨left', right', _, rfl, promoted numeric.1 numeric.2 commonRan leftRan rightRan⟩
        · cases ran

theorem unifyBound_widens {value bound result : Expression} {side : String}
    (ran : unifyBound value bound side = .ok result) : WidelyWrapped bound result := by
  unfold unifyBound at ran
  simp only at ran
  split at ran
  · rw [← Except.ok.inj ran]
    exact .refl bound
  · split at ran
    · rename_i numeric
      simp only [Bool.and_eq_true] at numeric
      obtain ⟨common, commonRan, castRan⟩ := bind_eq_ok.mp ran
      exact castIfNeeded_widens castRan (.refl bound)
        (promoteNumeric_meets commonRan numeric.1 numeric.2).symm.leftWidens
    · cases ran

/-- The value and both bounds of a `BETWEEN` are cast to where the types of all three meet. -/
theorem combineBetween_widens {value lower upper result : Expression}
    (ran : combineBetween value lower upper = .ok result) :
    ∃ value' lower' upper', result = .between value' lower' upper' ∧ WidelyWrapped value value' ∧
      WidelyWrapped lower lower' ∧ WidelyWrapped upper upper' := by
  unfold combineBetween at ran
  obtain ⟨lower', lowerRan, ran⟩ := bind_eq_ok.mp ran
  obtain ⟨upper', upperRan, ran⟩ := bind_eq_ok.mp ran
  have lowerWraps := unifyBound_widens lowerRan
  have upperWraps := unifyBound_widens upperRan
  split at ran
  · rename_i numeric
    have lowerNumeric := unifyBound_numeric lowerRan numeric
    have upperNumeric := unifyBound_numeric upperRan numeric
    simp only [bind_eq_ok, pure_eq_ok] at ran
    obtain ⟨first, firstRan, common, commonRan, value'', valueRan, lower'', lowerRan', upper'', upperRan', rfl⟩ :=
      ran
    have meetsFirst := promoteNumeric_meets firstRan numeric lowerNumeric
    have meets := promoteNumeric_meets commonRan (promoteNumeric_typed firstRan).1 upperNumeric
    refine ⟨value'', lower'', upper'', rfl, ?_, ?_, ?_⟩
    · exact castIfNeeded_widens valueRan (.refl value) (meetsFirst.leftWidens_trans meets)
    · exact castIfNeeded_widens lowerRan' lowerWraps (meetsFirst.symm.leftWidens_trans meets)
    · exact castIfNeeded_widens upperRan' upperWraps meets.symm.leftWidens
  · rw [← pure_eq_ok.mp ran]
    exact ⟨value, lower', upper', rfl, .refl value, lowerWraps, upperWraps⟩

theorem combineAggregate_widens {function : AggregateFunction} {argument result : Expression}
    (ran : combineAggregate function argument = .ok result) :
    ∃ argument' type, result = .aggregate function argument' type ∧ WidelyWrapped argument argument' := by
  unfold combineAggregate at ran
  cases function with
  | sum =>
    simp only at ran
    split at ran
    · cases ran
    · rename_i numeric
      split at ran
      · exact ⟨argument, _, (Except.ok.inj ran).symm, .refl argument⟩
      · rename_i notDecimal
        simp only [bind_eq_ok, pure_eq_ok] at ran
        obtain ⟨argument', castRan, rfl⟩ := ran
        refine ⟨argument', _, rfl, castIfNeeded_widens castRan (.refl argument) (fun stays => ?_)⟩
        apply widens_of_widensTo ?_ notDecimal stays
        generalize argument.resultType.id = id at numeric notDecimal
        cases id <;> first | rfl | exact absurd rfl numeric | exact absurd rfl notDecimal
  | avg =>
    simp only at ran
    split at ran
    · cases ran
    · split at ran
      · cases ran
      · exact ⟨argument, _, (Except.ok.inj ran).symm, .refl argument⟩
  | count => exact ⟨argument, _, (Except.ok.inj ran).symm, .refl argument⟩
  | countDistinct => exact ⟨argument, _, (Except.ok.inj ran).symm, .refl argument⟩
  | min => exact ⟨argument, _, (Except.ok.inj ran).symm, .refl argument⟩
  | max => exact ⟨argument, _, (Except.ok.inj ran).symm, .refl argument⟩

/-! ## The results of a `CASE` -/

theorem unifyBranch_meets {common branch next : DataType} (ran : unifyBranch common branch = .ok next) :
    widensTo common.id next.id = true ∧ widensTo branch.id next.id = true := by
  have refl (id : TypeId) : widensTo id id = true := by simp [widensTo]
  unfold unifyBranch at ran
  split at ran
  · rename_i same
    rw [← Except.ok.inj ran, same]
    exact ⟨refl _, refl _⟩
  · split at ran
    · rename_i numeric
      simp only [Bool.and_eq_true] at numeric
      have meets := promoteNumeric_meets ran numeric.1 numeric.2
      exact ⟨meets.left, meets.right⟩
    · cases ran

/-- Where branches meet a decimal stays what it is. -/
theorem unifyBranch_decimal {common branch next : DataType} (ran : unifyBranch common branch = .ok next)
    (decimal : common.id = .decimal) :
    next.id = .decimal ∧ next.precision = common.precision ∧ next.scale = common.scale := by
  unfold unifyBranch at ran
  split at ran
  · rw [← Except.ok.inj ran]
    exact ⟨decimal, rfl, rfl⟩
  · split at ran
    · rename_i numeric
      simp only [Bool.and_eq_true] at numeric
      exact (promoteNumeric_meets ran numeric.1 numeric.2).leftDecimal decimal
    · cases ran

/-- Until a decimal comes, what the branches have met in is none; then it is that one. -/
theorem unifyBranch_notDecimal {common branch next : DataType} (ran : unifyBranch common branch = .ok next)
    (notDecimal : common.id ≠ .decimal) :
    (branch.id ≠ .decimal → next.id ≠ .decimal) ∧ (branch.id = .decimal →
      next.id = .decimal ∧ next.precision = branch.precision ∧ next.scale = branch.scale) := by
  unfold unifyBranch at ran
  split at ran
  · rename_i same
    rw [← Except.ok.inj ran]
    exact ⟨fun _ => notDecimal, fun decimal => absurd (same.symm.trans decimal) notDecimal⟩
  · split at ran
    · rename_i numeric
      simp only [Bool.and_eq_true] at numeric
      have meets := promoteNumeric_meets ran numeric.1 numeric.2
      refine ⟨fun branchNot decimal => ?_, meets.rightDecimal⟩
      rcases meets.decimal decimal with first | second
      · exact notDecimal first
      · exact branchNot second
    · cases ran

theorem foldlM_unifyBranch_widensTo {types : List DataType} {first common : DataType}
    (ran : types.foldlM unifyBranch first = .ok common) :
    ∀ type ∈ first :: types, widensTo type.id common.id = true := by
  induction types generalizing first with
  | nil =>
    rw [List.foldlM_nil, pure_eq_ok] at ran
    rw [ran]
    exact List.forall_mem_singleton.mpr (by simp [widensTo])
  | cons branch types hypothesis =>
    rw [List.foldlM_cons] at ran
    obtain ⟨next, unified, restRan⟩ := bind_eq_ok.mp ran
    obtain ⟨fromFirst, fromBranch⟩ := unifyBranch_meets unified
    obtain ⟨toCommon, others⟩ := List.forall_mem_cons.mp (hypothesis restRan)
    exact List.forall_mem_cons.mpr ⟨widensTo_trans fromFirst toCommon,
      List.forall_mem_cons.mpr ⟨widensTo_trans fromBranch toCommon, others⟩⟩

theorem firstDecimal_cons (type : DataType) (types : List DataType) :
    firstDecimal (type :: types) = if type.id = .decimal then some type else firstDecimal types := by
  rw [firstDecimal, List.find?_cons]
  by_cases decimal : type.id = .decimal
  · rw [decide_eq_true decimal, if_pos decimal]
  · rw [decide_eq_false decimal, if_neg decimal]
    rfl

theorem firstDecimal_none {types : List DataType} (none : firstDecimal types = none) :
    ∀ type ∈ types, type.id ≠ .decimal := by
  intro type member
  have notDecimal := List.find?_eq_none.mp none type member
  simpa using notDecimal

/-- The type of a `CASE` is a decimal exactly when a branch is, with the digits of the first such branch. -/
theorem foldlM_unifyBranch_decimal {types : List DataType} {first common : DataType}
    (ran : types.foldlM unifyBranch first = .ok common) :
    match firstDecimal (first :: types) with
    | none => common.id ≠ .decimal
    | some type => common.id = .decimal ∧ common.precision = type.precision ∧ common.scale = type.scale := by
  induction types generalizing first with
  | nil =>
    rw [List.foldlM_nil, pure_eq_ok] at ran
    rw [ran, firstDecimal_cons]
    by_cases decimal : common.id = .decimal
    · rw [if_pos decimal]
      exact ⟨decimal, rfl, rfl⟩
    · rw [if_neg decimal]
      exact decimal
  | cons branch types hypothesis =>
    rw [List.foldlM_cons] at ran
    obtain ⟨next, unified, restRan⟩ := bind_eq_ok.mp ran
    have rest := hypothesis restRan
    rw [firstDecimal_cons] at rest ⊢
    by_cases decimal : first.id = .decimal
    · obtain ⟨nextDecimal, precision, scale⟩ := unifyBranch_decimal unified decimal
      rw [if_pos nextDecimal] at rest
      rw [if_pos decimal]
      exact ⟨rest.1, rest.2.1.trans precision, rest.2.2.trans scale⟩
    · obtain ⟨stays, becomes⟩ := unifyBranch_notDecimal unified decimal
      rw [if_neg decimal, firstDecimal_cons]
      by_cases branchDecimal : branch.id = .decimal
      · obtain ⟨nextDecimal, precision, scale⟩ := becomes branchDecimal
        rw [if_pos nextDecimal] at rest
        rw [if_pos branchDecimal]
        exact ⟨rest.1, rest.2.1.trans precision, rest.2.2.trans scale⟩
      · rw [if_neg (stays branchDecimal)] at rest
        rw [if_neg branchDecimal]
        exact rest

/-- Every result of a `CASE` is cast to its type. -/
theorem castBranches_results {common : DataType} {branches : List (Expression × Expression)}
    {otherwise : Option Expression} {result : CaseBranches}
    (ran : castBranches common branches otherwise = .ok result) :
    List.Forall₂ (fun before after => castIfNeeded before common = .ok after) (caseResults branches otherwise)
      (branchResults result) := by
  induction branches generalizing result with
  | nil =>
    cases otherwise with
    | none =>
      rw [← pure_eq_ok.mp ran]
      exact .nil
    | some expression =>
      simp only [castBranches, bind_eq_ok, pure_eq_ok] at ran
      obtain ⟨cast, castRan, rfl⟩ := ran
      exact .cons castRan .nil
  | cons branch branches hypothesis =>
    simp only [castBranches, bind_eq_ok, pure_eq_ok] at ran
    obtain ⟨cast, castRan, rest, restRan, rfl⟩ := ran
    exact .cons castRan (hypothesis restRan)

/-- The casts that a `CASE` inserts widen exactly when every decimal result fits in the type of the first
one. -/
theorem combineCase_widens_iff {first : Expression × Expression} {others : List (Expression × Expression)}
    {otherwise : Option Expression} {result : Expression} (ran : combineCase first others otherwise = .ok result) :
    (∀ conversion ∈ inserted (.caseWhen first others otherwise), conversion.Widens) ↔
      DecimalsFit (.caseWhen first others otherwise) := by
  have stepRan : (Step.caseWhen first others otherwise).run = .ok result := ran
  unfold combineCase at ran
  simp only [bind_eq_ok, pure_eq_ok] at ran
  obtain ⟨common, unified, branches, branchesRan, rfl⟩ := ran
  have results := castBranches_results branchesRan
  have sameTypes : first.2.resultType :: (others.map (fun branch => branch.2.resultType) ++
      otherwise.toList.map Expression.resultType) =
        (caseResults (first :: others) otherwise).map Expression.resultType := by
    simp [caseResults, Function.comp_def]
  have widens := foldlM_unifyBranch_widensTo unified
  have decimals := foldlM_unifyBranch_decimal unified
  rw [sameTypes] at widens decimals
  rw [inserted, stepRan, onOk_ok, insertedBy]
  constructor
  · intro eachWidens type isFirst other member decimal
    rw [isFirst] at decimals
    obtain ⟨commonDecimal, precision, scale⟩ := decimals
    obtain ⟨before, isBefore, rfl⟩ := List.mem_map.mp member
    obtain ⟨after, inZip⟩ := exists_zip_of_mem_left results isBefore
    have castRan := (List.forall₂_iff_zip.mp results).2 inZip
    have fits : numbers before.resultType ⊆ numbers common := by
      rcases castIfNeeded_cases castRan with ⟨same, _⟩ | ⟨notDecimal, _⟩ | ⟨_, rfl⟩
      · obtain ⟨sameId, samePrecision, sameScale⟩ := sameKind_iff.mp same
        exact (numbers_congr sameId samePrecision sameScale).subset
      · exact absurd decimal notDecimal
      · have widened := eachWidens _ (List.mem_flatMap.mpr ⟨_, inZip, by
          rw [wrappings_cast]
          exact List.mem_singleton.mpr rfl⟩)
        exact widened (by simp [isExact, decimal]) (by simp [isExact, commonDecimal])
    have isType : type.id = .decimal := by simpa using List.find?_some isFirst
    rw [numbers_congr (commonDecimal.trans isType.symm) precision scale] at fits
    exact (numbers_subset_iff decimal isType).mp fits
  · intro fit conversion member
    obtain ⟨⟨before, after⟩, inZip, isWrapping⟩ := List.mem_flatMap.mp member
    have castRan := (List.forall₂_iff_zip.mp results).2 inZip
    have isResult := List.mem_map_of_mem (f := Expression.resultType) (List.of_mem_zip inZip).1
    have wrapped := castIfNeeded_widens castRan (.refl before) (fun stays => by
      by_cases decimal : before.resultType.id = .decimal
      · cases isFirst : firstDecimal ((caseResults (first :: others) otherwise).map Expression.resultType) with
        | none => exact absurd decimal (firstDecimal_none isFirst _ isResult)
        | some type =>
          rw [isFirst] at decimals
          obtain ⟨commonDecimal, precision, scale⟩ := decimals
          have isType : type.id = .decimal := by simpa using List.find?_some isFirst
          intro _ _
          change numbers before.resultType ⊆ numbers common
          rw [numbers_congr (commonDecimal.trans isType.symm) precision scale]
          exact (numbers_subset_iff decimal isType).mpr (fit type isFirst _ isResult decimal)
      · exact widens_of_widensTo (widens _ isResult) decimal stays)
    exact wrapped.widens conversion isWrapping

end KernelLake.ImplicitCasts
