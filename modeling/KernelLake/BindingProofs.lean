import KernelLake.BindingSteps

/-!
What binding does with the names of an expression.

Binding looks names up, types them and inserts casts, and nothing else: a bound expression has every
property that operators inherit from their operands and that its columns have. In particular every
column is what some reference resolves to, and two ways of resolving names that agree on an
expression's references bind it to the same expression.
-/

namespace KernelLake.BindingProofs

open KernelLake.Types KernelLake.Expressions KernelLake.SqlAst KernelLake.Binder KernelLake.BoundTypes
open KernelLake.BindingSteps KernelLake.Library.Results

/-! ## Columns of a bound expression -/

/-- A column as a bound expression refers to it. -/
structure ColumnUse where
  name : String
  index : Nat
  type : DataType
  deriving DecidableEq

mutual

/-- The columns of an expression, those inside its aggregates included. -/
def columnUses : Expression → List ColumnUse
  | .column name columnIndex type => [⟨name, columnIndex, type⟩]
  | .literal .. => []
  | .binary _ left right _ => columnUses left ++ columnUses right
  | .unary _ operand _ => columnUses operand
  | .cast operand _ => columnUses operand
  | .extract _ operand _ => columnUses operand
  | .substring operand _ _ _ => columnUses operand
  | .between value lower upper => columnUses value ++ columnUses lower ++ columnUses upper
  | .like value _ _ => columnUses value
  | .caseWhen branches _ => branchUses branches
  | .aggregate _ argument _ => columnUses argument
  | .countStar _ => []

def branchUses : CaseBranches → List ColumnUse
  | .done => []
  | .otherwise result => columnUses result
  | .when condition result rest => columnUses condition ++ columnUses result ++ branchUses rest

end

/-! ## Properties that binding keeps -/

/-- A property of expressions that operators inherit from their operands, where the types are those
that binding gives. -/
structure Hereditary (holds : Expression → Prop) (branchesHold : CaseBranches → Prop) : Prop where
  literal : ∀ value type, LiteralTyped value type → holds (.literal value type)
  retyped : ∀ {value type} target, holds (.literal value type) → isNumeric type.id = true →
    target.id = .decimal → holds (.literal value target)
  binary : ∀ {left right} op type, OperatorTyped op left.resultType right.resultType type →
    holds left → holds right → holds (.binary op left right type)
  unary : ∀ {operand} op type, UnaryTyped op operand.resultType type → holds operand →
    holds (.unary op operand type)
  cast : ∀ {operand} type, holds operand → holds (.cast operand type)
  extract : ∀ {operand} part type, type.id = .int64 → holds operand → holds (.extract part operand type)
  substring : ∀ {operand} start length type, type.id = .string → holds operand →
    holds (.substring operand start length type)
  between : ∀ {value lower upper}, holds value → holds lower → holds upper →
    holds (.between value lower upper)
  like : ∀ {value} pattern negated, holds value → holds (.like value pattern negated)
  caseWhen : ∀ {branches} type, (∀ result ∈ resultTypes branches, sameKind result type = true) →
    branchesHold branches → holds (.caseWhen branches type)
  done : branchesHold .done
  otherwise : ∀ {result}, holds result → branchesHold (.otherwise result)
  when : ∀ {condition result rest}, holds condition → holds result → branchesHold rest →
    branchesHold (.when condition result rest)

/-- The same where operators may also rely on the types that binding demands of their operands. -/
structure Inheritable (holds : Expression → Prop) (branchesHold : CaseBranches → Prop) : Prop where
  literal : ∀ value type, LiteralTyped value type → holds (.literal value type)
  retyped : ∀ {value type} target, holds (.literal value type) → isNumeric type.id = true →
    target.id = .decimal → holds (.literal value target)
  binary : ∀ {left right} op type, OperatorTyped op left.resultType right.resultType type →
    OperandsTyped op left.resultType right.resultType → holds left → holds right →
    holds (.binary op left right type)
  unary : ∀ {operand} op type, UnaryTyped op operand.resultType type → OperandTyped op operand.resultType →
    holds operand → holds (.unary op operand type)
  cast : ∀ {operand} type, holds operand → holds (.cast operand type)
  extract : ∀ {operand} part type, type.id = .int64 → holds operand → holds (.extract part operand type)
  substring : ∀ {operand} start length type, type.id = .string → holds operand →
    holds (.substring operand start length type)
  between : ∀ {value lower upper}, sameKind value.resultType lower.resultType = true →
    sameKind value.resultType upper.resultType = true → holds value → holds lower → holds upper →
    holds (.between value lower upper)
  like : ∀ {value} pattern negated, holds value → holds (.like value pattern negated)
  caseWhen : ∀ {branches} type, (∀ result ∈ resultTypes branches, sameKind result type = true) →
    branchesHold branches → holds (.caseWhen branches type)
  done : branchesHold .done
  otherwise : ∀ {result}, holds result → branchesHold (.otherwise result)
  when : ∀ {condition result rest}, holds condition → holds result → branchesHold rest →
    branchesHold (.when condition result rest)

/-- The same where operators may rely on every check that binding makes. -/
structure Derivable (holds : Expression → Prop) (branchesHold : CaseBranches → Prop) : Prop where
  literal : ∀ value type, StorageTyped value type → holds (.literal value type)
  retyped : ∀ {value type} target, holds (.literal value type) → isNumeric type.id = true →
    target.id = .decimal → holds (.literal value target)
  binary : ∀ {left right} op type, OperatorTyped op left.resultType right.resultType type →
    OperandsTyped op left.resultType right.resultType → holds left → holds right →
    holds (.binary op left right type)
  unary : ∀ {operand} op type, UnaryTyped op operand.resultType type → OperandTyped op operand.resultType →
    holds operand → holds (.unary op operand type)
  cast : ∀ {operand} type, holds operand → holds (.cast operand type)
  extract : ∀ {operand} part type, type.id = .int64 →
    operand.resultType.id = .date32 ∨ operand.resultType.id = .timestamp → holds operand →
    holds (.extract part operand type)
  substring : ∀ {operand} start length type, type.id = .string → operand.resultType.id = .string →
    holds operand → holds (.substring operand start length type)
  between : ∀ {value lower upper}, sameKind value.resultType lower.resultType = true →
    sameKind value.resultType upper.resultType = true → holds value → holds lower → holds upper →
    holds (.between value lower upper)
  like : ∀ {value} pattern negated, value.resultType.id = .string → holds value →
    holds (.like value pattern negated)
  caseWhen : ∀ {branches} type, (∀ result ∈ resultTypes branches, sameKind result type = true) →
    branchesHold branches → holds (.caseWhen branches type)
  done : branchesHold .done
  otherwise : ∀ {result}, holds result → branchesHold (.otherwise result)
  when : ∀ {condition result rest}, condition.resultType.id = .boolean → holds condition → holds result →
    branchesHold rest → branchesHold (.when condition result rest)

theorem Inheritable.derivable {holds : Expression → Prop} {branchesHold : CaseBranches → Prop}
    (inheritable : Inheritable holds branchesHold) : Derivable holds branchesHold where
  literal value type typed := inheritable.literal value type typed.literalTyped
  retyped := inheritable.retyped
  binary := inheritable.binary
  unary := inheritable.unary
  cast := inheritable.cast
  extract part type typed _ := inheritable.extract part type typed
  substring start length type typed _ := inheritable.substring start length type typed
  between := inheritable.between
  like pattern negated _ := inheritable.like pattern negated
  caseWhen := inheritable.caseWhen
  done := inheritable.done
  otherwise := inheritable.otherwise
  when _ := inheritable.when

theorem Hereditary.inheritable {holds : Expression → Prop} {branchesHold : CaseBranches → Prop}
    (hereditary : Hereditary holds branchesHold) : Inheritable holds branchesHold where
  literal := hereditary.literal
  retyped := hereditary.retyped
  binary op type typed _ := hereditary.binary op type typed
  unary op type typed _ := hereditary.unary op type typed
  cast := hereditary.cast
  extract := hereditary.extract
  substring := hereditary.substring
  between _ _ := hereditary.between
  like := hereditary.like
  caseWhen := hereditary.caseWhen
  done := hereditary.done
  otherwise := hereditary.otherwise
  when := hereditary.when

/-- Aggregate calls inherit the property too. -/
structure CallsInherit (holds : Expression → Prop) : Prop where
  aggregate : ∀ {argument} function type, CallTyped function argument.resultType type → holds argument →
    holds (.aggregate function argument type)
  countStar : ∀ type, type.id = .int64 → holds (.countStar type)

/-- The property of all parts of a `CASE` before they are cast to one type. -/
def PartsHold (holds : Expression → Prop) (branches : List (Expression × Expression))
    (otherwise : Option Expression) : Prop :=
  (∀ branch ∈ branches, holds branch.1 ∧ holds branch.2) ∧ ∀ result, otherwise = some result → holds result

/-- The binder's induction rule: a property that every step of binding keeps, whatever it needs to know
about the step. -/
structure ClosedUnderBinding (holds : Expression → Prop) : Prop where
  literal : ∀ value, holds (bindLiteral value)
  null : ∀ {typed}, holds typed → holds (makeNull typed.resultType)
  binary : ∀ {op left right result}, combineBinary op left right = .ok result → holds left → holds right →
    holds result
  unary : ∀ {op operand result}, combineUnary op operand = .ok result → holds operand → holds result
  notIn : ∀ {items}, items.resultType.id = .boolean → holds items →
    holds (.unary .not items (booleanType false))
  between : ∀ {value lower upper result}, combineBetween value lower upper = .ok result → holds value →
    holds lower → holds upper → holds result
  like : ∀ {value} pattern negated, value.resultType.id = .string → holds value →
    holds (.like value pattern negated)
  extract : ∀ {part operand result}, combineExtract part operand = .ok result → holds operand →
    holds result
  substring : ∀ {operand start length result}, combineSubstring operand start length = .ok result →
    holds operand → holds result
  cast : ∀ {operand target name precision scale},
    resolveCastTypeName name precision scale operand.resultType.nullable = .ok target → holds operand →
    holds (.cast operand target)
  caseWhen : ∀ {first others otherwise result}, combineCase first others otherwise = .ok result →
    (∀ branch ∈ first :: others, branch.1.resultType.id = .boolean) →
    PartsHold holds (first :: others) otherwise → holds result

/-- The same for the steps that bind aggregate calls. -/
structure CallsClosed (holds : Expression → Prop) : Prop where
  aggregate : ∀ {function argument result}, combineAggregate function argument = .ok result →
    holds argument → holds result
  countStar : holds (.countStar (int64Type false))

section Operators

variable {holds : Expression → Prop} {branchesHold : CaseBranches → Prop}

theorem holds_castIfNeeded (derivable : Derivable holds branchesHold) {expression result : Expression}
    {target : DataType} (ran : castIfNeeded expression target = .ok result)
    (convertible : Convertible expression.resultType target) (held : holds expression) : holds result := by
  unfold castIfNeeded at ran
  simp only at ran
  split at ran
  · rwa [← Except.ok.inj ran]
  · split at ran
    · rename_i toDecimal
      split at ran
      · split at ran
        · cases ran
        · rw [← Except.ok.inj ran]
          rcases convertible with ⟨numeric, _⟩ | same
          · exact derivable.retyped _ held numeric toDecimal.1
          · exact absurd (same.trans toDecimal.1) toDecimal.2
      · cases ran
    · rw [← Except.ok.inj ran]
      exact derivable.cast _ held

theorem holds_bindLiteral (derivable : Derivable holds branchesHold) (value : AstLiteral) :
    holds (bindLiteral value) := by
  cases value with
  | integer _ => exact derivable.literal _ _ (.inl rfl)
  | float _ => exact derivable.literal _ _ (.inl rfl)
  | date _ => exact derivable.literal _ _ (.inr (.inl rfl))
  | boolean _ => exact derivable.literal _ _ rfl
  | string _ => exact derivable.literal _ _ rfl
  | null => exact derivable.literal _ _ trivial

theorem holds_combineBinary (derivable : Derivable holds branchesHold) {op : BinaryOperator}
    {left right result : Expression} (ran : combineBinary op left right = .ok result)
    (leftHeld : holds left) (rightHeld : holds right) : holds result := by
  unfold combineBinary at ran
  simp only at ran
  split at ran
  · rename_i arithmetic
    split at ran
    · cases ran
    · rename_i numeric
      simp only [Bool.or_eq_true, Bool.not_eq_true', not_or, Bool.not_eq_false] at numeric
      simp only [bind_eq_ok, pure_eq_ok] at ran
      obtain ⟨resultType, promoted, left', leftRan, right', rightRan, rfl⟩ := ran
      obtain ⟨common, scaled⟩ := promoteNumeric_typed promoted
      refine derivable.binary _ _ ?_ ?_ (holds_castIfNeeded derivable leftRan (.inl ⟨numeric.1, common⟩) leftHeld)
        (holds_castIfNeeded derivable rightRan (.inl ⟨numeric.2, common⟩) rightHeld)
      · rw [OperatorTyped, if_pos arithmetic]
        exact ⟨castIfNeeded_sameKind leftRan, castIfNeeded_sameKind rightRan, scaled⟩
      · rw [OperandsTyped, if_pos arithmetic, (sameKind_iff.mp (castIfNeeded_sameKind leftRan)).1]
        exact ⟨common, castBoth_sameKind leftRan rightRan⟩
  · rename_i other
    have typed (first second : DataType) (nullable : Bool) :
        OperatorTyped op first second (booleanType nullable) := by
      rw [OperatorTyped, if_neg other]
      rfl
    have comparable {first second : DataType} (notLogical : ¬ isLogical op = true)
        (same : sameKind first second = true) : OperandsTyped op first second := by
      rwa [OperandsTyped, if_neg other, if_neg notLogical]
    split at ran
    · rename_i logical
      split at ran
      · cases ran
      · rename_i boolean
        rw [← Except.ok.inj ran]
        refine derivable.binary _ _ (typed ..) ?_ leftHeld rightHeld
        rw [OperandsTyped, if_neg other, if_pos logical]
        simpa only [not_or, not_not] using boolean
    · rename_i notLogical
      split at ran
      · rename_i same
        rw [← Except.ok.inj ran]
        exact derivable.binary _ _ (typed ..) (comparable notLogical same) leftHeld rightHeld
      · split at ran
        · rename_i numeric
          simp only [Bool.and_eq_true] at numeric
          simp only [bind_eq_ok, pure_eq_ok] at ran
          obtain ⟨common, promoted, left', leftRan, right', rightRan, rfl⟩ := ran
          have isCommon := (promoteNumeric_typed promoted).1
          exact derivable.binary _ _ (typed ..) (comparable notLogical (castBoth_sameKind leftRan rightRan))
            (holds_castIfNeeded derivable leftRan (.inl ⟨numeric.1, isCommon⟩) leftHeld)
            (holds_castIfNeeded derivable rightRan (.inl ⟨numeric.2, isCommon⟩) rightHeld)
        · cases ran

theorem holds_combineUnary (derivable : Derivable holds branchesHold) {op : UnaryOperator}
    {operand result : Expression} (ran : combineUnary op operand = .ok result) (held : holds operand) :
    holds result := by
  unfold combineUnary at ran
  cases op with
  | not =>
    simp only at ran
    split at ran
    · cases ran
    · rename_i boolean
      rw [← Except.ok.inj ran]
      exact derivable.unary _ _ (not_not.mp boolean) (not_not.mp boolean) held
  | negate =>
    simp only at ran
    split at ran
    · cases ran
    · rename_i numeric
      simp only [Bool.not_eq_true', Bool.not_eq_false] at numeric
      split at ran
      · cases ran
      · rename_i signed
        rw [← Except.ok.inj ran]
        exact derivable.unary _ _ ⟨numeric, rfl⟩ ⟨numeric, Bool.not_eq_true _ ▸ signed⟩ held
  | isNull =>
    rw [← Except.ok.inj ran]
    exact derivable.unary .isNull _ rfl trivial held
  | isNotNull =>
    rw [← Except.ok.inj ran]
    exact derivable.unary .isNotNull _ rfl trivial held

theorem holds_unifyBound (derivable : Derivable holds branchesHold) {value bound result : Expression}
    {side : String} (ran : unifyBound value bound side = .ok result) (held : holds bound) :
    holds result := by
  unfold unifyBound at ran
  simp only at ran
  split at ran
  · rwa [← Except.ok.inj ran]
  · split at ran
    · rename_i numeric
      simp only [Bool.and_eq_true] at numeric
      obtain ⟨common, promoted, castRan⟩ := bind_eq_ok.mp ran
      exact holds_castIfNeeded derivable castRan (.inl ⟨numeric.2, (promoteNumeric_typed promoted).1⟩) held
    · cases ran

theorem holds_combineBetween (derivable : Derivable holds branchesHold)
    {value lower upper result : Expression} (ran : combineBetween value lower upper = .ok result)
    (valueHeld : holds value) (lowerHeld : holds lower) (upperHeld : holds upper) : holds result := by
  unfold combineBetween at ran
  obtain ⟨lower', lowerRan, ran⟩ := bind_eq_ok.mp ran
  obtain ⟨upper', upperRan, ran⟩ := bind_eq_ok.mp ran
  have lowerHeld' := holds_unifyBound derivable lowerRan lowerHeld
  have upperHeld' := holds_unifyBound derivable upperRan upperHeld
  split at ran
  · rename_i numeric
    have lowerNumeric := unifyBound_numeric lowerRan numeric
    have upperNumeric := unifyBound_numeric upperRan numeric
    simp only [bind_eq_ok, pure_eq_ok] at ran
    obtain ⟨first, _, common, promoted, value'', valueRan, lower'', lowerRan', upper'', upperRan', rfl⟩ := ran
    have isCommon := (promoteNumeric_typed promoted).1
    exact derivable.between (castBoth_sameKind valueRan lowerRan') (castBoth_sameKind valueRan upperRan')
      (holds_castIfNeeded derivable valueRan (.inl ⟨numeric, isCommon⟩) valueHeld)
      (holds_castIfNeeded derivable lowerRan' (.inl ⟨lowerNumeric, isCommon⟩) lowerHeld')
      (holds_castIfNeeded derivable upperRan' (.inl ⟨upperNumeric, isCommon⟩) upperHeld')
  · rename_i notNumeric
    rw [← pure_eq_ok.mp ran]
    exact derivable.between (unifyBound_sameKind lowerRan notNumeric)
      (unifyBound_sameKind upperRan notNumeric) valueHeld lowerHeld' upperHeld'

theorem holds_combineAggregate (derivable : Derivable holds branchesHold) (calls : CallsInherit holds)
    {function : AggregateFunction} {argument result : Expression}
    (ran : combineAggregate function argument = .ok result) (held : holds argument) : holds result := by
  unfold combineAggregate at ran
  cases function with
  | sum =>
    simp only at ran
    split at ran
    · cases ran
    · rename_i numeric
      simp only [Bool.not_eq_true', Bool.not_eq_false] at numeric
      split at ran
      · rename_i decimal
        rw [← Except.ok.inj ran]
        exact calls.aggregate .sum _
          ⟨sameKind_iff.mpr ⟨decimal, rfl, rfl⟩, fun other => absurd rfl other⟩ held
      · simp only [bind_eq_ok, pure_eq_ok] at ran
        obtain ⟨argument', castRan, rfl⟩ := ran
        have widened := widened_typed argument.resultType.id
        exact calls.aggregate .sum _ ⟨castIfNeeded_sameKind castRan, widened.2⟩
          (holds_castIfNeeded derivable castRan (.inl ⟨numeric, widened.1⟩) held)
  | avg =>
    simp only at ran
    split at ran
    · cases ran
    · split at ran
      · cases ran
      · rw [← Except.ok.inj ran]
        exact calls.aggregate .avg _ ⟨rfl, fun _ => rfl⟩ held
  | count =>
    rw [← Except.ok.inj ran]
    exact calls.aggregate .count _ rfl held
  | countDistinct =>
    rw [← Except.ok.inj ran]
    exact calls.aggregate .countDistinct _ rfl held
  | min =>
    rw [← Except.ok.inj ran]
    exact calls.aggregate .min _ (sameKind_iff.mpr ⟨rfl, rfl, rfl⟩) held
  | max =>
    rw [← Except.ok.inj ran]
    exact calls.aggregate .max _ (sameKind_iff.mpr ⟨rfl, rfl, rfl⟩) held

theorem holds_combineExtract (derivable : Derivable holds branchesHold) {part : DatePart}
    {operand result : Expression} (ran : combineExtract part operand = .ok result) (held : holds operand) :
    holds result := by
  unfold combineExtract at ran
  simp only at ran
  split at ran
  · cases ran
  · rename_i temporal
    rw [← Except.ok.inj ran]
    exact derivable.extract _ _ rfl (by rwa [not_and_or, not_not, not_not] at temporal) held

theorem holds_combineSubstring (derivable : Derivable holds branchesHold) {operand result : Expression}
    {start length : Int} (ran : combineSubstring operand start length = .ok result) (held : holds operand) :
    holds result := by
  unfold combineSubstring at ran
  simp only at ran
  split at ran
  · cases ran
  · rename_i isString
    split at ran
    · cases ran
    · split at ran
      · cases ran
      · rw [← Except.ok.inj ran]
        exact derivable.substring _ _ _ rfl (not_not.mp isString) held

theorem holds_castBranches (derivable : Derivable holds branchesHold) {common : DataType}
    {branches : List (Expression × Expression)} {otherwise : Option Expression} {result : CaseBranches}
    (ran : castBranches common branches otherwise = .ok result) (parts : PartsHold holds branches otherwise)
    (booleans : ∀ branch ∈ branches, branch.1.resultType.id = .boolean)
    (convertible : ∀ type ∈ branches.map (fun branch => branch.2.resultType) ++
      otherwise.toList.map Expression.resultType, Convertible type common) : branchesHold result := by
  induction branches generalizing result with
  | nil =>
    cases otherwise with
    | none =>
      rw [← pure_eq_ok.mp ran]
      exact derivable.done
    | some expression =>
      simp only [castBranches, bind_eq_ok, pure_eq_ok] at ran
      obtain ⟨cast, castRan, rfl⟩ := ran
      exact derivable.otherwise (holds_castIfNeeded derivable castRan
        (convertible _ (List.mem_singleton.mpr rfl)) (parts.2 expression rfl))
  | cons branch branches hypothesis =>
    simp only [castBranches, bind_eq_ok, pure_eq_ok] at ran
    obtain ⟨cast, castRan, rest, restRan, rfl⟩ := ran
    obtain ⟨first, others⟩ := List.forall_mem_cons.mp parts.1
    obtain ⟨firstConverts, othersConvert⟩ := List.forall_mem_cons.mp convertible
    obtain ⟨boolean, booleans⟩ := List.forall_mem_cons.mp booleans
    exact derivable.when boolean first.1 (holds_castIfNeeded derivable castRan firstConverts first.2)
      (hypothesis restRan ⟨others, parts.2⟩ booleans othersConvert)

theorem holds_combineCase (derivable : Derivable holds branchesHold) {first : Expression × Expression}
    {others : List (Expression × Expression)} {otherwise : Option Expression} {result : Expression}
    (ran : combineCase first others otherwise = .ok result)
    (booleans : ∀ branch ∈ first :: others, branch.1.resultType.id = .boolean)
    (parts : PartsHold holds (first :: others) otherwise) : holds result := by
  unfold combineCase at ran
  simp only [bind_eq_ok, pure_eq_ok] at ran
  obtain ⟨common, unified, branches, branchesRan, rfl⟩ := ran
  exact derivable.caseWhen _ (castBranches_sameKind branchesRan)
    (holds_castBranches derivable branchesRan parts booleans fun type member =>
      foldlM_unifyBranch_convertible unified type member)

/-- What operators inherit from their operands, binding keeps. -/
theorem Derivable.closed (derivable : Derivable holds branchesHold) : ClosedUnderBinding holds where
  literal := holds_bindLiteral derivable
  null _ := derivable.literal _ _ trivial
  binary := holds_combineBinary derivable
  unary := holds_combineUnary derivable
  notIn boolean := derivable.unary .not _ rfl boolean
  between := holds_combineBetween derivable
  like pattern negated := derivable.like pattern negated
  extract := holds_combineExtract derivable
  substring := holds_combineSubstring derivable
  cast _ := derivable.cast _
  caseWhen := holds_combineCase derivable

theorem CallsInherit.closed (derivable : Derivable holds branchesHold) (calls : CallsInherit holds) :
    CallsClosed holds where
  aggregate := holds_combineAggregate derivable calls
  countStar := calls.countStar _ rfl

end Operators

/-! ## Bound expressions -/

section Inherited

variable {Statement : Type} {resolve : Reference → Except String Expression} {holds : Expression → Prop}
  {branchesHold : CaseBranches → Prop}

/-- Every step keeps a property that binding keeps, the steps of calls only where calls keep it. -/
theorem ClosedUnderBinding.keeps {step : Step} {allowAggregates : Bool} (closed : ClosedUnderBinding holds)
    (calls : allowAggregates = true → CallsClosed holds) (taken : step.Taken allowAggregates) :
    step.Keeps holds := by
  intro result ran checked operands
  cases step with
  | literal value =>
    rw [← Except.ok.inj ran]
    exact closed.literal value
  | null typed =>
    rw [← Except.ok.inj ran]
    exact closed.null (List.forall_mem_singleton.mp operands)
  | binary op left right =>
    obtain ⟨leftHeld, rightHeld⟩ := List.forall_mem_cons.mp operands
    exact closed.binary ran leftHeld (List.forall_mem_singleton.mp rightHeld)
  | unary op operand => exact closed.unary ran (List.forall_mem_singleton.mp operands)
  | notIn items =>
    rw [← Except.ok.inj ran]
    exact closed.notIn checked (List.forall_mem_singleton.mp operands)
  | between value lower upper =>
    obtain ⟨valueHeld, bounds⟩ := List.forall_mem_cons.mp operands
    obtain ⟨lowerHeld, upperHeld⟩ := List.forall_mem_cons.mp bounds
    exact closed.between ran valueHeld lowerHeld (List.forall_mem_singleton.mp upperHeld)
  | like value pattern negated =>
    rw [Step.run] at ran
    obtain ⟨isString, text, _, rfl⟩ := combineLike_eq_ok ran
    exact closed.like text negated isString (List.forall_mem_singleton.mp operands)
  | extract part operand => exact closed.extract ran (List.forall_mem_singleton.mp operands)
  | substring operand start length => exact closed.substring ran (List.forall_mem_singleton.mp operands)
  | cast operand target =>
    obtain ⟨_, _, _, resolved⟩ := checked
    rw [← Except.ok.inj ran]
    exact closed.cast resolved (List.forall_mem_singleton.mp operands)
  | caseWhen first others otherwise =>
    obtain ⟨conditionsHeld, resultsHeld⟩ := List.forall_mem_append.mp operands
    obtain ⟨branchesHeld, otherwiseHeld⟩ := List.forall_mem_append.mp resultsHeld
    refine closed.caseWhen ran checked ⟨?_, ?_⟩
    · intro branch member
      exact ⟨conditionsHeld _ (List.mem_map_of_mem member), branchesHeld _ (List.mem_map_of_mem member)⟩
    · intro result isOtherwise
      exact otherwiseHeld result (Option.mem_toList.mpr isOtherwise)
  | aggregate function argument =>
    exact (calls (taken.allowed rfl)).aggregate ran (List.forall_mem_singleton.mp operands)
  | countStar =>
    rw [← Except.ok.inj ran]
    exact (calls (taken.allowed rfl)).countStar

/-- A bound expression has every property that binding keeps and that its columns have. -/
theorem bindWith_closed (closed : ClosedUnderBinding holds) (allowAggregates : Bool)
    (calls : allowAggregates = true → CallsClosed holds) (expression : AstExpr Statement)
    (resolved : ResolvedHold resolve holds (references expression)) (result : Expression)
    (ran : bindWith resolve allowAggregates expression = .ok result) : holds result := by
  have account : Accounted resolve holds _ _ _ _ := bindWith_accounted allowAggregates expression result ran
  apply account.held
  · intro step member
    exact closed.keeps calls (account.taken step member)
  · exact resolved

/-- A bound expression has every property that operators inherit and that its columns have. -/
theorem bindWith_holds (inheritable : Inheritable holds branchesHold) (allowAggregates : Bool)
    (calls : allowAggregates = true → CallsInherit holds) (expression : AstExpr Statement)
    (resolved : ResolvedHold resolve holds (references expression)) (result : Expression)
    (ran : bindWith resolve allowAggregates expression = .ok result) : holds result :=
  bindWith_closed inheritable.derivable.closed allowAggregates
    (fun allowed => (calls allowed).closed inheritable.derivable) expression resolved result ran

/-- The same for a property that operators inherit whatever their operands. -/
theorem bindWith_inherits (hereditary : Hereditary holds branchesHold) (allowAggregates : Bool)
    (calls : allowAggregates = true → CallsInherit holds) (expression : AstExpr Statement)
    (resolved : ResolvedHold resolve holds (references expression)) (result : Expression)
    (ran : bindWith resolve allowAggregates expression = .ok result) : holds result :=
  bindWith_holds hereditary.inheritable allowAggregates calls expression resolved result ran

/-! ## Types -/

theorem hereditary_typed : Hereditary Typed BranchesTyped where
  literal _ _ typed := typed
  retyped := by
    intro value type target typed numeric decimal
    cases value with
    | bool value =>
      have boolean : type.id = .boolean := typed
      rw [boolean] at numeric
      cases numeric
    | string value =>
      have string : type.id = .string := typed
      rw [string] at numeric
      cases numeric
    | _ => trivial
  binary _ _ typed left right := ⟨typed, left, right⟩
  unary _ _ typed operand := ⟨typed, operand⟩
  cast _ operand := operand
  extract _ _ typed operand := ⟨typed, operand⟩
  substring _ _ _ typed operand := ⟨typed, operand⟩
  between value lower upper := ⟨value, lower, upper⟩
  like _ _ value := value
  caseWhen _ typed branches := ⟨typed, branches⟩
  done := trivial
  otherwise result := result
  when condition result rest := ⟨condition, result, rest⟩

theorem callsInherit_typed : CallsInherit Typed where
  aggregate _ _ typed argument := ⟨typed, argument⟩
  countStar _ typed := typed

/-! ## Every column comes from a reference -/

/-- Columns that references among the given ones resolve to. -/
def Sourced (resolve : Reference → Except String Expression) (written : List Reference)
    (uses : List ColumnUse) : Prop :=
  ∀ use ∈ uses, ∃ reference ∈ written, ∃ column, resolve reference = .ok column ∧ use ∈ columnUses column

theorem hereditary_uses (allowed : ColumnUse → Prop) :
    Hereditary (fun expression => ∀ use ∈ columnUses expression, allowed use)
      (fun branches => ∀ use ∈ branchUses branches, allowed use) where
  literal _ _ _ _ member := by cases member
  retyped _ _ _ _ _ member := by cases member
  binary _ _ _ := fun left right => List.forall_mem_append.mpr ⟨left, right⟩
  unary _ _ _ := id
  cast _ := id
  extract _ _ _ := id
  substring _ _ _ _ := id
  between := fun value lower upper =>
    List.forall_mem_append.mpr ⟨List.forall_mem_append.mpr ⟨value, lower⟩, upper⟩
  like _ _ := id
  caseWhen _ _ := id
  done _ member := by cases member
  otherwise := id
  when := fun condition result rest =>
    List.forall_mem_append.mpr ⟨List.forall_mem_append.mpr ⟨condition, result⟩, rest⟩

theorem callsInherit_uses (allowed : ColumnUse → Prop) :
    CallsInherit (fun expression => ∀ use ∈ columnUses expression, allowed use) where
  aggregate _ _ _ := id
  countStar _ _ _ member := by cases member

theorem bindWith_sourced (allowAggregates : Bool) (expression : AstExpr Statement) (result : Expression)
    (ran : bindWith resolve allowAggregates expression = .ok result) :
    Sourced resolve (references expression) (columnUses result) :=
  bindWith_inherits (hereditary_uses _) allowAggregates (fun _ => callsInherit_uses _) expression
    (fun reference member column resolved _ inColumn => ⟨reference, member, column, resolved, inColumn⟩)
    result ran

end Inherited

/-! ## Resolvers that agree -/

section Agreement

variable {Statement : Type} {resolve other : Reference → Except String Expression}

/-- What one resolver finds for the given references, another finds too. -/
def Agrees (resolve other : Reference → Except String Expression) (written : List Reference) : Prop :=
  ∀ reference ∈ written, ∀ column, resolve reference = .ok column → other reference = .ok column

theorem Agrees.left {written more : List Reference} (agrees : Agrees resolve other (written ++ more)) :
    Agrees resolve other written :=
  fun reference member => agrees reference (List.mem_append_left _ member)

theorem Agrees.right {written more : List Reference} (agrees : Agrees resolve other (written ++ more)) :
    Agrees resolve other more :=
  fun reference member => agrees reference (List.mem_append_right _ member)

mutual

/-- An expression binds to the same expression under every resolver that agrees on its references. -/
theorem bindWith_agrees (allowAggregates : Bool) :
    (expression : AstExpr Statement) → Agrees resolve other (references expression) →
      (result : Expression) → bindWith resolve allowAggregates expression = .ok result →
      bindWith other allowAggregates expression = .ok result
  | .columnRef name table, agrees, result, ran => by
    simp only [bindWith] at ran ⊢
    exact agrees ⟨name, table⟩ (List.mem_singleton.mpr rfl) result ran
  | .star, agrees, result, ran => by
    rw [bindWith] at ran
    cases ran
  | .literal value, agrees, result, ran => by simpa only [bindWith] using ran
  | .binary op left right, agrees, result, ran => by
    simp only [bindWith] at ran ⊢
    rw [references] at agrees
    split at ran
    · rename_i leftNull
      obtain ⟨right', rightRan, combined⟩ := bind_eq_ok.mp ran
      rw [if_pos leftNull]
      exact bind_eq_ok.mpr
        ⟨right', bindWith_agrees allowAggregates right agrees.right right' rightRan, combined⟩
    · rename_i leftTyped
      rw [if_neg leftTyped]
      split at ran
      · rename_i rightNull
        obtain ⟨left', leftRan, combined⟩ := bind_eq_ok.mp ran
        rw [if_pos rightNull]
        exact bind_eq_ok.mpr ⟨left', bindWith_agrees allowAggregates left agrees.left left' leftRan, combined⟩
      · rename_i rightTyped
        simp only [bind_eq_ok] at ran
        obtain ⟨left', leftRan, right', rightRan, combined⟩ := ran
        rw [if_neg rightTyped]
        simp only [bind_eq_ok]
        exact ⟨left', bindWith_agrees allowAggregates left agrees.left left' leftRan, right',
          bindWith_agrees allowAggregates right agrees.right right' rightRan, combined⟩
  | .unary op operand, agrees, result, ran => by
    simp only [bindWith, bind_eq_ok] at ran ⊢
    obtain ⟨operand', operandRan, combined⟩ := ran
    exact ⟨operand', bindWith_agrees allowAggregates operand agrees operand' operandRan, combined⟩
  | .between value lower upper, agrees, result, ran => by
    simp only [bindWith, bind_eq_ok] at ran ⊢
    rw [references] at agrees
    obtain ⟨value', valueRan, lower', lowerRan, upper', upperRan, combined⟩ := ran
    exact ⟨value', bindWith_agrees allowAggregates value agrees.left.left value' valueRan, lower',
      bindWith_agrees allowAggregates lower agrees.left.right lower' lowerRan, upper',
      bindWith_agrees allowAggregates upper agrees.right upper' upperRan, combined⟩
  | .aggregate function argument, agrees, result, ran => by
    simp only [bindWith] at ran ⊢
    split at ran
    · cases ran
    · rename_i allowed
      rw [if_neg allowed]
      split at ran
      · cases ran
      · rename_i plain
        obtain ⟨argument', argumentRan, combined⟩ := bind_eq_ok.mp ran
        rw [if_neg plain]
        exact bind_eq_ok.mpr ⟨argument', bindWith_agrees false argument agrees argument' argumentRan, combined⟩
  | .countStar, agrees, result, ran => by simpa only [bindWith] using ran
  | .like value pattern negated, agrees, result, ran => by
    simp only [bindWith, bind_eq_ok] at ran ⊢
    obtain ⟨value', valueRan, combined⟩ := ran
    exact ⟨value', bindWith_agrees allowAggregates value agrees value' valueRan, combined⟩
  | .inList value list negated, agrees, result, ran => by
    simp only [bindWith] at ran ⊢
    rw [references] at agrees
    split at ran
    · cases ran
    · rename_i nonempty
      rw [if_neg nonempty]
      simp only [bind_eq_ok] at ran ⊢
      obtain ⟨value', valueRan, comparison, listRan, built⟩ := ran
      exact ⟨value', bindWith_agrees allowAggregates value agrees.left value' valueRan, comparison,
        bindItems_agrees allowAggregates list agrees.right value' none comparison listRan, built⟩
  | .inSubquery .., agrees, result, ran => by
    rw [bindWith] at ran
    cases ran
  | .caseWhen condition result' rest, agrees, result, ran => by
    simp only [bindWith, bind_eq_ok] at ran ⊢
    rw [references] at agrees
    obtain ⟨condition', conditionRan, checked, checkRan, bound, resultRan, branches, restRan, combined⟩ := ran
    exact ⟨condition', bindWith_agrees allowAggregates condition agrees.left.left condition' conditionRan,
      checked, checkRan, bound, bindWith_agrees allowAggregates result' agrees.left.right bound resultRan,
      branches, bindBranches_agrees allowAggregates rest agrees.right branches restRan, combined⟩
  | .cast operand typeName precision scale, agrees, result, ran => by
    simp only [bindWith, bind_eq_ok] at ran ⊢
    obtain ⟨operand', operandRan, combined⟩ := ran
    exact ⟨operand', bindWith_agrees allowAggregates operand agrees operand' operandRan, combined⟩
  | .extract part operand, agrees, result, ran => by
    simp only [bindWith, bind_eq_ok] at ran ⊢
    obtain ⟨operand', operandRan, combined⟩ := ran
    exact ⟨operand', bindWith_agrees allowAggregates operand agrees operand' operandRan, combined⟩
  | .substring operand start length, agrees, result, ran => by
    simp only [bindWith, bind_eq_ok] at ran ⊢
    obtain ⟨operand', operandRan, combined⟩ := ran
    exact ⟨operand', bindWith_agrees allowAggregates operand agrees operand' operandRan, combined⟩
  | .subquery _, agrees, result, ran => by
    rw [bindWith] at ran
    cases ran
  | .exists .., agrees, result, ran => by
    rw [bindWith] at ran
    cases ran

theorem bindItems_agrees (allowAggregates : Bool) :
    (list : AstExprList Statement) → Agrees resolve other (listReferences list) →
      (value : Expression) → (sofar result : Option Expression) →
      bindItems resolve allowAggregates value sofar list = .ok result →
      bindItems other allowAggregates value sofar list = .ok result
  | .nil, agrees, value, sofar, result, ran => by simpa only [bindItems] using ran
  | .cons item rest, agrees, value, sofar, result, ran => by
    simp only [bindItems, bind_eq_ok] at ran ⊢
    rw [listReferences] at agrees
    obtain ⟨item', itemRan, comparison, combined, next, nextRan, restRan⟩ := ran
    refine ⟨item', ?_, comparison, combined, next, nextRan,
      bindItems_agrees allowAggregates rest agrees.right value (some next) result restRan⟩
    split at itemRan
    · rename_i untyped
      rwa [if_pos untyped]
    · rename_i typed
      rw [if_neg typed]
      exact bindWith_agrees allowAggregates item agrees.left item' itemRan

theorem bindBranches_agrees (allowAggregates : Bool) :
    (branches : AstBranches Statement) → Agrees resolve other (branchReferences branches) →
      (result : List (Expression × Expression) × Option Expression) →
      bindBranches resolve allowAggregates branches = .ok result →
      bindBranches other allowAggregates branches = .ok result
  | .done, agrees, result, ran => by simpa only [bindBranches] using ran
  | .otherwise expression, agrees, result, ran => by
    simp only [bindBranches, bind_eq_ok] at ran ⊢
    obtain ⟨bound, boundRan, same⟩ := ran
    exact ⟨bound, bindWith_agrees allowAggregates expression agrees bound boundRan, same⟩
  | .when condition expression rest, agrees, result, ran => by
    simp only [bindBranches, bind_eq_ok] at ran ⊢
    rw [branchReferences] at agrees
    obtain ⟨condition', conditionRan, checked, checkRan, bound, resultRan, branches, restRan, same⟩ := ran
    exact ⟨condition', bindWith_agrees allowAggregates condition agrees.left.left condition' conditionRan,
      checked, checkRan, bound, bindWith_agrees allowAggregates expression agrees.left.right bound resultRan,
      branches, bindBranches_agrees allowAggregates rest agrees.right branches restRan, same⟩

end

end Agreement

end KernelLake.BindingProofs
