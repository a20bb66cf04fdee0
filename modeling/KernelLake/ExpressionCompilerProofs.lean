import KernelLake.JoinBinding
import KernelLake.ExpressionCompilers

/-!
The two compilers agree on their common language.

By induction on the expression: where the Arrow call has a value, the cuDF tree has the same value of
the same type, missing values included. The one exception is a cast whose operand is neither a number
nor a boolean. Both compilers accept it by looking at its target only, but cuDF has no such operator,
so the tree raises where Arrow parses the operand.
-/

namespace KernelLake.ExpressionCompilerProofs

open KernelLake.Types KernelLake.Expressions KernelLake.Evaluation KernelLake.SqlAst KernelLake.Binder
open KernelLake.BoundTypes KernelLake.BindingProofs KernelLake.JoinBinding KernelLake.ExpressionCompilers
open KernelLake.Library.Results

/-! ## The common language -/

/-- The operands of every operator have the types that binding demands. -/
def Matched : Expression → Prop
  | .binary op left right type =>
    OperandsTyped op left.resultType right.resultType ∧
      OperatorTyped op left.resultType right.resultType type ∧ Matched left ∧ Matched right
  | .unary op operand type =>
    OperandTyped op operand.resultType ∧ UnaryTyped op operand.resultType type ∧ Matched operand
  | .cast operand _ => Matched operand
  | .between value lower upper =>
    sameKind value.resultType lower.resultType = true ∧ sameKind value.resultType upper.resultType = true ∧
      Matched value ∧ Matched lower ∧ Matched upper
  | _ => True

/-- An expression over integers, booleans, strings, dates and timestamps. -/
def CommonTypes : Expression → Prop
  | .binary _ left right type => isOrdered type.id = true ∧ CommonTypes left ∧ CommonTypes right
  | .unary _ operand type => isOrdered type.id = true ∧ CommonTypes operand
  | .cast operand type => isOrdered type.id = true ∧ CommonTypes operand
  | .between value lower upper => CommonTypes value ∧ CommonTypes lower ∧ CommonTypes upper
  | expression => isOrdered expression.resultType.id = true

theorem commonTypes_ordered {expression : Expression} (common : CommonTypes expression) :
    isOrdered expression.resultType.id = true := by
  cases expression with
  | binary => exact common.1
  | unary => exact common.1
  | cast => exact common.1
  | between => rfl
  | _ => exact common

/-- No cast has an operand other than an integer or a boolean. -/
def numericCasts : Expression → Bool
  | .binary _ left right _ => numericCasts left && numericCasts right
  | .unary _ operand _ => numericCasts operand
  | .cast operand _ =>
    numericCasts operand && (isInteger operand.resultType.id || operand.resultType.id == .boolean)
  | .between value lower upper => (numericCasts value && numericCasts lower) && numericCasts upper
  | _ => true

/-- A row has a value of its type for every column of an expression. -/
def Fits (row : List Datum) (expression : Expression) : Prop :=
  ∀ use ∈ columnUses expression, ∃ value, row[use.index]? = some ⟨use.type.id, value⟩

theorem inheritable_matched : Inheritable Matched (fun _ => True) where
  literal _ _ _ := trivial
  retyped _ _ _ _ := trivial
  binary _ _ result operands left right := ⟨operands, result, left, right⟩
  unary _ _ result typed operand := ⟨typed, result, operand⟩
  cast _ operand := operand
  extract _ _ _ _ := trivial
  substring _ _ _ _ _ := trivial
  between lower upper value lowerMatched upperMatched := ⟨lower, upper, value, lowerMatched, upperMatched⟩
  like _ _ _ := trivial
  caseWhen _ _ _ := trivial
  done := trivial
  otherwise _ := trivial
  when _ _ _ := trivial

theorem callsInherit_matched : CallsInherit Matched where
  aggregate _ _ _ _ := trivial
  countStar _ _ := trivial

/-- Binding gives operators the operands they demand. -/
theorem bind_matched {Statement : Type} {scope : Scope} {allowAggregates : Bool} {written : AstExpr Statement}
    {expression : Expression} (bound : bind scope allowAggregates written = .ok expression) :
    Matched expression := by
  refine bindWith_holds inheritable_matched allowAggregates (fun _ => callsInherit_matched) written
    (fun reference _ column resolved => ?_) expression bound
  obtain ⟨name, index, type, rfl⟩ := bindColumnRef_column resolved
  trivial

/-! ## Operators -/

theorem isInteger_of_numeric {id : TypeId} (numeric : isNumeric id = true) (ordered : isOrdered id = true) :
    isInteger id = true := by
  cases id <;> simp_all [isNumeric, isOrdered, isInteger]

theorem toNumber_isSome {id : TypeId} (integer : isInteger id = true) (value : Carrier id) :
    ∃ number, toNumber id value = some number := by
  cases id <;> first | exact ⟨_, rfl⟩ | simp [isInteger] at integer

/-- What an operator demands of the type of its operands, and the type of its result. -/
structure Operates (op : BinaryOperator) (id type : TypeId) : Prop where
  ordered : isOrdered id = true
  arithmetic : isArithmetic op = true → isInteger id = true ∧ type = id
  logical : isLogical op = true → id = .boolean
  other : isArithmetic op = false → type = .boolean

/-- Where division by zero is an error, an operator's value is the same whatever else is left open, and
it has the type of the operation. -/
theorem operate_documented {op : BinaryOperator} {id type : TypeId} (operates : Operates op id type)
    {beyond : Undocumented} (raises : ∀ id dividend datum, beyond.divideByZero id dividend ≠ .ok datum)
    {left right : Option (Carrier id)} {datum : Datum} (ran : operate beyond op id left right = .ok datum)
    (other : Undocumented) : operate other op id left right = .ok datum ∧ datum.id = type := by
  by_cases logical : isLogical op = true
  · obtain rfl := operates.logical logical
    have notArithmetic : isArithmetic op = false := by cases op <;> first | rfl | cases logical
    simp only [operate, logical, if_true, Datum.ofType_same, Except.ok.injEq] at ran ⊢
    exact ⟨ran, ran ▸ (operates.other notArithmetic).symm⟩
  · by_cases arithmetic : isArithmetic op = true
    · obtain ⟨integer, rfl⟩ := operates.arithmetic arithmetic
      simp only [operate, logical, arithmetic, integer, if_true] at ran ⊢
      cases left with
      | none => exact ⟨ran, (Except.ok.inj ran) ▸ rfl⟩
      | some dividend =>
        cases right with
        | none => exact ⟨ran, (Except.ok.inj ran) ▸ rfl⟩
        | some divisor =>
          obtain ⟨a, isA⟩ := toNumber_isSome integer dividend
          obtain ⟨b, isB⟩ := toNumber_isSome integer divisor
          simp only [isA, isB] at ran ⊢
          cases computed : integerArithmetic op a b with
          | none => exact absurd (computed ▸ ran) (raises _ _ _)
          | some result =>
            rw [computed] at ran
            exact ⟨ran, (Except.ok.inj ran) ▸ rfl⟩
    · simp only [operate, logical, arithmetic, operates.ordered, if_true] at ran ⊢
      have isBoolean := operates.other (Bool.eq_false_iff.mpr arithmetic)
      refine ⟨ran, ?_⟩
      cases left with
      | none => exact (Except.ok.inj ran) ▸ isBoolean.symm
      | some left =>
        cases right with
        | none => exact (Except.ok.inj ran) ▸ isBoolean.symm
        | some right => exact (Except.ok.inj ran) ▸ isBoolean.symm

/-! ## Agreement of parts -/

/-- A cuDF tree has the value of an Arrow expression, of the expected type, or raises where the
expression has a cast that cuDF lacks. -/
def Agree (plain : Bool) (type : TypeId) (gpu : Except String Datum) (cpu : Datum) : Prop :=
  if plain then ∃ value : Option (Carrier type), cpu = ⟨type, value⟩ ∧ gpu = .ok ⟨type, value⟩
  else ∃ message, gpu = .error message

theorem datum_eq_mk {datum : Datum} {id : TypeId} (same : datum.id = id) :
    ∃ value : Option (Carrier id), datum = ⟨id, value⟩ := by
  cases datum with
  | mk id' value =>
    cases same
    exact ⟨value, rfl⟩

@[simp] theorem meaning_toAstOperator (op : BinaryOperator) : (Gpu.toAstOperator op).meaning = some op := by
  cases op <;> rfl

@[simp] theorem meaning_binaryFunctionName (op : BinaryOperator) :
    (Cpu.binaryFunctionName op).meaning = some op := by
  cases op <;> rfl

section Parts

variable {cudf : Gpu.Cudf} {arrow : Cpu.ArrowCompute} {plain plain' : Bool} {id type : TypeId}
  {gpu gpu' : Except String Datum} {cpu cpu' datum : Datum}

theorem agree_binary {op : BinaryOperator} (operates : Operates op id type) (left : Agree plain id gpu cpu)
    (right : Agree plain' id gpu' cpu')
    (ran : Cpu.callBinary arrow (Cpu.binaryFunctionName op) .none cpu cpu' = .ok datum) :
    Agree (plain && plain') type
      (do let l ← gpu; let r ← gpu'; Gpu.evaluateBinary cudf (Gpu.toAstOperator op) l r) datum := by
  cases plain with
  | false =>
    obtain ⟨message, rfl⟩ := left
    exact ⟨message, rfl⟩
  | true =>
    obtain ⟨leftValue, rfl, rfl⟩ := left
    cases plain' with
    | false =>
      obtain ⟨message, rfl⟩ := right
      exact ⟨message, rfl⟩
    | true =>
      obtain ⟨rightValue, rfl, rfl⟩ := right
      simp only [Cpu.callBinary, meaning_binaryFunctionName, Datum.ofType_same] at ran
      obtain ⟨same, typed⟩ := operate_documented operates (fun _ _ _ raised => by cases raised) ran
        ⟨fun id dividend => .ok ⟨id, some (cudf.quotientByZero id dividend)⟩,
          fun _ => cudf.binary (Gpu.toAstOperator op)⟩
      obtain ⟨value, rfl⟩ := datum_eq_mk typed
      refine ⟨value, rfl, ?_⟩
      simp only [Gpu.evaluateBinary, meaning_toAstOperator, Datum.ofType_same, Bind.bind, Except.bind]
      exact same

theorem agree_not (operand : Agree plain .boolean gpu cpu)
    (ran : Cpu.call arrow .invert .none [cpu] = .ok datum) :
    Agree plain .boolean (do let o ← gpu; Gpu.evaluateUnary cudf .not o) datum := by
  cases plain with
  | false =>
    obtain ⟨message, rfl⟩ := operand
    exact ⟨message, rfl⟩
  | true =>
    obtain ⟨value, rfl, rfl⟩ := operand
    simp only [Cpu.call, Datum.ofType_same, Except.ok.injEq] at ran
    refine ⟨value.map not, ran.symm, ?_⟩
    simp only [Gpu.evaluateUnary, Datum.ofType_same, Bind.bind, Except.bind]

theorem agree_isNull (operand : Agree plain id gpu cpu)
    (ran : Cpu.call arrow .isNull .none [cpu] = .ok datum) :
    Agree plain .boolean (do let o ← gpu; Gpu.evaluateUnary cudf .isNull o) datum := by
  cases plain with
  | false =>
    obtain ⟨message, rfl⟩ := operand
    exact ⟨message, rfl⟩
  | true =>
    obtain ⟨value, rfl, rfl⟩ := operand
    exact ⟨some value.isNone, (Except.ok.inj ran).symm, rfl⟩

theorem agree_isNotNull (operand : Agree plain id gpu cpu)
    (ran : Cpu.call arrow .isValid .none [cpu] = .ok datum) :
    Agree plain .boolean
      (do let o ← gpu; let n ← Gpu.evaluateUnary cudf .isNull o; Gpu.evaluateUnary cudf .not n) datum := by
  cases plain with
  | false =>
    obtain ⟨message, rfl⟩ := operand
    exact ⟨message, rfl⟩
  | true =>
    obtain ⟨value, rfl, rfl⟩ := operand
    refine ⟨some value.isSome, (Except.ok.inj ran).symm, ?_⟩
    cases value <;> rfl

/-- The zero that negation subtracts from. -/
theorem narrow_zero (integer : isInteger id = true) :
    ∃ zero, narrow id (.int64 0) = some zero ∧ toNumber id zero = some 0 := by
  cases id <;> first | exact ⟨_, rfl, rfl⟩ | simp [isInteger] at integer

/-- Subtraction from zero is negation, at every width. -/
theorem agree_negate (integer : isInteger id = true) (operand : Agree plain id gpu cpu)
    (ran : Cpu.call arrow .negate .none [cpu] = .ok datum) :
    Agree plain id
      (do let o ← gpu; Gpu.evaluateBinary cudf .sub ⟨id, narrow id (.int64 0)⟩ o) datum := by
  cases plain with
  | false =>
    obtain ⟨message, rfl⟩ := operand
    exact ⟨message, rfl⟩
  | true =>
    obtain ⟨value, rfl, rfl⟩ := operand
    obtain ⟨zero, isZero, zeroNumber⟩ := @narrow_zero id integer
    simp only [Cpu.call, integer, if_true, Except.ok.injEq] at ran
    refine ⟨_, ran.symm, ?_⟩
    have plainSubtraction : isLogical .subtract = false := rfl
    have isSubtraction : isArithmetic .subtract = true := rfl
    simp only [Bind.bind, Except.bind, Gpu.evaluateBinary, Gpu.AstOperator.meaning, Datum.ofType_same, operate,
      plainSubtraction, isSubtraction, integer, isZero, Bool.false_eq_true, if_true, if_false]
    cases value with
    | none => rfl
    | some value =>
      obtain ⟨number, isNumber⟩ := toNumber_isSome integer value
      simp only [zeroNumber, isNumber, integerArithmetic, Int.zero_sub, Option.bind_some]

/-- The casts that both compilers accept, within the common language. -/
theorem castOperator_common {target : DataType} {op : Gpu.AstOperator} (ran : Gpu.castOperator target = .ok op)
    (ordered : isOrdered target.id = true) :
    isInteger target.id = true ∧ ∀ operand, Gpu.evaluateUnary cudf op operand =
      Gpu.evaluateCast cudf target.id operand := by
  unfold Gpu.castOperator at ran
  split at ran
  · rename_i isInt64
    rw [isInt64, ← Except.ok.inj ran]
    exact ⟨rfl, fun _ => rfl⟩
  · rename_i isUint64
    rw [isUint64, ← Except.ok.inj ran]
    exact ⟨rfl, fun _ => rfl⟩
  · rename_i isFloat64
    rw [isFloat64] at ordered
    cases ordered
  · cases ran

theorem evaluateCast_number {target : TypeId} (integer : isInteger target = true)
    (numeric : (isInteger id || id == .boolean) = true) (value : Option (Carrier id)) :
    Gpu.evaluateCast cudf target ⟨id, value⟩ =
      .ok ⟨target, (value.bind (toNumber id)).bind (wrap target)⟩ := by
  cases id <;> simp_all [Gpu.evaluateCast, isInteger]

theorem evaluateCast_other {target : TypeId} (ordered : isOrdered id = true)
    (other : (isInteger id || id == .boolean) = false) (value : Option (Carrier id)) :
    Gpu.evaluateCast cudf target ⟨id, value⟩ = .error Gpu.invalidOperation := by
  cases id <;> simp_all [Gpu.evaluateCast, isInteger, isOrdered]

theorem agree_cast {target : DataType} {op : Gpu.AstOperator} (compiled : Gpu.castOperator target = .ok op)
    (ordered : isOrdered target.id = true) (operandOrdered : isOrdered id = true)
    (operand : Agree plain id gpu cpu)
    (ran : Cpu.call arrow .cast (.cast target.id) [cpu] = .ok datum) :
    Agree (plain && (isInteger id || id == .boolean)) target.id
      (do let o ← gpu; Gpu.evaluateUnary cudf op o) datum := by
  obtain ⟨integer, isCast⟩ := @castOperator_common cudf target op compiled ordered
  cases plain with
  | false =>
    obtain ⟨message, rfl⟩ := operand
    exact ⟨message, rfl⟩
  | true =>
    obtain ⟨value, rfl, rfl⟩ := operand
    simp only [Bool.true_and, Bind.bind, Except.bind, isCast]
    by_cases numeric : (isInteger id || id == .boolean) = true
    · simp only [numeric]
      refine ⟨_, ?_, evaluateCast_number integer numeric value⟩
      simp only [Cpu.call, Cpu.callCast, integer, numeric, Bool.and_self, if_true] at ran
      cases isNumber : value.bind (toNumber id) with
      | none =>
        rw [isNumber] at ran
        exact (Except.ok.inj ran).symm
      | some number =>
        rw [isNumber] at ran
        simp only at ran
        split at ran
        · exact (Except.ok.inj ran).symm
        · cases ran
    · rw [Bool.not_eq_true] at numeric
      rw [numeric]
      exact ⟨Gpu.invalidOperation, evaluateCast_other operandOrdered numeric value⟩

end Parts

theorem evaluate_compileColumn (cudf : Gpu.Cudf) (leftFieldCount : Option Nat) (row : List Datum)
    (index : Nat) :
    Gpu.evaluate cudf (Gpu.tablesOf leftFieldCount row) (Gpu.compileColumn leftFieldCount index) =
      (row[index]?).elim (.error "column index out of range") .ok := by
  cases leftFieldCount with
  | none => rfl
  | some count =>
    unfold Gpu.compileColumn
    simp only
    split
    · rename_i isLeft
      simp [Gpu.evaluate, Gpu.tablesOf, isLeft]
    · rename_i isRight
      simp [Gpu.evaluate, Gpu.tablesOf, List.getElem?_drop, Nat.add_sub_of_le (Nat.le_of_not_lt isRight)]

/-- A literal is narrowed alike by both compilers. -/
theorem makeLiteral_agrees {type : DataType} {value : LiteralStorage} {gpu : Gpu.AstExpression} {datum : Datum}
    (ordered : isOrdered type.id = true) (gpuRan : Gpu.makeLiteral type value (value ≠ .monostate) = .ok gpu)
    (cpuRan : Cpu.literalToArrowDatum value type = .ok datum) : gpu = .literal datum ∧ datum.id = type.id := by
  have notDecimal : type.id ≠ .decimal := by
    intro isDecimal
    rw [isDecimal] at ordered
    cases ordered
  unfold Gpu.makeLiteral at gpuRan
  unfold Cpu.literalToArrowDatum at cpuRan
  rw [if_neg notDecimal] at gpuRan cpuRan
  rw [← Except.ok.inj gpuRan]
  by_cases missing : value = .monostate
  · rw [if_pos missing] at cpuRan
    rw [← Except.ok.inj cpuRan]
    simp [missing]
  · rw [if_neg missing] at cpuRan
    rw [← Except.ok.inj cpuRan]
    simp [missing]

/-! ## Agreement of expressions -/

theorem evaluate_unary {arrow : Cpu.ArrowCompute} {row : List Datum} {function : Cpu.ArrowFunction}
    {options : Cpu.FunctionOptions} {operand : Cpu.ArrowExpression} {datum : Datum} :
    Cpu.evaluate arrow row (.call function (.cons operand .nil) options) = .ok datum ↔
      ∃ value, Cpu.evaluate arrow row operand = .ok value ∧
        Cpu.call arrow function options [value] = .ok datum := by
  simp only [Cpu.evaluate, Cpu.evaluateArguments, bind_eq_ok, pure_eq_ok]
  constructor
  · rintro ⟨_, ⟨value, evaluated, _, rfl, rfl⟩, called⟩
    exact ⟨value, evaluated, called⟩
  · rintro ⟨value, evaluated, called⟩
    exact ⟨[value], ⟨value, evaluated, [], rfl, rfl⟩, called⟩

theorem evaluate_binary {arrow : Cpu.ArrowCompute} {row : List Datum} {function : Cpu.ArrowFunction}
    {left right : Cpu.ArrowExpression} {datum : Datum} :
    Cpu.evaluate arrow row (Cpu.binary function left right) = .ok datum ↔
      ∃ first, Cpu.evaluate arrow row left = .ok first ∧ ∃ second, Cpu.evaluate arrow row right = .ok second ∧
        Cpu.callBinary arrow function .none first second = .ok datum := by
  simp only [Cpu.binary, Cpu.evaluate, Cpu.evaluateArguments, bind_eq_ok, pure_eq_ok]
  constructor
  · rintro ⟨_, ⟨first, firstRan, _, ⟨second, secondRan, _, rfl, rfl⟩, rfl⟩, called⟩
    exact ⟨first, firstRan, second, secondRan, called⟩
  · rintro ⟨first, firstRan, second, secondRan, called⟩
    exact ⟨[first, second], ⟨first, firstRan, [second], ⟨second, secondRan, [], rfl, rfl⟩, rfl⟩, called⟩

/-- The types of a bound operator are those it operates on. -/
theorem operates_of_typed {op : BinaryOperator} {left right type : DataType}
    (operands : OperandsTyped op left right) (result : OperatorTyped op left right type)
    (ordered : isOrdered left.id = true) :
    Operates op left.id type.id ∧ right.id = left.id := by
  unfold OperandsTyped at operands
  unfold OperatorTyped at result
  by_cases arithmetic : isArithmetic op = true
  · rw [if_pos arithmetic] at operands result
    have integer := isInteger_of_numeric operands.1 ordered
    have same := (sameKind_iff.mp operands.2).1
    refine ⟨⟨ordered, fun _ => ⟨integer, (sameKind_iff.mp result.1).1.symm⟩, fun logical => ?_,
      fun other => ?_⟩, same.symm⟩
    · cases op <;> first | (cases arithmetic; done) | cases logical
    · rw [arithmetic] at other
      cases other
  · rw [if_neg arithmetic] at operands result
    have notArithmetic := Bool.eq_false_iff.mpr arithmetic
    by_cases logical : isLogical op = true
    · rw [if_pos logical] at operands
      exact ⟨⟨ordered, fun is => absurd is arithmetic, fun _ => operands.1, fun _ => result⟩,
        operands.2.trans operands.1.symm⟩
    · rw [if_neg logical] at operands
      exact ⟨⟨ordered, fun is => absurd is arithmetic, fun is => absurd is logical, fun _ => result⟩,
        (sameKind_iff.mp operands).1.symm⟩

/-- A comparison of two values of one type. -/
theorem operates_comparison {op : BinaryOperator} {id : TypeId} (comparison : isComparison op = true)
    (ordered : isOrdered id = true) : Operates op id .boolean := by
  refine ⟨ordered, fun arithmetic => ?_, fun logical => ?_, fun _ => rfl⟩
  · cases op <;> first | (cases comparison; done) | cases arithmetic
  · cases op <;> first | (cases comparison; done) | cases logical

section Expressions

variable {cudf : Gpu.Cudf} {arrow : Cpu.ArrowCompute} (leftFieldCount : Option Nat) {row : List Datum}

/-- Where an Arrow call has a value, the cuDF tree of the same expression agrees with it. -/
theorem evaluations_agree : (expression : Expression) → Matched expression → CommonTypes expression →
    Fits row expression → ∀ gpu cpu datum, Gpu.compile leftFieldCount expression = .ok gpu →
      Cpu.compileExpressionCpu expression = .ok cpu → Cpu.evaluate arrow row cpu = .ok datum →
      Agree (numericCasts expression) expression.resultType.id
        (Gpu.evaluate cudf (Gpu.tablesOf leftFieldCount row) gpu) datum
  | .column name columnIndex type, _, _, fits, gpu, cpu, datum, gpuRan, cpuRan, evaluated => by
    simp only [Gpu.compile, Except.ok.injEq] at gpuRan
    simp only [Cpu.compileExpressionCpu, Except.ok.injEq] at cpuRan
    obtain ⟨value, isValue⟩ := fits ⟨name, columnIndex, type⟩ (List.mem_singleton.mpr rfl)
    rw [← cpuRan] at evaluated
    simp only [Cpu.evaluate, isValue, Option.elim_some, Except.ok.injEq] at evaluated
    refine ⟨value, evaluated.symm, ?_⟩
    rw [← gpuRan, evaluate_compileColumn, isValue]
    rfl
  | .literal value type, _, common, _, gpu, cpu, datum, gpuRan, cpuRan, evaluated => by
    simp only [Gpu.compile] at gpuRan
    simp only [Cpu.compileExpressionCpu, bind_eq_ok, pure_eq_ok] at cpuRan
    obtain ⟨literal, literalRan, rfl⟩ := cpuRan
    obtain ⟨rfl, typed⟩ := makeLiteral_agrees common gpuRan literalRan
    obtain ⟨value, rfl⟩ := datum_eq_mk typed
    exact ⟨value, (Except.ok.inj evaluated).symm, rfl⟩
  | .binary op left right type, matched, common, fits, gpu, cpu, datum, gpuRan, cpuRan, evaluated => by
    obtain ⟨operands, result, leftMatched, rightMatched⟩ := matched
    obtain ⟨_, leftCommon, rightCommon⟩ := common
    obtain ⟨leftFits, rightFits⟩ := List.forall_mem_append.mp fits
    simp only [Gpu.compile, bind_eq_ok, pure_eq_ok] at gpuRan
    simp only [Cpu.compileExpressionCpu, bind_eq_ok, pure_eq_ok] at cpuRan
    obtain ⟨leftGpu, leftGpuRan, rightGpu, rightGpuRan, rfl⟩ := gpuRan
    obtain ⟨leftCpu, leftCpuRan, rightCpu, rightCpuRan, rfl⟩ := cpuRan
    obtain ⟨first, firstRan, second, secondRan, called⟩ := evaluate_binary.mp evaluated
    have leftAgrees :=
      evaluations_agree left leftMatched leftCommon leftFits _ _ _ leftGpuRan leftCpuRan firstRan
    have rightAgrees :=
      evaluations_agree right rightMatched rightCommon rightFits _ _ _ rightGpuRan rightCpuRan secondRan
    obtain ⟨operates, same⟩ := operates_of_typed operands result (commonTypes_ordered leftCommon)
    exact agree_binary operates leftAgrees (same ▸ rightAgrees) called
  | .unary op operand type, matched, common, fits, gpu, cpu, datum, gpuRan, cpuRan, evaluated => by
    obtain ⟨operandTyped, result, operandMatched⟩ := matched
    simp only [Cpu.compileExpressionCpu, bind_eq_ok] at cpuRan
    obtain ⟨operandCpu, operandCpuRan, cpuRan⟩ := cpuRan
    simp only [Gpu.compile, bind_eq_ok] at gpuRan
    obtain ⟨operandGpu, operandGpuRan, gpuRan⟩ := gpuRan
    have agrees := fun value =>
      evaluations_agree operand operandMatched common.2 fits operandGpu operandCpu value operandGpuRan
        operandCpuRan
    cases op with
    | not =>
      rw [← pure_eq_ok.mp cpuRan] at evaluated
      rw [← pure_eq_ok.mp gpuRan]
      obtain ⟨value, valueRan, called⟩ := evaluate_unary.mp evaluated
      have isBoolean : operand.resultType.id = .boolean := operandTyped
      have resultBoolean : type.id = .boolean := result
      have operandAgrees := agrees value valueRan
      rw [isBoolean] at operandAgrees
      show Agree _ type.id _ _
      rw [resultBoolean]
      exact agree_not operandAgrees called
    | isNull =>
      rw [← pure_eq_ok.mp cpuRan] at evaluated
      rw [← pure_eq_ok.mp gpuRan]
      obtain ⟨value, valueRan, called⟩ := evaluate_unary.mp evaluated
      have resultBoolean : type.id = .boolean := result
      show Agree _ type.id _ _
      rw [resultBoolean]
      exact agree_isNull (agrees value valueRan) called
    | isNotNull =>
      rw [← pure_eq_ok.mp cpuRan] at evaluated
      rw [← pure_eq_ok.mp gpuRan]
      obtain ⟨value, valueRan, called⟩ := evaluate_unary.mp evaluated
      have resultBoolean : type.id = .boolean := result
      show Agree _ type.id _ _
      rw [resultBoolean]
      have negated := @agree_isNotNull cudf arrow _ _ _ _ _ (agrees value valueRan) called
      simp only [Gpu.evaluate, bind_assoc]
      exact negated
    | negate =>
      simp only [bind_eq_ok, pure_eq_ok] at cpuRan gpuRan
      obtain ⟨zero, zeroRan, rfl⟩ := gpuRan
      rw [← cpuRan] at evaluated
      obtain ⟨value, valueRan, called⟩ := evaluate_unary.mp evaluated
      have integer := isInteger_of_numeric operandTyped.1 (commonTypes_ordered common.2)
      have notDecimal : operand.resultType.id ≠ .decimal := by
        intro isDecimal
        rw [isDecimal] at integer
        cases integer
      obtain ⟨_, rfl⟩ := result
      rw [Gpu.makeLiteral, if_neg notDecimal, Except.ok.injEq] at zeroRan
      rw [← zeroRan]
      exact agree_negate integer (agrees value valueRan) called
  | .cast operand type, matched, common, fits, gpu, cpu, datum, gpuRan, cpuRan, evaluated => by
    simp only [Gpu.compile, bind_eq_ok, pure_eq_ok] at gpuRan
    obtain ⟨operandGpu, operandGpuRan, op, opRan, rfl⟩ := gpuRan
    simp only [Cpu.compileExpressionCpu] at cpuRan
    split at cpuRan
    · cases cpuRan
    · simp only [bind_eq_ok, pure_eq_ok] at cpuRan
      obtain ⟨operandCpu, operandCpuRan, rfl⟩ := cpuRan
      obtain ⟨value, valueRan, called⟩ := evaluate_unary.mp evaluated
      have agrees :=
        evaluations_agree operand matched common.2 fits _ _ _ operandGpuRan operandCpuRan valueRan
      exact agree_cast opRan common.1 (commonTypes_ordered common.2) agrees called
  | .between value lower upper, matched, common, fits, gpu, cpu, datum, gpuRan, cpuRan, evaluated => by
    obtain ⟨lowerSame, upperSame, valueMatched, lowerMatched, upperMatched⟩ := matched
    obtain ⟨valueCommon, lowerCommon, upperCommon⟩ := common
    obtain ⟨innerFits, upperFits⟩ := List.forall_mem_append.mp fits
    obtain ⟨valueFits, lowerFits⟩ := List.forall_mem_append.mp innerFits
    simp only [Gpu.compile, bind_eq_ok, pure_eq_ok] at gpuRan
    simp only [Cpu.compileExpressionCpu, bind_eq_ok, pure_eq_ok] at cpuRan
    obtain ⟨valueGpu, valueGpuRan, lowerGpu, lowerGpuRan, upperGpu, upperGpuRan, rfl⟩ := gpuRan
    obtain ⟨valueCpu, valueCpuRan, lowerCpu, lowerCpuRan, upperCpu, upperCpuRan, rfl⟩ := cpuRan
    obtain ⟨above, aboveRan, below, belowRan, called⟩ := evaluate_binary.mp evaluated
    obtain ⟨tested, testedRan, least, leastRan, aboveCalled⟩ := evaluate_binary.mp aboveRan
    obtain ⟨tested', testedRan', most, mostRan, belowCalled⟩ := evaluate_binary.mp belowRan
    obtain rfl := Except.ok.inj (testedRan.symm.trans testedRan')
    have valueAgrees :=
      evaluations_agree value valueMatched valueCommon valueFits _ _ _ valueGpuRan valueCpuRan testedRan
    have lowerAgrees :=
      evaluations_agree lower lowerMatched lowerCommon lowerFits _ _ _ lowerGpuRan lowerCpuRan leastRan
    have upperAgrees :=
      evaluations_agree upper upperMatched upperCommon upperFits _ _ _ upperGpuRan upperCpuRan mostRan
    rw [← (sameKind_iff.mp lowerSame).1] at lowerAgrees
    rw [← (sameKind_iff.mp upperSame).1] at upperAgrees
    have ordered := commonTypes_ordered valueCommon
    have aboveAgrees := @agree_binary cudf arrow _ _ _ _ _ _ _ _ _ .greaterEqual
      (operates_comparison rfl ordered) valueAgrees lowerAgrees aboveCalled
    have belowAgrees := @agree_binary cudf arrow _ _ _ _ _ _ _ _ _ .lessEqual
      (operates_comparison rfl ordered) valueAgrees upperAgrees belowCalled
    have bothAgree := @agree_binary cudf arrow _ _ _ _ _ _ _ _ _ .and
      ⟨rfl, fun arithmetic => (by cases arithmetic), fun _ => rfl, fun _ => rfl⟩ aboveAgrees belowAgrees called
    have sameFlags : ((numericCasts value && numericCasts lower) && (numericCasts value && numericCasts upper)) =
        numericCasts (.between value lower upper) := by
      simp only [numericCasts]
      cases numericCasts value <;> simp
    rw [← sameFlags]
    exact bothAgree
  | .aggregate .., _, _, _, _, _, _, gpuRan, _, _ => by simp [Gpu.compile] at gpuRan
  | .countStar _, _, _, _, _, _, _, gpuRan, _, _ => by simp [Gpu.compile] at gpuRan
  | .extract .., _, _, _, _, _, _, gpuRan, _, _ => by simp [Gpu.compile] at gpuRan
  | .substring .., _, _, _, _, _, _, gpuRan, _, _ => by simp [Gpu.compile] at gpuRan
  | .like .., _, _, _, _, _, _, gpuRan, _, _ => by simp [Gpu.compile] at gpuRan
  | .caseWhen .., _, _, _, _, _, _, gpuRan, _, _ => by simp [Gpu.compile] at gpuRan

/-- Two values of one bound expression: cuDF's is Arrow's, and raises exactly where a cast has an operand
that cuDF cannot cast. -/
theorem compilers_agree {Statement : Type} (cudf : Gpu.Cudf) (arrow : Cpu.ArrowCompute)
    (leftFieldCount : Option Nat) {scope : Scope} {allowAggregates : Bool} {written : AstExpr Statement}
    {expression : Expression} (bound : bind scope allowAggregates written = .ok expression)
    (common : CommonTypes expression) {gpu : Gpu.AstExpression}
    (gpuCompiled : Gpu.compile leftFieldCount expression = .ok gpu) {cpu : Cpu.ArrowExpression}
    (cpuCompiled : Cpu.compileExpressionCpu expression = .ok cpu) {row : List Datum}
    (fits : Fits row expression) {datum : Datum} (evaluated : Cpu.evaluate arrow row cpu = .ok datum) :
    if numericCasts expression then
      Gpu.evaluate cudf (Gpu.tablesOf leftFieldCount row) gpu = .ok datum
    else ∃ message, Gpu.evaluate cudf (Gpu.tablesOf leftFieldCount row) gpu = .error message := by
  have agrees := @evaluations_agree cudf arrow leftFieldCount row expression (bind_matched bound) common fits
    gpu cpu datum gpuCompiled cpuCompiled evaluated
  cases plain : numericCasts expression with
  | true =>
    rw [plain] at agrees
    obtain ⟨value, rfl, same⟩ := agrees
    exact same
  | false =>
    rw [plain] at agrees
    exact agrees

end Expressions

/-- A library that does nothing beyond the documented rules. -/
def plainCudf : Gpu.Cudf :=
  ⟨fun _ dividend => dividend, fun _ _ _ => .error Gpu.invalidOperation, fun _ _ => .error Gpu.invalidOperation⟩

/-- An Arrow that also parses a string of digits. -/
def parsingArrow : Cpu.ArrowCompute where
  other function options arguments :=
    match function, options, arguments with
    | .cast, .cast .int64, [⟨.string, some text⟩] =>
      let digits := (text : String).toList.map (fun digit => digit.toNat - '0'.toNat)
      .ok ⟨.int64, some (Int64.ofNat (digits.foldl (fun number digit => 10 * number + digit) 0))⟩
    | _, _, _ => .error "unsupported"

/-- `-(a + 1) < b OR a IS NOT NULL` -/
def nullableComparison : AstExpr Unit :=
  .binary .or
    (.binary .less (.unary .negate (.binary .add (.columnRef "a" none) (.literal (.integer 1))))
      (.columnRef "b" none))
    (.unary .isNotNull (.columnRef "a" none))

def boundComparison : Expression :=
  let a : Expression := .column "a" 0 int64Type
  let b : Expression := .column "b" 1 int64Type
  .binary .or
    (.binary .less (.unary .negate (.binary .add a (makeInt64 1) int64Type) int64Type) b booleanType)
    (.unary .isNotNull a (booleanType false)) booleanType

/-- With `a = 5` and no value for `b`. -/
def halfMissing : List Datum :=
  [⟨.int64, some (5 : Int64)⟩, ⟨.int64, none⟩]

theorem compilers_agree_nullable :
    ∃ gpu, Gpu.compile none boundComparison = .ok gpu ∧
      Gpu.evaluate plainCudf (Gpu.tablesOf none halfMissing) gpu = .ok ⟨.boolean, some true⟩ := by
  have fits : Fits halfMissing boundComparison := by
    intro use member
    simp only [boundComparison, columnUses, makeInt64, List.mem_append, List.mem_singleton, List.not_mem_nil,
      or_false] at member
    rcases member with (rfl | rfl) | rfl
    · exact ⟨some (5 : Int64), rfl⟩
    · exact ⟨none, rfl⟩
    · exact ⟨some (5 : Int64), rfl⟩
  have bound : bind (.table [⟨"a", int64Type⟩, ⟨"b", int64Type⟩]) false nullableComparison = .ok boundComparison := by
    decide +kernel
  obtain ⟨gpu, compiled⟩ : ∃ gpu, Gpu.compile none boundComparison = .ok gpu := ⟨_, rfl⟩
  obtain ⟨cpu, cpuCompiled, evaluated⟩ : ∃ cpu, Cpu.compileExpressionCpu boundComparison = .ok cpu ∧
      Cpu.evaluate parsingArrow halfMissing cpu = .ok ⟨.boolean, some true⟩ := ⟨_, rfl, rfl⟩
  exact ⟨gpu, compiled, compilers_agree plainCudf parsingArrow none bound
    (by simp [CommonTypes, boundComparison, makeInt64, Expression.resultType, isOrdered, int64Type, booleanType])
    compiled cpuCompiled fits evaluated⟩

/-- Arrow reads the string `5` as a number where cuDF has no such cast. -/
theorem compilers_disagree_castString :
    ∃ expression gpu cpu,
      bind (.table [⟨"s", stringType⟩]) false (.cast (.columnRef "s" none) "BIGINT" 0 0 : AstExpr Unit) =
        .ok expression ∧
      CommonTypes expression ∧ Gpu.compile none expression = .ok gpu ∧
      Cpu.compileExpressionCpu expression = .ok cpu ∧ Fits [⟨.string, some "5"⟩] expression ∧
      Cpu.evaluate parsingArrow [⟨.string, some "5"⟩] cpu = .ok ⟨.int64, some (5 : Int64)⟩ ∧
      Gpu.evaluate plainCudf (Gpu.tablesOf none [⟨.string, some "5"⟩]) gpu = .error Gpu.invalidOperation := by
  refine ⟨.cast (.column "s" 0 stringType) int64Type, .unary .castToInt64 (.columnReference 0 .left), _,
    by decide +kernel, ⟨rfl, rfl⟩, rfl, rfl, ?_, rfl, rfl⟩
  intro use member
  rw [List.mem_singleton.mp member]
  exact ⟨some "5", rfl⟩

end KernelLake.ExpressionCompilerProofs
