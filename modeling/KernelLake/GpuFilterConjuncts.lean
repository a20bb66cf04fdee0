import KernelLake.BoundQueryTypes
import KernelLake.ExpressionCompilerProofs
import KernelLake.GpuFilters
import KernelLake.GroupingCheck

/-!
What a conjunct of a filter means, taken out of its predicate or left in it.

A compiled tree evaluates to the meaning of its expression. A predicate is known, or true, when its
conjuncts are; and a chain that was recognised as an `IN` over one `SUBSTRING` is one: its leaves agree
in their keys only, but a string operand that compiles is a column or a literal, and their keys name
them.
-/

namespace KernelLake.GpuFilterConjuncts

open KernelLake.Types KernelLake.Expressions KernelLake.Evaluation KernelLake.ExpressionText
open KernelLake.BoundTypes KernelLake.BoundQueryTypes KernelLake.GroupingCheck KernelLake.Pruning
open KernelLake.KeyTrees KernelLake.KeyReading
open KernelLake.ExpressionCompilers KernelLake.ExpressionCompilerProofs KernelLake.GpuFilters
open KernelLake.Library.Results KernelLake.Library.Texts

/-! ## Trees -/

section Trees

variable (cudf : Gpu.Cudf) (row : List Datum)

/-- A compiled tree evaluates to the meaning of its expression. -/
theorem evaluate_compiled : (expression : Expression) → (tree : Gpu.AstExpression) →
    Gpu.compile none expression = .ok tree →
    Gpu.evaluate cudf (Gpu.tablesOf none row) tree = meaning cudf row expression
  | .column name index type, tree, compiled => by
    rw [← Except.ok.inj compiled]
    rfl
  | .literal value type, tree, compiled => by
    rw [meaning, meaningOfLiteral, show Gpu.makeLiteral type value (value ≠ .monostate) = .ok tree from compiled]
    rfl
  | .binary op left right type, tree, compiled => by
    simp only [Gpu.compile, bind_eq_ok, pure_eq_ok] at compiled
    obtain ⟨leftTree, leftCompiled, rightTree, rightCompiled, rfl⟩ := compiled
    rw [Gpu.evaluate, evaluate_compiled left leftTree leftCompiled, evaluate_compiled right rightTree rightCompiled,
      meaning]
  | .unary op operand type, tree, compiled => by
    simp only [Gpu.compile, bind_eq_ok] at compiled
    obtain ⟨inner, innerCompiled, compiled⟩ := compiled
    have operandMeaning := evaluate_compiled operand inner innerCompiled
    cases op with
    | not | isNull =>
      rw [← Except.ok.inj compiled, Gpu.evaluate, operandMeaning]
      rfl
    | isNotNull =>
      rw [← Except.ok.inj compiled, Gpu.evaluate, Gpu.evaluate, operandMeaning, meaning, bind_assoc]
    | negate =>
      simp only [bind_eq_ok, pure_eq_ok] at compiled
      obtain ⟨zero, isZero, rfl⟩ := compiled
      rw [Gpu.evaluate, operandMeaning]
      simp only [meaning, meaningOfLiteral, isZero]
      rfl
  | .between value lower upper, tree, compiled => by
    simp only [Gpu.compile, bind_eq_ok, pure_eq_ok] at compiled
    obtain ⟨valueTree, valueCompiled, lowerTree, lowerCompiled, upperTree, upperCompiled, rfl⟩ := compiled
    simp only [Gpu.evaluate, evaluate_compiled value valueTree valueCompiled,
      evaluate_compiled lower lowerTree lowerCompiled, evaluate_compiled upper upperTree upperCompiled, meaning]
    cases meaning cudf row value with
    | error message => rfl
    | ok tested =>
      cases meaning cudf row lower with
      | error message => rfl
      | ok least =>
        cases meaning cudf row upper with
        | error message => rfl
        | ok most => rfl
  | .cast operand type, tree, compiled => by
    simp only [Gpu.compile, bind_eq_ok, pure_eq_ok] at compiled
    obtain ⟨inner, innerCompiled, op, isOperator, rfl⟩ := compiled
    simp only [Gpu.evaluate, evaluate_compiled operand inner innerCompiled, meaning, isOperator]
    rfl
  | .aggregate .., _, compiled => by cases compiled
  | .countStar _, _, compiled => by cases compiled
  | .extract .., _, compiled => by cases compiled
  | .substring .., _, compiled => by cases compiled
  | .like .., _, compiled => by cases compiled
  | .caseWhen .., _, compiled => by cases compiled

theorem evaluate_source {expression : Expression} {source : Source}
    (compiled : compileSource expression = .ok source) :
    evaluateSource cudf row source = meaning cudf row expression := by
  cases expression with
  | column name index type =>
    rw [← Except.ok.inj compiled]
    rfl
  | _ =>
    simp only [compileSource, bind_eq_ok, pure_eq_ok] at compiled
    obtain ⟨tree, isTree, rfl⟩ := compiled
    exact evaluate_compiled cudf row _ tree isTree

end Trees

/-! ## Truth values -/

/-- cuDF documents that a comparison is a boolean, whatever the type of its operands. -/
def ComparesToBoolean (cudf : Gpu.Cudf) : Prop :=
  ∀ op comparison left right datum, op.meaning = some comparison → isComparison comparison = true →
    cudf.binary op left right = .ok datum → datum.id = .boolean

section Booleans

variable {cudf : Gpu.Cudf} {row : List Datum}

theorem comparison_boolean (documented : ComparesToBoolean cudf) {op : Gpu.AstOperator}
    {comparison : BinaryOperator} (isMeaning : op.meaning = some comparison)
    (isCompared : isComparison comparison = true) {left right datum : Datum}
    (ran : Gpu.evaluateBinary cudf op left right = .ok datum) : datum.id = .boolean := by
  have notLogical : isLogical comparison = false := by
    cases comparison <;> first | rfl | cases isCompared
  have notArithmetic : isArithmetic comparison = false := by
    cases comparison <;> first | rfl | cases isCompared
  unfold Gpu.evaluateBinary at ran
  rw [isMeaning] at ran
  cases same : right.ofType left.id with
  | none => simp [same] at ran
  | some rightValue =>
    simp only [same, operate, notLogical, notArithmetic, Bool.false_eq_true, if_false] at ran
    split at ran
    · cases leftValue : left.value with
      | none =>
        rw [leftValue] at ran
        exact (Except.ok.inj ran) ▸ rfl
      | some leftPresent =>
        cases rightValue with
        | none =>
          rw [leftValue] at ran
          exact (Except.ok.inj ran) ▸ rfl
        | some rightPresent =>
          rw [leftValue] at ran
          exact (Except.ok.inj ran) ▸ rfl
    · exact documented op comparison _ _ datum isMeaning isCompared ran

theorem evaluate_logical {op : BinaryOperator} (logical : isLogical op = true) (left right : Option Bool) :
    Gpu.evaluateBinary cudf (Gpu.toAstOperator op) ⟨.boolean, left⟩ ⟨.boolean, right⟩ =
      .ok ⟨.boolean, if op = .and then kleeneAnd left right else kleeneOr left right⟩ := by
  cases op with
  | and => rfl
  | or => rfl
  | _ => cases logical

theorem evaluate_logical_boolean {op : BinaryOperator} (logical : isLogical op = true) {left right : Option Bool}
    {datum : Datum}
    (ran : Gpu.evaluateBinary cudf (Gpu.toAstOperator op) ⟨.boolean, left⟩ ⟨.boolean, right⟩ = .ok datum) :
    datum.id = .boolean := by
  rw [evaluate_logical logical] at ran
  exact (Except.ok.inj ran) ▸ rfl

theorem makeLiteral_type {type : DataType} {value : LiteralStorage} {isValid : Bool} {datum : Datum}
    (notDecimal : type.id ≠ .decimal) (ran : meaningOfLiteral cudf row type value isValid = .ok datum) :
    datum.id = type.id := by
  simp only [meaningOfLiteral, Gpu.makeLiteral, if_neg notDecimal] at ran
  exact (Except.ok.inj ran) ▸ rfl

theorem evaluate_not {operand datum : Datum} (ran : Gpu.evaluateUnary cudf .not operand = .ok datum) :
    datum.id = .boolean := by
  unfold Gpu.evaluateUnary at ran
  cases isBoolean : operand.ofType .boolean with
  | none => simp [isBoolean] at ran
  | some value =>
    simp only [isBoolean] at ran
    exact (Except.ok.inj ran) ▸ rfl

/-- A well-typed predicate that has a value is a boolean. -/
theorem meaning_boolean (documented : ComparesToBoolean cudf) : (expression : Expression) →
    WellTyped expression → expression.resultType.id = .boolean → Fits row expression → (datum : Datum) →
    meaning cudf row expression = .ok datum → datum.id = .boolean
  | .column name index type, _, isBoolean, fits, datum, ran => by
    obtain ⟨value, found⟩ := fits ⟨name, index, type⟩ (List.mem_singleton_self _)
    rw [meaning, found] at ran
    exact (Except.ok.inj ran) ▸ isBoolean
  | .literal value type, _, isBoolean, _, datum, ran => by
    have isType : type.id = .boolean := isBoolean
    have same := makeLiteral_type (by rw [isType]; exact TypeId.noConfusion) ran
    rw [same, isType]
  | .binary op left right type, ⟨typed, operands, leftTyped, rightTyped⟩, isBoolean, fits, datum, ran => by
    have isType : type.id = .boolean := isBoolean
    simp only [meaning, bind_eq_ok] at ran
    obtain ⟨leftDatum, leftRan, rightDatum, rightRan, ran⟩ := ran
    by_cases arithmetic : isArithmetic op = true
    · rw [OperatorTyped, if_pos arithmetic] at typed
      rw [OperandsTyped, if_pos arithmetic] at operands
      have numeric := operands.1
      rw [(sameKind_iff.mp typed.1).1, isType] at numeric
      cases numeric
    · by_cases logical : isLogical op = true
      · rw [OperandsTyped, if_neg arithmetic, if_pos logical] at operands
        have leftFits : Fits row left := fun use member => fits use (List.mem_append_left _ member)
        have rightFits : Fits row right := fun use member => fits use (List.mem_append_right _ member)
        have leftBoolean := meaning_boolean documented left leftTyped operands.1 leftFits leftDatum leftRan
        have rightBoolean := meaning_boolean documented right rightTyped operands.2 rightFits rightDatum rightRan
        obtain ⟨leftTruth, rfl⟩ := datum_eq_mk leftBoolean
        obtain ⟨rightTruth, rfl⟩ := datum_eq_mk rightBoolean
        exact evaluate_logical_boolean logical ran
      · refine comparison_boolean documented (meaning_toAstOperator op) ?_ ran
        cases op <;> first | rfl | exact absurd rfl arithmetic | exact absurd rfl logical
  | .unary op operand type, ⟨typed, operandTyped, _⟩, isBoolean, _, datum, ran => by
    have isType : type.id = .boolean := isBoolean
    cases op with
    | not =>
      simp only [meaning, bind_eq_ok] at ran
      obtain ⟨inner, _, ran⟩ := ran
      exact evaluate_not ran
    | isNull =>
      simp only [meaning, bind_eq_ok] at ran
      obtain ⟨inner, _, ran⟩ := ran
      exact (Except.ok.inj ran) ▸ rfl
    | isNotNull =>
      simp only [meaning, bind_eq_ok] at ran
      obtain ⟨inner, _, tested, _, ran⟩ := ran
      exact evaluate_not ran
    | negate =>
      have numeric := typed.1
      rw [← typed.2, isType] at numeric
      cases numeric
  | .between value lower upper, _, _, _, datum, ran => by
    simp only [meaning, bind_eq_ok] at ran
    obtain ⟨tested, _, least, _, above, aboveRan, most, _, below, belowRan, ran⟩ := ran
    have aboveBoolean := @comparison_boolean cudf documented .greaterEqual .greaterEqual rfl rfl _ _ _ aboveRan
    have belowBoolean := @comparison_boolean cudf documented .lessEqual .lessEqual rfl rfl _ _ _ belowRan
    obtain ⟨aboveTruth, rfl⟩ := datum_eq_mk aboveBoolean
    obtain ⟨belowTruth, rfl⟩ := datum_eq_mk belowBoolean
    exact @evaluate_logical_boolean cudf .and rfl _ _ _ ran
  | .cast operand type, _, isBoolean, _, datum, ran => by
    have isType : type.id = .boolean := isBoolean
    simp [meaning, Gpu.castOperator, isType, bind_eq_ok] at ran
  | .like value pattern negated, _, _, _, datum, ran => by
    simp only [meaning, bind_eq_ok, pure_eq_ok] at ran
    obtain ⟨_, _, _, _, rfl⟩ := ran
    rfl
  | .substring operand start length type, ⟨isString, _⟩, isBoolean, _, _, _ => by
    have isType : type.id = .boolean := isBoolean
    rw [isType] at isString
    cases isString
  | .aggregate .., _, _, _, _, ran => by simp [meaning] at ran
  | .countStar _, _, _, _, _, ran => by simp [meaning] at ran
  | .extract .., _, _, _, _, ran => by simp [meaning] at ran
  | .caseWhen .., _, _, _, _, ran => by simp [meaning] at ran

theorem truthOf_eq_ok {datum : Datum} {value : Option Bool} :
    truthOf datum = .ok value ↔ datum = ⟨.boolean, value⟩ := by
  constructor
  · intro ran
    obtain ⟨id, stored⟩ := datum
    unfold truthOf Datum.ofType at ran
    by_cases same : id = .boolean
    · subst same
      exact congrArg (Datum.mk .boolean) (Except.ok.inj ran)
    · simp [dif_neg same] at ran
  · rintro rfl
    rfl

theorem truth_eq_ok {expression : Expression} {value : Option Bool} :
    truth cudf row expression = .ok value ↔ meaning cudf row expression = .ok ⟨.boolean, value⟩ := by
  simp only [truth, bind_eq_ok, truthOf_eq_ok]
  constructor
  · rintro ⟨datum, ran, rfl⟩
    exact ran
  · exact fun ran => ⟨_, ran, rfl⟩

/-- A predicate whose columns a row has. -/
def Reads (row : List Datum) (predicate : Expression) : Prop :=
  IsPredicate predicate ∧ Fits row predicate

theorem reads_logical {op : BinaryOperator} (logical : isLogical op = true) {left right : Expression}
    {type : DataType} (reads : Reads row (.binary op left right type)) : Reads row left ∧ Reads row right := by
  obtain ⟨⟨⟨_, operands, leftTyped, rightTyped⟩, _⟩, fits⟩ := reads
  have booleans : left.resultType.id = .boolean ∧ right.resultType.id = .boolean := by
    cases op with
    | and => exact operands
    | or => exact operands
    | _ => cases logical
  exact ⟨⟨⟨leftTyped, booleans.1⟩, fun use member => fits use (List.mem_append_left _ member)⟩,
    ⟨⟨rightTyped, booleans.2⟩, fun use member => fits use (List.mem_append_right _ member)⟩⟩

theorem reads_flatten {op : BinaryOperator} (logical : isLogical op = true) {predicate : Expression}
    (reads : Reads row predicate) : ∀ part ∈ flatten op predicate, Reads row part := by
  fun_induction flatten op predicate with
  | case1 left right type leftIH rightIH =>
    obtain ⟨leftReads, rightReads⟩ := reads_logical logical reads
    exact List.forall_mem_append.mpr ⟨leftIH leftReads, rightIH rightReads⟩
  | case2 => exact List.forall_mem_singleton.mpr reads
  | case3 => exact List.forall_mem_singleton.mpr reads

/-- `AND` follows the three-valued table. -/
theorem truth_and (documented : ComparesToBoolean cudf) {left right : Expression} {type : DataType}
    (leftReads : Reads row left) (rightReads : Reads row right) {value : Option Bool} :
    truth cudf row (.binary .and left right type) = .ok value ↔
      ∃ first second, truth cudf row left = .ok first ∧ truth cudf row right = .ok second ∧
        kleeneAnd first second = value := by
  simp only [truth_eq_ok]
  constructor
  · intro ran
    simp only [meaning, bind_eq_ok] at ran
    obtain ⟨leftDatum, leftRan, rightDatum, rightRan, ran⟩ := ran
    have leftBoolean := meaning_boolean documented left leftReads.1.1 leftReads.1.2 leftReads.2 _ leftRan
    have rightBoolean := meaning_boolean documented right rightReads.1.1 rightReads.1.2 rightReads.2 _ rightRan
    obtain ⟨first, rfl⟩ := datum_eq_mk leftBoolean
    obtain ⟨second, rfl⟩ := datum_eq_mk rightBoolean
    have both := Except.ok.inj ((@evaluate_logical cudf .and rfl first second).symm.trans ran)
    refine ⟨first, second, leftRan, rightRan, ?_⟩
    cases both
    rfl
  · rintro ⟨first, second, leftRan, rightRan, rfl⟩
    simp only [meaning, leftRan, rightRan]
    exact @evaluate_logical cudf .and rfl first second

theorem kleeneAnd_true {left right : Option Bool} :
    kleeneAnd left right = some true ↔ left = some true ∧ right = some true := by
  rcases left with _ | _ | _ <;> rcases right with _ | _ | _ <;> decide

/-- A conjunction has a truth value when its conjuncts have one, and is true when they are. -/
structure Conjunction (cudf : Gpu.Cudf) (row : List Datum) (whole : Expression) (parts : List Expression) :
    Prop where
  known : (∃ value, truth cudf row whole = .ok value) ↔ ∀ part ∈ parts, ∃ value, truth cudf row part = .ok value
  isTrue : truth cudf row whole = .ok (some true) ↔ ∀ part ∈ parts, truth cudf row part = .ok (some true)

theorem conjunction_single (expression : Expression) : Conjunction cudf row expression [expression] where
  known := by simp
  isTrue := by simp

theorem conjunction_and (documented : ComparesToBoolean cudf) {left right : Expression} {type : DataType}
    (leftReads : Reads row left) (rightReads : Reads row right) {first second : List Expression}
    (leftParts : Conjunction cudf row left first) (rightParts : Conjunction cudf row right second) :
    Conjunction cudf row (.binary .and left right type) (first ++ second) where
  known := by
    rw [List.forall_mem_append, ← leftParts.known, ← rightParts.known]
    simp only [truth_and documented leftReads rightReads]
    constructor
    · rintro ⟨_, one, other, leftRan, rightRan, _⟩
      exact ⟨⟨one, leftRan⟩, ⟨other, rightRan⟩⟩
    · rintro ⟨⟨one, leftRan⟩, ⟨other, rightRan⟩⟩
      exact ⟨_, one, other, leftRan, rightRan, rfl⟩
  isTrue := by
    rw [List.forall_mem_append, ← leftParts.isTrue, ← rightParts.isTrue, truth_and documented leftReads rightReads]
    constructor
    · rintro ⟨one, other, leftRan, rightRan, both⟩
      obtain ⟨rfl, rfl⟩ := kleeneAnd_true.mp both
      exact ⟨leftRan, rightRan⟩
    · rintro ⟨leftRan, rightRan⟩
      exact ⟨_, _, leftRan, rightRan, rfl⟩

/-- A predicate is the conjunction of its conjuncts. -/
theorem conjunction_flattenAnd (documented : ComparesToBoolean cudf) {predicate : Expression}
    (reads : Reads row predicate) : Conjunction cudf row predicate (flattenAnd predicate) := by
  unfold flattenAnd
  fun_induction flatten .and predicate with
  | case1 left right type leftIH rightIH =>
    obtain ⟨leftReads, rightReads⟩ := reads_logical rfl reads
    exact conjunction_and documented leftReads rightReads (leftIH leftReads) (rightIH rightReads)
  | case2 => exact conjunction_single _
  | case3 => exact conjunction_single _

/-- Joining conjuncts again gives their conjunction. -/
theorem conjunction_andTogether (documented : ComparesToBoolean cudf) {first : Expression}
    {conjuncts : List Expression} (each : ∀ conjunct ∈ first :: conjuncts, Reads row conjunct) :
    Conjunction cudf row (andTogether first conjuncts) (first :: conjuncts) := by
  have joined : ∀ (conjuncts : List Expression) (whole : Expression) (parts : List Expression),
      Reads row whole → Conjunction cudf row whole parts → (∀ conjunct ∈ conjuncts, Reads row conjunct) →
      Conjunction cudf row (andTogether whole conjuncts) (parts ++ conjuncts) := by
    intro conjuncts
    induction conjuncts with
    | nil =>
      intro whole parts _ isWhole _
      rwa [List.append_nil]
    | cons conjunct rest hypothesis =>
      intro whole parts wholeReads isWhole each
      obtain ⟨conjunctReads, restRead⟩ := List.forall_mem_cons.mp each
      have pair : Conjunction cudf row (.binary .and whole conjunct (booleanType false)) (parts ++ [conjunct]) :=
        conjunction_and documented wholeReads conjunctReads isWhole (conjunction_single conjunct)
      have pairReads : Reads row (.binary .and whole conjunct (booleanType false)) :=
        ⟨⟨⟨rfl, ⟨wholeReads.1.2, conjunctReads.1.2⟩, wholeReads.1.1, conjunctReads.1.1⟩, rfl⟩,
          fun use member => (List.mem_append.mp member).elim (wholeReads.2 use) (conjunctReads.2 use)⟩
      have whole' := hypothesis _ _ pairReads pair restRead
      rwa [List.append_assoc, List.singleton_append] at whole'
  obtain ⟨firstReads, restRead⟩ := List.forall_mem_cons.mp each
  exact joined conjuncts first [first] firstReads (conjunction_single first) restRead

end Booleans

/-! ## One shared SUBSTRING -/

/-- A text is cut in one way at the last place of a character. -/
theorem cut_at_last {character : Char} {first first' last last' : List Char}
    (same : first ++ character :: last = first' ++ character :: last') (absent : character ∉ last)
    (absent' : character ∉ last') : first = first' ∧ last = last' := by
  rcases List.append_eq_append_iff.mp same with ⟨middle, rfl, rest⟩ | ⟨middle, rfl, rest⟩
  · cases middle with
    | nil => exact ⟨(List.append_nil _).symm, (List.cons.inj rest).2⟩
    | cons start middle =>
      have inside : character ∈ last := by
        rw [(List.cons.inj rest).2]
        simp
      exact absurd inside absent
  · cases middle with
    | nil => exact ⟨List.append_nil _, (List.cons.inj rest).2.symm⟩
    | cons start middle =>
      have inside : character ∈ last' := by
        rw [(List.cons.inj rest).2]
        simp
      exact absurd inside absent'

theorem repr_injective {first second : Int} (same : first.repr.toList = second.repr.toList) : first = second := by
  rw [← readInteger_repr first, same, readInteger_repr]

theorem not_mem_repr {value : Int} {character : Char} (other : isIntegerPart character = false) :
    character ∉ value.repr.toList := by
  intro member
  rw [isIntegerPart_of_mem_repr member] at other
  cases other

/-- Equal keys of two `SUBSTRING`s have equal parts. -/
theorem substring_keys {operand operand' : Expression} {start start' length length' : Int} {type type' : DataType}
    (same : structuralKey (.substring operand start length type) =
      structuralKey (.substring operand' start' length' type')) :
    structuralKey operand = structuralKey operand' ∧ start = start' ∧ length = length' := by
  have written : keyText (.substring operand start length type) = keyText (.substring operand' start' length' type') :=
    congrArg String.toList same
  rw [keyText_substring, keyText_substring, List.append_cancel_left_eq] at written
  have blank {value : Int} : ' ' ∉ value.repr.toList ++ ")".toList := by
    rw [List.mem_append, not_or]
    exact ⟨not_mem_repr rfl, by decide⟩
  have comma {value : Int} : ',' ∉ value.repr.toList := not_mem_repr rfl
  have lengths : ∀ (key : List Char) (first second : Int),
      key ++ (", ".toList ++ (first.repr.toList ++ (", ".toList ++ (second.repr.toList ++ ")".toList)))) =
        (key ++ (", ".toList ++ (first.repr.toList ++ [',']))) ++ ' ' :: (second.repr.toList ++ ")".toList) := by
    intro key first second
    simp
  rw [lengths, lengths] at written
  obtain ⟨written, closing⟩ := cut_at_last written blank blank
  have starts : ∀ (key : List Char) (first : Int),
      key ++ (", ".toList ++ (first.repr.toList ++ [','])) = ((key ++ [',']) ++ ' ' :: first.repr.toList) ++ [','] := by
    intro key first
    simp
  rw [starts, starts, List.append_cancel_right_eq] at written
  obtain ⟨written, opening⟩ := cut_at_last written (not_mem_repr rfl) (not_mem_repr rfl)
  rw [List.append_cancel_right_eq] at written closing
  exact ⟨String.toList_inj.mp written, repr_injective opening, repr_injective closing⟩

/-- The forms that an expression with a string for its value can have. -/
def stringForm : Expression → Bool
  | .column .. | .literal .. | .cast .. | .substring .. | .caseWhen .. | .aggregate .. => true
  | _ => false

theorem stringForm_of_string {expression : Expression} (typed : WellTyped expression)
    (isString : expression.resultType.id = .string) : stringForm expression = true := by
  cases expression with
  | binary op left right type =>
    have isType : type.id = .string := isString
    obtain ⟨isTyped, operands, _, _⟩ := typed
    by_cases arithmetic : isArithmetic op = true
    · rw [OperatorTyped, if_pos arithmetic] at isTyped
      rw [OperandsTyped, if_pos arithmetic] at operands
      have numeric := operands.1
      rw [(sameKind_iff.mp isTyped.1).1, isType] at numeric
      cases numeric
    · rw [OperatorTyped, if_neg arithmetic, isType] at isTyped
      cases isTyped
  | unary op operand type =>
    have isType : type.id = .string := isString
    obtain ⟨isTyped, _, _⟩ := typed
    cases op with
    | negate =>
      have numeric := isTyped.1
      rw [← isTyped.2, isType] at numeric
      cases numeric
    | not | isNull | isNotNull =>
      have isBoolean : type.id = .boolean := isTyped
      rw [isType] at isBoolean
      cases isBoolean
  | extract part operand type =>
    have isInteger := typed.1
    rw [show type.id = .string from isString] at isInteger
    cases isInteger
  | countStar type =>
    have isInteger : type.id = .int64 := typed
    rw [show type.id = .string from isString] at isInteger
    cases isInteger
  | between => cases isString
  | like => cases isString
  | _ => rfl

/-- A string that compiles is a column or a literal. -/
theorem string_compiles {expression : Expression} {source : Source} (typed : WellTyped expression)
    (isString : expression.resultType.id = .string) (compiled : compileSource expression = .ok source) :
    (∃ name index type, expression = .column name index type) ∨ ∃ value type, expression = .literal value type := by
  have form := stringForm_of_string typed isString
  cases expression with
  | column name index type => exact .inl ⟨name, index, type, rfl⟩
  | literal value type => exact .inr ⟨value, type, rfl⟩
  | cast operand type =>
    have isType : type.id = .string := isString
    simp [compileSource, Gpu.compile, Gpu.castOperator, isType, bind_eq_ok] at compiled
  | aggregate | substring | caseWhen => simp [compileSource, Gpu.compile] at compiled
  | _ => cases form

theorem string_storage {value : LiteralStorage} {type : DataType} (typed : StorageTyped value type)
    (isString : type.id = .string) : value = .monostate ∨ ∃ text, value = .string text := by
  cases value with
  | monostate => exact .inl rfl
  | string text => exact .inr ⟨text, rfl⟩
  | _ => simp [StorageTyped, isString] at typed

/-- Two string literals with one text have one value. -/
theorem literal_of_text {value value' : LiteralStorage} {type type' : DataType} (typed : StorageTyped value type)
    (typed' : StorageTyped value' type') (isString : type.id = .string) (isString' : type'.id = .string)
    (same : literalToString value = literalToString value') : value = value' := by
  have quoted (text : String) : "NULL" ≠ "'" ++ text ++ "'" := by
    intro equal
    have characters := congrArg String.toList equal
    simp at characters
  rcases string_storage typed isString with rfl | ⟨text, rfl⟩
  · rcases string_storage typed' isString' with rfl | ⟨text', rfl⟩
    · rfl
    · exact absurd same (quoted text')
  · rcases string_storage typed' isString' with rfl | ⟨text', rfl⟩
    · exact absurd same.symm (quoted text)
    · have characters := congrArg String.toList same
      simp only [literalToString, String.toList_append, List.append_cancel_left_eq,
        List.append_cancel_right_eq, String.toList_inj] at characters
      rw [characters]

/-- How the key of a string literal begins. -/
theorem literal_begins {value : LiteralStorage} {type : DataType} (typed : StorageTyped value type)
    (isString : type.id = .string) :
    ∃ first rest, keyText (.literal value type) = first :: rest ∧ (first = 'N' ∨ first = '\'') := by
  rw [keyText_literal]
  rcases string_storage typed isString with rfl | ⟨text, rfl⟩
  · exact ⟨_, _, rfl, .inl rfl⟩
  · exact ⟨'\'', text.toList ++ ['\''], by simp [literalToString], .inr rfl⟩

theorem makeLiteral_string {type : DataType} (isString : type.id = .string) (value : LiteralStorage)
    (isValid : Bool) :
    Gpu.makeLiteral type value isValid =
      .ok (.literal ⟨.string, if isValid then some (asText value) else none⟩) := by
  obtain ⟨id, nullable, precision, scale⟩ := type
  cases isString
  rfl

/-- A string with the key of one that compiles has its value. -/
theorem meaning_of_key (cudf : Gpu.Cudf) (row : List Datum) {operand shared : Expression} {source : Source}
    (typed : WellTyped operand) (isString : operand.resultType.id = .string) (sharedTyped : WellTyped shared)
    (sharedString : shared.resultType.id = .string) (compiled : compileSource shared = .ok source)
    (same : structuralKey operand = structuralKey shared) : meaning cudf row operand = meaning cudf row shared := by
  rcases string_compiles sharedTyped sharedString compiled with ⟨name, index, type, rfl⟩ | ⟨value, type, rfl⟩
  · obtain ⟨name', type', rfl⟩ := eq_column_of_structuralKey same
    rfl
  · have written : keyText operand = keyText (.literal value type) := congrArg String.toList same
    obtain ⟨first, rest, shape, begins⟩ := literal_begins sharedTyped sharedString
    have form := stringForm_of_string typed isString
    have starts (letter : Char) (text : List Char) (starts : keyText operand = letter :: text)
        (other : letter ≠ 'N' ∧ letter ≠ '\'') : False := by
      rw [written, shape] at starts
      rw [← (List.cons.inj starts).1] at other
      exact begins.elim other.1 other.2
    cases operand with
    | literal value' type' =>
      rw [keyText_literal, keyText_literal, String.toList_inj] at written
      have isString' : type'.id = .string := isString
      have sharedString' : type.id = .string := sharedString
      rw [literal_of_text typed sharedTyped isString sharedString written]
      rw [meaning, meaning, meaningOfLiteral, meaningOfLiteral, makeLiteral_string isString',
        makeLiteral_string sharedString']
    | column name index type' => exact (starts _ _ (keyText_column name index type') (by decide)).elim
    | cast operand type' => exact (starts _ _ (keyText_cast operand type') (by decide)).elim
    | substring operand start length type' =>
      exact (starts _ _ (keyText_substring operand start length type') (by decide)).elim
    | caseWhen branches type' => exact (starts _ _ (keyText_caseWhen branches type') (by decide)).elim
    | aggregate function argument type' =>
      have call := keyText_aggregate function argument type'
      cases function with
      | _ => exact (starts _ _ call (by decide)).elim
    | _ => cases form

/-! ## Chains -/

section Chains

variable {cudf : Gpu.Cudf} {row : List Datum}

theorem truth_or (documented : ComparesToBoolean cudf) {left right : Expression} {type : DataType}
    (leftReads : Reads row left) (rightReads : Reads row right) :
    truth cudf row (.binary .or left right type) =
      (do let first ← truth cudf row left
          let second ← truth cudf row right
          return kleeneOr first second) := by
  unfold truth
  rw [meaning]
  cases leftRan : meaning cudf row left with
  | error message => rfl
  | ok leftDatum =>
    have leftBoolean := meaning_boolean documented left leftReads.1.1 leftReads.1.2 leftReads.2 _ leftRan
    obtain ⟨first, rfl⟩ := datum_eq_mk leftBoolean
    cases rightRan : meaning cudf row right with
    | error message => rfl
    | ok rightDatum =>
      have rightBoolean := meaning_boolean documented right rightReads.1.1 rightReads.1.2 rightReads.2 _ rightRan
      obtain ⟨second, rfl⟩ := datum_eq_mk rightBoolean
      rfl

theorem truth_not (documented : ComparesToBoolean cudf) {operand : Expression} {type : DataType}
    (reads : Reads row operand) :
    truth cudf row (.unary .not operand type) = (do return (← truth cudf row operand).map not) := by
  unfold truth
  rw [meaning]
  cases ran : meaning cudf row operand with
  | error message => rfl
  | ok datum =>
    have isBoolean := meaning_boolean documented operand reads.1.1 reads.1.2 reads.2 _ ran
    obtain ⟨value, rfl⟩ := datum_eq_mk isBoolean
    rfl

/-- The text of a leaf's literal. -/
def leafText (leaf : Expression) : String :=
  ((substringLeaf leaf).map Prod.snd).getD ""

theorem kleeneOr_contains (text : Option String) (first second : List String) :
    kleeneOr (text.map first.contains) (text.map second.contains) = text.map (first ++ second).contains := by
  cases text with
  | none => rfl
  | some text =>
    simp only [Option.map_some, List.contains_append]
    cases first.contains text <;> cases second.contains text <;> rfl

/-- A chain of comparisons of one text is a search in the list of the literals. -/
theorem truth_chain (documented : ComparesToBoolean cudf) (text : Except String (Option String))
    {root : Expression} (reads : Reads row root)
    (leaves : ∀ leaf ∈ flattenOr root,
      truth cudf row leaf = (do return (← text).map [leafText leaf].contains)) :
    truth cudf row root = (do return (← text).map ((flattenOr root).map leafText).contains) := by
  unfold flattenOr at leaves ⊢
  fun_induction flatten .or root with
  | case1 left right type leftIH rightIH =>
    obtain ⟨leftReads, rightReads⟩ := reads_logical rfl reads
    obtain ⟨leftLeaves, rightLeaves⟩ := List.forall_mem_append.mp leaves
    rw [truth_or documented leftReads rightReads, leftIH leftReads leftLeaves, rightIH rightReads rightLeaves]
    cases text with
    | error message => rfl
    | ok text =>
      rw [List.map_append]
      exact congrArg Except.ok (kleeneOr_contains text _ _)
  | case2 => exact leaves _ (List.mem_singleton_self _)
  | case3 => exact leaves _ (List.mem_singleton_self _)

/-- What a leaf of a recognised chain is. -/
theorem substringLeaf_eq_some {leaf substring : Expression} {text : String}
    (isLeaf : substringLeaf leaf = some (substring, text)) :
    ∃ operand start length substringType literalType type,
      leaf = .binary .equal (.substring operand start length substringType)
        (.literal (.string text) literalType) type ∧
      substring = .substring operand start length substringType ∧ literalType.id = .string := by
  unfold substringLeaf at isLeaf
  split at isLeaf
  · rename_i op operand start length substringType text' literalType type
    split at isLeaf
    · rename_i shape
      obtain ⟨rfl, isString⟩ := shape
      cases isLeaf
      exact ⟨operand, start, length, substringType, literalType, type, rfl, rfl, isString⟩
    · cases isLeaf
  · cases isLeaf

/-- A leaf over the shared substring. -/
def IsLeafOf (shared leaf : Expression) : Prop :=
  ∃ substring text, substringLeaf leaf = some (substring, text) ∧ structuralKey substring = structuralKey shared

theorem addLeaf_rest {leaves : List Expression} {shared : Expression} {texts : List String}
    {found : Option Expression × List String}
    (ran : leaves.foldlM addLeaf (some shared, texts) = some found) :
    found = (some shared, texts ++ leaves.map leafText) ∧ ∀ leaf ∈ leaves, IsLeafOf shared leaf := by
  induction leaves generalizing texts with
  | nil =>
    cases ran
    simp
  | cons leaf leaves hypothesis =>
    rw [List.foldlM_cons] at ran
    cases isLeaf : substringLeaf leaf with
    | none => simp [addLeaf, isLeaf] at ran
    | some parts =>
      obtain ⟨substring, text⟩ := parts
      by_cases same : structuralKey substring = structuralKey shared
      · simp only [addLeaf, isLeaf, same, if_true, Option.bind_eq_bind, Option.bind_some] at ran
        obtain ⟨isFound, rest⟩ := hypothesis ran
        refine ⟨?_, List.forall_mem_cons.mpr ⟨⟨substring, text, isLeaf, same⟩, rest⟩⟩
        rw [isFound]
        simp [leafText, isLeaf]
      · simp [addLeaf, isLeaf, same] at ran

/-- A recognised conjunct is a chain over the substring of its first leaf. -/
theorem substringIn_eq_some {conjunct : Expression} {shape : SubstringIn}
    (recognised : substringIn conjunct = some shape) :
    ∃ type, shape.literals = (flattenOr (chainOf conjunct).2).map leafText ∧ shape.literals ≠ [] ∧
      shape.negated = (chainOf conjunct).1 ∧
      (∃ first ∈ flattenOr (chainOf conjunct).2, ∃ text,
        substringLeaf first = some (.substring shape.operand shape.start shape.length type, text)) ∧
      ∀ leaf ∈ flattenOr (chainOf conjunct).2,
        IsLeafOf (.substring shape.operand shape.start shape.length type) leaf := by
  unfold substringIn at recognised
  generalize flattenOr (chainOf conjunct).2 = leaves at recognised ⊢
  cases leaves with
  | nil => cases recognised
  | cons first rest =>
    rw [List.foldlM_cons] at recognised
    cases isLeaf : substringLeaf first with
    | none => simp [addLeaf, isLeaf] at recognised
    | some parts =>
      obtain ⟨substring, text⟩ := parts
      obtain ⟨operand, start, length, substringType, _, _, _, rfl, _⟩ := substringLeaf_eq_some isLeaf
      simp only [addLeaf, isLeaf, List.nil_append, Option.bind_eq_bind, Option.bind_some] at recognised
      cases ran : rest.foldlM addLeaf (some (.substring operand start length substringType), [text]) with
      | none => simp [ran] at recognised
      | some found =>
        obtain ⟨rfl, others⟩ := addLeaf_rest ran
        simp only [ran, Option.some.injEq] at recognised
        rw [← recognised]
        refine ⟨substringType, ?_, by simp, rfl, ⟨first, List.mem_cons_self .., text, isLeaf⟩,
          List.forall_mem_cons.mpr ⟨⟨_, text, isLeaf, rfl⟩, others⟩⟩
        simp [leafText, isLeaf]

theorem accepts_equal_string (left right : String) :
    accepts .equal (compareOfLessAndEq left right) = (left == right) := by
  unfold compareOfLessAndEq
  by_cases same : left = right
  · simp [same, accepts]
  · have other : (left == right) = false := by simpa using same
    rw [if_neg same, other]
    split <;> rfl

/-- The text of an expression. -/
def textIn (cudf : Gpu.Cudf) (row : List Datum) (expression : Expression) : Except String (Option String) := do
  textOf (← meaning cudf row expression)

theorem truth_leaf (operand : Expression) (start length : Int) (substringType : DataType) (text : String)
    {literalType : DataType} (isString : literalType.id = .string) (type : DataType) :
    truth cudf row (.binary .equal (.substring operand start length substringType)
        (.literal (.string text) literalType) type) =
      (do return ((← textIn cudf row operand).map (substringText (start - 1) length)).map [text].contains) := by
  have literal : meaningOfLiteral cudf row literalType (.string text) true = .ok ⟨.string, some text⟩ := by
    rw [meaningOfLiteral, makeLiteral_string isString]
    rfl
  unfold truth textIn
  simp only [meaning, ne_eq, reduceCtorEq, not_false_eq_true, decide_true, literal]
  cases meaning cudf row operand with
  | error message => rfl
  | ok datum =>
    change ((textOf datum >>= _) >>= _) >>= _ = (textOf datum >>= _)
    cases textOf datum with
    | error message => rfl
    | ok found =>
      cases found with
      | none => rfl
      | some found =>
        change Except.ok (some (accepts .equal (compareOfLessAndEq (substringText (start - 1) length found) text))) =
          Except.ok (some ([text].contains (substringText (start - 1) length found)))
        rw [accepts_equal_string, List.contains_cons, List.contains_nil, Bool.or_false]

/-- The truth value of `operand IN (literals)`, with a part of the operand's text taken out first. -/
def inTruth (cudf : Gpu.Cudf) (row : List Datum) (part : String → String) (shape : SubstringIn) :
    Except String (Option Bool) := do
  return (← textIn cudf row shape.operand).map (fun text => shape.literals.contains (part text) != shape.negated)

/-- A predicate that is the chain of a recognised conjunct. -/
theorem truth_recognised (documented : ComparesToBoolean cudf) {root : Expression} (reads : Reads row root)
    {shape : SubstringIn} {type : DataType} {source : Source}
    (compiled : compileSource shape.operand = .ok source)
    (typed : WellTyped shape.operand ∧ shape.operand.resultType.id = .string)
    (literals : shape.literals = (flattenOr root).map leafText)
    (leaves : ∀ leaf ∈ flattenOr root, IsLeafOf (.substring shape.operand shape.start shape.length type) leaf) :
    truth cudf row root = (do
      return ((← textIn cudf row shape.operand).map (substringText (shape.start - 1) shape.length)).map
        shape.literals.contains) := by
  have chain := truth_chain documented
    (do return (← textIn cudf row shape.operand).map (substringText (shape.start - 1) shape.length)) reads
    (fun leaf member => ?_)
  · rw [chain, literals]
    cases textIn cudf row shape.operand <;> rfl
  · obtain ⟨substring, text, isLeaf, same⟩ := leaves leaf member
    have isText : leafText leaf = text := by simp [leafText, isLeaf]
    obtain ⟨operand, start, length, substringType, literalType, leafType, rfl, rfl, isString⟩ :=
      substringLeaf_eq_some isLeaf
    obtain ⟨⟨⟨_, _, ⟨_, operandString, operandTyped⟩, _⟩, _⟩, _⟩ := reads_flatten rfl reads _ member
    obtain ⟨sameOperand, rfl, rfl⟩ := substring_keys same
    have sameMeaning : textIn cudf row operand = textIn cudf row shape.operand := by
      rw [textIn, textIn,
        meaning_of_key cudf row operandTyped operandString typed.1 typed.2 compiled sameOperand]
    rw [truth_leaf _ _ _ _ _ isString, sameMeaning, isText]
    cases textIn cudf row shape.operand <;> rfl

theorem chainOf_cases (conjunct : Expression) :
    (∃ operand type, conjunct = .unary .not operand type ∧ chainOf conjunct = (true, operand)) ∨
      chainOf conjunct = (false, conjunct) := by
  unfold chainOf
  split
  · exact .inl ⟨_, _, rfl, rfl⟩
  · exact .inr rfl

/-- A recognised conjunct is an `IN` over the substring, the list of literals read at once. -/
theorem truth_substringIn (documented : ComparesToBoolean cudf) {conjunct : Expression}
    (reads : Reads row conjunct) {shape : SubstringIn} (recognised : substringIn conjunct = some shape)
    {source : Source} (compiled : compileSource shape.operand = .ok source) :
    truth cudf row conjunct = inTruth cudf row (substringText (shape.start - 1) shape.length) shape := by
  obtain ⟨type, literals, _, negated, ⟨first, isFirst, text, isLeaf⟩, leaves⟩ := substringIn_eq_some recognised
  have chain (root : Expression) (isRoot : (chainOf conjunct).2 = root) (rootReads : Reads row root) :
      truth cudf row root = (do
        return ((← textIn cudf row shape.operand).map (substringText (shape.start - 1) shape.length)).map
          shape.literals.contains) := by
    subst isRoot
    obtain ⟨operand, start, length, substringType, literalType, leafType, rfl, isShared, _⟩ :=
      substringLeaf_eq_some isLeaf
    cases isShared
    obtain ⟨⟨⟨_, _, ⟨_, operandString, operandTyped⟩, _⟩, _⟩, _⟩ := reads_flatten rfl rootReads _ isFirst
    exact truth_recognised documented rootReads compiled ⟨operandTyped, operandString⟩ literals leaves
  unfold inTruth
  rcases chainOf_cases conjunct with ⟨operand, notType, rfl, isChain⟩ | isChain
  · obtain ⟨⟨⟨_, isBoolean, operandTyped⟩, _⟩, fits⟩ := reads
    have operandReads : Reads row operand := ⟨⟨operandTyped, isBoolean⟩, fits⟩
    rw [truth_not documented operandReads, chain operand (by rw [isChain]) operandReads, negated, isChain]
    cases textIn cudf row shape.operand with
    | error message => rfl
    | ok found => cases found <;> simp [pure, Except.pure, bind, Except.bind]
  · rw [chain conjunct (by rw [isChain]) reads, negated, isChain]
    cases textIn cudf row shape.operand with
    | error message => rfl
    | ok found => cases found <;> simp [pure, Except.pure, bind, Except.bind]

end Chains

end KernelLake.GpuFilterConjuncts
