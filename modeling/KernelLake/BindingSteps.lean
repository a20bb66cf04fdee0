import KernelLake.BoundTypes

/-!
The steps of binding.

Binding an expression builds its result bottom up, one constructor at a time. A step is one such
construction together with the bound operands it was given; the steps of an expression are listed in the
order in which they are taken. A successful run takes each of them successfully, and a property that all of
them keep is one of the result.
-/

namespace KernelLake.BindingSteps

open KernelLake.Types KernelLake.Expressions KernelLake.SqlAst KernelLake.Binder KernelLake.BoundTypes
open KernelLake.Library.Results

/-- One construction. A `null` is an untyped `NULL` that takes the type of the operand it meets, `notIn`
the negation of the comparisons with the items of a list. -/
inductive Step
  | literal (value : AstLiteral)
  | null (typed : Expression)
  | binary (op : BinaryOperator) (left right : Expression)
  | unary (op : UnaryOperator) (operand : Expression)
  | notIn (items : Expression)
  | between (value lower upper : Expression)
  | like (value : Expression) (pattern : String) (negated : Bool)
  | extract (part : DatePart) (operand : Expression)
  | substring (operand : Expression) (start length : Int)
  | cast (operand : Expression) (target : DataType)
  | caseWhen (first : Expression × Expression) (others : List (Expression × Expression))
      (otherwise : Option Expression)
  | aggregate (function : AggregateFunction) (argument : Expression)
  | countStar

/-- What a step builds. -/
def Step.run : Step → Except String Expression
  | .literal value => .ok (bindLiteral value)
  | .null typed => .ok (makeNull typed.resultType)
  | .binary op left right => combineBinary op left right
  | .unary op operand => combineUnary op operand
  | .notIn items => .ok (.unary .not items (booleanType false))
  | .between value lower upper => combineBetween value lower upper
  | .like value pattern negated => combineLike value (.literal (.string pattern) : SqlExpr) negated
  | .extract part operand => combineExtract part operand
  | .substring operand start length => combineSubstring operand start length
  | .cast operand target => .ok (.cast operand target)
  | .caseWhen first others otherwise => combineCase first others otherwise
  | .aggregate function argument => combineAggregate function argument
  | .countStar => .ok (.countStar (int64Type false))

/-- The results of the branches of a `CASE`, its `ELSE` last. -/
def caseResults (branches : List (Expression × Expression)) (otherwise : Option Expression) :
    List Expression :=
  branches.map Prod.snd ++ otherwise.toList

def Step.operands : Step → List Expression
  | .literal _ => []
  | .null typed => [typed]
  | .binary _ left right => [left, right]
  | .unary _ operand => [operand]
  | .notIn items => [items]
  | .between value lower upper => [value, lower, upper]
  | .like value _ _ => [value]
  | .extract _ operand => [operand]
  | .substring operand _ _ => [operand]
  | .cast operand _ => [operand]
  | .caseWhen first others otherwise =>
    (first :: others).map Prod.fst ++ caseResults (first :: others) otherwise
  | .aggregate _ argument => [argument]
  | .countStar => []

def Step.isCall : Step → Bool
  | .aggregate .. => true
  | .countStar => true
  | _ => false

/-- What binding has made sure of before it takes a step. -/
def Step.Checked : Step → Prop
  | .notIn items => items.resultType.id = .boolean
  | .cast operand target => ∃ name precision scale,
      resolveCastTypeName name precision scale operand.resultType.nullable = .ok target
  | .caseWhen first others _ => ∀ branch ∈ first :: others, branch.1.resultType.id = .boolean
  | _ => True

/-- A step that a successful run takes. -/
structure Step.Taken (allowAggregates : Bool) (step : Step) : Prop where
  ran : ∃ result, step.run = .ok result
  checked : step.Checked
  allowed : step.isCall = true → allowAggregates = true

/-- What a step builds from operands with a property has it too. -/
def Step.Keeps (holds : Expression → Prop) (step : Step) : Prop :=
  ∀ result, step.run = .ok result → step.Checked → (∀ operand ∈ step.operands, holds operand) → holds result

section Steps

variable {Statement : Type}

def likePattern : AstExpr Statement → Option String
  | .literal (.string text) => some text
  | _ => none

variable (resolve : Reference → Except String Expression)

mutual

/-- The steps of binding an expression. -/
def bindingSteps (allowAggregates : Bool) : AstExpr Statement → List Step
  | .columnRef _ _ => []
  | .star => []
  | .literal value => [.literal value]
  | .binary op left right =>
    if isUntypedNull left && !isUntypedNull right then
      bindingSteps allowAggregates right ++
        onOk (bindWith resolve allowAggregates right) fun right' =>
          [.null right', .binary op (makeNull right'.resultType) right']
    else if isUntypedNull right && !isUntypedNull left then
      bindingSteps allowAggregates left ++
        onOk (bindWith resolve allowAggregates left) fun left' =>
          [.null left', .binary op left' (makeNull left'.resultType)]
    else
      bindingSteps allowAggregates left ++ bindingSteps allowAggregates right ++
        onOk (bindWith resolve allowAggregates left) fun left' =>
          onOk (bindWith resolve allowAggregates right) fun right' => [.binary op left' right']
  | .unary op operand =>
    bindingSteps allowAggregates operand ++
      onOk (bindWith resolve allowAggregates operand) fun operand' => [.unary op operand']
  | .between value lower upper =>
    bindingSteps allowAggregates value ++ bindingSteps allowAggregates lower ++
      bindingSteps allowAggregates upper ++
        onOk (bindWith resolve allowAggregates value) fun value' =>
          onOk (bindWith resolve allowAggregates lower) fun lower' =>
            onOk (bindWith resolve allowAggregates upper) fun upper' => [.between value' lower' upper']
  | .aggregate function argument =>
    bindingSteps false argument ++
      onOk (bindWith resolve false argument) fun argument' => [.aggregate function argument']
  | .countStar => [.countStar]
  | .like value pattern negated =>
    bindingSteps allowAggregates value ++
      onOk (bindWith resolve allowAggregates value) fun value' =>
        (likePattern pattern).toList.map fun text => .like value' text negated
  | .inList value list negated =>
    bindingSteps allowAggregates value ++
      onOk (bindWith resolve allowAggregates value) fun value' =>
        itemSteps allowAggregates value' none list ++
          if negated then
            onOk (bindItems resolve allowAggregates value' none list) fun items => [.notIn (items.getD value')]
          else []
  | .inSubquery .. => []
  | .caseWhen condition result rest =>
    bindingSteps allowAggregates condition ++ bindingSteps allowAggregates result ++
      branchSteps allowAggregates rest ++
        onOk (bindWith resolve allowAggregates condition) fun condition' =>
          onOk (bindWith resolve allowAggregates result) fun result' =>
            onOk (bindBranches resolve allowAggregates rest) fun branches =>
              [.caseWhen (condition', result') branches.1 branches.2]
  | .cast operand typeName precision scale =>
    bindingSteps allowAggregates operand ++
      onOk (bindWith resolve allowAggregates operand) fun operand' =>
        onOk (resolveCastTypeName typeName precision scale operand'.resultType.nullable) fun target =>
          [.cast operand' target]
  | .extract part operand =>
    bindingSteps allowAggregates operand ++
      onOk (bindWith resolve allowAggregates operand) fun operand' => [.extract part operand']
  | .substring operand start length =>
    bindingSteps allowAggregates operand ++
      onOk (bindWith resolve allowAggregates operand) fun operand' => [.substring operand' start length]
  | .subquery _ => []
  | .exists .. => []

/-- The steps of comparing a bound value with the items of a list, each joined to those before it. -/
def itemSteps (allowAggregates : Bool) (value : Expression) (sofar : Option Expression) :
    AstExprList Statement → List Step
  | .nil => []
  | .cons item rest =>
    (if isUntypedNull item then [.null value] else bindingSteps allowAggregates item) ++
      onOk (if isUntypedNull item then .ok (makeNull value.resultType)
          else bindWith resolve allowAggregates item : Except String Expression) fun item' =>
        .binary .equal value item' ::
          onOk (combineBinary .equal value item') fun comparison =>
            (sofar.toList.map fun previous => .binary .or previous comparison) ++
              onOk (sofar.elim (pure comparison) (combineBinary .or · comparison)) fun next =>
                itemSteps allowAggregates value (some next) rest

def branchSteps (allowAggregates : Bool) : AstBranches Statement → List Step
  | .done => []
  | .otherwise result => bindingSteps allowAggregates result
  | .when condition result rest =>
    bindingSteps allowAggregates condition ++ bindingSteps allowAggregates result ++
      branchSteps allowAggregates rest

end

end Steps

/-! ## Checks -/

theorem checkCondition_eq {condition result : Expression} (ran : checkCondition condition = .ok result) :
    condition = result ∧ condition.resultType.id = .boolean := by
  unfold checkCondition at ran
  split at ran
  · cases ran
  · rename_i boolean
    exact ⟨Except.ok.inj ran, not_not.mp boolean⟩

theorem combineLike_eq_ok {Statement : Type} {value result : Expression} {pattern : AstExpr Statement}
    {negated : Bool} (ran : combineLike value pattern negated = .ok result) :
    value.resultType.id = .string ∧ ∃ text, likePattern pattern = some text ∧
      result = .like value text negated := by
  unfold combineLike at ran
  split at ran
  · cases ran
  · rename_i isString
    split at ran
    · exact ⟨not_not.mp isString, _, rfl, (Except.ok.inj ran).symm⟩
    · cases ran

section Accounts

variable {Statement : Type} {resolve : Reference → Except String Expression} {holds : Expression → Prop}

/-- What the given references resolve to has the property. -/
def ResolvedHold (resolve : Reference → Except String Expression) (holds : Expression → Prop)
    (written : List Reference) : Prop :=
  ∀ reference ∈ written, ∀ column, resolve reference = .ok column → holds column

theorem resolvedHold_append {written more : List Reference} :
    ResolvedHold resolve holds (written ++ more) ↔
      ResolvedHold resolve holds written ∧ ResolvedHold resolve holds more :=
  List.forall_mem_append

/-- Comparisons joined to an earlier boolean one, or at least one of them, make a boolean. -/
theorem bindItems_booleanFrom {allowAggregates : Bool} {value : Expression} :
    (list : AstExprList Statement) → (sofar result : Option Expression) →
      bindItems resolve allowAggregates value sofar list = .ok result →
      (∀ previous, sofar = some previous → previous.resultType.id = .boolean) →
      (sofar.isSome ∨ ¬ list.isEmpty = true) → (result.getD value).resultType.id = .boolean
  | .nil, sofar, result, ran, booleans, isSome => by
    simp only [bindItems, pure_eq_ok] at ran
    obtain ⟨previous, isPrevious⟩ := Option.isSome_iff_exists.mp
      (isSome.resolve_right (fun nonempty => nonempty rfl))
    rw [← ran, isPrevious]
    exact booleans previous isPrevious
  | .cons item rest, sofar, result, ran, booleans, _ => by
    simp only [bindItems, bind_eq_ok] at ran
    obtain ⟨item', _, comparison, combined, next, nextRan, restRan⟩ := ran
    refine bindItems_booleanFrom rest (some next) result restRan (fun previous isNext => ?_) (.inl rfl)
    rw [← Option.some.inj isNext]
    cases sofar with
    | none =>
      rw [← pure_eq_ok.mp nextRan]
      exact combineBinary_boolean combined rfl
    | some previous =>
      simp only [Option.elim] at nextRan
      exact combineBinary_boolean nextRan rfl

/-- The comparisons with the items of a list make a boolean. -/
theorem bindItems_boolean {allowAggregates : Bool} {value : Expression} {list : AstExprList Statement}
    {result : Option Expression} (ran : bindItems resolve allowAggregates value none list = .ok result)
    (nonempty : ¬ list.isEmpty = true) : (result.getD value).resultType.id = .boolean :=
  bindItems_booleanFrom list none result ran (fun _ none => by cases none) (.inr nonempty)

/-! ## Accounts of a run -/

/-- Every step of a list was taken, and what was built holds if every step keeps the property and every
reference resolves to it. -/
structure Accounted (resolve : Reference → Except String Expression) (holds : Expression → Prop)
    (allowAggregates : Bool) (steps : List Step) (written : List Reference) (built : Prop) : Prop where
  taken : ∀ step ∈ steps, step.Taken allowAggregates
  held : (∀ step ∈ steps, step.Keeps holds) → ResolvedHold resolve holds written → built

namespace Accounted

variable {allowAggregates : Bool} {steps more : List Step} {written others : List Reference}
  {built alsoBuilt : Prop}

theorem nothing (isBuilt : built) : Accounted resolve holds allowAggregates [] written built where
  taken := List.forall_mem_nil _
  held _ _ := isBuilt

theorem imp (account : Accounted resolve holds allowAggregates steps written built)
    (implies : built → alsoBuilt) : Accounted resolve holds allowAggregates steps written alsoBuilt where
  taken := account.taken
  held keeps resolved := implies (account.held keeps resolved)

theorem append (account : Accounted resolve holds allowAggregates steps written built)
    (moreAccount : Accounted resolve holds allowAggregates more others alsoBuilt) :
    Accounted resolve holds allowAggregates (steps ++ more) (written ++ others) (built ∧ alsoBuilt) := by
  constructor
  · exact List.forall_mem_append.mpr ⟨account.taken, moreAccount.taken⟩
  · intro keeps resolved
    obtain ⟨firstKeep, restKeep⟩ := List.forall_mem_append.mp keeps
    obtain ⟨firstResolved, restResolved⟩ := resolvedHold_append.mp resolved
    exact ⟨account.held firstKeep firstResolved, moreAccount.held restKeep restResolved⟩

/-- One more step, with operands that were built before it. -/
theorem step (account : Accounted resolve holds allowAggregates steps written built) (step : Step)
    {result : Expression} (ran : step.run = .ok result) (checked : step.Checked)
    (allowed : step.isCall = true → allowAggregates = true)
    (operands : built → ∀ operand ∈ step.operands, holds operand) :
    Accounted resolve holds allowAggregates (steps ++ [step]) written (built ∧ holds result) := by
  constructor
  · refine List.forall_mem_append.mpr ⟨account.taken, ?_⟩
    exact List.forall_mem_singleton.mpr ⟨⟨result, ran⟩, checked, allowed⟩
  · intro keeps resolved
    obtain ⟨before, last⟩ := List.forall_mem_append.mp keeps
    have isBuilt := account.held before resolved
    exact ⟨isBuilt, List.forall_mem_singleton.mp last result ran checked (operands isBuilt)⟩

theorem more_written (account : Accounted resolve holds allowAggregates steps written built)
    (subset : written ⊆ others) : Accounted resolve holds allowAggregates steps others built where
  taken := account.taken
  held keeps resolved := account.held keeps (fun reference member => resolved reference (subset member))

theorem allowed (account : Accounted resolve holds false steps written built) :
    Accounted resolve holds allowAggregates steps written built where
  taken step member := by
    have taken := account.taken step member
    exact ⟨taken.ran, taken.checked, fun isCall => Bool.noConfusion (taken.allowed isCall)⟩
  held := account.held

end Accounted

/-! ## Runs -/

theorem plain {step : Step} {allowAggregates : Bool} (noCall : step.isCall = false) :
    step.isCall = true → allowAggregates = true := by
  intro isCall
  rw [noCall] at isCall
  cases isCall

theorem pair_hold {first second : Expression} (both : holds first ∧ holds second) :
    ∀ operand ∈ [first, second], holds operand :=
  List.forall_mem_cons.mpr ⟨both.1, List.forall_mem_singleton.mpr both.2⟩

mutual

/-- A successful run takes all its steps, and what it builds has every property that its steps keep and
that its columns have. -/
theorem bindWith_accounted (allowAggregates : Bool) : (expression : AstExpr Statement) →
    (result : Expression) → bindWith resolve allowAggregates expression = .ok result →
    Accounted resolve holds allowAggregates (bindingSteps resolve allowAggregates expression)
      (references expression) (holds result)
  | .columnRef name table, result, ran => by
    simp only [bindWith] at ran
    constructor
    · exact List.forall_mem_nil _
    · intro _ resolved
      exact resolved ⟨name, table⟩ (List.mem_singleton.mpr rfl) result ran
  | .star, result, ran => by
    rw [bindWith] at ran
    cases ran
  | .literal value, result, ran => by
    simp only [bindWith] at ran
    exact ((Accounted.nothing trivial).step (.literal value) ran trivial (plain rfl)
      (fun _ => List.forall_mem_nil _)).imp And.right
  | .binary op left right, result, ran => by
    simp only [bindWith] at ran
    rw [bindingSteps, references]
    split at ran
    · rename_i leftNull
      obtain ⟨right', rightRan, combined⟩ := bind_eq_ok.mp ran
      have account := (bindWith_accounted allowAggregates right right' rightRan).step (.null right') rfl
        trivial (plain rfl) List.forall_mem_singleton.mpr
      have whole := account.step (.binary op (makeNull right'.resultType) right') combined trivial (plain rfl)
        (fun both => pair_hold both.symm)
      rw [if_pos leftNull, rightRan, onOk_ok, List.append_cons]
      exact (whole.imp And.right).more_written (List.subset_append_right _ _)
    · rename_i leftTyped
      rw [if_neg leftTyped]
      split at ran
      · rename_i rightNull
        obtain ⟨left', leftRan, combined⟩ := bind_eq_ok.mp ran
        have account := (bindWith_accounted allowAggregates left left' leftRan).step (.null left') rfl
          trivial (plain rfl) List.forall_mem_singleton.mpr
        have whole := account.step (.binary op left' (makeNull left'.resultType)) combined trivial (plain rfl)
          pair_hold
        rw [if_pos rightNull, leftRan, onOk_ok, List.append_cons]
        exact (whole.imp And.right).more_written (List.subset_append_left _ _)
      · rename_i rightTyped
        simp only [bind_eq_ok] at ran
        obtain ⟨left', leftRan, right', rightRan, combined⟩ := ran
        have account := (bindWith_accounted allowAggregates left left' leftRan).append
          (bindWith_accounted allowAggregates right right' rightRan)
        have whole := account.step (.binary op left' right') combined trivial (plain rfl) pair_hold
        rw [if_neg rightTyped, leftRan, rightRan, onOk_ok, onOk_ok]
        exact whole.imp And.right
  | .unary op operand, result, ran => by
    simp only [bindWith, bind_eq_ok] at ran
    obtain ⟨operand', operandRan, combined⟩ := ran
    have account := (bindWith_accounted allowAggregates operand operand' operandRan).step
      (.unary op operand') combined trivial (plain rfl) List.forall_mem_singleton.mpr
    rw [bindingSteps, operandRan, onOk_ok]
    exact account.imp And.right
  | .between value lower upper, result, ran => by
    simp only [bindWith, bind_eq_ok] at ran
    obtain ⟨value', valueRan, lower', lowerRan, upper', upperRan, combined⟩ := ran
    have account := ((bindWith_accounted allowAggregates value value' valueRan).append
      (bindWith_accounted allowAggregates lower lower' lowerRan)).append
      (bindWith_accounted allowAggregates upper upper' upperRan)
    have whole := account.step (.between value' lower' upper') combined trivial (plain rfl)
      (by
        rintro ⟨⟨valueHolds, lowerHolds⟩, upperHolds⟩
        exact List.forall_mem_cons.mpr ⟨valueHolds, pair_hold ⟨lowerHolds, upperHolds⟩⟩)
    rw [bindingSteps, valueRan, lowerRan, upperRan, onOk_ok, onOk_ok, onOk_ok]
    exact whole.imp And.right
  | .aggregate function argument, result, ran => by
    simp only [bindWith] at ran
    split at ran
    · cases ran
    · rename_i forbidden
      split at ran
      · cases ran
      · obtain ⟨argument', argumentRan, combined⟩ := bind_eq_ok.mp ran
        have account := (bindWith_accounted false argument argument' argumentRan).allowed.step
          (.aggregate function argument') combined trivial (fun _ => by simpa using forbidden)
          List.forall_mem_singleton.mpr
        rw [bindingSteps, argumentRan, onOk_ok]
        exact account.imp And.right
  | .countStar, result, ran => by
    simp only [bindWith] at ran
    split at ran
    · cases ran
    · rename_i forbidden
      exact ((Accounted.nothing trivial).step .countStar ran trivial (fun _ => by simpa using forbidden)
        (fun _ => List.forall_mem_nil _)).imp And.right
  | .like value pattern negated, result, ran => by
    simp only [bindWith, bind_eq_ok] at ran
    obtain ⟨value', valueRan, combined⟩ := ran
    obtain ⟨isString, text, isPattern, rfl⟩ := combineLike_eq_ok combined
    have stepRan : (Step.like value' text negated).run = .ok (.like value' text negated) := by
      rw [Step.run, combineLike, if_neg (not_not.mpr isString)]
    have account := (bindWith_accounted allowAggregates value value' valueRan).step _ stepRan trivial (plain rfl)
      List.forall_mem_singleton.mpr
    rw [bindingSteps, valueRan, onOk_ok, isPattern]
    exact account.imp And.right
  | .inList value list negated, result, ran => by
    simp only [bindWith] at ran
    split at ran
    · cases ran
    · rename_i nonempty
      simp only [bind_eq_ok] at ran
      obtain ⟨value', valueRan, comparison, listRan, built⟩ := ran
      have account := bindItems_accounted allowAggregates list value' none comparison listRan
        ((bindWith_accounted allowAggregates value value' valueRan).imp
          (fun valueHolds => ⟨valueHolds, fun _ isNone => by cases isNone⟩))
      have compared : holds value' ∧ (∀ compared, comparison = some compared → holds compared) →
          holds (comparison.getD value') := by
        rintro ⟨valueHolds, comparisonHolds⟩
        cases comparison with
        | none => exact valueHolds
        | some compared => exact comparisonHolds compared rfl
      rw [bindingSteps, valueRan, onOk_ok]
      split at built
      · rename_i isNegated
        have whole := account.step (.notIn (comparison.getD value')) rfl (bindItems_boolean listRan nonempty)
          (plain rfl) (fun both => List.forall_mem_singleton.mpr (compared both))
        rw [← pure_eq_ok.mp built, if_pos isNegated, listRan, onOk_ok, ← List.append_assoc]
        exact whole.imp And.right
      · rename_i plain
        rw [← pure_eq_ok.mp built, if_neg plain, List.append_nil]
        exact account.imp compared
  | .inSubquery .., result, ran => by
    rw [bindWith] at ran
    cases ran
  | .caseWhen condition result' rest, result, ran => by
    simp only [bindWith, bind_eq_ok] at ran
    obtain ⟨condition', conditionRan, condition'', checked, bound, resultRan, ⟨others, otherwise⟩, restRan,
      combined⟩ := ran
    obtain ⟨rfl, boolean⟩ := checkCondition_eq checked
    obtain ⟨booleans, restAccount⟩ := bindBranches_accounted allowAggregates rest others otherwise restRan
    have account := ((bindWith_accounted allowAggregates condition condition' conditionRan).append
      (bindWith_accounted allowAggregates result' bound resultRan)).append restAccount
    have whole := account.step (.caseWhen (condition', bound) others otherwise) combined
      (List.forall_mem_cons.mpr ⟨boolean, booleans⟩) (plain rfl) (by
        rintro ⟨⟨conditionHolds, boundHolds⟩, restHold⟩
        obtain ⟨conditionsHold, resultsHold⟩ := List.forall_mem_append.mp restHold
        exact List.forall_mem_append.mpr ⟨List.forall_mem_cons.mpr ⟨conditionHolds, conditionsHold⟩,
          List.forall_mem_cons.mpr ⟨boundHolds, resultsHold⟩⟩)
    rw [bindingSteps, conditionRan, resultRan, restRan, onOk_ok, onOk_ok, onOk_ok]
    exact whole.imp And.right
  | .cast operand typeName precision scale, result, ran => by
    simp only [bindWith, bind_eq_ok, pure_eq_ok] at ran
    obtain ⟨operand', operandRan, target, targetRan, rfl⟩ := ran
    have account := (bindWith_accounted allowAggregates operand operand' operandRan).step
      (.cast operand' target) rfl ⟨_, _, _, targetRan⟩ (plain rfl) List.forall_mem_singleton.mpr
    rw [bindingSteps, operandRan, onOk_ok, targetRan, onOk_ok]
    exact account.imp And.right
  | .extract part operand, result, ran => by
    simp only [bindWith, bind_eq_ok] at ran
    obtain ⟨operand', operandRan, combined⟩ := ran
    have account := (bindWith_accounted allowAggregates operand operand' operandRan).step
      (.extract part operand') combined trivial (plain rfl) List.forall_mem_singleton.mpr
    rw [bindingSteps, operandRan, onOk_ok]
    exact account.imp And.right
  | .substring operand start length, result, ran => by
    simp only [bindWith, bind_eq_ok] at ran
    obtain ⟨operand', operandRan, combined⟩ := ran
    have account := (bindWith_accounted allowAggregates operand operand' operandRan).step
      (.substring operand' start length) combined trivial (plain rfl) List.forall_mem_singleton.mpr
    rw [bindingSteps, operandRan, onOk_ok]
    exact account.imp And.right
  | .subquery _, result, ran => by
    rw [bindWith] at ran
    cases ran
  | .exists .., result, ran => by
    rw [bindWith] at ran
    cases ran

/-- The account of the comparisons with a list continues that of the value and the comparisons so far. -/
theorem bindItems_accounted (allowAggregates : Bool) : (list : AstExprList Statement) →
    (value : Expression) → (sofar result : Option Expression) →
    bindItems resolve allowAggregates value sofar list = .ok result →
    {steps : List Step} → {written : List Reference} →
    Accounted resolve holds allowAggregates steps written
      (holds value ∧ ∀ compared, sofar = some compared → holds compared) →
    Accounted resolve holds allowAggregates
      (steps ++ itemSteps resolve allowAggregates value sofar list) (written ++ listReferences list)
      (holds value ∧ ∀ compared, result = some compared → holds compared)
  | .nil, value, sofar, result, ran, steps, written, account => by
    simp only [bindItems, pure_eq_ok] at ran
    rw [itemSteps, listReferences, List.append_nil, List.append_nil, ← ran]
    exact account
  | .cons item rest, value, sofar, result, ran, steps, written, account => by
    simp only [bindItems, bind_eq_ok] at ran
    obtain ⟨item', itemRan, comparison, combined, next, nextRan, restRan⟩ := ran
    have itemAccount : Accounted resolve holds allowAggregates
        (steps ++ if isUntypedNull item then [.null value] else bindingSteps resolve allowAggregates item)
        (written ++ references item)
        ((holds value ∧ ∀ compared, sofar = some compared → holds compared) ∧ holds item') := by
      by_cases untyped : isUntypedNull item = true
      · rw [if_pos untyped] at itemRan ⊢
        rw [← Except.ok.inj itemRan]
        exact (account.step (.null value) rfl trivial (plain rfl)
          (fun both => List.forall_mem_singleton.mpr both.1)).more_written (List.subset_append_left _ _)
      · rw [if_neg untyped] at itemRan ⊢
        exact account.append (bindWith_accounted allowAggregates item item' itemRan)
    have compared := itemAccount.step (.binary .equal value item') combined trivial (plain rfl)
      (fun both => pair_hold ⟨both.1.1, both.2⟩)
    have joined : Accounted resolve holds allowAggregates
        ((steps ++ if isUntypedNull item then [.null value] else bindingSteps resolve allowAggregates item) ++
          [.binary .equal value item'] ++ sofar.toList.map fun previous => .binary .or previous comparison)
        (written ++ references item) (holds value ∧ ∀ compared, some next = some compared → holds compared) := by
      cases sofar with
      | none =>
        rw [Option.elim_none, pure_eq_ok] at nextRan
        rw [Option.toList_none, List.map_nil, List.append_nil]
        exact compared.imp (fun both => ⟨both.1.1.1, fun _ isNext => Option.some.inj isNext ▸ nextRan ▸ both.2⟩)
      | some previous =>
        rw [Option.elim_some] at nextRan
        exact (compared.step (.binary .or previous comparison) nextRan trivial (plain rfl)
          (fun both => pair_hold ⟨both.1.1.2 previous rfl, both.2⟩)).imp
            (fun both => ⟨both.1.1.1.1, fun _ isNext => Option.some.inj isNext ▸ both.2⟩)
    have whole := bindItems_accounted allowAggregates rest value (some next) result restRan joined
    rw [itemSteps, itemRan, onOk_ok, combined, onOk_ok, nextRan, onOk_ok, listReferences]
    simpa only [List.append_assoc, List.cons_append, List.nil_append] using whole

theorem bindBranches_accounted (allowAggregates : Bool) : (branches : AstBranches Statement) →
    (others : List (Expression × Expression)) → (otherwise : Option Expression) →
    bindBranches resolve allowAggregates branches = .ok (others, otherwise) →
    (∀ branch ∈ others, branch.1.resultType.id = .boolean) ∧
      Accounted resolve holds allowAggregates (branchSteps resolve allowAggregates branches)
        (branchReferences branches)
        (∀ part ∈ others.map Prod.fst ++ caseResults others otherwise, holds part)
  | .done, others, otherwise, ran => by
    simp only [bindBranches, pure_eq_ok, Prod.mk.injEq] at ran
    obtain ⟨rfl, rfl⟩ := ran
    exact ⟨List.forall_mem_nil _, Accounted.nothing (List.forall_mem_nil _)⟩
  | .otherwise result, others, otherwise, ran => by
    simp only [bindBranches, bind_eq_ok, pure_eq_ok, Prod.mk.injEq] at ran
    obtain ⟨result', resultRan, rfl, rfl⟩ := ran
    exact ⟨List.forall_mem_nil _,
      (bindWith_accounted allowAggregates result result' resultRan).imp List.forall_mem_singleton.mpr⟩
  | .when condition result rest, others, otherwise, ran => by
    simp only [bindBranches, bind_eq_ok, pure_eq_ok] at ran
    obtain ⟨condition', conditionRan, condition'', checked, result', resultRan, ⟨others', otherwise'⟩,
      restRan, same⟩ := ran
    obtain ⟨rfl, boolean⟩ := checkCondition_eq checked
    simp only [Prod.mk.injEq] at same
    obtain ⟨rfl, rfl⟩ := same
    obtain ⟨booleans, restAccount⟩ := bindBranches_accounted allowAggregates rest others' otherwise' restRan
    have account := ((bindWith_accounted allowAggregates condition condition' conditionRan).append
      (bindWith_accounted allowAggregates result result' resultRan)).append restAccount
    refine ⟨List.forall_mem_cons.mpr ⟨boolean, booleans⟩, account.imp ?_⟩
    rintro ⟨⟨conditionHolds, resultHolds⟩, restHold⟩
    obtain ⟨conditionsHold, resultsHold⟩ := List.forall_mem_append.mp restHold
    exact List.forall_mem_append.mpr ⟨List.forall_mem_cons.mpr ⟨conditionHolds, conditionsHold⟩,
      List.forall_mem_cons.mpr ⟨resultHolds, resultsHold⟩⟩

end

end Accounts

/-! ## Arguments of calls -/

section Arguments

variable {Statement : Type} {resolve : Reference → Except String Expression} {holds : Expression → Prop}

/-- The argument of an aggregate call has a property. -/
def Step.ArgumentHolds (holds : Expression → Prop) : Step → Prop
  | .aggregate _ argument => holds argument
  | _ => True

mutual

/-- The argument of every call has each property of what binds where no call is allowed. -/
theorem bindingSteps_argument
    (apart : ∀ (written : AstExpr Statement) argument, bindWith resolve false written = .ok argument →
      holds argument) (allowAggregates : Bool) :
    (expression : AstExpr Statement) →
      ∀ step ∈ bindingSteps resolve allowAggregates expression, step.ArgumentHolds holds
  | .columnRef .. | .star | .inSubquery .. | .subquery _ | .exists .. => List.forall_mem_nil _
  | .literal _ | .countStar => List.forall_mem_singleton.mpr trivial
  | .binary op left right => by
    have leftSteps := bindingSteps_argument apart allowAggregates left
    have rightSteps := bindingSteps_argument apart allowAggregates right
    rw [bindingSteps]
    split
    · exact List.forall_mem_append.mpr ⟨rightSteps, forall_mem_onOk (fun _ _ =>
        List.forall_mem_cons.mpr ⟨trivial, List.forall_mem_singleton.mpr trivial⟩)⟩
    · split
      · exact List.forall_mem_append.mpr ⟨leftSteps, forall_mem_onOk (fun _ _ =>
          List.forall_mem_cons.mpr ⟨trivial, List.forall_mem_singleton.mpr trivial⟩)⟩
      · exact List.forall_mem_append.mpr ⟨List.forall_mem_append.mpr ⟨leftSteps, rightSteps⟩,
          forall_mem_onOk (fun _ _ => forall_mem_onOk (fun _ _ => List.forall_mem_singleton.mpr trivial))⟩
  | .unary _ operand | .extract _ operand | .substring operand _ _ =>
    List.forall_mem_append.mpr ⟨bindingSteps_argument apart allowAggregates operand,
      forall_mem_onOk (fun _ _ => List.forall_mem_singleton.mpr trivial)⟩
  | .between value lower upper => by
    have bounds := List.forall_mem_append.mpr ⟨List.forall_mem_append.mpr
      ⟨bindingSteps_argument apart allowAggregates value, bindingSteps_argument apart allowAggregates lower⟩,
      bindingSteps_argument apart allowAggregates upper⟩
    refine List.forall_mem_append.mpr ⟨bounds, ?_⟩
    exact forall_mem_onOk (fun _ _ => forall_mem_onOk (fun _ _ => forall_mem_onOk (fun _ _ =>
      List.forall_mem_singleton.mpr trivial)))
  | .aggregate _ argument =>
    List.forall_mem_append.mpr ⟨bindingSteps_argument apart false argument,
      forall_mem_onOk (fun argument' ran => List.forall_mem_singleton.mpr (apart argument argument' ran))⟩
  | .like value pattern negated => by
    refine List.forall_mem_append.mpr ⟨bindingSteps_argument apart allowAggregates value, ?_⟩
    refine forall_mem_onOk (fun _ _ step member => ?_)
    obtain ⟨_, _, rfl⟩ := List.mem_map.mp member
    trivial
  | .inList value list negated => by
    refine List.forall_mem_append.mpr ⟨bindingSteps_argument apart allowAggregates value, ?_⟩
    refine forall_mem_onOk (fun value' _ => List.forall_mem_append.mpr
      ⟨itemSteps_argument apart allowAggregates list value' none, ?_⟩)
    split
    · exact forall_mem_onOk (fun _ _ => List.forall_mem_singleton.mpr trivial)
    · exact List.forall_mem_nil _
  | .caseWhen condition result rest => by
    have parts := List.forall_mem_append.mpr ⟨List.forall_mem_append.mpr
      ⟨bindingSteps_argument apart allowAggregates condition, bindingSteps_argument apart allowAggregates result⟩,
      branchSteps_argument apart allowAggregates rest⟩
    refine List.forall_mem_append.mpr ⟨parts, ?_⟩
    exact forall_mem_onOk (fun _ _ => forall_mem_onOk (fun _ _ => forall_mem_onOk (fun _ _ =>
      List.forall_mem_singleton.mpr trivial)))
  | .cast operand _ _ _ =>
    List.forall_mem_append.mpr ⟨bindingSteps_argument apart allowAggregates operand,
      forall_mem_onOk (fun _ _ => forall_mem_onOk (fun _ _ => List.forall_mem_singleton.mpr trivial))⟩

theorem itemSteps_argument
    (apart : ∀ (written : AstExpr Statement) argument, bindWith resolve false written = .ok argument →
      holds argument) (allowAggregates : Bool) :
    (list : AstExprList Statement) → (value : Expression) → (sofar : Option Expression) →
      ∀ step ∈ itemSteps resolve allowAggregates value sofar list, step.ArgumentHolds holds
  | .nil, _, _ => List.forall_mem_nil _
  | .cons item rest, value, sofar => by
    rw [itemSteps]
    refine List.forall_mem_append.mpr ⟨?_, forall_mem_onOk (fun item' _ => List.forall_mem_cons.mpr
      ⟨trivial, forall_mem_onOk (fun comparison _ => List.forall_mem_append.mpr ⟨fun step member => ?_,
        forall_mem_onOk (fun next _ => itemSteps_argument apart allowAggregates rest value (some next))⟩)⟩)⟩
    · split
      · exact List.forall_mem_singleton.mpr trivial
      · exact bindingSteps_argument apart allowAggregates item
    · obtain ⟨_, _, rfl⟩ := List.mem_map.mp member
      trivial

theorem branchSteps_argument
    (apart : ∀ (written : AstExpr Statement) argument, bindWith resolve false written = .ok argument →
      holds argument) (allowAggregates : Bool) :
    (branches : AstBranches Statement) →
      ∀ step ∈ branchSteps resolve allowAggregates branches, step.ArgumentHolds holds
  | .done => List.forall_mem_nil _
  | .otherwise result => bindingSteps_argument apart allowAggregates result
  | .when condition result rest =>
    List.forall_mem_append.mpr ⟨List.forall_mem_append.mpr
      ⟨bindingSteps_argument apart allowAggregates condition, bindingSteps_argument apart allowAggregates result⟩,
      branchSteps_argument apart allowAggregates rest⟩

end

end Arguments

end KernelLake.BindingSteps
