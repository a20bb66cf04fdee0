import KernelLake.ExpressionCompilers
import KernelLake.ExpressionText

/-!
The filter operator of the GPU backend.

The cuDF tree language has neither `LIKE` nor `SUBSTRING`. The operator takes the conjuncts of its
predicate apart: a `LIKE` and an `IN` over one `SUBSTRING` have evaluators of their own, and the rest
is one tree. Every part yields a column of truth values, the columns meet in an `AND` that passes
missing values on, and the rows that are true remain.

All of these functions work row by row, so a column is a function of the row here, and a batch is a
list of rows. `meaning` is the three-valued value of a whole predicate, with no conjunct taken out.
-/

namespace KernelLake.GpuFilters

open KernelLake.Types KernelLake.Expressions KernelLake.Evaluation KernelLake.ExpressionText
open KernelLake.ExpressionCompilers

/-! ## Strings -/

/-- `LIKE` without an escape character: `%` is any run and `_` any one character. -/
def matchesPattern : List Char → List Char → Bool
  | [], text => text.isEmpty
  | '%' :: pattern, text => text.tails.any (matchesPattern pattern)
  | '_' :: pattern, text =>
    match text with
    | [] => false
    | _ :: rest => matchesPattern pattern rest
  | expected :: pattern, text =>
    match text with
    | [] => false
    | first :: rest => first == expected && matchesPattern pattern rest

/-- The characters from a position on, at most so many. -/
def substringText (start length : Int) (text : String) : String :=
  String.ofList ((text.toList.drop start.toNat).take length.toNat)

/-- The string functions of cuDF. A slice has documented characters where its bounds are positions in
order; what it does with a negative bound is left open. -/
structure CudfStrings where
  like : String → String → Bool
  sliceStrings : Int32 → Int32 → String → String
  like_documented : ∀ pattern text, like pattern text = matchesPattern pattern.toList text.toList
  slice_documented : ∀ start stop text, 0 ≤ start.toInt → start.toInt ≤ stop.toInt →
    sliceStrings start stop text = substringText start.toInt (stop.toInt - start.toInt) text

def notStringsMessage : String := "strings column expected"
def notBooleanMessage : String := "Mask must be Boolean type"

/-- The text of a string value. -/
def textOf (datum : Datum) : Except String (Option String) :=
  match datum.ofType .string with
  | some text => .ok text
  | none => .error notStringsMessage

/-- The truth value of a boolean. -/
def truthOf (datum : Datum) : Except String (Option Bool) :=
  match datum.ofType .boolean with
  | some truth => .ok truth
  | none => .error notBooleanMessage

/-! ## Conjuncts -/

/-- The operands of nested applications of one operator, from left to right. -/
def flatten (op : BinaryOperator) : Expression → List Expression
  | .binary op' left right type =>
    if op' = op then flatten op left ++ flatten op right else [.binary op' left right type]
  | expression => [expression]

def flattenOr (expression : Expression) : List Expression := flatten .or expression

def flattenAnd (expression : Expression) : List Expression := flatten .and expression

def andTogether (first : Expression) (conjuncts : List Expression) : Expression :=
  conjuncts.foldl (fun result conjunct => .binary .and result conjunct (booleanType false)) first

/-! ## IN over one SUBSTRING -/

/-- A conjunct `SUBSTRING(operand, start, length) [NOT] IN (literals)`. -/
structure SubstringIn where
  operand : Expression
  start : Int
  length : Int
  literals : List String
  negated : Bool

/-- A `SUBSTRING` compared with a string literal. -/
def substringLeaf : Expression → Option (Expression × String)
  | .binary op (.substring operand start length type) (.literal (.string text) literalType) _ =>
    if op = .equal ∧ literalType.id = .string then some (.substring operand start length type, text) else none
  | _ => none

/-- One more leaf of the chain: its `SUBSTRING` must have the key of the first one. -/
def addLeaf (found : Option Expression × List String) (leaf : Expression) :
    Option (Option Expression × List String) :=
  match substringLeaf leaf with
  | none => none
  | some (substring, text) =>
    match found.1 with
    | none => some (some substring, found.2 ++ [text])
    | some shared =>
      if structuralKey substring = structuralKey shared then some (some shared, found.2 ++ [text]) else none

/-- The chain below a `NOT`, if there is one. -/
def chainOf : Expression → Bool × Expression
  | .unary .not operand _ => (true, operand)
  | conjunct => (false, conjunct)

def substringIn (conjunct : Expression) : Option SubstringIn :=
  match (flattenOr (chainOf conjunct).2).foldlM addLeaf (none, []) with
  | some (some (.substring operand start length _), literals) =>
    some ⟨operand, start, length, literals, (chainOf conjunct).1⟩
  | _ => none

/-! ## Opening -/

/-- An operand that is a column is read by its index; any other is a tree. -/
inductive Source
  | column (index : Nat)
  | tree (expression : Gpu.AstExpression)

structure CompiledLikeConjunct where
  value : Source
  pattern : String
  negated : Bool

structure CompiledSubstringInConjunct where
  operand : Source
  startZeroBased : Int
  length : Int
  literals : List String
  negated : Bool

/-- What opening leaves in the operator. -/
structure FilterOperator where
  astConjuncts : Option Gpu.AstExpression
  likeConjuncts : List CompiledLikeConjunct
  substringInConjuncts : List CompiledSubstringInConjunct

def compileSource : Expression → Except String Source
  | .column _ index _ => .ok (.column index)
  | expression => do return .tree (← Gpu.compile none expression)

/-- `try_compile_substring_in` of a conjunct of this shape. -/
def compileSubstringIn (shape : SubstringIn) : Except String CompiledSubstringInConjunct := do
  let operand ← compileSource shape.operand
  return ⟨operand, shape.start - 1, shape.length, shape.literals, shape.negated⟩

/-- The conjuncts gathered so far. -/
structure Gathered where
  ast : List Expression
  likes : List CompiledLikeConjunct
  substringIns : List CompiledSubstringInConjunct

def gather (gathered : Gathered) (conjunct : Expression) : Except String Gathered :=
  match conjunct with
  | .like value pattern negated => do
    let value ← compileSource value
    return { gathered with likes := gathered.likes ++ [⟨value, pattern, negated⟩] }
  | conjunct =>
    match substringIn conjunct with
    | some shape => do
      let compiled ← compileSubstringIn shape
      return { gathered with substringIns := gathered.substringIns ++ [compiled] }
    | none => .ok { gathered with ast := gathered.ast ++ [conjunct] }

def compileAst : List Expression → Except String (Option Gpu.AstExpression)
  | [] => .ok none
  | first :: conjuncts => do return some (← Gpu.compile none (andTogether first conjuncts))

/-- `FilterOperator::open` -/
def openFilter (predicate : Expression) : Except String FilterOperator := do
  let gathered ← (flattenAnd predicate).foldlM gather ⟨[], [], []⟩
  let ast ← compileAst gathered.ast
  return ⟨ast, gathered.likes, gathered.substringIns⟩

/-! ## Masks -/

/-- The binary operator `LOGICAL_AND`: a missing operand makes the result missing. -/
def logicalAnd : Option Bool → Option Bool → Option Bool
  | some left, some right => some (left && right)
  | _, _ => none

section Masks

variable (cudf : Gpu.Cudf) (strings : CudfStrings)

def evaluateSource (row : List Datum) : Source → Except String Datum
  | .column index => (row[index]?).elim (.error "column index out of range") .ok
  | .tree expression => Gpu.evaluate cudf (Gpu.tablesOf none row) expression

def evaluateLike (row : List Datum) (like : CompiledLikeConjunct) : Except String (Option Bool) := do
  let text ← textOf (← evaluateSource cudf row like.value)
  return text.map (fun text => strings.like like.pattern text != like.negated)

/-- The bounds of the slice are cast to 32 bits. -/
def sliced (startZeroBased length : Int) (text : String) : String :=
  strings.sliceStrings (Int32.ofInt startZeroBased) (Int32.ofInt (startZeroBased + length)) text

/-- The comparisons with the literals, folded by `NULL_LOGICAL_OR`. -/
def foldEquals (substring : Option String) : List String → Option Bool
  | [] => none
  | first :: literals =>
    literals.foldl (fun mask literal => kleeneOr mask (substring.map (· == literal)))
      (substring.map (· == first))

def evaluateSubstringIn (row : List Datum) (conjunct : CompiledSubstringInConjunct) :
    Except String (Option Bool) := do
  let text ← textOf (← evaluateSource cudf row conjunct.operand)
  let mask := foldEquals (text.map (sliced strings conjunct.startZeroBased conjunct.length)) conjunct.literals
  return if conjunct.negated then mask.map not else mask

/-- A mask meets the masks before it, if there are any. -/
def meet (mask : Option (Option Bool)) (other : Option Bool) : Option (Option Bool) :=
  match mask with
  | none => some other
  | some mask => some (logicalAnd mask other)

/-- The mask of one row. The evaluation of the tree comes first, then the other conjuncts in order. -/
def rowMask (operator : FilterOperator) (row : List Datum) : Except String (Option Bool) := do
  let ast ← operator.astConjuncts.mapM (fun tree => do truthOf (← Gpu.evaluate cudf (Gpu.tablesOf none row) tree))
  let likes ← operator.likeConjuncts.mapM (evaluateLike cudf strings row)
  let substringIns ← operator.substringInConjuncts.mapM (evaluateSubstringIn cudf strings row)
  match (likes ++ substringIns).foldl meet ast with
  | some mask => .ok mask
  | none => .error notBooleanMessage

/-- The rows of a batch whose mask is true. -/
def filterBatch (operator : FilterOperator) (batch : List (List Datum)) : Except String (List (List Datum)) := do
  let mask ← batch.mapM (rowMask cudf strings operator)
  return ((batch.zip mask).filter (fun entry => entry.2 == some true)).map Prod.fst

/-- The next batch with a row left, and the batches after it. -/
def next (operator : FilterOperator) : List (List (List Datum)) →
    Except String (Option (List (List Datum) × List (List (List Datum))))
  | [] => .ok none
  | batch :: batches => do
    let filtered ← filterBatch cudf strings operator batch
    if filtered.isEmpty then next operator batches else return some (filtered, batches)

end Masks

/-! ## The meaning of a predicate -/

section Meaning

variable (cudf : Gpu.Cudf) (row : List Datum)

def meaningOfLiteral (type : DataType) (value : LiteralStorage) (isValid : Bool) : Except String Datum := do
  Gpu.evaluate cudf (Gpu.tablesOf none row) (← Gpu.makeLiteral type value isValid)

/-- The three-valued value of an expression on a row, with SQL's `LIKE` and `SUBSTRING`. The other
operators are those of the tree language. -/
def meaning : Expression → Except String Datum
  | .column _ index _ => (row[index]?).elim (.error "column index out of range") .ok
  | .literal value type => meaningOfLiteral cudf row type value (value ≠ .monostate)
  | .binary op left right _ => do
    let left ← meaning left
    let right ← meaning right
    Gpu.evaluateBinary cudf (Gpu.toAstOperator op) left right
  | .unary op operand _ =>
    match op with
    | .not => do Gpu.evaluateUnary cudf .not (← meaning operand)
    | .isNull => do Gpu.evaluateUnary cudf .isNull (← meaning operand)
    | .isNotNull => do Gpu.evaluateUnary cudf .not (← Gpu.evaluateUnary cudf .isNull (← meaning operand))
    | .negate => do
      let zero ← meaningOfLiteral cudf row operand.resultType (.int64 0) true
      Gpu.evaluateBinary cudf .sub zero (← meaning operand)
  | .between value lower upper => do
    let value ← meaning value
    let above ← Gpu.evaluateBinary cudf .greaterEqual value (← meaning lower)
    let below ← Gpu.evaluateBinary cudf .lessEqual value (← meaning upper)
    Gpu.evaluateBinary cudf .nullLogicalAnd above below
  | .cast operand type => do Gpu.evaluateUnary cudf (← Gpu.castOperator type) (← meaning operand)
  | .like value pattern negated => do
    let text ← textOf (← meaning value)
    return ⟨.boolean, text.map (fun text => matchesPattern pattern.toList text.toList != negated)⟩
  | .substring operand start length _ => do
    let text ← textOf (← meaning operand)
    return ⟨.string, text.map (substringText (start - 1) length)⟩
  | .extract .. => .error Gpu.unrecognizedMessage
  | .caseWhen .. => .error Gpu.unrecognizedMessage
  | .aggregate .. => .error Gpu.aggregateMessage
  | .countStar _ => .error Gpu.aggregateMessage

/-- The truth value of a predicate on a row. -/
def truth (predicate : Expression) : Except String (Option Bool) := do
  truthOf (← meaning cudf row predicate)

end Meaning

end KernelLake.GpuFilters
