import KernelLake.KeyTrees

/-!
Reading a key back.

The reader takes a key apart from the left, with the marks of the places where the text alone does not
say how to go on. An expression is a core followed by any number of tails: the operators that stand
behind their operand. How many of them belong to the upper bound of a `BETWEEN` is one of the marks.
Read with marks that agree with its own, every expression's key gives the expression's tree.
-/

namespace KernelLake.KeyReading

open KernelLake.Types KernelLake.Expressions KernelLake.Evaluation KernelLake.Binder KernelLake.BoundTypes
open KernelLake.ExpressionText KernelLake.Pruning KernelLake.KeyTrees
open KernelLake.Library.Texts KernelLake.Library.Doubles

/-! ## The reader -/

/-- How the core of an expression begins. -/
inductive Opener
  | leaf (tree : KeyTree)
  | special | column | string | binary | not | negate | cast | extract | substring | caseWhen
  | aggregate (function : AggregateFunction)

def openers : List (List Char × Opener) :=
  [("NULL".toList, .leaf .null), ("TRUE".toList, .leaf (.bool true)), ("FALSE".toList, .leaf (.bool false)),
    ("nan".toList, .special), ("inf".toList, .special), ("#".toList, .column), ("'".toList, .string),
    ("(".toList, .binary), ("NOT (".toList, .not), ("-".toList, .negate), ("CAST(".toList, .cast),
    ("EXTRACT(".toList, .extract), ("SUBSTRING(".toList, .substring), ("CASE".toList, .caseWhen),
    ("COUNT(*)".toList, .leaf .countStar), ("COUNT(DISTINCT ".toList, .aggregate .countDistinct),
    ("COUNT(".toList, .aggregate .count), ("SUM(".toList, .aggregate .sum), ("MIN(".toList, .aggregate .min),
    ("MAX(".toList, .aggregate .max), ("AVG(".toList, .aggregate .avg)]

def operators : List (List Char × BinaryOperator) :=
  [("+ ".toList, .add), ("- ".toList, .subtract), ("* ".toList, .multiply), ("/ ".toList, .divide),
    ("= ".toList, .equal), ("!= ".toList, .notEqual), ("< ".toList, .less), ("<= ".toList, .lessEqual),
    ("> ".toList, .greater), (">= ".toList, .greaterEqual), ("AND ".toList, .and), ("OR ".toList, .or)]

def dateParts : List (List Char × DatePart) :=
  [("YEAR".toList, .year), ("MONTH".toList, .month), ("DAY".toList, .day)]

def typeNames : List (List Char × TypeId) :=
  [("BOOLEAN".toList, .boolean), ("INT32".toList, .int32), ("INT64".toList, .int64),
    ("UINT32".toList, .uint32), ("UINT64".toList, .uint64), ("FLOAT32".toList, .float32),
    ("FLOAT64".toList, .float64), ("STRING".toList, .string), ("DATE32".toList, .date32),
    ("TIMESTAMP".toList, .timestamp), ("DECIMAL".toList, .decimal)]

/-- How an operator behind its operand begins. -/
inductive Tail
  | isNull | isNotNull | between
  | like (negated : Bool)

def tailWords : List (List Char × Tail) :=
  [(" IS NULL".toList, .isNull), (" IS NOT NULL".toList, .isNotNull), (" BETWEEN ".toList, .between),
    (" LIKE '".toList, .like false), (" NOT LIKE '".toList, .like true)]

/-- How a `CASE` goes on. -/
inductive BranchOpener
  | done | otherwise | when

def branchWords : List (List Char × BranchOpener) :=
  [(" END".toList, .done), (" ELSE ".toList, .otherwise), (" WHEN ".toList, .when)]

def isNumberPart (character : Char) : Bool :=
  character.isDigit || character == '.'

def startsWithDigit : List Char → Bool
  | [] => false
  | character :: _ => character.isDigit

def readNumber (marks : List Mark) (text : List Char) : Option (KeyTree × List Mark × List Char) :=
  let (digits, text) := readRun isNumberPart text
  match marks with
  | .integer kind :: marks => some (.integer (readNatural digits) kind, marks, text)
  | .double magnitude kind :: marks => some (.double magnitude kind, marks, text)
  | _ => none

def readSpecial (marks : List Mark) (text : List Char) : Option (KeyTree × List Mark × List Char) :=
  match marks with
  | .double magnitude kind :: marks => some (.double magnitude kind, marks, text)
  | _ => none

/-- A quoted text up to its closing quote. One with a quote in it is read off its mark. -/
def readQuoted (marks : List Mark) (text : List Char) : Option (List Char × List Mark × List Char) :=
  match marks with
  | .text expected :: marks =>
    if '\'' ∈ expected then do return (expected, marks, ← afterWord "'".toList (← afterWord expected text))
    else do
      let (value, text) := readRun (· != '\'') text
      return (value, marks, ← afterWord "'".toList text)
  | _ => none

def readKind (text : List Char) : Option (Kind × List Char) := do
  let (id, text) ← firstWord typeNames text
  if id = .decimal then do
    let (_, text) := readRun isIntegerPart (← afterWord "(".toList text)
    let (scale, text) := readRun isIntegerPart (← afterWord ",".toList text)
    let text ← afterWord ")".toList text
    return (⟨id, readInteger scale⟩, (afterWord " NOT NULL".toList text).getD text)
  else return (⟨id, 0⟩, (afterWord " NOT NULL".toList text).getD text)

mutual

/-- An expression with at most `limit` tails, if there is a limit. -/
def readTree : Nat → Option Nat → List Mark → List Char → Option (KeyTree × List Mark × List Char)
  | 0, _, _, _ => none
  | fuel + 1, limit, marks, text => do
    let (tree, marks, text) ← readCore fuel marks text
    readTails fuel limit tree marks text

def readCore : Nat → List Mark → List Char → Option (KeyTree × List Mark × List Char)
  | 0, _, _ => none
  | fuel + 1, marks, text =>
    if startsWithDigit text then readNumber marks text
    else
      match firstWord openers text with
      | none => none
      | some (.leaf tree, text) => some (tree, marks, text)
      | some (.special, text) => readSpecial marks text
      | some (.column, text) =>
        let (digits, text) := readRun Char.isDigit text
        some (.column (readNatural digits), marks, text)
      | some (.string, text) => do
        let (value, marks, text) ← readQuoted marks text
        return (.string value, marks, text)
      | some (.binary, text) => do
        let (left, marks, text) ← readTree fuel none marks text
        let (op, text) ← firstWord operators (← afterWord " ".toList text)
        let (right, marks, text) ← readTree fuel none marks text
        return (.binary op left right, marks, ← afterWord ")".toList text)
      | some (.not, text) => do
        let (operand, marks, text) ← readTree fuel none marks text
        return (.unary .not operand, marks, ← afterWord ")".toList text)
      | some (.negate, text) => do
        let (operand, marks, text) ← readCore fuel marks text
        return (.unary .negate operand, marks, text)
      | some (.cast, text) => do
        let (operand, marks, text) ← readTree fuel none marks text
        let (kind, text) ← readKind (← afterWord " AS ".toList text)
        return (.cast operand kind, marks, ← afterWord ")".toList text)
      | some (.extract, text) => do
        let (part, text) ← firstWord dateParts text
        let (operand, marks, text) ← readTree fuel none marks (← afterWord " FROM ".toList text)
        return (.extract part operand, marks, ← afterWord ")".toList text)
      | some (.substring, text) => do
        let (operand, marks, text) ← readTree fuel none marks text
        let (start, text) := readRun isIntegerPart (← afterWord ", ".toList text)
        let (length, text) := readRun isIntegerPart (← afterWord ", ".toList text)
        return (.substring operand (readInteger start) (readInteger length), marks,
          ← afterWord ")".toList text)
      | some (.caseWhen, text) => do
        let (branches, marks, text) ← readBranches fuel marks text
        return (.caseWhen branches, marks, text)
      | some (.aggregate function, text) => do
        let (argument, marks, text) ← readTree fuel none marks text
        return (.aggregate function argument, marks, ← afterWord ")".toList text)

/-- The tails that follow what has been read so far. -/
def readTails : Nat → Option Nat → KeyTree → List Mark → List Char →
    Option (KeyTree × List Mark × List Char)
  | 0, _, _, _, _ => none
  | fuel + 1, limit, tree, marks, text =>
    if limit = some 0 then some (tree, marks, text)
    else
      match firstWord tailWords text with
      | none => some (tree, marks, text)
      | some (.isNull, text) => readTails fuel (limit.map (· - 1)) (.unary .isNull tree) marks text
      | some (.isNotNull, text) => readTails fuel (limit.map (· - 1)) (.unary .isNotNull tree) marks text
      | some (.like negated, text) => do
        let (pattern, marks, text) ← readQuoted marks text
        readTails fuel (limit.map (· - 1)) (.like tree pattern negated) marks text
      | some (.between, text) => do
        let (lower, marks, text) ← readTree fuel none marks text
        let text ← afterWord " AND ".toList text
        match marks with
        | .bound count :: marks => do
          let (upper, marks, text) ← readTree fuel (some count) marks text
          readTails fuel (limit.map (· - 1)) (.between tree lower upper) marks text
        | _ => none

/-- The branches of a `CASE` up to its `END`. -/
def readBranches : Nat → List Mark → List Char → Option (KeyBranches × List Mark × List Char)
  | 0, _, _ => none
  | fuel + 1, marks, text => do
    let (opener, text) ← firstWord branchWords text
    match opener with
    | .done => return (.done, marks, text)
    | .otherwise => do
      let (result, marks, text) ← readTree fuel none marks text
      return (.otherwise result, marks, ← afterWord " END".toList text)
    | .when => do
      let (condition, marks, text) ← readTree fuel none marks text
      let (result, marks, text) ← readTree fuel none marks (← afterWord " THEN ".toList text)
      let (rest, marks, text) ← readBranches fuel marks text
      return (.when condition result rest, marks, text)

end

/-! ## Numbers -/

/-- A text that a double's magnitude is written as. -/
def NumberText (text : List Char) : Prop :=
  text = "nan".toList ∨ text = "inf".toList ∨
    ((∀ character ∈ text, isNumberPart character = true) ∧ startsWithDigit text = true)

theorem numberText_fixed (whole fraction zeros : Nat) :
    NumberText (whole.repr.toList ++ (".".toList ++ (List.replicate zeros '0' ++ fraction.repr.toList))) := by
  refine .inr (.inr ⟨?_, ?_⟩)
  · have digits (value : Nat) : ∀ character ∈ value.repr.toList, isNumberPart character = true := by
      intro character member
      simp [isNumberPart, isDigit_of_mem_repr member]
    refine List.forall_mem_append.mpr ⟨digits whole, List.forall_mem_append.mpr ⟨by simp [isNumberPart], ?_⟩⟩
    refine List.forall_mem_append.mpr ⟨?_, digits fraction⟩
    intro character member
    rw [List.eq_of_mem_replicate member]
    rfl
  · obtain ⟨digit, rest, shape, isDigit⟩ := repr_eq_cons whole
    rw [shape]
    exact isDigit

theorem toList_fixed (sign : String) (whole fraction zeros : Nat) :
    (sign ++ toString whole ++ "." ++ String.ofList (List.replicate zeros '0') ++ toString fraction).toList =
      sign.toList ++ (whole.repr.toList ++ (".".toList ++
        (List.replicate zeros '0' ++ fraction.repr.toList))) := by
  simp only [String.toList_append, List.append_assoc, String.toList_ofList]
  rfl

/-- A double is written as its magnitude behind a minus sign, if it has one. -/
theorem toList_formatFixed (value : Float) :
    ∃ text, (formatFixed value).toList = (if isNegative value then "-".toList else []) ++ text ∧
      NumberText text := by
  unfold formatFixed isNegative
  cases value.toModel.unpack with
  | notANumber => exact ⟨"nan".toList, rfl, .inl rfl⟩
  | infinity sign => cases sign <;> exact ⟨"inf".toList, rfl, .inr (.inl rfl)⟩
  | zero sign =>
    have zeros : NumberText "0.000000".toList := .inr (.inr ⟨by simp [isNumberPart], rfl⟩)
    cases sign <;> exact ⟨"0.000000".toList, rfl, zeros⟩
  | finite sign mantissa exponent nonzero =>
    dsimp only
    generalize roundHalfEven _ _ = scaled
    generalize scaled / 10 ^ 6 = whole
    generalize scaled % 10 ^ 6 = fraction
    refine ⟨_, ?_, numberText_fixed whole fraction (6 - (toString fraction).length)⟩
    rw [toList_fixed]
    cases sign <;> rfl

/-- An integer is written as its magnitude behind a minus sign, if it has one. -/
theorem toList_toString_int (value : Int) :
    (toString value).toList = (if value < 0 then "-".toList else []) ++ value.natAbs.repr.toList := by
  cases value with
  | ofNat magnitude => rfl
  | negSucc magnitude =>
    have below : Int.negSucc magnitude < 0 := Int.negSucc_lt_zero magnitude
    rw [if_pos below]
    change (Int.repr (Int.negSucc magnitude)).toList = _
    simp [Int.repr]

/-! ## What a reader needs -/

mutual

/-- How much fuel the reader needs for an expression's core and for all that stands in its tails. -/
def cost : Expression → Nat
  | .column .. => 1
  | .literal .. => 2
  | .binary _ left right _ => (cost left + tails left + 1) + (cost right + tails right + 1) + 1
  | .unary _ operand _ => cost operand + tails operand + 2
  | .cast operand _ => cost operand + tails operand + 2
  | .extract _ operand _ => cost operand + tails operand + 2
  | .substring operand _ _ _ => cost operand + tails operand + 2
  | .between value lower upper =>
    cost value + (cost lower + tails lower + 1) + (cost upper + tails upper + 1) + 1
  | .like value _ _ => cost value + 1
  | .caseWhen branches _ => branchCost branches + 1
  | .aggregate _ argument _ => cost argument + tails argument + 2
  | .countStar _ => 1

def branchCost : CaseBranches → Nat
  | .done => 1
  | .otherwise result => cost result + tails result + 2
  | .when condition result rest =>
    (cost condition + tails condition + 1) + (cost result + tails result + 1) + branchCost rest + 1

end

theorem cost_pos (expression : Expression) : 0 < cost expression := by
  cases expression <;> simp only [cost] <;> omega

/-- A text that continues neither a number nor an expression. -/
structure Ends (text : List Char) : Prop where
  number : Leaves isNumberPart text
  tail : firstWord tailWords text = none

/-- The reader takes an expression's text for the expression's tree. -/
structure Reads (expression : Expression) : Prop where
  core : tails expression = 0 → ∀ {found more text fuel}, MarksAgree found (marks expression) →
    Leaves isNumberPart text → cost expression ≤ fuel →
    readCore fuel (found ++ more) (keyText expression ++ text) = some (treeOf expression, more, text)
  tree : ∀ {found more text fuel limit}, MarksAgree found (marks expression) →
    Leaves isNumberPart text → cost expression ≤ fuel →
    (∀ count, limit = some count → tails expression ≤ count) →
    readTree (fuel + tails expression + 1) limit (found ++ more) (keyText expression ++ text) =
      readTails fuel (limit.map (· - tails expression)) (treeOf expression) more text

/-- The reader takes the text of a `CASE`'s branches for their trees. -/
def ReadsBranches (branches : CaseBranches) : Prop :=
  ∀ {found more text fuel}, MarksAgree found (branchMarks branches) → branchCost branches ≤ fuel →
    readBranches fuel (found ++ more) (branchText branches ++ (" END".toList ++ text)) =
      some (branchTree branches, more, text)

theorem readTails_ended {fuel : Nat} {limit : Option Nat} {tree : KeyTree} {marks : List Mark}
    {text : List Char} (ended : limit = some 0 ∨ firstWord tailWords text = none) :
    readTails (fuel + 1) limit tree marks text = some (tree, marks, text) := by
  rw [readTails]
  split
  · rfl
  · rename_i unlimited
    rw [ended.resolve_left unlimited]

theorem reads_of_core {expression : Expression} (closed : tails expression = 0)
    (core : ∀ {found more text fuel}, MarksAgree found (marks expression) → Leaves isNumberPart text →
      cost expression ≤ fuel →
      readCore fuel (found ++ more) (keyText expression ++ text) = some (treeOf expression, more, text)) :
    Reads expression where
  core _ := core
  tree := by
    intro found more text fuel limit agree leaves enough _
    rw [closed, Nat.add_zero, readTree, core agree leaves enough]
    simp

section Operands

variable {expression : Expression} (reads : Reads expression) {found more : List Mark} {text : List Char}
  {fuel : Nat} (agree : MarksAgree found (marks expression))
  (enough : cost expression + tails expression + 1 ≤ fuel)

include reads agree enough

/-- An expression with all its tails, read up to where it ends. -/
theorem reads_whole (ends : Ends text) :
    readTree fuel none (found ++ more) (keyText expression ++ text) = some (treeOf expression, more, text) := by
  have positive := cost_pos expression
  obtain ⟨rest, rfl⟩ : ∃ rest, fuel = (rest + 1) + tails expression + 1 :=
    ⟨fuel - tails expression - 2, by omega⟩
  rw [reads.tree agree ends.number (by omega) (fun _ limited => by cases limited)]
  exact readTails_ended (.inr ends.tail)

/-- An expression with all its tails, read by their number. -/
theorem reads_counted (leaves : Leaves isNumberPart text) :
    readTree fuel (some (tails expression)) (found ++ more) (keyText expression ++ text) =
      some (treeOf expression, more, text) := by
  have positive := cost_pos expression
  obtain ⟨rest, rfl⟩ : ∃ rest, fuel = (rest + 1) + tails expression + 1 :=
    ⟨fuel - tails expression - 2, by omega⟩
  rw [reads.tree agree leaves (by omega) (fun _ limited => (Option.some.inj limited).le)]
  exact readTails_ended (.inl (by simp))

end Operands

theorem exists_succ {needed fuel : Nat} (enough : needed + 1 ≤ fuel) :
    ∃ rest, fuel = rest + 1 ∧ needed ≤ rest :=
  ⟨fuel - 1, by omega, by omega⟩

/-! ## Leaves -/

theorem reads_column (name : String) (columnIndex : Nat) (type : DataType) :
    Reads (.column name columnIndex type) := by
  refine reads_of_core rfl fun {found more text fuel} agree leaves enough => ?_
  obtain ⟨rest, rfl, _⟩ := exists_succ (show 0 + 1 ≤ fuel from enough)
  obtain rfl := List.forall₂_nil_right_iff.mp agree
  have digits : Leaves Char.isDigit text := fun character member => by
    have outside := leaves character member
    simp only [isNumberPart, Bool.or_eq_false_iff] at outside
    exact outside.1
  have opened : firstWord openers ("#".toList ++ (columnIndex.repr.toList ++ text)) =
      some (.column, columnIndex.repr.toList ++ text) := rfl
  have other : startsWithDigit ("#".toList ++ (columnIndex.repr.toList ++ text)) = false := rfl
  rw [keyText_column, List.append_assoc, readCore]
  simp only [other, opened, readRun_append (fun _ => isDigit_of_mem_repr) digits, readNatural_repr]
  rfl

/-- A word that stands for itself. -/
theorem readCore_leaf {word : List Char} {tree : KeyTree} {marks : List Mark} {text : List Char} {fuel : Nat}
    (other : startsWithDigit (word ++ text) = false)
    (opened : firstWord openers (word ++ text) = some (.leaf tree, text)) :
    readCore (fuel + 1) marks (word ++ text) = some (tree, marks, text) := by
  rw [readCore, opened]
  simp only [other]
  rfl

theorem reads_countStar (type : DataType) : Reads (.countStar type) := by
  refine reads_of_core rfl fun {found more text fuel} agree leaves enough => ?_
  obtain ⟨rest, rfl, _⟩ := exists_succ (show 0 + 1 ≤ fuel from enough)
  obtain rfl := List.forall₂_nil_right_iff.mp agree
  exact @readCore_leaf "COUNT(*)".toList _ _ _ _ rfl rfl

/-- A number's digits are read for its mark. -/
theorem readCore_number {digits text : List Char} {marks more : List Mark} {tree : KeyTree} {fuel : Nat}
    (first : startsWithDigit (digits ++ text) = true)
    (number : readNumber marks (digits ++ text) = some (tree, more, text)) :
    readCore (fuel + 1) marks (digits ++ text) = some (tree, more, text) := by
  rw [readCore, if_pos first, number]

theorem startsWithDigit_append {first : List Char} (digit : startsWithDigit first = true) (second : List Char) :
    startsWithDigit (first ++ second) = true := by
  cases first with
  | nil => cases digit
  | cons character rest => exact digit

/-- A signed number is read once its magnitude is. -/
theorem readCore_signed {negative : Bool} {body text : List Char} {marks more : List Mark} {tree : KeyTree}
    {fuel : Nat}
    (magnitude : ∀ fuel, readCore (fuel + 1) marks (body ++ text) = some (tree, more, text)) :
    readCore (fuel + 2) marks ((if negative then "-".toList else []) ++ body ++ text) =
      some (signed negative tree, more, text) := by
  cases negative with
  | false => exact magnitude (fuel + 1)
  | true =>
    have opened : firstWord openers ("-".toList ++ (body ++ text)) = some (.negate, body ++ text) := rfl
    have other : startsWithDigit ("-".toList ++ (body ++ text)) = false := rfl
    rw [if_pos rfl, List.append_assoc, readCore]
    simp only [other, opened, magnitude fuel]
    rfl

theorem readCore_integer (magnitude : Nat) (kind : Kind) {more : List Mark} {text : List Char}
    (leaves : Leaves isNumberPart text) (fuel : Nat) :
    readCore (fuel + 1) (.integer kind :: more) (magnitude.repr.toList ++ text) =
      some (.integer magnitude kind, more, text) := by
  obtain ⟨digit, digits, shape, isDigit⟩ := repr_eq_cons magnitude
  have inside : ∀ character ∈ magnitude.repr.toList, isNumberPart character = true := by
    intro character member
    simp [isNumberPart, isDigit_of_mem_repr member]
  refine readCore_number (startsWithDigit_append (by rw [shape]; exact isDigit) text) ?_
  rw [readNumber, readRun_append inside leaves]
  simp only [readNatural_repr]

theorem readCore_double {body : List Char} (number : NumberText body) (magnitude : Float) (kind : Kind)
    {more : List Mark} {text : List Char} (leaves : Leaves isNumberPart text) (fuel : Nat) :
    readCore (fuel + 1) (.double magnitude kind :: more) (body ++ text) =
      some (.double magnitude kind, more, text) := by
  rcases number with rfl | rfl | ⟨inside, digit⟩
  · have opened : firstWord openers ("nan".toList ++ text) = some (.special, text) := rfl
    have other : startsWithDigit ("nan".toList ++ text) = false := rfl
    rw [readCore, opened]
    simp only [other]
    rfl
  · have opened : firstWord openers ("inf".toList ++ text) = some (.special, text) := rfl
    have other : startsWithDigit ("inf".toList ++ text) = false := rfl
    rw [readCore, opened]
    simp only [other]
    rfl
  · refine readCore_number (startsWithDigit_append digit text) ?_
    rw [readNumber, readRun_append inside leaves]

/-- A quoted text is read with a mark that agrees with it. -/
theorem readQuoted_append {value : List Char} {mark : Mark} (agrees : mark.Agrees (.text value))
    (more : List Mark) (text : List Char) :
    readQuoted (mark :: more) (value ++ ("'".toList ++ text)) = some (value, more, text) := by
  have plainly (plain : '\'' ∉ value) :
      readRun (· != '\'') (value ++ ("'".toList ++ text)) = (value, "'".toList ++ text) := by
    refine readRun_append (fun character member => ?_) (leaves_cons rfl _)
    simp only [bne_iff_ne, ne_eq]
    rintro rfl
    exact plain member
  cases mark with
  | text expected =>
    rw [readQuoted]
    rcases agrees with rfl | ⟨plainExpected, plainValue⟩
    · split
      · simp only [afterWord_append, Option.bind_eq_bind, Option.bind_some]
        rfl
      · rename_i plain
        simp only [plainly plain, afterWord_append]
        rfl
    · rw [if_neg plainExpected]
      simp only [plainly plainValue, afterWord_append]
      rfl
  | _ => cases agrees

theorem keyText_literal (value : LiteralStorage) (type : DataType) :
    keyText (.literal value type) = (literalToString value).toList := by
  simp only [keyText, structuralKey, render]

theorem marksAgree_single {found : List Mark} {mark : Mark} (agree : MarksAgree found [mark]) :
    ∃ own, found = [own] ∧ own.Agrees mark := by
  obtain ⟨own, rest, agrees, none, rfl⟩ := List.forall₂_cons_right_iff.mp agree
  exact ⟨own, by rw [List.forall₂_nil_right_iff.mp none], agrees⟩

theorem reads_literal (value : LiteralStorage) (type : DataType) : Reads (.literal value type) := by
  refine reads_of_core rfl fun {found more text fuel} agree leaves enough => ?_
  obtain ⟨rest, rfl⟩ : ∃ rest, fuel = rest + 2 := ⟨fuel - 2, by simp only [cost] at enough; omega⟩
  rw [keyText_literal]
  cases value with
  | monostate =>
    obtain rfl := List.forall₂_nil_right_iff.mp agree
    exact @readCore_leaf "NULL".toList _ _ _ _ rfl rfl
  | bool value =>
    obtain rfl := List.forall₂_nil_right_iff.mp agree
    cases value with
    | false => exact @readCore_leaf "FALSE".toList _ _ _ _ rfl rfl
    | true => exact @readCore_leaf "TRUE".toList _ _ _ _ rfl rfl
  | int64 value =>
    obtain ⟨own, rfl, agrees⟩ := marksAgree_single agree
    obtain rfl : own = .integer (kindOf type) := by cases own <;> exact agrees
    have sign : (if value.toInt < 0 then "-".toList else []) =
        if decide (value.toInt < 0) = true then "-".toList else [] := by simp
    rw [literalToString, toList_toString_int, sign]
    exact readCore_signed (readCore_integer _ _ leaves)
  | double value =>
    obtain ⟨own, rfl, agrees⟩ := marksAgree_single agree
    obtain rfl : own = .double (magnitudeOf value) (kindOf type) := by cases own <;> exact agrees
    obtain ⟨body, written, number⟩ := toList_formatFixed value
    rw [literalToString, written]
    exact readCore_signed (readCore_double number _ _ leaves)
  | string value =>
    obtain ⟨own, rfl, agrees⟩ := marksAgree_single agree
    have written : (literalToString (.string value)).toList ++ text =
        "'".toList ++ (value.toList ++ ("'".toList ++ text)) := by
      simp [literalToString, String.toList_append]
    have opened : firstWord openers ("'".toList ++ (value.toList ++ ("'".toList ++ text))) =
      some (.string, value.toList ++ ("'".toList ++ text)) := rfl
    have other : startsWithDigit ("'".toList ++ (value.toList ++ ("'".toList ++ text))) = false := rfl
    rw [written, readCore]
    simp only [other, opened, List.singleton_append, readQuoted_append agrees]
    rfl

/-! ## Operators in parentheses -/

section Enclosed

theorem ends_parenthesis (text : List Char) : Ends (")".toList ++ text) :=
  ⟨leaves_cons rfl _, rfl⟩

theorem reads_binary {left right : Expression} (op : BinaryOperator) (type : DataType)
    (leftReads : Reads left) (rightReads : Reads right) : Reads (.binary op left right type) := by
  refine reads_of_core rfl fun {found more text fuel} agree leaves enough => ?_
  obtain ⟨rest, rfl, room⟩ := exists_succ
    (show (cost left + tails left + 1) + (cost right + tails right + 1) + 1 ≤ fuel from enough)
  obtain ⟨first, second, rfl, leftAgree, rightAgree⟩ := marksAgree_append agree
  have opened (text : List Char) : firstWord openers ("(".toList ++ text) = some (.binary, text) := rfl
  have other (text : List Char) : startsWithDigit ("(".toList ++ text) = false := rfl
  have ends (text : List Char) : Ends (" ".toList ++ (op.toString.toList ++ (" ".toList ++ text))) :=
    ⟨leaves_cons rfl _, by cases op <;> rfl⟩
  have operator (text : List Char) :
      firstWord operators (op.toString.toList ++ (" ".toList ++ text)) = some (op, text) := by
    cases op <;> rfl
  rw [keyText_binary, readCore]
  simp only [List.append_assoc, other, opened, reads_whole leftReads leftAgree (show _ ≤ rest by omega) (ends _),
    operator, reads_whole rightReads rightAgree (show _ ≤ rest by omega) (ends_parenthesis _), afterWord_append,
    Option.bind_eq_bind, Option.bind_some]
  rfl

theorem reads_not {operand : Expression} (type : DataType) (reads : Reads operand) :
    Reads (.unary .not operand type) := by
  refine reads_of_core rfl fun {found more text fuel} agree leaves enough => ?_
  obtain ⟨rest, rfl, room⟩ := exists_succ (show (cost operand + tails operand + 1) + 1 ≤ fuel from enough)
  have opened (text : List Char) : firstWord openers ("NOT (".toList ++ text) = some (.not, text) := rfl
  have other (text : List Char) : startsWithDigit ("NOT (".toList ++ text) = false := rfl
  rw [keyText_unary, readCore]
  simp only [List.append_assoc, other, opened, reads_whole reads agree room (ends_parenthesis _)]
  rfl

/-- The operand of a minus sign is a number, so that no tail of its own follows it. -/
theorem reads_negate {operand : Expression} (type : DataType) (closed : tails operand = 0)
    (reads : Reads operand) : Reads (.unary .negate operand type) := by
  refine reads_of_core rfl fun {found more text fuel} agree leaves enough => ?_
  obtain ⟨rest, rfl, room⟩ := exists_succ (show (cost operand + tails operand + 1) + 1 ≤ fuel from enough)
  have opened (text : List Char) : firstWord openers ("-".toList ++ text) = some (.negate, text) := rfl
  have other (text : List Char) : startsWithDigit ("-".toList ++ text) = false := rfl
  rw [keyText_unary, readCore]
  simp only [List.append_assoc, other, opened, reads.core closed agree leaves (show _ ≤ rest by omega)]
  rfl

/-- The text of a type is read for what the type contributes to a value. -/
theorem readKind_append (type : DataType) (text : List Char) :
    readKind (type.toString.toList ++ (")".toList ++ text)) = some (kindOf type, ")".toList ++ text) := by
  obtain ⟨id, nullable, precision, scale⟩ := type
  have suffix : (afterWord " NOT NULL".toList
      ((if nullable = true then "" else " NOT NULL").toList ++ (")".toList ++ text))).getD
        ((if nullable = true then "" else " NOT NULL").toList ++ (")".toList ++ text)) = ")".toList ++ text := by
    cases nullable <;> rfl
  by_cases decimal : id = .decimal
  · subst decimal
    have written : (DataType.toString ⟨.decimal, nullable, precision, scale⟩).toList ++ (")".toList ++ text) =
        "DECIMAL".toList ++ ("(".toList ++ ((precision.getD 0).repr.toList ++ (",".toList ++
          ((scale.getD 0).repr.toList ++ (")".toList ++
            ((if nullable = true then "" else " NOT NULL").toList ++ (")".toList ++ text))))))) := by
      simp only [DataType.toString, if_true, String.toList_append, List.append_assoc]
      rfl
    have named (text : List Char) : firstWord typeNames ("DECIMAL".toList ++ text) = some (.decimal, text) := rfl
    have numeral (value : Int) (mark : Char) (outside : isIntegerPart mark = false) (text : List Char) :
        readRun isIntegerPart (value.repr.toList ++ ([mark] ++ text)) = (value.repr.toList, [mark] ++ text) :=
      readRun_append (fun _ => isIntegerPart_of_mem_repr) (leaves_cons outside _)
    rw [written, readKind, named]
    simp only [Option.bind_eq_bind, Option.bind_some, if_true, afterWord_append]
    have upToComma := numeral (precision.getD 0) ',' rfl
    have upToEnd := numeral (scale.getD 0) ')' rfl
    rw [show ",".toList = [','] from rfl, show ")".toList = [')'] from rfl] at *
    simp only [upToComma, upToEnd, afterWord_append, Option.bind_some, readInteger_repr, suffix, kindOf, if_true]
    rfl
  · have named (text : List Char) : firstWord typeNames (id.toString.toList ++ text) = some (id, text) := by
      cases id <;> rfl
    have written : DataType.toString ⟨id, nullable, precision, scale⟩ =
        id.toString ++ if nullable then "" else " NOT NULL" := by
      simp [DataType.toString, decimal]
    rw [written, readKind, String.toList_append, List.append_assoc, named]
    simp only [Option.bind_eq_bind, Option.bind_some, decimal, if_false, suffix, kindOf]
    rfl

theorem reads_cast {operand : Expression} (type : DataType) (reads : Reads operand) :
    Reads (.cast operand type) := by
  refine reads_of_core rfl fun {found more text fuel} agree leaves enough => ?_
  obtain ⟨rest, rfl, room⟩ := exists_succ (show (cost operand + tails operand + 1) + 1 ≤ fuel from enough)
  have opened (text : List Char) : firstWord openers ("CAST(".toList ++ text) = some (.cast, text) := rfl
  have other (text : List Char) : startsWithDigit ("CAST(".toList ++ text) = false := rfl
  have ends (text : List Char) : Ends (" AS ".toList ++ text) := ⟨leaves_cons rfl _, rfl⟩
  rw [keyText_cast, readCore]
  simp only [List.append_assoc, other, opened, reads_whole reads agree room (ends _), afterWord_append,
    readKind_append, Option.bind_eq_bind, Option.bind_some]
  rfl

theorem reads_extract {operand : Expression} (part : DatePart) (type : DataType) (reads : Reads operand) :
    Reads (.extract part operand type) := by
  refine reads_of_core rfl fun {found more text fuel} agree leaves enough => ?_
  obtain ⟨rest, rfl, room⟩ := exists_succ (show (cost operand + tails operand + 1) + 1 ≤ fuel from enough)
  have opened (text : List Char) : firstWord openers ("EXTRACT(".toList ++ text) = some (.extract, text) := rfl
  have other (text : List Char) : startsWithDigit ("EXTRACT(".toList ++ text) = false := rfl
  have named (text : List Char) : firstWord dateParts (part.toString.toList ++ text) = some (part, text) := by
    cases part <;> rfl
  rw [keyText_extract, readCore]
  simp only [List.append_assoc, other, opened, named, afterWord_append,
    Option.bind_eq_bind, Option.bind_some, reads_whole reads agree room (ends_parenthesis _)]
  rfl

theorem reads_substring {operand : Expression} (start length : Int) (type : DataType)
    (reads : Reads operand) : Reads (.substring operand start length type) := by
  refine reads_of_core rfl fun {found more text fuel} agree leaves enough => ?_
  obtain ⟨rest, rfl, room⟩ := exists_succ (show (cost operand + tails operand + 1) + 1 ≤ fuel from enough)
  have opened (text : List Char) :
    firstWord openers ("SUBSTRING(".toList ++ text) = some (.substring, text) := rfl
  have other (text : List Char) : startsWithDigit ("SUBSTRING(".toList ++ text) = false := rfl
  have comma (text : List Char) : Ends (", ".toList ++ text) := ⟨leaves_cons rfl _, rfl⟩
  have startRead (text : List Char) : readRun isIntegerPart (start.repr.toList ++ (", ".toList ++ text)) =
      (start.repr.toList, ", ".toList ++ text) :=
    readRun_append (fun _ => isIntegerPart_of_mem_repr) (leaves_cons rfl _)
  have lengthRead (text : List Char) : readRun isIntegerPart (length.repr.toList ++ (")".toList ++ text)) =
      (length.repr.toList, ")".toList ++ text) :=
    readRun_append (fun _ => isIntegerPart_of_mem_repr) (leaves_cons rfl _)
  rw [keyText_substring, readCore]
  simp only [List.append_assoc, other, opened, reads_whole reads agree room (comma _), afterWord_append,
    startRead, lengthRead, readInteger_repr, Option.bind_eq_bind, Option.bind_some]
  rfl

/-- A literal's text starts neither like a column's nor like the argument list of a special `COUNT`. -/
theorem keyText_literal_eq_cons (value : LiteralStorage) (type : DataType) :
    ∃ first rest, keyText (.literal value type) = first :: rest ∧ first ≠ '*' ∧ first ≠ 'D' ∧ first ≠ '#' := by
  rw [keyText_literal]
  cases value with
  | monostate => exact ⟨'N', _, rfl, by decide, by decide, by decide⟩
  | bool value => cases value <;> exact ⟨_, _, rfl, by decide, by decide, by decide⟩
  | string value =>
    rw [literalToString, String.toList_append, String.toList_append]
    exact ⟨'\'', _, rfl, by decide, by decide, by decide⟩
  | int64 value =>
    rw [literalToString, toList_toString_int]
    split
    · exact ⟨'-', _, rfl, by decide, by decide, by decide⟩
    · obtain ⟨digit, digits, shape, isDigit⟩ := repr_eq_cons value.toInt.natAbs
      refine ⟨digit, digits, shape, ?_, ?_, ?_⟩ <;> (rintro rfl; cases isDigit)
  | double value =>
    obtain ⟨body, written, number⟩ := toList_formatFixed value
    rw [literalToString, written]
    split
    · exact ⟨'-', _, rfl, by decide, by decide, by decide⟩
    · rcases number with rfl | rfl | ⟨_, digit⟩
      · exact ⟨'n', _, rfl, by decide, by decide, by decide⟩
      · exact ⟨'i', _, rfl, by decide, by decide, by decide⟩
      · cases body with
        | nil => cases digit
        | cons first rest => refine ⟨first, rest, rfl, ?_, ?_, ?_⟩ <;> (rintro rfl; cases digit)

/-- No expression's text starts like the argument list of a special `COUNT`. -/
theorem keyText_eq_cons (expression : Expression) :
    ∃ first rest, keyText expression = first :: rest ∧ first ≠ '*' ∧ first ≠ 'D' := by
  cases expression with
  | column name columnIndex type =>
    rw [keyText_column]
    exact ⟨'#', _, rfl, by decide, by decide⟩
  | literal value type =>
    obtain ⟨first, rest, shape, star, distinct, _⟩ := keyText_literal_eq_cons value type
    exact ⟨first, rest, shape, star, distinct⟩
  | binary op left right type =>
    rw [keyText_binary]
    exact ⟨'(', _, rfl, by decide, by decide⟩
  | unary op operand type =>
    obtain ⟨first, rest, shape, star, distinct⟩ := keyText_eq_cons operand
    rw [keyText_unary]
    cases op with
    | not => exact ⟨'N', _, rfl, by decide, by decide⟩
    | negate => exact ⟨'-', _, rfl, by decide, by decide⟩
    | isNull => exact ⟨first, _, by rw [shape]; rfl, star, distinct⟩
    | isNotNull => exact ⟨first, _, by rw [shape]; rfl, star, distinct⟩
  | cast operand type =>
    rw [keyText_cast]
    exact ⟨'C', _, rfl, by decide, by decide⟩
  | extract part operand type =>
    rw [keyText_extract]
    exact ⟨'E', _, rfl, by decide, by decide⟩
  | substring operand start length type =>
    rw [keyText_substring]
    exact ⟨'S', _, rfl, by decide, by decide⟩
  | between value lower upper =>
    obtain ⟨first, rest, shape, star, distinct⟩ := keyText_eq_cons value
    rw [keyText_between, shape]
    exact ⟨first, _, rfl, star, distinct⟩
  | like value pattern negated =>
    obtain ⟨first, rest, shape, star, distinct⟩ := keyText_eq_cons value
    rw [keyText_like, shape]
    exact ⟨first, _, rfl, star, distinct⟩
  | caseWhen branches type =>
    rw [keyText_caseWhen]
    exact ⟨'C', _, rfl, by decide, by decide⟩
  | aggregate function argument type =>
    rw [keyText_aggregate]
    cases function <;> exact ⟨_, _, rfl, by decide, by decide⟩
  | countStar type =>
    rw [keyText_countStar]
    exact ⟨'C', _, rfl, by decide, by decide⟩

theorem firstWord_callWord (function : AggregateFunction) (argument : Expression) (text : List Char) :
    firstWord openers (callWord function ++ (keyText argument ++ text)) =
      some (.aggregate function, keyText argument ++ text) := by
  cases function with
  | count =>
    obtain ⟨first, rest, shape, star, distinct⟩ := keyText_eq_cons argument
    rw [shape]
    simp [firstWord, openers, callWord, AggregateFunction.toString, afterWord, star.symm, distinct.symm]
  | countDistinct => rfl
  | sum => rfl
  | min => rfl
  | max => rfl
  | avg => rfl

theorem reads_aggregate {argument : Expression} (function : AggregateFunction) (type : DataType)
    (reads : Reads argument) : Reads (.aggregate function argument type) := by
  refine reads_of_core rfl fun {found more text fuel} agree leaves enough => ?_
  obtain ⟨rest, rfl, room⟩ := exists_succ (show (cost argument + tails argument + 1) + 1 ≤ fuel from enough)
  have other (text : List Char) : startsWithDigit (callWord function ++ text) = false := by
    cases function <;> rfl
  rw [keyText_aggregate, readCore]
  simp only [List.append_assoc, other, firstWord_callWord, reads_whole reads agree room (ends_parenthesis _)]
  rfl

end Enclosed

/-! ## Tails -/

section Tails

variable {limit : Option Nat} {value : Expression}

/-- The limit is not used up before an expression's last tail. -/
theorem limit_left {count : Nat} (within : ∀ most, limit = some most → count + 1 ≤ most) :
    limit.map (· - count) ≠ some 0 := by
  cases limit with
  | none => simp
  | some most =>
    have := within most rfl
    simp only [Option.map_some, ne_eq, Option.some.injEq]
    omega

theorem limit_next (count : Nat) : (limit.map (· - count)).map (· - 1) = limit.map (· - (count + 1)) := by
  cases limit with
  | none => rfl
  | some most => simp [Nat.sub_sub]

/-- Behind an expression's value the reader is at its last tail. -/
theorem reads_before_tail (reads : Reads value) {found more : List Mark} {text : List Char} {fuel : Nat}
    (agree : MarksAgree found (marks value)) (leaves : Leaves isNumberPart text) (room : cost value ≤ fuel + 1)
    (within : ∀ most, limit = some most → tails value + 1 ≤ most) :
    readTree (fuel + (tails value + 1) + 1) limit (found ++ more) (keyText value ++ text) =
      readTails (fuel + 1) (limit.map (· - tails value)) (treeOf value) more text := by
  rw [show fuel + (tails value + 1) + 1 = fuel + 1 + tails value + 1 by omega]
  refine reads.tree agree leaves room fun most limited => ?_
  have := within most limited
  omega

theorem reads_isNull (type : DataType) (reads : Reads value) : Reads (.unary .isNull value type) where
  core closed := by simp [tails] at closed
  tree := by
    intro found more text fuel limit agree leaves enough within
    have room : cost value ≤ fuel + 1 := by
      simp only [cost] at enough
      omega
    have opened : firstWord tailWords (" IS NULL".toList ++ text) = some (.isNull, text) := rfl
    have starts : Leaves isNumberPart (" IS NULL".toList ++ text) := leaves_cons rfl _
    have reached := @reads_before_tail limit value reads _ more _ fuel agree starts room within
    rw [keyText_unary, List.append_assoc]
    refine reached.trans ?_
    rw [readTails, if_neg (limit_left within), opened]
    simp only [limit_next]
    rfl

theorem reads_isNotNull (type : DataType) (reads : Reads value) : Reads (.unary .isNotNull value type) where
  core closed := by simp [tails] at closed
  tree := by
    intro found more text fuel limit agree leaves enough within
    have room : cost value ≤ fuel + 1 := by
      simp only [cost] at enough
      omega
    have opened : firstWord tailWords (" IS NOT NULL".toList ++ text) = some (.isNotNull, text) := rfl
    have starts : Leaves isNumberPart (" IS NOT NULL".toList ++ text) := leaves_cons rfl _
    have reached := @reads_before_tail limit value reads _ more _ fuel agree starts room within
    rw [keyText_unary, List.append_assoc]
    refine reached.trans ?_
    rw [readTails, if_neg (limit_left within), opened]
    simp only [limit_next]
    rfl

theorem reads_like (pattern : String) (negated : Bool) (reads : Reads value) :
    Reads (.like value pattern negated) where
  core closed := by simp [tails] at closed
  tree := by
    intro found more text fuel limit agree leaves enough within
    obtain ⟨first, second, rfl, valueAgree, patternAgree⟩ := marksAgree_append agree
    obtain ⟨mark, rfl, agrees⟩ := marksAgree_single patternAgree
    have room : cost value ≤ fuel + 1 := by
      simp only [cost] at enough
      omega
    have opened (text : List Char) :
        firstWord tailWords ((if negated then " NOT LIKE '" else " LIKE '").toList ++ text) =
          some (.like negated, text) := by
      cases negated <;> rfl
    have starts (text : List Char) :
        Leaves isNumberPart ((if negated then " NOT LIKE '" else " LIKE '").toList ++ text) := by
      cases negated <;> exact leaves_cons rfl _
    rw [keyText_like]
    simp only [List.append_assoc]
    refine (reads_before_tail reads valueAgree (starts _) room within).trans ?_
    rw [readTails, if_neg (limit_left within), opened]
    simp only [List.singleton_append, readQuoted_append agrees, Option.bind_eq_bind, Option.bind_some, limit_next]
    rfl

theorem reads_between {lower upper : Expression} (valueReads : Reads value) (lowerReads : Reads lower)
    (upperReads : Reads upper) : Reads (.between value lower upper) where
  core closed := by simp [tails] at closed
  tree := by
    intro found more text fuel limit agree leaves enough within
    obtain ⟨first, others, rfl, valueAgree, othersAgree⟩ := marksAgree_append agree
    obtain ⟨second, _, rfl, lowerAgree, boundAgrees⟩ := marksAgree_append othersAgree
    obtain ⟨mark, third, agrees, upperAgree, rfl⟩ := List.forall₂_cons_right_iff.mp boundAgrees
    obtain rfl : mark = .bound (tails upper) := by cases mark <;> exact agrees
    simp only [cost] at enough
    have opened (text : List Char) : firstWord tailWords (" BETWEEN ".toList ++ text) = some (.between, text) :=
      rfl
    have starts (text : List Char) : Leaves isNumberPart (" BETWEEN ".toList ++ text) := leaves_cons rfl _
    have lowerEnds (text : List Char) : Ends (" AND ".toList ++ text) := ⟨leaves_cons rfl _, rfl⟩
    rw [keyText_between]
    simp only [List.append_assoc]
    refine (reads_before_tail valueReads valueAgree (starts _) (show _ ≤ fuel + 1 by omega) within).trans ?_
    rw [readTails, if_neg (limit_left within), opened]
    simp only [reads_whole lowerReads lowerAgree (show _ ≤ fuel by omega) (lowerEnds _), afterWord_append,
      Option.bind_eq_bind, Option.bind_some, List.cons_append,
      reads_counted upperReads upperAgree (show _ ≤ fuel by omega) leaves, limit_next]
    rfl

end Tails

/-! ## Branches -/

theorem ends_branches (branches : CaseBranches) (text : List Char) :
    Ends (branchText branches ++ (" END".toList ++ text)) := by
  cases branches with
  | done => exact ⟨leaves_cons rfl _, rfl⟩
  | otherwise result =>
    rw [branchText_otherwise]
    exact ⟨leaves_cons rfl _, rfl⟩
  | when condition result rest =>
    rw [branchText_when]
    exact ⟨leaves_cons rfl _, rfl⟩

theorem readsBranches_done : ReadsBranches .done := by
  intro found more text fuel agree enough
  obtain ⟨rest, rfl, _⟩ := exists_succ (show 0 + 1 ≤ fuel from enough)
  obtain rfl := List.forall₂_nil_right_iff.mp agree
  have opened : firstWord branchWords (" END".toList ++ text) = some (.done, text) := rfl
  have written : branchText .done ++ (" END".toList ++ text) = " END".toList ++ text := rfl
  rw [written, readBranches, opened]
  rfl

theorem readsBranches_otherwise {result : Expression} (reads : Reads result) :
    ReadsBranches (.otherwise result) := by
  intro found more text fuel agree enough
  obtain ⟨rest, rfl, room⟩ := exists_succ (show (cost result + tails result + 1) + 1 ≤ fuel from enough)
  have opened (text : List Char) : firstWord branchWords (" ELSE ".toList ++ text) = some (.otherwise, text) :=
    rfl
  have ends : Ends (" END".toList ++ text) := ⟨leaves_cons rfl _, rfl⟩
  rw [branchText_otherwise, List.append_assoc, readBranches, opened]
  simp only [Option.bind_eq_bind, Option.bind_some, reads_whole reads agree room ends, afterWord_append]
  rfl

theorem readsBranches_when {condition result : Expression} {rest : CaseBranches}
    (conditionReads : Reads condition) (resultReads : Reads result) (restReads : ReadsBranches rest) :
    ReadsBranches (.when condition result rest) := by
  intro found more text fuel agree enough
  obtain ⟨fuel, rfl, room⟩ := exists_succ (show ((cost condition + tails condition + 1) +
    (cost result + tails result + 1) + branchCost rest) + 1 ≤ fuel from enough)
  obtain ⟨first, others, rfl, conditionAgree, othersAgree⟩ := marksAgree_append agree
  obtain ⟨second, third, rfl, resultAgree, restAgree⟩ := marksAgree_append othersAgree
  have opened (text : List Char) : firstWord branchWords (" WHEN ".toList ++ text) = some (.when, text) := rfl
  have thenEnds (text : List Char) : Ends (" THEN ".toList ++ text) := ⟨leaves_cons rfl _, rfl⟩
  rw [branchText_when, readBranches]
  simp only [List.append_assoc, opened, Option.bind_eq_bind, Option.bind_some, afterWord_append,
    reads_whole conditionReads conditionAgree (show _ ≤ fuel by omega) (thenEnds _),
    reads_whole resultReads resultAgree (show _ ≤ fuel by omega) (ends_branches rest text),
    restReads restAgree (show _ ≤ fuel by omega)]
  rfl

theorem reads_caseWhen {branches : CaseBranches} (type : DataType) (reads : ReadsBranches branches) :
    Reads (.caseWhen branches type) := by
  refine reads_of_core rfl fun {found more text fuel} agree leaves enough => ?_
  obtain ⟨rest, rfl, room⟩ := exists_succ (show branchCost branches + 1 ≤ fuel from enough)
  have opened (text : List Char) : firstWord openers ("CASE".toList ++ (branchText branches ++
      (" END".toList ++ text))) = some (.caseWhen, branchText branches ++ (" END".toList ++ text)) := by
    cases branches with
    | done => rfl
    | otherwise result =>
      rw [branchText_otherwise]
      rfl
    | when condition result rest =>
      rw [branchText_when]
      rfl
  have other (text : List Char) : startsWithDigit ("CASE".toList ++ text) = false := rfl
  rw [keyText_caseWhen, readCore]
  simp only [List.append_assoc, other, opened, reads agree room]
  rfl

/-! ## Every expression -/

/-- A numeric expression ends in no tail. -/
theorem tails_of_numeric {expression : Expression} (typed : Typed expression)
    (numeric : isNumeric expression.resultType.id = true) : tails expression = 0 := by
  cases expression with
  | unary op operand type =>
    cases op with
    | isNull =>
      rw [Expression.resultType, show type.id = .boolean from typed.1] at numeric
      cases numeric
    | isNotNull =>
      rw [Expression.resultType, show type.id = .boolean from typed.1] at numeric
      cases numeric
    | _ => rfl
  | between value lower upper => cases numeric
  | like value pattern negated => cases numeric
  | _ => rfl

mutual

/-- Every expression that has the types binding gives is read for its tree. -/
theorem reads_of_typed : (expression : Expression) → Typed expression → Reads expression
  | .column name columnIndex type, _ => reads_column name columnIndex type
  | .literal value type, _ => reads_literal value type
  | .binary op left right type, typed =>
    reads_binary op type (reads_of_typed left typed.2.1) (reads_of_typed right typed.2.2)
  | .unary op operand type, typed => by
    have operandReads := reads_of_typed operand typed.2
    cases op with
    | not => exact reads_not type operandReads
    | negate => exact reads_negate type (tails_of_numeric typed.2 typed.1.1) operandReads
    | isNull => exact reads_isNull type operandReads
    | isNotNull => exact reads_isNotNull type operandReads
  | .cast operand type, typed => reads_cast type (reads_of_typed operand typed)
  | .extract part operand type, typed => reads_extract part type (reads_of_typed operand typed.2)
  | .substring operand start length type, typed =>
    reads_substring start length type (reads_of_typed operand typed.2)
  | .between value lower upper, typed =>
    reads_between (reads_of_typed value typed.1) (reads_of_typed lower typed.2.1)
      (reads_of_typed upper typed.2.2)
  | .like value pattern negated, typed => reads_like pattern negated (reads_of_typed value typed)
  | .caseWhen branches type, typed => reads_caseWhen type (readsBranches_of_typed branches typed.2)
  | .aggregate function argument type, typed =>
    reads_aggregate function type (reads_of_typed argument typed.2)
  | .countStar type, _ => reads_countStar type

theorem readsBranches_of_typed : (branches : CaseBranches) → BranchesTyped branches → ReadsBranches branches
  | .done, _ => readsBranches_done
  | .otherwise result, typed => readsBranches_otherwise (reads_of_typed result typed)
  | .when condition result rest, typed =>
    readsBranches_when (reads_of_typed condition typed.1) (reads_of_typed result typed.2.1)
      (readsBranches_of_typed rest typed.2.2)

end

/-- Two expressions of one key and agreeing marks have one tree. -/
theorem treeOf_eq_of_key {first second : Expression} (firstTyped : Typed first) (secondTyped : Typed second)
    (sameKey : structuralKey first = structuralKey second) (agree : MarksAgree (marks first) (marks second)) :
    treeOf first = treeOf second := by
  have ends : Ends [] := ⟨leaves_nil _, rfl⟩
  let fuel := (cost first + tails first + 1) + (cost second + tails second + 1)
  have firstRead := @reads_whole first (reads_of_typed first firstTyped) (marks first) [] [] fuel
    (marksAgree_refl _) (by omega) ends
  have secondRead := @reads_whole second (reads_of_typed second secondTyped) (marks first) [] [] fuel
    agree (by omega) ends
  have sameText : keyText first = keyText second := congrArg String.toList sameKey
  rw [sameText, secondRead] at firstRead
  exact (congrArg Prod.fst (Option.some.inj firstRead)).symm

end KernelLake.KeyReading
