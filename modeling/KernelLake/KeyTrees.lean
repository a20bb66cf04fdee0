import KernelLake.BindingProofs
import KernelLake.Library.Texts

/-!
What the key of an expression says.

A key tree is what is left of an expression when it is written as its key: a column is its index, and
of the types only those that stand in the text remain. A negative number and a negated number are one
tree. Where the text of a literal does not determine the literal, or that of a `BETWEEN` does not
determine where it ends, the tree depends on marks, one for each such place in the order of the text.
-/

namespace KernelLake.KeyTrees

open KernelLake.Types KernelLake.Expressions KernelLake.Evaluation KernelLake.Binder
open KernelLake.ExpressionText

/-! ## Trees -/

/-- What a type contributes to a value: its identifier and, for a decimal, the scale. -/
structure Kind where
  id : TypeId
  scale : Int
  deriving DecidableEq

def kindOf (type : DataType) : Kind :=
  ⟨type.id, if type.id = .decimal then type.scale.getD 0 else 0⟩

mutual

inductive KeyTree
  | column (index : Nat)
  | null
  | bool (value : Bool)
  | integer (magnitude : Nat) (kind : Kind)
  | double (magnitude : Float) (kind : Kind)
  | string (value : List Char)
  | binary (op : BinaryOperator) (left right : KeyTree)
  | unary (op : UnaryOperator) (operand : KeyTree)
  | cast (operand : KeyTree) (kind : Kind)
  | extract (part : DatePart) (operand : KeyTree)
  | substring (operand : KeyTree) (start length : Int)
  | between (value lower upper : KeyTree)
  | like (value : KeyTree) (pattern : List Char) (negated : Bool)
  | caseWhen (branches : KeyBranches)
  | aggregate (function : AggregateFunction) (argument : KeyTree)
  | countStar

inductive KeyBranches
  | done
  | otherwise (result : KeyTree)
  | when (condition result : KeyTree) (rest : KeyBranches)

end

/-- Whether a double is written with a minus sign. -/
def isNegative (value : Float) : Bool :=
  match value.toModel.unpack with
  | .infinity .negative => true
  | .zero .negative => true
  | .finite .negative _ _ _ => true
  | _ => false

/-- A double without its minus sign. -/
def magnitudeOf (value : Float) : Float :=
  if isNegative value then -value else value

/-- A number with a minus sign in front of it, if it has one. -/
def signed (negative : Bool) (magnitude : KeyTree) : KeyTree :=
  if negative then .unary .negate magnitude else magnitude

def literalTree (value : LiteralStorage) (kind : Kind) : KeyTree :=
  match value with
  | .monostate => .null
  | .bool value => .bool value
  | .int64 value => signed (value.toInt < 0) (.integer value.toInt.natAbs kind)
  | .double value => signed (isNegative value) (.double (magnitudeOf value) kind)
  | .string value => .string value.toList

mutual

def treeOf : Expression → KeyTree
  | .column _ columnIndex _ => .column columnIndex
  | .literal value type => literalTree value (kindOf type)
  | .binary op left right _ => .binary op (treeOf left) (treeOf right)
  | .unary op operand _ => .unary op (treeOf operand)
  | .cast operand type => .cast (treeOf operand) (kindOf type)
  | .extract part operand _ => .extract part (treeOf operand)
  | .substring operand start length _ => .substring (treeOf operand) start length
  | .between value lower upper => .between (treeOf value) (treeOf lower) (treeOf upper)
  | .like value pattern negated => .like (treeOf value) pattern.toList negated
  | .caseWhen branches _ => .caseWhen (branchTree branches)
  | .aggregate function argument _ => .aggregate function (treeOf argument)
  | .countStar _ => .countStar

def branchTree : CaseBranches → KeyBranches
  | .done => .done
  | .otherwise result => .otherwise (treeOf result)
  | .when condition result rest => .when (treeOf condition) (treeOf result) (branchTree rest)

end

attribute [simp] treeOf branchTree

/-! ## Marks -/

/-- What the text at one place leaves open. -/
inductive Mark
  | integer (kind : Kind)
  | double (magnitude : Float) (kind : Kind)
  | text (value : List Char)
  | bound (tails : Nat)
  deriving DecidableEq

/-- How many `IS NULL`, `IS NOT NULL`, `LIKE` and `BETWEEN` stand after one another at the end of an
expression's text without parentheses. -/
def tails : Expression → Nat
  | .unary .isNull operand _ => tails operand + 1
  | .unary .isNotNull operand _ => tails operand + 1
  | .between value _ _ => tails value + 1
  | .like value _ _ => tails value + 1
  | _ => 0

def literalMarks (value : LiteralStorage) (kind : Kind) : List Mark :=
  match value with
  | .int64 _ => [.integer kind]
  | .double value => [.double (magnitudeOf value) kind]
  | .string value => [.text value.toList]
  | _ => []

mutual

def marks : Expression → List Mark
  | .column .. => []
  | .literal value type => literalMarks value (kindOf type)
  | .binary _ left right _ => marks left ++ marks right
  | .unary _ operand _ => marks operand
  | .cast operand _ => marks operand
  | .extract _ operand _ => marks operand
  | .substring operand _ _ _ => marks operand
  | .between value lower upper => marks value ++ (marks lower ++ .bound (tails upper) :: marks upper)
  | .like value pattern _ => marks value ++ [.text pattern.toList]
  | .caseWhen branches _ => branchMarks branches
  | .aggregate _ argument _ => marks argument
  | .countStar _ => []

def branchMarks : CaseBranches → List Mark
  | .done => []
  | .otherwise result => marks result
  | .when condition result rest => marks condition ++ (marks result ++ branchMarks rest)

end

def treeTails : KeyTree → Nat
  | .unary .isNull operand => treeTails operand + 1
  | .unary .isNotNull operand => treeTails operand + 1
  | .between value _ _ => treeTails value + 1
  | .like value _ _ => treeTails value + 1
  | _ => 0

mutual

/-- The marks of the text that a tree is read from. -/
def treeMarks : KeyTree → List Mark
  | .column _ => []
  | .null => []
  | .bool _ => []
  | .integer _ kind => [.integer kind]
  | .double magnitude kind => [.double magnitude kind]
  | .string value => [.text value]
  | .binary _ left right => treeMarks left ++ treeMarks right
  | .unary _ operand => treeMarks operand
  | .cast operand _ => treeMarks operand
  | .extract _ operand => treeMarks operand
  | .substring operand _ _ => treeMarks operand
  | .between value lower upper =>
    treeMarks value ++ (treeMarks lower ++ .bound (treeTails upper) :: treeMarks upper)
  | .like value pattern _ => treeMarks value ++ [.text pattern]
  | .caseWhen branches => branchTreeMarks branches
  | .aggregate _ argument => treeMarks argument
  | .countStar => []

def branchTreeMarks : KeyBranches → List Mark
  | .done => []
  | .otherwise result => treeMarks result
  | .when condition result rest => treeMarks condition ++ (treeMarks result ++ branchTreeMarks rest)

end

theorem tails_eq_treeTails : (expression : Expression) → tails expression = treeTails (treeOf expression)
  | .unary .isNull operand _ => by
    rw [tails, treeOf, treeTails, tails_eq_treeTails operand]
  | .unary .isNotNull operand _ => by
    rw [tails, treeOf, treeTails, tails_eq_treeTails operand]
  | .between value lower upper => by
    rw [tails, treeOf, treeTails, tails_eq_treeTails value]
  | .like value pattern negated => by
    rw [tails, treeOf, treeTails, tails_eq_treeTails value]
  | .literal value type => by
    cases value with
    | int64 value =>
      simp only [tails, treeOf, literalTree, signed]
      split <;> rfl
    | double value =>
      simp only [tails, treeOf, literalTree, signed]
      split <;> rfl
    | _ => rfl
  | .unary .not _ _ => rfl
  | .unary .negate _ _ => rfl
  | .column .. => rfl
  | .binary .. => rfl
  | .cast .. => rfl
  | .extract .. => rfl
  | .substring .. => rfl
  | .caseWhen .. => rfl
  | .aggregate .. => rfl
  | .countStar _ => rfl

theorem literalMarks_eq (value : LiteralStorage) (kind : Kind) :
    literalMarks value kind = treeMarks (literalTree value kind) := by
  cases value with
  | int64 value =>
    simp only [literalMarks, literalTree, signed]
    split <;> rfl
  | double value =>
    simp only [literalMarks, literalTree, signed]
    split <;> rfl
  | _ => rfl

mutual

/-- An expression's marks are those of its tree. -/
theorem marks_eq_treeMarks : (expression : Expression) → marks expression = treeMarks (treeOf expression)
  | .column .. => rfl
  | .literal value type => by
    rw [marks, treeOf, literalMarks_eq]
  | .binary _ left right _ => by
    rw [marks, treeOf, treeMarks, marks_eq_treeMarks left, marks_eq_treeMarks right]
  | .unary _ operand _ => by
    rw [marks, treeOf, treeMarks, marks_eq_treeMarks operand]
  | .cast operand _ => by
    rw [marks, treeOf, treeMarks, marks_eq_treeMarks operand]
  | .extract _ operand _ => by
    rw [marks, treeOf, treeMarks, marks_eq_treeMarks operand]
  | .substring operand _ _ _ => by
    rw [marks, treeOf, treeMarks, marks_eq_treeMarks operand]
  | .between value lower upper => by
    rw [marks, treeOf, treeMarks, marks_eq_treeMarks value, marks_eq_treeMarks lower,
      marks_eq_treeMarks upper, tails_eq_treeTails]
  | .like value _ _ => by
    rw [marks, treeOf, treeMarks, marks_eq_treeMarks value]
  | .caseWhen branches _ => by
    rw [marks, treeOf, treeMarks, branchMarks_eq_treeMarks branches]
  | .aggregate _ argument _ => by
    rw [marks, treeOf, treeMarks, marks_eq_treeMarks argument]
  | .countStar _ => rfl

theorem branchMarks_eq_treeMarks : (branches : CaseBranches) →
    branchMarks branches = branchTreeMarks (branchTree branches)
  | .done => rfl
  | .otherwise result => by
    rw [branchMarks, branchTree, branchTreeMarks, marks_eq_treeMarks result]
  | .when condition result rest => by
    rw [branchMarks, branchTree, branchTreeMarks, marks_eq_treeMarks condition, marks_eq_treeMarks result,
      branchMarks_eq_treeMarks rest]

end

/-- Two marks leave nothing open between them: two quoted texts may differ if neither has a quote in
it. -/
def Mark.Agrees : Mark → Mark → Prop
  | .text first, .text second => first = second ∨ ('\'' ∉ first ∧ '\'' ∉ second)
  | first, second => first = second

instance (first second : Mark) : Decidable (first.Agrees second) := by
  unfold Mark.Agrees
  split <;> infer_instance

/-- The marks of two expressions agree place by place. -/
def MarksAgree (first second : List Mark) : Prop :=
  List.Forall₂ Mark.Agrees first second

instance (first second : List Mark) : Decidable (MarksAgree first second) :=
  inferInstanceAs (Decidable (List.Forall₂ Mark.Agrees first second))

theorem Mark.agrees_refl (mark : Mark) : mark.Agrees mark := by
  cases mark with
  | text value => exact .inl rfl
  | _ => rfl

theorem marksAgree_refl (list : List Mark) : MarksAgree list list :=
  List.forall₂_same.mpr fun mark _ => mark.agrees_refl

theorem marksAgree_append {list first second : List Mark} (agree : MarksAgree list (first ++ second)) :
    ∃ left right, list = left ++ right ∧ MarksAgree left first ∧ MarksAgree right second :=
  ⟨list.take first.length, list.drop first.length, (List.take_append_drop _ _).symm,
    List.forall₂_take_append _ _ _ agree, List.forall₂_drop_append _ _ _ agree⟩

/-! ## Texts -/

/-- The key of an expression as a list of characters. -/
def keyText (expression : Expression) : List Char :=
  (structuralKey expression).toList

def branchText (branches : CaseBranches) : List Char :=
  (renderBranches (fun _ columnIndex => "#" ++ toString columnIndex) branches).toList

theorem keyText_column (name : String) (columnIndex : Nat) (type : DataType) :
    keyText (.column name columnIndex type) = "#".toList ++ columnIndex.repr.toList := by
  simp [keyText, structuralKey, render]

theorem keyText_binary (op : BinaryOperator) (left right : Expression) (type : DataType) :
    keyText (.binary op left right type) =
      "(".toList ++ (keyText left ++ (" ".toList ++ (op.toString.toList ++ (" ".toList ++
        (keyText right ++ ")".toList))))) := by
  simp only [keyText, structuralKey, render, String.toList_append, List.append_assoc]

theorem keyText_cast (operand : Expression) (type : DataType) :
    keyText (.cast operand type) =
      "CAST(".toList ++ (keyText operand ++ (" AS ".toList ++ (type.toString.toList ++ ")".toList))) := by
  simp only [keyText, structuralKey, render, String.toList_append, List.append_assoc]

theorem keyText_extract (part : DatePart) (operand : Expression) (type : DataType) :
    keyText (.extract part operand type) =
      "EXTRACT(".toList ++ (part.toString.toList ++ (" FROM ".toList ++
        (keyText operand ++ ")".toList))) := by
  simp only [keyText, structuralKey, render, String.toList_append, List.append_assoc]

theorem keyText_substring (operand : Expression) (start length : Int) (type : DataType) :
    keyText (.substring operand start length type) =
      "SUBSTRING(".toList ++ (keyText operand ++ (", ".toList ++ (start.repr.toList ++
        (", ".toList ++ (length.repr.toList ++ ")".toList))))) := by
  simp only [keyText, structuralKey, render, String.toList_append, List.append_assoc]
  rfl

theorem keyText_between (value lower upper : Expression) :
    keyText (.between value lower upper) =
      keyText value ++ (" BETWEEN ".toList ++ (keyText lower ++ (" AND ".toList ++ keyText upper))) := by
  simp only [keyText, structuralKey, render, String.toList_append, List.append_assoc]

theorem keyText_like (value : Expression) (pattern : String) (negated : Bool) :
    keyText (.like value pattern negated) =
      keyText value ++ ((if negated then " NOT LIKE '" else " LIKE '").toList ++
        (pattern.toList ++ "'".toList)) := by
  simp only [keyText, structuralKey, render, String.toList_append, List.append_assoc]

theorem keyText_caseWhen (branches : CaseBranches) (type : DataType) :
    keyText (.caseWhen branches type) = "CASE".toList ++ (branchText branches ++ " END".toList) := by
  simp only [keyText, branchText, structuralKey, render, String.toList_append, List.append_assoc]

theorem keyText_unary (op : UnaryOperator) (operand : Expression) (type : DataType) :
    keyText (.unary op operand type) = match op with
      | .not => "NOT (".toList ++ (keyText operand ++ ")".toList)
      | .negate => "-".toList ++ keyText operand
      | .isNull => keyText operand ++ " IS NULL".toList
      | .isNotNull => keyText operand ++ " IS NOT NULL".toList := by
  cases op <;> simp only [keyText, structuralKey, render, unaryText, String.toList_append, List.append_assoc]

theorem keyText_countStar (type : DataType) : keyText (.countStar type) = "COUNT(*)".toList := by
  simp only [keyText, structuralKey, render]

/-- How an aggregate call begins. -/
def callWord (function : AggregateFunction) : List Char :=
  function.toString.toList ++ ("(".toList ++ if function = .countDistinct then "DISTINCT ".toList else [])

theorem keyText_aggregate (function : AggregateFunction) (argument : Expression) (type : DataType) :
    keyText (.aggregate function argument type) =
      callWord function ++ (keyText argument ++ ")".toList) := by
  cases function <;>
    simp [keyText, structuralKey, render, aggregateText, callWord, AggregateFunction.toString]

theorem branchText_otherwise (result : Expression) :
    branchText (.otherwise result) = " ELSE ".toList ++ keyText result := by
  simp only [keyText, branchText, structuralKey, renderBranches, String.toList_append]

theorem branchText_when (condition result : Expression) (rest : CaseBranches) :
    branchText (.when condition result rest) =
      " WHEN ".toList ++ (keyText condition ++ (" THEN ".toList ++
        (keyText result ++ branchText rest))) := by
  simp only [keyText, branchText, structuralKey, renderBranches, String.toList_append, List.append_assoc]

end KernelLake.KeyTrees
