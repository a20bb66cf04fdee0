import KernelLake.Pruning

/-!
The text of a bound expression.

`expressionToString` is what a user sees, for instance as the name of an unnamed output column.
`structuralKey` is the same text with every column written as its index; the planner takes two
expressions with one key to be one expression.
-/

namespace KernelLake.ExpressionText

open KernelLake.Types KernelLake.Expressions KernelLake.Pruning

def aggregateText (function : AggregateFunction) (argument : String) : String :=
  function.toString ++ "(" ++ (if function = .countDistinct then "DISTINCT " else "") ++ argument ++ ")"

def unaryText (op : UnaryOperator) (operand : String) : String :=
  match op with
  | .not => "NOT (" ++ operand ++ ")"
  | .negate => "-" ++ operand
  | .isNull => operand ++ " IS NULL"
  | .isNotNull => operand ++ " IS NOT NULL"

mutual

/-- `to_string` of an expression, given how a column is written. -/
def render (columnText : String → Nat → String) : Expression → String
  | .column name columnIndex _ => columnText name columnIndex
  | .literal value _ => literalToString value
  | .binary op left right _ =>
    "(" ++ render columnText left ++ " " ++ op.toString ++ " " ++ render columnText right ++ ")"
  | .unary op operand _ => unaryText op (render columnText operand)
  | .cast operand type => "CAST(" ++ render columnText operand ++ " AS " ++ type.toString ++ ")"
  | .extract part operand _ =>
    "EXTRACT(" ++ part.toString ++ " FROM " ++ render columnText operand ++ ")"
  | .substring operand start length _ =>
    "SUBSTRING(" ++ render columnText operand ++ ", " ++ toString start ++ ", " ++ toString length ++ ")"
  | .between value lower upper =>
    render columnText value ++ " BETWEEN " ++ render columnText lower ++ " AND " ++
      render columnText upper
  | .like value pattern negated =>
    render columnText value ++ (if negated then " NOT LIKE '" else " LIKE '") ++ pattern ++ "'"
  | .caseWhen branches _ => "CASE" ++ renderBranches columnText branches ++ " END"
  | .aggregate function argument _ => aggregateText function (render columnText argument)
  | .countStar _ => "COUNT(*)"

def renderBranches (columnText : String → Nat → String) : CaseBranches → String
  | .done => ""
  | .otherwise result => " ELSE " ++ render columnText result
  | .when condition result rest =>
    " WHEN " ++ render columnText condition ++ " THEN " ++ render columnText result ++
      renderBranches columnText rest

end

attribute [simp] render renderBranches

def expressionToString (expression : Expression) : String :=
  render (fun name _ => name) expression

/-- The identity the planner compares expressions by. -/
def structuralKey (expression : Expression) : String :=
  render (fun _ columnIndex => "#" ++ toString columnIndex) expression

end KernelLake.ExpressionText
