import KernelLake.Types

/-!
Typed expression trees, as the binder builds them.

`CASE` keeps its branches in a list type of its own, so that the two types are one mutual
recursion and every traversal below is structural. `COUNT(*)` is a constructor rather than an
aggregate with a missing argument: an aggregate call of any other function always has one.
-/

namespace KernelLake.Expressions

open KernelLake.Types

/-- The value of a literal. Dates are days and timestamps microseconds since the epoch. -/
inductive LiteralStorage
  | monostate
  | bool (value : Bool)
  | int64 (value : Int64)
  | double (value : Float)
  | string (value : String)
  deriving DecidableEq

inductive BinaryOperator
  | add | subtract | multiply | divide
  | equal | notEqual | less | lessEqual | greater | greaterEqual
  | and | or
  deriving DecidableEq, Repr

def BinaryOperator.toString : BinaryOperator → String
  | .add => "+"
  | .subtract => "-"
  | .multiply => "*"
  | .divide => "/"
  | .equal => "="
  | .notEqual => "!="
  | .less => "<"
  | .lessEqual => "<="
  | .greater => ">"
  | .greaterEqual => ">="
  | .and => "AND"
  | .or => "OR"

def isArithmetic : BinaryOperator → Bool
  | .add | .subtract | .multiply | .divide => true
  | _ => false

def isComparison : BinaryOperator → Bool
  | .equal | .notEqual | .less | .lessEqual | .greater | .greaterEqual => true
  | _ => false

def isLogical : BinaryOperator → Bool
  | .and | .or => true
  | _ => false

inductive UnaryOperator
  | not | negate | isNull | isNotNull
  deriving DecidableEq, Repr

inductive DatePart
  | year | month | day
  deriving DecidableEq, Repr

def DatePart.toString : DatePart → String
  | .year => "YEAR"
  | .month => "MONTH"
  | .day => "DAY"

/-- The aggregate functions with an argument. -/
inductive AggregateFunction
  | sum | count | countDistinct | min | max | avg
  deriving DecidableEq, Repr

def AggregateFunction.toString : AggregateFunction → String
  | .sum => "SUM"
  | .count => "COUNT"
  | .countDistinct => "COUNT"
  | .min => "MIN"
  | .max => "MAX"
  | .avg => "AVG"

mutual

inductive Expression
  | column (name : String) (columnIndex : Nat) (type : DataType)
  | literal (value : LiteralStorage) (type : DataType)
  | binary (op : BinaryOperator) (left right : Expression) (type : DataType)
  | unary (op : UnaryOperator) (operand : Expression) (type : DataType)
  | cast (operand : Expression) (type : DataType)
  | extract (part : DatePart) (operand : Expression) (type : DataType)
  | substring (operand : Expression) (start length : Int) (type : DataType)
  | between (value lower upper : Expression)
  | like (value : Expression) (pattern : String) (negated : Bool)
  | caseWhen (branches : CaseBranches) (type : DataType)
  | aggregate (function : AggregateFunction) (argument : Expression) (type : DataType)
  | countStar (type : DataType)
  deriving DecidableEq

/-- The branches of a `CASE`: `WHEN`/`THEN` pairs, closed by an optional `ELSE`. -/
inductive CaseBranches
  | done
  | otherwise (result : Expression)
  | when (condition result : Expression) (rest : CaseBranches)
  deriving DecidableEq

end

def Expression.resultType : Expression → DataType
  | .column _ _ type => type
  | .literal _ type => type
  | .binary _ _ _ type => type
  | .unary _ _ type => type
  | .cast _ type => type
  | .extract _ _ type => type
  | .substring _ _ _ type => type
  | .between .. => booleanType false
  | .like .. => booleanType false
  | .caseWhen _ type => type
  | .aggregate _ _ type => type
  | .countStar type => type

def makeBool (value : Bool) : Expression := .literal (.bool value) (booleanType false)
def makeInt64 (value : Int64) : Expression := .literal (.int64 value) (int64Type false)
def makeFloat64 (value : Float) : Expression := .literal (.double value) (float64Type false)
def makeString (value : String) : Expression := .literal (.string value) (stringType false)
def makeDate32 (days : Int32) : Expression := .literal (.int64 days.toInt64) (date32Type false)
def makeNull (type : DataType) : Expression := .literal .monostate type

end KernelLake.Expressions
