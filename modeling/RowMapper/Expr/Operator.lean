/-!
# Operators

The operators of expressions, how tightly they bind, and how they are written between their
operands. A larger precedence binds tighter. Binary operators associate to the left.
-/

namespace RowMapper

/-- The operators with two operands. -/
inductive BinaryOp where
  | multiplication
  | division
  | remainder
  | addition
  | subtraction
  | bitwiseAnd
  | bitwiseOr
  | like
  | notLike
  | equal
  | notEqual
  | less
  | greater
  | lessEqual
  | greaterEqual
  | and
  | or
  deriving Repr, DecidableEq

/-- The operators with one operand. -/
inductive UnaryOp where
  | negative
  | not
  deriving Repr, DecidableEq

/-- The direction of an ordering. -/
inductive Order where
  | ascending
  | descending
  deriving Repr, DecidableEq

namespace BinaryOp

/-- All operators. -/
def all : List BinaryOp :=
  [.multiplication, .division, .remainder, .addition, .subtraction, .bitwiseAnd, .bitwiseOr,
    .like, .notLike, .equal, .notEqual, .less, .greater, .lessEqual, .greaterEqual, .and, .or]

/-- The name of the operator. -/
def name : BinaryOp → String
  | .multiplication => "Multiplication"
  | .division => "Division"
  | .remainder => "Remainder"
  | .addition => "Addition"
  | .subtraction => "Subtraction"
  | .bitwiseAnd => "BitwiseAnd"
  | .bitwiseOr => "BitwiseOr"
  | .like => "Like"
  | .notLike => "NotLike"
  | .equal => "Equal"
  | .notEqual => "NotEqual"
  | .less => "Less"
  | .greater => "Greater"
  | .lessEqual => "LessEqual"
  | .greaterEqual => "GreaterEqual"
  | .and => "And"
  | .or => "Or"

/-- The operator as it is written between its operands. -/
def text : BinaryOp → String
  | .multiplication => " * "
  | .division => " / "
  | .remainder => " % "
  | .addition => " + "
  | .subtraction => " - "
  | .bitwiseAnd => " & "
  | .bitwiseOr => " | "
  | .like => " LIKE "
  | .notLike => " NOT LIKE "
  | .equal => " = "
  | .notEqual => " != "
  | .less => " < "
  | .greater => " > "
  | .lessEqual => " <= "
  | .greaterEqual => " >= "
  | .and => " AND "
  | .or => " OR "

/-- How tightly the operator binds. -/
def precedence : BinaryOp → Nat
  | .or => 100
  | .and => 200
  | .equal | .notEqual | .less | .greater | .lessEqual | .greaterEqual => 300
  | .like | .notLike => 400
  | .bitwiseOr => 500
  | .bitwiseAnd => 600
  | .subtraction | .addition => 800
  | .multiplication | .division | .remainder => 900

/-- The operator compares its operands by equality or order. -/
def isComparison : BinaryOp → Bool
  | .equal | .notEqual | .less | .greater | .lessEqual | .greaterEqual => true
  | _ => false

/-- The operator joins two conditions. -/
def isLogical : BinaryOp → Bool
  | .and | .or => true
  | _ => false

end BinaryOp

namespace UnaryOp

/-- All operators. -/
def all : List UnaryOp := [.negative, .not]

/-- The name of the operator. -/
def name : UnaryOp → String
  | .negative => "Negative"
  | .not => "Not"

/-- The operator as it is written before its operand. -/
def text : UnaryOp → String
  | .negative => "-"
  | .not => "NOT "

/-- How tightly the operator binds. -/
def precedence : UnaryOp → Nat
  | .negative => 1250
  | .not => 250

end UnaryOp

/-- The direction as it is written behind an expression. -/
def Order.text : Order → String
  | .ascending => " ASC"
  | .descending => " DESC"

end RowMapper
