import RowMapper.Expr.Operator
import RowMapper.Mapping.Declaration

/-!
# Expressions

A predicate or a projection over rows of an entity type: a lambda whose parameter stands for the
row, members of it (also through foreign objects), constants, and operators. Conversions change
nothing in SQL; most questions are asked of the expression below them.
-/

namespace RowMapper

/-- A value known when the expression is built. -/
inductive Constant where
  | value (value : Value)
  | list (values : List Value)
  /-- A loaded entity, known by its key values. -/
  | entity (entity : EntityType) (keys : List Value)
  deriving DecidableEq

/-- An expression. -/
inductive Expr where
  | lambda (parameter body : Expr)
  /-- The row of an entity type. -/
  | parameter (name : String) (entity : EntityType)
  | member (target : Expr) (name : String)
  | constant (constant : Constant)
  | unary (op : UnaryOp) (arg : Expr)
  | binary (op : BinaryOp) (lhs rhs : Expr)
  | convert (arg : Expr) (type : ValueType)
  /-- The item is one of the collection. -/
  | contains (collection item : Expr)
  deriving DecidableEq

namespace Expr

/-- The constant of the untyped NULL. -/
def null : Expr := .constant (.value .untyped)

/-- The row `name` of an entity type and an expression over it. -/
def lambdaOver (name : String) (entity : EntityType) (body : Expr → Expr) : Expr :=
  .lambda (.parameter name entity) (body (.parameter name entity))

/-- The item is one of the collection. -/
def isIn (item collection : Expr) : Expr := .contains collection item

/-- The expression below all conversions. -/
def unwrapConvert : Expr → Expr
  | .convert arg _ => arg.unwrapConvert
  | e => e

/-- The expression is a constant NULL, of any type. -/
def isNullConstant : Expr → Bool
  | .constant (.value v) => v.isNull
  | _ => false

/-- How tightly the text of the expression binds; none if it never needs parentheses. -/
def precedence? : Expr → Option Nat
  | .binary op _ _ => some op.precedence
  | .unary op _ => some op.precedence
  | .convert arg _ => arg.precedence?
  | .lambda _ body => body.precedence?
  | .contains _ _ => some BinaryOp.equal.precedence
  | _ => none

/-- The text of the expression binds looser than the limit. -/
def bindsBelow (e : Expr) (limit : Nat) : Bool := e.precedence?.any (· < limit)

/-- The text of the expression binds at most as tightly as the limit. -/
def bindsUpTo (e : Expr) (limit : Nat) : Bool := e.precedence?.any (· ≤ limit)

/-- A chain of member accesses: the row it starts at and the members in order. -/
structure Path where
  parameter : String
  entity : EntityType
  members : List String
  deriving Repr, DecidableEq

/-- The chain of member accesses that the expression is, if it starts at a row. Conversions may
stand between the accesses. -/
def path? : Expr → Option Path
  | .parameter name entity => some ⟨name, entity, []⟩
  | .member target name => target.path?.map fun p => { p with members := p.members ++ [name] }
  | .convert arg _ => arg.path?
  | _ => none

/-- The row that the chain starts at. -/
def Path.root (p : Path) : Expr := .parameter p.parameter p.entity

@[simp] theorem unwrapConvert_convert (e : Expr) (type : ValueType) :
    (convert e type).unwrapConvert = e.unwrapConvert := rfl

@[simp] theorem precedence?_convert (e : Expr) (type : ValueType) :
    (convert e type).precedence? = e.precedence? := rfl

@[simp] theorem path?_convert (e : Expr) (type : ValueType) :
    (convert e type).path? = e.path? := rfl

end Expr

end RowMapper
