import RowMapper.Expr.Basic
import RowMapper.Value.Inspect

/-!
# Inspection of expressions

The text that shows an expression in messages: each node by its name and, between braces, its
parts by theirs.
-/

namespace RowMapper

/-- A named node with its parts, each with its name. -/
def inspectParts (node : String) (parts : List (String × String)) : String :=
  node ++ " \x7b " ++ ", ".intercalate (parts.map fun p => p.1 ++ ": " ++ p.2) ++ " \x7d"

/-- What is shown of a constant. -/
def Constant.inspect : Constant → String
  | .value v => "Value(" ++ v.inspect ++ ")"
  | .list vs => "List(" ++ inspectList Value.inspect vs ++ ")"
  | .entity e keys =>
    inspectParts "Entity" [("entity", e.name), ("keys", inspectList Value.inspect keys)]

/-- What is shown of an expression. -/
def Expr.inspect : Expr → String
  | .lambda row body =>
    inspectParts "Lambda" [("parameter", row.inspect), ("body", body.inspect)]
  | .parameter name entity =>
    inspectParts "Parameter" [("name", Text.quoted name), ("entity", entity.name)]
  | .member target name =>
    inspectParts "Member" [("target", target.inspect), ("member", Text.quoted name)]
  | .constant c => "Constant(" ++ c.inspect ++ ")"
  | .unary op arg => inspectParts "Unary" [("op", op.name), ("arg", arg.inspect)]
  | .binary op lhs rhs =>
    inspectParts "Binary" [("op", op.name), ("lhs", lhs.inspect), ("rhs", rhs.inspect)]
  | .convert arg type => inspectParts "Convert" [("arg", arg.inspect), ("to", type.name)]
  | .contains collection item =>
    inspectParts "Contains" [("collection", collection.inspect), ("item", item.inspect)]

end RowMapper
