/-!
# Tokens of SQL

The text of a statement is a list of tokens: words that are the same in every dialect, columns
and tables by their names, and parameters by their positions. Only a dialect turns tokens into
text, by quoting the names and writing the placeholders. Values never occur in a token.
-/

namespace RowMapper

/-- A token of SQL. -/
inductive Token where
  /-- A text that is written as it is. -/
  | word (text : String)
  /-- A name that is quoted, behind the alias of its table unless that is empty. -/
  | identifier (qualifier name : String)
  /-- The placeholder of a parameter. -/
  | parameter (index : Nat)
  deriving Repr, DecidableEq

/-- A piece of SQL. -/
abbrev Tokens := List Token

namespace Token

/-- The literal NULL. -/
def null : Token := .word "NULL"

/-- The name by itself. -/
def bare (name : String) : Token := .identifier "" name

end Token

namespace Tokens

/-- The tokens between parentheses. -/
def parenthesized (tokens : Tokens) : Tokens := .word "(" :: tokens ++ [.word ")"]

/-- The tokens, between parentheses if that is needed. -/
def parenthesizedIf (needed : Bool) (tokens : Tokens) : Tokens :=
  if needed then tokens.parenthesized else tokens

/-- The positions of the parameters, in order. -/
def parameters (tokens : Tokens) : List Nat :=
  tokens.filterMap fun
    | .parameter index => some index
    | _ => none

end Tokens

end RowMapper
