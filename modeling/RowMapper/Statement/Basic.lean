import RowMapper.Text.Truncated
import RowMapper.Value.Basic

/-!
# Statements

An executable statement: its text, which may be a batch of several statements, and its
parameters.
-/

namespace RowMapper

/-- A statement. -/
structure Statement where
  sql : String
  parameters : List Value := []
  deriving DecidableEq

namespace Statement

/-- The statement has no text. -/
def isEmpty (s : Statement) : Bool := s.sql.isEmpty

/-- The text as messages show it. -/
def display (s : Statement) : String := Text.abridge s.sql

end Statement

/-- What a statement does. -/
inductive Verb where
  | select
  | insert
  | update
  | delete
  deriving Repr, DecidableEq

namespace Verb

/-- The verb in SQL. -/
def word : Verb → String
  | .select => "SELECT"
  | .insert => "INSERT"
  | .update => "UPDATE"
  | .delete => "DELETE"

/-- The verb in messages. -/
def name : Verb → String
  | .select => "select"
  | .insert => "insert"
  | .update => "update"
  | .delete => "delete"

end Verb

/-- Why a statement cannot be built. -/
inductive StatementError where
  | noTable (verb : Verb)
  | noColumns (table : String)
  /-- The key is empty and nothing makes one. -/
  | emptyKey (column table : String)
  /-- The row could not be read back. -/
  | noReadBack (table : String)
  /-- The row could not be found. -/
  | noKey (table : String)
  deriving Repr, DecidableEq

/-- The message of the failure. -/
def StatementError.message : StatementError → String
  | .noTable verb => verb.word ++ " without a table name"
  | .noColumns table => "SELECT from `" ++ table ++ "` without columns"
  | .emptyKey column table =>
    "Key `" ++ column ++ "` of `" ++ table
      ++ "` is empty and has no key initialization strategy"
  | .noReadBack table => "INSERT into `" ++ table ++ "` has no key to read the row back"
  | .noKey table => "UPDATE of `" ++ table ++ "` without key fields"

end RowMapper
