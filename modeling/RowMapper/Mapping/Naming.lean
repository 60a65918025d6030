import RowMapper.Mapping.Declaration
import RowMapper.Text.SnakeCase

/-!
# Naming rules

Naming rules turn declared names into the names of tables and columns. They are asked in order,
and the first one with an answer decides. A column that is declared explicitly is never renamed.
-/

namespace RowMapper

/-- A naming convention; it has no answer for the names it leaves to the next rule. -/
structure NamingRule where
  tableName : EntityType → String → Option String
  columnName : EntityType → String → Option String

namespace NamingRule

/-- All names in snake case. -/
def snakeCase : NamingRule :=
  ⟨fun _ name => some (Text.snakeCase name), fun _ name => some (Text.snakeCase name)⟩

/-- Never an answer. -/
def silent : NamingRule := ⟨fun _ _ => none, fun _ _ => none⟩

/-- Renames the listed tables and columns and no others. -/
def renames (tables columns : List (String × String)) : NamingRule :=
  ⟨fun _ name => tables.lookup name, fun _ name => columns.lookup name⟩

end NamingRule

/-- The name of the table of an entity type. -/
def tableName (rules : List NamingRule) (e : EntityType) (declared : String) : String :=
  (rules.findSome? (·.tableName e declared)).getD declared

/-- The name of the column of a member. -/
def columnName (rules : List NamingRule) (e : EntityType) (member : String)
    (explicit : Option String) : String :=
  match explicit with
  | some column => column
  | none => (rules.findSome? (·.columnName e member)).getD member

end RowMapper
