import RowMapper.Expr.Operator
import RowMapper.Sql.Dialect
import RowMapper.Sql.Scope
import RowMapper.Text.Separated

/-!
# Clauses of statements

The tokens of whole statements, made of tables, columns and slots for values. A statement is a
line, or several; a batch is its lines one below the other. Every line ends with a semicolon.
-/

namespace RowMapper

/-- What stands in the place of a value. -/
inductive Slot where
  | parameter (index : Nat)
  | null
  /-- A piece of SQL, such as the variable of a key. -/
  | sql (text : String)
  deriving Repr, DecidableEq

/-- A column and what stands for its value. -/
structure ColumnSlot where
  column : String
  slot : Slot
  deriving Repr, DecidableEq

/-- The tokens in the place of a value. -/
def Slot.tokens : Slot → Tokens
  | .parameter index => [.parameter index]
  | .null => [.null]
  | .sql text => if text.isEmpty then [] else [.word text]

/-- Pieces with commas between them. -/
def commaSeparated (pieces : List Tokens) : Tokens := Text.separated [.word ", "] pieces

/-- Conditions that all hold. -/
def allOf (conditions : List Tokens) : Tokens := Text.separated [.word " AND "] conditions

/-- A table, and its alias unless that is empty. -/
def tableTokens (table tableAlias : String) : Tokens :=
  .bare table :: if tableAlias.isEmpty then [] else [.word " ", .word tableAlias]

/-- The test for NULL or against it. -/
def nullTest (negated : Bool) : Token := .word (if negated then " IS NOT NULL" else " IS NULL")

/-- The words of a join. -/
def JoinKind.text : JoinKind → String
  | .inner => "INNER JOIN"
  | .left => "LEFT OUTER JOIN"

/-- A join and its condition. -/
def Join.tokens (j : Join) : Tokens :=
  .word j.kind.text :: .word " " :: tableTokens j.table j.tableAlias
    ++ [.word " ON ", .identifier j.leftAlias j.leftColumn, .word " = ",
      .identifier j.tableAlias j.rightColumn]

/-- The column has the value of its slot, or is NULL. -/
def ColumnSlot.condition (c : ColumnSlot) : Tokens :=
  .bare c.column :: match c.slot with
    | .null => [nullTest false]
    | slot => .word " = " :: slot.tokens

/-- The column gets the value of its slot. -/
def ColumnSlot.assignment (c : ColumnSlot) : Tokens :=
  .bare c.column :: .word " = " :: c.slot.tokens

/-- All columns have the values of their slots. -/
def keyCondition (slots : List ColumnSlot) : Tokens := allOf (slots.map (·.condition))

/-- The condition behind WHERE, if there is one. -/
def whereKey (slots : List ColumnSlot) : Tokens :=
  if slots.isEmpty then [] else .word " WHERE " :: keyCondition slots

/-- The parts of a selection. -/
structure SelectParts where
  table : String
  tableAlias : String
  columns : List String
  joins : List Join := []
  /-- Conditions that all hold. -/
  filters : List Tokens := []
  orders : List (Tokens × Order) := []
  limit : Option Nat := none
  deriving Repr, DecidableEq

/-- The filters behind WHERE, if there is one. Several are parenthesized each. -/
def filterTokens (filters : List Tokens) : Tokens :=
  if filters.isEmpty then []
  else .word "\nWHERE " :: allOf (filters.map (Tokens.parenthesizedIf (1 < filters.length)))

/-- The orderings, if there is one. -/
def orderTokens (orders : List (Tokens × Order)) : Tokens :=
  if orders.isEmpty then []
  else .word "\nORDER BY " :: commaSeparated (orders.map fun o => o.1 ++ [.word o.2.text])

/-- The line of a selection. -/
def SelectParts.line (d : Dialect) (s : SelectParts) : Tokens :=
  let limit (words : Nat → String) : Tokens := s.limit.toList.map fun n => .word (words n)
  .word "SELECT " :: limit d.leadingLimit
    ++ commaSeparated (s.columns.map fun c => [.identifier s.tableAlias c])
    ++ .word "\nFROM " :: tableTokens s.table s.tableAlias
    ++ s.joins.flatMap (fun j => .word "\n" :: j.tokens)
    ++ filterTokens s.filters ++ orderTokens s.orders ++ limit d.trailingLimit ++ [.word ";"]

/-- The selection of the row that was just written, by its key. -/
structure ReadBack where
  table : String
  columns : List String
  key : List ColumnSlot
  deriving Repr, DecidableEq

/-- The line of a reading back. -/
def ReadBack.line (r : ReadBack) : Tokens :=
  .word "SELECT " :: commaSeparated (r.columns.map fun c => [.bare c]) ++ .word " FROM "
    :: .bare r.table :: whereKey r.key ++ [.word ";"]

/-- The parts of an insert. -/
structure InsertParts where
  table : String
  before : List String := []
  values : List ColumnSlot
  after : List String := []
  readBack : ReadBack
  deriving Repr, DecidableEq

/-- A piece of SQL on a line of its own. -/
def snippetLine (text : String) : Tokens := [.word text, .word ";"]

/-- The line that inserts the values; without values the defaults are. -/
def InsertParts.insertLine (d : Dialect) (i : InsertParts) : Tokens :=
  .word d.insertWords :: .bare i.table ::
    if i.values.isEmpty then [.word " DEFAULT VALUES;"]
    else .word " (" :: commaSeparated (i.values.map fun v => [.bare v.column])
      ++ .word ") VALUES (" :: commaSeparated (i.values.map (·.slot.tokens)) ++ [.word ");"]

/-- The lines of an insert: what makes the keys, the insert, and the row read back. -/
def InsertParts.lines (d : Dialect) (i : InsertParts) : List Tokens :=
  i.before.map snippetLine ++ [i.insertLine d] ++ i.after.map snippetLine ++ [i.readBack.line]

/-- The parts of an update. -/
structure UpdateParts where
  table : String
  assignments : List ColumnSlot
  key : List ColumnSlot
  readBack : ReadBack
  deriving Repr, DecidableEq

/-- The line that assigns the columns. -/
def UpdateParts.updateLine (u : UpdateParts) : Tokens :=
  .word "UPDATE " :: .bare u.table :: .word " SET "
    :: commaSeparated (u.assignments.map (·.assignment)) ++ whereKey u.key ++ [.word ";"]

/-- The lines of an update; without an assignment the row is only read back. -/
def UpdateParts.lines (u : UpdateParts) : List Tokens :=
  (if u.assignments.isEmpty then [] else [u.updateLine]) ++ [u.readBack.line]

/-- The parts of a deletion. -/
structure DeleteParts where
  table : String
  key : List ColumnSlot
  deriving Repr, DecidableEq

/-- The line of a deletion. -/
def DeleteParts.line (d : Dialect) (x : DeleteParts) : Tokens :=
  .word d.deleteWords :: .bare x.table :: whereKey x.key ++ [.word ";"]

/-- The lines one below the other. -/
def Dialect.batch (d : Dialect) (lines : List Tokens) : String :=
  "\n".intercalate (lines.map d.text)

/-- The lines below what is already written. -/
def Dialect.appendBatch (d : Dialect) (written : String) (lines : List Tokens) : String :=
  if written.isEmpty then d.batch lines else written ++ "\n" ++ d.batch lines

end RowMapper
