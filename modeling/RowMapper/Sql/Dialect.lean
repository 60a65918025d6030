import RowMapper.Sql.KeyStrategy
import RowMapper.Sql.Rule
import RowMapper.Sql.Token
import RowMapper.Text.Substituted

/-!
# Dialects

A dialect says how names are quoted, how placeholders and row limits are written, by which rules
expressions are compiled, and where the keys of new rows come from. Three dialects are given:
a generic one, that of PostgreSQL and that of SQL Server.
-/

namespace RowMapper

/-- The characters around a quoted name. -/
structure Quoting where
  left : Char
  right : Char
  deriving Repr, DecidableEq

/-- How the placeholder of a parameter is written. -/
inductive Placeholder where
  /-- A name with the position, counted from zero. -/
  | named
  /-- The position, counted from one. -/
  | positional
  deriving Repr, DecidableEq

/-- Where a limit of rows is written. -/
inductive LimitStyle where
  /-- At the end of the statement. -/
  | trailing
  /-- Right behind SELECT. -/
  | leading
  deriving Repr, DecidableEq

/-- A dialect of SQL. -/
structure Dialect where
  quoting : Quoting := ⟨'"', '"'⟩
  placeholder : Placeholder := .named
  limitStyle : LimitStyle := .trailing
  insertWords : String := "INSERT INTO "
  deleteWords : String := "DELETE FROM "
  rules : List RuleEntry := RuleEntry.standard
  strategies : KeyStrategies := {}
  deriving Repr, DecidableEq

/-- The text with each occurrence of a character replaced. -/
def Text.escaping (search : Char) (replacement : List Char) (s : String) : String :=
  String.ofList (s.toList.flatMap fun c => if c = search then replacement else [c])

/-- The name between quotes, a closing quote in it written twice. -/
def Quoting.quote (q : Quoting) (name : String) : String :=
  String.singleton q.left ++ Text.escaping q.right [q.right, q.right] name
    ++ String.singleton q.right

namespace Dialect

/-- The name, quoted. -/
def identifier (d : Dialect) (name : String) : String := d.quoting.quote name

/-- The placeholder of the parameter at a position. -/
def parameter (d : Dialect) (index : Nat) : String :=
  match d.placeholder with
  | .named => "@p" ++ toString index
  | .positional => "$" ++ toString (index + 1)

/-- The text of a token. -/
def token (d : Dialect) : Token → String
  | .word text => text
  | .identifier qualifier name =>
    (if qualifier.isEmpty then "" else qualifier ++ ".") ++ d.identifier name
  | .parameter index => d.parameter index

/-- The text of a piece of SQL. -/
def text (d : Dialect) (tokens : Tokens) : String := String.join (tokens.map d.token)

/-- The words of a row limit behind SELECT. -/
def leadingLimit (d : Dialect) (limit : Nat) : String :=
  match d.limitStyle with
  | .trailing => ""
  | .leading => "TOP " ++ toString limit ++ " "

/-- The words of a row limit at the end of a statement. -/
def trailingLimit (d : Dialect) (limit : Nat) : String :=
  match d.limitStyle with
  | .trailing => "\nLIMIT " ++ toString limit
  | .leading => ""

/-- The variable that holds a key the server makes. -/
def keyVariable (index : Nat) : String := "@k" ++ toString index

/-- The template with the key variable, then the column, then the table in the places that name
them. -/
def keyTemplate (d : Dialect) (template : String) (index : Nat) (column table : String) :
    String :=
  let withKey := Text.replaced template "\x7bkey\x7d" (keyVariable index)
  let withColumn := Text.replaced withKey "\x7bcolumn\x7d" (d.identifier column)
  Text.replaced withColumn "\x7btable\x7d" (d.identifier table)

/-- Names between double quotes, named placeholders, and limits at the end. The server's last
row number is the key of a row, and identifiers are made in process. -/
def generic : Dialect :=
  let integer (kind : Kind) := KeyStrategy.server (.of kind) "last_insert_rowid()" .zero
  { strategies := .ofList
      [integer .int16, integer .int32, integer .int64, .client (.of .uuid) .random .nilUuid] }

/-- Like the generic dialect with counted placeholders; the keys of rows come from sequences. -/
def postgres : Dialect :=
  let sequence (kind : Kind) := KeyStrategy.server (.of kind) "lastval()" .zero
  { placeholder := .positional
    strategies := .ofList
      [sequence .int16, sequence .int32, sequence .int64,
        .client (.of .uuid) .random .nilUuid] }

/-- Names between brackets and limits behind SELECT; all keys are made by the server and kept
in variables. -/
def sqlServer : Dialect :=
  let identity (kind : Kind) : KeyStrategy :=
    { valueType := .of kind
      preInsert := some "DECLARE \x7bkey\x7d BIGINT"
      postInsert := some "SET \x7bkey\x7d = SCOPE_IDENTITY()"
      reference := "\x7bkey\x7d"
      emptiness := .zero }
  { quoting := ⟨'[', ']'⟩
    limitStyle := .leading
    insertWords := "INSERT "
    deleteWords := "DELETE "
    strategies := .ofList
      [identity .int16, identity .int32, identity .int64,
        { valueType := .of .uuid
          preInsert := some "DECLARE \x7bkey\x7d UNIQUEIDENTIFIER = NEWID()"
          reference := "\x7bkey\x7d"
          duringInsert := true
          emptiness := .nilUuid }] }

end Dialect

end RowMapper
