import RowMapper.Number.Shortest
import RowMapper.Text.Escaped
import RowMapper.Value.Basic

/-!
# Inspection of values

The text that shows a value in messages: its type and, between parentheses, what it holds.
-/

namespace RowMapper

/-- What is shown of an optional part. -/
def inspectOption (inspect : α → String) : Option α → String
  | none => "None"
  | some a => "Some(" ++ inspect a ++ ")"

/-- What is shown of a list of parts. -/
def inspectList (inspect : α → String) (parts : List α) : String :=
  "[" ++ ", ".intercalate (parts.map inspect) ++ "]"

/-- The datum by itself. -/
def Datum.inspect : Datum → String
  | .boolean b => if b then "true" else "false"
  | .int16 n => toString n.toInt
  | .int32 n => toString n.toInt
  | .int64 n => toString n.toInt
  | .float32 x => x.shown
  | .float64 x => x.shown
  | .decimal d => d.text
  | .varchar s => Text.quoted s
  | .blob bytes => inspectList (fun b => toString b.toNat) bytes
  | .date d => d.text
  | .timestamp t => t.shown
  | .uuid u => u.text

/-- The type of the value and what it holds. -/
def Value.inspect : Value → String
  | .null .untyped => "Null"
  | .null (.of kind) => kind.name ++ "(None)"
  | .of datum => datum.kind.name ++ "(Some(" ++ datum.inspect ++ "))"

end RowMapper
