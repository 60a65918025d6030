import RowMapper.Result.Basic
import RowMapper.Value.Native

/-!
# Cursors

A cursor goes through the rows of a stream of results, one at a time. The counts it meets on
its way add up.
-/

namespace RowMapper

/-- Why a column of the current row cannot be read. -/
inductive ReadError where
  | noRow (column : String)
  | noColumn (column : String)
  | conversion (cause : ConversionError)
  deriving DecidableEq

/-- The items ahead, the current row, and the counts met so far. -/
structure Cursor where
  ahead : Results
  current : Option Row := none
  affected : Affected := {}
  deriving DecidableEq

namespace Cursor

/-- Moves on through the items: whether there is a row, or the failure met first, which leaves
the current row as it is. -/
def advance (current : Option Row) (affected : Affected) :
    Results → Except String Bool × Cursor
  | [] => (.ok false, ⟨[], none, affected⟩)
  | .row r :: rest => (.ok true, ⟨rest, some r, affected⟩)
  | .affected a :: rest => advance current (affected.add a) rest
  | .failure message :: rest => (.error message, ⟨rest, current, affected⟩)

/-- Moves to the next row. -/
def next (c : Cursor) : Except String Bool × Cursor := advance c.current c.affected c.ahead

/-- A column of the current row as a native value. -/
def get (c : Cursor) (column : String) (type : NativeType) : Except ReadError type.Carrier :=
  match c.current with
  | none => .error (.noRow column)
  | some r =>
    match r.column? column with
    | none => .error (.noColumn column)
    | some v => (type.ofValue v).mapError .conversion

/-- A column of the current row as it is. -/
def column? (c : Cursor) (column : String) : Option Value :=
  c.current.bind (·.column? column)

end Cursor

end RowMapper
