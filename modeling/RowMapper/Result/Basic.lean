import RowMapper.Value.Basic

/-!
# Results

What a statement yields: a stream of rows, of counts of affected rows, and of failures, in any
order. Three views of it are given here; a cursor over it is another.
-/

namespace RowMapper

/-- How many rows were changed, and the last identifier that the server made, if it told one. -/
structure Affected where
  rows : UInt64 := 0
  lastId : Option Int64 := none
  deriving DecidableEq

namespace Affected

/-- The counts together; the later identifier counts. -/
def add (a b : Affected) : Affected := ⟨a.rows + b.rows, b.lastId <|> a.lastId⟩

/-- The counts of a list together. -/
def total (counts : List Affected) : Affected := counts.foldl add {}

end Affected

/-- A row and the labels of its columns. -/
structure Row where
  labels : List String
  values : List Value
  deriving DecidableEq

namespace Row

/-- The labels with their values, in order. -/
def entries (r : Row) : List (String × Value) := r.labels.zip r.values

/-- The value of the first column with the label. -/
def column? (r : Row) (label : String) : Option Value := r.entries.lookup label

end Row

/-- An item of a stream of results. -/
inductive ResultItem where
  | row (row : Row)
  | affected (affected : Affected)
  /-- A failure of the server. -/
  | failure (message : String)
  deriving DecidableEq

/-- The results of a statement, in order. -/
abbrev Results := List ResultItem

namespace Results

/-- All items up to the first failure, or that failure. -/
def all : Results → Except String Results
  | [] => .ok []
  | .failure message :: _ => .error message
  | item :: rest => (all rest).map (item :: ·)

/-- The rows, or the first failure. -/
def fetch : Results → Except String (List Row)
  | [] => .ok []
  | .failure message :: _ => .error message
  | .row r :: rest => (fetch rest).map (r :: ·)
  | .affected _ :: rest => fetch rest

/-- The rows and failures, without the counts. -/
def rows : Results → List (Except String Row)
  | [] => []
  | .failure message :: rest => .error message :: rows rest
  | .row r :: rest => .ok r :: rows rest
  | .affected _ :: rest => rows rest

/-- The counts behind one already known, or the first failure. -/
def executeFrom (known : Affected) : Results → Except String Affected
  | [] => .ok known
  | .failure message :: _ => .error message
  | .row _ :: rest => executeFrom known rest
  | .affected a :: rest => executeFrom (known.add a) rest

/-- The counts together, or the first failure. -/
def execute (results : Results) : Except String Affected := executeFrom {} results

end Results

end RowMapper
