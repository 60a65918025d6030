import RowMapper.Error
import RowMapper.Instance
import RowMapper.Statement.Selection

/-!
# Queries

A query asks for the instances of an entity type that meet all of its filters, in an order, up
to a limit. How much of a row is asked for is declared with the type: of an instance that loads
on demand only the key, unless the query is forced.
-/

namespace RowMapper

/-- What is asked of a collection. -/
structure Query where
  filters : List Expr := []
  orders : List (Expr × Order) := []
  limit : Option Nat := none
  /-- All columns are asked for, whatever is declared. -/
  force : Bool := false
  deriving DecidableEq

namespace Query

/-- The columns that the query asks for. -/
def columns (q : Query) (m : TypeMapping) : List ColumnMapping :=
  if m.load == .onDemand && !q.force then m.columns.filter (·.primaryKey) else m.columns

/-- The selection of the columns, without any condition. -/
def blankSelection (q : Query) (m : TypeMapping) : Selection :=
  (q.columns m).foldl (fun s c => s.addColumn c.column) (.ofMapping m)

/-- The selection with all filters and orderings. -/
def selection (q : Query) (m : TypeMapping) (d : Dialect) (mappings : Mappings) :
    Except CompileError Selection := do
  let filtered ← q.filters.foldlM (fun s e => s.addFilter d mappings e) (q.blankSelection m)
  let ordered ← q.orders.foldlM (fun s (e, order) => s.addOrder d mappings e order) filtered
  return ordered.setLimit q.limit

/-- The statement of the query. -/
def statement (q : Query) (m : TypeMapping) (d : Dialect) (mappings : Mappings) :
    Except Error Built :=
  if m.load == .forceOnly && !q.force then .error (.collection (.onlyForced m.entity))
  else
    match q.selection m d mappings with
    | .error cause => .error (.ofCompile cause)
    | .ok selection => (selection.build d).mapError Error.statement

/-- The filter that a column has a value. -/
def keyFilter (entity : EntityType) (member : String) (v : Value) : Expr :=
  .lambdaOver "x" entity fun x => .binary .equal (.member x member) (.constant (.value v))

/-- The query for the stored row of the keys. -/
def byKeys (entity : EntityType) (keys : List (ColumnMapping × Value)) : Query :=
  { filters := keys.map fun (c, v) => keyFilter entity c.name v, force := true }

end Query

end RowMapper
