import RowMapper.Sql.Compile
import RowMapper.Statement.Command

/-!
# Selections

A selection of rows grows by columns, filters, orderings and a limit. Filters and orderings are
compiled into its scope when they are added. A compilation may fail behind joins and parameters that
it has asked for, so it works on a copy of the scope until it has succeeded.
-/

namespace RowMapper

/-- A selection as far as it is known. -/
structure Selection where
  table : String
  scope : Scope
  columns : List String := []
  filters : List Tokens := []
  orders : List (Tokens × Order) := []
  limit : Option Nat := none
  deriving DecidableEq

/-- What an expression is compiled under in a dialect. -/
def Dialect.environment (d : Dialect) (mappings : Mappings) (context : Context) : Environment :=
  { rules := d.rules, strategies := d.strategies, mappings, context }

namespace Selection

/-- A selection from the table of an entity type. -/
def ofMapping (m : TypeMapping) : Selection := { table := m.table, scope := .ofMapping m }

/-- The selection with one more column. -/
def addColumn (s : Selection) (column : String) : Selection :=
  { s with columns := s.columns ++ [column] }

/-- The selection from another table. -/
def setTable (s : Selection) (table : String) : Selection :=
  { s with table, scope := s.scope.setTable table }

/-- The selection with another limit. -/
def setLimit (s : Selection) (limit : Option Nat) : Selection := { s with limit }

end Selection

/-! ## Calls -/

/-- Steps on a selection. What a step changed before a failure remains. -/
abbrev SelectionM := ExceptT CompileError (StateM Selection)

namespace SelectionM

/-- Compiles an expression for a clause. What the compilation asks of the scope it asks of a copy,
which takes the place of the scope once all of the expression has compiled. -/
def compile (d : Dialect) (mappings : Mappings) (clause : Clause) (e : Expr) :
    SelectionM Tokens := do
  let compiled := e.compileInto (d.environment mappings ⟨clause, true⟩) (← get).scope
  let tokens ← compiled.outcome
  modify ({ · with scope := compiled.scope })
  return tokens

/-- Adds a condition to those that all hold. -/
def addFilter (d : Dialect) (mappings : Mappings) (e : Expr) : SelectionM Unit := do
  let tokens ← compile d mappings .filter e
  modify fun s => { s with filters := s.filters ++ [tokens] }

/-- Adds an ordering behind the others. -/
def addOrder (d : Dialect) (mappings : Mappings) (e : Expr) (order : Order) :
    SelectionM Unit := do
  let tokens ← compile d mappings .ordering e
  modify fun s => { s with orders := s.orders ++ [(tokens, order)] }

end SelectionM

namespace Selection

/-- A call that makes a selection grow. -/
inductive Call where
  | setTable (table : String)
  | addColumn (column : String)
  | addFilter (condition : Expr)
  | addOrder (e : Expr) (order : Order)
  | setLimit (limit : Option Nat)
  deriving DecidableEq

/-- The steps of a call. -/
def Call.steps (d : Dialect) (mappings : Mappings) : Call → SelectionM Unit
  | .setTable table => modify (·.setTable table)
  | .addColumn column => modify (·.addColumn column)
  | .addFilter condition => SelectionM.addFilter d mappings condition
  | .addOrder e order => SelectionM.addOrder d mappings e order
  | .setLimit limit => modify (·.setLimit limit)

/-- What a call came to, and the selection that it left. -/
structure Attempt where
  outcome : Except CompileError Unit
  selection : Selection

/-- The selection, unless the call failed. -/
def Attempt.result (a : Attempt) : Except CompileError Selection :=
  a.outcome.map fun _ => a.selection

/-- Makes a call. -/
def attempt (s : Selection) (d : Dialect) (mappings : Mappings) (call : Call) : Attempt :=
  let (outcome, selection) := (call.steps d mappings).run.run s
  { outcome, selection }

/-- The selection with one more condition, unless that does not compile. -/
def addFilter (s : Selection) (d : Dialect) (mappings : Mappings) (e : Expr) :
    Except CompileError Selection :=
  (s.attempt d mappings (.addFilter e)).result

/-- The selection with one more ordering, unless that does not compile. -/
def addOrder (s : Selection) (d : Dialect) (mappings : Mappings) (e : Expr) (order : Order) :
    Except CompileError Selection :=
  (s.attempt d mappings (.addOrder e order)).result

/-- The selection that a call leaves, whether it succeeds or fails. -/
def perform (s : Selection) (d : Dialect) (mappings : Mappings) (call : Call) : Selection :=
  (s.attempt d mappings call).selection

/-- The selection after calls in order. -/
def performAll (s : Selection) (d : Dialect) (mappings : Mappings) (calls : List Call) :
    Selection :=
  calls.foldl (fun s call => s.perform d mappings call) s

/-- The parts of the statement. -/
def parts (s : Selection) : SelectParts :=
  { table := s.table
    tableAlias := s.scope.tableAlias
    columns := s.columns
    joins := s.scope.joins
    filters := s.filters
    orders := s.orders
    limit := s.limit }

/-- The statement of the selection. -/
def build (s : Selection) (d : Dialect) : Except StatementError Built :=
  if s.table.isEmpty then .error (.noTable .select)
  else if s.columns.isEmpty then .error (.noColumns s.table)
  else .ok (.of .select (d.batch [s.parts.line d]) s.scope.parameters)

end Selection

end RowMapper
