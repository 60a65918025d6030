import RowMapper.Mapping.Resolved

/-!
# Statement scopes

What the expressions of one statement share: the root table and its alias, the parameters, the
joins that navigation through foreign objects asked for, and the aliases that the rows of
lambdas stand for. Aliases are numbered in the order in which they are asked for; a path of
navigation is joined once.
-/

namespace RowMapper

/-- Which rows a join keeps. -/
inductive JoinKind where
  | inner
  /-- Also rows without a partner. -/
  | left
  deriving Repr, DecidableEq

/-- Both kinds of joins. -/
def JoinKind.all : List JoinKind := [.inner, .left]

/-- The name of the kind. -/
def JoinKind.name : JoinKind → String
  | .inner => "Inner"
  | .left => "Left"

/-- A join made for a navigation. -/
structure Join where
  /-- The navigation from the alias it starts at. -/
  path : String
  kind : JoinKind := .left
  table : String
  tableAlias : String
  leftAlias : String
  leftColumn : String
  rightColumn : String
  deriving Repr, DecidableEq

/-- The scope of a statement. -/
structure Scope where
  entity : EntityType
  table : String
  tableAlias : String := "t0"
  /-- The number of the next alias. It has no bound; a counter of 32 bits agrees with it for the
  first `2 ^ 32 - 2` aliases that a statement takes. -/
  nextNumber : Nat := 1
  parameters : List Value := []
  joins : List Join := []
  bindings : List (String × String) := []
  deriving DecidableEq

namespace Scope

/-- The scope of a statement over an entity type. -/
def ofMapping (m : TypeMapping) : Scope := { entity := m.entity, table := m.table }

/-- Takes the next alias. -/
def nextAlias (s : Scope) : String × Scope :=
  ("t" ++ toString s.nextNumber, { s with nextNumber := s.nextNumber + 1 })

/-- Adds a parameter; its position comes with the scope. -/
def addParameter (s : Scope) (v : Value) : Nat × Scope :=
  (s.parameters.length, { s with parameters := s.parameters ++ [v] })

/-- Takes all parameters out. -/
def takeParameters (s : Scope) : List Value × Scope := (s.parameters, { s with parameters := [] })

/-- The join for a path. -/
def join? (s : Scope) (path : String) : Option Join := s.joins.find? (·.path == path)

/-- The alias of the join for a path, which is made when it is first asked for. -/
def requireJoin (s : Scope) (path table leftAlias leftColumn rightColumn : String) :
    String × Scope :=
  match s.join? path with
  | some join => (join.tableAlias, s)
  | none =>
    let (tableAlias, s) := s.nextAlias
    let join : Join := { path, table, tableAlias, leftAlias, leftColumn, rightColumn }
    (tableAlias, { s with joins := s.joins ++ [join] })

/-- The alias bound to a name. -/
def binding? (s : Scope) (name : String) : Option String := s.bindings.lookup name

/-- Binds a name to an alias, in place of the former one. -/
def bind (s : Scope) (name tableAlias : String) : Scope :=
  if (s.binding? name).isSome then
    { s with bindings := s.bindings.map fun b => if b.1 == name then (name, tableAlias) else b }
  else { s with bindings := s.bindings ++ [(name, tableAlias)] }

/-- The scope with another root table. -/
def setTable (s : Scope) (table : String) : Scope := { s with table }

end Scope

end RowMapper
