import RowMapper.Collection.Row

/-!
# Commands of an instance

The statements that insert, update and delete the row of an instance, built before anything is
sent: an instance that does not fit its mapping is found out without a connection.
-/

namespace RowMapper

namespace Instance

/-- The insert of the instance, and what is left to make keys from. -/
def insertion (i : Instance) (m : TypeMapping) (d : Dialect) (supply : KeySupply) :
    Except Error Built × KeySupply :=
  match i.contributions m d.strategies false with
  | .error cause => (.error (.collection cause), supply)
  | .ok fields =>
    let (built, supply) := Command.insert ⟨m.table, fields⟩ d supply
    (built.mapError Error.statement, supply)

/-- The update of the changed members; nothing, if there is none to write. The key has to be the
stored one. -/
def modification (i : Instance) (m : TypeMapping) (d : Dialect) : Except Error (Option Built) :=
  match i.modifiedKey? m with
  | some key => .error (.collection (.keyModified key.name m.entity))
  | none => do
    let fields ← (i.contributions m d.strategies true).mapError Error.collection
    let command : Command := ⟨m.table, fields⟩
    if command.hasChanges then
      let built ← (command.update d).mapError Error.statement
      return some built
    else return none

/-- The deletion of the rows of a reference list. -/
structure ListDeletion where
  list : String
  statement : Statement
  deriving DecidableEq

/-- The deletions that remove an instance: those of the rows that refer to it go first. -/
structure Removal where
  cascades : List ListDeletion
  own : Statement
  deriving DecidableEq

/-- The command that deletes rows by these columns. -/
def deletionBy (table : String) (keys : List (String × Value)) : Command :=
  ⟨table, keys.map fun (column, v) => { name := column, value := some v, role := .keyField }⟩

/-- The deletion of the rows that refer to the key by a reference list. -/
def listDeletion (m : TypeMapping) (d : Dialect) (keys : List (ColumnMapping × Value))
    (l : ListMapping) : Except Error Built :=
  match keys with
  | [(_, key)] => ((deletionBy l.targetTable [(l.targetColumn, key)]).delete d).mapError .statement
  | _ => .error (.collection (.compositeKey l.name m.entity))

/-- The deletions for the reference lists, in order, and what is told of them. -/
def listDeletions (m : TypeMapping) (d : Dialect) (keys : List (ColumnMapping × Value)) :
    List ListMapping → Except Error (List ListDeletion) × Log
  | [] => (.ok [], [])
  | l :: rest =>
    match listDeletion m d keys l with
    | .error cause => (.error cause, [])
    | .ok built =>
      let (outcome, log) := listDeletions m d keys rest
      (outcome.map (⟨l.name, built.statement⟩ :: ·), built.log ++ log)

/-- The reference lists whose rows are deleted with the instance. -/
def cascadingLists (m : TypeMapping) : List ListMapping := m.lists.filter (·.cascade.delete)

/-- The deletions that remove the instance, and what is told of them. -/
def removal (i : Instance) (m : TypeMapping) (d : Dialect) : Except Error Removal × Log :=
  match i.storedKeys m with
  | .error cause => (.error (.collection cause), [])
  | .ok keys =>
    match listDeletions m d keys (cascadingLists m) with
    | (.error cause, log) => (.error cause, log)
    | (.ok cascades, log) =>
      match (deletionBy m.table (keys.map fun (c, v) => (c.column, v))).delete d with
      | .error cause => (.error (.statement cause), log)
      | .ok built => (.ok ⟨cascades, built.statement⟩, log ++ built.log)

end Instance

end RowMapper
