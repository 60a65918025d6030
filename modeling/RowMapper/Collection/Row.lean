import RowMapper.Error
import RowMapper.Instance
import RowMapper.Statement.Command

/-!
# Instances and rows

What an instance contributes to the commands on its row, by which key the row is found, and how
the columns of a row are taken into the instance.
-/

namespace RowMapper

namespace Instance

/-- The tracked member of a column. -/
def tracked (i : Instance) (m : TypeMapping) (c : ColumnMapping) :
    Except CollectionError TrackedMember :=
  match i.member? c.name with
  | some member => .ok member
  | none => .error (.untracked c.name m.entity)

/-! ### Contributions -/

/-- What a column contributes. The key of a stored row is the committed one, since the current
one may have been assigned meanwhile. -/
def contribution (i : Instance) (m : TypeMapping) (strategies : KeyStrategies) (stored : Bool)
    (c : ColumnMapping) : Except CollectionError Contribution :=
  (i.tracked m c).map fun member =>
    { name := c.column
      value := some (if stored && c.primaryKey then member.cell.committedValue
        else member.cell.value)
      role := c.role
      strategy := if c.primaryKey then strategies.find? c.valueType else none
      changed := member.cell.isChanged }

/-- The contributions of all columns, in the order of the mapping. -/
def contributions (i : Instance) (m : TypeMapping) (strategies : KeyStrategies) (stored : Bool) :
    Except CollectionError (List Contribution) :=
  m.columns.mapM (i.contribution m strategies stored)

/-! ### Keys -/

/-- The first key that differs from its committed value. -/
def modifiedKey? (i : Instance) (m : TypeMapping) : Option ColumnMapping :=
  m.primaryKeys.find? fun c => (i.member? c.name).any (·.cell.isChanged)

/-- The committed value of a key, which has to be there. -/
def storedKey (i : Instance) (m : TypeMapping) (c : ColumnMapping) :
    Except CollectionError (ColumnMapping × Value) := do
  let member ← i.tracked m c
  let v := member.cell.committedValue
  if v.isNull then .error (.emptyKey c.name m.entity) else .ok (c, v)

/-- The keys that the stored row has. -/
def storedKeys (i : Instance) (m : TypeMapping) :
    Except CollectionError (List (ColumnMapping × Value)) :=
  m.primaryKeys.mapM (i.storedKey m)

/-! ### Loading -/

/-- The instance after a row was loaded; the columns before a faulty one stay loaded. -/
structure Loaded where
  outcome : Except Error Unit
  target : Instance
  log : Log

/-- Loads the labelled values in order, up to the first faulty one. A label that is no column of
the mapping is told and passed over. -/
def loadEntries (m : TypeMapping) (i : Instance) : List (String × Value) → Loaded
  | [] => ⟨.ok (), i, []⟩
  | (label, v) :: rest =>
    match m.byColumn? label with
    | none =>
      let loaded := loadEntries m i rest
      { loaded with
        log := .warn ("Column `" ++ label ++ "` is not mapped on " ++ m.entity.name) :: loaded.log }
    | some c =>
      match i.loadValue c.name v with
      | .error cause => ⟨.error (.conversion cause), i, []⟩
      | .ok none => ⟨.error (.collection (.untracked c.name m.entity)), i, []⟩
      | .ok (some i) => loadEntries m i rest

/-- Loads a row. -/
def load (i : Instance) (m : TypeMapping) (row : Row) : Loaded := loadEntries m i row.entries

end Instance

end RowMapper
