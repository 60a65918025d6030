import RowMapper.Cell
import RowMapper.Mapping.Declaration

/-!
# Instances

An instance of an entity type has a tracked cell for each of its members with a value. Which
cells there are is its layout: a declared member may lack one, and of two cells with one name
the first is found.
-/

namespace RowMapper

/-- The members that have a cell, and the native types of the cells. -/
abbrev Layout := List (String × NativeType)

/-- A cell and the member it belongs to. -/
structure TrackedMember where
  name : String
  type : NativeType
  cell : Cell type

namespace TrackedMember

/-- Replaces the cell. -/
def withCell (m : TrackedMember) (cell : Cell m.type) : TrackedMember := { m with cell }

/-- Sets the current value. -/
def setValue (m : TrackedMember) (v : Value) : Except ConversionError TrackedMember :=
  (m.cell.setValue v).map m.withCell

/-- Sets both values. -/
def loadValue (m : TrackedMember) (v : Value) : Except ConversionError TrackedMember :=
  (m.cell.loadValue v).map m.withCell

/-- Commits the cell; tells whether it was dirty. -/
def commit (m : TrackedMember) : TrackedMember × Bool :=
  let commit := m.cell.commit
  (m.withCell commit.cell, commit.changed)

/-- Rolls the cell back; tells whether it was dirty. -/
def rollback (m : TrackedMember) : TrackedMember × Bool :=
  let (cell, changed) := m.cell.rollback
  (m.withCell cell, changed)

end TrackedMember

/-- An instance of an entity type. -/
structure Instance where
  entity : EntityType
  members : List TrackedMember

namespace Instance

/-- A new instance, all cells clean and with their initial values. -/
def initial (entity : EntityType) (layout : Layout) : Instance :=
  ⟨entity, layout.map fun (name, type) => ⟨name, type, Cell.initial type⟩⟩

/-- The tracked member of a name. -/
def member? (i : Instance) (name : String) : Option TrackedMember :=
  i.members.find? (·.name == name)

/-- Replaces the first member of the name. -/
def replace (i : Instance) (m : TrackedMember) : Instance :=
  { i with members := go i.members }
where
  go : List TrackedMember → List TrackedMember
    | [] => []
    | head :: rest => if head.name == m.name then m :: rest else head :: go rest

/-- Sets the current value of a member; an unknown name is no failure of the value. -/
def setValue (i : Instance) (name : String) (v : Value) :
    Except ConversionError (Option Instance) :=
  match i.member? name with
  | none => .ok none
  | some m => (m.setValue v).map fun m => some (i.replace m)

/-- Sets both values of a member. -/
def loadValue (i : Instance) (name : String) (v : Value) :
    Except ConversionError (Option Instance) :=
  match i.member? name with
  | none => .ok none
  | some m => (m.loadValue v).map fun m => some (i.replace m)

/-- Changes the member of a name by a step that tells whether it did anything. -/
def step (change : TrackedMember → TrackedMember × Bool) (i : Instance) (name : String) :
    Instance × Bool :=
  match i.member? name with
  | none => (i, false)
  | some m =>
    let (m, changed) := change m
    (i.replace m, changed)

/-- Commits the member of a name. -/
def commit (i : Instance) (name : String) : Instance × Bool := i.step TrackedMember.commit name

/-- Rolls back the member of a name. -/
def rollback (i : Instance) (name : String) : Instance × Bool :=
  i.step TrackedMember.rollback name

/-- Does a step on each of the names; the number of steps that did something comes with the
instance. -/
def stepAll (change : TrackedMember → TrackedMember × Bool) :
    List String → Instance → Instance × Nat
  | [], i => (i, 0)
  | name :: rest, i =>
    let (i, changed) := i.step change name
    let (i, count) := stepAll change rest i
    (i, (if changed then 1 else 0) + count)

/-- Commits every declared member that has a cell. -/
def commitAll (i : Instance) (d : Declaration) : Instance × Nat :=
  stepAll TrackedMember.commit d.trackedNames i

/-- The properties that are notified when the members of these names are committed one after the
other. -/
def noticesOf : List String → Instance → List String
  | [], _ => []
  | name :: rest, i =>
    ((i.member? name).bind (·.cell.commit.notified)).toList ++ noticesOf rest (i.commit name).1

/-- The properties that a commit of every declared member notifies, in order. -/
def notices (i : Instance) (d : Declaration) : List String := noticesOf d.trackedNames i

/-- Rolls back every declared member that has a cell. -/
def rollbackAll (i : Instance) (d : Declaration) : Instance × Nat :=
  stepAll TrackedMember.rollback d.trackedNames i

/-- A declared member differs from its committed value. -/
def isChanged (i : Instance) (d : Declaration) : Bool :=
  d.trackedNames.any fun name => (i.member? name).any (·.cell.isChanged)

/-- The current values of the declared keys that have a cell. -/
def keyValues (i : Instance) (d : Declaration) : List Value :=
  d.keys.filterMap fun key => (i.member? key.name).map (·.cell.value)

end Instance

end RowMapper
