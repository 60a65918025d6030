import RowMapper.Value.Native

/-!
# Tracked cells

A cell holds two values of one member: the committed one, as it stands in the database, and the
current one. It is clean while the two are equal. `commit` makes the current value the committed
one and names the property to notify; `rollback` goes back to the committed value; `load` sets
both to what was read.
-/

namespace RowMapper

/-- The committed and the current value of a member, and the property its listener knows. -/
structure Cell (type : NativeType) where
  committed : type.Carrier
  current : type.Carrier
  property : Option String := none

/-- What a commit did: the cell after it, whether it was dirty, and the property to notify. -/
structure Commit (type : NativeType) where
  cell : Cell type
  changed : Bool
  notified : Option String

namespace Cell

variable {type : NativeType}

/-- A clean cell. -/
def new (value : type.Carrier) : Cell type := ⟨value, value, none⟩

/-- A clean cell with the initial value of the type. -/
def initial (type : NativeType) : Cell type := new type.initial

/-- The current value differs from the committed one. -/
def isChanged (cell : Cell type) : Bool := !type.equal cell.current cell.committed

/-- Sets the current value. -/
def set (cell : Cell type) (value : type.Carrier) : Cell type := { cell with current := value }

/-- Sets both values. -/
def load (cell : Cell type) (value : type.Carrier) : Cell type :=
  { cell with committed := value, current := value }

/-- Names the property that a commit notifies. -/
def subscribe (cell : Cell type) (property : String) : Cell type :=
  { cell with property := some property }

/-- Makes the current value the committed one. -/
def commit (cell : Cell type) : Commit type :=
  if cell.isChanged then ⟨{ cell with committed := cell.current }, true, cell.property⟩
  else ⟨cell, false, none⟩

/-- Goes back to the committed value; tells whether the cell was dirty. -/
def rollback (cell : Cell type) : Cell type × Bool :=
  if cell.isChanged then ({ cell with current := cell.committed }, true) else (cell, false)

/-- The current value as a value. -/
def value (cell : Cell type) : Value := type.toValue cell.current

/-- The committed value as a value. -/
def committedValue (cell : Cell type) : Value := type.toValue cell.committed

/-- Sets the current value to one that converts to the type. -/
def setValue (cell : Cell type) (value : Value) : Except ConversionError (Cell type) :=
  (type.ofValue value).map cell.set

/-- Sets both values to one that converts to the type. -/
def loadValue (cell : Cell type) (value : Value) : Except ConversionError (Cell type) :=
  (type.ofValue value).map cell.load

/-- What is shown of a cell. -/
def inspect (cell : Cell type) : String :=
  "FieldCell \x7b committed: " ++ type.inspect cell.committed ++ ", uncommitted: "
    ++ type.inspect cell.current ++ " \x7d"

end Cell

end RowMapper
