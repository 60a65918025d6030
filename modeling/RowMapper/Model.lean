import RowMapper.Instance

/-!
# Models

The entity types of a program: what is declared of them, and which cells their instances have.
-/

namespace RowMapper

/-- Declarations and layouts. -/
structure Model where
  schema : Schema
  layouts : List (EntityType × Layout)
  deriving DecidableEq

namespace Model

/-- The layout of the instances of a type; a type without one has no cells. -/
def layout (m : Model) (e : EntityType) : Layout := (m.layouts.lookup e).getD []

/-- A new instance. -/
def newInstance (m : Model) (e : EntityType) : Instance := .initial e (m.layout e)

/-- The current values of the keys of an instance. -/
def keyValues (m : Model) (i : Instance) : List Value :=
  i.keyValues (m.schema.declaration i.entity)

/-- The model with the types of another one behind its own. -/
def append (m n : Model) : Model :=
  ⟨⟨m.schema.entries ++ n.schema.entries⟩, m.layouts ++ n.layouts⟩

instance : Append Model := ⟨append⟩

end Model

/-- Sets the values of several members; names that are no members are passed over. -/
def Instance.setValues (i : Instance) :
    List (String × Value) → Except ConversionError Instance
  | [] => .ok i
  | (name, v) :: rest =>
    match i.setValue name v with
    | .error cause => .error cause
    | .ok changed => (changed.getD i).setValues rest

end RowMapper
