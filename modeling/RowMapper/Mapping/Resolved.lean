import RowMapper.Mapping.Declaration

/-!
# Type mappings

The contract between an entity type and its table, resolved once: the table, the columns of the
members, and where foreign objects and reference lists lead.
-/

namespace RowMapper

/-- How a column takes part in statements. -/
inductive FieldRole where
  /-- A primary key: it identifies rows and is never assigned. -/
  | keyField
  /-- Inserted and updated. -/
  | writeable
  | insertable
  | updateable
  /-- Selected only. -/
  | readOnly
  deriving Repr, DecidableEq

namespace FieldRole

/-- All roles. -/
def all : List FieldRole := [.keyField, .writeable, .insertable, .updateable, .readOnly]

/-- The name of the role. -/
def name : FieldRole → String
  | .keyField => "KeyField"
  | .writeable => "Writeable"
  | .insertable => "Insertable"
  | .updateable => "Updateable"
  | .readOnly => "ReadOnly"

/-- The role of a column; a key is a key whatever its access. -/
def ofAccess (primaryKey : Bool) (access : Access) : FieldRole :=
  match primaryKey, access with
  | true, _ => .keyField
  | false, ⟨true, true⟩ => .writeable
  | false, ⟨true, false⟩ => .insertable
  | false, ⟨false, true⟩ => .updateable
  | false, ⟨false, false⟩ => .readOnly

/-- Inserted like any other value. -/
def isInsertable : FieldRole → Bool
  | .writeable | .insertable => true
  | _ => false

/-- Assigned by updates. -/
def isUpdateable : FieldRole → Bool
  | .writeable | .updateable => true
  | _ => false

end FieldRole

/-- A member with a column. -/
structure ColumnMapping where
  name : String
  column : String
  valueType : ValueType
  primaryKey : Bool
  access : Access
  deriving Repr, DecidableEq

/-- How the column takes part in statements. -/
def ColumnMapping.role (c : ColumnMapping) : FieldRole := .ofAccess c.primaryKey c.access

/-- Where a foreign object leads: the single primary key of the target. -/
structure Reference where
  target : EntityType
  targetTable : String
  /-- The name of the referenced key. -/
  targetKey : String
  targetKeyColumn : String
  deriving Repr, DecidableEq

/-- The entities that point back, and the column of the target table that does. -/
structure ListMapping where
  name : String
  target : EntityType
  targetTable : String
  targetField : String
  targetColumn : String
  cascade : Cascade
  deriving Repr, DecidableEq

/-- A resolved member. The column of a foreign object has the type of the referenced key. -/
inductive MemberMapping where
  | field (column : ColumnMapping)
  | foreign (column : ColumnMapping) (reference : Reference)
  | list (list : ListMapping)
  deriving Repr, DecidableEq

namespace MemberMapping

/-- The name of the member. -/
def name : MemberMapping → String
  | .field c => c.name
  | .foreign c _ => c.name
  | .list l => l.name

/-- The column of the member; a reference list has none. -/
def column? : MemberMapping → Option ColumnMapping
  | .field c => some c
  | .foreign c _ => some c
  | .list _ => none

/-- The member belongs to the primary key. -/
def isPrimaryKey (m : MemberMapping) : Bool := m.column?.any (·.primaryKey)

/-- The column is backed by this name. -/
def hasColumn (m : MemberMapping) (column : String) : Bool :=
  m.column?.any (·.column == column)

end MemberMapping

/-- The resolved mapping of an entity type. -/
structure TypeMapping where
  entity : EntityType
  table : String
  load : LoadBehavior
  members : List MemberMapping
  deriving Repr, DecidableEq

namespace TypeMapping

/-- The first member of this name. -/
def member? (m : TypeMapping) (name : String) : Option MemberMapping :=
  m.members.find? (·.name == name)

/-- The members with a column, in their order. -/
def columns (m : TypeMapping) : List ColumnMapping := m.members.filterMap (·.column?)

/-- The columns of the primary key. -/
def primaryKeys (m : TypeMapping) : List ColumnMapping := m.columns.filter (·.primaryKey)

/-- The reference lists, in their order. -/
def lists (m : TypeMapping) : List ListMapping :=
  m.members.filterMap fun
    | .list l => some l
    | _ => none

/-- The first member backed by the column. -/
def byColumn? (m : TypeMapping) (column : String) : Option ColumnMapping :=
  m.columns.find? (·.column == column)

end TypeMapping

/-- The column of a foreign object admits a NULL that its type does not have by itself. -/
def ColumnMapping.nullable (c : ColumnMapping) : Bool := c.valueType.isValueType

end RowMapper
