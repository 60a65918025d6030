import RowMapper.Value.Native

/-!
# Declarations

What is declared of an entity type: its table, how its rows are loaded, and its members. A
member is a field, a foreign object (the key of another entity), or a reference list (the
entities whose foreign object points back).
-/

namespace RowMapper

/-- An entity type, known by its name. -/
structure EntityType where
  name : String
  deriving Repr, DecidableEq

/-- How rows of an entity type are loaded by queries. -/
inductive LoadBehavior where
  /-- All columns are selected. -/
  | full
  /-- Only the keys are selected, the rest is read on reload. -/
  | onDemand
  /-- The type is queried only by force. -/
  | forceOnly
  deriving Repr, DecidableEq

/-- The name of the behaviour. -/
def LoadBehavior.name : LoadBehavior → String
  | .full => "Full"
  | .onDemand => "OnDemand"
  | .forceOnly => "ForceOnly"

/-- What happens to the members of a reference list. -/
structure Cascade where
  delete : Bool
  save : Bool
  dropChanges : Bool
  deriving Repr, DecidableEq

namespace Cascade

/-- Nothing happens to them. -/
def none : Cascade := ⟨false, false, false⟩

/-- Everything is done to them as well. -/
def all : Cascade := ⟨true, true, true⟩

/-- They are deleted as well. -/
def deleteOnly : Cascade := ⟨true, false, false⟩

end Cascade

/-- Whether a column takes part in inserts and in updates. -/
structure Access where
  insertable : Bool
  updateable : Bool
  deriving Repr, DecidableEq

namespace Access

/-- Inserted and updated. -/
def full : Access := ⟨true, true⟩

/-- Neither inserted nor updated. -/
def readOnly : Access := ⟨false, false⟩

/-- Inserted only. -/
def insertOnly : Access := ⟨true, false⟩

/-- Updated only. -/
def updateOnly : Access := ⟨false, true⟩

end Access

/-- A member with values of its own. -/
structure FieldDeclaration where
  name : String
  /-- An explicit column, which no naming rule changes. -/
  column : Option String := none
  valueType : ValueType
  primaryKey : Bool := false
  access : Access := .full
  deriving Repr, DecidableEq

/-- A member that holds the key of another entity. -/
structure ForeignDeclaration where
  name : String
  /-- An explicit column, which no naming rule changes. -/
  column : Option String := none
  target : EntityType
  primaryKey : Bool := false
  access : Access := .full
  deriving Repr, DecidableEq

/-- The entities whose member `targetField` points back at the declaring type. -/
structure ListDeclaration where
  name : String
  target : EntityType
  targetField : String
  cascade : Cascade := .none
  deriving Repr, DecidableEq

/-- A declared member. -/
inductive MemberDeclaration where
  | field (field : FieldDeclaration)
  | foreign (foreign : ForeignDeclaration)
  | list (list : ListDeclaration)
  deriving Repr, DecidableEq

namespace MemberDeclaration

/-- The name of the member. -/
def name : MemberDeclaration → String
  | .field f => f.name
  | .foreign f => f.name
  | .list l => l.name

/-- The member belongs to the primary key. -/
def isPrimaryKey : MemberDeclaration → Bool
  | .field f => f.primaryKey
  | .foreign f => f.primaryKey
  | .list _ => false

/-- The member has no value of its own. -/
def isList : MemberDeclaration → Bool
  | .list _ => true
  | _ => false

end MemberDeclaration

/-- What is declared of an entity type. -/
structure Declaration where
  table : String
  load : LoadBehavior := .full
  members : List MemberDeclaration := []
  deriving Repr, DecidableEq

namespace Declaration

/-- The first member of this name. -/
def member? (d : Declaration) (name : String) : Option MemberDeclaration :=
  d.members.find? (·.name == name)

/-- The members of the primary key. -/
def keys (d : Declaration) : List MemberDeclaration := d.members.filter (·.isPrimaryKey)

/-- The members with a value of their own, in their order; a name declared twice counts twice. -/
def trackedNames (d : Declaration) : List String :=
  (d.members.filter (!·.isList)).map (·.name)

end Declaration

/-- The declarations of all entity types. -/
structure Schema where
  entries : List (EntityType × Declaration) := []
  deriving Repr, DecidableEq

namespace Schema

/-- The declaration of an entity type. -/
def find? (s : Schema) (e : EntityType) : Option Declaration :=
  (s.entries.find? (·.1 == e)).map (·.2)

/-- The declaration of an entity type; one that is not declared has no table and no members. -/
def declaration (s : Schema) (e : EntityType) : Declaration :=
  (s.find? e).getD { table := "" }

/-- The declared entity types. -/
def types (s : Schema) : List EntityType := s.entries.map (·.1)

/-- The schema with another declaration for one type. -/
def declare (s : Schema) (e : EntityType) (d : Declaration) : Schema :=
  ⟨(e, d) :: s.entries.filter (·.1 != e)⟩

/-- A type with a declaration is one of the declared types. -/
theorem mem_types_of_find? {s : Schema} {e : EntityType} {d : Declaration}
    (h : s.find? e = some d) : e ∈ s.types := by
  obtain ⟨entry, hentry, -⟩ := Option.map_eq_some_iff.1 h
  have hmem := List.mem_of_find?_eq_some hentry
  have heq := List.find?_some hentry
  simp only [beq_iff_eq] at heq
  exact heq ▸ List.mem_map_of_mem hmem

end Schema

end RowMapper
