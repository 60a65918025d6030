import RowMapper.Mapping.Naming
import RowMapper.Mapping.Resolved

/-!
# Resolution of mappings

A schema and its naming rules determine the mapping of every entity type, or the first defect
of its declaration. A foreign object is followed to the single primary key of its target, and on
through keys that are foreign objects themselves; a chain that meets a type twice is a defect.
-/

namespace RowMapper

/-- A defect of a declaration, or a request that the mapping does not answer. -/
inductive MappingError where
  /-- A naming rule came after the first request. -/
  | frozen
  | noMember (entity : EntityType) (member : String)
  | emptyTable (entity : EntityType)
  | duplicateMember (entity : EntityType) (member : String)
  | duplicateColumn (entity : EntityType) (column : String)
  /-- The member a reference list relies on does not point back. -/
  | unpairedList (entity : EntityType) (list : ListDeclaration)
  | cyclicKey (target : EntityType)
  /-- A foreign object leads to a type without exactly one primary key. -/
  | keyCount (target : EntityType) (found : Nat)
  deriving Repr, DecidableEq

/-- The message of the defect. -/
def MappingError.message : MappingError → String
  | .frozen => "Cannot register a mapping rule after the first type mapping was resolved"
  | .noMember entity member =>
    "Entity " ++ entity.name ++ " has no mapped member `" ++ member ++ "`"
  | .emptyTable entity => "Entity " ++ entity.name ++ " has an empty table name"
  | .duplicateMember entity member =>
    "Entity " ++ entity.name ++ " declares member `" ++ member ++ "` more than once"
  | .duplicateColumn entity column =>
    "Entity " ++ entity.name ++ " maps column `" ++ column ++ "` more than once"
  | .unpairedList entity list =>
    "Reference list `" ++ list.name ++ "` of " ++ entity.name ++ ": " ++ list.target.name ++ "."
      ++ list.targetField ++ " is not a foreign object referencing " ++ entity.name
  | .cyclicKey target => "Cyclic foreign key chain through " ++ target.name
  | .keyCount target found =>
    target.name ++ " is referenced by a foreign object and must declare exactly one primary key, "
      ++ "found " ++ toString found

/-- The key a chain of foreign objects ends in. -/
structure ResolvedKey where
  name : String
  column : String
  valueType : ValueType
  deriving Repr, DecidableEq

/-- A declared type that was not visited leaves fewer types once it is. -/
theorem unvisited_lt {types visited : List EntityType} {e : EntityType} (declared : e ∈ types)
    (fresh : e ∉ visited) :
    (types.filter (· ∉ e :: visited)).length < (types.filter (· ∉ visited)).length := by
  have hsub : types.filter (· ∉ e :: visited)
      = (types.filter (· ∉ visited)).filter (· ≠ e) := by
    rw [List.filter_filter]
    congr 1
    funext t
    simp only [List.mem_cons, not_or, Bool.decide_and]
  rw [hsub]
  have hmem : e ∈ types.filter (· ∉ visited) := by simp [declared, fresh]
  refine Nat.lt_of_le_of_ne (List.length_filter_le _ _) fun h => ?_
  have := List.length_filter_eq_length_iff.1 h e hmem
  simp at this

/-- The key of the target, followed through keys that are foreign objects. The target's own key
names the column, the end of the chain its type. -/
def resolveKey (schema : Schema) (rules : List NamingRule) (visited : List EntityType)
    (target : EntityType) : Except MappingError ResolvedKey :=
  if _fresh : target ∈ visited then .error (.cyclicKey target)
  else
    match _declared : schema.find? target with
    | none => .error (.keyCount target 0)
    | some declaration =>
      match declaration.keys with
      | [.field field] =>
        .ok ⟨field.name, columnName rules target field.name field.column, field.valueType⟩
      | [.foreign foreign] => do
        let inner ← resolveKey schema rules (target :: visited) foreign.target
        .ok ⟨foreign.name, columnName rules target foreign.name foreign.column, inner.valueType⟩
      | keys => .error (.keyCount target keys.length)
termination_by (schema.types.filter (· ∉ visited)).length
decreasing_by exact unvisited_lt (Schema.mem_types_of_find? _declared) _fresh

/-- The mapping of a foreign object. When it is a key itself, it must not lead back to its own
type. -/
def resolveForeign (schema : Schema) (rules : List NamingRule) (entity : EntityType)
    (foreign : ForeignDeclaration) : Except MappingError MemberMapping := do
  let key ← resolveKey schema rules (if foreign.primaryKey then [entity] else []) foreign.target
  let column : ColumnMapping :=
    { name := foreign.name
      column := columnName rules entity foreign.name foreign.column
      valueType := key.valueType
      primaryKey := foreign.primaryKey
      access := foreign.access }
  let reference : Reference :=
    { target := foreign.target
      targetTable := tableName rules foreign.target (schema.declaration foreign.target).table
      targetKey := key.name
      targetKeyColumn := key.column }
  .ok (.foreign column reference)

/-- The mapping of a reference list, whose target must point back. -/
def resolveList (schema : Schema) (rules : List NamingRule) (entity : EntityType)
    (list : ListDeclaration) : Except MappingError MemberMapping :=
  let target := schema.declaration list.target
  match target.member? list.targetField with
  | some (.foreign f) =>
    if f.target = entity then
      .ok (.list
        { name := list.name
          target := list.target
          targetTable := tableName rules list.target target.table
          targetField := list.targetField
          targetColumn := columnName rules list.target f.name f.column
          cascade := list.cascade })
    else .error (.unpairedList entity list)
  | _ => .error (.unpairedList entity list)

/-- The mapping of a member. -/
def resolveMember (schema : Schema) (rules : List NamingRule) (entity : EntityType) :
    MemberDeclaration → Except MappingError MemberMapping
  | .field field =>
    .ok (.field
      { name := field.name
        column := columnName rules entity field.name field.column
        valueType := field.valueType
        primaryKey := field.primaryKey
        access := field.access })
  | .foreign foreign => resolveForeign schema rules entity foreign
  | .list list => resolveList schema rules entity list

/-- The mappings of the members in order, each with a name and a column of its own among those
already taken. -/
def resolveMembers (schema : Schema) (rules : List NamingRule) (entity : EntityType)
    (names columns : List String) :
    List MemberDeclaration → Except MappingError (List MemberMapping)
  | [] => .ok []
  | member :: rest =>
    if member.name ∈ names then .error (.duplicateMember entity member.name)
    else do
      let resolved ← resolveMember schema rules entity member
      match resolved.column? with
      | some c =>
        if c.column ∈ columns then .error (.duplicateColumn entity c.column)
        else
          let others ← resolveMembers schema rules entity (member.name :: names)
            (c.column :: columns) rest
          .ok (resolved :: others)
      | none =>
        let others ← resolveMembers schema rules entity (member.name :: names) columns rest
        .ok (resolved :: others)

/-- The mapping of an entity type, or the first defect of its declaration. -/
def resolve (schema : Schema) (rules : List NamingRule) (entity : EntityType) :
    Except MappingError TypeMapping :=
  let declaration := schema.declaration entity
  let table := tableName rules entity declaration.table
  if table.isEmpty then .error (.emptyTable entity)
  else do
    let members ← resolveMembers schema rules entity [] [] declaration.members
    .ok ⟨entity, table, declaration.load, members⟩

end RowMapper
