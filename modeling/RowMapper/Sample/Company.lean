import RowMapper.Mapping.Registry
import RowMapper.Model

/-!
# A company

A small model to try the library on: departments with employees, managers, documents keyed by
identifiers, audit entries that are only read by force, and attachments that are read on demand.
-/

namespace RowMapper.Company

/-- A department. Its employees are deleted with it. -/
def department : EntityType := ⟨"Department"⟩

/-- A manager, who may lead a department. -/
def manager : EntityType := ⟨"Manager"⟩

/-- An employee. -/
def employee : EntityType := ⟨"Employee"⟩

/-- A document, whose revision the server maintains. -/
def document : EntityType := ⟨"Document"⟩

/-- An audit entry. -/
def auditEntry : EntityType := ⟨"AuditEntry"⟩

/-- An attachment, whose name never changes. -/
def attachment : EntityType := ⟨"Attachment"⟩

/-- A plain field. -/
def field (name : String) (kind : Kind) : MemberDeclaration :=
  .field { name, valueType := .of kind }

/-- The primary key. -/
def key (kind : Kind) : MemberDeclaration :=
  .field { name := "id", valueType := .of kind, primaryKey := true }

/-- A reference to another entity. -/
def reference (name column : String) (target : EntityType) : MemberDeclaration :=
  .foreign { name, column := some column, target }

/-- The declarations. -/
def schema : Schema := ⟨[
  (department,
    { table := "departments"
      members := [key .int64, field "name" .varchar,
        .list
          { name := "employees"
            target := employee
            targetField := "department"
            cascade := .deleteOnly }] }),
  (manager,
    { table := "managers"
      members := [key .int64, field "name" .varchar,
        reference "department" "department_id" department] }),
  (employee,
    { table := "employees"
      members := [key .int64, field "name" .varchar, field "salary" .float64,
        field "active" .boolean, reference "manager" "manager_id" manager,
        reference "department" "department_id" department,
        reference "mentor" "mentor_id" employee] }),
  (document,
    { table := "documents"
      members := [key .uuid, field "title" .varchar,
        .field { name := "revision", valueType := .of .int64, access := .readOnly }] }),
  (auditEntry,
    { table := "audit_entries"
      load := .forceOnly
      members := [key .int64, field "message" .varchar] }),
  (attachment,
    { table := "attachments"
      load := .onDemand
      members := [key .int64,
        .field { name := "file_name", valueType := .of .varchar, access := .insertOnly },
        field "payload" .blob] })]⟩

/-- The mappings of the types, without naming rules. -/
def mappings : Mappings := fun e => Registry.lookup {} schema e

/-- The mapping of a type; one that is not declared has no table and no members. -/
def mapping (e : EntityType) : TypeMapping :=
  (mappings e).toOption.getD { entity := e, table := "", load := .full, members := [] }

/-- The cell of a member: the native type of a field, and an optional key for a reference. -/
def cell? : MemberDeclaration → Option (String × NativeType)
  | .field f =>
    match f.valueType with
    | .of kind => some (f.name, .required kind)
    | .untyped => none
  | .foreign f => some (f.name, .optional .int64)
  | .list _ => none

/-- The types with the cells of their members. -/
def model : Model := ⟨schema, schema.entries.map fun (e, d) => (e, d.members.filterMap cell?)⟩

/-- A new employee, who is active. -/
def newEmployee (name : String) (salary : Binary64) : Instance :=
  let blank := model.newInstance employee
  let values : List (String × Value) :=
    [("name", .of (.varchar name)), ("salary", .of (.float64 salary)),
      ("active", .of (.boolean true))]
  match blank.setValues values with
  | .ok i => i
  | .error _ => blank

end RowMapper.Company
