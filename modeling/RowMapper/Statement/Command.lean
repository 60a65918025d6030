import RowMapper.Log
import RowMapper.Mapping.Resolved
import RowMapper.Statement.Basic
import RowMapper.Statement.Clause

/-!
# Commands on rows

A command is built from the contributions of the fields of one row. An insert takes given keys
as they are and has empty ones made; an update assigns the changed fields; a deletion uses the
key alone. Inserts and updates read the row back by its key. NULL is the only value that is
written into the text, all others are parameters.
-/

namespace RowMapper

/-- What a field contributes to a command. -/
structure Contribution where
  name : String
  /-- Nothing, if the field is only read back. -/
  value : Option Value := none
  role : FieldRole
  strategy : Option KeyStrategy := none
  changed : Bool := false
  deriving DecidableEq

/-- The table of a command and the contributions to it, in order. -/
structure Command where
  table : String := ""
  fields : List Contribution := []
  deriving DecidableEq

/-- A statement that was built, and what is told of it. -/
structure Built where
  statement : Statement
  log : Log
  deriving DecidableEq

/-- The statement of a batch, as it is told. -/
def Built.of (verb : Verb) (sql : String) (parameters : List Value) : Built :=
  ⟨⟨sql, parameters⟩, [.debug ("Built " ++ verb.name ++ ": " ++ Text.abridge sql)]⟩

/-- The slot of a value behind these parameters, and the parameters with it. -/
def slotOf (parameters : List Value) (v : Value) : Slot × List Value :=
  if v.isNull then (.null, parameters) else (.parameter parameters.length, parameters ++ [v])

/-- The slots of the contributed values behind these parameters, and the parameters with them. -/
def slotsOf (parameters : List Value) : List Contribution → List ColumnSlot × List Value
  | [] => ([], parameters)
  | field :: rest =>
    match field.value with
    | none => slotsOf parameters rest
    | some v =>
      let (slot, parameters) := slotOf parameters v
      let (slots, parameters) := slotsOf parameters rest
      (⟨field.name, slot⟩ :: slots, parameters)

namespace Command

/-- The command with one more contribution. -/
def add (c : Command) (field : Contribution) : Command := { c with fields := c.fields ++ [field] }

/-- The contributions of keys. -/
def keys (c : Command) : List Contribution := c.fields.filter (·.role == .keyField)

/-! ### Inserts -/

/-- The parts of an insert as far as they are known, and what is left to make keys from. -/
structure InsertDraft where
  supply : KeySupply
  parameters : List Value := []
  values : List ColumnSlot := []
  before : List String := []
  after : List String := []
  key : List ColumnSlot := []
  /-- The number of key variables in use. -/
  variableCount : Nat := 0

namespace InsertDraft

/-- Inserts a value. -/
def insertValue (draft : InsertDraft) (column : String) (v : Value) : InsertDraft :=
  let (slot, parameters) := slotOf draft.parameters v
  { draft with parameters, values := draft.values ++ [⟨column, slot⟩] }

/-- Inserts a key, by which the row is read back. -/
def insertKey (draft : InsertDraft) (column : String) (v : Value) : InsertDraft :=
  let (slot, parameters) := slotOf draft.parameters v
  { draft with
    parameters
    values := draft.values ++ [⟨column, slot⟩]
    key := draft.key ++ [⟨column, slot⟩] }

/-- Has the server make a key, by templates around the insert. -/
def serverKey (d : Dialect) (table : String) (draft : InsertDraft) (column : String)
    (strategy : KeyStrategy) : InsertDraft :=
  let filled (template : String) := d.keyTemplate template draft.variableCount column table
  let reference : ColumnSlot := ⟨column, .sql (filled strategy.reference)⟩
  { draft with
    before := draft.before ++ (strategy.preInsert.map filled).toList
    values := draft.values ++ (if strategy.duringInsert then [reference] else [])
    after := draft.after ++ (strategy.postInsert.map filled).toList
    key := draft.key ++ [reference]
    variableCount := draft.variableCount + 1 }

/-- Adds a key: as it is if it is not empty, else by its strategy. -/
def addKey (d : Dialect) (table : String) (draft : InsertDraft) (field : Contribution)
    (v : Value) : Except StatementError InsertDraft :=
  match field.strategy with
  | none =>
    if v.isNull then .error (.emptyKey field.name table)
    else .ok (draft.insertKey field.name v)
  | some strategy =>
    if !strategy.emptiness.test v then .ok (draft.insertKey field.name v)
    else
      match strategy.generator with
      | some generator =>
        let (made, supply) := draft.supply.generate generator
        .ok ({ draft with supply }.insertKey field.name made)
      | none => .ok (draft.serverKey d table field.name strategy)

/-- Adds a contribution. -/
def add (d : Dialect) (table : String) (draft : InsertDraft) (field : Contribution) :
    Except StatementError InsertDraft :=
  match field.value, field.role with
  | none, _ => .ok draft
  | some v, .keyField => draft.addKey d table field v
  | some v, .writeable | some v, .insertable => .ok (draft.insertValue field.name v)
  | some _, .updateable | some _, .readOnly => .ok draft

/-- Adds the contributions in order. The supply is what is left even if one fails. -/
def addAll (d : Dialect) (table : String) (draft : InsertDraft) :
    List Contribution → Except StatementError InsertDraft × KeySupply
  | [] => (.ok draft, draft.supply)
  | field :: rest =>
    match draft.add d table field with
    | .error cause => (.error cause, draft.supply)
    | .ok draft => draft.addAll d table rest

end InsertDraft

/-- The insert of the row, and what is left to make keys from. -/
def insert (c : Command) (d : Dialect) (supply : KeySupply) :
    Except StatementError Built × KeySupply :=
  if c.table.isEmpty then (.error (.noTable .insert), supply)
  else
    let (outcome, supply) := InsertDraft.addAll d c.table { supply } c.fields
    let built := outcome.bind fun draft =>
      if draft.key.isEmpty then .error (.noReadBack c.table)
      else
        let parts : InsertParts :=
          { table := c.table
            before := draft.before
            values := draft.values
            after := draft.after
            readBack := ⟨c.table, c.fields.map (·.name), draft.key⟩ }
        .ok (.of .insert (d.batch (parts.lines d)) draft.parameters)
    (built, supply)

/-! ### Updates -/

/-- The contributions that assign a column: changed values of fields that take updates. -/
def assigned (c : Command) : List Contribution :=
  c.fields.filter fun f => f.role.isUpdateable && f.changed && f.value.isSome

/-- An update would assign a column. -/
def hasChanges (c : Command) : Bool := !c.assigned.isEmpty

/-- The update of the row. -/
def update (c : Command) (d : Dialect) : Except StatementError Built :=
  if c.table.isEmpty then .error (.noTable .update)
  else
    let (assignments, parameters) := slotsOf [] c.assigned
    let (key, parameters) := slotsOf parameters c.keys
    if key.isEmpty then .error (.noKey c.table)
    else
      let parts : UpdateParts :=
        { table := c.table, assignments, key, readBack := ⟨c.table, c.fields.map (·.name), key⟩ }
      .ok (.of .update (d.batch parts.lines) parameters)

/-! ### Deletions -/

/-- What is told of a deletion without a key. -/
def unboundedLog (table : String) : Log :=
  [.warn ("DELETE from `" ++ table ++ "` without key fields removes every row")]

/-- The deletion of the row. -/
def delete (c : Command) (d : Dialect) : Except StatementError Built :=
  if c.table.isEmpty then .error (.noTable .delete)
  else
    let (key, parameters) := slotsOf [] c.keys
    let parts : DeleteParts := ⟨c.table, key⟩
    let built := Built.of .delete (d.batch [parts.line d]) parameters
    .ok { built with log := (if key.isEmpty then unboundedLog c.table else []) ++ built.log }

end Command

end RowMapper
