import RowMapper.Proofs.Slots

/-!
# What commands write

The texts of inserts, updates and deletions, written out without tokens: names are quoted, lists
have commas between their items and conditions an AND. A line that is built from slots has exactly
this text, so that what a command says can be read off its slots.

* `Dialect.insertion`, `Dialect.modification`, `Dialect.deletion` and `Dialect.reading` are the
  texts, and `batch_updateLines` and `text_deleteLine` say that they are what is built.
* `ColumnSlot.Holds` ties a slot to the contribution that it was made of.
* `update_and_delete_written` is about all updates and deletions.
-/

namespace RowMapper

/-! ## Texts -/

/-- The text in the place of a value. -/
def Slot.written (d : Dialect) : Slot → String
  | .parameter index => d.parameter index
  | .null => "NULL"
  | .sql text => text

/-- The column gets the value. -/
def ColumnSlot.writtenAssignment (d : Dialect) (c : ColumnSlot) : String :=
  d.identifier c.column ++ " = " ++ c.slot.written d

/-- The column has the value, or is NULL. -/
def ColumnSlot.writtenCondition (d : Dialect) (c : ColumnSlot) : String :=
  d.identifier c.column ++ if c.slot = .null then " IS NULL" else " = " ++ c.slot.written d

namespace Dialect

/-- The condition on the key, if there is one. -/
def condition (d : Dialect) (key : List ColumnSlot) : String :=
  if key = [] then "" else " WHERE " ++ " AND ".intercalate (key.map (·.writtenCondition d))

/-- The reading of a row by its key. -/
def reading (d : Dialect) (table : String) (columns : List String) (key : List ColumnSlot) :
    String :=
  "SELECT " ++ ", ".intercalate (columns.map d.identifier) ++ " FROM " ++ d.identifier table
    ++ d.condition key ++ ";"

/-- The insertion of the values in the columns. -/
def insertion (d : Dialect) (table : String) (values : List ColumnSlot) : String :=
  d.insertWords ++ d.identifier table ++
    if values = [] then " DEFAULT VALUES;"
    else
      " (" ++ ", ".intercalate (values.map fun v => d.identifier v.column) ++ ") VALUES ("
        ++ ", ".intercalate (values.map (·.slot.written d)) ++ ");"

/-- The assignment of the columns. -/
def modification (d : Dialect) (table : String) (assignments key : List ColumnSlot) : String :=
  "UPDATE " ++ d.identifier table ++ " SET "
    ++ ", ".intercalate (assignments.map (·.writtenAssignment d)) ++ d.condition key ++ ";"

/-- The deletion of the rows that have the key. -/
def deletion (d : Dialect) (table : String) (key : List ColumnSlot) : String :=
  d.deleteWords ++ d.identifier table ++ d.condition key ++ ";"

end Dialect

/-! ## Lines -/

section Lines

variable {d : Dialect}

@[simp] theorem Dialect.text_nil : d.text [] = "" := rfl

@[simp] theorem Dialect.text_cons (t : Token) (ts : Tokens) :
    d.text (t :: ts) = d.token t ++ d.text ts := by
  simp [Dialect.text]

@[simp] theorem Dialect.text_append (a b : Tokens) : d.text (a ++ b) = d.text a ++ d.text b := by
  simp [Dialect.text]

@[simp] theorem Dialect.token_word (w : String) : d.token (.word w) = w := rfl

@[simp] theorem Dialect.token_parameter (i : Nat) : d.token (.parameter i) = d.parameter i := rfl

@[simp] theorem Dialect.token_bare (name : String) : d.token (.bare name) = d.identifier name := by
  simp [Dialect.token, Token.bare]

/-- Pieces of which none is empty have the separator between any two of them. -/
theorem text_separated (w : String) {pieces : List Tokens} (h : ∀ p ∈ pieces, p ≠ []) :
    d.text (Text.separated [.word w] pieces) = w.intercalate (pieces.map d.text) := by
  induction pieces with
  | nil => simp
  | cons piece rest ih =>
    have hpiece : piece.isEmpty = false := by simpa using h piece List.mem_cons_self
    have hrest := ih fun p hp => h p (List.mem_cons_of_mem _ hp)
    cases rest with
    | nil => simp
    | cons next rest =>
      rw [Text.separated, Dialect.text_append, hrest, hpiece]
      simp

/-- Pieces that are not empty have commas between them. -/
theorem text_commaSeparated {α : Type} {xs : List α} {f : α → Tokens} (h : ∀ x ∈ xs, f x ≠ []) :
    d.text (commaSeparated (xs.map f)) = ", ".intercalate (xs.map fun x => d.text (f x)) := by
  rw [commaSeparated, text_separated, List.map_map]
  · rfl
  · intro p hp
    obtain ⟨x, hx, rfl⟩ := List.mem_map.1 hp
    exact h x hx

/-- A list of columns is written with commas between them. -/
theorem text_names (names : List String) :
    d.text (commaSeparated (names.map fun n => [.bare n]))
      = ", ".intercalate (names.map d.identifier) := by
  rw [text_commaSeparated (by simp)]
  simp

/-- A piece of SQL that is empty is not written, which makes no difference by itself. -/
theorem Slot.text_tokens (slot : Slot) : d.text slot.tokens = slot.written d := by
  cases slot with
  | parameter index => simp [Slot.tokens, Slot.written]
  | null => simp [Slot.tokens, Slot.written, Token.null]
  | sql text =>
    by_cases hempty : text = ""
    · simp [Slot.tokens, Slot.written, hempty]
    · simp [Slot.tokens, Slot.written, hempty]

/-- An assignment is written as column, equals sign and slot. -/
theorem ColumnSlot.text_assignment (c : ColumnSlot) :
    d.text c.assignment = c.writtenAssignment d := by
  simp [ColumnSlot.assignment, ColumnSlot.writtenAssignment, Slot.text_tokens, String.append_assoc]

/-- A condition is written as column, equals sign and slot, or as a test for NULL. -/
theorem ColumnSlot.text_condition (c : ColumnSlot) :
    d.text c.condition = c.writtenCondition d := by
  unfold ColumnSlot.condition ColumnSlot.writtenCondition
  cases hslot : c.slot with
  | null => simp [nullTest]
  | parameter index => simp [Slot.tokens, Slot.written]
  | sql text => simp [Slot.text_tokens]

/-- The condition on a key is written behind WHERE, or not at all. -/
theorem text_whereKey (key : List ColumnSlot) : d.text (whereKey key) = d.condition key := by
  unfold whereKey Dialect.condition
  cases key with
  | nil => simp
  | cons c rest =>
    have hpieces : ∀ p ∈ (c :: rest).map ColumnSlot.condition, p ≠ [] := by
      simp [ColumnSlot.condition]
    simp only [List.isEmpty_cons, Bool.false_eq_true, if_false, reduceCtorEq, Dialect.text_cons,
      Dialect.token_word, keyCondition, allOf]
    rw [text_separated _ hpieces, List.map_map]
    congr 2
    exact List.map_congr_left fun c _ => c.text_condition

/-- A row is read back by a selection of its columns. -/
theorem ReadBack.text_line (r : ReadBack) :
    d.text r.line = d.reading r.table r.columns r.key := by
  simp [ReadBack.line, Dialect.reading, text_names, text_whereKey, String.append_assoc]

/-- The line of an update, as it is written. -/
theorem UpdateParts.text_updateLine (u : UpdateParts) :
    d.text u.updateLine = d.modification u.table u.assignments u.key := by
  have hassigned : d.text (commaSeparated (u.assignments.map (·.assignment)))
      = ", ".intercalate (u.assignments.map (·.writtenAssignment d)) := by
    rw [text_commaSeparated (by simp [ColumnSlot.assignment])]
    simp only [ColumnSlot.text_assignment]
  simp [UpdateParts.updateLine, Dialect.modification, hassigned, text_whereKey,
    String.append_assoc]

/-- The line of a deletion, as it is written. -/
theorem text_deleteLine (x : DeleteParts) :
    d.text (x.line d) = d.deletion x.table x.key := by
  simp [DeleteParts.line, Dialect.deletion, text_whereKey, String.append_assoc]

/-- Both lists of an insert have an item for every value, unless a piece of SQL is empty. -/
theorem InsertParts.text_insertLine (i : InsertParts) (h : ∀ v ∈ i.values, v.slot.tokens ≠ []) :
    d.text (i.insertLine d) = d.insertion i.table i.values := by
  unfold InsertParts.insertLine Dialect.insertion
  cases hvalues : i.values with
  | nil => simp [String.append_assoc]
  | cons v rest =>
    rw [hvalues] at h
    have hnames : d.text (commaSeparated ((v :: rest).map fun v => [.bare v.column]))
        = ", ".intercalate ((v :: rest).map fun v => d.identifier v.column) := by
      rw [text_commaSeparated (by simp)]
      simp
    have hslots : d.text (commaSeparated ((v :: rest).map (·.slot.tokens)))
        = ", ".intercalate ((v :: rest).map (·.slot.written d)) := by
      rw [text_commaSeparated h]
      simp only [Slot.text_tokens]
    simp only [List.isEmpty_cons, Bool.false_eq_true, if_false, reduceCtorEq, Dialect.text_cons,
      Dialect.text_append, Dialect.token_word, Dialect.token_bare, hnames, hslots,
      Dialect.text_nil, String.append_empty, String.append_assoc]

/-- An update reads the row back below its assignments, or does nothing else. -/
theorem batch_updateLines (u : UpdateParts) :
    d.batch u.lines
      = (if u.assignments = [] then ""
          else d.modification u.table u.assignments u.key ++ "\n")
        ++ d.reading u.readBack.table u.readBack.columns u.readBack.key := by
  unfold Dialect.batch UpdateParts.lines
  cases hassignments : u.assignments with
  | nil => simp [ReadBack.text_line]
  | cons a rest =>
    simp [ReadBack.text_line, UpdateParts.text_updateLine, hassignments, String.append_assoc]

end Lines

/-! ## Updates and deletions -/

namespace Contribution

/-- A key that has a value, be it NULL. -/
def isValuedKey (f : Contribution) : Bool := f.role == .keyField && f.value.isSome

/-- A changed value that updates write. -/
def isAssignment (f : Contribution) : Bool :=
  (f.role == .writeable || f.role == .updateable) && f.changed && f.value.isSome

/-- What is assigned may be updated, was changed and has a value. -/
theorem isAssignment_eq (f : Contribution) :
    f.isAssignment = (f.role.isUpdateable && f.changed && f.value.isSome) := by
  unfold isAssignment
  cases f.role <;> rfl

/-- What a slot is made of. -/
def item (f : Contribution) : String × Option Value := (f.name, f.value)

end Contribution

/-- Only columns and values count for slots. -/
theorem slotsOf_congr (before : List Value) {fields fields' : List Contribution}
    (h : fields.map (·.item) = fields'.map (·.item)) :
    slotsOf before fields = slotsOf before fields' := by
  induction fields generalizing before fields' with
  | nil =>
    cases fields' with
    | nil => rfl
    | cons field' rest' => cases h
  | cons field rest ih =>
    cases fields' with
    | nil => cases h
    | cons field' rest' =>
      simp only [List.map_cons, List.cons.injEq, Contribution.item, Prod.mk.injEq] at h
      obtain ⟨⟨hname, hvalue⟩, hrest⟩ := h
      simp only [slotsOf, hname, hvalue, ih _ hrest]

namespace Command

variable {c : Command} {d : Dialect}

theorem assigned_eq (c : Command) : c.assigned = c.fields.filter (·.isAssignment) := by
  simp only [assigned, Contribution.isAssignment_eq]

/-- A command without changes assigns nothing. -/
theorem hasChanges_eq_false_iff (c : Command) : c.hasChanges = false ↔ c.assigned = [] := by
  simp [hasChanges]

/-- Keys without a value get no slot. -/
theorem slotsOf_keys (before : List Value) (c : Command) :
    slotsOf before c.keys = slotsOf before (c.fields.filter (·.isValuedKey)) := by
  rw [← slotsOf_filter before c.keys, keys, List.filter_filter]
  simp only [Contribution.isValuedKey, Bool.and_comm]

/-- Each key with a value has a slot that holds it, in order. -/
theorem holds_keys (before : List Value) (c : Command) :
    List.Forall₂ (ColumnSlot.Holds (slotsOf before c.keys).2) (slotsOf before c.keys).1
      (c.fields.filter (·.isValuedKey)) := by
  rw [slotsOf_keys]
  exact holds_slotsOf before fun f hf => (Bool.and_eq_true_iff.1 (List.mem_filter.1 hf).2).2

/-- Each assignment has a slot that holds its value, in order. -/
theorem holds_assigned (before : List Value) (c : Command) :
    List.Forall₂ (ColumnSlot.Holds (slotsOf before c.assigned).2) (slotsOf before c.assigned).1
      (c.fields.filter (·.isAssignment)) := by
  rw [assigned_eq]
  exact holds_slotsOf before fun f hf => (Bool.and_eq_true_iff.1 (List.mem_filter.1 hf).2).2

/-- There is no condition only if no key has a value. -/
theorem slotsOf_keys_eq_nil_iff (before : List Value) (c : Command) :
    (slotsOf before c.keys).1 = [] ↔ ∀ f ∈ c.fields, f.isValuedKey = false := by
  have hlength := (holds_keys before c).length_eq
  rw [← List.length_eq_zero_iff, hlength, List.length_eq_zero_iff, List.filter_eq_nil_iff]
  simp

/-- An update is built unless there is no table or no key. -/
theorem exists_update_iff (c : Command) (d : Dialect) :
    (∃ built, c.update d = .ok built) ↔ c.table ≠ "" ∧ ∃ f ∈ c.fields, f.isValuedKey = true := by
  have hkey := slotsOf_keys_eq_nil_iff (slotsOf [] c.assigned).2 c
  unfold update
  by_cases htable : c.table = ""
  · simp [htable]
  · by_cases hnone : ∀ f ∈ c.fields, f.isValuedKey = false
    · have hempty := hkey.2 hnone
      simpa [htable, hempty] using hnone
    · have hsome : (slotsOf (slotsOf [] c.assigned).2 c.keys).1 ≠ [] := fun h => hnone (hkey.1 h)
      simp only [not_forall, Bool.not_eq_false] at hnone
      obtain ⟨f, hf, hvalued⟩ := hnone
      simp only [String.isEmpty_iff, htable, if_false, List.isEmpty_iff, hsome]
      exact ⟨fun _ => ⟨htable, f, hf, hvalued⟩, fun _ => ⟨_, rfl⟩⟩

/-- A deletion is built unless there is no table. -/
theorem exists_delete_iff (c : Command) (d : Dialect) :
    (∃ built, c.delete d = .ok built) ↔ c.table ≠ "" := by
  unfold delete
  by_cases htable : c.table = ""
  · simp [htable]
  · simp [htable]

/-- The keys that have a value are all that a deletion is made of. -/
theorem delete_congr {c' : Command} (htable : c'.table = c.table)
    (hkeys : (c'.fields.filter (·.isValuedKey)).map (·.item)
      = (c.fields.filter (·.isValuedKey)).map (·.item)) :
    c'.delete d = c.delete d := by
  unfold delete
  rw [slotsOf_keys, slotsOf_keys, slotsOf_congr [] hkeys, htable]

/-- The statement is the update of the command: it assigns the changed values of writeable and
updateable contributions, in order, where the keys with a value have their slots, and reads all
columns back by the same slots. Without changes it only reads. -/
structure Updates (c : Command) (d : Dialect) (assignments key : List ColumnSlot)
    (st : Statement) : Prop where
  assigned : assignments.Forall₂ (ColumnSlot.Holds st.parameters)
    (c.fields.filter (·.isAssignment))
  keyed : key.Forall₂ (ColumnSlot.Holds st.parameters) (c.fields.filter (·.isValuedKey))
  sql : st.sql
    = (if c.hasChanges = false then "" else d.modification c.table assignments key ++ "\n")
      ++ d.reading c.table (c.fields.map (·.name)) key
  unchanged : c.hasChanges = false ↔ assignments = []
  /-- The values of both without the NULLs. -/
  parameters : st.parameters
    = ((c.fields.filter (·.isAssignment) ++ c.fields.filter (·.isValuedKey)).filterMap
        (·.value)).filter (!·.isNull)

/-- The statement is the deletion of the command, of which only the keys with a value count. -/
structure Deletes (c : Command) (d : Dialect) (key : List ColumnSlot) (st : Statement) : Prop
    where
  keyed : key.Forall₂ (ColumnSlot.Holds st.parameters) (c.fields.filter (·.isValuedKey))
  sql : st.sql = d.deletion c.table key
  unbounded : key = [] ↔ ∀ f ∈ c.fields, f.isValuedKey = false
  parameters : st.parameters
    = ((c.fields.filter (·.isValuedKey)).filterMap (·.value)).filter (!·.isNull)

/-- An update that is built is the one that is told. -/
theorem updates_of_update {built : Built} (h : c.update d = .ok built) :
    ∃ assignments key, c.Updates d assignments key built.statement := by
  obtain ⟨-, hstatement⟩ := update_eq_ok h
  rw [hstatement]
  have hunchanged : c.hasChanges = false ↔ (slotsOf [] c.assigned).1 = [] := by
    rw [hasChanges_eq_false_iff, assigned_eq, ← List.length_eq_zero_iff,
      ← (holds_assigned [] c).length_eq, List.length_eq_zero_iff, assigned_eq]
  refine ⟨(slotsOf [] c.assigned).1, (slotsOf (slotsOf [] c.assigned).2 c.keys).1, ?_,
    holds_keys _ c, ?_, hunchanged, ?_⟩
  · -- the keys come behind the assignments, whose slots keep their meaning
    obtain ⟨more, hmore⟩ := prefix_slotsOf (slotsOf [] c.assigned).2 c.keys
    refine (holds_assigned [] c).imp fun slot f hslot => ⟨hslot.column, ?_⟩
    obtain ⟨v, hv, hbinds⟩ := hslot.value
    exact ⟨v, hv, hmore ▸ hbinds.append more⟩
  · rw [batch_updateLines]
    simp only [hunchanged]
  · show (slotsOf (slotsOf [] c.assigned).2 c.keys).2 = _
    rw [slotsOf_keys, parameters_slotsOf, parameters_slotsOf, assigned_eq, List.nil_append,
      List.filterMap_append, List.filter_append]

/-- A deletion that is built is the one that is told. -/
theorem deletes_of_delete {built : Built} (h : c.delete d = .ok built) :
    ∃ key, c.Deletes d key built.statement := by
  rw [delete_eq_ok h]
  refine ⟨(slotsOf [] c.keys).1, holds_keys [] c, ?_, slotsOf_keys_eq_nil_iff [] c, ?_⟩
  · simp [Dialect.batch, text_deleteLine]
  · show (slotsOf [] c.keys).2 = _
    rw [slotsOf_keys, parameters_slotsOf, List.nil_append]

/-- An update is built unless there is no table or no key with a value, and a deletion unless there
is no table. What is built is exactly the update or the deletion of the contributions: no key is
assigned, and for a deletion nothing but the keys with a value counts. -/
theorem update_and_delete_written (d : Dialect) (c : Command) :
    ((∃ built, c.update d = .ok built) ↔ c.table ≠ "" ∧ ∃ f ∈ c.fields, f.isValuedKey = true)
      ∧ (∀ built, c.update d = .ok built →
        ∃ assignments key, c.Updates d assignments key built.statement)
      ∧ (∀ f ∈ c.fields.filter (·.isAssignment), f.role ≠ .keyField)
      ∧ ((∃ built, c.delete d = .ok built) ↔ c.table ≠ "")
      ∧ (∀ built, c.delete d = .ok built → ∃ key, c.Deletes d key built.statement)
      ∧ ∀ c' : Command, c'.table = c.table →
        (c'.fields.filter (·.isValuedKey)).map (·.item)
          = (c.fields.filter (·.isValuedKey)).map (·.item) →
        c'.delete d = c.delete d := by
  refine ⟨exists_update_iff c d, fun built h => updates_of_update h, fun f hf hkey => ?_,
    exists_delete_iff c d, fun built h => deletes_of_delete h,
    fun c' htable hkeys => delete_congr htable hkeys⟩
  have hassigned := (List.mem_filter.1 hf).2
  simp [Contribution.isAssignment, hkey] at hassigned

end Command

namespace Company

/-- An employee who moves: the salary is not known any more, and the note is never updated. -/
def transfer : Command :=
  ⟨"employees", [
    { name := "id", value := some (.of (.int64 7)), role := .keyField, changed := true },
    { name := "name", value := some (.of (.varchar "Ada")), role := .writeable },
    { name := "salary", value := some (.null (.of .float64)), role := .writeable, changed := true },
    { name := "branch", value := some (.null (.of .int64)), role := .keyField },
    { name := "note", value := some (.of (.varchar "x")), role := .insertable, changed := true },
    { name := "room", value := some (.of (.varchar "R\"2")), role := .updateable, changed := true },
    { name := "revision", role := .readOnly }]⟩

/-- The row of the employee, with nothing but the key. -/
def transferKey : Command :=
  ⟨"employees", transfer.fields.filter (·.role == .keyField)⟩

end Company

theorem update_and_delete_written_transfer :
    let c := Company.transfer
    (∃ built assignments key, c.update .generic = .ok built
        ∧ c.Updates .generic assignments key built.statement
        ∧ built.statement.sql
          = "UPDATE \"employees\" SET \"salary\" = NULL, \"room\" = @p0"
            ++ " WHERE \"id\" = @p1 AND \"branch\" IS NULL;\n"
            ++ "SELECT \"id\", \"name\", \"salary\", \"branch\", \"note\", \"room\", \"revision\""
            ++ " FROM \"employees\" WHERE \"id\" = @p1 AND \"branch\" IS NULL;")
      ∧ (∃ built key, c.delete .postgres = .ok built ∧ c.Deletes .postgres key built.statement
        ∧ built.statement.sql
          = "DELETE FROM \"employees\" WHERE \"id\" = $1 AND \"branch\" IS NULL;")
      ∧ Company.transferKey.delete .postgres = c.delete .postgres := by
  intro c
  obtain ⟨hbuilds, hupdates, -⟩ := Command.update_and_delete_written .generic c
  obtain ⟨-, -, -, hdeleted, hdeletes, hframe⟩ := Command.update_and_delete_written .postgres c
  obtain ⟨built, hbuilt⟩ := hbuilds.2 (by decide)
  obtain ⟨assignments, key, hwritten⟩ := hupdates built hbuilt
  obtain ⟨removed, hremoved⟩ := hdeleted.2 (by decide)
  obtain ⟨keyed, hkeyed⟩ := hdeletes removed hremoved
  have hupdate : (c.update .generic).toOption.map (·.statement.sql)
      = some ("UPDATE \"employees\" SET \"salary\" = NULL, \"room\" = @p0"
        ++ " WHERE \"id\" = @p1 AND \"branch\" IS NULL;\n"
        ++ "SELECT \"id\", \"name\", \"salary\", \"branch\", \"note\", \"room\", \"revision\""
        ++ " FROM \"employees\" WHERE \"id\" = @p1 AND \"branch\" IS NULL;") := by
    decide +kernel
  have hdelete : (c.delete .postgres).toOption.map (·.statement.sql)
      = some "DELETE FROM \"employees\" WHERE \"id\" = $1 AND \"branch\" IS NULL;" := by
    decide +kernel
  rw [hbuilt] at hupdate
  rw [hremoved] at hdelete
  exact ⟨⟨built, assignments, key, hbuilt, hwritten, Option.some.inj hupdate⟩,
    ⟨removed, keyed, hremoved, hkeyed, Option.some.inj hdelete⟩,
    hframe Company.transferKey rfl (by decide)⟩

end RowMapper
