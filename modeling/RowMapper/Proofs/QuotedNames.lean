import RowMapper.Proofs.Placeholders
import RowMapper.Proofs.Renamed

/-!
# Names do not get out of their quotes

The statements that a builder makes of two choices of names are read alike: lexeme by lexeme they
are the same, or quoted names that were given in one place of the inputs. So no name closes its
quotes early and goes on as SQL, and each is read back as what it was, whatever its characters.

* `Contribution.Renamed`, `TypeMapping.Renamed` and `Selection.Call.Renamed` say which inputs
  differ in names alone.
* The drafts of an insert and the selections stay related from step to step. The templates of
  server keys have no place for a name.
* `statements_renamed` puts the four builders together.
-/

namespace RowMapper

variable {R : String → String → Prop} {d : Dialect}

/-- The statements are read alike but for the names, and have the same parameters. -/
structure Built.Renamed (d : Dialect) (R : String → String → Prop) (b b' : Built) : Prop where
  lexemes : List.Forall₂ (Lexeme.Renamed R) (d.lexemes b.statement.sql)
    (d.lexemes b'.statement.sql)
  parameters : b'.statement.parameters = b.statement.parameters

/-- Batches of lines that differ in names are read alike. -/
theorem renamed_batch (hd : d.quoting ∈ Quoting.usual) {lines lines' : List Tokens}
    (hlines : ∀ l ∈ lines, Legible d l ∧ l ≠ []) (hlines' : ∀ l ∈ lines', Legible d l ∧ l ≠ [])
    (h : List.Forall₂ (Tokens.Renamed R) lines lines') :
    List.Forall₂ (Lexeme.Renamed R) (d.lexemes (d.batch lines)) (d.lexemes (d.batch lines')) := by
  rw [lexemes_batch hd hlines, lexemes_batch hd hlines']
  exact List.rel_flatMap h fun _ _ hline => hline.lexemes hd

/-! ## Clauses -/

/-- The piece of SQL in the slot, if there is one, has no names in it. -/
def Slot.IsUnquoted : Slot → Prop
  | .sql text => Text.isUnquoted text = true
  | _ => True

/-- The slots of columns differ in the name of the column. -/
inductive ColumnSlot.Renamed (R : String → String → Prop) (c : ColumnSlot) : ColumnSlot → Prop where
  | of {column : String} (unquoted : c.slot.IsUnquoted) (related : R c.column column) :
    Renamed R c { c with column }

/-- The readings back differ in names. -/
structure ReadBack.Renamed (R : String → String → Prop) (r r' : ReadBack) : Prop where
  table : R r.table r'.table
  columns : List.Forall₂ R r.columns r'.columns
  key : List.Forall₂ (ColumnSlot.Renamed R) r.key r'.key

section Clauses

/-- The words that begin inserts and deletions have no names in them. -/
theorem Dialect.isUnquoted_verbs (hd : d ∈ Dialect.shipped) :
    Text.isUnquoted d.insertWords = true ∧ Text.isUnquoted d.deleteWords = true := by
  simp only [Dialect.shipped, List.mem_cons, List.not_mem_nil, or_false] at hd
  rcases hd with rfl | rfl | rfl <;> decide

/-- What stands in a slot has no names, so that renaming leaves it alone. -/
theorem Slot.IsUnquoted.tokens {slot : Slot} (h : slot.IsUnquoted) :
    Tokens.Renamed R slot.tokens slot.tokens := by
  cases slot with
  | parameter index => exact .cons (.parameter index) .nil
  | null => exact .single (w := "NULL") (by decide)
  | sql text =>
    simp only [Slot.tokens]
    split
    · exact .nil
    · exact .single h

variable {c c' : ColumnSlot} {slots slots' : List ColumnSlot}

/-- A slot keeps what stands in it. -/
theorem ColumnSlot.Renamed.value (h : c.Renamed R c') :
    Tokens.Renamed R c.slot.tokens c'.slot.tokens := by
  obtain ⟨unquoted, -⟩ := h
  exact unquoted.tokens

theorem ColumnSlot.Renamed.name (h : c.Renamed R c') : R c.column c'.column := by
  obtain ⟨-, related⟩ := h
  exact related

/-- An assignment goes to the renamed column, with the same value. -/
theorem ColumnSlot.Renamed.assignment (h : c.Renamed R c') :
    Tokens.Renamed R c.assignment c'.assignment :=
  .bare h.name (h.value.word (by decide))

/-- A condition is about the renamed column, with the same value. -/
theorem ColumnSlot.Renamed.condition (h : c.Renamed R c') :
    Tokens.Renamed R c.condition c'.condition := by
  refine .bare h.name ?_
  obtain ⟨unquoted, -⟩ := h
  cases hslot : c.slot with
  | null => exact .single (w := " IS NULL") (by decide)
  | parameter index => exact .word (by decide) (.cons (.parameter index) .nil)
  | sql text =>
    rw [hslot] at unquoted
    exact .word (by decide) unquoted.tokens

/-- Pieces made of related items, with commas between them. -/
theorem renamed_commaSeparated {α : Type} {P : α → α → Prop} {xs xs' : List α} {f : α → Tokens}
    (h : List.Forall₂ P xs xs') (hf : ∀ x x', P x x' → Tokens.Renamed R (f x) (f x')) :
    Tokens.Renamed R (commaSeparated (xs.map f)) (commaSeparated (xs'.map f)) :=
  .separated (by decide) (List.rel_map (fun x x' => hf x x') h)

/-- A list of columns is a list of the renamed ones. -/
theorem renamed_names {names names' : List String} (h : List.Forall₂ R names names') :
    Tokens.Renamed R (commaSeparated (names.map fun c => [.bare c]))
      (commaSeparated (names'.map fun c => [.bare c])) :=
  renamed_commaSeparated h fun _ _ related => .bare related .nil

/-- A condition on a key is about its renamed columns. -/
theorem renamed_whereKey (h : List.Forall₂ (ColumnSlot.Renamed R) slots slots') :
    Tokens.Renamed R (whereKey slots) (whereKey slots') := by
  have hconditions : Tokens.Renamed R (keyCondition slots) (keyCondition slots') :=
    .separated (by decide) (List.rel_map (fun _ _ hc => ColumnSlot.Renamed.condition hc) h)
  cases h with
  | nil => exact .nil
  | cons _ _ => exact .word (by decide) hconditions

/-- A row is read back from the renamed table. -/
theorem ReadBack.Renamed.line {r r' : ReadBack} (h : r.Renamed R r') :
    Tokens.Renamed R r.line r'.line := by
  have hend := (renamed_whereKey h.key).append (.single (w := ";") (by decide))
  have hfrom : Tokens.Renamed R _ _ := (Tokens.Renamed.bare h.table hend).word
    (w := " FROM ") (by decide)
  have hline := ((renamed_names h.columns).append hfrom).word (w := "SELECT ") (by decide)
  simpa [ReadBack.line] using hline

/-- The lines of an update name the renamed table and columns, and nothing else changes in them. -/
theorem renamed_updateLines {u u' : UpdateParts} (table : R u.table u'.table)
    (assignments : List.Forall₂ (ColumnSlot.Renamed R) u.assignments u'.assignments)
    (key : List.Forall₂ (ColumnSlot.Renamed R) u.key u'.key)
    (readBack : u.readBack.Renamed R u'.readBack) :
    List.Forall₂ (Tokens.Renamed R) u.lines u'.lines := by
  have hset : Tokens.Renamed R (commaSeparated (u.assignments.map (·.assignment)))
      (commaSeparated (u'.assignments.map (·.assignment))) :=
    renamed_commaSeparated assignments fun _ _ hc => hc.assignment
  have hend := (renamed_whereKey key).append (.single (w := ";") (by decide))
  have hbody := (hset.append hend).word (w := " SET ") (by decide)
  have hupdate : Tokens.Renamed R u.updateLine u'.updateLine := by
    have hline := (Tokens.Renamed.bare table hbody).word (w := "UPDATE ") (by decide)
    simpa [UpdateParts.updateLine] using hline
  unfold UpdateParts.lines
  refine List.rel_append ?_ (.cons readBack.line .nil)
  rw [isEmpty_of_forall₂ assignments]
  split
  · exact .nil
  · exact .cons hupdate .nil

/-- So does the line of a deletion. -/
theorem renamed_deleteLine (hd : d ∈ Dialect.shipped) {x x' : DeleteParts}
    (table : R x.table x'.table) (key : List.Forall₂ (ColumnSlot.Renamed R) x.key x'.key) :
    Tokens.Renamed R (x.line d) (x'.line d) := by
  have hend := (renamed_whereKey key).append (.single (w := ";") (by decide))
  have hline := (Tokens.Renamed.bare table hend).word (Dialect.isUnquoted_verbs hd).2
  simpa [DeleteParts.line] using hline

/-- So does the line of an insert. -/
theorem renamed_insertLine (hd : d ∈ Dialect.shipped) {i i' : InsertParts}
    (table : R i.table i'.table)
    (values : List.Forall₂ (ColumnSlot.Renamed R) i.values i'.values) :
    Tokens.Renamed R (i.insertLine d) (i'.insertLine d) := by
  have hcolumns : Tokens.Renamed R (commaSeparated (i.values.map fun v => [.bare v.column]))
      (commaSeparated (i'.values.map fun v => [.bare v.column])) :=
    renamed_commaSeparated values fun _ _ hc => .bare hc.name .nil
  have hslots : Tokens.Renamed R (commaSeparated (i.values.map (·.slot.tokens)))
      (commaSeparated (i'.values.map (·.slot.tokens))) :=
    renamed_commaSeparated values fun _ _ hc => hc.value
  have hlist := (hslots.append (.single (w := ");") (by decide))).word (w := ") VALUES (")
    (by decide)
  have hbody := (hcolumns.append hlist).word (w := " (") (by decide)
  unfold InsertParts.insertLine
  refine .word (Dialect.isUnquoted_verbs hd).1 (.bare table ?_)
  rw [isEmpty_of_forall₂ values]
  split
  · exact .single (w := " DEFAULT VALUES;") (by decide)
  · simpa using hbody

/-- A piece of SQL without names stands on a line of its own in both statements. -/
theorem renamed_snippetLines {texts : List String}
    (h : ∀ t ∈ texts, Text.isUnquoted t = true) :
    List.Forall₂ (Tokens.Renamed R) (texts.map snippetLine) (texts.map snippetLine) := by
  refine List.forall₂_same.2 fun l hl => ?_
  obtain ⟨t, ht, rfl⟩ := List.mem_map.1 hl
  exact .word (h t ht) (.single (w := ";") (by decide))

/-- The snippets around an insert name nothing that is renamed. -/
theorem renamed_insertLines (hd : d ∈ Dialect.shipped) {table table' : String}
    (tables : R table table') {before after : List String} {values values' : List ColumnSlot}
    (related : List.Forall₂ (ColumnSlot.Renamed R) values values')
    (snippets : ∀ t ∈ before ++ after, Text.isUnquoted t = true) {r r' : ReadBack}
    (readBack : r.Renamed R r') :
    List.Forall₂ (Tokens.Renamed R)
      (InsertParts.lines d ⟨table, before, values, after, r⟩)
      (InsertParts.lines d ⟨table', before, values', after, r'⟩) := by
  obtain ⟨hbefore, hafter⟩ := List.forall_mem_append.1 snippets
  have hinsert : Tokens.Renamed R (InsertParts.insertLine d ⟨table, before, values, after, r⟩)
      (InsertParts.insertLine d ⟨table', before, values', after, r'⟩) :=
    renamed_insertLine hd tables related
  exact List.rel_append (List.rel_append (List.rel_append (renamed_snippetLines hbefore)
    (.cons hinsert .nil)) (renamed_snippetLines hafter)) (.cons readBack.line .nil)

/-! ### Clauses of selections -/

/-- A table keeps its alias under another name. -/
theorem renamed_table {table table' a : String} (related : R table table') (aliased : IsAlias a) :
    Tokens.Renamed R (tableTokens table a) (tableTokens table' a) := by
  unfold tableTokens
  rw [aliased.ne_empty]
  exact .bare related (.word (w := " ") (by decide) (.single aliased.isUnquoted))

/-- A join keeps its aliases; its table and columns are renamed. -/
theorem Join.Renamed.tokens {j j' : Join} (h : j.Renamed R j') :
    Tokens.Renamed R j.tokens j'.tokens := by
  obtain ⟨⟨aliased, left⟩, tables, leftColumns, rightColumns⟩ := h
  have hkind : Text.isUnquoted j.kind.text = true := by
    cases j.kind <;> decide
  have hright : Tokens.Renamed R (.word " = " :: [.identifier j.tableAlias j.rightColumn]) _ :=
    .word (by decide) (.cons (.identifier (.inr aliased) rightColumns) .nil)
  have hcondition : Tokens.Renamed R
      (.word " ON " :: .identifier j.leftAlias j.leftColumn :: .word " = "
        :: [.identifier j.tableAlias j.rightColumn]) _ :=
    .word (by decide) (.cons (.identifier (.inr left) leftColumns) hright)
  have htable := (renamed_table tables aliased).append hcondition
  exact .word hkind (.word (w := " ") (by decide) htable)

theorem renamed_joins {joins joins' : List Join}
    (h : List.Forall₂ (Join.Renamed R) joins joins') :
    Tokens.Renamed R (joins.flatMap fun j => .word "\n" :: j.tokens)
      (joins'.flatMap fun j => .word "\n" :: j.tokens) :=
  List.rel_flatMap h fun _ _ hj => Tokens.Renamed.word (by decide) hj.tokens

/-- Filters are renamed one by one. -/
theorem renamed_filterTokens {filters filters' : List Tokens}
    (h : List.Forall₂ (Tokens.Renamed R) filters filters') :
    Tokens.Renamed R (filterTokens filters) (filterTokens filters') := by
  unfold filterTokens
  rw [isEmpty_of_forall₂ h, ← h.length_eq]
  split
  · exact .nil
  · exact .word (by decide) (.separated (by decide)
      (List.rel_map (fun _ _ hp => Tokens.Renamed.parenthesizedIf _ hp) h))

/-- Orders are renamed one by one, and keep their directions. -/
theorem renamed_orderTokens {orders orders' : List (Tokens × Order)}
    (h : List.Forall₂ (fun o o' => Tokens.Renamed R o.1 o'.1 ∧ o'.2 = o.2) orders orders') :
    Tokens.Renamed R (orderTokens orders) (orderTokens orders') := by
  unfold orderTokens
  rw [isEmpty_of_forall₂ h]
  split
  · exact .nil
  · refine .word (by decide) (renamed_commaSeparated h ?_)
    rintro ⟨ts, _⟩ ⟨ts', order⟩ ⟨hts, rfl⟩
    have hdirection : Text.isUnquoted order.text = true := by
      cases order <;> decide
    exact hts.append (.single hdirection)

theorem renamed_limit {words : Nat → String} (h : ∀ n, Text.isUnquoted (words n) = true)
    (limit : Option Nat) :
    Tokens.Renamed R (limit.toList.map fun n => .word (words n))
      (limit.toList.map fun n => .word (words n)) := by
  cases limit with
  | none => exact .nil
  | some n => exact .single (h n)

/-- The words around the number of rows have no names in them. -/
theorem Dialect.isUnquoted_limit (d : Dialect) (n : Nat) :
    Text.isUnquoted (d.leadingLimit n) = true ∧ Text.isUnquoted (d.trailingLimit n) = true := by
  have hnumber := Text.isUnquoted_toString n
  unfold Dialect.leadingLimit Dialect.trailingLimit
  cases d.limitStyle with
  | leading =>
    exact ⟨Text.isUnquoted_append (Text.isUnquoted_append (by decide) hnumber) (by decide), rfl⟩
  | trailing => exact ⟨rfl, Text.isUnquoted_append (by decide) hnumber⟩

end Clauses

/-! ## Commands -/

/-- The contributions differ in the name of the column. -/
inductive Contribution.Renamed (R : String → String → Prop) (f : Contribution) :
    Contribution → Prop where
  | of {name : String} (related : R f.name name) : Renamed R f { f with name }

/-- Contributions go to the renamed columns. -/
theorem renamed_columns {fields fields' : List Contribution}
    (h : List.Forall₂ (Contribution.Renamed R) fields fields') :
    List.Forall₂ R (fields.map (·.name)) (fields'.map (·.name)) := by
  refine List.rel_map ?_ h
  rintro f _ ⟨related⟩
  exact related

/-- A value is written without names: by a placeholder, or as null. -/
theorem slotOf_isUnquoted (before : List Value) (v : Value) : (slotOf before v).1.IsUnquoted := by
  unfold slotOf
  split <;> trivial

/-- The values get the same slots in both commands. -/
theorem slotsOf_renamed (before : List Value) {fields fields' : List Contribution}
    (h : List.Forall₂ (Contribution.Renamed R) fields fields') :
    List.Forall₂ (ColumnSlot.Renamed R) (slotsOf before fields).1 (slotsOf before fields').1
      ∧ (slotsOf before fields').2 = (slotsOf before fields).2 := by
  induction h generalizing before with
  | nil => exact ⟨.nil, rfl⟩
  | @cons f f' rest rest' hfield _ ih =>
    obtain ⟨related⟩ := hfield
    simp only [slotsOf]
    cases hvalue : f.value with
    | none => exact ih before
    | some v =>
      obtain ⟨hslots, hparameters⟩ := ih (slotOf before v).2
      exact ⟨.cons (.of (slotOf_isUnquoted before v) related) hslots, hparameters⟩

namespace Command

/-- The commands differ in the names of the table and the columns. -/
structure Renamed (R : String → String → Prop) (c c' : Command) : Prop where
  table : TableRenamed R c.table c'.table
  fields : List.Forall₂ (Contribution.Renamed R) c.fields c'.fields

variable {c c' : Command}

theorem Renamed.keys (h : c.Renamed R c') :
    List.Forall₂ (Contribution.Renamed R) c.keys c'.keys := by
  refine List.rel_filter ?_ h.fields
  rintro f _ ⟨-⟩
  exact Iff.rfl

/-- Keys are told from other members by their settings, not by their names. -/
theorem Renamed.assigned (h : c.Renamed R c') :
    List.Forall₂ (Contribution.Renamed R) c.assigned c'.assigned := by
  refine List.rel_filter ?_ h.fields
  rintro f _ ⟨-⟩
  exact Iff.rfl

/-! ### Deletions and updates -/

/-- A deletion fails as it did, or names the renamed table and key. -/
theorem delete_renamed (hd : d ∈ Dialect.shipped) (h : c.Renamed R c') :
    Outcomes (Built.Renamed d R) (c.delete d) (c'.delete d) := by
  obtain ⟨hslots, hparameters⟩ := slotsOf_renamed [] h.keys
  have hkey : Numbered d [] (slotsOf [] c.keys).1 _ := .slotsOf _
  have hkey' : Numbered d [] (slotsOf [] c'.keys).1 _ := .slotsOf _
  unfold delete
  rw [h.table.2]
  split
  · exact .failed _ _
  · exact .returned ⟨renamed_batch (Dialect.quoting_mem_usual hd)
      (DeleteParts.legible_lines hd hkey.legible) (DeleteParts.legible_lines hd hkey'.legible)
      (.cons (renamed_deleteLine hd h.table.1 hslots) .nil), hparameters⟩

/-- An update fails as it did, or names the renamed table and columns. -/
theorem update_renamed (hd : d ∈ Dialect.shipped) (h : c.Renamed R c') :
    Outcomes (Built.Renamed d R) (c.update d) (c'.update d) := by
  have hquoting := Dialect.quoting_mem_usual hd
  have hassigned : Numbered d [] (slotsOf [] c.assigned).1 _ := .slotsOf _
  have hassigned' : Numbered d [] (slotsOf [] c'.assigned).1 _ := .slotsOf _
  have hkey : Numbered d _ (slotsOf (slotsOf [] c.assigned).2 c.keys).1 _ := .slotsOf _
  have hkey' : Numbered d _ (slotsOf (slotsOf [] c.assigned).2 c'.keys).1 _ := .slotsOf _
  obtain ⟨hfirst, hmiddle⟩ := slotsOf_renamed [] h.assigned
  obtain ⟨hkeys, hparameters⟩ := slotsOf_renamed (slotsOf [] c.assigned).2 h.keys
  unfold update
  dsimp only
  rw [h.table.2, hmiddle, isEmpty_of_forall₂ hkeys]
  -- a command without a table or a key is refused whatever the names are
  split
  · exact .failed _ _
  · split
    · exact .failed _ _
    · exact .returned ⟨renamed_batch hquoting
        (UpdateParts.legible_lines hquoting hassigned.legible hkey.legible rfl)
        (UpdateParts.legible_lines hquoting hassigned'.legible hkey'.legible rfl)
        (renamed_updateLines h.table.1 hfirst hkeys
          ⟨h.table.1, renamed_columns h.fields, hkeys⟩), hparameters⟩

end Command

/-! ### Inserts -/

/-- A filled template of a given dialect has no names in it, and no place for one. -/
theorem keyTemplate_unquoted (hd : d ∈ Dialect.shipped) {s : KeyStrategy}
    (hs : s ∈ d.strategies.entries) (hserver : s.generator = none) {t : String}
    (ht : t ∈ s.templates) (i : Nat) (column table column' table' : String) :
    Text.isUnquoted (d.keyTemplate t i column table) = true
      ∧ d.keyTemplate t i column' table' = d.keyTemplate t i column table := by
  rcases Dialect.templates_of_shipped hd hs hserver t ht with hcall | ⟨p, hp, rfl⟩
  · have hplain : ∀ t ∈ ["last_insert_rowid()", "lastval()"],
        Text.brace ∉ t.toList ∧ Text.isUnquoted t = true := by
      decide
    obtain ⟨hbrace, hunquoted⟩ := hplain t hcall
    rw [Dialect.keyTemplate_of_not_mem hbrace, Dialect.keyTemplate_of_not_mem hbrace]
    exact ⟨hunquoted, rfl⟩
  · have haround : ∀ p ∈ KeyStrategy.surroundings,
        (Text.brace ∉ p.1.toList ∧ Text.isUnquoted p.1 = true)
          ∧ Text.brace ∉ p.2.toList ∧ Text.isUnquoted p.2 = true := by
      decide
    obtain ⟨⟨hbrace₁, hfirst⟩, hbrace₂, hlast⟩ := haround p hp
    have hvariable : Text.isUnquoted (Dialect.keyVariable i) = true :=
      Text.isUnquoted_append (by decide) (Text.isUnquoted_toString i)
    rw [Dialect.keyTemplate_around hbrace₁ hbrace₂, Dialect.keyTemplate_around hbrace₁ hbrace₂]
    exact ⟨Text.isUnquoted_append (Text.isUnquoted_append hfirst hvariable) hlast, rfl⟩

namespace Command.InsertDraft

/-- The drafts differ in the names of columns. -/
inductive Renamed (R : String → String → Prop) (draft : InsertDraft) : InsertDraft → Prop where
  | of {values key : List ColumnSlot}
    (related : List.Forall₂ (ColumnSlot.Renamed R) draft.values values)
    (keys : List.Forall₂ (ColumnSlot.Renamed R) draft.key key)
    (snippets : ∀ t ∈ draft.before ++ draft.after, Text.isUnquoted t = true) :
    Renamed R draft { draft with values, key }

variable {draft draft' : InsertDraft}

/-- Nothing is drafted yet, so that there is nothing to rename. -/
theorem Renamed.new (supply : KeySupply) : Renamed R { supply } { supply } :=
  .of .nil .nil nofun

/-- The value goes to the renamed column. -/
theorem Renamed.insertValue (h : draft.Renamed R draft') {column column' : String}
    (related : R column column') (v : Value) :
    (draft.insertValue column v).Renamed R (draft'.insertValue column' v) := by
  obtain ⟨values, keys, snippets⟩ := h
  have hslot := slotOf_isUnquoted draft.parameters v
  exact .of (List.rel_append values (.cons (.of hslot related) .nil)) keys snippets

/-- The row is read back by the renamed column of the key. -/
theorem Renamed.insertKey (h : draft.Renamed R draft') {column column' : String}
    (related : R column column') (v : Value) :
    (draft.insertKey column v).Renamed R (draft'.insertKey column' v) := by
  obtain ⟨values, keys, snippets⟩ := h
  have hslot := slotOf_isUnquoted draft.parameters v
  exact .of (List.rel_append values (.cons (.of hslot related) .nil))
    (List.rel_append keys (.cons (.of hslot related) .nil)) snippets

/-- A key that the server makes is read back by the renamed column. Its template is filled with a
variable, never with a name. -/
theorem Renamed.serverKey (hd : d ∈ Dialect.shipped) (h : draft.Renamed R draft')
    (table table' : String) {column column' : String} (related : R column column')
    {strategy : KeyStrategy} (hs : strategy ∈ d.strategies.entries)
    (hserver : strategy.generator = none) :
    (draft.serverKey d table column strategy).Renamed R
      (draft'.serverKey d table' column' strategy) := by
  obtain @⟨values', keys', values, keys, snippets⟩ := h
  -- the template of a key is filled with a variable, never with a name
  have hfilled (t : String) (ht : t ∈ strategy.templates) :=
    keyTemplate_unquoted hd hs hserver ht draft.variableCount column table column' table'
  have hreference := hfilled strategy.reference (by simp [KeyStrategy.templates])
  have hbefore : strategy.preInsert.map (d.keyTemplate · draft.variableCount column' table')
      = strategy.preInsert.map (d.keyTemplate · draft.variableCount column table) :=
    Option.map_congr fun t ht => (hfilled t (by simp [KeyStrategy.templates, ht])).2
  have hafter : strategy.postInsert.map (d.keyTemplate · draft.variableCount column' table')
      = strategy.postInsert.map (d.keyTemplate · draft.variableCount column table) :=
    Option.map_congr fun t ht => (hfilled t (by simp [KeyStrategy.templates, ht])).2
  have hslot : List.Forall₂ (ColumnSlot.Renamed R)
      [⟨column, .sql (d.keyTemplate strategy.reference draft.variableCount column table)⟩]
      [⟨column', .sql (d.keyTemplate strategy.reference draft.variableCount column table)⟩] :=
    .cons (.of hreference.1 related) .nil
  have hsnippets := forall_mem_snippets_serverKey (P := fun t => Text.isUnquoted t = true) snippets
    fun t ht => (hfilled t ht).1
  unfold InsertDraft.serverKey at hsnippets ⊢
  dsimp only at hsnippets ⊢
  rw [hreference.2, hbefore, hafter]
  refine .of (List.rel_append values ?_) (List.rel_append keys hslot) hsnippets
  split
  · exact hslot
  · exact .nil

/-- A key is drafted in the same way under another name: given, made here, or by the server. -/
theorem Renamed.addKey (hd : d ∈ Dialect.shipped) (h : draft.Renamed R draft')
    (table table' : String) {f f' : Contribution} (hf : f.Renamed R f') (given : Given d f)
    (v : Value) : Outcomes (InsertDraft.Renamed R) (draft.addKey d table f v)
      (draft'.addKey d table' f' v) := by
  obtain ⟨related⟩ := hf
  unfold InsertDraft.addKey
  dsimp only
  cases hstrategy : f.strategy with
  | none =>
    dsimp only
    split
    · exact .failed _ _
    · exact .returned (h.insertKey related v)
  | some strategy =>
    dsimp only
    split
    · exact .returned (h.insertKey related v)
    · cases hgenerator : strategy.generator with
      | none =>
        exact .returned (h.serverKey hd table table' related (given strategy hstrategy) hgenerator)
      | some generator =>
        obtain ⟨values, keys, snippets⟩ := h
        have hsupply : InsertDraft.Renamed R
            { draft with supply := (draft.supply.generate generator).2 } _ :=
          .of values keys snippets
        exact .returned (hsupply.insertKey related _)

/-- A contribution that is refused is refused under the other name, too. -/
theorem Renamed.add (hd : d ∈ Dialect.shipped) (h : draft.Renamed R draft')
    (table table' : String) {f f' : Contribution} (hf : f.Renamed R f') (given : Given d f) :
    Outcomes (InsertDraft.Renamed R) (draft.add d table f) (draft'.add d table' f') := by
  have hkey (v : Value) := h.addKey hd table table' hf given v
  obtain ⟨related⟩ := hf
  unfold InsertDraft.add
  dsimp only
  cases f.value with
  | none => exact .returned h
  | some v =>
    cases f.role with
    | keyField => exact hkey v
    | writeable => exact .returned (h.insertValue related v)
    | insertable => exact .returned (h.insertValue related v)
    | updateable => exact .returned h
    | readOnly => exact .returned h

/-- Contributions are drafted in the same way under other names, up to the first one that is
refused. -/
theorem Renamed.addAll (hd : d ∈ Dialect.shipped) (h : draft.Renamed R draft')
    (table table' : String) {fields fields' : List Contribution}
    (hfields : List.Forall₂ (Contribution.Renamed R) fields fields')
    (given : ∀ f ∈ fields, Given d f) :
    Outcomes (InsertDraft.Renamed R) (draft.addAll d table fields).1
      (draft'.addAll d table' fields').1 := by
  induction hfields generalizing draft draft' with
  | nil => exact .returned h
  | @cons f f' rest rest' hf _ ih =>
    obtain ⟨hfirst, hrest⟩ := List.forall_mem_cons.1 given
    have hadd := h.add hd table table' hf hfirst
    rw [InsertDraft.addAll, InsertDraft.addAll]
    generalize draft.add d table f = x at hadd ⊢
    generalize draft'.add d table' f' = y at hadd ⊢
    cases hadd with
    | failed cause cause' => exact .failed cause cause'
    | returned related => exact ih related hrest

end Command.InsertDraft

/-- An insert fails as it did, or names the renamed table and columns. -/
theorem Command.insert_renamed (hd : d ∈ Dialect.shipped) {c c' : Command} (h : c.Renamed R c')
    (given : ∀ f ∈ c.fields, InsertDraft.Given d f) (supply : KeySupply) :
    Outcomes (Built.Renamed d R) (c.insert d supply).1 (c'.insert d supply).1 := by
  have given' : ∀ f ∈ c'.fields, InsertDraft.Given d f := by
    intro f' hf'
    obtain ⟨f, hf, ⟨-⟩⟩ := exists_of_forall₂ h.fields hf'
    exact given f hf
  have hadded := (InsertDraft.Renamed.new supply).addAll hd c.table c'.table h.fields given
  unfold Command.insert
  rw [h.table.2]
  split
  · exact .failed _ _
  · dsimp only
    generalize hdraft : (InsertDraft.addAll d c.table { supply } c.fields).1 = x at hadded
    generalize hdraft' : (InsertDraft.addAll d c'.table { supply } c'.fields).1 = y at hadded
    cases hadded with
    | failed cause cause' => exact .failed cause cause'
    | @returned draft draft' related =>
      -- both drafts are sound, so the batches can be compared line by line
      have hsound := (InsertDraft.Sound.new supply).addAll hd given hdraft
      have hsound' := (InsertDraft.Sound.new supply).addAll hd given' hdraft'
      obtain ⟨values, keys, snippets⟩ := related
      simp only [Except.bind, isEmpty_of_forall₂ keys]
      split
      · exact .failed _ _
      · refine .returned ⟨renamed_batch (Dialect.quoting_mem_usual hd)
          (InsertParts.legible_lines hd hsound.snippets hsound.values.legible hsound.key)
          (InsertParts.legible_lines hd hsound'.snippets hsound'.values.legible hsound'.key)
          (renamed_insertLines hd h.table.1 values snippets
            ⟨h.table.1, renamed_columns h.fields, keys⟩), rfl⟩

/-! ## Selections -/

namespace Selection

/-- The selections differ in the names of tables and columns. -/
inductive Renamed (R : String → String → Prop) (s : Selection) : Selection → Prop where
  | of {table : String} {scope : Scope} {columns : List String} {filters : List Tokens}
    {orders : List (Tokens × Order)} (tables : TableRenamed R s.table table)
    (scopes : s.scope.Renamed R scope) (names : List.Forall₂ R s.columns columns)
    (filtered : List.Forall₂ (Tokens.Renamed R) s.filters filters)
    (ordered : List.Forall₂ (fun o o' => Tokens.Renamed R o.1 o'.1 ∧ o'.2 = o.2)
      s.orders orders) :
    Renamed R s { s with table, scope, columns, filters, orders }

/-- The calls differ in the names of the table or the column they are given. -/
inductive Call.Renamed (R : String → String → Prop) : Call → Call → Prop where
  | setTable {table table' : String} (tables : TableRenamed R table table') :
    Renamed R (.setTable table) (.setTable table')
  | addColumn {column column' : String} (related : R column column') :
    Renamed R (.addColumn column) (.addColumn column')
  | addFilter (condition : Expr) : Renamed R (.addFilter condition) (.addFilter condition)
  | addOrder (e : Expr) (order : Order) : Renamed R (.addOrder e order) (.addOrder e order)
  | setLimit (limit : Option Nat) : Renamed R (.setLimit limit) (.setLimit limit)

variable {s s' : Selection} {mappings mappings' : Mappings}

/-- The selection of a renamed mapping. -/
theorem Renamed.ofMapping {m m' : TypeMapping} (h : m.Renamed R m') :
    (ofMapping m).Renamed R (ofMapping m') := by
  obtain ⟨tables, -⟩ := h
  have haliased : ∀ a, (Scope.ofMapping m).Knows a → IsAlias a := fun a =>
    (Scope.wellFormed_ofMapping m).isAlias
  exact .of tables (.of haliased tables.1 .nil) .nil .nil .nil

/-- An expression compiled for the selections gives renamed tokens, and leaves renamed scopes. -/
theorem Renamed.compile (hd : d ∈ Dialect.shipped) (hm : mappings.Renamed R mappings')
    (h : s.Renamed R s') (clause : Clause) (e : Expr) :
    let compiled := e.compileInto (d.environment mappings ⟨clause, true⟩) s.scope
    let compiled' := e.compileInto (d.environment mappings' ⟨clause, true⟩) s'.scope
    Outcomes (Tokens.Renamed R) compiled.outcome compiled'.outcome
      ∧ compiled.scope.Renamed R compiled'.scope := by
  obtain @⟨table, scope, columns, filters, orders, -, scopes, -, -, -⟩ := h
  have henv : (d.environment mappings ⟨clause, true⟩).Renamed R
      (d.environment mappings' ⟨clause, true⟩) := .of hm
  exact compile_renames (Dialect.environment_standard hd mappings ⟨clause, true⟩) henv none e
    ⟨s.scope, []⟩ ⟨scope, []⟩ scopes

/-- An expression that does not compile does not compile under the other names either. -/
theorem Renamed.attempt (hd : d ∈ Dialect.shipped) (hm : mappings.Renamed R mappings')
    (h : s.Renamed R s') {call call' : Call} (hcall : call.Renamed R call') :
    Outcomes (Selection.Renamed R) (s.attempt d mappings call).result
      (s'.attempt d mappings' call').result := by
  cases hcall with
  | setTable tables =>
    obtain ⟨-, ⟨aliased, -, joined⟩, names, filtered, ordered⟩ := h
    exact .returned (.of tables (.of aliased tables.1 joined) names filtered ordered)
  | addColumn related =>
    obtain ⟨tables, scopes, names, filtered, ordered⟩ := h
    exact .returned (.of tables scopes (List.rel_append names (.cons related .nil)) filtered
      ordered)
  | setLimit limit =>
    obtain ⟨tables, scopes, names, filtered, ordered⟩ := h
    exact .returned (.of tables scopes names filtered ordered)
  | addFilter condition =>
    -- only expressions can fail, and they compile alike on both sides
    obtain ⟨houtcome, hafter⟩ := h.compile hd hm .filter condition
    show Outcomes _ (s.addFilter d mappings condition) (s'.addFilter d mappings' condition)
    rw [addFilter_eq, addFilter_eq]
    refine houtcome.map fun ts ts' hts => ?_
    obtain ⟨tables, -, names, filtered, ordered⟩ := h
    exact .of tables hafter names (List.rel_append filtered (.cons hts .nil)) ordered
  | addOrder e order =>
    obtain ⟨houtcome, hafter⟩ := h.compile hd hm .ordering e
    show Outcomes _ (s.addOrder d mappings e order) (s'.addOrder d mappings' e order)
    rw [addOrder_eq, addOrder_eq]
    refine houtcome.map fun ts ts' hts => ?_
    obtain ⟨tables, -, names, filtered, ordered⟩ := h
    exact .of tables hafter names filtered (List.rel_append ordered (.cons ⟨hts, rfl⟩ .nil))

theorem Renamed.perform (hd : d ∈ Dialect.shipped) (hm : mappings.Renamed R mappings')
    (h : s.Renamed R s') {call call' : Call} (hcall : call.Renamed R call') :
    (s.perform d mappings call).Renamed R (s'.perform d mappings' call') := by
  have hattempt := h.attempt hd hm hcall
  rw [Selection.perform_eq, Selection.perform_eq]
  generalize (s.attempt d mappings call).result = x at hattempt ⊢
  generalize (s'.attempt d mappings' call').result = y at hattempt ⊢
  cases hattempt with
  | failed cause cause' => exact h
  | returned related => exact related

/-- The calls leave selections that differ in names only, failed calls included. -/
theorem Renamed.performAll (hd : d ∈ Dialect.shipped) (hm : mappings.Renamed R mappings')
    (h : s.Renamed R s') {calls calls' : List Call}
    (hcalls : List.Forall₂ (Call.Renamed R) calls calls') :
    (s.performAll d mappings calls).Renamed R (s'.performAll d mappings' calls') := by
  induction hcalls generalizing s s' with
  | nil => exact h
  | cons hcall _ ih => exact ih (h.perform hd hm hcall)

/-- The line of the selection, clause by clause. -/
theorem Renamed.line (h : s.Renamed R s') (d : Dialect) :
    Tokens.Renamed R (s.parts.line d) (s'.parts.line d) := by
  obtain ⟨tables, @⟨_, _, aliased, -, joined⟩, names, filtered, ordered⟩ := h
  have halias := aliased _ s.scope.knows_tableAlias
  have hcolumns : Tokens.Renamed R
      (commaSeparated (s.columns.map fun c => [.identifier s.scope.tableAlias c])) _ :=
    renamed_commaSeparated names fun _ _ related => .cons (.identifier (.inr halias) related) .nil
  have hfrom := (renamed_table tables.1 halias).word (w := "\nFROM ") (by decide)
  have hlimit (words : Nat → String) (h : ∀ n, Text.isUnquoted (words n) = true) :=
    renamed_limit (R := R) h s.limit
  have hleading := hlimit _ fun n => (d.isUnquoted_limit n).1
  have htrailing := (hlimit _ fun n => (d.isUnquoted_limit n).2).append
    (.single (w := ";") (by decide))
  have hclauses := (renamed_filterTokens filtered).append
    ((renamed_orderTokens ordered).append htrailing)
  have hbody := hcolumns.append (hfrom.append ((renamed_joins joined).append hclauses))
  have hline := (hleading.append hbody).word (w := "SELECT ") (by decide)
  simpa [SelectParts.line, parts] using hline

/-- A selection fails as it did, or names the renamed tables and columns. -/
theorem Renamed.build (hd : d ∈ Dialect.shipped) (h : s.Renamed R s') (hs : Sound d s)
    (hs' : Sound d s') : Outcomes (Built.Renamed d R) (s.build d) (s'.build d) := by
  have hquoting := Dialect.quoting_mem_usual hd
  have hline := h.line d
  have hlines (s : Selection) (hs : Sound d s) := SelectParts.legible_lines hquoting
    (s := s.parts) hs.scope.root hs.scope.joined hs.filters hs.orders
  have hread := renamed_batch hquoting (hlines s hs) (hlines s' hs') (.cons hline .nil)
  obtain ⟨tables, ⟨-, -, -⟩, names, -, -⟩ := h
  unfold Selection.build
  dsimp only
  rw [tables.2, isEmpty_of_forall₂ names]
  split
  · exact .failed _ _
  · split
    · exact .failed _ _
    · exact .returned ⟨hread, rfl⟩

end Selection

/-! ## All statements -/

/-- In a given dialect the names of tables and columns are all that a statement takes over from
them. Inputs that differ in names alone, whatever their characters, both build a statement or
both fail, and what is built is read alike: the same words and symbols, and a name that `R` holds
of wherever the other statement has a name. Taken for the names that are given in one place of the
two inputs, `R` says that each quoted name is read as exactly the one given for its place. -/
theorem statements_renamed {d : Dialect} (hd : d ∈ Dialect.shipped)
    (R : String → String → Prop) :
    (∀ (mappings mappings' : Mappings) (m m' : TypeMapping) (calls calls' : List Selection.Call),
        mappings.Renamed R mappings' → m.Renamed R m' →
        List.Forall₂ (Selection.Call.Renamed R) calls calls' →
        Outcomes (Built.Renamed d R)
          (((Selection.ofMapping m).performAll d mappings calls).build d)
          (((Selection.ofMapping m').performAll d mappings' calls').build d))
      ∧ ∀ (c c' : Command), c.Renamed R c' →
        (∀ supply : KeySupply,
          (∀ f ∈ c.fields, ∀ k, f.strategy = some k → k ∈ d.strategies.entries) →
          Outcomes (Built.Renamed d R) (c.insert d supply).1 (c'.insert d supply).1)
        ∧ Outcomes (Built.Renamed d R) (c.update d) (c'.update d)
        ∧ Outcomes (Built.Renamed d R) (c.delete d) (c'.delete d) := by
  refine ⟨fun mappings mappings' m m' calls calls' hmappings hm hcalls => ?_, fun c c' h =>
    ⟨fun supply given => Command.insert_renamed hd h given supply, Command.update_renamed hd h,
      Command.delete_renamed hd h⟩⟩
  have hs (m : TypeMapping) (mappings : Mappings) (calls : List Selection.Call) :
      Selection.Sound d ((Selection.ofMapping m).performAll d mappings calls) :=
    (Selection.Sound.ofMapping m).performAll hd calls
  exact ((Selection.Renamed.ofMapping hm).performAll hd hmappings hcalls).build hd
    (hs m mappings calls) (hs m' mappings' calls')

namespace Company

/-- Employees with a boss, under names of the table and the columns that are left open. -/
def crew (table id name boss : String) : TypeMapping :=
  let column (member column : String) (type : Kind) : ColumnMapping :=
    { name := member
      column
      valueType := .of type
      primaryKey := member == "id"
      access := .full }
  { entity := employee
    table
    load := .full
    members := [.field (column "id" id .int64), .field (column "name" name .varchar),
      .foreign (column "boss" boss .int64) ⟨employee, table, "id", id⟩] }

/-- The employees whose boss has a name. -/
def crewOf (id : String) : List Selection.Call :=
  let x := Expr.parameter "x" employee
  [.addColumn id,
    .addFilter (.binary .equal (.member (.member x "boss") "name")
      (.constant (.value (.of (.varchar "Ann")))))]

/-- A new row of two columns, whose key the server makes. -/
def newRow (table id name : String) : Command :=
  ⟨table, [
    { name := id
      value := some (.of (.int64 0))
      role := .keyField
      strategy := Dialect.sqlServer.strategies.find? (.of .int64) },
    { name, value := some (.of (.varchar "Ann")), role := .writeable }]⟩

end Company

/-- Names that are full of quotes, and the places they are given for. -/
theorem statements_renamed_quotes :
    let d := Dialect.sqlServer
    let R (place given : String) := (place, given) ∈
      [("table", "a] t0; DROP TABLE [b"), ("id", "]"), ("name", "[n]] = 1\n--"), ("boss", "")]
    let selected (table id name boss : String) :=
      ((Selection.ofMapping (Company.crew table id name boss)).performAll d
        (fun _ => .ok (Company.crew table id name boss)) (Company.crewOf id)).build d
    let inserted (table id name : String) :=
      ((Company.newRow table id name).insert d { random := fun _ => 0 }).1
    Outcomes (Built.Renamed d R) (selected "table" "id" "name" "boss")
        (selected "a] t0; DROP TABLE [b" "]" "[n]] = 1\n--" "")
      ∧ (selected "a] t0; DROP TABLE [b" "]" "[n]] = 1\n--" "").toOption.map (·.statement.sql)
        = some ("SELECT t0.[]]]\nFROM [a]] t0; DROP TABLE [b] t0\n"
          ++ "LEFT OUTER JOIN [a]] t0; DROP TABLE [b] t1 ON t0.[] = t1.[]]]\n"
          ++ "WHERE t1.[[n]]]] = 1\n--] = @p0;")
      ∧ Outcomes (Built.Renamed d R) (inserted "table" "id" "name")
        (inserted "a] t0; DROP TABLE [b" "]" "[n]] = 1\n--") := by
  intro d R selected inserted
  obtain ⟨hselect, hcommand⟩ := statements_renamed (d := d) (by decide) R
  have htable : TableRenamed R "table" "a] t0; DROP TABLE [b" := ⟨by decide, by decide⟩
  have hid : R "id" "]" := by decide
  have hname : R "name" "[n]] = 1\n--" := by decide
  have hboss : R "boss" "" := by decide
  have hcrew : (Company.crew "table" "id" "name" "boss").Renamed R
      (Company.crew "a] t0; DROP TABLE [b" "]" "[n]] = 1\n--" "") :=
    .of htable (.cons (.field (.of hid)) (.cons (.field (.of hname))
      (.cons (.foreign (.of hboss) (.of htable.1 hid)) .nil)))
  have hcalls : List.Forall₂ (Selection.Call.Renamed R) (Company.crewOf "id")
      (Company.crewOf "]") := .cons (.addColumn hid) (.cons (.addFilter _) .nil)
  have hrow : (Company.newRow "table" "id" "name").Renamed R
      (Company.newRow "a] t0; DROP TABLE [b" "]" "[n]] = 1\n--") :=
    ⟨htable, .cons (.of hid) (.cons (.of hname) .nil)⟩
  refine ⟨hselect _ _ _ _ _ _ (fun _ => .returned hcrew) hcrew hcalls, by decide +kernel, ?_⟩
  refine (hcommand _ _ hrow).1 _ ?_
  have hstrategies : ∀ f ∈ (Company.newRow "table" "id" "name").fields, ∀ k ∈ f.strategy,
      k ∈ d.strategies.entries := by
    decide +kernel
  exact hstrategies

end RowMapper
