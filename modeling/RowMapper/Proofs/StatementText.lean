import RowMapper.Proofs.CompiledText

/-!
# The text of statements

Every line that the builders write is legible in the given dialects, provided that its slots and
compiled pieces are, and so is a batch of lines. With `Legible.placeholders_text` the
placeholders in a statement are then a matter of its tokens alone.

* `Slot.Legible` is what is asked of a slot; only a piece of SQL in it has something to answer.
* `legible_keyTemplate` covers the templates of the given dialects: the variable of a key takes
  the one place that a template has for it.
* `placeholders_batch` puts the lines together.
-/

namespace RowMapper

section Pieces

variable {d : Dialect}

/-! ## Tables, columns and joins -/

/-- A table is read back with its alias, whatever its name. -/
theorem legible_table (hd : d.quoting ∈ Quoting.usual) (table : String) {tableAlias : String}
    (h : IsQualifier tableAlias) : Legible d (tableTokens table tableAlias) := by
  unfold tableTokens
  rcases h with rfl | h
  · exact (legible_bare hd table).1
  · rw [h.ne_empty]
    exact (legible_bare hd table).1.around hd (by decide) (h.legible hd)

theorem parameters_table (table tableAlias : String) :
    Tokens.parameters (tableTokens table tableAlias) = [] := by
  unfold tableTokens
  cases tableAlias.isEmpty <;> rfl

/-- A join is read back whole: the table and both sides of its condition. -/
theorem legible_join (hd : d.quoting ∈ Quoting.usual) {j : Join}
    (hj : IsAlias j.tableAlias ∧ IsAlias j.leftAlias) : Legible d j.tokens := by
  have hkind : Text.isMute j.kind.text = true := by
    cases j.kind <;> decide
  have hleft := (legible_identifier hd (.inr hj.2) j.leftColumn).1
  have hright := (legible_identifier hd (.inr hj.1) j.rightColumn).1
  have hcondition := hleft.around hd (w := " = ") (by decide) hright
  have htable := legible_table hd j.table (.inr hj.1)
  have hbody := htable.around hd (w := " ON ") (by decide) hcondition
  exact (legible_word hd hkind).around hd (w := " ") (by decide) hbody

/-- A join compares columns, so that it has no placeholder. -/
theorem parameters_join (j : Join) : Tokens.parameters j.tokens = [] := by
  unfold Join.tokens
  simp [parameters_table]

/-! ## Slots -/

/-- The piece of SQL in the slot, if there is one, is legible and has no placeholders. -/
def Slot.Legible (d : Dialect) : Slot → Prop
  | .sql text => RowMapper.Legible d [.word text]
  | _ => True

/-- The parameter in the slot, if there is one. -/
def Slot.parameters : Slot → List Nat
  | .parameter index => [index]
  | _ => []

/-- What stands in a slot is read back. -/
theorem Slot.legible_tokens (hd : d.quoting ∈ Quoting.usual) {slot : Slot}
    (h : slot.Legible d) : RowMapper.Legible d slot.tokens := by
  cases slot with
  | parameter index => exact legible_parameter hd index
  | null => exact legible_null hd
  | sql text =>
    simp only [Slot.tokens]
    split
    · exact .nil
    · exact h

/-- The placeholder of a slot is the one that it names. -/
@[simp] theorem Slot.parameters_tokens (slot : Slot) :
    Tokens.parameters slot.tokens = slot.parameters := by
  cases slot with
  | parameter index => rfl
  | null => rfl
  | sql text =>
    simp only [Slot.tokens]
    split <;> rfl

/-- An assignment to a column is read back. -/
theorem ColumnSlot.legible_assignment (hd : d.quoting ∈ Quoting.usual) {c : ColumnSlot}
    (h : c.slot.Legible d) : Legible d c.assignment :=
  (legible_bare hd c.column).1.around hd (by decide) (Slot.legible_tokens hd h)

@[simp] theorem ColumnSlot.parameters_assignment (c : ColumnSlot) :
    Tokens.parameters c.assignment = c.slot.parameters :=
  Slot.parameters_tokens c.slot

/-- A condition on a column is read back, also if the slot is empty. -/
theorem ColumnSlot.legible_condition (hd : d.quoting ∈ Quoting.usual) {c : ColumnSlot}
    (h : c.slot.Legible d) : Legible d c.condition := by
  unfold ColumnSlot.condition
  cases hslot : c.slot with
  | null => exact legible_nullTest hd false (legible_bare hd c.column).1
  | parameter index | sql text =>
    rw [hslot] at h
    exact (legible_bare hd c.column).1.around hd (by decide) (Slot.legible_tokens hd h)

@[simp] theorem ColumnSlot.parameters_condition (c : ColumnSlot) :
    Tokens.parameters c.condition = c.slot.parameters := by
  unfold ColumnSlot.condition
  cases hslot : c.slot with
  | null => rfl
  | parameter index => rfl
  | sql text => exact Slot.parameters_tokens (.sql text)

/-- The parameters in the slots, in order. -/
def slotParameters (slots : List ColumnSlot) : List Nat := slots.flatMap (·.slot.parameters)

/-- Placeholders stand in the order of their slots. -/
@[simp] theorem slotParameters_append (slots more : List ColumnSlot) :
    slotParameters (slots ++ more) = slotParameters slots ++ slotParameters more :=
  List.flatMap_append

/-- A condition on all parts of a key ends the line that it is read back from. -/
theorem legible_whereKey (hd : d.quoting ∈ Quoting.usual) {ts : Tokens} (hts : Legible d ts)
    {slots : List ColumnSlot} (h : ∀ c ∈ slots, c.slot.Legible d) :
    Legible d (ts ++ whereKey slots ++ [.word ";"]) := by
  have hend : Legible d [.word ";"] := legible_word hd (by decide)
  unfold whereKey
  cases hempty : slots.isEmpty with
  | true =>
    simpa using hts.append hend (.inr (leads_word (by decide)))
  -- a condition ends like a slot, and the semicolon may stand behind any of them
  | false =>
    have hconditions : Legible d (keyCondition slots) := by
      refine legible_separated hd (by decide) fun p hp => ?_
      obtain ⟨c, hc, rfl⟩ := List.mem_map.1 hp
      exact ColumnSlot.legible_condition hd (h c hc)
    exact (hts.around hd (by decide) hconditions).append hend (.inr (leads_word (by decide)))

/-- The condition on a key has the placeholders of its slots. -/
theorem parameters_whereKey (slots : List ColumnSlot) :
    Tokens.parameters (whereKey slots) = slotParameters slots := by
  unfold whereKey
  cases hempty : slots.isEmpty with
  | true =>
    rw [List.isEmpty_iff.1 hempty]
    rfl
  | false =>
    show Tokens.parameters (keyCondition slots) = _
    rw [keyCondition, allOf, Tokens.parameters_separated, List.flatMap_map]
    simp [slotParameters]

/-- Commas separate what they stand between. -/
theorem legible_commaSeparated (hd : d.quoting ∈ Quoting.usual) {pieces : List Tokens}
    (h : ∀ p ∈ pieces, Legible d p) : Legible d (commaSeparated pieces) :=
  legible_separated hd (by decide) h

/-- Commas are no placeholders. -/
theorem parameters_commaSeparated (pieces : List Tokens) :
    Tokens.parameters (commaSeparated pieces) = pieces.flatMap Tokens.parameters :=
  Tokens.parameters_separated _ _

/-! ## Lines -/

/-- The line that reads a row back is read itself. -/
theorem ReadBack.legible_line (hd : d.quoting ∈ Quoting.usual) {r : ReadBack}
    (h : ∀ c ∈ r.key, c.slot.Legible d) : Legible d r.line := by
  have hcolumns : Legible d (commaSeparated (r.columns.map fun c => [.bare c])) := by
    refine legible_commaSeparated hd fun p hp => ?_
    obtain ⟨c, -, rfl⟩ := List.mem_map.1 hp
    exact (legible_bare hd c).1
  have hfrom := (hcolumns.cons hd (w := "SELECT ") (by decide) (by decide)).around hd
    (w := " FROM ") (by decide) (legible_bare hd r.table).1
  have hline := legible_whereKey hd hfrom h
  simpa [ReadBack.line] using hline

theorem ReadBack.parameters_line (r : ReadBack) :
    Tokens.parameters r.line = slotParameters r.key := by
  simp [ReadBack.line, parameters_commaSeparated, parameters_whereKey, Token.bare]

/-- The line of an update is read back. -/
theorem UpdateParts.legible_updateLine (hd : d.quoting ∈ Quoting.usual) {u : UpdateParts}
    (hassignments : ∀ c ∈ u.assignments, c.slot.Legible d)
    (hkey : ∀ c ∈ u.key, c.slot.Legible d) : Legible d u.updateLine := by
  have hset : Legible d (commaSeparated (u.assignments.map (·.assignment))) := by
    refine legible_commaSeparated hd fun p hp => ?_
    obtain ⟨c, hc, rfl⟩ := List.mem_map.1 hp
    exact ColumnSlot.legible_assignment hd (hassignments c hc)
  have htable := (legible_bare hd u.table).1.cons hd (w := "UPDATE ") (by decide) (by decide)
  have hline := legible_whereKey hd (htable.around hd (w := " SET ") (by decide) hset) hkey
  simpa [UpdateParts.updateLine] using hline

/-- In an update the values that are assigned come first, those of the key behind. -/
theorem UpdateParts.parameters_updateLine (u : UpdateParts) :
    Tokens.parameters u.updateLine = slotParameters u.assignments ++ slotParameters u.key := by
  have hset : (u.assignments.map (·.assignment)).flatMap Tokens.parameters
      = slotParameters u.assignments := by
    simp [slotParameters, List.flatMap_map]
  simp [UpdateParts.updateLine, parameters_commaSeparated, hset, parameters_whereKey, Token.bare]

/-- The words that begin inserts and deletions may stand before any name. -/
theorem Dialect.verbs_of_shipped (hd : d ∈ Dialect.shipped) :
    (Text.isMute d.insertWords = true ∧ Text.isClosed d.insertWords = true)
      ∧ Text.isMute d.deleteWords = true ∧ Text.isClosed d.deleteWords = true := by
  simp only [Dialect.shipped, List.mem_cons, List.not_mem_nil, or_false] at hd
  rcases hd with rfl | rfl | rfl <;> decide

/-- The line of a deletion is read back, also without a key. -/
theorem DeleteParts.legible_line (hd : d ∈ Dialect.shipped) {x : DeleteParts}
    (h : ∀ c ∈ x.key, c.slot.Legible d) : Legible d (x.line d) := by
  have hquoting := Dialect.quoting_mem_usual hd
  have hverb := (Dialect.verbs_of_shipped hd).2
  have htable := (legible_bare hquoting x.table).1.cons hquoting hverb.1 hverb.2
  have hline := legible_whereKey hquoting htable h
  simpa [DeleteParts.line] using hline

theorem DeleteParts.parameters_line (x : DeleteParts) :
    Tokens.parameters (x.line d) = slotParameters x.key := by
  simp [DeleteParts.line, parameters_whereKey, Token.bare]

/-- The line of an insert is read back, also without values. -/
theorem InsertParts.legible_insertLine (hd : d ∈ Dialect.shipped) {i : InsertParts}
    (h : ∀ c ∈ i.values, c.slot.Legible d) : Legible d (i.insertLine d) := by
  have hquoting := Dialect.quoting_mem_usual hd
  have hverb := (Dialect.verbs_of_shipped hd).1
  have htable := (legible_bare hquoting i.table).1.cons hquoting hverb.1 hverb.2
  unfold InsertParts.insertLine
  -- without values the defaults are inserted, and no list is written
  split
  · exact htable.append (legible_word hquoting (by decide)) (.inr (leads_word (by decide)))
  · have hcolumns : Legible d (commaSeparated (i.values.map fun v => [.bare v.column])) := by
      refine legible_commaSeparated hquoting fun p hp => ?_
      obtain ⟨c, -, rfl⟩ := List.mem_map.1 hp
      exact (legible_bare hquoting c.column).1
    have hvalues : Legible d (commaSeparated (i.values.map (·.slot.tokens))) := by
      refine legible_commaSeparated hquoting fun p hp => ?_
      obtain ⟨c, hc, rfl⟩ := List.mem_map.1 hp
      exact Slot.legible_tokens hquoting (h c hc)
    have hlist := (htable.around hquoting (w := " (") (by decide) hcolumns).around hquoting
      (w := ") VALUES (") (by decide) hvalues
    have hline := hlist.append (b := [.word ");"]) (legible_word hquoting (by decide))
      (.inr (leads_word (by decide)))
    simpa using hline

/-- An insert has the placeholders of its values. -/
theorem InsertParts.parameters_insertLine (i : InsertParts) :
    Tokens.parameters (i.insertLine d) = slotParameters i.values := by
  have hvalues : (i.values.map (·.slot.tokens)).flatMap Tokens.parameters
      = slotParameters i.values := by
    simp [slotParameters, List.flatMap_map]
  unfold InsertParts.insertLine
  split
  · rename_i hempty
    rw [List.isEmpty_iff.1 hempty]
    rfl
  · simp [parameters_commaSeparated, hvalues, Token.bare]

/-- A snippet stands on a line of its own. -/
theorem legible_snippetLine (hd : d.quoting ∈ Quoting.usual) {text : String}
    (h : Legible d [.word text]) : Legible d (snippetLine text) :=
  h.append (b := [.word ";"]) (legible_word hd (by decide)) (.inr (leads_word (by decide)))

/-! ### Selections -/

/-- Filters are read back behind the line before them. -/
theorem legible_filterTokens (hd : d.quoting ∈ Quoting.usual) {ts : Tokens} (hts : Legible d ts)
    {filters : List Tokens} (h : ∀ p ∈ filters, Legible d p) :
    Legible d (ts ++ filterTokens filters) := by
  unfold filterTokens
  split
  · simpa using hts
  · refine hts.around hd (by decide) (legible_separated hd (by decide) fun p hp => ?_)
    obtain ⟨q, hq, rfl⟩ := List.mem_map.1 hp
    exact (h q hq).parenthesizedIf hd _

/-- Each filter has its own placeholders. -/
theorem parameters_filterTokens (filters : List Tokens) :
    Tokens.parameters (filterTokens filters) = filters.flatMap Tokens.parameters := by
  unfold filterTokens
  split
  · rename_i hempty
    rw [List.isEmpty_iff.1 hempty]
    rfl
  · rw [Tokens.parameters_word, allOf, Tokens.parameters_separated, List.flatMap_map]
    simp

/-- Orders are read back behind the line before them. -/
theorem legible_orderTokens (hd : d.quoting ∈ Quoting.usual) {ts : Tokens} (hts : Legible d ts)
    {orders : List (Tokens × Order)} (h : ∀ o ∈ orders, Legible d o.1) :
    Legible d (ts ++ orderTokens orders) := by
  unfold orderTokens
  split
  · simpa using hts
  · refine hts.around hd (by decide) (legible_commaSeparated hd fun p hp => ?_)
    obtain ⟨o, ho, rfl⟩ := List.mem_map.1 hp
    have hdirection : Text.isMute o.2.text = true ∧ Text.leads o.2.text = true := by
      cases o.2 <;> decide
    exact (h o ho).append (legible_word hd hdirection.1) (.inr (leads_word hdirection.2))

/-- Each order has its own placeholders, and its direction has none. -/
theorem parameters_orderTokens (orders : List (Tokens × Order)) :
    Tokens.parameters (orderTokens orders) = orders.flatMap fun o => Tokens.parameters o.1 := by
  unfold orderTokens
  split
  · rename_i hempty
    rw [List.isEmpty_iff.1 hempty]
    rfl
  · rw [Tokens.parameters_word, parameters_commaSeparated, List.flatMap_map]
    simp

/-- The words of a limit behind SELECT may stand before any name. -/
theorem legible_leadingLimit (hd : d.quoting ∈ Quoting.usual) (n : Nat) :
    Legible d [.word (d.leadingLimit n)] ∧ Closed d [.word (d.leadingLimit n)] := by
  unfold Dialect.leadingLimit
  cases d.limitStyle with
  | trailing =>
    exact ⟨legible_word (w := "") hd (by decide), closed_word (w := "") hd (by decide)⟩
  | leading =>
    have hnumber : Legible d [.word ("TOP " ++ toString n)] :=
      legible_word_append ((legible_number hd n).cons hd (by decide) (by decide))
    have hblank : Legible d [.word " "] := legible_word hd (by decide)
    have hpieces := hnumber.append hblank (.inr (leads_word (by decide)))
    have hclosed := Closed.append_of_leads hnumber (closed_word (w := " ") hd (by decide))
      fun rest => detached_word (by decide) rest
    exact ⟨legible_word_append hpieces, closed_word_append hpieces hclosed⟩

/-- The words of a limit at the end may stand behind anything. -/
theorem legible_trailingLimit (hd : d.quoting ∈ Quoting.usual) (n : Nat) :
    Legible d [.word (d.trailingLimit n)] ∧ Leads d [.word (d.trailingLimit n)] := by
  unfold Dialect.trailingLimit
  cases d.limitStyle with
  | trailing =>
    refine ⟨legible_word_append ((legible_number hd n).cons hd (by decide) (by decide)), ?_⟩
    refine leads_word ?_
    simp [Text.leads, String.toList_append]
    decide
  | leading => exact ⟨legible_word (w := "") hd (by decide), fun _ h => h⟩

/-- The words of a row limit in a place of their own, if there is one. -/
theorem legible_limit {words : Nat → String} (h : ∀ n, Legible d [.word (words n)])
    (limit : Option Nat) : Legible d (limit.toList.map fun n => .word (words n)) := by
  cases limit with
  | none => exact .nil
  | some n => exact h n

/-- All joins are read back, each on its line. -/
theorem legible_joins (hd : d.quoting ∈ Quoting.usual) {ts : Tokens} (hts : Legible d ts)
    {joins : List Join} (h : ∀ j ∈ joins, IsAlias j.tableAlias ∧ IsAlias j.leftAlias) :
    Legible d (ts ++ joins.flatMap fun j => .word "\n" :: j.tokens) := by
  induction joins generalizing ts with
  | nil => simpa using hts
  | cons j joins ih =>
    rw [List.flatMap_cons, ← List.append_assoc]
    exact ih (hts.around hd (by decide) (legible_join hd (h j List.mem_cons_self)))
      fun j hj => h j (List.mem_cons_of_mem _ hj)

/-- The line of a selection is read back. -/
theorem SelectParts.legible_line (hd : d.quoting ∈ Quoting.usual) {s : SelectParts}
    (halias : IsAlias s.tableAlias)
    (hjoins : ∀ j ∈ s.joins, IsAlias j.tableAlias ∧ IsAlias j.leftAlias)
    (hfilters : ∀ p ∈ s.filters, Legible d p) (horders : ∀ o ∈ s.orders, Legible d o.1) :
    Legible d (s.line d) := by
  have hselect : Legible d
      (.word "SELECT " :: s.limit.toList.map fun n => .word (d.leadingLimit n)) :=
    (legible_limit (fun n => (legible_leadingLimit hd n).1) s.limit).cons hd (by decide)
      (by decide)
  have hclosed : Closed d
      (.word "SELECT " :: s.limit.toList.map fun n => .word (d.leadingLimit n)) := by
    have hword : Closed d [.word "SELECT "] := closed_word hd (by decide)
    cases s.limit with
    | none => exact hword
    | some n => exact hword.append (legible_leadingLimit hd n).2
  have hcolumns : Legible d (commaSeparated (s.columns.map fun c => [.identifier s.tableAlias c]))
      := by
    refine legible_commaSeparated hd fun p hp => ?_
    obtain ⟨c, -, rfl⟩ := List.mem_map.1 hp
    exact (legible_identifier hd (.inr halias) c).1
  have htable := (hselect.append hcolumns (.inl hclosed)).around hd (w := "\nFROM ") (by decide)
    (legible_table hd s.table (.inr halias))
  -- each clause begins with a word of its own, so it may follow whatever stands before it
  have hclauses := legible_orderTokens hd
    (legible_filterTokens hd (legible_joins hd htable hjoins) hfilters) horders
  have htrailing := legible_limit (fun n => (legible_trailingLimit hd n).1) s.limit
  have hleads : Leads d (s.limit.toList.map fun n => .word (d.trailingLimit n)) := by
    cases s.limit with
    | none => exact .nil
    | some n => exact (legible_trailingLimit hd n).2
  have hend : Legible d [.word ";"] := legible_word hd (by decide)
  exact (hclauses.append htrailing (.inr hleads)).append hend (.inr (leads_word (by decide)))

/-- In a selection the filters come first, the orders behind. -/
theorem SelectParts.parameters_line (s : SelectParts) :
    Tokens.parameters (s.line d)
      = s.filters.flatMap Tokens.parameters
        ++ s.orders.flatMap fun o => Tokens.parameters o.1 := by
  have hlimit (words : Nat → String) :
      Tokens.parameters (s.limit.toList.map fun n => .word (words n)) = [] := by
    cases s.limit <;> rfl
  have hjoins : Tokens.parameters (s.joins.flatMap fun j => .word "\n" :: j.tokens) = [] := by
    induction s.joins with
    | nil => rfl
    | cons j joins ih => simp [parameters_join, ih]
  simp [SelectParts.line, hlimit, hjoins, parameters_commaSeparated, parameters_table,
    parameters_filterTokens, parameters_orderTokens]

/-- A selection up to its filters. -/
def SelectParts.head (d : Dialect) (s : SelectParts) : Tokens :=
  .word "SELECT " :: s.limit.toList.map (fun n => .word (d.leadingLimit n))
    ++ commaSeparated (s.columns.map fun c => [.identifier s.tableAlias c])
    ++ .word "\nFROM " :: tableTokens s.table s.tableAlias
    ++ s.joins.flatMap fun j => .word "\n" :: j.tokens

/-- A selection from behind its filters on. -/
def SelectParts.tail (d : Dialect) (s : SelectParts) : Tokens :=
  orderTokens s.orders ++ s.limit.toList.map (fun n => .word (d.trailingLimit n)) ++ [.word ";"]

/-- A selection is cut at its filters. -/
theorem SelectParts.line_eq (s : SelectParts) :
    s.line d = s.head d ++ filterTokens s.filters ++ s.tail d := by
  simp [line, head, tail]

/-- A lexeme of separated pieces is one of a separator or of a piece. -/
theorem Tokens.mem_lexemes_separated {w : String} {pieces : List Tokens} {l : Lexeme}
    (h : l ∈ Tokens.lexemes d (Text.separated [.word w] pieces)) :
    l ∈ (Token.word w).lexemes d ∨ ∃ p ∈ pieces, l ∈ Tokens.lexemes d p := by
  obtain ⟨t, ht, hl⟩ := List.mem_flatMap.1 h
  rcases Text.mem_of_mem_separated ht with ht | ⟨p, hp, ht⟩
  · exact .inl (List.mem_singleton.1 ht ▸ hl)
  · exact .inr ⟨p, hp, List.mem_flatMap.2 ⟨t, ht, hl⟩⟩

/-- An alias is a t with a number, and not this word. -/
theorem IsAlias.ne_where {a : String} (h : IsAlias a) : a ≠ "WHERE" := by
  obtain ⟨n, hn⟩ := h.toList
  intro hwhere
  rw [hwhere] at hn
  exact absurd (List.cons.inj hn).1 (by decide)

/-- A column that is called WHERE is quoted, and no word. -/
theorem where_not_mem_column (hd : d.quoting ∈ Quoting.usual) {a : String} (h : IsAlias a)
    (column : String) : Lexeme.word "WHERE" ∉ (Token.identifier a column).lexemes d := by
  rw [(legible_identifier hd (.inr h) column).2]
  simp [Lexeme.ofColumn, h.ne_empty, h.ne_where.symm]

/-- A table that is called WHERE is quoted, and no word. -/
theorem where_not_mem_table (hd : d.quoting ∈ Quoting.usual) (table : String) {a : String}
    (h : IsAlias a) : Lexeme.word "WHERE" ∉ Tokens.lexemes d (tableTokens table a) := by
  have hblank : (Token.word " ").lexemes d = [] := lexemes_word hd (by decide)
  have halias : (Token.word a).lexemes d = [.word a] := (h.scan hd).1
  simp [tableTokens, h.ne_empty, (legible_bare hd table).2, hblank, halias, h.ne_where.symm]

theorem where_not_mem_join (hd : d.quoting ∈ Quoting.usual) {j : Join}
    (hj : IsAlias j.tableAlias ∧ IsAlias j.leftAlias) :
    Lexeme.word "WHERE" ∉ Tokens.lexemes d j.tokens := by
  have hkind : Lexeme.word "WHERE" ∉ (Token.word j.kind.text).lexemes d := by
    have hinner : (Token.word "INNER JOIN").lexemes d = [.word "INNER", .word "JOIN"] :=
      lexemes_word hd (by decide)
    have hleft : (Token.word "LEFT OUTER JOIN").lexemes d
        = [.word "LEFT", .word "OUTER", .word "JOIN"] :=
      lexemes_word hd (by decide)
    cases j.kind <;> simp [JoinKind.text, hinner, hleft]
  have hblank : (Token.word " ").lexemes d = [] := lexemes_word hd (by decide)
  have hon : (Token.word " ON ").lexemes d = [.word "ON"] := lexemes_word hd (by decide)
  have hequal : (Token.word " = ").lexemes d = [.symbol "="] := lexemes_word hd (by decide)
  simp [Join.tokens, hkind, hblank, hon, hequal, where_not_mem_table hd j.table hj.1,
    where_not_mem_column hd hj.1, where_not_mem_column hd hj.2]

theorem where_not_mem_leadingLimit (hd : d.quoting ∈ Quoting.usual) (n : Nat) :
    Lexeme.word "WHERE" ∉ (Token.word (d.leadingLimit n)).lexemes d := by
  unfold Dialect.leadingLimit
  cases d.limitStyle with
  | trailing =>
    have hempty : (Token.word "").lexemes d = [] := lexemes_word hd (by decide)
    simp [hempty]
  | leading =>
    have hnumber : Legible d [.word "TOP ", .word (toString n)] :=
      (legible_number hd n).cons hd (by decide) (by decide)
    have hpieces := hnumber.append (legible_word hd (w := " ") (by decide))
      (.inr (leads_word (by decide)))
    have hmerged : (Token.word ("TOP " ++ toString n ++ " ")).lexemes d
        = Tokens.lexemes d ([.word "TOP ", .word (toString n)] ++ [.word " "]) :=
      (hpieces.merge (by simp [Dialect.token]) rfl).2
    have htop : (Token.word "TOP ").lexemes d = [.word "TOP"] := lexemes_word hd (by decide)
    have hdigits : (Token.word (toString n)).lexemes d = [.word (toString n)] :=
      (scan_number hd n).1
    have hblank : (Token.word " ").lexemes d = [] := lexemes_word hd (by decide)
    -- a number is read as one, and the word is not
    have hword : toString n ≠ "WHERE" := by
      intro h
      have hread := number?_toString n
      rw [h] at hread
      cases hread
    have hread : Tokens.lexemes d ([.word "TOP ", .word (toString n)] ++ [.word " "])
        = [.word "TOP", .word (toString n)] := by
      simp only [Tokens.lexemes_append, Tokens.lexemes_cons, Tokens.lexemes_nil, htop, hdigits,
        hblank]
      rfl
    rw [hmerged, hread]
    intro hmem
    rcases List.mem_pair.1 hmem with h | h
    · exact absurd (Lexeme.word.inj h) (by decide)
    · exact hword (Lexeme.word.inj h).symm

/-- Nothing before the filters of a selection is read as the word that begins them. -/
theorem SelectParts.where_not_mem_head (hd : d.quoting ∈ Quoting.usual) {s : SelectParts}
    (halias : IsAlias s.tableAlias)
    (hjoins : ∀ j ∈ s.joins, IsAlias j.tableAlias ∧ IsAlias j.leftAlias) :
    Lexeme.word "WHERE" ∉ Tokens.lexemes d (s.head d) := by
  have hlimit : Lexeme.word "WHERE" ∉ Tokens.lexemes d
      (s.limit.toList.map fun n => .word (d.leadingLimit n)) := by
    cases s.limit with
    | none => exact List.not_mem_nil
    | some n => simpa using where_not_mem_leadingLimit hd n
  have hcolumns : Lexeme.word "WHERE" ∉ Tokens.lexemes d
      (commaSeparated (s.columns.map fun c => [.identifier s.tableAlias c])) := by
    intro hmem
    have hcomma : (Token.word ", ").lexemes d = [.symbol ","] := lexemes_word hd (by decide)
    rcases Tokens.mem_lexemes_separated hmem with hmem | ⟨piece, hpiece, hmem⟩
    · rw [hcomma] at hmem
      simp at hmem
    · obtain ⟨c, -, rfl⟩ := List.mem_map.1 hpiece
      exact where_not_mem_column hd halias c (by simpa using hmem)
  -- a table may be called like the word, but it is quoted and read as a name
  have hjoined : Lexeme.word "WHERE" ∉ Tokens.lexemes d
      (s.joins.flatMap fun j => .word "\n" :: j.tokens) := by
    have hblank : (Token.word "\n").lexemes d = [] := lexemes_word hd (by decide)
    intro hmem
    obtain ⟨t, ht, hl⟩ := List.mem_flatMap.1 hmem
    obtain ⟨j, hj, ht⟩ := List.mem_flatMap.1 ht
    rcases List.mem_cons.1 ht with rfl | ht
    · rw [hblank] at hl
      exact absurd hl List.not_mem_nil
    · exact where_not_mem_join hd (hjoins j hj) (List.mem_flatMap.2 ⟨t, ht, hl⟩)
  have hselect : (Token.word "SELECT ").lexemes d = [.word "SELECT"] :=
    lexemes_word hd (by decide)
  have hfrom : (Token.word "\nFROM ").lexemes d = [.word "FROM"] := lexemes_word hd (by decide)
  simp [head, hselect, hlimit, hcolumns, hfrom, where_not_mem_table hd s.table halias, hjoined]

/-! ### Templates of keys -/

namespace Text

/-- A text without the first character of the pattern stays as it is. -/
theorem substitute_of_not_mem {c : Char} {pattern replacement cs : List Char} (h : c ∉ cs) :
    substitute (c :: pattern) replacement cs = cs := by
  induction cs with
  | nil => rw [substitute]
  | cons x rest ih =>
    rw [List.mem_cons, not_or] at h
    have hprefix : List.isPrefixOf (c :: pattern) (x :: rest) = false := by
      simp [List.isPrefixOf, h.1]
    rw [substitute, hprefix, if_neg Bool.false_ne_true, ih h.2]

/-- The one occurrence of the pattern is replaced. -/
theorem substitute_once {c : Char} {pattern replacement before after : List Char}
    (hbefore : c ∉ before) (hafter : c ∉ after) :
    substitute (c :: pattern) replacement (before ++ c :: pattern ++ after)
      = before ++ replacement ++ after := by
  induction before with
  | nil =>
    have hprefix : List.isPrefixOf (c :: pattern) (c :: (pattern ++ after)) = true :=
      List.isPrefixOf_iff_prefix.2 ⟨after, rfl⟩
    have hrest : (pattern ++ after).drop ((c :: pattern).length - 1) = after := by
      simp
    show substitute (c :: pattern) replacement (c :: (pattern ++ after)) = _
    rw [substitute, if_pos hprefix, hrest, substitute_of_not_mem hafter]
    rfl
  | cons x before ih =>
    rw [List.mem_cons, not_or] at hbefore
    have hprefix :
        List.isPrefixOf (c :: pattern) (x :: (before ++ c :: pattern ++ after)) = false := by
      simp [List.isPrefixOf, hbefore.1]
    show substitute (c :: pattern) replacement (x :: (before ++ c :: pattern ++ after)) = _
    rw [substitute, hprefix, if_neg Bool.false_ne_true, ih hbefore.2]
    rfl

end Text

/-- The character that a place in a template begins with. -/
def Text.brace : Char := '\x7b'

/-- A template without places is written as it is. -/
theorem Dialect.keyTemplate_of_not_mem {template : String} (h : Text.brace ∉ template.toList)
    (i : Nat) (column table : String) : d.keyTemplate template i column table = template := by
  have hreplaced (place replacement : String) (hplace : place.toList.head? = some Text.brace) :
      Text.replaced template place replacement = template := by
    obtain ⟨rest, hrest⟩ := List.head?_eq_some_iff.1 hplace
    rw [Text.replaced, hrest, Text.substitute_of_not_mem h, String.ofList_toList]
  simp only [Dialect.keyTemplate]
  rw [hreplaced "\x7bkey\x7d" _ rfl, hreplaced "\x7bcolumn\x7d" _ rfl,
    hreplaced "\x7btable\x7d" _ rfl]

/-- A template with one place for the variable of a key has the variable in it. -/
theorem Dialect.keyTemplate_around {before after : String} (hbefore : Text.brace ∉ before.toList)
    (hafter : Text.brace ∉ after.toList) (i : Nat) (column table : String) :
    d.keyTemplate (before ++ "\x7bkey\x7d" ++ after) i column table
      = before ++ Dialect.keyVariable i ++ after := by
  have hplace : "\x7bkey\x7d".toList = Text.brace :: ['k', 'e', 'y', '\x7d'] := rfl
  have hkey : Text.replaced (before ++ "\x7bkey\x7d" ++ after) "\x7bkey\x7d" (Dialect.keyVariable i)
      = before ++ Dialect.keyVariable i ++ after := by
    rw [Text.replaced, String.toList_append, String.toList_append, hplace,
      Text.substitute_once hbefore hafter, ← String.toList_append, ← String.toList_append,
      String.ofList_toList]
  have hvariable : Text.brace ∉ (Dialect.keyVariable i).toList := by
    rw [Dialect.keyVariable, String.toList_append, List.mem_append, not_or]
    exact ⟨by decide, fun h => absurd (isWordChar_of_mem_toString h) (by decide)⟩
  have hnone : Text.brace ∉ (before ++ Dialect.keyVariable i ++ after).toList := by
    rw [String.toList_append, String.toList_append, List.mem_append, List.mem_append, not_or,
      not_or]
    exact ⟨⟨hbefore, hvariable⟩, hafter⟩
  -- what is left has no place for the column or the table
  have hrest := d.keyTemplate_of_not_mem hnone i column table
  simp only [Dialect.keyTemplate] at hrest ⊢
  rw [hkey]
  have hkeyless : Text.replaced (before ++ Dialect.keyVariable i ++ after) "\x7bkey\x7d"
      (Dialect.keyVariable i) = before ++ Dialect.keyVariable i ++ after := by
    rw [Text.replaced, hplace, Text.substitute_of_not_mem hnone, String.ofList_toList]
  rwa [hkeyless] at hrest

/-- The templates of a strategy. -/
def KeyStrategy.templates (s : KeyStrategy) : List String :=
  s.preInsert.toList ++ s.reference :: s.postInsert.toList

/-- What the given dialects write around the variable of a key. -/
def KeyStrategy.surroundings : List (String × String) :=
  [("", ""), ("DECLARE ", " BIGINT"), ("SET ", " = SCOPE_IDENTITY()"),
    ("DECLARE ", " UNIQUEIDENTIFIER = NEWID()")]

/-- What a given dialect writes around a key has the variable in its place. -/
theorem Dialect.keyTemplate_surrounding {p : String × String}
    (hp : p ∈ KeyStrategy.surroundings) (i : Nat) (column table : String) :
    d.keyTemplate (p.1 ++ "\x7bkey\x7d" ++ p.2) i column table
      = p.1 ++ Dialect.keyVariable i ++ p.2 := by
  have haround : ∀ p ∈ KeyStrategy.surroundings,
      Text.brace ∉ p.1.toList ∧ Text.brace ∉ p.2.toList := by
    decide
  exact Dialect.keyTemplate_around (haround p hp).1 (haround p hp).2 i column table

/-- The templates of the given dialects call a function, or have one place for the variable of a
key. -/
theorem Dialect.templates_of_shipped (hd : d ∈ Dialect.shipped) {s : KeyStrategy}
    (hs : s ∈ d.strategies.entries) (hserver : s.generator = none) :
    ∀ t ∈ s.templates, t ∈ ["last_insert_rowid()", "lastval()"]
      ∨ ∃ p ∈ KeyStrategy.surroundings, t = p.1 ++ "\x7bkey\x7d" ++ p.2 := by
  have hall : ∀ d ∈ Dialect.shipped, ∀ s ∈ d.strategies.entries, s.generator = none →
      ∀ t ∈ s.templates, t ∈ ["last_insert_rowid()", "lastval()"]
        ∨ ∃ p ∈ KeyStrategy.surroundings, t = p.1 ++ "\x7bkey\x7d" ++ p.2 := by
    decide
  exact hall d hd s hs hserver

/-- The variable of a key is read between the words that a given dialect writes around it. -/
theorem legible_aroundVariable (hd : d.quoting ∈ Quoting.usual) {p : String × String}
    (hp : p ∈ KeyStrategy.surroundings) (i : Nat) :
    Legible d [.word (p.1 ++ Dialect.keyVariable i ++ p.2)]
      ∧ (Token.word (p.1 ++ Dialect.keyVariable i ++ p.2)).lexemes d
        = Tokens.lexemes d [.word p.1, .word (Dialect.keyVariable i), .word p.2] := by
  have haround : ∀ p ∈ KeyStrategy.surroundings,
      (Text.isMute p.1 = true ∧ Text.isClosed p.1 = true)
        ∧ Text.isMute p.2 = true ∧ (p.2 = "" ∨ Text.leads p.2 = true) := by
    decide
  obtain ⟨⟨hmute₁, hclosed₁⟩, hmute₂, hleads⟩ := haround p hp
  have hvariable := (legible_keyVariable hd i).cons hd hmute₁ hclosed₁
  have hpost : Leads d [.word p.2] := by
    rcases hleads with hempty | hleads
    · rw [hempty]
      exact fun _ h => h
    · exact leads_word hleads
  have hpieces := hvariable.append (legible_word hd hmute₂) (.inr hpost)
  exact hpieces.merge (by simp [Dialect.token]) rfl

/-- A filled template of a given dialect is legible and has no placeholders. -/
theorem legible_keyTemplate (hd : d ∈ Dialect.shipped) {s : KeyStrategy}
    (hs : s ∈ d.strategies.entries) (hserver : s.generator = none) {t : String}
    (ht : t ∈ s.templates) (i : Nat) (column table : String) :
    Legible d [.word (d.keyTemplate t i column table)] := by
  have hquoting := Dialect.quoting_mem_usual hd
  -- a call stays as it is; otherwise the variable is pasted between two words
  rcases Dialect.templates_of_shipped hd hs hserver t ht with hcall | ⟨p, hp, rfl⟩
  · have hplain : ∀ t ∈ ["last_insert_rowid()", "lastval()"],
        Text.brace ∉ t.toList ∧ Text.isMute t = true := by
      decide
    rw [Dialect.keyTemplate_of_not_mem (hplain t hcall).1]
    exact legible_word hquoting (hplain t hcall).2
  · rw [Dialect.keyTemplate_surrounding hp]
    exact (legible_aroundVariable hquoting hp i).1

/-! ## Batches -/

/-- The lines of a batch are separated pieces. -/
theorem Dialect.toList_batch {lines : List Tokens} (h : ∀ l ∈ lines, l ≠ []) :
    (d.batch lines).toList = d.chars (Text.separated [.word "\n"] lines) := by
  have hchars : lines.map (fun l => (d.text l).toList) = lines.map d.chars :=
    List.map_congr_left fun l _ => d.toList_text l
  rw [Dialect.batch, String.toList_intercalate, List.map_map]
  show List.intercalate _ (lines.map fun l => (d.text l).toList) = _
  rw [hchars]
  clear hchars
  -- lines are joined without regard to empty ones, pieces are not: no line is empty
  induction lines with
  | nil => rfl
  | cons line rest ih =>
    have hline : line ≠ [] := h line List.mem_cons_self
    have hrest := ih fun l hl => h l (List.mem_cons_of_mem _ hl)
    cases rest with
    | nil => simp [Text.separated]
    | cons next rest =>
      have hempty : line.isEmpty = false := by simpa using hline
      rw [Text.separated, hempty]
      simp only [Bool.false_eq_true, if_false, Dialect.chars_append, ← hrest]
      simp [List.intercalate, Dialect.token]

/-- A separator that is blank adds no lexemes. -/
theorem Tokens.lexemes_separated {w : String} (hblank : (Token.word w).lexemes d = [])
    (pieces : List Tokens) :
    Tokens.lexemes d (Text.separated [.word w] pieces) = pieces.flatMap (Tokens.lexemes d) :=
  Text.read_separated (fun _ _ => Tokens.lexemes_append) (by simp [hblank]) pieces

/-- A batch of legible lines is one legible piece. -/
theorem lexemes_separated_batch (hd : d.quoting ∈ Quoting.usual) {lines : List Tokens}
    (hlines : ∀ l ∈ lines, Legible d l ∧ l ≠ []) :
    Legible d (Text.separated [.word "\n"] lines)
      ∧ d.lexemes (d.batch lines)
        = d.lexemes (d.text (Text.separated [.word "\n"] lines)) := by
  refine ⟨legible_separated hd (by decide) fun l hl => (hlines l hl).1, ?_⟩
  unfold Dialect.lexemes
  rw [Dialect.toList_batch fun l hl => (hlines l hl).2, Dialect.toList_text]

/-- The lexemes of a batch of legible lines are those of the lines, in order. -/
theorem lexemes_batch (hd : d.quoting ∈ Quoting.usual) {lines : List Tokens}
    (hlines : ∀ l ∈ lines, Legible d l ∧ l ≠ []) :
    d.lexemes (d.batch lines) = lines.flatMap (Tokens.lexemes d) := by
  obtain ⟨hlegible, htext⟩ := lexemes_separated_batch hd hlines
  have hblank : (Token.word "\n").lexemes d = [] := lexemes_word hd (by decide)
  rw [htext, hlegible.lexemes_text, Tokens.lexemes_separated hblank]

/-- The placeholders in a batch of legible lines are the parameters of the lines, in order. -/
theorem placeholders_batch (hd : d.quoting ∈ Quoting.usual) {lines : List Tokens}
    (hlines : ∀ l ∈ lines, Legible d l ∧ l ≠ []) :
    placeholders (d.lexemes (d.batch lines)) = lines.flatMap Tokens.parameters := by
  obtain ⟨hlegible, htext⟩ := lexemes_separated_batch hd hlines
  rw [htext, hlegible.placeholders_text, Tokens.parameters_separated]

theorem DeleteParts.legible_lines (hd : d ∈ Dialect.shipped) {x : DeleteParts}
    (h : ∀ c ∈ x.key, c.slot.Legible d) : ∀ l ∈ [x.line d], Legible d l ∧ l ≠ [] := by
  intro l hl
  rw [List.mem_singleton.1 hl]
  exact ⟨legible_line hd h, by simp [line]⟩

theorem SelectParts.legible_lines (hd : d.quoting ∈ Quoting.usual) {s : SelectParts}
    (halias : IsAlias s.tableAlias)
    (hjoins : ∀ j ∈ s.joins, IsAlias j.tableAlias ∧ IsAlias j.leftAlias)
    (hfilters : ∀ p ∈ s.filters, Legible d p) (horders : ∀ o ∈ s.orders, Legible d o.1) :
    ∀ l ∈ [s.line d], Legible d l ∧ l ≠ [] := by
  intro l hl
  rw [List.mem_singleton.1 hl]
  exact ⟨legible_line hd halias hjoins hfilters horders, by simp [line]⟩

/-- All lines of an update are read back. -/
theorem UpdateParts.legible_lines (hd : d.quoting ∈ Quoting.usual) {u : UpdateParts}
    (hassignments : ∀ c ∈ u.assignments, c.slot.Legible d)
    (hkey : ∀ c ∈ u.key, c.slot.Legible d) (hread : u.readBack.key = u.key) :
    ∀ l ∈ u.lines, Legible d l ∧ l ≠ [] := by
  intro l hl
  rcases List.mem_append.1 hl with hl | hl
  · -- without assignments there is no line that updates
    split at hl
    · exact absurd hl List.not_mem_nil
    · rw [List.mem_singleton.1 hl]
      exact ⟨legible_updateLine hd hassignments hkey, by simp [updateLine]⟩
  · rw [List.mem_singleton.1 hl]
    exact ⟨ReadBack.legible_line hd (hread ▸ hkey), by simp [ReadBack.line]⟩

/-- An update writes the positions of its key twice, or once if it assigns nothing. -/
theorem UpdateParts.mem_parameters_lines {u : UpdateParts} (hread : u.readBack.key = u.key)
    (i : Nat) : i ∈ u.lines.flatMap Tokens.parameters
      ↔ i ∈ slotParameters u.assignments ++ slotParameters u.key := by
  unfold UpdateParts.lines
  cases hempty : u.assignments.isEmpty with
  | true =>
    rw [List.isEmpty_iff.1 hempty]
    simp [ReadBack.parameters_line, slotParameters, hread]
  | false =>
    simp [ReadBack.parameters_line, parameters_updateLine, hread]

/-- All lines of an insert are read back: the snippets, the insert and the line that reads the row
back. -/
theorem InsertParts.legible_lines (hd : d ∈ Dialect.shipped) {p : InsertParts}
    (hsnippets : ∀ t ∈ p.before ++ p.after, Legible d [.word t])
    (hvalues : ∀ c ∈ p.values, c.slot.Legible d)
    (hkey : ∀ c ∈ p.readBack.key, c.slot.Legible d) : ∀ l ∈ p.lines d, Legible d l ∧ l ≠ [] := by
  have hquoting := Dialect.quoting_mem_usual hd
  have hsnippet : ∀ ts : List String, (∀ t ∈ ts, Legible d [.word t]) →
      ∀ l ∈ ts.map snippetLine, Legible d l ∧ l ≠ [] := by
    intro ts hts l hl
    obtain ⟨t, ht, rfl⟩ := List.mem_map.1 hl
    exact ⟨legible_snippetLine hquoting (hts t ht), by simp [snippetLine]⟩
  intro l hl
  simp only [lines, List.mem_append, List.mem_singleton] at hl
  rcases hl with ((hl | rfl) | hl) | rfl
  · exact hsnippet _ (fun t ht => hsnippets t (List.mem_append_left _ ht)) l hl
  · exact ⟨legible_insertLine hd hvalues, by simp [insertLine]⟩
  · exact hsnippet _ (fun t ht => hsnippets t (List.mem_append_right _ ht)) l hl
  · exact ⟨ReadBack.legible_line hquoting hkey, by simp [ReadBack.line]⟩

/-- The placeholders of an insert are those of the row, then those of its key. -/
theorem InsertParts.parameters_lines (p : InsertParts) :
    (p.lines d).flatMap Tokens.parameters
      = slotParameters p.values ++ slotParameters p.readBack.key := by
  have hsnippets (ts : List String) : (ts.map snippetLine).flatMap Tokens.parameters = [] := by
    induction ts with
    | nil => rfl
    | cons t ts ih => simp [snippetLine]
  simp [lines, hsnippets, parameters_insertLine, ReadBack.parameters_line]

end Pieces

end RowMapper
