import Mathlib.Data.List.Forall2
import RowMapper.Collection.Basic
import RowMapper.Proofs.Resolution
import RowMapper.Proofs.Sending
import RowMapper.Proofs.Slots
import RowMapper.Sample.Company

/-!
# Commands on the stored row

An instance is updated, deleted and reloaded by the committed values of its key, whatever was
assigned to it meanwhile and whatever the servers answer.

* `Instance.Pins` says that slots hold the committed values of all columns of the key;
  `Instance.Updates`, `Instance.Deletes`, `Instance.DeletesReferring` and `Instance.Selects` are
  the statements that may be sent.
* `modification_updates`, `removal_deletes` and `statement_selects` say that no others are built.
* `stored_row_only` puts them under what the tasks of a collection send. A type without a key is
  never updated, but its deletions and reloads are not restricted to any row.
-/

namespace RowMapper

/-! ## The committed key -/

namespace Instance

/-- The committed value of a column. -/
def committed? (i : Instance) (c : ColumnMapping) : Option Value :=
  (i.member? c.name).map (·.cell.committedValue)

/-- The slots are those of all columns of the key, and hold their committed values. -/
def Pins (i : Instance) (m : TypeMapping) (parameters : List Value) (slots : List ColumnSlot) :
    Prop :=
  List.Forall₂ (fun c slot => slot.column = c.column
    ∧ ∃ v, i.committed? c = some v ∧ slot.slot.StandsFor parameters v) m.primaryKeys slots

variable {i : Instance} {m : TypeMapping} {parameters : List Value} {slots : List ColumnSlot}

/-- There is no condition only on a type without a key. -/
theorem Pins.eq_nil_iff (h : i.Pins m parameters slots) : slots = [] ↔ m.primaryKeys = [] := by
  rw [← List.length_eq_zero_iff, ← h.length_eq, List.length_eq_zero_iff]

theorem Pins.legible (h : i.Pins m parameters slots) (d : Dialect) :
    ∀ slot ∈ slots, slot.slot.Legible d := by
  unfold Pins at h
  generalize m.primaryKeys = keys at h
  induction h with
  | nil => exact fun _ h => absurd h List.not_mem_nil
  | cons hfirst _ ih =>
    intro slot hslot
    rcases List.mem_cons.1 hslot with rfl | hslot
    · obtain ⟨-, v, -, hv⟩ := hfirst
      exact hv.legible d
    · exact ih slot hslot

/-! ## The statements that may be sent -/

/-- The statement updates the row of the committed key and reads it back. -/
def Updates (i : Instance) (m : TypeMapping) (d : Dialect) (st : Statement) : Prop :=
  ∃ u : UpdateParts, st.sql = d.batch u.lines ∧ u.table = m.table ∧ u.assignments ≠ []
    ∧ (∀ slot ∈ u.assignments, slot.slot.Legible d) ∧ u.key ≠ [] ∧ i.Pins m st.parameters u.key
    ∧ u.readBack.table = m.table ∧ u.readBack.key = u.key

/-- The statement deletes the row of the committed key. -/
def Deletes (i : Instance) (m : TypeMapping) (d : Dialect) (st : Statement) : Prop :=
  ∃ x : DeleteParts, st.sql = d.batch [x.line d] ∧ x.table = m.table
    ∧ i.Pins m st.parameters x.key

/-- The statement deletes the rows that refer by a list to the single committed key. -/
def DeletesReferring (i : Instance) (m : TypeMapping) (l : ListMapping) (d : Dialect)
    (st : Statement) : Prop :=
  ∃ (x : DeleteParts) (c : ColumnMapping) (v : Value), st.sql = d.batch [x.line d]
    ∧ x.table = l.targetTable ∧ x.key = [⟨l.targetColumn, .parameter 0⟩] ∧ st.parameters = [v]
    ∧ m.primaryKeys = [c] ∧ i.committed? c = some v

/-- The statement selects all columns of the row of the committed key. -/
def Selects (i : Instance) (m : TypeMapping) (d : Dialect) (st : Statement) : Prop :=
  ∃ p : SelectParts, st.sql = d.batch [p.line d] ∧ p.table = m.table
    ∧ p.columns = m.columns.map (·.column) ∧ p.joins = [] ∧ p.orders = [] ∧ p.limit = none
    ∧ IsAlias p.tableAlias
    ∧ List.Forall₂ (fun c filter => ∃ index v, i.committed? c = some v
        ∧ st.parameters[index]? = some v
        ∧ filter = [.identifier p.tableAlias c.column, .word " = ", .parameter index])
      m.primaryKeys p.filters

end Instance

/-- The text of the statement has a WHERE clause. -/
def Statement.HasWhere (st : Statement) (d : Dialect) : Prop :=
  Lexeme.word "WHERE" ∈ d.lexemes st.sql

section

variable {d : Dialect} {i : Instance} {m : TypeMapping} {st : Statement}

/-- A condition on slots begins with the word. -/
theorem where_mem_whereKey (hd : d.quoting ∈ Quoting.usual) {slots : List ColumnSlot}
    (h : slots ≠ []) : Lexeme.word "WHERE" ∈ Tokens.lexemes d (whereKey slots) := by
  have hword : (Token.word " WHERE ").lexemes d = [.word "WHERE"] := lexemes_word hd (by decide)
  have hempty : slots.isEmpty = false := by simpa using h
  rw [whereKey, hempty]
  simp [hword]

/-- A deletion has a WHERE clause exactly if it has slots. -/
theorem where_mem_deleteLine (hd : d ∈ Dialect.shipped) (x : DeleteParts) :
    Lexeme.word "WHERE" ∈ Tokens.lexemes d (x.line d) ↔ x.key ≠ [] := by
  have hquoting := Dialect.quoting_mem_usual hd
  have hverb : ∀ d ∈ Dialect.shipped,
      Lexeme.word "WHERE" ∉ (Token.word d.deleteWords).lexemes d := by
    decide
  have htable := (legible_bare hquoting x.table).2
  have hend : (Token.word ";").lexemes d = [.symbol ";"] := lexemes_word hquoting (by decide)
  have hline : Lexeme.word "WHERE" ∈ Tokens.lexemes d (x.line d)
      ↔ Lexeme.word "WHERE" ∈ Tokens.lexemes d (whereKey x.key) := by
    simp [DeleteParts.line, htable, hend, hverb d hd]
  rw [hline]
  refine ⟨?_, where_mem_whereKey hquoting⟩
  rintro hmem hnil
  rw [hnil] at hmem
  exact absurd hmem List.not_mem_nil

/-- A deletion has a condition unless the type has no key. -/
theorem Instance.Deletes.hasWhere_iff (hd : d ∈ Dialect.shipped) (h : i.Deletes m d st) :
    st.HasWhere d ↔ m.primaryKeys ≠ [] := by
  obtain ⟨x, hsql, -, hpins⟩ := h
  have hlines := DeleteParts.legible_lines hd (hpins.legible d)
  rw [Statement.HasWhere, hsql, lexemes_batch (Dialect.quoting_mem_usual hd) hlines,
    List.flatMap_singleton, where_mem_deleteLine hd, ne_eq, hpins.eq_nil_iff]

/-- A cascade has a condition: the reference to the owner. -/
theorem Instance.DeletesReferring.hasWhere (hd : d ∈ Dialect.shipped) {l : ListMapping}
    (h : i.DeletesReferring m l d st) : st.HasWhere d := by
  obtain ⟨x, c, v, hsql, -, hkey, -⟩ := h
  have hlegible : ∀ slot ∈ x.key, slot.slot.Legible d := by
    rw [hkey]
    intro slot hslot
    rw [List.mem_singleton.1 hslot]
    trivial
  have hlines := DeleteParts.legible_lines hd hlegible
  rw [Statement.HasWhere, hsql, lexemes_batch (Dialect.quoting_mem_usual hd) hlines,
    List.flatMap_singleton, where_mem_deleteLine hd, hkey]
  exact List.cons_ne_nil _ _

/-- An update has a condition. -/
theorem Instance.Updates.hasWhere (hd : d ∈ Dialect.shipped) (h : i.Updates m d st) :
    st.HasWhere d := by
  have hquoting := Dialect.quoting_mem_usual hd
  obtain ⟨u, hsql, -, hassigned, hlegible, hkey, hpins, -, hread⟩ := h
  have hlines := UpdateParts.legible_lines hquoting hlegible (hpins.legible d) hread
  have hempty : u.assignments.isEmpty = false := by simpa using hassigned
  have hline : Lexeme.word "WHERE" ∈ Tokens.lexemes d u.updateLine := by
    rw [UpdateParts.updateLine]
    simp [where_mem_whereKey hquoting hkey]
  rw [Statement.HasWhere, hsql, lexemes_batch hquoting hlines, UpdateParts.lines, hempty]
  exact List.mem_flatMap.2 ⟨u.updateLine, List.mem_cons_self, hline⟩

/-- A selection from one table, in no order and without a limit, has a WHERE clause exactly if it
has filters. -/
theorem where_mem_selectLine (hd : d.quoting ∈ Quoting.usual) {p : SelectParts}
    (halias : IsAlias p.tableAlias) (hjoins : p.joins = []) (horders : p.orders = [])
    (hlimit : p.limit = none) :
    Lexeme.word "WHERE" ∈ Tokens.lexemes d (p.line d) ↔ p.filters ≠ [] := by
  have hhead : Lexeme.word "WHERE" ∉ Tokens.lexemes d (p.head d) :=
    SelectParts.where_not_mem_head hd halias
      (by rw [hjoins]; exact fun _ h => absurd h List.not_mem_nil)
  have hend : (Token.word ";").lexemes d = [.symbol ";"] := lexemes_word hd (by decide)
  -- without joins, orders and a limit the word can only begin the filters
  have htail : p.tail d = [.word ";"] := by
    simp [SelectParts.tail, horders, hlimit, orderTokens]
  have hline : Lexeme.word "WHERE" ∈ Tokens.lexemes d (p.line d)
      ↔ Lexeme.word "WHERE" ∈ Tokens.lexemes d (filterTokens p.filters) := by
    rw [SelectParts.line_eq, htail]
    simp [hhead, hend]
  rw [hline]
  refine ⟨?_, fun hfilters => ?_⟩
  · rintro hmem hnil
    rw [hnil] at hmem
    exact absurd hmem List.not_mem_nil
  · have hwhere : (Token.word "\nWHERE ").lexemes d = [.word "WHERE"] :=
      lexemes_word hd (by decide)
    have hempty : p.filters.isEmpty = false := by simpa using hfilters
    rw [filterTokens, hempty]
    simp [hwhere]

/-- A reload has a condition unless the type has no key. -/
theorem Instance.Selects.hasWhere_iff (hd : d ∈ Dialect.shipped) (h : i.Selects m d st) :
    st.HasWhere d ↔ m.primaryKeys ≠ [] := by
  have hquoting := Dialect.quoting_mem_usual hd
  obtain ⟨p, hsql, -, -, hjoins, horders, hlimit, halias, hfilters⟩ := h
  have hlegible : ∀ filter ∈ p.filters, Legible d filter := by
    intro filter hfilter
    obtain ⟨index, hindex, rfl⟩ := List.getElem_of_mem hfilter
    obtain ⟨n, v, -, -, hfilter⟩ :=
      (List.forall₂_iff_get.1 hfilters).2 index (hfilters.length_eq ▸ hindex) hindex
    rw [List.get_eq_getElem] at hfilter
    rw [hfilter]
    exact (legible_identifier hquoting (.inr halias) _).1.around hquoting (by decide)
      (legible_parameter hquoting n)
  have hlines := SelectParts.legible_lines hquoting halias
    (by rw [hjoins]; exact fun _ h => absurd h List.not_mem_nil) hlegible
    (by rw [horders]; exact fun _ h => absurd h List.not_mem_nil)
  rw [Statement.HasWhere, hsql, lexemes_batch hquoting hlines, List.flatMap_singleton,
    where_mem_selectLine hquoting halias hjoins horders hlimit, ← List.length_pos_iff,
    ← List.length_pos_iff, hfilters.length_eq]

end

/-! ## What is built -/

/-- Slots of contributions of the committed key pin it. -/
theorem Instance.Pins.of_keys {i : Instance} {m : TypeMapping} {before : List Value}
    {keys : List Contribution}
    (hkeys : List.Forall₂ (fun c f => f.name = c.column
      ∧ ∃ v, i.committed? c = some v ∧ f.value = some v) m.primaryKeys keys) :
    i.Pins m (slotsOf before keys).2 (slotsOf before keys).1 := by
  have hvalues : ∀ f ∈ keys, f.value.isSome := by
    intro f hf
    obtain ⟨index, hindex, rfl⟩ := List.getElem_of_mem hf
    obtain ⟨-, v, -, hv⟩ :=
      (List.forall₂_iff_get.1 hkeys).2 index (hkeys.length_eq ▸ hindex) hindex
    rw [List.get_eq_getElem] at hv
    rw [hv]
    rfl
  have hslots := standsFor_slotsOf before hvalues
  clear hvalues
  unfold Pins
  generalize (slotsOf before keys).2 = parameters at hslots ⊢
  generalize (slotsOf before keys).1 = slots at hslots ⊢
  generalize m.primaryKeys = columns at hkeys ⊢
  induction hkeys generalizing slots with
  | nil =>
    cases hslots
    exact .nil
  | cons hkey _ ih =>
    cases hslots with
    | cons hslot hrest =>
      obtain ⟨hname, v, hcommitted, hvalue⟩ := hkey
      obtain ⟨hcolumn, w, hw, hstands⟩ := hslot
      -- the slot stands for what the field contributes, which is the committed value
      have hsame : w = v := Option.some.inj (hw.symm.trans hvalue)
      exact .cons ⟨hcolumn.trans hname, v, hcommitted, hsame ▸ hstands⟩ (ih _ hrest)

namespace Instance

variable {i : Instance} {m : TypeMapping} {d : Dialect}

/-- A column contributes its committed value to a stored row if it belongs to the key. -/
theorem contribution_stored {strategies : KeyStrategies} {c : ColumnMapping} {f : Contribution}
    (h : i.contribution m strategies true c = .ok f) :
    (c.primaryKey = true ↔ (f.role == .keyField) = true)
      ∧ (c.primaryKey = true → f.name = c.column
        ∧ ∃ v, i.committed? c = some v ∧ f.value = some v) := by
  unfold contribution tracked at h
  cases hmember : i.member? c.name with
  | none =>
    rw [hmember] at h
    cases h
  | some member =>
    rw [hmember] at h
    cases h
    refine ⟨?_, fun hkey => ⟨rfl, member.cell.committedValue, ?_, ?_⟩⟩
    · unfold ColumnMapping.role FieldRole.ofAccess
      obtain ⟨_, _, _, primaryKey, access⟩ := c
      obtain ⟨insertable, updateable⟩ := access
      cases primaryKey <;> cases insertable <;> cases updateable <;> simp
    · rw [committed?, hmember]
      rfl
    · simp [hkey]

/-- The contributions of a stored row give the committed key. -/
theorem keys_of_contributions {strategies : KeyStrategies} {fields : List Contribution}
    (h : i.contributions m strategies true = .ok fields) :
    List.Forall₂ (fun c f => f.name = c.column ∧ ∃ v, i.committed? c = some v ∧ f.value = some v)
      m.primaryKeys (Command.keys ⟨m.table, fields⟩) := by
  have hall := forall₂_of_mapM h
  have hkeys : List.Forall₂ (fun c f => i.contribution m strategies true c = .ok f) m.primaryKeys
      (Command.keys ⟨m.table, fields⟩) := by
    refine List.rel_filter (fun c f hf => ?_) hall
    exact (contribution_stored hf).1
  have hprimary : ∀ c ∈ m.primaryKeys, c.primaryKey = true := fun c hc => (List.mem_filter.1 hc).2
  refine ((List.forall₂_and_left _ _).2 ⟨hprimary, hkeys⟩).imp fun c f hcf => ?_
  exact (contribution_stored hcf.2).2 hcf.1

/-- An update that is built is one of the stored row. -/
theorem modification_updates {built : Built} (h : i.modification m d = .ok (some built)) :
    i.Updates m d built.statement := by
  unfold modification at h
  split at h
  · cases h
  obtain ⟨fields, hfields, h⟩ := Except.bind_eq_ok.1 h
  dsimp only at h
  split at h
  swap
  · cases h
  rename_i hchanges
  obtain ⟨statement, hupdate, h⟩ := Except.bind_eq_ok.1 h
  cases h
  obtain ⟨hkey, hstatement⟩ := Command.update_eq_ok (Except.mapError_eq_ok.1 hupdate)
  have hvalues : ∀ f ∈ Command.assigned ⟨m.table, fields⟩, f.value.isSome := fun f hf => by
    have hassigned := (List.mem_filter.1 hf).2
    rw [Bool.and_eq_true] at hassigned
    exact hassigned.2
  have hassigned := standsFor_slotsOf [] hvalues
  have hkeys := keys_of_contributions (Except.mapError_eq_ok.1 hfields)
  rw [hstatement]
  refine ⟨_, rfl, rfl, fun hnone => ?_, ?_, hkey, .of_keys hkeys, rfl, rfl⟩
  -- no slot means that nothing was assigned, against the guard
  · rw [Command.hasChanges] at hchanges
    have hlength := hassigned.length_eq
    have hempty : (slotsOf [] (Command.assigned ⟨m.table, fields⟩)).1 = [] := hnone
    rw [hempty, List.length_nil, eq_comm, List.length_eq_zero_iff] at hlength
    rw [hlength] at hchanges
    exact absurd hchanges Bool.false_ne_true
  · have hnumbered : Numbered d [] (slotsOf [] (Command.assigned ⟨m.table, fields⟩)).1
      (slotsOf [] (Command.assigned ⟨m.table, fields⟩)).2 := .slotsOf _
    exact hnumbered.legible

/-! ### Deletions -/

/-- A key that is stored is committed, and is not NULL. -/
theorem storedKey_eq_ok {c : ColumnMapping} {key : ColumnMapping × Value}
    (h : i.storedKey m c = .ok key) :
    key.1 = c ∧ i.committed? c = some key.2 ∧ key.2.isNull = false := by
  unfold storedKey tracked at h
  cases hmember : i.member? c.name with
  | none =>
    rw [hmember] at h
    cases h
  | some member =>
    rw [hmember] at h
    change (if member.cell.committedValue.isNull then _ else _) = _ at h
    split at h
    · cases h
    · rename_i hnull
      cases h
      refine ⟨rfl, ?_, by simpa using hnull⟩
      rw [committed?, hmember]
      rfl

/-- The stored keys are the columns of the key with their committed values. -/
theorem storedKeys_eq_ok {keys : List (ColumnMapping × Value)} (h : i.storedKeys m = .ok keys) :
    List.Forall₂ (fun c key => key.1 = c ∧ i.committed? c = some key.2 ∧ key.2.isNull = false)
      m.primaryKeys keys :=
  (forall₂_of_mapM h).imp fun _ _ hkey => storedKey_eq_ok hkey

/-- All contributions to a deletion are keys. -/
theorem keys_deletionBy (table : String) (keys : List (String × Value)) :
    (deletionBy table keys).keys = (deletionBy table keys).fields := by
  refine List.filter_eq_self.2 fun f hf => ?_
  obtain ⟨key, -, rfl⟩ := List.mem_map.1 hf
  rfl

/-- A deletion by the stored keys is the one of the stored row. -/
theorem deletion_deletes {keys : List (ColumnMapping × Value)} (hkeys : i.storedKeys m = .ok keys)
    {built : Built}
    (h : (deletionBy m.table (keys.map fun (c, v) => (c.column, v))).delete d = .ok built) :
    i.Deletes m d built.statement := by
  rw [Command.delete_eq_ok h]
  refine ⟨_, rfl, rfl, .of_keys ?_⟩
  rw [keys_deletionBy, deletionBy, List.map_map, List.forall₂_map_right_iff]
  refine (storedKeys_eq_ok hkeys).imp ?_
  rintro c ⟨_, v⟩ ⟨rfl, hcommitted, -⟩
  exact ⟨rfl, v, hcommitted, rfl⟩

/-- A cascade by the stored keys is the one of the rows that refer to it. -/
theorem listDeletion_deletes {keys : List (ColumnMapping × Value)}
    (hkeys : i.storedKeys m = .ok keys) {l : ListMapping} {built : Built}
    (h : listDeletion m d keys l = .ok built) : i.DeletesReferring m l d built.statement := by
  have hstored := storedKeys_eq_ok hkeys
  unfold listDeletion at h
  split at h
  swap
  · cases h
  rename_i c v
  generalize hprimary : m.primaryKeys = primary at hstored
  cases hstored with
  | @cons c' _ _ _ hkey hrest =>
    -- only a single key is referred to
    cases hrest
    obtain ⟨rfl, hcommitted, hnull⟩ := hkey
    have hslots : slotsOf [] (deletionBy l.targetTable [(l.targetColumn, v)]).keys
        = ([⟨l.targetColumn, .parameter 0⟩], [v]) := by
      rw [keys_deletionBy]
      simp only [deletionBy, List.map_cons, List.map_nil, slotsOf, slotOf]
      rw [if_neg (by simpa using hnull)]
      rfl
    rw [Command.delete_eq_ok (Except.mapError_eq_ok.1 h), hslots]
    exact ⟨_, c, v, rfl, rfl, rfl, rfl, hprimary, hcommitted⟩

/-- The deletions for lists are made one by one. -/
theorem outcome_listDeletions (m : TypeMapping) (d : Dialect)
    (keys : List (ColumnMapping × Value)) (lists : List ListMapping) :
    (listDeletions m d keys lists).1 = lists.mapM fun l =>
      (listDeletion m d keys l).map fun built => ⟨l.name, built.statement⟩ := by
  induction lists with
  | nil => rfl
  | cons l rest ih =>
    rw [List.mapM_cons, ← ih, listDeletions]
    cases listDeletion m d keys l with
    | error cause => rfl
    | ok built => rcases listDeletions m d keys rest with ⟨cause | others, log⟩ <;> rfl

/-- The deletions for lists are each one of the referring rows. -/
theorem listDeletions_deletes {keys : List (ColumnMapping × Value)}
    (hkeys : i.storedKeys m = .ok keys) {lists : List ListMapping} {deletions : List ListDeletion}
    (h : (listDeletions m d keys lists).1 = .ok deletions) :
    List.Forall₂ (fun l x => i.DeletesReferring m l d x.statement) lists deletions := by
  rw [outcome_listDeletions] at h
  refine (forall₂_of_mapM h).imp fun l x hx => ?_
  obtain ⟨built, hbuilt, rfl⟩ := Except.map_eq_ok.1 hx
  exact listDeletion_deletes hkeys hbuilt

/-- The deletions that remove an instance are those of the rows that refer to the committed key,
and that of the stored row. -/
theorem removal_deletes {removal : Removal} (h : (i.removal m d).1 = .ok removal) :
    List.Forall₂ (fun l x => i.DeletesReferring m l d x.statement) (cascadingLists m)
        removal.cascades
      ∧ i.Deletes m d removal.own := by
  unfold Instance.removal at h
  cases hkeys : i.storedKeys m with
  | error cause =>
    rw [hkeys] at h
    cases h
  | ok keys =>
    rw [hkeys] at h
    dsimp only at h
    split at h
    · cases h
    · rename_i cascades log hlists
      split at h
      · cases h
      · rename_i built hbuilt
        cases h
        exact ⟨listDeletions_deletes hkeys (congrArg Prod.fst hlists),
          deletion_deletes hkeys hbuilt⟩

end Instance

/-! ### Reloads -/

section

variable {d : Dialect} {mappings : Mappings} {m : TypeMapping}

/-- A comparison of a column of the row with a value compiles to the column and a placeholder. -/
theorem Compiles.keyFilter {env : Environment} {s s' : Scope} {ts : Tokens}
    {entity : EntityType} {c : ColumnMapping} {v : Value}
    (hqualified : env.context.qualified = true)
    (wf : s.WellFormed) (hmapping : env.mappings entity = .ok m)
    (hcolumn : ∃ member, m.member? c.name = some member ∧ member.column? = some c)
    (hv : v.isNull = false)
    (h : Compiles env none (Query.keyFilter entity c.name v) s ts s') :
    ts = [.identifier s.tableAlias c.column, .word " = ", .parameter s.parameters.length]
      ∧ ∃ bindings, s' = { s with bindings, parameters := s.parameters ++ [v] } := by
  have hbind (name a : String) :
      s.bind name a = { s with bindings := (s.bind name a).bindings } := by
    unfold Scope.bind
    split <;> rfl
  cases h with
  | lambda inner =>
    have wf' := (Scope.Step.bind s "x").wellFormed wf
    rw [hbind] at inner wf'
    generalize (s.bind "x" s.tableAlias).bindings = bindings at inner wf'
    cases inner with
    | nullTest tested _ =>
      -- neither side is the constant NULL
      simp [Expr.nullTested?, Expr.isNullConstant, hv] at tested
    | binary _ first second =>
      cases first with
      | condition admitted _ =>
        -- a comparison admits no condition below it
        simp [Environment.isCondition, Rule.accepts, admitsCondition, Expr.unwrapConvert,
          BinaryOp.isLogical] at admitted
      | member _ resolved =>
        obtain ⟨path, rowAlias, hpath, hrow, hwalk⟩ := resolved
        cases hpath
        have halias := wf'.rowAlias hrow
        cases hwalk with
        | column hm hfound hc =>
          obtain ⟨member, hmember, hcolumn⟩ := hcolumn
          rw [hmapping] at hm
          cases hm
          rw [hmember] at hfound
          cases hfound
          rw [hcolumn] at hc
          cases hc
          cases second with
          | null absent =>
            rw [hv] at absent
            cases absent
          | value _ =>
            refine ⟨?_, bindings, rfl⟩
            rw [halias]
            simp [Environment.column, hqualified, Expr.bindsBelow, Expr.bindsUpTo,
              Expr.precedence?, Tokens.parenthesizedIf, BinaryOp.text]
        | join _ _ more _ _ _ => exact absurd rfl more

/-- The filter of a column grows by the comparison, and the parameters by the value. -/
theorem addFilter_keyFilter {s s' : Selection} (hd : d.rules = RuleEntry.standard)
    (wf : s.scope.WellFormed) {entity : EntityType} (hmapping : mappings entity = .ok m)
    {c : ColumnMapping}
    (hcolumn : ∃ member, m.member? c.name = some member ∧ member.column? = some c) {v : Value}
    (hv : v.isNull = false)
    (h : s.addFilter d mappings (Query.keyFilter entity c.name v) = .ok s') :
    s'.scope.WellFormed ∧ ∃ bindings, s' = { s with
      scope := { s.scope with bindings, parameters := s.scope.parameters ++ [v] }
      filters := s.filters ++ [[.identifier s.scope.tableAlias c.column, .word " = ",
        .parameter s.scope.parameters.length]] } := by
  obtain ⟨ts, scope, rfl, hderivation⟩ := Selection.addFilter_eq_ok hd h
  obtain ⟨rfl, bindings, rfl⟩ :=
    Compiles.keyFilter (m := m) rfl wf hmapping hcolumn hv hderivation
  exact ⟨Scope.Steps.wellFormed hderivation.steps wf, bindings, rfl⟩

/-- The filters of the committed key, one for each of its columns. -/
theorem filters_of_keys (i : Instance) (hd : d.rules = RuleEntry.standard) {entity : EntityType}
    (hmapping : mappings entity = .ok m) {columns : List ColumnMapping}
    (hcolumns : ∀ c ∈ columns, ∃ member, m.member? c.name = some member ∧ member.column? = some c)
    {keys : List (ColumnMapping × Value)}
    (hkeys : List.Forall₂ (fun c key => key.1 = c ∧ i.committed? c = some key.2
      ∧ key.2.isNull = false) columns keys)
    {s s' : Selection} (wf : s.scope.WellFormed)
    (h : (keys.map fun key => Query.keyFilter entity key.1.name key.2).foldlM
      (fun s e => s.addFilter d mappings e) s = .ok s') :
    ∃ bindings more filters, s' = { s with
        scope := { s.scope with bindings, parameters := s.scope.parameters ++ more }
        filters := s.filters ++ filters }
      ∧ List.Forall₂ (fun c filter => ∃ index v, i.committed? c = some v
          ∧ (s.scope.parameters ++ more)[index]? = some v
          ∧ filter = [.identifier s.scope.tableAlias c.column, .word " = ", .parameter index])
        columns filters := by
  induction hkeys generalizing s with
  | nil =>
    cases h
    exact ⟨s'.scope.bindings, [], [], by simp, .nil⟩
  | @cons c key columns keys hkey _ ih =>
    obtain ⟨rfl, hcommitted, hv⟩ := hkey
    rw [List.map_cons, List.foldlM_cons] at h
    obtain ⟨next, hfirst, h⟩ := Except.bind_eq_ok.1 h
    obtain ⟨wf', bound, rfl⟩ := addFilter_keyFilter hd wf hmapping
      (hcolumns key.1 List.mem_cons_self) hv hfirst
    obtain ⟨bindings, more, filters, rfl, hfilters⟩ :=
      ih (fun c hc => hcolumns c (List.mem_cons_of_mem _ hc)) wf' h
    -- the value went behind the parameters so far, so its index is their number
    refine ⟨bindings, key.2 :: more,
      [.identifier s.scope.tableAlias key.1.column, .word " = ",
        .parameter s.scope.parameters.length] :: filters, ?_, .cons ?_ ?_⟩
    · simp only [List.append_assoc, List.singleton_append]
    · exact ⟨s.scope.parameters.length, key.2, hcommitted, by simp, rfl⟩
    · simpa using hfilters

/-- Columns that are added go behind the others. -/
theorem Selection.foldl_addColumn (cs : List ColumnMapping) (s : Selection) :
    cs.foldl (fun s c => s.addColumn c.column) s
      = { s with columns := s.columns ++ cs.map (·.column) } := by
  induction cs generalizing s with
  | nil => simp
  | cons c cs ih =>
    rw [List.foldl_cons, ih]
    simp [Selection.addColumn]

/-- A query by keys begins with all columns of the table. -/
theorem blankSelection_byKeys (entity : EntityType) (keys : List (ColumnMapping × Value)) :
    (Query.byKeys entity keys).blankSelection m
      = { Selection.ofMapping m with columns := m.columns.map (·.column) } := by
  simp [Query.blankSelection, Query.columns, Query.byKeys, Selection.foldl_addColumn,
    Selection.ofMapping]

/-- A statement that is built for the stored keys selects the row of the committed key. -/
theorem statement_selects {i : Instance} (hd : d.rules = RuleEntry.standard) {entity : EntityType}
    (hmapping : mappings entity = .ok m) (hnames : (m.members.map (·.name)).Nodup)
    {keys : List (ColumnMapping × Value)} (hkeys : i.storedKeys m = .ok keys) {built : Built}
    (h : (Query.byKeys entity keys).statement m d mappings = .ok built) :
    i.Selects m d built.statement := by
  have hprimary : ∀ c ∈ m.primaryKeys,
      ∃ member, m.member? c.name = some member ∧ member.column? = some c := fun c hc =>
    TypeMapping.member?_of_mem_columns hnames (List.mem_filter.1 hc).1
  unfold Query.statement at h
  split at h
  · cases h
  split at h
  · cases h
  rename_i selected hselected
  unfold Query.selection at hselected
  rw [blankSelection_byKeys] at hselected
  obtain ⟨s, hfiltered, hselected⟩ := Except.bind_eq_ok.1 hselected
  obtain ⟨bindings, more, filters, rfl, hfilters⟩ := filters_of_keys i hd hmapping hprimary
    (Instance.storedKeys_eq_ok hkeys) (Scope.wellFormed_ofMapping m) hfiltered
  -- such a query has no orders
  cases hselected
  rw [Selection.build_eq_ok (Except.mapError_eq_ok.1 h)]
  exact ⟨_, rfl, rfl, rfl, rfl, rfl, rfl, isAlias_root, hfilters⟩

end

/-! ## What is sent -/

namespace Collection

/-- Telling a failure leaves the session alone. -/
theorem session_reported {α : Type} (w : Written α) : w.reported.session = w.session := by
  unfold Written.reported
  split <;> rfl

/-- An instance takes over a row without the session. -/
theorem session_taking (fetch : Work (Option Fetched)) (commit : Bool) (i : Instance)
    (s : Session) :
    (taking fetch commit i s).session = (fetch s).session := by
  unfold taking
  split
  · rename_i hfetch
    rw [hfetch]
  · rename_i hfetch
    rw [hfetch]
  · rename_i hfetch
    rw [hfetch]

/-- Taking over a row sends what fetching it sends. -/
theorem sent_taking {P : Statement → Prop} {fetch : Work (Option Fetched)} {commit : Bool}
    {i : Instance} {s : Session} (h : fetch.Sends P s) :
    s.pool.network.Sent P (taking fetch commit i s).reported.session.pool.network := by
  rw [session_reported, session_taking]
  exact h

section

variable {c : Collection} {i : Instance} {s : Session} {m : TypeMapping}

/-- An update sends what is about the stored row only. -/
theorem sends_updateRow (hm : s.registry.lookup s.model.schema c.entity = .ok m) :
    (c.updateRow i).Sends (i.Updates m s.dialect) s := by
  refine .bind (.mapping _) fun m' s' log hmapping => ?_
  obtain ⟨hlookup, rfl⟩ := Work.mapping_eq_ok hmapping
  obtain rfl : m' = m := Except.ok.inj (hlookup.symm.trans hm)
  refine .bindAsk ?_
  dsimp only
  cases hbuilt : i.modification m' s.dialect with
  | error e => exact .fail e
  | ok modification =>
    cases modification with
    -- nothing is sent if nothing was changed
    | none => exact .told _ _
    | some built =>
      refine .bindBuilt fun x hx => ?_
      cases hx
      have hupdates := Instance.modification_updates hbuilt
      refine .bind (.readBack c.url hupdates) fun row s' log _ => ?_
      cases row with
      | some row => exact .pure _
      | none => exact .fail _

/-- A reload sends what is about the stored row only. -/
theorem sends_readRow (hr : Registry.Reached s.model.schema s.registry)
    (hd : s.dialect.rules = RuleEntry.standard)
    (hm : s.registry.lookup s.model.schema c.entity = .ok m) :
    (c.readRow i).Sends (i.Selects m s.dialect) s := by
  refine .bind (.mapping _) fun m' s' log hmapping => ?_
  obtain ⟨hlookup, rfl⟩ := Work.mapping_eq_ok hmapping
  obtain rfl : m' = m := Except.ok.inj (hlookup.symm.trans hm)
  cases hkeys : i.storedKeys m' with
  | error cause => exact .fail _
  | ok keys =>
    dsimp only
    refine .bindAsk (.bindBuilt fun x hx => ?_)
    -- the registry answers as it did before, by a resolution
    obtain ⟨hanswer, hnames⟩ := hr.sound.answers hlookup
    have hselects := statement_selects hd hanswer hnames hkeys hx
    exact .bind (.readBack c.url hselects) fun row s' log _ => .pure _

theorem sends_deleteLists {P : Statement → Prop} (lease : Lease)
    {deletions : List Instance.ListDeletion} (h : ∀ x ∈ deletions, P x.statement) :
    (deleteLists lease deletions).Sends P s := by
  induction deletions generalizing s with
  | nil => exact .pure ()
  | cons x rest ih =>
    refine .bind (.execute lease (h x List.mem_cons_self)) fun affected s' log _ => ?_
    exact .bindTold fun _ _ => ih fun y hy => h y (List.mem_cons_of_mem _ hy)

/-- A deletion sends what is about the stored row and those that refer to it. -/
theorem sends_delete (hm : s.registry.lookup s.model.schema c.entity = .ok m) :
    (c.delete i).Sends (fun st => i.Deletes m s.dialect st
      ∨ ∃ l ∈ m.lists, i.DeletesReferring m l s.dialect st) s := by
  refine .reporting (.bind (.mapping _) fun m' s' log hmapping => ?_)
  obtain ⟨hlookup, rfl⟩ := Work.mapping_eq_ok hmapping
  obtain rfl : m' = m := Except.ok.inj (hlookup.symm.trans hm)
  refine .bindAsk (.bindTold fun removal hremoval => .leased fun lease pool => ?_)
  obtain ⟨hcascades, hown⟩ := Instance.removal_deletes hremoval
  -- the referring rows go first
  refine .bind (sends_deleteLists lease fun x hx => .inr ?_) fun _ s' log _ =>
    .execute lease (.inl hown)
  obtain ⟨l, hl, hdeletes⟩ := exists_of_forall₂ hcascades hx
  exact ⟨l, (List.mem_filter.1 hl).1, hdeletes⟩

/-- Updating, deleting and reloading an instance sends statements on the row of its committed key
only, whatever the servers answer. An update always has a WHERE clause, and so does the deletion
of the rows that refer to the instance; the deletion and the selection of the row itself have one
exactly if the type has a key. -/
theorem stored_row_only (c : Collection) (i : Instance) {s : Session} {m : TypeMapping}
    (hr : Registry.Reached s.model.schema s.registry) (hd : s.dialect ∈ Dialect.shipped)
    (hm : s.registry.lookup s.model.schema c.entity = .ok m) :
    s.pool.network.Sent (fun st => i.Updates m s.dialect st ∧ st.HasWhere s.dialect)
        (c.update i s).session.pool.network
      ∧ s.pool.network.Sent (fun st =>
          (i.Deletes m s.dialect st ∧ (st.HasWhere s.dialect ↔ m.primaryKeys ≠ []))
            ∨ ∃ l ∈ m.lists, i.DeletesReferring m l s.dialect st ∧ st.HasWhere s.dialect)
        (c.delete i s).session.pool.network
      ∧ s.pool.network.Sent (fun st =>
          i.Selects m s.dialect st ∧ (st.HasWhere s.dialect ↔ m.primaryKeys ≠ []))
        (c.reload i s).session.pool.network := by
  refine ⟨?_, ?_, ?_⟩
  · exact (sent_taking (sends_updateRow hm)).mono fun st hst => ⟨hst, hst.hasWhere hd⟩
  · refine Network.Sent.mono (sends_delete hm) fun st hst => ?_
    rcases hst with hst | ⟨l, hl, hst⟩
    · exact .inl ⟨hst, hst.hasWhere_iff hd⟩
    · exact .inr ⟨l, hl, hst, hst.hasWhere hd⟩
  · have hread := sends_readRow hr (Dialect.rules_of_shipped hd) hm (i := i)
    exact (sent_taking hread).mono fun st hst => ⟨hst, hst.hasWhere_iff hd⟩

end

end Collection

namespace Company

/-- A session on a server that answers nothing. -/
def session (model : Model) : Session where
  model
  registry := {}
  dialect := .generic
  supply := { random := fun _ => 0 }
  pool := { manager := { config := {} }, network := { servers := [{ name := "srv" }] } }

/-- The rows of a type on that server. -/
def rows (entity : EntityType) : Collection where
  entity
  url := ⟨{ scheme := "mock", hasAuthority := true, host := some (.name "srv"), path := "/db" }⟩

/-- What ran on that server. -/
def ran (s : Session) : List Statement :=
  ((s.pool.network.find? "srv").map (·.statements)).getD []

/-- A stored department that was given another key. -/
def renumbered : Instance :=
  let number (n : Int64) (i : Instance) :=
    ((i.setValues [("id", .of (.int64 n))]).toOption).getD i
  number 4 ((number 3 (model.newInstance department)).commitAll (schema.declaration department)).1

/-- A line of a log, which has no key. -/
def line : EntityType := ⟨"Line"⟩

/-- A model of lines only. -/
def lines : Model :=
  ⟨⟨[(line, { table := "logs", members := [field "message" .varchar] })]⟩,
    [(line, [("message", .required .varchar)])]⟩

end Company

theorem stored_row_only_renumbered :
    let s := Company.session Company.model
    let m := Company.mapping Company.department
    let deleted := ((Company.rows Company.department).delete Company.renumbered s).session
    s.pool.network.Sent (fun st => (Company.renumbered.Deletes m s.dialect st
          ∧ (st.HasWhere s.dialect ↔ m.primaryKeys ≠ []))
        ∨ ∃ l ∈ m.lists, Company.renumbered.DeletesReferring m l s.dialect st
          ∧ st.HasWhere s.dialect) deleted.pool.network
      ∧ Company.ran deleted
        = [⟨"DELETE FROM \"employees\" WHERE \"department_id\" = @p0;", [.of (.int64 3)]⟩,
          ⟨"DELETE FROM \"departments\" WHERE \"id\" = @p0;", [.of (.int64 3)]⟩] := by
  have hm : (Registry.lookup {} Company.schema Company.department).toOption
      = some (Company.mapping Company.department) := by
    decide +kernel
  obtain ⟨-, hdelete, -⟩ := Collection.stored_row_only (s := Company.session Company.model)
    (Company.rows Company.department) Company.renumbered .new (by decide)
    (Except.eq_ok_of_toOption hm)
  exact ⟨hdelete, by decide +kernel⟩

/-- The deletion of a row without a key deletes all rows, and reloading one reads all. -/
theorem keyless_rows_are_all_rows :
    let s := Company.session Company.lines
    let i := Company.lines.newInstance Company.line
    let deleted := ((Company.rows Company.line).delete i s).session
    let reloaded := ((Company.rows Company.line).reload i s).session
    (s.registry.lookup s.model.schema Company.line).toOption.isSome = true
      ∧ Company.ran deleted = [⟨"DELETE FROM \"logs\";", []⟩]
      ∧ Company.ran reloaded = [⟨"SELECT t0.\"message\"\nFROM \"logs\" t0;", []⟩]
      ∧ ∀ st ∈ Company.ran deleted ++ Company.ran reloaded, ¬st.HasWhere s.dialect := by
  intro s i deleted reloaded
  have hdeleted : Company.ran deleted = [⟨"DELETE FROM \"logs\";", []⟩] := by decide +kernel
  have hreloaded : Company.ran reloaded
      = [⟨"SELECT t0.\"message\"\nFROM \"logs\" t0;", []⟩] := by
    decide +kernel
  refine ⟨by decide +kernel, hdeleted, hreloaded, ?_⟩
  rw [hdeleted, hreloaded]
  unfold Statement.HasWhere
  decide +kernel

end RowMapper
