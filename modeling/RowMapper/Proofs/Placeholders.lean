import RowMapper.Proofs.Slots
import RowMapper.Sample.Company

/-!
# Placeholders of statements

A statement has as many parameters as its text has placeholders: the positions that are read in
the text are exactly those of the list. The builders hand out a position whenever they add a
parameter, and the same position may be written again where the row is read back.

* `placeholders_update` and `placeholders_delete` are about commands whose slots are `Numbered`.
* `Command.InsertDraft.Sound` and `Selection.Sound` are the invariants of the builders that go on
  step by step; each step keeps them.
* `placeholders_match_parameters` puts the four builders and the compiler together.
-/

namespace RowMapper

/-- The placeholders in the text of a statement outside quoted names, in order. -/
def Statement.placeholders (s : Statement) (d : Dialect) : List Nat :=
  RowMapper.placeholders (d.lexemes s.sql)

/-! ## Deletions and updates -/

namespace Command

variable {d : Dialect} {c : Command} {built : Built}

/-- A deletion has one placeholder for each parameter, in order. -/
theorem placeholders_delete (hd : d ∈ Dialect.shipped) (h : c.delete d = .ok built) :
    built.statement.placeholders d = List.range built.statement.parameters.length := by
  have hkey : Numbered d [] (slotsOf [] c.keys).1 (slotsOf [] c.keys).2 := .slotsOf _
  have hbatch := placeholders_batch (Dialect.quoting_mem_usual hd)
    (DeleteParts.legible_lines hd (x := ⟨c.table, (slotsOf [] c.keys).1⟩) hkey.legible)
  rw [List.flatMap_singleton, DeleteParts.parameters_line, hkey.parameters] at hbatch
  rw [delete_eq_ok h]
  exact hbatch

/-- An update has placeholders for its parameters and for nothing else; those of the key stand
twice. -/
theorem placeholders_update (hd : d ∈ Dialect.shipped) (h : c.update d = .ok built) (i : Nat) :
    i ∈ built.statement.placeholders d ↔ i < built.statement.parameters.length := by
  have hquoting := Dialect.quoting_mem_usual hd
  have hassigned : Numbered d [] (slotsOf [] c.assigned).1 (slotsOf [] c.assigned).2 := .slotsOf _
  have hkey : Numbered d (slotsOf [] c.assigned).2 (slotsOf (slotsOf [] c.assigned).2 c.keys).1
    (slotsOf (slotsOf [] c.assigned).2 c.keys).2 := .slotsOf _
  have hall := (hassigned.append hkey).parameters
  -- the key is numbered behind what is assigned
  rw [(update_eq_ok h).2]
  generalize slotsOf (slotsOf [] c.assigned).2 c.keys = keyed at hkey hall ⊢
  generalize slotsOf [] c.assigned = assigned at hassigned hall ⊢
  have hbatch := placeholders_batch hquoting
    (UpdateParts.legible_lines hquoting (u := ⟨c.table, assigned.1, keyed.1,
      ⟨c.table, c.fields.map (·.name), keyed.1⟩⟩) hassigned.legible hkey.legible rfl)
  rw [slotParameters_append] at hall
  rw [Statement.placeholders, hbatch, UpdateParts.mem_parameters_lines rfl, hall, List.mem_range]

end Command

/-! ## Inserts -/

namespace Command.InsertDraft

/-- The invariant of an insert as far as it is known: the values use all positions, the key some
of them, and what makes keys has no placeholders. -/
structure Sound (d : Dialect) (draft : InsertDraft) : Prop where
  values : Numbered d [] draft.values draft.parameters
  key : ∀ c ∈ draft.key, c.slot.Legible d
  known : ∀ i ∈ slotParameters draft.key, i < draft.parameters.length
  snippets : ∀ t ∈ draft.before ++ draft.after, Legible d [.word t]

variable {d : Dialect} {draft draft' : InsertDraft}

theorem Sound.new (supply : KeySupply) : Sound d { supply } :=
  ⟨.nil, fun _ h => absurd h List.not_mem_nil, fun _ h => absurd h List.not_mem_nil,
    fun _ h => absurd h List.not_mem_nil⟩

/-- A value is drafted with the next placeholder, or written as NULL. -/
theorem Sound.insertValue (h : Sound d draft) (column : String) (v : Value) :
    Sound d (draft.insertValue column v) := by
  have hslot : Numbered d draft.parameters [⟨column, (slotOf draft.parameters v).1⟩]
    (slotOf draft.parameters v).2 := .slotOf column v
  have hvalues := h.values.append hslot
  -- positions that were known stay known as the parameters grow
  refine ⟨hvalues, h.key, fun i hi => ?_, h.snippets⟩
  have hlength : i ∈ List.range (slotOf draft.parameters v).2.length := by
    rw [← hslot.positions]
    exact List.mem_append_left _ (List.mem_range.2 (h.known i hi))
  exact List.mem_range.1 hlength

/-- A key that is given is drafted with one placeholder, in the row and in its condition. -/
theorem Sound.insertKey (h : Sound d draft) (column : String) (v : Value) :
    Sound d (draft.insertKey column v) := by
  have hslot : Numbered d draft.parameters [⟨column, (slotOf draft.parameters v).1⟩]
    (slotOf draft.parameters v).2 := .slotOf column v
  have hvalue := h.insertValue column v
  refine ⟨hvalue.values, fun c hc => ?_, fun i hi => ?_, h.snippets⟩
  · rcases List.mem_append.1 hc with hc | hc
    · exact h.key c hc
    · exact hslot.legible c hc
  · rw [InsertDraft.insertKey, slotParameters_append, List.mem_append] at hi
    rcases hi with hi | hi
    · exact hvalue.known i hi
    · have hlength : i ∈ List.range (slotOf draft.parameters v).2.length := by
        rw [← hslot.positions]
        exact List.mem_append_right _ hi
      exact List.mem_range.1 hlength

/-- A key that the server makes is made by filled templates of its strategy. -/
theorem forall_mem_snippets_serverKey {P : String → Prop} {table column : String}
    {strategy : KeyStrategy} (h : ∀ t ∈ draft.before ++ draft.after, P t)
    (hfilled : ∀ t ∈ strategy.templates, P (d.keyTemplate t draft.variableCount column table)) :
    ∀ t ∈ (draft.serverKey d table column strategy).before
      ++ (draft.serverKey d table column strategy).after, P t := by
  intro t ht
  simp only [InsertDraft.serverKey, List.mem_append, Option.mem_toList, Option.map_eq_some_iff]
    at ht
  rcases ht with (ht | ⟨template, htemplate, rfl⟩) | ht | ⟨template, htemplate, rfl⟩
  · exact h t (List.mem_append_left _ ht)
  · exact hfilled template (by simp [KeyStrategy.templates, htemplate])
  · exact h t (List.mem_append_right _ ht)
  · exact hfilled template (by simp [KeyStrategy.templates, htemplate])

/-- A key that the server makes uses no position. -/
theorem Sound.serverKey (hd : d ∈ Dialect.shipped) (h : Sound d draft) (table column : String)
    {strategy : KeyStrategy} (hs : strategy ∈ d.strategies.entries)
    (hserver : strategy.generator = none) :
    Sound d (draft.serverKey d table column strategy) := by
  have hfilled : ∀ t ∈ strategy.templates,
      Legible d [.word (d.keyTemplate t draft.variableCount column table)] := fun t ht =>
    legible_keyTemplate hd hs hserver ht draft.variableCount column table
  have hreference : ∀ c ∈ [(⟨column, .sql (d.keyTemplate strategy.reference draft.variableCount
      column table)⟩ : ColumnSlot)], c.slot.Legible d := by
    intro c hc
    rw [List.mem_singleton.1 hc]
    exact hfilled _ (by simp [KeyStrategy.templates])
  refine ⟨?_, ?_, ?_, forall_mem_snippets_serverKey h.snippets hfilled⟩
  · refine h.values.append ?_
    split
    · exact ⟨hreference, List.append_nil _⟩
    · exact .nil
  · intro c hc
    rcases List.mem_append.1 hc with hc | hc
    · exact h.key c hc
    · exact hreference c hc
  · intro i hi
    refine h.known i ?_
    rw [InsertDraft.serverKey, slotParameters_append] at hi
    simpa [slotParameters, Slot.parameters] using hi

/-- The strategy of the contribution is one of the dialect. -/
def Given (d : Dialect) (field : Contribution) : Prop :=
  ∀ strategy, field.strategy = some strategy → strategy ∈ d.strategies.entries

/-- A contribution is drafted with placeholders of its own. -/
theorem Sound.add (hd : d ∈ Dialect.shipped) (h : Sound d draft) {table : String}
    {field : Contribution} (hfield : Given d field)
    (hadd : draft.add d table field = .ok draft') : Sound d draft' := by
  unfold InsertDraft.add at hadd
  split at hadd
  · cases hadd
    exact h
  · -- a key: given, generated, or made by the server
    rename_i v _
    unfold addKey at hadd
    split at hadd
    · split at hadd
      · cases hadd
      · cases hadd
        exact h.insertKey _ _
    · rename_i strategy hstrategy
      split at hadd
      · cases hadd
        exact h.insertKey _ _
      · split at hadd
        · rename_i generator _
          cases hadd
          have hsupply : Sound d { draft with supply := (draft.supply.generate generator).2 } :=
            ⟨h.values, h.key, h.known, h.snippets⟩
          exact hsupply.insertKey _ _
        · rename_i hserver
          cases hadd
          exact h.serverKey hd table field.name (hfield strategy hstrategy) hserver
  · cases hadd
    exact h.insertValue _ _
  · cases hadd
    exact h.insertValue _ _
  · cases hadd
    exact h
  · cases hadd
    exact h

/-- So are all contributions of a row. -/
theorem Sound.addAll (hd : d ∈ Dialect.shipped) (h : Sound d draft) {table : String}
    {fields : List Contribution} (hfields : ∀ f ∈ fields, Given d f)
    (hadd : (draft.addAll d table fields).1 = .ok draft') : Sound d draft' := by
  induction fields generalizing draft with
  | nil =>
    cases hadd
    exact h
  | cons field rest ih =>
    rw [InsertDraft.addAll] at hadd
    cases hfield : draft.add d table field with
    | error cause =>
      rw [hfield] at hadd
      cases hadd
    | ok next =>
      rw [hfield] at hadd
      exact ih (h.add hd (hfields field List.mem_cons_self) hfield)
        (fun f hf => hfields f (List.mem_cons_of_mem _ hf)) hadd

end Command.InsertDraft

/-- An insert has placeholders for its parameters and for nothing else. -/
theorem Command.placeholders_insert {d : Dialect} (hd : d ∈ Dialect.shipped) {c : Command}
    (hfields : ∀ f ∈ c.fields, InsertDraft.Given d f) {supply : KeySupply} {built : Built}
    (h : (c.insert d supply).1 = .ok built) (i : Nat) :
    i ∈ built.statement.placeholders d ↔ i < built.statement.parameters.length := by
  unfold insert at h
  split at h
  · cases h
  obtain ⟨draft, hdraft, h⟩ := Except.bind_eq_ok.1 h
  have hsound := (InsertDraft.Sound.new supply).addAll hd hfields hdraft
  split at h
  · cases h
  cases h
  have hlines := InsertParts.legible_lines hd (p := ⟨c.table, draft.before, draft.values,
    draft.after, ⟨c.table, c.fields.map (·.name), draft.key⟩⟩)
    hsound.snippets hsound.values.legible hsound.key
  have hbatch := placeholders_batch (Dialect.quoting_mem_usual hd) hlines
  show i ∈ RowMapper.placeholders (d.lexemes (d.batch _)) ↔ i < draft.parameters.length
  rw [hbatch, InsertParts.parameters_lines, hsound.values.parameters, List.mem_append,
    List.mem_range]
  -- the row is read back by positions that were inserted, so the key adds none
  exact ⟨fun hi => hi.elim id (hsound.known i), .inl⟩

/-! ## Selections -/

namespace Selection

/-- The positions that the filters and the orderings use. -/
def positions (s : Selection) : List Nat :=
  s.filters.flatMap Tokens.parameters ++ s.orders.flatMap fun o => Tokens.parameters o.1

/-- The invariant of a selection: its clauses use each position once. -/
structure Sound (d : Dialect) (s : Selection) : Prop where
  scope : s.scope.WellFormed
  filters : ∀ p ∈ s.filters, Legible d p
  orders : ∀ o ∈ s.orders, Legible d o.1
  positions : s.positions.Perm (List.range s.scope.parameters.length)

variable {d : Dialect} {s s' : Selection} {mappings : Mappings}

theorem Sound.ofMapping (m : TypeMapping) : Sound d (.ofMapping m) :=
  ⟨Scope.wellFormed_ofMapping m, fun _ h => absurd h List.not_mem_nil,
    fun _ h => absurd h List.not_mem_nil, .refl []⟩

/-- What is compiled into the scope is legible and uses the positions behind those before. -/
theorem Sound.compiles (hd : d ∈ Dialect.shipped) (h : Sound d s) {clause : Clause} {e : Expr}
    {ts : Tokens} {scope : Scope}
    (hcompiles : Compiles (d.environment mappings ⟨clause, true⟩) none e s.scope ts scope) :
    Legible d ts ∧ scope.WellFormed ∧ List.range scope.parameters.length
      = List.range s.scope.parameters.length ++ Tokens.parameters ts := by
  obtain ⟨hvalues, hpositions⟩ := hcompiles.parameters
  refine ⟨hcompiles.legible (Dialect.quoting_mem_usual hd) h.scope,
    Scope.Steps.wellFormed hcompiles.steps h.scope, ?_⟩
  rw [hvalues, hpositions, List.length_append, List.range_add, List.range'_eq_map_range]

/-- A filter has placeholders for the parameters that it adds. -/
theorem Sound.addFilter (hd : d ∈ Dialect.shipped) (h : Sound d s) {e : Expr}
    (hadd : s.addFilter d mappings e = .ok s') : Sound d s' := by
  obtain ⟨ts, scope, rfl, hcompiles⟩ :=
    Selection.addFilter_eq_ok (Dialect.rules_of_shipped hd) hadd
  obtain ⟨hlegible, wf, hrange⟩ := h.compiles hd hcompiles
  refine ⟨wf, fun p hp => ?_, h.orders, ?_⟩
  · rcases List.mem_append.1 hp with hp | hp
    · exact h.filters p hp
    · exact List.mem_singleton.1 hp ▸ hlegible
  · -- the new positions are the last ones, but stand before those of the orderings
    rw [hrange]
    refine .trans ?_ (h.positions.append_right _)
    simp only [Selection.positions, List.flatMap_append, List.flatMap_singleton,
      List.append_assoc]
    exact List.perm_append_comm.append_left _

/-- So has an order. -/
theorem Sound.addOrder (hd : d ∈ Dialect.shipped) (h : Sound d s) {e : Expr} {order : Order}
    (hadd : s.addOrder d mappings e order = .ok s') : Sound d s' := by
  obtain ⟨ts, scope, rfl, hcompiles⟩ :=
    Selection.addOrder_eq_ok (Dialect.rules_of_shipped hd) hadd
  obtain ⟨hlegible, wf, hrange⟩ := h.compiles hd hcompiles
  refine ⟨wf, h.filters, fun o ho => ?_, ?_⟩
  · rcases List.mem_append.1 ho with ho | ho
    · exact h.orders o ho
    · exact List.mem_singleton.1 ho ▸ hlegible
  · rw [hrange]
    refine .trans ?_ (h.positions.append_right _)
    simp only [Selection.positions, List.flatMap_append, List.flatMap_singleton,
      List.append_assoc]
    exact .refl _

/-- A call that succeeds leaves placeholders for all parameters. -/
theorem Sound.attempt (hd : d ∈ Dialect.shipped) (h : Sound d s) {call : Call}
    (hcall : (s.attempt d mappings call).result = .ok s') : Sound d s' := by
  cases call with
  | setTable table =>
    cases hcall
    exact ⟨⟨h.scope.root, h.scope.joined, h.scope.bound⟩, h.filters, h.orders, h.positions⟩
  | addColumn column =>
    cases hcall
    exact ⟨h.scope, h.filters, h.orders, h.positions⟩
  | setLimit limit =>
    cases hcall
    exact ⟨h.scope, h.filters, h.orders, h.positions⟩
  | addFilter condition => exact h.addFilter hd hcall
  | addOrder e order => exact h.addOrder hd hcall

/-- A call keeps the invariant, also one that fails. -/
theorem Sound.perform (hd : d ∈ Dialect.shipped) (h : Sound d s) (call : Call) :
    Sound d (s.perform d mappings call) := by
  rw [Selection.perform_eq]
  cases hcall : (s.attempt d mappings call).result with
  | error cause => exact h
  | ok next => exact h.attempt hd hcall

/-- Any calls, some of which fail, leave placeholders for all parameters. -/
theorem Sound.performAll (hd : d ∈ Dialect.shipped) (h : Sound d s) (calls : List Call) :
    Sound d (s.performAll d mappings calls) := by
  induction calls generalizing s with
  | nil => exact h
  | cons call rest ih => exact ih (h.perform hd call)

/-- A selection has one placeholder for each parameter; filters stand before orders in the text,
whatever was added first. -/
theorem Sound.placeholders (hd : d ∈ Dialect.shipped) (h : Sound d s) {built : Built}
    (hbuild : s.build d = .ok built) :
    (built.statement.placeholders d).Perm (List.range built.statement.parameters.length) := by
  have hquoting := Dialect.quoting_mem_usual hd
  have hbatch := placeholders_batch hquoting
    (SelectParts.legible_lines hquoting (s := s.parts) h.scope.root h.scope.joined h.filters
      h.orders)
  rw [List.flatMap_singleton, SelectParts.parameters_line] at hbatch
  rw [build_eq_ok hbuild, Statement.placeholders, hbatch]
  exact h.positions

end Selection

/-! ## Expressions -/

/-- A compilation appends to the scope the values of its placeholders, in the order of the
text. -/
theorem placeholders_compileInto {d : Dialect} (hd : d ∈ Dialect.shipped) {mappings : Mappings}
    {context : Context} {s : Scope} (wf : s.WellFormed) {e : Expr} {ts : Tokens}
    (h : (e.compileInto (d.environment mappings context) s).outcome = .ok ts) :
    ∃ values, (e.compileInto (d.environment mappings context) s).scope.parameters
        = s.parameters ++ values
      ∧ placeholders (d.lexemes (d.text ts))
        = List.range' s.parameters.length values.length := by
  have hderivation := Compiles.of_compileInto (Dialect.environment_standard hd mappings _) h
  obtain ⟨hvalues, hpositions⟩ := hderivation.parameters
  refine ⟨e.values (d.environment mappings context) none, hvalues, ?_⟩
  rw [(hderivation.legible (Dialect.quoting_mem_usual hd) wf).placeholders_text, hpositions]

/-! ## All statements -/

/-- In every statement that the builders make in a given dialect the placeholders are the
positions of the parameters. A selection has each of them once, and a compilation appends the
values of its own placeholders from left to right. -/
theorem placeholders_match_parameters {d : Dialect} (hd : d ∈ Dialect.shipped) :
    (∀ (mappings : Mappings) (m : TypeMapping) (calls : List Selection.Call) (built : Built),
        ((Selection.ofMapping m).performAll d mappings calls).build d = .ok built →
        (built.statement.placeholders d).Perm (List.range built.statement.parameters.length))
      ∧ (∀ (c : Command) (supply : KeySupply) (built : Built),
        (∀ f ∈ c.fields, ∀ k, f.strategy = some k → k ∈ d.strategies.entries) →
        (c.insert d supply).1 = .ok built → ∀ i, i ∈ built.statement.placeholders d
          ↔ i < built.statement.parameters.length)
      ∧ (∀ (c : Command) (built : Built), c.update d = .ok built ∨ c.delete d = .ok built →
        ∀ i, i ∈ built.statement.placeholders d ↔ i < built.statement.parameters.length)
      ∧ ∀ (mappings : Mappings) (context : Context) (m : TypeMapping) (s : Scope) (e : Expr)
        (ts : Tokens), Scope.Reached m s →
        (e.compileInto (d.environment mappings context) s).outcome = .ok ts →
        ∃ values, (e.compileInto (d.environment mappings context) s).scope.parameters
            = s.parameters ++ values
          ∧ placeholders (d.lexemes (d.text ts))
            = List.range' s.parameters.length values.length := by
  refine ⟨fun mappings m calls built h => ?_, fun c supply built hfields h i => ?_,
    fun c built h i => ?_, fun mappings context m s e ts hs h => ?_⟩
  · exact ((Selection.Sound.ofMapping m).performAll hd calls).placeholders hd h
  · exact Command.placeholders_insert hd hfields h i
  · rcases h with h | h
    · exact Command.placeholders_update hd h i
    · rw [Command.placeholders_delete hd h, List.mem_range]
  · exact placeholders_compileInto hd hs.wellFormed h

namespace Company

/-- Calls for a selection of employees, one of which fails. -/
def listing : List Selection.Call :=
  let x := Expr.parameter "x" employee
  let value (k : Datum) := Expr.constant (.value (.of k))
  [.addColumn "id",
    .addOrder (.binary .addition (.member x "salary") (value (.int32 3))) .ascending,
    .addFilter (.binary .equal (.member (.member x "manager") "name") (value (.varchar "@p7"))),
    .addFilter (.binary .equal (.member x "name") (.member x "nothing")),
    .addFilter (.contains (.constant (.list [.of (.int64 1), .of (.int64 2)])) (.member x "id"))]

/-- A new document, whose key the server makes. -/
def newDocument : Command :=
  ⟨"docs]@p5", [
    { name := "id"
      value := some (.of (.uuid .nil))
      role := .keyField
      strategy := Dialect.sqlServer.strategies.find? (.of .uuid) },
    { name := "title", value := some (.of (.varchar "@p7")), role := .writeable }]⟩

end Company

/-- A selection whose order was added before its filter, and an insert. -/
theorem placeholders_listing_newDocument :
    let d := Dialect.sqlServer
    let listing := (Selection.ofMapping (Company.mapping Company.employee)).performAll d
      Company.mappings Company.listing
    let inserted := (Company.newDocument.insert d { random := fun _ => 0 }).1
    (∃ built, listing.build d = .ok built
        ∧ built.statement.placeholders d = [1, 2, 3, 0]
        ∧ (built.statement.placeholders d).Perm (List.range built.statement.parameters.length))
      ∧ ∃ built, inserted = .ok built
        ∧ built.statement.sql = "DECLARE @k0 UNIQUEIDENTIFIER = NEWID();\n"
          ++ "INSERT [docs]]@p5] ([id], [title]) VALUES (@k0, @p0);\n"
          ++ "SELECT [id], [title] FROM [docs]]@p5] WHERE [id] = @k0;"
        ∧ ∀ i, i ∈ built.statement.placeholders d ↔ i < built.statement.parameters.length := by
  intro d listing inserted
  obtain ⟨hselect, hinsert, -⟩ := placeholders_match_parameters (d := d) (by decide)
  have hlisting : (listing.build d).toOption.map (·.statement.placeholders d)
      = some [1, 2, 3, 0] := by
    decide +kernel
  have hinserted : inserted.toOption.map (·.statement.sql)
      = some ("DECLARE @k0 UNIQUEIDENTIFIER = NEWID();\n"
        ++ "INSERT [docs]]@p5] ([id], [title]) VALUES (@k0, @p0);\n"
        ++ "SELECT [id], [title] FROM [docs]]@p5] WHERE [id] = @k0;") := by
    decide +kernel
  obtain ⟨listed, hlisted, hpositions⟩ := Option.map_eq_some_iff.1 hlisting
  obtain ⟨written, hwritten, hsql⟩ := Option.map_eq_some_iff.1 hinserted
  have hlisted := Except.eq_ok_of_toOption hlisted
  have hwritten := Except.eq_ok_of_toOption hwritten
  refine ⟨⟨listed, hlisted, hpositions, ?_⟩, written, hwritten, hsql, ?_⟩
  · exact hselect Company.mappings _ Company.listing listed hlisted
  · refine hinsert Company.newDocument _ written ?_ hwritten
    have hstrategies : ∀ f ∈ Company.newDocument.fields, ∀ k ∈ f.strategy,
        k ∈ d.strategies.entries := by
      decide +kernel
    exact hstrategies

end RowMapper
