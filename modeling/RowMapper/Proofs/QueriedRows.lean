import RowMapper.Proofs.Exchange
import RowMapper.Proofs.Legality
import RowMapper.Proofs.LoadedMembers
import RowMapper.Proofs.WrittenCommands

/-!
# Rows that queries return

A query sends one selection, of the key alone for a type that loads on demand and of all columns
otherwise, and makes an instance of each row that comes back. All instances are there only if the
answer has no failure and every row loads; a query for one instance looks at the first row or
failure alone.

* `Dialect.selecting` is the text of a selection, and `Query.selection_parts` what is selected.
* `Instance.Yields` relates a row or a failure of an answer with what becomes of it.
* `Collection.queries_all_or_nothing` is about all queries that compile.
-/

namespace RowMapper

/-! ## Selections -/

/-- The text of a selection: its columns behind the alias of the table, what the rows have to meet,
and the limit where the dialect writes it. -/
def Dialect.selecting (d : Dialect) (p : SelectParts) : String :=
  "SELECT " ++ d.text (p.limit.toList.map fun n => .word (d.leadingLimit n))
    ++ ", ".intercalate (p.columns.map fun c => d.token (.identifier p.tableAlias c))
    ++ "\nFROM " ++ d.text (tableTokens p.table p.tableAlias)
    ++ d.text (p.joins.flatMap (fun j => .word "\n" :: j.tokens) ++ filterTokens p.filters
      ++ orderTokens p.orders)
    ++ d.text (p.limit.toList.map fun n => .word (d.trailingLimit n)) ++ ";"

theorem SelectParts.text_line (d : Dialect) (p : SelectParts) :
    d.text (p.line d) = d.selecting p := by
  have hcolumns : d.text (commaSeparated (p.columns.map fun c => [.identifier p.tableAlias c]))
      = ", ".intercalate (p.columns.map fun c => d.token (.identifier p.tableAlias c)) := by
    rw [text_commaSeparated (by simp)]
    simp
  simp [SelectParts.line, Dialect.selecting, hcolumns, String.append_assoc]

/-- The statement selects these columns of the table, in order, up to the limit. -/
def Statement.Lists (st : Statement) (d : Dialect) (table : String) (columns : List String)
    (limit : Option Nat) : Prop :=
  ∃ p : SelectParts, st.sql = d.selecting p ∧ p.table = table ∧ p.columns = columns
    ∧ p.limit = limit

namespace Query

variable {q : Query} {m : TypeMapping} {d : Dialect} {mappings : Mappings}
  {s s' selection : Selection}

/-- The query asks for the key alone, since the type loads on demand. -/
def ForKeys (q : Query) (m : TypeMapping) : Prop := m.load = .onDemand ∧ q.force = false

/-- The query has to be forced and is not. -/
def Barred (q : Query) (m : TypeMapping) : Prop := m.load = .forceOnly ∧ q.force = false

instance (q : Query) (m : TypeMapping) : Decidable (q.ForKeys m) :=
  inferInstanceAs (Decidable (_ ∧ _))

instance (q : Query) (m : TypeMapping) : Decidable (q.Barred m) :=
  inferInstanceAs (Decidable (_ ∧ _))

/-- The columns of the query are selected, in order, from the table of the type. -/
structure Selects (q : Query) (m : TypeMapping) (s : Selection) : Prop where
  table : s.table = m.table
  columns : s.columns = (q.columns m).map (·.column)

theorem selects_blankSelection (q : Query) (m : TypeMapping) :
    q.Selects m (q.blankSelection m) := by
  unfold blankSelection
  rw [Selection.foldl_addColumn]
  exact ⟨rfl, rfl⟩

/-- Filters and orderings leave the columns and the table alone, and the limit is set last. -/
theorem selection_eq_ok (h : q.selection m d mappings = .ok selection) :
    q.Selects m selection ∧ ∀ limit,
      Query.selection { q with limit } m d mappings = .ok (selection.setLimit limit) := by
  obtain ⟨filtered, hfilters, h⟩ := Except.bind_eq_ok.1 h
  obtain ⟨ordered, horders, h⟩ := Except.bind_eq_ok.1 h
  cases h
  have hfiltered : q.Selects m filtered := by
    refine foldlM_keeps (fun s e s' hs hs' => ?_) (q.selects_blankSelection m) hfilters
    rw [Selection.addFilter_eq] at hs'
    obtain ⟨ts, -, rfl⟩ := Except.map_eq_ok.1 hs'
    exact ⟨hs.table, hs.columns⟩
  have hordered : q.Selects m ordered := by
    refine foldlM_keeps (fun s (e, order) s' hs hs' => ?_) hfiltered horders
    dsimp only at hs'
    rw [Selection.addOrder_eq] at hs'
    obtain ⟨ts, -, rfl⟩ := Except.map_eq_ok.1 hs'
    exact ⟨hs.table, hs.columns⟩
  refine ⟨⟨hordered.table, hordered.columns⟩, fun limit => ?_⟩
  exact Except.bind_eq_ok.2 ⟨filtered, hfilters, Except.bind_eq_ok.2 ⟨ordered, horders, rfl⟩⟩

theorem columns_eq (q : Query) (m : TypeMapping) :
    q.columns m = if q.ForKeys m then m.primaryKeys else m.columns := by
  unfold columns ForKeys
  congr 1
  simp

theorem statement_of_barred (h : q.Barred m) :
    q.statement m d mappings = .error (.collection (.onlyForced m.entity)) := by
  unfold statement
  rw [if_pos (by simpa [Barred] using h)]

/-- A query that compiles has a statement, unless it has to be forced. -/
theorem statement_of_selection (htable : m.table ≠ "") (hkeys : m.primaryKeys ≠ [])
    (hbarred : ¬q.Barred m) (h : q.selection m d mappings = .ok selection) :
    ∃ built, q.statement m d mappings = .ok built ∧ built.statement.Lists d m.table
      ((if q.ForKeys m then m.primaryKeys else m.columns).map (·.column)) selection.limit := by
  obtain ⟨hselects, -⟩ := selection_eq_ok h
  -- the key or all columns are asked for, and neither is empty
  have hcolumns : q.columns m ≠ [] := by
    rw [columns_eq]
    split
    · exact hkeys
    · intro hnone
      rw [TypeMapping.primaryKeys, hnone] at hkeys
      exact hkeys rfl
  have hbuilt : q.statement m d mappings
      = .ok (.of .select (d.batch [selection.parts.line d]) selection.scope.parameters) := by
    unfold statement Selection.build
    rw [if_neg (by simpa [Barred] using hbarred), h]
    dsimp only
    rw [if_neg (by simpa [hselects.table] using htable),
      if_neg (by simpa [hselects.columns] using hcolumns)]
    rfl
  refine ⟨_, hbuilt, selection.parts, ?_, hselects.table, ?_, rfl⟩
  · simp [Built.of, Dialect.batch, SelectParts.text_line]
  · rw [← columns_eq]
    exact hselects.columns

end Query

/-! ## Items of an answer -/

namespace Instance

variable {blank j : Instance} {m : TypeMapping} {row : Row} {e : Error}
  {item : Except String Row}

/-- What becomes of an item: a row of which all values load is taken over by the blank instance,
another row fails with its first value that does not load, and a failure stays one. -/
inductive Yields (blank : Instance) (m : TypeMapping) :
    Except String Row → Except Error Instance → Prop where
  | taken {row : Row} {j : Instance} (loads : ∀ entry ∈ row.entries, blank.Loads m entry)
    (took : blank.TookOver m row j) : Yields blank m (.ok row) (.ok j)
  | refused {row : Row} {e : Error}
    (first : row.entries.findSome? (blank.refusal? m) = some e) :
    Yields blank m (.ok row) (.error e)
  | failed (message : String) : Yields blank m (.error message) (.error (.server message))

/-- The instance that is made of an item. -/
def fromItem (blank : Instance) (m : TypeMapping) (item : Except String Row) :
    Except Error Instance := do
  let row ← item.mapError Error.server
  let loaded := blank.load m row
  loaded.outcome.map fun _ => loaded.target

theorem yields_fromItem (blank : Instance) (m : TypeMapping) (item : Except String Row) :
    blank.Yields m item (blank.fromItem m item) := by
  cases item with
  | error message => exact .failed message
  | ok row =>
    obtain ⟨htakes, hrefuses⟩ := blank.load_cases m row
    show Yields blank m _ ((blank.load m row).outcome.map fun _ => (blank.load m row).target)
    cases hfirst : row.entries.findSome? (blank.refusal? m) with
    | some e =>
      rw [hrefuses e hfirst]
      exact .refused hfirst
    | none =>
      obtain ⟨houtcome, htook⟩ := htakes hfirst
      rw [houtcome]
      exact .taken (fun entry hentry =>
        refusal?_eq_none.1 (List.findSome?_eq_none_iff.1 hfirst entry hentry)) htook

/-- An item makes an instance exactly if it is a row of which all values load. -/
theorem exists_fromItem_iff :
    (∃ j, blank.fromItem m item = .ok j)
      ↔ ∃ row, item = .ok row ∧ ∀ entry ∈ row.entries, blank.Loads m entry := by
  have hyields := blank.yields_fromItem m item
  generalize blank.fromItem m item = outcome at hyields ⊢
  -- an item is taken, or is no row, or has a first value that is refused
  cases hyields with
  | taken loads took => exact ⟨fun _ => ⟨_, rfl, loads⟩, fun _ => ⟨_, rfl⟩⟩
  | failed message =>
    constructor
    · rintro ⟨j, h⟩
      cases h
    · rintro ⟨row, h, -⟩
      cases h
  | refused first =>
    constructor
    · rintro ⟨j, h⟩
      cases h
    · rintro ⟨row, h, hloads⟩
      cases h
      obtain ⟨entry, hentry, hrefused⟩ := List.exists_of_findSome?_eq_some first
      rw [refusal?_eq_none.2 (hloads entry hentry)] at hrefused
      cases hrefused

end Instance

namespace Collection

open Instance (fromItem)

/-- The first item makes an instance, and the others follow; or it is the last one. -/
theorem instances_cons (blank : Instance) (m : TypeMapping) (item : Except String Row)
    (rest : List (Except String Row)) :
    (∀ j, blank.fromItem m item = .ok j →
        (instances blank m (item :: rest)).1 = .ok j :: (instances blank m rest).1)
      ∧ ∀ e, blank.fromItem m item = .error e →
        (instances blank m (item :: rest)).1 = [.error e] := by
  cases item with
  | error message =>
    refine ⟨fun j h => (by cases h), fun e h => ?_⟩
    cases h
    rfl
  | ok row =>
    have hitem : blank.fromItem m (.ok row)
        = (blank.load m row).outcome.map fun _ => (blank.load m row).target := rfl
    rw [hitem, instances]
    dsimp only
    rcases (blank.load m row).outcome with e | ⟨⟩
    · refine ⟨fun j h => (by cases h), fun e h => ?_⟩
      cases h
      rfl
    · refine ⟨fun j h => ?_, fun e h => (by cases h)⟩
      cases h
      rfl

theorem instances_singleton (blank : Instance) (m : TypeMapping) (item : Except String Row) :
    (instances blank m [item]).1 = [blank.fromItem m item] := by
  obtain ⟨hmade, hfailed⟩ := instances_cons blank m item []
  cases hitem : blank.fromItem m item with
  | error e => rw [hfailed e hitem]
  | ok j => rw [hmade j hitem, instances]

/-- The instances of items are made one after the other, up to the first failure. -/
theorem mapM_instances (blank : Instance) (m : TypeMapping) (references : Nat)
    (items : List (Except String Row)) :
    ((instances blank m items).1.map (⟨·, references⟩ : _ → Streamed)).mapM (·.item)
      = items.mapM (blank.fromItem m) := by
  induction items with
  | nil => rfl
  | cons item rest ih =>
    obtain ⟨hmade, hfailed⟩ := instances_cons blank m item rest
    rw [List.mapM_cons, ← ih]
    cases hitem : blank.fromItem m item with
    | error e =>
      rw [hfailed e hitem]
      rfl
    | ok j => rw [hmade j hitem, List.map_cons, List.mapM_cons]

/-! ## Queries -/

variable {c : Collection} {q : Query} {s : Session} {m : TypeMapping}

section

variable (hr : Registry.Reached s.model.schema s.registry)
  (hm : s.registry.lookup s.model.schema c.entity = .ok m)

include hr hm

/-- The statement of a query is built before anything but the registry changes. -/
theorem statement_of_lookup (q : Query) :
    (c.statement q s).outcome = (q.statement m s.dialect s.mappings).map (·.statement)
      ∧ s.Asked (c.statement q s).session := by
  obtain ⟨start, hstart, houtcome, hsession⟩ := Work.bind_mapping hr hm (t := c.statement q) rfl
  rw [Work.bind_ask, hstart.mappings, hstart.kept.2.1] at houtcome hsession
  rw [houtcome, hsession]
  cases q.statement m s.dialect s.mappings <;> exact ⟨rfl, hstart⟩

/-- A query that has no statement fails and leaves the pool alone. -/
theorem query_eq_error {e : Error} (h : q.statement m s.dialect s.mappings = .error e)
    (op : Operation) (hop : c.prepare op = c.prepareQuery q) :
    (c.perform op s).outcome = .error e ∧ (c.perform op s).session.pool = s.pool := by
  refine outcome_of_prepare op ?_
  obtain ⟨houtcome, -⟩ := statement_of_lookup hr hm q
  rw [h] at houtcome
  rw [hop]
  unfold prepareQuery
  rcases hreply : c.statement q s with ⟨outcome, s', log⟩
  rw [hreply] at houtcome
  cases houtcome
  rw [Work.bind_of_error hreply]

/-- The items of a query that has a statement. -/
theorem items_of_opens {built : Built} (h : q.statement m s.dialect s.mappings = .ok built)
    {lease : Lease} {server : Server} (hopens : s.Opens c.url lease server)
    (wanted : List (Except String Row) → List (Except String Row)) :
    (∃ references : Nat, (c.items q wanted s).outcome
        = .ok ((instances (s.model.newInstance c.entity) m (wanted (server.answer 0).rows)).1.map
          (⟨·, references⟩)))
      ∧ s.Sends c.url lease [built.statement] (c.items q wanted s).session := by
  obtain ⟨houtcome, hstart⟩ := statement_of_lookup hr hm q
  rw [h] at houtcome
  rcases hstatement : c.statement q s with ⟨outcome, start, log⟩
  rw [hstatement] at houtcome hstart
  cases houtcome
  obtain ⟨hmodel, -, -⟩ := hstart.kept
  -- the statement was made first, and the registry still answers the same
  have hr' : Registry.Reached start.model.schema start.registry := hmodel ▸ hstart.reached
  have hm' : start.registry.lookup start.model.schema c.entity = .ok m := by
    rw [hmodel, hstart.lookup, hm]
  obtain ⟨next, log', hnext, hmapping⟩ := Work.mapping_of_lookup hr' hm'
  have hmapping : c.mapping start = ⟨.ok m, next, log'⟩ := hmapping
  unfold items
  rw [Work.outcome_bind hstatement, Work.session_bind hstatement, Work.outcome_bind hmapping,
    Work.session_bind hmapping]
  refine And.imp_right (fun h => hstart.sends (hnext.sends h)) (Work.leased_of_opens
    (P := fun outcome => ∃ references : Nat, outcome
      = .ok ((instances (s.model.newInstance c.entity) m (wanted (server.answer 0).rows)).1.map
        (⟨·, references⟩ : _ → Streamed)))
    (hnext.opens (hstart.opens hopens)) fun s' hsame hserver => ?_)
  have hblank : s'.model = s.model := (hsame.trans hnext.kept.1).trans hmodel
  obtain ⟨server', hserver, hanswer⟩ := hserver
  rw [← hanswer 0, ← hblank]
  refine ⟨_, ⟨s'.references c.url, rfl⟩, .bind (.run _ hserver) fun network _ => ?_⟩
  exact .bindAsk (.bindAsk (.told _ _ _))

/-- All instances are made of the items in order, up to the first that fails. -/
theorem fetchAll_of_opens {built : Built} (h : q.statement m s.dialect s.mappings = .ok built)
    {lease : Lease} {server : Server} (hopens : s.Opens c.url lease server) :
    (c.fetchAll q s).outcome
        = (server.answer 0).rows.mapM ((s.model.newInstance c.entity).fromItem m)
      ∧ s.Sends c.url lease [built.statement] (c.fetchAll q s).session := by
  obtain ⟨⟨references, houtcome⟩, hsends⟩ := items_of_opens hr hm h hopens id
  unfold fetchAll
  rw [Work.outcome_reporting, Work.session_reporting]
  rcases hitems : c.items q id s with ⟨outcome, s', log⟩
  rw [hitems] at houtcome hsends
  cases houtcome
  rw [Work.outcome_bind hitems, Work.session_bind hitems]
  exact ⟨mapM_instances _ m references _, hsends⟩

/-- The first instance is made of the first item. -/
theorem fetchOne_of_opens {built : Built}
    (h : Query.statement { q with limit := some 1 } m s.dialect s.mappings = .ok built)
    {lease : Lease} {server : Server} (hopens : s.Opens c.url lease server) :
    ((server.answer 0).rows = [] → (c.fetchOne q s).outcome = .ok none)
      ∧ (∀ item rest, (server.answer 0).rows = item :: rest →
        (c.fetchOne q s).outcome
          = ((s.model.newInstance c.entity).fromItem m item).map some)
      ∧ s.Sends c.url lease [built.statement] (c.fetchOne q s).session := by
  obtain ⟨⟨references, houtcome⟩, hsends⟩ := items_of_opens hr hm h hopens (·.take 1)
  unfold fetchOne
  rw [Work.outcome_reporting, Work.session_reporting]
  rcases hitems : c.items { q with limit := some 1 } (·.take 1) s with ⟨outcome, s', log⟩
  rw [hitems] at houtcome hsends
  cases houtcome
  rw [Work.outcome_bind hitems, Work.session_bind hitems]
  refine ⟨fun hnone => ?_, fun item rest hitem => ?_, ?_⟩
  · rw [hnone]
    rfl
  · rw [hitem, List.take_succ_cons, List.take_zero, instances_singleton]
    rfl
  · generalize (instances (s.model.newInstance c.entity) m ((server.answer 0).rows.take 1)).1.map _
      = streamed
    cases streamed <;> exact hsends

end

/-- A row or failure of an answer without failures is a row of it. -/
theorem rows_loads_iff {blank : Instance} (results : Results) :
    (∀ item ∈ results.rows, ∃ row, item = .ok row ∧ ∀ entry ∈ row.entries, blank.Loads m entry)
      ↔ (∀ message, .failure message ∉ results)
        ∧ ∀ row, .row row ∈ results → ∀ entry ∈ row.entries, blank.Loads m entry := by
  induction results with
  | nil => simp [Results.rows]
  | cons item rest ih =>
    cases item with
    | affected affected => simpa [Results.rows] using ih
    | failure message =>
      constructor
      · intro h
        obtain ⟨row, hrow, -⟩ := h _ List.mem_cons_self
        cases hrow
      · rintro ⟨h, -⟩
        exact absurd List.mem_cons_self (h message)
    | row r =>
      rw [Results.rows, List.forall_mem_cons, ih]
      simp only [List.mem_cons, reduceCtorEq, false_or, Except.ok.injEq, exists_eq_left',
        ResultItem.row.injEq, forall_eq_or_imp]
      exact and_left_comm

/-- Queries whose filters and orderings compile, under any mapping that was accepted for a type with
a key. One that has to be forced and is not fails and sends nothing. Any other sends one selection,
if a connection is there, of the key columns or of all columns. All instances are returned exactly
if the answer has no failure and every row loads: one of each row, in order, which is a blank
instance that took over the row. Otherwise the first item that fails does so for all. The first
instance is asked for by a limit of one, and made of the first item, whatever comes behind it. -/
theorem queries_all_or_nothing (c : Collection) (q : Query) {s : Session} {m : TypeMapping}
    (hr : Registry.Reached s.model.schema s.registry)
    (hm : s.registry.lookup s.model.schema c.entity = .ok m) (hkeys : m.primaryKeys ≠ [])
    {selection : Selection} (hcompiles : q.selection m s.dialect s.mappings = .ok selection) :
    let all := c.fetchAll q s
    let one := c.fetchOne q s
    (q.Barred m →
        (∃ e, all.outcome = .error e ∧ e.kind = .statementState) ∧ all.session.pool = s.pool
          ∧ (∃ e, one.outcome = .error e ∧ e.kind = .statementState) ∧ one.session.pool = s.pool)
      ∧ (¬q.Barred m → ∀ lease server, s.Opens c.url lease server →
        let blank := s.model.newInstance c.entity
        let items := (server.answer 0).rows
        let columns := (if q.ForKeys m then m.primaryKeys else m.columns).map (·.column)
        (∃ st, st.Lists s.dialect m.table columns q.limit ∧ s.Sends c.url lease [st] all.session)
          ∧ ((∃ js, all.outcome = .ok js) ↔ (∀ message, .failure message ∉ server.answer 0)
            ∧ ∀ row, .row row ∈ server.answer 0 → ∀ entry ∈ row.entries, blank.Loads m entry)
          ∧ (∀ js, all.outcome = .ok js →
            List.Forall₂ (fun item j => blank.Yields m item (.ok j)) items js)
          ∧ (∀ e, all.outcome = .error e → ∃ before item after, items = before ++ item :: after
            ∧ (∀ x ∈ before, ∃ j, blank.Yields m x (.ok j)) ∧ blank.Yields m item (.error e))
          ∧ (∃ st, st.Lists s.dialect m.table columns (some 1)
            ∧ s.Sends c.url lease [st] one.session)
          ∧ (items = [] → one.outcome = .ok none)
          ∧ ∀ item rest, items = item :: rest → blank.Yields m item (blank.fromItem m item)
            ∧ one.outcome = (blank.fromItem m item).map some) := by
  intro all one
  obtain ⟨htable, -⟩ := hr.accepted hm
  refine ⟨fun hbarred => ?_, fun hbarred lease server hopens => ?_⟩
  · -- the type is asked about before the limit, so both queries fail alike
    obtain ⟨hall, hallPool⟩ := query_eq_error hr hm (Query.statement_of_barred hbarred)
      (.fetchAll q) rfl
    obtain ⟨hone, honePool⟩ := query_eq_error hr hm (q := { q with limit := some 1 })
      (Query.statement_of_barred hbarred) (.fetchOne q) rfl
    exact ⟨⟨_, Except.map_eq_error.1 hall, rfl⟩, hallPool,
      ⟨_, Except.map_eq_error.1 hone, rfl⟩, honePool⟩
  · intro blank items columns
    obtain ⟨-, hlimit⟩ := Query.selection_eq_ok hcompiles
    obtain ⟨built, hbuilt, hlists⟩ :=
      Query.statement_of_selection htable hkeys hbarred (hlimit q.limit)
    obtain ⟨first, hfirst, hlistsFirst⟩ := Query.statement_of_selection
      (q := { q with limit := some 1 }) htable hkeys hbarred (hlimit (some 1))
    obtain ⟨hall, hsends⟩ := fetchAll_of_opens hr hm hbuilt hopens
    obtain ⟨hnone, hsome, hsendsFirst⟩ := fetchOne_of_opens hr hm hfirst hopens
    refine ⟨⟨_, hlists, hsends⟩, ?_, fun js hjs => ?_, fun e he => ?_,
      ⟨_, hlistsFirst, hsendsFirst⟩, hnone,
      fun item rest hitem => ⟨blank.yields_fromItem m item, hsome item rest hitem⟩⟩
    · rw [← rows_loads_iff, hall, exists_mapM_iff]
      exact forall₂_congr fun item _ => Instance.exists_fromItem_iff
    · refine (forall₂_of_mapM (hall.symm.trans hjs)).imp fun item j hj => ?_
      rw [← hj]
      exact blank.yields_fromItem m item
    · -- all items before the one that fails were made and are lost
      obtain ⟨before, item, after, hitems, hbefore, hfails⟩ :=
        exists_split_of_mapM_eq_error (hall.symm.trans he)
      refine ⟨before, item, after, hitems, fun x hx => ?_, ?_⟩
      · obtain ⟨j, hj⟩ := hbefore x hx
        exact ⟨j, hj ▸ blank.yields_fromItem m x⟩
      · exact hfails ▸ blank.yields_fromItem m item

end Collection

namespace Company

/-- The key of an attachment, and a failure behind it. -/
def interrupted : Results :=
  [.affected {}, .row ⟨["id", "size"], [.of (.int64 4), .of (.int64 9)]⟩,
    .failure "deadlock detected"]

end Company

/-- Attachments are asked for by key alone. The failure behind the first of them leaves nothing of
all of them, and does not matter to the first one. -/
theorem queries_all_or_nothing_attachment :
    let s := Company.answering [Company.interrupted]
    let c := Company.rows Company.attachment
    let all := c.fetchAll {} s
    let one := c.fetchOne {} s
    (∃ lease, (∃ st, st.Lists s.dialect "attachments" ["id"] none
        ∧ s.Sends c.url lease [st] all.session)
      ∧ ∃ st, st.Lists s.dialect "attachments" ["id"] (some 1)
        ∧ s.Sends c.url lease [st] one.session)
      ∧ (∀ js, all.outcome ≠ .ok js)
      ∧ (∃ j, one.outcome = .ok (some j) ∧ j.Holds "id" (.of (.int64 4)))
      ∧ Company.ran one.session
        = [⟨"SELECT t0.\"id\"\nFROM \"attachments\" t0\nLIMIT 1;", []⟩] := by
  intro s c all one
  have hm : (Registry.lookup {} Company.schema Company.attachment).toOption
      = some (Company.mapping Company.attachment) := by
    decide +kernel
  have hcompiles : (Query.selection {} (Company.mapping Company.attachment) s.dialect
      s.mappings).toOption
      = some { Query.blankSelection {} (Company.mapping Company.attachment) with limit := none } := by
    decide +kernel
  obtain ⟨lease, hopens⟩ := Company.opens_answering [Company.interrupted] Company.attachment
  obtain ⟨-, hopen⟩ := Collection.queries_all_or_nothing (s := s) c {} .new
    (Except.eq_ok_of_toOption hm) (by decide) (Except.eq_ok_of_toOption hcompiles)
  obtain ⟨hsends, hreturned, -, -, hsendsFirst, -, hfirst⟩ :=
    hopen (by decide +kernel) lease _ hopens
  refine ⟨⟨lease, hsends, hsendsFirst⟩, fun js hjs => ?_, ?_, by decide +kernel⟩
  · exact (hreturned.1 ⟨js, hjs⟩).1 "deadlock detected" (by decide)
  · obtain ⟨hyields, houtcome⟩ := hfirst _ _ rfl
    generalize Instance.fromItem _ _ _ = result at hyields houtcome
    cases hyields with
    | taken loads took =>
      exact ⟨_, houtcome, Instance.TookOver.holds took (by decide +kernel)⟩
    | refused first =>
      -- the only row can be loaded
      have hnone : List.findSome? ((s.model.newInstance c.entity).refusal?
          (Company.mapping Company.attachment))
          [("id", Value.of (.int64 4)), ("size", Value.of (.int64 9))] = none := by
        decide +kernel
      exact absurd (hnone.symm.trans first) (by simp)

end RowMapper
