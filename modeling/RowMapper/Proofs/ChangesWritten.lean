import RowMapper.Proofs.Exchange
import RowMapper.Proofs.Legality
import RowMapper.Proofs.LoadedMembers
import RowMapper.Proofs.WrittenCommands

/-!
# Changes that an update writes

An update compares every member with its committed value. A change of the key is refused; the other
changes that updates may write are assigned in one statement, by the committed key, and no other
column is. What the statement gives back is taken over as the stored row.

* `Instance.changes` are the columns to write, and `Instance.WritesChanges` is the statement.
* `Instance.modification_cases` says what is built, `Collection.update_writes_changes` what is sent
  and what becomes of the instance.
-/

namespace RowMapper

namespace Instance

variable {i : Instance} {m : TypeMapping} {d : Dialect}

/-! ## What is written -/

/-- The current value of a column. -/
def current? (i : Instance) (c : ColumnMapping) : Option Value :=
  (i.member? c.name).map (·.cell.value)

/-- The member of the column differs from its committed value. -/
def isModified (i : Instance) (c : ColumnMapping) : Bool :=
  (i.member? c.name).any (·.cell.isChanged)

/-- The columns that an update writes: those of changed members that are updateable and belong to no
key, in the order of the mapping. -/
def changes (i : Instance) (m : TypeMapping) : List ColumnMapping :=
  m.columns.filter fun c => !c.primaryKey && c.access.updateable && i.isModified c

/-- The statement updates the row of the committed key, where it assigns the changes their current
values and nothing else, and reads all columns of that row. -/
def WritesChanges (i : Instance) (m : TypeMapping) (d : Dialect) (st : Statement) : Prop :=
  ∃ assignments key : List ColumnSlot,
    st.sql = d.modification m.table assignments key ++ "\n"
        ++ d.reading m.table (m.columns.map (·.column)) key
      ∧ List.Forall₂ (fun c slot => slot.column = c.column
          ∧ ∃ v, i.current? c = some v ∧ slot.slot.Binds st.parameters v) (i.changes m) assignments
      ∧ i.Pins m st.parameters key

theorem modifiedKey?_eq_none :
    i.modifiedKey? m = none ↔ ∀ key ∈ m.primaryKeys, i.isModified key = false := by
  unfold modifiedKey?
  rw [List.find?_eq_none]
  simp only [isModified, Bool.not_eq_true]

/-! ## Contributions to an update -/

/-- An instance with all its members contributes. -/
theorem exists_contributions (hcovers : i.Covers m) (strategies : KeyStrategies) (stored : Bool) :
    ∃ fields, i.contributions m strategies stored = .ok fields := by
  have hcases := i.contributions_cases m strategies stored
  split at hcases
  · rename_i fields hfields
    exact ⟨fields, hfields⟩
  · obtain ⟨c, hc, hnone, -⟩ := hcases
    have htracked := hcovers c hc
    rw [hnone] at htracked
    cases htracked

/-- A column contributes to an update as a change, as a key, or not at all. -/
theorem kinds_of_contribution {strategies : KeyStrategies} {c : ColumnMapping} {f : Contribution}
    (h : i.contribution m strategies true c = .ok f) :
    f.name = c.column
      ∧ f.isValuedKey = c.primaryKey
      ∧ f.isAssignment = (!c.primaryKey && c.access.updateable && i.isModified c)
      ∧ f.value = if c.primaryKey then i.committed? c else i.current? c := by
  obtain ⟨x, hx, rfl⟩ := Except.map_eq_ok.1 h
  have hmember := tracked_eq_ok.1 hx
  unfold Contribution.isValuedKey Contribution.isAssignment isModified committed? current?
  rw [hmember]
  dsimp only
  unfold ColumnMapping.role
  obtain ⟨name, column, type, primaryKey, ⟨insertable, updateable⟩⟩ := c
  cases primaryKey <;> cases insertable <;> cases updateable <;> simp [FieldRole.ofAccess]

/-- The slots of contributions are those of their columns, and hold the committed values of keys and
the current values of other columns. -/
theorem slots_of_contributions {strategies : KeyStrategies} {isKey : Bool}
    {columns : List ColumnMapping} {fields : List Contribution} {slots : List ColumnSlot}
    {parameters : List Value}
    (hfields : List.Forall₂
      (fun c f => c.primaryKey = isKey ∧ i.contribution m strategies true c = .ok f) columns fields)
    (hslots : slots.Forall₂ (ColumnSlot.Holds parameters) fields) :
    List.Forall₂ (fun c slot => slot.column = c.column
      ∧ ∃ v, (if isKey then i.committed? c else i.current? c) = some v
        ∧ slot.slot.Binds parameters v) columns slots := by
  refine forall₂_trans (fun c f slot hc hslot => ?_) hfields (List.Forall₂.flip hslots)
  obtain ⟨rfl, hcontributed⟩ := hc
  obtain ⟨hname, -, -, hvalue⟩ := kinds_of_contribution hcontributed
  obtain ⟨v, hv, hbinds⟩ := ColumnSlot.Holds.value hslot
  exact ⟨(ColumnSlot.Holds.column hslot).trans hname, v, hvalue.symm.trans hv, hbinds⟩

section

variable {fields : List Contribution} (h : i.contributions m d.strategies true = .ok fields)

include h

/-- The changes contribute what an update assigns. -/
theorem assignments_of_contributions :
    List.Forall₂ (fun c f => c.primaryKey = false ∧ i.contribution m d.strategies true c = .ok f)
      (i.changes m) (fields.filter (·.isAssignment)) := by
  refine (List.forall₂_and_left _ _).2
    ⟨fun c hc => ?_, List.rel_filter (fun c f hf => ?_) (forall₂_of_mapM h)⟩
  · have hwritten := (List.mem_filter.1 hc).2
    simp only [Bool.and_eq_true, Bool.not_eq_true'] at hwritten
    exact hwritten.1.1
  · show _ = true ↔ _ = true
    rw [(kinds_of_contribution hf).2.2.1]

/-- The columns of the key contribute what the row is found by. -/
theorem valuedKeys_of_contributions :
    List.Forall₂ (fun c f => c.primaryKey = true ∧ i.contribution m d.strategies true c = .ok f)
      m.primaryKeys (fields.filter (·.isValuedKey)) := by
  refine (List.forall₂_and_left _ _).2
    ⟨fun c hc => (List.mem_filter.1 hc).2, List.rel_filter (fun c f hf => ?_) (forall₂_of_mapM h)⟩
  show _ = true ↔ _ = true
  rw [(kinds_of_contribution hf).2.1]

/-- There is something to write exactly if there are changes. -/
theorem hasChanges_eq : Command.hasChanges ⟨m.table, fields⟩ = !(i.changes m).isEmpty := by
  unfold Command.hasChanges
  rw [Command.assigned_eq, isEmpty_of_forall₂ (assignments_of_contributions h)]

/-- An update of the contributions is built. -/
theorem exists_update (htable : m.table ≠ "") (hkeys : m.primaryKeys ≠ []) :
    ∃ built, Command.update ⟨m.table, fields⟩ d = .ok built := by
  obtain ⟨c, hc⟩ := List.exists_mem_of_ne_nil _ hkeys
  obtain ⟨f, hf, -⟩ := exists_of_forall₂ (List.Forall₂.flip (valuedKeys_of_contributions h)) hc
  obtain ⟨hmem, hvalued⟩ := List.mem_filter.1 hf
  exact (Command.exists_update_iff ⟨m.table, fields⟩ d).2 ⟨htable, f, hmem, hvalued⟩

/-- It writes the changes. -/
theorem writesChanges_of_update {built : Built}
    (hbuilt : Command.update ⟨m.table, fields⟩ d = .ok built) (hchanges : i.changes m ≠ []) :
    i.WritesChanges m d built.statement := by
  obtain ⟨assignments, key, hupdates⟩ := Command.updates_of_update hbuilt
  have hsome : ¬Command.hasChanges ⟨m.table, fields⟩ = false := by
    rw [hasChanges_eq h]
    simpa using hchanges
  have hnames : fields.map (·.name) = m.columns.map (·.column) := by
    rw [← List.forall₂_eq_eq_eq, List.forall₂_map_left_iff, List.forall₂_map_right_iff]
    exact List.Forall₂.flip ((forall₂_of_mapM h).imp fun c f hf => (kinds_of_contribution hf).1)
  refine ⟨assignments, key, ?_, ?_, ?_⟩
  · rw [hupdates.sql, hnames, if_neg hsome, String.append_assoc]
  · simpa using slots_of_contributions (assignments_of_contributions h) hupdates.assigned
  · refine (slots_of_contributions (valuedKeys_of_contributions h) hupdates.keyed).imp ?_
    rintro c slot ⟨hcolumn, v, hv, hbinds⟩
    exact ⟨hcolumn, v, hv, hbinds.standsFor⟩

end

/-- What an update builds: nothing for a key that was modified or without changes, and else the
statement that writes the changes. -/
theorem modification_cases (htable : m.table ≠ "") (hkeys : m.primaryKeys ≠ [])
    (hcovers : i.Covers m) (d : Dialect) :
    (∀ key, i.modifiedKey? m = some key →
        i.modification m d = .error (.collection (.keyModified key.name m.entity)))
      ∧ (i.modifiedKey? m = none → i.changes m = [] → i.modification m d = .ok none)
      ∧ (i.modifiedKey? m = none → i.changes m ≠ [] →
        ∃ built, i.modification m d = .ok (some built) ∧ i.WritesChanges m d built.statement) := by
  obtain ⟨fields, hfields⟩ := exists_contributions hcovers d.strategies true
  have hhas := hasChanges_eq hfields
  refine ⟨fun key hkey => ?_, fun hkey hnone => ?_, fun hkey hsome => ?_⟩
  · unfold modification
    rw [hkey]
  · unfold modification
    rw [hkey, hfields]
    show (if Command.hasChanges ⟨m.table, fields⟩ then _ else _) = _
    rw [hhas, hnone]
    rfl
  · obtain ⟨built, hbuilt⟩ := exists_update hfields htable hkeys
    refine ⟨built, ?_, writesChanges_of_update hfields hbuilt hsome⟩
    unfold modification
    rw [hkey, hfields]
    show (if Command.hasChanges ⟨m.table, fields⟩ then _ else _) = _
    rw [hhas, if_pos (by simpa using hsome), hbuilt]
    rfl

end Instance

namespace Collection

variable {c : Collection} {i : Instance} {s : Session} {m : TypeMapping}

/-! ## What is sent -/

/-- An update goes on from the mapping with what it builds. -/
theorem updateRow_of_lookup (hr : Registry.Reached s.model.schema s.registry)
    (hm : s.registry.lookup s.model.schema c.entity = .ok m) (i : Instance) :
    ∃ start, s.Asked start
      ∧ (∀ e, i.modification m s.dialect = .error e →
        (c.updateRow i s).outcome = .error e ∧ (c.updateRow i s).session = start)
      ∧ (i.modification m s.dialect = .ok none →
        (c.updateRow i s).outcome = .ok none ∧ (c.updateRow i s).session = start)
      ∧ ∀ built, i.modification m s.dialect = .ok (some built) →
        (c.updateRow i s).session = (Work.readBack c.url built.statement start).session
          ∧ ∀ row, (Work.readBack c.url built.statement start).outcome = .ok (some row) →
            (c.updateRow i s).outcome = .ok (some ⟨m, row⟩) := by
  obtain ⟨start, hstart, houtcome, hsession⟩ := Work.bind_mapping hr hm (t := c.updateRow i) rfl
  rw [Work.bind_ask, hstart.kept.2.1] at houtcome hsession
  refine ⟨start, hstart, fun e he => ?_, fun hnone => ?_, fun built hbuilt => ?_⟩
  · rw [he] at houtcome hsession
    exact ⟨houtcome, hsession⟩
  · rw [hnone] at houtcome hsession
    exact ⟨houtcome, hsession⟩
  · rw [hbuilt] at houtcome hsession
    dsimp only at houtcome hsession
    -- with a statement the update is what reads the row back
    have hbuilding : Work.built (.ok built) start = ⟨.ok built.statement, start, built.log⟩ := rfl
    rw [Work.bind_of_ok hbuilding] at houtcome hsession
    rcases hrow : Work.readBack c.url built.statement start with ⟨e | _ | row, s', log⟩
    · rw [Work.bind_of_error hrow] at houtcome hsession
      exact ⟨hsession, fun row h => by cases h⟩
    · rw [Work.bind_of_ok hrow] at houtcome hsession
      exact ⟨hsession, fun row h => by cases h⟩
    · rw [Work.bind_of_ok hrow] at houtcome hsession
      refine ⟨hsession, fun row' h => ?_⟩
      cases h
      exact houtcome

/-- An instance takes over the row that was fetched, if there is one, and else stays as it is. -/
theorem taking_of_fetch (fetch : Work (Option Fetched)) (i : Instance) (s : Session) :
    (∀ e, (fetch s).outcome = .error e → (taking fetch true i s).outcome = .error e)
      ∧ ((fetch s).outcome = .ok none → (taking fetch true i s).outcome = .ok false
        ∧ (taking fetch true i s).target = i ∧ (taking fetch true i s).notified = [])
      ∧ ∀ fetched, (fetch s).outcome = .ok (some fetched) →
        let loaded := (i.commitAll (s.model.schema.declaration i.entity)).1.load fetched.mapping
          fetched.row
        (taking fetch true i s).outcome = loaded.outcome.map (fun _ => true)
          ∧ (taking fetch true i s).target = loaded.target := by
  unfold taking
  rcases fetch s with ⟨e | _ | fetched, s', log⟩ <;>
    refine ⟨fun cause h => ?_, fun h => ?_, fun row h => ?_⟩ <;> cases h
  · rfl
  · exact ⟨rfl, rfl, rfl⟩
  · exact ⟨rfl, rfl⟩

/-- An update writes exactly the changes, under any mapping that was accepted for a type with a key,
and for any instance with all its members. It refuses a change of the key and sends nothing then;
nor does it send anything without a change to write, which it tells, and the instance stays as it
was. Otherwise one statement is sent, if a connection is there, which assigns the changes and
nothing else. If its answer begins with a row of distinct labels whose columns all convert, the
update has succeeded, and the members of those columns have the values of the row, as committed and
as current ones. -/
theorem update_writes_changes (c : Collection) (i : Instance) {s : Session} {m : TypeMapping}
    (hr : Registry.Reached s.model.schema s.registry)
    (hm : s.registry.lookup s.model.schema c.entity = .ok m) (hkeys : m.primaryKeys ≠ [])
    (hcovers : i.Covers m) :
    let updated := c.update i s
    (∀ key ∈ m.primaryKeys, i.isModified key = true →
        (∃ e, updated.outcome = .error e ∧ e.kind = .statementState)
          ∧ updated.session.pool = s.pool)
      ∧ ((∀ key ∈ m.primaryKeys, i.isModified key = false) →
        (i.changes m = [] → updated.outcome = .ok false ∧ updated.session.pool = s.pool
          ∧ updated.target = i ∧ updated.notified = [])
        ∧ (i.changes m ≠ [] → ∀ lease server, s.Opens c.url lease server →
          (∃ st, i.WritesChanges m s.dialect st ∧ s.Sends c.url lease [st] updated.session)
            ∧ ∀ row, (server.answer 0).first = .ok (some row) → row.labels.Nodup →
              (∀ entry ∈ row.entries, i.Loads m entry) →
              updated.outcome = .ok true ∧ ∀ entry ∈ row.entries, ∀ name, m.Labels entry.1 name →
                updated.target.Holds name entry.2
                  ∧ updated.target.typeOf? name = i.typeOf? name)) := by
  intro updated
  obtain ⟨houtcome, htarget, hnotified⟩ := reported_eq (taking (c.updateRow i) true i s)
  have hsession : updated.session = (c.updateRow i s).session :=
    (session_reported _).trans (session_taking _ _ _ _)
  change updated.outcome = _ at houtcome
  change updated.target = _ at htarget
  change updated.notified = _ at hnotified
  rw [houtcome, htarget, hnotified, hsession]
  obtain ⟨htable, hnames⟩ := hr.accepted hm
  obtain ⟨hmodified, hunchanged, hchanged⟩ :=
    Instance.modification_cases htable hkeys hcovers s.dialect
  obtain ⟨start, hstart, hrefused, hidle, hsent⟩ := updateRow_of_lookup hr hm i
  obtain ⟨-, -, hpool⟩ := hstart.kept
  obtain ⟨htakenError, htakenNone, htakenRow⟩ := taking_of_fetch (c.updateRow i) i s
  refine ⟨fun key hkey hchange => ?_, fun hclean => ⟨fun hnone => ?_, fun hsome => ?_⟩⟩
  · cases hfirst : i.modifiedKey? m with
    | none =>
      rw [Instance.modifiedKey?_eq_none.1 hfirst key hkey] at hchange
      cases hchange
    | some first =>
      obtain ⟨hfails, hkept⟩ := hrefused _ (hmodified first hfirst)
      rw [hkept]
      exact ⟨⟨_, htakenError _ hfails, rfl⟩, hpool⟩
  · obtain ⟨hfetched, hkept⟩ := hidle (hunchanged (Instance.modifiedKey?_eq_none.2 hclean) hnone)
    obtain ⟨houtcome, hsame⟩ := htakenNone hfetched
    rw [hkept]
    exact ⟨houtcome, hpool, hsame⟩
  · -- the statement is built without the server, which then decides what is taken over
    intro lease server hopens
    obtain ⟨built, hbuilt, hwrites⟩ := hchanged (Instance.modifiedKey?_eq_none.2 hclean) hsome
    obtain ⟨hran, hfetched⟩ := hsent built hbuilt
    obtain ⟨hread, hsends⟩ := Work.readBack_of_opens (hstart.opens hopens) built.statement
    rw [hran]
    refine ⟨⟨built.statement, hwrites, hstart.sends hsends⟩, fun row hrow hlabels hloads => ?_⟩
    rw [hrow] at hread
    obtain ⟨hloaded, hloadedTarget⟩ := htakenRow _ (hfetched row hread)
    -- the commit before changes no type, so what converts is not refused
    have hnone : row.entries.findSome?
        ((i.commitAll (s.model.schema.declaration i.entity)).1.refusal? m) = none := by
      rw [Instance.refusal?_commitAll]
      exact List.findSome?_eq_none_iff.2 fun entry hentry =>
        Instance.refusal?_eq_none.2 (hloads entry hentry)
    obtain ⟨hended, htook⟩ := (Instance.load_cases _ m row).1 hnone
    rw [hloaded, hloadedTarget, hended]
    refine ⟨rfl, fun entry hentry name hlabel => ⟨?_, ?_⟩⟩
    · exact htook.holds (Row.valueFor?_of_mem hnames hlabels hentry hlabel)
    · exact (htook.typeOf? name).trans (i.typeOf?_commitAll _ name)

end Collection

namespace Company

/-- A department as it was stored. -/
def stored : Row := ⟨["name", "id"], [.of (.varchar "Trade"), .of (.int64 0)]⟩

end Company

/-- The name of a department is written, and what was stored is taken over. -/
theorem update_writes_changes_founded :
    let s := Company.answering [[.affected { rows := 1 }, .row Company.stored]]
    let m := Company.mapping Company.department
    let updated := (Company.rows Company.department).update Company.founded s
    (∃ lease st, Company.founded.WritesChanges m s.dialect st
        ∧ s.Sends (Company.rows Company.department).url lease [st] updated.session)
      ∧ updated.outcome = .ok true
      ∧ updated.target.Holds "name" (.of (.varchar "Trade"))
      ∧ Company.ran updated.session
        = [⟨"UPDATE \"departments\" SET \"name\" = @p0 WHERE \"id\" = @p1;\n"
            ++ "SELECT \"id\", \"name\" FROM \"departments\" WHERE \"id\" = @p1;",
          [.of (.varchar "Sales"), .of (.int64 0)]⟩] := by
  intro s m updated
  have hm : (Registry.lookup {} Company.schema Company.department).toOption = some m := by
    decide +kernel
  obtain ⟨lease, hopens⟩ := Company.opens_answering
    [[.affected { rows := 1 }, .row Company.stored]] Company.department
  obtain ⟨-, hclean⟩ := Collection.update_writes_changes (s := s) (Company.rows Company.department)
    Company.founded .new (Except.eq_ok_of_toOption hm) (by decide) (by decide +kernel)
  obtain ⟨⟨st, hwrites, hsends⟩, hrow⟩ :=
    (hclean (by decide +kernel)).2 (by decide +kernel) lease _ hopens
  have hlabel : m.Labels "name" "name" := by decide +kernel
  obtain ⟨houtcome, htarget⟩ := hrow Company.stored rfl (by decide) (by decide +kernel)
  have hentry : ("name", Value.of (.varchar "Trade")) ∈ Company.stored.entries := by decide
  exact ⟨⟨lease, st, hwrites, hsends⟩, houtcome, (htarget _ hentry "name" hlabel).1,
    by decide +kernel⟩

end RowMapper
