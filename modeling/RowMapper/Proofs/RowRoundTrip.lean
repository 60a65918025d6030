import RowMapper.Proofs.ChangesWritten
import RowMapper.Proofs.Coherence
import RowMapper.Proofs.Conversions

/-!
# Rows that are loaded and contributed again

The columns of an accepted mapping are distinct, and so are the names of its members. So a labelled
value goes to the member of its column and to no other, wherever it stands in the row. What the
members contribute afterwards are the values of the row, in the order of the mapping. A cell gives a
value back as it was read, apart from its width.

* `Row.valuesOf` are the values under a label, and `TypeMapping.valueIn?_column` says which of them
  counts for the member of the column.
* `NativeType.Renders` says what a cell makes of a value.
* `Instance.contributes_loaded_row` is about a whole row.
-/

namespace RowMapper

/-! ## Values of a column -/

/-- The values under a label, in order. -/
def labelled (entries : List (String × Value)) (label : String) : List Value :=
  (entries.filter (·.1 == label)).map (·.2)

/-- The values that a row has under a label, in order. -/
def Row.valuesOf (row : Row) (label : String) : List Value := labelled row.entries label

theorem mem_labelled {entries : List (String × Value)} {label : String} {v : Value} :
    v ∈ labelled entries label ↔ (label, v) ∈ entries := by
  simp [labelled]

theorem labelled_concat (entries : List (String × Value)) (entry : String × Value)
    (label : String) :
    labelled (entries ++ [entry]) label
      = if entry.1 = label then labelled entries label ++ [entry.2]
        else labelled entries label := by
  unfold labelled
  by_cases h : entry.1 = label <;> simp [h]

namespace TypeMapping

variable {m : TypeMapping} {c : ColumnMapping} {label : String}

/-- Among columns and members of their own, a column labels its member and no other. -/
theorem labels_iff (hnames : (m.members.map (·.name)).Nodup)
    (hcolumns : (m.columns.map (·.column)).Nodup) (hc : c ∈ m.columns) :
    m.Labels label c.name ↔ label = c.column := by
  have hown : m.Labels c.column c.name := ⟨c, find?_of_nodup hcolumns hc, rfl⟩
  refine ⟨fun h => Labels.unique hnames h hown, ?_⟩
  rintro rfl
  exact hown

/-- Of the values of its column, the last one counts for a member. -/
theorem valueIn?_column (hnames : (m.members.map (·.name)).Nodup)
    (hcolumns : (m.columns.map (·.column)).Nodup) (hc : c ∈ m.columns)
    (entries : List (String × Value)) :
    m.valueIn? entries c.name = (labelled entries c.column).getLast? := by
  induction entries using List.reverseRecOn with
  | nil => rfl
  | append_singleton entries last ih =>
    rw [valueIn?_concat, labelled_concat, ih]
    by_cases h : last.1 = c.column
    · rw [if_pos ((labels_iff hnames hcolumns hc).2 h), if_pos h, List.getLast?_concat]
    · rw [if_neg (mt (labels_iff hnames hcolumns hc).1 h), if_neg h]

/-- No value counts for a name whose columns are not in the row. -/
theorem valueIn?_eq_none {entries : List (String × Value)} {name : String}
    (h : ∀ c ∈ m.columns, c.name = name → labelled entries c.column = []) :
    m.valueIn? entries name = none := by
  unfold valueIn?
  rw [Option.map_eq_none_iff, List.find?_eq_none]
  intro entry hentry hlabels
  obtain ⟨c, hc, hname⟩ := of_decide_eq_true hlabels
  have hcolumn : c.column = entry.1 := by simpa using List.find?_some hc
  have hmem : entry.2 ∈ labelled entries c.column := by
    rw [hcolumn]
    exact mem_labelled.2 (List.mem_reverse.1 hentry)
  rw [h c (List.mem_of_find?_eq_some hc) hname] at hmem
  exact List.not_mem_nil hmem

end TypeMapping

/-! ## Values of a cell -/

namespace Kind

variable {kind : Kind} {d : Datum} {a : kind.Carrier}

/-- What is read of a datum is the datum itself, its integer, or its number in double precision. -/
theorem ofValue_of_cases (h : kind.ofValue (.of d) = .ok a) :
    kind.datum a = d ∨ (∃ n, d.integer? = some n ∧ (kind.datum a).integer? = some n)
      ∨ ∃ x, d = .float32 x ∧ kind.datum a = .float64 x.widen := by
  by_cases hwiden : kind = .float64 ∧ ∃ x, d = .float32 x
  · obtain ⟨rfl, x, rfl⟩ := hwiden
    cases h
    exact .inr (.inr ⟨x, rfl, rfl⟩)
  by_cases hinteger : kind.width? ≠ none → d.integer? = none
  · -- apart from numbers of other widths, only the own data are read
    obtain ⟨hown, hother⟩ := ofValue_of_other (v := .of d) hinteger
      fun hkind x hx => hwiden ⟨hkind, x, by cases hx; rfl⟩
    by_cases hdatum : ∃ b, Value.of d = .of (kind.datum b)
    · obtain ⟨b, hb⟩ := hdatum
      rw [hown b hb] at h
      cases h
      cases hb
      exact .inl rfl
    · rw [hother fun b hb => hdatum ⟨b, hb⟩] at h
      cases h
  · push Not at hinteger
    obtain ⟨hwidth, hsome⟩ := hinteger
    obtain ⟨width, hwidth⟩ := Option.ne_none_iff_exists'.1 hwidth
    obtain ⟨n, hn⟩ := Option.ne_none_iff_exists'.1 hsome
    obtain ⟨hfits, hfails⟩ := readsInteger hwidth hn
    by_cases hroom : Fits width n
    · obtain ⟨b, hb, hbn⟩ := hfits hroom
      rw [hb] at h
      cases h
      exact .inr (.inl ⟨n, hn, hbn⟩)
    · rw [hfails hroom] at h
      cases h

end Kind

namespace NativeType

variable {type : NativeType} {v w : Value}

/-- The value that a cell of the type gives back for another value: of the kind of the cell, the
same if it was of that kind before, the NULL of the kind for any NULL, and otherwise the same
number at the width of the cell. -/
structure Renders (type : NativeType) (v w : Value) : Prop where
  kind : w.type = .of type.kind
  own : v.type = .of type.kind → w = v
  null : v.isNull = true → w = type.emptyValue
  integer : w.integer? = v.integer?
  widened : ∀ x, v = .of (.float32 x) → type.kind = .float64 →
    w = .of (.float64 x.widen) ∧ x.widen.number? = x.number?

theorem renders_null (type : NativeType) (t : ValueType) :
    type.Renders (.null t) type.emptyValue where
  kind := rfl
  own h := by
    cases h
    rfl
  null _ := rfl
  integer := rfl
  widened x h := by cases h

theorem renders_of {d : Datum} {a : type.kind.Carrier} (h : type.kind.ofValue (.of d) = .ok a) :
    type.Renders (.of d) (.of (type.kind.datum a)) where
  kind := congrArg ValueType.of (type.kind.kind_datum a)
  own hkind := by
    obtain ⟨b, rfl⟩ := Kind.exists_datum (ValueType.of.inj hkind)
    rw [Kind.ofValue_datum] at h
    cases h
    rfl
  null hnull := by cases hnull
  integer := by
    show (type.kind.datum a).integer? = d.integer?
    rcases Kind.ofValue_of_cases h with hsame | ⟨n, hd, ha⟩ | ⟨x, rfl, ha⟩
    · rw [hsame]
    · rw [hd, ha]
    · rw [ha]
      rfl
  widened x hx hkind := by
    cases hx
    generalize type.kind = kind at a h hkind ⊢
    subst hkind
    cases h
    exact ⟨rfl, x.number?_widen⟩

/-- What is read is given back so. -/
theorem renders_of_ofValue {a : type.Carrier} (h : type.ofValue v = .ok a) :
    type.Renders v (type.toValue a) := by
  cases v with
  | null t =>
    cases type with
    | required kind => cases kind <;> cases h
    -- only an optional type takes a NULL
    | optional kind =>
      cases h
      exact renders_null _ t
  | of d =>
    obtain ⟨hok, herror⟩ := type.ofValue_of d
    cases hread : type.kind.ofValue (.of d) with
    | error cause =>
      rw [herror cause hread] at h
      cases h
    | ok b =>
      have hconverted := hok b hread
      unfold converted at hconverted
      rw [h] at hconverted
      rw [Except.ok.inj hconverted]
      exact renders_of hread

end NativeType

/-! ## Instances -/

namespace Instance

variable {schema : Schema} {r : Registry} {e : EntityType} {m : TypeMapping} {i j : Instance}
  {row : Row}

/-- Loading takes away no member. -/
theorem TookOver.covers (h : i.TookOver m row j) (hcovers : i.Covers m) : j.Covers m := by
  intro c hc
  have htype := congrArg Option.isSome (h.typeOf? c.name)
  unfold Instance.typeOf? at htype
  rw [Option.isSome_map, Option.isSome_map] at htype
  rw [htype]
  exact hcovers c hc

/-- A member that holds one value, committed and current, contributes what its type makes of that
value, also as a stored key. -/
theorem contribution_of_holds {strategies : KeyStrategies} {stored : Bool} {c : ColumnMapping}
    {f : Contribution} {v : Value} (hholds : i.Holds c.name v)
    (hf : i.contribution m strategies stored c = .ok f) :
    f.name = c.column ∧ f.role = c.role
      ∧ ∃ type w, i.typeOf? c.name = some type ∧ type.Renders v w ∧ f.value = some w := by
  obtain ⟨x, hx, hcommitted, hcurrent⟩ := hholds
  obtain ⟨y, hy, rfl⟩ := Except.map_eq_ok.1 hf
  rw [tracked_eq_ok, hx] at hy
  cases hy
  refine ⟨rfl, rfl, x.type, _, typeOf?_of_member? hx, ?_, rfl⟩
  split
  · exact NativeType.renders_of_ofValue hcommitted
  · exact NativeType.renders_of_ofValue hcurrent

/-- A row whose labelled values convert is loaded, under any accepted mapping and into any instance
with all its members. The labels stand in any order, and those that are no column are passed over.
The member of a column that is labelled once has the value of that label, both committed and
current, and every name without a labelled column stays as it was. If each column is labelled once,
the instance then contributes one value for each column, in the order of the mapping, which is the
value of the row as the cell gives it back, with stored keys as without. -/
theorem contributes_loaded_row (hr : Registry.Reached schema r) (hm : r.lookup schema e = .ok m)
    (hcovers : i.Covers m) (hloads : ∀ entry ∈ row.entries, i.Loads m entry) :
    let loaded := i.load m row
    loaded.outcome = .ok ()
      ∧ (∀ c ∈ m.columns, ∀ v, row.valuesOf c.column = [v] →
        ∃ x a, i.member? c.name = some x ∧ x.type.ofValue v = .ok a
          ∧ loaded.target.member? c.name = some (x.withCell (x.cell.load a)))
      ∧ (∀ name, (∀ c ∈ m.columns, c.name = name → row.valuesOf c.column = []) →
        loaded.target.member? name = i.member? name)
      ∧ ((∀ c ∈ m.columns, ∃ v, row.valuesOf c.column = [v]) → ∀ strategies stored,
        ∃ fields, loaded.target.contributions m strategies stored = .ok fields
          ∧ List.Forall₂ (fun c f => f.name = c.column ∧ f.role = c.role
              ∧ ∃ v type w, row.valuesOf c.column = [v] ∧ i.typeOf? c.name = some type
                ∧ type.Renders v w ∧ f.value = some w)
            m.columns fields) := by
  intro loaded
  have hformed := Registry.wellFormed_of_resolve ((hr.sound.outcome_request e).symm.trans hm)
  have hfirst : row.entries.findSome? (i.refusal? m) = none :=
    List.findSome?_eq_none_iff.2 fun entry hentry => refusal?_eq_none.2 (hloads entry hentry)
  obtain ⟨houtcome, htook⟩ := (load_cases i m row).1 hfirst
  change i.TookOver m row loaded.target at htook
  -- a column that stands in the row once gives its member that value
  have hvalue : ∀ c ∈ m.columns, ∀ v, row.valuesOf c.column = [v] →
      row.valueFor? m c.name = some v := by
    intro c hc v hv
    have hlast := TypeMapping.valueIn?_column hformed.names hformed.columns hc row.entries
    change _ = (row.valuesOf c.column).getLast? at hlast
    rw [hv] at hlast
    exact hlast
  refine ⟨houtcome, fun c hc v hv => ?_, fun name hnone => ?_, fun hall strategies stored => ?_⟩
  · obtain ⟨x, y, hx, hy, hmember⟩ := htook.loaded c.name v (hvalue c hc v hv)
    obtain ⟨a, ha, rfl⟩ := TrackedMember.loadValue_eq_ok.1 hy
    exact ⟨x, a, hx, ha, hmember⟩
  · exact htook.kept name (TypeMapping.valueIn?_eq_none hnone)
  · obtain ⟨fields, hfields⟩ := exists_contributions (htook.covers hcovers) strategies stored
    have hholds : ∀ c ∈ m.columns,
        ∃ v, row.valuesOf c.column = [v] ∧ loaded.target.Holds c.name v := by
      intro c hc
      obtain ⟨v, hv⟩ := hall c hc
      exact ⟨v, hv, htook.holds (hvalue c hc v hv)⟩
    refine ⟨fields, hfields, ?_⟩
    refine ((List.forall₂_and_left _ _).2 ⟨hholds, forall₂_of_mapM hfields⟩).imp ?_
    rintro c f ⟨⟨v, hv, hholds⟩, hf⟩
    obtain ⟨hname, hrole, type, w, htype, hrenders, hw⟩ := contribution_of_holds hholds hf
    exact ⟨hname, hrole, v, type, w, hv, (htook.typeOf? c.name).symm.trans htype, hrenders, hw⟩

end Instance

namespace Company

/-- An employee as another program might store one: in another order, with a column of its own, and
with numbers of other widths. -/
def hired : Row :=
  ⟨["salary", "badge", "department_id", "id", "mentor_id", "badge", "name", "active", "manager_id"],
    [.of (.float32 ⟨0x3fc00000⟩), .of (.int32 3), .of (.int16 5), .of (.int32 7), .untyped,
      .of (.int32 4), .of (.varchar "Ada"), .of (.boolean true), .null (.of .int64)]⟩

end Company

namespace Instance

/-- The row is taken by a new employee, who has its values in the order of the mapping then. -/
theorem contributes_loaded_row_hired :
    let m := Company.mapping Company.employee
    let loaded := (Company.model.newInstance Company.employee).load m Company.hired
    loaded.outcome = .ok ()
      ∧ ∃ fields, loaded.target.contributions m {} true = .ok fields
        ∧ fields.map (·.name) = m.columns.map (·.column)
        ∧ fields.map (·.value) = [some (.of (.int64 7)), some (.of (.varchar "Ada")),
          some (.of (.float64 ⟨0x3ff8000000000000⟩)), some (.of (.boolean true)),
          some (.null (.of .int64)), some (.of (.int64 5)), some (.null (.of .int64))] := by
  intro m loaded
  have hm : (Registry.lookup {} Company.schema Company.employee).toOption = some m := by
    decide +kernel
  have hcovers : (Company.model.newInstance Company.employee).Covers m := by decide +kernel
  have hloads : ∀ entry ∈ Company.hired.entries,
      (Company.model.newInstance Company.employee).Loads m entry := by decide +kernel
  obtain ⟨houtcome, -, -, hfields⟩ :=
    contributes_loaded_row .new (Except.eq_ok_of_toOption hm) hcovers hloads
  have hlabels : ∀ c ∈ m.columns, ∃ v, Company.hired.valuesOf c.column = [v] := by
    simp only [← List.length_eq_one_iff]
    decide +kernel
  obtain ⟨fields, hok, hrows⟩ := hfields hlabels {} true
  have hvalues : (loaded.target.contributions m {} true).toOption.map (·.map (·.value))
      = some [some (.of (.int64 7)), some (.of (.varchar "Ada")),
          some (.of (.float64 ⟨0x3ff8000000000000⟩)), some (.of (.boolean true)),
          some (.null (.of .int64)), some (.of (.int64 5)), some (.null (.of .int64))] := by
    decide +kernel
  refine ⟨houtcome, fields, hok, ?_, ?_⟩
  · rw [← List.forall₂_eq_eq_eq, List.forall₂_map_left_iff, List.forall₂_map_right_iff]
    exact hrows.flip.imp fun f c h => h.1
  · rw [hok] at hvalues
    exact Option.some.inj hvalues

end Instance

end RowMapper
