import Mathlib.Data.List.Induction
import Mathlib.Data.List.TakeWhile
import RowMapper.Proofs.CleanFailure

/-!
# Members that a row loads

A row is loaded label by label, and a label may stand in it more than once. Of a row none of whose
values is refused, what counts for a member is the last value under its column, whatever was loaded
before. A member whose column is not in the row stays as it was.

* `Row.valueFor?` is the value that counts for a member.
* `Instance.TookOver` relates an instance with the one after a row was loaded, and `load_cases` says
  that every row is either taken over or refused at its first faulty value.
* `Row.valueFor?_of_mem` gives every value of a row with distinct labels to the member of its
  column.
-/

namespace RowMapper

/-! ## Members -/

namespace TrackedMember

variable {x y z : TrackedMember} {v w : Value}

/-- A value that converts becomes the committed value and the current one. -/
theorem loadValue_eq_ok :
    x.loadValue v = .ok y ↔ ∃ a, x.type.ofValue v = .ok a ∧ x.withCell (x.cell.load a) = y := by
  unfold loadValue Cell.loadValue
  cases x.type.ofValue v with
  | error cause => simp [Except.map]
  | ok a => simp [Except.map]

/-- What was loaded before does not count. -/
theorem loadValue_loadValue (hy : x.loadValue v = .ok y) (hz : y.loadValue w = .ok z) :
    x.loadValue w = .ok z := by
  obtain ⟨a, -, rfl⟩ := loadValue_eq_ok.1 hy
  obtain ⟨b, hb, rfl⟩ := loadValue_eq_ok.1 hz
  exact loadValue_eq_ok.2 ⟨b, hb, rfl⟩

end TrackedMember

/-! ## Values of a row -/

/-- The label is the column of the member. -/
def TypeMapping.Labels (m : TypeMapping) (label name : String) : Prop :=
  ∃ column, m.byColumn? label = some column ∧ column.name = name

instance (m : TypeMapping) (label name : String) : Decidable (m.Labels label name) :=
  decidable_of_iff ((m.byColumn? label).any (·.name == name)) (by
    simp [TypeMapping.Labels, Option.any_eq_true])

/-- The value that counts for a member: the last one whose label is the column of the member. -/
def TypeMapping.valueIn? (m : TypeMapping) (entries : List (String × Value)) (name : String) :
    Option Value :=
  (entries.reverse.find? fun entry => m.Labels entry.1 name).map (·.2)

/-- The value that the row has for a member. -/
def Row.valueFor? (row : Row) (m : TypeMapping) (name : String) : Option Value :=
  m.valueIn? row.entries name

namespace TypeMapping

variable {m : TypeMapping} {entries : List (String × Value)} {entry : String × Value}
  {name : String}

theorem valueIn?_concat (m : TypeMapping) (entries : List (String × Value))
    (entry : String × Value) (name : String) :
    m.valueIn? (entries ++ [entry]) name
      = if m.Labels entry.1 name then some entry.2 else m.valueIn? entries name := by
  unfold valueIn?
  rw [List.reverse_append, List.reverse_singleton, List.singleton_append, List.find?_cons]
  by_cases h : m.Labels entry.1 name <;> simp [h]

/-- Where members have names of their own, a member has one column. -/
theorem Labels.unique (hnames : (m.members.map (·.name)).Nodup) {label other : String}
    (h : m.Labels label name) (h' : m.Labels other name) : label = other := by
  obtain ⟨c, hc, rfl⟩ := h
  obtain ⟨c', hc', hname⟩ := h'
  obtain ⟨x, hx, hxc⟩ := member?_of_mem_columns hnames (List.mem_of_find?_eq_some hc)
  obtain ⟨y, hy, hyc⟩ := member?_of_mem_columns hnames (List.mem_of_find?_eq_some hc')
  rw [hname, hx] at hy
  cases hy
  rw [hxc] at hyc
  cases hyc
  have hlabel : c.column = label := by simpa using List.find?_some hc
  have hother : c.column = other := by simpa using List.find?_some hc'
  exact hlabel.symm.trans hother

/-- With labels of their own, every value that is labelled with the column of a member is the one
that counts for it. -/
theorem valueIn?_of_mem (hnames : (m.members.map (·.name)).Nodup)
    (hlabels : (entries.map (·.1)).Nodup) (hentry : entry ∈ entries)
    (hlabel : m.Labels entry.1 name) : m.valueIn? entries name = some entry.2 := by
  induction entries using List.reverseRecOn with
  | nil => exact absurd hentry List.not_mem_nil
  | append_singleton entries last ih =>
    rw [valueIn?_concat]
    rw [List.map_append, List.nodup_append] at hlabels
    rcases List.mem_append.1 hentry with hbefore | hlast
    · -- the last label is another one, so it is not the column of the member
      have hne : ¬m.Labels last.1 name := by
        intro h
        have hsame := Labels.unique hnames hlabel h
        exact hlabels.2.2 entry.1 (List.mem_map_of_mem hbefore) last.1 (by simp) hsame
      rw [if_neg hne]
      exact ih hlabels.1 hbefore
    · rw [List.mem_singleton.1 hlast] at hlabel ⊢
      rw [if_pos hlabel]

end TypeMapping

/-- The labels of the values of a row are labels of the row. -/
theorem Row.nodup_entries {row : Row} (h : row.labels.Nodup) : (row.entries.map (·.1)).Nodup := by
  have hsublist : ∀ (labels : List String) (values : List Value),
      ((labels.zip values).map (·.1)).Sublist labels := by
    intro labels
    induction labels with
    | nil => simp
    | cons label rest ih =>
      intro values
      cases values with
      | nil => simp
      | cons v values => exact (ih values).cons_cons label
  exact h.sublist (hsublist _ _)

/-- A row with distinct labels has every value for the member of its column. -/
theorem Row.valueFor?_of_mem {row : Row} {m : TypeMapping} {entry : String × Value} {name : String}
    (hnames : (m.members.map (·.name)).Nodup) (hlabels : row.labels.Nodup)
    (hentry : entry ∈ row.entries) (hlabel : m.Labels entry.1 name) :
    row.valueFor? m name = some entry.2 :=
  TypeMapping.valueIn?_of_mem hnames (Row.nodup_entries hlabels) hentry hlabel

/-! ## Instances -/

namespace Instance

variable {i j : Instance} {m : TypeMapping} {row : Row} {entry : String × Value}
  {entries : List (String × Value)}

/-- Values were loaded into the instance: a member has the value that counts for it, both committed
and current, and is otherwise as it was. So is every member without such a value. -/
structure TookIn (i : Instance) (m : TypeMapping) (entries : List (String × Value))
    (j : Instance) : Prop where
  entity : j.entity = i.entity
  loaded : ∀ name v, m.valueIn? entries name = some v →
    ∃ x y, i.member? name = some x ∧ x.loadValue v = .ok y ∧ j.member? name = some y
  kept : ∀ name, m.valueIn? entries name = none → j.member? name = i.member? name

/-- The row was loaded into the instance. -/
def TookOver (i : Instance) (m : TypeMapping) (row : Row) (j : Instance) : Prop :=
  i.TookIn m row.entries j

/-- The labelled value loads into the member of its column, or the label is no column. -/
def Loads (i : Instance) (m : TypeMapping) (entry : String × Value) : Prop :=
  ∀ name, m.Labels entry.1 name →
    ∃ x y, i.member? name = some x ∧ x.loadValue entry.2 = .ok y

/-- The values that load are those that are not refused. -/
theorem refusal?_eq_none : i.refusal? m entry = none ↔ i.Loads m entry := by
  unfold refusal? Loads TypeMapping.Labels
  cases m.byColumn? entry.1 with
  | none => simp
  | some column =>
    simp only [Option.bind_some, Option.some.injEq, exists_eq_left', forall_eq', typeOf?,
      TrackedMember.loadValue_eq_ok]
    cases i.member? column.name with
    | none => simp
    | some x =>
      simp only [Option.map_some, Option.some.injEq, exists_eq_left', exists_and_left]
      cases x.type.ofValue entry.2 with
      | error cause => simp
      | ok a => simp

instance (i : Instance) (m : TypeMapping) (entry : String × Value) : Decidable (i.Loads m entry) :=
  decidable_of_iff _ refusal?_eq_none

/-- A value that is not refused is loaded into the member of its column. -/
theorem member?_taken (h : i.refusal? m entry = none) (name : String) :
    (m.Labels entry.1 name → ∃ x y, i.member? name = some x ∧ x.loadValue entry.2 = .ok y
        ∧ (i.taken m entry).member? name = some y)
      ∧ (¬m.Labels entry.1 name → (i.taken m entry).member? name = i.member? name) := by
  have hloads := refusal?_eq_none.1 h
  unfold taken
  cases hcolumn : m.byColumn? entry.1 with
  | none => simp [TypeMapping.Labels, hcolumn]
  | some column =>
    obtain ⟨x, y, hx, hy⟩ := hloads column.name ⟨column, hcolumn, rfl⟩
    have hname : y.name = column.name := by
      obtain ⟨a, -, rfl⟩ := TrackedMember.loadValue_eq_ok.1 hy
      show x.name = _
      exact name_of_member? hx
    have hload : i.loadValue column.name entry.2 = .ok (some (i.replace y)) := by
      unfold loadValue
      rw [hx]
      dsimp only
      rw [hy]
      rfl
    simp only [Option.map_some, hload]
    -- the column labels one member, and only this one is replaced
    constructor
    · rintro ⟨column', hcolumn', rfl⟩
      rw [hcolumn] at hcolumn'
      cases hcolumn'
      exact ⟨x, y, hx, hy, by rw [member?_replace, if_pos hname, hx]; rfl⟩
    · intro hother
      have hne : y.name ≠ name := fun hsame => hother ⟨column, hcolumn, hname.symm.trans hsame⟩
      rw [member?_replace, if_neg hne]

theorem entity_taken (i : Instance) (m : TypeMapping) (entry : String × Value) :
    (i.taken m entry).entity = i.entity := by
  unfold taken
  split
  · rename_i loaded hloaded
    obtain ⟨column, -, hload⟩ := Option.map_eq_some_iff.1 hloaded
    unfold loadValue at hload
    split at hload
    · cases hload
    · obtain ⟨y, -, hloaded⟩ := Except.map_eq_ok.1 hload
      cases hloaded
      rfl
  · rfl

theorem refusal?_foldl (i : Instance) (m : TypeMapping) (entries : List (String × Value)) :
    (entries.foldl (·.taken m ·) i).refusal? m = i.refusal? m := by
  induction entries generalizing i with
  | nil => rfl
  | cons entry rest ih => rw [List.foldl_cons, ih, refusal?_taken]

/-- Values of which none is refused are all loaded. -/
theorem tookIn_foldl (h : ∀ entry ∈ entries, i.refusal? m entry = none) :
    i.TookIn m entries (entries.foldl (·.taken m ·) i) := by
  -- the last value is loaded last, and counts for its member
  induction entries using List.reverseRecOn with
  | nil => exact ⟨rfl, fun name v hv => absurd hv (Option.some_ne_none v).symm, fun _ _ => rfl⟩
  | append_singleton entries last ih =>
    have before := ih fun entry hentry => h entry (List.mem_append_left _ hentry)
    rw [List.foldl_append, List.foldl_cons, List.foldl_nil]
    have hlast : (entries.foldl (·.taken m ·) i).refusal? m last = none := by
      rw [refusal?_foldl]
      exact h last (by simp)
    generalize entries.foldl (·.taken m ·) i = j at before hlast ⊢
    refine ⟨(entity_taken j m last).trans before.entity, fun name v hv => ?_, fun name hnone => ?_⟩
    · obtain ⟨hloaded, hkept⟩ := member?_taken hlast name
      rw [TypeMapping.valueIn?_concat] at hv
      split at hv
      · rename_i hlabel
        cases hv
        obtain ⟨y, z, hy, hz, htaken⟩ := hloaded hlabel
        cases hvalue : m.valueIn? entries name with
        | none =>
          rw [before.kept name hvalue] at hy
          exact ⟨y, z, hy, hz, htaken⟩
        | some w =>
          obtain ⟨x, y', hx, hload, hy'⟩ := before.loaded name w hvalue
          rw [hy] at hy'
          cases hy'
          exact ⟨x, z, hx, TrackedMember.loadValue_loadValue hload hz, htaken⟩
      · rename_i hlabel
        rw [hkept hlabel]
        exact before.loaded name v hv
    · rw [TypeMapping.valueIn?_concat] at hnone
      split at hnone
      · cases hnone
      · rename_i hlabel
        rw [(member?_taken hlast name).2 hlabel]
        exact before.kept name hnone

/-- A row is taken over unless one of its values is refused; the first of them is the failure. -/
theorem load_cases (i : Instance) (m : TypeMapping) (row : Row) :
    (row.entries.findSome? (i.refusal? m) = none →
        (i.load m row).outcome = .ok () ∧ i.TookOver m row (i.load m row).target)
      ∧ ∀ e, row.entries.findSome? (i.refusal? m) = some e → (i.load m row).outcome = .error e := by
  obtain ⟨houtcome, htarget⟩ := loadEntries_eq i m row.entries
  unfold load
  refine ⟨fun hfirst => ?_, fun e hfirst => ?_⟩ <;> rw [hfirst] at houtcome
  · have hnone : ∀ entry ∈ row.entries, i.refusal? m entry = none :=
      List.findSome?_eq_none_iff.1 hfirst
    have hall : row.entries.takeWhile (fun entry => (i.refusal? m entry).isNone) = row.entries :=
      List.takeWhile_eq_self_iff.2 fun entry hentry => by simp [hnone entry hentry]
    rw [hall] at htarget
    exact ⟨houtcome, htarget ▸ tookIn_foldl hnone⟩
  · exact houtcome

/-- Loading changes no type. -/
theorem TookOver.typeOf? (h : i.TookOver m row j) (name : String) :
    j.typeOf? name = i.typeOf? name := by
  unfold Instance.typeOf?
  cases hvalue : m.valueIn? row.entries name with
  | none => rw [h.kept name hvalue]
  | some v =>
    obtain ⟨x, y, hx, hy, hmember⟩ := h.loaded name v hvalue
    obtain ⟨a, -, rfl⟩ := TrackedMember.loadValue_eq_ok.1 hy
    rw [hx, hmember]
    rfl

/-- The member has what the value converts to, both committed and current. -/
def Holds (i : Instance) (name : String) (v : Value) : Prop :=
  ∃ x, i.member? name = some x ∧ x.type.ofValue v = .ok x.cell.committed
    ∧ x.type.ofValue v = .ok x.cell.current

theorem TookOver.holds (h : i.TookOver m row j) {name : String} {v : Value}
    (hv : row.valueFor? m name = some v) : j.Holds name v := by
  obtain ⟨x, y, -, hy, hmember⟩ := h.loaded name v hv
  obtain ⟨a, ha, rfl⟩ := TrackedMember.loadValue_eq_ok.1 hy
  exact ⟨_, hmember, ha, ha⟩

end Instance

end RowMapper
